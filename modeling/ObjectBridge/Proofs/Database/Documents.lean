import ObjectBridge.Database.Document
import ObjectBridge.Proofs.Except
import ObjectBridge.Proofs.NameMap

/-! Documents of classes. A tag is read back from its text unless it names a class by a built-in
word or by no identifier, so classes that are written into a document are read back one by one, and
the document loads exactly as they do. -/
namespace ObjectBridge

namespace Tag

/-- A letter of ASCII or an underscore. -/
def BeginsName (c : Char) : Prop := ('A' ≤ c ∧ c ≤ 'Z') ∨ ('a' ≤ c ∧ c ≤ 'z') ∨ c = '_'

def ContinuesName (c : Char) : Prop := BeginsName c ∨ ('0' ≤ c ∧ c ≤ '9')

def Identifier (s : String) : Prop :=
  ∃ first rest, s.toList = first :: rest ∧ BeginsName first ∧ ∀ c ∈ rest, ContinuesName c

/-- The spellings that name no class. -/
def builtIn : List String :=
  ["nil","void","bool","int","float","String","Object","Variant"]

/-- The class that the tag names, if any, is named by an identifier that is no built-in spelling. -/
def Spellable (tag : Tag) : Prop := ∀ cls, tag.cls? = some cls → Identifier cls ∧ cls ∉ builtIn

theorem isIdentifierStart_iff (c : Char) : isIdentifierStart c = true ↔ BeginsName c := by
  have letters : isIdentifierStart c = (decide ('A' ≤ c ∧ c ≤ 'Z') ||
      (decide ('a' ≤ c) && decide (c ≤ 'z')) || c == '_') := rfl
  simp only [letters,BeginsName,Bool.or_eq_true,Bool.and_eq_true,decide_eq_true_eq,beq_iff_eq,
    or_assoc]

theorem isIdentifierRest_iff (c : Char) : isIdentifierRest c = true ↔ ContinuesName c := by
  have same : isIdentifierRest c = (isIdentifierStart c || c.isDigit) := by
    simp only [isIdentifierRest,isIdentifierStart,Char.isAlphanum,Bool.or_right_comm]
  rw [same,Bool.or_eq_true,isIdentifierStart_iff]
  simp only [ContinuesName,Char.isDigit,Bool.and_eq_true,decide_eq_true_eq,Char.le_def,ge_iff_le]

theorem isIdentifier_iff (s : String) : isIdentifier s = true ↔ Identifier s := by
  unfold isIdentifier Identifier
  cases s.toList with
  | nil => simp
  | cons first rest =>
    simp only [Bool.and_eq_true,List.all_eq_true,isIdentifierStart_iff,isIdentifierRest_iff]
    constructor
    · rintro ⟨begins,continues⟩
      exact ⟨first,rest,rfl,begins,continues⟩
    · rintro ⟨_,_,same,begins,continues⟩
      obtain ⟨rfl,rfl⟩ := List.cons.inj same
      exact ⟨begins,continues⟩

theorem parse?_class {s : String} (other : s ∉ builtIn) :
    parse? s = if isIdentifier s then some (.object (some s)) else none := by
  simp only [builtIn,List.mem_cons,List.not_mem_nil,or_false,not_or] at other
  simp [parse?,other]

/-- Every identifier is the spelling of a tag, and nothing else is. -/
theorem exists_parse?_iff (s : String) : (∃ tag, parse? s = some tag) ↔ Identifier s := by
  rw [← isIdentifier_iff]
  by_cases word : s ∈ builtIn
  · have known : ∀ s ∈ builtIn, (parse? s).isSome = true ∧ isIdentifier s = true := by decide
    obtain ⟨read,identifier⟩ := known s word
    exact iff_of_true (Option.isSome_iff_exists.mp read) identifier
  · rw [parse?_class word]
    split <;> simp_all

/-- The text of a tag is the spelling that it was read from, except that nil is also spelled void. -/
theorem text_of_parse? {s : String} {tag : Tag} (read : parse? s = some tag) :
    tag.text = if s = "void" then "nil" else s := by
  by_cases word : s ∈ builtIn
  · have known : ∀ s ∈ builtIn, (parse? s).map text = some (if s = "void" then "nil" else s) := by
      decide
    have same := known s word
    rwa [read,Option.map_some,Option.some.injEq] at same
  · rw [parse?_class word] at read
    split at read
    · cases read
      have other : s ≠ "void" := fun same => word (same ▸ by decide)
      simp [text,other]
    · cases read

theorem Spellable.parse?_text {tag : Tag} (spellable : tag.Spellable) :
    parse? tag.text = some tag := by
  cases tag with
  | object cls =>
    cases cls with
    | none => rfl
    | some name =>
      obtain ⟨identifier,other⟩ := spellable name rfl
      rw [text,parse?_class other,if_pos ((isIdentifier_iff name).mpr identifier)]
  | _ => rfl

end Tag

/-- Its tags can be spelled, and each property is kept under its own name. -/
structure ClassDecl.Writable (c : ClassDecl) : Prop where
  params : ∀ m ∈ c.methods, ∀ tag ∈ m.params, tag.Spellable
  returns : ∀ m ∈ c.methods, m.returns.Spellable
  properties : ∀ (key : String) (p : PropertyDecl),
    c.properties[key]? = some p → p.name = key ∧ p.tag.Spellable

/-- What is written piece by piece is read back piece by piece. -/
theorem mapM_written {write : α → β} {read : β → Except ε α} {l : List α}
    (each : ∀ a ∈ l, read (write a) = .ok a) : (l.map write).mapM read = .ok l := by
  rw [mapM_eq_ok,List.forall₂_map_left_iff,List.forall₂_same]
  exact each

theorem parseTag_text {tag : Tag} (spellable : tag.Spellable) (context : String) :
    parseTag context tag.text = .ok tag := by
  rw [parseTag,spellable.parse?_text]

namespace ClassRecord

variable (r : ClassRecord)

theorem method_record {m : MethodDecl} (params : ∀ tag ∈ m.params, tag.Spellable)
    (returns : m.returns.Spellable) : r.method m.record = .ok m := by
  have read : (m.params.map (·.text)).mapM (parseTag (r.context m.name)) = .ok m.params :=
    mapM_written fun tag member => parseTag_text (params tag member) _
  exact bind_eq_ok.mpr ⟨m.params,read,bind_eq_ok.mpr ⟨m.returns,parseTag_text returns _,rfl⟩⟩

theorem property_record {p : PropertyDecl} (spellable : p.tag.Spellable) :
    r.property p.record = .ok p :=
  bind_eq_ok.mpr ⟨p.tag,parseTag_text spellable _,rfl⟩

end ClassRecord

/-- A map is made again from its values, where each tells the name that it stands under. -/
theorem NameMap.ofPairs_values {map : NameMap α} {name : α → String}
    (named : ∀ (key : String) (a : α), map[key]? = some a → name a = key) :
    ofPairs (map.values.map fun a => (name a,a)) = map := by
  have listed (key : String) (a : α) :
      (key,a) ∈ map.values.map (fun a => (name a,a)) ↔ map[key]? = some a := by
    rw [List.mem_map]
    constructor
    · rintro ⟨b,member,same⟩
      obtain ⟨rfl,rfl⟩ := Prod.mk.inj same
      obtain ⟨key,found⟩ := mem_values.mp member
      rwa [named key b found]
    · intro found
      exact ⟨a,mem_values.mpr ⟨key,found⟩,by rw [named key a found]⟩
  apply Std.ExtTreeMap.ext_getElem?
  intro key
  apply Option.ext
  intro a
  rw [ofPairs_eq_some,listed]
  intro b c first second
  exact Option.some.inj (((listed key b).mp first).symm.trans ((listed key c).mp second))

theorem ClassDecl.Writable.decl_record {c : ClassDecl} (writable : c.Writable) :
    c.record.decl = .ok c := by
  have methods : c.record.methods.mapM c.record.method = .ok c.methods :=
    mapM_written fun m member =>
      c.record.method_record (writable.params m member) (writable.returns m member)
  have properties : c.record.properties.mapM c.record.property = .ok c.properties.values := by
    refine mapM_written fun p member => ?_
    obtain ⟨key,found⟩ := NameMap.mem_values.mp member
    exact c.record.property_record (writable.properties key p found).2
  have kept : NameMap.ofPairs (c.properties.values.map fun p => (p.name,p)) = c.properties :=
    NameMap.ofPairs_values fun key p found => (writable.properties key p found).1
  refine bind_eq_ok.mpr ⟨c.methods,methods,bind_eq_ok.mpr ⟨c.properties.values,properties,?_⟩⟩
  rw [kept]
  rfl

namespace Database

/-- The document of writable classes loads as the classes do, be it to the same database or to the
same error. Tags are what its spelling could lose: the text of one that can be spelled is read back,
identifiers and nothing else are read, and only void is not the text of what it is read as. -/
theorem document_loads_alike {classes : List ClassDecl} (writable : ∀ c ∈ classes, c.Writable)
    (constants : NameMap Int64) :
    ofDocument (Document.ofClasses classes constants) = ofClasses classes constants ∧
    (∀ tag : Tag, tag.Spellable → Tag.parse? tag.text = some tag) ∧
    (∀ s, (∃ tag, Tag.parse? s = some tag) ↔ Tag.Identifier s) ∧
    ∀ s tag, Tag.parse? s = some tag → tag.text = if s = "void" then "nil" else s := by
  have read : (Document.ofClasses classes constants).classes.mapM (·.decl) = .ok classes :=
    mapM_written fun c member => (writable c member).decl_record
  refine ⟨?_,fun _ => Tag.Spellable.parse?_text,Tag.exists_parse?_iff,fun _ _ => Tag.text_of_parse?⟩
  have version : (Document.ofClasses classes constants).version = formatVersion := rfl
  rw [ofDocument,if_neg (not_not_intro version),read]
  rfl

/-- The class of covers is missing. -/
def album : ClassDecl :=
  { name := "Album"
    methods := [{ name := "get_cover", returns := .object (some "Cover") },
      { name := "set_cover", params := [.object (some "Cover")] },
      { name := "rate", params := [.int,.object none,.variant] }]
    properties := NameMap.ofPairs
      [("cover",{ name := "cover", tag := .object (some "Cover"), getter := "get_cover"
                  setter := some "set_cover" })] }

theorem album_document_lacks_cover : album.Writable ∧
    ofDocument (Document.ofClasses [album] ∅) =
      .error (.unknownTag "Cover" "Album.get_cover") := by
  have spellable : ∀ cls, cls = "Cover" → Tag.Identifier cls ∧ cls ∉ Tag.builtIn := by
    rintro _ rfl
    exact ⟨(Tag.isIdentifier_iff _).mp (by decide),by decide⟩
  have writable : album.Writable := by
    constructor
    case params | returns =>
      simp +contextual [album,Tag.Spellable,Tag.cls?,eq_comm,spellable]
    case properties =>
      intro key p found
      have member := (NameMap.ofPairs_eq_some (by simp +contextual)).mp found
      simp only [List.mem_singleton,Prod.mk.injEq] at member
      obtain ⟨rfl,rfl⟩ := member
      exact ⟨rfl,fun cls named => spellable cls (Option.some.inj named).symm⟩
  refine ⟨writable,?_⟩
  rw [(document_loads_alike (List.forall_mem_singleton.mpr writable) ∅).1]
  rfl

end Database
end ObjectBridge
