import ObjectBridge.Proofs.Engine.History

/-! The store of an engine follows its story. Which objects there are, what their fields hold and
what stands under a name can be read off the events alone: the last word on each counts. -/
namespace ObjectBridge.Engine

/-- The object was created and not destroyed since. -/
def Lives (told : List Event) (h : Handle) : Prop :=
  ∃ later cls defaults earlier,
    told = later ++ .created h cls defaults :: earlier ∧ .destroyed h ∉ later

/-- The objects created, the latest first. -/
def created (told : List Event) : List Birth := told.filterMap Event.birth?

/-- The number of objects destroyed. -/
def destructions (told : List Event) : Nat :=
  told.countP fun
    | .destroyed _ => true
    | _ => false

/-- The defaults that the class of an object had at its creation. -/
def defaultsAtBirth? (told : List Event) (h : Handle) : Option (String → Option Variant) :=
  told.findSome? fun
    | .created k _ defaults => if k = h then some defaults else none
    | _ => none

/-- The last value written to a field. -/
def lastWrite? (told : List Event) (h : Handle) (field : String) : Option Variant :=
  told.findSome? fun
    | .wrote k name value => if k = h ∧ name = field then some value else none
    | _ => none

/-- The last value written to a field, or else its default when the object was created. -/
def content? (told : List Event) (h : Handle) (field : String) : Option Variant :=
  (lastWrite? told h field).or ((defaultsAtBirth? told h).bind (· field))

/-- The last object published under a name. -/
def published? (told : List Event) (name : String) : Option Handle :=
  told.findSome? fun
    | .published other h => if other = name then some h else none
    | _ => none

/-- What an engine answers about its objects is what its story says. -/
structure Follows (told : List Event) (e : Engine) : Prop where
  inOrder : (created told).reverse.map (·.handle.raw.toNat) = List.range' 1 (created told).length
  distinct : ((created told).map (·.handle)).Nodup
  alive : ∀ h, e.isAlive h = true ↔ Lives told h
  count : e.objectCount + destructions told = (created told).length
  field : ∀ h name, Lives told h → field h name e = .ok ((content? told h name).getD .nil) e
  fieldGone : ∀ h name, ¬ Lives told h → Engine.field h name e = .error (.destroyedObject h) e
  singleton : ∀ name h, published? told name = some h → Lives told h →
    lookupSingleton name e = .ok h e
  singletonGone : ∀ name h, published? told name = some h → ¬ Lives told h →
    lookupSingleton name e = .error (.destroyedObject h) e
  unpublished : ∀ name, published? told name = none →
    lookupSingleton name e = .error (.unknownSingleton name) e

/-- The tables of an engine have what its story says. -/
structure Mirrors (told : List Event) (e : Engine) : Prop where
  alive : ∀ h, h ∈ e.objects ↔ Lives told h
  fields : ∀ (h : Handle) (o : EngineObject), e.objects[h]? = some o →
    ∀ name : String, o.fields[name]? = content? told h name
  singletons : ∀ name : String, e.singletons[name]? = published? told name
  count : e.objects.size + destructions told = (created told).length
  /-- Nothing was written to an object that was not created. -/
  unborn : ∀ h, h ∉ (created told).map (·.handle) → ∀ name, lastWrite? told h name = none

variable {told : List Event} {e d : Engine} {event : Event} {h k : Handle}

theorem lives_cons : Lives (event :: told) h ↔
    (∃ cls defaults, event = .created h cls defaults) ∨ event ≠ .destroyed h ∧ Lives told h := by
  constructor
  · rintro ⟨later,cls,defaults,earlier,same,kept⟩
    cases later with
    | nil =>
      obtain ⟨rfl,rfl⟩ := List.cons.inj same
      exact .inl ⟨cls,defaults,rfl⟩
    | cons last later =>
      obtain ⟨rfl,rfl⟩ := List.cons.inj same
      obtain ⟨apart,kept⟩ := not_or.mp (mt List.mem_cons.mpr kept)
      exact .inr ⟨Ne.symm apart,later,cls,defaults,earlier,rfl,kept⟩
  · rintro (⟨cls,defaults,rfl⟩ | ⟨apart,later,cls,defaults,earlier,rfl,kept⟩)
    · exact ⟨[],cls,defaults,told,rfl,List.not_mem_nil⟩
    · exact ⟨event :: later,cls,defaults,earlier,rfl,by simp [Ne.symm apart,kept]⟩

section

variable {cls name other : String} {value : Variant} {defaults : String → Option Variant}

@[simp] theorem created_created :
    created (.created h cls defaults :: told) = ⟨h,cls⟩ :: created told := rfl

@[simp] theorem destructions_destroyed :
    destructions (.destroyed h :: told) = destructions told + 1 := by
  simp [destructions]

@[simp] theorem destructions_created :
    destructions (.created h cls defaults :: told) = destructions told := by
  simp [destructions]

@[simp] theorem lastWrite?_wrote : lastWrite? (.wrote k other value :: told) h name =
    if k = h ∧ other = name then some value else lastWrite? told h name := by
  by_cases same : k = h ∧ other = name <;> simp [lastWrite?,same]

@[simp] theorem lastWrite?_created :
    lastWrite? (.created k cls defaults :: told) h name = lastWrite? told h name := rfl

@[simp] theorem defaultsAtBirth?_wrote :
    defaultsAtBirth? (.wrote k name value :: told) h = defaultsAtBirth? told h := rfl

@[simp] theorem defaultsAtBirth?_created : defaultsAtBirth? (.created k cls defaults :: told) h =
    if k = h then some defaults else defaultsAtBirth? told h := by
  by_cases same : k = h <;> simp [defaultsAtBirth?,same]

@[simp] theorem published?_published : published? (.published other h :: told) name =
    if other = name then some h else published? told name := by
  by_cases same : other = name <;> simp [published?,same]

end

theorem mirrors_empty : Mirrors [] {} where
  alive h := by simp [Lives]
  fields h o there := by simp at there
  singletons name := by simp [published?]
  count := rfl
  unborn h _ name := rfl

namespace Mirrors

theorem quiet (mirrors : Mirrors told e) (quiet : Quiet e d) : Mirrors told d where
  alive := quiet.objects ▸ mirrors.alive
  fields := quiet.objects ▸ mirrors.fields
  singletons := quiet.singletons ▸ mirrors.singletons
  count := quiet.objects ▸ mirrors.count
  unborn := mirrors.unborn

theorem published (mirrors : Mirrors told e) (name : String) (h : Handle) :
    Mirrors (.published name h :: told) { e with singletons := e.singletons.insert name h } where
  alive k := by simpa [lives_cons] using mirrors.alive k
  fields := mirrors.fields
  singletons other := by
    rw [published?_published,Std.ExtTreeMap.getElem?_insert,← mirrors.singletons other]
    simp
  count := mirrors.count
  unborn := mirrors.unborn

theorem destroyed (mirrors : Mirrors told e) (member : h ∈ e.objects) :
    Mirrors (.destroyed h :: told) { e with objects := e.objects.erase h } where
  alive k := by simp [lives_cons,mirrors.alive k]
  fields k o found := mirrors.fields k o (HandleMap.found_of_erase found).2
  singletons := mirrors.singletons
  count := by
    have some : e.objects.size ≠ 0 := by
      rw [Ne,← Std.ExtTreeMap.eq_empty_iff_size_eq_zero]
      rintro none
      simp [none] at member
    have count : e.objects.size + destructions told = (Engine.created told).length := mirrors.count
    have same : Engine.created (.destroyed h :: told) = Engine.created told := rfl
    rw [Std.ExtTreeMap.size_erase,if_pos (Std.ExtTreeMap.mem_iff_contains.mp member),
      destructions_destroyed,same]
    omega
  unborn := mirrors.unborn

theorem wrote {o : EngineObject} (mirrors : Mirrors told e) (name : String) (value : Variant)
    (found : e.objects[h]? = some o) (known : h ∈ (created told).map (·.handle)) :
    Mirrors (.wrote h name value :: told) { e with
      objects := e.objects.insert h { o with fields := o.fields.insert name value } } := by
  have there : h ∈ e.objects := Std.ExtTreeMap.mem_iff_isSome_getElem?.mpr (by simp [found])
  refine ⟨?_,?_,mirrors.singletons,?_,?_⟩
  · intro k
    have kept : h = k → Lives told k := by
      rintro rfl
      exact (mirrors.alive h).mp there
    simpa [lives_cons,mirrors.alive k] using kept
  · intro k o' found' other
    rcases HandleMap.found_of_insert found' with ⟨rfl,rfl⟩ | ⟨apart,before⟩
    · have old := mirrors.fields h o found other
      by_cases here : name = other
      · simp [content?,here]
      · simpa [content?,Std.ExtTreeMap.getElem?_insert,here] using old
    · have old := mirrors.fields k o' before other
      simpa [content?,apart] using old
  · rw [Std.ExtTreeMap.size_insert,if_pos (Std.ExtTreeMap.mem_iff_contains.mp there)]
    exact mirrors.count
  · intro k new other
    have apart : h ≠ k := by
      rintro rfl
      exact new known
    simpa [apart] using mirrors.unborn k new other

theorem created (mirrors : Mirrors told e) (cls : String) (absent : e.next ∉ e.objects)
    (fresh : e.next ∉ (created told).map (·.handle)) :
    Mirrors (.created e.next cls (e.default? cls) :: told) { e with
      objects := e.objects.insert e.next ⟨cls,e.initialFields cls⟩
      next := ⟨e.next.raw + 1⟩ } where
  alive k := by
    rw [Std.ExtTreeMap.mem_insert,Std.compare_eq_iff_eq,mirrors.alive k]
    simp [lives_cons]
  fields k o found name := by
    rcases HandleMap.found_of_insert found with ⟨rfl,rfl⟩ | ⟨apart,before⟩
    · simpa [content?,mirrors.unborn e.next fresh name] using e.initialFields_getElem? cls name
    · have old := mirrors.fields k o before name
      simpa [content?,apart] using old
  singletons := mirrors.singletons
  count := by
    have count := mirrors.count
    rw [Std.ExtTreeMap.size_insert,if_neg (mt Std.ExtTreeMap.mem_iff_contains.mpr absent),
      destructions_created,created_created,List.length_cons]
    omega
  unborn k new := mirrors.unborn k (by simp_all)

theorem field_eq (mirrors : Mirrors told e) (lives : Lives told h) (name : String) :
    field h name e = .ok ((content? told h name).getD .nil) e := by
  have there := (mirrors.alive h).mpr lives
  obtain ⟨o,found⟩ : ∃ o : EngineObject, e.objects[h]? = some o :=
    ⟨e.objects[h],Std.ExtTreeMap.getElem?_eq_some_getElem there⟩
  simp only [field,object,bind,EStateM.bind,found]
  rw [Std.ExtTreeMap.getD_eq_getD_getElem?,mirrors.fields h o found name]
  rfl

theorem absent (mirrors : Mirrors told e) (gone : ¬ Lives told h) : e.objects[h]? = none :=
  Std.ExtTreeMap.getElem?_eq_none (mt (mirrors.alive h).mp gone)

theorem field_gone (mirrors : Mirrors told e) (gone : ¬ Lives told h) (name : String) :
    field h name e = .error (.destroyedObject h) e := by
  simp only [field,object,bind,EStateM.bind,mirrors.absent gone]

theorem isAlive_iff (mirrors : Mirrors told e) (h : Handle) : e.isAlive h = true ↔ Lives told h :=
  Std.ExtTreeMap.mem_iff_contains.symm.trans (mirrors.alive h)

theorem lookupSingleton_eq (mirrors : Mirrors told e) {name : String}
    (found : published? told name = some h) : lookupSingleton name e =
      if e.isAlive h then .ok h e else .error (.destroyedObject h) e := by
  simp only [lookupSingleton,mirrors.singletons name,found]

theorem follows (mirrors : Mirrors told e) (chronicle : Chronicle (Engine.created told) e)
    (few : (Engine.created told).length < UInt64.size) : Follows told e where
  inOrder := by
    rw [List.map_reverse,chronicle.numbers few,← List.map_reverse,List.reverse_reverse,
      List.range'_eq_map_range]
    simp only [Nat.add_comm]
  distinct := chronicle.distinct few
  alive := mirrors.isAlive_iff
  count := mirrors.count
  field h name lives := mirrors.field_eq lives name
  fieldGone h name gone := mirrors.field_gone gone name
  singleton name h found lives := by
    rw [mirrors.lookupSingleton_eq found,if_pos ((mirrors.isAlive_iff h).mpr lives)]
  singletonGone name h found gone := by
    rw [mirrors.lookupSingleton_eq found,if_neg (mt (mirrors.isAlive_iff h).mp gone)]
  unpublished name none := by
    simp only [lookupSingleton,mirrors.singletons name,none]

end Mirrors

namespace Tale

theorem chronicle (tale : Tale {} told e) : Chronicle (created told) e := by
  simpa [created] using chronicle_empty.carry tale

theorem mirrors (tale : Tale {} told e) (few : (created told).length < UInt64.size) :
    Mirrors told e := by
  induction tale with
  | nil => exact mirrors_empty
  | quiet _ quiet ih => exact (ih few).quiet quiet
  | @event told c d event tale effect ih =>
    have fewer : (created told).length ≤ (created (event :: told)).length :=
      ((List.sublist_cons_self event told).filterMap _).length_le
    have mirrors := ih (Nat.lt_of_le_of_lt fewer few)
    -- an object of the engine was born, so a handle that was not is free and unwritten
    have known (h : Handle) (o : EngineObject) (found : c.objects[h]? = some o) :
        h ∈ (created told).map (·.handle) :=
      List.mem_map_of_mem (tale.chronicle.known h o found)
    have distinct := (tale.event effect).chronicle.distinct few
    cases effect with
    | created cls =>
      have fresh := (List.nodup_cons.mp distinct).1
      have absent : c.next ∉ c.objects := by
        intro member
        exact fresh (known _ _ (Std.ExtTreeMap.getElem?_eq_some_getElem member))
      exact mirrors.created cls absent fresh
    | published name h => exact mirrors.published name h
    | destroyed member => exact mirrors.destroyed member
    | wrote name value found => exact mirrors.wrote name value found (known _ _ found)

end Tale

/-- At every moment of a run, also within a call, an engine answers about its objects as the
story of the steps taken so far says. Direct steps are their own trace, so whoever takes them, in
whatever order, the engine follows their story. -/
theorem store_follows_story (steps : List Step) :
    ({} : Engine).Becomes (trace steps) (ofHistory steps) ∧
      ((∀ step ∈ steps, step.IsDirect) → trace steps = steps) ∧
      ∀ history, history <+: trace steps →
        (created (story {} history)).length < UInt64.size →
        Follows (story {} history) (ofHistory history) := by
  have way := trace_becomes steps
  refine ⟨way,trace_of_direct,?_⟩
  intro history early few
  have tale : Tale {} (story {} history) (ofHistory history) :=
    story_tale {} fun step member => way.direct step (early.subset member)
  exact (tale.mirrors few).follows tale.chronicle few

/-- A lamp makes another one after the default has changed, a sun is published, once more in
vain, and the first lamp is destroyed. -/
def lamps : List Step := [
  .defineClass "Lamp" none,.setDefault "Lamp" "glow" (.int 3),.create "Lamp",
  .setDefault "Lamp" "glow" (.int 5),.registerMethod "Lamp" "make" (.create "Lamp"),
  .call ⟨1⟩ "make" [],.setField ⟨1⟩ "glow" (.int 7),.registerSingleton "sun" "Lamp",
  .registerSingleton "sun" "Star",.destroy ⟨1⟩]

theorem second_lamp_has_later_default :
    (created (story {} (trace lamps))).length = 3 ∧
      field ⟨2⟩ "glow" (ofHistory lamps) = .ok (.int 5) (ofHistory lamps) ∧
      field ⟨1⟩ "glow" (ofHistory lamps) = .error (.destroyedObject ⟨1⟩) (ofHistory lamps) ∧
      lookupSingleton "sun" (ofHistory lamps) = .ok ⟨3⟩ (ofHistory lamps) := by
  obtain ⟨way,_,follows⟩ := store_follows_story lamps
  have three : (created (story {} (trace lamps))).length = 3 := by decide +kernel
  have facts := follows (trace lamps) (List.prefix_refl _) (by rw [three]; decide)
  have alike : ofHistory (trace lamps) = ofHistory lamps := way.result
  rw [alike] at facts
  have second : Lives (story {} (trace lamps)) ⟨2⟩ := (facts.alive _).mp (by decide +kernel)
  have third : Lives (story {} (trace lamps)) ⟨3⟩ := (facts.alive _).mp (by decide +kernel)
  have first : ¬ Lives (story {} (trace lamps)) ⟨1⟩ :=
    mt (facts.alive _).mpr (by decide +kernel)
  have glow : content? (story {} (trace lamps)) ⟨2⟩ "glow" = some (.int 5) := by decide +kernel
  have sun : published? (story {} (trace lamps)) "sun" = some ⟨3⟩ := by decide +kernel
  refine ⟨three,?_,facts.fieldGone _ _ first,facts.singleton _ _ sun third⟩
  rw [facts.field _ _ second,glow]
  rfl

end ObjectBridge.Engine
