import ObjectBridge.Bridge
import ObjectBridge.Engine.Step
import ObjectBridge.Proofs.Lattice.Inheritance

/-! Accessors. A property crosses by its own coercion and its accessors by those of their tags. The
tags are assignable, so what is sent for the property is welcome at its setter, and what may come
from its getter can be received for it. For objects this rests on the order of the classes, in which
a wrapper of another lattice need not have a place. -/
namespace ObjectBridge

/-- How a native method reads an argument that it declares by the tag. No argument is nil. -/
def Tag.wanted? : Tag → Option Wanted
  | .nil => none
  | .bool => some (.required .bool)
  | .int => some (.required .int)
  | .float => some (.required .float)
  | .string => some (.required .string)
  | .object _ => some (.optional .object)
  | .variant => some .anything

/-- A native method that declares the tag can read the raw value. -/
def Tag.Takes (tag : Tag) (raw : Variant) : Prop :=
  ∃ wanted converted, tag.wanted? = some wanted ∧ raw.convert wanted = .ok converted

namespace Crossing

/-- What is sent for a value. -/
inductive Sends (strict : Bool) : Coercion → Value → Variant → Prop where
  | any : Sends strict .any v v.toRaw
  | nothing : Sends strict .discard .nil .nil
  | bool : Sends strict .bool (.bool b) (.bool b)
  | int : Sends strict .int (.int i) (.int i)
  | float : Sends strict .float (.float x) (.float x)
  | widened : Sends strict .float (.int i) (.float i.toFloat)
  | string : Sends strict .string (.string s) (.string s)
  | nil : Sends strict (.object cls) .nil .nil
  | object : accepts strict cls w = true → Sends strict (.object cls) (.object w) (.object w.handle)

variable {l : Lattice} {strict : Bool} {a b c : Coercion} {v : Value} {raw : Variant}
  {value target tag : Tag} {ids : NameMap ClassId} {classes : List ClassDecl}

theorem toVariant_eq_ok : toVariant l strict c v = .ok raw ↔ Sends strict c v raw := by
  constructor
  · intro sent
    unfold toVariant at sent
    split at sent
    case h_9 =>
      split at sent
      · rename_i welcome
        cases sent
        exact .object welcome
      · cases sent
    case h_10 => cases sent
    all_goals
      cases sent
      constructor
  · intro sent
    cases sent with
    | object welcome => simp [toVariant,welcome]
    | _ => rfl

theorem ofTag?_object {cls : Option String} (coerced : Coercion.ofTag? ids (.object cls) = some c) :
    ∃ id, c = .object id := by
  cases cls with
  | none =>
    cases coerced
    exact ⟨none,rfl⟩
  | some name =>
    obtain ⟨id,_,rfl⟩ := Option.map_eq_some_iff.mp coerced
    exact ⟨some id,rfl⟩

/-- What a tag lets through can be read where the tag is declared. -/
theorem takes_of_sends (value : tag ≠ .nil) (coerced : Coercion.ofTag? ids tag = some c)
    (sent : Sends strict c v raw) : tag.Takes raw := by
  cases tag with
  | nil => exact absurd rfl value
  | object cls =>
    obtain ⟨id,rfl⟩ := ofTag?_object coerced
    cases sent <;> exact ⟨_,_,rfl,rfl⟩
  | variant =>
    cases coerced
    exact ⟨_,_,rfl,rfl⟩
  | _ =>
    cases coerced
    cases sent <;> exact ⟨_,_,rfl,rfl⟩

theorem takes_of_assignable (assignable : Assignable classes value target)
    (taken : value.Takes raw) : target.Takes raw := by
  cases assignable with
  | same => exact taken
  | variant => exact ⟨_,_,rfl,rfl⟩
  | object => exact taken
  | above => exact taken
  | widen =>
    obtain ⟨_,converted,wanted,read⟩ := taken
    cases wanted
    cases raw with
    | int i => exact ⟨_,_,rfl,rfl⟩
    | _ => cases read

/-- Objects are received alike, whatever their class is to be. -/
theorem receive_object {cls other : Option String}
    (coerced : Coercion.ofTag? ids (.object cls) = some a)
    (coercedOther : Coercion.ofTag? ids (.object other) = some b) :
    receive b raw = receive a raw := by
  obtain ⟨i,rfl⟩ := ofTag?_object coerced
  obtain ⟨j,rfl⟩ := ofTag?_object coercedOther
  cases raw <;> rfl

/-- What is received by a tag is received by every tag that it is assignable to. -/
theorem receive_of_assignable (assignable : Assignable classes value target)
    (coercedValue : Coercion.ofTag? ids value = some a)
    (coercedTarget : Coercion.ofTag? ids target = some b) {r : Received}
    (received : receive a raw = .ok r) : ∃ r, receive b raw = .ok r := by
  cases assignable with
  | same =>
    obtain rfl := Option.some.inj (coercedValue.symm.trans coercedTarget)
    exact ⟨r,received⟩
  | variant =>
    cases coercedTarget
    cases raw <;> exact ⟨_,rfl⟩
  | widen =>
    cases coercedValue
    cases coercedTarget
    cases raw with
    | string s => cases received
    | object h => cases received
    | _ => exact ⟨_,rfl⟩
  | object => exact ⟨r,(receive_object coercedValue coercedTarget).trans received⟩
  | above => exact ⟨r,(receive_object coercedValue coercedTarget).trans received⟩

end Crossing

namespace Lattice

variable {db : Database} {options : Options} {l : Lattice} {given : List ClassDecl}
  {constants : NameMap Int64} {t : TypeInfo} {c sub sup : ClassDecl} {i j : ClassId} {strict : Bool}
  {a b : Coercion} {value target : Tag} {v : Value} {raw : Variant}

/-- Below a class is below every class above that. -/
theorem isSubtypeOf_above (loaded : Database.Loaded given constants db)
    (made : Synthesized db options l) (found : l.byId? t.id = some t)
    (reach : Relation.ReflTransGen (Parent given) sub sup) (lower : l.ids[sub.name]? = some i)
    (upper : l.ids[sup.name]? = some j) (below : t.isSubtypeOf i = true) :
    t.isSubtypeOf j = true := by
  rcases Relation.ReflTransGen.cases_head_iff.mp reach with rfl | ⟨_,parent,_⟩
  · obtain rfl := Option.some.inj (lower.symm.trans upper)
    exact below
  · have self : l.ids[t.name]? = some t.id := made.id_of_found found
    have subclass {name : String} {k : ClassId} (known : l.ids[name]? = some k) :
        l.isSubclass t.name name = t.isSubtypeOf k := by
      simp [isSubclass,self,known,isSubtype,found]
    have mt := made.decl_mem found
    have ms : sub ∈ db.classes := loaded.mem_iff.mpr parent.1
    have above : sup ∈ db.ancestors sub.name := (loaded.mem_ancestors_iff ms).mpr reach
    have mp := loaded.ancestors_within ms sup above
    rw [← isSubclass_eq made found lower] at below
    rw [← isSubclass_eq made found upper]
    have first := (isSubclass_iff loaded made mt ms).mp below
    exact (isSubclass_iff loaded made mt mp).mpr
      (loaded.treeOrder.trans _ mt _ ms _ first above)

/-- The ancestors of the wrapper's type are those of a type of the lattice. -/
def Akin (l : Lattice) (w : Wrapper) : Prop :=
  ∃ t, l.byId? t.id = some t ∧ t.chain = w.type.chain

/-- An object that is welcome where a class is wanted is welcome where one above it is. -/
theorem accepts_above (loaded : Database.Loaded given constants db)
    (made : Synthesized db options l) (reach : Relation.ReflTransGen (Parent given) sub sup)
    (lower : l.ids[sub.name]? = some i) (upper : l.ids[sup.name]? = some j) {w : Wrapper}
    (akin : strict = true → sub.name ≠ sup.name → l.Akin w)
    (welcome : Crossing.accepts strict (some i) w = true) :
    Crossing.accepts strict (some j) w = true := by
  cases strict with
  | false => rfl
  | true =>
    by_cases same : sub.name = sup.name
    · rw [same,upper] at lower
      exact Option.some.inj lower ▸ welcome
    · -- only the chain of the type is asked, so the type of the lattice may stand in for it
      obtain ⟨t,found,chain⟩ := akin rfl same
      simp only [Crossing.accepts,TypeInfo.isSubtypeOf,← chain] at welcome ⊢
      exact isSubtypeOf_above loaded made found reach lower upper welcome

/-- A wrapper of another lattice, where a strict bridge wants one of a class and then of another
class. -/
structure Foreign (l : Lattice) (strict : Bool) (value target : Tag) (v : Value) : Prop where
  strict : strict = true
  classes : ∃ sub sup : String,
    value = .object (some sub) ∧ target = .object (some sup) ∧ sub ≠ sup
  strange : ∃ w, v = .object w ∧ ¬l.Akin w

/-- What may be sent by a tag may be sent by every tag that it is assignable to. -/
theorem sends_of_assignable (loaded : Database.Loaded given constants db)
    (made : Synthesized db options l) (assignable : Assignable given value target)
    (coercedValue : Coercion.ofTag? l.ids value = some a)
    (coercedTarget : Coercion.ofTag? l.ids target = some b)
    (own : ¬Foreign l strict value target v) (sent : Crossing.Sends strict a v raw) :
    ∃ raw, Crossing.Sends strict b v raw := by
  cases assignable with
  | same =>
    obtain rfl := Option.some.inj (coercedValue.symm.trans coercedTarget)
    exact ⟨raw,sent⟩
  | variant =>
    cases coercedTarget
    exact ⟨_,.any⟩
  | widen =>
    cases coercedValue
    cases coercedTarget
    cases sent
    exact ⟨_,.widened⟩
  | object =>
    obtain ⟨i,rfl⟩ := Crossing.ofTag?_object coercedValue
    cases coercedTarget
    cases sent with
    | nil => exact ⟨_,.nil⟩
    | object => exact ⟨_,.object rfl⟩
  | @above sub sup reach =>
    obtain ⟨i,lower,rfl⟩ := Option.map_eq_some_iff.mp coercedValue
    obtain ⟨j,upper,rfl⟩ := Option.map_eq_some_iff.mp coercedTarget
    cases sent with
    | nil => exact ⟨_,.nil⟩
    | @object _ w welcome =>
      refine ⟨_,.object (accepts_above loaded made reach lower upper ?_ welcome)⟩
      intro checked apart
      exact Classical.byContradiction fun strange =>
        own ⟨checked,⟨_,_,rfl,rfl,apart⟩,w,rfl,strange⟩

/-- What goes in for a property goes in at its setter too, unless it is foreign, and what comes out
of its getter comes out as the property. -/
structure Usable (db : Database) (l : Lattice) (strict : Bool) (c : ClassDecl) (p : PropertyDecl) :
    Prop where
  set : ∀ setter, p.setter = some setter → ∃ m param a b,
    db.index.findMethod? c setter = some m ∧ m.params = [param] ∧
    Coercion.ofTag? l.ids p.tag = some a ∧ Coercion.ofTag? l.ids param = some b ∧
    ∀ v raw, Crossing.toVariant l strict a v = .ok raw → param.Takes raw ∧
      (¬Foreign l strict p.tag param v → ∃ raw, Crossing.toVariant l strict b v = .ok raw)
  get : ∃ m a b, db.index.findMethod? c p.getter = some m ∧
    Coercion.ofTag? l.ids m.returns = some a ∧ Coercion.ofTag? l.ids p.tag = some b ∧
    (m.returns ≠ .variant → ∀ raw r, Crossing.receive a raw = .ok r →
      ∃ r, Crossing.receive b raw = .ok r)

theorem usable (loaded : Database.Loaded given constants db) (made : Synthesized db options l)
    (strict : Bool) (member : c ∈ db.classes) {key : String} {p : PropertyDecl}
    (declared : c.properties[key]? = some p) : Usable db l strict c p := by
  have mc := loaded.mem_iff.mp member
  have fits := (loaded.acceptable.members c mc).properties key p declared
  have known : ∀ d ∈ given, ∃ id : ClassId, l.ids[d.name]? = some id := by
    intro d md
    obtain ⟨t,_,rfl,found⟩ := made.exists_get? (loaded.mem_iff.mpr md)
    exact ⟨t.id,made.id_of_found found⟩
  -- the tags of an accessor are declared along with the class that has it
  have accessor {name : String} {owner : ClassDecl} {m : MethodDecl}
      (nearest : Nearest given (·.method? name) c owner m) :
      db.index.findMethod? c name = some m ∧ FitsMethod given m := by
    obtain ⟨mo,found⟩ := nearest.found mc
    exact ⟨(loaded.given_indexes.findMethod?_iff loaded.acceptable.acyclic mc).mpr ⟨owner,nearest⟩,
      (loaded.acceptable.members owner mo).methods m (List.mem_of_find?_eq_some found)⟩
  obtain ⟨crossing,coerced⟩ := Bind.ofTag?_exists known fits.tag.2
  constructor
  case set =>
    intro setter named
    obtain ⟨owner,m,nearest,param,single,assignable⟩ := fits.setter setter named
    obtain ⟨resolved,fit⟩ := accessor nearest
    have parameter := fit.params param (by simp [single])
    obtain ⟨b,coercedParam⟩ := Bind.ofTag?_exists known parameter.2
    refine ⟨m,param,crossing,b,resolved,single,coerced,coercedParam,?_⟩
    intro v raw sent
    have sent := Crossing.toVariant_eq_ok.mp sent
    refine ⟨Crossing.takes_of_assignable assignable
      (Crossing.takes_of_sends fits.tag.1 coerced sent),?_⟩
    intro own
    obtain ⟨direct,sentDirectly⟩ :=
      sends_of_assignable loaded made assignable coerced coercedParam own sent
    exact ⟨direct,Crossing.toVariant_eq_ok.mpr sentDirectly⟩
  case get =>
    obtain ⟨owner,m,nearest,_,returns⟩ := fits.getter
    obtain ⟨resolved,fit⟩ := accessor nearest
    obtain ⟨a,coercedReturns⟩ := Bind.ofTag?_exists known fit.returns
    refine ⟨m,a,crossing,resolved,coercedReturns,coerced,?_⟩
    intro typed raw r received
    have assignable := returns.resolve_left typed
    exact Crossing.receive_of_assignable assignable coercedReturns coerced received

/-- Every property of a loaded database is usable through its accessors. -/
theorem accessors_usable (loaded : Database.ofClasses given constants = .ok db)
    (options : Options) : ∃ l, ofDatabase db options = .ok l ∧
      ∀ strict, ∀ c ∈ db.classes, ∀ (key : String) (p : PropertyDecl),
        c.properties[key]? = some p → Usable db l strict c p := by
  have facts := Database.loaded_of_ok loaded
  obtain ⟨l,run,made⟩ := ofDatabase_ok facts options
  exact ⟨l,run,fun strict _ member _ _ declared => usable facts made strict member declared⟩

/-! A view of viewports -/

/-- Viewports are right below the class of the given name. -/
def nodes (above : String) : List ClassDecl :=
  [{ name := "Object" },{ name := "Node", parent := some "Object" },
   { name := "Viewport", parent := some above }]

def setView : MethodDecl := { name := "set_view", params := [.object (some "Node")] }

def view : PropertyDecl where
  name := "view"
  tag := .object (some "Viewport")
  getter := "get_view"
  setter := some "set_view"

/-- A tree shows a viewport, and its setter takes any node. -/
def tree : ClassDecl where
  name := "SceneTree"
  parent := some "Object"
  methods := [{ name := "get_view", returns := .object (some "Viewport") },setView]
  properties := NameMap.ofPairs [("view",view)]

def scene : List ClassDecl := nodes "Node" ++ [tree]

/-- In the scene a viewport is sent as one of class 2 for the view, and as one of class 1 at the
setter. -/
structure Shows (db : Database) (l : Lattice) : Prop where
  loaded : Database.ofClasses scene ∅ = .ok db
  run : ofDatabase db {} = .ok l
  member : tree ∈ db.classes
  declared : tree.properties["view"]? = some view
  setter : db.index.findMethod? tree "set_view" = some setView
  value : Coercion.ofTag? l.ids view.tag = some (.object (some 2))
  param : Coercion.ofTag? l.ids (.object (some "Node")) = some (.object (some 1))

theorem exists_shows : ∃ db l, Shows db l := by
  obtain ⟨db,loaded,member,setter⟩ : ∃ db, Database.ofClasses scene ∅ = .ok db ∧
      tree ∈ db.classes ∧ db.index.findMethod? tree "set_view" = some setView :=
    ⟨_,rfl,.tail _ (.tail _ (.tail _ (.head _))),rfl⟩
  obtain ⟨l,run,_⟩ := ofDatabase_ok (Database.loaded_of_ok loaded) {}
  have computed : (Database.ofClasses scene ∅ >>= fun db => ofDatabase db {} >>= fun l =>
      .ok (Coercion.ofTag? l.ids view.tag,Coercion.ofTag? l.ids (.object (some "Node")))) =
      .ok (some (.object (some 2)),some (.object (some 1))) := rfl
  simp only [loaded,run,bind,Except.bind,Except.ok.injEq,Prod.mk.injEq] at computed
  obtain ⟨value,param⟩ := computed
  exact ⟨db,l,loaded,run,member,rfl,setter,value,param⟩

/-- A bridge to an engine where viewports are no nodes hands out a viewport. Its class has the id
that viewports have in the scene, so it goes in for the view; but at the setter it is no node. -/
theorem foreign_viewport_stopped : ∃ db l, Shows db l ∧
    ∃ other bridge world w after, Database.ofClasses (nodes "Object") ∅ = .ok other ∧
      Bridge.start other Engine.channel {}
        (Engine.ofHistory (Engine.classSteps (nodes "Object"))) = .ok bridge world ∧
      bridge.instantiate "Viewport" world = .ok w after ∧
      Crossing.toVariant l true (.object (some 2)) (.object w) = .ok (.object w.handle) ∧
      ¬∃ raw, Crossing.toVariant l true (.object (some 1)) (.object w) = .ok raw := by
  obtain ⟨db,l,shows⟩ := exists_shows
  have computed : (match Database.ofClasses (nodes "Object") ∅ with
      | .error _ => none
      | .ok other =>
        match Bridge.start other Engine.channel {}
            (Engine.ofHistory (Engine.classSteps (nodes "Object"))) with
        | .error .. => none
        | .ok bridge world =>
          match bridge.instantiate "Viewport" world with
          | .error .. => none
          | .ok w _ => some w.type.chain) = some [2,0] := by decide +kernel
  refine ⟨db,l,shows,?_⟩
  split at computed
  · cases computed
  · rename_i other loaded
    split at computed
    · cases computed
    · rename_i bridge world started
      split at computed
      · cases computed
      · rename_i w after made
        have chain := Option.some.inj computed
        refine ⟨other,bridge,world,w,after,loaded,started,made,?_,?_⟩
        · simp [Crossing.toVariant,Crossing.accepts,TypeInfo.isSubtypeOf,chain]
        · simp [Crossing.toVariant,Crossing.accepts,TypeInfo.isSubtypeOf,chain]

/-- A viewport of the scene is welcome at the setter too. -/
theorem viewport_welcome_at_setter : ∃ db l, Shows db l ∧ Usable db l true tree view ∧
    ∃ t, l.get? "Viewport" = some t ∧ ∀ n h,
      Crossing.toVariant l true (.object (some 2)) (.object ⟨n,h,t⟩) = .ok (.object h) ∧
      (Tag.object (some "Node")).Takes (.object h) ∧
      ∃ raw, Crossing.toVariant l true (.object (some 1)) (.object ⟨n,h,t⟩) = .ok raw := by
  obtain ⟨db,l,shows⟩ := exists_shows
  obtain ⟨other,run,usable⟩ := accessors_usable shows.loaded {}
  obtain rfl : l = other := Except.ok.inj (shows.run.symm.trans run)
  have both := usable true tree shows.member "view" view shows.declared
  have made := synthesized_of_ok (Database.loaded_of_ok shows.loaded) run
  have computed : (Database.ofClasses scene ∅ >>= fun db => ofDatabase db {} >>= fun l =>
      .ok ((l.get? "Viewport").map (·.chain))) = .ok (some [2,1,0]) := rfl
  simp only [shows.loaded,run,bind,Except.bind,Except.ok.injEq,Option.map_eq_some_iff] at computed
  obtain ⟨t,known,chain⟩ := computed
  refine ⟨db,l,shows,both,t,known,?_⟩
  intro n h
  have goes : Crossing.toVariant l true (.object (some 2)) (.object ⟨n,h,t⟩) =
      .ok (.object h) := by
    simp [Crossing.toVariant,Crossing.accepts,TypeInfo.isSubtypeOf,chain]
  obtain ⟨m,param,a,b,resolved,single,value,coerced,sent⟩ := both.set "set_view" rfl
  obtain rfl := Option.some.inj (shows.setter.symm.trans resolved)
  obtain rfl := List.singleton_inj.mp single
  obtain rfl := Option.some.inj (shows.value.symm.trans value)
  obtain rfl := Option.some.inj (shows.param.symm.trans coerced)
  obtain ⟨takes,direct⟩ := sent _ _ goes
  refine ⟨goes,takes,direct ?_⟩
  rintro ⟨_,_,_,object,strange⟩
  cases object
  exact strange ⟨t,(made.get?_eq_some.mp known).2,rfl⟩

end Lattice
end ObjectBridge
