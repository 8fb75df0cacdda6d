import ObjectBridge.Engine.Call

/-! Fields behind accessors. Where no class above an object has the method of an accessor's name,
the name tells the field that is read or written, and a write changes that field of that object
and nothing else. -/
namespace ObjectBridge

theorem afterLeading_append (leading rest : String) :
    afterLeading leading (leading ++ rest) = some rest := by
  simp [afterLeading]

theorem afterLeading_eq_some {leading s rest : String} :
    afterLeading leading s = some rest ↔ s = leading ++ rest := by
  constructor
  · intro read
    obtain ⟨starts,read⟩ := Option.ite_none_right_eq_some.mp read
    obtain ⟨tail,shape⟩ := List.isPrefixOf_iff_prefix.mp starts
    obtain rfl := Option.some.inj read
    apply String.toList_inj.mp
    simp [← shape]
  · rintro rfl
    exact afterLeading_append leading rest

theorem getterField?_get (name : String) : getterField? ("get_" ++ name) = some name := by
  rw [getterField?,afterLeading_append,Option.some_or]

theorem getterField?_is (name : String) : getterField? ("is_" ++ name) = some name := by
  have other : afterLeading "get_" ("is_" ++ name) = none := by
    simp [afterLeading]
  rw [getterField?,other,afterLeading_append,Option.none_or]

theorem setterField?_set (name : String) : setterField? ("set_" ++ name) = some name :=
  afterLeading_append "set_" name

theorem getterField?_set (name : String) : getterField? ("set_" ++ name) = none := by
  simp [getterField?,afterLeading]

/-- The method's name is that of a reader of the field. -/
def ReaderOf (method field : String) : Prop := method = "get_" ++ field ∨ method = "is_" ++ field

theorem getterField?_eq_some {method field : String} :
    getterField? method = some field ↔ ReaderOf method field := by
  constructor
  · intro read
    rcases Option.or_eq_some_iff.mp read with first | ⟨_,second⟩
    · exact .inl (afterLeading_eq_some.mp first)
    · exact .inr (afterLeading_eq_some.mp second)
  · rintro (rfl | rfl)
    · exact getterField?_get field
    · exact getterField?_is field

theorem setterField?_eq_some {method field : String} :
    setterField? method = some field ↔ method = "set_" ++ field := afterLeading_eq_some

namespace Engine

/-- The object, if there is one, is of a class at or above which nobody has the method. -/
def Unhandled (e : Engine) (h : Handle) (method : String) : Prop :=
  ∀ o : EngineObject, e.objects[h]? = some o →
    ∀ cls ∈ e.lineage o.cls, e.methods.get? cls method = none

/-- One field of one object has a value, and all else is as before. -/
structure Overwrites (e : Engine) (h : Handle) (name : String) (value : Variant) (d : Engine) :
    Prop where
  field : ∃ o o' : EngineObject, e.objects[h]? = some o ∧ d.objects[h]? = some o' ∧
    o'.cls = o.cls ∧ o'.fields[name]? = some value ∧
    ∀ other : String, other ≠ name → o'.fields[other]? = o.fields[other]?
  others : ∀ k, k ≠ h → (d.objects[k]? : Option EngineObject) = e.objects[k]?
  count : d.objectCount = e.objectCount
  classes : d.classes = e.classes
  singletons : d.singletons = e.singletons
  methods : d.methods = e.methods
  next : d.next = e.next

variable {e d : Engine} {h k : Handle} {method name : String} {value : Variant}
  {args : List Variant}

/-- A call runs the nearest body, or else is an access to a field. -/
theorem call_eq (h : Handle) (method : String) (args : List Variant) (e : Engine) :
    call h method args e =
      match e.objects[h]? with
      | none => .error (.destroyedObject h) e
      | some o =>
        match e.findMethod? o.cls method with
        | some body => primitives.eval (primitives.callWithin (callDepth - 1)) h args body e
        | none => primitives.accessField o.cls h method args e := by
  show primitives.dispatch (primitives.callWithin (callDepth - 1)) h method args e = _
  simp only [Primitives.dispatch,primitives,classNameOf,object,bind,EStateM.bind]
  cases (e.objects[h]? : Option EngineObject) with
  | none => rfl
  | some o =>
    have same : (get : EngineM Engine) e = .ok e e := rfl
    simp only [same,pure,EStateM.pure]
    cases e.findMethod? o.cls method <;> rfl

theorem call_unhandled (unhandled : e.Unhandled h method) : call h method args e =
    match e.objects[h]? with
    | none => .error (.destroyedObject h) e
    | some o => primitives.accessField o.cls h method args e := by
  rw [call_eq]
  cases found : (e.objects[h]? : Option EngineObject) with
  | none => rfl
  | some o =>
    have none : e.findMethod? o.cls method = none :=
      List.findSome?_eq_none_iff.mpr (unhandled o found)
    simp only [none]

theorem call_reads (unhandled : e.Unhandled h method) (reads : getterField? method = some name) :
    call h method [] e = field h name e := by
  rw [call_unhandled unhandled]
  cases found : (e.objects[h]? : Option EngineObject) with
  | none => simp only [field,object,bind,EStateM.bind,found]
  | some o => simp only [Primitives.accessField,reads,primitives]

theorem call_writes (unhandled : e.Unhandled h ("set_" ++ name)) :
    call h ("set_" ++ name) [value] e =
      match e.objects[h]? with
      | none => .error (.destroyedObject h) e
      | some o => .ok .nil { e with
          objects := e.objects.insert h { o with fields := o.fields.insert name value } } := by
  rw [call_unhandled unhandled]
  cases found : (e.objects[h]? : Option EngineObject) with
  | none => rfl
  | some o =>
    simp only [Primitives.accessField,getterField?_set,setterField?_set,primitives,setField,object,
      bind,EStateM.bind,found]
    rfl

theorem overwrites {o : EngineObject} (found : e.objects[h]? = some o) (name : String)
    (value : Variant) : e.Overwrites h name value { e with
      objects := e.objects.insert h { o with fields := o.fields.insert name value } } where
  field := by
    refine ⟨o,_,found,Std.ExtTreeMap.getElem?_insert_self,rfl,
      Std.ExtTreeMap.getElem?_insert_self,?_⟩
    intro other apart
    simp [Std.ExtTreeMap.getElem?_insert,apart.symm]
  others k apart := by simp [Std.ExtTreeMap.getElem?_insert,apart.symm]
  count := by
    have there : e.objects.contains h = true := by
      rw [Std.ExtTreeMap.contains_eq_isSome_getElem?,found]
      rfl
    rw [objectCount,Std.ExtTreeMap.size_insert,if_pos there]
    rfl
  classes := rfl
  singletons := rfl
  methods := rfl
  next := rfl

namespace Overwrites

theorem reads_back (overwrites : e.Overwrites h name value d) :
    Engine.field h name d = .ok value d := by
  obtain ⟨o,o',_,found,_,written,_⟩ := overwrites.field
  simp only [Engine.field,object,bind,EStateM.bind,found]
  rw [Std.ExtTreeMap.getD_eq_getD_getElem?,written]
  rfl

theorem walk_eq (overwrites : e.Overwrites h name value d) (seen : List String) (fuel : Nat)
    (cls : String) : d.walk seen fuel cls = e.walk seen fuel cls := by
  induction fuel generalizing seen cls with
  | zero => rfl
  | succ fuel ih => simp only [walk,parent?,overwrites.classes,ih]

theorem unhandled (overwrites : e.Overwrites h name value d) (before : e.Unhandled h method) :
    d.Unhandled h method := by
  intro o' found' cls above
  obtain ⟨o,o'',found,there,same,_⟩ := overwrites.field
  obtain rfl := Option.some.inj (there.symm.trans found')
  rw [same,lineage,overwrites.walk_eq,overwrites.classes] at above
  rw [overwrites.methods]
  exact before o found cls above

end Overwrites
end Engine
end ObjectBridge
