import ObjectBridge.Proofs.Engine.Lineage
import ObjectBridge.Proofs.Engine.Record
import Mathlib.Data.List.Nodup

/-! Histories of an engine. What happens in direct steps can be told by their answers as a few kinds
of events. Objects are born one after another under handles that count up; none comes back before
2^64 births. -/
namespace ObjectBridge

namespace HandleMap

variable {map : HandleMap α} {h k : Handle} {a b : α}

theorem found_of_insert (found : (map.insert h a)[k]? = some b) :
    h = k ∧ a = b ∨ h ≠ k ∧ map[k]? = some b := by
  by_cases same : h = k
  · subst same
    exact .inl ⟨rfl,Option.some.inj (Std.ExtTreeMap.getElem?_insert_self.symm.trans found)⟩
  · rw [Std.ExtTreeMap.getElem?_insert,if_neg (by simpa using same)] at found
    exact .inr ⟨same,found⟩

theorem found_of_erase (found : (map.erase h)[k]? = some b) : h ≠ k ∧ map[k]? = some b := by
  rw [Std.ExtTreeMap.getElem?_erase] at found
  by_cases same : h = k
  · simp [same] at found
  · exact ⟨same,by simpa [same] using found⟩

theorem erase_absent (absent : map[h]? = none) : map.erase h = map := by
  apply Std.ExtTreeMap.ext_getElem?
  intro k
  rw [Std.ExtTreeMap.getElem?_erase]
  by_cases same : h = k
  · simp [same,same ▸ absent]
  · simp [same]

end HandleMap

namespace Engine

variable {e d : Engine} {step : Step} {history later : List Step} {h : Handle}

/-! Births -/

/-- An object at its creation. -/
structure Birth where
  handle : Handle
  cls : String
  deriving DecidableEq

/-- The class of the object that a direct step is to create. -/
def Step.creates? : Step → Option String
  | .create cls | .instantiate cls | .registerSingleton _ cls => some cls
  | _ => none

/-- The object that a step creates, unless it is refused. -/
def birth? (e : Engine) (step : Step) : Option Birth :=
  match step.creates?, run step e with
  | some cls, .ok (.handle h) _ => some ⟨h,cls⟩
  | _, _ => none

/-- The objects that direct steps create, the latest first. -/
def births (e : Engine) : List Step → List Birth
  | [] => []
  | step :: rest => (e.after step).births rest ++ (e.birth? step).toList

theorem births_append (e : Engine) (history later : List Step) :
    e.births (history ++ later) = (history.foldl after e).births later ++ e.births history := by
  induction history generalizing e with
  | nil => simp [births]
  | cons step history ih => simp [births,ih]

/-! Events -/

/-- What may happen to the objects and the names of an engine. -/
inductive Event where
  /-- An object is created; the defaults are those of its class at the time. -/
  | created (h : Handle) (cls : String) (defaults : String → Option Variant)
  | published (name : String) (h : Handle)
  | destroyed (h : Handle)
  | wrote (h : Handle) (field : String) (value : Variant)

def Event.birth? : Event → Option Birth
  | .created h cls _ => some ⟨h,cls⟩
  | _ => none

/-- What happens in a direct step by its answer, the latest first; nothing if it is refused. -/
def events (e : Engine) (step : Step) : List Event :=
  match step, run step e with
  | .create cls, .ok (.handle h) _ => [.created h cls (e.default? cls)]
  | .instantiate cls, .ok (.handle h) _ => [.created h cls (e.default? cls)]
  | .registerSingleton name cls, .ok (.handle h) _ =>
    [.published name h,.created h cls (e.default? cls)]
  | .destroy h, .ok (.flag true) _ => [.destroyed h]
  | .setField h field value, .ok .done _ => [.wrote h field value]
  | _, _ => []

/-- What happens in direct steps, the latest first. -/
def story (e : Engine) : List Step → List Event
  | [] => []
  | step :: rest => (e.after step).story rest ++ e.events step

/-- What an event does. -/
inductive Effect (e : Engine) : Event → Engine → Prop where
  | created (cls : String) : Effect e (.created e.next cls (e.default? cls)) { e with
      objects := e.objects.insert e.next ⟨cls,e.initialFields cls⟩
      next := ⟨e.next.raw + 1⟩ }
  | published (name : String) (h : Handle) :
      Effect e (.published name h) { e with singletons := e.singletons.insert name h }
  | destroyed {h : Handle} : h ∈ e.objects →
      Effect e (.destroyed h) { e with objects := e.objects.erase h }
  | wrote {h : Handle} {o : EngineObject} (field : String) (value : Variant) :
      e.objects[h]? = some o → Effect e (.wrote h field value) { e with
        objects := e.objects.insert h { o with fields := o.fields.insert field value } }

/-- Nothing has happened; classes and methods may have changed. -/
structure Quiet (e d : Engine) : Prop where
  objects : d.objects = e.objects
  singletons : d.singletons = e.singletons
  next : d.next = e.next

/-- A tale leads from one state to the other by its events, of which it has the latest first. -/
inductive Tale (e : Engine) : List Event → Engine → Prop where
  | nil : Tale e [] e
  | quiet {told : List Event} {c d : Engine} : Tale e told c → Quiet c d → Tale e told d
  | event {told : List Event} {c d : Engine} {event : Event} :
      Tale e told c → Effect c event d → Tale e (event :: told) d

theorem Tale.trans {told more : List Event} {c : Engine} (first : Tale e told d)
    (second : Tale d more c) : Tale e (more ++ told) c := by
  induction second with
  | nil => exact first
  | quiet _ quiet ih => exact ih.quiet quiet
  | event _ effect ih => exact ih.event effect

theorem changeClass_quiet (e : Engine) (name : String) (change : EngineClass → EngineClass) :
    Quiet e (e.changeClass name change) := by
  unfold changeClass
  split <;> exact ⟨rfl,rfl,rfl⟩

/-- The outcome of an attempt to create an object. -/
inductive Attempt (e : Engine) (cls : String) :
    EStateM.Result ChannelError Engine Handle → Prop where
  | refused {fault : ChannelError} : Attempt e cls (.error fault e)
  | created {d : Engine} : Effect e (.created e.next cls (e.default? cls)) d →
      Attempt e cls (.ok e.next d)

theorem create_attempt (e : Engine) (cls : String) : Attempt e cls (create cls e) := by
  unfold create
  split
  · exact .created (.created cls)
  · exact .refused

theorem instantiate_attempt (e : Engine) (cls : String) : Attempt e cls (instantiate cls e) := by
  unfold instantiate
  split
  · exact .refused
  · split
    · exact create_attempt e cls
    · exact .refused

theorem lookupSingleton_state (name : String) (e : Engine) :
    left (lookupSingleton name) e = e := by
  unfold left lookupSingleton
  cases (e.singletons[name]? : Option Handle) with
  | none => rfl
  | some h => cases alive : e.isAlive h <;> simp [alive]

theorem object_state (h : Handle) (e : Engine) : left (object h) e = e := by
  unfold left object
  cases (e.objects[h]? : Option EngineObject) <;> rfl

/-- A direct step is told by its answer. -/
theorem events_tale (e : Engine) (direct : step.IsDirect) :
    Tale e (e.events step) (e.after step) := by
  have same (unchanged : e.after step = e) : Tale e [] (e.after step) := by
    rw [unchanged]
    exact .nil
  cases step with
  | call => exact direct.elim
  | defineClass | registerMethod | isAlive | describe => exact .quiet .nil ⟨rfl,rfl,rfl⟩
  | setDefault cls field value => exact .quiet .nil (changeClass_quiet e cls _)
  | setInstantiable cls instantiable => exact .quiet .nil (changeClass_quiet e cls _)
  | lookupSingleton name =>
    exact same ((after_run .handle rfl e).trans (lookupSingleton_state name e))
  | field h name =>
    exact same ((after_run .value rfl e).trans ((left_map _ _ e).trans (object_state h e)))
  | classNameOf h =>
    exact same ((after_run .text rfl e).trans ((left_map _ _ e).trans (object_state h e)))
  | create cls =>
    have attempt := create_attempt e cls
    simp only [events,after,run,bind,EStateM.bind]
    generalize create cls e = result at attempt
    cases attempt with
    | refused => exact .nil
    | created effect => exact .event .nil effect
  | instantiate cls =>
    have attempt := instantiate_attempt e cls
    simp only [events,after,run,bind,EStateM.bind]
    generalize instantiate cls e = result at attempt
    cases attempt with
    | refused => exact .nil
    | created effect => exact .event .nil effect
  | registerSingleton name cls =>
    have attempt := create_attempt e cls
    simp only [events,after,run,registerSingleton,bind,EStateM.bind]
    generalize create cls e = result at attempt
    cases attempt with
    | refused => exact .nil
    | created effect => exact .event (.event .nil effect) (.published name _)
  | destroy h =>
    simp only [events,after,run,destroy,bind,EStateM.bind]
    cases alive : e.isAlive h with
    | true => exact .event .nil (.destroyed (Std.ExtTreeMap.mem_iff_contains.mpr alive))
    | false =>
      have absent := Std.ExtTreeMap.getElem?_eq_none_of_contains_eq_false alive
      exact .quiet .nil ⟨HandleMap.erase_absent absent,rfl,rfl⟩
  | setField h name value =>
    simp only [events,after,run,setField,object,bind,EStateM.bind]
    cases found : (e.objects[h]? : Option EngineObject) with
    | none => exact .nil
    | some o => exact .event .nil (.wrote name value found)

/-- Direct steps are told by their answers. -/
theorem story_tale (e : Engine) (direct : ∀ step ∈ history, step.IsDirect) :
    Tale e (e.story history) (history.foldl after e) := by
  induction history generalizing e with
  | nil => exact .nil
  | cons step history ih =>
    obtain ⟨first,rest⟩ := List.forall_mem_cons.mp direct
    exact (e.events_tale first).trans (ih (e.after step) rest)

theorem events_births (e : Engine) (step : Step) :
    (e.events step).filterMap Event.birth? = (e.birth? step).toList := by
  cases step with
  | create cls | instantiate cls | registerSingleton name cls =>
    simp only [events,birth?,Step.creates?]
    cases run _ e with
    | ok answer d => cases answer <;> rfl
    | error fault d => rfl
  | destroy h | setField h field value =>
    simp only [events,birth?,Step.creates?]
    split <;> simp_all [Event.birth?]
  | _ => rfl

/-- The births of a story are those of its steps. -/
theorem story_births (e : Engine) (history : List Step) :
    (e.story history).filterMap Event.birth? = e.births history := by
  induction history generalizing e with
  | nil => rfl
  | cons step history ih => simp [births,story,ih,events_births]

/-! Records of births -/

/-- Every object of the engine has been born, and the handles of births count up from one. -/
structure Chronicle (births : List Birth) (e : Engine) : Prop where
  known : ∀ (h : Handle) (o : EngineObject), e.objects[h]? = some o → ⟨h,o.cls⟩ ∈ births
  next : e.next = ⟨UInt64.ofNat (births.length + 1)⟩
  handles : births.map (·.handle) =
    (List.range births.length).reverse.map fun i => ⟨UInt64.ofNat (i + 1)⟩

theorem chronicle_empty : Chronicle [] {} := ⟨by simp,rfl,rfl⟩

namespace Chronicle

variable {past : List Birth}

/-- A creation is entered; nothing else changes what objects there are and of which classes. -/
theorem advance (chronicle : Chronicle past e) {event : Event} (effect : Effect e event d) :
    Chronicle (event.birth?.toList ++ past) d := by
  cases effect with
  | created cls =>
    refine ⟨?_,?_,?_⟩
    · intro h o there
      rcases HandleMap.found_of_insert there with ⟨rfl,rfl⟩ | ⟨_,before⟩
      · exact List.mem_cons_self
      · exact List.mem_cons_of_mem _ (chronicle.known h o before)
    · simp [chronicle.next,Event.birth?,UInt64.ofNat_add]
    · simp [chronicle.next,chronicle.handles,Event.birth?,List.range_succ]
  | published name h => exact ⟨chronicle.known,chronicle.next,chronicle.handles⟩
  | destroyed member =>
    refine ⟨?_,chronicle.next,chronicle.handles⟩
    intro k o there
    exact chronicle.known k o (HandleMap.found_of_erase there).2
  | @wrote h old field value found =>
    refine ⟨?_,chronicle.next,chronicle.handles⟩
    intro k o there
    rcases HandleMap.found_of_insert there with ⟨rfl,rfl⟩ | ⟨_,before⟩
    · exact chronicle.known h old found
    · exact chronicle.known k o before

theorem carry (chronicle : Chronicle past e) {told : List Event} (tale : Tale e told d) :
    Chronicle (told.filterMap Event.birth? ++ past) d := by
  induction tale with
  | nil => exact chronicle
  | quiet _ quiet ih => exact ⟨quiet.objects ▸ ih.known,quiet.next.trans ih.next,ih.handles⟩
  | @event told c d event _ effect ih =>
    have more := ih.advance effect
    rw [List.filterMap_cons]
    cases born : event.birth? <;> rw [born] at more <;> exact more

theorem extend (chronicle : Chronicle past e) {history : List Step}
    (direct : ∀ step ∈ history, step.IsDirect) :
    Chronicle (e.births history ++ past) (history.foldl after e) := by
  rw [← story_births]
  exact chronicle.carry (e.story_tale direct)

/-- Before 2^64 births handles count up from one. -/
theorem numbers (chronicle : Chronicle past e) (few : past.length < UInt64.size) :
    past.map (·.handle.raw.toNat) = (List.range past.length).reverse.map (· + 1) := by
  have raw := congrArg (List.map fun h : Handle => h.raw.toNat) chronicle.handles
  rw [List.map_map,List.map_map] at raw
  refine raw.trans (List.map_congr_left ?_)
  intro i member
  have below := List.mem_range.mp (List.mem_reverse.mp member)
  have size : UInt64.size = 18446744073709551616 := rfl
  show (UInt64.ofNat (i + 1)).toNat = i + 1
  rw [UInt64.toNat_ofNat',Nat.mod_eq_of_lt (by omega)]

/-- Before 2^64 births each handle is among the numbers from one on. -/
theorem number_le (chronicle : Chronicle past e) (few : past.length < UInt64.size) {birth : Birth}
    (born : birth ∈ past) :
    0 < birth.handle.raw.toNat ∧ birth.handle.raw.toNat ≤ past.length := by
  have listed := List.mem_map_of_mem (f := fun b : Birth => b.handle.raw.toNat) born
  rw [chronicle.numbers few,List.mem_map] at listed
  obtain ⟨i,member,same⟩ := listed
  have below := List.mem_range.mp (List.mem_reverse.mp member)
  omega

/-- As long as the next birth is not the 2^64th one, its handle is greater than all before. -/
theorem lt_next (chronicle : Chronicle past e) (few : past.length + 1 < UInt64.size)
    {birth : Birth} (born : birth ∈ past) : birth.handle.raw < e.next.raw := by
  have number := chronicle.number_le (Nat.lt_of_succ_lt few) born
  have next : e.next.raw.toNat = past.length + 1 := by
    rw [chronicle.next]
    exact UInt64.toNat_ofNat_of_lt' few
  rw [UInt64.lt_iff_toNat_lt]
  omega

/-- Before 2^64 births the next handle is new. The 2^64th birth has the number 0. -/
theorem ne_next (chronicle : Chronicle past e) (few : past.length < UInt64.size) {birth : Birth}
    (born : birth ∈ past) : birth.handle ≠ e.next := by
  intro same
  by_cases last : past.length + 1 < UInt64.size
  · have less := chronicle.lt_next last born
    rw [same] at less
    exact UInt64.lt_irrefl _ less
  · have number := chronicle.number_le few born
    have round : past.length + 1 = UInt64.size := by omega
    rw [same,chronicle.next,round] at number
    exact absurd number.1 (by decide)

/-- Before 2^64 births no handle comes back. -/
theorem distinct (chronicle : Chronicle past e) (few : past.length < UInt64.size) :
    (past.map (·.handle)).Nodup := by
  apply List.Nodup.of_map fun h : Handle => h.raw.toNat
  have numbers := chronicle.numbers few
  rw [List.map_map]
  change (past.map (·.handle.raw.toNat)).Nodup
  rw [numbers]
  apply List.Nodup.map (fun i j same => by omega)
  exact List.nodup_reverse.mpr List.nodup_range

/-- Before 2^64 births a handle has one class for good. -/
theorem unique (chronicle : Chronicle past e) (few : past.length < UInt64.size) {a b : Birth}
    (ma : a ∈ past) (mb : b ∈ past) (same : a.handle = b.handle) : a = b :=
  List.inj_on_of_nodup_map (chronicle.distinct few) ma mb same

/-- A live object was born once, with the class that it has. -/
theorem born_iff (chronicle : Chronicle past e) (few : past.length < UInt64.size) {h : Handle}
    {o : EngineObject} (there : e.objects[h]? = some o) (cls : String) :
    ⟨h,cls⟩ ∈ past ↔ cls = o.cls := by
  have known := chronicle.known h o there
  constructor
  · intro born
    exact (Birth.mk.inj (chronicle.unique few born known rfl)).2
  · rintro rfl
    exact known

end Chronicle
end Engine
end ObjectBridge
