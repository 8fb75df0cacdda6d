import ObjectBridge.Proofs.Crossing.Accessors
import ObjectBridge.Proofs.Crossing.Arguments
import ObjectBridge.Proofs.Session.Runs

/-! Strictness. A strict bridge checks an object by the type of its wrapper, which may be old. It is
the type of the class that the object was born with, so what reaches the engine for a class is an
object of that class, as the engine sees its own classes. -/
namespace ObjectBridge

variable {given : List ClassDecl} {constants : NameMap Int64} {db : Database} {options : Options}
  {e d : Engine} {l : Lattice} {births : List Engine.Birth} {t : TypeInfo} {i : ClassId}
  {receiver w : Wrapper} {m : MethodBinding} {p : PropertyBinding} {h : Handle} {method : String}
  {raws : List Variant} {raw : Variant} {returns : Option Coercion} {args : List Value} {v : Value}
  {c : Coercion} {tag : Tag}

/-- The tags that a use brings values for. -/
def Use.tags : Use → List Tag
  | call receiver name _ =>
    match receiver.type.member? name with
    | some (.method m) => m.decl.params
    | _ => []
  | invoke _ m _ => m.decl.params
  | write receiver name _ =>
    match receiver.type.member? name with
    | some (.property p) => [p.decl.tag]
    | _ => []
  | read .. | instantiate _ => []

/-- Where a class is wanted there is no object, or one that was born of a class with that one in its
lineage. -/
def Engine.Safe (d : Engine) (births : List Birth) (tag : Tag) (raw : Variant) : Prop :=
  ∀ wanted, tag = .object (some wanted) → raw = .nil ∨
    ∃ h cls, raw = .object h ∧ ⟨h,cls⟩ ∈ births ∧ wanted ∈ d.lineage cls

/-- A type is below another one if an engine with those classes has it in the lineage. -/
theorem Lattice.isSubtypeOf_iff_lineage (loaded : Database.Loaded given constants db)
    (made : Synthesized db options l) (defines : d.Defines db) (found : l.byId? t.id = some t)
    {wanted : String} (known : l.ids[wanted]? = some i) :
    t.isSubtypeOf i = true ↔ wanted ∈ d.lineage t.name := by
  obtain ⟨a,place,rfl⟩ := (made.ids_iff wanted i).mp known
  have mt := made.decl_mem found
  have ma : a ∈ db.classes := List.mem_of_getElem? place
  have engine : d.lineage t.name = (db.ancestors t.name).map (·.name) :=
    defines.lineage_eq loaded mt
  rw [← isSubclass_eq made found known,engine,List.mem_map]
  refine (isSubclass_iff loaded made mt ma).trans ⟨fun above => ⟨a,above,rfl⟩,?_⟩
  rintro ⟨other,above,same⟩
  rwa [← loaded.indexes.eq_of_name (loaded.ancestors_within mt other above) ma same]

namespace Plan

/-- The call that is asked is the one that was planned; after it there are questions only. -/
theorem call_asked {ctx : Context σ} {world : World σ} {plan : Plan}
    (asked : .call h method raws ∈ plan.asked ctx world) :
    ∃ returns, plan = .ask h method raws returns := by
  have quiet (c : Cache) (k : Handle) : .call h method raws ∉ c.unknown k := by
    unfold Cache.unknown
    split <;> simp
  cases plan with
  | ask receiver name args returns =>
    rcases List.mem_cons.mp asked with same | later
    · cases same
      exact ⟨returns,rfl⟩
    · split at later
      · unfold Cache.unreceived at later
        split at later
        · exact absurd later (quiet _ _)
        · cases later
      · cases later
  | create cls =>
    rcases List.mem_cons.mp asked with same | later
    · cases same
    · split at later
      · exact absurd later (quiet _ _)
      · cases later
  | _ => cases asked

theorem ofArgs_ask {strict : Bool}
    (plan : ofArgs l strict receiver m args = .ask h method raws returns) :
    Crossing.Marshals l strict args m.params raws := by
  have admits := Crossing.args_admits l strict m.qualified args m.params
  unfold ofArgs at plan
  split at plan
  · cases plan
  · rename_i crossed
    cases plan
    rw [crossed] at admits
    cases admits with
    | accepted all => exact all

theorem ofWrite_ask {strict : Bool}
    (plan : ofWrite l strict receiver p v = .ask h method raws returns) :
    ∃ raw, raws = [raw] ∧ Crossing.toVariant l strict p.coercion v = .ok raw := by
  unfold ofWrite at plan
  split at plan
  · cases plan
  · split at plan
    · cases plan
    · rename_i raw crossed
      cases plan
      exact ⟨raw,rfl,crossed⟩

end Plan

namespace Session

variable {b : Bridge Engine} {world : World Engine} {start s : Session} {steps : List Step}
  {past history : List Engine.Step}

/-- A client has what the use takes: wrappers that were handed out to it, and a bound method that
was in a slot. -/
structure Obtained (b : Bridge Engine) (start : Session) (steps : List Step) (use : Use) :
    Prop where
  wrappers : ∀ w ∈ use.wrappers, HandedOut b start steps w
  method : ∀ receiver m args, use = .invoke receiver m args → ∃ part slot, part <+: steps ∧
    (start.afterAll b part).slots[(slot : String)]? = some (.method receiver m)

/-- Where unknown classes are errors, the type of a genuine wrapper is that of the class. -/
theorem Genuine.exists_type (genuine : Genuine l options births w)
    (policy : options.unknownClassFallback = .error) :
    ∃ cls, ⟨w.handle,cls⟩ ∈ births ∧ l.get? cls = some w.type := by
  obtain ⟨cls,born,resolved⟩ := genuine
  refine ⟨cls,born,?_⟩
  simp only [Context.resolve,Engine.context,policy] at resolved
  cases known : l.get? cls with
  | some t =>
    rw [known] at resolved
    exact congrArg some (Except.ok.inj resolved)
  | none =>
    rw [known] at resolved
    cases resolved

/-- The members of a genuine wrapper's type are bound from the declarations of the lattice. -/
theorem Genuine.binds (made : Lattice.Synthesized db options l)
    (genuine : Genuine l options births receiver) {name : String} {own : Member}
    (known : receiver.type.member? name = some own) :
    ∃ owner decl, Binds (fun tag c => Coercion.ofTag? l.ids tag = some c) owner name decl own :=
  Lattice.member_binds made (genuine.within made) known

section

variable (loaded : Database.Loaded given constants db) (made : Lattice.Synthesized db options l)
  (policy : options.unknownClassFallback = .error) (defines : d.Defines db)
include loaded made policy defines

theorem sent_safe (coerced : Coercion.ofTag? l.ids tag = some c)
    (genuine : ∀ w, v.object? = some w → Genuine l options births w)
    (crossed : Crossing.toVariant l true c v = .ok raw) : d.Safe births tag raw := by
  rintro wanted rfl
  obtain ⟨id,known,rfl⟩ := Option.map_eq_some_iff.mp coerced
  cases Crossing.toVariant_eq_ok.mp crossed with
  | nil => exact .inl rfl
  | @object _ w welcome =>
    obtain ⟨cls,born,typed⟩ := (genuine w rfl).exists_type policy
    obtain ⟨rfl,found⟩ := made.get?_eq_some.mp typed
    have below : w.type.isSubtypeOf id = true := by simpa [Crossing.accepts] using welcome
    exact .inr ⟨w.handle,_,rfl,born,
      (Lattice.isSubtypeOf_iff_lineage loaded made defines found known).mp below⟩

theorem marshalled_safe {tags : List Tag} {params : List Coercion}
    (coerced : List.Forall₂ (fun tag c => Coercion.ofTag? l.ids tag = some c) tags params)
    (genuine : ∀ w ∈ args.filterMap (·.object?), Genuine l options births w)
    (all : Crossing.Marshals l true args params raws) : List.Forall₂ (d.Safe births) tags raws := by
  induction all generalizing tags with
  | nil =>
    cases coerced
    exact .nil
  | @cons c v raw vs cs raws crossed rest ih =>
    cases coerced with
    | cons first others =>
      refine .cons (sent_safe loaded made policy defines first ?_ crossed) (ih others ?_)
      · exact fun w object => genuine w (List.mem_filterMap.mpr ⟨v,List.mem_cons_self,object⟩)
      · intro w member
        obtain ⟨u,mu,object⟩ := List.mem_filterMap.mp member
        exact genuine w (List.mem_filterMap.mpr ⟨u,List.mem_cons_of_mem v mu,object⟩)

theorem arguments_safe (genuine : ∀ w ∈ receiver :: args.filterMap (·.object?),
      Genuine l options births w) {name : String}
    (known : receiver.type.member? name = some (.method m))
    (all : Crossing.Marshals l true args m.params raws) :
    List.Forall₂ (d.Safe births) m.decl.params raws := by
  obtain ⟨own,others⟩ := List.forall_mem_cons.mp genuine
  obtain ⟨_,_,declared⟩ := own.binds made known
  cases declared with
  | method params _ => exact marshalled_safe loaded made policy defines params others all

theorem written_safe (genuine : ∀ w ∈ receiver :: v.object?.toList, Genuine l options births w)
    {name : String} (known : receiver.type.member? name = some (.property p))
    (crossed : Crossing.toVariant l true p.coercion v = .ok raw) :
    d.Safe births p.decl.tag raw := by
  obtain ⟨own,others⟩ := List.forall_mem_cons.mp genuine
  obtain ⟨_,_,declared⟩ := own.binds made known
  cases declared with
  | property coerced =>
    exact sent_safe loaded made policy defines coerced
      (fun w object => others w (by simp [object])) crossed

/-- What a use of genuine wrappers sends is safe. -/
theorem planned_safe (use : Use) (genuine : ∀ w ∈ use.wrappers, Genuine l options births w)
    (bound : ∀ receiver m args, use = .invoke receiver m args → (Held.method receiver m).Bound)
    (plan : use.plan l true = .ask h method raws returns) :
    List.Forall₂ (d.Safe births) use.tags raws := by
  cases use with
  | call receiver name args =>
    simp only [Use.plan,TypeInfo.member] at plan
    cases known : receiver.type.member? name with
    | none =>
      rw [known] at plan
      cases plan
    | some own =>
      rw [known] at plan
      cases own with
      | method m =>
        simp only [Use.tags,known]
        exact arguments_safe loaded made policy defines genuine known (Plan.ofArgs_ask plan)
      | _ => cases plan
  | invoke receiver m args =>
    obtain ⟨name,known⟩ := bound receiver m args rfl
    exact arguments_safe loaded made policy defines genuine known (Plan.ofArgs_ask plan)
  | read receiver name =>
    simp only [Use.plan] at plan
    split at plan
    · cases plan
    · cases plan
      exact .nil
    · cases plan
    · cases plan
    · cases plan
  | write receiver name value =>
    simp only [Use.plan,TypeInfo.member] at plan
    cases known : receiver.type.member? name with
    | none =>
      rw [known] at plan
      cases plan
    | some own =>
      rw [known] at plan
      cases own with
      | property p =>
        obtain ⟨raw,rfl,crossed⟩ := Plan.ofWrite_ask plan
        simp only [Use.tags,known]
        exact .cons (written_safe loaded made policy defines genuine known crossed) .nil
      | _ => cases plan
  | instantiate cls =>
    simp only [Use.plan] at plan
    split at plan
    · cases plan
    · split at plan <;> cases plan

end

/-- What a strict bridge sends for a class is nothing or an object of that class: whatever was done
so far, and however old the wrappers are. The engine may be looked at before, then or later, as long
as it has the classes of the database. -/
theorem strict_calls_safe (loaded : Database.ofClasses given constants = .ok db)
    (strict : options.strictObjectArgs = true) (policy : options.unknownClassFallback = .error)
    (begun : ({} : Engine).Becomes past e)
    (started : Bridge.start db Engine.channel options e = .ok b world)
    (run : Run b { world } steps history s) {use : Use} (obtained : Obtained b { world } steps use)
    (defines : d.Defines db) : ∀ h method raws,
      .call h method raws ∈ use.requests b.toContext s.world →
      List.Forall₂ (d.Safe (({} : Engine).births (past ++ history))) use.tags raws := by
  have facts := Database.loaded_of_ok loaded
  obtain ⟨l,_,founded⟩ := Engine.founded facts started
  obtain ⟨_,out⟩ := run.genuine founded begun
  intro h method raws asked
  rw [Use.requests_eq,founded.context] at asked
  have checked : (Engine.context l options).options.strictObjectArgs = true := strict
  rw [checked] at asked
  obtain ⟨returns,plan⟩ := Plan.call_asked asked
  refine planned_safe facts founded.synthesized policy defines use
    (fun w member => out w (obtained.wrappers w member)) ?_ plan
  intro receiver m args same
  obtain ⟨part,slot,_,held⟩ := obtained.method receiver m args same
  exact afterAll_bound founded part held

def face : MethodDecl := { name := "face", params := [.object (some "Actor")] }

def troupe : List ClassDecl :=
  [{ name := "Object" },
   { name := "Actor", parent := some "Object", singleton := true, methods := [face] }]

def rehearsal : List Engine.Step := Engine.classSteps troupe ++ Engine.singletonSteps troupe

def checked : Options := { strictObjectArgs := true, unknownClassFallback := .error }

/-- The object is gone when its wrapper is sent. Whatever else a client may do there is a run. -/
theorem late_actor_sent_safely : ∃ db b world single, Database.ofClasses troupe ∅ = .ok db ∧
    Bridge.start db Engine.channel checked (Engine.ofHistory rehearsal) = .ok b world ∧
    b.singletons["Actor"]? = some single ∧
    (∀ steps, ∃ history, Run b { world } steps history (afterAll b { world } steps)) ∧
    .call ⟨1⟩ "face" [.object ⟨1⟩] ∈
      (Use.call single.wrapper "face" [.object single.wrapper]).requests b.toContext
        (afterAll b { world } [.engine (.destroy ⟨1⟩)]).world ∧
    ∃ cls, ⟨⟨1⟩,cls⟩ ∈ ({} : Engine).births (rehearsal ++ [.destroy ⟨1⟩]) ∧
      "Actor" ∈ (Engine.ofHistory rehearsal).lineage cls := by
  obtain ⟨db,loaded,classes⟩ : ∃ db, Database.ofClasses troupe ∅ = .ok db ∧
      db.classes.map (fun c => (c.name,c.parent)) =
        [("Object",none),("Actor",some "Object")] := ⟨_,rfl,rfl⟩
  have defines : (Engine.ofHistory rehearsal).Defines db := by
    intro c member
    have listed : (c.name,c.parent) ∈ db.classes.map (fun c => (c.name,c.parent)) :=
      List.mem_map_of_mem member
    simp only [classes,List.mem_cons,Prod.mk.injEq,List.not_mem_nil,or_false] at listed
    rcases listed with ⟨named,parent⟩ | ⟨named,parent⟩
    all_goals
      rw [named,parent]
      exact ⟨_,rfl,rfl⟩
  have computed : (match Database.ofClasses troupe ∅ with
      | .error _ => none
      | .ok db =>
        match Bridge.start db Engine.channel checked (Engine.ofHistory rehearsal) with
        | .error .. => none
        | .ok b world => (b.singletons["Actor"]? : Option Singleton).map fun single =>
          ((Use.call single.wrapper "face" [.object single.wrapper]).requests b.toContext
            (afterAll b { world } [.engine (.destroy ⟨1⟩)]).world,
          (Use.call single.wrapper "face" [.object single.wrapper]).tags)) =
      some ([.call ⟨1⟩ "face" [.object ⟨1⟩]],[.object (some "Actor")]) := by decide +kernel
  rw [loaded] at computed
  dsimp only at computed
  split at computed
  · cases computed
  · rename_i b world started
    obtain ⟨single,published,same⟩ := Option.map_eq_some_iff.mp computed
    obtain ⟨asked,tags⟩ := Prod.mk.inj same
    have begun : ({} : Engine).Becomes rehearsal (Engine.ofHistory rehearsal) :=
      ⟨by simp [rehearsal,troupe,Engine.classSteps,Engine.singletonSteps,Engine.Step.IsDirect],rfl⟩
    have run := Run.ofEngine b { world } [.destroy ⟨1⟩] (by simp [Engine.Step.IsDirect])
    obtain ⟨_,_,founded⟩ := Engine.founded (Database.loaded_of_ok loaded) started
    have referred := mem_refs_singleton b { world } published
    have obtained : Obtained b { world } [.engine (.destroy ⟨1⟩)]
        (.call single.wrapper "face" [.object single.wrapper]) := by
      constructor
      · intro w member
        obtain rfl : w = single.wrapper := by simpa [Use.wrappers,Value.object?] using member
        exact .inl ⟨[],List.nil_prefix,referred⟩
      · intro receiver m args same
        cases same
    have member : Request.call ⟨1⟩ "face" [.object ⟨1⟩] ∈
        (Use.call single.wrapper "face" [.object single.wrapper]).requests b.toContext
          (afterAll b { world } [.engine (.destroy ⟨1⟩)]).world := by
      rw [asked]
      exact List.mem_cons_self
    have safe := strict_calls_safe loaded rfl rfl begun started run obtained defines _ _ _ member
    rw [tags] at safe
    cases safe with
    | cons first _ =>
      rcases first "Actor" rfl with nothing | ⟨h,cls,sent,born,below⟩
      · cases nothing
      · cases sent
        exact ⟨db,b,world,single,loaded,started,published,exists_run founded { world },member,cls,
          born,below⟩

end Session
end ObjectBridge
