import ObjectBridge.Proofs.Engine.Fields
import ObjectBridge.Proofs.Engine.History

/-! Dispatch. What a name means on an object is decided by the first class of its lineage that has
something for it: a new object takes its defaults from there, and a call its body. Only where no
class has a body is the call an access to a field. -/
namespace ObjectBridge

/-- Of the classes in order, the first that has something has `b`. -/
def FirstHas (has : String → Option β) (line : List String) (b : β) : Prop :=
  ∃ below cls above, line = below ++ cls :: above ∧ (∀ c ∈ below, has c = none) ∧ has cls = some b

theorem firstHas_iff {has : String → Option β} {line : List String} {b : β} :
    FirstHas has line b ↔ line.findSome? has = some b := by
  rw [List.findSome?_eq_some_iff]
  simp only [FirstHas,and_comm (a := ∀ _ ∈ _,_)]

namespace Engine

/-- A new object has for each field the default of the first class of its line that has one. -/
structure Newborn (e : Engine) (cls : String) (o : EngineObject) : Prop where
  named : o.cls = cls
  field : ∀ (name : String) (value : Variant), o.fields[name]? = some value ↔
    FirstHas (fun c => (e.defaultsOf c)[name]?) (e.lineage cls) value

/-- What decides how a call ends: the receiver, then the bodies of its classes, and the name and the
arguments only if there is none. -/
structure Dispatches (e : Engine) (h : Handle) (method : String) (args : List Variant) : Prop where
  gone : e.objects[h]? = none → call h method args e = .error (.destroyedObject h) e
  handled : ∀ (o : EngineObject) (body : Script), e.objects[h]? = some o →
    FirstHas (e.methods.get? · method) (e.lineage o.cls) body →
    call h method args e = body.eval (primitives.callWithin (callDepth - 1)) h args e
  reads : ∀ (o : EngineObject) (field : String), e.objects[h]? = some o → e.Unhandled h method →
    ReaderOf method field → args = [] →
    call h method args e = .ok (o.fields.getD field .nil) e
  writes : ∀ (o : EngineObject) (field : String) (value : Variant), e.objects[h]? = some o →
    e.Unhandled h method → method = "set_" ++ field → args = [value] →
    call h method args e = .ok .nil { e with
      objects := e.objects.insert h { o with fields := o.fields.insert field value } }
  unknown : ∀ (o : EngineObject), e.objects[h]? = some o → e.Unhandled h method →
    (∀ field, ReaderOf method field → args ≠ []) →
    (∀ field value, method = "set_" ++ field → args ≠ [value]) →
    call h method args e = .error (.unknownMethod o.cls method) e

variable {e : Engine} {step : Step} {h : Handle} {cls method : String} {args : List Variant}

/-- What a step creates is put to the objects with the fields that its class gives. -/
theorem objects_of_birth (born : e.birth? step = some ⟨h,cls⟩) :
    (e.after step).objects = e.objects.insert h ⟨cls,e.initialFields cls⟩ := by
  cases step with
  | create other =>
    have attempt := create_attempt e other
    simp only [birth?,Step.creates?,after,run,bind,EStateM.bind] at born ⊢
    generalize create other e = result at attempt born ⊢
    cases attempt with
    | refused => cases born
    | created effect => cases effect; cases born; rfl
  | instantiate other =>
    have attempt := instantiate_attempt e other
    simp only [birth?,Step.creates?,after,run,bind,EStateM.bind] at born ⊢
    generalize instantiate other e = result at attempt born ⊢
    cases attempt with
    | refused => cases born
    | created effect => cases effect; cases born; rfl
  | registerSingleton name other =>
    have attempt := create_attempt e other
    simp only [birth?,Step.creates?,after,run,registerSingleton,bind,EStateM.bind] at born ⊢
    generalize create other e = result at attempt born ⊢
    cases attempt with
    | refused => cases born
    | created effect => cases effect; cases born; rfl
  | _ => cases born

/-- The fields that a class gives are the nearest defaults. -/
theorem newborn_initialFields (e : Engine) (cls : String) :
    e.Newborn cls ⟨cls,e.initialFields cls⟩ := by
  refine ⟨rfl,?_⟩
  intro name value
  rw [initialFields_getElem?,firstHas_iff,default?]

theorem exists_newborn_of_create {d : Engine} (run : create cls e = .ok h d) :
    ∃ o : EngineObject, d.objects[h]? = some o ∧ e.Newborn cls o := by
  have attempt := create_attempt e cls
  rw [run] at attempt
  cases attempt with
  | created effect =>
    cases effect
    exact ⟨_,Std.ExtTreeMap.getElem?_insert_self,e.newborn_initialFields cls⟩

theorem exists_newborn_of_birth (born : e.birth? step = some ⟨h,cls⟩) :
    ∃ o : EngineObject, (e.after step).objects[h]? = some o ∧ e.Newborn cls o :=
  ⟨_,by rw [objects_of_birth born,Std.ExtTreeMap.getElem?_insert_self],
    e.newborn_initialFields cls⟩

theorem dispatches (e : Engine) (h : Handle) (method : String) (args : List Variant) :
    e.Dispatches h method args := by
  constructor
  case gone =>
    intro gone
    rw [call_eq,gone]
  case handled =>
    intro o body found first
    have nearest : e.findMethod? o.cls method = some body := firstHas_iff.mp first
    rw [call_eq,found]
    simp only [nearest]
    rfl
  case reads =>
    rintro o field found unhandled reader rfl
    have reads := getterField?_eq_some.mpr reader
    rw [call_reads unhandled reads]
    simp only [Engine.field,object,bind,EStateM.bind,found]
    rfl
  case writes =>
    rintro o field value found unhandled rfl rfl
    rw [call_writes unhandled,found]
  case unknown =>
    intro o found unhandled noReader noWriter
    have access : primitives.accessField o.cls h method args =
        throw (.unknownMethod o.cls method) := by
      unfold Primitives.accessField
      split
      · rename_i field reads
        exact absurd rfl (noReader field (getterField?_eq_some.mp reads))
      · rename_i field value writes
        exact absurd rfl (noWriter field value (setterField?_eq_some.mp writes))
      · rfl
    rw [call_unhandled unhandled,found]
    simp only [access]
    rfl

/-- The nearest class decides, on whatever classes are recorded: the lineage is the whole way up, a
new object starts with the nearest defaults, whether a step or the body of a method creates it, and
a call runs the nearest body. -/
theorem nearest_class_decides (e : Engine) :
    (∀ cls, e.Ancestry cls (e.lineage cls)) ∧
    (∀ step h cls, e.birth? step = some ⟨h,cls⟩ →
      ∃ o : EngineObject, (e.after step).objects[h]? = some o ∧ e.Newborn cls o) ∧
    (∀ cls h d, create cls e = .ok h d →
      ∃ o : EngineObject, d.objects[h]? = some o ∧ e.Newborn cls o) ∧
    ∀ h method args, e.Dispatches h method args :=
  ⟨e.lineage_ancestry,fun _ _ _ => exists_newborn_of_birth,
    fun _ _ _ => exists_newborn_of_create,e.dispatches⟩

/-- Lights run round in a circle, an insect is nowhere defined. -/
def tangle : List Step := [
  .defineClass "Lamp" (some "Light"),.defineClass "Light" (some "Glow"),
  .defineClass "Glow" (some "Light"),.defineClass "Moth" (some "Insect"),
  .setDefault "Glow" "heat" (.int 1),.setDefault "Light" "heat" (.int 2),
  .registerMethod "Insect" "get_wings" (.const (.int 4)),.create "Moth"]

theorem lamp_heats_like_light :
    (ofHistory tangle).lineage "Lamp" = ["Lamp","Light","Glow"] ∧
    (ofHistory tangle).Ancestry "Lamp" ["Lamp","Light","Glow"] ∧
    (∃ o : EngineObject, ((ofHistory tangle).after (.create "Lamp")).objects[(⟨2⟩ : Handle)]? =
      some o ∧ o.fields["heat"]? = some (.int 2)) ∧
    call ⟨1⟩ "get_wings" [] (ofHistory tangle) = .ok (.int 4) (ofHistory tangle) := by
  have round : (ofHistory tangle).lineage "Lamp" = ["Lamp","Light","Glow"] := by decide +kernel
  obtain ⟨lines,newborn,_,calls⟩ := nearest_class_decides (ofHistory tangle)
  refine ⟨round,round ▸ lines "Lamp",?_,?_⟩
  · obtain ⟨o,there,born⟩ := newborn (.create "Lamp") ⟨2⟩ "Lamp" (by decide +kernel)
    refine ⟨o,there,(born.field "heat" _).mpr ?_⟩
    rw [round]
    exact ⟨["Lamp"],"Light",["Glow"],rfl,by decide +kernel,by decide +kernel⟩
  · obtain ⟨moth,there,named⟩ : ∃ o : EngineObject,
        (ofHistory tangle).objects[(⟨1⟩ : Handle)]? = some o ∧ o.cls = "Moth" :=
      ⟨_,rfl,rfl⟩
    have above : (ofHistory tangle).lineage "Moth" = ["Moth","Insect"] := by decide +kernel
    have nearest : FirstHas ((ofHistory tangle).methods.get? · "get_wings")
        ((ofHistory tangle).lineage moth.cls) (.const (.int 4)) := by
      rw [named,above]
      exact ⟨["Moth"],"Insect",[],rfl,List.forall_mem_singleton.mpr rfl,rfl⟩
    exact (calls ⟨1⟩ "get_wings" []).handled moth _ there nearest

end Engine
end ObjectBridge
