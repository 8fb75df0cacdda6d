import ObjectBridge.Proofs.Bridge.Founding
import ObjectBridge.Proofs.Crossing.Echo
import ObjectBridge.Proofs.Engine.Fields

/-! Properties kept in fields. A property whose accessors are left to the engine reads back what was
written to it, and the write changes that one field. -/
namespace ObjectBridge

variable {ctx : Context σ} {receiver : Wrapper} {name setter : String} {p : PropertyBinding}

namespace Context

theorem getAttribute_property (resolved : receiver.type.member? name = some (.property p))
    (world : World σ) : ctx.getAttribute receiver name world =
      match ctx.channel.call receiver.handle p.decl.getter [] world.native with
      | .error fault native => .error (.nativeCall p.decl.getter fault) ⟨native,world.cache⟩
      | .ok raw native =>
        match ctx.receiveResult p.decl.getter p.coercion raw ⟨native,world.cache⟩ with
        | .ok v after => .ok (.value v) after
        | .error e after => .error e after := by
  simp only [getAttribute,TypeInfo.member,resolved,BridgeM.ofExcept,readProperty,BridgeM.native,
    bind,EStateM.bind,pure,EStateM.pure]
  cases ctx.channel.call receiver.handle p.decl.getter [] world.native with
  | error fault native => rfl
  | ok raw native =>
    dsimp only
    cases ctx.receiveResult p.decl.getter p.coercion raw ⟨native,world.cache⟩ <;> rfl

theorem setAttribute_property (resolved : receiver.type.member? name = some (.property p))
    (named : p.decl.setter = some setter) (v : Value) (world : World σ) :
    ctx.setAttribute receiver name v world =
      match Crossing.toVariant ctx.lattice ctx.options.strictObjectArgs p.coercion v with
      | .error m => .error (m.argument (p.owner ++ "." ++ setter) 0) world
      | .ok raw =>
        match ctx.channel.call receiver.handle setter [raw] world.native with
        | .error fault native => .error (.nativeCall setter fault) ⟨native,world.cache⟩
        | .ok _ native => .ok () ⟨native,world.cache⟩ := by
  simp only [setAttribute,TypeInfo.member,resolved,BridgeM.ofExcept,writeProperty,named,bind,
    EStateM.bind,pure,EStateM.pure]
  cases Crossing.toVariant ctx.lattice ctx.options.strictObjectArgs p.coercion v with
  | error m => rfl
  | ok raw =>
    simp only [EStateM.bind,BridgeM.native]
    cases ctx.channel.call receiver.handle setter [raw] world.native <;> rfl

end Context

/-- A property of a field: one accessor reads it by its name, the other writes it. -/
structure PropertyBinding.KeepsField (p : PropertyBinding) (field : String) : Prop where
  getter : p.decl.getter = "get_" ++ field ∨ p.decl.getter = "is_" ++ field
  setter : p.decl.setter = some ("set_" ++ field)

theorem PropertyBinding.KeepsField.reads {field : String} (keeps : p.KeepsField field) :
    getterField? p.decl.getter = some field := by
  rcases keeps.getter with named | named
  · rw [named,getterField?_get]
  · rw [named,getterField?_is]

/-- A property of a field whose accessors no class of the engine handles reads back what is written
to it, through any bridge to an engine. -/
theorem property_reads_back (b : Bridge Engine) (own : b.channel = Engine.channel)
    (world : World Engine) (receiver : Wrapper) {field : String}
    (resolved : receiver.type.member? name = some (.property p)) (keeps : p.KeepsField field)
    (unread : world.native.Unhandled receiver.handle p.decl.getter)
    (unwritten : world.native.Unhandled receiver.handle ("set_" ++ field)) (v : Value) :
    match b.setAttribute receiver name v world with
    | .error _ after => after.native = world.native
    | .ok _ after =>
      (∃ raw, world.native.Overwrites receiver.handle field raw after.native) ∧
      after.cache = world.cache ∧
      (v.Registered world.cache → ∃ later,
        b.getAttribute receiver name after = .ok (.value (v.echo p.coercion)) later ∧
        later.native = after.native) := by
  have asked (method : String) (raws : List Variant) : b.channel.call receiver.handle method raws =
      Engine.call receiver.handle method raws := by
    rw [own]
    rfl
  rw [Context.setAttribute_property resolved keeps.setter]
  cases crossed : Crossing.toVariant b.lattice b.options.strictObjectArgs p.coercion v with
  | error m => rfl
  | ok raw =>
    simp only [asked,Engine.call_writes unwritten]
    cases found : (world.native.objects[receiver.handle]? : Option EngineObject) with
    | none => rfl
    | some o =>
      have overwrites := Engine.overwrites found field raw
      have sent := Crossing.toVariant_eq_ok.mp crossed
      dsimp only
      generalize ({ world.native with objects := _ } : Engine) = written at overwrites ⊢
      refine ⟨⟨raw,overwrites⟩,rfl,?_⟩
      intro registered
      obtain ⟨cache,received⟩ := b.receiveResult_ofValue p.decl.getter ⟨written,world.cache⟩
        (Crossing.receive_of_sends sent) registered.echo
      refine ⟨⟨written,cache⟩,?_,rfl⟩
      rw [Context.getAttribute_property resolved,asked,
        Engine.call_reads (overwrites.unhandled unread) keeps.reads,overwrites.reads_back]
      simp only [received]

def glow : PropertyDecl :=
  { name := "glow", tag := .float, getter := "get_glow", setter := some "set_glow" }

def lighting : List ClassDecl :=
  [{ name := "Object" },
   { name := "Lamp", parent := some "Object"
     methods := [{ name := "get_glow", returns := .float },
       { name := "set_glow", params := [.float] }]
     properties := NameMap.ofPairs [("glow",glow)] }]

/-- An engine with one lamp. -/
def lit : Engine := Engine.ofHistory (Engine.classSteps lighting ++ [.create "Lamp"])

theorem glow_comes_back_widened : ∃ db b world t after later,
    Database.ofClasses lighting ∅ = .ok db ∧ Bridge.start db Engine.channel {} lit = .ok b world ∧
    b.lattice.get? "Lamp" = some t ∧
    b.setAttribute ⟨0,⟨1⟩,t⟩ "glow" (.int 3) world = .ok () after ∧
    b.getAttribute ⟨0,⟨1⟩,t⟩ "glow" after = .ok (.value (.float (Int64.toFloat 3))) later := by
  obtain ⟨db,loaded⟩ : ∃ db, Database.ofClasses lighting ∅ = .ok db := ⟨_,rfl⟩
  have computed : (match Database.ofClasses lighting ∅ with
      | .error _ => none
      | .ok db =>
        match Bridge.start db Engine.channel {} lit with
        | .error .. => none
        | .ok b world => (b.lattice.get? "Lamp").bind fun t =>
          match b.setAttribute ⟨0,⟨1⟩,t⟩ "glow" (.int 3) world with
          | .error .. => none
          | .ok .. => t.member? "glow") =
      some (.property ⟨"Lamp",glow,.float⟩) := by decide +kernel
  rw [loaded] at computed
  dsimp only at computed
  split at computed
  · cases computed
  · rename_i b world started
    obtain ⟨t,known,resolved⟩ := Option.bind_eq_some_iff.mp computed
    split at resolved
    · cases resolved
    · rename_i after written
      obtain ⟨l,_,founded⟩ := Engine.founded (Database.loaded_of_ok loaded) started
      have plain (method : String) : world.native.Unhandled ⟨1⟩ method := by
        rw [founded.native]
        intro o _ cls _
        rfl
      have keeps : PropertyBinding.KeepsField ⟨"Lamp",glow,.float⟩ "glow" :=
        ⟨.inl (by decide),by decide⟩
      have outcome := property_reads_back b (congrArg Context.channel founded.context) world
        ⟨0,⟨1⟩,t⟩ resolved keeps (plain _) (plain _) (.int 3)
      rw [written] at outcome
      obtain ⟨_,_,reads⟩ := outcome
      obtain ⟨later,read,_⟩ := reads nofun
      exact ⟨db,b,world,t,after,later,loaded,started,known,written,read⟩

end ObjectBridge
