import ObjectBridge.Bridge.Context
import ObjectBridge.Proofs.Lattice.Synthesis

/-! Where wrappers come from. An object that is received has still to be wrapped, and whatever class
the engine names for it is taken for a type of the bridge's own lattice. -/
namespace ObjectBridge

def Wrapper.Within (l : Lattice) (w : Wrapper) : Prop := l.byId? w.type.id = some w.type

theorem Crossing.receive_no_wrapper (coercion : Coercion) (raw : Variant) (w : Wrapper) :
    receive coercion raw ≠ .ok (.value (.object w)) := by
  intro received
  cases coercion <;> cases raw <;> cases received

theorem Context.resolve_within {ctx : Context σ} {db : Database} {options : Options}
    (made : Lattice.Synthesized db options ctx.lattice) {cls : String} {t : TypeInfo}
    (run : ctx.resolve cls = .ok t) : ctx.lattice.byId? t.id = some t := by
  unfold resolve at run
  cases known : ctx.lattice.get? cls with
  | some u =>
    simp only [known,Except.ok.injEq] at run
    exact run ▸ (made.get?_eq_some.mp known).2
  | none =>
    simp only [known] at run
    split at run
    · obtain rfl := Except.ok.inj run
      have first : ctx.lattice.byId? 0 = some ctx.lattice.root :=
        Array.getElem?_eq_getElem ctx.lattice.nonempty
      rwa [made.id_eq first]
    · cases run

end ObjectBridge
