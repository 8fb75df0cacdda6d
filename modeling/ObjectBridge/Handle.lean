import Std.Data.ExtTreeMap

/-! Handles: the numbers by which an engine names its objects. A handle is compared by
value and says nothing about whether its object is still alive. -/
namespace ObjectBridge

structure Handle where
  raw : UInt64
  deriving DecidableEq, Repr, Inhabited

namespace Handle

instance : Ord Handle := ⟨fun a b => compare a.raw b.raw⟩

instance : Std.TransOrd Handle where
  eq_swap {a b} := @Std.OrientedCmp.eq_swap UInt64 compare _ a.raw b.raw
  isLE_trans {a b c} ab bc := @Std.TransCmp.isLE_trans UInt64 compare _ a.raw b.raw c.raw ab bc

instance : Std.LawfulEqOrd Handle where
  compare_self {a} := @Std.ReflCmp.compare_self UInt64 compare _ a.raw
  eq_of_compare {a b} same := by
    cases a; cases b
    simpa using @Std.LawfulEqCmp.eq_of_compare UInt64 compare _ _ _ same

/-- Lower case, without leading zeros. -/
def hex (h : Handle) : String := String.ofList (Nat.toDigits 16 h.raw.toNat)

def text (h : Handle) : String := "#" ++ h.hex

def debugText (h : Handle) : String := "ObjectHandle(0x" ++ h.hex ++ ")"

end Handle

/-- Finite maps keyed by handles. -/
abbrev HandleMap (α : Type) := Std.ExtTreeMap Handle α

end ObjectBridge
