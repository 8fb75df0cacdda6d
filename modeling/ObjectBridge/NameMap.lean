import Std.Data.ExtTreeMap

/-! Finite maps keyed by names. Listing one goes through its names in code point order. -/
namespace ObjectBridge

/-- Two maps with the same entries are equal, whatever their history. -/
abbrev NameMap (α : Type) := Std.ExtTreeMap String α

namespace NameMap

/-- Later pairs win over earlier ones of the same name. -/
def ofPairs (pairs : List (String × α)) : NameMap α :=
  pairs.foldl (fun map pair => map.insert pair.1 pair.2) ∅

end NameMap
end ObjectBridge
