/-! The fewest decimal digits that identify a binary fraction. A decimal identifies
`mantissa * 2 ^ exponent` when it lies between the halfway points to its two neighbours, the
halfway points included exactly when the mantissa is even. -/
namespace ObjectBridge.Text

/-- The magnitude `mantissa * 2 ^ exponent`. When `narrow` holds the neighbour below is half as
far away as the one above, which happens at the powers of two. -/
structure Magnitude where
  mantissa : Nat
  exponent : Int
  narrow : Bool
  deriving DecidableEq, Repr

/-- The decimal `digits * 10 ^ exponent`. -/
structure Decimal where
  digits : Nat
  exponent : Int
  deriving DecidableEq, Repr

namespace Magnitude

/-- Quarters of the last binary place, the finest unit that the halfway points need. -/
def quarters (m : Magnitude) : Nat := 4 * m.mantissa

def lowQuarters (m : Magnitude) : Nat := if m.narrow then m.quarters - 1 else m.quarters - 2

def highQuarters (m : Magnitude) : Nat := m.quarters + 2

/-- On the grid of multiples of `10 ^ e`, the naturals `a` and `b` for which `c * 10 ^ e`
compares with `q` quarters as `c * a` does with `q * b`. -/
def scale (m : Magnitude) (e : Int) : Nat × Nat :=
  let binary := m.exponent - 2
  (Nat.pow 10 e.toNat * Nat.pow 2 (-binary).toNat,
    Nat.pow 2 binary.toNat * Nat.pow 10 (-e).toNat)

/-- Does `c * 10 ^ e` identify the magnitude? -/
def identifiedBy (m : Magnitude) (e : Int) (c : Nat) : Bool :=
  let (a, b) := m.scale e
  let low := m.lowQuarters * b
  let high := m.highQuarters * b
  if m.mantissa % 2 = 0 then low ≤ c * a && c * a ≤ high else low < c * a && c * a < high

/-- The nearer of the two grid points around the magnitude that identify it; a tie goes up. -/
def onGrid (m : Magnitude) (e : Int) : Option Decimal :=
  let (a, b) := m.scale e
  let value := m.quarters * b
  let below := value / a
  match m.identifiedBy e below, m.identifiedBy e (below + 1) with
  | true, true =>
    some (if value - below * a < (below + 1) * a - value then ⟨below, e⟩ else ⟨below + 1, e⟩)
  | true, false => some ⟨below, e⟩
  | false, true => some ⟨below + 1, e⟩
  | false, false => none

/-- Seventeen digits always identify a magnitude of 53 bits, so the search ends before its
fuel does; the last answer is the exact integer part on the finest grid reached. -/
def search (m : Magnitude) : Nat → Int → Decimal
  | 0, e => let (a, b) := m.scale e; ⟨m.quarters * b / a, e⟩
  | fuel + 1, e =>
    match m.onGrid e with
    | some decimal => decimal
    | none => search m fuel (e - 1)

/-- A grid coarser than the magnitude: `0.30103` is slightly more than `log₁₀ 2`. -/
def coarse (m : Magnitude) : Int :=
  (m.mantissa.log2 + m.exponent + 1) * 30103 / 100000 + 1

/-- Trying grids from coarse to fine finds the fewest digits first. -/
def shortest (m : Magnitude) : Decimal := m.search 24 m.coarse

end Magnitude

/-- Positional notation, without an exponent and without a point when nothing follows it. -/
def Decimal.positional (d : Decimal) : String :=
  let digits := (toString d.digits).toList
  match d.exponent with
  | .ofNat zeros => String.ofList (digits ++ List.replicate zeros '0')
  | .negSucc n =>
    let places := n + 1
    let padded := List.replicate (places + 1 - digits.length) '0' ++ digits
    let whole := padded.length - places
    String.ofList (padded.take whole ++ '.' :: padded.drop whole)

/-- A number with a fractional part, of either sign, or one of the three special values. -/
inductive Binary64 where
  | notANumber
  | infinite (negative : Bool)
  | zero (negative : Bool)
  | finite (negative : Bool) (magnitude : Magnitude)
  deriving DecidableEq, Repr

/-- Sign, eleven bits of exponent and fifty-two of fraction; the smallest exponent has no
hidden bit. -/
def Binary64.ofBits (bits : UInt64) : Binary64 :=
  let n := bits.toNat
  let negative := n / Nat.pow 2 63 = 1
  let exponent : Nat := n / Nat.pow 2 52 % 2048
  let fraction : Nat := n % Nat.pow 2 52
  if exponent = 2047 then
    if fraction = 0 then .infinite negative else .notANumber
  else if exponent = 0 then
    if fraction = 0 then .zero negative else .finite negative ⟨fraction, -1074, false⟩
  else
    .finite negative
      ⟨Nat.pow 2 52 + fraction, (exponent : Int) - 1075, fraction = 0 && exponent ≠ 1⟩

/-- The sign of zero is written, that of a value that is no number is not. -/
def Binary64.text : Binary64 → String
  | .notANumber => "NaN"
  | .infinite negative => if negative then "-inf" else "inf"
  | .zero negative => if negative then "-0" else "0"
  | .finite negative m => (if negative then "-" else "") ++ m.shortest.positional

/-- The shortest positional text that reads back to the same value. -/
def floatText (x : Float) : String := (Binary64.ofBits x.toBits).text

end ObjectBridge.Text
