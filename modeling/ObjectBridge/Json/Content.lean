import ObjectBridge.Json.Node

/-! What JSON strings and numbers stand for. A string must be UTF-8 and its escapes must name
characters; an integer is written without fraction and exponent, and has no negative zero. -/
namespace ObjectBridge.Json

def hexValue (c : UInt8) : Nat :=
  if isDigit c then c.toNat - 0x30 else if c < 0x61 then c.toNat - 0x37 else c.toNat - 0x57

def unit (a b c d : UInt8) : Nat :=
  ((hexValue a * 16 + hexValue b) * 16 + hexValue c) * 16 + hexValue d

def isHighSurrogate (n : Nat) : Bool := 0xD800 ≤ n && n < 0xDC00

def isLowSurrogate (n : Nat) : Bool := 0xDC00 ≤ n && n < 0xE000

def encodeChar (n : Nat) : List UInt8 := (String.singleton (Char.ofNat n)).toUTF8.toList

def simpleEscape (c : UInt8) : UInt8 :=
  if c == 0x62 then 0x08
  else if c == 0x66 then 0x0C
  else if c == 0x6E then 0x0A
  else if c == 0x72 then 0x0D
  else if c == 0x74 then 0x09
  else c

/-- Replace every escape by the bytes of its character. Surrogates come in pairs. -/
def unescape (before : List UInt8) : List UInt8 → Option (List UInt8)
  | [] => some before.reverse
  | 0x5C :: 0x75 :: a :: b :: c :: d :: rest =>
    let high := unit a b c d
    if isLowSurrogate high then none
    else if isHighSurrogate high then
      match rest with
      | 0x5C :: 0x75 :: e :: f :: g :: h :: rest =>
        let low := unit e f g h
        if isLowSurrogate low then
          let n := 0x10000 + (high - 0xD800) * 0x400 + (low - 0xDC00)
          unescape ((encodeChar n).reverse ++ before) rest
        else none
      | _ => none
    else unescape ((encodeChar high).reverse ++ before) rest
  | 0x5C :: c :: rest => unescape (simpleEscape c :: before) rest
  | c :: rest => unescape (c :: before) rest

def stringContent (raw : List UInt8) : Option String := do
  let bytes ← unescape [] raw
  String.fromUTF8? ⟨bytes.toArray⟩

def digitsValue (digits : List UInt8) : Nat :=
  digits.foldl (fun n c => n * 10 + (c.toNat - 0x30)) 0

def integerContent : List UInt8 → Option Int
  | 0x2D :: digits =>
    if digits.all isDigit && digits != [0x30] then some (-(digitsValue digits : Int)) else none
  | digits => if digits.all isDigit then some (digitsValue digits : Int) else none

end ObjectBridge.Json
