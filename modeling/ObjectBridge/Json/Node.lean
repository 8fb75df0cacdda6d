import ObjectBridge.Json.Lexeme

/-! JSON values. Objects keep all their members in order, those of equal keys too; a number is
its literal and a string is what stood between its quotes. -/
namespace ObjectBridge.Json

inductive Node where
  | null
  | bool (b : Bool)
  | number (literal : List UInt8)
  | string (raw : List UInt8)
  | array (items : List Node)
  | object (members : List (List UInt8 × Node))

/-- What surrounds a value that is being read: what came before it, newest first, in the array
or object that it belongs to. -/
inductive Frame where
  | item (before : List Node)
  | member (before : List (List UInt8 × Node)) (key : List UInt8)

/-- What may come next in a text, innermost surroundings first. -/
inductive Reading where
  | value (around : List Frame)
  | firstItem (around : List Frame)
  | afterItem (items : List Node) (around : List Frame)
  | firstKey (around : List Frame)
  | nextKey (members : List (List UInt8 × Node)) (around : List Frame)
  | afterKey (members : List (List UInt8 × Node)) (key : List UInt8) (around : List Frame)
  | afterMember (members : List (List UInt8 × Node)) (around : List Frame)
  | done (node : Node)

namespace Reading

/-- A value has been read. -/
def complete (node : Node) : List Frame → Reading
  | [] => .done node
  | .item before :: around => .afterItem (node :: before) around
  | .member before key :: around => .afterMember ((key, node) :: before) around

/-- A value begins. -/
def start (around : List Frame) : Lexeme → Option Reading
  | .null => some (complete .null around)
  | .bool b => some (complete (.bool b) around)
  | .number literal => some (complete (.number literal) around)
  | .string raw => some (complete (.string raw) around)
  | .beginArray => some (.firstItem around)
  | .beginObject => some (.firstKey around)
  | _ => none

def step : Reading → Lexeme → Option Reading
  | .value around, lexeme => start around lexeme
  | .firstItem around, .endArray => some (complete (.array []) around)
  | .firstItem around, lexeme => start (.item [] :: around) lexeme
  | .afterItem items around, .comma => some (.value (.item items :: around))
  | .afterItem items around, .endArray => some (complete (.array items.reverse) around)
  | .firstKey around, .endObject => some (complete (.object []) around)
  | .firstKey around, .string key => some (.afterKey [] key around)
  | .nextKey members around, .string key => some (.afterKey members key around)
  | .afterKey members key around, .colon => some (.value (.member members key :: around))
  | .afterMember members around, .comma => some (.nextKey members around)
  | .afterMember members around, .endObject => some (complete (.object members.reverse) around)
  | _, _ => none

end Reading

/-- A text is one value; there is no bound on nesting. -/
def parse (bytes : List UInt8) : Option Node := do
  let lexemes ← lexemes bytes
  match ← lexemes.foldlM Reading.step (.value []) with
  | .done node => some node
  | _ => none

end ObjectBridge.Json
