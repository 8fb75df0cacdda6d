import ObjectBridge.Disk
import ObjectBridge.Options
import ObjectBridge.Toml.Document

/-! Reading options from TOML texts. Options that are left out have their defaults, and entries
of other names are skipped. -/
namespace ObjectBridge

inductive OptionsError where
  | unreadable (reason : ReadError)
  /-- The bytes are no UTF-8. -/
  | notText
  /-- No TOML text, or one whose entries do not fit the options. -/
  | invalid
  deriving DecidableEq

namespace OptionsError

def reason : OptionsError → String
  | unreadable reason => reason.message
  | notText => "stream did not contain valid UTF-8"
  | invalid => "no TOML text with these options"

def message : OptionsError → String
  | invalid => s!"Invalid runtime options: {invalid.reason}"
  | e => s!"Failed to read runtime options: {e.reason}"

end OptionsError

namespace Options

open Toml (Item Entries)

def readBool (entries : Entries) (key : String) (default : Bool) : Option Bool :=
  match entries.get? key with
  | none => some default
  | some (.bool b) => some b
  | some _ => none

def policyNamed? (name : String) : Option UnknownClassPolicy :=
  if name = "root" then some .root else if name = "error" then some .error else none

def isEmptyItem : Item → Bool
  | .array items => items.isEmpty
  | .table _ entries => entries.isEmpty
  | .tables tables => tables.isEmpty
  | _ => false

/-- A policy is a string, or a table whose one key is its name and holds nothing. -/
def readPolicy (entries : Entries) (key : String) : Option UnknownClassPolicy :=
  match entries.get? key with
  | none => some .root
  | some (.string name) => policyNamed? name
  | some (.table _ [(name, item)]) => if isEmptyItem item then policyNamed? name else none
  | some _ => none

def ofText (text : String) : Except OptionsError Options :=
  let options := do
    let entries ← Toml.parse text
    return {
      exposePrivateMethods := ← readBool entries "expose_private_methods" false
      unknownClassFallback := ← readPolicy entries "unknown_class_fallback"
      strictObjectArgs := ← readBool entries "strict_object_args" true }
  match options with
  | some options => .ok options
  | none => .error .invalid

def ofFile (files : FileReader) (path : String) : Except OptionsError Options :=
  match files path with
  | .error reason => .error (.unreadable reason)
  | .ok bytes =>
    match String.fromUTF8? bytes with
    | none => .error .notText
    | some text => ofText text

end Options
end ObjectBridge
