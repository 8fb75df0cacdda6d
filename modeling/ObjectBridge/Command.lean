import ObjectBridge.CommandLine
import ObjectBridge.Options.Reader
import ObjectBridge.Database.Layout
import ObjectBridge.Report.Inspection
import ObjectBridge.Report.Summary

/-! Running the commands of the tool: what they print, and how they end. -/
namespace ObjectBridge

/-- A failure with its causes, the nearest one first. -/
structure Failure where
  context : String
  causes : List String := []
  deriving DecidableEq

namespace Failure

/-- Lines after the first one are indented as far as the text of the first one. -/
def indented (first later text : String) : String :=
  first ++ String.intercalate ("\n" ++ later) (text.splitOn "\n")

/-- Causes are numbered if there are several. -/
def report (f : Failure) : String :=
  let causes := match f.causes with
    | [] => []
    | [cause] => [indented "    " "    " cause]
    | causes => causes.zipIdx.map fun (cause, i) =>
      indented (Report.padLeft 5 (toString i) ++ ": ") "       " cause
  let body := if causes.isEmpty then ""
    else "\n\nCaused by:\n" ++ String.intercalate "\n" causes
  "Error: " ++ f.context ++ body ++ "\n"

def ofLoadError (context : String) (e : LoadError) : Failure := ⟨context, e.message :: e.causes⟩

def ofOptionsError (context : String) (e : OptionsError) : Failure :=
  ⟨context, [e.message, e.reason]⟩

end Failure

/-- What a command leaves behind. -/
structure Outcome where
  code : Nat := 0
  output : String := ""
  errors : String := ""
  deriving DecidableEq

/-- What the terminal is like, by the variables of the environment. -/
structure Terminal where
  /-- The kind of terminal, if it is known. -/
  kind : Option String := none
  /-- The word against color, if there is one. -/
  noColor : Option String := none
  /-- The word for color even where no terminal is, if there is one. -/
  forceColor : Option String := none

namespace Terminal

/-- Does a command color its report? Any word against color counts, even an empty one. Without a
clear choice, color goes to every known terminal but the dumb one. -/
def colored (t : Terminal) (choice : Option String) : Bool :=
  if t.noColor.isSome then false
  else if choice = some "always" then true
  else if choice = some "never" then false
  else match t.kind with
    | some kind => kind != "dumb"
    | none => false

/-- Is a word given that is not empty? -/
def given (word : Option String) : Bool := word.any (· != "")

/-- Is help styled? Only where color is forced and no word stands against it; empty words do not
count, and neither does a choice among the arguments. -/
def styledHelp (t : Terminal) : Bool := given t.forceColor && !given t.noColor

end Terminal

/-- A class database with its types. -/
structure Loaded where
  database : Database
  options : Options
  lattice : Lattice

namespace Command

def loadOptions (files : FileReader) : Option String → Except Failure Options
  | none => .ok {}
  | some path =>
    (Options.ofFile files path).mapError (Failure.ofOptionsError s!"cannot use options '{path}'")

/-- Options are read first, then the database, then it is bound. -/
def load (files : FileReader) (database : String) (config : Option String) :
    Except Failure Loaded := do
  let options ← loadOptions files config
  let db ← (Database.ofFile files database).mapError
    (Failure.ofLoadError s!"cannot load '{database}'")
  let lattice ← (Lattice.ofDatabase db options).mapError
    (Failure.ofLoadError s!"cannot bind '{database}'")
  return { database := db, options, lattice }

/-- What a command reports, and its failure if it fails. -/
def report (files : FileReader) : Command → Report × Option Failure
  | .check database config =>
    match load files database config with
    | .error f => (Report.status false database, some f)
    | .ok l =>
      let summary := Summary.ofLattice l.database l.options l.lattice
      (Report.status true database ++ summary.report l.options l.lattice.root.name, none)
  | .inspect database cls config ownOnly =>
    match load files database config with
    | .error f => ([], some f)
    | .ok l =>
      match l.lattice.get? cls with
      | none => ([], some ⟨s!"unknown class '{cls}' in '{database}'", []⟩)
      | some t => (Inspection.report l.lattice t ownOnly, none)

end Command

/-- Run a command on files. -/
def Invocation.run (i : Invocation) (terminal : Terminal) (files : FileReader) : Outcome :=
  let (report, failure) := i.command.report files
  let output := report.text (terminal.colored i.color)
  match failure with
  | none => { output }
  | some f => { code := 1, output, errors := f.report }

namespace CommandLine

/-- The outcome of a request that runs no command. -/
def Request.outcome (terminal : Terminal) : Request → Outcome
  | .run _ => {}
  | .print r => { output := r.text terminal.styledHelp }
  | .refuse e =>
    { code := 2, errors := s!"error: {e.message}\n\nFor more information, try '--help'.\n" }

/-- Run the tool with its arguments. -/
def run (terminal : Terminal) (files : FileReader) (args : List String) : Outcome :=
  match read args with
  | .run i => i.run terminal files
  | request => request.outcome terminal

end CommandLine
end ObjectBridge
