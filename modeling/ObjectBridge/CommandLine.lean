import ObjectBridge.CommandLine.Help

/-! The command line of the tool: two commands on a class database, and flags that both share. -/
namespace ObjectBridge

/-- What the tool is asked to do. -/
inductive Command where
  /-- Sum up a database. -/
  | check (database : String) (config : Option String)
  /-- Show how a class is bound. -/
  | inspect (database cls : String) (config : Option String) (ownOnly : Bool)
  deriving DecidableEq

def Command.database : Command → String
  | .check database _ => database
  | .inspect database _ _ _ => database

def Command.config : Command → Option String
  | .check _ config => config
  | .inspect _ _ config _ => config

structure Invocation where
  verbosity : Nat
  color : Option String
  command : Command
  deriving DecidableEq

namespace CommandLine

def toolName : String := "gdbind"

def toolVersion : String := "0.2.0"

def verboseFlag : Flag :=
  { long := "verbose", short := some 'v', kind := .counted
    about := "Increase log verbosity (-v info, -vv debug, -vvv trace)" }

def colorFlag : Flag :=
  { long := "color", kind := .valued "COLOR" .text
    about := "Colored output: auto, always, never" }

def configFlag : Flag :=
  { long := "config", short := some 'c', kind := .valued "CONFIG" .path
    about := "Runtime options (TOML)" }

def ownFlag : Flag :=
  { long := "own", kind := .once, about := "Only list members declared by the class itself" }

def helpFlag : Flag := { long := "help", short := some 'h', kind := .help, about := "Print help" }

def versionFlag : Flag :=
  { long := "version", short := some 'V', kind := .version, about := "Print version" }

def database : Positional :=
  { name := "DATABASE", kind := .path, about := "Class database (JSON)" }

def cls : Positional := { name := "CLASS", kind := .text, about := "Class name" }

def checkGrammar : Grammar :=
  { name := toolName ++ " check"
    about := "Load and synthesize a class database, then print a summary"
    flags := [configFlag, verboseFlag, colorFlag, helpFlag]
    positionals := [database] }

def inspectGrammar : Grammar :=
  { name := toolName ++ " inspect"
    about := "Show the ancestor chain and bound members of one class"
    flags := [configFlag, verboseFlag, colorFlag, ownFlag, helpFlag]
    positionals := [database, cls] }

def helpAbout : String := "Print this message or the help of the given subcommand(s)"

def grammar : Grammar :=
  { name := toolName
    about := "Class database tooling for gdbind"
    flags := [verboseFlag, colorFlag, helpFlag, versionFlag]
    commands := [("check", checkGrammar.about), ("inspect", inspectGrammar.about),
      ("help", helpAbout)] }

/-- The help text of the help command itself. -/
def helpOfHelp : Report :=
  helpPage helpAbout (toolName ++ " help") "[COMMAND]..."
    (helpSection "Arguments" [([.plain "[COMMAND]..."], "Print help for the subcommand(s)")])

/-- What the arguments ask for. -/
inductive Request where
  | run (i : Invocation)
  /-- Print a report and end well. -/
  | print (r : Report)
  | refuse (e : UsageError)
  deriving DecidableEq

/-- The answer to arguments that were not read to the end. -/
def stopped (g : Grammar) : Stop → Request
  | .help => .print g.help
  | .version => .print [.plain s!"{toolName} {toolVersion}\n"]
  | .usage e => .refuse e

/-- The help text for the arguments of the help command. No command has commands below it. -/
def helpFor : List String → Request
  | [] => .print grammar.help
  | ["check"] => .print checkGrammar.help
  | ["inspect"] => .print inspectGrammar.help
  | ["help"] => .print helpOfHelp
  | first :: rest =>
    if (grammar.commands.lookup first).isSome then .refuse (.unknownCommand (rest.headD ""))
    else .refuse (.unknownCommand first)

/-- Shared flags may stand before the command or after it; what is given after it counts. -/
def invocation (before after : Parsed) (command : Command) : Request :=
  let verbosity := if after.has "verbose" then after.count "verbose" else before.count "verbose"
  .run { verbosity, color := (after.value? "color").or (before.value? "color"), command }

/-- A command with its own arguments. -/
def readCommand (before : Parsed) (g : Grammar) (args : List String)
    (command : Parsed → Option Command) : Request :=
  match g.read args with
  | .error stop => stopped g stop
  | .ok after =>
    match command after with
    | some command => invocation before after command
    | none => .refuse .missingCommand

def check? (p : Parsed) : Option Command :=
  match p.positionals with
  | [database] => some (.check database (p.value? "config"))
  | _ => none

def inspect? (p : Parsed) : Option Command :=
  match p.positionals with
  | [database, cls] => some (.inspect database cls (p.value? "config") (p.has "own"))
  | _ => none

def read (args : List String) : Request :=
  match grammar.read args with
  | .error stop => stopped grammar stop
  | .ok p =>
    match p.command with
    | some ("check", args) => readCommand p checkGrammar args check?
    | some ("inspect", args) => readCommand p inspectGrammar args inspect?
    | some (_, args) => helpFor args
    | none => .refuse .missingCommand

end CommandLine
end ObjectBridge
