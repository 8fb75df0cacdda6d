/-! Grammars of command lines: flags, which start with dashes, positional values, and commands,
which have a grammar of their own. A lone `--` ends the flags, a lone `-` is a value. -/
namespace ObjectBridge.CommandLine

/-- What a value may be. -/
inductive ValueKind where
  | text
  /-- Not empty. -/
  | path
  deriving DecidableEq

inductive FlagKind where
  /-- May be given again and again. -/
  | counted
  /-- May be given once. -/
  | once
  /-- Takes a value, attached to it or from the next argument, and may be given once. -/
  | valued (value : String) (kind : ValueKind)
  | help
  | version
  deriving DecidableEq

structure Flag where
  long : String
  short : Option Char := none
  kind : FlagKind
  about : String

structure Positional where
  name : String
  kind : ValueKind
  about : String

structure Grammar where
  /-- How the command is called, with the commands above it. -/
  name : String
  about : String
  flags : List Flag
  positionals : List Positional := []
  /-- Names of commands with what they do. -/
  commands : List (String × String) := []

inductive UsageError where
  | unknownArgument (arg : String)
  | missingValue (flag : String)
  | unwantedValue (flag : String)
  | invalidValue (name value : String)
  | repeatedFlag (flag : String)
  | missingArgument (name : String)
  | missingCommand
  | unknownCommand (name : String)
  deriving DecidableEq

def UsageError.message : UsageError → String
  | .unknownArgument arg => s!"unexpected argument '{arg}' found"
  | .missingValue flag => s!"a value is required for '--{flag}' but none was supplied"
  | .unwantedValue flag => s!"unexpected value for '--{flag}' found; no more were expected"
  | .invalidValue name value => s!"invalid value '{value}' for '{name}'"
  | .repeatedFlag flag => s!"the argument '--{flag}' cannot be used multiple times"
  | .missingArgument name => s!"the required argument <{name}> was not provided"
  | .missingCommand => "a command is required but none was given"
  | .unknownCommand name => s!"unrecognized command '{name}'"

/-- Why reading ends before the last argument. -/
inductive Stop where
  | help
  | version
  | usage (e : UsageError)
  deriving DecidableEq

/-- What has been read. Flags and values stand in the order in which they were given. -/
structure Parsed where
  given : List String := []
  values : List (String × String) := []
  positionals : List String := []
  /-- The command and the arguments after it. -/
  command : Option (String × List String) := none
  deriving DecidableEq

namespace Parsed

def count (p : Parsed) (flag : String) : Nat := p.given.count flag

def has (p : Parsed) (flag : String) : Bool := p.given.contains flag

def value? (p : Parsed) (flag : String) : Option String := p.values.lookup flag

end Parsed

def accepts : ValueKind → String → Bool
  | .text, _ => true
  | .path, value => value != ""

/-- Note a flag that takes no value. -/
def noteFlag (f : Flag) (p : Parsed) : Except Stop Parsed :=
  match f.kind with
  | .help => .error .help
  | .version => .error .version
  | .once =>
    if p.has f.long then .error (.usage (.repeatedFlag f.long))
    else .ok { p with given := p.given ++ [f.long] }
  | _ => .ok { p with given := p.given ++ [f.long] }

/-- Note a flag together with its value. -/
def noteValue (f : Flag) (kind : ValueKind) (value : String) (p : Parsed) : Except Stop Parsed :=
  if (p.value? f.long).isSome then .error (.usage (.repeatedFlag f.long))
  else if accepts kind value then .ok { p with values := p.values ++ [(f.long, value)] }
  else .error (.usage (.invalidValue f.long value))

/-- Does an argument look like flags? -/
def isFlagLike (arg : String) : Bool :=
  match arg.toList with
  | '-' :: _ :: _ => true
  | _ => false

/-- What the first arguments mean: the flag at the front wants a value, or all is read. -/
inductive Flags where
  | read (p : Parsed)
  | wanting (f : Flag) (kind : ValueKind) (p : Parsed)

namespace Grammar

def long? (g : Grammar) (name : String) : Option Flag := g.flags.find? (·.long == name)

def short? (g : Grammar) (c : Char) : Option Flag := g.flags.find? (·.short == some c)

/-- An argument `--name` or `--name=value`, without its dashes. -/
def readLong (g : Grammar) (arg : String) (body : List Char) (p : Parsed) :
    Except Stop Flags :=
  let name := String.ofList (body.takeWhile (· != '='))
  let rest := body.dropWhile (· != '=')
  match g.long? name with
  | none => .error (.usage (.unknownArgument arg))
  | some f =>
    match f.kind, rest with
    | .valued _ kind, [] => .ok (.wanting f kind p)
    | .valued _ kind, _ :: value => .read <$> noteValue f kind (String.ofList value) p
    | _, [] => .read <$> noteFlag f p
    | _, _ :: _ => .error (.usage (.unwantedValue name))

/-- Short flags in one argument, without the dash. One that takes a value takes the rest. -/
def readShort (g : Grammar) (arg : String) : List Char → Parsed → Except Stop Flags
  | [], p => .ok (.read p)
  | c :: rest, p =>
    match g.short? c with
    | none => .error (.usage (.unknownArgument arg))
    | some f =>
      match f.kind, rest with
      | .valued _ kind, [] => .ok (.wanting f kind p)
      | .valued _ kind, '=' :: value => .read <$> noteValue f kind (String.ofList value) p
      | .valued _ kind, value => .read <$> noteValue f kind (String.ofList value) p
      | _, _ => noteFlag f p >>= readShort g arg rest

def readFlags (g : Grammar) (arg : String) (p : Parsed) : Except Stop Flags :=
  match arg.toList with
  | '-' :: '-' :: body => g.readLong arg body p
  | _ :: body => g.readShort arg body p
  | [] => .ok (.read p)

def readPositional (g : Grammar) (arg : String) (p : Parsed) : Except Stop Parsed :=
  match g.positionals[p.positionals.length]? with
  | none =>
    .error (.usage (if g.commands.isEmpty then .unknownArgument arg else .unknownCommand arg))
  | some wanted =>
    if accepts wanted.kind arg then .ok { p with positionals := p.positionals ++ [arg] }
    else .error (.usage (.invalidValue wanted.name arg))

/-- Arguments from left to right; the first one that does not fit ends it all. -/
def readFrom (g : Grammar) : List String → Parsed → Except Stop Parsed
  | [], p => .ok p
  | "--" :: rest, p => rest.foldlM (fun p arg => g.readPositional arg p) p
  | arg :: rest, p =>
    if isFlagLike arg then
      match g.readFlags arg p with
      | .error stop => .error stop
      | .ok (.read p) => readFrom g rest p
      | .ok (.wanting f kind p) =>
        match rest with
        | [] => .error (.usage (.missingValue f.long))
        | value :: rest =>
          if isFlagLike value then .error (.usage (.missingValue f.long))
          else
            match noteValue f kind value p with
            | .error stop => .error stop
            | .ok p => readFrom g rest p
    else if (g.commands.lookup arg).isSome then .ok { p with command := some (arg, rest) }
    else
      match g.readPositional arg p with
      | .error stop => .error stop
      | .ok p => readFrom g rest p

/-- Nothing that is required may be missing. -/
def checkComplete (g : Grammar) (p : Parsed) : Except Stop Parsed :=
  match g.positionals[p.positionals.length]? with
  | some wanted => .error (.usage (.missingArgument wanted.name))
  | none =>
    if !g.commands.isEmpty && p.command.isNone then .error (.usage .missingCommand) else .ok p

def read (g : Grammar) (args : List String) : Except Stop Parsed :=
  g.readFrom args {} >>= g.checkComplete

end Grammar
end ObjectBridge.CommandLine
