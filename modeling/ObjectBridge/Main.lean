import ObjectBridge.Command

/-! The tool as a program: it reads the environment and the files that a command names, and prints
what the command leaves behind. -/
namespace ObjectBridge

/-- The number of an error of the system, which some calls give with its sign turned. -/
def errorNumber (code : UInt32) : Nat := min code.toNat (0 - code).toNat

def numberedError (code : UInt32) (details : String) : ReadError :=
  match errorNumber code with
  | 2 => .notFound
  | 20 => .notADirectory
  | 21 => .isADirectory
  | 36 => .nameTooLong
  | n => .other s!"{details} (os error {n})"

/-- The reason that the system gives. -/
def readError : IO.Error → ReadError
  | .noFileOrDirectory _ code details => numberedError code details
  | .permissionDenied _ code _ => numberedError code "Permission denied"
  | .inappropriateType _ code details => numberedError code details
  | .resourceExhausted _ code details => numberedError code details
  | .invalidArgument _ code details => numberedError code details
  | e => .other (toString e)

def readFile (path : String) : IO (Except ReadError ByteArray) := do
  try
    return .ok (← IO.FS.readBinFile path)
  catch e =>
    return .error (readError e)

def readTerminal : IO Terminal := do
  return {
    kind := ← IO.getEnv "TERM"
    noColor := ← IO.getEnv "NO_COLOR"
    forceColor := ← IO.getEnv "CLICOLOR_FORCE" }

/-- The files that were read, by their paths. -/
def readerOf (files : List (String × Except ReadError ByteArray)) : FileReader := fun path =>
  (files.lookup path).getD (.error .notFound)

/-- Read the files that a command names, then run it. -/
def perform (i : Invocation) : IO Outcome := do
  let paths := i.command.config.toList ++ [i.command.database]
  let files ← paths.mapM fun path => return (path, ← readFile path)
  return i.run (← readTerminal) (readerOf files)

end ObjectBridge

open ObjectBridge in
def main (args : List String) : IO UInt32 := do
  let outcome ← match CommandLine.read args with
    | .run i => perform i
    | request => do pure (request.outcome (← readTerminal))
  IO.print outcome.output
  IO.eprint outcome.errors
  return outcome.code.toUInt32
