/-! Reports: lines of text in which some pieces stand out on a terminal. -/
namespace ObjectBridge

inductive Color where
  | red
  | green
  | yellow
  | cyan
  | white
  deriving DecidableEq

/-- The place of a color in the palette of a terminal. -/
def Color.index : Color → String
  | .red => "1"
  | .green => "2"
  | .yellow => "3"
  | .cyan => "6"
  | .white => "7"

structure Style where
  /-- Does the style begin from plain text, whatever is set before it? -/
  fresh : Bool := true
  bold : Bool := false
  underline : Bool := false
  color : Option Color := none
  background : Option Color := none
  deriving DecidableEq

namespace Style

/-- Back to plain text. -/
def reset : String := "\x1b[0m"

def codes (s : Style) : String :=
  let start := if s.fresh then reset else ""
  let weight := if s.bold then "\x1b[1m" else ""
  let line := if s.underline then "\x1b[4m" else ""
  let color := match s.color with
    | some c => "\x1b[3" ++ c.index ++ "m"
    | none => ""
  let background := match s.background with
    | some c => "\x1b[4" ++ c.index ++ "m"
    | none => ""
  start ++ weight ++ line ++ color ++ background

end Style

inductive Piece where
  | plain (text : String)
  | styled (style : Style) (text : String)
  deriving DecidableEq

def Piece.text (colored : Bool) : Piece → String
  | .plain text => text
  | .styled style text => if colored then style.codes ++ text ++ Style.reset else text

abbrev Report := List Piece

namespace Report

def text (r : Report) (colored : Bool) : String := String.join (r.map (·.text colored))

/-- The room that a report takes; styles take none. -/
def width (r : Report) : Nat := (r.text false).length

/-- Fill up with blanks on the right. -/
def padRight (width : Nat) (s : String) : String := s ++ "".pushn ' ' (width - s.length)

/-- Fill up with blanks on the left. -/
def padLeft (width : Nat) (s : String) : String := "".pushn ' ' (width - s.length) ++ s

def lineEnd : Piece := .plain "\n"

/-- A secondary detail at the end of a line. -/
def note (text : String) : Piece := .styled { color := some .white } ("  " ++ text)

def highlight (text : String) : Piece := .styled { color := some .cyan } ("  " ++ text)

def caution (text : String) : Piece :=
  .styled { bold := true, color := some .yellow } ("  " ++ text)

def heading (text : String) : Report := [.styled { bold := true } text, lineEnd]

/-- The verdict on something. -/
def status (ok : Bool) (subject : String) : Report :=
  let background := if ok then Color.green else Color.red
  let badge := if ok then " OK " else " FAIL "
  [.styled { bold := true, color := some .white, background := some background } badge,
    .plain (" " ++ subject ++ "\n")]

/-- A number with its label and details. -/
def count (label : String) (n : Nat) (details : Report) : Report :=
  [.plain ("  " ++ padRight 12 label), .styled { bold := true } (padLeft 5 (toString n))] ++
    details ++ [lineEnd]

/-- A member of a class, with the class that declares it if that is another one. -/
def member (kind description : String) (owner : Option String) : Report :=
  let origin := match owner with
    | some owner => [note ("[" ++ owner ++ "]")]
    | none => []
  .plain ("  " ++ padRight 9 kind ++ " " ++ description) :: origin ++ [lineEnd]

end Report
end ObjectBridge
