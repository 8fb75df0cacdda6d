import ObjectBridge.CommandLine.Grammar
import ObjectBridge.Report

/-! Help texts of grammars, in which titles and what is typed as it stands are set off. -/
namespace ObjectBridge.CommandLine

/-- What is typed as it stands. -/
def literal (text : String) : Piece := .styled { fresh := false, bold := true } text

def title (text : String) : Piece :=
  .styled { fresh := false, bold := true, underline := true } (text ++ ":")

/-- A flag as it is written, short form first. -/
def Flag.spelling (f : Flag) : Report :=
  let short := match f.short with
    | some c => [literal ("-" ++ String.singleton c), .plain ", "]
    | none => [.plain "    "]
  let tail := match f.kind with
    | .counted => [.plain "..."]
    | .valued value _ => [.plain s!" <{value}>"]
    | _ => []
  short ++ [literal ("--" ++ f.long)] ++ tail

def Positional.spelling (p : Positional) : String := s!"<{p.name}>"

/-- A line of two columns, the first one filled up to a width. -/
def helpLine (width : Nat) (left : Report) (right : String) : Report :=
  .plain "  " :: left ++ [.plain ("".pushn ' ' (width - left.width) ++ "  " ++ right ++ "\n")]

/-- Lines in two columns under a title; nothing without lines. -/
def helpSection (name : String) (lines : List (Report × String)) : List Report :=
  if lines.isEmpty then []
  else
    let width := (lines.map (·.1.width)).foldl max 0
    [title name :: .plain "\n" :: lines.flatMap fun (left, right) => helpLine width left right]

/-- What something is for, how it is called, and its parts. -/
def helpPage (about name tail : String) (sections : List Report) : Report :=
  [.plain (about ++ "\n\n"), title "Usage", .plain " ", literal name,
    .plain (" " ++ tail ++ "\n\n")] ++ [Report.lineEnd].intercalate sections

namespace Grammar

/-- What follows the name in a call. -/
def arguments (g : Grammar) : String :=
  String.intercalate " " ("[OPTIONS]" :: g.positionals.map (·.spelling) ++
    if g.commands.isEmpty then [] else ["<COMMAND>"])

def help (g : Grammar) : Report :=
  helpPage g.about g.name g.arguments
    (helpSection "Commands" (g.commands.map fun (name, about) => ([literal name], about)) ++
      helpSection "Arguments" (g.positionals.map fun p => ([.plain p.spelling], p.about)) ++
      helpSection "Options" (g.flags.map fun f => (f.spelling, f.about)))

end Grammar
end ObjectBridge.CommandLine
