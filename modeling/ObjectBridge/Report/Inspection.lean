import ObjectBridge.Lattice
import ObjectBridge.Report

/-! Inspections: how one class is bound. -/
namespace ObjectBridge.Inspection

/-- One line for a member, without its kind. -/
def describe (name : String) : Member → String
  | .method m =>
    let params := String.intercalate ", " (m.decl.params.map (·.text))
    s!"{name}({params}) -> {m.decl.returns.text}"
  | .property p =>
    name ++ ": " ++ p.decl.tag.text ++ if p.decl.isReadOnly then " (read-only)" else ""
  | .constant _ _ value => s!"{name} = {value.toInt}"
  | .signal _ _ => name

/-- The line of a member on a type. -/
def line (t : TypeInfo) (name : String) (m : Member) : Report :=
  Report.member m.kindName (describe name m) (if m.owner = t.name then none else some m.owner)

/-- The chain of ancestors, what is special about the class, and its members by name. -/
def report (l : Lattice) (t : TypeInfo) (ownOnly : Bool) : Report :=
  let members := if ownOnly then t.own else t.members
  Report.heading (String.intercalate " -> " ((l.hierarchy t.id).map (·.name))) ++
  (if t.decl.singleton then
    [Report.highlight s!"singleton '{t.decl.bindingName}'", Report.lineEnd] else []) ++
  (if t.decl.instantiable then [] else [Report.caution "not instantiable", Report.lineEnd]) ++
  members.toList.flatMap fun (name, m) => line t name m

end ObjectBridge.Inspection
