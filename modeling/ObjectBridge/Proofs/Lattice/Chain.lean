import ObjectBridge.Proofs.Lattice.Synthesis

/-! The chain of a type. It is the walk along parent types, which stand at smaller ids; the classes
on it are the ancestors that the database lists, and its own tables, the nearest first, answer
every question that the table of the type answers. -/
namespace ObjectBridge.Lattice

variable {db : Database} {options : Options} {l : Lattice} {i : ClassId} {t : TypeInfo}
  {line : List TypeInfo}

def parent? (l : Lattice) (t : TypeInfo) : Option TypeInfo := t.parent.bind l.byId?

/-- The types from a type up to its root. -/
structure Line (l : Lattice) (t : TypeInfo) (line : List TypeInfo) : Prop where
  ascent : Ascent l.parent? t line
  within : ∀ a ∈ line, l.byId? a.id = some a
  chain : t.chain = line.map (·.id)
  members : ∀ name, t.member? name = line.findSome? (·.own[name]?)

theorem exists_line (made : Synthesized db options l) (found : l.byId? i = some t) :
    ∃ line, Line l t line := by
  -- on ids, as a type has its parent at a smaller one
  induction i using Nat.strong_induction_on generalizing t with
  | _ i ih =>
    have self : l.byId? t.id = some t := by rwa [made.id_eq found]
    cases made.built.places i t found with
    | root parent bound => exact ⟨_,.top rfl,by simpa using self,rfl,by simp [TypeInfo.member?]⟩
    | @child _ own p parent before above bound =>
      obtain ⟨line,rest⟩ := ih p.id before above
      refine ⟨_ :: line,.up above rest.ascent,List.forall_mem_cons.mpr ⟨self,rest.within⟩,?_,?_⟩
      · rw [List.map_cons,← rest.chain]
      · intro name
        have inherited : p.members[name]? = line.findSome? (·.own[name]?) := rest.members name
        have overlaid : (p.members.overlay own)[name]? = own[name]?.or p.members[name]? :=
          Std.ExtTreeMap.getElem?_union
        rw [TypeInfo.member?,overlaid,inherited,List.findSome?_cons]
        cases own[name]? <;> rfl

/-- A member of a type, inherited or not, is bound from some declaration with the ids of the
lattice. -/
theorem member_binds (made : Synthesized db options l) (found : l.byId? i = some t)
    {name : String} {m : Member} (known : t.member? name = some m) : ∃ owner d,
      Binds (fun tag coercion => Coercion.ofTag? l.ids tag = some coercion) owner name d m := by
  obtain ⟨line,here⟩ := exists_line made found
  rw [here.members] at known
  obtain ⟨a,above,own⟩ := List.exists_of_findSome?_eq_some known
  have bound := (made.built.places a.id a (here.within a above)).table
  exact ⟨a.decl.name,Bind.table_binds bound own⟩

namespace Line

theorem hierarchy_eq (here : Line l t line) : l.hierarchy t.id = line := by
  have self : l.byId? t.id = some t := here.within t here.ascent.self_mem
  rw [hierarchy,self]
  simp only [here.chain,List.filterMap_map]
  exact (List.filterMap_congr here.within).trans List.filterMap_some

variable {given : List ClassDecl} {constants : NameMap Int64}

/-- The classes along a line are an ascent in the index of the database. -/
theorem decls_ascent (here : Line l t line) (made : Synthesized db options l)
    (indexes : Indexes db.index db.classes) :
    Ascent db.index.parent? t.decl (line.map (·.decl)) := by
  apply here.ascent.map
  intro a member
  have found := here.within a member
  generalize a.id = j at found
  cases made.built.places j a found with
  | root parent _ => simp [parent?,ClassIndex.parent?,parent]
  | @child _ _ p parent _ above _ =>
    have step : l.byId? p.id = some p := above
    have known := indexes.self (made.decl_mem step)
    simp only [parent?,ClassIndex.parent?,parent,Option.bind_some,step,Option.map_some]
    exact known

theorem ancestors_eq (here : Line l t line) (made : Synthesized db options l)
    (indexes : Indexes db.index db.classes) :
    db.ancestors t.name = line.map (·.decl) := by
  have member := made.decl_mem (here.within t here.ascent.self_mem)
  have known : db.get? t.name = some t.decl := indexes.self member
  rw [Database.ancestors,known]
  exact indexes.lineage_eq (here.decls_ascent made indexes) member

end Line
end ObjectBridge.Lattice
