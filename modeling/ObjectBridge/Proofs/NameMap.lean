import Mathlib.Data.List.Dedup
import Mathlib.Data.List.Nodup
import Mathlib.Data.List.Perm.Subperm
import ObjectBridge.NameMap

/-! Finite maps: sizes, listings, and what is found in a map made from pairs. -/
namespace ObjectBridge.NameMap

variable {map : NameMap α}

/-- Different names are not more than the entries of a map that has them all. -/
theorem length_le_size {names : List String} (distinct : names.Nodup)
    (all : ∀ name ∈ names, name ∈ map) : names.length ≤ map.size := by
  have within : names ⊆ map.keys := fun name member => Std.ExtTreeMap.mem_keys.mpr (all name member)
  rw [← Std.ExtTreeMap.length_keys]
  exact (List.subperm_of_subset distinct within).length_le

theorem values_eq : map.values = map.toList.map (·.2) := by
  obtain ⟨inner⟩ := map
  induction inner with
  | mk tree =>
    show tree.inner.values = (Std.DTreeMap.Internal.Impl.Const.toList tree.inner).map (·.2)
    rw [Std.DTreeMap.Internal.Impl.values_eq_map_snd,
      Std.DTreeMap.Internal.Impl.Const.toList_eq_toListModel_map]
    simp

theorem mem_values {a : α} : a ∈ map.values ↔ ∃ name : String, map[name]? = some a := by
  rw [values_eq,List.mem_map]
  constructor
  · rintro ⟨⟨name,b⟩,member,rfl⟩
    exact ⟨name,Std.ExtTreeMap.mem_toList_iff_getElem?_eq_some.mp member⟩
  · rintro ⟨name,found⟩
    exact ⟨(name,a),Std.ExtTreeMap.mem_toList_iff_getElem?_eq_some.mpr found,rfl⟩

theorem toList_nodup : map.toList.Nodup :=
  Std.ExtTreeMap.distinct_keys_toList.imp fun apart same => apart (by simp [same])

/-- The listing of a map has what stands under a name, and what is left without it. -/
theorem toList_perm (map : NameMap α) (name : String) :
    map.toList.Perm ((map[name]?.map fun a => (name,a)).toList ++ (map.erase name).toList) := by
  have rest (pair : String × α) : pair ∈ (map.erase name).toList ↔
      pair.1 ≠ name ∧ pair ∈ map.toList := by
    rw [Std.ExtTreeMap.mem_toList_iff_getElem?_eq_some,Std.ExtTreeMap.getElem?_erase,
      Std.ExtTreeMap.mem_toList_iff_getElem?_eq_some]
    by_cases same : name = pair.1
    · simp [same]
    · simp [same,Ne.symm same]
  refine (List.perm_ext_iff_of_nodup toList_nodup ?_).mpr ?_
  · refine List.nodup_append.mpr ⟨by cases map[name]? <;> simp,toList_nodup,?_⟩
    rintro pair first other second rfl
    obtain ⟨a,_,rfl⟩ := Option.map_eq_some_iff.mp (Option.mem_toList.mp first)
    exact ((rest _).mp second).1 rfl
  · rintro ⟨key,a⟩
    rw [List.mem_append,rest,Option.mem_toList,Option.map_eq_some_iff,
      Std.ExtTreeMap.mem_toList_iff_getElem?_eq_some]
    by_cases same : key = name
    · simp [same]
    · simp [same,Ne.symm same]

theorem values_perm (map : NameMap α) (name : String) :
    map.values.Perm (map[name]?.toList ++ (map.erase name).values) := by
  rw [values_eq,values_eq]
  refine ((toList_perm map name).map _).trans ?_
  cases map[name]? <;> simp

theorem values_insert_perm (map : NameMap α) (name : String) (a : α) :
    (map.insert name a).values.Perm (a :: (map.erase name).values) := by
  have same : (map.insert name a).erase name = map.erase name := by
    apply Std.ExtTreeMap.ext_getElem?
    intro key
    rw [Std.ExtTreeMap.getElem?_erase,Std.ExtTreeMap.getElem?_erase,
      Std.ExtTreeMap.getElem?_insert]
    split <;> rfl
  have listed := values_perm (map.insert name a) name
  rwa [same,Std.ExtTreeMap.getElem?_insert_self] at listed

theorem values_insert_new {name : String} {a : α} (new : map[name]? = none) :
    (map.insert name a).values.Perm (a :: map.values) := by
  have rest := values_perm map name
  rw [new,Option.toList_none,List.nil_append] at rest
  exact (values_insert_perm map name a).trans (rest.symm.cons a)

/-- The last pair of a name is found. -/
theorem ofPairs_getElem? (pairs : List (String × α)) (name : String) :
    (ofPairs pairs)[name]? = pairs.reverse.lookup name := by
  have later (map : NameMap α) :
      (pairs.foldl (fun map pair => map.insert pair.1 pair.2) map)[name]? =
        (pairs.reverse.lookup name).or map[name]? := by
    induction pairs generalizing map with
    | nil => simp
    | cons pair rest ih =>
      obtain ⟨key,a⟩ := pair
      rw [List.foldl_cons,ih,List.reverse_cons,List.lookup_append,Option.or_assoc]
      congr 1
      rw [Std.ExtTreeMap.getElem?_insert]
      by_cases same : key = name
      · simp [same]
      · have other : (name == key) = false := beq_false_of_ne (Ne.symm same)
        simp [same,List.lookup_cons,other]
  rw [ofPairs,later]
  simp

theorem mem_of_lookup {pairs : List (String × α)} {name : String} {a : α}
    (found : pairs.lookup name = some a) : (name,a) ∈ pairs := by
  obtain ⟨before,after,rfl,_⟩ := List.lookup_eq_some_iff.mp found
  exact List.mem_append_right before List.mem_cons_self

theorem mem_ofPairs {pairs : List (String × α)} {name : String} :
    name ∈ ofPairs pairs ↔ name ∈ pairs.map (·.1) := by
  rw [Std.ExtTreeMap.mem_iff_isSome_getElem?,ofPairs_getElem?,List.lookup_isSome_iff,
    List.mem_map]
  simp only [List.mem_reverse,beq_iff_eq,eq_comm (a := name)]

/-- A map made from pairs has an entry for each name among them. -/
theorem ofPairs_size (pairs : List (String × α)) :
    (ofPairs pairs).size = (pairs.map (·.1)).dedup.length := by
  rw [← Std.ExtTreeMap.length_keys]
  apply List.Perm.length_eq
  refine (List.perm_ext_iff_of_nodup Std.ExtTreeMap.nodup_keys (List.nodup_dedup _)).mpr ?_
  intro name
  rw [Std.ExtTreeMap.mem_keys,mem_ofPairs,List.mem_dedup]

theorem ofPairs_eq_some {pairs : List (String × α)} {name : String} {a : α}
    (single : ∀ b c, (name,b) ∈ pairs → (name,c) ∈ pairs → b = c) :
    (ofPairs pairs)[name]? = some a ↔ (name,a) ∈ pairs := by
  rw [ofPairs_getElem?]
  constructor
  · intro found
    exact List.mem_reverse.mp (mem_of_lookup found)
  · intro member
    cases found : pairs.reverse.lookup name with
    | none =>
      have missing := List.lookup_eq_none_iff.mp found (name,a) (List.mem_reverse.mpr member)
      simp at missing
    | some b => rw [single b a (List.mem_reverse.mp (mem_of_lookup found)) member]

/-- If the pairs of a name are those that something is related to, the last of them is. -/
theorem lookup_rel {pairs : List (String × α)} {name : String} {wanted : Option β}
    {R : β → α → Prop} (sound : ∀ a, (name,a) ∈ pairs → ∃ b, wanted = some b ∧ R b a)
    (complete : ∀ b, wanted = some b → ∃ a, (name,a) ∈ pairs) :
    Option.Rel R wanted (pairs.reverse.lookup name) := by
  cases found : pairs.reverse.lookup name with
  | none =>
    cases wanted with
    | none => exact .none
    | some b =>
      obtain ⟨a,member⟩ := complete b rfl
      have missing := List.lookup_eq_none_iff.mp found (name,a) (List.mem_reverse.mpr member)
      simp at missing
  | some a =>
    obtain ⟨b,rfl,related⟩ := sound a (List.mem_reverse.mp (mem_of_lookup found))
    exact .some related

/-- Without some pairs the same is found, unless it was in one of them. -/
theorem ofPairs_filter (keep : String × α → Bool) (pairs : List (String × α))
    (name : String) : (ofPairs (pairs.filter keep))[name]? = (ofPairs pairs)[name]? ∨
      ∃ a, (ofPairs pairs)[name]? = some a ∧ (name,a) ∈ pairs ∧ keep (name,a) = false := by
  rw [ofPairs_getElem?,ofPairs_getElem?,← List.filter_reverse]
  have turned (pair : String × α) : pair ∈ pairs ↔ pair ∈ pairs.reverse :=
    List.mem_reverse.symm
  simp only [turned]
  induction pairs.reverse with
  | nil => exact .inl rfl
  | cons pair rest ih =>
    obtain ⟨key,a⟩ := pair
    by_cases same : name = key
    · subst same
      cases kept : keep (name,a) with
      | true => simp [kept]
      | false => exact .inr ⟨a,by simp,by simp,kept⟩
    · have other : (name == key) = false := beq_false_of_ne same
      rw [List.lookup_cons,other,List.filter_cons]
      rcases ih with same | ⟨b,found,member,dropped⟩
      · left
        split
        · rw [List.lookup_cons,other]
          exact same
        · exact same
      · exact .inr ⟨b,found,List.mem_cons_of_mem _ member,dropped⟩

/-- Pairs that are related one by one make related maps. -/
theorem ofPairs_rel {R : α → β → Prop} {pairs : List (String × α)} {others : List (String × β)}
    (related : List.Forall₂ (fun p q => p.1 = q.1 ∧ R p.2 q.2) pairs others) (name : String) :
    Option.Rel R (ofPairs pairs)[name]? (ofPairs others)[name]? := by
  have turned := List.forall₂_reverse_iff.mpr related
  rw [ofPairs_getElem?,ofPairs_getElem?]
  generalize pairs.reverse = ps,others.reverse = qs at turned
  induction turned with
  | nil => exact .none
  | @cons p q ps qs head _ ih =>
    obtain ⟨key,a⟩ := p
    obtain ⟨key',b⟩ := q
    obtain ⟨rfl,same⟩ := head
    rw [List.lookup_cons,List.lookup_cons]
    by_cases here : name = key
    · simp only [here,beq_self_eq_true]
      exact .some same
    · simp only [beq_false_of_ne here]
      exact ih

end ObjectBridge.NameMap
