import ObjectBridge.Cache
import Mathlib.Data.List.Perm.Basic

/-! The references that a cache counts. `Consistent` ties a cache to the references that exist
and to the allocations whose destructor has still to run, and every visit to the cache keeps it. -/
namespace ObjectBridge.Cache

variable {c : Cache} {refs dying : List Wrapper} {h : Handle} {v w : Wrapper}

theorem isAlive_iff : c.isAlive w = true ↔ 0 < c.count w := by simp [isAlive]

theorem live?_eq_some : c.live? h = some w ↔ c.entries[h]? = some w ∧ c.isAlive w = true := by
  simp [live?,Option.filter_eq_some_iff]

theorem live?_eq_none : c.live? h = none ↔ ∀ w, c.entries[h]? = some w → c.isAlive w = false := by
  simp [live?,Option.filter_eq_none_iff]

theorem count_retain (c : Cache) (w v : Wrapper) :
    (c.retain w).count v = c.count v + if v.identical w then 1 else 0 := by
  by_cases same : w.allocation = v.allocation
  · simp [count,retain,Wrapper.identical,same]
  · simp [count,retain,Wrapper.identical,Std.ExtTreeMap.getD_insert,same,Ne.symm same]

theorem count_decrement (c : Cache) (w v : Wrapper) :
    (c.decrement w).count v = c.count v - if v.identical w then 1 else 0 := by
  unfold decrement
  by_cases same : w.allocation = v.allocation
  · split <;> simp_all [count,Wrapper.identical]
  · split <;> simp [count,Wrapper.identical,Std.ExtTreeMap.getD_insert,Std.ExtTreeMap.getD_erase,
      same,Ne.symm same]

theorem count_allocate (c : Cache) (h : Handle) (type : TypeInfo) (v : Wrapper) :
    (c.allocate h type).2.count v = if v.allocation = c.next then 1 else c.count v := by
  by_cases same : v.allocation = c.next
  · simp [count,allocate,same]
  · simp [count,allocate,Std.ExtTreeMap.getD_insert,same,Ne.symm same]

@[simp] theorem retain_entries : (c.retain w).entries = c.entries := rfl
@[simp] theorem retain_next : (c.retain w).next = c.next := rfl
@[simp] theorem allocate_entries : (c.allocate h type).2.entries = c.entries := rfl
@[simp] theorem allocate_handle : (c.allocate h type).1.handle = h := rfl
@[simp] theorem allocate_next : (c.allocate h type).2.next = c.next + 1 := rfl

@[simp] theorem decrement_entries : (c.decrement w).entries = c.entries := by
  unfold decrement; split <;> rfl

@[simp] theorem decrement_next : (c.decrement w).next = c.next := by
  unfold decrement; split <;> rfl

theorem publish_live (live : c.live? w.handle = some v) : c.publish w = (v, c.retain v) := by
  simp [publish,live]

theorem publish_free (free : c.live? w.handle = none) :
    c.publish w = (w, { c with entries := c.entries.insert w.handle w }) := by
  simp [publish,free]

/-- What is left after a destructor was there before, and is not a dead entry of its handle. -/
theorem entry_of_clear (entry : (c.clear w).entries[h]? = some v) :
    c.entries[h]? = some v ∧ (h = w.handle → c.isAlive v = true) := by
  unfold clear at entry
  cases known : c.entries[w.handle]? with
  | none =>
    simp only [known] at entry
    refine ⟨entry,?_⟩
    rintro rfl
    simp [known] at entry
  | some k =>
    simp only [known] at entry
    by_cases alive : c.isAlive k = true
    · rw [if_pos alive] at entry
      refine ⟨entry,?_⟩
      rintro rfl
      rw [known] at entry
      exact Option.some.inj entry ▸ alive
    · rw [if_neg alive] at entry
      by_cases same : w.handle = h
      · subst same; simp at entry
      · simp only [Std.ExtTreeMap.getElem?_erase,Std.compare_eq_iff_eq,same,if_false] at entry
        exact ⟨entry,fun eq => absurd eq.symm same⟩

/-- A destructor leaves an entry alone that refers to a live wrapper, whatever its handle. -/
theorem clear_keeps (entry : c.entries[h]? = some v) (alive : c.isAlive v = true) :
    (c.clear w).entries[h]? = some v := by
  unfold clear
  cases known : c.entries[w.handle]? with
  | none => exact entry
  | some k =>
    by_cases living : c.isAlive k = true
    · simpa [living] using entry
    · have other : w.handle ≠ h := by
        rintro rfl
        exact living ((Option.some.inj (known.symm.trans entry)).symm ▸ alive)
      simpa [living,Std.ExtTreeMap.getElem?_erase,other] using entry

theorem identical_self (w : Wrapper) : w.identical w = true := by simp [Wrapper.identical]

theorem enter_free {type : TypeInfo} (free : (c.allocate h type).2.live? h = none) :
    c.enter h type = ((c.allocate h type).1,
      { (c.allocate h type).2 with entries := c.entries.insert h (c.allocate h type).1 }) := by
  have published := publish_free (w := (c.allocate h type).1) free
  unfold enter
  simp only [published,identical_self,if_true]
  rfl

/-- A wrapper that loses a race has one reference, that of its wrap, and dies with it. -/
theorem dead_after_loss {type : TypeInfo} (other : w.identical (c.allocate h type).1 = false) :
    (((c.allocate h type).2.retain w).decrement (c.allocate h type).1).isAlive
      (c.allocate h type).1 = false := by
  have one : (c.allocate h type).2.count (c.allocate h type).1 = 1 := by
    rw [count_allocate]
    exact if_pos rfl
  have apart : (c.allocate h type).1.identical w = false := by
    simp only [Wrapper.identical,beq_eq_false_iff_ne] at other ⊢
    exact other.symm
  apply Bool.eq_false_iff.mpr
  rw [ne_eq,isAlive_iff,count_decrement,count_retain,one,identical_self,apart]
  decide

theorem enter_lost {type : TypeInfo} (live : (c.allocate h type).2.live? h = some w)
    (other : w.identical (c.allocate h type).1 = false) :
    c.enter h type = (w,
      (((c.allocate h type).2.retain w).decrement (c.allocate h type).1).clear
        (c.allocate h type).1) := by
  have published := publish_live (w := (c.allocate h type).1) live
  unfold enter
  simp only [published,other,release,dead_after_loss other]
  rfl

/-- Giving a reference back enters nothing. -/
theorem entry_of_release (entry : (c.release w).entries[h]? = some v) :
    c.entries[h]? = some v := by
  simp only [release] at entry
  split at entry
  · simpa using entry
  · simpa using (entry_of_clear entry).1

/-- Who enters a handle gets the new wrapper or the one that is known by it. -/
theorem enter_fst (c : Cache) (h : Handle) (type : TypeInfo) :
    (c.enter h type).1 = ⟨c.next,h,type⟩ ∨ c.entries[h]? = some (c.enter h type).1 := by
  cases live : (c.allocate h type).2.live? h with
  | none =>
    rw [enter_free live]
    exact .inl rfl
  | some winner =>
    have published := publish_live (w := (c.allocate h type).1) live
    simp only [enter,published]
    exact .inr (live?_eq_some.mp live).1

/-- Entering a handle adds no entry but that of the wrapper it ends with. -/
theorem entry_of_enter {k : Handle} {type : TypeInfo}
    (entry : (c.enter h type).2.entries[k]? = some v) :
    (k = h ∧ v = (c.enter h type).1) ∨ c.entries[k]? = some v := by
  cases live : (c.allocate h type).2.live? h with
  | none =>
    rw [enter_free live] at entry ⊢
    by_cases same : h = k
    · subst same
      simp only [Std.ExtTreeMap.getElem?_insert_self,Option.some.injEq] at entry
      exact .inl ⟨rfl,entry.symm⟩
    · simp only [Std.ExtTreeMap.getElem?_insert,Std.compare_eq_iff_eq,same,if_false] at entry
      exact .inr entry
  | some winner =>
    have published := publish_live (w := (c.allocate h type).1) live
    simp only [enter,published] at entry
    split at entry
    · exact .inr entry
    · have before := entry_of_release entry
      rw [retain_entries,allocate_entries] at before
      exact .inr before

/-- The wrappers that somebody refers to, that still have to be destroyed or that are entered. -/
def Known (c : Cache) (refs dying : List Wrapper) (w : Wrapper) : Prop :=
  w ∈ refs ∨ w ∈ dying ∨ ∃ h : Handle, c.entries[h]? = some w

/-- `refs` has one element for each reference that exists and `dying` the allocations whose
last reference went but whose destructor did not run yet. -/
structure Consistent (c : Cache) (refs dying : List Wrapper) : Prop where
  keyed : ∀ (h : Handle) (w : Wrapper), c.entries[h]? = some w → w.handle = h
  counted : ∀ w : Wrapper, c.count w = refs.countP w.identical
  /-- An entry may be dead only as long as the destructor that will clear it is pending. -/
  swept : ∀ (h : Handle) (w : Wrapper), c.entries[h]? = some w → c.isAlive w = true ∨ w ∈ dying
  bounded : ∀ w, c.Known refs dying w → w.allocation < c.next
  /-- An allocation is known by one wrapper only. -/
  distinct : ∀ v w, c.Known refs dying v → c.Known refs dying w →
    v.allocation = w.allocation → v = w

theorem countP_identical_cons (v w : Wrapper) (refs : List Wrapper) :
    (w :: refs).countP v.identical = refs.countP v.identical + if v.identical w then 1 else 0 := by
  rw [List.countP_cons]

namespace Consistent

theorem empty : Consistent {} [] [] := by
  constructor <;> simp [Known,count]

theorem perm {more : List Wrapper} (valid : Consistent c refs dying) (same : refs.Perm more) :
    Consistent c more dying := by
  have known (w : Wrapper) (h : c.Known more dying w) : c.Known refs dying w := by
    simpa only [Known,same.mem_iff] using h
  refine ⟨valid.keyed,?_,valid.swept,?_,?_⟩
  · intro w
    rw [valid.counted w,same.countP_eq]
  · exact fun w h => valid.bounded w (known w h)
  · exact fun v w hv hw => valid.distinct v w (known v hv) (known w hw)

/-- Whatever is referred to is alive. -/
theorem alive_of_mem (valid : Consistent c refs dying) (member : w ∈ refs) :
    c.isAlive w = true := by
  rw [isAlive_iff,valid.counted w]
  exact List.countP_pos_iff.mpr ⟨w,member,identical_self w⟩

/-- A copy of a reference, or a new one to what is entered. -/
theorem retain (valid : Consistent c refs dying) (known : c.Known refs dying w) :
    Consistent (c.retain w) (w :: refs) dying := by
  have before (v : Wrapper) (h : (c.retain w).Known (w :: refs) dying v) :
      c.Known refs dying v := by
    rcases h with member | later
    · rcases List.mem_cons.mp member with rfl | member
      · exact known
      · exact .inl member
    · exact .inr later
  refine ⟨valid.keyed,?_,?_,?_,?_⟩
  · intro v
    rw [count_retain,valid.counted v,countP_identical_cons]
  · intro h v entry
    rcases valid.swept h v entry with alive | pending
    · left
      rw [isAlive_iff] at alive ⊢
      rw [count_retain]
      omega
    · exact .inr pending
  · exact fun v h => valid.bounded v (before v h)
  · exact fun u v hu hv => valid.distinct u v (before u hu) (before v hv)

/-- An allocation has a number that no wrapper had before. -/
theorem allocate (valid : Consistent c refs dying) (h : Handle) (type : TypeInfo) :
    Consistent (c.allocate h type).2 ((c.allocate h type).1 :: refs) dying := by
  have number : (c.allocate h type).1.allocation = c.next := rfl
  have before (v : Wrapper)
      (known : (c.allocate h type).2.Known ((c.allocate h type).1 :: refs) dying v) :
      v = (c.allocate h type).1 ∨ c.Known refs dying v := by
    rcases known with member | later
    · rcases List.mem_cons.mp member with rfl | member
      · exact .inl rfl
      · exact .inr (.inl member)
    · exact .inr (.inr later)
  refine ⟨valid.keyed,?_,?_,?_,?_⟩
  · intro v
    rw [count_allocate,countP_identical_cons]
    by_cases same : v.allocation = c.next
    · have unused : refs.countP v.identical = 0 := by
        apply List.countP_eq_zero.mpr
        intro w member equal
        have below := valid.bounded w (.inl member)
        have := eq_of_beq equal
        omega
      simp [same,unused,Wrapper.identical,number]
    · simp [same,Wrapper.identical,number,valid.counted v]
  · intro g v entry
    rcases valid.swept g v entry with alive | pending
    · left
      have below := valid.bounded v (.inr (.inr ⟨g,entry⟩))
      rw [isAlive_iff] at alive ⊢
      rwa [count_allocate,if_neg (by omega)]
    · exact .inr pending
  · intro v known
    rcases before v known with rfl | known
    · simp [number]
    · have below := valid.bounded v known
      simp only [allocate_next]
      omega
  · intro u v hu hv same
    rcases before u hu with rfl | hu <;> rcases before v hv with rfl | hv
    · rfl
    · have below := valid.bounded v hv
      omega
    · have below := valid.bounded u hu
      omega
    · exact valid.distinct u v hu hv same

/-- Entering a wrapper that is referred to may only replace an entry of its own handle. -/
theorem enter (valid : Consistent c refs dying) (member : w ∈ refs) :
    Consistent { c with entries := c.entries.insert w.handle w } refs dying := by
  have origin (h : Handle) (v : Wrapper)
      (entry : (c.entries.insert w.handle w)[h]? = some v) :
      (h = w.handle ∧ v = w) ∨ c.entries[h]? = some v := by
    by_cases same : w.handle = h
    · subst same
      simp only [Std.ExtTreeMap.getElem?_insert_self,Option.some.injEq] at entry
      exact .inl ⟨rfl,entry.symm⟩
    · right
      simpa [Std.ExtTreeMap.getElem?_insert,same] using entry
  have before (v : Wrapper)
      (known : Known { c with entries := c.entries.insert w.handle w } refs dying v) :
      c.Known refs dying v := by
    rcases known with member | pending | ⟨h,entry⟩
    · exact .inl member
    · exact .inr (.inl pending)
    · rcases origin h v entry with ⟨_,rfl⟩ | old
      · exact .inl member
      · exact .inr (.inr ⟨h,old⟩)
  refine ⟨?_,valid.counted,?_,?_,?_⟩
  · intro h v entry
    rcases origin h v entry with ⟨rfl,rfl⟩ | old
    · rfl
    · exact valid.keyed h v old
  · intro h v entry
    rcases origin h v entry with ⟨rfl,rfl⟩ | old
    · exact .inl (valid.alive_of_mem member)
    · exact valid.swept h v old
  · exact fun v known => valid.bounded v (before v known)
  · exact fun u v hu hv => valid.distinct u v (before u hu) (before v hv)

/-- Fewer entries and fewer pending destructors, as long as no dead entry is left without one. -/
theorem shrink {entries : HandleMap Wrapper} {fewer : List Wrapper}
    (valid : Consistent c refs dying)
    (left : ∀ (h : Handle) (v : Wrapper), entries[h]? = some v → c.entries[h]? = some v)
    (less : ∀ v, v ∈ fewer → v ∈ dying)
    (swept : ∀ (h : Handle) (v : Wrapper), entries[h]? = some v →
      c.isAlive v = true ∨ v ∈ fewer) :
    Consistent { c with entries } refs fewer := by
  have before (v : Wrapper) (known : Known { c with entries } refs fewer v) :
      c.Known refs dying v := by
    rcases known with member | pending | ⟨h,entry⟩
    · exact .inl member
    · exact .inr (.inl (less v pending))
    · exact .inr (.inr ⟨h,left h v entry⟩)
  refine ⟨?_,valid.counted,swept,?_,?_⟩
  · exact fun h v entry => valid.keyed h v (left h v entry)
  · exact fun v known => valid.bounded v (before v known)
  · exact fun u v hu hv => valid.distinct u v (before u hu) (before v hv)

/-- The last reference leaves an allocation that is still to be destroyed. -/
theorem decrement (valid : Consistent c (w :: refs) dying) :
    Consistent (c.decrement w) refs
      (if (c.decrement w).isAlive w then dying else w :: dying) := by
  have mine : c.Known (w :: refs) dying w := .inl List.mem_cons_self
  have count (v : Wrapper) : (c.decrement w).count v = refs.countP v.identical := by
    rw [count_decrement,valid.counted v,countP_identical_cons]
    omega
  have before (v : Wrapper) (known : (c.decrement w).Known refs
      (if (c.decrement w).isAlive w then dying else w :: dying) v) :
      c.Known (w :: refs) dying v := by
    rcases known with member | pending | ⟨h,entry⟩
    · exact .inl (List.mem_cons_of_mem w member)
    · split at pending
      · exact .inr (.inl pending)
      · rcases List.mem_cons.mp pending with rfl | pending
        · exact mine
        · exact .inr (.inl pending)
    · exact .inr (.inr ⟨h,by simpa using entry⟩)
  refine ⟨?_,count,?_,?_,?_⟩
  · intro h v entry
    exact valid.keyed h v (by simpa using entry)
  · intro h v entry
    have entry : c.entries[h]? = some v := by simpa using entry
    by_cases same : v = w
    · subst same
      by_cases alive : (c.decrement v).isAlive v = true
      · exact .inl alive
      · exact .inr (by simp [alive])
    · rcases valid.swept h v entry with alive | pending
      · left
        have other : v.identical w = false := by
          apply Bool.eq_false_iff.mpr
          intro equal
          exact same (valid.distinct v w (.inr (.inr ⟨h,entry⟩)) mine (eq_of_beq equal))
        rw [isAlive_iff] at alive ⊢
        simpa [count_decrement,other] using alive
      · right
        split
        · exact pending
        · exact List.mem_cons_of_mem w pending
  · intro v known
    simpa using valid.bounded v (before v known)
  · exact fun u v hu hv => valid.distinct u v (before u hu) (before v hv)

/-- Once its destructor ran, an allocation is not pending any more and enters nothing. -/
theorem clear (valid : Consistent c refs dying) : Consistent (c.clear w) refs (dying.erase w) := by
  have shape : c.clear w = { c with entries := (c.clear w).entries } := by
    unfold Cache.clear
    split
    · rfl
    · split <;> rfl
  rw [shape]
  apply valid.shrink
  · exact fun h v entry => (entry_of_clear entry).1
  · exact fun v member => List.mem_of_mem_erase member
  · intro h v entry
    obtain ⟨old,cleared⟩ := entry_of_clear entry
    rcases valid.swept h v old with alive | pending
    · exact .inl alive
    · by_cases same : v = w
      · subst same
        exact .inl (cleared (valid.keyed h v old).symm)
      · exact .inr ((List.mem_erase_of_ne same).mpr pending)

theorem forget (valid : Consistent c refs dying) (h : Handle) :
    Consistent (c.forget h).2 refs dying := by
  have left (g : Handle) (v : Wrapper) (entry : (c.entries.erase h)[g]? = some v) :
      c.entries[g]? = some v := by
    rw [Std.ExtTreeMap.getElem?_erase] at entry
    split at entry
    · cases entry
    · exact entry
  exact valid.shrink left (fun _ member => member)
    (fun g v entry => valid.swept g v (left g v entry))

theorem purge (valid : Consistent c refs dying) : Consistent c.purge.2 refs dying := by
  have left (h : Handle) (v : Wrapper)
      (entry : (c.entries.filter fun _ w => c.isAlive w)[h]? = some v) :
      c.entries[h]? = some v := by
    rw [Std.ExtTreeMap.getElem?_filter'] at entry
    exact (Option.filter_eq_some_iff.mp entry).1
  exact valid.shrink left (fun _ member => member)
    (fun h v entry => valid.swept h v (left h v entry))

theorem all_alive (valid : Consistent c refs []) (h : Handle) (w : Wrapper)
    (entry : c.entries[h]? = some w) : c.isAlive w = true := by
  rcases valid.swept h w entry with alive | pending
  · exact alive
  · cases pending

/-- Without a pending destructor there is nothing to sweep. -/
theorem filter_alive (valid : Consistent c refs []) :
    (c.entries.filter fun _ w => c.isAlive w) = c.entries := by
  apply Std.ExtTreeMap.ext_getElem?
  intro h
  rw [Std.ExtTreeMap.getElem?_filter']
  cases entry : c.entries[h]? with
  | none => rfl
  | some w => simp [valid.all_alive h w entry]

end Consistent
end ObjectBridge.Cache
