import ObjectBridge.Proofs.Cache.References
import Mathlib.Logic.Relation

/-! Visits. Whatever a bridge does to its cache, but to forget, comes to a few moves, each of which
accounts for every reference. What is referred to stays entered unless its handle is forgotten, and
nothing else stays. -/
namespace ObjectBridge.Cache

/-- The references that exist, one element for each, and the cache that counts them. -/
structure Holding where
  refs : List Wrapper
  cache : Cache

/-- One move. A handle is entered with a type that it is named by. -/
inductive Visit (named : Handle → TypeInfo → Prop) : Holding → Holding → Prop where
  | retain {refs : List Wrapper} {c : Cache} {w : Wrapper} :
      (w ∈ refs ∨ ∃ h, c.live? h = some w) → Visit named ⟨refs,c⟩ ⟨w :: refs,c.retain w⟩
  | release {refs : List Wrapper} {c : Cache} {w : Wrapper} :
      Visit named ⟨w :: refs,c⟩ ⟨refs,c.release w⟩
  | enter {refs : List Wrapper} {c : Cache} {h : Handle} {type : TypeInfo} : named h type →
      Visit named ⟨refs,c⟩ ⟨(c.enter h type).1 :: refs,(c.enter h type).2⟩
  | purge {refs : List Wrapper} {c : Cache} : Visit named ⟨refs,c⟩ ⟨refs,c.purge.2⟩
  | reorder {refs more : List Wrapper} {c : Cache} : refs.Perm more →
      Visit named ⟨refs,c⟩ ⟨more,c⟩

abbrev Visits (named : Handle → TypeInfo → Prop) : Holding → Holding → Prop :=
  Relation.ReflTransGen (Visit named)

variable {c : Cache} {refs : List Wrapper} {h : Handle} {v w : Wrapper} {type : TypeInfo}
  {named : Handle → TypeInfo → Prop} {s t : Holding}

@[simp] theorem clear_next : (c.clear w).next = c.next := by
  unfold clear
  split
  · rfl
  · split <;> rfl

@[simp] theorem release_next : (c.release w).next = c.next := by
  simp only [release]
  split <;> simp

namespace Consistent

theorem release (valid : Consistent c (w :: refs) []) : Consistent (c.release w) refs [] := by
  have fewer := valid.decrement
  simp only [Cache.release]
  split
  · rename_i alive
    rwa [if_pos alive] at fewer
  · rename_i dead
    rw [if_neg dead] at fewer
    simpa using fewer.clear (w := w)

/-- Giving a reference back takes nothing from the cache that others refer to. -/
theorem release_keeps (valid : Consistent c (w :: refs) []) (member : v ∈ refs)
    (entry : c.entries[h]? = some v) : (c.release w).entries[h]? = some v := by
  have alive := valid.decrement.alive_of_mem member
  simp only [Cache.release]
  split
  · simpa using entry
  · exact clear_keeps (by simpa using entry) alive

/-- A new number is nobody's, so an allocation keeps alive what was and nothing else. -/
theorem live?_allocate {dying : List Wrapper} (valid : Consistent c refs dying) (h : Handle)
    (type : TypeInfo) (k : Handle) : (c.allocate h type).2.live? k = c.live? k := by
  unfold live?
  rw [allocate_entries]
  cases entry : c.entries[k]? with
  | none => rfl
  | some v =>
    have below := valid.bounded v (.inr (.inr ⟨k,entry⟩))
    have same : (c.allocate h type).2.isAlive v = c.isAlive v := by
      rw [isAlive,isAlive,count_allocate,if_neg (Nat.ne_of_lt below)]
    simp [Option.filter,same]

/-- Where a handle has a live wrapper that one is entered, and the new one is given up at once. -/
theorem enter_live (valid : Consistent c refs []) (live : c.live? h = some w)
    (type : TypeInfo) : (c.enter h type).1 = w ∧ (c.enter h type).2 =
      ((c.allocate h type).2.retain w).release (c.allocate h type).1 := by
  have below := valid.bounded w (.inr (.inr ⟨h,(live?_eq_some.mp live).1⟩))
  have other : w.identical (c.allocate h type).1 = false := by
    simpa [Wrapper.identical,Cache.allocate] using Nat.ne_of_lt below
  have published := publish_live (w := (c.allocate h type).1)
    ((valid.live?_allocate h type h).trans live)
  simp [Cache.enter,published,other]

/-- Before the new one is given up, both are referred to. -/
theorem lost (valid : Consistent c refs []) (live : c.live? h = some w) (type : TypeInfo) :
    Consistent ((c.allocate h type).2.retain w) ((c.allocate h type).1 :: w :: refs) [] := by
  have entry := (live?_eq_some.mp ((valid.live?_allocate h type h).trans live)).1
  exact ((valid.allocate h type).retain (.inr (.inr ⟨h,entry⟩))).perm (List.Perm.swap ..)

theorem entering (valid : Consistent c refs []) (h : Handle) (type : TypeInfo) :
    Consistent (c.enter h type).2 ((c.enter h type).1 :: refs) [] := by
  cases live : c.live? h with
  | none =>
    rw [enter_free ((valid.live?_allocate h type h).trans live)]
    exact (valid.allocate h type).enter List.mem_cons_self
  | some winner =>
    obtain ⟨first,second⟩ := valid.enter_live live type
    rw [first,second]
    exact (valid.lost live type).release

end Consistent

/-- What a wrapper that is referred to or entered is known to be. -/
structure Holding.All (P : Wrapper → Prop) (s : Holding) : Prop where
  refs : ∀ w ∈ s.refs, P w
  entries : ∀ (h : Handle) (w : Wrapper), s.cache.entries[h]? = some w → P w

namespace Holding.All

variable {P : Wrapper → Prop}

theorem imp {Q : Wrapper → Prop} (all : s.All P) (weaker : ∀ w, P w → Q w) : s.All Q :=
  ⟨fun w member => weaker w (all.refs w member),fun h w entry => weaker w (all.entries h w entry)⟩

/-- To forget a handle brings nothing new. -/
theorem forget (all : s.All P) (h : Handle) : Holding.All P ⟨s.refs,(s.cache.forget h).2⟩ := by
  refine ⟨all.refs,?_⟩
  intro k w entry
  simp only [Cache.forget,Std.ExtTreeMap.getElem?_erase] at entry
  split at entry
  · cases entry
  · exact all.entries k w entry

theorem visit (all : s.All P) (new : ∀ n h type, named h type → P ⟨n,h,type⟩)
    (move : Visit named s t) : t.All P := by
  cases move with
  | @retain refs c w known =>
    refine ⟨List.forall_mem_cons.mpr ⟨?_,all.refs⟩,all.entries⟩
    rcases known with member | ⟨h,live⟩
    · exact all.refs w member
    · exact all.entries h w (live?_eq_some.mp live).1
  | release =>
    exact ⟨(List.forall_mem_cons.mp all.refs).2,
      fun h w entry => all.entries h w (entry_of_release entry)⟩
  | @enter refs c h type name =>
    have entered : P (c.enter h type).1 := by
      rcases c.enter_fst h type with same | entry
      · exact same ▸ new c.next h type name
      · exact all.entries h _ entry
    refine ⟨List.forall_mem_cons.mpr ⟨entered,all.refs⟩,?_⟩
    intro k w entry
    rcases entry_of_enter entry with ⟨_,rfl⟩ | before
    · exact entered
    · exact all.entries k w before
  | purge =>
    refine ⟨all.refs,?_⟩
    intro h w entry
    simp only [Cache.purge,Std.ExtTreeMap.getElem?_filter'] at entry
    exact all.entries h w (Option.filter_eq_some_iff.mp entry).1
  | reorder same => exact ⟨fun w member => all.refs w (same.mem_iff.mpr member),all.entries⟩

theorem visits (all : s.All P) (new : ∀ n h type, named h type → P ⟨n,h,type⟩)
    (moves : Visits named s t) : t.All P := by
  induction moves with
  | refl => exact all
  | tail _ move ih => exact ih.visit new move

end Holding.All

/-- A cache in step with its references. `fresh h n` says that allocation `n` came after handle `h`
was last forgotten. -/
structure Owned (fresh : Handle → Nat → Prop) (s : Holding) : Prop where
  consistent : s.cache.Consistent s.refs []
  entered : ∀ w ∈ s.refs, fresh w.handle w.allocation → s.cache.entries[w.handle]? = some w
  recent : ∀ (h : Handle) (w : Wrapper), s.cache.entries[h]? = some w → fresh h w.allocation
  future : ∀ h n, s.cache.next ≤ n → fresh h n

namespace Owned

variable {fresh : Handle → Nat → Prop}

theorem congr {new : Handle → Nat → Prop} (owned : Owned fresh s)
    (same : ∀ h n, fresh h n ↔ new h n) : Owned new s := by
  obtain rfl : fresh = new := funext fun h => funext fun n => propext (same h n)
  exact owned

theorem entry_of_live (owned : Owned fresh s) (live : s.cache.live? h = some w) :
    s.cache.entries[w.handle]? = some w := by
  have entry := (live?_eq_some.mp live).1
  rwa [← owned.consistent.keyed h w entry] at entry

theorem retain (owned : Owned fresh ⟨refs,c⟩) (known : w ∈ refs ∨ ∃ h, c.live? h = some w) :
    Owned fresh ⟨w :: refs,c.retain w⟩ := by
  have entered : fresh w.handle w.allocation → c.entries[w.handle]? = some w := by
    rcases known with member | ⟨h,live⟩
    · exact owned.entered w member
    · exact fun _ => owned.entry_of_live live
  have referred : c.Known refs [] w := by
    rcases known with member | ⟨h,live⟩
    · exact .inl member
    · exact .inr (.inr ⟨_,owned.entry_of_live live⟩)
  exact ⟨owned.consistent.retain referred,List.forall_mem_cons.mpr ⟨entered,owned.entered⟩,
    owned.recent,owned.future⟩

theorem release (owned : Owned fresh ⟨w :: refs,c⟩) : Owned fresh ⟨refs,c.release w⟩ := by
  refine ⟨owned.consistent.release,?_,?_,?_⟩
  · intro v member new
    exact owned.consistent.release_keeps member
      (owned.entered v (List.mem_cons_of_mem w member) new)
  · exact fun h v entry => owned.recent h v (entry_of_release entry)
  · exact fun h n later => owned.future h n (by simpa using later)

/-- Where there is no live wrapper the new one is entered. -/
theorem enter_free (owned : Owned fresh ⟨refs,c⟩) (free : c.live? h = none) :
    Owned fresh ⟨(c.enter h type).1 :: refs,(c.enter h type).2⟩ := by
  have valid : c.Consistent refs [] := owned.consistent
  have inside := valid.entering h type
  have shape := Cache.enter_free ((valid.live?_allocate h type h).trans free)
  rw [shape] at inside ⊢
  refine ⟨inside,List.forall_mem_cons.mpr ⟨fun _ => ?_,?_⟩,?_,?_⟩
  · exact Std.ExtTreeMap.getElem?_insert_self
  · intro v member new
    have entry : c.entries[v.handle]? = some v := owned.entered v member new
    have alive := valid.alive_of_mem member
    have other : h ≠ v.handle := by
      rintro rfl
      rw [live?_eq_some.mpr ⟨entry,alive⟩] at free
      cases free
    simpa [Std.ExtTreeMap.getElem?_insert,other] using entry
  · intro k v entry
    have source : (c.enter h type).2.entries[k]? = some v := shape ▸ entry
    rcases entry_of_enter source with ⟨rfl,rfl⟩ | before
    · rw [shape]
      exact owned.future k c.next (Nat.le_refl _)
    · exact owned.recent k v before
  · exact fun k n later => owned.future k n (Nat.le_of_succ_le later)

/-- Where there is a live wrapper it is the answer, and it stays. -/
theorem enter_live (owned : Owned fresh ⟨refs,c⟩) (live : c.live? h = some w) :
    Owned fresh ⟨(c.enter h type).1 :: refs,(c.enter h type).2⟩ := by
  have valid : c.Consistent refs [] := owned.consistent
  obtain ⟨first,second⟩ := valid.enter_live live type
  have both := valid.lost live type
  rw [first,second]
  refine ⟨both.release,?_,?_,?_⟩
  · intro v member new
    refine both.release_keeps member ?_
    rcases List.mem_cons.mp member with rfl | member
    · exact owned.entry_of_live live
    · exact owned.entered v member new
  · intro k v entry
    have before := entry_of_release (c := (c.allocate h type).2.retain w) entry
    rw [retain_entries,allocate_entries] at before
    exact owned.recent k v before
  · intro k n later
    refine owned.future k n (Nat.le_of_succ_le ?_)
    simpa using later

theorem visit (owned : Owned fresh s) (move : Visit named s t) : Owned fresh t := by
  cases move with
  | retain known => exact owned.retain known
  | release => exact owned.release
  | @enter refs c h type =>
    cases live : c.live? h with
    | none => exact owned.enter_free live
    | some w => exact owned.enter_live live
  | purge =>
    have same := owned.consistent.filter_alive
    refine ⟨owned.consistent.purge,?_,?_,owned.future⟩
    · simpa only [Cache.purge,same] using owned.entered
    · simpa only [Cache.purge,same] using owned.recent
  | reorder same =>
    exact ⟨owned.consistent.perm same,
      fun w member => owned.entered w (same.mem_iff.mpr member),owned.recent,owned.future⟩

theorem visits (owned : Owned fresh s) (moves : Visits named s t) : Owned fresh t := by
  induction moves with
  | refl => exact owned
  | tail _ move ih => exact ih.visit move

/-- To forget a handle makes what was allocated for it so far stale. -/
theorem forget (owned : Owned fresh s) (h : Handle) :
    Owned (fun g n => fresh g n ∧ (g = h → s.cache.next ≤ n)) ⟨s.refs,(s.cache.forget h).2⟩ := by
  refine ⟨owned.consistent.forget h,?_,?_,?_⟩
  · intro w member ⟨new,later⟩
    have below := owned.consistent.bounded w (.inl member)
    have other : h ≠ w.handle := fun same => Nat.not_le_of_lt below (later same.symm)
    simpa [Cache.forget,Std.ExtTreeMap.getElem?_erase,other] using owned.entered w member new
  · intro g w entry
    simp only [Cache.forget,Std.ExtTreeMap.getElem?_erase] at entry
    split at entry
    · cases entry
    · rename_i other
      exact ⟨owned.recent g w entry,fun same => absurd same.symm (by simpa using other)⟩
  · exact fun g n later => ⟨owned.future g n later,fun _ => later⟩

theorem live_of_mem (owned : Owned fresh s) (member : w ∈ s.refs)
    (new : fresh w.handle w.allocation) : s.cache.live? w.handle = some w :=
  live?_eq_some.mpr ⟨owned.entered w member new,owned.consistent.alive_of_mem member⟩

/-- The live wrapper of a handle is the one that is referred to and was not forgotten. -/
theorem live_iff (owned : Owned fresh s) : s.cache.live? h = some w ↔
    w ∈ s.refs ∧ w.handle = h ∧ fresh h w.allocation := by
  constructor
  · intro live
    obtain ⟨entry,alive⟩ := live?_eq_some.mp live
    rw [isAlive_iff,owned.consistent.counted] at alive
    obtain ⟨v,member,same⟩ := List.countP_pos_iff.mp alive
    obtain rfl := owned.consistent.distinct w v (.inr (.inr ⟨h,entry⟩)) (.inl member)
      (eq_of_beq same)
    exact ⟨member,owned.consistent.keyed h w entry,owned.recent h w entry⟩
  · rintro ⟨member,rfl,new⟩
    exact owned.live_of_mem member new

/-- What is counted as live are the handles with a live wrapper, each once. -/
theorem liveCount_eq (owned : Owned fresh s) : ∃ handles : List Handle, handles.Nodup ∧
    (∀ h, h ∈ handles ↔ ∃ w ∈ s.refs, w.handle = h ∧ fresh h w.allocation) ∧
    s.cache.liveCount = handles.length := by
  refine ⟨s.cache.entries.keys,Std.ExtTreeMap.nodup_keys,?_,?_⟩
  · intro h
    rw [Std.ExtTreeMap.mem_keys,Std.ExtTreeMap.mem_iff_isSome_getElem?,
      Option.isSome_iff_exists]
    refine exists_congr fun w => ?_
    rw [← owned.live_iff,live?_eq_some,iff_self_and]
    exact owned.consistent.all_alive h w
  · rw [liveCount,owned.consistent.filter_alive,Std.ExtTreeMap.length_keys]

end Owned

end ObjectBridge.Cache
