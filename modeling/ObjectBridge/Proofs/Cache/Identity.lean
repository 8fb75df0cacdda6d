import ObjectBridge.Proofs.Cache.Traffic

/-! One wrapper for a handle, in every order of visits to the cache: what is referred to and was
not forgotten is what every later wrap and lookup of its handle answers. -/
namespace ObjectBridge.Cache.Traffic

variable {ctx : Context σ} {s : Traffic} {step : Step} {h : Handle} {v w : Wrapper}

/-- A wrap or a lookup answers the live wrapper of its handle, or else enters a new one. -/
theorem returns_cases (returned : s.Returns ctx step h w) :
    (s.cache.live? h = some w ∧ (s.next ctx step).cache.entries = s.cache.entries) ∨
    (s.cache.live? h = none ∧ w.handle = h ∧
      (s.next ctx step).cache.entries = s.cache.entries.insert h w) := by
  obtain ⟨target,answer⟩ := returned
  cases step with
  | wrap g | lookup g =>
    obtain rfl : g = h := by simpa [Step.target?] using target
    simp only [next,advance,lookup] at answer ⊢
    cases live : s.cache.live? g with
    | none => simp [live] at answer
    | some known =>
      obtain rfl : known = w := by simpa [live] using answer
      exact .inl ⟨rfl,rfl⟩
  | publish fresh =>
    obtain rfl : fresh.handle = h := by simpa [Step.target?] using target
    simp only [next,advance] at answer ⊢
    split at answer
    swap
    · cases answer
    rename_i waiting
    simp only [waiting,if_true]
    cases live : s.cache.live? fresh.handle with
    | none =>
      obtain rfl : fresh = w := by simpa [publish_free live] using answer
      simp [publish_free live]
    | some winner =>
      obtain rfl : winner = w := by simpa [publish_live live] using answer
      simp [publish_live live,letGo]
  | reply | copy | drop | destroy | forget | purge => simp [Step.target?] at target

/-- The handle of a wrapper leads to it. -/
def Entered (s : Traffic) (w : Wrapper) : Prop := s.cache.entries[w.handle]? = some w

theorem returns_entered (valid : s.Valid) (returned : s.Returns ctx step h w) :
    w.handle = h ∧ (s.next ctx step).Entered w := by
  rcases returns_cases returned with ⟨live,same⟩ | ⟨_,named,same⟩
  · have entry := (live?_eq_some.mp live).1
    have named := valid.keyed h w entry
    exact ⟨named,by rw [Entered,same,named,entry]⟩
  · exact ⟨named,by rw [Entered,same,named]; simp⟩

/-- Whoever asks for the handle of a live entered wrapper gets that wrapper. -/
theorem returns_same (valid : s.Valid) (entered : s.Entered w) (held : w ∈ s.held)
    (returned : s.Returns ctx step w.handle v) : v = w := by
  have alive := valid.alive_of_mem (List.mem_append_left s.entering held)
  have live := live?_eq_some.mpr ⟨entered,alive⟩
  rcases returns_cases returned with ⟨found,_⟩ | ⟨free,_⟩
  · exact Option.some.inj (found.symm.trans live)
  · rw [live] at free
    cases free

theorem publish_keeps_entered (fresh : Wrapper) (entered : s.Entered w)
    (alive : s.cache.isAlive w = true) : (s.next ctx (.publish fresh)).Entered w := by
  simp only [next,advance]
  split
  swap
  · exact entered
  cases live : s.cache.live? fresh.handle with
  | some winner => simpa [publish_live live,letGo,Entered] using entered
  | none =>
    have other : fresh.handle ≠ w.handle := by
      intro same
      have dead := live?_eq_none.mp live w (same ▸ entered)
      rw [alive] at dead
      cases dead
    simpa [publish_free live,Entered,Std.ExtTreeMap.getElem?_insert,other] using entered

/-- As long as it is alive, only forgetting its handle takes a wrapper out of the cache. -/
theorem entered_next (entered : s.Entered w) (alive : s.cache.isAlive w = true)
    (kept : step ≠ .forget w.handle) : (s.next ctx step).Entered w := by
  cases step with
  | publish fresh => exact publish_keeps_entered fresh entered alive
  | wrap g | lookup g =>
    simp only [next,advance,lookup]
    cases s.cache.live? g <;> exact entered
  | reply g class? =>
    simp only [next,advance]
    split
    · split <;> exact entered
    · exact entered
  | copy v =>
    simp only [next,advance]
    split <;> exact entered
  | drop v =>
    simp only [next,advance]
    split
    · simpa [letGo,Entered] using entered
    · exact entered
  | destroy v =>
    simp only [next,advance]
    split
    · exact clear_keeps entered alive
    · exact entered
  | forget g =>
    have other : g ≠ w.handle := fun same => kept (by rw [same])
    simpa [next,advance,forget,Entered,Std.ExtTreeMap.getElem?_erase,other] using entered
  | purge =>
    simp only [next,advance,purge,Entered]
    rw [Std.ExtTreeMap.getElem?_filter',show s.cache.entries[w.handle]? = some w from entered]
    simp [alive]

/-- A wrapper that somebody always refers to stays entered until its handle is forgotten. -/
theorem entered_after (valid : s.Valid) (entered : s.Entered w) (steps : List Step)
    (held : ∀ part, part <+: steps → w ∈ (s.after ctx part).held)
    (kept : .forget w.handle ∉ steps) : (s.after ctx steps).Entered w := by
  induction steps generalizing s with
  | nil => exact entered
  | cons step rest ih =>
    have alive : s.cache.isAlive w = true :=
      valid.alive_of_mem (List.mem_append_left s.entering (held [] List.nil_prefix))
    apply ih (next_valid ctx s step valid)
    · exact entered_next entered alive (fun same => kept (same ▸ List.mem_cons_self))
    · intro part start
      exact held (step :: part) (List.cons_prefix_cons.mpr ⟨rfl,start⟩)
    · exact fun later => kept (List.mem_cons_of_mem step later)

/-- In every order of visits: an entry refers to a wrapper of its handle; a wrapper that stays
referred to and is not forgotten is the answer to every later wrap and lookup of its handle,
also if that wrap lost a race; a destructor removes no entry of a live wrapper; and without a
pending destructor all entries are live. -/
theorem one_wrapper_per_handle (ctx : Context σ) (steps : List Step) :
    let s := Traffic.after ctx {} steps
    (∀ (h : Handle) (w : Wrapper), s.cache.entries[h]? = some w → w.handle = h) ∧
    (∀ (first last : Step) (between : List Step) (h : Handle) (w v : Wrapper),
      s.Returns ctx first h w →
      (∀ part, part <+: between → w ∈ ((s.next ctx first).after ctx part).held) →
      .forget h ∉ between →
      ((s.next ctx first).after ctx between).Returns ctx last h v → v = w) ∧
    (∀ w ∈ s.dying, ∀ (h : Handle) (v : Wrapper), s.cache.entries[h]? = some v →
      s.cache.isAlive v = true → (s.next ctx (.destroy w)).cache.entries[h]? = some v) ∧
    (s.dying = [] →
      (∀ (h : Handle) (w : Wrapper), s.cache.entries[h]? = some w → s.cache.isAlive w = true) ∧
      s.cache.purge.1 = 0 ∧ s.cache.liveCount = s.cache.entries.size) := by
  intro s
  have valid : s.Valid := after_valid ctx {} steps start_valid
  refine ⟨valid.keyed,?_,?_,?_⟩
  · intro first last between h w v returned held kept again
    obtain ⟨rfl,entered⟩ := returns_entered valid returned
    have validNext := next_valid ctx s first valid
    have later := entered_after validNext entered between held kept
    exact returns_same (after_valid ctx _ between validNext) later
      (held between List.prefix_rfl) again
  · intro w pending h v entry alive
    simp only [next,advance,pending,if_true]
    exact clear_keeps entry alive
  · intro quiet
    have valid : s.cache.Consistent s.refs [] := quiet ▸ valid
    refine ⟨valid.all_alive,?_,?_⟩
    · simp [purge,valid.filter_alive]
    · simp [liveCount,valid.filter_alive]

/-! A race of two wraps -/

def soleType : TypeInfo where
  id := 0
  decl := { name := "Object" }
  parent := none
  chain := [0]
  own := ∅
  members := ∅

/-- A single class over an engine without state. -/
def soleContext : Context Unit where
  channel := ⟨fun _ _ _ => pure .nil,fun _ => pure "Object",fun _ => pure ⟨1⟩,fun _ => pure ⟨1⟩⟩
  lattice := ⟨#[soleType],NameMap.ofPairs [("Object",0)],by decide⟩
  options := {}

/-- Two wraps of one handle, neither of which found a wrapper, were told the class. -/
def race : List Step :=
  [.wrap ⟨1⟩,.wrap ⟨1⟩,.reply ⟨1⟩ (.ok "Object"),.reply ⟨1⟩ (.ok "Object")]

/-- The wrap that was told first comes second to the cache and gives way. -/
theorem slow_wrap_gives_way :
    let s := Traffic.after soleContext {} race
    let first : Wrapper := ⟨0,⟨1⟩,soleType⟩
    let second : Wrapper := ⟨1,⟨1⟩,soleType⟩
    (s.next soleContext (.publish second)).Returns soleContext (.publish first) ⟨1⟩ second ∧
    ∀ w, (s.next soleContext (.publish second)).Returns soleContext (.publish first) ⟨1⟩ w →
      w = second := by
  intro s first second
  refine ⟨⟨rfl,rfl⟩,?_⟩
  intro w again
  refine (one_wrapper_per_handle soleContext race).2.1 (.publish second) (.publish first) []
    ⟨1⟩ second w ⟨rfl,rfl⟩ ?_ List.not_mem_nil again
  intro part start
  obtain rfl := List.prefix_nil.mp start
  decide +kernel

end ObjectBridge.Cache.Traffic
