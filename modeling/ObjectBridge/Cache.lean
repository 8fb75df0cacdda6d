import ObjectBridge.Value

/-! The identity cache: at most one live wrapper for a handle. The cache itself keeps no wrapper
alive. Every allocation is counted; when the last reference to it goes, its entry goes too,
unless a newer allocation has taken the entry over. -/
namespace ObjectBridge

structure Cache where
  /-- The wrapper that a handle is known by, which need not be alive any more. -/
  entries : HandleMap Wrapper := ∅
  /-- The references to every allocation that has any. -/
  counts : Std.ExtTreeMap Nat Nat := ∅
  /-- The next allocation. -/
  next : Nat := 0
  deriving DecidableEq

namespace Cache

def count (c : Cache) (w : Wrapper) : Nat := c.counts.getD w.allocation 0

def isAlive (c : Cache) (w : Wrapper) : Bool := 0 < c.count w

/-- The live wrapper of a handle. -/
def live? (c : Cache) (h : Handle) : Option Wrapper := (c.entries[h]?).filter c.isAlive

/-- One more reference. -/
def retain (c : Cache) (w : Wrapper) : Cache :=
  { c with counts := c.counts.insert w.allocation (c.count w + 1) }

/-- One reference less, without looking at the entry. -/
def decrement (c : Cache) (w : Wrapper) : Cache :=
  if c.count w ≤ 1 then { c with counts := c.counts.erase w.allocation }
  else { c with counts := c.counts.insert w.allocation (c.count w - 1) }

/-- Remove the entry of a wrapper's handle if what it refers to is dead. -/
def clear (c : Cache) (w : Wrapper) : Cache :=
  match c.entries[w.handle]? with
  | none => c
  | some known => if c.isAlive known then c else { c with entries := c.entries.erase w.handle }

/-- Give a reference back. With the last one the entry is cleared. -/
def release (c : Cache) (w : Wrapper) : Cache :=
  let rest := c.decrement w
  if rest.isAlive w then rest else rest.clear w

/-- A new reference to the live wrapper of a handle. -/
def lookup (c : Cache) (h : Handle) : Option Wrapper × Cache :=
  match c.live? h with
  | some w => (some w, c.retain w)
  | none => (none, c)

/-- A new wrapper, with one reference and no entry yet. -/
def allocate (c : Cache) (h : Handle) (type : TypeInfo) : Wrapper × Cache :=
  let w : Wrapper := ⟨c.next, h, type⟩
  (w, { c with counts := c.counts.insert c.next 1, next := c.next + 1 })

/-- Enter a new wrapper, unless its handle has got a live one in the meantime. Then that one is
the answer, and the new one is still to be released. -/
def publish (c : Cache) (fresh : Wrapper) : Wrapper × Cache :=
  match c.live? fresh.handle with
  | some winner => (winner, c.retain winner)
  | none => (fresh, { c with entries := c.entries.insert fresh.handle fresh })

/-- The wrapper of a handle whose type has been found out. -/
def enter (c : Cache) (h : Handle) (type : TypeInfo) : Wrapper × Cache :=
  let (fresh, c) := c.allocate h type
  let (w, c) := c.publish fresh
  (w, if w.identical fresh then c else c.release fresh)

/-- Drop the entry of a handle: was there one? Wrappers of it stay usable. -/
def forget (c : Cache) (h : Handle) : Bool × Cache :=
  (c.entries.contains h, { c with entries := c.entries.erase h })

/-- Drop the dead entries and count them. -/
def purge (c : Cache) : Nat × Cache :=
  let alive := c.entries.filter fun _ w => c.isAlive w
  (c.entries.size - alive.size, { c with entries := alive })

/-- The number of handles with a live wrapper. -/
def liveCount (c : Cache) : Nat := (c.entries.filter fun _ w => c.isAlive w).size

end Cache
end ObjectBridge
