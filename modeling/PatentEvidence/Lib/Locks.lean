/-
Locks that transactions take by a key and hold until they end.

One key has at most one owner: the locks are a table by key. Taking a lock
again does nothing, and a transaction that would wait gets none. An
invariant that rests on a lock is kept in two ways: its owner knows what it
holds, and by `Holds.unique` nobody else does.
-/
import PatentEvidence.Lib.Table

namespace PatentEvidence

structure AdvisoryLock (κ ω : Type _) where
  key : κ
  owner : ω
  deriving DecidableEq

/-- The locks held. -/
abbrev AdvisoryLocks (κ ω : Type _) : Type _ :=
  Table (AdvisoryLock.key : AdvisoryLock κ ω → κ)

namespace AdvisoryLocks

variable {κ ω : Type _} [DecidableEq κ] [DecidableEq ω]
  {locks locks' : AdvisoryLocks κ ω} {owner owner' : ω} {key key' : κ}

def Holds (locks : AdvisoryLocks κ ω) (owner : ω) (key : κ) : Prop :=
  ⟨key, owner⟩ ∈ locks.rows

/-- The lock, or nothing while another owner has it. -/
def acquire? (locks : AdvisoryLocks κ ω) (owner : ω) (key : κ) :
    Option (AdvisoryLocks κ ω) :=
  if ⟨key, owner⟩ ∈ locks.rows then some locks
  else locks.insert? ⟨key, owner⟩

/-- The owner's transaction ends. -/
def release (locks : AdvisoryLocks κ ω) (owner : ω) : AdvisoryLocks κ ω :=
  locks.delete fun lock => lock.owner = owner

omit [DecidableEq κ] [DecidableEq ω] in
theorem Holds.unique (h : locks.Holds owner key)
    (h' : locks.Holds owner' key) : owner = owner' := by
  have heq := locks.eq_of_key_eq h h' rfl
  exact congrArg AdvisoryLock.owner heq

/-- A lock taken is one more, and of its owner. -/
theorem holds_acquire?_iff (h : locks.acquire? owner key = some locks') :
    locks'.Holds owner' key'
      ↔ locks.Holds owner' key' ∨ (owner' = owner ∧ key' = key) := by
  unfold acquire? at h
  split at h
  · next hheld =>
      cases h
      refine ⟨Or.inl, ?_⟩
      rintro (h | ⟨rfl, rfl⟩)
      · exact h
      · exact hheld
  · obtain ⟨-, hrows⟩ := Table.insert?_eq_some.mp h
    rw [Holds, Holds, hrows, List.mem_append, List.mem_singleton]
    simp [and_comm]

theorem holds_of_acquire? (h : locks.acquire? owner key = some locks') :
    locks'.Holds owner key :=
  (holds_acquire?_iff h).mpr (Or.inr ⟨rfl, rfl⟩)

/-- Nobody waits for a lock that nobody holds. -/
theorem exists_acquire? (h : ∀ owner', ¬ locks.Holds owner' key) :
    ∃ locks', locks.acquire? owner key = some locks' := by
  have hfresh : key ∉ locks.rows.map AdvisoryLock.key := by
    intro hin
    obtain ⟨lock, hlock, rfl⟩ := List.mem_map.mp hin
    exact h lock.owner hlock
  have hnot : ⟨key, owner⟩ ∉ locks.rows := h owner
  rw [acquire?, if_neg hnot]
  exact Table.exists_insert? hfresh

omit [DecidableEq κ] in
/-- An owner that ends holds nothing; the others hold what they held. -/
theorem holds_release_iff :
    (locks.release owner).Holds owner' key
      ↔ locks.Holds owner' key ∧ owner' ≠ owner := by
  simp [Holds, release]

end AdvisoryLocks

end PatentEvidence
