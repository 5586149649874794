/-
Insertion-ordered dictionaries: the finite maps an interpreted language
iterates in the order their keys were first written.

A `Dict` is its entry list together with the proof that no key occurs
twice, so a dictionary with two entries for one key cannot be built.
Writing an existing key replaces its value in place (the key keeps its
position); writing a new key appends. Every reader goes through `get?`,
and `get?_set` is the one rule the callers' proofs use: a write is
visible at its key and nowhere else.
-/
import Mathlib.Data.List.Nodup

namespace PatentEvidence

/-- A dictionary: entries in insertion order, one per key. -/
structure Dict (κ ν : Type _) where
  entries : List (κ × ν)
  nodup : (entries.map Prod.fst).Nodup

namespace Dict

variable {κ ν : Type _} [DecidableEq κ]

-- ========================================================= operations

/-- The empty dictionary. -/
def empty : Dict κ ν := ⟨[], List.nodup_nil⟩

/-- The keys, in insertion order. -/
def keys (d : Dict κ ν) : List κ := d.entries.map Prod.fst

/-- The value stored at a key, if any. -/
def get? (d : Dict κ ν) (k : κ) : Option ν := d.entries.lookup k

/-- The value stored at a key, or a default. -/
def getD (d : Dict κ ν) (k : κ) (default : ν) : ν := (d.get? k).getD default

/-- Write one key into an entry list: in place if the key is there, at
the end if it is new. -/
def setEntries (k : κ) (v : ν) : List (κ × ν) → List (κ × ν)
  | [] => [(k, v)]
  | (k', v') :: rest =>
      if k' = k then (k, v) :: rest else (k', v') :: setEntries k v rest

/-- A written entry list has the old keys and the written one. -/
theorem mem_keys_setEntries {k k₀ : κ} {v : ν} {l : List (κ × ν)} :
    k₀ ∈ (setEntries k v l).map Prod.fst ↔ k₀ = k ∨ k₀ ∈ l.map Prod.fst := by
  induction l with
  | nil => simp [setEntries]
  | cons e rest ih =>
      obtain ⟨k', v'⟩ := e
      by_cases h : k' = k
      · subst h
        simp [setEntries]
      · simp only [setEntries, if_neg h, List.map_cons, List.mem_cons, ih]
        exact or_left_comm

theorem nodup_setEntries {k : κ} {v : ν} {l : List (κ × ν)}
    (h : (l.map Prod.fst).Nodup) :
    ((setEntries k v l).map Prod.fst).Nodup := by
  induction l with
  | nil => simp [setEntries]
  | cons e rest ih =>
      obtain ⟨k', v'⟩ := e
      simp only [List.map_cons, List.nodup_cons] at h
      by_cases hk : k' = k
      · subst hk
        simpa [setEntries] using h
      · simp only [setEntries, if_neg hk, List.map_cons, List.nodup_cons,
          mem_keys_setEntries]
        refine ⟨?_, ih h.2⟩
        rintro (rfl | hmem)
        · exact hk rfl
        · exact h.1 hmem

/-- `d[k] = v`. -/
def set (d : Dict κ ν) (k : κ) (v : ν) : Dict κ ν :=
  ⟨setEntries k v d.entries, nodup_setEntries d.nodup⟩

theorem keys_setEntries (k : κ) (v : ν) (l : List (κ × ν)) :
    (setEntries k v l).map Prod.fst
      = if k ∈ l.map Prod.fst then l.map Prod.fst
        else l.map Prod.fst ++ [k] := by
  induction l with
  | nil => simp [setEntries]
  | cons e rest ih =>
      obtain ⟨k', v'⟩ := e
      by_cases hk : k' = k
      · subst hk
        simp [setEntries]
      · have hne : ¬ k = k' := fun h => hk h.symm
        simp only [setEntries, if_neg hk, List.map_cons, ih, List.mem_cons,
          hne, false_or]
        split <;> rfl

/-- A new key goes to the end, an old one keeps its position. -/
theorem keys_set (d : Dict κ ν) (k : κ) (v : ν) :
    (d.set k v).keys = if k ∈ d.keys then d.keys else d.keys ++ [k] :=
  keys_setEntries k v d.entries

-- ============================================================ reading

@[simp] theorem get?_empty (k : κ) : (empty : Dict κ ν).get? k = none := rfl

private theorem lookup_setEntries (k k₀ : κ) (v : ν) (l : List (κ × ν)) :
    (setEntries k v l).lookup k₀ = if k₀ = k then some v else l.lookup k₀ := by
  induction l with
  | nil =>
      by_cases h : k₀ = k
      · simp [setEntries, h]
      · have hb : (k₀ == k) = false := beq_eq_false_iff_ne.mpr h
        simp [setEntries, h, List.lookup_cons, hb]
  | cons e rest ih =>
      obtain ⟨k', v'⟩ := e
      by_cases h₀ : k₀ = k'
      · subst h₀
        by_cases h : k₀ = k
        · simp [setEntries, h]
        · simp [setEntries, h]
      · have hb : (k₀ == k') = false := beq_eq_false_iff_ne.mpr h₀
        by_cases h : k' = k
        · subst h
          simp [setEntries, h₀, List.lookup_cons, hb]
        · simp [setEntries, h, List.lookup_cons, hb, ih]

/-- A write is visible at its key and nowhere else. -/
theorem get?_set (d : Dict κ ν) (k k₀ : κ) (v : ν) :
    (d.set k v).get? k₀ = if k₀ = k then some v else d.get? k₀ :=
  lookup_setEntries k k₀ v d.entries

@[simp] theorem get?_set_self (d : Dict κ ν) (k : κ) (v : ν) :
    (d.set k v).get? k = some v := by
  rw [get?_set, if_pos rfl]

theorem get?_set_of_ne (d : Dict κ ν) {k k₀ : κ} (v : ν) (h : k₀ ≠ k) :
    (d.set k v).get? k₀ = d.get? k₀ := by
  rw [get?_set, if_neg h]

/-- A key misses exactly when it is not among the keys. -/
theorem get?_eq_none_iff {d : Dict κ ν} {k : κ} :
    d.get? k = none ↔ k ∉ d.keys := by
  simp only [get?, List.lookup_eq_none_iff, keys, List.mem_map, not_exists,
    not_and, bne_iff_ne]
  exact ⟨fun h e he hk => h e he hk.symm, fun h e he hk => h e he hk.symm⟩

/-- A stored value is an entry. -/
theorem mem_entries_of_get? {d : Dict κ ν} {k : κ} {v : ν}
    (h : d.get? k = some v) : (k, v) ∈ d.entries := by
  obtain ⟨l₁, l₂, hl, -⟩ := List.lookup_eq_some_iff.mp h
  rw [hl]
  simp

/-- An entry is what its key reads: keys are unique. -/
theorem get?_of_mem_entries {d : Dict κ ν} {k : κ} {v : ν}
    (h : (k, v) ∈ d.entries) : d.get? k = some v := by
  obtain ⟨l₁, l₂, hl⟩ := List.append_of_mem h
  refine List.lookup_eq_some_iff.mpr ⟨l₁, l₂, hl, fun e he => ?_⟩
  have hnd := d.nodup
  rw [hl, List.map_append, List.map_cons] at hnd
  have hdisj := List.disjoint_of_nodup_append hnd
  rw [bne_iff_ne]
  intro hk
  exact hdisj (List.mem_map_of_mem he) (by simp [hk])

theorem mem_entries_iff {d : Dict κ ν} {k : κ} {v : ν} :
    (k, v) ∈ d.entries ↔ d.get? k = some v :=
  ⟨get?_of_mem_entries, mem_entries_of_get?⟩

/-- Writing one entry per item leaves exactly the keys of the items
besides the old ones. -/
theorem get?_foldl_set_eq_none {α : Type _} {key : α → κ} {value : α → ν}
    {l : List α} {d : Dict κ ν} {k : κ} :
    (l.foldl (fun d a => d.set (key a) (value a)) d).get? k = none
      ↔ k ∉ l.map key ∧ d.get? k = none := by
  induction l generalizing d with
  | nil => simp
  | cons a l ih =>
      rw [List.foldl_cons, ih, get?_set, List.map_cons, List.mem_cons]
      by_cases h : k = key a
      · simp [h]
      · simp [h]

end Dict

end PatentEvidence
