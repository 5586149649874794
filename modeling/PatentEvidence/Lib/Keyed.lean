/-
Two lists of items without identities, matched by what they contain.

`splitBy` matches the items themselves; `splitByKey` writes each list into
a dictionary under a key and matches the keys, so of the items under one
key only the last is seen at all. A key is a function of what an item
contains (`key' ∘ content`), and that is all the lemmas assume of it.

What the matching shows and hides, in those terms: nothing is added
exactly when every key of the newer list is one of the older
(`added_eq_nil_iff`); every newer item is among what is shown exactly when
items under one key are the same (`forall_shown_iff`). Where every key is
matched, two lists have the same contents equally often exactly when no item
is masked and none recounted (`perm_iff_not_behind`); where the last items
are the same, when those before them are (`perm_iff_earlier`).
-/
import Mathlib.Data.List.Forall2
import Mathlib.Data.List.Induction
import Mathlib.Data.List.Perm.Basic
import PatentEvidence.Lib.Dict

namespace PatentEvidence.Keyed

variable {α β κ : Type _}

/-- How a newer list differs from an older one. -/
structure Split (α : Type _) where
  added : List α
  removed : List α
  retained : List α
  deriving DecidableEq

/-- Items matched by membership. -/
def splitBy (isIn : α → List α → Bool) (older newer : List α) : Split α :=
  { added := newer.filter fun a => !isIn a older
    removed := older.filter fun a => !isIn a newer
    retained := newer.filter fun a => isIn a older }

section Keys

variable [DecidableEq κ] (key : α → κ)

/-- `{key(a): a for a in l}`: the last item of each key. -/
def lastByKey (l : List α) : Dict κ α :=
  l.foldl (fun items a => items.set (key a) a) .empty

/-- Items matched by key. -/
def splitByKey (older newer : Dict κ α) : Split α :=
  let shown (items others : Dict κ α) (p : Option α → Bool) : List α :=
    (items.entries.filter fun e => p (others.get? e.1)).map Prod.snd
  { added := shown newer older Option.isNone
    removed := shown older newer Option.isNone
    retained := shown newer older Option.isSome }

-- ============================================================ one list

theorem lastByKey_append (l : List α) (a : α) :
    lastByKey key (l ++ [a]) = (lastByKey key l).set (key a) a := by
  rw [lastByKey, List.foldl_append]
  rfl

/-- Under a key stands the last item bearing it. -/
theorem get?_lastByKey (l : List α) (k : κ) :
    (lastByKey key l).get? k = (l.filter fun a => key a = k).getLast? := by
  induction l using List.reverseRecOn with
  | nil => rfl
  | append_singleton l a ih =>
      rw [lastByKey_append, Dict.get?_set, List.filter_append]
      by_cases h : k = key a
      · subst h
        simp
      · have hne : ¬ key a = k := fun h' => h h'.symm
        rw [if_neg h, ih]
        simp [hne]

theorem get?_lastByKey_eq_some {l : List α} {k : κ} {a : α}
    (h : (lastByKey key l).get? k = some a) : a ∈ l ∧ key a = k := by
  rw [get?_lastByKey] at h
  have hmem := List.mem_filter.mp (List.mem_of_getLast? h)
  exact ⟨hmem.1, of_decide_eq_true hmem.2⟩

theorem get?_lastByKey_eq_none_iff {l : List α} {k : κ} :
    (lastByKey key l).get? k = none ↔ k ∉ l.map key := by
  rw [get?_lastByKey, List.getLast?_eq_none_iff, List.filter_eq_nil_iff]
  simp only [decide_eq_true_eq, List.mem_map, not_exists, not_and]

/-- An item has a last one of its key. -/
theorem exists_get?_lastByKey {l : List α} {a : α} (ha : a ∈ l) :
    ∃ b, (lastByKey key l).get? (key a) = some b := by
  rw [← Option.isSome_iff_exists, Option.isSome_iff_ne_none, ne_eq,
    get?_lastByKey_eq_none_iff, not_not]
  exact List.mem_map_of_mem ha

/-- Lists a function cannot tell apart, item by item. -/
theorem forall₂_of_map_eq {l l' : List α} {f : α → β} (h : l.map f = l'.map f) :
    List.Forall₂ (fun a b => f a = f b) l l' := by
  have heq : List.Forall₂ Eq (l.map f) (l'.map f) := by
    rw [List.forall₂_eq_eq_eq, h]
  exact List.forall₂_map_right_iff.mp (List.forall₂_map_left_iff.mp heq)

/-- Writing a value for each item leaves the value of the last. -/
theorem get?_foldl_set {ν : Type _} (value : α → ν) (l : List α) (k : κ) :
    (l.foldl (fun values a => values.set (key a) (value a))
        (Dict.empty : Dict κ ν)).get? k
      = ((lastByKey key l).get? k).map value := by
  induction l using List.reverseRecOn with
  | nil => rfl
  | append_singleton l a ih =>
      rw [List.foldl_append, List.foldl_cons, List.foldl_nil, lastByKey_append,
        Dict.get?_set, Dict.get?_set, ih]
      split <;> rfl

/-- Lists whose items are related one by one, keys included, have related
last items. -/
theorem rel_get?_lastByKey {R : α → α → Prop}
    (hkey : ∀ a b, R a b → key a = key b) {l l' : List α}
    (h : List.Forall₂ R l l') (k : κ) :
    Option.Rel R ((lastByKey key l).get? k) ((lastByKey key l').get? k) := by
  have hfold {items items' : Dict κ α}
      (hitems : ∀ k, Option.Rel R (items.get? k) (items'.get? k)) :
      Option.Rel R
        ((l.foldl (fun items a => items.set (key a) a) items).get? k)
        ((l'.foldl (fun items a => items.set (key a) a) items').get? k) := by
    induction h generalizing items items' with
    | nil => exact hitems k
    | @cons a b l l' hab _ ih =>
        rw [List.foldl_cons, List.foldl_cons]
        refine ih fun k => ?_
        rw [Dict.get?_set, Dict.get?_set, hkey a b hab]
        split
        · exact .some hab
        · exact hitems k
  exact hfold fun _ => .none

-- =========================================================== two lists

variable {older newer : List α}

/-- What a matching shows: the last items of the newer list whose keys the
older one has, or has not. -/
theorem mem_shown_iff {p : Option α → Bool} {a : α} :
    a ∈ ((lastByKey key newer).entries.filter fun e =>
        p ((lastByKey key older).get? e.1)).map Prod.snd
      ↔ (lastByKey key newer).get? (key a) = some a
        ∧ p ((lastByKey key older).get? (key a)) = true := by
  constructor
  · intro h
    obtain ⟨⟨k, b⟩, he, rfl⟩ := List.mem_map.mp h
    obtain ⟨he, hp⟩ := List.mem_filter.mp he
    have hget := Dict.get?_of_mem_entries he
    obtain rfl := (get?_lastByKey_eq_some key hget).2
    exact ⟨hget, hp⟩
  · rintro ⟨hget, hp⟩
    exact List.mem_map.mpr ⟨(key a, a),
      List.mem_filter.mpr ⟨Dict.mem_entries_of_get? hget, hp⟩, rfl⟩

/-- Nothing is added exactly when every key of the newer list is one of
the older. -/
theorem added_eq_nil_iff :
    (splitByKey (lastByKey key older) (lastByKey key newer)).added = []
      ↔ ∀ k ∈ newer.map key, k ∈ older.map key := by
  rw [List.eq_nil_iff_forall_not_mem]
  constructor
  · intro h k hk
    obtain ⟨a, ha, rfl⟩ := List.mem_map.mp hk
    obtain ⟨b, hb⟩ := exists_get?_lastByKey key ha
    have hkey := (get?_lastByKey_eq_some key hb).2
    by_contra hnot
    refine h b ((mem_shown_iff key).mpr ?_)
    rw [hkey, (get?_lastByKey_eq_none_iff key).mpr hnot]
    exact ⟨hb, rfl⟩
  · intro h a ha
    obtain ⟨hget, hnone⟩ := (mem_shown_iff key).mp ha
    rw [Option.isNone_iff_eq_none, get?_lastByKey_eq_none_iff] at hnone
    exact hnone (h _ (List.mem_map_of_mem (get?_lastByKey_eq_some key hget).1))

/-- Removing is adding the other way. -/
theorem removed_eq_added (olderItems newerItems : Dict κ α) :
    (splitByKey olderItems newerItems).removed
      = (splitByKey newerItems olderItems).added := rfl

theorem removed_eq_nil_iff :
    (splitByKey (lastByKey key older) (lastByKey key newer)).removed = []
      ↔ ∀ k ∈ older.map key, k ∈ newer.map key := by
  rw [removed_eq_added]
  exact added_eq_nil_iff key

/-- Retained and added are together the last items of the newer list. -/
theorem mem_retained_or_added_iff {a : α} :
    a ∈ (splitByKey (lastByKey key older) (lastByKey key newer)).retained
        ++ (splitByKey (lastByKey key older) (lastByKey key newer)).added
      ↔ (lastByKey key newer).get? (key a) = some a := by
  rw [List.mem_append]
  constructor
  · rintro (h | h)
    · exact ((mem_shown_iff key).mp h).1
    · exact ((mem_shown_iff key).mp h).1
  · intro h
    cases hold : (lastByKey key older).get? (key a) with
    | some b => exact .inl ((mem_shown_iff key).mpr ⟨h, by rw [hold]; rfl⟩)
    | none => exact .inr ((mem_shown_iff key).mpr ⟨h, by rw [hold]; rfl⟩)

end Keys

-- ============================================================ contents

section Contents

variable [DecidableEq κ] {key : α → κ} {content : α → β} {key' : β → κ}
  {older newer : List α}

/-- Every newer item is shown, up to its content, exactly when items under
one key have one content. -/
theorem forall_shown_iff (older : List α)
    (hkey : ∀ a ∈ newer, key a = key' (content a)) :
    (∀ a ∈ newer,
        ∃ b ∈ (splitByKey (lastByKey key older) (lastByKey key newer)).retained
          ++ (splitByKey (lastByKey key older) (lastByKey key newer)).added,
        content b = content a)
      ↔ ∀ a ∈ newer, ∀ b ∈ newer, key a = key b → content a = content b := by
  constructor
  · intro h
    -- both have the content of the last item under their key
    have hlast : ∀ a ∈ newer, ∃ c, (lastByKey key newer).get? (key a) = some c
        ∧ content c = content a := by
      intro a ha
      obtain ⟨c, hc, hcontent⟩ := h a ha
      have hget := (mem_retained_or_added_iff key).mp hc
      have hc' := (get?_lastByKey_eq_some key hget).1
      have hkeys : key a = key c := by
        rw [hkey a ha, hkey c hc', hcontent]
      exact ⟨c, hkeys ▸ hget, hcontent⟩
    intro a ha b hb hab
    obtain ⟨c, hc, hca⟩ := hlast a ha
    obtain ⟨d, hd, hdb⟩ := hlast b hb
    rw [hab, hd] at hc
    obtain rfl := Option.some.inj hc
    exact hca.symm.trans hdb
  · intro h a ha
    obtain ⟨b, hb⟩ := exists_get?_lastByKey key ha
    obtain ⟨hmem, hkeys⟩ := get?_lastByKey_eq_some key hb
    exact ⟨b, (mem_retained_or_added_iff key).mpr (hkeys ▸ hb),
      h b hmem a ha hkeys⟩

/-- Lists are the same up to order exactly when they are under each
key. -/
theorem perm_iff_forall_filter {l l' : List β} (key' : β → κ) :
    l.Perm l' ↔ ∀ k, (l.filter fun b => key' b = k).Perm
      (l'.filter fun b => key' b = k) := by
  classical
  constructor
  · exact fun h k => h.filter _
  · intro h
    refine List.perm_iff_count.mpr fun b => ?_
    have hcount := (h (key' b)).count_eq b
    rwa [List.count_filter (by simp), List.count_filter (by simp)] at hcount

end Contents

-- ================================================= behind the matching

section Behind

variable {l l' : List α}

/-- An item of the one list whose key the other has not. -/
def Unmatched (key : α → κ) (l l' : List α) : Prop :=
  ∃ a ∈ l, ∀ b ∈ l', key b ≠ key a

/-- An item of the one list whose key the other has, with other contents
only. -/
def Masked (key : α → κ) (content : α → β) (l l' : List α) : Prop :=
  ∃ a ∈ l, (∃ b ∈ l', key b = key a)
    ∧ ∀ b ∈ l', key b = key a → content b ≠ content a

/-- An item both lists have, one of them more often. -/
def Recounted [DecidableEq β] (content : α → β) (l l' : List α) : Prop :=
  ∃ a ∈ l, content a ∈ l'.map content
    ∧ (l.map content).count (content a) ≠ (l'.map content).count (content a)

/-- What is left when no key is new: items behind the keys. -/
def Behind [DecidableEq β] (key : α → κ) (content : α → β) (l l' : List α) :
    Prop :=
  Masked key content l l' ∨ Masked key content l' l ∨ Recounted content l l'

theorem not_unmatched_iff {key : α → κ} :
    ¬ Unmatched key l l' ↔ ∀ k ∈ l.map key, k ∈ l'.map key := by
  unfold Unmatched
  push Not
  rw [List.forall_mem_map]
  exact forall₂_congr fun a _ => List.mem_map.symm

variable {key : α → κ} {content : α → β} {key' : β → κ}

/-- An item under a matched key is masked exactly when the other list lacks
its content. -/
theorem not_masked_iff (hl : ∀ a ∈ l, key a = key' (content a))
    (hl' : ∀ a ∈ l', key a = key' (content a)) (h : ¬ Unmatched key l l') :
    ¬ Masked key content l l' ↔ ∀ a ∈ l, content a ∈ l'.map content := by
  unfold Masked
  push Not
  refine forall₂_congr fun a ha => ?_
  obtain ⟨b, hb, hkey⟩ := List.mem_map.mp
    (not_unmatched_iff.mp h (key a) (List.mem_map_of_mem ha))
  rw [List.mem_map]
  constructor
  · intro hother
    obtain ⟨c, hc, -, hcontent⟩ := hother ⟨b, hb, hkey⟩
    exact ⟨c, hc, hcontent⟩
  · rintro ⟨c, hc, hcontent⟩ -
    exact ⟨c, hc, by rw [hl a ha, hl' c hc, hcontent], hcontent⟩

/-- Where every key is matched the lists are the same up to order exactly
when nothing behind the keys differs. -/
theorem perm_iff_not_behind [DecidableEq β]
    (hl : ∀ a ∈ l, key a = key' (content a))
    (hl' : ∀ a ∈ l', key a = key' (content a)) (h : ¬ Unmatched key l l')
    (h' : ¬ Unmatched key l' l) :
    (l.map content).Perm (l'.map content) ↔ ¬ Behind key content l l' := by
  unfold Behind
  rw [not_or, not_or, not_masked_iff hl hl' h, not_masked_iff hl' hl h']
  constructor
  · intro hperm
    refine ⟨fun a ha => hperm.mem_iff.mp (List.mem_map_of_mem ha),
      fun a ha => hperm.mem_iff.mpr (List.mem_map_of_mem ha), ?_⟩
    rintro ⟨a, -, -, hcount⟩
    exact hcount (hperm.count_eq _)
  · rintro ⟨hsub, hsub', hcount⟩
    refine List.perm_iff_count.mpr fun b => ?_
    by_cases hb : b ∈ l.map content
    · obtain ⟨a, ha, rfl⟩ := List.mem_map.mp hb
      by_contra hne
      exact hcount ⟨a, ha, hsub a ha, hne⟩
    · have hb' : b ∉ l'.map content := fun hin => by
        obtain ⟨a, ha, rfl⟩ := List.mem_map.mp hin
        exact hb (hsub' a ha)
      rw [List.count_eq_zero_of_not_mem hb, List.count_eq_zero_of_not_mem hb']

end Behind

section Earlier

variable [DecidableEq κ] {l l' : List α}

/-- Where the last items of the keys are the same, the lists are the same up
to order exactly when the items before the last ones are. -/
theorem perm_iff_earlier (key : α → κ)
    (h : ∀ k, (l.filter fun a => key a = k).getLast?
      = (l'.filter fun a => key a = k).getLast?) :
    l.Perm l' ↔ ∀ k, (l.filter fun a => key a = k).dropLast.Perm
      (l'.filter fun a => key a = k).dropLast := by
  rw [perm_iff_forall_filter key]
  refine forall_congr' fun k => ?_
  have hlast := h k
  generalize l.filter (fun a => key a = k) = items at hlast ⊢
  generalize l'.filter (fun a => key a = k) = items' at hlast ⊢
  cases hitems : items.getLast? with
  | none =>
      rw [hitems] at hlast
      rw [List.getLast?_eq_none_iff.mp hitems,
        List.getLast?_eq_none_iff.mp hlast.symm]
      exact Iff.rfl
  | some a =>
      rw [hitems] at hlast
      obtain ⟨front, rfl⟩ := List.getLast?_eq_some_iff.mp hitems
      obtain ⟨front', rfl⟩ := List.getLast?_eq_some_iff.mp hlast.symm
      rw [List.dropLast_concat, List.dropLast_concat, List.perm_append_right_iff]

end Earlier

end PatentEvidence.Keyed
