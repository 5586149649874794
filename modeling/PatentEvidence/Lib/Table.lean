/-
Database tables with a primary key.

A `Table key` is its row list together with the proof that no two rows
have one key, so a table with a duplicate key cannot be built: inserting
one is refused. Updates map rows in place and may not touch the key,
deletions filter. Each operation has one equation for the rows it leaves,
and callers reason about rows only.

`upsert?` is `INSERT … ON CONFLICT (unique) DO UPDATE`: a proposed row
whose second key is taken merges into the rows that have it, any other is
inserted. `rows_of_upsertAll?` says what a batch of proposals with
distinct second keys leaves: every old row merged with the proposal for
it, then the proposals for nothing, in order.
-/
import Mathlib.Data.List.Nodup

namespace PatentEvidence

/-- A table: rows in insertion order, one per key. -/
structure Table {ρ κ : Type _} (key : ρ → κ) where
  rows : List ρ
  nodup : (rows.map key).Nodup

namespace Table

variable {ρ κ : Type _} {key : ρ → κ}

-- ========================================================== operations

def empty : Table key := ⟨[], List.nodup_nil⟩

/-- `INSERT`: refused when the key is taken. -/
def insert? [DecidableEq κ] (t : Table key) (r : ρ) : Option (Table key) :=
  if h : key r ∈ t.rows.map key then none
  else some ⟨t.rows ++ [r], by
    rw [List.map_append, List.map_singleton]
    exact List.nodup_append.mpr ⟨t.nodup, List.nodup_singleton _, by
      rintro a ha b hb rfl
      rw [List.mem_singleton.mp hb] at ha
      exact h ha⟩⟩

/-- One `INSERT` after another. -/
def insertAll? [DecidableEq κ] (t : Table key) : List ρ → Option (Table key)
  | [] => some t
  | r :: rs => do (← t.insert? r).insertAll? rs

/-- `UPDATE … SET … WHERE p`, of columns other than the key. -/
def update (t : Table key) (p : ρ → Bool) (f : ρ → ρ)
    (hf : ∀ r, key (f r) = key r := by intro r; rfl) : Table key :=
  ⟨t.rows.map fun r => if p r then f r else r, by
    rw [List.map_map]
    have hkey : key ∘ (fun r => if p r then f r else r) = key := by
      funext r
      simp only [Function.comp_apply]
      split
      · exact hf r
      · rfl
    rw [hkey]
    exact t.nodup⟩

/-- `DELETE … WHERE p`. -/
def delete (t : Table key) (p : ρ → Bool) : Table key :=
  ⟨t.rows.filter fun r => !p r, t.nodup.sublist (List.filter_sublist.map _)⟩

/-- The row of a key. -/
def find? [DecidableEq κ] (t : Table key) (k : κ) : Option ρ :=
  t.rows.find? fun r => key r = k

-- ========================================================== what they do

@[simp] theorem rows_empty : (empty : Table key).rows = [] := rfl

theorem ext_rows {t t' : Table key} (h : t.rows = t'.rows) : t = t' := by
  cases t
  cases t'
  cases h
  rfl

@[simp] theorem rows_update (t : Table key) (p : ρ → Bool) (f : ρ → ρ)
    (hf : ∀ r, key (f r) = key r) :
    (t.update p f hf).rows = t.rows.map fun r => if p r then f r else r := rfl

@[simp] theorem rows_delete (t : Table key) (p : ρ → Bool) :
    (t.delete p).rows = t.rows.filter fun r => !p r := rfl

/-- Two rows of one key are one row. -/
theorem eq_of_key_eq (t : Table key) {r r' : ρ} (hr : r ∈ t.rows)
    (hr' : r' ∈ t.rows) (h : key r = key r') : r = r' :=
  List.inj_on_of_nodup_map t.nodup hr hr' h

/-- A column of rows built by position that reads only the source. -/
theorem map_mapIdx_of_forall {α β γ : Type _} (row : Nat → α → β)
    {column : β → γ} {value : α → γ} (h : ∀ i a, column (row i a) = value a)
    (l : List α) : (l.mapIdx row).map column = l.map value := by
  apply List.ext_getElem
  · simp
  · intro i _ _
    simp [h]

/-- Two lists with the same distinct keys, and per key one value, have the
same values up to order. -/
theorem perm_map_of_keys {α β κ γ : Type _} {l : List α} {l' : List β}
    (key : α → κ) (key' : β → κ) {value : α → γ} {value' : β → γ}
    (hl : (l.map key).Nodup) (hl' : (l'.map key').Nodup)
    (hmem : ∀ k, k ∈ l.map key ↔ k ∈ l'.map key')
    (hvalue : ∀ a ∈ l, ∀ b ∈ l', key a = key' b → value a = value' b) :
    (l.map value).Perm (l'.map value') := by
  have hpairs : (l.map fun a => (key a, value a)).Perm
      (l'.map fun b => (key' b, value' b)) := by
    refine (List.perm_ext_iff_of_nodup ?_ ?_).mpr ?_
    · apply List.Nodup.of_map Prod.fst
      rw [List.map_map]
      exact hl
    · apply List.Nodup.of_map Prod.fst
      rw [List.map_map]
      exact hl'
    · rintro ⟨k, v⟩
      constructor
      · intro h
        obtain ⟨a, ha, heq⟩ := List.mem_map.mp h
        obtain ⟨rfl, rfl⟩ := Prod.mk.inj heq
        obtain ⟨b, hb, hk⟩ :=
          List.mem_map.mp ((hmem _).mp (List.mem_map_of_mem ha))
        refine List.mem_map.mpr ⟨b, hb, ?_⟩
        rw [hk, hvalue a ha b hb hk.symm]
      · intro h
        obtain ⟨b, hb, heq⟩ := List.mem_map.mp h
        obtain ⟨rfl, rfl⟩ := Prod.mk.inj heq
        obtain ⟨a, ha, hk⟩ :=
          List.mem_map.mp ((hmem _).mpr (List.mem_map_of_mem hb))
        refine List.mem_map.mpr ⟨a, ha, ?_⟩
        rw [hk, hvalue a ha b hb hk]
  have h := hpairs.map Prod.snd
  rwa [List.map_map, List.map_map] at h

/-- A column without repetitions stays so with a row of a fresh value. -/
theorem nodup_map_concat {α β : Type _} {column : α → β} {rows : List α} {row : α}
    (h : (rows.map column).Nodup) (hfresh : ∀ r ∈ rows, column r ≠ column row) :
    ((rows ++ [row]).map column).Nodup := by
  rw [List.map_append, List.map_singleton, ← List.concat_eq_append]
  refine List.Nodup.concat (fun hin => ?_) h
  obtain ⟨r, hr, heq⟩ := List.mem_map.mp hin
  exact hfresh r hr heq

/-- Rewriting some rows keeps a column that the rewriting keeps. -/
theorem map_rewrite_of_fixed {α β : Type _} {column : α → β} {f : α → α}
    (h : ∀ a, column (f a) = column a) (p : α → Prop) [DecidablePred p]
    (l : List α) :
    (l.map fun a => if p a then f a else a).map column = l.map column := by
  rw [List.map_map]
  apply List.map_congr_left
  intro a _
  rw [Function.comp_apply]
  by_cases hp : p a
  · rw [if_pos hp, h]
  · rw [if_neg hp]

/-- What a map keeps can be filtered before it. -/
theorem filter_map_of {α β : Type _} {f : α → β} {p : β → Bool} {q : α → Bool}
    {l : List α} (h : ∀ a ∈ l, p (f a) = q a) :
    (l.map f).filter p = (l.filter q).map f := by
  rw [List.filter_map]
  exact congrArg (List.map f) (List.filter_congr h)

/-- A map that changes nothing that is filtered changes no filter. -/
theorem filter_map_of_fixed {α : Type _} {f : α → α} {p : α → Bool} {l : List α}
    (h : ∀ a ∈ l, p (f a) = p a) (hfixed : ∀ a ∈ l, p a = true → f a = a) :
    (l.map f).filter p = l.filter p := by
  rw [filter_map_of h]
  refine (List.map_congr_left fun a ha => ?_).trans (List.map_id _)
  obtain ⟨hin, hp⟩ := List.mem_filter.mp ha
  exact hfixed a hin hp

/-- Rewriting the one row of a key changes a count by that row. -/
theorem countP_rewrite_of_mem {κ : Type _} [DecidableEq κ] {key : ρ → κ}
    {l : List ρ} (hl : (l.map key).Nodup) {r : ρ} (hr : r ∈ l) (p : ρ → Bool)
    (f : ρ → ρ) :
    (l.map fun x => if key x = key r then f x else x).countP p
        + (if p r then 1 else 0)
      = l.countP p + (if p (f r) then 1 else 0) := by
  induction l with
  | nil => cases hr
  | cons x l ih =>
      rw [List.map_cons, List.nodup_cons] at hl
      rw [List.map_cons, List.countP_cons, List.countP_cons]
      rcases List.mem_cons.mp hr with rfl | hmem
      · have hrest : (l.map fun x => if key x = key r then f x else x) = l := by
          refine (List.map_congr_left fun y hy => ?_).trans (List.map_id' l)
          have hne : key y ≠ key r := fun heq =>
            hl.1 (heq ▸ List.mem_map_of_mem hy)
          exact if_neg hne
        rw [hrest, if_pos rfl]
        omega
      · have hne : key x ≠ key r := fun heq =>
          hl.1 (heq ▸ List.mem_map_of_mem hmem)
        have hrest := ih hl.2 hmem
        rw [if_neg hne]
        omega

/-- The items of one key, where keys are distinct. -/
theorem filter_key_eq {α κ : Type _} [DecidableEq κ] {l : List α}
    {key : α → κ} (hl : (l.map key).Nodup) {a : α} (ha : a ∈ l) :
    l.filter (fun b => key b = key a) = [a] := by
  induction l with
  | nil => cases ha
  | cons b l ih =>
      rw [List.map_cons, List.nodup_cons] at hl
      by_cases hb : key b = key a
      · have hab : a = b := by
          rcases List.mem_cons.mp ha with hab | hmem
          · exact hab
          · exact absurd (hb ▸ List.mem_map_of_mem hmem) hl.1
        subst hab
        have hrest : l.filter (fun b => key b = key a) = [] := by
          apply List.filter_eq_nil_iff.mpr
          intro c hc heq
          rw [decide_eq_true_eq] at heq
          exact hl.1 (heq ▸ List.mem_map_of_mem hc)
        rw [List.filter_cons_of_pos (by simp), hrest]
      · rw [List.filter_cons_of_neg (by simpa using hb)]
        rcases List.mem_cons.mp ha with rfl | hmem
        · exact absurd rfl hb
        · exact ih hl.2 hmem

/-- Deleting by key takes one row, where there is one. -/
theorem length_delete_key {κ : Type _} [DecidableEq κ] {key : ρ → κ}
    (t : Table key) (k : κ) :
    (t.delete fun r => key r = k).rows.length
        + (decide (k ∈ t.rows.map key)).toNat
      = t.rows.length := by
  have hsplit := List.length_eq_countP_add_countP
    (fun r => decide (key r = k)) (l := t.rows)
  rw [List.countP_eq_length_filter, List.countP_eq_length_filter] at hsplit
  have hkept : (t.delete fun r => key r = k).rows
      = t.rows.filter fun r => decide ¬ (decide (key r = k)) = true := by
    rw [rows_delete]
    apply List.filter_congr
    intro r _
    simp
  rw [hkept, hsplit]
  by_cases hk : k ∈ t.rows.map key
  · obtain ⟨r, hr, rfl⟩ := List.mem_map.mp hk
    rw [filter_key_eq t.nodup hr]
    simp only [hk, decide_true, Bool.toNat_true, List.length_singleton]
    omega
  · have hnone : t.rows.filter (fun r => decide (key r = k)) = [] := by
      apply List.filter_eq_nil_iff.mpr
      intro r hr heq
      rw [decide_eq_true_eq] at heq
      exact hk (heq ▸ List.mem_map_of_mem hr)
    simp only [hnone, hk, decide_false, Bool.toNat_false, List.length_nil]
    omega

/-- Of two distinct items one is another than a given one. -/
theorem exists_ne_of_two_le {α : Type _} {l : List α} (hl : l.Nodup)
    (h : 2 ≤ l.length) (a : α) : ∃ b ∈ l, b ≠ a := by
  match l with
  | [] => simp at h
  | [_] => simp at h
  | b :: c :: rest =>
      by_cases hb : b = a
      · refine ⟨c, by simp, fun hc => ?_⟩
        rw [List.nodup_cons] at hl
        exact hl.1 (by simp [hb, hc])
      · exact ⟨b, List.mem_cons_self, hb⟩

/-- Rewriting a column in the one row `p` picks keeps the column free of
duplicates exactly when no other row has the new value. -/
theorem nodup_map_rewrite_iff {γ : Type _} {l : List ρ} (p : ρ → Bool)
    {column : ρ → γ} (new : γ) (hcol : (l.map column).Nodup)
    (hone : ∀ r ∈ l, ∀ r' ∈ l, p r → p r' → r = r') :
    (l.map fun r => if p r then new else column r).Nodup
      ↔ ∀ r ∈ l, p r → ∀ r' ∈ l, r' ≠ r → column r' ≠ new := by
  rw [List.nodup_map_iff_inj_on (List.Nodup.of_map _ hcol)]
  constructor
  · intro hinj r hr hp r' hr' hne hnew
    have hp' : ¬ p r' := fun hp' => hne (hone r' hr' r hr hp' hp)
    apply hne
    apply hinj r' hr' r hr
    rw [if_neg hp', if_pos hp]
    exact hnew
  · intro hnew a ha b hb heq
    by_cases hpa : p a <;> by_cases hpb : p b
    · exact hone a ha b hb hpa hpb
    · rw [if_pos hpa, if_neg hpb] at heq
      by_cases hab : b = a
      · exact hab.symm
      · exact absurd heq.symm (hnew a ha hpa b hb hab)
    · rw [if_neg hpa, if_pos hpb] at heq
      by_cases hab : a = b
      · exact hab
      · exact absurd heq (hnew b hb hpb a ha hab)
    · rw [if_neg hpa, if_neg hpb] at heq
      exact List.inj_on_of_nodup_map hcol ha hb heq

section Keys

variable [DecidableEq κ]

/-- An insertion goes through exactly on a fresh key, and appends. -/
theorem insert?_eq_some {t t' : Table key} {r : ρ} :
    t.insert? r = some t'
      ↔ key r ∉ t.rows.map key ∧ t'.rows = t.rows ++ [r] := by
  unfold insert?
  split
  · next h => simp [h]
  · next h =>
      rw [Option.some.injEq]
      refine ⟨fun heq => ⟨h, by rw [← heq]⟩, fun heq => ext_rows heq.2.symm⟩

/-- Its key is the last one of the table. -/
theorem keys_of_insert? {t t' : Table key} {r : ρ} (h : t.insert? r = some t') :
    t'.rows.map key = t.rows.map key ++ [key r] := by
  rw [(insert?_eq_some.mp h).2, List.map_append, List.map_singleton]

theorem exists_insert? {r : ρ} {t : Table key} (h : key r ∉ t.rows.map key) :
    ∃ t', t.insert? r = some t' :=
  ⟨_, dif_neg h⟩

theorem rows_of_insertAll? {rs : List ρ} {t t' : Table key}
    (h : t.insertAll? rs = some t') : t'.rows = t.rows ++ rs := by
  induction rs generalizing t with
  | nil =>
      cases h
      simp
  | cons r rs ih =>
      obtain ⟨mid, hmid, h⟩ := Option.bind_eq_some_iff.mp h
      rw [ih h, (insert?_eq_some.mp hmid).2, List.append_assoc]
      rfl

/-- A row found is of the table and of the key. -/
theorem find?_eq_some {t : Table key} {k : κ} {r : ρ}
    (h : t.find? k = some r) : r ∈ t.rows ∧ key r = k :=
  ⟨List.mem_of_find?_eq_some h, by simpa using List.find?_some h⟩

theorem find?_of_mem {t : Table key} {r : ρ} (hr : r ∈ t.rows) :
    t.find? (key r) = some r := by
  cases hfind : t.find? (key r) with
  | none =>
      have := List.find?_eq_none.mp hfind r hr
      simp at this
  | some r' =>
      obtain ⟨hr', hkey⟩ := find?_eq_some hfind
      rw [t.eq_of_key_eq hr' hr hkey]

-- ============================================================== upserts

section Upsert

variable {υ : Type _} [DecidableEq υ] (unique : ρ → υ)
    (merge : ρ → ρ → ρ) (hmerge : ∀ x r, key (merge x r) = key r)

/-- `INSERT x ON CONFLICT (unique) DO UPDATE SET …`. -/
def upsert? (t : Table key) (x : ρ) : Option (Table key) :=
  if unique x ∈ t.rows.map unique then
    some (t.update (fun r => unique r = unique x) (merge x) (hmerge x))
  else t.insert? x

/-- One upsert after another. -/
def upsertAll? (t : Table key) : List ρ → Option (Table key)
  | [] => some t
  | x :: xs => do upsertAll? (← t.upsert? unique merge hmerge x) xs

/-- A row merged with the proposal for it. -/
def merged (xs : List ρ) (r : ρ) : ρ :=
  match xs.find? fun x => unique x = unique r with
  | some x => merge x r
  | none => r

/-- The proposals for nothing in the table. -/
def unplaced (t : Table key) (xs : List ρ) : List ρ :=
  xs.filter fun x => unique x ∉ t.rows.map unique

variable {unique merge hmerge}

omit [DecidableEq κ] in
theorem mem_unplaced {t : Table key} {xs : List ρ} {x : ρ} :
    x ∈ t.unplaced unique xs ↔ x ∈ xs ∧ unique x ∉ t.rows.map unique := by
  rw [unplaced, List.mem_filter, decide_eq_true_eq]

omit [DecidableEq κ] in
theorem map_unplaced (t : Table key) (xs : List ρ) :
    (t.unplaced unique xs).map unique
      = (xs.map unique).filter fun u => u ∉ t.rows.map unique := by
  rw [unplaced, List.filter_map]
  rfl

theorem unique_merged (hunique : ∀ x r, unique (merge x r) = unique r)
    (xs : List ρ) (r : ρ) : unique (merged unique merge xs r) = unique r := by
  unfold merged
  split
  · exact hunique ..
  · rfl

theorem merged_of_notMem {xs : List ρ} {r : ρ}
    (h : unique r ∉ xs.map unique) : merged unique merge xs r = r := by
  have hnone : xs.find? (fun x => unique x = unique r) = none := by
    apply List.find?_eq_none.mpr
    intro x hx heq
    rw [decide_eq_true_eq] at heq
    exact h (List.mem_map.mpr ⟨x, hx, heq⟩)
  rw [merged, hnone]

/-- A row a proposal is for. -/
theorem merged_of_mem {xs : List ρ} (hxs : (xs.map unique).Nodup) {x r : ρ}
    (hx : x ∈ xs) (h : unique x = unique r) :
    merged unique merge xs r = merge x r := by
  unfold merged
  cases hfind : xs.find? (fun x => unique x = unique r) with
  | none =>
      have hnone := List.find?_eq_none.mp hfind x hx
      simp [h] at hnone
  | some x' =>
      have hx' := List.mem_of_find?_eq_some hfind
      have hu : unique x' = unique r := by simpa using List.find?_some hfind
      rw [List.inj_on_of_nodup_map hxs hx' hx (hu.trans h.symm)]

theorem merged_cons_of_ne {x r : ρ} {xs : List ρ} (h : unique x ≠ unique r) :
    merged unique merge (x :: xs) r = merged unique merge xs r := by
  rw [merged, List.find?_cons_of_neg (by simpa using h), merged]

/-- One row in two batches: what the first proposal does to it. -/
theorem merged_cons {x r : ρ} {xs : List ρ} (hx : unique x ∉ xs.map unique)
    (hunique : ∀ x r, unique (merge x r) = unique r) :
    merged unique merge (x :: xs) r
      = merged unique merge xs
          (if unique r = unique x then merge x r else r) := by
  by_cases h : unique r = unique x
  · have hnot : unique (merge x r) ∉ xs.map unique := by
      rw [hunique, h]
      exact hx
    rw [if_pos h, merged_of_notMem hnot]
    simp only [merged]
    rw [List.find?_cons_of_pos (by simpa using h.symm)]
  · rw [if_neg h, merged_cons_of_ne (Ne.symm h)]

/-- The rows a batch of upserts leaves. -/
theorem rows_of_upsertAll? (hunique : ∀ x r, unique (merge x r) = unique r)
    {xs : List ρ} (hxs : (xs.map unique).Nodup) {t t' : Table key}
    (h : t.upsertAll? unique merge hmerge xs = some t') :
    t'.rows = t.rows.map (merged unique merge xs)
      ++ t.unplaced unique xs := by
  induction xs generalizing t with
  | nil =>
      obtain rfl : t = t' := Option.some.inj h
      have hself : t.rows.map (merged unique merge []) = t.rows := by
        apply List.map_id''
        intro r
        exact merged_of_notMem (by simp)
      rw [hself, unplaced, List.filter_nil, List.append_nil]
  | cons x xs ih =>
      rw [List.map_cons, List.nodup_cons] at hxs
      obtain ⟨mid, hmid, h⟩ := Option.bind_eq_some_iff.mp h
      rw [ih hxs.2 h]
      unfold unplaced
      unfold upsert? at hmid
      split at hmid
      · next hin =>
          -- a conflict: the rows change, their second keys do not
          cases hmid
          have hkeys : (t.rows.map fun r =>
              if unique r = unique x then merge x r else r).map unique
                = t.rows.map unique := by
            rw [List.map_map]
            apply List.map_congr_left
            intro r _
            simp only [Function.comp_apply]
            split
            · exact hunique ..
            · rfl
          rw [List.filter_cons_of_neg (by simpa using hin)]
          simp only [rows_update, decide_eq_true_eq]
          rw [hkeys, List.map_map]
          congr 1
          apply List.map_congr_left
          intro r _
          exact (merged_cons hxs.1 hunique).symm
      · next hnot =>
          obtain ⟨-, hrows⟩ := insert?_eq_some.mp hmid
          rw [List.filter_cons_of_pos (by simpa using hnot), hrows,
            List.map_append, List.map_singleton, merged_of_notMem hxs.1,
            List.append_assoc, List.singleton_append]
          congr 1
          · apply List.map_congr_left
            intro r hr
            refine (merged_cons_of_ne fun heq => hnot ?_).symm
            exact heq ▸ List.mem_map_of_mem hr
          · congr 1
            apply List.filter_congr
            intro y hy
            have hne : unique y ≠ unique x := fun heq =>
              hxs.1 (heq ▸ List.mem_map_of_mem hy)
            simp [hne]

/-- Upserts keep the second key unique. -/
theorem nodup_unique_of_upsertAll?
    (hunique : ∀ x r, unique (merge x r) = unique r)
    {xs : List ρ} (hxs : (xs.map unique).Nodup) {t t' : Table key}
    (ht : (t.rows.map unique).Nodup)
    (h : t.upsertAll? unique merge hmerge xs = some t') :
    (t'.rows.map unique).Nodup := by
  have hold : (t.rows.map (merged unique merge xs)).map unique
      = t.rows.map unique := by
    rw [List.map_map]
    exact List.map_congr_left fun r _ => unique_merged hunique xs r
  rw [rows_of_upsertAll? hunique hxs h, List.map_append, hold,
    List.nodup_append]
  refine ⟨ht, hxs.sublist (List.filter_sublist.map _), ?_⟩
  rintro a ha b hb rfl
  obtain ⟨x, hx, rfl⟩ := List.mem_map.mp hb
  exact (mem_unplaced.mp hx).2 ha

end Upsert

end Keys

end Table

end PatentEvidence
