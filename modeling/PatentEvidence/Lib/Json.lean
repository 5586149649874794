/-
JSON values as an interpreted language holds them: objects keep their
entries in insertion order, under text keys.

A traversal is an algebra (`Alg`) applied by `fold`: what to do at each
kind of value, given what was done below. Every recursive reading of a
value in this development is one of these, so the recursion is written
once, and `fold_arr` and `fold_obj` are the equations its readers use.
Numbers are a parameter: nothing here looks inside one.

Two values that differ in the order of object entries only are the same
JSON value. `Reorders` is one such exchange anywhere inside a value and
`SameValue` any number of them; `canonical` sorts every object, and on
values whose objects repeat no key two have the same canonical form
exactly when they are the same value (`sameValue_iff_canonical`).

# Sections

- values and traversals;
- distinct keys;
- reordering and the canonical form.
-/
import Mathlib.Data.List.Sort
import Mathlib.Data.String.Basic
import Mathlib.Logic.Relation

namespace PatentEvidence

inductive Json (ν : Type _)
  | null
  | bool (b : Bool)
  | num (n : ν)
  | str (s : String)
  | arr (items : List (Json ν))
  | obj (entries : List (String × Json ν))

namespace Json

variable {ν α : Type _}

-- ================================================ values and traversals

/-- Induction over a value: an array has the property when its items do,
an object when the values of its entries do. -/
@[elab_as_elim, induction_eliminator]
theorem ind {motive : Json ν → Prop} (null : motive .null)
    (bool : ∀ b, motive (.bool b)) (num : ∀ n, motive (.num n))
    (str : ∀ s, motive (.str s))
    (arr : ∀ items, (∀ v ∈ items, motive v) → motive (.arr items))
    (obj : ∀ entries, (∀ e ∈ entries, motive e.2) → motive (.obj entries))
    (v : Json ν) : motive v :=
  Json.rec (motive_2 := fun items => ∀ v ∈ items, motive v)
    (motive_3 := fun entries => ∀ e ∈ entries, motive e.2)
    (motive_4 := fun e => motive e.2)
    null bool num str arr obj
    (fun _ hv => nomatch hv)
    (fun _ _ hhead htail _ hv =>
      (List.mem_cons.mp hv).elim (fun h => h ▸ hhead) (htail _))
    (fun _ he => nomatch he)
    (fun _ _ hhead htail _ he =>
      (List.mem_cons.mp he).elim (fun h => h ▸ hhead) (htail _))
    (fun _ _ h => h) v

/-- What a traversal does at each kind of value. -/
structure Alg (ν α : Type _) where
  null : α
  bool : Bool → α
  num : ν → α
  str : String → α
  arr : List α → α
  obj : List (String × α) → α

mutual

/-- The traversal of a value. -/
def fold (alg : Alg ν α) : Json ν → α
  | .null => alg.null
  | .bool b => alg.bool b
  | .num n => alg.num n
  | .str s => alg.str s
  | .arr items => alg.arr (foldItems alg items)
  | .obj entries => alg.obj (foldEntries alg entries)

def foldItems (alg : Alg ν α) : List (Json ν) → List α
  | [] => []
  | v :: vs => fold alg v :: foldItems alg vs

def foldEntries (alg : Alg ν α) : List (String × Json ν) → List (String × α)
  | [] => []
  | (k, v) :: es => (k, fold alg v) :: foldEntries alg es

end

/-- The traversal under an entry's key. -/
def foldEntry (alg : Alg ν α) (e : String × Json ν) : String × α :=
  (e.1, fold alg e.2)

@[simp] theorem foldEntry_fst (alg : Alg ν α) (e : String × Json ν) :
    (foldEntry alg e).1 = e.1 := rfl

@[simp] theorem foldEntry_snd (alg : Alg ν α) (e : String × Json ν) :
    (foldEntry alg e).2 = fold alg e.2 := rfl

theorem foldItems_eq_map (alg : Alg ν α) (items : List (Json ν)) :
    foldItems alg items = items.map (fold alg) := by
  induction items with
  | nil => rfl
  | cons v vs ih => rw [foldItems, ih, List.map_cons]

theorem foldEntries_eq_map (alg : Alg ν α) (entries : List (String × Json ν)) :
    foldEntries alg entries = entries.map (foldEntry alg) := by
  induction entries with
  | nil => rfl
  | cons e es ih =>
      rw [foldEntries, ih, List.map_cons]
      rfl

theorem fold_arr (alg : Alg ν α) (items : List (Json ν)) :
    fold alg (.arr items) = alg.arr (items.map (fold alg)) := by
  rw [fold, foldItems_eq_map]

theorem fold_obj (alg : Alg ν α) (entries : List (String × Json ν)) :
    fold alg (.obj entries) = alg.obj (entries.map (foldEntry alg)) := by
  rw [fold, foldEntries_eq_map]

-- ======================================================= distinct keys

/-- The algebra of `DistinctKeys`. -/
def distinctKeysAlg : Alg ν Prop where
  null := True
  bool _ := True
  num _ := True
  str _ := True
  arr ps := ∀ p ∈ ps, p
  obj es := (es.map Prod.fst).Nodup ∧ ∀ e ∈ es, e.2

/-- No object inside the value has a key twice. -/
def DistinctKeys (v : Json ν) : Prop := v.fold distinctKeysAlg

@[simp] theorem distinctKeys_null : (Json.null : Json ν).DistinctKeys := trivial

@[simp] theorem distinctKeys_bool (b : Bool) :
    (Json.bool b : Json ν).DistinctKeys := trivial

@[simp] theorem distinctKeys_num (n : ν) : (Json.num n).DistinctKeys := trivial

@[simp] theorem distinctKeys_str (s : String) :
    (Json.str s : Json ν).DistinctKeys := trivial

theorem distinctKeys_arr {items : List (Json ν)} :
    (Json.arr items).DistinctKeys ↔ ∀ v ∈ items, v.DistinctKeys := by
  rw [DistinctKeys, fold_arr]
  exact List.forall_mem_map

theorem distinctKeys_obj {entries : List (String × Json ν)} :
    (Json.obj entries).DistinctKeys
      ↔ (entries.map Prod.fst).Nodup ∧ ∀ e ∈ entries, e.2.DistinctKeys := by
  rw [DistinctKeys, fold_obj]
  refine and_congr ?_ List.forall_mem_map
  rw [List.map_map]
  rfl

-- ======================================= reordering and the canonical form

/-- One object inside the value has its entries reordered. -/
inductive Reorders : Json ν → Json ν → Prop
  | entries {es fs : List (String × Json ν)} (h : es.Perm fs) :
      Reorders (.obj es) (.obj fs)
  | item {v w : Json ν} (before after : List (Json ν)) (h : Reorders v w) :
      Reorders (.arr (before ++ v :: after)) (.arr (before ++ w :: after))
  | value {v w : Json ν} (key : String) (before after : List (String × Json ν))
      (h : Reorders v w) :
      Reorders (.obj (before ++ (key, v) :: after))
        (.obj (before ++ (key, w) :: after))

/-- The same JSON value: object entries reordered at any depth. -/
def SameValue : Json ν → Json ν → Prop := Relation.ReflTransGen Reorders

theorem Reorders.symm {v w : Json ν} (h : Reorders v w) : Reorders w v := by
  induction h with
  | entries h => exact .entries h.symm
  | item before after _ ih => exact .item before after ih
  | value key before after _ ih => exact .value key before after ih

theorem SameValue.refl (v : Json ν) : SameValue v v := Relation.ReflTransGen.refl

theorem SameValue.symm {v w : Json ν} (h : SameValue v w) : SameValue w v :=
  haveI : Std.Symm (Reorders (ν := ν)) := ⟨fun _ _ hvw => hvw.symm⟩
  symm_of (Relation.ReflTransGen Reorders) h

theorem SameValue.trans {u v w : Json ν} (huv : SameValue u v)
    (hvw : SameValue v w) : SameValue u w := Relation.ReflTransGen.trans huv hvw

/-- What carries every single exchange along carries any number. -/
theorem SameValue.lift {f : Json ν → Json ν}
    (hf : ∀ x y, Reorders x y → Reorders (f x) (f y)) {v w : Json ν}
    (h : SameValue v w) : SameValue (f v) (f w) := by
  induction h with
  | refl => exact SameValue.refl _
  | tail _ hstep ih => exact ih.tail (hf _ _ hstep)

/-- The order of entries by key. -/
def keyLe (a b : String × α) : Prop := a.1 ≤ b.1

instance : DecidableRel (keyLe (α := α)) := fun a b =>
  inferInstanceAs (Decidable (a.1 ≤ b.1))

instance : Std.Total (keyLe (α := α)) := ⟨fun a b => le_total a.1 b.1⟩

instance : IsTrans (String × α) keyLe :=
  ⟨fun _ _ _ hab hbc => le_trans hab hbc⟩

/-- Entries sorted by key. -/
def sortEntries (entries : List (String × α)) : List (String × α) :=
  entries.insertionSort keyLe

theorem perm_sortEntries (entries : List (String × α)) :
    (sortEntries entries).Perm entries := List.perm_insertionSort ..

/-- Sorting by key leaves the order of distinct keys no choice. -/
theorem sortEntries_eq_of_perm {es fs : List (String × α)} (h : es.Perm fs)
    (hes : (es.map Prod.fst).Nodup) : sortEntries es = sortEntries fs := by
  have hperm : (sortEntries es).Perm (sortEntries fs) :=
    (perm_sortEntries es).trans (h.trans (perm_sortEntries fs).symm)
  refine List.Perm.eq_of_pairwise ?_ (List.pairwise_insertionSort keyLe es)
    (List.pairwise_insertionSort keyLe fs) hperm
  intro a b ha hb hab hba
  have ha' : a ∈ es := (perm_sortEntries es).mem_iff.mp ha
  have hb' : b ∈ es := h.mem_iff.mpr ((perm_sortEntries fs).mem_iff.mp hb)
  exact List.inj_on_of_nodup_map hes ha' hb' (le_antisymm hab hba)

/-- What keeps the keys keeps their order. -/
theorem sortEntries_map {β : Type _} {f : String × α → String × β}
    (hf : ∀ e, (f e).1 = e.1) (es : List (String × α)) :
    sortEntries (es.map f) = (sortEntries es).map f := by
  refine (List.map_insertionSort keyLe keyLe f es fun a _ b _ => ?_).symm
  rw [keyLe, keyLe, hf a, hf b]

/-- The algebra of `canonical`. -/
def canonicalAlg : Alg ν (Json ν) where
  null := .null
  bool := .bool
  num := .num
  str := .str
  arr := .arr
  obj es := .obj (sortEntries es)

/-- Every object sorted by key, at every depth. -/
def canonical (v : Json ν) : Json ν := v.fold canonicalAlg

theorem canonical_arr (items : List (Json ν)) :
    (Json.arr items).canonical = .arr (items.map canonical) :=
  fold_arr canonicalAlg items

theorem canonical_obj (entries : List (String × Json ν)) :
    (Json.obj entries).canonical
      = .obj (sortEntries (entries.map (foldEntry canonicalAlg))) :=
  fold_obj canonicalAlg entries

/-- Reordering keeps the keys distinct and the canonical form. -/
theorem Reorders.keeps {v w : Json ν} (h : Reorders v w)
    (hv : v.DistinctKeys) :
    w.DistinctKeys ∧ v.canonical = w.canonical := by
  induction h with
  | @entries es fs h =>
      rw [distinctKeys_obj] at hv ⊢
      refine ⟨⟨(h.map Prod.fst).nodup_iff.mp hv.1,
        fun e he => hv.2 e (h.mem_iff.mpr he)⟩, ?_⟩
      rw [canonical_obj, canonical_obj]
      refine congrArg obj (sortEntries_eq_of_perm (h.map _) ?_)
      rw [List.map_map]
      exact hv.1
  | @item v w before after _ ih =>
      rw [distinctKeys_arr] at hv ⊢
      have hw := ih (hv v (by simp))
      constructor
      · intro x hx
        rcases List.mem_append.mp hx with hx | hx
        · exact hv x (List.mem_append_left _ hx)
        · rcases List.mem_cons.mp hx with rfl | hx
          · exact hw.1
          · exact hv x (by simp [hx])
      · simp only [canonical_arr, List.map_append, List.map_cons, hw.2]
  | @value v w key before after _ ih =>
      rw [distinctKeys_obj] at hv ⊢
      have hw := ih (hv.2 (key, v) (by simp))
      constructor
      · refine ⟨by simpa using hv.1, fun e he => ?_⟩
        rcases List.mem_append.mp he with he | he
        · exact hv.2 e (List.mem_append_left _ he)
        · rcases List.mem_cons.mp he with rfl | he
          · exact hw.1
          · exact hv.2 e (by simp [he])
      · have hentry : foldEntry canonicalAlg (key, v)
            = foldEntry canonicalAlg (key, w) := Prod.ext rfl hw.2
        simp only [canonical_obj, List.map_append, List.map_cons, hentry]

theorem SameValue.keeps {v w : Json ν} (h : SameValue v w)
    (hv : v.DistinctKeys) :
    w.DistinctKeys ∧ v.canonical = w.canonical := by
  induction h with
  | refl => exact ⟨hv, rfl⟩
  | tail _ hstep ih =>
      have hw := hstep.keeps ih.1
      exact ⟨hw.1, ih.2.trans hw.2⟩

/-- Items may be exchanged for the same values one after the other. -/
theorem sameValue_arr_append (f : Json ν → Json ν) {items : List (Json ν)}
    (before : List (Json ν)) (h : ∀ v ∈ items, SameValue v (f v)) :
    SameValue (.arr (before ++ items)) (.arr (before ++ items.map f)) := by
  induction items generalizing before with
  | nil => exact SameValue.refl _
  | cons v vs ih =>
      have hhead : SameValue (.arr (before ++ v :: vs))
          (.arr (before ++ f v :: vs)) :=
        SameValue.lift (f := fun x => .arr (before ++ x :: vs))
          (fun _ _ hxy => .item before vs hxy) (h v (List.mem_cons_self ..))
      have htail := ih (before ++ [f v])
        fun w hw => h w (List.mem_cons_of_mem _ hw)
      rw [List.append_assoc, List.append_assoc] at htail
      exact hhead.trans htail

theorem sameValue_obj_append (f : String × Json ν → String × Json ν)
    (hf : ∀ e, (f e).1 = e.1) {entries : List (String × Json ν)}
    (before : List (String × Json ν))
    (h : ∀ e ∈ entries, SameValue e.2 (f e).2) :
    SameValue (.obj (before ++ entries)) (.obj (before ++ entries.map f)) := by
  induction entries generalizing before with
  | nil => exact SameValue.refl _
  | cons e es ih =>
      have hhead : SameValue (.obj (before ++ (e.1, e.2) :: es))
          (.obj (before ++ (e.1, (f e).2) :: es)) :=
        SameValue.lift (f := fun x => .obj (before ++ (e.1, x) :: es))
          (fun _ _ hxy => .value e.1 before es hxy) (h e (List.mem_cons_self ..))
      have hentry : (e.1, (f e).2) = f e := Prod.ext (hf e).symm rfl
      have htail := ih (before ++ [f e])
        fun e' he' => h e' (List.mem_cons_of_mem _ he')
      rw [List.append_assoc, List.append_assoc] at htail
      rw [hentry] at hhead
      exact hhead.trans htail

/-- The canonical form is the value it was made of. -/
theorem sameValue_canonical (v : Json ν) : SameValue v v.canonical := by
  induction v with
  | null => exact SameValue.refl _
  | bool b => exact SameValue.refl _
  | num n => exact SameValue.refl _
  | str s => exact SameValue.refl _
  | arr items ih =>
      rw [canonical_arr]
      exact sameValue_arr_append canonical [] ih
  | obj entries ih =>
      have hvalues := sameValue_obj_append (foldEntry canonicalAlg)
        (foldEntry_fst canonicalAlg) [] ih
      rw [canonical_obj]
      exact hvalues.tail (.entries (perm_sortEntries _).symm)

/-- Values with distinct keys are the same exactly when their canonical
forms are. -/
theorem sameValue_iff_canonical {v w : Json ν} (hv : v.DistinctKeys) :
    SameValue v w ↔ v.canonical = w.canonical := by
  constructor
  · exact fun h => (h.keeps hv).2
  · intro h
    have hw : SameValue v.canonical w := h ▸ (sameValue_canonical w).symm
    exact (sameValue_canonical v).trans hw

end Json

end PatentEvidence
