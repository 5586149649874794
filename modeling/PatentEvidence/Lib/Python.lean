/-
The operations of the interpreted language on JSON values: what a dynamic
program does with a value before it knows its type.

An operation a type does not have raises (`Raised`); `get` on an object
answers `null` for a missing key, as the language's `None`. Booleans
compare as the numbers 0 and 1, and objects compare as mappings, so
`equal` is coarser than equality of the values.

Formatting follows `str` and `repr`. Which characters `repr` shows as they
are is a table of the language's Unicode version (`Printable`); everything
else about it is written out here.
-/
import PatentEvidence.Lib.Dict
import PatentEvidence.Lib.JsonText
import PatentEvidence.Lib.Text

namespace PatentEvidence

-- =========================================================== exceptions

inductive Raised
  | attributeError
  | typeError
  | valueError
  | overflowError
  deriving DecidableEq

abbrev Py := Except Raised

/-- `str.isprintable`, beyond ASCII. -/
class Printable where
  isPrintable : Char → Bool

namespace Json

variable {ν : Type _}

-- ============================================================== reading

/-- `value.get(key)`, or nothing where the object has no such key. -/
def get? (v : Json ν) (key : String) : Py (Option (Json ν)) :=
  match v with
  | .obj entries => .ok (entries.lookup key)
  | _ => .error .attributeError

/-- `value.get(key)`. -/
def get (v : Json ν) (key : String) : Py (Json ν) := do
  return (← v.get? key).getD .null

/-- `value.get(key, default)`. -/
def getD (v : Json ν) (key : String) (default : Json ν) : Py (Json ν) := do
  return (← v.get? key).getD default

@[simp] theorem get_obj (entries : List (String × Json ν)) (key : String) :
    (Json.obj entries).get key = .ok ((entries.lookup key).getD .null) := rfl

@[simp] theorem getD_obj (entries : List (String × Json ν)) (key : String)
    (default : Json ν) :
    (Json.obj entries).getD key default
      = .ok ((entries.lookup key).getD default) := rfl

/-- What `get` answers of an object; `null` of anything else. -/
def field (v : Json ν) (key : String) : Json ν :=
  match v with
  | .obj entries => (entries.lookup key).getD .null
  | _ => .null

/-- A record built of some keys holds under each what it was built with. -/
theorem field_obj_map (keys : List String) (value : String → Json ν)
    {key : String} (h : key ∈ keys) :
    (Json.obj (keys.map fun k => (k, value k))).field key = value key := by
  rw [field]
  induction keys with
  | nil => cases h
  | cons k keys ih =>
      rw [List.map_cons, List.lookup_cons]
      by_cases hk : key = k
      · subst hk
        rw [beq_self_eq_true, Option.getD_some]
      · rw [beq_eq_false_iff_ne.mpr hk]
        exact ih ((List.mem_cons.mp h).resolve_left hk)

/-- `for item in value`. -/
def iter : Json ν → Py (List (Json ν))
  | .arr items => .ok items
  | .obj entries => .ok (entries.map fun e => .str e.1)
  | .str s => .ok (s.toList.map fun c => .str (String.singleton c))
  | _ => .error .typeError

/-- `len(value)`. -/
def len (v : Json ν) : Py Nat := do
  return (← v.iter).length

/-- `dict(value)`, of an object. -/
def entries : Json ν → Py (List (String × Json ν))
  | .obj entries => .ok entries
  | _ => .error .typeError

/-- A value a set or a dictionary key may be. -/
def hashable : Json ν → Bool
  | .arr _ => false
  | .obj _ => false
  | _ => true

-- ============================================= reading the canonical form

/-- Reordering entries under distinct keys changes no lookup. -/
theorem lookup_eq_of_perm {α : Type _} {es fs : List (String × α)}
    (h : es.Perm fs) (hes : (es.map Prod.fst).Nodup) (key : String) :
    es.lookup key = fs.lookup key := by
  have hfs : (fs.map Prod.fst).Nodup := (h.map Prod.fst).nodup_iff.mp hes
  refine Option.ext fun v => ?_
  have hleft : (key, v) ∈ es ↔ es.lookup key = some v :=
    Dict.mem_entries_iff (d := ⟨es, hes⟩)
  have hright : (key, v) ∈ fs ↔ fs.lookup key = some v :=
    Dict.mem_entries_iff (d := ⟨fs, hfs⟩)
  rw [← hleft, ← hright, h.mem_iff]

theorem lookup_map_foldEntry {α : Type _} (alg : Alg ν α)
    (entries : List (String × Json ν)) (key : String) :
    (entries.map (foldEntry alg)).lookup key
      = (entries.lookup key).map (fold alg) := by
  induction entries with
  | nil => rfl
  | cons e es ih =>
      obtain ⟨k, v⟩ := e
      rw [List.map_cons, List.lookup_cons, List.lookup_cons, ih]
      show (match key == k with | true => some (fold alg v) | false => _) = _
      cases key == k <;> rfl

/-- A key of an object's canonical form holds the canonical value. -/
theorem lookup_canonical {entries : List (String × Json ν)}
    (h : (entries.map Prod.fst).Nodup) (key : String) :
    (sortEntries (entries.map (foldEntry canonicalAlg))).lookup key
      = (entries.lookup key).map canonical := by
  have hkeys : ((sortEntries (entries.map (foldEntry canonicalAlg))).map
      Prod.fst).Nodup := by
    refine ((perm_sortEntries _).map Prod.fst).nodup_iff.mpr ?_
    rw [List.map_map]
    exact h
  rw [lookup_eq_of_perm (perm_sortEntries _) hkeys, lookup_map_foldEntry]
  rfl

/-- Lists with distinct keys and the same lookups. -/
theorem perm_of_lookup_eq {α : Type _} {es fs : List (String × α)}
    (hes : (es.map Prod.fst).Nodup) (hfs : (fs.map Prod.fst).Nodup)
    (h : ∀ key, es.lookup key = fs.lookup key) : es.Perm fs := by
  refine (List.perm_ext_iff_of_nodup hes.of_map hfs.of_map).mpr fun ⟨key, v⟩ => ?_
  have hleft : (key, v) ∈ es ↔ es.lookup key = some v :=
    Dict.mem_entries_iff (d := ⟨es, hes⟩)
  have hright : (key, v) ∈ fs ↔ fs.lookup key = some v :=
    Dict.mem_entries_iff (d := ⟨fs, hfs⟩)
  rw [hleft, hright, h key]

/-- The value under a key, if there is one. -/
def lookup? (v : Json ν) (key : String) : Option (Json ν) :=
  match v with
  | .obj entries => entries.lookup key
  | _ => none

/-- Under a key stand the same values, or none. -/
def SameEntry (key : String) (v w : Json ν) : Prop :=
  Option.Rel SameValue (v.lookup? key) (w.lookup? key)

theorem distinctKeys_lookup? {v w : Json ν} {key : String} (h : v.DistinctKeys)
    (hw : v.lookup? key = some w) : w.DistinctKeys := by
  cases v with
  | obj entries =>
      obtain ⟨l₁, l₂, hl, -⟩ := List.lookup_eq_some_iff.mp hw
      exact (distinctKeys_obj.mp h).2 (key, w) (by rw [hl]; simp)
  | _ => cases hw

theorem sameEntry_iff {v w : Json ν} {key : String} (h : v.DistinctKeys) :
    SameEntry key v w
      ↔ (v.lookup? key).map canonical = (w.lookup? key).map canonical := by
  unfold SameEntry
  cases hv : v.lookup? key with
  | none =>
      cases hw : w.lookup? key with
      | none => exact iff_of_true .none rfl
      | some y => exact iff_of_false (nomatch ·) (nomatch ·)
  | some x =>
      cases hw : w.lookup? key with
      | none => exact iff_of_false (nomatch ·) (nomatch ·)
      | some y =>
          rw [Option.rel_some_some, Option.map_some, Option.map_some,
            Option.some.injEq]
          exact sameValue_iff_canonical (distinctKeys_lookup? h hv)

/-- Objects have one canonical form exactly when their entries are the
same. -/
theorem canonical_eq_iff_entries {es fs : List (String × Json ν)}
    (hes : (Json.obj es).DistinctKeys) (hfs : (Json.obj fs).DistinctKeys) :
    (Json.obj es).canonical = (Json.obj fs).canonical
      ↔ ∀ key, SameEntry key (.obj es) (.obj fs) := by
  have hnodup := (distinctKeys_obj.mp hes).1
  have hnodup' := (distinctKeys_obj.mp hfs).1
  simp only [sameEntry_iff hes, lookup?, canonical_obj, obj.injEq]
  constructor
  · intro h key
    rw [← lookup_canonical hnodup, h, lookup_canonical hnodup']
  · intro h
    have hkeys {es : List (String × Json ν)} (h : (es.map Prod.fst).Nodup) :
        ((es.map (foldEntry canonicalAlg)).map Prod.fst).Nodup := by
      rw [List.map_map]
      exact h
    refine sortEntries_eq_of_perm (perm_of_lookup_eq (hkeys hnodup)
      (hkeys hnodup') fun key => ?_) (hkeys hnodup)
    rw [lookup_map_foldEntry, lookup_map_foldEntry]
    exact h key

theorem field_canonical {v : Json ν} (h : v.DistinctKeys) (key : String) :
    v.canonical.field key = (v.field key).canonical := by
  cases v with
  | obj entries =>
      rw [canonical_obj, field, field,
        lookup_canonical (distinctKeys_obj.mp h).1]
      cases entries.lookup key <;> rfl
  | arr items => rw [canonical_arr]; rfl
  | _ => rfl

/-- A plain value is its own canonical form. -/
theorem canonical_of_hashable {v : Json ν} (h : v.hashable = true) :
    v.canonical = v := by
  cases v with
  | arr items => cases h
  | obj entries => cases h
  | _ => rfl

theorem distinctKeys_field {v : Json ν} (h : v.DistinctKeys) (key : String) :
    (v.field key).DistinctKeys := by
  have hfield : v.field key = (v.lookup? key).getD .null := by
    cases v <;> rfl
  rw [hfield]
  cases hentry : v.lookup? key with
  | none => exact trivial
  | some w => exact distinctKeys_lookup? h hentry

/-- The value without one of its keys. -/
def eraseKey (v : Json ν) (key : String) : Json ν :=
  match v with
  | .obj entries => .obj (entries.filter fun e => e.1 ≠ key)
  | v => v

/-- Dropping other keys changes no lookup. -/
theorem lookup_filter {α : Type _} {p : String → Bool} {key : String}
    (h : p key = true) (entries : List (String × α)) :
    (entries.filter fun e => p e.1).lookup key = entries.lookup key := by
  induction entries with
  | nil => rfl
  | cons e es ih =>
      obtain ⟨k, v⟩ := e
      cases hk : p k with
      | true =>
          rw [List.filter_cons, if_pos hk, List.lookup_cons, List.lookup_cons,
            ih]
      | false =>
          have hne : (key == k) = false := by
            rw [beq_eq_false_iff_ne]
            rintro rfl
            rw [h] at hk
            cases hk
          rw [List.filter_cons, if_neg (ne_true_of_eq_false hk), ih,
            List.lookup_cons, hne]

theorem lookup_filter_ne {α : Type _} (entries : List (String × α))
    {key erased : String} (h : key ≠ erased) :
    (entries.filter fun e => e.1 ≠ erased).lookup key = entries.lookup key :=
  lookup_filter (p := fun k => k ≠ erased) (decide_eq_true h) entries

/-- The other keys read as before. -/
theorem field_eraseKey (v : Json ν) {key erased : String} (h : key ≠ erased) :
    (v.eraseKey erased).field key = v.field key := by
  cases v with
  | obj entries =>
      rw [eraseKey, field, field]
      exact congrArg (fun o => o.getD .null) (lookup_filter_ne entries h)
  | _ => rfl

theorem lookup?_eraseKey (v : Json ν) {key erased : String} (h : key ≠ erased) :
    (v.eraseKey erased).lookup? key = v.lookup? key := by
  cases v with
  | obj entries => exact lookup_filter_ne entries h
  | _ => rfl

theorem lookup?_eraseKey_self (v : Json ν) (key : String) :
    (v.eraseKey key).lookup? key = none := by
  cases v with
  | obj entries =>
      refine List.lookup_eq_none_iff.mpr fun e he => ?_
      have hne := of_decide_eq_true (List.mem_filter.mp he).2
      exact bne_iff_ne.mpr hne.symm
  | _ => rfl

theorem distinctKeys_eraseKey {v : Json ν} (h : v.DistinctKeys)
    (erased : String) : (v.eraseKey erased).DistinctKeys := by
  cases v with
  | obj entries =>
      rw [distinctKeys_obj] at h
      exact distinctKeys_obj.mpr
        ⟨h.1.sublist (List.filter_sublist.map Prod.fst),
          fun e he => h.2 e (List.mem_of_mem_filter he)⟩
  | _ => exact h

section Numbers

variable [JsonNumber ν]

/-- `bool(value)`. -/
def truthy : Json ν → Bool
  | .null => false
  | .bool b => b
  | .num n => decide (JsonNumber.value n ≠ 0)
  | .str s => s ≠ ""
  | .arr items => !items.isEmpty
  | .obj entries => !entries.isEmpty

/-- `value or other`. -/
def orElse (v other : Json ν) : Json ν := if v.truthy then v else other

/-- An object stands for itself where the default is an empty one. -/
theorem orElse_obj (entries : List (String × Json ν)) :
    (Json.obj entries).orElse (.obj []) = .obj entries := by
  cases entries with
  | nil => rfl
  | cons e es => rfl

theorem orElse_arr (items : List (Json ν)) :
    (Json.arr items).orElse (.arr []) = .arr items := by
  cases items with
  | nil => rfl
  | cons v vs => rfl

/-- A default is put in once. -/
theorem orElse_orElse (v other : Json ν) :
    (v.orElse other).orElse other = v.orElse other := by
  by_cases h : v.truthy = true
  · have hv : v.orElse other = v := if_pos h
    rw [hv, hv]
  · have hv : v.orElse other = other := if_neg h
    rw [hv, orElse, ite_self]

/-- So does anything that can be asked for a key. -/
theorem orElse_of_get {v value : Json ν} {key : String}
    (h : v.get key = .ok value) : v.orElse (.obj []) = v := by
  cases v with
  | obj entries => exact orElse_obj entries
  | _ => cases h

/-- The number a boolean compares as. -/
def ofBool (b : Bool) : Rat := if b then 1 else 0

/-- The algebra of `equal`: a value read as the test whether another
equals it. -/
def equalAlg : Alg ν (Json ν → Bool) where
  null := fun
    | .null => true
    | _ => false
  bool b := fun
    | .bool b' => b == b'
    | .num n => decide (ofBool b = JsonNumber.value n)
    | _ => false
  num n := fun
    | .bool b => decide (JsonNumber.value n = ofBool b)
    | .num m => decide (JsonNumber.value n = JsonNumber.value m)
    | _ => false
  str s := fun
    | .str t => s == t
    | _ => false
  arr tests := fun
    | .arr items => tests.length == items.length
        && (tests.zip items).all fun p => p.1 p.2
    | _ => false
  obj tests := fun
    | .obj entries => tests.length == entries.length
        && tests.all fun t => (entries.lookup t.1).any t.2
    | _ => false

/-- `value == other`. -/
def equal (v w : Json ν) : Bool := v.fold equalAlg w

/-- `value in items`, of a list or a set. -/
def isIn (v : Json ν) (items : List (Json ν)) : Bool := items.any v.equal

theorem str_equal_iff {code : String} {v : Json ν} :
    (Json.str code).equal v = true ↔ v = .str code := by
  cases v with
  | str s =>
      show (code == s) = true ↔ _
      rw [beq_iff_eq, str.injEq]
      exact eq_comm
  | _ => exact iff_of_false (fun h => nomatch h) (fun h => nomatch h)

theorem equal_str_iff {code : String} {v : Json ν} :
    v.equal (.str code) = true ↔ v = .str code := by
  cases v with
  | str s =>
      show (s == code) = true ↔ _
      rw [beq_iff_eq, str.injEq]
  | arr items =>
      rw [Json.equal, Json.fold_arr]
      exact iff_of_false (fun h => nomatch h) (fun h => nomatch h)
  | obj entries =>
      rw [Json.equal, Json.fold_obj]
      exact iff_of_false (fun h => nomatch h) (fun h => nomatch h)
  | _ => exact iff_of_false (fun h => nomatch h) (fun h => nomatch h)

theorem mem_of_str_isIn {code : String} {names : List String}
    (h : (Json.str code).isIn (names.map (Json.str (ν := ν))) = true) :
    code ∈ names := by
  obtain ⟨v, hin, hequal⟩ := List.any_eq_true.mp h
  obtain ⟨name, hname, rfl⟩ := List.mem_map.mp hin
  rw [str_equal_iff, str.injEq] at hequal
  exact hequal ▸ hname

/-- `value in names`, of a set of texts. -/
def inSet (v : Json ν) (names : List String) : Py Bool :=
  if v.hashable then .ok (v.isIn (names.map .str)) else .error .typeError

/-- `needle in value`. -/
def contains (v : Json ν) (needle : String) : Py Bool :=
  match v with
  | .str s => .ok (Text.occursIn needle s)
  | .arr items => .ok ((Json.str needle).isIn items)
  | .obj entries => .ok (entries.lookup needle).isSome
  | _ => .error .typeError

/-- `value.startswith(starts)`. -/
def startsWith (v : Json ν) (starts : List String) : Py Bool :=
  match v with
  | .str s => .ok (starts.any fun start => Text.startsWith start s)
  | _ => .error .attributeError

-- ========================================================== conversions

/-- `value.upper()`. -/
def upper : Json ν → Py (Json ν)
  | .str s => .ok (.str (Text.upper s))
  | _ => .error .attributeError

section Digits

variable [Text.Digits]

/-- The digits of a number text: single underscores may separate them. -/
def digitsOf : List Char → Option (List Nat)
  | [] => none
  | [c] => (Text.Digits.decimal? c).map fun d => [d]
  | c :: '_' :: rest => do return (← Text.Digits.decimal? c) :: (← digitsOf rest)
  | c :: rest => do return (← Text.Digits.decimal? c) :: (← digitsOf rest)

/-- `int(text)`. -/
def intOfText (s : String) : Py Int :=
  let read (cs : List Char) : Py Nat :=
    match (digitsOf cs).bind Text.numberOf with
    | some n => .ok n
    | none => .error .valueError
  match Text.stripChars s.toList with
  | '-' :: cs => do return -(← read cs)
  | '+' :: cs => do return (← read cs)
  | cs => do return (← read cs)

/-- `int(value)`. -/
def toInt : Json ν → Py Int
  | .bool b => .ok (if b then 1 else 0)
  | .num n =>
      let q := JsonNumber.value n
      .ok (q.num.tdiv q.den)
  | .str s => intOfText s
  | _ => .error .typeError

end Digits

-- =========================================================== formatting

variable [Printable]

/-- `count` hexadecimal digits. -/
def hexDigits : Nat → Nat → List Char
  | 0, _ => []
  | count + 1, n => hexDigits count (n / 16) ++ [(n % 16).digitChar]

/-- A character inside `repr(s)`. -/
def reprChar (quote c : Char) : List Char :=
  if c = quote ∨ c = '\\' then ['\\', c]
  else if c = '\n' then ['\\', 'n']
  else if c = '\r' then ['\\', 'r']
  else if c = '\t' then ['\\', 't']
  else if c.toNat < 32 ∨ c.toNat = 127 then
    ['\\', 'x'] ++ hexDigits 2 c.toNat
  else if c.toNat < 127 ∨ Printable.isPrintable c then [c]
  else if c.toNat < 256 then ['\\', 'x'] ++ hexDigits 2 c.toNat
  else if c.toNat < 65536 then ['\\', 'u'] ++ hexDigits 4 c.toNat
  else ['\\', 'U'] ++ hexDigits 8 c.toNat

/-- `repr(s)`, of a string. -/
def reprStr (s : String) : String :=
  let quote := if '\x27' ∈ s.toList ∧ '"' ∉ s.toList then '"' else '\x27'
  String.ofList ([quote] ++ s.toList.flatMap (reprChar quote) ++ [quote])

/-- The algebra of `repr`. -/
def reprAlg : Alg ν String where
  null := "None"
  bool b := if b then "True" else "False"
  num n := String.ofList (JsonNumber.text n)
  str s := reprStr s
  arr ps := "[" ++ Text.join ", " ps ++ "]"
  obj es := "\x7b"
    ++ Text.join ", " (es.map fun e => reprStr e.1 ++ ": " ++ e.2) ++ "\x7d"

/-- `repr(value)`. -/
def repr (v : Json ν) : String := v.fold reprAlg

/-- `str(value)`. -/
def toStr : Json ν → String
  | .str s => s
  | v => v.repr

end Numbers

end Json

end PatentEvidence
