/-
Hexadecimal text: digests and UUIDs.

Without its dashes the text of a UUID is its 32 digits again, and they are
its number in base 16, so the text says which UUID it is
(`Uuid.str_injective`).
-/
import Mathlib.Data.List.Basic
import PatentEvidence.Lib.Positional

namespace PatentEvidence

instance neZero_hexDigits : NeZero 16 := ⟨by decide⟩

-- ============================================================== digits

def hexDigit (d : Fin 16) : Char := "0123456789abcdef".toList.getD d '0'

def isHexDigit (c : Char) : Bool := "0123456789abcdef".toList.contains c

theorem hexDigit_facts (d : Fin 16) :
    isHexDigit (hexDigit d) = true ∧ hexDigit d ≠ '-' := by
  decide +revert

theorem hexDigit_injective : Function.Injective hexDigit := by
  show ∀ d e, hexDigit d = hexDigit e → d = e
  decide

/-- What `hexdigest` of a digest of 32 bytes returns. -/
structure HexDigest where
  text : String
  hex : text.toList.length = 64 ∧ ∀ c ∈ text.toList, isHexDigit c = true

theorem HexDigest.text_injective : Function.Injective HexDigest.text := by
  intro digest digest' h
  cases digest
  cases digest'
  cases h
  rfl

-- =============================================================== UUIDs

/-- A UUID is its number. -/
structure Uuid where
  int : Nat
  int_lt : int < 2 ^ 128

namespace Uuid

/-- `u.hex`. -/
def hex (u : Uuid) : List Char := (Positional.write 16 32 u.int).map hexDigit

/-- `str(u)`. -/
def str (u : Uuid) : String :=
  String.ofList (u.hex.take 8 ++ '-' :: (u.hex.drop 8).take 4
    ++ '-' :: (u.hex.drop 12).take 4 ++ '-' :: (u.hex.drop 16).take 4
    ++ '-' :: u.hex.drop 20)

theorem hex_injective : Function.Injective hex := by
  intro u v h
  have hdigits : Positional.write 16 32 u.int = Positional.write 16 32 v.int :=
    hexDigit_injective.list_map h
  have hread (w : Uuid) : Positional.read (Positional.write 16 32 w.int) = w.int :=
    Positional.read_write_of_lt w.int_lt
  have hint : u.int = v.int := by
    rw [← hread u, hdigits, hread v]
  cases u with
  | mk m hm =>
      cases v with
      | mk n hn =>
          show Uuid.mk m hm = Uuid.mk n hn
          congr

theorem hex_facts {u : Uuid} {c : Char} (h : c ∈ u.hex) :
    isHexDigit c = true ∧ c ≠ '-' := by
  obtain ⟨d, -, rfl⟩ := List.mem_map.mp h
  exact hexDigit_facts d

/-- The groups, put together. -/
theorem groups_hex (u : Uuid) :
    u.hex.take 8 ++ ((u.hex.drop 8).take 4 ++ ((u.hex.drop 12).take 4
      ++ ((u.hex.drop 16).take 4 ++ u.hex.drop 20))) = u.hex := by
  have hgroup (m n : Nat) :
      (u.hex.drop m).take n ++ u.hex.drop (m + n) = u.hex.drop m := by
    rw [← List.drop_drop, List.take_append_drop]
  rw [hgroup 16 4, hgroup 12 4, hgroup 8 4, List.take_append_drop]

/-- Without the dashes they are. -/
theorem filter_str (u : Uuid) : u.str.toList.filter (· ≠ '-') = u.hex := by
  have hkeep {part : List Char} (hpart : part ⊆ u.hex) :
      part.filter (fun c => decide (c ≠ '-')) = part := by
    apply List.filter_eq_self.mpr
    intro c hc
    exact decide_eq_true (hex_facts (hpart hc)).2
  have htake (m n : Nat) : (u.hex.drop m).take n ⊆ u.hex := fun c hc =>
    List.mem_of_mem_drop (List.mem_of_mem_take hc)
  unfold str
  simp only [String.toList_ofList, List.append_assoc, List.cons_append,
    List.filter_append, List.filter_cons, ne_eq, not_true_eq_false,
    decide_false, Bool.false_eq_true, if_false]
  rw [hkeep (List.take_subset ..), hkeep (htake 8 4), hkeep (htake 12 4),
    hkeep (htake 16 4), hkeep (List.drop_subset ..), groups_hex]

/-- The text says which UUID it is. -/
theorem str_injective : Function.Injective str := by
  intro u v h
  apply hex_injective
  rw [← filter_str, h, filter_str]

theorem mem_str {u : Uuid} {c : Char} (h : c ∈ u.str.toList) :
    isHexDigit c = true ∨ c = '-' := by
  by_cases hdash : c = '-'
  · exact .inr hdash
  · have hmem : c ∈ u.str.toList.filter (· ≠ '-') := by
      simp [h, hdash]
    rw [filter_str] at hmem
    exact .inl (hex_facts hmem).1

end Uuid

end PatentEvidence
