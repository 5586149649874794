/-
Base 32 as the standard library writes and reads it (module `base64`).

Five bytes are forty bits and so eight symbols: a quantum is a number below
256 ^ 5 = 32 ^ 8, once in each base. Encoding splits into fives, decoding
into eights, and each block is read and written on its own, so that a whole
number of quanta is read back (`b32decode_b32encode`). What does not fill
its last quantum is padded with zero bits and with `=` signs.

# Sections

`chunks` and what it makes of concatenated blocks; the two functions; the
way back.
-/
import Mathlib.Data.List.DropRight
import PatentEvidence.Lib.Fallible
import PatentEvidence.Lib.Positional

namespace PatentEvidence

abbrev Byte := Fin 256

instance neZero_bytes : NeZero 256 := ⟨by decide⟩

namespace Base32

open Fallible Positional

-- ============================================================== chunks

section Chunks

variable {α : Type _} {n : Nat}

/-- `l[i : i + n]` for `i` in `range(0, len(l), n)`. -/
def chunks (n : Nat) (l : List α) : List (List α) :=
  (List.range ((l.length + n - 1) / n)).map fun i => (l.drop (n * i)).take n

theorem chunks_append (hn : 0 < n) {block : List α} (h : block.length = n)
    (l : List α) : chunks n (block ++ l) = block :: chunks n l := by
  have hcount : ((block ++ l).length + n - 1) / n = (l.length + n - 1) / n + 1 := by
    rw [List.length_append, h, ← Nat.add_div_right _ hn]
    congr 1
    omega
  rw [chunks, hcount, List.range_succ_eq_map, List.map_cons, List.map_map, chunks]
  refine congrArg₂ _ ?_ (List.map_congr_left fun i _ => ?_)
  · rw [Nat.mul_zero, List.drop_zero, List.take_left' h]
  · rw [Function.comp_apply, Nat.succ_eq_add_one, Nat.mul_succ, Nat.add_comm,
      ← List.drop_drop, List.drop_left' h]

/-- Blocks of one length are found again. -/
theorem chunks_flatten (hn : 0 < n) {blocks : List (List α)}
    (h : ∀ block ∈ blocks, block.length = n) : chunks n blocks.flatten = blocks := by
  induction blocks with
  | nil =>
      have hnone : (n - 1) / n = 0 := Nat.div_eq_of_lt (Nat.sub_one_lt_of_lt hn)
      rw [List.flatten_nil, chunks, List.length_nil, Nat.zero_add, hnone]
      rfl
  | cons block blocks ih =>
      obtain ⟨hblock, hblocks⟩ := List.forall_mem_cons.mp h
      rw [List.flatten_cons, chunks_append hn hblock, ih hblocks]

/-- A list of a whole number of blocks. -/
theorem exists_blocks {l : List α} (h : n ∣ l.length) : ∃ blocks : List (List α),
    (∀ block ∈ blocks, block.length = n) ∧ blocks.flatten = l := by
  obtain ⟨k, hk⟩ := h
  induction k generalizing l with
  | zero =>
      rw [Nat.mul_zero, List.length_eq_zero_iff] at hk
      exact ⟨[], List.forall_mem_nil _, hk.symm⟩
  | succ k ih =>
      obtain ⟨blocks, hblocks, hflat⟩ := ih (l := l.drop n) (by
        rw [List.length_drop, hk, Nat.mul_succ, Nat.add_sub_cancel])
      refine ⟨l.take n :: blocks, List.forall_mem_cons.mpr ⟨?_, hblocks⟩, ?_⟩
      · rw [List.length_take, hk, Nat.mul_succ, Nat.min_eq_left (Nat.le_add_left ..)]
      · rw [List.flatten_cons, hflat, List.take_append_drop]

theorem length_flatten {blocks : List (List α)}
    (h : ∀ block ∈ blocks, block.length = n) :
    blocks.flatten.length = n * blocks.length := by
  induction blocks with
  | nil => rfl
  | cons block blocks ih =>
      obtain ⟨hblock, hblocks⟩ := List.forall_mem_cons.mp h
      rw [List.flatten_cons, List.length_append, hblock, ih hblocks,
        List.length_cons, Nat.mul_succ, Nat.add_comm]

end Chunks

-- ============================================================ the alphabet

/-- The symbol of a digit. -/
def symbol (d : Fin 32) : Char :=
  "ABCDEFGHIJKLMNOPQRSTUVWXYZ234567".toList.getD d '='

/-- `_b32rev`. -/
def digit? (c : Char) : Option (Fin 32) :=
  (List.finRange 32).find? fun d => symbol d = c

theorem digit?_symbol (d : Fin 32) : digit? (symbol d) = some d := by
  decide +revert

/-- Symbols are capital letters and digits. -/
theorem symbol_facts (d : Fin 32) :
    (symbol d).toNat < 128 ∧ (symbol d).toUpper = symbol d ∧ symbol d ≠ '=' := by
  decide +revert

-- ============================================================ both ways

/-- One quantum, ten bits to two symbols. -/
def encodeQuantum (five : List Byte) : List Char :=
  (write 32 8 (read five)).map symbol

/-- `b32encode`. -/
def b32encode (s : List Byte) : List Char :=
  let leftover := s.length % 5
  let padded := if leftover ≠ 0 then s ++ List.replicate (5 - leftover) 0 else s
  let encoded := (chunks 5 padded).flatMap encodeQuantum
  let withPads (k : Nat) :=
    encoded.take (encoded.length - k) ++ List.replicate k '='
  match leftover with
  | 1 => withPads 6
  | 2 => withPads 4
  | 3 => withPads 3
  | 4 => withPads 1
  | _ => encoded

inductive DecodeError
  | notAscii
  | incorrectPadding
  | nonBase32Digit
  deriving DecidableEq

def DecodeError.text : DecodeError → String
  | .notAscii => "string argument should contain only ASCII characters"
  | .incorrectPadding => "Incorrect padding"
  | .nonBase32Digit => "Non-base32 digit found"

/-- The number of a quantum. -/
def decodeQuantum (quanta : List Char) : Except DecodeError Nat := do
  let digits ← quanta.mapM fun c => ((digit? c).elim (.error .nonBase32Digit) .ok)
  return read digits

/-- The bytes of the quanta; the last is `padchars` symbols short. -/
def decodedBytes (accs : List Nat) (padchars : Nat) : List Byte :=
  let decoded := accs.flatMap (write 256 5)
  match accs.getLast? with
  | none => decoded
  | some acc =>
      if padchars = 0 then decoded
      else
        let last := write 256 5 (acc * 2 ^ (5 * padchars))
        decoded.take (decoded.length - 5) ++ last.take ((43 - 5 * padchars) / 8)

/-- `b32decode`. -/
def b32decode (s : List Char) (casefold : Bool) : Except DecodeError (List Byte) := do
  raiseIf (s.any fun c => 128 ≤ c.toNat) .notAscii
  raiseIf (s.length % 8 ≠ 0) .incorrectPadding
  let s := if casefold then s.map Char.toUpper else s
  let l := s.length
  let s := s.rdropWhile (· = '=')
  let padchars := l - s.length
  let accs ← (chunks 8 s).mapM decodeQuantum
  raiseIf (l % 8 ≠ 0 ∨ padchars ∉ [0, 1, 3, 4, 6]) .incorrectPadding
  return decodedBytes accs padchars

-- ============================================================== the way back

theorem length_encodeQuantum (five : List Byte) : (encodeQuantum five).length = 8 := by
  rw [encodeQuantum, List.length_map, length_write]

theorem decodeQuantum_encodeQuantum {five : List Byte} (h : five.length = 5) :
    decodeQuantum (encodeQuantum five) = .ok (read five) := by
  have hdigits : (encodeQuantum five).mapM
      (fun c => ((digit? c).elim (.error .nonBase32Digit) .ok
        : Except DecodeError (Fin 32))) = .ok (write 32 8 (read five)) := by
    rw [mapM_eq_ok_iff, encodeQuantum, List.forall₂_map_left_iff, List.forall₂_same]
    intro d _
    rw [digit?_symbol]
    rfl
  have hlt : read five < 32 ^ 8 := by
    have hbytes := read_lt five
    rw [h] at hbytes
    exact hbytes
  rw [decodeQuantum, hdigits, ok_bind, read_write_of_lt hlt]
  rfl

/-- Whole quanta of symbols decode one by one. -/
theorem b32decode_flatten {quanta : List (List Char)} {accs : List Nat}
    (hlength : ∀ quantum ∈ quanta, quantum.length = 8)
    (hsymbols : ∀ c ∈ quanta.flatten, ∃ d, c = symbol d)
    (hread : quanta.mapM decodeQuantum = .ok accs) (casefold : Bool) :
    b32decode quanta.flatten casefold = .ok (accs.flatMap (write 256 5)) := by
  have hascii : quanta.flatten.any (fun c => 128 ≤ c.toNat) = false := by
    rw [List.any_eq_false]
    intro c hc hlarge
    obtain ⟨d, rfl⟩ := hsymbols c hc
    exact absurd (symbol_facts d).1 (Nat.not_lt.mpr (of_decide_eq_true hlarge))
  have hwhole : quanta.flatten.length % 8 = 0 := by
    rw [length_flatten hlength, Nat.mul_mod_right]
  have hupper : (if casefold then quanta.flatten.map Char.toUpper else quanta.flatten)
      = quanta.flatten := by
    split
    · refine (List.map_congr_left fun c hc => ?_).trans (List.map_id _)
      obtain ⟨d, rfl⟩ := hsymbols c hc
      exact (symbol_facts d).2.1
    · rfl
  have hpads : quanta.flatten.rdropWhile (· = '=') = quanta.flatten := by
    rw [List.rdropWhile_eq_self_iff]
    intro hne hpad
    obtain ⟨d, hd⟩ := hsymbols _ (List.getLast_mem hne)
    rw [hd] at hpad
    exact (symbol_facts d).2.2 (of_decide_eq_true hpad)
  simp only [b32decode, hascii, hwhole, hupper, hpads, Nat.sub_self,
    chunks_flatten (Nat.succ_pos 7) hlength, hread, ok_bind]
  rw [decodedBytes]
  cases accs.getLast? with
  | none => rfl
  | some acc => rfl

/-- A whole number of quanta is read back. -/
theorem b32decode_b32encode {s : List Byte} (h : 5 ∣ s.length) (casefold : Bool) :
    b32decode (b32encode s) casefold = .ok s := by
  obtain ⟨blocks, hblocks, rfl⟩ := exists_blocks h
  have hencoded : b32encode blocks.flatten = (blocks.map encodeQuantum).flatten := by
    have hleft : blocks.flatten.length % 5 = 0 := Nat.mod_eq_zero_of_dvd h
    simp only [b32encode, hleft]
    rw [if_neg (by decide), chunks_flatten (by decide) hblocks, List.flatMap_def]
  have hread : (blocks.map encodeQuantum).mapM decodeQuantum
      = .ok (blocks.map read) := by
    rw [mapM_eq_ok_iff, List.forall₂_map_left_iff, List.forall₂_map_right_iff,
      List.forall₂_same]
    exact fun five hfive => decodeQuantum_encodeQuantum (hblocks five hfive)
  have hwrite : (blocks.map read).flatMap (write 256 5) = blocks.flatten := by
    rw [List.flatMap_map, List.flatMap_def]
    refine congrArg _ ((List.map_congr_left fun five hfive => ?_).trans (List.map_id _))
    have hback := write_read five
    rw [hblocks five hfive] at hback
    exact hback
  rw [hencoded, b32decode_flatten ?_ ?_ hread, hwrite]
  · intro quantum hq
    obtain ⟨five, -, rfl⟩ := List.mem_map.mp hq
    exact length_encodeQuantum five
  · intro c hc
    obtain ⟨quantum, hq, hc⟩ := List.mem_flatten.mp hc
    obtain ⟨five, -, rfl⟩ := List.mem_map.mp hq
    obtain ⟨d, -, rfl⟩ := List.mem_map.mp hc
    exact ⟨d, rfl⟩

end Base32

end PatentEvidence
