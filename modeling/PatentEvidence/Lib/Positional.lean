/-
Numbers in positional notation, most significant digit first.

`write b w n` are the last `w` digits of `n` to the base `b`, and `read` is
the number of a list of digits. Digits are `Fin b`, so a list of them is
always the notation of a number. Writing and reading undo each other
(`read_write`, `write_read`), which makes changing the base of a block of
digits reversible wherever both blocks hold the same numbers.

The bytes of a word are its digits to the base 256.
-/
import Mathlib.Algebra.Order.Ring.Nat
import Mathlib.Data.List.Induction

namespace PatentEvidence.Positional

variable {b : Nat}

/-- The number with these digits. -/
def read (digits : List (Fin b)) : Nat :=
  digits.foldl (fun n d => b * n + d.val) 0

/-- The last `width` digits of a number. -/
def write (b : Nat) [NeZero b] : Nat → Nat → List (Fin b)
  | 0, _ => []
  | width + 1, n => write b width (n / b) ++ [Fin.ofNat b n]

@[simp] theorem read_nil : read ([] : List (Fin b)) = 0 := rfl

theorem read_concat (digits : List (Fin b)) (d : Fin b) :
    read (digits ++ [d]) = b * read digits + d := by
  rw [read, List.foldl_append]
  rfl

theorem read_lt (digits : List (Fin b)) : read digits < b ^ digits.length := by
  induction digits using List.reverseRecOn with
  | nil => exact Nat.one_pos
  | append_singleton digits d ih =>
      rw [read_concat, List.length_append, List.length_singleton, Nat.pow_succ']
      calc b * read digits + d < b * (read digits + 1) := by
            rw [Nat.mul_succ]
            exact Nat.add_lt_add_left d.isLt _
        _ ≤ b * b ^ digits.length := Nat.mul_le_mul_left _ ih

section Write

variable [NeZero b]

@[simp] theorem length_write (width n : Nat) : (write b width n).length = width := by
  induction width generalizing n with
  | zero => rfl
  | succ width ih => rw [write, List.length_append, ih, List.length_singleton]

theorem read_write (width n : Nat) : read (write b width n) = n % b ^ width := by
  induction width generalizing n with
  | zero => rw [Nat.pow_zero, Nat.mod_one, write, read_nil]
  | succ width ih =>
      rw [write, read_concat, ih, Nat.pow_succ', Nat.mod_mul, Nat.add_comm,
        Fin.val_ofNat]

theorem read_write_of_lt {width n : Nat} (h : n < b ^ width) :
    read (write b width n) = n := by
  rw [read_write, Nat.mod_eq_of_lt h]

theorem write_read (digits : List (Fin b)) :
    write b digits.length (read digits) = digits := by
  induction digits using List.reverseRecOn with
  | nil => rfl
  | append_singleton digits d ih =>
      rw [List.length_append, List.length_singleton, write, read_concat,
        Nat.mul_add_div (NeZero.pos b), Nat.div_eq_of_lt d.isLt, Nat.add_zero, ih]
      congr
      refine Fin.ext ?_
      rw [Fin.val_ofNat, Nat.mul_add_mod, Nat.mod_eq_of_lt d.isLt]

end Write

end PatentEvidence.Positional
