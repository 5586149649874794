/-
What `verify` decides.

The code of a counter is its HOTP value (`codeAt_eq_hotp`): the masks are
remainders, the four bytes are always there, and from a minute after the
epoch to the last year every counter fits its eight bytes. So for an ASCII
code the loop is the question whether one of the five values is the code
(`verifyDrifts_eq`), and a code that is not six digits is none of them.

In between are six digits that are no ASCII digits. `isdigit` accepts them
and the comparison raises. The other input that raises is a secret that is
no base 32, which no issued one is (`b32decode_issueSecret`).
-/
import PatentEvidence.Auth.Totp

namespace PatentEvidence.Auth.TotpSecurity

open Text Fallible Base32

/-- An issued secret is decoded to its bytes. -/
theorem b32decode_issueSecret (token : Vector Byte 20) :
    b32decode (issueSecret token).toList true = .ok token.toList := by
  rw [issueSecret, String.toList_ofList]
  refine b32decode_b32encode ?_ true
  rw [Vector.length_toList]
  decide

-- ============================================================= the values

/-- Dynamic truncation: the 31 low bits of the four bytes at the offset that
the last four bits name. -/
def dynamicTruncation (digest : Vector Byte 20) : Nat :=
  Positional.read ((digest.toList.drop (digest.back.val % 16)).take 4) % 2 ^ 31

/-- The four bytes are there. -/
theorem unpackI_digest (digest : Vector Byte 20) :
    unpackI ((digest.toList.take ((digest.back.val &&& 0x0F) + 4)).drop
        (digest.back.val &&& 0x0F))
      = .ok (Positional.read
        ((digest.toList.drop (digest.back.val % 16)).take 4)) := by
  have hmask : digest.back.val &&& 0x0F = digest.back.val % 16 :=
    Nat.and_two_pow_sub_one_eq_mod _ 4
  have hoffset : digest.back.val % 16 < 16 := Nat.mod_lt _ (by decide)
  rw [hmask, List.drop_take, Nat.add_sub_cancel_left, unpackI, if_pos]
  rw [List.length_take, List.length_drop, Vector.length_toList]
  omega

section Rules

variable [HmacSha1]

/-- The HOTP value of a counter, in six digits. -/
def hotp (key : List Byte) (counter : Nat) : String :=
  Date.padded 6
    (dynamicTruncation (HmacSha1.digest key (Positional.write 256 8 counter))
      % 10 ^ 6)

/-- The code of a counter that fits its bytes. -/
theorem codeAt_eq_hotp (raw : List Byte) {counter : Int}
    (h : 0 ≤ counter ∧ counter < 2 ^ 64) :
    codeAt raw counter = .ok (hotp raw counter.toNat) := by
  have hmask (n : Nat) : n &&& 0x7FFFFFFF = n % 2 ^ 31 :=
    Nat.and_two_pow_sub_one_eq_mod n 31
  rw [codeAt, packQ, if_pos h, ok_bind]
  dsimp only
  rw [unpackI_digest, ok_bind, hmask, hotp, dynamicTruncation]
  rfl

theorem length_hotp (raw : List Byte) (counter : Nat) :
    (hotp raw counter).length = 6 := by
  have hlt (n : Nat) : n % 10 ^ 6 < 10 ^ 6 := Nat.mod_lt _ (by decide)
  exact Date.length_padded (by decide) (hlt _)

theorem isDigit_of_mem_hotp {raw : List Byte} {counter : Nat} {c : Char}
    (h : c ∈ (hotp raw counter).toList) : c.isDigit = true :=
  Date.isDigit_of_mem_padded h

theorem isAscii_hotp (raw : List Byte) (counter : Nat) :
    isAscii (hotp raw counter) = true := by
  refine List.all_eq_true.mpr fun c hc => decide_eq_true ?_
  have hdigit := (Char.isDigit_iff_toNat.mp (isDigit_of_mem_hotp hc)).2
  exact Nat.lt_of_le_of_lt hdigit (by decide)

-- =============================================================== the loop

/-- The loop asks whether the value of one of the drifts is the code. -/
theorem verifyDrifts_eq {raw : List Byte} {counter : Int} {code : String}
    (hascii : isAscii code = true) {drifts : List Int}
    (hfits : ∀ drift ∈ drifts, 0 ≤ counter + drift ∧ counter + drift < 2 ^ 64) :
    verifyDrifts raw counter code drifts
      = .ok (drifts.any fun drift => hotp raw (counter + drift).toNat = code) := by
  induction drifts with
  | nil => rfl
  | cons drift drifts ih =>
      obtain ⟨hfit, hrest⟩ := List.forall_mem_cons.mp hfits
      rw [verifyDrifts, codeAt_eq_hotp raw hfit, ok_bind, compareDigest,
        isAscii_hotp, hascii, Bool.and_self, if_pos rfl, ok_bind, List.any_cons,
        ih hrest]
      by_cases hcode : hotp raw (counter + drift).toNat = code
      · rw [if_pos (decide_eq_true hcode), decide_eq_true hcode, Bool.true_or]
        rfl
      · rw [if_neg (by rwa [decide_eq_true_eq]), decide_eq_false hcode,
          Bool.false_or]

/-- What is not ASCII raises at the first drift. -/
theorem verifyDrifts_of_not_ascii (raw : List Byte) {counter drift : Int}
    {code : String} (hascii : isAscii code = false) (drifts : List Int)
    (hfit : 0 ≤ counter + drift ∧ counter + drift < 2 ^ 64) :
    ∃ e, verifyDrifts raw counter code (drift :: drifts) = .error e := by
  rw [verifyDrifts, codeAt_eq_hotp raw hfit, ok_bind, compareDigest, hascii,
    Bool.and_false]
  exact ⟨_, rfl⟩

-- ============================================================ the verdict

/-- The drifts `verify` allows for. -/
def drifts : List Int := [-2, -1, 0, 1, 2]

omit [HmacSha1] in
/-- From a minute after the epoch on, every counter fits its bytes. -/
theorem counter_fits {now : UnixTime} (h : 60 ≤ now.seconds) :
    truncate now.seconds / 30 = ⌊now.seconds / 30⌋
      ∧ ∀ drift ∈ drifts, 0 ≤ ⌊now.seconds / 30⌋ + drift
        ∧ ⌊now.seconds / 30⌋ + drift < 2 ^ 64 := by
  have hfloor : ⌊now.seconds / (30 : Nat)⌋ = ⌊now.seconds⌋ / (30 : Nat) :=
    Int.floor_div_natCast _ 30
  have hlow : (60 : Int) ≤ ⌊now.seconds⌋ := Int.le_floor.mpr (by exact_mod_cast h)
  have hhigh : ⌊now.seconds⌋ ≤ 253402300800 := by
    refine Int.floor_le_iff.mpr (lt_of_le_of_lt now.bounded ?_)
    norm_num
  have htruncate : truncate now.seconds = ⌊now.seconds⌋ :=
    if_pos (le_trans (by norm_num) h)
  have hcounter : ⌊now.seconds / 30⌋ = ⌊now.seconds⌋ / 30 := hfloor
  refine ⟨by rw [htruncate, hcounter], fun drift hdrift => ?_⟩
  have hdrift : -2 ≤ drift ∧ drift ≤ 2 := by
    revert drift
    decide
  omega

/-- `verify` returns, and accepts exactly the HOTP values of the five counters
around the time. -/
def DecidesCode [Digits] (secret code : String) (now : UnixTime) : Prop :=
  ∃ verdict, verify secret code now = .ok verdict
    ∧ (verdict = true ↔ ∃ raw, b32decode secret.toList true = .ok raw
      ∧ ∃ drift ∈ drifts, code = hotp raw (⌊now.seconds / 30⌋ + drift).toNat)

/-- Six digits are ASCII digits, and the secret they are checked against is
base 32. -/
def ChecksAscii [Digits] (secret code : String) : Prop :=
  code.length = 6 → allDigits code = true →
    isAscii code = true ∧ ∃ raw, b32decode secret.toList true = .ok raw

theorem allDigits_hotp [Digits]
    (hdigits : ∀ c : Char, c.isDigit = true → Digits.isDigit c = true)
    (raw : List Byte) (counter : Nat) : allDigits (hotp raw counter) = true := by
  have hne : hotp raw counter ≠ "" := fun heq => by
    have hlength := length_hotp raw counter
    rw [heq] at hlength
    exact absurd hlength (by decide)
  rw [allDigits, Bool.and_eq_true]
  refine ⟨decide_eq_true hne, List.all_eq_true.mpr fun c hc => ?_⟩
  exact hdigits c (isDigit_of_mem_hotp hc)

/-- The verdict is exact unless six digits are no ASCII digits or the secret is
no base 32. -/
theorem verify_decides_iff [Digits]
    (hdigits : ∀ c : Char, c.isDigit = true → Digits.isDigit c = true)
    {secret code : String} {now : UnixTime} (h : 60 ≤ now.seconds) :
    DecidesCode secret code now ↔ ChecksAscii secret code := by
  obtain ⟨hcounter, hfits⟩ := counter_fits h
  by_cases hform : code.length ≠ 6 ∨ ¬ allDigits code = true
  · -- the form is checked first, and every value has it
    refine iff_of_true ⟨false, by rw [verify, if_pos hform], ?_⟩ fun hlength hall => ?_
    · refine iff_of_false Bool.false_ne_true ?_
      rintro ⟨raw, -, drift, -, rfl⟩
      rcases hform with hlength | hall
      · exact hlength (length_hotp ..)
      · exact hall (allDigits_hotp hdigits ..)
    · exact absurd hform (not_or.mpr ⟨not_not.mpr hlength, not_not.mpr hall⟩)
  · have hchecks : ChecksAscii secret code
        ↔ isAscii code = true ∧ ∃ raw, b32decode secret.toList true = .ok raw := by
      obtain ⟨hlength, hall⟩ := not_or.mp hform
      exact ⟨fun hchecks => hchecks (not_not.mp hlength) (not_not.mp hall),
        fun hboth _ _ => hboth⟩
    rw [hchecks, DecidesCode, verify, if_neg hform]
    cases hsecret : b32decode secret.toList true with
    | error e =>
        refine iff_of_false ?_ ?_
        · rintro ⟨verdict, hverdict, -⟩
          cases hverdict
        · rintro ⟨-, raw, hraw⟩
          cases hraw
    | ok raw =>
        dsimp only
        rw [hcounter]
        cases hascii : isAscii code with
        | false =>
            obtain ⟨e, he⟩ := verifyDrifts_of_not_ascii raw hascii [-1, 0, 1, 2]
              (hfits (-2) (by decide))
            refine iff_of_false ?_ (fun hboth => Bool.false_ne_true hboth.1)
            rintro ⟨verdict, hverdict, -⟩
            rw [he] at hverdict
            cases hverdict
        | true =>
            refine iff_of_true ⟨_, verifyDrifts_eq hascii hfits, ?_⟩ ⟨rfl, raw, rfl⟩
            rw [List.any_eq_true]
            constructor
            · rintro ⟨drift, hdrift, hcode⟩
              exact ⟨raw, rfl, drift, hdrift, (of_decide_eq_true hcode).symm⟩
            · rintro ⟨raw', hraw, drift, hdrift, hcode⟩
              cases hraw
              exact ⟨drift, hdrift, decide_eq_true hcode.symm⟩

end Rules

-- ------------------------------------------------------ a minute after zero

/-- The digests of the first counters under `12345678901234567890`. -/
local instance firstDigests : HmacSha1 where
  digest _ message :=
    match Positional.read message with
    | 0 => #v[204, 147, 207, 24, 80, 141, 148, 147, 76, 100, 182, 93, 139, 167,
        102, 127, 183, 205, 228, 176]
    | 1 => #v[117, 164, 138, 25, 212, 203, 225, 0, 100, 78, 138, 193, 57, 126,
        234, 116, 122, 45, 51, 171]
    | 2 => #v[11, 172, 183, 250, 8, 47, 239, 48, 120, 34, 17, 147, 139, 193,
        197, 231, 4, 22, 255, 68]
    | 3 => #v[102, 194, 130, 39, 208, 58, 45, 85, 41, 38, 47, 240, 22, 161,
        230, 239, 118, 85, 126, 206]
    | 4 => #v[169, 4, 201, 0, 166, 75, 53, 144, 152, 116, 179, 62, 97, 197,
        147, 138, 142, 21, 237, 28]
    | _ => Vector.replicate 20 0

/-- ASCII digits and the Arabic ones. -/
local instance arabicDigits : Digits where
  decimal? c :=
    if c.isDigit then some (c.toNat - '0'.toNat)
    else if '٠' ≤ c ∧ c ≤ '٩' then some (c.toNat - '٠'.toNat)
    else none
  isDigit c := c.isDigit || '٠' ≤ c && c ≤ '٩'

def firstMinute : UnixTime := ⟨60, by norm_num⟩

/-- `GEZDGNBVGY3TQOJQGEZDGNBVGY3TQOJQ`. -/
def firstSecret : String :=
  issueSecret #v[49, 50, 51, 52, 53, 54, 55, 56, 57, 48, 49, 50, 51, 52, 53,
    54, 55, 56, 57, 48]

theorem verify_decides_iff_359152 :
    DecidesCode firstSecret "359152" firstMinute
      ∧ verify firstSecret "359152" firstMinute = .ok true := by
  constructor
  · refine (verify_decides_iff (fun c hc => ?_) (by norm_num [firstMinute])).mpr ?_
    · exact Bool.or_eq_true_iff.mpr (.inl hc)
    · exact fun _ _ => ⟨by decide, _, b32decode_issueSecret _⟩
  · decide +kernel

/-- The same digits in Arabic writing raise. -/
theorem not_decidesCode_arabic :
    ¬ DecidesCode firstSecret "٣٥٩١٥٢" firstMinute := by
  rintro ⟨verdict, hverdict, -⟩
  have hraises : (verify firstSecret "٣٥٩١٥٢" firstMinute).toOption = none := by
    decide +kernel
  rw [hverdict] at hraises
  cases hraises

end PatentEvidence.Auth.TotpSecurity
