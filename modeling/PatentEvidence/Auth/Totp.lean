/-
One-time codes (apps/api/…/auth/security.py).

HMAC-SHA1 is a parameter: twenty bytes for every key and message. What the
language's library raises on the way is an error of `verify`, and the
verdict of a code is what it returns. A time is what `now.timestamp()`
gives, the seconds since the epoch.
-/
import Mathlib.Data.Rat.Floor
import PatentEvidence.Lib.Base32
import PatentEvidence.Lib.Calendar
import PatentEvidence.Lib.Text

namespace PatentEvidence.Auth

open Text Fallible Base32

instance neZero_digest : NeZero 20 := ⟨by decide⟩

/-- `hmac.new(key, message, hashlib.sha1).digest()`. -/
class HmacSha1 where
  digest : List Byte → List Byte → Vector Byte 20

/-- What `timestamp()` of a datetime returns; the last year bounds it. -/
structure UnixTime where
  seconds : Rat
  bounded : seconds ≤ 253402300800

/-- What `verify` may raise. -/
inductive TotpError
  | base32 (error : DecodeError)
  | structError (text : String)
  | typeError (text : String)
  deriving DecidableEq

namespace TotpSecurity

/-- `issue_secret`, of the bytes `token_bytes` draws. -/
def issueSecret (token : Vector Byte 20) : String :=
  String.ofList (b32encode token.toList)

/-- `struct.pack(">Q", n)`. -/
def packQ (n : Int) : Except TotpError (List Byte) :=
  if 0 ≤ n ∧ n < 2 ^ 64 then .ok (Positional.write 256 8 n.toNat)
  else .error (.structError "int too large to convert")

/-- `struct.unpack(">I", buffer)[0]`. -/
def unpackI (buffer : List Byte) : Except TotpError Nat :=
  if buffer.length = 4 then .ok (Positional.read buffer)
  else .error (.structError "unpack requires a buffer of 4 bytes")

def isAscii (s : String) : Bool := s.toList.all fun c => c.toNat < 128

/-- `secrets.compare_digest`, of strings. -/
def compareDigest (a b : String) : Except TotpError Bool :=
  if isAscii a && isAscii b then .ok (a = b)
  else .error (.typeError
    "comparing strings with non-ASCII characters is not supported")

section Verify

variable [HmacSha1]

/-- The code of a counter, the body of the loop up to the comparison. -/
def codeAt (raw : List Byte) (counter : Int) : Except TotpError String := do
  let digest := HmacSha1.digest raw (← packQ counter)
  let offset := digest.back.val &&& 0x0F
  let word ← unpackI ((digest.toList.take (offset + 4)).drop offset)
  return Date.padded 6 ((word &&& 0x7FFFFFFF) % 1000000)

/-- The loop over the drifts. -/
def verifyDrifts (raw : List Byte) (counter : Int) (code : String) :
    List Int → Except TotpError Bool
  | [] => .ok false
  | drift :: drifts => do
      if ← compareDigest (← codeAt raw (counter + drift)) code then return true
      else verifyDrifts raw counter code drifts

/-- `int(x)`, which drops the fraction. -/
def truncate (x : Rat) : Int := if 0 ≤ x then ⌊x⌋ else ⌈x⌉

/-- `verify`. -/
def verify [Digits] (secret code : String) (now : UnixTime) :
    Except TotpError Bool :=
  if code.length ≠ 6 ∨ ¬ allDigits code then .ok false
  else
    match b32decode secret.toList true with
    | .error e => .error (.base32 e)
    | .ok raw =>
        let counter := truncate now.seconds / 30
        verifyDrifts raw counter code [-2, -1, 0, 1, 2]

end Verify

end TotpSecurity

end PatentEvidence.Auth
