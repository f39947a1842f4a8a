import Deployment.Json.Form

/-! # Upload identifiers

Every upload has an identifier of 128 bits, written as 26 digits in base 32. The letters I, L, O
and U are no digits, so that the text cannot be misread.

* **`Ulid`** — an identifier.
* **`Ulid.text`**, **`Ulid.ofText`** — its digits, and back. -/

namespace Deployment

/-- An identifier of 128 bits. -/
structure Ulid where
  value : BitVec 128
  deriving DecidableEq, Repr

namespace Ulid

/-- The digits in base 32, in order. -/
def alphabet : List Char := "0123456789ABCDEFGHJKMNPQRSTVWXYZ".toList

/-- The number of digits of an identifier. -/
def width : Nat := 26

/-- The last `k` digits of `n` in base 32, the most significant first. -/
def digits : Nat → Nat → List Nat
  | 0, _ => []
  | k + 1, n => digits k (n / 32) ++ [n % 32]

/-- The number that digits stand for in base 32. -/
def ofDigits (ds : List Nat) : Nat := ds.foldl (fun n d => n * 32 + d) 0

/-- The digits behind digits with a known number. -/
@[simp] theorem ofDigits_append_singleton (ds : List Nat) (d : Nat) :
    ofDigits (ds ++ [d]) = ofDigits ds * 32 + d := by
  simp [ofDigits]

/-- The last `k` digits of a number stand for its remainder by `32 ^ k`. -/
@[simp] theorem ofDigits_digits (k n : Nat) : ofDigits (digits k n) = n % Nat.pow 32 k := by
  induction k generalizing n with
  | zero => simp [digits, ofDigits, Nat.mod_one]
  | succ k ih =>
    have hpow : Nat.pow 32 (k + 1) = 32 * Nat.pow 32 k := Nat.mul_comm _ _
    rw [digits, ofDigits_append_singleton, ih, hpow, Nat.mod_mul]
    omega

/-- The text of an identifier. -/
def text (u : Ulid) : String :=
  String.ofList ((digits width u.value.toNat).map fun d => alphabet.getD d '0')

/-- The value of a digit; letters may be in lower case. -/
def digit? (c : Char) : Option Nat := alphabet.idxOf? c.toUpper

/-- The identifier of a text; what 26 digits hold beyond 128 bits is dropped. -/
def ofText (s : String) : Except String Ulid :=
  if s.utf8ByteSize ≠ width then .error "invalid length"
  else match s.toList.mapM digit? with
    | some ds => .ok ⟨BitVec.ofNat 128 (ofDigits ds)⟩
    | none => .error "invalid character"

/-- The identifier of a moment, in milliseconds, and of bytes that nobody else has drawn. -/
def ofMoment (milliseconds : Nat) (random : List UInt8) : Ulid :=
  let low := random.foldl (fun n b => n * 256 + b.toNat) 0
  ⟨BitVec.ofNat 128 (milliseconds * Nat.pow 2 80 + low % Nat.pow 2 80)⟩

/-- An identifier as a JSON string. -/
def form : Json.Form Ulid where
  read _ := do
    match ofText (← Json.Reader.text) with
    | .ok u => pure u
    | .error message => Json.Reader.failWithoutPlace (.other message)
  write u := .text u.text

end Ulid

end Deployment
