import NebulaIM.Protocol.Identifiers
import NebulaIM.Foundation.Text

/-!
# Password records

`PasswordHasher` writes a salted hash as a text of four fields and reads the
fields back to check a password.  What OpenSSL computes is a parameter.
-/

namespace NebulaIM.User.PasswordHasher

open Protocol
open Foundation.Wire

def kIterations : Nat := 100000
def kSaltBytes : Nat := 16
def kHashBytes : Nat := 32
def kAlgorithm : Bytes := lit "pbkdf2_sha256"

/-- `PKCS5_PBKDF2_HMAC` with SHA-256, from the password, the salt, the iteration
count and the output length; `none` where it fails. -/
abbrev Pbkdf2 := Bytes → Bytes → Int → Nat → Option Bytes

variable (pbkdf2 : Pbkdf2)

def pbkdf2Sha256 (password salt : Bytes) (iterations : Int) (outputLen : Nat) :
    Bytes :=
  (pbkdf2 password salt iterations outputLen).getD []

def hexDigit (n : Nat) : UInt8 :=
  if n < 10 then UInt8.ofNat (48 + n) else UInt8.ofNat (87 + n)

/-- One byte at `setw(2)` with the fill character `0`. -/
def hexPair (byte : UInt8) : Bytes := [hexDigit (byte.toNat / 16), hexDigit (byte.toNat % 16)]

def toHex (bytes : Bytes) : Bytes := bytes.flatMap hexPair

def hexValue (byte : UInt8) : Option Nat :=
  if 48 ≤ byte ∧ byte ≤ 57 then some (byte.toNat - 48)
  else if 97 ≤ byte ∧ byte ≤ 102 then some (byte.toNat - 87)
  else if 65 ≤ byte ∧ byte ≤ 70 then some (byte.toNat - 55)
  else none

/-- A leading sign, with whether it is a minus. -/
def takeSign : Bytes → Bool × Bytes
  | 45 :: rest => (true, rest)
  | 43 :: rest => (false, rest)
  | text => (false, text)

/-- The marker `0x`, which the stream skips before hexadecimal digits. -/
def skipMarker : Bytes → Bytes
  | 48 :: 120 :: rest => rest
  | 48 :: 88 :: rest => rest
  | text => text

/-- `iss >> std::hex >> value` on a text of two characters, which cannot overflow;
`none` where the stream fails. -/
def extractHex (text : Bytes) : Option UInt32 :=
  let (negative, rest) := takeSign (text.dropWhile isSpace)
  let digits := (skipMarker rest).map hexValue |>.takeWhile Option.isSome
  let value := digits.foldl (fun n digit => 16 * n + digit.getD 0) 0
  if digits.isEmpty then none
  else some (if negative then 0 - UInt32.ofNat value else UInt32.ofNat value)

/-- The loop of `fromHex`; `none` for its early return. -/
def fromPairs : Bytes → Option Bytes
  | first :: second :: rest => do
      let value ← extractHex [first, second]
      return value.toUInt8 :: (← fromPairs rest)
  | _ => some []

def fromHex (hex : Bytes) : Bytes :=
  if hex.length % 2 ≠ 0 then [] else (fromPairs hex).getD []

/-- `drawn` is what `RAND_bytes` has written, `none` where it fails. -/
def generateSalt (drawn : Option Bytes) : Bytes := drawn.getD []

/-- The text that `hashPassword` returns. -/
def record (salt hash : Bytes) : Bytes :=
  kAlgorithm ++ lit "$" ++ decimal kIterations ++ lit "$" ++ toHex salt ++ lit "$" ++ toHex hash

def hashPassword (drawn : Option Bytes) (password : Bytes) : Bytes :=
  if password.isEmpty then []
  else
    let salt := generateSalt drawn
    if salt.isEmpty then []
    else
      let hash := pbkdf2Sha256 pbkdf2 password salt kIterations kHashBytes
      if hash.isEmpty then [] else record salt hash

/-- `std::stoi`, with `none` where it throws. -/
def stoi (text : Bytes) : Option Int :=
  let (negative, rest) := takeSign (text.dropWhile isSpace)
  let digits := rest.takeWhile fun byte => 48 ≤ byte && byte ≤ 57
  let size : Nat := digits.foldl (fun n digit => 10 * n + (digit.toNat - 48)) 0
  let value : Int := if negative then -size else size
  if digits.isEmpty || value < -2 ^ 31 || 2 ^ 31 ≤ value then none else some value

/-- The loop over both digests. -/
def difference (actual expected : Bytes) : UInt8 :=
  (actual.zip expected).foldl (fun diff pair => diff ||| (pair.1 ^^^ pair.2)) 0

def verifyPassword (password encodedHash : Bytes) : Bool :=
  if password.isEmpty || encodedHash.isEmpty then false
  else
    match encodedHash.splitOn 36 with
    | [algorithm, rounds, saltHex, hashHex] =>
      if algorithm ≠ kAlgorithm then false
      else
        match stoi rounds with
        | none => false
        | some iterations =>
          let salt := fromHex saltHex
          let expected := fromHex hashHex
          if iterations ≤ 0 then false
          else if salt.isEmpty || expected.isEmpty then false
          else
            let actual := pbkdf2Sha256 pbkdf2 password salt iterations expected.length
            if actual.length ≠ expected.length then false
            else difference actual expected == 0
    | _ => false

/-! ## Reading back what was written -/

theorem extractHex_hexPair (byte : UInt8) : extractHex (hexPair byte) = some byte.toUInt32 :=
  forall_byte (P := fun byte => extractHex (hexPair byte) = some byte.toUInt32)
    (by decide +kernel) byte

theorem fromPairs_toHex (bytes : Bytes) : fromPairs (toHex bytes) = some bytes := by
  induction bytes with
  | nil => rfl
  | cons byte bytes ih =>
    have hpair : extractHex [hexDigit (byte.toNat / 16), hexDigit (byte.toNat % 16)] =
        some byte.toUInt32 := extractHex_hexPair byte
    change fromPairs (_ :: _ :: toHex bytes) = _
    simp [fromPairs, hpair, ih]

theorem fromHex_toHex (bytes : Bytes) : fromHex (toHex bytes) = bytes := by
  have hlength : (toHex bytes).length = 2 * bytes.length := by
    induction bytes with
    | nil => rfl
    | cons byte bytes ih =>
      change (toHex bytes).length + 1 + 1 = _
      rw [ih, List.length_cons]
      omega
  rw [fromHex, if_neg (by omega), fromPairs_toHex]
  rfl

theorem dollar_notMem_toHex (bytes : Bytes) : 36 ∉ toHex bytes := by
  intro hmem
  obtain ⟨byte, _, hbyte⟩ := List.mem_flatMap.mp hmem
  exact forall_byte (P := fun byte => 36 ∉ hexPair byte) (by decide +kernel) byte hbyte

theorem foldl_difference_eq_zero {actual expected : Bytes}
    (hlength : actual.length = expected.length) (diff : UInt8) :
    (actual.zip expected).foldl (fun diff pair => diff ||| (pair.1 ^^^ pair.2)) diff = 0 ↔
      diff = 0 ∧ actual = expected := by
  induction actual generalizing expected diff with
  | nil =>
    obtain rfl := List.length_eq_zero_iff.mp hlength.symm
    simp
  | cons first actual ih =>
    cases expected with
    | nil => cases hlength
    | cons second expected =>
      rw [List.zip_cons_cons, List.foldl_cons, ih (Nat.succ.inj hlength),
        UInt8.or_eq_zero_iff, UInt8.xor_eq_zero_iff, List.cons.injEq, and_assoc]

theorem splitOn_record (salt hash : Bytes) : (record salt hash).splitOn 36 =
      [kAlgorithm, decimal kIterations, toHex salt, toHex hash] := by
  have hjoined : record salt hash = List.intercalate [36]
      [kAlgorithm, decimal kIterations, toHex salt, toHex hash] := by
    have hdollar : lit "$" = [36] := by decide
    simp [record, List.intercalate, hdollar]
  rw [hjoined]
  refine List.splitOn_intercalate 36 (fun field hfield => ?_) (List.cons_ne_nil _ _)
  simp only [List.mem_cons, List.not_mem_nil, or_false] at hfield
  rcases hfield with rfl | rfl | rfl | rfl
  · decide
  · exact fun hmem => absurd (digit_of_mem_decimal hmem).1 (by decide)
  · exact dollar_notMem_toHex salt
  · exact dollar_notMem_toHex hash

theorem verifyPassword_record {password salt hash : Bytes} (hpassword : password ≠ [])
    (hsalt : salt ≠ []) (hhash : hash ≠ []) :
    verifyPassword pbkdf2 password (record salt hash) = true ↔
      pbkdf2Sha256 pbkdf2 password salt kIterations hash.length = hash := by
  have hstoi : stoi (decimal kIterations) = some (kIterations : Int) := by decide +kernel
  have hpositive : ¬ (kIterations : Int) ≤ 0 := by decide
  have hrecord : (record salt hash).isEmpty = false := rfl
  simp only [verifyPassword, splitOn_record, hstoi, fromHex_toHex, hrecord,
    List.isEmpty_eq_false_iff.mpr hpassword, List.isEmpty_eq_false_iff.mpr hsalt,
    List.isEmpty_eq_false_iff.mpr hhash, if_neg hpositive]
  simp only [Bool.or_false, Bool.false_eq_true, if_false, ne_eq, not_true_eq_false]
  split
  · next hlength => exact iff_of_false Bool.false_ne_true fun heq => hlength (by rw [heq])
  · next hlength =>
    rw [beq_iff_eq, difference, foldl_difference_eq_zero (not_not.mp hlength)]
    exact and_iff_right rfl

/-- For every function that gives outputs of the length asked for, a record accepts
the passwords with the same output, and no others. -/
theorem verifyPassword_hashPassword (kdf : Bytes → Bytes → Int → Nat → Bytes)
    (hkdf : ∀ password salt iterations outputLen,
      (kdf password salt iterations outputLen).length = outputLen)
    {p salt : Bytes} (hp : p ≠ []) (hsalt : salt.length = kSaltBytes) (q : Bytes) :
    let pbkdf2 : Pbkdf2 := fun password salt iterations outputLen =>
      some (kdf password salt iterations outputLen)
    verifyPassword pbkdf2 q (hashPassword pbkdf2 (some salt) p) = true ↔
      q ≠ [] ∧ kdf q salt kIterations kHashBytes = kdf p salt kIterations kHashBytes := by
  intro pbkdf2
  have hlength : (kdf p salt kIterations kHashBytes).length = kHashBytes := hkdf ..
  have hhash : kdf p salt kIterations kHashBytes ≠ [] :=
    List.ne_nil_of_length_pos (by rw [hlength]; decide)
  have hdrawn : salt ≠ [] := List.ne_nil_of_length_pos (by rw [hsalt]; decide)
  have hrecord : hashPassword pbkdf2 (some salt) p =
      record salt (kdf p salt kIterations kHashBytes) := by
    simp [hashPassword, generateSalt, pbkdf2Sha256, pbkdf2, hp, hdrawn, hhash]
  by_cases hq : q = []
  · simp [hq, verifyPassword]
  · rw [hrecord, verifyPassword_record pbkdf2 hq hdrawn hhash, hlength]
    exact (and_iff_right hq).symm

/-! ### A function of the password's first byte -/

def firstByte (password _salt : Bytes) (_iterations : Int) (outputLen : Nat) : Bytes :=
  List.replicate outputLen (password.headD 0)

theorem firstByte_verified : verifyPassword
    (fun password salt iterations outputLen =>
      some (firstByte password salt iterations outputLen)) [97, 99]
    (hashPassword (fun password salt iterations outputLen =>
      some (firstByte password salt iterations outputLen))
      (some (List.replicate 16 36)) [97, 98]) = true :=
  (verifyPassword_hashPassword firstByte (fun _ _ _ _ => List.length_replicate)
    (List.cons_ne_nil 97 [98]) List.length_replicate [97, 99]).mpr
    ⟨List.cons_ne_nil _ _, rfl⟩

end NebulaIM.User.PasswordHasher
