/-
  Nostalgia.Web.Srp6 — the salt and verifier of a new account.

  The server reads the salt column as a hexadecimal number and takes that number's bytes,
  least significant first and without leading zeros, as the salt. The page hashed the
  bytes it drew, in reverse.
  - `saltBytes_hex`: the two byte strings are the same, because the first byte of the
    salt, the last one hashed, has its top bit set.
  - `verifier_matches`: so the verifier is the one the server computes.
-/

import Nostalgia.Web.Gmp

namespace Nostalgia.Web

/-- A byte string of fixed length. -/
abbrev Octets (n : Nat) := { s : Bytes // s.length = n }

/-- `$salt[0] = chr(ord($salt[0]) | 0x80)`. -/
def setTopBit : Bytes → Bytes
  | [] => []
  | b :: rest => (b ||| 0x80) :: rest

/-- `$prime`. -/
def srpPrime : Nat := gmpInit (ascii "894B645E89E1535BBDAD5B8B290650530801B18EBFBF5E8FAB3C82872A3E9BB7")

def gmpFromLittleEndian (bytes : Bytes) : Nat := gmpInit (bin2hex bytes.reverse)

/-- `SHA1(username:password)`. -/
def passwordHash (sha1 : Bytes → Octets 20) (username password : Bytes) : Bytes :=
  (sha1 (username ++ ascii ":" ++ password)).1

/-- `strrev($salt)`: what is hashed before the password hash. -/
def saltBytes (random : Octets 32) : Bytes := (setTopBit random.1).reverse

/-- The verifier and the salt, or the exception. `random` is what random_bytes(32) drew. -/
def vanillaSrp6 (sha1 : Bytes → Octets 20) (gmpLoaded : Bool) (random : Octets 32) (username password : Bytes) :
    Except Bytes (Bytes × Bytes) :=
  if !gmpLoaded then .error (ascii "The PHP GMP extension is not loaded.")
  else
    let xDigest := (sha1 (saltBytes random ++ passwordHash sha1 username password)).1
    let x := gmpFromLittleEndian xDigest
    let verifier := gmpPowm 7 x srpPrime
    .ok (strtoupper (gmpStrval verifier), strtoupper (bin2hex (setTopBit random.1)))

/-! ## The salt -/

theorem setTopBit_length (s : Bytes) : (setTopBit s).length = s.length := by
  cases s with
  | nil => rfl
  | cons b rest => rfl

theorem saltBytes_length (random : Octets 32) : (saltBytes random).length = 32 := by
  unfold saltBytes
  rw [List.length_reverse, setTopBit_length, random.2]

/-- With its top bit set a byte is not zero. -/
theorem topBit_ne_zero (b : Byte) : b ||| 0x80 ≠ 0 := by
  intro h
  have hall : ∀ n < 256, UInt8.ofNat n ||| 0x80 ≠ 0 := by decide +kernel
  refine hall b.toNat b.toNat_lt ?_
  rw [UInt8.ofNat_toNat]
  exact h

theorem saltBytes_last (random : Octets 32) (hne : saltBytes random ≠ []) : (saltBytes random).getLast hne ≠ 0 := by
  obtain ⟨s, hs⟩ := random
  cases s with
  | nil => cases hs
  | cons b rest =>
    unfold saltBytes setTopBit
    simp only [List.reverse_cons, List.getLast_append_singleton]
    exact topBit_ne_zero b

/-- The server finds the bytes that were hashed in the salt column. -/
theorem saltBytes_hex (random : Octets 32) :
    minimalBytes (gmpInit (strtoupper (bin2hex (setTopBit random.1)))) = saltBytes random := by
  rw [gmpInit_upper, gmpInit_bin2hex]
  exact minimalBytes_littleEndian (saltBytes_last random)

/-! ## The verifier -/

theorem srpPrime_eq : srpPrime = 0x894B645E89E1535BBDAD5B8B290650530801B18EBFBF5E8FAB3C82872A3E9BB7 := by decide +kernel

theorem gmpFromLittleEndian_eq (bytes : Bytes) : gmpFromLittleEndian bytes = littleEndian bytes := by
  unfold gmpFromLittleEndian
  rw [gmpInit_bin2hex, List.reverse_reverse]

/-- Every account's two columns: the salt's shortest little-endian bytes `A` are the 32
    that were hashed, and the verifier is `7 ^ x` for the `x` the server hashes from `A`. -/
theorem verifier_matches (sha1 : Bytes → Octets 20) (random : Octets 32) (username password : Bytes) :
    ∃ verifier salt, vanillaSrp6 sha1 true random username password = .ok (verifier, salt) ∧
      (minimalBytes (gmpInit salt)).length = 32 ∧
      minimalBytes (gmpInit salt) = saltBytes random ∧
      gmpInit verifier =
        7 ^ littleEndian (sha1 (minimalBytes (gmpInit salt) ++ (sha1 (username ++ ascii ":" ++ password)).1)).1 %
          0x894B645E89E1535BBDAD5B8B290650530801B18EBFBF5E8FAB3C82872A3E9BB7 := by
  refine ⟨_, _, rfl, ?_, saltBytes_hex random, ?_⟩
  · rw [saltBytes_hex]
    exact saltBytes_length random
  · rw [saltBytes_hex, gmpInit_upper, gmpInit_strval, gmpPowm_eq, gmpFromLittleEndian_eq, srpPrime_eq]
    rfl

end Nostalgia.Web
