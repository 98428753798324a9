/-
  Nostalgia.Web.Gmp — hexadecimal strings and PHP's GMP numbers.

  - `gmpInit_bin2hex`: the number of a byte string in hex is its big-endian value.
  - `gmpInit_strval`: writing a number in hex and reading it back.
  - `gmpInit_upper`: reading does not tell upper from lower case.
  - `gmpPowm_eq`: square and multiply is the power modulo `m`.
-/

import Nostalgia.Web.Php

namespace Nostalgia.Web

/-! ## The functions -/

/-- `0` to `f`. -/
def hexDigit (d : Nat) : Byte := if d < 10 then UInt8.ofNat (48 + d) else UInt8.ofNat (87 + d)

def hexValue (c : Byte) : Nat :=
  if isDigit c then c.toNat - 48
  else if 97 ≤ c.toNat && c.toNat ≤ 102 then c.toNat - 87
  else if 65 ≤ c.toNat && c.toNat ≤ 70 then c.toNat - 55
  else 0

def bin2hex (s : Bytes) : Bytes := s.flatMap fun b => [hexDigit (b.toNat / 16), hexDigit (b.toNat % 16)]

/-- `gmp_init(s, 16)`. -/
def gmpInit (s : Bytes) : Nat := s.foldl (fun n c => 16 * n + hexValue c) 0

/-- `gmp_strval(n, 16)`. -/
def gmpStrval (n : Nat) : Bytes := if n = 0 then [48] else (Nat.digits 16 n).reverse.map hexDigit

/-- `gmp_powm(base, exp, mod)`. -/
def gmpPowm (base exp mod : Nat) : Nat :=
  (Nat.digits 2 exp).foldr (fun bit power => power * power * base ^ bit % mod) (1 % mod)

/-- The value of a byte string, least significant byte first. -/
def littleEndian (s : Bytes) : Nat := Nat.ofDigits 256 (s.map UInt8.toNat)

/-- The shortest byte string of a value, least significant byte first. -/
def minimalBytes (n : Nat) : Bytes := (Nat.digits 256 n).map UInt8.ofNat

/-! ## Hexadecimal -/

theorem hexValue_hexDigit {d : Nat} (hd : d < 16) : hexValue (hexDigit d) = d := by
  have hall : ∀ d < 16, hexValue (hexDigit d) = d := by decide
  exact hall d hd

theorem hexValue_toUpper (c : Byte) : hexValue (toUpper c) = hexValue c := by
  have hall : ∀ n < 256, hexValue (toUpper (UInt8.ofNat n)) = hexValue (UInt8.ofNat n) := by decide +kernel
  have hc := hall c.toNat c.toNat_lt
  rw [UInt8.ofNat_toNat] at hc
  exact hc

theorem gmpInit_upper (s : Bytes) : gmpInit (strtoupper s) = gmpInit s := by
  unfold gmpInit strtoupper
  rw [List.foldl_map]
  simp only [hexValue_toUpper]

/-- Two hex digits are one digit to the base 256. -/
theorem foldl_bin2hex : ∀ (s : Bytes) (n : Nat),
    (bin2hex s).foldl (fun n c => 16 * n + hexValue c) n = s.foldl (fun n b => 256 * n + b.toNat) n := by
  intro s
  induction s with
  | nil => exact fun _ => rfl
  | cons b s ih =>
    intro n
    have hb : b.toNat < 256 := b.toNat_lt
    show ((bin2hex s).foldl _ (16 * (16 * n + hexValue (hexDigit (b.toNat / 16))) + hexValue (hexDigit (b.toNat % 16)))) = _
    rw [hexValue_hexDigit (by omega), hexValue_hexDigit (by omega), ih, List.foldl_cons]
    congr 1
    omega

theorem gmpInit_bin2hex (s : Bytes) : gmpInit (bin2hex s) = littleEndian s.reverse := by
  unfold gmpInit littleEndian
  rw [foldl_bin2hex, Nat.ofDigits_eq_foldr, List.map_reverse, List.foldr_reverse, List.foldl_map]
  congr 1
  funext n b
  exact Nat.add_comm _ _

theorem gmpInit_strval (n : Nat) : gmpInit (gmpStrval n) = n := by
  unfold gmpInit gmpStrval
  split
  · rename_i hn
    rw [hn]
    decide
  · rw [List.foldl_map, List.foldl_reverse]
    have hdigits : ∀ l : List Nat, (∀ d ∈ l, d < 16) →
        l.foldr (fun d n => 16 * n + hexValue (hexDigit d)) 0 = Nat.ofDigits 16 l := by
      intro l
      induction l with
      | nil => exact fun _ => rfl
      | cons d l ih =>
        intro hl
        rw [List.foldr_cons, ih fun e he => hl e (List.mem_cons_of_mem _ he), hexValue_hexDigit (hl d List.mem_cons_self),
          Nat.ofDigits_cons]
        exact Nat.add_comm _ _
    rw [hdigits _ fun d hd => Nat.digits_lt_base (by decide) hd, Nat.ofDigits_digits]

/-! ## Byte strings -/

/-- A string whose last byte is not zero is the shortest one of its value. -/
theorem minimalBytes_littleEndian {s : Bytes} (hs : ∀ h : s ≠ [], s.getLast h ≠ 0) : minimalBytes (littleEndian s) = s := by
  unfold minimalBytes littleEndian
  rw [Nat.digits_ofDigits 256 (by decide)]
  · rw [List.map_map]
    have hid : s.map (UInt8.ofNat ∘ UInt8.toNat) = s.map id :=
      List.map_congr_left fun b _ => UInt8.ofNat_toNat
    rw [hid, List.map_id]
  · intro d hd
    obtain ⟨b, _, rfl⟩ := List.mem_map.mp hd
    exact b.toNat_lt
  · intro hne
    have hs' : s ≠ [] := fun he => hne (by rw [he]; rfl)
    rw [List.getLast_map]
    intro hzero
    exact hs hs' (UInt8.toNat_inj.mp hzero)

/-! ## Powers -/

theorem gmpPowm_eq (base exp mod : Nat) : gmpPowm base exp mod = base ^ exp % mod := by
  have hfold : ∀ bits : List Nat,
      bits.foldr (fun bit power => power * power * base ^ bit % mod) (1 % mod) = base ^ Nat.ofDigits 2 bits % mod := by
    intro bits
    induction bits with
    | nil => rfl
    | cons bit bits ih =>
      have hpow : base ^ (bit + 2 * Nat.ofDigits 2 bits) =
          base ^ Nat.ofDigits 2 bits * base ^ Nat.ofDigits 2 bits * base ^ bit := by ring
      rw [List.foldr_cons, ih, Nat.ofDigits_cons, hpow]
      exact ((Nat.mod_modEq _ mod).mul (Nat.mod_modEq _ mod)).mul_right _
  unfold gmpPowm
  rw [hfold, Nat.ofDigits_digits]

end Nostalgia.Web
