/-
  Nostalgia.Web.DumpNames — the names the page takes from a request: a backup's file name
  and an account's name.

  - `safeDumpName_ok`: an accepted file name is a `SafeBase` with the extension.
  - `safeDumpName_fixed_iff`: the names it leaves unchanged are exactly these.
  - `validAccount_ok`: an accepted account name is 3 to 16 of A-Z and 0-9; `trim` took the
    newline that `$` would have let pass.
-/

import Nostalgia.Web.Php

namespace Nostalgia.Web

/-! ## File names -/

/-- `[A-Za-z0-9_-]`. -/
def isSafeByte (b : Byte) : Bool := isUpper b || isLower b || isDigit b || b == 95 || b == 45

def pdumpExtension : Bytes := ascii ".pdump"

/-- `preg_replace('/[^A-Za-z0-9_-]/', '_', s)`. -/
def replaceUnsafe (s : Bytes) : Bytes := s.map fun b => if isSafeByte b then b else 95

def safeDumpName (filename : Bytes) : Except String Bytes :=
  let base := replaceUnsafe (pathinfoFilename (basename filename))
  if base.isEmpty || 48 < base.length then
    .error "Use a filename containing 1 to 48 letters, digits, underscores or hyphens."
  else .ok (base ++ pdumpExtension)

/-- What stands before the extension. -/
structure SafeBase (b : Bytes) : Prop where
  pos : 1 ≤ b.length
  le : b.length ≤ 48
  safe : ∀ c ∈ b, isSafeByte c = true

theorem isSafeByte_replaced (b : Byte) : isSafeByte (if isSafeByte b then b else 95) = true := by
  by_cases h : isSafeByte b = true
  · rw [if_pos h, h]
  · rw [if_neg h]
    decide

theorem replaceUnsafe_safe (s : Bytes) : ∀ c ∈ replaceUnsafe s, isSafeByte c = true := by
  intro c hc
  obtain ⟨b, _, rfl⟩ := List.mem_map.mp hc
  exact isSafeByte_replaced b

theorem replaceUnsafe_of_safe {s : Bytes} (h : ∀ c ∈ s, isSafeByte c = true) : replaceUnsafe s = s := by
  have hid : s.map (fun b => if isSafeByte b then b else 95) = s.map id :=
    List.map_congr_left fun b hb => if_pos (h b hb)
  rw [List.map_id] at hid
  exact hid

theorem safeDumpName_ok {filename name : Bytes} (h : safeDumpName filename = .ok name) :
    ∃ b, SafeBase b ∧ name = b ++ pdumpExtension := by
  unfold safeDumpName at h
  dsimp only at h
  split at h
  · cases h
  · rename_i hlen
    injection h with h
    refine ⟨_, ⟨?_, ?_, replaceUnsafe_safe _⟩, h.symm⟩
    · simp only [Bool.or_eq_true, List.isEmpty_iff, decide_eq_true_eq, not_or] at hlen
      exact List.length_pos_iff.mpr hlen.1
    · simp only [Bool.or_eq_true, decide_eq_true_eq, not_or] at hlen
      omega

/-- A safe byte is neither a separator nor a dot. -/
theorem isSafeByte_plain {b : Byte} (h : isSafeByte b = true) : isSeparator b = false ∧ b ≠ 46 := by
  constructor
  · by_contra hsep
    simp only [isSeparator, Bool.not_eq_false, Bool.or_eq_true, beq_iff_eq] at hsep
    rcases hsep with rfl | rfl
    · exact absurd h (by decide)
    · exact absurd h (by decide)
  · rintro rfl
    exact absurd h (by decide)

/-- A name without separators is its own basename. -/
theorem basename_plain {s : Bytes} (h : ∀ c ∈ s, isSeparator c = false) : basename s = s := by
  have hrev : ∀ c ∈ s.reverse, isSeparator c = false := fun c hc => h c (List.mem_reverse.mp hc)
  unfold basename
  have hdrop : s.reverse.dropWhile isSeparator = s.reverse := by
    cases hr : s.reverse with
    | nil => rfl
    | cons a rest =>
      have ha : isSeparator a = false := hrev a (by rw [hr]; exact List.mem_cons_self)
      rw [List.dropWhile_cons_of_neg (by simp [ha])]
  rw [hdrop, List.takeWhile_eq_self_iff.mpr fun c hc => by simp [hrev c hc], List.reverse_reverse]

theorem pdumpExtension_plain : ∀ c ∈ pdumpExtension, isSeparator c = false := by decide +kernel

theorem dumpName_plain {b : Bytes} (h : SafeBase b) : ∀ c ∈ b ++ pdumpExtension, isSeparator c = false := by
  intro c hc
  rcases List.mem_append.mp hc with hc | hc
  · exact (isSafeByte_plain (h.safe c hc)).1
  · exact pdumpExtension_plain c hc

/-- The extension is what `pathinfo` takes off. -/
theorem pathinfoFilename_dumpName {b : Bytes} (h : SafeBase b) : pathinfoFilename (b ++ pdumpExtension) = b := by
  unfold pathinfoFilename
  rw [basename_plain (dumpName_plain h), if_pos]
  · have hext : pdumpExtension.reverse = ascii "pmudp" ++ [46] := by decide +kernel
    have hletters : ∀ c ∈ ascii "pmudp", (c != 46) = true := by decide +kernel
    rw [List.reverse_append, hext, List.append_assoc, List.dropWhile_append_of_pos hletters]
    rw [List.singleton_append, List.dropWhile_cons_of_neg (by simp), List.drop_one, List.tail_cons, List.reverse_reverse]
  · simp [pdumpExtension, ascii]

theorem safeDumpName_fixed {b : Bytes} (h : SafeBase b) :
    safeDumpName (b ++ pdumpExtension) = .ok (b ++ pdumpExtension) := by
  unfold safeDumpName
  rw [basename_plain (dumpName_plain h), pathinfoFilename_dumpName h, replaceUnsafe_of_safe h.safe]
  dsimp only
  have hpos := h.pos
  have hle := h.le
  rw [if_neg]
  simp only [Bool.or_eq_true, List.isEmpty_iff, decide_eq_true_eq, not_or, ← List.length_eq_zero_iff]
  omega

theorem safeDumpName_fixed_iff (name : Bytes) :
    safeDumpName name = .ok name ↔ ∃ b, SafeBase b ∧ name = b ++ pdumpExtension := by
  constructor
  · exact safeDumpName_ok
  · rintro ⟨b, hb, rfl⟩
    exact safeDumpName_fixed hb

/-! ## Account names -/

/-- `strtoupper(trim(…))` of a posted field. -/
def accountName (posted : Bytes) : Bytes := strtoupper (trim posted)

/-- `[A-Z0-9]`. -/
def isAccountByte (b : Byte) : Bool := isUpper b || isDigit b

/-- `/^[A-Z0-9]{3,16}$/`. -/
def validAccount (name : Bytes) : Bool := pregMatchClass isAccountByte 3 16 name

structure IsAccount (name : Bytes) : Prop where
  ge : 3 ≤ name.length
  le : name.length ≤ 16
  bytes : ∀ c ∈ name, isAccountByte c = true

/-- What `trim` leaves ends with no blank. -/
theorem trim_last {s : Bytes} {b : Byte} (h : (trim s).getLast? = some b) : isTrimmed b = false := by
  have hhead := List.head?_dropWhile_not isTrimmed (s.dropWhile isTrimmed).reverse
  unfold trim at h
  rw [List.getLast?_reverse] at h
  rw [h] at hhead
  exact hhead

theorem toUpper_newline {b : Byte} (h : toUpper b = 10) : b = 10 := by
  unfold toUpper at h
  split at h
  · rename_i hlower
    have hval := congrArg UInt8.toNat h
    simp only [isLower, Bool.and_eq_true, decide_eq_true_eq] at hlower
    have hsub : (b - 32).toNat = b.toNat - 32 := UInt8.toNat_sub_of_le _ _ (UInt8.le_iff_toNat_le.mpr (by
      show 32 ≤ b.toNat
      omega))
    rw [hsub] at hval
    have hten : (10 : Byte).toNat = 10 := rfl
    omega
  · exact h

theorem accountName_last {posted : Bytes} : (accountName posted).getLast? ≠ some 10 := by
  intro h
  unfold accountName strtoupper at h
  rw [List.getLast?_map] at h
  obtain ⟨b, hb, hup⟩ := Option.map_eq_some_iff.mp h
  obtain rfl := toUpper_newline hup
  exact absurd (trim_last hb) (by decide)

theorem validAccount_ok {posted : Bytes} (h : validAccount (accountName posted) = true) : IsAccount (accountName posted) := by
  unfold validAccount pregMatchClass at h
  dsimp only at h
  have hlast : ((accountName posted).getLast? == some 10) = false := by simpa using accountName_last
  rw [hlast, Bool.false_and, Bool.or_false] at h
  simp only [Bool.and_eq_true, decide_eq_true_eq, List.all_eq_true] at h
  exact ⟨h.1.2, h.2, h.1.1⟩

/-- An account byte is no separator and no dot. -/
theorem isAccountByte_plain {b : Byte} (h : isAccountByte b = true) : isSeparator b = false ∧ b ≠ 46 := by
  refine isSafeByte_plain ?_
  unfold isAccountByte at h
  unfold isSafeByte
  rcases Bool.or_eq_true_iff.mp h with h | h
  · simp [h]
  · simp [h]

end Nostalgia.Web
