/-
  Nostalgia.Machine.Cycle — moves around a list.

  A state `s` shows the place `place s`, an entry of the list `l`. `Rotates P place l f`:
  from every state that meets `P` the move `f` goes to the entry behind the place, from the
  last one to the first, and keeps `P`. A move the other way rotates the reversed list
  (`rotates_reverse`).
  - `Rotates.iterate`: where `k` moves lead; `Rotates.returns`: as many moves as there are
    entries lead back.
  - `Rotates.visits`: they come by every entry, as often as it stands in the list.
  - `Rotates.undo`: the moves of the two directions undo each other.
-/

import Mathlib

namespace Nostalgia.Machine

variable {σ β : Type*}

structure Rotates (P : σ → Prop) (place : σ → β) (l : List β) (f : σ → σ) : Prop where
  keeps : ∀ s, P s → P (f s)
  next : ∀ s i, P s → l[i]? = some (place s) → l[(i + 1) % l.length]? = some (place (f s))

variable {P : σ → Prop} {place : σ → β} {l : List β} {f g : σ → σ}

/-- A move to the entry before. -/
theorem rotates_reverse (hkeep : ∀ s, P s → P (f s))
    (hprev : ∀ s i, P s → l[i]? = some (place s) → l[(i + (l.length - 1)) % l.length]? = some (place (f s))) :
    Rotates P place l.reverse f := by
  refine ⟨hkeep, fun s i hs hi => ?_⟩
  have hlt : i < l.length := by
    have := (List.getElem?_eq_some_iff.mp hi).1
    rwa [List.length_reverse] at this
  rw [List.getElem?_reverse hlt] at hi
  have h := hprev s _ hs hi
  rw [List.length_reverse, List.getElem?_reverse (Nat.mod_lt _ (by omega)), ← h]
  congr 1
  by_cases hlast : i + 1 = l.length
  · rw [hlast, Nat.mod_self, show l.length - 1 - i = 0 by omega, Nat.zero_add, Nat.mod_eq_of_lt (by omega)]
    omega
  · rw [Nat.mod_eq_of_lt (show i + 1 < l.length by omega),
      show l.length - 1 - i + (l.length - 1) = l.length - 1 - (i + 1) + l.length by omega,
      Nat.add_mod_right, Nat.mod_eq_of_lt (by omega)]

namespace Rotates

theorem keeps_iterate (h : Rotates P place l f) {s : σ} (hs : P s) (k : Nat) : P (f^[k] s) := by
  induction k with
  | zero => exact hs
  | succ k ih =>
    rw [Function.iterate_succ_apply']
    exact h.keeps _ ih

theorem iterate (h : Rotates P place l f) {s : σ} (hs : P s) {i : Nat} (hi : l[i]? = some (place s)) (k : Nat) :
    l[(i + k) % l.length]? = some (place (f^[k] s)) := by
  have hlt := (List.getElem?_eq_some_iff.mp hi).1
  induction k with
  | zero =>
    rw [Nat.add_zero, Nat.mod_eq_of_lt hlt]
    exact hi
  | succ k ih =>
    have hnext := h.next _ _ (h.keeps_iterate hs k) ih
    rw [Nat.mod_add_mod] at hnext
    rw [Function.iterate_succ_apply']
    exact hnext

theorem mem_iterate (h : Rotates P place l f) {s : σ} (hs : P s) (hmem : place s ∈ l) (k : Nat) :
    place (f^[k] s) ∈ l := by
  obtain ⟨i, hi⟩ := List.mem_iff_getElem?.mp hmem
  exact List.mem_of_getElem? (h.iterate hs hi k)

theorem returns (h : Rotates P place l f) {s : σ} (hs : P s) (hmem : place s ∈ l) :
    place (f^[l.length] s) = place s := by
  obtain ⟨i, hi⟩ := List.mem_iff_getElem?.mp hmem
  have hlt := (List.getElem?_eq_some_iff.mp hi).1
  have hback := h.iterate hs hi l.length
  rw [Nat.add_mod_right, Nat.mod_eq_of_lt hlt, hi] at hback
  exact (Option.some.inj hback).symm

/-- The places after each of the moves are the list, turned to where it began. -/
theorem visits (h : Rotates P place l f) {s : σ} (hs : P s) (hmem : place s ∈ l) :
    List.Perm ((List.range l.length).map fun k => place (f^[k + 1] s)) l := by
  obtain ⟨i, hi⟩ := List.mem_iff_getElem?.mp hmem
  have hturned : (List.range l.length).map (fun k => place (f^[k + 1] s)) = l.rotate (i + 1) := by
    apply List.ext_getElem?
    intro k
    by_cases hk : k < l.length
    · have hplace := h.iterate hs hi (k + 1)
      rw [List.getElem?_rotate hk, show k + (i + 1) = i + (k + 1) by omega, hplace]
      simp [hk]
    · rw [List.getElem?_eq_none (by simpa using hk), List.getElem?_eq_none (by simpa using hk)]
  rw [hturned]
  exact List.rotate_perm l (i + 1)

theorem reaches (h : Rotates P place l f) {s : σ} (hs : P s) (hmem : place s ∈ l) {b : β} (hb : b ∈ l) :
    ∃ k < l.length, place (f^[k + 1] s) = b := by
  have := (h.visits hs hmem).mem_iff.mpr hb
  simpa using this

theorem undo (h : Rotates P place l f) (hback : Rotates P place l.reverse g) {s : σ} (hs : P s)
    (hmem : place s ∈ l) : place (g (f s)) = place s := by
  obtain ⟨i, hi⟩ := List.mem_iff_getElem?.mp hmem
  have hlt := (List.getElem?_eq_some_iff.mp hi).1
  have hthere := h.next s i hs hi
  have hmod : (i + 1) % l.length < l.length := Nat.mod_lt _ (by omega)
  rw [← List.getElem?_reverse' (i := l.length - 1 - (i + 1) % l.length) (by omega)] at hthere
  have hagain := hback.next (f s) _ (h.keeps s hs) hthere
  rw [List.length_reverse, List.getElem?_reverse (Nat.mod_lt _ (by omega))] at hagain
  have hsame : l.length - 1 - (l.length - 1 - (i + 1) % l.length + 1) % l.length = i := by
    by_cases hlast : i + 1 = l.length
    · rw [hlast, Nat.mod_self, show l.length - 1 - 0 + 1 = l.length by omega, Nat.mod_self]
      omega
    · rw [Nat.mod_eq_of_lt (show i + 1 < l.length by omega), Nat.mod_eq_of_lt (by omega)]
      omega
  rw [hsame, hi] at hagain
  exact (Option.some.inj hagain).symm

end Rotates

end Nostalgia.Machine
