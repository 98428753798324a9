/-
  Nostalgia.MacroManager.FirstFit — `GetEffectiveStep` over any chain and any notion of
  an available step (DinoMacroManager.lua).

  Here the entries of a chain are of any type, `available` is any predicate on them, and
  the stored position is any integer or missing, as an edited SavedVariables file may
  have it.
  - `effectiveStep_firstFit`: the step chosen is the available one at the smallest cyclic
    distance from the start index, or the start index itself if none is available.
  - `getEffectiveStep_eq`: the chains of the AddOn, with what the client says of a step,
    are an instance.
-/

import Nostalgia.MacroManager.Chain

namespace Nostalgia.MacroManager

open Nostalgia.Lua

variable {α : Type*}

/-! ## The search -/

/-- `slot.current or 1`, and 1 where that is out of range. -/
def startIndex (count : Nat) (current : Option Int) : Int :=
  let current := current.getD 1
  if current < 1 ∨ (count : Int) < current then 1 else current

/-- The entry at a step index is there and available. -/
def availableAt (available : α → Bool) (spells : Arr α) (stepIndex : Int) : Bool :=
  (get spells stepIndex.toNat).any available

/-- The loop over the offsets still to try; `math.mod` truncates. -/
def firstStep (available : α → Bool) (spells : Arr α) (count : Nat) (current : Int) : List Nat → Option Int
  | [] => none
  | offset :: rest =>
    let stepIndex := Int.tmod (current - 1 + offset) count + 1
    if availableAt available spells stepIndex then some stepIndex else firstStep available spells count current rest

/-- `DMM.GetEffectiveStep`. -/
def effectiveStep (available : α → Bool) (spells : Arr α) (current : Option Int) : Int :=
  let count := getn spells
  if count = 0 then 1
  else
    let current := startIndex count current
    (firstStep available spells count current (List.range count)).getD current

/-- How many steps `i` lies behind `start`, going round. -/
def cyclicDistance (count : Nat) (start i : Int) : Int := (i - start) % count

/-! ## The search visits the steps in cyclic order -/

theorem startIndex_eq {count : Nat} (h : 1 ≤ count) (current : Option Int) :
    ∃ m : Nat, startIndex count current = m ∧ 1 ≤ m ∧ m ≤ count := by
  unfold startIndex
  dsimp only
  split
  · exact ⟨1, rfl, Nat.le_refl _, h⟩
  · refine ⟨(current.getD 1).toNat, ?_, ?_, ?_⟩ <;> omega

theorem stepIndex_eq (count offset : Nat) {m : Nat} (hm : 1 ≤ m) :
    Int.tmod ((m : Int) - 1 + offset) count + 1 = (cyclic count m offset : Nat) := by
  have hcast : (m : Int) - 1 + offset = ((m - 1 + offset : Nat) : Int) := by omega
  rw [hcast, Int.tmod_eq_emod_of_nonneg (Int.natCast_nonneg _)]
  unfold cyclic
  push_cast
  rfl

theorem firstStep_find (available : α → Bool) (spells : Arr α) (count : Nat) {m : Nat} (hm : 1 ≤ m) :
    ∀ offsets : List Nat, firstStep available spells count m offsets =
      ((offsets.map (cyclic count m)).find? fun i : Nat => availableAt available spells (i : Int)).map Nat.cast := by
  intro offsets
  induction offsets with
  | nil => rfl
  | cons offset rest ih =>
    simp only [firstStep, List.map_cons, List.find?_cons]
    rw [stepIndex_eq count offset hm, ih]
    cases availableAt available spells (cyclic count m offset : Nat) with
    | true => rfl
    | false => rfl

/-- The distance of a step is the offset it is visited at. -/
theorem cyclicDistance_cyclic {count m offset : Nat} (hm : 1 ≤ m) (ho : offset < count) :
    cyclicDistance count m (cyclic count m offset : Nat) = offset := by
  unfold cyclicDistance cyclic
  have hcast : (((m - 1 + offset) % count + 1 : Nat) : Int) - m = ((m : Int) - 1 + offset) % count - (m - 1) := by
    have hm' : ((m - 1 : Nat) : Int) = m - 1 := by omega
    push_cast
    rw [hm']
    omega
  rw [hcast, Int.emod_sub_emod]
  have hsub : (m : Int) - 1 + offset - (m - 1) = offset := by omega
  rw [hsub]
  exact Int.emod_eq_of_lt (by omega) (by omega)

/-- What the search finds: the first available step, at the least distance. -/
theorem find_cyclic {p : Nat → Bool} {count m r : Nat} (h : ((List.range count).map (cyclic count m)).find? p = some r) :
    p r = true ∧ ∃ o < count, cyclic count m o = r ∧ ∀ o' < o, p (cyclic count m o') = false := by
  rw [List.find?_map] at h
  obtain ⟨o, ho, rfl⟩ := Option.map_eq_some_iff.mp h
  rw [List.find?_range_eq_some] at ho
  obtain ⟨hp, hmem, hbefore⟩ := ho
  exact ⟨hp, o, List.mem_range.mp hmem, rfl, fun o' h' => by simpa using hbefore o' h'⟩

/-! ## First fit -/

theorem effectiveStep_eq (available : α → Bool) (spells : Arr α) (current : Option Int) (h : 1 ≤ getn spells) {m : Nat}
    (hstart : startIndex (getn spells) current = m) (hm : 1 ≤ m) :
    effectiveStep available spells current =
      ((((List.range (getn spells)).map (cyclic (getn spells) m)).find? fun i : Nat => availableAt available spells (i : Int)).getD m
        : Nat) := by
  unfold effectiveStep
  dsimp only
  rw [if_neg (by omega), hstart, firstStep_find available spells _ hm]
  cases ((List.range (getn spells)).map (cyclic (getn spells) m)).find? fun i : Nat => availableAt available spells (i : Int) with
  | none => rfl
  | some r => rfl

/-- For every chain with steps, every stored position and every notion of an available
    step: the result is a step; it is available if any is, and then nearer to the start
    index than any other available step; otherwise it is the start index. -/
theorem effectiveStep_firstFit (available : α → Bool) (spells : Arr α) (current : Option Int) (h : 1 ≤ getn spells) :
    let n := getn spells
    let start := startIndex n current
    let r := effectiveStep available spells current
    (1 ≤ r ∧ r ≤ n) ∧
      ((∃ i : Int, 1 ≤ i ∧ i ≤ n ∧ availableAt available spells i = true) → availableAt available spells r = true ∧
        ∀ i : Int, 1 ≤ i → i ≤ n → availableAt available spells i = true → i ≠ r →
          cyclicDistance n start r < cyclicDistance n start i) ∧
      ((∀ i : Int, 1 ≤ i → i ≤ n → availableAt available spells i = false) → r = start) := by
  intro n start r
  obtain ⟨m, hstart, hm1, hm2⟩ := startIndex_eq h current
  have hr : r = _ := effectiveStep_eq available spells current h hstart hm1
  -- a step is visited at some offset
  have hvisit : ∀ i : Int, 1 ≤ i → i ≤ n → ∃ o < n, ((cyclic n m o : Nat) : Int) = i := by
    intro i h1 h2
    obtain ⟨o, ho, hi⟩ := cyclic_surj (i := i.toNat) hm1 hm2 (by omega) (by omega)
    refine ⟨o, ho, ?_⟩
    show ((cyclic (getn spells) m o : Nat) : Int) = i
    omega
  cases hf : ((List.range n).map (cyclic n m)).find? fun i : Nat => availableAt available spells (i : Int) with
  | none =>
    have hnone : ∀ i : Int, 1 ≤ i → i ≤ n → availableAt available spells i = false := by
      intro i h1 h2
      obtain ⟨o, ho, rfl⟩ := hvisit i h1 h2
      simpa using List.find?_eq_none.mp hf _ (List.mem_map_of_mem (List.mem_range.mpr ho))
    have hrm : r = m := by rw [hr, hf]; rfl
    refine ⟨by omega, fun ⟨i, h1, h2, hi⟩ => ?_, fun _ => hrm.trans hstart.symm⟩
    rw [hnone i h1 h2] at hi
    cases hi
  | some s =>
    obtain ⟨hs, o, ho, rfl, hbefore⟩ := find_cyclic hf
    have hrs : r = (cyclic n m o : Nat) := by rw [hr, hf]; rfl
    have hpos := cyclic_pos n m o
    have hle : cyclic n m o ≤ n := cyclic_le h m o
    refine ⟨by omega, fun _ => ⟨hrs ▸ hs, fun i h1 h2 hi hne => ?_⟩, fun hno => ?_⟩
    · obtain ⟨o', ho', rfl⟩ := hvisit i h1 h2
      have hstart' : start = (m : Int) := hstart
      rw [hrs, hstart', cyclicDistance_cyclic hm1 ho, cyclicDistance_cyclic hm1 ho']
      rcases Nat.lt_trichotomy o o' with hlt | rfl | hgt
      · exact_mod_cast hlt
      · exact absurd hrs.symm hne
      · rw [hbefore o' hgt] at hi
        cases hi
    · rw [hno _ (by omega) (by omega)] at hs
      cases hs

/-- A chain of three steps of which the second and third can be used; the position 7 is
    none of them, so the search begins at the first. -/
theorem three_steps_wrap :
    let spells : Arr Nat := [some 10, some 20, some 30]
    let start := startIndex 3 (some 7)
    let r := effectiveStep (fun x => decide (20 ≤ x)) spells (some 7)
    (1 ≤ r ∧ r ≤ 3) ∧
      ((∃ i : Int, 1 ≤ i ∧ i ≤ 3 ∧ availableAt (fun x => decide (20 ≤ x)) spells i = true) →
        availableAt (fun x => decide (20 ≤ x)) spells r = true ∧
        ∀ i : Int, 1 ≤ i → i ≤ 3 → availableAt (fun x => decide (20 ≤ x)) spells i = true → i ≠ r →
          cyclicDistance 3 start r < cyclicDistance 3 start i) ∧
      ((∀ i : Int, 1 ≤ i → i ≤ 3 → availableAt (fun x => decide (20 ≤ x)) spells i = false) → r = start) :=
  effectiveStep_firstFit (fun x => decide (20 ≤ x)) [some 10, some 20, some 30] (some 7) (by decide)

example : effectiveStep (fun x => decide (x ≤ 10)) [some 10, some 20, some 30] (some 3) = 1 := by decide

/-! ## The AddOn's chains -/

theorem startIndex_current (count current : Nat) : startIndex count (some (current : Int)) = normalised count current := by
  unfold startIndex normalised
  simp only [Option.getD_some]
  split <;> split <;> omega

/-- `GetEffectiveStep` on a slot is the search with what the client says of its steps. -/
theorem getEffectiveStep_eq (c : Client) (slot : Slot) :
    ((getEffectiveStep c slot).1 : Int) = effectiveStep (available c) slot.spells.steps (some (slot.current : Int)) := by
  by_cases hn : getn slot.spells.steps = 0
  · rw [getEffectiveStep_first, if_pos hn]
    simp [effectiveStep, hn]
  · have hmem := normalised_mem (Nat.pos_of_ne_zero hn) slot.current
    rw [effectiveStep_eq (available c) slot.spells.steps _ (by omega) (startIndex_current _ _) hmem.1,
      getEffectiveStep_first, if_neg hn]
    rfl

end Nostalgia.MacroManager
