/-
  Nostalgia.Lua.Table — the array part of a Lua 5.0 table.

  A table holds keys 1, 2, ... up to the length of the list; `none` is a hole (a nil
  entry). `getn` counts up to the first hole, `tinsert` writes behind that count, and an
  entry is replaced in place with `put`. `get_isSome` is what makes the count useful:
  every key up to `getn` has an entry. `filter_isSome_eq_iff` compares a table that may
  have holes with one that has none.
-/

import Mathlib

namespace Nostalgia.Lua

variable {α β : Type*}

/-- The array part of a table; position `k` of the list is key `k + 1`. -/
abbrev Arr (α : Type*) := List (Option α)

/-- `t[i]`. -/
def get (t : Arr α) : Nat → Option α
  | 0 => none
  | i + 1 => t[i]?.join

/-- `t[i] = v` at a key the table already has. -/
def put (t : Arr α) : Nat → α → Arr α
  | 0, _ => t
  | i + 1, v => t.set i (some v)

/-- `table.getn(t)`: entries before the first hole. -/
def getn (t : Arr α) : Nat := (t.takeWhile Option.isSome).length

/-- `table.insert(t, v)`: writes key `getn(t) + 1`. -/
def tinsert (t : Arr α) (v : α) : Arr α := t.take (getn t) ++ some v :: t.drop (getn t + 1)

/-- No holes. -/
def Full (t : Arr α) : Prop := ∀ x ∈ t, x.isSome = true

/-! ## Counting -/

@[simp] theorem get_zero (t : Arr α) : get t 0 = none := rfl
@[simp] theorem get_nil (i : Nat) : get ([] : Arr α) i = none := by cases i <;> rfl
@[simp] theorem get_cons_one (x : Option α) (t : Arr α) : get (x :: t) 1 = x := by simp [get]
@[simp] theorem get_cons_succ (x : Option α) (t : Arr α) (i : Nat) : get (x :: t) (i + 2) = get t (i + 1) := rfl
@[simp] theorem getn_nil : getn ([] : Arr α) = 0 := rfl
@[simp] theorem getn_none_cons (t : Arr α) : getn (none :: t) = 0 := rfl
@[simp] theorem getn_some_cons (x : α) (t : Arr α) : getn (some x :: t) = getn t + 1 := by
  simp [getn]

theorem getn_eq_length {t : Arr α} (h : Full t) : getn t = t.length := by
  induction t with
  | nil => rfl
  | cons x t ih =>
    obtain ⟨a, rfl⟩ := Option.isSome_iff_exists.mp (h x (List.mem_cons_self ..))
    rw [getn_some_cons, List.length_cons, ih (fun y hy => h y (List.mem_cons_of_mem _ hy))]

/-- Every key up to the count has an entry. -/
theorem get_isSome : ∀ (t : Arr α) {i : Nat}, 1 ≤ i → i ≤ getn t → ∃ a, get t i = some a := by
  intro t
  induction t with
  | nil => intro i h1 h2; simp at h2; omega
  | cons x t ih =>
    intro i h1 h2
    cases x with
    | none => simp at h2; omega
    | some a =>
      rw [getn_some_cons] at h2
      match i, h1 with
      | 1, _ => exact ⟨a, by simp⟩
      | i + 2, _ => simpa using @ih (i + 1) (by omega) (by omega)

/-- The key behind the count has none. -/
theorem get_past_getn : ∀ t : Arr α, get t (getn t + 1) = none := by
  intro t
  induction t with
  | nil => rfl
  | cons x t ih =>
    cases x with
    | none => rfl
    | some a => rw [getn_some_cons, get_cons_succ]; exact ih

theorem get_mem {t : Arr α} {i : Nat} {a : α} (h : get t i = some a) : some a ∈ t := by
  cases i with
  | zero => simp at h
  | succ i =>
    simp only [get, Option.join_eq_some_iff] at h
    exact List.mem_of_getElem? h

/-! ## Mapping entries -/

/-- The table with every entry mapped. -/
def mapEntries (f : α → β) (t : Arr α) : Arr β := t.map (Option.map f)

@[simp] theorem mapEntries_nil (f : α → β) : mapEntries f [] = [] := rfl
@[simp] theorem mapEntries_cons (f : α → β) (x : Option α) (t : Arr α) :
    mapEntries f (x :: t) = x.map f :: mapEntries f t := rfl
@[simp] theorem length_mapEntries (f : α → β) (t : Arr α) : (mapEntries f t).length = t.length := by
  simp [mapEntries]

@[simp] theorem getn_mapEntries (f : α → β) (t : Arr α) : getn (mapEntries f t) = getn t := by
  induction t with
  | nil => rfl
  | cons x t ih => cases x <;> simp [ih]

theorem get_mapEntries (f : α → β) (t : Arr α) (i : Nat) : get (mapEntries f t) i = (get t i).map f := by
  cases i with
  | zero => rfl
  | succ i =>
    simp only [get, mapEntries, List.getElem?_map]
    cases t[i]? with
    | none => rfl
    | some x => cases x <;> rfl

theorem full_mapEntries {f : α → β} {t : Arr α} : Full (mapEntries f t) ↔ Full t := by
  simp [Full, mapEntries]

/-- Replacing an entry by one with the same image leaves the mapped table as it was. -/
theorem mapEntries_put (f : α → β) {t : Arr α} {i : Nat} {a b : α} (h : get t i = some a) (hf : f b = f a) :
    mapEntries f (put t i b) = mapEntries f t := by
  cases i with
  | zero => simp at h
  | succ i =>
    simp only [get, Option.join_eq_some_iff] at h
    have hi : (t.map (Option.map f))[i]? = some (some (f a)) := by simp [h]
    refine List.ext_getElem? fun j => ?_
    simp only [put, mapEntries, List.map_set, Option.map_some, hf]
    rcases eq_or_ne i j with rfl | hj
    · rw [List.getElem?_set_self (List.getElem?_eq_some_iff.mp hi).1]; exact hi.symm
    · rw [List.getElem?_set_ne hj]

theorem get_put_ne (t : Arr α) {i j : Nat} (v : α) (h : j ≠ i) : get (put t i v) j = get t j := by
  cases i with
  | zero => rfl
  | succ i =>
    cases j with
    | zero => rfl
    | succ j => simp only [get, put]; rw [List.getElem?_set_ne (by omega)]

theorem get_put_self {t : Arr α} {i : Nat} {a : α} (v : α) (h : get t i = some a) : get (put t i v) i = some v := by
  cases i with
  | zero => simp at h
  | succ i =>
    simp only [get, Option.join_eq_some_iff] at h
    have hi : i < t.length := (List.getElem?_eq_some_iff.mp h).1
    simp [get, put, hi]

/-! ## Inserting -/

theorem tinsert_full {t : Arr α} (h : Full t) (v : α) : tinsert t v = t ++ [some v] := by
  simp [tinsert, getn_eq_length h]

theorem full_append {t : Arr α} (h : Full t) (v : α) : Full (t ++ [some v]) := by
  intro x hx
  rcases List.mem_append.mp hx with hx | hx
  · exact h x hx
  · simp at hx; subst hx; rfl

/-! ## Holes -/

/-- A missing entry before an entry. -/
def Hole (t : Arr α) : Prop := ∃ i j, 1 ≤ i ∧ i < j ∧ get t i = none ∧ get t j ≠ none

theorem hole_some_cons (a : α) (t : Arr α) : Hole (some a :: t) ↔ Hole t := by
  constructor
  · rintro ⟨i, j, h1, hij, hi, hj⟩
    obtain ⟨i, rfl⟩ : ∃ i', i = i' + 1 := ⟨i - 1, by omega⟩
    obtain ⟨j, rfl⟩ : ∃ j', j = j' + 2 := ⟨j - 2, by omega⟩
    cases i with
    | zero => simp at hi
    | succ i => exact ⟨i + 1, j + 1, by omega, by omega, by simpa using hi, by simpa using hj⟩
  · rintro ⟨i, j, h1, hij, hi, hj⟩
    obtain ⟨i, rfl⟩ : ∃ i', i = i' + 1 := ⟨i - 1, by omega⟩
    obtain ⟨j, rfl⟩ : ∃ j', j = j' + 1 := ⟨j - 1, by omega⟩
    exact ⟨i + 2, j + 2, by omega, by omega, by simpa using hi, by simpa using hj⟩

theorem hole_none_cons (t : Arr α) : Hole (none :: t) ↔ t.filter Option.isSome ≠ [] := by
  rw [ne_eq, List.filter_eq_nil_iff, not_forall]
  constructor
  · rintro ⟨i, j, h1, hij, _, hj⟩
    obtain ⟨j, rfl⟩ : ∃ j', j = j' + 2 := ⟨j - 2, by omega⟩
    rw [get_cons_succ] at hj
    obtain ⟨a, ha⟩ := Option.ne_none_iff_exists'.mp hj
    exact ⟨some a, fun h => h (get_mem ha) rfl⟩
  · rintro ⟨x, hx⟩
    have hmem : x ∈ t := by
      by_contra hno
      exact hx fun h => absurd h hno
    have hsome : x.isSome = true := by
      by_contra hno
      exact hx fun _ => hno
    obtain ⟨k, hk⟩ := List.mem_iff_getElem?.mp hmem
    refine ⟨1, k + 2, by omega, by omega, by simp, ?_⟩
    rw [get_cons_succ]
    simp only [get, hk, Option.join_some]
    exact Option.ne_none_iff_isSome.mpr hsome

/-- The entries of a table are those of a full one and have no hole between them exactly
    when there are as many and the tables agree key by key. -/
theorem filter_isSome_eq_iff (t : Arr α) : ∀ {s : Arr α}, Full s →
    ((t.filter Option.isSome = s ∧ ¬ Hole t) ↔
      ((t.filter Option.isSome).length = s.length ∧ ∀ i, 1 ≤ i → i ≤ s.length → get t i = get s i)) := by
  induction t with
  | nil =>
    intro s hs
    have hno : ¬ Hole ([] : Arr α) := by
      rintro ⟨i, j, _, _, _, hj⟩
      exact hj (get_nil j)
    constructor
    · rintro ⟨rfl, _⟩
      exact ⟨rfl, fun i _ _ => rfl⟩
    · rintro ⟨hlen, _⟩
      exact ⟨(List.length_eq_zero_iff.mp hlen.symm).symm, hno⟩
  | cons x t ih =>
    intro s hs
    cases x with
    | none =>
      rw [hole_none_cons, List.filter_cons_of_neg (by simp), not_not]
      constructor
      · rintro ⟨rfl, hnil⟩
        refine ⟨rfl, fun i h1 h2 => ?_⟩
        rw [hnil] at h2
        simp at h2
        omega
      · rintro ⟨hlen, hkeys⟩
        cases s with
        | nil =>
          have hnil := List.length_eq_zero_iff.mp hlen
          exact ⟨hnil, hnil⟩
        | cons y s =>
          -- the first key of a full table has an entry
          have h1 := hkeys 1 (Nat.le_refl _) (by simp)
          rw [get_cons_one, get_cons_one] at h1
          have hy := hs y List.mem_cons_self
          rw [← h1] at hy
          cases hy
    | some a =>
      rw [hole_some_cons, List.filter_cons_of_pos rfl]
      cases s with
      | nil => simp
      | cons y s =>
        have hs' : Full s := fun z hz => hs z (List.mem_cons_of_mem _ hz)
        have hrest := ih hs'
        rw [List.cons.injEq, List.length_cons, List.length_cons, Nat.add_right_cancel_iff, and_assoc, hrest]
        constructor
        · rintro ⟨rfl, hlen, hkeys⟩
          refine ⟨hlen, fun i h1 h2 => ?_⟩
          rcases i with _ | _ | i
          · omega
          · simp
          · simpa using hkeys (i + 1) (by omega) (by omega)
        · rintro ⟨hlen, hkeys⟩
          refine ⟨?_, hlen, fun i h1 h2 => ?_⟩
          · simpa using hkeys 1 (Nat.le_refl _) (by omega)
          · obtain ⟨i, rfl⟩ : ∃ i', i = i' + 1 := ⟨i - 1, by omega⟩
            simpa using hkeys (i + 2) (by omega) (by omega)

end Nostalgia.Lua
