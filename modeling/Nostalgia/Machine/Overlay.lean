/-
  Nostalgia.Machine.Overlay — writing over some keys of a map and putting them back.

  `putAll f l` writes the pairs of `l` into `f`, the last one of a key wins. `save f t k`
  records the value of `k` in the table `t` unless the table has one already. `Shadows`
  says that a table holds the base map's value of every key that was written since:
  - `shadows_put`: saving a key before writing it keeps it so.
  - `shadows_restore`: writing the table back gives the base map.
  Both only speak of the keys in a set `P`; others may be written by anyone.
-/

import Mathlib

namespace Nostalgia.Machine

variable {κ α : Type*} [DecidableEq κ]

def putAll (f : κ → α) (l : List (κ × α)) : κ → α := l.foldl (fun f p => Function.update f p.1 p.2) f

@[simp] theorem putAll_nil (f : κ → α) : putAll f [] = f := rfl
@[simp] theorem putAll_cons (f : κ → α) (p : κ × α) (l : List (κ × α)) :
    putAll f (p :: l) = putAll (Function.update f p.1 p.2) l := rfl

theorem putAll_append (f : κ → α) (a b : List (κ × α)) : putAll f (a ++ b) = putAll (putAll f a) b :=
  List.foldl_append

theorem putAll_of_not_mem {k : κ} : ∀ (l : List (κ × α)) (f : κ → α), k ∉ l.map Prod.fst → putAll f l k = f k := by
  intro l
  induction l with
  | nil => intro f _; rfl
  | cons p l ih =>
    intro f hk
    simp only [List.map_cons, List.mem_cons, not_or] at hk
    rw [putAll_cons, ih _ hk.2, Function.update_of_ne hk.1]

/-- A written key holds one of the values written to it. -/
theorem putAll_of_mem {k : κ} : ∀ (l : List (κ × α)) (f : κ → α), k ∈ l.map Prod.fst → (k, putAll f l k) ∈ l := by
  intro l
  induction l with
  | nil => intro f hk; cases hk
  | cons p l ih =>
    intro f hk
    rw [putAll_cons]
    by_cases hl : k ∈ l.map Prod.fst
    · exact List.mem_cons_of_mem _ (ih _ hl)
    · have hp : k = p.1 := by
        rcases List.mem_cons.mp hk with h | h
        · exact h
        · exact absurd h hl
      rw [putAll_of_not_mem l _ hl, hp, Function.update_self]
      exact List.mem_cons_self

theorem putAll_of_nodup {l : List (κ × α)} (hl : (l.map Prod.fst).Nodup) (f : κ → α) {p : κ × α} (hp : p ∈ l) :
    putAll f l p.1 = p.2 := by
  have hmem := putAll_of_mem l f (List.mem_map_of_mem hp)
  have := List.inj_on_of_nodup_map hl hmem hp rfl
  exact congrArg Prod.snd this

omit [DecidableEq κ] in
/-- A map that holds the values of pairs with different values has their keys different. -/
theorem nodup_keys_of_holds {l : List (κ × α)} (hv : (l.map Prod.snd).Nodup) {f : κ → α}
    (hf : ∀ p ∈ l, f p.1 = p.2) : (l.map Prod.fst).Nodup := by
  have hval : l.map Prod.snd = (l.map Prod.fst).map f := by
    rw [List.map_map]
    refine List.map_congr_left fun p hp => ?_
    exact (hf p hp).symm
  rw [hval] at hv
  exact hv.of_map f

/-! ## Saving and restoring -/

def save (f : κ → α) (t : List (κ × α)) (k : κ) : List (κ × α) :=
  if k ∈ t.map Prod.fst then t else t ++ [(k, f k)]

/-- Within `P` the table `t` has the `base` value of every key in it, and every other key
    of `f` is as in `base`. -/
structure Shadows (P : κ → Prop) (base f : κ → α) (t : List (κ × α)) : Prop where
  saved : ∀ p ∈ t, P p.1 → p.2 = base p.1
  outside : ∀ k, P k → k ∉ t.map Prod.fst → f k = base k

variable {P : κ → Prop} {base f : κ → α} {t : List (κ × α)}

omit [DecidableEq κ] in
theorem shadows_nil (h : ∀ k, P k → f k = base k) : Shadows P base f [] :=
  ⟨fun _ hp => absurd hp List.not_mem_nil, fun k hk _ => h k hk⟩

theorem shadows_put (h : Shadows P base f t) (k : κ) (a : α) :
    Shadows P base (Function.update f k a) (save f t k) := by
  unfold save
  split
  · rename_i hk
    refine ⟨h.saved, fun k' hP hk' => ?_⟩
    have hne : k' ≠ k := fun he => hk' (he ▸ hk)
    rw [Function.update_of_ne hne]
    exact h.outside k' hP hk'
  · rename_i hk
    refine ⟨fun p hp hP => ?_, fun k' hP hk' => ?_⟩
    · rcases List.mem_append.mp hp with hp | hp
      · exact h.saved p hp hP
      · obtain rfl := List.mem_singleton.mp hp
        exact h.outside k hP hk
    · simp only [List.map_append, List.mem_append, not_or, List.map_cons, List.map_nil, List.mem_singleton] at hk'
      rw [Function.update_of_ne hk'.2]
      exact h.outside k' hP hk'.1

omit [DecidableEq κ] in
/-- Writes outside `P` do not matter. -/
theorem Shadows.congr (h : Shadows P base f t) {f' : κ → α} (hf : ∀ k, P k → f' k = f k) : Shadows P base f' t :=
  ⟨h.saved, fun k hk hmem => (hf k hk).trans (h.outside k hk hmem)⟩

theorem shadows_restore (h : Shadows P base f t) {k : κ} (hk : P k) : putAll f t k = base k := by
  by_cases hmem : k ∈ t.map Prod.fst
  · exact h.saved _ (putAll_of_mem t f hmem) hk
  · rw [putAll_of_not_mem t f hmem]
    exact h.outside k hk hmem

end Nostalgia.Machine
