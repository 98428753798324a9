/-
  Nostalgia.Machine.Climb — moves to the nearest place that lies further on.

  `LeastAt d i` says that among the places where `d` has a value it is least at `i`, the
  first such place. `dist d i j` is how far `j` lies from `i` in direction `d`, if it lies
  there at all; `Hop dist` moves to the nearest place in some direction.
  - `search_eq_some_iff`: one pass that keeps the best so far and starts with a bound ends
    at the first least value below the bound.
  - `iterate_revisit`, `iterate_stops`: a step that stays or rises along a measure never
    comes back to a place it left, and stops before it has seen every place twice;
    `iterate_reaches`: one along which a measure keeps falling reaches its end.
  - `closed_has_edge`: places no hop leaves have, in each direction, one behind which
    nothing lies.
  - `all_reachable_iff`: so every place can be reached from every other exactly if a hop
    leaves every proper part of them that has such an edge in each direction.
-/

import Mathlib

namespace Nostalgia.Machine

/-! ## The first least value -/

section Least

variable {ι β : Type*} [LinearOrder ι] [LinearOrder β]

def LeastAt (d : ι → Option β) (i : ι) : Prop :=
  ∃ b, d i = some b ∧ ∀ j b', d j = some b' → b < b' ∨ b = b' ∧ i ≤ j

variable {d : ι → Option β}

theorem LeastAt.unique {i j : ι} (hi : LeastAt d i) (hj : LeastAt d j) : i = j := by
  obtain ⟨b, hb, hleast⟩ := hi
  obtain ⟨b', hb', hleast'⟩ := hj
  apply le_antisymm
  · rcases hleast j b' hb' with hlt | ⟨_, hle⟩
    · rcases hleast' i b hb with hlt' | ⟨rfl, _⟩
      · exact absurd hlt' hlt.asymm
      · exact absurd hlt (lt_irrefl _)
    · exact hle
  · rcases hleast' i b hb with hlt | ⟨_, hle⟩
    · rcases hleast j b' hb' with hlt' | ⟨rfl, _⟩
      · exact absurd hlt' hlt.asymm
      · exact absurd hlt (lt_irrefl _)
    · exact hle

theorem exists_leastAt (hfinite : { i | d i ≠ none }.Finite) {i : ι} (hi : d i ≠ none) : ∃ j, LeastAt d j := by
  obtain ⟨b, hb⟩ := Option.ne_none_iff_exists'.mp hi
  let values : Set (β ×ₗ ι) := { p | d (ofLex p).2 = some (ofLex p).1 }
  have hmaps : Set.MapsTo (fun p : β ×ₗ ι => (ofLex p).2) values { i | d i ≠ none } := by
    intro p hp
    have hp' : d (ofLex p).2 = some (ofLex p).1 := hp
    show d (ofLex p).2 ≠ none
    simp [hp']
  have hinj : Set.InjOn (fun p : β ×ₗ ι => (ofLex p).2) values := by
    intro p hp q hq hpq
    have hp' : d (ofLex p).2 = some (ofLex p).1 := hp
    have hq' : d (ofLex q).2 = some (ofLex q).1 := hq
    rw [show (ofLex p).2 = (ofLex q).2 from hpq, hq'] at hp'
    exact Prod.ext (Option.some.inj hp').symm hpq
  obtain ⟨p, hp, hleast⟩ := Set.exists_min_image values id (Set.Finite.of_injOn hmaps hinj hfinite) ⟨toLex (b, i), hb⟩
  refine ⟨(ofLex p).2, (ofLex p).1, hp, fun j b' hj => ?_⟩
  have hle : p ≤ toLex (b', j) := hleast (toLex (b', j)) hj
  exact Prod.Lex.le_iff.mp hle

/-- The same among the places `g` numbers in order, if `d` has no value elsewhere. -/
theorem leastAt_map_iff {κ : Type*} [LinearOrder κ] {g : κ → ι} (hg : StrictMono g)
    (hd : ∀ i b, d i = some b → ∃ k, g k = i) {k : κ} : LeastAt d (g k) ↔ LeastAt (fun k => d (g k)) k := by
  constructor
  · rintro ⟨b, hb, hleast⟩
    refine ⟨b, hb, fun k' b' hk' => ?_⟩
    rw [← hg.le_iff_le]
    exact hleast (g k') b' hk'
  · rintro ⟨b, hb, hleast⟩
    refine ⟨b, hb, fun j b' hj => ?_⟩
    obtain ⟨k', rfl⟩ := hd j b' hj
    rw [hg.le_iff_le]
    exact hleast k' b' hj

/-! ### One pass with a bound -/

/-- A strictly smaller value replaces the best so far. -/
def better (d : ι → Option β) (best : Option ι × β) (i : ι) : Option ι × β :=
  match d i with
  | some b => if b < best.2 then (some i, b) else best
  | none => best

def search (d : ι → Option β) (bound : β) (places : List ι) : Option ι × β := places.foldl (better d) (none, bound)

/-- The values below the bound. -/
def capped (d : ι → Option β) (bound : β) (i : ι) : Option β := (d i).filter (· < bound)

omit [LinearOrder ι] in
theorem capped_eq_some {bound b : β} {i : ι} : capped d bound i = some b ↔ d i = some b ∧ b < bound := by
  simp [capped]

omit [LinearOrder ι] in
theorem capped_of_lt {bound : β} (h : ∀ i b, d i = some b → b < bound) : capped d bound = d := by
  funext i
  cases hi : d i with
  | none => simp [capped, hi]
  | some b => exact capped_eq_some.mpr ⟨hi, h i b hi⟩

omit [LinearOrder ι] in
theorem better_of_lt {best : Option ι × β} {i : ι} {b : β} (hd : d i = some b) (hlt : b < best.2) :
    better d best i = (some i, b) := by
  simp [better, hd, hlt]

omit [LinearOrder ι] in
theorem better_of_not {best : Option ι × β} {i : ι} (h : ∀ b, d i = some b → ¬ b < best.2) : better d best i = best := by
  cases hd : d i with
  | none => simp [better, hd]
  | some b => simp [better, hd, h b hd]

/-- What the pass has found among the places behind it. -/
def Found (d : ι → Option β) (bound : β) (places : List ι) (best : Option ι × β) : Prop :=
  match best.1 with
  | none => best.2 = bound ∧ ∀ j ∈ places, capped d bound j = none
  | some i => i ∈ places ∧ capped d bound i = some best.2 ∧
      ∀ j ∈ places, ∀ b', capped d bound j = some b' → best.2 < b' ∨ best.2 = b' ∧ i ≤ j

/-- A smaller value at the next place. -/
theorem found_smaller {bound b : β} {places : List ι} {best : Option ι × β} (h : Found d bound places best) {k : ι}
    (hb : capped d bound k = some b) (hlt : b < best.2) : Found d bound (places ++ [k]) (some k, b) := by
  refine ⟨by simp, hb, fun j hj b' hb' => ?_⟩
  rcases List.mem_append.mp hj with hj | hj
  · left
    obtain ⟨found, least⟩ := best
    cases found with
    | none =>
      rw [h.2 j hj] at hb'
      cases hb'
    | some i =>
      rcases h.2.2 j hj b' hb' with hlt' | ⟨heq, _⟩
      · exact hlt.trans hlt'
      · exact heq ▸ hlt
  · obtain rfl := List.mem_singleton.mp hj
    rw [hb] at hb'
    exact Or.inr ⟨Option.some.inj hb', le_refl _⟩

/-- No smaller value at the next place. -/
theorem found_same {bound : β} {places : List ι} {best : Option ι × β} (h : Found d bound places best) {k : ι}
    (hk : ∀ j ∈ places, j < k) (hge : ∀ b, d k = some b → ¬ b < best.2) : Found d bound (places ++ [k]) best := by
  obtain ⟨found, least⟩ := best
  cases found with
  | none =>
    obtain ⟨rfl, hnone⟩ := h
    refine ⟨rfl, fun j hj => ?_⟩
    rcases List.mem_append.mp hj with hj | hj
    · exact hnone j hj
    · obtain rfl := List.mem_singleton.mp hj
      by_contra hvalue
      obtain ⟨b, hb⟩ := Option.ne_none_iff_exists'.mp hvalue
      obtain ⟨hd, hlt⟩ := capped_eq_some.mp hb
      exact hge b hd hlt
  | some i =>
    obtain ⟨hi, hvalue, hleast⟩ := h
    refine ⟨by simp [hi], hvalue, fun j hj b' hb' => ?_⟩
    rcases List.mem_append.mp hj with hj | hj
    · exact hleast j hj b' hb'
    · obtain rfl := List.mem_singleton.mp hj
      obtain ⟨hd, _⟩ := capped_eq_some.mp hb'
      rcases lt_or_eq_of_le (not_lt.mp (hge b' hd)) with hlt | heq
      · exact Or.inl hlt
      · exact Or.inr ⟨heq, (hk i hi).le⟩

theorem found_le {bound : β} {places : List ι} {best : Option ι × β} (h : Found d bound places best) : best.2 ≤ bound := by
  obtain ⟨found, least⟩ := best
  cases found with
  | none => exact h.1.le
  | some i => exact (capped_eq_some.mp h.2.1).2.le

theorem found_better {bound : β} {places : List ι} {best : Option ι × β} (h : Found d bound places best) {k : ι}
    (hk : ∀ j ∈ places, j < k) : Found d bound (places ++ [k]) (better d best k) := by
  by_cases hsmaller : ∃ b, d k = some b ∧ b < best.2
  · obtain ⟨b, hd, hlt⟩ := hsmaller
    rw [better_of_lt hd hlt]
    exact found_smaller h (capped_eq_some.mpr ⟨hd, hlt.trans_le (found_le h)⟩) hlt
  · have hge : ∀ b, d k = some b → ¬ b < best.2 := fun b hd hlt => hsmaller ⟨b, hd, hlt⟩
    rw [better_of_not hge]
    exact found_same h hk hge

theorem search_found (bound : β) (places : List ι) (hsorted : places.Pairwise (· < ·)) :
    Found d bound places (search d bound places) := by
  induction places using List.reverseRecOn with
  | nil => exact ⟨rfl, fun j hj => by cases hj⟩
  | append_singleton places k ih =>
    obtain ⟨hplaces, _, hk⟩ := List.pairwise_append.mp hsorted
    have hstep : search d bound (places ++ [k]) = better d (search d bound places) k := by
      simp [search, List.foldl_append]
    rw [hstep]
    exact found_better (ih hplaces) fun j hj => hk j hj k (List.mem_singleton_self k)

theorem search_eq_some_iff {bound : β} {places : List ι} (hsorted : places.Pairwise (· < ·))
    (hplaces : ∀ i b, d i = some b → i ∈ places) {i : ι} :
    (search d bound places).1 = some i ↔ LeastAt (capped d bound) i := by
  have hfound := search_found (d := d) bound places hsorted
  have hlisted : ∀ j b, capped d bound j = some b → j ∈ places := fun j b hj => hplaces j b (capped_eq_some.mp hj).1
  generalize search d bound places = best at hfound
  obtain ⟨found, least⟩ := best
  cases found with
  | none =>
    constructor
    · intro h
      cases h
    · rintro ⟨b, hb, _⟩
      rw [hfound.2 i (hlisted i b hb)] at hb
      cases hb
  | some k =>
    have hk : LeastAt (capped d bound) k :=
      ⟨least, hfound.2.1, fun j b' hj => hfound.2.2 j (hlisted j b' hj) b' hj⟩
    constructor
    · intro h
      obtain rfl : k = i := Option.some.inj h
      exact hk
    · intro h
      exact congrArg some (hk.unique h)

end Least

/-! ## Steps along a measure -/

section Steps

variable {α γ : Type*} [Preorder γ] {f : α → α} {m : α → γ}

theorem iterate_rises (hf : ∀ a, f a = a ∨ m a < m (f a)) (a : α) {i k : Nat} (hik : i ≤ k) :
    m (f^[i] a) ≤ m (f^[k] a) := by
  induction k, hik using Nat.le_induction with
  | base => exact le_refl _
  | succ k _ ih =>
    rw [Function.iterate_succ_apply']
    rcases hf (f^[k] a) with hstay | hrise
    · rw [hstay]
      exact ih
    · exact ih.trans hrise.le

/-- A step that does not stay is never undone. -/
theorem iterate_revisit (hf : ∀ a, f a = a ∨ m a < m (f a)) {a : α} {i k : Nat} (hik : i < k)
    (hsame : f^[k] a = f^[i] a) : f (f^[i] a) = f^[i] a := by
  rcases hf (f^[i] a) with hstay | hrise
  · exact hstay
  · rw [← Function.iterate_succ_apply' f i a] at hrise
    have hlt := hrise.trans_le (iterate_rises hf a hik)
    rw [hsame] at hlt
    exact absurd hlt (lt_irrefl _)

/-- Within a finite set of places the last step that moves is one before their number. -/
theorem iterate_stops (hf : ∀ a, f a = a ∨ m a < m (f a)) {a : α} {S : Finset α} (hS : ∀ k, f^[k] a ∈ S) :
    f (f^[S.card - 1] a) = f^[S.card - 1] a := by
  by_contra hmoves
  have hdistinct : ∀ i k, i < k → k ≤ S.card → f^[k] a ≠ f^[i] a := by
    intro i k hik hk hsame
    have hfix := iterate_revisit hf hik hsame
    apply hmoves
    obtain ⟨r, hr⟩ : ∃ r, S.card - 1 = r + i := ⟨S.card - 1 - i, by omega⟩
    rw [hr, Function.iterate_add_apply, Function.iterate_fixed hfix r, hfix]
  have hinj : Set.InjOn (fun k => f^[k] a) (Finset.range (S.card + 1)) := by
    intro i hi k hk hsame
    have hi' := Finset.mem_range.mp hi
    have hk' := Finset.mem_range.mp hk
    rcases Nat.lt_trichotomy i k with hlt | heq | hgt
    · exact absurd hsame.symm (hdistinct i k hlt (by omega))
    · exact heq
    · exact absurd hsame (hdistinct k i hgt (by omega))
  have hcard := Finset.card_le_card_of_injOn (fun k => f^[k] a) (fun k _ => hS k) hinj
  rw [Finset.card_range] at hcard
  omega

end Steps

/-- A measure above 0 that falls by `δ` at every step that does not lead to the end: the
    end is reached. -/
theorem iterate_reaches {α : Type*} {f : α → α} {P done : α → Prop} {d : α → ℚ} {δ : ℚ} (hδ : 0 < δ)
    (hlow : ∀ a, P a → 0 ≤ d a)
    (hstep : ∀ a, P a → ¬ done a → P (f a) ∧ (done (f a) ∨ d (f a) ≤ d a - δ)) {a : α} (ha : P a) :
    ∃ n, P (f^[n] a) ∧ done (f^[n] a) ∧ ∀ k < n, P (f^[k] a) ∧ ¬ done (f^[k] a) := by
  obtain ⟨N, hN⟩ := exists_nat_gt (d a / δ)
  have hbound : d a < N * δ := (div_lt_iff₀ hδ).mp hN
  clear hN
  induction N generalizing a with
  | zero =>
    have := hlow a ha
    simp at hbound
    linarith
  | succ N ih =>
    by_cases hdone : done a
    · exact ⟨0, ha, hdone, fun k hk => by omega⟩
    · obtain ⟨hnext, hfalls⟩ := hstep a ha hdone
      have hrest : ∃ n, P (f^[n] (f a)) ∧ done (f^[n] (f a)) ∧ ∀ k < n, P (f^[k] (f a)) ∧ ¬ done (f^[k] (f a)) := by
        rcases hfalls with hend | hfalls
        · exact ⟨0, hnext, hend, fun k hk => by omega⟩
        · apply ih hnext
          push_cast at hbound
          linarith
      obtain ⟨n, hP, hend, hbefore⟩ := hrest
      refine ⟨n + 1, hP, hend, fun k hk => ?_⟩
      cases k with
      | zero => exact ⟨ha, hdone⟩
      | succ k => exact hbefore k (by omega)

/-! ## Hops -/

section Hops

variable {D ι β γ : Type*} [LinearOrder ι] [LinearOrder β] [LinearOrder γ]
variable (dist : D → ι → ι → Option β)

def Hop (i j : ι) : Prop := ∃ d, LeastAt (dist d i) j

variable {dist} {rank : D → ι → γ}

theorem closed_has_edge [Finite ι] (hrank : ∀ d i j b, dist d i j = some b → rank d i < rank d j) {S : Set ι}
    (hne : S.Nonempty) (hclosed : ∀ i ∈ S, ∀ j, Hop dist i j → j ∈ S) (d : D) :
    ∃ i ∈ S, ∀ j, dist d i j = none := by
  obtain ⟨i, hi, hmax⟩ := Set.exists_max_image S (rank d) S.toFinite hne
  refine ⟨i, hi, fun j => ?_⟩
  by_contra hj
  obtain ⟨next, hnext⟩ := exists_leastAt (Set.toFinite _) hj
  have hhop : Hop dist i next := ⟨d, hnext⟩
  obtain ⟨b, hb, _⟩ := hnext
  have hle := hmax next (hclosed i hi next hhop)
  exact absurd (hrank d i next b hb) (not_lt.mpr hle)

omit [LinearOrder ι] in
/-- A path that ends outside of a set leaves it somewhere. -/
theorem exists_exit {r : ι → ι → Prop} {i j : ι} (h : Relation.ReflTransGen r i j) {S : Set ι} (hi : i ∈ S)
    (hj : j ∉ S) : ∃ a ∈ S, ∃ b, b ∉ S ∧ r a b := by
  induction h with
  | refl => exact absurd hi hj
  | @tail a b _ hab ih =>
    by_cases ha : a ∈ S
    · exact ⟨a, ha, b, hj, hab⟩
    · exact ih ha

theorem all_reachable_iff [Finite ι] [Nonempty D] (hrank : ∀ d i j b, dist d i j = some b → rank d i < rank d j) :
    (∀ i j, Relation.ReflTransGen (Hop dist) i j) ↔
      ∀ S : Set ι, (∀ d, ∃ i ∈ S, ∀ j, dist d i j = none) → S ≠ Set.univ → ∃ i ∈ S, ∃ j, j ∉ S ∧ Hop dist i j := by
  constructor
  · intro hall S hedges hS
    obtain ⟨i, hi, _⟩ := hedges (Classical.arbitrary D)
    obtain ⟨j, hj⟩ := (Set.ne_univ_iff_exists_notMem S).mp hS
    exact exists_exit (hall i j) hi hj
  · intro hleaves i j
    -- the places that can be reached from `i` are left by no hop
    let S : Set ι := { k | Relation.ReflTransGen (Hop dist) i k }
    have hclosed : ∀ a ∈ S, ∀ b, Hop dist a b → b ∈ S := fun a ha b hab => ha.tail hab
    have hS : S = Set.univ := by
      by_contra hne
      obtain ⟨a, ha, b, hb, hab⟩ := hleaves S (closed_has_edge hrank ⟨i, .refl⟩ hclosed) hne
      exact hb (hclosed a ha b hab)
    show j ∈ S
    rw [hS]
    exact Set.mem_univ j

end Hops

end Nostalgia.Machine
