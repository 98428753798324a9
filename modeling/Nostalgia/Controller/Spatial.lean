/-
  Nostalgia.Controller.Spatial — where the D-pad leads (DinoControllerUI.lua).

  `Dir.offers` is the rule of a press in plain geometry: what lies more than 3 units in its
  direction, at the distance along it plus twice the distance aside. `moveSpatial_index`
  says that a press goes to the first nearest usable element by that rule, or stays.
  A layout is unchanged if the same elements are listed and usable at the same places, up to
  a shift of all: the loot window moves under the focus.
  - `moves_to_nearest`: a press moves exactly if something lies there, to the nearest;
    repeated presses never come back and stop.
  - `all_reached_iff`: presses of one direction lead to the edge; every element can be
    reached from every other exactly if a press leads out of every proper group of elements
    with one at each edge.
  - `middle_never_reached`: the middle one of five buttons set out as on a die is not.
-/

import Nostalgia.Machine.Climb
import Nostalgia.Machine.Run
import Nostalgia.Controller.Focus
import Nostalgia.Controller.Session

namespace Nostalgia.Controller

open Nostalgia.Lua Nostalgia.Machine

variable {c : Client}

/-! ## Geometry -/

/-- How far a displacement goes in the direction. -/
def Dir.main : Dir → ℚ × ℚ → ℚ
  | .UP, v => v.2
  | .DOWN, v => -v.2
  | .LEFT, v => -v.1
  | .RIGHT, v => v.1

/-- How far it goes aside. -/
def Dir.cross : Dir → ℚ × ℚ → ℚ
  | .UP, v | .DOWN, v => v.1
  | .LEFT, v | .RIGHT, v => v.2

/-- The distance of `q` from `p` for a press, if it lies in the direction. -/
def Dir.offers (dir : Dir) (p q : ℚ × ℚ) : Option ℚ :=
  if 3 < dir.main (q - p) then some (|dir.main (q - p)| + 2 * |dir.cross (q - p)|) else none

theorem Dir.main_sub (dir : Dir) (p q : ℚ × ℚ) : dir.main (q - p) = dir.main q - dir.main p := by
  cases dir <;> simp only [Dir.main, Prod.fst_sub, Prod.snd_sub] <;> ring

theorem spatialDistance_eq (dir : Dir) (p q : ℚ × ℚ) : spatialDistance dir (q.1 - p.1) (q.2 - p.2) = dir.offers p q := by
  unfold spatialDistance Dir.offers
  cases dir with
  | UP => simp only [Dir.main, Dir.cross, Prod.fst_sub, Prod.snd_sub, mul_comm]
  | RIGHT => simp only [Dir.main, Dir.cross, Prod.fst_sub, Prod.snd_sub, mul_comm]
  | DOWN => simp only [Dir.main, Dir.cross, Prod.fst_sub, Prod.snd_sub, mul_comm, abs_neg, lt_neg]
  | LEFT => simp only [Dir.main, Dir.cross, Prod.fst_sub, Prod.snd_sub, mul_comm, abs_neg, lt_neg]

theorem offers_rises {dir : Dir} {p q : ℚ × ℚ} {dist : ℚ} (h : dir.offers p q = some dist) : dir.main p < dir.main q := by
  unfold Dir.offers at h
  split at h
  · rename_i hmain
    rw [dir.main_sub] at hmain
    linarith
  · cases h

theorem offers_self (dir : Dir) (p : ℚ × ℚ) : dir.offers p p = none := by
  cases h : dir.offers p p with
  | none => rfl
  | some dist => exact absurd (offers_rises h) (lt_irrefl _)

/-- A common shift changes nothing. -/
theorem offers_shift (dir : Dir) (p q shift : ℚ × ℚ) : dir.offers (p + shift) (q + shift) = dir.offers p q := by
  unfold Dir.offers
  rw [add_sub_add_right_eq_sub]

/-! ## One press -/

section Press

variable (w : World) (elements : List Element)

def centerAt (index : Nat) : Option (ℚ × ℚ) := (elementAt elements index).bind fun e => (w.frame e.frame).center

/-- The distance of element `j` from the focus for a press, if it is another usable one and
    lies in the direction. -/
def reach (dir : Dir) (index j : Nat) : Option ℚ :=
  if j = index then none
  else (centerAt w elements index).bind fun p =>
    ((elementAt elements j).filter (usableElement w)).bind fun e => (w.frame e.frame).center.bind (dir.offers p)

/-- The focus behind a press. -/
def nextIndex (dir : Dir) (index : Nat) : Nat :=
  (search (reach w elements dir index) 999999 (List.range' 1 elements.length)).1.getD index

end Press

section Layout

variable {w : World} {elements : List Element}

theorem elementAt_succ (elements : List Element) (k : Nat) : elementAt elements (k + 1) = elements[k]? := rfl

/-- What a distance says of the focus and the element. -/
theorem reach_spec {dir : Dir} {index j : Nat} {dist : ℚ} (h : reach w elements dir index j = some dist) :
    j ≠ index ∧ ∃ f e p q, elementAt elements index = some f ∧ (w.frame f.frame).center = some p ∧
      elementAt elements j = some e ∧ (w.frame e.frame).center = some q ∧ dir.offers p q = some dist := by
  unfold reach at h
  split at h
  · cases h
  · rename_i hne
    obtain ⟨p, hp, h⟩ := Option.bind_eq_some_iff.mp h
    obtain ⟨f, hf, hp⟩ := Option.bind_eq_some_iff.mp hp
    obtain ⟨e, he, h⟩ := Option.bind_eq_some_iff.mp h
    obtain ⟨he, _⟩ := Option.filter_eq_some_iff.mp he
    obtain ⟨q, hq, hoffers⟩ := Option.bind_eq_some_iff.mp h
    exact ⟨hne, f, e, p, q, hf, hp, he, hq, hoffers⟩

theorem listed_of_reach {dir : Dir} {index j : Nat} {dist : ℚ} (h : reach w elements dir index j = some dist) :
    j ∈ List.range' 1 elements.length := by
  obtain ⟨_, _, e, _, _, _, _, he, _, _⟩ := reach_spec h
  have hrange := elementAt_range he
  rw [List.mem_range'_1]
  omega

theorem nearest_eq_search {dir : Dir} {index : Nat} {p : ℚ × ℚ} (hp : centerAt w elements index = some p) :
    nearest w dir index p elements 1 (none, 999999) =
      search (reach w elements dir index) 999999 (List.range' 1 elements.length) := by
  have hloop : ∀ (rest : List Element) (i : Nat) (best : Option Nat × ℚ),
      (∀ k, rest[k]? = elementAt elements (i + k)) →
      nearest w dir index p rest i best = (List.range' i rest.length).foldl (better (reach w elements dir index)) best := by
    intro rest
    induction rest with
    | nil => intro i best _; rfl
    | cons e rest ih =>
      intro i best hrest
      have he : elementAt elements i = some e := (hrest 0).symm
      rw [List.length_cons, List.range'_succ, List.foldl_cons]
      rw [nearest, ih (i + 1) _ fun k => by rw [Nat.add_right_comm, Nat.add_assoc]; exact hrest (k + 1)]
      congr 1
      unfold better reach
      rw [hp, he, Option.bind_some, Option.filter_some]
      by_cases hi : i = index
      · simp [hi]
      · rw [if_neg hi]
        cases husable : usableElement w e with
        | false => simp
        | true =>
          simp only [hi, beq_iff_eq, Bool.not_true, Bool.or_false, if_false, if_true, Option.bind_some, spatialDistance_eq]
          cases (w.frame e.frame).center.bind (dir.offers p) with
          | none => rfl
          | some dist => rfl
  rw [hloop elements 1 _ fun k => by rw [Nat.add_comm, elementAt_succ]]
  rfl

theorem moveSpatial_next (dir : Dir) (s : St) : moveSpatial c dir s =
    ((search (reach s.world s.nav.elements dir s.nav.index) 999999 (List.range' 1 s.nav.elements.length)).1.map
      fun best => updateHighlight c (setIndex best s)).getD s := by
  unfold moveSpatial
  cases hp : centerAt s.world s.nav.elements s.nav.index with
  | none =>
    have hnone : reach s.world s.nav.elements dir s.nav.index = fun _ => none := by
      funext j
      simp [reach, hp]
    rw [show (elementAt s.nav.elements s.nav.index).bind _ = none from hp, hnone]
    have hsearch : ∀ l : List Nat, (search (fun _ => (none : Option ℚ)) 999999 l).1 = none := by
      intro l
      induction l with
      | nil => rfl
      | cons _ _ ih => exact ih
    rw [hsearch]
    rfl
  | some p =>
    rw [show (elementAt s.nav.elements s.nav.index).bind _ = some p from hp]
    dsimp only
    rw [nearest_eq_search hp]
    cases (search (reach s.world s.nav.elements dir s.nav.index) 999999 (List.range' 1 s.nav.elements.length)).1 with
    | none => rfl
    | some best => rfl

/-- A press changes the focus, the highlight and what the hover scripts do. -/
theorem moveSpatial_nav (dir : Dir) (s : St) : ∃ screen tooltipElement highlight,
    moveSpatial c dir s =
      (setIndex (nextIndex s.world s.nav.elements dir s.nav.index) s).withHover screen tooltipElement highlight := by
  rw [moveSpatial_next]
  unfold nextIndex
  cases (search (reach s.world s.nav.elements dir s.nav.index) 999999 (List.range' 1 s.nav.elements.length)).1 with
  | none => exact ⟨s.screen, s.nav.tooltipElement, s.nav.highlight, rfl⟩
  | some best =>
    obtain ⟨screen, tooltipElement, highlight, hsame, _⟩ := updateHighlight_hovered (c := c) (setIndex best s)
    exact ⟨screen, tooltipElement, highlight, hsame⟩

theorem moveSpatial_index (dir : Dir) (s : St) :
    (moveSpatial c dir s).nav.index = nextIndex s.world s.nav.elements dir s.nav.index := by
  obtain ⟨_, _, _, h⟩ := moveSpatial_nav (c := c) dir s
  rw [h]
  rfl

theorem moveSpatial_elements (dir : Dir) (s : St) : (moveSpatial c dir s).nav.elements = s.nav.elements := by
  obtain ⟨_, _, _, h⟩ := moveSpatial_nav (c := c) dir s
  rw [h]
  rfl

theorem search_reach_iff {dir : Dir} {index j : Nat} :
    (search (reach w elements dir index) 999999 (List.range' 1 elements.length)).1 = some j ↔
      LeastAt (capped (reach w elements dir index) 999999) j :=
  search_eq_some_iff List.pairwise_lt_range' fun _ _ => listed_of_reach

theorem nextIndex_ne_iff {dir : Dir} {index j : Nat} :
    nextIndex w elements dir index = j ∧ j ≠ index ↔ LeastAt (capped (reach w elements dir index) 999999) j := by
  rw [← search_reach_iff]
  unfold nextIndex
  cases hs : (search (reach w elements dir index) 999999 (List.range' 1 elements.length)).1 with
  | none =>
    rw [Option.getD_none]
    exact ⟨fun h => absurd h.1.symm h.2, fun h => by cases h⟩
  | some i =>
    obtain ⟨dist, hdist, _⟩ := search_reach_iff.mp hs
    have hne : i ≠ index := by
      rintro rfl
      simp [capped, reach] at hdist
    rw [Option.getD_some, Option.some.injEq]
    exact ⟨fun h => h.1, fun h => ⟨h, h ▸ hne⟩⟩

/-- A press stays or goes further in its direction. -/
theorem nextIndex_rises (dir : Dir) (index : Nat) : nextIndex w elements dir index = index ∨
    dir.main ((centerAt w elements index).getD 0) < dir.main ((centerAt w elements (nextIndex w elements dir index)).getD 0) := by
  by_cases hstay : nextIndex w elements dir index = index
  · exact Or.inl hstay
  · right
    obtain ⟨dist, hdist, _⟩ := nextIndex_ne_iff.mp ⟨rfl, hstay⟩
    obtain ⟨_, f, e, p, q, hf, hp, he, hq, hoffers⟩ := reach_spec (capped_eq_some.mp hdist).1
    have hfrom : centerAt w elements index = some p := by
      rw [centerAt, hf]
      exact hp
    have hto : centerAt w elements (nextIndex w elements dir index) = some q := by
      rw [centerAt, he]
      exact hq
    rw [hfrom, hto]
    exact offers_rises hoffers

/-- Centres within 99999 units of each other. -/
def InRange (w : World) (elements : List Element) : Prop :=
  ∀ a ∈ elements, ∀ b ∈ elements, ∀ p q, (w.frame a.frame).center = some p → (w.frame b.frame).center = some q →
    |q.1 - p.1| ≤ 99999 ∧ |q.2 - p.2| ≤ 99999

theorem offers_lt {dir : Dir} {p q : ℚ × ℚ} {dist : ℚ} (h : dir.offers p q = some dist)
    (hrange : |q.1 - p.1| ≤ 99999 ∧ |q.2 - p.2| ≤ 99999) : dist < 999999 := by
  unfold Dir.offers at h
  split at h
  · obtain rfl := Option.some.inj h
    obtain ⟨hx, hy⟩ := hrange
    cases dir <;> simp only [Dir.main, Dir.cross, Prod.fst_sub, Prod.snd_sub, abs_neg] <;> linarith
  · cases h

theorem capped_reach (hrange : InRange w elements) (dir : Dir) (index : Nat) :
    capped (reach w elements dir index) 999999 = reach w elements dir index := by
  apply capped_of_lt
  intro j dist h
  obtain ⟨_, f, e, p, q, hf, hp, he, hq, hoffers⟩ := reach_spec h
  exact offers_lt hoffers (hrange f (elementAt_mem hf) e (elementAt_mem he) p q hp hq)

end Layout

/-! ## Presses over an unchanged layout -/

/-- The same elements, usable alike and at the same places up to a common shift. -/
structure SameLayout (s t : St) : Prop where
  elements : t.nav.elements = s.nav.elements
  usable : ∀ e ∈ s.nav.elements, usableElement t.world e = usableElement s.world e
  shifted : ∃ shift, ∀ e ∈ s.nav.elements,
    (t.world.frame e.frame).center = (s.world.frame e.frame).center.map (· + shift)

theorem reach_same {s t : St} (h : SameLayout s t) (dir : Dir) (index : Nat) :
    reach t.world t.nav.elements dir index = reach s.world s.nav.elements dir index := by
  obtain ⟨helements, husable, shift, hshift⟩ := h
  funext j
  unfold reach centerAt
  rw [helements]
  cases hf : elementAt s.nav.elements index with
  | none => rfl
  | some f =>
    cases he : elementAt s.nav.elements j with
    | none => simp
    | some e =>
      have hme := elementAt_mem he
      simp only [Option.bind_some, Option.filter_some, husable e hme, hshift f (elementAt_mem hf)]
      split
      · rfl
      · cases (s.world.frame f.frame).center with
        | none => rfl
        | some p =>
          split
          · rw [Option.map_some, Option.bind_some, Option.bind_some, Option.bind_some, Option.bind_some, hshift e hme]
            cases (s.world.frame e.frame).center with
            | none => rfl
            | some q => exact offers_shift dir p q shift
          · rfl

theorem nextIndex_same {s t : St} (h : SameLayout s t) (dir : Dir) (index : Nat) :
    nextIndex t.world t.nav.elements dir index = nextIndex s.world s.nav.elements dir index := by
  unfold nextIndex
  rw [reach_same h, h.elements]

section Repeated

variable {dir : Dir} {s : St}

theorem iterate_index (hkeep : ∀ k, SameLayout s ((moveSpatial c dir)^[k] s)) (k : Nat) :
    ((moveSpatial c dir)^[k] s).nav.index = (nextIndex s.world s.nav.elements dir)^[k] s.nav.index := by
  induction k with
  | zero => rfl
  | succ k ih => rw [Function.iterate_succ_apply', moveSpatial_index, nextIndex_same (hkeep k), ih, Function.iterate_succ_apply']

theorem nextIndex_listed (w : World) (elements : List Element) (dir : Dir) {index : Nat}
    (h : index ∈ Finset.Icc 1 elements.length) : nextIndex w elements dir index ∈ Finset.Icc 1 elements.length := by
  by_cases hstay : nextIndex w elements dir index = index
  · rw [hstay]
    exact h
  · obtain ⟨dist, hdist, _⟩ := nextIndex_ne_iff.mp ⟨rfl, hstay⟩
    have hlisted := listed_of_reach (capped_eq_some.mp hdist).1
    rw [List.mem_range'_1] at hlisted
    rw [Finset.mem_Icc]
    omega

/-- A focus on no element does not move. -/
theorem nextIndex_unlisted (w : World) (elements : List Element) (dir : Dir) {index : Nat}
    (h : index ∉ Finset.Icc 1 elements.length) : nextIndex w elements dir index = index := by
  by_contra hmoves
  obtain ⟨dist, hdist, _⟩ := nextIndex_ne_iff.mp ⟨rfl, hmoves⟩
  obtain ⟨_, f, _, _, _, hf, _⟩ := reach_spec (capped_eq_some.mp hdist).1
  exact h (Finset.mem_Icc.mpr (elementAt_range hf))

theorem nextIndex_stops (w : World) (elements : List Element) (dir : Dir) (index : Nat) :
    nextIndex w elements dir ((nextIndex w elements dir)^[elements.length - 1] index) =
      (nextIndex w elements dir)^[elements.length - 1] index := by
  by_cases hlisted : index ∈ Finset.Icc 1 elements.length
  · have hall : ∀ k, (nextIndex w elements dir)^[k] index ∈ Finset.Icc 1 elements.length := by
      intro k
      induction k with
      | zero => exact hlisted
      | succ k ih =>
        rw [Function.iterate_succ_apply']
        exact nextIndex_listed w elements dir ih
    have hstops := iterate_stops (nextIndex_rises dir) hall
    rw [Nat.card_Icc, Nat.add_sub_cancel] at hstops
    exact hstops
  · have hfix := nextIndex_unlisted w elements dir hlisted
    rw [Function.iterate_fixed hfix, hfix]

end Repeated

/-- A press moves the focus exactly if something usable lies there, to the first nearest;
    repeated presses over an unchanged layout come back to no element they left, and stop
    after one move less than there are elements. -/
theorem moves_to_nearest (c : Client) (dir : Dir) (s : St) (hrange : InRange s.world s.nav.elements) :
    let focus := fun k => ((moveSpatial c dir)^[k] s).nav.index
    let there := reach s.world s.nav.elements dir s.nav.index
    (focus 1 ≠ focus 0 ↔ ∃ j dist, there j = some dist) ∧ (focus 1 ≠ focus 0 → LeastAt there (focus 1)) ∧
      ((∀ k, SameLayout s ((moveSpatial c dir)^[k] s)) →
        (∀ i k, i < k → focus k = focus i → ∀ j, i ≤ j → focus j = focus i) ∧
        ∀ k, s.nav.elements.length - 1 ≤ k → focus k = focus (s.nav.elements.length - 1)) := by
  intro focus there
  have hmove : focus 1 = nextIndex s.world s.nav.elements dir (focus 0) := moveSpatial_index dir s
  have hleast : ∀ j, focus 1 = j ∧ j ≠ focus 0 ↔ LeastAt there j := by
    intro j
    rw [hmove, nextIndex_ne_iff, capped_reach hrange]
    rfl
  refine ⟨⟨fun hne => ?_, fun hthere => ?_⟩, fun hne => (hleast _).mp ⟨rfl, hne⟩, fun hkeep => ?_⟩
  · obtain ⟨dist, hdist, _⟩ := (hleast _).mp ⟨rfl, hne⟩
    exact ⟨focus 1, dist, hdist⟩
  · obtain ⟨j, dist, hdist⟩ := hthere
    have hfinite : { i | there i ≠ none }.Finite := by
      apply (List.finite_toSet (List.range' 1 s.nav.elements.length)).subset
      intro i hi
      obtain ⟨dist, hdist⟩ := Option.ne_none_iff_exists'.mp hi
      exact listed_of_reach hdist
    obtain ⟨next, hnext⟩ := exists_leastAt hfinite (by rw [hdist]; exact Option.some_ne_none dist)
    obtain ⟨hfocus, hne⟩ := (hleast next).mpr hnext
    rw [hfocus]
    exact hne
  · have hfocus : ∀ k, focus k = (nextIndex s.world s.nav.elements dir)^[k] s.nav.index := iterate_index hkeep
    constructor
    · intro i k hik hsame j hij
      rw [hfocus k, hfocus i] at hsame
      have hfix := iterate_revisit (nextIndex_rises dir) hik hsame
      obtain ⟨r, rfl⟩ := Nat.exists_eq_add_of_le' hij
      rw [hfocus, hfocus, Function.iterate_add_apply, Function.iterate_fixed hfix]
    · intro k hk
      obtain ⟨r, rfl⟩ := Nat.exists_eq_add_of_le' hk
      have hstops := nextIndex_stops s.world s.nav.elements dir s.nav.index
      rw [hfocus, hfocus, Function.iterate_add_apply, Function.iterate_fixed hstops]

/-! ## Any presses -/

/-- UI mode outside of the rolls, over elements that do not scroll. -/
structure Plain (s : St) : Prop where
  active : s.nav.active = true
  notRolls : s.nav.context ≠ some .lootroll
  noScrollArea : ∀ e ∈ s.nav.elements, e.isScrollArea = false

/-- The press scrolls no list of rows from its first or last one. -/
def RowsRest (c : Client) (s : St) : Prop :=
  ∀ e ∈ s.nav.elements, ∀ up bar, edgeScrollBar e.key up = some bar →
    performScroll c (s.world.getglobal bar) up s = .ok (false, s)

def presses (c : Client) (ds : List Dir) (s : St) : St := run (fun s dir => (uiMoveDir c dir s).1) s ds

/-- No presses change the layout or scroll a list of rows. -/
structure Undisturbed (c : Client) (s : St) : Prop where
  layout : ∀ index ds, SameLayout s (presses c ds (setIndex index s))
  rows : ∀ index ds, RowsRest c (presses c ds (setIndex index s))

theorem presses_append (ds : List Dir) (dir : Dir) (s : St) :
    presses c (ds ++ [dir]) s = (uiMoveDir c dir (presses c ds s)).1 := by
  unfold presses
  rw [run_append]
  rfl

theorem uiMoveDir_plain {s : St} (h : Plain s) (hrows : RowsRest c s) (dir : Dir) :
    (uiMoveDir c dir s).1 = moveSpatial c dir s := by
  have hfocus : (moveFocus c dir s).1 = moveSpatial c dir s := by
    unfold moveFocus
    dsimp only
    cases he : elementAt s.nav.elements s.nav.index with
    | none => rfl
    | some e =>
      have hmem := elementAt_mem he
      dsimp only
      split
      · rfl
      · rw [h.noScrollArea e hmem]
        cases hbar : edgeScrollBar e.key (dir == .UP) with
        | none => rfl
        | some bar =>
          dsimp only
          rw [if_neg Bool.false_ne_true, hrows e hmem _ bar hbar]
  unfold uiMoveDir
  rw [h.active]
  show (if s.nav.elements.isEmpty then (s, none) else moveInRolls c dir s).1 = _
  split
  · rename_i hempty
    have hnil : s.nav.elements = [] := by simpa using hempty
    have hnone : elementAt s.nav.elements s.nav.index = none := by
      rw [hnil]
      simp [elementAt]
    unfold moveSpatial
    rw [hnone]
    rfl
  · unfold moveInRolls
    rw [if_neg (by simpa using h.notRolls)]
    exact hfocus

theorem plain_moveSpatial {s : St} (h : Plain s) (dir : Dir) : Plain (moveSpatial c dir s) := by
  obtain ⟨_, _, _, hsame⟩ := moveSpatial_nav (c := c) dir s
  rw [hsame]
  exact ⟨h.active, h.notRolls, h.noScrollArea⟩

theorem presses_plain {s : St} (h : Plain s) (hkeep : Undisturbed c s) (index : Nat) (ds : List Dir) :
    Plain (presses c ds (setIndex index s)) := by
  induction ds using List.reverseRecOn with
  | nil => exact ⟨h.active, h.notRolls, h.noScrollArea⟩
  | append_singleton ds dir ih =>
    rw [presses_append, uiMoveDir_plain ih (hkeep.rows index ds)]
    exact plain_moveSpatial ih dir

theorem presses_index {s : St} (h : Plain s) (hkeep : Undisturbed c s) (index : Nat) (ds : List Dir) :
    (presses c ds (setIndex index s)).nav.index =
      run (fun index dir => nextIndex s.world s.nav.elements dir index) index ds := by
  induction ds using List.reverseRecOn with
  | nil => rfl
  | append_singleton ds dir ih =>
    rw [presses_append, uiMoveDir_plain (presses_plain h hkeep index ds) (hkeep.rows index ds), moveSpatial_index,
      nextIndex_same (hkeep.layout index ds), ih, run_append]
    rfl

/-! ## Places -/

section Places

variable (w : World) (elements : List Element)

def place (i : Fin elements.length) : ℚ × ℚ := (w.frame elements[i].frame).center.getD 0

/-- The distance of `j` from `i` in the direction, below the bound of the search. -/
def spread (dir : Dir) (i : Fin elements.length) : Fin elements.length → Option ℚ :=
  capped (fun j => dir.offers (place w elements i) (place w elements j)) 999999

end Places

section Places

variable {w : World} {elements : List Element}

theorem usableElement_center {e : Element} (h : usableElement w e = true) : ∃ p, (w.frame e.frame).center = some p := by
  apply Option.isSome_iff_exists.mp
  unfold usableElement focusableButton usableButton at h
  rw [Bool.and_eq_true] at h
  obtain ⟨_, h⟩ := h
  split at h
  · exact (Bool.and_eq_true_iff.mp h).2
  · exact (Bool.and_eq_true_iff.mp (Bool.and_eq_true_iff.mp h).1).2

variable (husable : ∀ e ∈ elements, usableElement w e = true)
include husable

theorem reach_place (dir : Dir) (i j : Fin elements.length) :
    reach w elements dir (i + 1) (j + 1) = dir.offers (place w elements i) (place w elements j) := by
  have hcenter : ∀ k : Fin elements.length, (w.frame elements[k].frame).center = some (place w elements k) := by
    intro k
    obtain ⟨p, hp⟩ := usableElement_center (husable elements[k] (List.getElem_mem k.2))
    rw [place, hp, Option.getD_some]
  have hat : ∀ k : Fin elements.length, elementAt elements (k + 1) = some elements[k] := fun k =>
    List.getElem?_eq_getElem k.2
  unfold reach centerAt
  by_cases hij : j = i
  · rw [if_pos (by rw [hij]), hij, offers_self]
  · rw [if_neg (by omega), hat i, hat j, Option.filter_some, if_pos (husable elements[j] (List.getElem_mem j.2))]
    simp only [Option.bind_some, hcenter]

theorem nextIndex_place {dir : Dir} {i j : Fin elements.length} :
    nextIndex w elements dir (i + 1) = j + 1 ∧ j ≠ i ↔ LeastAt (spread w elements dir i) j := by
  have hmono : StrictMono fun k : Fin elements.length => (k : Nat) + 1 := fun a b hab => Nat.succ_lt_succ hab
  have hnumbered : ∀ m dist, capped (reach w elements dir (i + 1)) 999999 m = some dist →
      ∃ k : Fin elements.length, (k : Nat) + 1 = m := by
    intro m dist h
    have hlisted := listed_of_reach (capped_eq_some.mp h).1
    rw [List.mem_range'_1] at hlisted
    exact ⟨⟨m - 1, by omega⟩, Nat.sub_add_cancel hlisted.1⟩
  have hspread : (fun k : Fin elements.length => capped (reach w elements dir (i + 1)) 999999 (k + 1)) =
      spread w elements dir i := by
    funext k
    show Option.filter _ (reach w elements dir (i + 1) (k + 1)) = _
    rw [reach_place husable]
    rfl
  have hne : j ≠ i ↔ (j : Nat) + 1 ≠ i + 1 := by omega
  rw [hne, nextIndex_ne_iff, leastAt_map_iff hmono hnumbered, hspread]

/-- Every path of hops is one of presses. -/
theorem exists_presses {i j : Fin elements.length} (h : Relation.ReflTransGen (Hop (spread w elements)) i j) :
    ∃ ds, run (fun index dir => nextIndex w elements dir index) ((i : Nat) + 1) ds = j + 1 := by
  induction h with
  | refl => exact ⟨[], rfl⟩
  | @tail a b _ hab ih =>
    obtain ⟨ds, hds⟩ := ih
    obtain ⟨dir, hleast⟩ := hab
    refine ⟨ds ++ [dir], ?_⟩
    rw [run_append, hds]
    exact ((nextIndex_place husable).mpr hleast).1

/-- Presses only lead along hops. -/
theorem presses_hops (i : Fin elements.length) (ds : List Dir) : ∃ j : Fin elements.length,
    run (fun index dir => nextIndex w elements dir index) ((i : Nat) + 1) ds = j + 1 ∧
      Relation.ReflTransGen (Hop (spread w elements)) i j := by
  induction ds using List.reverseRecOn with
  | nil => exact ⟨i, rfl, .refl⟩
  | append_singleton ds dir ih =>
    obtain ⟨j, hj, hpath⟩ := ih
    rw [run_append, hj]
    show ∃ k : Fin elements.length, nextIndex w elements dir (j + 1) = k + 1 ∧ _
    have hlisted : nextIndex w elements dir (j + 1) ∈ Finset.Icc 1 elements.length :=
      nextIndex_listed w elements dir (by rw [Finset.mem_Icc]; omega)
    rw [Finset.mem_Icc] at hlisted
    obtain ⟨k, hk⟩ : ∃ k : Fin elements.length, nextIndex w elements dir (j + 1) = k + 1 :=
      ⟨⟨nextIndex w elements dir (j + 1) - 1, by omega⟩, (Nat.sub_add_cancel hlisted.1).symm⟩
    refine ⟨k, hk, ?_⟩
    by_cases hkj : k = j
    · rw [hkj]
      exact hpath
    · exact hpath.tail ⟨dir, (nextIndex_place husable).mp ⟨hk, hkj⟩⟩

/-- Presses of one direction end at the edge. -/
theorem presses_edge (dir : Dir) (i : Fin elements.length) : ∃ j : Fin elements.length,
    run (fun index dir => nextIndex w elements dir index) ((i : Nat) + 1) (List.replicate (elements.length - 1) dir) = j + 1 ∧
      ∀ k, spread w elements dir j k = none := by
  obtain ⟨j, hj, _⟩ := presses_hops husable i (List.replicate (elements.length - 1) dir)
  refine ⟨j, hj, fun k => ?_⟩
  have hstops := nextIndex_stops w elements dir ((i : Nat) + 1)
  rw [run_replicate] at hj
  change (nextIndex w elements dir)^[elements.length - 1] ((i : Nat) + 1) = j + 1 at hj
  rw [hj] at hstops
  by_contra hk
  obtain ⟨next, hnext⟩ := exists_leastAt (Set.toFinite _) hk
  obtain ⟨hmoves, hne⟩ := (nextIndex_place husable).mpr hnext
  rw [hstops] at hmoves
  exact hne (Fin.ext (by omega))

end Places

instance : Nonempty Dir := ⟨.UP⟩

theorem spread_rises {w : World} {elements : List Element} (dir : Dir) (i j : Fin elements.length) (dist : ℚ)
    (h : spread w elements dir i j = some dist) : dir.main (place w elements i) < dir.main (place w elements j) :=
  offers_rises (capped_eq_some.mp h).1

/-- Presses of one direction lead to the edge: to an element behind which none lies in the
    direction, more than 3 units further. Every element can be reached from every other
    exactly if a press leads out of every group of them, but not all, that has an element at
    each edge. -/
theorem all_reached_iff (c : Client) (s : St) (hplain : Plain s)
    (husable : ∀ e ∈ s.nav.elements, usableElement s.world e = true) (hkeep : Undisturbed c s) :
    (∀ dir (i : Fin s.nav.elements.length), ∃ j n, (presses c (List.replicate n dir) (setIndex (i + 1) s)).nav.index =
        (j : Fin s.nav.elements.length) + 1 ∧ ∀ k, spread s.world s.nav.elements dir j k = none) ∧
    ((∀ i j : Fin s.nav.elements.length, ∃ ds, (presses c ds (setIndex (i + 1) s)).nav.index = j + 1) ↔
      ∀ S : Set (Fin s.nav.elements.length),
        (∀ dir, ∃ i ∈ S, ∀ j, spread s.world s.nav.elements dir i j = none) → S ≠ Set.univ →
        ∃ i ∈ S, ∃ j, j ∉ S ∧ ∃ dir, LeastAt (spread s.world s.nav.elements dir i) j) := by
  have hreached : (∀ i j : Fin s.nav.elements.length, ∃ ds, (presses c ds (setIndex (i + 1) s)).nav.index = j + 1) ↔
      ∀ i j, Relation.ReflTransGen (Hop (spread s.world s.nav.elements)) i j := by
    refine forall_congr' fun i => forall_congr' fun j => ?_
    constructor
    · rintro ⟨ds, hds⟩
      obtain ⟨k, hk, hpath⟩ := presses_hops husable i ds
      rw [presses_index hplain hkeep, hk] at hds
      obtain rfl : k = j := by omega
      exact hpath
    · intro hpath
      obtain ⟨ds, hds⟩ := exists_presses husable hpath
      exact ⟨ds, by rw [presses_index hplain hkeep, hds]⟩
  constructor
  · intro dir i
    obtain ⟨j, hj, hedge⟩ := presses_edge husable dir i
    exact ⟨j, _, by rw [presses_index hplain hkeep, hj], hedge⟩
  · rw [hreached]
    exact all_reachable_iff spread_rises

/-! ## A flight map -/

section Still

variable {mappings : ButtonMappings}

theorem hovering_still {a b : Screen} (h : HoverCalls (stillClient mappings) a b) : b.world = a.world := by
  induction h with
  | none => rfl
  | perform call _ _ ih => exact ih

theorem moveSpatial_still (dir : Dir) (s : St) : (moveSpatial (stillClient mappings) dir s).world = s.world := by
  rw [moveSpatial_next]
  cases (search (reach s.world s.nav.elements dir s.nav.index) 999999 (List.range' 1 s.nav.elements.length)).1 with
  | none => rfl
  | some best => exact hovering_still (updateHighlight_calls (setIndex best s))

theorem sameLayout_of_eq {s t : St} (helements : t.nav.elements = s.nav.elements) (hworld : t.world = s.world) :
    SameLayout s t := by
  refine ⟨helements, fun e _ => by rw [hworld], 0, fun e _ => ?_⟩
  rw [hworld]
  cases (s.world.frame e.frame).center with
  | none => rfl
  | some p => rw [Option.map_some, add_zero]

theorem repeated_still (dir : Dir) (s : St) (k : Nat) : SameLayout s ((moveSpatial (stillClient mappings) dir)^[k] s) := by
  have hsame : ((moveSpatial (stillClient mappings) dir)^[k] s).nav.elements = s.nav.elements ∧
      ((moveSpatial (stillClient mappings) dir)^[k] s).world = s.world := by
    induction k with
    | zero => exact ⟨rfl, rfl⟩
    | succ k ih =>
      rw [Function.iterate_succ_apply', moveSpatial_still, moveSpatial_elements]
      exact ih
  exact sameLayout_of_eq hsame.1 hsame.2

theorem undisturbed_still {s : St} (h : Plain s)
    (hrows : ∀ e ∈ s.nav.elements, ∀ up, edgeScrollBar e.key up = none) : Undisturbed (stillClient mappings) s := by
  have hrest : ∀ t : St, t.nav.elements = s.nav.elements → RowsRest (stillClient mappings) t := by
    intro t ht e he up bar hbar
    rw [ht] at he
    rw [hrows e he up] at hbar
    cases hbar
  have hkept : ∀ index ds, Plain (presses (stillClient mappings) ds (setIndex index s)) ∧
      (presses (stillClient mappings) ds (setIndex index s)).nav.elements = s.nav.elements ∧
      (presses (stillClient mappings) ds (setIndex index s)).world = s.world := by
    intro index ds
    induction ds using List.reverseRecOn with
    | nil => exact ⟨⟨h.active, h.notRolls, h.noScrollArea⟩, rfl, rfl⟩
    | append_singleton ds dir ih =>
      obtain ⟨hplain, helements, hworld⟩ := ih
      rw [presses_append, uiMoveDir_plain hplain (hrest _ helements)]
      refine ⟨plain_moveSpatial hplain dir, ?_, ?_⟩
      · rw [moveSpatial_elements, helements]
      · rw [moveSpatial_still, hworld]
  refine ⟨fun index ds => ?_, fun index ds => hrest _ (hkept index ds).2.1⟩
  exact sameLayout_of_eq (hkept index ds).2.1 (hkept index ds).2.2

end Still

def flightPoint (name : String) (id : Nat) (center : ℚ × ℚ) : Frame where
  name := some name
  visible := true
  center := some center
  isEnabled := some (some 1)
  clickable := true
  id := id

/-- Five flight points: the corners of a square and its middle. -/
def squareMap : World :=
  { World.ofFrames
      [{ name := some "TaxiFrame", visible := true },
       flightPoint "TaxiButton1" 1 (0, 0), flightPoint "TaxiButton2" 2 (100, 0), flightPoint "TaxiButton3" 3 (0, 100),
       flightPoint "TaxiButton4" 4 (100, 100), flightPoint "TaxiButton5" 5 (50, 50)] with
    numTaxiNodes := 5
    taxiNodeGetType := fun _ => .REACHABLE }

def squareState : St := run (step (stillClient bridgeMappings)) (fresh squareMap defaultDB fun _ => "") [.scan]

theorem squareState_plain : Plain squareState :=
  ⟨by decide +kernel, by decide +kernel, by decide +kernel⟩

theorem squareState_usable : ∀ e ∈ squareState.nav.elements, usableElement squareState.world e = true := by
  decide +kernel

theorem squareState_undisturbed : Undisturbed (stillClient bridgeMappings) squareState :=
  undisturbed_still squareState_plain (by decide +kernel)

theorem squareState_inRange : InRange squareState.world squareState.nav.elements := by
  have h : ∀ a ∈ squareState.nav.elements, ∀ b ∈ squareState.nav.elements,
      ((squareState.world.frame a.frame).center.all fun p => (squareState.world.frame b.frame).center.all fun q =>
        |q.1 - p.1| ≤ 99999 ∧ |q.2 - p.2| ≤ 99999) = true := by
    decide +kernel
  intro a ha b hb p q hp hq
  have hall := h a ha b hb
  rw [hp, hq] at hall
  simpa using hall

/-- Two centres differ by more than 3 units horizontally or vertically. -/
def Apart (w : World) (elements : List Element) : Prop :=
  ∀ i j : Fin elements.length, i ≠ j → 3 < |(place w elements j - place w elements i).1| ∨
    3 < |(place w elements j - place w elements i).2|

theorem middle_never_reached : ¬ ∀ (c : Client) (s : St), Plain s →
    (∀ e ∈ s.nav.elements, usableElement s.world e = true) → Apart s.world s.nav.elements → Undisturbed c s →
    ∀ i j : Fin s.nav.elements.length, ∃ ds, (presses c ds (setIndex (i + 1) s)).nav.index = j + 1 := by
  intro h
  have hlength : squareState.nav.elements.length = 5 := by decide +kernel
  have hapart : Apart squareState.world squareState.nav.elements := by
    unfold Apart
    decide +kernel
  have hreach := h (stillClient bridgeMappings) squareState squareState_plain squareState_usable hapart
    squareState_undisturbed
  obtain ⟨ds, hds⟩ := hreach ⟨0, by omega⟩ ⟨4, by omega⟩
  rw [presses_index squareState_plain squareState_undisturbed] at hds
  -- the corners lead to the corners
  have hcorners : ∀ index ∈ [1, 2, 3, 4], ∀ dir ∈ [Dir.UP, .DOWN, .LEFT, .RIGHT],
      nextIndex squareState.world squareState.nav.elements dir index ∈ [1, 2, 3, 4] := by
    decide +kernel
  have hrun : run (fun index dir => nextIndex squareState.world squareState.nav.elements dir index) 1 ds ∈ [1, 2, 3, 4] := by
    refine inv_run _ (fun index dir hindex => ?_) ds 1 (by simp)
    exact hcorners index hindex dir (by cases dir <;> simp)
  rw [show run _ 1 ds = 5 from hds] at hrun
  simp at hrun

theorem right_from_corner :
    let focus := fun k => ((moveSpatial (stillClient bridgeMappings) .RIGHT)^[k] squareState).nav.index
    focus 1 = 2 ∧ LeastAt (reach squareState.world squareState.nav.elements .RIGHT 1) 2 ∧
      (∀ i k, i < k → focus k = focus i → ∀ j, i ≤ j → focus j = focus i) ∧ ∀ k, 4 ≤ k → focus k = focus 4 := by
  intro focus
  have hfirst : focus 0 = 1 := by decide +kernel
  have hsecond : focus 1 = 2 := by decide +kernel
  have hlength : squareState.nav.elements.length = 5 := by decide +kernel
  obtain ⟨_, hleast, hrun⟩ := moves_to_nearest (stillClient bridgeMappings) .RIGHT squareState squareState_inRange
  obtain ⟨hrevisit, hstops⟩ := hrun (repeated_still .RIGHT squareState)
  rw [hlength] at hstops
  have hmoved : LeastAt (reach squareState.world squareState.nav.elements .RIGHT (focus 0)) (focus 1) :=
    hleast (by show focus 1 ≠ focus 0; omega)
  rw [hfirst, hsecond] at hmoved
  exact ⟨hsecond, hmoved, hrevisit, hstops⟩

/-- Of the square its edges are reached; the corners hold one of each, and no press leads
    from them to the middle. -/
theorem square_middle_unreached :
    (∀ dir (i : Fin squareState.nav.elements.length), ∃ j n,
      (presses (stillClient bridgeMappings) (List.replicate n dir) (setIndex (i + 1) squareState)).nav.index =
        (j : Fin squareState.nav.elements.length) + 1 ∧
        ∀ k, spread squareState.world squareState.nav.elements dir j k = none) ∧
    ¬ ∀ i j : Fin squareState.nav.elements.length, ∃ ds,
      (presses (stillClient bridgeMappings) ds (setIndex (i + 1) squareState)).nav.index = j + 1 := by
  obtain ⟨hedges, hall⟩ := all_reached_iff (stillClient bridgeMappings) squareState squareState_plain squareState_usable
    squareState_undisturbed
  refine ⟨hedges, fun hreach => ?_⟩
  have hedge : ∀ dir ∈ [Dir.UP, .DOWN, .LEFT, .RIGHT], ∃ i : Fin squareState.nav.elements.length, i.val < 4 ∧
      ∀ j, spread squareState.world squareState.nav.elements dir i j = none := by
    decide +kernel
  -- a corner in the direction is nearer than the middle
  have hnearer : ∀ dir ∈ [Dir.UP, .DOWN, .LEFT, .RIGHT], ∀ i j : Fin squareState.nav.elements.length,
      i.val < 4 → ¬ j.val < 4 → ∀ b ∈ spread squareState.world squareState.nav.elements dir i j,
        ∃ k, ∃ b' ∈ spread squareState.world squareState.nav.elements dir i k, b' < b := by
    decide +kernel
  have hdirs : ∀ dir : Dir, dir ∈ [Dir.UP, .DOWN, .LEFT, .RIGHT] := fun dir => by cases dir <;> simp
  have hmiddle : ({i | i.val < 4} : Set (Fin squareState.nav.elements.length)) ≠ Set.univ := by
    have hlength : squareState.nav.elements.length = 5 := by decide +kernel
    intro huniv
    have hin := Set.mem_univ (⟨4, by omega⟩ : Fin squareState.nav.elements.length)
    rw [← huniv] at hin
    exact absurd hin (by simp)
  obtain ⟨i, hi, j, hj, dir, b, hb, hleast⟩ := hall.mp hreach {i | i.val < 4} (fun dir => hedge dir (hdirs dir)) hmiddle
  obtain ⟨k, b', hb', hlt⟩ := hnearer dir (hdirs dir) i j hi hj b hb
  rcases hleast k b' hb' with hless | ⟨heq, _⟩
  · exact absurd hlt (lt_asymm hless)
  · exact absurd heq.symm (ne_of_lt hlt)

end Nostalgia.Controller
