/-
  Nostalgia.Controller.Scrolling — scroll areas under the D-pad (PerformScroll).

  An `Area` is what a press on a scroll area moves: a scroll bar or a scroll frame, with
  the bounds of its number. `Stores` says of the client that it stores the number it is
  given and leaves the area as it is otherwise.
  - `performScroll_area`: what one press does to an area.
  - `clamp_progress`: the number it stores is further on and inside the bounds.
  - `performScroll_progress_iff`: with that, presses of one direction reach the end and
    move on, exactly if the bar has a name or is at the end already. The native arrows are
    looked up by the name of the bar, so a nameless one is an error
    (`nameless_bar_traps`).
-/

import Nostalgia.Controller.Spatial

namespace Nostalgia.Controller

open Nostalgia.Machine

inductive Mover where
  | bar (b : FrameId)
  | scrollFrame (f : FrameId)
  deriving DecidableEq

namespace Mover

def isBar : Mover → Bool
  | .bar _ => true
  | .scrollFrame _ => false

variable (w : World)

/-- The least number, the current one and the greatest. -/
def reading : Mover → Option (ℚ × ℚ × ℚ)
  | .bar b => (w.frame b).slider.map fun bar => (bar.minVal, bar.value, bar.maxVal)
  | .scrollFrame f => (w.frame f).scrollFrame.map fun sf => (0, sf.verticalScroll, sf.verticalScrollRange)

def step : Mover → ℚ
  | .bar b => ((w.frame b).slider.map fun bar => sliderStep bar (w.frame b).height).getD 0
  | .scrollFrame f => if (((w.frame f).height / 5).floor : ℚ) < 20 then 24 else ((w.frame f).height / 5).floor

def store (value : ℚ) : Mover → Call
  | .bar b => .setValue b value
  | .scrollFrame f => .setVerticalScroll f value

/-- What a scroll target moves by: itself as a bar, its bar, or itself as a scroll frame. -/
def ofTarget (target : FrameId) : Option Mover :=
  let bar := if (w.frame target).slider.isSome then some target else scrollBarOf w target
  match bar.filter fun b => (w.frame b).slider.isSome with
  | some b => some (.bar b)
  | none => if (w.frame target).scrollFrame.isSome then some (.scrollFrame target) else none

end Mover

structure Area where
  target : FrameId
  mover : Mover
  lo : ℚ
  hi : ℚ
  /-- The name of the bar. -/
  name : Option String

/-- A scroll bar without a name. -/
def Area.Nameless (a : Area) : Prop := a.mover.isBar = true ∧ a.name = none

instance (a : Area) : Decidable a.Nameless := inferInstanceAs (Decidable (_ ∧ _))

/-- The area at the number `v`, without an enabled native arrow in the direction. -/
structure AreaAt (a : Area) (up : Bool) (v : ℚ) (w : World) : Prop where
  mover : Mover.ofTarget w a.target = some a.mover
  reading : a.mover.reading w = some (a.lo, v, a.hi)
  bounds : a.lo ≤ v ∧ v ≤ a.hi
  name : ∀ b, a.mover = .bar b → (w.frame b).name = a.name
  noArrow : ∀ name, a.name = some name → enabledArrow w name up = none

/-- `SetValue` and `SetVerticalScroll` store the number, and the area stays. -/
def Stores (c : Client) (a : Area) (up : Bool) : Prop :=
  ∀ w v v', AreaAt a up v w → a.lo ≤ v' → v' ≤ a.hi → AreaAt a up v' (c.act (a.mover.store v') w).1

/-- The way from a number to the end a direction leads to. -/
def Area.left (a : Area) (up : Bool) (v : ℚ) : ℚ := if up then v - a.lo else a.hi - v

def Area.AtEnd (a : Area) (up : Bool) (v : ℚ) : Prop := a.left up v ≤ 1 / 100

instance (a : Area) (up : Bool) (v : ℚ) : Decidable (a.AtEnd up v) := inferInstanceAs (Decidable (_ ≤ _))

/-- The number a press stores. -/
def Area.next (a : Area) (up : Bool) (v : ℚ) (w : World) : ℚ :=
  clamp a.lo a.hi (v + (if up then -1 else 1) * a.mover.step w)

/-! ## The number a press stores -/

theorem sliderStep_ge (bar : Slider) (height : ℚ) : 5 ≤ sliderStep bar height := by
  have hheight : 5 ≤ if 40 < height then ((height / 5).floor : ℚ) else 24 := by
    split
    · rename_i hlarge
      have hfloor : (5 : ℤ) ≤ (height / 5).floor := Rat.le_floor_iff.mpr (by push_cast; linarith)
      exact_mod_cast hfloor
    · norm_num
  unfold sliderStep
  cases bar.valueStep with
  | none => exact hheight
  | some step =>
    dsimp only
    split
    · exact hheight
    · linarith

theorem Mover.step_ge {w : World} {mover : Mover} {reading : ℚ × ℚ × ℚ} (h : mover.reading w = some reading) :
    5 ≤ mover.step w := by
  cases mover with
  | bar b =>
    obtain ⟨bar, hbar, _⟩ := Option.map_eq_some_iff.mp h
    rw [Mover.step, hbar]
    exact sliderStep_ge bar _
  | scrollFrame f =>
    rw [Mover.step]
    by_cases hsmall : (((w.frame f).height / 5).floor : ℚ) < 20
    · rw [if_pos hsmall]
      norm_num
    · rw [if_neg hsmall]
      linarith

theorem clamp_progress {a : Area} {up : Bool} {v step : ℚ} (hbounds : a.lo ≤ v ∧ v ≤ a.hi) (hstep : 5 ≤ step)
    (hend : ¬ a.AtEnd up v) :
    let v' := clamp a.lo a.hi (v + (if up then -1 else 1) * step)
    (a.lo ≤ v' ∧ v' ≤ a.hi) ∧ a.left up v' < a.left up v ∧ (a.left up v' = 0 ∨ a.left up v' ≤ a.left up v - 5) := by
  dsimp only
  unfold Area.AtEnd Area.left at hend
  unfold Area.left clamp
  cases up with
  | true =>
    simp only [if_true] at hend ⊢
    by_cases hlow : v + -1 * step < a.lo
    · rw [if_pos hlow, if_neg (by linarith)]
      refine ⟨⟨le_refl _, by linarith⟩, by linarith, Or.inl (by linarith)⟩
    · rw [if_neg hlow, if_neg (by linarith)]
      exact ⟨⟨by linarith, by linarith⟩, by linarith, Or.inr (by linarith)⟩
  | false =>
    simp only [Bool.false_eq_true, if_false] at hend ⊢
    rw [if_neg (show ¬ v + 1 * step < a.lo by linarith)]
    by_cases hhigh : a.hi < v + 1 * step
    · rw [if_pos hhigh]
      exact ⟨⟨by linarith, le_refl _⟩, by linarith, Or.inl (by linarith)⟩
    · rw [if_neg hhigh]
      exact ⟨⟨by linarith, by linarith⟩, by linarith, Or.inr (by linarith)⟩

/-! ## One press -/

variable {c : Client} {a : Area} {up : Bool} {v : ℚ} {s : St}

theorem atEnd_iff (slider : Slider) (h : (slider.minVal, slider.value, slider.maxVal) = (a.lo, v, a.hi)) :
    ((up && decide (slider.value ≤ slider.minVal + 1 / 100)) ||
      (!up && decide (slider.maxVal - 1 / 100 ≤ slider.value))) = true ↔ a.AtEnd up v := by
  obtain ⟨hlo, hv, hhi⟩ := by simpa only [Prod.mk.injEq] using h
  rw [hlo, hv, hhi]
  unfold Area.AtEnd Area.left
  cases up with
  | true => simp only [Bool.true_and, Bool.not_true, Bool.false_and, Bool.or_false, decide_eq_true_eq, if_true, sub_le_iff_le_add']
  | false =>
    simp only [Bool.false_and, Bool.not_false, Bool.true_and, Bool.false_or, decide_eq_true_eq, Bool.false_eq_true, if_false]
    constructor <;> intro <;> linarith

/-- The bar `PerformScroll` looks up. -/
theorem ofTarget_bar {w : World} {target b : FrameId} (h : Mover.ofTarget w target = some (.bar b)) :
    (if (w.frame target).slider.isSome then some target else scrollBarOf w target) = some b := by
  unfold Mover.ofTarget at h
  dsimp only at h
  split at h
  · rename_i b' hfilter
    obtain rfl : b' = b := by simpa using h
    exact (Option.filter_eq_some_iff.mp hfilter).1
  · split at h
    · cases h
    · cases h

/-- A scroll frame's target is the frame, and the bar looked up is none or no slider. -/
theorem ofTarget_scrollFrame {w : World} {target f : FrameId} (h : Mover.ofTarget w target = some (.scrollFrame f)) :
    f = target ∧ ((if (w.frame target).slider.isSome then some target else scrollBarOf w target).bind fun b =>
      (w.frame b).slider.map ((b, ·))) = none := by
  unfold Mover.ofTarget at h
  dsimp only at h
  split at h
  · simp at h
  · rename_i hfilter
    constructor
    · split at h
      · cases h
        rfl
      · cases h
    · rw [Option.bind_eq_none_iff]
      intro b hb
      have hslider := Option.filter_eq_none_iff.mp hfilter b hb
      simpa using hslider

/-- One press: nothing at the end, an error without a name, else the next number is stored. -/
theorem performScroll_area (h : AreaAt a up v s.world) : performScroll c (some a.target) up s =
    if a.AtEnd up v then .ok (false, s)
    else if a.Nameless then .error .concatenateNil
    else .ok (true, s.perform c (a.mover.store (a.next up v s.world))) := by
  have hmover := h.mover
  have hreading := h.reading
  unfold performScroll
  dsimp only
  cases hm : a.mover with
  | bar b =>
    rw [hm] at hmover hreading
    obtain ⟨slider, hslider, hsame⟩ := Option.map_eq_some_iff.mp hreading
    have hname := h.name b hm
    simp only [ofTarget_bar hmover, Option.bind_some, hslider, Option.map_some]
    by_cases hend : a.AtEnd up v
    · rw [if_pos hend, if_pos ((atEnd_iff slider hsame).mpr hend)]
    · rw [if_neg hend, if_neg (fun hcond => hend ((atEnd_iff slider hsame).mp hcond)), hname]
      cases hn : a.name with
      | none =>
        have hnameless : a.Nameless := ⟨by rw [hm]; rfl, hn⟩
        rw [if_pos hnameless]
      | some name =>
        have hnamed : ¬ a.Nameless := fun hnameless => by simp [hnameless.2] at hn
        have hnext : a.next up v s.world = clamp slider.minVal slider.maxVal
            (slider.value + (if up then -1 else 1) * sliderStep slider (s.world.frame b).height) := by
          obtain ⟨hlo, hv, hhi⟩ := by simpa only [Prod.mk.injEq] using hsame
          rw [Area.next, hm, Mover.step, hslider, ← hlo, ← hv, ← hhi]
          rfl
        rw [if_neg hnamed, hnext]
        simp only [h.noArrow name hn]
        rfl
  | scrollFrame f =>
    rw [hm] at hmover hreading
    obtain ⟨rfl, hnone⟩ := ofTarget_scrollFrame hmover
    obtain ⟨sf, hsf, hsame⟩ := Option.map_eq_some_iff.mp hreading
    obtain ⟨hlo, hv, hhi⟩ := by simpa only [Prod.mk.injEq] using hsame
    have hnamed : ¬ a.Nameless := fun hnameless => by simp [Area.Nameless, hm, Mover.isBar] at hnameless
    have hcond : ((up && decide (sf.verticalScroll ≤ 1 / 100)) ||
        (!up && decide (sf.verticalScrollRange - 1 / 100 ≤ sf.verticalScroll))) = true ↔ a.AtEnd up v := by
      rw [← atEnd_iff ⟨0, sf.verticalScrollRange, sf.verticalScroll, none⟩ hsame, zero_add]
    simp only [hnone, hsf]
    by_cases hend : a.AtEnd up v
    · rw [if_pos hend, if_pos (hcond.mpr hend)]
    · rw [if_neg hend, if_neg (fun h => hend (hcond.mp h)), if_neg hnamed, Area.next, hm, Mover.step, ← hlo, ← hv, ← hhi]
      rfl

/-! ## Presses of one direction -/

def scrollDir (up : Bool) : Dir := if up then .UP else .DOWN

/-- The focus is on the area. -/
structure OnArea (a : Area) (s : St) : Prop where
  active : s.nav.active = true
  notRolls : s.nav.context ≠ some .lootroll
  focus : ∃ e, elementAt s.nav.elements s.nav.index = some e ∧ e.isScrollArea = true ∧
    e.scrollTarget.or (some e.frame) = some a.target

section

variable (c : Client) (a : Area) (up : Bool) (s : St)

def pressScroll : St := (uiMoveDir c (scrollDir up) s).1

/-- The area does not scroll any more, and the press moves the focus. -/
def HandsOver : Prop :=
  performScroll c (some a.target) up s = .ok (false, s) ∧
    uiMoveDir c (scrollDir up) s = (moveSpatial c (scrollDir up) s, none)

/-- The talent window is scanned again after it scrolled: the focus or the number went
    elsewhere with that. -/
def RescanMoves : Prop :=
  s.nav.context = some .talent ∧ ∃ t v', performScroll c (some a.target) up s = .ok (true, t) ∧ AreaAt a up v' t.world ∧
    ¬ (OnArea a (refreshElements c t).1 ∧ AreaAt a up v' (refreshElements c t).1.world)

end

@[simp] theorem scrollDir_vertical (up : Bool) : (scrollDir up == .LEFT || scrollDir up == .RIGHT) = false := by
  cases up <;> rfl

@[simp] theorem scrollDir_up (up : Bool) : (scrollDir up == .UP) = up := by cases up <;> rfl

theorem uiMoveDir_area (hfocus : OnArea a s) : uiMoveDir c (scrollDir up) s = moveFocus c (scrollDir up) s := by
  obtain ⟨e, he, _⟩ := hfocus.focus
  have hlisted : s.nav.elements.isEmpty = false := by
    cases hel : s.nav.elements with
    | nil => simp [hel, elementAt] at he
    | cons _ _ => rfl
  have hrolls : (s.nav.context == some .lootroll) = false := by simpa using hfocus.notRolls
  unfold uiMoveDir
  simp only [hfocus.active, if_true, hlisted, Bool.false_eq_true, if_false]
  rw [moveInRolls, hrolls]
  rfl

theorem moveFocus_stays (hfocus : OnArea a s) {t : St} (h : performScroll c (some a.target) up s = .ok (false, t)) :
    moveFocus c (scrollDir up) s = (moveSpatial c (scrollDir up) t, none) := by
  obtain ⟨e, he, harea, htarget⟩ := hfocus.focus
  unfold moveFocus
  simp only [he, scrollDir_vertical, Bool.false_eq_true, if_false, harea, if_true, htarget, scrollDir_up, h]

theorem moveFocus_scrolls (hfocus : OnArea a s) {t : St} (h : performScroll c (some a.target) up s = .ok (true, t)) :
    moveFocus c (scrollDir up) s = if t.nav.context == some .talent then refreshElements c t else (t, none) := by
  obtain ⟨e, he, harea, htarget⟩ := hfocus.focus
  unfold moveFocus
  simp only [he, scrollDir_vertical, Bool.false_eq_true, if_false, harea, if_true, htarget, scrollDir_up, h]

theorem handsOver_atEnd (hfocus : OnArea a s) (h : AreaAt a up v s.world) (hend : a.AtEnd up v) : HandsOver c a up s := by
  have hstays : performScroll c (some a.target) up s = .ok (false, s) := by rw [performScroll_area h, if_pos hend]
  refine ⟨hstays, ?_⟩
  rw [uiMoveDir_area hfocus, moveFocus_stays hfocus hstays]

/-- The number of the area. -/
def Area.value (a : Area) (w : World) : ℚ := ((a.mover.reading w).map fun r => r.2.1).getD 0

theorem AreaAt.value_eq {w : World} (h : AreaAt a up v w) : a.value w = v := by
  rw [Area.value, h.reading]
  rfl

/-- A press before the end: the next number, unless a rescan moved something. -/
theorem pressScroll_scrolls (hstores : Stores c a up) (hfocus : OnArea a s) (h : AreaAt a up v s.world)
    (hend : ¬ a.AtEnd up v) (hname : ¬ a.Nameless) (hstill : ¬ RescanMoves c a up s) :
    OnArea a (pressScroll c up s) ∧ AreaAt a up (a.next up v s.world) (pressScroll c up s).world := by
  have hscrolls := performScroll_area (c := c) h
  rw [if_neg hend, if_neg hname] at hscrolls
  have hbounds := (clamp_progress h.bounds (Mover.step_ge h.reading) hend).1
  have hstored : AreaAt a up (a.next up v s.world) (s.perform c (a.mover.store (a.next up v s.world))).world :=
    hstores s.world v _ h hbounds.1 hbounds.2
  unfold pressScroll
  rw [uiMoveDir_area hfocus, moveFocus_scrolls hfocus hscrolls]
  by_cases htalent : s.nav.context = some .talent
  · have hcontext : ((s.perform c (a.mover.store (a.next up v s.world))).nav.context == some .talent) = true := by
      show (s.nav.context == some .talent) = true
      simpa using htalent
    rw [if_pos hcontext]
    by_contra hmoved
    exact hstill ⟨htalent, _, _, hscrolls, hstored, hmoved⟩
  · have hcontext : ¬ ((s.perform c (a.mover.store (a.next up v s.world))).nav.context == some .talent) = true := by
      show ¬ (s.nav.context == some .talent) = true
      simpa using htalent
    rw [if_neg hcontext]
    exact ⟨⟨hfocus.active, hfocus.notRolls, hfocus.focus⟩, hstored⟩

/-- The presses come to the end of the area. -/
theorem presses_end (hstores : Stores c a up) (hfocus : OnArea a s) (h : AreaAt a up v s.world) (hname : ¬ a.Nameless) :
    ∃ n, (HandsOver c a up ((pressScroll c up)^[n] s) ∨ RescanMoves c a up ((pressScroll c up)^[n] s)) ∧
      ∀ k < n, ∃ t, performScroll c (some a.target) up ((pressScroll c up)^[k] s) = .ok (true, t) := by
  let P : St → Prop := fun t => OnArea a t ∧ AreaAt a up (a.value t.world) t.world
  let done : St → Prop := fun t => a.AtEnd up (a.value t.world) ∨ RescanMoves c a up t
  have hlow : ∀ t, P t → 0 ≤ a.left up (a.value t.world) := by
    intro t ht
    have hbounds := ht.2.bounds
    unfold Area.left
    split <;> linarith
  have hstep : ∀ t, P t → ¬ done t → P (pressScroll c up t) ∧
      (done (pressScroll c up t) ∨ a.left up (a.value (pressScroll c up t).world) ≤ a.left up (a.value t.world) - 5) := by
    intro t ht hdone
    obtain ⟨hend, hstill⟩ := not_or.mp hdone
    obtain ⟨hon, hat⟩ := pressScroll_scrolls hstores ht.1 ht.2 hend hname hstill
    have hvalue := hat.value_eq
    have hfalls := (clamp_progress ht.2.bounds (Mover.step_ge ht.2.reading) hend).2.2
    refine ⟨⟨hon, by rw [hvalue]; exact hat⟩, ?_⟩
    rw [hvalue]
    rcases hfalls with hzero | hfalls
    · left; left
      show a.left up (a.value _) ≤ 1 / 100
      rw [hvalue, show a.left up (a.next up _ t.world) = 0 from hzero]
      norm_num
    · exact Or.inr hfalls
  obtain ⟨n, hP, hend, hbefore⟩ := iterate_reaches (by norm_num : (0 : ℚ) < 5) hlow hstep
    (a := s) ⟨hfocus, by rw [h.value_eq]; exact h⟩
  refine ⟨n, ?_, fun k hk => ?_⟩
  · rcases hend with hend | hmoved
    · exact Or.inl (handsOver_atEnd hP.1 hP.2 hend)
    · exact Or.inr hmoved
  · obtain ⟨hPk, hnot⟩ := hbefore k hk
    have hscrolls := performScroll_area (c := c) hPk.2
    rw [if_neg (not_or.mp hnot).1, if_neg hname] at hscrolls
    exact ⟨_, hscrolls⟩

/-- Presses on an area: they stop at the end only, store numbers further on before it, and
    come to it. -/
structure ScrollsOn (c : Client) (a : Area) (up : Bool) (v : ℚ) (s : St) : Prop where
  stops : (∃ t, performScroll c (some a.target) up s = .ok (false, t)) ↔ a.AtEnd up v
  stores : ¬ a.AtEnd up v → ∃ v', performScroll c (some a.target) up s = .ok (true, s.perform c (a.mover.store v')) ∧
    a.left up v' < a.left up v ∧ a.lo ≤ v' ∧ v' ≤ a.hi
  ends : OnArea a s → ∃ n,
    (HandsOver c a up ((pressScroll c up)^[n] s) ∨ RescanMoves c a up ((pressScroll c up)^[n] s)) ∧
    ∀ k < n, ∃ t, performScroll c (some a.target) up ((pressScroll c up)^[k] s) = .ok (true, t)

theorem performScroll_progress_iff (c : Client) (a : Area) (up : Bool) (hstores : Stores c a up) (s : St) (v : ℚ)
    (h : AreaAt a up v s.world) : ScrollsOn c a up v s ↔ (a.Nameless → a.AtEnd up v) := by
  have hpress := performScroll_area (c := c) h
  constructor
  · intro hon hname
    by_contra hend
    obtain ⟨v', hscrolls, _⟩ := hon.stores hend
    rw [hpress, if_neg hend, if_pos hname] at hscrolls
    cases hscrolls
  · intro hcond
    by_cases hend : a.AtEnd up v
    · rw [if_pos hend] at hpress
      refine ⟨⟨fun _ => hend, fun _ => ⟨s, hpress⟩⟩, fun hnot => absurd hend hnot, fun hfocus => ?_⟩
      exact ⟨0, Or.inl (handsOver_atEnd hfocus h hend), fun k hk => by omega⟩
    · have hname : ¬ a.Nameless := fun hname => hend (hcond hname)
      rw [if_neg hend, if_neg hname] at hpress
      obtain ⟨hbounds, hfurther, _⟩ := clamp_progress h.bounds (Mover.step_ge h.reading) hend
      refine ⟨⟨fun ⟨t, ht⟩ => ?_, fun hin => absurd hin hend⟩, fun _ => ⟨_, hpress, hfurther, hbounds⟩, fun hfocus => ?_⟩
      · rw [hpress] at ht
        cases ht
      · exact presses_end hstores hfocus h hname

/-! ## A client that stores the number -/

section Storing

def Frame.setNumber (mover : Mover) (value : ℚ) (id : FrameId) (f : Frame) : Frame :=
  match mover with
  | .bar b => if id = b then { f with slider := f.slider.map fun bar => { bar with value } } else f
  | .scrollFrame g =>
    if id = g then { f with scrollFrame := f.scrollFrame.map fun sf => { sf with verticalScroll := value } } else f

variable (mover : Mover) (value : ℚ) (id : FrameId) (f : Frame)

@[simp] theorem setNumber_name : (f.setNumber mover value id).name = f.name := by
  cases mover <;> (unfold Frame.setNumber; dsimp only; split <;> rfl)

@[simp] theorem setNumber_isEnabled : (f.setNumber mover value id).isEnabled = f.isEnabled := by
  cases mover <;> (unfold Frame.setNumber; dsimp only; split <;> rfl)

@[simp] theorem setNumber_clickable : (f.setNumber mover value id).clickable = f.clickable := by
  cases mover <;> (unfold Frame.setNumber; dsimp only; split <;> rfl)

@[simp] theorem setNumber_slider : (f.setNumber mover value id).slider.isSome = f.slider.isSome := by
  cases mover <;> (unfold Frame.setNumber; dsimp only; split <;> simp)

@[simp] theorem setNumber_scrollFrame : (f.setNumber mover value id).scrollFrame.isSome = f.scrollFrame.isSome := by
  cases mover <;> (unfold Frame.setNumber; dsimp only; split <;> simp)

def World.setNumber (w : World) : World where
  __ := w
  frame id := (w.frame id).setNumber mover value id
  named name f h := by
    rw [setNumber_name]
    exact w.named name f h

end Storing

def storingClient : Client where
  act call w := match call with
    | .setValue b value => (w.setNumber (.bar b) value, [])
    | .setVerticalScroll f value => (w.setNumber (.scrollFrame f) value, [])
    | _ => (w, [])
  answer _ _ := false
  hasSetBindingSpell := false
  mappings := bridgeMappings

theorem act_store (mover : Mover) (value : ℚ) (w : World) :
    (storingClient.act (mover.store value) w).1 = w.setNumber mover value := by
  cases mover <;> rfl

theorem ofTarget_setNumber (mover : Mover) (value : ℚ) (w : World) (target : FrameId) :
    Mover.ofTarget (w.setNumber mover value) target = Mover.ofTarget w target := by
  have hbar : scrollBarOf (w.setNumber mover value) target = scrollBarOf w target := by
    simp only [scrollBarOf, World.setNumber, setNumber_name]
  simp only [Mover.ofTarget, hbar]
  simp only [World.setNumber, setNumber_slider, setNumber_scrollFrame]

theorem reading_setNumber {mover : Mover} {value lo v hi : ℚ} {w : World} (h : mover.reading w = some (lo, v, hi)) :
    mover.reading (w.setNumber mover value) = some (lo, value, hi) := by
  cases mover with
  | bar b =>
    obtain ⟨bar, hbar, hsame⟩ := Option.map_eq_some_iff.mp h
    cases hsame
    simp [Mover.reading, World.setNumber, Frame.setNumber, hbar]
  | scrollFrame f =>
    obtain ⟨sf, hsf, hsame⟩ := Option.map_eq_some_iff.mp h
    cases hsame
    simp [Mover.reading, World.setNumber, Frame.setNumber, hsf]

theorem storingClient_stores (a : Area) (up : Bool) : Stores storingClient a up := by
  intro w v v' h hlo hhi
  rw [act_store]
  refine ⟨?_, reading_setNumber h.reading, ⟨hlo, hhi⟩, fun b hb => ?_, fun name hname => ?_⟩
  · rw [ofTarget_setNumber]
    exact h.mover
  · rw [World.setNumber, setNumber_name]
    exact h.name b hb
  · have harrow := h.noArrow name hname
    simpa only [enabledArrow, World.setNumber, setNumber_isEnabled, setNumber_clickable] using harrow

/-- A quest window with one slider in it. -/
def sliderQuest (name : Option String) : World := World.ofFrames
  [{ name := some "QuestFrame", visible := true, children := [1] },
   { name := name, visible := true, center := some (10, 10), objectType := .Slider, parent := some 0,
     slider := some ⟨0, 100, 50, none⟩ }]

def sliderState (name : Option String) : St :=
  run (Controller.step storingClient) (fresh (sliderQuest name) defaultDB fun _ => "") [.scan]

def sliderArea (name : Option String) : Area := ⟨1, .bar 1, 0, 100, name⟩

theorem named_bar_scrolls : ScrollsOn storingClient (sliderArea (some "QuestSlider")) false 50 (sliderState (some "QuestSlider")) := by
  refine (performScroll_progress_iff storingClient (sliderArea (some "QuestSlider")) false
    (storingClient_stores _ false) (sliderState (some "QuestSlider")) 50 ?_).mpr ?_
  · refine ⟨by decide +kernel, by decide +kernel, by decide +kernel, fun b hb => ?_, fun name hname => ?_⟩
    · cases hb
      decide +kernel
    · cases hname
      decide +kernel
  · intro hname
    exact absurd hname.2 (by decide)

/-- The scan lists a nameless slider, and the focus is on it. -/
theorem nameless_bar_traps : ¬ ∀ (c : Client) (a : Area) (up : Bool) (s : St) (v : ℚ), Stores c a up →
    AreaAt a up v s.world → OnArea a s → ScrollsOn c a up v s := by
  intro hall
  have hat : AreaAt (sliderArea none) false 50 (sliderState none).world := by
    refine ⟨by decide +kernel, by decide +kernel, by decide +kernel, fun b hb => ?_, fun name hname => ?_⟩
    · cases hb
      decide +kernel
    · cases hname
  have hfocus : OnArea (sliderArea none) (sliderState none) := by
    refine ⟨by decide +kernel, by decide +kernel, ?_⟩
    refine ⟨{ key := "DiscoveredScroll_1", frame := 1, scrollTarget := some 1, isScrollArea := true }, ?_, rfl, rfl⟩
    decide +kernel
  obtain ⟨v', hscrolls, _⟩ := (hall storingClient _ false _ 50 (storingClient_stores _ false) hat hfocus).stores
    (by decide +kernel)
  rw [performScroll_area hat, if_neg (by decide +kernel), if_pos (by decide)] at hscrolls
  cases hscrolls

end Nostalgia.Controller
