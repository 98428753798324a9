/-
  Nostalgia.Controller.Agreement — the two modules agree on UI mode.

  DinoController keeps `uiModeActive` and `uiModeContext`, DinoControllerUI keeps `active`,
  `context` and the table of captured keys. They are written in three places: arriving in
  a context, leaving UI mode, and `DinoController_SetUIMode` when the context changes.
  - `modules_agree`: they agree at every instant of every run from login, also behind a
    handler that a Lua error ended.
-/

import Nostalgia.Controller.Handlers
import Nostalgia.Machine.Run

namespace Nostalgia.Controller

open Nostalgia.Lua Nostalgia.Machine

variable {c : Client}

/-- Nothing is left of UI mode. -/
structure Cleared (nav : Nav) : Prop where
  context : nav.context = none
  elements : nav.elements = []
  tooltipElement : nav.tooltipElement = none
  suspendedFocus : nav.suspendedFocus = none

structure ModulesAgree (s : St) : Prop where
  uiModeActive : s.uiModeActive = s.nav.active
  uiModeContext : s.nav.active = true → s.uiModeContext = s.nav.context
  temporaryBindings : s.nav.temporaryBindings.isSome = s.nav.active
  cleared : s.nav.active = false → Cleared s.nav

/-! ## Moves -/

theorem agree_mode {s t : St} (h : t.mode = s.mode) (hs : ModulesAgree s) : ModulesAgree t := by
  have hactive : t.nav.active = s.nav.active := congrArg Mode.active h
  have hcontext : t.nav.context = s.nav.context := congrArg Mode.context h
  have htable : t.nav.temporaryBindings = s.nav.temporaryBindings := congrArg Mode.temporaryBindings h
  refine ⟨?_, fun ha => ?_, ?_, fun ha => ?_⟩
  · rw [hactive, ← hs.uiModeActive]
    exact congrArg Mode.uiModeActive h
  · rw [hcontext, ← hs.uiModeContext (hactive ▸ ha)]
    exact congrArg Mode.uiModeContext h
  · rw [htable, hactive, hs.temporaryBindings]
  · have hclear := hs.cleared (hactive ▸ ha)
    exact ⟨hcontext.trans hclear.context, (congrArg Mode.elements h).trans hclear.elements,
      (congrArg Mode.tooltipElement h).trans hclear.tooltipElement,
      (congrArg Mode.suspendedFocus h).trans hclear.suspendedFocus⟩

theorem agree_withScreen (screen : Screen) {s : St} (hs : ModulesAgree s) : ModulesAgree (s.withScreen screen) :=
  ⟨hs.uiModeActive, hs.uiModeContext, hs.temporaryBindings, hs.cleared⟩

theorem agree_highlight {s : St} (hs : ModulesAgree s) : ModulesAgree (updateHighlight c s) := by
  obtain ⟨_, tooltip, _, hsame, htooltip⟩ := updateHighlight_hovered (c := c) s
  rw [hsame]
  refine ⟨hs.uiModeActive, hs.uiModeContext, hs.temporaryBindings, fun ha => ?_⟩
  have hclear := hs.cleared ha
  exact ⟨hclear.context, hclear.elements, htooltip ha, hclear.suspendedFocus⟩

theorem agree_steady {s t : St} (h : Steady c s t) (hs : ModulesAgree s) : ModulesAgree t := by
  induction h with
  | keep hmode _ => exact agree_mode hmode hs
  | perform call s _ => exact agree_withScreen _ hs
  | setSlot button slot s => exact agree_withScreen _ hs
  | highlight s => exact agree_highlight hs
  | trans _ _ ih1 ih2 => exact ih2 (ih1 hs)

/-- In UI mode with the key table. -/
theorem agree_of_active {s : St} (hui : s.uiModeActive = true) (ha : s.nav.active = true)
    (hcontext : s.uiModeContext = s.nav.context) (htable : s.nav.temporaryBindings.isSome = true) : ModulesAgree s := by
  refine ⟨hui.trans ha.symm, fun _ => hcontext, htable.trans ha.symm, fun h => ?_⟩
  rw [ha] at h
  cases h

theorem agree_enter {s : St} (h : Enters s) : ModulesAgree (enterUIMode c s) := by
  have hentered := enterUIMode_spec (c := c) h
  obtain ⟨table, htable, _⟩ := hentered.shadows (fun _ => False) s.bindings fun _ hno => hno.elim
  refine agree_of_active hentered.uiModeActive hentered.active ?_ (by rw [htable]; rfl)
  rw [(enterUIMode_sameList s).context]
  unfold enterUIMode
  rw [if_neg (by simp [h.1]), if_neg (by simp [h.2])]
  rfl

theorem agree_arrive (context : Context) (elements : List Element) (suspended : Option SuspendedFocus) {s : St}
    (ha : Allowed s) (hs : ModulesAgree s) : ModulesAgree (enterContext c context elements suspended s) := by
  unfold enterContext
  dsimp only
  cases hactive : s.nav.active with
  | false =>
    rw [if_pos (by simp [St.withNav, hactive])]
    exact agree_enter ⟨hactive, ha⟩
  | true =>
    rw [if_neg (by simp [St.withNav, hactive])]
    have hui := hs.uiModeActive.trans hactive
    have htable := hs.temporaryBindings.trans hactive
    by_cases hsame : s.nav.context = some context
    · rw [if_neg (by simp [hsame])]
      exact agree_of_active hui hactive ((hs.uiModeContext hactive).trans hsame) htable
    · rw [if_pos (by simp [hsame])]
      exact agree_of_active rfl hactive rfl htable

theorem agree_stays {s t : St} (h : Stays c s t) (hs : ModulesAgree s) : ModulesAgree t := by
  induction h with
  | steady h => exact agree_steady h hs
  | arrive context elements suspended s ha _ => exact agree_arrive context elements suspended ha hs
  | trans _ _ ih1 ih2 => exact ih2 (ih1 hs)

theorem agree_rebinds {s t : St} (h : Rebinds s t) (hs : ModulesAgree s) : ModulesAgree t := by
  refine ⟨?_, fun ha => ?_, ?_, fun ha => ?_⟩
  · rw [h.uiModeActive, h.nav, hs.uiModeActive]
  · rw [h.nav] at ha
    rw [h.uiModeContext, h.nav, hs.uiModeContext ha]
  · rw [h.nav, hs.temporaryBindings]
  · rw [h.nav] at ha ⊢
    exact hs.cleared ha

theorem agree_leave {s : St} (hs : ModulesAgree s) : ModulesAgree (leaveUIMode c s) := by
  cases ha : s.nav.active with
  | false =>
    rw [leaveUIMode_idle ha]
    exact hs
  | true =>
    have hnav := leave_nav (c := c) ha
    obtain ⟨u, hu, hleft⟩ := leaveUIMode_spec (c := c) ha
    have hmode : (leaveUIMode c s).uiModeActive = false := by
      rw [hu, applyButtonLayout_uiModeActive, hleft.uiModeActive]
    refine ⟨?_, fun hactive => ?_, ?_, fun _ => ?_⟩
    · rw [hmode, hnav]
      rfl
    · rw [hnav] at hactive
      cases hactive
    · rw [hnav]
      rfl
    · rw [hnav]
      exact ⟨rfl, rfl, rfl, rfl⟩

theorem agree_leaves {s t : St} (h : Leaves c s t) (hs : ModulesAgree s) : ModulesAgree t := by
  induction h with
  | steady h => exact agree_steady h hs
  | leave s => exact agree_leave hs
  | layout save s => exact agree_rebinds (rebinds_applyButtonLayout save s) hs
  | settings hmode => exact agree_mode hmode hs
  | trans _ _ ih1 ih2 => exact ih2 (ih1 hs)

/-! ## Runs -/

theorem agree_step (s : St) (e : Ev) (hs : ModulesAgree s) : ModulesAgree (step c s e) := by
  by_cases hwrites : e.installs = true ∨ e.setsTarget = true
  · exact agree_rebinds (step_rebinds s hwrites) hs
  · have hno : e.installs = false ∧ e.setsTarget = false := by simpa using hwrites
    cases hshows : e.shows with
    | true =>
      cases e with
      | frames w => exact agree_withScreen _ hs
      | _ => cases hshows
    | false =>
      obtain ⟨u, hstays, hleaves⟩ := step_handled (c := c) s hshows hno.1 hno.2
      exact agree_leaves hleaves (agree_stays hstays hs)

theorem agree_fresh (w : World) (db : DB) (bindings : String → String) : ModulesAgree (fresh w db bindings) :=
  ⟨rfl, fun _ => rfl, rfl, fun _ => ⟨rfl, rfl, rfl, rfl⟩⟩

/-- At every instant of every run. -/
theorem modules_agree (c : Client) (w : World) (db : DB) (bindings : String → String) (es : List Ev) (k : Nat) :
    ModulesAgree (stateAt (step c) (fresh w db bindings) es k) :=
  inv_stateAt (step c) (fun s e hs => agree_step s e hs) (agree_fresh w db bindings) es k

end Nostalgia.Controller
