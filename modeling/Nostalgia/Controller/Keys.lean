/-
  Nostalgia.Controller.Keys — what an event can do to key bindings.

  A `KeyPath` is a sequence of four moves: something that keeps the keys (`SameKeys`),
  `EnterUIMode`, `LeaveUIMode`, and the layout pass outside UI mode. A scan, a move, a
  press and every event that neither installs bindings nor sets the target mode is such a
  path (`step_keyPath`), so an invariant of the four moves is one of all of them
  (`KeyPath.inv`).
-/

import Nostalgia.Controller.Handlers

namespace Nostalgia.Controller

open Nostalgia.Lua Nostalgia.Machine

/-! ## The moves -/

/-- Nothing about the keys has changed. -/
structure SameKeys (s s' : St) : Prop where
  bindings : s'.bindings = s.bindings
  saves : s'.saves = s.saves
  uiModeActive : s'.uiModeActive = s.uiModeActive
  active : s'.nav.active = s.nav.active
  temporaryBindings : s'.nav.temporaryBindings = s.nav.temporaryBindings
  entry : s'.nav.entry = s.nav.entry

inductive KeyPath (c : Client) : St → St → Prop
  | keep {s s' : St} : SameKeys s s' → KeyPath c s s'
  | mode {s : St} (context : Option Context) : s.nav.active = true → KeyPath c s (setUIMode true context s)
  | enter (s : St) : KeyPath c s (enterUIMode c s)
  | leave (s : St) : KeyPath c s (leaveUIMode c s)
  | layout (save : Bool) (s : St) : KeyPath c s (applyButtonLayout c save s)
  | trans {a b d : St} : KeyPath c a b → KeyPath c b d → KeyPath c a d

variable {c : Client}

theorem KeyPath.inv {I : St → Prop} (hkeep : ∀ s s', SameKeys s s' → I s → I s')
    (hmode : ∀ s context, s.nav.active = true → I s → I (setUIMode true context s))
    (henter : ∀ s, I s → I (enterUIMode c s)) (hleave : ∀ s, I s → I (leaveUIMode c s))
    (hlayout : ∀ save s, I s → I (applyButtonLayout c save s)) {s s' : St} (h : KeyPath c s s') : I s → I s' := by
  induction h with
  | keep h => exact hkeep _ _ h
  | mode context h => exact hmode _ context h
  | enter s => exact henter s
  | leave s => exact hleave s
  | layout save s => exact hlayout save s
  | trans _ _ ih1 ih2 => exact fun hi => ih2 (ih1 hi)

/-! ## Frames and scans -/

theorem withScreen_keeps (screen : Screen) (s : St) : SameKeys s (s.withScreen screen) := ⟨rfl, rfl, rfl, rfl, rfl, rfl⟩

theorem enterContext_keyPath (context : Context) (elements : List Element) (suspended : Option SuspendedFocus) (s : St) :
    KeyPath c s (enterContext c context elements suspended s) := by
  unfold enterContext
  have hset : KeyPath c s
      (s.withNav fun nav => { nav with context := some context, elements, suspendedFocus := suspended }) :=
    .keep ⟨rfl, rfl, rfl, rfl, rfl, rfl⟩
  dsimp only
  split
  · exact hset.trans (.enter _)
  · rename_i hactive
    split
    · exact hset.trans (.mode _ (by simpa using hactive))
    · exact hset

/-! ## Events -/

theorem Steady.keeps {s t : St} (h : Steady c s t) : SameKeys s t := by
  have hmode := h.frame.1
  exact ⟨congrArg Mode.bindings hmode, congrArg Mode.saves hmode, congrArg Mode.uiModeActive hmode,
    congrArg Mode.active hmode, congrArg Mode.temporaryBindings hmode, congrArg Mode.entry hmode⟩

theorem Stays.keyPath {s t : St} (h : Stays c s t) : KeyPath c s t := by
  induction h with
  | steady h => exact .keep h.keeps
  | arrive context elements suspended s _ _ => exact enterContext_keyPath context elements suspended s
  | trans _ _ ih1 ih2 => exact ih1.trans ih2

theorem Leaves.keyPath {s t : St} (h : Leaves c s t) : KeyPath c s t := by
  induction h with
  | steady h => exact .keep h.keeps
  | leave s => exact .leave s
  | layout save s => exact .layout save s
  | settings hmode =>
    exact .keep ⟨congrArg Mode.bindings hmode, congrArg Mode.saves hmode, congrArg Mode.uiModeActive hmode,
      congrArg Mode.active hmode, congrArg Mode.temporaryBindings hmode, congrArg Mode.entry hmode⟩
  | trans _ _ ih1 ih2 => exact ih1.trans ih2

/-- An event that neither installs bindings nor sets the target mode. -/
theorem step_keyPath (s : St) {e : Ev} (hi : e.installs = false) (ht : e.setsTarget = false) :
    KeyPath c s (step c s e) := by
  cases hw : e.shows with
  | true =>
    cases e with
    | frames w => exact .keep (withScreen_keeps _ s)
    | _ => cases hw
  | false =>
    obtain ⟨u, hstays, hleaves⟩ := step_handled (c := c) s hw hi ht
    exact hstays.keyPath.trans hleaves.keyPath

end Nostalgia.Controller
