/-
  Nostalgia.Controller.Restore — leaving UI mode gives the player's keys back.

  `EnterUIMode` saves the action of every key before it writes it, the first time only,
  so however many buttons share a key the table holds what the key did before; a key
  without an action is saved as the empty text. `LeaveUIMode` writes the table back, then
  runs the layout pass over its six keys and persists the result.
  - `restores_step`: away from the six keys the saved actions stay those of the bindings
    before, through any event that writes no world bindings.
  - `leave_restores_keys`: so after leaving every other key is as before, the six keys
    have the world layout of the settings then, and that map is the one persisted.
-/

import Nostalgia.Controller.Keys
import Nostalgia.Machine.Run

namespace Nostalgia.Controller

open Nostalgia.Lua Nostalgia.Machine

variable {c : Client}

/-- Away from the layout keys, the bindings are `base`, or will be when UI mode is left. -/
structure Restores (base : String → String) (s : St) : Prop where
  inUIMode : s.nav.active = true →
    ∃ table, s.nav.temporaryBindings = some table ∧ Shadows (· ∉ layoutKeys) base s.bindings table
  outside : s.nav.active = false → ∀ key, key ∉ layoutKeys → s.bindings key = base key

variable {base : String → String}

theorem restores_keep {s s' : St} (h : SameKeys s s') (hr : Restores base s) : Restores base s' := by
  refine ⟨fun ha => ?_, fun ha key hkey => ?_⟩
  · rw [h.temporaryBindings, h.bindings]
    exact hr.inUIMode (h.active ▸ ha)
  · rw [h.bindings]
    exact hr.outside (h.active ▸ ha) key hkey

theorem restores_enter {s : St} (hr : Restores base s) : Restores base (enterUIMode c s) := by
  by_cases he : Enters s
  · have hentered := enterUIMode_spec (c := c) he
    refine ⟨fun _ => ?_, fun ha => ?_⟩
    · exact hentered.shadows _ _ (hr.outside he.1)
    · rw [hentered.active] at ha
      cases ha
  · rw [enterUIMode_idle he]
    exact hr

theorem layout_outside (save : Bool) (s : St) {key : String} (hkey : key ∉ layoutKeys) :
    (applyButtonLayout c save s).bindings key = s.bindings key := by
  cases hmode : s.uiModeActive with
  | true => rw [applyButtonLayout_active save hmode]
  | false =>
    rw [applyButtonLayout_bindings save hmode]
    apply putAll_of_not_mem
    rw [worldLayout_keys]
    exact hkey

theorem restores_layout (save : Bool) {s : St} (hr : Restores base s) : Restores base (applyButtonLayout c save s) := by
  refine ⟨fun ha => ?_, fun ha key hkey => ?_⟩
  · rw [applyButtonLayout_nav] at ha ⊢
    obtain ⟨table, ht, hs⟩ := hr.inUIMode ha
    exact ⟨table, ht, hs.congr fun key hkey => layout_outside save s hkey⟩
  · rw [applyButtonLayout_nav] at ha
    rw [layout_outside save s hkey]
    exact hr.outside ha key hkey

/-- Leaving restores the saved actions; the layout pass behind it keeps them. -/
theorem leave_outside {s : St} (hr : Restores base s) (ha : s.nav.active = true) {key : String} (hkey : key ∉ layoutKeys) :
    (leaveUIMode c s).bindings key = base key := by
  obtain ⟨u, hu, hleft⟩ := leaveUIMode_spec (c := c) ha
  obtain ⟨table, ht, hs⟩ := hr.inUIMode ha
  rw [hu, layout_outside true u hkey, hleft.bindings, ht]
  exact shadows_restore hs hkey

theorem restores_leave {s : St} (hr : Restores base s) : Restores base (leaveUIMode c s) := by
  cases ha : s.nav.active with
  | false => rw [leaveUIMode_idle ha]; exact hr
  | true =>
    refine ⟨fun hactive => ?_, fun _ key hkey => leave_outside hr ha hkey⟩
    obtain ⟨u, hu, hleft⟩ := leaveUIMode_spec (c := c) ha
    rw [hu, applyButtonLayout_nav, hleft.active] at hactive
    cases hactive

theorem restores_step {s : St} {e : Ev} (hi : e.installs = false) (ht : e.setsTarget = false) (hr : Restores base s) :
    Restores base (step c s e) :=
  (step_keyPath s hi ht).inv (fun _ _ h hr => restores_keep h hr) (fun _ _ _ hr => ⟨hr.inUIMode, hr.outside⟩)
    (fun _ hr => restores_enter hr) (fun _ hr => restores_leave hr) (fun save _ hr => restores_layout save hr) hr

theorem restores_run (es : List Ev) (s : St) (hes : ∀ e ∈ es, e.installs = false ∧ e.setsTarget = false)
    (hr : Restores base s) : Restores base (run (step c) s es) :=
  inv_run_of_mem (step c) es s (fun _ e he hr => restores_step (hes e he).1 (hes e he).2 hr) hr

/-- Leaving writes the six layout keys and persists the map it ends with. -/
theorem leave_layout {s : St} (ha : s.nav.active = true) :
    (∀ p ∈ worldLayout c s, (leaveUIMode c s).bindings p.1 = p.2) ∧
      (leaveUIMode c s).saves.getLast?.map (·.bindings) = some (leaveUIMode c s).bindings := by
  obtain ⟨u, hu, hleft⟩ := leaveUIMode_spec (c := c) ha
  have hsame : worldLayout c s = worldLayout c u := by
    unfold worldLayout primaryActionBinding
    rw [hleft.db, hleft.primarySpellNames]
  rw [hu]
  constructor
  · intro p hp
    rw [hsame] at hp
    rw [applyButtonLayout_bindings true hleft.uiModeActive]
    apply putAll_of_nodup _ _ hp
    rw [worldLayout_keys]
    decide
  · rw [applyButtonLayout_persists hleft.uiModeActive]
    simp

/-- From any state outside UI mode: enter, do anything that writes no world bindings, and
    leave. Every key but the six of the layout has the action it had before; the six have
    the world layout of the settings at that moment; and this map was persisted. -/
theorem leave_restores_keys (c : Client) (s : St) (hs : s.nav.active = false) (es : List Ev)
    (hes : ∀ e ∈ es, e.installs = false ∧ e.setsTarget = false)
    (hactive : (run (step c) (enterUIMode c s) es).nav.active = true) :
    let t := run (step c) (enterUIMode c s) es
    (∀ key, key ∉ layoutKeys → (leaveUIMode c t).bindings key = s.bindings key) ∧
      (∀ p ∈ worldLayout c t, (leaveUIMode c t).bindings p.1 = p.2) ∧
      (leaveUIMode c t).saves.getLast?.map (·.bindings) = some (leaveUIMode c t).bindings := by
  intro t
  have hstart : Restores s.bindings s := ⟨fun ha => absurd (hs ▸ ha) Bool.false_ne_true, fun _ _ _ => rfl⟩
  have ht : Restores s.bindings t := restores_run es _ hes (restores_enter hstart)
  exact ⟨fun key hkey => leave_outside ht hactive hkey, leave_layout hactive⟩

/-! ## A quest window -/

def questWorld : World := World.ofFrames
  [{ name := some "QuestFrame", visible := true },
   { name := some "QuestFrameDetailPanel", visible := true },
   { name := some "QuestFrameAcceptButton", visible := true, center := some (10, 10), isEnabled := some (some 1), clickable := true },
   { name := some "QuestFrameDeclineButton", visible := true, center := some (40, 10), isEnabled := some (some 1), clickable := true }]

/-- Two buttons share the key of Confirm, Down has none. -/
def sharedMappings : ButtonMappings :=
  { bridgeMappings with DPadUp := some "numpad0", DPadLeft := some "NUMPAD0", DPadDown := none }

/-- Settings and focus change while the quest window is open. -/
def questRun : List Ev := [.scan, .uiMove true, .swapXY, .uiMoveDir .LEFT, .layout true, .uiActivate, .spellsChanged]

def questStart : St := fresh questWorld defaultDB fun key => if key == "2" then "JUMP" else ""

/-- The general theorem on the run over the quest window. -/
theorem quest_window_restores_keys :
    let t := run (step (stillClient sharedMappings)) (enterUIMode (stillClient sharedMappings) questStart) questRun
    (∀ key, key ∉ layoutKeys → (leaveUIMode (stillClient sharedMappings) t).bindings key = questStart.bindings key) ∧
      (∀ p ∈ worldLayout (stillClient sharedMappings) t, (leaveUIMode (stillClient sharedMappings) t).bindings p.1 = p.2) ∧
      (leaveUIMode (stillClient sharedMappings) t).saves.getLast?.map (·.bindings) =
        some (leaveUIMode (stillClient sharedMappings) t).bindings :=
  leave_restores_keys (stillClient sharedMappings) questStart rfl questRun (by simp [questRun, Ev.installs, Ev.setsTarget])
    (by decide +kernel)

end Nostalgia.Controller
