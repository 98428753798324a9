/-
  Nostalgia.Controller.FocusStability — does a scan keep the focus? (DinoControllerUI.lua)

  In an unchanged context a scan should keep the focus on its key, or else on its index.
  `DinoController_UIActivate` leaves the index of the looted button as a hint for the scan
  that misses it. The hint has no context: nothing drops it when the loot window closes or
  the focus moves on, so the next scan anywhere that misses its key takes it.
  - `settleFocus_missing`: where the focus goes then.
  - `scan_stable_iff`: a scan keeps the focus exactly if it finds the key, or no hint is
    left, or the hint points to the same index.
  - `hint_from_loot`: the focus jumps in the inbox, to the index of a looted button.
-/

import Nostalgia.Machine.Run
import Nostalgia.Controller.Focus
import Nostalgia.Controller.Session

namespace Nostalgia.Controller

open Nostalgia.Lua Nostalgia.Machine

variable {c : Client}

/-! ## The law -/

def clampTo (elements : List Element) (index : Nat) : Nat := max 1 (min index elements.length)

/-- No element with the focused key is listed. -/
def Missing (nav : Nav) (elements : List Element) : Prop :=
  ∀ old, elementAt nav.elements nav.index = some old → findKey elements old.key = none

/-- A scan in the context the navigation is in, not of the rolls, with no focus request
    pending. -/
structure SameScan (c : Client) (s : St) (context : Context) (elements : List Element) : Prop where
  controller : s.db.controllerEnabled ≠ 0
  ui : s.db.uiEnabled ≠ 0
  same : s.nav.context = some context
  notRolls : context ≠ .lootroll
  built : (buildElements c s.screen).2 = (some context, elements)
  listed : elements ≠ []
  noQuestLogRequest : s.nav.pendingQuestLogFocus = false
  noMerchantRequest : s.nav.pendingMerchantBagFocus = false
  noBankRequest : s.nav.pendingBankFocus = false
  noTalentRequest : s.nav.pendingTalentFocus = false

/-- The focus is on the first element with the old key, or else on the old index. -/
structure KeepsFocus (s : St) (elements : List Element) (t : St) : Prop where
  onKey : ∀ old i, elementAt s.nav.elements s.nav.index = some old → findKey elements old.key = some i → t.nav.index = i
  onIndex : Missing s.nav elements → t.nav.index = clampTo elements s.nav.index

/-- A scan of the state, if it is one in the same context, keeps the focus. -/
def ScanStable (c : Client) (s : St) : Prop :=
  ∀ context elements, SameScan c s context elements → KeepsFocus s elements (refreshElements c s).1

/-- A scan that misses its key finds no hint, or one to the same index. -/
def HintHarmless (c : Client) (s : St) : Prop :=
  ∀ context elements, SameScan c s context elements → Missing s.nav elements →
    ∀ hint, s.nav.pendingLootIndex = some hint → clampTo elements hint = clampTo elements s.nav.index

/-! ## The scan -/

theorem preferredFocus_none {w : World} {nav : Nav} {context : Context} {elements : List Element}
    (hsame : nav.context = some context) (hrolls : context ≠ .lootroll) (hquestlog : nav.pendingQuestLogFocus = false)
    (hmerchant : nav.pendingMerchantBagFocus = false) (hbank : nav.pendingBankFocus = false)
    (htalent : nav.pendingTalentFocus = false) : preferredFocus w nav context elements none = .ok (none, nav) := by
  unfold preferredFocus
  simp [hsame, hrolls, hquestlog, hmerchant, hbank, htalent]

theorem refresh_index {s : St} {context : Context} {elements : List Element} (h : SameScan c s context elements) :
    (refreshElements c s).1.nav.index = (settleFocus s.nav context elements none).1 := by
  have hchoose : chooseFocus (readFrames c s).world s.nav context elements (suspendFocus s.nav context).2 =
      .ok ((settleFocus s.nav context elements none).1,
        { s.nav with pendingLootIndex := (settleFocus s.nav context elements none).2 }) := by
    unfold chooseFocus
    rw [suspendFocus_same h.same,
      preferredFocus_none h.same h.notRolls h.noQuestLogRequest h.noMerchantRequest h.noBankRequest h.noTalentRequest]
  have hreads : Reads c s context elements := ⟨⟨h.controller, h.ui⟩, h.built, h.listed⟩
  rw [refresh_scanned hreads]
  exact (focusOn_arrives (c := c) (s := s.withScreen (readFrames c s)) hreads.allowed hchoose).index

section Settle

variable {nav : Nav} {context : Context} {elements : List Element}

theorem settleFocus_found (hsame : nav.context = some context) {old : Element} {i : Nat}
    (hold : elementAt nav.elements nav.index = some old) (hfound : findKey elements old.key = some i) :
    (settleFocus nav context elements none).1 = i := by
  unfold settleFocus
  simp [hsame, hold, hfound]

/-- The hint decides, if there is one. -/
theorem settleFocus_missing (hsame : nav.context = some context) (hmissing : Missing nav elements) :
    (settleFocus nav context elements none).1 = clampTo elements (nav.pendingLootIndex.getD nav.index) := by
  have hnone : ((elementAt nav.elements nav.index).bind fun old => findKey elements old.key) = none := by
    cases hold : elementAt nav.elements nav.index with
    | none => rfl
    | some old => exact hmissing old hold
  unfold settleFocus
  simp only [hsame, bne_self_eq_false, Bool.false_eq_true, if_false, hnone]
  cases nav.pendingLootIndex with
  | none => rfl
  | some hint => rfl

end Settle

theorem scan_keeps_iff {s : St} {context : Context} {elements : List Element} (h : SameScan c s context elements) :
    KeepsFocus s elements (refreshElements c s).1 ↔ (Missing s.nav elements →
      ∀ hint, s.nav.pendingLootIndex = some hint → clampTo elements hint = clampTo elements s.nav.index) := by
  have hindex := refresh_index h
  constructor
  · intro hkeeps hmissing hint hhint
    have hclamp := hkeeps.onIndex hmissing
    rw [hindex, settleFocus_missing h.same hmissing, hhint] at hclamp
    exact hclamp
  · intro hharmless
    refine ⟨fun old i hold hfound => ?_, fun hmissing => ?_⟩
    · rw [hindex]
      exact settleFocus_found h.same hold hfound
    · rw [hindex, settleFocus_missing h.same hmissing]
      cases hhint : s.nav.pendingLootIndex with
      | none => rfl
      | some hint => exact hharmless hmissing hint hhint

/-- For every state a scan can start from, and so at every moment of every run. -/
theorem scan_stable_iff (c : Client) : (∀ s, ScanStable c s ↔ HintHarmless c s) ∧
    ∀ (w : World) (db : DB) (bindings : String → String) (es : List Ev),
      (∀ k, ScanStable c (stateAt (step c) (fresh w db bindings) es k)) ↔
        ∀ k, HintHarmless c (stateAt (step c) (fresh w db bindings) es k) := by
  have hstate : ∀ s, ScanStable c s ↔ HintHarmless c s := by
    intro s
    constructor
    · intro hstable context elements h
      exact (scan_keeps_iff h).mp (hstable context elements h)
    · intro hharmless context elements h
      exact (scan_keeps_iff h).mpr (hharmless context elements h)
  exact ⟨hstate, fun w db bindings es => forall_congr' fun k => hstate _⟩

/-! ## From a loot window to the inbox -/

def slotButton (name : String) (id : Nat) : Frame where
  name := some name
  visible := true
  center := some (40, 400 - 40 * id)
  isEnabled := some (some 1)
  clickable := true
  id := id

def lootWindow : World :=
  { World.ofFrames [{ name := some "LootFrame", visible := true }, slotButton "LootButton1" 1, slotButton "LootButton2" 2] with
    numLootItems := 2
    lootSlotIsItem := fun _ => true }

/-- An inbox of `n` mails. -/
def inbox (n : Nat) : World := World.ofFrames
  ({ name := some "MailFrame", visible := true } :: { name := some "InboxFrame", visible := true } ::
    (List.range' 1 n).map fun index => slotButton ("MailItem" ++ toString index ++ "Button") index)

/-- Confirm loots the first button, the window closes, the focus goes to the fourth mail, and
    that mail goes. -/
def inboxRun : List Ev := [.scan, .uiActivate, .frames (inbox 4), .scan, .uiMove false, .frames (inbox 3)]

def inboxState : St := stateAt (step (stillClient bridgeMappings)) (fresh lootWindow defaultDB fun _ => "") inboxRun 6

theorem inboxState_scan : SameScan (stillClient bridgeMappings) inboxState .mail (panelElements (inbox 3) .mail) where
  controller := by decide +kernel
  ui := by decide +kernel
  same := by decide +kernel
  notRolls := by decide
  built := by decide +kernel
  listed := by decide +kernel
  noQuestLogRequest := by decide +kernel
  noMerchantRequest := by decide +kernel
  noBankRequest := by decide +kernel
  noTalentRequest := by decide +kernel

theorem inboxState_missing : Missing inboxState.nav (panelElements (inbox 3) .mail) := by
  intro old hold
  have hkey : (elementAt inboxState.nav.elements inboxState.nav.index).map (·.key) = some "MailItem4Button" := by
    decide +kernel
  rw [hold] at hkey
  rw [show old.key = "MailItem4Button" from Option.some.inj hkey]
  decide +kernel

/-- The focus jumps to the first mail, not to the third. -/
theorem hint_from_loot : ¬ ∀ (c : Client) (w : World) (db : DB) (bindings : String → String) (es : List Ev) (k : Nat),
    ScanStable c (stateAt (step c) (fresh w db bindings) es k) := by
  intro h
  have hstable : ScanStable (stillClient bridgeMappings) inboxState :=
    h (stillClient bridgeMappings) lootWindow defaultDB (fun _ => "") inboxRun 6
  have hindex := (hstable _ _ inboxState_scan).onIndex inboxState_missing
  have hjump : (refreshElements (stillClient bridgeMappings) inboxState).1.nav.index = 1 := by decide +kernel
  have hclamp : clampTo (panelElements (inbox 3) .mail) inboxState.nav.index = 3 := by decide +kernel
  rw [hjump, hclamp] at hindex
  cases hindex

end Nostalgia.Controller
