/-
  Nostalgia.Controller.Confirm — whether Confirm acts on what is highlighted.

  `DinoController_UIActivate` has a test of its own for the loot window: visible, and no
  roll visible. `BuildElements` puts dropdowns, popups and other panels before the loot
  window, so with one of these over it the highlight is on a button of that frame while
  Confirm takes it for a loot button: its `id` is a loot slot, or Confirm does nothing.
  Without a loot window Confirm scans first and activates whatever the focus then is on;
  where the highlighted element is gone this is another one.
  - `presses_loot_iff`, `presses_lootScan_iff`, `presses_scan_iff`: what each branch
    activates is right.
  - `confirm_acts_iff`: exactly when Confirm acts on the highlighted element, and on the
    one of a frame over the loot window in any case.
  - `confirm_loots_under_popup`: a popup over the loot window.
-/

import Nostalgia.Controller.Focus
import Nostalgia.Controller.LootButtons
import Nostalgia.Controller.Session
import Nostalgia.Machine.Run

namespace Nostalgia.Controller

open Nostalgia.Lua Nostalgia.Machine

variable {c : Client}

/-! ## The property -/

/-- The press activates the highlighted element; `context` is the one it is made in. The
    loot branch can only stand for an element of the loot window: its loot button, or its
    close button. -/
def Press.activates (context : Option Context) (h : Highlight) : Press → Prop
  | .closeLoot => h.context = some .loot ∧ h.element.key = "LootCloseButton"
  | .lootButton button _ => h.context = some .loot ∧ h.element.action = some (.activateLootButton button)
  | .element e => context = h.context ∧ e.key = h.element.key

/-- The press calls `LootSlot`. -/
def Press.loots : Press → Prop
  | .closeLoot => False
  | .lootButton _ _ => True
  | .element e => e.Loots

/-- Confirm activates an element: usable, and no scroll area. -/
def activatable (w : World) (e : Element) : Bool := usableElement w e && !e.isScrollArea

variable (c) in
/-- A frame that `BuildElements` puts before it covers the visible loot window: any other
    context is one of these then. -/
def LootCovered (s : St) : Prop := visible s.world "LootFrame" = true ∧ (buildElements c s.screen).2.1 ≠ some .loot

variable (c) in
/-- The highlight is on a button of the frame that covers the loot window. -/
structure ButtonOverLoot (s : St) (h : Highlight) : Prop where
  covered : LootCovered c s
  context : h.context = (buildElements c s.screen).2.1
  button : ∃ e ∈ (buildElements c s.screen).2.2, e.key = h.element.key ∧ activatable s.world e = true

variable (c) in
/-- One Confirm acts on what is highlighted. -/
structure ActsOnHighlighted (s : St) : Prop where
  /-- What is activated, if anything, is the highlighted element. -/
  only : ∀ t press, pressTarget c s = (t, none, some press) →
    ∃ h, s.nav.highlight = some h ∧ press.activates t.nav.context h
  /-- Nothing is looted through a frame that covers the loot window. -/
  noLoot : LootCovered c s → ∀ t press, pressTarget c s = (t, none, some press) → ¬ press.loots
  /-- A highlighted button of such a frame is activated. -/
  button : ∀ h, s.nav.highlight = some h → ButtonOverLoot c s h →
    ∃ t e, pressTarget c s = (t, none, some (.element e)) ∧ t.nav.context = h.context ∧ e.key = h.element.key

/-! ## The condition -/

/-- The loot branch on the focused element `e`: it stands for no loot slot, or it is the
    highlighted element of a loot window that nothing covers. -/
structure LootSafe (highlight : Option Highlight) (covered : Prop) (w : World) (e : Element) : Prop where
  close : (w.frame e.frame).name = some "LootCloseButton" →
    ∃ h, highlight = some h ∧ h.context = some .loot ∧ h.element.key = "LootCloseButton"
  loot : (w.frame e.frame).name ≠ some "LootCloseButton" → (lootableSlot w e.frame).isSome → ¬ covered ∧
    ∃ h, highlight = some h ∧ h.context = some .loot ∧ h.element.action = some (.activateLootButton e.frame)

/-- The highlight is on the element with the focus. Only a scan that failed leaves it behind. -/
def InStep (nav : Nav) (h : Highlight) : Prop :=
  nav.context = h.context ∧ ∃ old, elementAt nav.elements nav.index = some old ∧ old.key = h.element.key

variable (c) in
/-- The scan before the press finds the context of the highlight again. If the highlight
    is in step, its key is still listed and no pending request asks for another one; if it
    was left behind, the focus falls to it. -/
structure HighlightStays (s : St) (h : Highlight) (context : Context) : Prop where
  found : h.context = some context
  inStep : InStep s.nav h → (∃ e' ∈ (buildElements c s.screen).2.2, e'.key = h.element.key) ∧
    ∀ i, requestedFocus (buildElements c s.screen).1.world s.nav context (buildElements c s.screen).2.2 = some i →
      keyAt (buildElements c s.screen).2.2 i = some h.element.key
  behind : ¬ InStep s.nav h → FallsTo (buildElements c s.screen).1.world s.nav context (buildElements c s.screen).2.2
    (suspendFocus s.nav context).2 h.element.key

variable (c) in
/-- The condition, branch by branch. -/
structure ConfirmSafe (s : St) : Prop where
  loot : lootBranch s.world = true → s.nav.elements ≠ [] → ∀ e, elementAt s.nav.elements s.nav.index = some e →
    LootSafe s.nav.highlight (LootCovered c s) s.world e
  lootScan : lootBranch s.world = true → s.nav.elements = [] → ∀ context e, scanFocus c s = some (context, e) →
    LootSafe s.nav.highlight (LootCovered c s) (refreshElements c s).1.world e
  /-- The loot branch never reaches a button over the loot window. -/
  lootButton : lootBranch s.world = true → ∀ h, s.nav.highlight = some h → ¬ ButtonOverLoot c s h
  scan : lootBranch s.world = false → ∀ context e, scanFocus c s = some (context, e) →
    activatable (refreshElements c s).1.world e = true → ∃ h, s.nav.highlight = some h ∧ HighlightStays c s h context
  scanButton : lootBranch s.world = false → ∀ h, s.nav.highlight = some h → ButtonOverLoot c s h →
    ∃ context e, scanFocus c s = some (context, e) ∧ activatable (refreshElements c s).1.world e = true

/-! ## The loot branch -/

variable (c) in
/-- The press is the highlighted element, and no loot slot under a covering frame. -/
def RightPress (s : St) (context : Option Context) (press : Press) : Prop :=
  (∃ h, s.nav.highlight = some h ∧ press.activates context h) ∧ (LootCovered c s → ¬ press.loots)

variable (c) in
/-- Whatever Confirm activates is right. -/
def RightPresses (s : St) : Prop :=
  ∀ t press, pressTarget c s = (t, none, some press) → RightPress c s t.nav.context press

/-- What the loot branch activates in the state `t`, where `s` is the one before the press. -/
theorem lootPress_safe_iff (s t : St) (context : Option Context) :
    (∀ press, lootPress t = some press → RightPress c s context press) ↔
      ∀ e, elementAt t.nav.elements t.nav.index = some e → LootSafe s.nav.highlight (LootCovered c s) t.world e := by
  unfold lootPress
  cases he : elementAt t.nav.elements t.nav.index with
  | none => simp
  | some e =>
    dsimp only
    by_cases hname : (t.world.frame e.frame).name = some "LootCloseButton"
    · rw [if_pos (by simp [hname])]
      constructor
      · intro hall e' he'
        obtain rfl := Option.some.inj he'
        exact ⟨fun _ => (hall .closeLoot rfl).1, fun hne => absurd hname hne⟩
      · intro hsafe press hp
        obtain rfl := Option.some.inj hp
        exact ⟨(hsafe e rfl).close hname, fun _ h => h⟩
    · rw [if_neg (by simp [hname])]
      constructor
      · intro hall e' he'
        obtain rfl := Option.some.inj he'
        refine ⟨fun h => absurd h hname, fun _ hslot => ?_⟩
        obtain ⟨slot, hslot⟩ := Option.isSome_iff_exists.mp hslot
        obtain ⟨hhigh, hno⟩ := hall (.lootButton e.frame slot) (by rw [hslot]; rfl)
        exact ⟨fun hcovered => hno hcovered trivial, hhigh⟩
      · intro hsafe press hp
        obtain ⟨slot, hslot, rfl⟩ := Option.map_eq_some_iff.mp hp
        obtain ⟨hopen, hhigh⟩ := (hsafe e rfl).loot hname (by simp [hslot])
        exact ⟨hhigh, fun hcovered => absurd hcovered hopen⟩

/-- The loot branch activates no element but a loot button and the close button. -/
theorem lootPress_ne_element (t : St) (e : Element) : lootPress t ≠ some (.element e) := by
  unfold lootPress
  intro h
  split at h
  · cases h
  · split at h
    · cases h
    · obtain ⟨slot, _, heq⟩ := Option.map_eq_some_iff.mp h
      cases heq

theorem pressTarget_loot {s : St} (hloot : lootBranch s.world = true) (hne : s.nav.elements ≠ []) :
    pressTarget c s = (s, none, lootPress s) := by
  unfold pressTarget
  rw [if_pos hloot, if_neg (by simpa using hne)]

/-- With nothing listed the loot branch scans first. -/
theorem pressTarget_lootScan {s : St} (hloot : lootBranch s.world = true) (hempty : s.nav.elements = []) :
    pressTarget c s = ((refreshElements c s).1, (refreshElements c s).2,
      if (refreshElements c s).2 = none then lootPress (refreshElements c s).1 else none) := by
  unfold pressTarget
  rw [if_pos hloot, if_pos (by simp [hempty])]
  generalize refreshElements c s = result
  obtain ⟨u, err⟩ := result
  cases err <;> rfl

theorem pressTarget_loot_ne_element {s t : St} (hloot : lootBranch s.world = true) (e : Element) :
    pressTarget c s ≠ (t, none, some (.element e)) := by
  by_cases hempty : s.nav.elements = []
  · rw [pressTarget_lootScan hloot hempty]
    intro heq
    have hpress := (Prod.mk.inj (Prod.mk.inj heq).2).2
    split at hpress
    · exact lootPress_ne_element _ e hpress
    · cases hpress
  · rw [pressTarget_loot hloot hempty]
    intro heq
    exact lootPress_ne_element s e (Prod.mk.inj (Prod.mk.inj heq).2).2

theorem presses_loot_iff {s : St} (hloot : lootBranch s.world = true) (hne : s.nav.elements ≠ []) :
    RightPresses c s ↔ ∀ e, elementAt s.nav.elements s.nav.index = some e →
      LootSafe s.nav.highlight (LootCovered c s) s.world e := by
  rw [← lootPress_safe_iff s s s.nav.context]
  unfold RightPresses
  rw [pressTarget_loot hloot hne]
  constructor
  · intro h press hp
    exact h s press (by rw [hp])
  · intro h t press heq
    obtain ⟨rfl, hrest⟩ := Prod.mk.inj heq
    exact h press (Prod.mk.inj hrest).2

theorem presses_lootScan_iff {s : St} (hloot : lootBranch s.world = true) (hempty : s.nav.elements = []) :
    RightPresses c s ↔ ∀ context e, scanFocus c s = some (context, e) →
      LootSafe s.nav.highlight (LootCovered c s) (refreshElements c s).1.world e := by
  unfold RightPresses
  rw [pressTarget_lootScan hloot hempty]
  cases hscan : scanFocus c s with
  | none =>
    refine ⟨fun _ _ _ h => (by cases h), fun _ t press heq => ?_⟩
    exfalso
    obtain ⟨_, hrest⟩ := Prod.mk.inj heq
    obtain ⟨hok, hpress⟩ := Prod.mk.inj hrest
    rw [if_pos hok] at hpress
    rcases refresh_unfocused (c := c) hscan with herr | ⟨_, hel⟩
    · rw [hok] at herr
      cases herr
    · simp [lootPress, hel hempty, elementAt] at hpress
  | some focus =>
    obtain ⟨context, e⟩ := focus
    obtain ⟨hok, hfocus⟩ := refresh_focused (c := c) hscan
    rw [if_pos hok]
    have hiff := lootPress_safe_iff (c := c) s (refreshElements c s).1 (refreshElements c s).1.nav.context
    constructor
    · intro hall context' e' heq
      obtain ⟨rfl, rfl⟩ := Prod.mk.inj (Option.some.inj heq)
      exact hiff.mp (fun press hp => hall _ press (by rw [hp, hok])) e hfocus.focus
    · intro hall t press heq
      obtain ⟨rfl, hrest⟩ := Prod.mk.inj heq
      refine hiff.mpr (fun e' he' => ?_) press (Prod.mk.inj hrest).2
      have hsame := hfocus.focus.symm.trans he'
      obtain rfl := Option.some.inj hsame
      exact hall context e rfl

/-! ## The scan before the press -/

theorem pressTarget_scan {s : St} (hloot : lootBranch s.world = false) {context : Context} {e : Element}
    (hscan : scanFocus c s = some (context, e)) :
    pressTarget c s = ((refreshElements c s).1, none,
      if activatable (refreshElements c s).1.world e then some (.element e) else none) := by
  obtain ⟨hok, hfocus⟩ := refresh_focused (c := c) hscan
  unfold pressTarget
  rw [if_neg (by simp [hloot])]
  dsimp only
  generalize refreshElements c s = result at hok hfocus ⊢
  obtain ⟨u, err⟩ := result
  obtain rfl : err = none := hok
  have hactive : u.nav.active = true := hfocus.active
  have hel : elementAt u.nav.elements u.nav.index = some e := hfocus.focus
  dsimp only
  rw [if_pos hactive, hel]
  show (if (usableElement u.world e && !e.isScrollArea) = true then _ else _) = _
  unfold activatable
  split
  · rfl
  · rfl

theorem pressTarget_unfocused {s t : St} (hloot : lootBranch s.world = false) (hscan : scanFocus c s = none)
    (press : Press) : pressTarget c s ≠ (t, none, some press) := by
  intro heq
  unfold pressTarget at heq
  rw [if_neg (by simp [hloot])] at heq
  dsimp only at heq
  rcases refresh_unfocused (c := c) hscan with herr | ⟨hinactive, _⟩
  · generalize refreshElements c s = result at heq herr
    obtain ⟨u, err⟩ := result
    cases err with
    | none => cases herr
    | some err => cases heq
  · generalize refreshElements c s = result at heq hinactive
    obtain ⟨u, err⟩ := result
    cases err with
    | some err => cases heq
    | none =>
      dsimp only at heq
      rw [if_neg (by simp [show u.nav.active = false from hinactive])] at heq
      cases heq

/-- A scan that finds an element keeps the highlight exactly under `HighlightStays`. -/
theorem highlightStays_iff {s : St} {h : Highlight} {context : Context} {e : Element}
    (hscan : scanFocus c s = some (context, e)) :
    some context = h.context ∧ e.key = h.element.key ↔ HighlightStays c s h context := by
  obtain ⟨_, index, requests, he, hchoose⟩ := scanFocus_choice (c := c) hscan
  have hstep : InStep s.nav h → h.context = some context → (e.key = h.element.key ↔
      (∃ e' ∈ (buildElements c s.screen).2.2, e'.key = h.element.key) ∧
        ∀ i, requestedFocus (buildElements c s.screen).1.world s.nav context (buildElements c s.screen).2.2 = some i →
          keyAt (buildElements c s.screen).2.2 i = some h.element.key) := by
    intro ⟨hctx, old, hold, hkey⟩ hh
    have hsame : s.nav.context = some context := hctx.trans hh
    rw [suspendFocus_same hsame] at hchoose
    rw [← hkey]
    exact chooseFocus_stays_iff hsame hold hchoose he
  have hfalls : e.key = h.element.key ↔ FallsTo (buildElements c s.screen).1.world s.nav context
      (buildElements c s.screen).2.2 (suspendFocus s.nav context).2 h.element.key := chooseFocus_fallsTo_iff hchoose he
  constructor
  · intro ⟨hctx, hkey⟩
    exact ⟨hctx.symm, fun hin => (hstep hin hctx.symm).mp hkey, fun _ => hfalls.mp hkey⟩
  · intro hstays
    refine ⟨hstays.found.symm, ?_⟩
    by_cases hin : InStep s.nav h
    · exact (hstep hin hstays.found).mpr (hstays.inStep hin)
    · exact hfalls.mpr (hstays.behind hin)

/-- The element a scan focuses is none of a loot slot, if the loot window is covered. -/
theorem scanFocus_lootless {s : St} {context : Context} {e : Element} (hscan : scanFocus c s = some (context, e))
    (hcovered : LootCovered c s) : ¬ e.Loots := by
  obtain ⟨_, index, _, he, _⟩ := scanFocus_choice (c := c) hscan
  exact buildElements_lootless hcovered.2 e (elementAt_mem he)

theorem presses_scan_iff {s : St} (hloot : lootBranch s.world = false) :
    RightPresses c s ↔ ∀ context e, scanFocus c s = some (context, e) →
      activatable (refreshElements c s).1.world e = true →
        ∃ h, s.nav.highlight = some h ∧ HighlightStays c s h context := by
  cases hscan : scanFocus c s with
  | none => exact ⟨fun _ _ _ h => (by cases h), fun _ t press heq => absurd heq (pressTarget_unfocused hloot hscan press)⟩
  | some focus =>
    obtain ⟨context, e⟩ := focus
    have htarget := pressTarget_scan (c := c) hloot hscan
    have hctx : (refreshElements c s).1.nav.context = some context := (refresh_focused (c := c) hscan).2.context
    unfold RightPresses
    rw [htarget]
    constructor
    · intro hall context' e' heq hact
      obtain ⟨rfl, rfl⟩ := Prod.mk.inj (Option.some.inj heq)
      obtain ⟨⟨h, hh, hpress⟩, _⟩ := hall (refreshElements c s).1 (.element e) (by rw [if_pos hact])
      refine ⟨h, hh, (highlightStays_iff hscan).mp ⟨?_, hpress.2⟩⟩
      rw [← hctx]
      exact hpress.1
    · intro hall t press heq
      obtain ⟨rfl, hrest⟩ := Prod.mk.inj heq
      have hpress := (Prod.mk.inj hrest).2
      split at hpress
      · rename_i hact
        obtain rfl := Option.some.inj hpress
        obtain ⟨h, hh, hstays⟩ := hall context e rfl hact
        have hsame := (highlightStays_iff hscan).mpr hstays
        exact ⟨⟨h, hh, hctx.trans hsame.1, hsame.2⟩, scanFocus_lootless hscan⟩
      · cases hpress

/-- Where whatever is activated is right, the scan activates the highlighted button
    exactly if it ends on one that can be activated. -/
theorem scanButton_iff {s : St} (hloot : lootBranch s.world = false) (hright : RightPresses c s) {h : Highlight}
    (hh : s.nav.highlight = some h) :
    (∃ t e, pressTarget c s = (t, none, some (.element e)) ∧ t.nav.context = h.context ∧ e.key = h.element.key) ↔
      ∃ context e, scanFocus c s = some (context, e) ∧ activatable (refreshElements c s).1.world e = true := by
  constructor
  · rintro ⟨t, e, htarget, _⟩
    cases hscan : scanFocus c s with
    | none => exact absurd htarget (pressTarget_unfocused hloot hscan _)
    | some focus =>
      obtain ⟨context, e'⟩ := focus
      rw [pressTarget_scan hloot hscan] at htarget
      have hpress := (Prod.mk.inj (Prod.mk.inj htarget).2).2
      split at hpress
      · rename_i hact
        exact ⟨context, e', rfl, hact⟩
      · cases hpress
  · rintro ⟨context, e, hscan, hact⟩
    have htarget := pressTarget_scan (c := c) hloot hscan
    rw [if_pos hact] at htarget
    obtain ⟨⟨h', hh', hpress⟩, _⟩ := hright _ _ htarget
    obtain rfl := Option.some.inj (hh.symm.trans hh')
    exact ⟨_, e, htarget, hpress⟩

theorem actsOnHighlighted_split (s : St) : ActsOnHighlighted c s ↔ RightPresses c s ∧
    ∀ h, s.nav.highlight = some h → ButtonOverLoot c s h →
      ∃ t e, pressTarget c s = (t, none, some (.element e)) ∧ t.nav.context = h.context ∧ e.key = h.element.key := by
  constructor
  · intro h
    exact ⟨fun t press hp => ⟨h.only t press hp, fun hcovered => h.noLoot hcovered t press hp⟩, h.button⟩
  · rintro ⟨hright, hbutton⟩
    exact ⟨fun t press hp => (hright t press hp).1, fun hcovered t press hp => (hright t press hp).2 hcovered, hbutton⟩

theorem confirm_loot_iff {s : St} (hloot : lootBranch s.world = true) : ActsOnHighlighted c s ↔ ConfirmSafe c s := by
  have hno : ∀ {P : Prop}, lootBranch s.world = false → P := by
    intro P h
    rw [hloot] at h
    cases h
  have hdead : ∀ h : Highlight,
      ¬ ∃ t e, pressTarget c s = (t, none, some (.element e)) ∧ t.nav.context = h.context ∧ e.key = h.element.key :=
    fun _ ⟨_, e, htarget, _⟩ => pressTarget_loot_ne_element hloot e htarget
  rw [actsOnHighlighted_split]
  by_cases hempty : s.nav.elements = []
  · rw [presses_lootScan_iff hloot hempty]
    constructor
    · rintro ⟨hright, hbutton⟩
      exact ⟨fun _ hne => absurd hempty hne, fun _ _ => hright,
        fun _ h hh hover => hdead h (hbutton h hh hover), hno, hno⟩
    · intro hsafe
      exact ⟨hsafe.lootScan hloot hempty, fun h hh hover => absurd hover (hsafe.lootButton hloot h hh)⟩
  · rw [presses_loot_iff hloot hempty]
    constructor
    · rintro ⟨hright, hbutton⟩
      exact ⟨fun _ _ => hright, fun _ he => absurd he hempty,
        fun _ h hh hover => hdead h (hbutton h hh hover), hno, hno⟩
    · intro hsafe
      exact ⟨hsafe.loot hloot hempty, fun h hh hover => absurd hover (hsafe.lootButton hloot h hh)⟩

theorem confirm_scan_iff {s : St} (hloot : lootBranch s.world = false) : ActsOnHighlighted c s ↔ ConfirmSafe c s := by
  have hno : ∀ {P : Prop}, lootBranch s.world = true → P := by
    intro P h
    rw [hloot] at h
    cases h
  rw [actsOnHighlighted_split]
  constructor
  · rintro ⟨hright, hbutton⟩
    exact ⟨hno, hno, hno, fun _ => (presses_scan_iff hloot).mp hright,
      fun _ h hh hover => (scanButton_iff hloot hright hh).mp (hbutton h hh hover)⟩
  · intro hsafe
    have hright := (presses_scan_iff hloot).mpr (hsafe.scan hloot)
    exact ⟨hright, fun h hh hover => (scanButton_iff hloot hright hh).mpr (hsafe.scanButton hloot h hh hover)⟩

/-- Whatever frames are visible, whatever was scanned and wherever the focus is. -/
theorem confirm_acts_iff (c : Client) (s : St) : ActsOnHighlighted c s ↔ ConfirmSafe c s := by
  cases hloot : lootBranch s.world with
  | true => exact confirm_loot_iff hloot
  | false => exact confirm_scan_iff hloot

/-! ## A popup over the loot window -/

/-- The popup that asks before binding an item, over the window the item is looted from. -/
def popupOverLoot : World :=
  { World.ofFrames
      [{ name := some "StaticPopup1", visible := true },
       { name := some "StaticPopup1Button1", visible := true, center := some (100, 300), isEnabled := some (some 1),
         clickable := true, id := 1 },
       { name := some "LootFrame", visible := true },
       { name := some "LootButton1", visible := true, center := some (50, 200), isEnabled := some (some 1),
         clickable := true, id := 1 }] with
    numLootItems := 1
    lootSlotIsItem := fun _ => true }

/-- The same popup with nothing left to loot. -/
def popupOverEmpty : World := { popupOverLoot with numLootItems := 0 }

-- its highlighted button is dead: Confirm takes it for a loot button that stands for no slot
example : let s := run (step (stillClient bridgeMappings)) (fresh popupOverEmpty defaultDB fun _ => "") [.scan]
    s.nav.highlight.map (fun h => h.element.key) = some "StaticPopup1Button1" ∧
      (pressTarget (stillClient bridgeMappings) s).2 = (none, none) := by
  decide +kernel

/-- The highlight is on the popup's first button; Confirm loots slot 1 through it. -/
theorem confirm_loots_under_popup : ¬ ∀ (c : Client) (w : World) (db : DB) (bindings : String → String) (es : List Ev),
    ActsOnHighlighted c (run (step c) (fresh w db bindings) es) := by
  intro h
  have hacts := h (stillClient bridgeMappings) popupOverLoot defaultDB (fun _ => "") [.scan]
  generalize hs : run (step (stillClient bridgeMappings)) (fresh popupOverLoot defaultDB fun _ => "") [.scan] = s at hacts
  have hpress : (pressTarget (stillClient bridgeMappings) s).2 = (none, some (.lootButton 1 1)) := by
    rw [← hs]
    decide +kernel
  have hhigh : s.nav.highlight.map (fun h => (h.context, h.element.key)) = some (some .popup, "StaticPopup1Button1") := by
    rw [← hs]
    decide +kernel
  obtain ⟨high, hh, hcontext, _⟩ :=
    hacts.only (pressTarget (stillClient bridgeMappings) s).1 (.lootButton 1 1) (by rw [← hpress])
  rw [hh] at hhigh
  rw [Option.map_some, hcontext] at hhigh
  cases hhigh

end Nostalgia.Controller
