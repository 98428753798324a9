/-
  Nostalgia.Controller.Bindings — the AddOn's state and everything that writes key
  bindings (DinoController.lua, DinoControllerUI.lua, DinoControllerHUD.lua).

  Model.  `bindings` maps a key to its action, the empty text is no action; `saves` lists
  every `SaveBindings` with the map it persisted and whether UI mode was active then.
  `Nav` is the table `state` of DinoControllerUI. Beside it stands what only the proofs
  read: `entry`, what the last `EnterUIMode` saw, and `highlight`, the element the
  highlight frame is anchored to.

  What entering, leaving and the layout pass do, once each:
  - `enterUIMode_spec`: entering writes `temporaryCommands` over the bindings.
  - `leaveUIMode_spec`: leaving writes the saved bindings back and runs the layout pass.
  - `applyButtonLayout_bindings`: outside UI mode the layout pass writes `worldLayout`.
-/

import Nostalgia.Controller.Elements
import Nostalgia.Machine.Overlay

namespace Nostalgia.Controller

open Nostalgia.Lua Nostalgia.Machine

/-! ## Settings -/

inductive TargetMode where
  | dps | healer
  deriving DecidableEq, Repr

inductive PrimaryAction where
  | Melee | Bow | Wand
  deriving DecidableEq, Repr

/-- `DinoControllerDB`, and `primaryAction` of `DinoControllerCharacterDB`. -/
structure DB where
  controllerEnabled : Nat
  uiEnabled : Nat
  swapAB : Nat
  swapXY : Nat
  swapMenuButtons : Nat
  secondaryWindows : Nat
  targetMode : TargetMode
  bindingVersion : Option Nat
  primaryAction : PrimaryAction
  deriving DecidableEq, Repr

def BINDING_VERSION : Nat := 15

/-! ## State -/

structure SuspendedFocus where
  context : Context
  key : Option String
  index : Nat
  deriving DecidableEq, Repr

/-- What `EnterUIMode` saw: the button layout, and the world map being open. -/
structure Entry where
  swapped : Bool
  worldMap : Bool
  deriving DecidableEq, Repr

structure Highlight where
  context : Option Context
  element : Element
  deriving DecidableEq, Repr

structure Nav where
  active : Bool
  context : Option Context
  elements : List Element
  index : Nat
  temporaryBindings : Option (List (String × String))
  suspendedFocus : Option SuspendedFocus
  pendingMerchantBagFocus : Bool
  pendingQuestLogFocus : Bool
  pendingBankFocus : Bool
  pendingTalentFocus : Bool
  pendingLootIndex : Option Nat
  /-- `tooltipFrame` is its frame. -/
  tooltipElement : Option Element
  highlight : Option Highlight
  entry : Entry

/-- One call of `SaveBindings`. -/
structure Save where
  uiMode : Bool
  entry : Entry
  bindings : String → String

inductive MapQuestWindow where
  | map | questlog
  deriving DecidableEq, Repr

structure St where
  screen : Screen
  db : DB
  bindings : String → String
  saves : List Save
  uiModeActive : Bool
  uiModeContext : Option Context
  /-- The names of the Wand and the Bow entry of `primaryActionInfo`, once it has them. -/
  primarySpellNames : Option (String × String)
  nextMapQuestWindow : MapQuestWindow
  pendingMapQuestWindow : Bool
  nav : Nav

def St.world (s : St) : World := s.screen.world

variable (c : Client)

def St.perform (call : Call) (s : St) : St := { s with screen := Controller.perform c call s.screen }

def St.withNav (f : Nav → Nav) (s : St) : St := { s with nav := f s.nav }

def St.withDB (f : DB → DB) (s : St) : St := { s with db := f s.db }

def setBinding (key action : String) (s : St) : St := { s with bindings := Function.update s.bindings key action }

def saveBindings (s : St) : St := { s with saves := s.saves ++ [⟨s.nav.active, s.nav.entry, s.bindings⟩] }

/-- `DinoController_NormalizeBindingKey`. -/
def normalizeBindingKey (key : Option String) : Option String :=
  match key.map fun k => String.ofList (k.toList.map Char.toUpper) with
  | none => none
  | some k =>
    if k == "" || k == "NONE" then none
    else
      let k := String.ofList (k.toList.map fun ch => if ch == '+' then '-' else ch)
      if k == "ESC" then some "ESCAPE" else if k == "RETURN" then some "ENTER" else some k

/-! ## World bindings -/

def applyTargetMode (save : Bool) (s : St) : St :=
  let s := match s.db.targetMode with
    | .healer => setBinding "NUMPAD3" "DINOCONTROLLER_TARGET_GROUP_PREVIOUS"
        (setBinding "NUMPAD1" "DINOCONTROLLER_TARGET_GROUP_NEXT" s)
    | .dps => setBinding "NUMPAD3" "TARGETPREVIOUSENEMY" (setBinding "NUMPAD1" "TARGETNEARESTENEMY" s)
  if save && !s.uiModeActive then saveBindings s else s

/-- What `SetPrimaryActionBinding` binds a key to. -/
def primaryActionBinding (s : St) : String :=
  let spellName := match s.db.primaryAction with
    | .Melee => none
    | .Wand => s.primarySpellNames.map Prod.fst
    | .Bow => s.primarySpellNames.map Prod.snd
  match spellName with
  | some name => if c.hasSetBindingSpell then "SPELL " ++ name else "TURNORACTION"
  | none => "TURNORACTION"

def applyButtonLayout (save : Bool) (s : St) : St :=
  if s.uiModeActive then s
  else
    let db := s.db
    let primary := primaryActionBinding c s
    let s := if db.swapAB == 1 then setBinding "NUMPAD9" primary (setBinding "NUMPAD0" "JUMP" s)
      else setBinding "NUMPAD9" "JUMP" (setBinding "NUMPAD0" primary s)
    let s := if db.swapXY == 1 then
        setBinding "NUMPADPLUS" "DINOCONTROLLER_X_ACTION" (setBinding "NUMPADMINUS" "TARGETSELF" s)
      else setBinding "NUMPADPLUS" "TARGETSELF" (setBinding "NUMPADMINUS" "DINOCONTROLLER_X_ACTION" s)
    let s := if db.swapMenuButtons == 1 then
        setBinding "F8" "DINOCONTROLLER_MAP_QUEST_TOGGLE" (setBinding "NUMPAD5" "DINOCONTROLLER_MENU_CYCLE" s)
      else setBinding "F8" "DINOCONTROLLER_MENU_CYCLE" (setBinding "NUMPAD5" "DINOCONTROLLER_MAP_QUEST_TOGGLE" s)
    if save then saveBindings s else s

/-- A key of the bridge's table gets an action, if the table has the key. -/
def setMappedBinding (key : Option String) (action : String) (s : St) : St :=
  match normalizeBindingKey key with
  | some k => setBinding k action s
  | none => s

/-- The buttons `DinoHUD_InstallWorldBindings` binds, with their actions. -/
def hudBindings (m : ButtonMappings) : List (Option String × String) :=
  [(m.DPadUp, "DINOHUD_ACTION1"), (m.DPadRight, "DINOHUD_ACTION2"), (m.DPadDown, "DINOHUD_ACTION3"),
   (m.DPadLeft, "DINOHUD_ACTION4"), (m.X, "DINOCONTROLLER_X_ACTION"), (m.R3, "DINOHUD_MOUNT"),
   (m.L2, "DINOHUD_L2_MODIFIER"), (m.R2, "DINOHUD_R2_MODIFIER")]

def installWorldBindings (s : St) : St :=
  saveBindings ((hudBindings c.mappings).foldl (fun s b => setMappedBinding b.1 b.2 s) s)

def controllerBindings : List (String × String) :=
  [("NUMPAD8", "MOVEFORWARD"), ("NUMPAD2", "MOVEBACKWARD"), ("NUMPAD4", "STRAFELEFT"), ("NUMPAD6", "STRAFERIGHT"),
   ("NUMPAD5", "DINOCONTROLLER_MAP_QUEST_TOGGLE"), ("NUMPAD7", "TOGGLEAUTORUN"), ("F8", "DINOCONTROLLER_MENU_CYCLE"),
   ("F11", "DINOCONTROLLER_UI_ACTIVATE")]

/-- The arrow keys: two former actions and the one they get back. -/
def obsoleteCameraBindings : List (String × String × String × String) :=
  [("LEFT", "MOVEVIEWLEFT", "DINOCONTROLLER_CAMERA_LEFT", "TURNLEFT"),
   ("RIGHT", "MOVEVIEWRIGHT", "DINOCONTROLLER_CAMERA_RIGHT", "TURNRIGHT"),
   ("UP", "MOVEVIEWUP", "DINOCONTROLLER_CAMERA_UP", "MOVEFORWARD"),
   ("DOWN", "MOVEVIEWDOWN", "DINOCONTROLLER_CAMERA_DOWN", "MOVEBACKWARD")]

def installBindings (force : Bool) (s : St) : St :=
  if !force && s.db.bindingVersion == some BINDING_VERSION then s
  else
    let s := obsoleteCameraBindings.foldl (fun s (key, old, oldController, vanilla) =>
      if s.bindings key == old || s.bindings key == oldController then setBinding key vanilla s else s) s
    let s := controllerBindings.foldl (fun s b => setBinding b.1 b.2 s) s
    let s := applyTargetMode false s
    let s := applyButtonLayout c false s
    let s := installWorldBindings c s
    let s := saveBindings s
    s.withDB fun db => { db with bindingVersion := some BINDING_VERSION }

/-- `localeNames`: the names of the Wand and the Bow spell. A spell `FindPrimarySpell`
    finds has the very name it looked for. -/
def primarySpellNamesOf (locale : String) : String × String :=
  if locale == "deDE" then ("Schießen", "Automatischer Schuss") else ("Shoot", "Auto Shot")

def refreshPrimaryAction (s : St) : St :=
  { s with
    primarySpellNames := some (primarySpellNamesOf s.world.locale)
    db := { s.db with primaryAction := match s.world.classToken with
      | .HUNTER => .Bow
      | .PRIEST | .WARLOCK | .MAGE => .Wand
      | _ => .Melee } }

/-! ## Hover scripts -/

def triggerOnLeave (element : Element) (s : St) : St :=
  if element.isScrollArea then s
  else if (s.world.frame element.frame).hasOnLeave then s.perform c (.onLeave element.frame)
  else s.perform c .hideTooltip

def triggerOnEnter (element : Element) (s : St) : St :=
  if element.isScrollArea then s
  else if (s.world.frame element.frame).hasOnEnter then (s.perform c .hideTooltip).perform c (.onEnter element.frame)
  else s

/-! ## UI mode -/

/-- `DinoController_SetUIMode`. -/
def setUIMode (active : Bool) (context : Option Context) (s : St) : St :=
  { s with uiModeActive := active, uiModeContext := if active then context else none }

/-- `SaveAndBind`. -/
def saveAndBind (key : Option String) (command : String) (s : St) : St :=
  match normalizeBindingKey key with
  | none => s
  | some k => setBinding k command
      (s.withNav fun nav => { nav with temporaryBindings := nav.temporaryBindings.map (save s.bindings · k) })

def dpadBindings (m : ButtonMappings) : List (Option String × String) :=
  [(m.DPadUp, "DINOCONTROLLER_UI_UP"), (m.DPadDown, "DINOCONTROLLER_UI_DOWN"),
   (m.DPadLeft, "DINOCONTROLLER_UI_LEFT"), (m.DPadRight, "DINOCONTROLLER_UI_RIGHT")]

def confirmBindings (swapped : Bool) : List (Option String × String) :=
  if swapped then [(some "NUMPAD9", "DINOCONTROLLER_UI_ACTIVATE"), (some "NUMPAD0", "DINOCONTROLLER_UI_CANCEL")]
  else [(some "NUMPAD0", "DINOCONTROLLER_UI_ACTIVATE"), (some "NUMPAD9", "DINOCONTROLLER_UI_CANCEL")]

/-- The keys `EnterUIMode` unbinds under the world map. -/
def suppressedKeys : List String :=
  ["NUMPAD8", "NUMPAD2", "NUMPAD4", "NUMPAD6", "NUMPAD7", "NUMPADMINUS", "NUMPADPLUS", "F12"]

def suppressedBindings (worldMap : Bool) : List (Option String × String) :=
  if worldMap then suppressedKeys.map fun key => (some key, "") else []

def entryOf (s : St) : Entry where
  swapped := s.db.swapAB == 1
  worldMap := s.nav.context == some .worldmap || visible s.world "WorldMapFrame"

/-- The buttons and keys `EnterUIMode` binds, in its order. -/
def entryBindings (m : ButtonMappings) (entry : Entry) : List (Option String × String) :=
  dpadBindings m ++ confirmBindings entry.swapped ++ suppressedBindings entry.worldMap

def saveAndBindAll (l : List (Option String × String)) (s : St) : St := l.foldl (fun s b => saveAndBind b.1 b.2 s) s

def activate (s : St) : St :=
  s.withNav fun nav => { nav with active := true, temporaryBindings := some [], entry := entryOf s }

def enterUIMode (s : St) : St :=
  if s.nav.active then s
  else if s.db.controllerEnabled == 0 || s.db.uiEnabled == 0 then s
  else setUIMode true s.nav.context (saveAndBindAll (entryBindings c.mappings (entryOf s)) (activate s))

/-- The loop of `LeaveUIMode` over `temporaryBindings`. -/
def restoreBindings (s : St) : St := { s with bindings := putAll s.bindings (s.nav.temporaryBindings.getD []) }

def leaveUIMode (s : St) : St :=
  if !s.nav.active then s
  else
    let s := match s.nav.tooltipElement with
      | some element => triggerOnLeave c element s
      | none => s
    let s := s.perform c .hideTooltip
    let s := restoreBindings s
    let s := s.withNav fun nav => { nav with
      tooltipElement := none, temporaryBindings := none, active := false, context := none, elements := [], index := 1
      suspendedFocus := none, highlight := none }
    applyButtonLayout c true (setUIMode false none s)

/-! ## The layout pass -/

def layoutKeys : List String := ["NUMPAD0", "NUMPAD9", "NUMPADMINUS", "NUMPADPLUS", "NUMPAD5", "F8"]

/-- What the six layout keys do outside UI mode. -/
def worldLayout (s : St) : List (String × String) :=
  [("NUMPAD0", if s.db.swapAB == 1 then "JUMP" else primaryActionBinding c s),
   ("NUMPAD9", if s.db.swapAB == 1 then primaryActionBinding c s else "JUMP"),
   ("NUMPADMINUS", if s.db.swapXY == 1 then "TARGETSELF" else "DINOCONTROLLER_X_ACTION"),
   ("NUMPADPLUS", if s.db.swapXY == 1 then "DINOCONTROLLER_X_ACTION" else "TARGETSELF"),
   ("NUMPAD5", if s.db.swapMenuButtons == 1 then "DINOCONTROLLER_MENU_CYCLE" else "DINOCONTROLLER_MAP_QUEST_TOGGLE"),
   ("F8", if s.db.swapMenuButtons == 1 then "DINOCONTROLLER_MAP_QUEST_TOGGLE" else "DINOCONTROLLER_MENU_CYCLE")]

theorem worldLayout_keys (s : St) : (worldLayout c s).map Prod.fst = layoutKeys := rfl

variable {c}

theorem applyButtonLayout_active {s : St} (save : Bool) (h : s.uiModeActive = true) : applyButtonLayout c save s = s := by
  unfold applyButtonLayout
  rw [if_pos h]

/-- The state with other bindings. -/
def St.withBindings (bindings : String → String) (s : St) : St := { s with bindings }

theorem setBinding_eq (key action : String) (s : St) :
    setBinding key action s = s.withBindings (Function.update s.bindings key action) := rfl

@[simp] theorem withBindings_bindings (f : String → String) (s : St) : (s.withBindings f).bindings = f := rfl
@[simp] theorem withBindings_withBindings (f g : String → String) (s : St) :
    (s.withBindings f).withBindings g = s.withBindings g := rfl

/-- Outside UI mode the layout pass writes `worldLayout`, and persists what it leaves if asked to. -/
theorem applyButtonLayout_eq {s : St} (save : Bool) (h : s.uiModeActive = false) : applyButtonLayout c save s =
    if save then saveBindings (s.withBindings (putAll s.bindings (worldLayout c s)))
    else s.withBindings (putAll s.bindings (worldLayout c s)) := by
  have hwritten : ∀ (b1 b2 b3 : Bool) (primary : String),
      (let s1 := if b1 then setBinding "NUMPAD9" primary (setBinding "NUMPAD0" "JUMP" s)
        else setBinding "NUMPAD9" "JUMP" (setBinding "NUMPAD0" primary s)
      let s2 := if b2 then setBinding "NUMPADPLUS" "DINOCONTROLLER_X_ACTION" (setBinding "NUMPADMINUS" "TARGETSELF" s1)
        else setBinding "NUMPADPLUS" "TARGETSELF" (setBinding "NUMPADMINUS" "DINOCONTROLLER_X_ACTION" s1)
      if b3 then setBinding "F8" "DINOCONTROLLER_MAP_QUEST_TOGGLE" (setBinding "NUMPAD5" "DINOCONTROLLER_MENU_CYCLE" s2)
        else setBinding "F8" "DINOCONTROLLER_MENU_CYCLE" (setBinding "NUMPAD5" "DINOCONTROLLER_MAP_QUEST_TOGGLE" s2)) =
      s.withBindings (putAll s.bindings
        [("NUMPAD0", if b1 then "JUMP" else primary), ("NUMPAD9", if b1 then primary else "JUMP"),
         ("NUMPADMINUS", if b2 then "TARGETSELF" else "DINOCONTROLLER_X_ACTION"),
         ("NUMPADPLUS", if b2 then "DINOCONTROLLER_X_ACTION" else "TARGETSELF"),
         ("NUMPAD5", if b3 then "DINOCONTROLLER_MENU_CYCLE" else "DINOCONTROLLER_MAP_QUEST_TOGGLE"),
         ("F8", if b3 then "DINOCONTROLLER_MAP_QUEST_TOGGLE" else "DINOCONTROLLER_MENU_CYCLE")]) := by
    intro b1 b2 b3 primary
    cases b1 <;> cases b2 <;> cases b3 <;>
      simp only [setBinding_eq, withBindings_bindings, withBindings_withBindings, putAll_cons, putAll_nil, if_true,
        if_false, Bool.false_eq_true]
  unfold applyButtonLayout
  rw [if_neg (by simp [h])]
  dsimp only at hwritten ⊢
  rw [hwritten]
  rfl

theorem applyButtonLayout_bindings {s : St} (save : Bool) (h : s.uiModeActive = false) :
    (applyButtonLayout c save s).bindings = putAll s.bindings (worldLayout c s) := by
  rw [applyButtonLayout_eq save h]
  cases save <;> rfl

@[simp] theorem applyButtonLayout_nav (save : Bool) (s : St) : (applyButtonLayout c save s).nav = s.nav := by
  cases h : s.uiModeActive with
  | true => rw [applyButtonLayout_active save h]
  | false =>
    rw [applyButtonLayout_eq save h]
    cases save <;> rfl

@[simp] theorem applyButtonLayout_screen (save : Bool) (s : St) : (applyButtonLayout c save s).screen = s.screen := by
  cases h : s.uiModeActive with
  | true => rw [applyButtonLayout_active save h]
  | false =>
    rw [applyButtonLayout_eq save h]
    cases save <;> rfl

@[simp] theorem applyButtonLayout_uiModeActive (save : Bool) (s : St) :
    (applyButtonLayout c save s).uiModeActive = s.uiModeActive := by
  cases h : s.uiModeActive with
  | true => rw [applyButtonLayout_active save h, h]
  | false =>
    rw [applyButtonLayout_eq save h]
    cases save <;> exact h

/-- Outside UI mode a saving layout pass persists the bindings it leaves. -/
theorem applyButtonLayout_persists {s : St} (h : s.uiModeActive = false) :
    (applyButtonLayout c true s).saves = s.saves ++ [⟨s.nav.active, s.nav.entry, (applyButtonLayout c true s).bindings⟩] := by
  rw [applyButtonLayout_eq true h]
  rfl

theorem applyButtonLayout_saves (save : Bool) (s : St) : (applyButtonLayout c save s).saves = s.saves ∨
    (applyButtonLayout c save s).saves = s.saves ++ [⟨s.nav.active, s.nav.entry, (applyButtonLayout c save s).bindings⟩] := by
  cases h : s.uiModeActive with
  | true =>
    rw [applyButtonLayout_active save h]
    exact Or.inl rfl
  | false =>
    cases save with
    | true => exact Or.inr (applyButtonLayout_persists h)
    | false =>
      rw [applyButtonLayout_eq false h]
      exact Or.inl rfl

/-! ## Entering -/

/-- A list of buttons and commands, with the keys the bridge has for them. -/
def bound (l : List (Option String × String)) : List (String × String) :=
  l.filterMap fun b => (normalizeBindingKey b.1).map (·, b.2)

/-- What `EnterUIMode` writes: the commands of the buttons, then the suppressed keys. -/
def temporaryCommands (m : ButtonMappings) (entry : Entry) : List (String × String) :=
  bound (entryBindings m entry)

/-- What saving and binding a list of buttons leaves alone, and what it writes. -/
structure Bound (l : List (Option String × String)) (s t : St) : Prop where
  bindings : t.bindings = putAll s.bindings (bound l)
  shadows : ∀ (P : String → Prop) (base : String → String) (table : List (String × String)),
    s.nav.temporaryBindings = some table → Shadows P base s.bindings table →
      ∃ table', t.nav.temporaryBindings = some table' ∧ Shadows P base t.bindings table'
  active : t.nav.active = s.nav.active
  entry : t.nav.entry = s.nav.entry
  saves : t.saves = s.saves

theorem saveAndBind_bound (b : Option String × String) (s : St) : Bound [b] s (saveAndBind b.1 b.2 s) := by
  unfold saveAndBind
  cases hk : normalizeBindingKey b.1 with
  | none => exact ⟨by simp [bound, hk], fun P base table ht hs => ⟨table, ht, hs⟩, rfl, rfl, rfl⟩
  | some k =>
    refine ⟨by simp [bound, hk, setBinding, St.withNav], fun P base table ht hs => ?_, rfl, rfl, rfl⟩
    refine ⟨save s.bindings table k, ?_, shadows_put hs k b.2⟩
    show s.nav.temporaryBindings.map (save s.bindings · k) = _
    rw [ht]
    rfl

theorem saveAndBindAll_bound : ∀ (l : List (Option String × String)) (s : St), Bound l s (saveAndBindAll l s) := by
  intro l
  induction l with
  | nil => intro s; exact ⟨rfl, fun P base table ht hs => ⟨table, ht, hs⟩, rfl, rfl, rfl⟩
  | cons b l ih =>
    intro s
    have hb := saveAndBind_bound b s
    have hl := ih (saveAndBind b.1 b.2 s)
    have hcons : bound (b :: l) = bound [b] ++ bound l := by rw [bound, bound, bound, ← List.filterMap_append]; rfl
    refine ⟨?_, fun P base table ht hs => ?_, hl.active.trans hb.active, hl.entry.trans hb.entry, hl.saves.trans hb.saves⟩
    · show (saveAndBindAll l (saveAndBind b.1 b.2 s)).bindings = _
      rw [hl.bindings, hb.bindings, hcons, putAll_append]
    · obtain ⟨table', ht', hs'⟩ := hb.shadows P base table ht hs
      exact hl.shadows P base table' ht' hs'

/-- `EnterUIMode` does something. -/
def Enters (s : St) : Prop := s.nav.active = false ∧ s.db.controllerEnabled ≠ 0 ∧ s.db.uiEnabled ≠ 0

structure Entered (c : Client) (s t : St) : Prop where
  bindings : t.bindings = putAll s.bindings (temporaryCommands c.mappings t.nav.entry)
  shadows : ∀ (P : String → Prop) (base : String → String), (∀ k, P k → s.bindings k = base k) →
    ∃ table, t.nav.temporaryBindings = some table ∧ Shadows P base t.bindings table
  active : t.nav.active = true
  uiModeActive : t.uiModeActive = true
  saves : t.saves = s.saves
  entry : t.nav.entry = entryOf s

theorem enterUIMode_spec {s : St} (h : Enters s) : Entered c s (enterUIMode c s) := by
  obtain ⟨hactive, hcontroller, hui⟩ := h
  unfold enterUIMode
  rw [if_neg (by simp [hactive]), if_neg (by simp [hcontroller, hui])]
  have hb := saveAndBindAll_bound (entryBindings c.mappings (entryOf s)) (activate s)
  refine ⟨?_, fun P base hbase => ?_, hb.active, rfl, hb.saves, hb.entry⟩
  · show (saveAndBindAll _ (activate s)).bindings = putAll s.bindings (temporaryCommands c.mappings (saveAndBindAll _ _).nav.entry)
    rw [hb.bindings, hb.entry]
    rfl
  · exact hb.shadows P base [] rfl (shadows_nil hbase)

theorem enterUIMode_idle {s : St} (h : ¬ Enters s) : enterUIMode c s = s := by
  unfold enterUIMode
  by_cases hactive : s.nav.active = true
  · rw [if_pos hactive]
  · rw [if_neg hactive, if_pos]
    have hno : ¬ (s.db.controllerEnabled ≠ 0 ∧ s.db.uiEnabled ≠ 0) := fun hen => h ⟨by simpa using hactive, hen⟩
    simp only [Bool.or_eq_true, beq_iff_eq]
    omega

/-! ## Leaving -/

/-- The state `LeaveUIMode` hands to the layout pass. -/
structure Left (s u : St) : Prop where
  bindings : u.bindings = putAll s.bindings (s.nav.temporaryBindings.getD [])
  uiModeActive : u.uiModeActive = false
  active : u.nav.active = false
  saves : u.saves = s.saves
  db : u.db = s.db
  primarySpellNames : u.primarySpellNames = s.primarySpellNames

theorem leaveUIMode_spec {s : St} (h : s.nav.active = true) : ∃ u, leaveUIMode c s = applyButtonLayout c true u ∧ Left s u := by
  unfold leaveUIMode
  rw [if_neg (by simp [h])]
  refine ⟨_, rfl, ?_⟩
  cases s.nav.tooltipElement with
  | none => exact ⟨rfl, rfl, rfl, rfl, rfl, rfl⟩
  | some element =>
    dsimp only
    unfold triggerOnLeave
    repeat' split
    all_goals exact ⟨rfl, rfl, rfl, rfl, rfl, rfl⟩

theorem leaveUIMode_idle {s : St} (h : s.nav.active = false) : leaveUIMode c s = s := by
  unfold leaveUIMode
  rw [if_pos (by simp [h])]

end Nostalgia.Controller
