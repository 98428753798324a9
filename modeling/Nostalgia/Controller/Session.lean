/-
  Nostalgia.Controller.Session — the events of the AddOn and one step for each
  (DinoController.lua, DinoControllerUI.lua, Bindings.xml).

  Model.  `frames w` is the game changing anything the AddOn reads; the other events are
  the scans, the bound keys, the client events the AddOn registers, the slash commands and
  the clicks in its menu, as far as they touch the navigation or key bindings. A Lua error
  ends a handler; what it did before stays.
  `Ev.installs` and `Ev.setsTarget` name the events that write world bindings whether UI
  mode is active or not.
-/

import Nostalgia.Controller.Navigation

namespace Nostalgia.Controller

open Nostalgia.Lua

/-! ## Events -/

/-- The events of `DinoControllerUINavigationFrame` that do more than ask for a scan. -/
inductive NavigationEvent where
  | MERCHANT_SHOW | MERCHANT_CLOSED | BANKFRAME_OPENED | BANKFRAME_CLOSED | TAXIMAP_CLOSED
  deriving DecidableEq, Repr

/-- The value of `/dino ui`. -/
inductive OptionValue where
  | toggle | on | off | unknown
  deriving DecidableEq, Repr

inductive Ev where
  | frames (w : World)
  | scan
  | navigation (e : NavigationEvent)
  | uiMove (forward : Bool)
  | uiMoveDir (dir : Dir)
  | uiActivate
  | uiCancel
  | toggleMenuWindows
  | toggleMapQuest
  /-- `OnUpdate` of `DinoControllerEventFrame`. -/
  | update
  | setControllerEnabled (enabled : Bool)
  | bind
  | ui (value : OptionValue)
  | swapAB
  | swapXY
  | swapMenuButtons
  | secondaryWindows
  | layout (nintendo : Bool)
  | targetMode (mode : TargetMode)
  /-- A menu click or command that only updates the menu. -/
  | updateMenu
  | enteringWorld
  /-- `SPELLS_CHANGED`, or `UNIT_INVENTORY_CHANGED` of the player. -/
  | spellsChanged

variable (c : Client)

/-! ## Handlers -/

def openBags (s : St) : St :=
  (List.range' 1 s.world.numBankSlots).foldl (fun s bagIdx => s.perform c (.openBag (bagIdx + 4)))
    (s.perform c .openAllBags)

def onNavigationEvent : NavigationEvent → St → St
  | .MERCHANT_SHOW, s =>
    (s.withNav fun nav => { nav with pendingMerchantBagFocus := true }).perform c .openAllBags
  | .MERCHANT_CLOSED, s =>
    (s.withNav fun nav => { nav with pendingMerchantBagFocus := false }).perform c .closeAllBags
  | .BANKFRAME_OPENED, s => openBags c (s.withNav fun nav => { nav with pendingBankFocus := true })
  | .BANKFRAME_CLOSED, s => (s.withNav fun nav => { nav with pendingBankFocus := false }).perform c .closeAllBags
  | .TAXIMAP_CLOSED, s => if s.nav.context == some .taxi then leaveUIMode c s else s

def requestQuestLogFocus (s : St) : St :=
  (refreshElements c (s.withNav fun nav => { nav with pendingQuestLogFocus := true })).1

def requestWorldMapFocus (s : St) : St × Option LuaError := refreshElements c (setIndex 1 s)

def requestTalentFocus (s : St) : St :=
  (refreshElements c (s.withNav fun nav => { nav with pendingTalentFocus := true })).1

def toggleMenuWindows (s : St) : St :=
  if visible s.world "TalentFrame" then (s.perform c .closeAllBags).perform c (.hideUIPanel "TalentFrame")
  else if visible s.world "CharacterFrame" then
    let s := (s.perform c .closeAllBags).perform c (.hideUIPanel "CharacterFrame")
    if s.db.secondaryWindows == 1 then
      let s := s.perform c .toggleTalentFrame
      if visible s.world "TalentFrame" then requestTalentFocus c s else s
    else s
  else (s.perform c .toggleCharacter).perform c .openAllBags

def St.setWindows (next : MapQuestWindow) (pending : Bool) (s : St) : St :=
  { s with nextMapQuestWindow := next, pendingMapQuestWindow := pending }

def closeWorldMap (s : St) : St :=
  if visible s.world "WorldMapFrame" then
    let s := s.perform c (.hideUIPanel "WorldMapFrame")
    if visible s.world "WorldMapFrame" then s.perform c (.hideFrame "WorldMapFrame") else s
  else s

def openAndFocusQuestLog (s : St) : St :=
  requestQuestLogFocus c (if visible s.world "QuestLogFrame" then s else s.perform c .toggleQuestLog)

def toggleMapQuest (s : St) : St :=
  if s.db.secondaryWindows != 1 then
    let s := s.setWindows .map false
    if visible s.world "WorldMapFrame" then closeWorldMap c s
    else (requestWorldMapFocus c (s.perform c .toggleWorldMap)).1
  else match s.nextMapQuestWindow with
  | .map =>
    let s := s.setWindows s.nextMapQuestWindow false
    let s := if visible s.world "QuestLogFrame" then s.perform c .toggleQuestLog else s
    let s := if visible s.world "WorldMapFrame" then s else s.perform c .toggleWorldMap
    -- an error in the scan ends the handler: the map is then still the next window
    match requestWorldMapFocus c s with
    | (s, some _) => s
    | (s, none) => s.setWindows .questlog s.pendingMapQuestWindow
  | .questlog =>
    let s := s.setWindows .map s.pendingMapQuestWindow
    if visible s.world "WorldMapFrame" then (closeWorldMap c s).setWindows .map true
    else openAndFocusQuestLog c s

def onUpdate (s : St) : St :=
  if s.pendingMapQuestWindow then
    if visible s.world "WorldMapFrame" then closeWorldMap c s
    else openAndFocusQuestLog c (s.setWindows s.nextMapQuestWindow false)
  else s

def setControllerEnabled (enabled : Bool) (s : St) : St :=
  let s := s.withDB fun db => { db with controllerEnabled := enabled.toNat }
  if enabled then installBindings c true s else leaveUIMode c s

/-- `DinoControllerDB[name] == 1 and 0 or 1`. -/
def toggled (value : Nat) : Nat := if value = 1 then 0 else 1

/-- `UpdateMenu`, as far as bindings depend on it. -/
def updateMenu (s : St) : St := refreshPrimaryAction s

def setUiEnabled : OptionValue → St → St
  | .toggle, s => s.withDB fun db => { db with uiEnabled := toggled db.uiEnabled }
  | .on, s => updateMenu (s.withDB fun db => { db with uiEnabled := 1 })
  | .off, s => updateMenu (s.withDB fun db => { db with uiEnabled := 0 })
  | .unknown, s => s

def onUiCommand (value : OptionValue) (s : St) : St :=
  let s := setUiEnabled value s
  if s.db.uiEnabled == 0 then leaveUIMode c s else s

def onSwapAB (s : St) : St :=
  let s := applyButtonLayout c true (s.withDB fun db => { db with swapAB := toggled db.swapAB })
  updateMenu (if s.nav.active then leaveUIMode c s else s)

def onLayout (nintendo : Bool) (s : St) : St :=
  let s := s.withDB fun db => { db with swapAB := nintendo.toNat }
  updateMenu (if s.uiModeActive then s else applyButtonLayout c true s)

def onTargetMode (mode : TargetMode) (s : St) : St :=
  updateMenu (applyTargetMode true (s.withDB fun db => { db with targetMode := mode }))

def onEnteringWorld (s : St) : St :=
  let s := refreshPrimaryAction (installBindings c false s)
  let s := applyTargetMode false (applyButtonLayout c false s)
  saveBindings (installWorldBindings c s)

def onSpellsChanged (s : St) : St :=
  let s := refreshPrimaryAction s
  if s.uiModeActive then s else applyButtonLayout c false s

def step (s : St) : Ev → St
  | .frames w => s.withScreen { s.screen with world := w }
  | .scan => (refreshElements c s).1
  | .navigation e => onNavigationEvent c e s
  | .uiMove forward => (uiMove c forward s).1
  | .uiMoveDir dir => (uiMoveDir c dir s).1
  | .uiActivate => (uiActivate c s).1
  | .uiCancel => uiCancel c s
  | .toggleMenuWindows => toggleMenuWindows c s
  | .toggleMapQuest => toggleMapQuest c s
  | .update => onUpdate c s
  | .setControllerEnabled enabled => setControllerEnabled c enabled s
  | .bind => installBindings c true s
  | .ui value => onUiCommand c value s
  | .swapAB => onSwapAB c s
  | .swapXY =>
    updateMenu (applyButtonLayout c true (s.withDB fun db => { db with swapXY := toggled db.swapXY }))
  | .swapMenuButtons =>
    updateMenu (applyButtonLayout c true (s.withDB fun db => { db with swapMenuButtons := toggled db.swapMenuButtons }))
  | .secondaryWindows =>
    let s := s.withDB fun db => { db with secondaryWindows := toggled db.secondaryWindows }
    updateMenu (if s.db.secondaryWindows != 1 then s.setWindows .map false else s)
  | .layout nintendo => onLayout c nintendo s
  | .targetMode mode => onTargetMode mode s
  | .updateMenu => updateMenu s
  | .enteringWorld => onEnteringWorld c s
  | .spellsChanged => onSpellsChanged c s

/-- The navigation as DinoControllerUI creates it. -/
def freshNav : Nav where
  active := false
  context := none
  elements := []
  index := 1
  temporaryBindings := none
  suspendedFocus := none
  pendingMerchantBagFocus := false
  pendingQuestLogFocus := false
  pendingBankFocus := false
  pendingTalentFocus := false
  pendingLootIndex := none
  tooltipElement := none
  highlight := none
  entry := ⟨false, false⟩

/-- The AddOn after loading, with the saved settings and the player's bindings. -/
def fresh (w : World) (db : DB) (bindings : String → String) : St where
  screen := ⟨w, []⟩
  db := db
  bindings := bindings
  saves := []
  uiModeActive := false
  uiModeContext := none
  primarySpellNames := none
  nextMapQuestWindow := .map
  pendingMapQuestWindow := false
  nav := freshNav

/-- The table of BridgeMappings.lua. -/
def bridgeMappings : ButtonMappings where
  DPadUp := some "1"
  DPadRight := some "2"
  DPadDown := some "3"
  DPadLeft := some "4"
  X := some "5"
  R3 := some "F1"
  L2 := some "F9"
  R2 := some "F10"

/-- `EnsureDefaults`. -/
def defaultDB : DB where
  controllerEnabled := 1
  uiEnabled := 1
  swapAB := 0
  swapXY := 0
  swapMenuButtons := 0
  secondaryWindows := 1
  targetMode := .dps
  bindingVersion := none
  primaryAction := .Melee

/-- A client that shows nothing of what it is asked to do. -/
def stillClient (mappings : ButtonMappings) : Client where
  act _ w := (w, [])
  answer _ _ := false
  hasSetBindingSpell := false
  mappings := mappings

/-- The events that install world bindings. -/
def Ev.installs : Ev → Bool
  | .bind | .enteringWorld | .setControllerEnabled true => true
  | _ => false

def Ev.setsTarget : Ev → Bool
  | .targetMode _ => true
  | _ => false

end Nostalgia.Controller
