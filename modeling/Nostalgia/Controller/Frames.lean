/-
  Nostalgia.Controller.Frames — what the navigation reads of the client's frames, and
  what it asks the client to do (DinoControllerUI.lua).

  Model.  A `Frame` carries what its methods answer; `World` maps frames to them, global
  names to frames, and holds the answers of the game functions the code calls. The game
  itself is not modelled: a `Client` says what world each call leaves and which calls the
  client's own scripts made meanwhile. `Screen` is a world with the log of all calls.

  `usableElement` decides what can hold the focus, `addFrameButton` and `addScrollArea`
  put it into the element list, `scanScrollFrames` searches a frame tree for scroll areas.
-/

import Nostalgia.Controller.GroundSpells

namespace Nostalgia.Controller

open Nostalgia.Lua

/-! ## Frames -/

abbrev FrameId := Nat

inductive ObjectType where
  | Frame | Button | ScrollFrame | Slider
  deriving DecidableEq, Repr

inductive MouseButton where
  | LeftButton | RightButton
  deriving DecidableEq, Repr

/-- What the methods of a scroll bar answer. -/
structure Slider where
  minVal : ℚ
  maxVal : ℚ
  value : ℚ
  valueStep : Option ℚ
  deriving DecidableEq, Repr

/-- What the methods of a scroll frame answer. -/
structure ScrollFrame where
  verticalScroll : ℚ
  verticalScrollRange : ℚ
  deriving DecidableEq, Repr

/-- `GetLeft`, `GetRight`, `GetBottom` and `GetTop`. -/
structure Edges where
  left : ℚ
  right : ℚ
  bottom : ℚ
  top : ℚ
  deriving DecidableEq, Repr

structure Frame where
  name : Option String := none
  objectType : ObjectType := .Frame
  visible : Bool := false
  /-- `GetCenter`: no answer for a frame without a position. -/
  center : Option (ℚ × ℚ) := none
  edges : Option Edges := none
  height : ℚ := 0
  /-- `none`: the frame has no `IsEnabled` method; else its answer (nil, 0 or 1). -/
  isEnabled : Option (Option Nat) := none
  /-- The frame has a `Click` method. -/
  clickable : Bool := false
  id : Nat := 0
  parent : Option FrameId := none
  children : List FrameId := []
  slider : Option Slider := none
  scrollFrame : Option ScrollFrame := none
  /-- `button.slot`, as the merchant and the loot scripts set it. -/
  slot : Option Nat := none
  /-- `rollFrame.rollID`. -/
  rollID : Option Nat := none
  hasOnEnter : Bool := false
  hasOnLeave : Bool := false
  deriving DecidableEq, Repr, Inhabited

inductive TaxiNode where
  | CURRENT | REACHABLE | DISTANT
  deriving DecidableEq, Repr

structure World where
  frame : FrameId → Frame
  getglobal : String → Option FrameId
  named : ∀ name f, getglobal name = some f → (frame f).name = some name
  classToken : ClassToken
  locale : String
  NUM_CONTAINER_FRAMES : Option Nat
  NUM_GROUP_LOOT_FRAMES : Option Nat
  NUM_PET_STABLE_SLOTS : Option Nat
  MAX_NUM_TALENTS : Option Nat
  UIDROPDOWNMENU_MAXBUTTONS : Option Nat
  TAXI_BUTTONS : Option Nat
  LOOTFRAME_NUMBUTTONS : Option Nat
  MERCHANT_ITEMS_PER_PAGE : Option Nat
  /-- `LootFrame.page`. -/
  lootPage : Option Nat
  numLootItems : Nat
  lootSlotIsItem : Nat → Bool
  lootSlotIsCoin : Nat → Bool
  numQuestChoices : Nat
  /-- `MerchantFrame.page` and `MerchantFrame.selectedTab`. -/
  merchantPage : Option Nat
  merchantTab : Option Nat
  merchantNumItems : Nat
  /-- `GetMerchantItemInfo` has a name for the slot. -/
  merchantItemNamed : Nat → Bool
  numBuybackItems : Nat
  cursorHasItem : Bool
  inRepairMode : Bool
  /-- `GetContainerItemInfo` has a texture for the bag and slot. -/
  containerItem : Int → Nat → Bool
  numTaxiNodes : Nat
  taxiNodeGetType : Nat → TaxiNode
  numTalentTabs : Nat
  numBankSlots : Nat

/-- The world of a frame list: a frame's number is its position, a global name means the
    first frame with it. -/
def World.ofFrames (frames : List Frame) : World where
  frame f := frames.getD f {}
  getglobal name := frames.findIdx? (·.name == some name)
  named name f h := by
    obtain ⟨hlt, hname, _⟩ := List.findIdx?_eq_some_iff_getElem.mp h
    rw [List.getD_eq_getElem _ _ hlt]
    simpa using hname
  classToken := .MAGE
  locale := "enUS"
  NUM_CONTAINER_FRAMES := some 12
  NUM_GROUP_LOOT_FRAMES := some 4
  NUM_PET_STABLE_SLOTS := some 2
  MAX_NUM_TALENTS := some 20
  UIDROPDOWNMENU_MAXBUTTONS := some 32
  TAXI_BUTTONS := none
  LOOTFRAME_NUMBUTTONS := some 4
  MERCHANT_ITEMS_PER_PAGE := some 10
  lootPage := some 1
  numLootItems := 0
  lootSlotIsItem _ := false
  lootSlotIsCoin _ := false
  numQuestChoices := 0
  merchantPage := some 1
  merchantTab := some 1
  merchantNumItems := 0
  merchantItemNamed _ := false
  numBuybackItems := 0
  cursorHasItem := false
  inRepairMode := false
  containerItem _ _ := false
  numTaxiNodes := 0
  taxiNodeGetType _ := .DISTANT
  numTalentTabs := 0
  numBankSlots := 0

/-- `button.slot = slot`. -/
def World.setSlot (w : World) (button : FrameId) (slot : Nat) : World where
  __ := w
  frame f := if f = button then { w.frame f with slot := some slot } else w.frame f
  named name f h := by
    have := w.named name f h
    split <;> exact this

def visible (w : World) (name : String) : Bool := (w.getglobal name).any fun f => (w.frame f).visible

/-! ## The client -/

/-- What the AddOn asks of the client. -/
inductive Call where
  | click (frame : FrameId) (mouseButton : MouseButton)
  | onEnter (frame : FrameId)
  | onLeave (frame : FrameId)
  | hideTooltip
  | setLootFramePoint (left bottom : ℚ)
  | createJunkButton
  | closeLoot
  | lootSlot (slot : Nat)
  | rollOnLoot (rollID rollType : Nat)
  | clearCursor
  | buyMerchantItem (slot : Nat)
  | buybackItem (slot : Nat)
  | useContainerItem (bag slot : Nat)
  | sellAllGreyItems
  | toggleSelectedQuestWatch
  | leaveBattlefield
  | scoreTabOnClick (tab : FrameId)
  | hideUIPanel (name : String)
  | toggleCharacter
  | toggleTalentFrame
  | toggleQuestLog
  | toggleWorldMap
  | openAllBags
  | closeAllBags
  | openBag (bag : Nat)
  | setValue (scrollBar : FrameId) (value : ℚ)
  | setVerticalScroll (scrollFrame : FrameId) (value : ℚ)
  | hideFrame (name : String)
  | staticPopupEscapePressed
  | closeMenus
  | closeAllWindows
  deriving DecidableEq, Repr

/-- `DinoControllerBridgeConfig.ButtonMappings`, as the bridge wrote it. -/
structure ButtonMappings where
  DPadUp : Option String
  DPadRight : Option String
  DPadDown : Option String
  DPadLeft : Option String
  X : Option String
  R3 : Option String
  L2 : Option String
  R2 : Option String
  deriving DecidableEq, Repr

/-- What does not change while the AddOn runs. -/
structure Client where
  /-- The world after a call, and the calls the client's own scripts made meanwhile. -/
  act : Call → World → World × List Call
  /-- The result of a call the AddOn branches on. -/
  answer : Call → World → Bool
  /-- The client has the function `SetBindingSpell`. -/
  hasSetBindingSpell : Bool
  mappings : ButtonMappings

/-- The client's side of the AddOn's state. -/
structure Screen where
  world : World
  calls : List Call

variable (c : Client)

def perform (call : Call) (s : Screen) : Screen :=
  { world := (c.act call s.world).1, calls := s.calls ++ call :: (c.act call s.world).2 }

/-! ## Elements -/

inductive Choice where
  | icon | need | greed | pass
  deriving DecidableEq, Repr

/-- `rollType` of `GROUP_LOOT_ACTIONS`. -/
def Choice.rollType : Choice → Option Nat
  | .icon => none
  | .need => some 1
  | .greed => some 2
  | .pass => some 0

/-- The functions the elements carry as `action`, with what they close over. -/
inductive ElementAction where
  | activateContainerItemInMerchant (button : FrameId)
  | sellAllGreyItems
  | activateMerchantButton (button : FrameId)
  | activateMerchantBuyBackItem (button : FrameId)
  | activateMerchantRepairItem (button : FrameId)
  | activateLootButton (button : FrameId)
  | groupLootRoll (rollFrame button : FrameId) (choice : Choice)
  | activateStableSlot (button : FrameId)
  | activateTalentButton (button : FrameId)
  | activateTalentTab (button : FrameId)
  | toggleSelectedQuestWatch
  | activateWorldStateScoreLeave
  | activateWorldStateScoreTab (tab : FrameId)
  | closeWorldStateScoreFrame
  deriving DecidableEq, Repr

structure Element where
  key : String
  frame : FrameId
  mouseButton : MouseButton := .LeftButton
  /-- `none`: Confirm clicks the frame. -/
  action : Option ElementAction := none
  allowDisabled : Bool := false
  taxiNode : Option Nat := none
  isScrollArea : Bool := false
  scrollTarget : Option FrameId := none
  lootRollFrameIndex : Option Nat := none
  lootRollID : Option Nat := none
  lootRollChoice : Option Choice := none
  deriving DecidableEq, Repr

variable (w : World)

def focusableButton (button : FrameId) : Bool := (w.frame button).visible && (w.frame button).center.isSome

def usableButton (button : FrameId) : Bool :=
  (w.frame button).visible && (w.frame button).center.isSome &&
    match (w.frame button).isEnabled with
    | none => true
    | some enabled => enabled.any (· != 0)

def usableElement (element : Element) : Bool :=
  element.taxiNode.all (fun node => w.taxiNodeGetType node == .REACHABLE) &&
    if element.allowDisabled then focusableButton w element.frame else usableButton w element.frame

def addFrameButton (elements : List Element) (key : String) (button : Option FrameId) (mouseButton : MouseButton)
    (action : Option ElementAction) (allowDisabled : Bool) : List Element :=
  match button with
  | none => elements
  | some button =>
    if (if allowDisabled then focusableButton w button else usableButton w button) then
      elements ++ [{ key, frame := button, mouseButton, action, allowDisabled }]
    else elements

/-- `addButton` with a mouse button and an action. -/
def addButtonWith (elements : List Element) (name : String) (mouseButton : MouseButton)
    (action : Option ElementAction) : List Element :=
  addFrameButton w elements name (w.getglobal name) mouseButton action false

def addButton (elements : List Element) (name : String) : List Element :=
  addButtonWith w elements name .LeftButton none

def addRange (elements : List Element) (pre : String) (first last : Nat) (suffix : String)
    (mouseButton : MouseButton) : List Element :=
  (List.range' first (last + 1 - first)).foldl
    (fun els index => addButtonWith w els (pre ++ toString index ++ suffix) mouseButton none) elements

/-! ## Scroll areas -/

/-- The frame is a slider that can move or is visible. -/
def isScrollBar (f : FrameId) : Bool :=
  (w.frame f).slider.any fun bar => bar.minVal < bar.maxVal || (w.frame f).visible

/-- The scroll bar of a scroll frame. -/
def scrollBarOf (f : FrameId) : Option FrameId := (w.frame f).name.bind fun name => w.getglobal (name ++ "ScrollBar")

def isScrollable (scrollTarget : FrameId) : Bool :=
  isScrollBar w scrollTarget ||
  ((scrollBarOf w scrollTarget).any fun bar =>
    ((w.frame bar).slider.any fun s => s.minVal < s.maxVal) || (w.frame bar).visible) ||
  ((w.frame scrollTarget).scrollFrame.any fun s => 0 < s.verticalScrollRange || (w.frame scrollTarget).visible)

def addScrollArea (elements : List Element) (key : String) (scrollFrameOrBar highlightFrame scrollTarget : Option FrameId) :
    List Element :=
  match scrollFrameOrBar with
  | none => elements
  | some bar =>
    let target := scrollTarget.getD bar
    let hFrame := highlightFrame.getD bar
    if (w.frame bar).visible && isScrollable w target && (w.frame hFrame).center.isSome then
      elements ++ [{ key, frame := hFrame, scrollTarget := some target, isScrollArea := true }]
    else elements

/-- `addScrollArea` by names: the area is its own highlight. -/
def addScrollAreaNamed (elements : List Element) (key bar target : String) : List Element :=
  addScrollArea w elements key (w.getglobal bar) (w.getglobal bar) (w.getglobal target)

def isAlreadyRegistered (elements : List Element) (frame scrollTarget : FrameId) : Bool :=
  elements.any fun elem => elem.frame == frame || elem.scrollTarget == some scrollTarget

/-- `string.find(s, part)` for a plain text. -/
def contains (s part : String) : Bool := s.toList.tails.any (part.toList.isPrefixOf ·)

/-- `string.find(s, part .. "$")` for a plain text. -/
def endsWith (s part : String) : Bool := part.toList.isSuffixOf s.toList

/-- What one child of a scanned frame adds. -/
def addDiscovered (elements : List Element) (child : FrameId) : List Element :=
  let f := w.frame child
  let name := f.name.getD ""
  if f.objectType == .ScrollFrame || f.objectType == .Slider || contains name "Scroll" then
    if endsWith name "ScrollUpButton" || endsWith name "ScrollDownButton" || endsWith name "Thumb" then elements
    else
      let target := match f.objectType, f.parent with
        | .Slider, some parent => if (w.frame parent).objectType == .ScrollFrame then parent else child
        | _, _ => child
      if isScrollable w target && !isAlreadyRegistered elements target target then
        let key := match (w.frame target).name with
          | some targetName => targetName
          | none => if name != "" then name else "DiscoveredScroll_" ++ toString (elements.length + 1)
        addScrollArea w elements key (some target) (some target) (some target)
      else elements
  else elements

def scanScrollFrames : Nat → FrameId → List Element → List Element
  | 0, _, elements => elements
  | depth + 1, parent, elements =>
    if (w.frame parent).visible then
      (w.frame parent).children.foldl (fun els child =>
        if (w.frame child).visible then scanScrollFrames depth child (addDiscovered w els child) else els) elements
    else elements

/-- `scanScrollFrames` from a global frame. -/
def scanScrollFramesOf (elements : List Element) (parent : Option FrameId) (depth : Nat) : List Element :=
  match parent with
  | none => elements
  | some parent => scanScrollFrames w depth parent elements

end Nostalgia.Controller
