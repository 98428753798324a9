/-
  Nostalgia.Controller.Navigation — D-pad moves, Confirm and Cancel (DinoControllerUI.lua).

  A handler returns the state and the Lua error that ended it, if one did. Confirm is in
  two stages: `pressTarget` says what is activated (`Press`), `firePress` does it. With a
  visible loot window and no visible roll it acts on the focused button as on a loot
  button; else it scans first and acts on the element that then has the focus.
-/

import Nostalgia.Controller.Scan

namespace Nostalgia.Controller

open Nostalgia.Lua

variable (c : Client)

inductive Dir where
  | UP | DOWN | LEFT | RIGHT
  deriving DecidableEq, Repr

def setIndex (index : Nat) (s : St) : St := s.withNav fun nav => { nav with index }

/-! ## Moves -/

/-- The distance of an element in a direction, if it lies there. -/
def spatialDistance (dir : Dir) (dx dy : ℚ) : Option ℚ :=
  match dir with
  | .UP => if 3 < dy then some (|dy| + |dx| * 2) else none
  | .DOWN => if dy < -3 then some (|dy| + |dx| * 2) else none
  | .LEFT => if dx < -3 then some (|dx| + |dy| * 2) else none
  | .RIGHT => if 3 < dx then some (|dx| + |dy| * 2) else none

/-- The loop of `MoveSpatial` from an index on: the best index so far and its distance. -/
def nearest (w : World) (dir : Dir) (current : Nat) (cur : ℚ × ℚ) :
    List Element → Nat → Option Nat × ℚ → Option Nat × ℚ
  | [], _, best => best
  | elem :: rest, i, best =>
    let best := if i == current || !usableElement w elem then best
      else match (w.frame elem.frame).center.bind fun t => spatialDistance dir (t.1 - cur.1) (t.2 - cur.2) with
        | some dist => if dist < best.2 then (some i, dist) else best
        | none => best
    nearest w dir current cur rest (i + 1) best

def moveSpatial (dir : Dir) (s : St) : St :=
  match (elementAt s.nav.elements s.nav.index).bind fun e => (s.world.frame e.frame).center with
  | none => s
  | some cur =>
    match (nearest s.world dir s.nav.index cur s.nav.elements 1 (none, 999999)).1 with
    | some best => updateHighlight c (setIndex best s)
    | none => s

/-- The usable elements of a frame: the candidates of LEFT and RIGHT. -/
def rollCandidates (w : World) (elements : List Element) (frameIndex : Nat) : List Nat :=
  (elements.zipIdx 1).filterMap fun (e, i) =>
    if e.lootRollFrameIndex == some frameIndex && usableElement w e then some i else none

/-- The frame numbers in the order of the list, one for each group. -/
def rollFrameIndices : Option Nat → List Element → List Nat
  | _, [] => []
  | last, e :: rest =>
    match e.lootRollFrameIndex with
    | some i => if some i == last then rollFrameIndices last rest else i :: rollFrameIndices (some i) rest
    | none => rollFrameIndices last rest

/-- The neighbour of position `p` (from 1) of `n`, cyclically. -/
def cyclic (n p : Nat) (forward : Bool) : Nat :=
  if forward then (if n < p + 1 then 1 else p + 1) else (if p - 1 < 1 then n else p - 1)

theorem cyclic_forward {n i : Nat} (hi : i < n) : cyclic n (i + 1) true - 1 = (i + 1) % n := by
  by_cases hlast : i + 1 = n
  · simp [cyclic, hlast]
  · rw [Nat.mod_eq_of_lt (show i + 1 < n by omega), cyclic, if_pos rfl, if_neg (by omega)]
    omega

theorem cyclic_back {n i : Nat} (hi : i < n) : cyclic n (i + 1) false - 1 = (i + (n - 1)) % n := by
  rw [cyclic, if_neg (by simp)]
  by_cases hfirst : i = 0
  · rw [hfirst, if_pos (by omega), Nat.zero_add, Nat.mod_eq_of_lt (by omega)]
  · rw [if_neg (by omega), show i + (n - 1) = i - 1 + n by omega, Nat.add_mod_right, Nat.mod_eq_of_lt (by omega)]
    omega

theorem cyclic_lt {n i : Nat} (hi : i < n) (forward : Bool) : cyclic n (i + 1) forward - 1 < n := by
  cases forward with
  | true => rw [cyclic_forward hi]; exact Nat.mod_lt _ (by omega)
  | false => rw [cyclic_back hi]; exact Nat.mod_lt _ (by omega)

/-- The index `MoveGroupLootRoll` moves to. -/
def rollMove (w : World) (elements : List Element) (index : Nat) (dir : Dir) : Option Nat :=
  match (elementAt elements index).bind fun e => e.lootRollFrameIndex.map ((e, ·)) with
  | none => none
  | some (current, frameIndex) =>
    if dir == .LEFT || dir == .RIGHT then
      let candidates := rollCandidates w elements frameIndex
      if candidates.length < 2 then none
      else
        let position := ((candidates.findIdx? (· == index)).map (· + 1)).getD 1
        candidates[cyclic candidates.length position (dir == .RIGHT) - 1]?
    else
      let frameIndices := rollFrameIndices none elements
      if frameIndices.length < 2 then none
      else
        let position := ((frameIndices.findIdx? (· == frameIndex)).map (· + 1)).getD 1
        let target := frameIndices[cyclic frameIndices.length position (dir == .UP) - 1]?
        (findElement elements fun e =>
          e.lootRollFrameIndex == target && e.lootRollChoice == current.lootRollChoice && usableElement w e).or
        (findElement elements fun e => e.lootRollFrameIndex == target && usableElement w e)

/-- `MoveGroupLootRoll`: whether it moved. -/
def moveGroupLootRoll (dir : Dir) (s : St) : Bool × St :=
  match rollMove s.world s.nav.elements s.nav.index dir with
  | some index => (true, updateHighlight c (setIndex index s))
  | none => (false, s)

/-! ## Scrolling -/

/-- The step of a scroll bar: its own, or a fifth of its height. -/
def sliderStep (bar : Slider) (height : ℚ) : ℚ :=
  match bar.valueStep with
  | some step => if step < 5 then (if 40 < height then ((height / 5).floor : ℚ) else 24) else step
  | none => if 40 < height then ((height / 5).floor : ℚ) else 24

def clamp (lo hi x : ℚ) : ℚ :=
  let x := if x < lo then lo else x
  if hi < x then hi else x

/-- The native arrow button of a scroll bar, if it is enabled and can be clicked. -/
def enabledArrow (w : World) (barName : String) (up : Bool) : Option FrameId :=
  (w.getglobal (barName ++ if up then "ScrollUpButton" else "ScrollDownButton")).filter fun button =>
    (w.frame button).isEnabled == some (some 1) && (w.frame button).clickable

/-- `PerformScroll` on a target: whether it scrolled. Naming the arrows of a nameless
    scroll bar is an error. -/
def performScroll (target : Option FrameId) (up : Bool) (s : St) : Except LuaError (Bool × St) :=
  match target with
  | none => .ok (false, s)
  | some target =>
    let w := s.world
    let bar := if (w.frame target).slider.isSome then some target else scrollBarOf w target
    let delta : ℚ := if up then -1 else 1
    match bar.bind fun b => (w.frame b).slider.map ((b, ·)) with
    | some (b, slider) =>
      if (up && slider.value ≤ slider.minVal + 1 / 100) || (!up && slider.maxVal - 1 / 100 ≤ slider.value) then
        .ok (false, s)
      else match (w.frame b).name with
      | none => .error .concatenateNil
      | some name =>
        match enabledArrow w name up with
        | some arrow => .ok (true, s.perform c (.click arrow .LeftButton))
        | none =>
          let newVal := slider.value + delta * sliderStep slider (w.frame b).height
          .ok (true, s.perform c (.setValue b (clamp slider.minVal slider.maxVal newVal)))
    | none =>
      match (w.frame target).scrollFrame with
      | none => .ok (false, s)
      | some sf =>
        if (up && sf.verticalScroll ≤ 1 / 100) || (!up && sf.verticalScrollRange - 1 / 100 ≤ sf.verticalScroll) then
          .ok (false, s)
        else
          let step : ℚ := ((w.frame target).height / 5).floor
          let newVal := sf.verticalScroll + delta * (if step < 20 then 24 else step)
          .ok (true, s.perform c (.setVerticalScroll target (clamp 0 sf.verticalScrollRange newVal)))

/-- The scroll bar that goes on where a list of rows ends. -/
def edgeScrollBar (key : String) (up : Bool) : Option String :=
  if "SkillRankFrame".toList.isPrefixOf key.toList then
    if key == (if up then "SkillRankFrame1" else "SkillRankFrame12") then some "SkillListScrollFrameScrollBar" else none
  else if "ReputationHeader".toList.isPrefixOf key.toList || "ReputationBar".toList.isPrefixOf key.toList then
    if key == (if up then "ReputationHeader1" else "ReputationHeader15") ||
        key == (if up then "ReputationBar1" else "ReputationBar15") then
      some "ReputationListScrollFrameScrollBar"
    else none
  else none

/-- The scan after a row list scrolled: the focus stays on the key. -/
def rescanKey (key : String) (s : St) : St × Option LuaError :=
  match refreshElements c s with
  | (s, some err) => (s, some err)
  | (s, none) =>
    let s := match findKey s.nav.elements key with
      | some index => setIndex index s
      | none => s
    (updateHighlight c s, none)

/-- The part of `DinoController_UIMoveDir` behind the loot rolls. -/
def moveFocus (dir : Dir) (s : St) : St × Option LuaError :=
  let up := dir == .UP
  match elementAt s.nav.elements s.nav.index with
  | none => (moveSpatial c dir s, none)
  | some cur =>
    if dir == .LEFT || dir == .RIGHT then (moveSpatial c dir s, none)
    else if cur.isScrollArea then
      match performScroll c (cur.scrollTarget.or (some cur.frame)) up s with
      | .error err => (s, some err)
      | .ok (true, s) => if s.nav.context == some .talent then refreshElements c s else (s, none)
      | .ok (false, s) => (moveSpatial c dir s, none)
    else
      match edgeScrollBar cur.key up with
      | none => (moveSpatial c dir s, none)
      | some bar =>
        match performScroll c (s.world.getglobal bar) up s with
        | .error err => (s, some err)
        | .ok (true, s) => rescanKey c cur.key s
        | .ok (false, s) => (moveSpatial c dir s, none)

/-- A loot roll is scanned again before a move, and moved in by its own rule. -/
def moveInRolls (dir : Dir) (s : St) : St × Option LuaError :=
  if s.nav.context == some .lootroll then
    match refreshElements c s with
    | (s, some err) => (s, some err)
    | (s, none) =>
      if s.nav.context == some .lootroll then
        match moveGroupLootRoll c dir s with
        | (true, s) => (s, none)
        | (false, s) => moveFocus c dir s
      else moveFocus c dir s
  else moveFocus c dir s

def uiMoveDir (dir : Dir) (s : St) : St × Option LuaError :=
  match (if s.nav.active then (s, none) else refreshElements c s) with
  | (s, some err) => (s, some err)
  | (s, none) => if s.nav.elements.isEmpty then (s, none) else moveInRolls c dir s

/-- `DinoController_UIMove` by one, forward or back. -/
def uiMove (forward : Bool) (s : St) : St × Option LuaError :=
  match refreshElements c s with
  | (s, some err) => (s, some err)
  | (s, none) =>
    if !s.nav.active || s.nav.elements.isEmpty then (s, none)
    else (updateHighlight c (setIndex (cyclic s.nav.elements.length s.nav.index forward) s), none)

/-! ## Actions -/

/-- `ResolveLootSlot`. -/
def resolveLootSlot (w : World) (button : FrameId) : Option Nat :=
  match (w.frame button).slot with
  | some slot => some slot
  | none =>
    if 0 < (w.frame button).id then
      some ((w.lootPage.getD 1 - 1) * w.LOOTFRAME_NUMBUTTONS.getD 4 + (w.frame button).id)
    else none

/-- The slot `ActivateLootButton` loots, if it loots one. -/
def lootableSlot (w : World) (button : FrameId) : Option Nat :=
  if (w.frame button).visible then
    (resolveLootSlot w button).filter fun slot =>
      1 ≤ slot && slot ≤ w.numLootItems && (w.lootSlotIsItem slot || w.lootSlotIsCoin slot)
  else none

def St.setSlot (button : FrameId) (slot : Nat) (s : St) : St :=
  s.withScreen { s.screen with world := s.world.setSlot button slot }

def activateLootButton (button : FrameId) (s : St) : St :=
  match lootableSlot s.world button with
  | some slot => (s.setSlot button slot).perform c (.lootSlot slot)
  | none => s

/-- `ActivateGroupLootRoll`. -/
def activateGroupLootRoll (rollFrame : FrameId) (rollType : Nat) (s : St) : St :=
  if (s.world.frame rollFrame).visible then
    match (s.world.frame rollFrame).rollID with
    | some rollID => s.perform c (.rollOnLoot rollID rollType)
    | none => s
  else s

/-- The action of `AddGroupLootRollAction`: a click, then for a choice the roll itself. -/
def groupLootRoll (rollFrame button : FrameId) (choice : Choice) (s : St) : St :=
  let s := if (s.world.frame button).clickable then s.perform c (.click button .LeftButton) else s
  match choice.rollType with
  | some rollType => activateGroupLootRoll c rollFrame rollType s
  | none => s

/-- `^MerchantItem(%d+)ItemButton$`: the number. -/
def merchantItemIndex (name : String) : Option Nat :=
  if isNumbered "MerchantItem" "ItemButton" name then
    some (digitsVal ((name.toList.drop "MerchantItem".length).takeWhile isDigit))
  else none

def resolveMerchantSlot (w : World) (button : FrameId) : Option Nat :=
  match (w.frame button).slot.filter (0 < ·) with
  | some slot => some slot
  | none =>
    if 0 < (w.frame button).id then some (w.frame button).id
    else match ((w.frame button).name.bind merchantItemIndex) with
    | some itemIndex => some ((w.merchantPage.getD 1 - 1) * w.MERCHANT_ITEMS_PER_PAGE.getD 10 + itemIndex)
    | none => some (w.frame button).id

def clearCursor (s : St) : St := if s.world.cursorHasItem then s.perform c .clearCursor else s

def activateMerchantButton (button : FrameId) (s : St) : St :=
  if (s.world.frame button).visible then
    match (resolveMerchantSlot s.world button).filter (1 ≤ ·) with
    | none => s
    | some slot =>
      let s := clearCursor c s
      if s.world.merchantTab.getD 1 == 1 then
        if slot ≤ s.world.merchantNumItems && s.world.merchantItemNamed slot then s.perform c (.buyMerchantItem slot)
        else s
      else s.perform c (.buybackItem slot)
  else s

def activateMerchantBuyBackItem (button : FrameId) (s : St) : St :=
  if (s.world.frame button).visible then
    let s := clearCursor c s
    if s.world.numBuybackItems < 1 then s else s.perform c (.buybackItem s.world.numBuybackItems)
  else s

def activateContainerItemInMerchant (button : FrameId) (s : St) : St :=
  if (s.world.frame button).visible then
    match (s.world.frame button).parent with
    | none => s
    | some parent =>
      let bagID := (s.world.frame parent).id
      let slotID := (s.world.frame button).id
      if s.world.containerItem bagID slotID then s.perform c (.useContainerItem bagID slotID) else s
  else s

/-- `CharacterHeadSlot`, or `^Character.+Slot$`. -/
def isCharacterSlot (key : String) : Bool :=
  "Character".toList.isPrefixOf key.toList && endsWith key "Slot" && "CharacterSlot".length < key.length

/-- `ActivateMerchantRepairItem`: in repair mode the focus goes to the equipment. -/
def activateMerchantRepairItem (button : FrameId) (s : St) : St :=
  if (s.world.frame button).visible then
    let s := s.perform c (.click button .LeftButton)
    if s.world.inRepairMode then
      let s := if visible s.world "CharacterFrame" then s else s.perform c .toggleCharacter
      match refreshElements c s with
      | (s, some _) => s
      | (s, none) =>
        match findFirstMatchingElement s.nav.elements isCharacterSlot with
        | some index => updateHighlight c (setIndex index s)
        | none => s
    else s
  else s

def activateStableSlot (button : FrameId) (s : St) : St :=
  let f := s.world.frame button
  if f.visible && (f.isEnabled.all (· == some 1)) && f.clickable then s.perform c (.click button .LeftButton) else s

def activateTalentButton (button : FrameId) (s : St) : St :=
  if (s.world.frame button).isEnabled == some (some 0) then s else s.perform c (.click button .LeftButton)

def activateTalentTab (button : FrameId) (s : St) : St :=
  (s.perform c (.click button .LeftButton)).withNav fun nav => { nav with pendingTalentFocus := true }

def runAction : ElementAction → St → St
  | .activateContainerItemInMerchant button, s => activateContainerItemInMerchant c button s
  | .sellAllGreyItems, s =>
    if visible s.world "MerchantFrame" then (s.perform c .clearCursor).perform c .sellAllGreyItems else s
  | .activateMerchantButton button, s => activateMerchantButton c button s
  | .activateMerchantBuyBackItem button, s => activateMerchantBuyBackItem c button s
  | .activateMerchantRepairItem button, s => activateMerchantRepairItem c button s
  | .activateLootButton button, s => activateLootButton c button s
  | .groupLootRoll rollFrame button choice, s => groupLootRoll c rollFrame button choice s
  | .activateStableSlot button, s => activateStableSlot c button s
  | .activateTalentButton button, s => activateTalentButton c button s
  | .activateTalentTab button, s => activateTalentTab c button s
  | .toggleSelectedQuestWatch, s => s.perform c .toggleSelectedQuestWatch
  | .activateWorldStateScoreLeave, s =>
    if visible s.world "WorldStateScoreFrame" &&
        (s.world.getglobal "WorldStateScoreFrameLeaveButton").any (usableButton s.world) then
      s.perform c .leaveBattlefield
    else s
  | .activateWorldStateScoreTab tab, s =>
    if usableButton s.world tab then s.perform c (.scoreTabOnClick tab) else s
  | .closeWorldStateScoreFrame, s =>
    if visible s.world "WorldStateScoreFrame" then s.perform c (.hideUIPanel "WorldStateScoreFrame") else s

/-! ## Confirm -/

/-- What a press activates. -/
inductive Press where
  | closeLoot
  | lootButton (button : FrameId) (slot : Nat)
  | element (element : Element)
  deriving DecidableEq, Repr

/-- Confirm takes the loot branch. -/
def lootBranch (w : World) : Bool := visible w "LootFrame" && !hasVisibleGroupLootRoll w

/-- What the loot branch does with the focused element. -/
def lootPress (s : St) : Option Press :=
  match elementAt s.nav.elements s.nav.index with
  | none => none
  | some element =>
    if (s.world.frame element.frame).name == some "LootCloseButton" then some .closeLoot
    else (lootableSlot s.world element.frame).map (.lootButton element.frame)

/-- The first stage of `DinoController_UIActivate`: the state behind its scan, and what it
    is about to activate. -/
def pressTarget (s : St) : St × Option LuaError × Option Press :=
  if lootBranch s.world then
    match (if s.nav.elements.isEmpty then refreshElements c s else (s, none)) with
    | (s, some err) => (s, some err, none)
    | (s, none) => (s, none, lootPress s)
  else
    let activeElement := elementAt s.nav.elements s.nav.index
    match refreshElements c s with
    | (s, some err) => (s, some err, none)
    | (s, none) =>
      if s.nav.active then
        match (elementAt s.nav.elements s.nav.index).or activeElement with
        | some element =>
          if usableElement s.world element && !element.isScrollArea then (s, none, some (.element element))
          else (s, none, none)
        | none => (s, none, none)
      else (s, none, none)

def firePress : Press → St → St
  | .closeLoot, s => s.perform c .closeLoot
  | .lootButton button _, s => activateLootButton c button s
  | .element element, s =>
    match element.action with
    | some action => runAction c action s
    | none => if (s.world.frame element.frame).clickable then
        s.perform c (.click element.frame element.mouseButton) else s

/-- `state.pendingLootIndex = state.index`. -/
def keepLootIndex (s : St) : St := s.withNav fun nav => { nav with pendingLootIndex := some nav.index }

def uiActivate (s : St) : St × Option LuaError :=
  let inLoot := lootBranch s.world
  match pressTarget c s with
  | (s, some err, _) => (s, some err)
  | (s, none, none) =>
    (if inLoot then keepLootIndex s else s, none)
  | (s, none, some press) =>
    let s := firePress c press s
    if inLoot then (keepLootIndex s, none)
    else if s.nav.context == some .talent || s.nav.context == some .lootroll then refreshElements c s
    else (s, none)

/-! ## Cancel -/

def uiCancel (s : St) : St :=
  if visible s.world "DropDownList1" then
    let s := s.perform c (.hideFrame "DropDownList1")
    if (s.world.getglobal "DropDownList2").isSome then s.perform c (.hideFrame "DropDownList2") else s
  else if visible s.world "TaxiFrame" then
    match (s.world.getglobal "TaxiCloseButton").filter fun b => (s.world.frame b).clickable with
    | some button => s.perform c (.click button .LeftButton)
    | none => s.perform c (.hideUIPanel "TaxiFrame")
  else if visible s.world "WorldMapFrame" then s.perform c .toggleWorldMap
  else
    let escaped := c.answer .staticPopupEscapePressed s.world
    let s := s.perform c .staticPopupEscapePressed
    if escaped then s
    else
      let closed := c.answer .closeMenus s.world
      let s := s.perform c .closeMenus
      if closed then s else s.perform c .closeAllWindows

end Nostalgia.Controller
