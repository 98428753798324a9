/-
  Nostalgia.Controller.Elements — `BuildElements`: which context the visible frames give
  and which elements can be reached in it (DinoControllerUI.lua).

  A visible loot roll comes first (and closes the loot window), then dropdowns, then
  static popups, then one panel in the order of `panelContext`. Building the list calls
  the client only to close the loot window under a roll and to create the merchant's sell
  button.
  - `buildElements_lootroll_iff`: the context is `lootroll` exactly if some roll frame
    offers a usable button.
  - `mem_groupLootRolls`: a roll element records its frame's number, roll and choice.
-/

import Nostalgia.Controller.Frames

namespace Nostalgia.Controller

open Nostalgia.Lua

inductive Context where
  | lootroll | dropdown | popup | battlegroundscore | taxi | worldmap | quest | gossip | merchant | loot
  | trainer | bank | auction | mail | stable | questlog | talent | character | bags
  deriving DecidableEq, Repr

variable (c : Client) (w : World)

/-! ## Bags, merchant and loot -/

/-- `addButton` with an action on the button itself. -/
def addActionButton (elements : List Element) (name : String) (mouseButton : MouseButton)
    (action : FrameId → ElementAction) : List Element :=
  addFrameButton w elements name (w.getglobal name) mouseButton ((w.getglobal name).map action) false

/-- `AddContainers`; `customAction` is `ActivateContainerItemInMerchant` or nothing. -/
def addContainers (elements : List Element) (mouseButton : MouseButton) (customAction : Option (FrameId → ElementAction)) :
    List Element :=
  (List.range' 1 (w.NUM_CONTAINER_FRAMES.getD 12)).foldl (fun els frameIndex =>
    let container := "ContainerFrame" ++ toString frameIndex
    if visible w container then
      let els := (List.range' 1 20).foldl (fun els itemIndex =>
        let name := container ++ "Item" ++ toString itemIndex
        addFrameButton w els name (w.getglobal name) mouseButton
          (customAction.bind fun action => (w.getglobal name).map action) false) els
      addButton w els (container ++ "CloseButton")
    else els) elements

def characterSlots : List String :=
  ["CharacterHeadSlot", "CharacterNeckSlot", "CharacterShoulderSlot", "CharacterBackSlot", "CharacterChestSlot",
   "CharacterShirtSlot", "CharacterTabardSlot", "CharacterWristSlot", "CharacterHandsSlot", "CharacterWaistSlot",
   "CharacterLegsSlot", "CharacterFeetSlot", "CharacterFinger0Slot", "CharacterFinger1Slot", "CharacterTrinket0Slot",
   "CharacterTrinket1Slot", "CharacterMainHandSlot", "CharacterSecondaryHandSlot", "CharacterRangedSlot",
   "CharacterAmmoSlot"]

def addButtons (elements : List Element) (names : List String) : List Element := names.foldl (addButton w) elements

def ensureMerchantSellJunkButton (s : Screen) : Screen :=
  if (s.world.getglobal "MerchantSellJunkButton").isNone then perform c .createJunkButton s else s

/-- `AddMerchant`, in the world that has the sell button. -/
def addMerchant (elements : List Element) : List Element :=
  let els := addActionButton w elements "MerchantSellJunkButton" .LeftButton fun _ => .sellAllGreyItems
  let els := (List.range' 1 12).foldl (fun els index =>
    addActionButton w els ("MerchantItem" ++ toString index ++ "ItemButton") .RightButton .activateMerchantButton) els
  let els := addActionButton w els "MerchantBuyBackItemItemButton" .RightButton .activateMerchantBuyBackItem
  let els := addButtons w els ["MerchantPrevPageButton", "MerchantNextPageButton"]
  let els := addActionButton w els "MerchantRepairItemButton" .LeftButton .activateMerchantRepairItem
  let els := addButtons w els
    ["MerchantRepairAllButton", "MerchantFrameTab1", "MerchantFrameTab2", "MerchantFrameCloseButton"]
  let els := if visible w "CharacterFrame" then addButtons w els characterSlots else els
  addContainers w els .RightButton (some .activateContainerItemInMerchant)

def addLoot (elements : List Element) : List Element :=
  let els := (List.range' 1 4).foldl (fun els index =>
    addActionButton w els ("LootButton" ++ toString index) .LeftButton .activateLootButton) elements
  addButtons w els ["LootFrameUpButton", "LootFrameDownButton", "LootCloseButton"]

/-! ## Loot rolls -/

/-- `GROUP_LOOT_ACTIONS`: the suffix of the button and the choice it stands for. -/
def GROUP_LOOT_ACTIONS : List (String × Choice) :=
  [("IconFrame", .icon), ("RollButton", .need), ("GreedButton", .greed), ("PassButton", .pass)]

def groupLootFrame (frameIndex : Nat) : String := "GroupLootFrame" ++ toString frameIndex

/-- The frame numbers of `NUM_GROUP_LOOT_FRAMES`. -/
def groupLootFrames : List Nat := List.range' 1 (w.NUM_GROUP_LOOT_FRAMES.getD 4)

def hasVisibleGroupLootRoll : Bool := (groupLootFrames w).any fun frameIndex => visible w (groupLootFrame frameIndex)

def addGroupLootRollAction (elements : List Element) (rollFrame : FrameId) (frameIndex : Nat)
    (actionInfo : String × Choice) : List Element :=
  let buttonName := groupLootFrame frameIndex ++ actionInfo.1
  match w.getglobal buttonName with
  | none => elements
  | some button =>
    if usableButton w button then
      elements ++ [{ key := buttonName, frame := button
                     action := some (.groupLootRoll rollFrame button actionInfo.2)
                     lootRollFrameIndex := some frameIndex, lootRollID := (w.frame rollFrame).rollID
                     lootRollChoice := some actionInfo.2 }]
    else elements

/-- The elements `AddGroupLootRolls` adds. -/
def groupLootRolls : List Element :=
  (groupLootFrames w).foldl (fun els frameIndex =>
    match w.getglobal (groupLootFrame frameIndex) with
    | none => els
    | some rollFrame =>
      if (w.frame rollFrame).visible then
        GROUP_LOOT_ACTIONS.foldl (fun els actionInfo => addGroupLootRollAction w els rollFrame frameIndex actionInfo) els
      else els) []

/-! ## Panels -/

def addGossip (elements : List Element) : List Element :=
  let els := addRange w elements "GossipTitleButton" 1 16 "" .LeftButton
  let els := addScrollAreaNamed w els "GossipGreetingScrollArea" "GossipGreetingScrollFrame" "GossipGreetingScrollFrame"
  addButtons w els ["GossipFrameGreetingGoodbyeButton", "GossipFrameCloseButton"]

def addQuest (elements : List Element) : List Element :=
  let els :=
    if visible w "QuestFrameRewardPanel" then
      let els := addRange w elements "QuestRewardItem" 1 w.numQuestChoices "" .LeftButton
      let els := addScrollAreaNamed w els "QuestRewardScrollArea" "QuestRewardScrollFrame" "QuestRewardScrollFrame"
      addButtons w els ["QuestFrameCompleteQuestButton", "QuestFrameCancelButton"]
    else if visible w "QuestFrameProgressPanel" then
      let els := addScrollAreaNamed w elements "QuestProgressScrollArea" "QuestProgressScrollFrame"
        "QuestProgressScrollFrame"
      addButtons w els ["QuestFrameCompleteButton", "QuestFrameGoodbyeButton"]
    else if visible w "QuestFrameDetailPanel" then
      let els := addScrollAreaNamed w elements "QuestDetailScrollArea" "QuestDetailScrollFrame" "QuestDetailScrollFrame"
      addButtons w els ["QuestFrameAcceptButton", "QuestFrameDeclineButton"]
    else if visible w "QuestFrameGreetingPanel" then
      let els := addRange w elements "QuestTitleButton" 1 32 "" .LeftButton
      let els := addScrollAreaNamed w els "QuestGreetingScrollArea" "QuestGreetingScrollFrame" "QuestGreetingScrollFrame"
      addButton w els "QuestFrameGreetingGoodbyeButton"
    else elements
  addButton w els "QuestFrameCloseButton"

def addTrainer (elements : List Element) : List Element :=
  let els := addRange w elements "ClassTrainerSkill" 1 11 "" .LeftButton
  let els := addScrollAreaNamed w els "ClassTrainerListScrollArea" "ClassTrainerListScrollFrameScrollBar"
    "ClassTrainerListScrollFrame"
  let els := addScrollAreaNamed w els "ClassTrainerDetailScrollArea" "ClassTrainerDetailScrollFrame"
    "ClassTrainerDetailScrollFrame"
  addButtons w els
    ["ClassTrainerAvailableButton", "ClassTrainerUnavailableButton", "ClassTrainerUsedButton",
     "ClassTrainerTrainButton", "ClassTrainerCancelButton", "ClassTrainerFrameCloseButton"]

/-- `FindClickableChild`: first among the children, then below each of them. -/
def findClickableChild : Nat → FrameId → Option FrameId
  | 0, _ => none
  | depth + 1, frame =>
    match (w.frame frame).children.find? fun child => (w.frame child).clickable && usableButton w child with
    | some child => some child
    | none => (w.frame frame).children.findSome? fun child => findClickableChild depth child

def addBankPurchaseButton (elements : List Element) : List Element :=
  let button := (w.getglobal "BankFramePurchaseButton").or (w.getglobal "BankFramePurchaseInfoPurchaseButton")
  let button := if button.any (usableButton w) then button
    else (w.getglobal "BankFramePurchaseInfo").bind (findClickableChild w 3)
  addFrameButton w elements "BankPurchaseButton" button .LeftButton none false

def addBank (elements : List Element) : List Element :=
  let els := addRange w elements "BankFrameItem" 1 24 "" .RightButton
  let els := (List.range' 1 6).foldl (fun els bagIdx =>
    let name := "BankFrameBag" ++ toString bagIdx
    addFrameButton w els name (w.getglobal name) .LeftButton none true) els
  let els := addBankPurchaseButton w els
  let els := addButton w els "BankCloseButton"
  addContainers w els .RightButton none

def addAuction (elements : List Element) : List Element :=
  let els :=
    if visible w "AuctionFrameBrowse" then
      let els := addButton w elements "BrowseSearchButton"
      let els := addRange w els "BrowseButton" 1 8 "" .LeftButton
      let els := addScrollAreaNamed w els "BrowseScrollArea" "BrowseScrollFrameScrollBar" "BrowseScrollFrame"
      let els := addButtons w els
        ["BrowseBuyoutButton", "BrowseBidButton", "BrowsePrevPageButton", "BrowseNextPageButton"]
      let els := addScrollAreaNamed w els "BrowseFilterScrollArea" "BrowseFilterScrollFrameScrollBar"
        "BrowseFilterScrollFrame"
      let els := addRange w els "AuctionFilterButton" 1 15 "" .LeftButton
      addButtons w els ["IsUsableCheckButton", "BrowseCloseButton"]
    else if visible w "AuctionFrameBid" then
      let els := addRange w elements "BidButton" 1 9 "" .LeftButton
      let els := addScrollAreaNamed w els "BidScrollArea" "BidScrollFrameScrollBar" "BidScrollFrame"
      addButtons w els ["BidBuyoutButton", "BidBidButton", "BidPrevPageButton", "BidNextPageButton", "BidCloseButton"]
    else if visible w "AuctionFrameAuctions" then
      let els := addButtonWith w elements "AuctionsItemButton" .RightButton none
      let els := addButton w els "AuctionsCreateAuctionButton"
      let els := addRange w els "AuctionsButton" 1 9 "" .LeftButton
      let els := addScrollAreaNamed w els "AuctionsScrollArea" "AuctionsScrollFrameScrollBar" "AuctionsScrollFrame"
      addButtons w els
        ["AuctionsCancelAuctionButton", "AuctionsPrevPageButton", "AuctionsNextPageButton",
         "AuctionsShortAuctionButton", "AuctionsMediumAuctionButton", "AuctionsLongAuctionButton",
         "AuctionsCloseButton"]
    else elements
  let els := addRange w els "AuctionFrameTab" 1 3 "" .LeftButton
  addButton w els "AuctionFrameCloseButton"

def addMail (elements : List Element) : List Element :=
  if visible w "OpenMailFrame" then
    let els := addButtons w elements ["OpenMailLetterButton", "OpenMailPackageButton", "OpenMailMoneyButton"]
    let els := addScrollAreaNamed w els "OpenMailScrollArea" "OpenMailScrollFrame" "OpenMailScrollFrame"
    addButtons w els ["OpenMailReplyButton", "OpenMailDeleteButton", "OpenMailCancelButton", "OpenMailCloseButton"]
  else if visible w "InboxFrame" then
    let els := addRange w elements "MailItem" 1 7 "Button" .LeftButton
    addButtons w els ["InboxPrevPageButton", "InboxNextPageButton", "MailFrameTab1", "MailFrameTab2", "InboxCloseButton"]
  else if visible w "SendMailFrame" then
    let els := addButtons w elements
      ["SendMailPackageButton", "SendMailSendMoneyButton", "SendMailCODButton", "SendMailStationeryButton"]
    let els := addScrollAreaNamed w els "SendMailScrollArea" "SendMailScrollFrame" "SendMailScrollFrame"
    addButtons w els
      ["SendMailMailButton", "SendMailCancelButton", "MailFrameTab1", "MailFrameTab2", "InboxCloseButton"]
  else elements

/-- `AddTaxi`: only reachable nodes are destinations. -/
def addTaxi (elements : List Element) : List Element :=
  (List.range' 1 (min w.numTaxiNodes (w.TAXI_BUTTONS.getD 64))).foldl (fun els index =>
    let name := "TaxiButton" ++ toString index
    match w.getglobal name with
    | none => els
    | some button =>
      let nodeIndex := (w.frame button).id
      if usableButton w button && w.taxiNodeGetType nodeIndex == .REACHABLE then
        els ++ [{ key := name, frame := button, taxiNode := some nodeIndex }]
      else els) elements

def playerIsHunter : Bool := w.classToken == .HUNTER

def addStableSlot (elements : List Element) (name : String) : List Element :=
  addFrameButton w elements name (w.getglobal name) .LeftButton ((w.getglobal name).map .activateStableSlot) true

def addStable (elements : List Element) : List Element :=
  let els := addStableSlot w elements "PetStableCurrentPet"
  let els := (List.range' 1 (w.NUM_PET_STABLE_SLOTS.getD 2)).foldl (fun els index =>
    addStableSlot w els ("PetStableStabledPet" ++ toString index)) els
  addButtons w els
    ["PetStablePurchaseButton", "PetStableModelRotateLeftButton", "PetStableModelRotateRightButton",
     "PetStableFrameCloseButton"]

def addCharacter (elements : List Element) : List Element :=
  let els := addContainers w elements .RightButton none
  let els := if visible w "PaperDollFrame" then addButtons w els characterSlots else els
  let els :=
    if visible w "ReputationFrame" then
      let els := addRange w els "ReputationHeader" 1 15 "" .LeftButton
      let els := addRange w els "ReputationBar" 1 15 "" .LeftButton
      addScrollAreaNamed w els "ReputationScrollArea" "ReputationListScrollFrameScrollBar" "ReputationListScrollFrame"
    else if visible w "SkillFrame" then
      let els := addButton w els "SkillFrameCollapseAllButton"
      let els := addRange w els "SkillRankFrame" 1 12 "" .LeftButton
      let els := addScrollAreaNamed w els "SkillListScrollArea" "SkillListScrollFrameScrollBar" "SkillListScrollFrame"
      addScrollAreaNamed w els "SkillDetailScrollArea" "SkillDetailScrollFrame" "SkillDetailScrollFrame"
    else els
  let els := addRange w els "CharacterFrameTab" 1 5 "" .LeftButton
  addButton w els "CharacterFrameCloseButton"

def frameIntersectsViewport (frame viewport : FrameId) : Bool :=
  match (w.frame frame).edges, (w.frame viewport).edges with
  | some f, some view => f.right > view.left && f.left < view.right && f.top > view.bottom && f.bottom < view.top
  | _, _ => false

def addTalent (elements : List Element) : List Element :=
  let els := (List.range' 1 (w.MAX_NUM_TALENTS.getD 20)).foldl (fun els index =>
    let name := "TalentFrameTalent" ++ toString index
    match w.getglobal name, w.getglobal "TalentFrameScrollFrame" with
    | some button, some viewport =>
      if frameIntersectsViewport w button viewport then
        addFrameButton w els name (some button) .LeftButton (some (.activateTalentButton button)) true
      else els
    | _, _ => els) elements
  let els := addScrollAreaNamed w els "TalentFrameScrollArea" "TalentFrameScrollFrame" "TalentFrameScrollFrame"
  let els := (List.range' 1 w.numTalentTabs).foldl (fun els index =>
    addActionButton w els ("TalentFrameTab" ++ toString index) .LeftButton .activateTalentTab) els
  addButtons w els ["TalentFrameCancelButton", "TalentFrameCloseButton"]

def addQuestLog (elements : List Element) : List Element :=
  let els := addRange w elements "QuestLogTitle" 1 6 "" .LeftButton
  let els := addScrollAreaNamed w els "QuestLogListScrollArea" "QuestLogListScrollFrameScrollBar"
    "QuestLogListScrollFrame"
  let els := addScrollAreaNamed w els "QuestLogDetailScrollArea" "QuestLogDetailScrollFrame" "QuestLogDetailScrollFrame"
  let els := scanScrollFramesOf w els (w.getglobal "QuestLogFrame") 5
  let els := addRange w els "QuestLogItem" 1 10 "" .LeftButton
  let els := addButton w els "QuestLogCollapseAllButton"
  let els := addActionButton w els "QuestLogTrack" .LeftButton fun _ => .toggleSelectedQuestWatch
  addButtons w els
    ["QuestFramePushQuestButton", "QuestLogFrameAbandonButton", "QuestFrameExitButton", "QuestLogFrameCloseButton"]

def addWorldMap (elements : List Element) : List Element :=
  addButtons w elements
    ["WorldMapZoomOutButton", "WorldMapContinentDropDownButton", "WorldMapZoneDropDownButton",
     "WorldMapFrameCloseButton"]

def addWorldStateScore (elements : List Element) : List Element :=
  let els := addActionButton w elements "WorldStateScoreFrameLeaveButton" .LeftButton
    fun _ => .activateWorldStateScoreLeave
  let els := (List.range' 1 3).foldl (fun els tabIndex =>
    addActionButton w els ("WorldStateScoreFrameTab" ++ toString tabIndex) .LeftButton .activateWorldStateScoreTab) els
  let els := addScrollAreaNamed w els "WorldStateScoreScrollArea" "WorldStateScoreScrollFrame"
    "WorldStateScoreScrollFrame"
  addActionButton w els "WorldStateScoreFrameCloseButton" .LeftButton fun _ => .closeWorldStateScoreFrame

def addDropDownList (elements : List Element) (listIndex : Nat) : List Element :=
  let pre := "DropDownList" ++ toString listIndex
  if visible w pre then
    let els := addRange w elements (pre ++ "Button") 1 (w.UIDROPDOWNMENU_MAXBUTTONS.getD 32) "" .LeftButton
    scanScrollFramesOf w els (w.getglobal pre) 3
  else elements

/-- `AddStaticPopup`: the buttons of the first visible popup. -/
def addStaticPopup (elements : List Element) : List Element :=
  match [1, 2, 3, 4].find? fun popupIndex => visible w ("StaticPopup" ++ toString popupIndex) with
  | some popupIndex => addRange w elements ("StaticPopup" ++ toString popupIndex ++ "Button") 1 3 "" .LeftButton
  | none => elements

/-! ## `BuildElements` -/

/-- The context of the first visible frame, in the order `BuildElements` asks for them. -/
def panelContext : Option Context :=
  if visible w "DropDownList1" then some .dropdown
  else if [1, 2, 3, 4].any fun popupIndex => visible w ("StaticPopup" ++ toString popupIndex) then some .popup
  else if visible w "WorldStateScoreFrame" then some .battlegroundscore
  else if visible w "TaxiFrame" then some .taxi
  else if visible w "WorldMapFrame" then some .worldmap
  else if visible w "QuestFrame" then some .quest
  else if visible w "GossipFrame" then some .gossip
  else if visible w "MerchantFrame" then some .merchant
  else if visible w "LootFrame" then some .loot
  else if visible w "ClassTrainerFrame" then some .trainer
  else if visible w "BankFrame" then some .bank
  else if visible w "AuctionFrame" then some .auction
  else if visible w "OpenMailFrame" || visible w "MailFrame" then some .mail
  else if playerIsHunter w && visible w "PetStableFrame" then some .stable
  else if visible w "QuestLogFrame" then some .questlog
  else if visible w "TalentFrame" then some .talent
  else if visible w "CharacterFrame" then some .character
  else if (List.range' 1 (w.NUM_CONTAINER_FRAMES.getD 12)).any fun i => visible w ("ContainerFrame" ++ toString i) then
    some .bags
  else none

/-- The elements of a context. -/
def panelElements : Context → List Element
  | .lootroll => groupLootRolls w
  | .dropdown =>
    let els := addDropDownList w [] 1
    if visible w "DropDownList2" then addDropDownList w els 2 else els
  | .popup => addStaticPopup w []
  | .battlegroundscore => addWorldStateScore w []
  | .taxi => addTaxi w []
  | .worldmap => addWorldMap w []
  | .quest => scanScrollFramesOf w (addQuest w []) (w.getglobal "QuestFrame") 4
  | .gossip => scanScrollFramesOf w (addGossip w []) (w.getglobal "GossipFrame") 4
  | .merchant => scanScrollFramesOf w (addMerchant w []) (w.getglobal "MerchantFrame") 4
  | .loot => addLoot w []
  | .trainer => scanScrollFramesOf w (addTrainer w []) (w.getglobal "ClassTrainerFrame") 4
  | .bank => scanScrollFramesOf w (addBank w []) (w.getglobal "BankFrame") 4
  | .auction => scanScrollFramesOf w (addAuction w []) (w.getglobal "AuctionFrame") 4
  | .mail => scanScrollFramesOf w (addMail w []) ((w.getglobal "OpenMailFrame").or (w.getglobal "MailFrame")) 4
  | .stable => scanScrollFramesOf w (addStable w []) (w.getglobal "PetStableFrame") 4
  | .questlog => addQuestLog w []
  | .talent => addTalent w []
  | .character => scanScrollFramesOf w (addCharacter w []) (w.getglobal "CharacterFrame") 4
  | .bags => addContainers w [] .RightButton none

def buildElements (s : Screen) : Screen × Option Context × List Element :=
  if (groupLootRolls s.world).isEmpty then
    match panelContext s.world with
    | none => (s, none, [])
    | some .merchant =>
      let s := ensureMerchantSellJunkButton c s
      (s, some .merchant, panelElements s.world .merchant)
    | some context => (s, some context, panelElements s.world context)
  else
    (if visible s.world "LootFrame" then perform c .closeLoot s else s, some .lootroll, groupLootRolls s.world)

/-! ## The roll elements -/

variable {c w}

/-- A roll element stands for a usable button of a visible roll frame, and records its roll. -/
structure RollElement (w : World) (e : Element) (frameIndex : Nat) (rollFrame : FrameId) (actionInfo : String × Choice) :
    Prop where
  numbered : frameIndex ∈ groupLootFrames w
  listed : actionInfo ∈ GROUP_LOOT_ACTIONS
  owner : w.getglobal (groupLootFrame frameIndex) = some rollFrame
  button : w.getglobal (groupLootFrame frameIndex ++ actionInfo.1) = some e.frame
  visible : (w.frame rollFrame).visible = true
  usable : usableButton w e.frame = true
  action : e.action = some (.groupLootRoll rollFrame e.frame actionInfo.2)
  lootRollID : e.lootRollID = (w.frame rollFrame).rollID
  lootRollChoice : e.lootRollChoice = some actionInfo.2
  lootRollFrameIndex : e.lootRollFrameIndex = some frameIndex

theorem mem_addGroupLootRollAction {els : List Element} {rollFrame : FrameId} {frameIndex : Nat} {actionInfo : String × Choice}
    (hi : frameIndex ∈ groupLootFrames w) (ha : actionInfo ∈ GROUP_LOOT_ACTIONS)
    (hf : w.getglobal (groupLootFrame frameIndex) = some rollFrame) (hv : (w.frame rollFrame).visible = true) {e : Element}
    (he : e ∈ addGroupLootRollAction w els rollFrame frameIndex actionInfo) :
    e ∈ els ∨ RollElement w e frameIndex rollFrame actionInfo := by
  unfold addGroupLootRollAction at he
  dsimp only at he
  split at he
  · exact Or.inl he
  · rename_i button hbutton
    split at he
    · rename_i husable
      rcases List.mem_append.mp he with hold | hnew
      · exact Or.inl hold
      · obtain rfl := List.mem_singleton.mp hnew
        exact Or.inr ⟨hi, ha, hf, hbutton, hv, husable, rfl, rfl, rfl, rfl⟩
    · exact Or.inl he

/-- What a loop adds, one of its rounds adds. -/
theorem mem_foldl_of_round {α : Type} {f : List Element → α → List Element} {P : Element → Prop} :
    ∀ (l : List α) (els : List Element), (∀ els, ∀ a ∈ l, ∀ e ∈ f els a, e ∈ els ∨ P e) →
      ∀ e ∈ l.foldl f els, e ∈ els ∨ P e := by
  intro l
  induction l with
  | nil => intro els _ e he; exact Or.inl he
  | cons a l ih =>
    intro els hround e he
    rcases ih (f els a) (fun els b hb => hround els b (List.mem_cons_of_mem _ hb)) e he with hold | hnew
    · exact hround els a List.mem_cons_self e hold
    · exact Or.inr hnew

/-- What every button of every visible roll frame adds, the list is made of. -/
theorem groupLootRolls_of_round {P : Element → Prop}
    (hround : ∀ els rollFrame frameIndex actionInfo, frameIndex ∈ groupLootFrames w → actionInfo ∈ GROUP_LOOT_ACTIONS →
      w.getglobal (groupLootFrame frameIndex) = some rollFrame → (w.frame rollFrame).visible = true →
      ∀ e ∈ addGroupLootRollAction w els rollFrame frameIndex actionInfo, e ∈ els ∨ P e) : ∀ e ∈ groupLootRolls w, P e := by
  intro e he
  refine (mem_foldl_of_round (groupLootFrames w) [] ?_ e he).resolve_left List.not_mem_nil
  intro els frameIndex hi e he
  split at he
  · exact Or.inl he
  · rename_i rollFrame hf
    split at he
    · rename_i hv
      exact mem_foldl_of_round GROUP_LOOT_ACTIONS els
        (fun els actionInfo ha => hround els rollFrame frameIndex actionInfo hi ha hf hv) e he
    · exact Or.inl he

theorem mem_groupLootRolls {e : Element} (he : e ∈ groupLootRolls w) :
    ∃ frameIndex rollFrame actionInfo, RollElement w e frameIndex rollFrame actionInfo := by
  refine groupLootRolls_of_round (P := fun e => ∃ frameIndex rollFrame actionInfo, RollElement w e frameIndex rollFrame actionInfo)
    (fun els rollFrame frameIndex actionInfo hi ha hf hv e he => ?_) e he
  rcases mem_addGroupLootRollAction hi ha hf hv he with hold | hnew
  · exact Or.inl hold
  · exact Or.inr ⟨frameIndex, rollFrame, actionInfo, hnew⟩

/-- One question of `panelContext`. -/
theorem askedContext_ne {p : Prop} [Decidable p] {context : Context} {rest : Option Context} (h : context ≠ .lootroll)
    (hrest : rest ≠ some .lootroll) : (if p then some context else rest) ≠ some .lootroll := by
  by_cases hp : p
  · rw [if_pos hp]
    exact fun he => h (Option.some.inj he)
  · rw [if_neg hp]
    exact hrest

theorem panelContext_ne_lootroll : panelContext w ≠ some .lootroll := by
  unfold panelContext
  repeat refine askedContext_ne (by decide) ?_
  exact fun h => by cases h

theorem buildElements_lootroll_iff (s : Screen) :
    (buildElements c s).2.1 = some .lootroll ↔ groupLootRolls s.world ≠ [] := by
  unfold buildElements
  cases hrolls : groupLootRolls s.world with
  | nil =>
    refine ⟨fun h => ?_, fun h => absurd rfl h⟩
    rw [List.isEmpty_nil, if_pos rfl] at h
    have hpanel := panelContext_ne_lootroll (w := s.world)
    split at h
    · cases h
    · cases h
    · rename_i context _ hcontext
      exact absurd (hcontext.trans h) hpanel
  | cons e rest => exact ⟨fun _ => List.cons_ne_nil e rest, fun _ => rfl⟩

end Nostalgia.Controller
