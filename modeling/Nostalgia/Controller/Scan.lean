/-
  Nostalgia.Controller.Scan — `RefreshElements`: one scan of the frames, and where it puts
  the focus (DinoControllerUI.lua).

  `preferredFocus` is the chain of special cases (a loot roll, the return from one, the
  pending focus requests, first visits); `settleFocus` keeps the focus on its key, else on
  its index. A scan can end in a Lua error: `FindInitialBankSlot` calls a function that is
  not defined yet where it stands.
  What a scan does to the focus is in Nostalgia.Controller.Focus.
-/

import Nostalgia.Controller.Bindings

namespace Nostalgia.Controller

open Nostalgia.Lua Nostalgia.Machine

variable (c : Client)

/-! ## Element lists, counted from 1 -/

def elementAt (elements : List Element) (index : Nat) : Option Element :=
  if index = 0 then none else elements[index - 1]?

/-- The first index whose element satisfies `p`. -/
def findElement (elements : List Element) (p : Element → Bool) : Option Nat := (elements.findIdx? p).map (· + 1)

def findKey (elements : List Element) (key : String) : Option Nat := findElement elements (·.key == key)

/-- The key is `pre`, then digits, then `suffix`. -/
def isNumbered (pre suffix key : String) : Bool :=
  pre.toList.isPrefixOf key.toList &&
    let rest := key.toList.drop pre.length
    !(rest.takeWhile isDigit).isEmpty && rest.dropWhile isDigit == suffix.toList

/-- `^ContainerFrame%d+Item%d+$`. -/
def isContainerItem (key : String) : Bool :=
  "ContainerFrame".toList.isPrefixOf key.toList &&
    let rest := key.toList.drop "ContainerFrame".length
    !(rest.takeWhile isDigit).isEmpty && isNumbered "Item" "" (String.ofList (rest.dropWhile isDigit))

/-- `FindFirstMatchingElement`. -/
def findFirstMatchingElement (elements : List Element) (pattern : String → Bool) : Option Nat :=
  findElement elements fun element => pattern element.key

/-! ## Where the focus goes -/

inductive LuaError where
  /-- A call of a function that is not defined where it is called. -/
  | callNil (name : String)
  | concatenateNil
  deriving DecidableEq, Repr

def findInitialMerchantBagSlot (w : World) (elements : List Element) : Option Nat :=
  let isBagSlot (element : Element) := isContainerItem element.key
  let holdsItem (element : Element) := (w.frame element.frame).parent.any fun parent =>
    w.containerItem (w.frame parent).id (w.frame element.frame).id
  (findElement elements fun element => isBagSlot element && holdsItem element).or (findElement elements isBagSlot)

/-- `FindInitialBankSlot`: a filled slot, else an empty one, else the undefined call. -/
def findInitialBankSlot (w : World) (elements : List Element) : Except LuaError Nat :=
  let isBankSlot (element : Element) := isNumbered "BankFrameItem" "" element.key && 0 < (w.frame element.frame).id
  let holdsItem (element : Element) := w.containerItem (-1) (w.frame element.frame).id
  match (findElement elements fun element => isBankSlot element && holdsItem element).or
      (findElement elements isBankSlot) with
  | some index => .ok index
  | none => .error (.callNil "FindFirstMatchingElement")

/-- The roll that takes the focus of one whose button is gone: the next frame in number,
    else the lowest, there the same choice if it is offered. -/
def rollSuccessor (elements : List Element) (frameIndex : Nat) (choice : Option Choice) : Option Nat :=
  let frameIndices := elements.filterMap (·.lootRollFrameIndex)
  match ((frameIndices.filter (frameIndex < ·)).min?).or frameIndices.min? with
  | none => none
  | some nextFrameIndex =>
    (findElement elements fun element =>
      element.lootRollFrameIndex == some nextFrameIndex && element.lootRollChoice == choice).or
    (findElement elements fun element => element.lootRollFrameIndex == some nextFrameIndex)

/-- `preferredIndex` of `RefreshElements`; with it the focus requests it leaves pending.
    `nav` is the navigation before the scan. -/
def preferredFocus (w : World) (nav : Nav) (context : Context) (elements : List Element)
    (resumeFocus : Option SuspendedFocus) : Except LuaError (Option Nat × Nav) :=
  let changed := nav.context != some context
  let oldElement := elementAt nav.elements nav.index
  if context == .lootroll && changed then
    .ok (((findFirstMatchingElement elements (isNumbered "GroupLootFrame" "IconFrame")).or <|
      (findFirstMatchingElement elements (isNumbered "GroupLootFrame" "RollButton")).or <|
      (findFirstMatchingElement elements (isNumbered "GroupLootFrame" "GreedButton")).or <|
      (findFirstMatchingElement elements (isNumbered "GroupLootFrame" "PassButton")).or (some 1)), nav)
  else match (if context == .lootroll then oldElement.bind fun e => e.lootRollFrameIndex.map ((e, ·)) else none) with
  | some (oldElement, frameIndex) =>
    .ok ((findKey elements oldElement.key).or (rollSuccessor elements frameIndex oldElement.lootRollChoice), nav)
  | none => match resumeFocus.filter (·.context == context) with
  | some resume =>
    .ok ((resume.key.bind (findKey elements)).or (some (max 1 (min resume.index elements.length))), nav)
  | none =>
    if context == .merchant && nav.pendingMerchantBagFocus then
      match findInitialMerchantBagSlot w elements with
      | some index => .ok (some index, { nav with pendingMerchantBagFocus := false })
      | none => .ok (none, nav)
    else if context == .questlog && (nav.pendingQuestLogFocus || changed) then
      .ok ((findFirstMatchingElement elements (· == "QuestFrameExitButton")).or (some 1),
        { nav with pendingQuestLogFocus := false })
    else if context == .bank && (nav.pendingBankFocus || changed) then
      match findInitialBankSlot w elements with
      | .ok index => .ok (some index, { nav with pendingBankFocus := false })
      | .error err => .error err
    else if context == .talent && (nav.pendingTalentFocus || changed) then
      match findFirstMatchingElement elements (isNumbered "TalentFrameTalent" "") with
      | some index => .ok (some index, { nav with pendingTalentFocus := false })
      | none => .ok (none, nav)
    else if context == .stable && changed then
      .ok ((findFirstMatchingElement elements (· == "PetStableCurrentPet")).or <|
        (findFirstMatchingElement elements (isNumbered "PetStableStabledPet" "")).or (some 1), nav)
    else .ok (none, nav)

/-- The new focus, and the loot index it leaves pending. -/
def settleFocus (nav : Nav) (context : Context) (elements : List Element) (preferred : Option Nat) : Nat × Option Nat :=
  match preferred with
  | some index => (index, nav.pendingLootIndex)
  | none =>
    if nav.context != some context then (1, nav.pendingLootIndex)
    else match (elementAt nav.elements nav.index).bind fun old => findKey elements old.key with
    | some found => (found, nav.pendingLootIndex)
    | none =>
      match nav.pendingLootIndex with
      | some lootIndex => (max 1 (min lootIndex elements.length), none)
      | none => (max 1 (min nav.index elements.length), none)

/-! ## The highlight -/

def centerLootFrame (element : Element) (s : St) : St :=
  match s.world.getglobal "LootFrame", s.world.getglobal "UIParent" with
  | some lootFrame, some uiParent =>
    match (s.world.frame element.frame).center, (s.world.frame uiParent).center, (s.world.frame lootFrame).edges with
    | some button, some root, some edges =>
      s.perform c (.setLootFramePoint (edges.left + root.1 - button.1) (edges.bottom + root.2 - button.2))
    | _, _, _ => s
  | _, _ => s

def hideHighlight (s : St) : St :=
  let s := match s.nav.tooltipElement with
    | some element => triggerOnLeave c element s
    | none => s
  s.withNav fun nav => { nav with tooltipElement := none, highlight := none }

def showHighlight (element : Element) (s : St) : St :=
  let s := if s.nav.tooltipElement.map (·.frame) == some element.frame then s
    else
      let s := match s.nav.tooltipElement with
        | some old => triggerOnLeave c old s
        | none => s
      triggerOnEnter c element (s.withNav fun nav => { nav with tooltipElement := some element })
  let s := s.withNav fun nav => { nav with highlight := some ⟨nav.context, element⟩ }
  if s.nav.context == some .loot then centerLootFrame c element s else s

def updateHighlight (s : St) : St :=
  match elementAt s.nav.elements s.nav.index with
  | some element =>
    if s.nav.active && usableElement s.world element then showHighlight c element s else hideHighlight c s
  | none => hideHighlight c s

/-! ## `RefreshElements` -/

/-- The suspended focus a scan leaves, and the one it resumes. -/
def suspendFocus (nav : Nav) (context : Context) : Option SuspendedFocus × Option SuspendedFocus :=
  if context == .lootroll && nav.context != some .lootroll then
    match nav.active, nav.context with
    | true, some oldContext =>
      (some ⟨oldContext, (elementAt nav.elements nav.index).map (·.key), nav.index⟩, none)
    | _, _ => (none, none)
  else if nav.context == some .lootroll && context != .lootroll then (none, nav.suspendedFocus)
  else (nav.suspendedFocus, none)

/-- The state with a new context and its elements, in UI mode. -/
def enterContext (context : Context) (elements : List Element) (suspendedFocus : Option SuspendedFocus) (s : St) : St :=
  let changed := s.nav.context != some context
  let s := s.withNav fun nav => { nav with context := some context, elements, suspendedFocus }
  if !s.nav.active then enterUIMode c s
  else if changed then setUIMode true (some context) s
  else s

/-- The focus a scan chooses: preferred, else settled. -/
def chooseFocus (w : World) (nav : Nav) (context : Context) (elements : List Element)
    (resumeFocus : Option SuspendedFocus) : Except LuaError (Nat × Nav) :=
  match preferredFocus w nav context elements resumeFocus with
  | .error err => .error err
  | .ok (preferred, requests) =>
    let (index, pendingLootIndex) := settleFocus nav context elements preferred
    .ok (index, { requests with pendingLootIndex })

/-- The focus, and the requests left pending. -/
def setFocus (index : Nat) (requests nav : Nav) : Nav :=
  { nav with
    index
    pendingMerchantBagFocus := requests.pendingMerchantBagFocus
    pendingQuestLogFocus := requests.pendingQuestLogFocus
    pendingBankFocus := requests.pendingBankFocus
    pendingTalentFocus := requests.pendingTalentFocus
    pendingLootIndex := requests.pendingLootIndex }

def St.withScreen (screen : Screen) (s : St) : St := { s with screen }

/-- `RefreshElements` behind `BuildElements`, in a context with elements. -/
def focusOn (context : Context) (elements : List Element) (s : St) : St × Option LuaError :=
  let nav := s.nav
  let focus := suspendFocus nav context
  let s := enterContext c context elements focus.1 s
  match chooseFocus s.world nav context elements focus.2 with
  | .error err => (s, some err)
  | .ok (index, requests) => (updateHighlight c (s.withNav (setFocus index requests)), none)

/-- `RefreshElements`; the error that ended it, if one did. -/
def refreshElements (s : St) : St × Option LuaError :=
  if s.db.controllerEnabled == 0 || s.db.uiEnabled == 0 then (leaveUIMode c s, none)
  else
    let built := buildElements c s.screen
    let s := s.withScreen built.1
    match built.2.1 with
    | none => (leaveUIMode c s, none)
    | some context => if built.2.2.isEmpty then (leaveUIMode c s, none) else focusOn c context built.2.2 s

end Nostalgia.Controller
