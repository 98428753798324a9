/-
  Nostalgia.MacroManager.Manager — the AddOn's state and its entry points
  (DinoMacroManager.lua).

  `State` is `DinoMacroManagerDB` and the `DMM` table together: the slots, the cast
  waiting for confirmation, the poll timer, the editor and what the slot buttons show.
  `nextRef` is the next table identity; a table the code creates takes it. Every entry
  point runs at one instant of the `Client`. A Lua error (an index into a missing slot)
  ends the entry point where it happens; what was written before it stays.

  A cast waits in `pendingCast` from `TriggerSlot` to `ConfirmPendingCast`. `successAt`
  is when `OnUpdate` confirms it: set at the trigger for a command, by SPELLCAST_STOP or
  SPELLCAST_CHANNEL_STOP for a spell.

  Left out: frame geometry, textures and colours other than what a slot button says,
  the saved window position, the macro list of the client, the Blizzard buttons' overlays.
-/

import Nostalgia.MacroManager.Chain
import Nostalgia.Lua.Text
import Nostalgia.Machine.Run

namespace Nostalgia.MacroManager

open Nostalgia.Lua

structure Pending where
  slotIndex : Nat
  step : Nat
  /-- The identity of the entry triggered. -/
  spell : Nat
  startedAt : ℚ
  successAt : Option ℚ
  deriving DecidableEq

/-- What a slot button shows. -/
structure Button where
  chainName : String
  icon : String
  step : String
  cooldown : ℚ × ℚ × Nat
  deriving DecidableEq

structure State where
  slots : Nat → Option Slot
  /-- `DinoMacroManagerDB.resetSeconds`, the one reset time of version 1. -/
  resetSeconds : Option ℚ
  /-- `mainFrame` and `editorFrame` exist. -/
  frames : Bool
  mainShown : Bool
  buttons : Nat → Option Button
  status : Option (String × Bool)
  pendingCast : Option Pending
  updateElapsed : ℚ
  editorShown : Bool
  editorSlot : Option Nat
  editorSpells : Nat → Option Spell
  nameEdit : String
  resetEdit : String
  targetResetCheck : Bool
  editorStatus : Option (String × Bool)
  pickedSpellIndex : Option Nat
  pickedSpellBookType : Option BookType
  nextRef : Nat

/-- What a trigger asks of the client. -/
inductive Issued where
  | castSpellByName (castName : String)
  | petAttack
  | botAttack
  deriving DecidableEq, Repr

/-! ## Status lines -/

def setStatus (text : String) (isError : Bool) (st : State) : State :=
  if st.frames then { st with status := some (text, isError) } else st

def setEditorStatus (text : String) (isError : Bool) (st : State) : State :=
  if st.frames then { st with editorStatus := some (text, isError) } else st

def setSlot (index : Nat) (slot : Slot) (st : State) : State :=
  { st with slots := Function.update st.slots index (some slot) }

/-! ## The database -/

def newSlot (ref : Nat) : Slot :=
  { name := "", current := 1, spells := ⟨ref, []⟩, resetSeconds := DEFAULT_RESET, resetOnTargetChange := false,
    lastUsed := none, invalid := false }

def validReset (x : ℚ) : Bool := decide (0 ≤ x) && decide (x ≤ 3600)

/-- The loop body of `DMM.InitializeDB` for a slot that is a table. -/
def repairSlot (oldResetSeconds : ℚ) (slot : Slot) : Slot :=
  { slot with
    resetSeconds := if validReset slot.resetSeconds then slot.resetSeconds else oldResetSeconds
    current := normalised (getn slot.spells.steps) slot.current
    lastUsed := none
    invalid := false }

def initializeSlot (oldResetSeconds : ℚ) (st : State) (i : Nat) : State :=
  match st.slots i with
  | some slot => setSlot i (repairSlot oldResetSeconds slot) st
  | none => setSlot i (repairSlot oldResetSeconds (newSlot st.nextRef)) { st with nextRef := st.nextRef + 1 }

/-- The slot numbers 1 to `SLOT_COUNT`. -/
def slotNumbers : List Nat := List.range' 1 SLOT_COUNT

def initializeDB (st : State) : State :=
  let oldResetSeconds := ((st.resetSeconds.filter validReset).getD DEFAULT_RESET)
  { slotNumbers.foldl (initializeSlot oldResetSeconds) st with resetSeconds := none }

/-! ## What the buttons show -/

def updateSlotButton (c : Client) (index : Nat) (st : State) : State :=
  if st.frames ∧ index ∈ slotNumbers then
    match st.slots index with
    | none => st
    | some slot =>
      let slot := (applyTimeReset c.getTime slot).2
      let count := getn slot.spells.steps
      let (cur, slot) := getEffectiveStep c slot
      let chainName := if slot.name ≠ "" then slot.name else s!"Slot {index}"
      match get slot.spells.steps cur with
      | none =>
        { setSlot index { slot with invalid := false } st with
          buttons := Function.update st.buttons index (some ⟨chainName, QUESTION_ICON, "Empty", (0, 0, 0)⟩) }
      | some spell =>
        let (bookIndex, spell) := resolveSpell c spell
        let slot := { slot with
          spells := { slot.spells with steps := put slot.spells.steps cur spell }
          invalid := bookIndex.isNone }
        let cd : Cooldown := match bookIndex with
          | some (.index i) => c.getSpellCooldown i (spell.bookType.getD BOOKTYPE)
          | _ => ⟨some 0, some 0, some 0⟩
        let shown : ℚ × ℚ × Nat := match cd.start, cd.duration with
          | some start, some duration => if 0 < duration then (start, duration, cd.enable.getD 0) else (0, 0, 0)
          | _, _ => (0, 0, 0)
        let stepText := if bookIndex.isNone then "Invalid" else s!"{cur}/{count}"
        { setSlot index slot st with
          buttons := Function.update st.buttons index (some ⟨chainName, spell.icon.getD QUESTION_ICON, stepText, shown⟩) }
  else st

/-- The state part of `DinoMacroManager_GetSlotCurrentSpell`. -/
def getSlotCurrentSpell (c : Client) (st : State) (slotIndex : Nat) : State :=
  match st.slots slotIndex with
  | none => st
  | some slot =>
    let slot := (applyTimeReset c.getTime slot).2
    let (cur, slot) := getEffectiveStep c slot
    match get slot.spells.steps cur with
    | none => setSlot slotIndex slot st
    | some spell =>
      let spell := (resolveSpell c spell).2
      setSlot slotIndex { slot with spells := { slot.spells with steps := put slot.spells.steps cur spell } } st

/-- `DinoMacroManager_GetSlotFromAction`: the number in "DMM Slot <n>". -/
def getSlotFromAction (text : String) : Option Nat :=
  let cs := text.toList
  let ds := cs.drop "DMM Slot ".toList.length
  if "DMM Slot ".toList.isPrefixOf cs && ds.all isDigit && !ds.isEmpty then some (digitsVal ds) else none

/-- The chain slots the Blizzard buttons show. -/
def barSlots (c : Client) : List Nat := c.actionTexts.filterMap fun text => text.bind getSlotFromAction

/-- `DMM.UpdateBlizzardButtonCooldown` on a button of chain slot `slotIndex` asks for its
    cooldown, spell, usability and range; each looks the current step up. -/
def updateBlizzardButtonCooldown (c : Client) (st : State) (slotIndex : Nat) : State :=
  let cooldown := getSlotCurrentSpell c st slotIndex
  let icon := getSlotCurrentSpell c cooldown slotIndex
  let usable := getSlotCurrentSpell c icon slotIndex
  getSlotCurrentSpell c usable slotIndex

def updateBlizzardCooldowns (c : Client) (st : State) : State :=
  (barSlots c).foldl (updateBlizzardButtonCooldown c) st

def updateAllSlots (c : Client) (st : State) : State :=
  updateBlizzardCooldowns c (slotNumbers.foldl (fun st i => updateSlotButton c i st) st)

/-! ## The editor -/

/-- `DMM.CopySpell`: a new table with the same fields. -/
def copySpell (ref : Nat) (spell : Spell) : Spell := { spell with ref := ref }

def newCommandEntry (ref : Nat) : Command → Spell
  | .petAttack => ⟨ref, some .petAttack, "Pet: Attack", "", none, none, some PET_ATTACK_ICON⟩
  | .botAttack => ⟨ref, some .botAttack, "Bot: Attack (.x attack)", "", none, none, some BOT_ATTACK_ICON⟩

def setEditorSpell (index : Nat) (spell : Option Spell) (st : State) : State :=
  { st with editorSpells := Function.update st.editorSpells index spell }

/-- `DMM.InsertPetAttack` and `DMM.InsertBotAttack`. -/
def insertCommand (k : Command) (added : String) (index : Nat) (st : State) : State :=
  if (st.editorSpells index).isSome then setEditorStatus "Clear the field with a right-click first." true st
  else
    setEditorStatus added false
      (setEditorSpell index (some (newCommandEntry st.nextRef k)) { st with nextRef := st.nextRef + 1 })

def insertPetAttack : Nat → State → State := insertCommand .petAttack "Pet: Attack added (not saved yet)."
def insertBotAttack : Nat → State → State := insertCommand .botAttack "Bot: Attack (.x attack) added (not saved yet)."

def removeEditorSpell (index : Nat) (st : State) : State :=
  if (st.editorSpells index).isNone then st
  else
    setEditorStatus "Spell step removed." false
      { st with editorSpells := fun i =>
          if i = MAX_SPELLS then none
          else if index ≤ i ∧ i < MAX_SPELLS then st.editorSpells (i + 1) else st.editorSpells i }

/-- The spell on the cursor as `DMM.ReceiveSpell` finds it, or its complaint. -/
def cursorSpell (c : Client) (st : State) : Except String (Nat × Option BookType) :=
  match c.getCursorInfo with
  | some (.spell bookIndex bookType) => .ok (bookIndex, bookType)
  | some .other => .error "Drop a player spell from the spellbook."
  | none =>
    if c.cursorHasSpell then
      match st.pickedSpellIndex with
      | some bookIndex => .ok (bookIndex, st.pickedSpellBookType)
      | none => .error "The spellbook reference could not be read."
    else .error "Drop a player spell from the spellbook."

/-- The entry `DMM.ReceiveSpell` makes of it. -/
def receivedEntry (c : Client) (st : State) : Except String Spell := do
  let (bookIndex, bookType) ← cursorSpell c st
  let bookType := bookType.getD BOOKTYPE
  if bookType ≠ BOOKTYPE then throw "Pet spells are not supported."
  match c.getSpellName bookIndex bookType with
  | none => throw "The dropped spell could not be read."
  | some (name, rank) =>
    if c.isSpellPassive bookIndex bookType then throw "Passive spells cannot be triggered."
    return ⟨st.nextRef, none, name, rank.getD "", some bookIndex, some bookType, c.getSpellTexture bookIndex bookType⟩

def receiveSpell (c : Client) (index : Nat) (st : State) : State :=
  match receivedEntry c st with
  | .error complaint => setEditorStatus complaint true st
  | .ok entry =>
    setEditorStatus (entry.name ++ " saved locally (not applied yet).") false
      { setEditorSpell index (some entry) st with
        nextRef := st.nextRef + 1, pickedSpellIndex := none, pickedSpellBookType := none }

/-- `DMM.PickupSpell`'s hook. -/
def pickupSpell (spellIndex : Nat) (bookType : Option BookType) (st : State) : State :=
  { st with pickedSpellIndex := some spellIndex, pickedSpellBookType := some (bookType.getD BOOKTYPE) }

/-- Fields 1 to 4 as copies of a chain's steps, with fresh identities from `ref` on. -/
def copiedFields (ref : Nat) (steps : Arr Spell) (i : Nat) : Option Spell :=
  if 1 ≤ i ∧ i ≤ MAX_SPELLS then (get steps i).map (copySpell (ref + i - 1)) else none

def openEditor (index : Nat) (st : State) : State :=
  if st.frames then
    let opened := { st with editorSlot := some index, editorSpells := fun _ => none }
    match st.slots index with
    | none => opened
    | some slot =>
      setEditorStatus "Choose 2 to 4 spells or pet commands." false
        { opened with
          editorSpells := copiedFields st.nextRef slot.spells.steps
          nextRef := st.nextRef + MAX_SPELLS
          nameEdit := slot.name
          resetEdit := tostring slot.resetSeconds
          targetResetCheck := slot.resetOnTargetChange
          editorShown := true }
  else st

/-- The non-empty editor fields, in order. -/
def editorSteps (st : State) : List Spell := (List.range' 1 MAX_SPELLS).filterMap st.editorSpells

/-- The `compact` table of `DMM.SaveEditor`: a copy of each, with identities from `ref` on. -/
def compactSteps (ref : Nat) : List Spell → Arr Spell → Arr Spell
  | [], compact => compact
  | spell :: rest, compact => compactSteps (ref + 1) rest (tinsert compact (copySpell ref spell))

/-- The loop that resolves every step of `compact`: the first one that does not
    resolve, or the steps with their caches written. -/
def resolveAll (c : Client) : List Nat → Arr Spell → Except Nat (Arr Spell)
  | [], compact => .ok compact
  | i :: rest, compact =>
    match get compact i with
    | none => .error i
    | some spell =>
      match resolveSpell c spell with
      | (none, _) => .error i
      | (some _, spell) => resolveAll c rest (put compact i spell)

/-- What `DMM.SaveEditor` checks: the complaint, or the steps and the reset time. -/
def checkEditor (c : Client) (st : State) : Except String (Arr Spell × ℚ) :=
  let compact := compactSteps (st.nextRef + 1) (editorSteps st) []
  let count := getn compact
  if count < MIN_SPELLS ∨ MAX_SPELLS < count then .error "A chain requires 2 to 4 steps."
  else
    match resolveAll c (List.range' 1 count) compact with
    | .error i => .error s!"Step {i} is no longer available."
    | .ok steps =>
      match (tonumber st.resetEdit).filter validReset with
      | none => .error "Reset time must be between 0 and 3600 seconds."
      | some resetSeconds => .ok (steps, resetSeconds)

/-- `slot` as `DMM.SaveEditor` leaves it. -/
def savedSlot (st : State) (steps : Arr Spell) (resetSeconds : ℚ) (slot : Slot) : Slot :=
  { slot with
    name := st.nameEdit
    spells := ⟨st.nextRef, steps⟩
    resetSeconds := resetSeconds
    resetOnTargetChange := st.targetResetCheck
    current := 1
    lastUsed := none
    invalid := false }

def saveEditor (c : Client) (st : State) : State :=
  match st.editorSlot with
  | none => st
  | some index =>
    match checkEditor c st with
    | .error complaint => setEditorStatus complaint true st
    | .ok (steps, resetSeconds) =>
      match st.slots index with
      | none => st
      | some slot =>
        let st := updateAllSlots c { setSlot index (savedSlot st steps resetSeconds slot) st with
          nextRef := st.nextRef + 1 + MAX_SPELLS }
        { setStatus s!"Slot {index} saved." false st with editorShown := false }

def clearEditorSlot (c : Client) (st : State) : State :=
  match st.editorSlot with
  | none => st
  | some index =>
    let st := { setSlot index (newSlot st.nextRef) st with
      nextRef := st.nextRef + 1
      editorSpells := fun _ => none
      nameEdit := ""
      resetEdit := tostring DEFAULT_RESET
      targetResetCheck := false }
    setStatus s!"Slot {index} cleared." false
      (setEditorStatus "The entire slot was cleared." false (updateAllSlots c st))

/-! ## Confirming and triggering -/

/-- `DMM.ConfirmPendingCast`: the slot it advanced, if any. -/
def confirmPendingCast (c : Client) (st : State) : Option Nat × State :=
  match st.pendingCast with
  | none => (none, st)
  | some pending =>
    match st.slots pending.slotIndex with
    | none => (none, { st with pendingCast := none })
    | some slot =>
      if slot.current ≠ pending.step ∨ (get slot.spells.steps pending.step).map Spell.ref ≠ some pending.spell then
        (none, { st with pendingCast := none })
      else
        let count := getn slot.spells.steps
        let next := if count < slot.current + 1 then 1 else slot.current + 1
        let st := { setSlot pending.slotIndex { slot with current := next, lastUsed := some c.getTime } st with
          pendingCast := none }
        let st := updateBlizzardCooldowns c (updateSlotButton c pending.slotIndex st)
        (some pending.slotIndex, setStatus s!"Slot {pending.slotIndex}: next step {next}." false st)

/-- `enabled == 0`, or a cooldown still running. -/
def Cooldown.blocks (cd : Cooldown) (now : ℚ) : Bool := cd.enable == some 0 || cd.running 0 now

def castName (spell : Spell) : String :=
  if spell.rank ≠ "" then spell.name ++ "(" ++ spell.rank ++ ")" else spell.name

/-- The cooldown `TriggerSlot` looks at; a command has none. -/
def stepCooldown (c : Client) (spell : Spell) : Resolved → Cooldown
  | .index i => c.getSpellCooldown i (spell.bookType.getD BOOKTYPE)
  | .command _ => ⟨some 0, some 0, some 1⟩

/-- `TriggerSlot` from the ready check on: `spell` is the step's entry, resolved. -/
def castStep (c : Client) (index stepToUse : Nat) (spell : Spell) (book : Resolved) (st : State) : Option Issued × State :=
  if (stepCooldown c spell book).blocks c.getTime then (none, setStatus s!"Slot {index}: current step is not ready." true st)
  else
    let pending : Pending := ⟨index, stepToUse, spell.ref, c.getTime, none⟩
    let armed := { st with pendingCast := some { pending with successAt := some (c.getTime + SUCCESS_DELAY) } }
    let dropped := { st with pendingCast := none }
    if isPetAttack spell then
      if noActivePet c then (none, setStatus s!"Slot {index}: no active pet." true dropped)
      else if noAttackableTarget c then (none, setStatus s!"Slot {index}: no attackable target." true dropped)
      else (some .petAttack, armed)
    else if isBotAttack spell then
      if noAttackableTarget c then (none, dropped) else (some .botAttack, armed)
    else
      let issued := some (Issued.castSpellByName (castName spell))
      match c.castSpellByName (castName spell) with
      | some .no_target =>
        (issued, setStatus s!"Slot {index}: no valid target selected for the ground spell." true dropped)
      | some .unresolved => (issued, setStatus s!"Slot {index}: ground spell could not be resolved." true dropped)
      | _ => (issued, { st with pendingCast := some pending })

/-- `TriggerSlot` once the chain is complete and no cast is waiting. -/
def startStep (c : Client) (index : Nat) (slot : Slot) (st : State) : Option Issued × State :=
  let (stepToUse, slot) := getEffectiveStep c slot
  let slot := { slot with current := stepToUse }
  match (get slot.spells.steps stepToUse).map (resolveSpell c) with
  | some (some book, spell) =>
    let slot := { slot with spells := { slot.spells with steps := put slot.spells.steps stepToUse spell } }
    castStep c index stepToUse spell book (setSlot index slot st)
  | some (none, spell) =>
    let slot := { slot with spells := { slot.spells with steps := put slot.spells.steps stepToUse spell }, invalid := true }
    (none, setStatus s!"Slot {index}: current spell is invalid." true (updateSlotButton c index (setSlot index slot st)))
  | none =>
    (none, setStatus s!"Slot {index}: current spell is invalid." true
      (updateSlotButton c index (setSlot index { slot with invalid := true } st)))

/-- `DinoMacroManager_TriggerSlot`. -/
def triggerSlot (c : Client) (index : Nat) (st : State) : Option Issued × State :=
  if index < 1 ∨ SLOT_COUNT < index then (none, st)
  else
    match st.slots index with
    | none => (none, st)
    | some slot =>
      let slot := (applyTimeReset c.getTime slot).2
      let st := setSlot index slot st
      let count := getn slot.spells.steps
      if count < MIN_SPELLS ∨ MAX_SPELLS < count then
        (none, openEditor index (setStatus s!"Slot {index} is empty or incomplete." true st))
      else if st.pendingCast.isSome then
        (none, setStatus "A chain step is still waiting for confirmation." true st)
      else startStep c index slot st

/-! ## Time and events -/

/-- One turn of `OnUpdate`'s poll: whether any slot was reset, and the state. -/
def pollSlot (c : Client) (acc : Bool × State) (i : Nat) : Bool × State :=
  match acc.2.slots i with
  | none => acc
  | some slot =>
    let r := applyTimeReset c.getTime slot
    if r.1 then (true, updateSlotButton c i (setSlot i r.2 acc.2)) else acc

def pollSlots (c : Client) (st : State) : State :=
  let r := slotNumbers.foldl (pollSlot c) (false, { st with updateElapsed := 0 })
  updateBlizzardCooldowns c (if r.1 then setStatus "Inactive chain reset to step 1." false r.2 else r.2)

/-- The pending cast's turn in `OnUpdate`: the slot advanced, if any. -/
def checkPending (c : Client) (st : State) : Option Nat × State :=
  match st.pendingCast with
  | none => (none, st)
  | some pending =>
    if pending.successAt.any (· ≤ c.getTime) then confirmPendingCast c st
    else if PENDING_TIMEOUT < c.getTime - pending.startedAt then
      (none, setStatus "Cast confirmation timed out; step unchanged." true { st with pendingCast := none })
    else (none, st)

/-- `DMM.OnUpdate`. -/
def onUpdate (c : Client) (elapsed : ℚ) (st : State) : Option Nat × State :=
  let r := checkPending c { st with updateElapsed := st.updateElapsed + elapsed }
  (r.1, if r.2.updateElapsed < 8 / 100 then r.2 else pollSlots c r.2)

inductive Event where
  /-- With the AddOn's own name, or another one's. -/
  | ADDON_LOADED (own : Bool)
  | VARIABLES_LOADED
  | PLAYER_LOGIN
  | PLAYER_ENTERING_WORLD
  | PLAYER_LOGOUT
  | SPELLS_CHANGED
  | SPELL_UPDATE_COOLDOWN
  | ACTIONBAR_SLOT_CHANGED
  | ACTIONBAR_PAGE_CHANGED
  | ACTIONBAR_UPDATE_COOLDOWN
  | UPDATE_MACROS
  | UPDATE_BONUS_ACTIONBAR
  | PLAYER_TARGET_CHANGED
  | SPELLCAST_STOP
  | SPELLCAST_CHANNEL_STOP
  | SPELLCAST_FAILED
  | SPELLCAST_INTERRUPTED
  | UI_ERROR_MESSAGE
  deriving DecidableEq, Repr

/-- `CreateEditor` and `CreateMainFrame`, unless the frames are there. -/
def createFrames (c : Client) (st : State) : State :=
  if st.frames then st else updateAllSlots c { st with frames := true }

/-- The loop body of PLAYER_TARGET_CHANGED: whether anything changed, and the state.
    `InitializeDB` has made every slot; the source does not look for a missing one. -/
def targetChanged (c : Client) (acc : Bool × State) (i : Nat) : Bool × State :=
  match acc.2.slots i with
  | none => acc
  | some slot =>
    if slot.resetOnTargetChange then
      let (changed, st) :=
        if slot.current ≠ 1 ∨ slot.lastUsed.isSome then
          (true, updateSlotButton c i (setSlot i { slot with current := 1, lastUsed := none } acc.2))
        else acc
      if st.pendingCast.any (·.slotIndex = i) then (true, { st with pendingCast := none }) else (changed, st)
    else acc

def spellStopped (c : Client) (st : State) : State :=
  { st with pendingCast := st.pendingCast.map fun p => { p with successAt := some (c.getTime + SUCCESS_DELAY) } }

def spellFailed (st : State) : State :=
  if st.pendingCast.isSome then setStatus "Spell failed; step unchanged." true { st with pendingCast := none } else st

/-- `DMM.OnEvent`. -/
def onEvent (c : Client) (e : Event) (st : State) : State :=
  match e with
  | .ADDON_LOADED own => if own then createFrames c (initializeDB st) else st
  | .VARIABLES_LOADED | .PLAYER_LOGIN | .PLAYER_ENTERING_WORLD =>
    updateAllSlots c (createFrames c (initializeDB st))
  | .PLAYER_LOGOUT => st
  | .SPELLS_CHANGED | .SPELL_UPDATE_COOLDOWN => updateAllSlots c st
  | .ACTIONBAR_SLOT_CHANGED | .ACTIONBAR_PAGE_CHANGED | .ACTIONBAR_UPDATE_COOLDOWN | .UPDATE_MACROS
  | .UPDATE_BONUS_ACTIONBAR => updateBlizzardCooldowns c st
  | .PLAYER_TARGET_CHANGED =>
    let r := slotNumbers.foldl (targetChanged c) (false, st)
    if r.1 then setStatus "Target changed: marked chains reset to step 1." false (updateBlizzardCooldowns c r.2) else r.2
  | .SPELLCAST_STOP | .SPELLCAST_CHANNEL_STOP => spellStopped c st
  | .SPELLCAST_FAILED | .SPELLCAST_INTERRUPTED | .UI_ERROR_MESSAGE => spellFailed st

/-- `DinoMacroManager_Toggle`. -/
def toggle (c : Client) (st : State) : State :=
  if st.frames then
    if st.mainShown then { st with mainShown := false, editorShown := false }
    else { updateAllSlots c st with mainShown := true }
  else st

/-! ## Runs -/

inductive Op where
  | initializeDB
  | openEditor (index : Nat)
  | insertPetAttack (index : Nat)
  | insertBotAttack (index : Nat)
  | removeEditorSpell (index : Nat)
  | receiveSpell (index : Nat)
  | pickupSpell (spellIndex : Nat) (bookType : Option BookType)
  /-- The user types into the editor's fields. -/
  | typeTexts (nameEdit resetEdit : String) (targetResetCheck : Bool)
  | saveEditor
  | clearEditorSlot
  | triggerSlot (index : Nat)
  | onUpdate (elapsed : ℚ)
  | onEvent (e : Event)
  /-- The HUD asks for a slot's spell, cooldown or usability. -/
  | getSlotCurrentSpell (slotIndex : Nat)
  | toggle

/-- What an entry point does besides changing the state. -/
inductive Out where
  | quiet
  | issued (index : Nat) (what : Issued)
  | advanced (index : Nat)
  deriving DecidableEq

def stepOut (c : Client) (op : Op) (st : State) : Out × State :=
  match op with
  | .initializeDB => (.quiet, initializeDB st)
  | .openEditor index => (.quiet, openEditor index st)
  | .insertPetAttack index => (.quiet, insertPetAttack index st)
  | .insertBotAttack index => (.quiet, insertBotAttack index st)
  | .removeEditorSpell index => (.quiet, removeEditorSpell index st)
  | .receiveSpell index => (.quiet, receiveSpell c index st)
  | .pickupSpell spellIndex bookType => (.quiet, pickupSpell spellIndex bookType st)
  | .typeTexts nameEdit resetEdit targetResetCheck =>
    (.quiet, { st with nameEdit := nameEdit, resetEdit := resetEdit, targetResetCheck := targetResetCheck })
  | .saveEditor => (.quiet, saveEditor c st)
  | .clearEditorSlot => (.quiet, clearEditorSlot c st)
  | .triggerSlot index =>
    let r := triggerSlot c index st
    (match r.1 with | some what => .issued index what | none => .quiet, r.2)
  | .onUpdate elapsed =>
    let r := onUpdate c elapsed st
    (match r.1 with | some i => .advanced i | none => .quiet, r.2)
  | .onEvent e => (.quiet, onEvent c e st)
  | .getSlotCurrentSpell slotIndex => (.quiet, getSlotCurrentSpell c st slotIndex)
  | .toggle => (.quiet, toggle c st)

/-- Before the first `InitializeDB`, with no saved database. -/
def noDB : State :=
  { slots := fun _ => none, resetSeconds := none, frames := false, mainShown := false, buttons := fun _ => none,
    status := none, pendingCast := none, updateElapsed := 0, editorShown := false, editorSlot := none,
    editorSpells := fun _ => none, nameEdit := "", resetEdit := "", targetResetCheck := false, editorStatus := none,
    pickedSpellIndex := none, pickedSpellBookType := none, nextRef := 0 }

/-- An entry point at an instant of the client. -/
abbrev Step := Client × Op

def step (st : State) (e : Step) : State := (stepOut e.1 e.2 st).2

end Nostalgia.MacroManager
