/-
  Nostalgia.MacroManager.Editor — the chain editor as a transaction
  (DinoMacroManager.lua).

  `EditorOp` is what a user does at the editor: open a slot, fill, drop into, clear or
  drag a field, type, save, drag the chain's macro to a bar. `Settings` is what the
  editor edits of a slot: its name, its chain and its two reset settings, without
  `ResolveSpell`'s caches. `saveReport` is what `SaveEditor` says.

  The macro list of the client is a parameter (`MacroClient`): `PickupSlotMacro` looks
  for the slot's macro in it, or creates one, and puts it on the cursor.

  Proved:
  - `updateAllSlots_settings`: showing the slots changes no settings.
  - `saveEditor_ok`, `saveEditor_error`: what a save stores, and that a refused one
    leaves slots and fields alone.
  - `removeEditorSpell_fields`: the field is taken out of the list of the fields.
  - `separate_step`: the editor's entries are never tables of a stored chain.
  - `editor_transaction`: all of it along every run.
-/

import Nostalgia.MacroManager.Confirmation

namespace Nostalgia.MacroManager

open Nostalgia.Lua Nostalgia.Machine

/-! ## Unsaved changes -/

/-- The comparison of one field in `DMM.EditorHasUnsavedChanges`. -/
def fieldDiffers : Option Spell → Option Spell → Bool
  | some eSpell, some sSpell =>
    eSpell.name != sSpell.name || eSpell.rank != sSpell.rank || eSpell.command != sSpell.command
  | _, _ => true

/-- What the three widgets of the editor say; without the frames the code's defaults. -/
def currentName (st : State) : String := if st.frames then st.nameEdit else ""
def currentReset (st : State) : ℚ := if st.frames then (tonumber st.resetEdit).getD DEFAULT_RESET else DEFAULT_RESET
def currentTargetReset (st : State) : Bool := st.frames && st.targetResetCheck

/-- `DMM.EditorHasUnsavedChanges`. -/
def editorHasUnsavedChanges (st : State) : Bool :=
  match st.editorSlot with
  | none => false
  | some index =>
    match st.slots index with
    | none => true
    | some slot =>
      if currentName st ≠ slot.name then true
      else if currentReset st ≠ slot.resetSeconds then true
      else if currentTargetReset st ≠ slot.resetOnTargetChange then true
      else
        let editorCount := (editorSteps st).length
        let savedCount := getn slot.spells.steps
        if editorCount ≠ savedCount then true
        else if (List.range' 1 editorCount).any fun i => fieldDiffers (st.editorSpells i) (get slot.spells.steps i) then true
        else decide (savedCount < MIN_SPELLS)

/-! ## The macros of the client -/

structure Macro where
  name : String
  icon : String
  body : String
  deriving DecidableEq

/-- The macro functions of the client at one instant. -/
structure MacroClient where
  /-- `none`: no `GetMacroInfo`. -/
  getMacroInfo : Option (Nat → Option Macro)
  /-- The textures of `GetMacroIconInfo`; `none`: the client has no icon list. -/
  macroIcons : Option (List (Option String))
  /-- The index `CreateMacro` answers and what `GetMacroInfo` answers from then on. -/
  createMacro : Option (String → Nat → String → Option Nat × Option (Nat → Option Macro))
  hasPickupMacro : Bool

def triggerBody (index : Nat) : String := s!"/script DinoMacroManager_TriggerSlot({index})"
def executeBody (index : Nat) : String := s!"/script DinoMacroManager_ExecuteSlot({index})"

/-- `DMM.FindSlotMacro`, its first result. -/
def findSlotMacro (getMacroInfo : Option (Nat → Option Macro)) (index : Nat) : Option Nat :=
  getMacroInfo.bind fun info =>
    (List.range' 1 36).find? fun macroIndex =>
      (info macroIndex).any fun m => m.body == triggerBody index || m.body == executeBody index

/-- `DMM.FindMacroIconIndex`: the wanted icon, else the first question mark, else 1. -/
def findMacroIconIndex (macroIcons : Option (List (Option String))) (texture : String) : Nat :=
  match macroIcons with
  | none => 1
  | some icons =>
    match icons.findIdx? (·.any (·.toLower == texture.toLower)) with
    | some i => i + 1
    | none =>
      match icons.findIdx? (·.any fun t => decide ("inv_misc_questionmark".toList <:+: t.toLower.toList)) with
      | some i => i + 1
      | none => 1

/-- The macro `DMM.PickupSlotMacro` picks up for a slot, found or created. -/
def slotMacro (m : MacroClient) (index : Nat) (icon : String) : Option Nat :=
  match findSlotMacro m.getMacroInfo index, m.createMacro with
  | some macroIndex, _ => some macroIndex
  | none, none => none
  | none, some createMacro =>
    let created := createMacro s!"DMM Slot {index}" (findMacroIconIndex m.macroIcons icon) (executeBody index)
    (findSlotMacro created.2 index).or created.1

/-- `DMM.PickupSlotMacro`: the macro it puts on the cursor, and the state. -/
def pickupSlotMacro (m : MacroClient) (st : State) : Option Nat × State :=
  match st.editorSlot with
  | none => (none, st)
  | some index =>
    if editorHasUnsavedChanges st then (none, setEditorStatus "Save the chain first!" true st)
    else
      let count := ((st.slots index).map fun slot => getn slot.spells.steps).getD 0
      if count < MIN_SPELLS then (none, setEditorStatus s!"A chain requires at least {MIN_SPELLS} spells." true st)
      else if m.createMacro.isNone || !m.hasPickupMacro then
        (none, setEditorStatus "This client does not provide the macro APIs." true st)
      else
        let spell := (st.slots index).bind fun slot => get slot.spells.steps slot.current
        let icon := (spell.bind Spell.icon).getD QUESTION_ICON
        match (slotMacro m index icon).filter (· ≠ 0) with
        | none => (none, setEditorStatus "No free character-specific macro slot." true st)
        | some macroIndex =>
          (some macroIndex,
            setEditorStatus s!"DMM Slot {index} is on the cursor: drag it onto an action bar." false st)

/-! ## What a user does at the editor -/

inductive EditorOp where
  | openEditor (index : Nat)
  | insertPetAttack (index : Nat)
  | insertBotAttack (index : Nat)
  | receiveSpell (index : Nat)
  | removeEditorSpell (index : Nat)
  | pickupSlotMacro (m : MacroClient)
  | saveEditor
  /-- The hook of `PickupSpell`: a spell taken from the book. -/
  | pickupSpell (spellIndex : Nat) (bookType : Option BookType)
  | typeTexts (nameEdit resetEdit : String) (targetResetCheck : Bool)

def editorStep (st : State) (e : Client × EditorOp) : State :=
  match e.2 with
  | .openEditor index => openEditor index st
  | .insertPetAttack index => insertPetAttack index st
  | .insertBotAttack index => insertBotAttack index st
  | .receiveSpell index => receiveSpell e.1 index st
  | .removeEditorSpell index => removeEditorSpell index st
  | .pickupSlotMacro m => (pickupSlotMacro m st).2
  | .saveEditor => saveEditor e.1 st
  | .pickupSpell spellIndex bookType => pickupSpell spellIndex bookType st
  | .typeTexts nameEdit resetEdit targetResetCheck =>
    { st with nameEdit := nameEdit, resetEdit := resetEdit, targetResetCheck := targetResetCheck }

/-- What `DMM.SaveEditor` says: an error, or the slot it saved. It says nothing without an
    editor slot, and ends in a Lua error where the slot is missing. -/
def saveReport (c : Client) (st : State) : Option (Except String Nat) :=
  match st.editorSlot with
  | none => none
  | some index =>
    match checkEditor c st with
    | .error complaint => some (.error complaint)
    | .ok _ => (st.slots index).map fun _ => .ok index

/-! ## Settings -/

/-- An entry without `ResolveSpell`'s caches. -/
structure Content where
  command : Option Command
  name : String
  rank : String
  deriving DecidableEq

def content (spell : Spell) : Content := ⟨spell.command, spell.name, spell.rank⟩

/-- What the editor edits of a slot. -/
structure Settings where
  name : String
  chain : Arr Content
  resetSeconds : ℚ
  resetOnTargetChange : Bool
  deriving DecidableEq

def settingsOf (slot : Slot) : Settings :=
  ⟨slot.name, mapEntries content slot.spells.steps, slot.resetSeconds, slot.resetOnTargetChange⟩

def settings (st : State) (i : Nat) : Option Settings := (st.slots i).map settingsOf

theorem settings_of_slot {st : State} {i : Nat} {slot : Slot} (h : st.slots i = some slot) :
    settings st i = some (settingsOf slot) := by simp [settings, h]

theorem settings_congr {a b : State} (h : b.slots = a.slots) (i : Nat) : settings b i = settings a i := by
  simp [settings, h]

@[simp] theorem settings_setSlot_same (index : Nat) (slot : Slot) (st : State) :
    settings (setSlot index slot st) index = some (settingsOf slot) := by simp [settings, setSlot]

theorem settings_setSlot_ne {index i : Nat} (slot : Slot) (st : State) (h : i ≠ index) :
    settings (setSlot index slot st) i = settings st i := by simp [settings, setSlot, h]

theorem content_of_copy {a b : Spell} (h : IsCopyOf a b) : content a = content b := by
  obtain ⟨_, hcommand, hname, hrank⟩ := h
  simp only [content, hcommand, hname, hrank]

/-- The inactivity reset moves the position only. -/
theorem applyTimeReset_settings (now : ℚ) (slot : Slot) : settingsOf (applyTimeReset now slot).2 = settingsOf slot := by
  unfold applyTimeReset
  split
  · rfl
  · split
    · rfl
    · split
      · rfl
      · split <;> rfl

/-- `GetEffectiveStep` changes steps only, and those in their caches. -/
theorem getEffectiveStep_settings (c : Client) (slot : Slot) :
    settingsOf (getEffectiveStep c slot).2 = settingsOf slot := by
  have hsteps := getEffectiveStep_entries content
    (fun spell => content_of_copy (unavailable_copy c spell)) (c := c) slot
  obtain ⟨steps, he, _⟩ := getEffectiveStep_slot c slot
  rw [he] at hsteps ⊢
  simp only [settingsOf, hsteps]

theorem polled_settings (c : Client) (slot : Slot) :
    settingsOf (getEffectiveStep c (applyTimeReset c.getTime slot).2).2 = settingsOf slot := by
  rw [getEffectiveStep_settings, applyTimeReset_settings]

theorem settingsOf_put {slot : Slot} {i : Nat} {a b : Spell} (h : get slot.spells.steps i = some a)
    (hc : IsCopyOf b a) :
    settingsOf { slot with spells := { slot.spells with steps := put slot.spells.steps i b } } = settingsOf slot := by
  simp only [settingsOf, mapEntries_put content h (content_of_copy hc)]

/-! ## Showing the slots -/

/-- From `a` to `b` slots were looked up and buttons written, no settings. -/
structure Shows (a b : State) : Prop where
  rest : { a with slots := b.slots, buttons := b.buttons } = b
  settings : ∀ i, settings b i = settings a i

namespace Shows

variable {a b d : State}

theorem refl (a : State) : Shows a a := ⟨rfl, fun _ => rfl⟩

theorem trans (h : Shows a b) (h' : Shows b d) : Shows a d := by
  refine ⟨?_, fun i => (h'.settings i).trans (h.settings i)⟩
  have hr := h'.rest
  rw [← h.rest] at hr
  exact hr

theorem foldl {α : Type} {f : State → α → State} (hf : ∀ st x, Shows st (f st x)) :
    ∀ (l : List α) (st : State), Shows st (l.foldl f st) := by
  intro l
  induction l with
  | nil => intro st; exact refl st
  | cons x l ih => intro st; exact (hf st x).trans (ih (f st x))

end Shows

/-- Writing back a slot with the settings it had. -/
theorem shows_setSlot {st : State} {index : Nat} {slot slot' : Slot} (h : st.slots index = some slot)
    (hs : settingsOf slot' = settingsOf slot) (buttons : Nat → Option Button) :
    Shows st { setSlot index slot' st with buttons := buttons } := by
  refine ⟨rfl, fun i => ?_⟩
  show settings (setSlot index slot' st) i = settings st i
  by_cases hi : i = index
  · subst hi
    rw [settings_setSlot_same, settings_of_slot h, hs]
  · exact settings_setSlot_ne _ _ hi

theorem shows_getSlotCurrentSpell (c : Client) (st : State) (index : Nat) :
    Shows st (getSlotCurrentSpell c st index) := by
  unfold getSlotCurrentSpell
  split
  · exact Shows.refl st
  · rename_i slot h
    dsimp only
    split
    · exact shows_setSlot h (polled_settings c slot) _
    · rename_i spell hget
      exact shows_setSlot h ((settingsOf_put hget (resolveSpell_copy c spell)).trans (polled_settings c slot)) _

theorem shows_updateSlotButton (c : Client) (st : State) (index : Nat) : Shows st (updateSlotButton c index st) := by
  unfold updateSlotButton
  split
  · split
    · exact Shows.refl st
    · rename_i slot h
      dsimp only
      split
      · refine shows_setSlot h ?_ _
        exact polled_settings c slot
      · rename_i spell hget
        refine shows_setSlot h ?_ _
        exact (settingsOf_put hget (resolveSpell_copy c spell)).trans (polled_settings c slot)
  · exact Shows.refl st

theorem shows_updateAllSlots (c : Client) (st : State) : Shows st (updateAllSlots c st) := by
  have hbuttons := Shows.foldl (fun st i => shows_updateSlotButton c st i) slotNumbers st
  refine hbuttons.trans (Shows.foldl (fun st slotIndex => ?_) (barSlots c) _)
  have h1 := shows_getSlotCurrentSpell c st slotIndex
  have h2 := h1.trans (shows_getSlotCurrentSpell c _ slotIndex)
  have h3 := h2.trans (shows_getSlotCurrentSpell c _ slotIndex)
  exact h3.trans (shows_getSlotCurrentSpell c _ slotIndex)

/-- Showing the slots changes no settings. -/
theorem updateAllSlots_settings (c : Client) (st : State) (i : Nat) :
    settings (updateAllSlots c st) i = settings st i :=
  (shows_updateAllSlots c st).settings i

/-! ## The editor's fields -/

/-- What the editor holds: the slot it is open on, its entries and its three widgets. -/
structure EditorView where
  slot : Option Nat
  spells : Nat → Option Spell
  nameEdit : String
  resetEdit : String
  targetResetCheck : Bool

def editorView (st : State) : EditorView :=
  ⟨st.editorSlot, st.editorSpells, st.nameEdit, st.resetEdit, st.targetResetCheck⟩

/-- Fields 1 to 4 as the entries say them. -/
def fields (st : State) : List (Option Content) :=
  (List.range' 1 MAX_SPELLS).map fun i => (st.editorSpells i).map content

@[simp] theorem setEditorStatus_slots (text : String) (isError : Bool) (st : State) :
    (setEditorStatus text isError st).slots = st.slots := by unfold setEditorStatus; split <;> rfl
@[simp] theorem setEditorStatus_view (text : String) (isError : Bool) (st : State) :
    editorView (setEditorStatus text isError st) = editorView st := by unfold setEditorStatus; split <;> rfl
@[simp] theorem setEditorStatus_editorSpells (text : String) (isError : Bool) (st : State) :
    (setEditorStatus text isError st).editorSpells = st.editorSpells := by unfold setEditorStatus; split <;> rfl
@[simp] theorem setEditorStatus_nextRef (text : String) (isError : Bool) (st : State) :
    (setEditorStatus text isError st).nextRef = st.nextRef := by unfold setEditorStatus; split <;> rfl
@[simp] theorem setStatus_slots (text : String) (isError : Bool) (st : State) :
    (setStatus text isError st).slots = st.slots := by unfold setStatus; split <;> rfl
@[simp] theorem setStatus_editorSpells (text : String) (isError : Bool) (st : State) :
    (setStatus text isError st).editorSpells = st.editorSpells := by unfold setStatus; split <;> rfl
@[simp] theorem setStatus_nextRef (text : String) (isError : Bool) (st : State) :
    (setStatus text isError st).nextRef = st.nextRef := by unfold setStatus; split <;> rfl

/-- Dragging the macro writes a line of text at most. -/
theorem pickupSlotMacro_state (m : MacroClient) (st : State) :
    (pickupSlotMacro m st).2 = st ∨ ∃ text isError, (pickupSlotMacro m st).2 = setEditorStatus text isError st := by
  unfold pickupSlotMacro
  split
  · exact Or.inl rfl
  · split
    · exact Or.inr ⟨_, _, rfl⟩
    · dsimp only
      split
      · exact Or.inr ⟨_, _, rfl⟩
      · split
        · exact Or.inr ⟨_, _, rfl⟩
        · split <;> exact Or.inr ⟨_, _, rfl⟩

/-- Everything but a save leaves the slots as they are. -/
theorem editorStep_slots (st : State) (c : Client) (op : EditorOp) (h : op ≠ .saveEditor) :
    (editorStep st (c, op)).slots = st.slots := by
  cases op with
  | openEditor index =>
    simp only [editorStep, openEditor]
    split
    · split
      · rfl
      · simp
    · rfl
  | insertPetAttack index | insertBotAttack index =>
    simp only [editorStep, insertPetAttack, insertBotAttack, insertCommand]
    split <;> simp [setEditorSpell]
  | receiveSpell index =>
    simp only [editorStep, receiveSpell]
    split <;> simp [setEditorSpell]
  | removeEditorSpell index =>
    simp only [editorStep, removeEditorSpell]
    split <;> simp
  | pickupSlotMacro m =>
    simp only [editorStep]
    rcases pickupSlotMacro_state m st with hp | ⟨text, isError, hp⟩ <;> simp [hp]
  | saveEditor => exact absurd rfl h
  | pickupSpell spellIndex bookType => rfl
  | typeTexts nameEdit resetEdit targetResetCheck => rfl

/-! ## Saving -/

/-- The non-empty fields, in order, as the list of the fields shows them. -/
theorem fields_filter (st : State) :
    (fields st).filter Option.isSome = (editorSteps st).map fun spell => some (content spell) := by
  unfold fields editorSteps
  induction List.range' 1 MAX_SPELLS with
  | nil => rfl
  | cons i rest ih =>
    rw [List.map_cons, List.filterMap_cons]
    cases st.editorSpells i with
    | none => exact ih
    | some spell => rw [Option.map_some, List.filter_cons_of_pos rfl, ih]; rfl

/-- The copies `SaveEditor` makes have what the entries have, the identity apart. -/
theorem compactSteps_entries {β : Type*} (f : Spell → β) (hf : ∀ ref spell, f (copySpell ref spell) = f spell) :
    ∀ (l : List Spell) (ref : Nat) (compact : Arr Spell), Full compact →
      mapEntries f (compactSteps ref l compact) = mapEntries f compact ++ l.map fun spell => some (f spell) := by
  intro l
  induction l with
  | nil => intro ref compact _; simp [compactSteps]
  | cons spell rest ih =>
    intro ref compact hfull
    simp only [compactSteps, tinsert_full hfull]
    rw [ih _ _ (full_append hfull _)]
    simp [mapEntries, hf]

theorem resolveAll_contents {c : Client} {l : List Nat} {compact steps : Arr Spell}
    (h : resolveAll c l compact = .ok steps) : mapEntries content steps = mapEntries content compact :=
  resolveAll_entries content (fun spell => content_of_copy (resolveSpell_copy c spell)) l compact steps h

/-- What `SaveEditor` accepts: 2 to 4 non-empty fields and a reset time in range. -/
theorem checkEditor_ok {c : Client} {st : State} {steps : Arr Spell} {resetSeconds : ℚ}
    (h : checkEditor c st = .ok (steps, resetSeconds)) :
    mapEntries content steps = (fields st).filter Option.isSome ∧
      (MIN_SPELLS ≤ (editorSteps st).length ∧ (editorSteps st).length ≤ MAX_SPELLS) ∧
      tonumber st.resetEdit = some resetSeconds ∧ validReset resetSeconds = true := by
  have hcontents := compactSteps_entries content (fun _ _ => rfl) (editorSteps st) (st.nextRef + 1) [] (by simp [Full])
  have hcount : getn (compactSteps (st.nextRef + 1) (editorSteps st) []) = (editorSteps st).length := by
    obtain ⟨hfull, hlength, _⟩ := compactSteps_spec (st.nextRef + 1) (editorSteps st) (st.nextRef + 1) []
      (by simp [Full]) (Nat.le_refl _) (by simp)
    rw [getn_eq_length hfull, hlength, List.length_nil, Nat.zero_add]
  simp only [checkEditor, hcount] at h
  split at h
  · cases h
  · rename_i hrange
    split at h
    · cases h
    · rename_i resolved hres
      split at h
      · cases h
      · rename_i r hr
        simp only [Except.ok.injEq, Prod.mk.injEq] at h
        obtain ⟨rfl, rfl⟩ := h
        obtain ⟨htext, hvalid⟩ := Option.filter_eq_some_iff.mp hr
        refine ⟨?_, by omega, htext, hvalid⟩
        rw [resolveAll_contents hres, hcontents, fields_filter]
        rfl

/-- What a save leaves in the slot. -/
structure Saved (a b : State) (i : Nat) : Prop where
  settings : ∃ resetSeconds, tonumber a.resetEdit = some resetSeconds ∧ validReset resetSeconds = true ∧
    settings b i = some ⟨a.nameEdit, (fields a).filter Option.isSome, resetSeconds, a.targetResetCheck⟩
  steps : MIN_SPELLS ≤ ((fields a).filter Option.isSome).length ∧
    ((fields a).filter Option.isSome).length ≤ MAX_SPELLS
  position : ∃ slot, b.slots i = some slot ∧ slot.current = 1 ∧ slot.lastUsed = none
  others : ∀ j, j ≠ i → MacroManager.settings b j = MacroManager.settings a j
  told : a.frames = true → b.status = some (s!"Slot {i} saved.", false) ∧ b.editorShown = false

/-- A save that reports an error writes the error and nothing else; one that says nothing
    does nothing; one that reports success has stored what it checked. -/
theorem saveEditor_report (c : Client) (st : State) :
    match saveReport c st with
    | none => saveEditor c st = st
    | some (.error complaint) => saveEditor c st = setEditorStatus complaint true st
    | some (.ok index) => ∃ steps resetSeconds slot, checkEditor c st = .ok (steps, resetSeconds) ∧
        st.slots index = some slot ∧
        saveEditor c st = { setStatus s!"Slot {index} saved." false
          (updateAllSlots c { setSlot index (savedSlot st steps resetSeconds slot) st with
            nextRef := st.nextRef + 1 + MAX_SPELLS }) with editorShown := false } := by
  unfold saveReport saveEditor
  cases st.editorSlot with
  | none => rfl
  | some index =>
    dsimp only
    cases hcheck : checkEditor c st with
    | error complaint => rfl
    | ok r =>
      dsimp only
      cases hs : st.slots index with
      | none => rfl
      | some slot => exact ⟨r.1, r.2, slot, rfl, hs, rfl⟩

theorem saveEditor_error {c : Client} {st : State} {complaint : String}
    (h : saveReport c st = some (.error complaint)) : saveEditor c st = setEditorStatus complaint true st := by
  have hr := saveEditor_report c st
  rw [h] at hr
  exact hr

theorem saveEditor_silent {c : Client} {st : State} (h : saveReport c st = none) : saveEditor c st = st := by
  have hr := saveEditor_report c st
  rw [h] at hr
  exact hr

/-- The position a save sets survives the display refresh behind it. -/
theorem saved_position {c : Client} {st : State} {i : Nat} {slot : Slot} (h : st.slots i = some slot)
    (h1 : slot.current = 1) (hl : slot.lastUsed = none) :
    ∃ slot', (updateAllSlots c st).slots i = some slot' ∧ slot'.current = 1 ∧ slot'.lastUsed = none := by
  have hcore : core (updateAllSlots c st) i = some (coreOf slot) := by
    rcases (refresh_updateAllSlots c st).core_cases i with hk | ⟨_, hk⟩
    · rw [hk, core_of_slot h]
    · rw [hk, core_of_slot h, Option.map_some, Core.timeReset_not_due (Core.not_due_of_one h1)]
  obtain ⟨slot', hs', hk'⟩ := Option.map_eq_some_iff.mp hcore
  refine ⟨slot', hs', ?_, ?_⟩
  · have hc := congrArg Core.current hk'
    exact hc.trans h1
  · have hc := congrArg Core.lastUsed hk'
    exact hc.trans hl

theorem saveEditor_ok {c : Client} {st : State} {i : Nat} (h : saveReport c st = some (.ok i)) :
    Saved st (saveEditor c st) i := by
  have hr := saveEditor_report c st
  rw [h] at hr
  obtain ⟨steps, resetSeconds, slot, hcheck, hslot, he⟩ := hr
  obtain ⟨hcontents, hcount, htext, hvalid⟩ := checkEditor_ok hcheck
  -- the slot written, before the buttons are shown
  generalize hst : { setSlot i (savedSlot st steps resetSeconds slot) st with
    nextRef := st.nextRef + 1 + MAX_SPELLS } = written at he
  have hwritten : written.slots i = some (savedSlot st steps resetSeconds slot) := by
    rw [← hst]
    simp [setSlot]
  have hsettings : ∀ j, settings (saveEditor c st) j = settings written j := by
    intro j
    rw [he, ← updateAllSlots_settings c written j]
    exact settings_congr (setStatus_slots _ _ _) j
  refine ⟨⟨resetSeconds, htext, hvalid, ?_⟩, ?_, ?_, ?_, ?_⟩
  · rw [hsettings, settings_of_slot hwritten]
    simp only [settingsOf, savedSlot, hcontents]
  · rw [fields_filter, List.length_map]
    exact hcount
  · rw [he]
    simp only [setStatus_slots]
    exact saved_position hwritten rfl rfl
  · intro j hj
    rw [hsettings, ← hst]
    exact settings_setSlot_ne _ _ hj
  · intro hf
    have hfw : (updateAllSlots c written).frames = true := by
      rw [← (shows_updateAllSlots c written).rest, ← hst]
      exact hf
    rw [he]
    simp only [setStatus, hfw, if_true, and_self]

/-! ## Removing -/

/-- Removing takes the field out of the list of the fields; the last field is empty then. -/
theorem removeEditorSpell_fields {st : State} {index : Nat} (h1 : 1 ≤ index) (h4 : index ≤ MAX_SPELLS)
    (h : (st.editorSpells index).isSome = true) :
    fields (removeEditorSpell index st) = (fields st).eraseIdx (index - 1) ++ [none] := by
  have hne : ¬ (st.editorSpells index).isNone = true := by
    rw [Option.isNone_iff_eq_none]
    intro hnone
    rw [hnone] at h
    cases h
  unfold removeEditorSpell
  rw [if_neg hne]
  unfold MAX_SPELLS at h4
  interval_cases index <;> simp [fields, MAX_SPELLS, List.range']

theorem removeEditorSpell_empty {st : State} {index : Nat} (h : st.editorSpells index = none) :
    removeEditorSpell index st = st := by
  unfold removeEditorSpell
  rw [h]
  rfl

/-! ## The editor's entries are tables of their own -/

/-- `r` is a step of some stored chain. -/
def StoredRef (st : State) (r : Nat) : Prop := ∃ i k, core st i = some k ∧ some r ∈ k.refs

/-- No entry of the editor is a table of a stored chain, and no table is older than it says. -/
structure Separate (st : State) : Prop where
  stored : ∀ r, StoredRef st r → r < st.nextRef
  edited : ∀ j a, st.editorSpells j = some a → a.ref < st.nextRef
  apart : ∀ r j a, StoredRef st r → st.editorSpells j = some a → r ≠ a.ref

theorem storedRef_congr {a b : State} (h : b.slots = a.slots) (r : Nat) : StoredRef b r ↔ StoredRef a r := by
  simp only [StoredRef, core_congr h]

/-- A step that makes new tables on one side only. -/
theorem Separate.step {a b : State} (h : Separate a) (hn : a.nextRef ≤ b.nextRef)
    (hs : ∀ r, StoredRef b r → StoredRef a r ∨ (a.nextRef ≤ r ∧ r < b.nextRef))
    (he : ∀ j x, b.editorSpells j = some x →
      (∃ j', a.editorSpells j' = some x) ∨ (a.nextRef ≤ x.ref ∧ x.ref < b.nextRef))
    (hone : (∀ r, StoredRef b r → StoredRef a r) ∨ b.editorSpells = a.editorSpells) : Separate b := by
  refine ⟨fun r hr => ?_, fun j x hx => ?_, fun r j x hr hx => ?_⟩
  · rcases hs r hr with hr | hr
    · have := h.stored r hr
      omega
    · exact hr.2
  · rcases he j x hx with ⟨j', hx⟩ | hx
    · have := h.edited j' x hx
      omega
    · exact hx.2
  · rcases hone with hold | hsame
    · have hold := hold r hr
      rcases he j x hx with ⟨j', hx⟩ | hx
      · exact h.apart r j' x hold hx
      · have := h.stored r hold
        omega
    · rw [hsame] at hx
      rcases hs r hr with hr | hr
      · exact h.apart r j x hr hx
      · have := h.edited j x hx
        omega

/-- Stored steps after a save: those before it, or new ones. -/
theorem saveEditor_storedRef (c : Client) (st : State) (r : Nat) (h : StoredRef (saveEditor c st) r) :
    StoredRef st r ∨ (st.nextRef ≤ r ∧ r < (saveEditor c st).nextRef) := by
  obtain ⟨i, k, hk, hr⟩ := h
  -- a core kept or polled has the steps it had
  have hkept : core (saveEditor c st) i = core st i ∨
      core (saveEditor c st) i = (core st i).map (Core.timeReset c.getTime) → StoredRef st r := by
    rintro (hc | hc)
    · exact ⟨i, k, by rw [← hc, hk], hr⟩
    · rw [hk] at hc
      obtain ⟨k', hk', rfl⟩ := Option.map_eq_some_iff.mp hc.symm
      exact ⟨i, k', hk', by simpa using hr⟩
  rcases saveEditor_cases c st with ⟨_, hrefresh⟩ | ⟨index, _, hedited⟩
  · exact Or.inl (hkept ((hrefresh.core_cases i).imp_right And.right))
  · by_cases hi : i = index
    · subst hi
      obtain ⟨k', hk', hfresh⟩ := hedited.installed
      rw [hk] at hk'
      cases hk'
      exact Or.inr (hfresh.entries r hr)
    · refine Or.inl (hkept ?_)
      by_cases hshown : Shown c st i
      · exact Or.inr (hedited.polled i hi hshown)
      · exact Or.inl (hedited.kept i hi hshown)

/-- A save leaves the fields alone, whatever it reports. -/
theorem saveEditor_view (c : Client) (st : State) : editorView (saveEditor c st) = editorView st := by
  have hr := saveEditor_report c st
  cases hrep : saveReport c st with
  | none => rw [saveEditor_silent hrep]
  | some r =>
    cases r with
    | error complaint => rw [saveEditor_error hrep, setEditorStatus_view]
    | ok index =>
      rw [hrep] at hr
      obtain ⟨steps, resetSeconds, slot, _, _, he⟩ := hr
      rw [he, ← (shows_updateAllSlots c _).rest]
      unfold setStatus
      split <;> rfl

/-- A dropped spell becomes a new table. -/
theorem receivedEntry_ref {c : Client} {st : State} {entry : Spell} (h : receivedEntry c st = .ok entry) :
    entry.ref = st.nextRef := by
  unfold receivedEntry at h
  cases hcursor : cursorSpell c st with
  | error complaint => rw [hcursor] at h; cases h
  | ok r =>
    obtain ⟨bookIndex, bookType⟩ := r
    rw [hcursor] at h
    simp only [bind, Except.bind, throw, throwThe, MonadExceptOf.throw, pure, Except.pure] at h
    split at h
    · cases h
    · split at h
      · cases h
      · split at h
        · cases h
        · cases h
          rfl

/-- The entries after a step: those before it, or new ones. -/
theorem editorStep_entries (st : State) (c : Client) (op : EditorOp) :
    st.nextRef ≤ (editorStep st (c, op)).nextRef ∧
      ∀ j x, (editorStep st (c, op)).editorSpells j = some x →
        (∃ j', st.editorSpells j' = some x) ∨ (st.nextRef ≤ x.ref ∧ x.ref < (editorStep st (c, op)).nextRef) := by
  have hkeep : ∀ st' : State, st'.editorSpells = st.editorSpells → ∀ j x, st'.editorSpells j = some x →
      (∃ j', st.editorSpells j' = some x) ∨ (st.nextRef ≤ x.ref ∧ x.ref < st'.nextRef) :=
    fun st' hs j x hx => Or.inl ⟨j, by rw [← hs]; exact hx⟩
  -- one field written with a new table
  have hset : ∀ (index : Nat) (entry : Spell), entry.ref = st.nextRef → ∀ j x,
      Function.update st.editorSpells index (some entry) j = some x →
      (∃ j', st.editorSpells j' = some x) ∨ (st.nextRef ≤ x.ref ∧ x.ref < st.nextRef + 1) := by
    intro index entry hentry j x hx
    by_cases hj : j = index
    · subst hj
      rw [Function.update_self] at hx
      cases hx
      exact Or.inr (by omega)
    · rw [Function.update_of_ne hj] at hx
      exact Or.inl ⟨j, hx⟩
  cases op with
  | openEditor index =>
    simp only [editorStep, openEditor]
    split
    · split
      · exact ⟨Nat.le_refl _, fun j x hx => by cases hx⟩
      · rename_i slot _
        simp only [setEditorStatus_nextRef, setEditorStatus_editorSpells]
        refine ⟨Nat.le_add_right _ _, fun j x hx => Or.inr ?_⟩
        unfold copiedFields at hx
        split at hx
        · rename_i hj
          obtain ⟨a, _, rfl⟩ := Option.map_eq_some_iff.mp hx
          simp only [copySpell]
          omega
        · cases hx
    · exact ⟨Nat.le_refl _, hkeep st rfl⟩
  | insertPetAttack index | insertBotAttack index =>
    simp only [editorStep, insertPetAttack, insertBotAttack, insertCommand]
    split
    · exact ⟨by simp, hkeep _ (by simp)⟩
    · simp only [setEditorStatus_nextRef, setEditorStatus_editorSpells, setEditorSpell]
      exact ⟨Nat.le_succ _, hset index _ rfl⟩
  | receiveSpell index =>
    simp only [editorStep, receiveSpell]
    cases hentry : receivedEntry c st with
    | error complaint => exact ⟨by simp, hkeep _ (by simp)⟩
    | ok entry =>
      simp only [setEditorStatus_nextRef, setEditorStatus_editorSpells, setEditorSpell]
      exact ⟨Nat.le_succ _, hset index entry (receivedEntry_ref hentry)⟩
  | removeEditorSpell index =>
    simp only [editorStep, removeEditorSpell]
    split
    · exact ⟨Nat.le_refl _, hkeep st rfl⟩
    · simp only [setEditorStatus_nextRef, setEditorStatus_editorSpells]
      refine ⟨Nat.le_refl _, fun j x hx => Or.inl ?_⟩
      split at hx
      · cases hx
      · split at hx
        · exact ⟨j + 1, hx⟩
        · exact ⟨j, hx⟩
  | pickupSlotMacro m =>
    simp only [editorStep]
    rcases pickupSlotMacro_state m st with hp | ⟨text, isError, hp⟩
    · rw [hp]
      exact ⟨Nat.le_refl _, hkeep st rfl⟩
    · rw [hp]
      exact ⟨by simp, hkeep _ (by simp)⟩
  | saveEditor =>
    have hview := congrArg EditorView.spells (saveEditor_view c st)
    refine ⟨?_, hkeep _ hview⟩
    rcases saveEditor_cases c st with ⟨_, hrefresh⟩ | ⟨index, _, hedited⟩
    · exact hrefresh.nextRef
    · exact hedited.nextRef
  | pickupSpell spellIndex bookType => exact ⟨Nat.le_refl _, hkeep _ rfl⟩
  | typeTexts nameEdit resetEdit targetResetCheck => exact ⟨Nat.le_refl _, hkeep _ rfl⟩

theorem separate_step (st : State) (e : Client × EditorOp) (h : Separate st) : Separate (editorStep st e) := by
  obtain ⟨c, op⟩ := e
  obtain ⟨hn, he⟩ := editorStep_entries st c op
  by_cases hsave : op = .saveEditor
  · subst hsave
    refine h.step hn (saveEditor_storedRef c st) he (Or.inr ?_)
    exact congrArg EditorView.spells (saveEditor_view c st)
  · have hsame := fun r => (storedRef_congr (editorStep_slots st c op hsave) r).mp
    exact h.step hn (fun r hr => Or.inl (hsame r hr)) he (Or.inl hsame)

/-! ## The transaction -/

/-- What one step at the editor may do. -/
structure Transaction (c : Client) (op : EditorOp) (a b : State) : Prop where
  changes : ∀ i, settings b i ≠ settings a i → op = .saveEditor ∧ saveReport c a = some (.ok i)
  refused : op = .saveEditor → ∀ complaint, saveReport c a = some (.error complaint) →
    b.slots = a.slots ∧ editorView b = editorView a ∧ (a.frames = true → b.editorStatus = some (complaint, true))
  saved : op = .saveEditor → ∀ i, saveReport c a = some (.ok i) → a.editorSlot = some i ∧ Saved a b i
  removed : ∀ index, op = .removeEditorSpell index → 1 ≤ index → index ≤ MAX_SPELLS →
    ((a.editorSpells index).isSome = true → fields b = (fields a).eraseIdx (index - 1) ++ [none]) ∧
      (a.editorSpells index = none → b = a)

theorem saveReport_slot {c : Client} {st : State} {i : Nat} (h : saveReport c st = some (.ok i)) :
    st.editorSlot = some i := by
  unfold saveReport at h
  split at h
  · cases h
  · rename_i index hindex
    split at h
    · cases h
    · obtain ⟨_, _, he⟩ := Option.map_eq_some_iff.mp h
      cases he
      exact hindex

/-- A save changes the settings of the slot it reports, if any. -/
theorem saveEditor_changes (c : Client) (st : State) (i : Nat)
    (h : settings (saveEditor c st) i ≠ settings st i) : saveReport c st = some (.ok i) := by
  cases hrep : saveReport c st with
  | none => exact absurd (by rw [saveEditor_silent hrep]) h
  | some r =>
    cases r with
    | error complaint =>
      refine absurd ?_ h
      rw [saveEditor_error hrep]
      exact settings_congr (setEditorStatus_slots _ _ _) i
    | ok index =>
      by_cases hi : i = index
      · rw [hi]
      · exact absurd ((saveEditor_ok hrep).others i hi) h

theorem editorStep_transaction (st : State) (c : Client) (op : EditorOp) :
    Transaction c op st (editorStep st (c, op)) := by
  refine ⟨fun i hi => ?_, ?_, ?_, ?_⟩
  · by_cases hsave : op = .saveEditor
    · subst hsave
      exact ⟨rfl, saveEditor_changes c st i hi⟩
    · exact absurd (settings_congr (editorStep_slots st c op hsave) i) hi
  · rintro rfl complaint hrep
    show (saveEditor c st).slots = st.slots ∧ editorView (saveEditor c st) = editorView st ∧
      (st.frames = true → (saveEditor c st).editorStatus = some (complaint, true))
    rw [saveEditor_error hrep]
    refine ⟨setEditorStatus_slots _ _ _, setEditorStatus_view _ _ _, fun hf => ?_⟩
    simp [setEditorStatus, hf]
  · rintro rfl i hrep
    exact ⟨saveReport_slot hrep, saveEditor_ok hrep⟩
  · rintro index rfl h1 h4
    exact ⟨removeEditorSpell_fields h1 h4, removeEditorSpell_empty⟩

/-- The editor is a transaction: along every run each step does what `Transaction` allows,
    and the entries in the editor stay copies of the stored ones. -/
theorem editor_transaction (st : State) (es : List (Client × EditorOp)) (k : Nat) (c : Client) (op : EditorOp)
    (hk : es[k]? = some (c, op)) :
    Transaction c op (stateAt editorStep st es k) (stateAt editorStep st es (k + 1)) ∧
      (Separate st → Separate (stateAt editorStep st es (k + 1))) := by
  refine ⟨?_, fun h => inv_stateAt editorStep separate_step h es (k + 1)⟩
  rw [stateAt_succ editorStep st hk]
  exact editorStep_transaction _ c op

/-- A chain of two commands built around an empty field, and saved. -/
def twoCommands : List (Client × EditorOp) :=
  [(bookClient 1, .openEditor 1), (bookClient 1, .insertPetAttack 1), (bookClient 1, .insertBotAttack 3),
    (bookClient 1, .saveEditor)]

/-- A database of empty slots. -/
def emptySlots : State :=
  { noDB with
    slots := fun i => if i ∈ slotNumbers then some (newSlot i) else none
    frames := true
    nextRef := SLOT_COUNT + 1 }

theorem separate_emptySlots : Separate emptySlots := by
  have hnone : ∀ r, ¬ StoredRef emptySlots r := by
    rintro r ⟨i, k, hk, hr⟩
    obtain ⟨slot, hs, rfl⟩ := Option.map_eq_some_iff.mp hk
    simp only [emptySlots] at hs
    split at hs
    · cases hs
      simp [coreOf, newSlot] at hr
    · cases hs
  exact ⟨fun r hr => absurd hr (hnone r), fun j a ha => (by cases ha), fun r j a hr => absurd hr (hnone r)⟩

theorem twoCommands_transaction :
    saveReport (bookClient 1) (stateAt editorStep emptySlots twoCommands 3) = some (.ok 1) ∧
      Transaction (bookClient 1) .saveEditor (stateAt editorStep emptySlots twoCommands 3)
        (stateAt editorStep emptySlots twoCommands 4) ∧
      Separate (stateAt editorStep emptySlots twoCommands 4) := by
  have h := editor_transaction emptySlots twoCommands 3 (bookClient 1) .saveEditor rfl
  exact ⟨by decide +kernel, h.1, h.2 separate_emptySlots⟩

end Nostalgia.MacroManager
