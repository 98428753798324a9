/-
  Nostalgia.MacroManager.Effects — what each entry point does, once and for all.

  An entry point is of one of eight kinds (`Op.kind`), and each kind has one lemma that
  says everything a step of it can do to the cores and to the pending cast:
  - `step_shows`: display refreshes and editor work poll the slots in `polledBy`.
  - `step_initializes`: login and loading screens repair every slot.
  - `step_edits`: saving and clearing install one fresh chain, or do nothing.
  - `step_targets`, `step_stops`, `step_fails`: the events that touch the pending cast.
  Triggers and `OnUpdate` are in Nostalgia.MacroManager.Casting. The invariants of the
  modules above are derived from these lemmas, never from the code again.
-/

import Nostalgia.MacroManager.Position

namespace Nostalgia.MacroManager

open Nostalgia.Lua

/-! ## The changes of a core -/

namespace Core

/-- PLAYER_TARGET_CHANGED. -/
def targetReset (k : Core) : Core := if k.resetOnTargetChange then { k with current := 1, lastUsed := none } else k

/-- `InitializeDB`. -/
def repaired (oldResetSeconds : ℚ) (k : Core) : Core :=
  { k with
    resetSeconds := if validReset k.resetSeconds then k.resetSeconds else oldResetSeconds
    current := normalised (getn k.refs) k.current
    lastUsed := none }

/-- The step after the current one. -/
def next (k : Core) : Nat := if getn k.refs < k.current + 1 then 1 else k.current + 1

/-- `ConfirmPendingCast`. -/
def advanced (now : ℚ) (k : Core) : Core := { k with current := k.next, lastUsed := some now }

/-- `TriggerSlot`'s write of the position. -/
def moved (s : Nat) (k : Core) : Core := { k with current := s }

/-- `NewSlot`. -/
def empty (ref : Nat) : Core := coreOf (newSlot ref)

theorem advanced_not_due (now : ℚ) (k : Core) : ¬ (k.advanced now).ResetDue now := by
  intro ⟨l, hl, _, hpos, hle⟩
  obtain rfl : now = l := by
    simp only [advanced, Option.some.injEq] at hl
    exact hl
  rw [sub_self] at hle
  exact absurd hpos (not_lt.mpr hle)

/-- Within the chain the next step is the cyclic successor. -/
theorem next_eq {k : Core} (h2 : k.current ≤ getn k.refs) :
    k.next = k.current % getn k.refs + 1 := by
  unfold next
  by_cases h : k.current = getn k.refs
  · rw [if_pos (by omega), h, Nat.mod_self]
  · rw [if_neg (by omega), Nat.mod_eq_of_lt (by omega)]

@[simp] theorem moved_self (k : Core) : k.moved k.current = k := rfl

theorem targetReset_unmarked {k : Core} (h : k.resetOnTargetChange = false) : k.targetReset = k := by
  simp [targetReset, h]

@[simp] theorem targetReset_marked (k : Core) : k.targetReset.resetOnTargetChange = k.resetOnTargetChange := by
  unfold targetReset; split <;> rfl

end Core

/-! ## Kinds of entry points -/

inductive Kind where
  | shows
  | initializes
  | edits
  | triggers (index : Nat)
  | updates (elapsed : ℚ)
  | targets
  | stops
  | fails
  deriving DecidableEq

def Event.kind : Event → Kind
  | .ADDON_LOADED own => if own then .initializes else .shows
  | .VARIABLES_LOADED | .PLAYER_LOGIN | .PLAYER_ENTERING_WORLD => .initializes
  | .PLAYER_TARGET_CHANGED => .targets
  | .SPELLCAST_STOP | .SPELLCAST_CHANNEL_STOP => .stops
  | .SPELLCAST_FAILED | .SPELLCAST_INTERRUPTED | .UI_ERROR_MESSAGE => .fails
  | _ => .shows

def Op.kind : Op → Kind
  | .initializeDB => .initializes
  | .saveEditor | .clearEditorSlot => .edits
  | .triggerSlot index => .triggers index
  | .onUpdate elapsed => .updates elapsed
  | .onEvent e => e.kind
  | _ => .shows

theorem Op.eq_of_triggers {op : Op} {index : Nat} (h : op.kind = .triggers index) : op = .triggerSlot index := by
  cases op with
  | triggerSlot j => cases h; rfl
  | onEvent e =>
    cases e with
    | ADDON_LOADED own => cases own <;> cases h
    | _ => cases h
  | _ => cases h

theorem Op.eq_of_updates {op : Op} {elapsed : ℚ} (h : op.kind = .updates elapsed) : op = .onUpdate elapsed := by
  cases op with
  | onUpdate x => cases h; rfl
  | onEvent e =>
    cases e with
    | ADDON_LOADED own => cases own <;> cases h
    | _ => cases h
  | _ => cases h

/-- The slots whose inactivity reset an event polls. -/
def Event.polls (c : Client) (st : State) : Event → Nat → Prop
  | .SPELLS_CHANGED | .SPELL_UPDATE_COOLDOWN => Shown c st
  | .ACTIONBAR_SLOT_CHANGED | .ACTIONBAR_PAGE_CHANGED | .ACTIONBAR_UPDATE_COOLDOWN | .UPDATE_MACROS
  | .UPDATE_BONUS_ACTIONBAR => (· ∈ barSlots c)
  | _ => fun _ => False

/-- The edit goes through. -/
def editGoesThrough (c : Client) (st : State) (op : Op) (index : Nat) : Prop :=
  st.editorSlot = some index ∧
    match op with
    | .saveEditor => (∃ r, checkEditor c st = .ok r) ∧ ∃ slot, st.slots index = some slot
    | .clearEditorSlot => True
    | _ => False

/-- The slots whose inactivity reset a step polls while it leaves their settings and
    position alone otherwise. `InitializeDB` has cleared `lastUsed` before it shows
    anything, so no reset can be due then. -/
def polledBy (c : Client) (st : State) (op : Op) (i : Nat) : Prop :=
  match op with
  | .getSlotCurrentSpell slotIndex => i = slotIndex
  | .toggle => st.frames = true ∧ st.mainShown = false ∧ Shown c st i
  | .onEvent e => e.polls c st i
  | .triggerSlot index => index ∈ slotNumbers ∧ i = index
  | .onUpdate elapsed => 8 / 100 ≤ st.updateElapsed + elapsed ∧ (i ∈ slotNumbers ∨ i ∈ barSlots c)
  | .saveEditor | .clearEditorSlot => (∃ index, editGoesThrough c st op index) ∧ Shown c st i
  | _ => False

/-- Initialising and the cast events poll nothing. -/
theorem not_polledBy {c : Client} {st : State} {op : Op} {i : Nat}
    (h : op.kind = .initializes ∨ op.kind = .stops ∨ op.kind = .fails) : ¬ polledBy c st op i := by
  cases op with
  | initializeDB => exact id
  | onEvent e =>
    cases e with
    | ADDON_LOADED own => exact id
    | VARIABLES_LOADED | PLAYER_LOGIN | PLAYER_ENTERING_WORLD | SPELLCAST_STOP | SPELLCAST_CHANNEL_STOP
    | SPELLCAST_FAILED | SPELLCAST_INTERRUPTED | UI_ERROR_MESSAGE => exact id
    | _ => simp [Op.kind, Event.kind] at h
  | _ => simp [Op.kind] at h

theorem polledBy_edits {c : Client} {st : State} {op : Op} {i : Nat} (h : op.kind = .edits) :
    polledBy c st op i ↔ (∃ index, editGoesThrough c st op index) ∧ Shown c st i := by
  cases op with
  | saveEditor | clearEditorSlot => exact Iff.rfl
  | onEvent e =>
    cases e with
    | ADDON_LOADED own => cases own <;> cases h
    | _ => cases h
  | _ => cases h

/-! ## Display refreshes and editor work -/

section Quiet

variable (now : ℚ) (st : State)

theorem refresh_openEditor (index : Nat) : Refresh now (fun _ => False) st (openEditor index st) := by
  unfold openEditor
  split
  · dsimp only
    split
    · exact Refresh.of_slots rfl rfl rfl rfl (Nat.le_refl _)
    · exact (refresh_setEditorStatus now _ _ _).after rfl rfl rfl rfl (Nat.le_add_right _ _)
  · exact Refresh.refl st

theorem refresh_insertCommand (k : Command) (added : String) (index : Nat) :
    Refresh now (fun _ => False) st (insertCommand k added index st) := by
  unfold insertCommand
  split
  · exact refresh_setEditorStatus now _ _ st
  · exact (refresh_setEditorStatus now _ _ _).after rfl rfl rfl rfl (Nat.le_succ _)

theorem refresh_removeEditorSpell (index : Nat) : Refresh now (fun _ => False) st (removeEditorSpell index st) := by
  unfold removeEditorSpell
  split
  · exact Refresh.refl st
  · exact (refresh_setEditorStatus now _ _ _).after rfl rfl rfl rfl (Nat.le_refl _)

theorem refresh_receiveSpell (c : Client) (index : Nat) : Refresh now (fun _ => False) st (receiveSpell c index st) := by
  unfold receiveSpell
  split
  · exact refresh_setEditorStatus now _ _ st
  · exact (refresh_setEditorStatus now _ _ _).after rfl rfl rfl rfl (Nat.le_succ _)

end Quiet

theorem refresh_toggle (c : Client) (st : State) : Refresh c.getTime (polledBy c st .toggle) st (toggle c st) := by
  unfold toggle
  split
  · rename_i hf
    split
    · rename_i hm
      exact Refresh.congr (P := fun _ => False) (Refresh.of_slots rfl rfl rfl rfl (Nat.le_refl _))
        (by simp [polledBy, hm])
    · rename_i hm
      refine Refresh.quiet ((refresh_updateAllSlots c st).congr fun i => ?_) rfl rfl rfl rfl (Nat.le_refl _)
      simp [polledBy, hf, hm]
  · rename_i hf
    exact (Refresh.refl st).congr (by simp [polledBy, hf])

/-- Display refreshes and editor work only poll. -/
theorem step_shows {c : Client} {op : Op} (h : op.kind = .shows) (st : State) :
    Refresh c.getTime (polledBy c st op) st (step st (c, op)) := by
  cases op with
  | openEditor index => exact refresh_openEditor _ st index
  | insertPetAttack index => exact refresh_insertCommand _ st _ _ index
  | insertBotAttack index => exact refresh_insertCommand _ st _ _ index
  | removeEditorSpell index => exact refresh_removeEditorSpell _ st index
  | receiveSpell index => exact refresh_receiveSpell _ st c index
  | pickupSpell spellIndex bookType => exact Refresh.of_slots rfl rfl rfl rfl (Nat.le_refl _)
  | typeTexts nameEdit resetEdit targetResetCheck => exact Refresh.of_slots rfl rfl rfl rfl (Nat.le_refl _)
  | getSlotCurrentSpell slotIndex => exact refresh_getSlotCurrentSpell c st slotIndex
  | toggle => exact refresh_toggle c st
  | onEvent e =>
    cases e with
    | ADDON_LOADED own =>
      cases own with
      | false => exact Refresh.refl st
      | true => cases h
    | PLAYER_LOGOUT => exact Refresh.refl st
    | SPELLS_CHANGED | SPELL_UPDATE_COOLDOWN => exact refresh_updateAllSlots c st
    | ACTIONBAR_SLOT_CHANGED | ACTIONBAR_PAGE_CHANGED | ACTIONBAR_UPDATE_COOLDOWN | UPDATE_MACROS
    | UPDATE_BONUS_ACTIONBAR => exact refresh_updateBlizzardCooldowns c st
    | _ => cases h
  | _ => cases h

/-! ## Initialising -/

/-- From `a` to `b` every slot was repaired, with reset time `old` where its own is not
    valid; a missing one was created. Other slots were polled at most. -/
structure Initialized (now old : ℚ) (a b : State) : Prop where
  valid : validReset old = true
  repaired : ∀ i ∈ slotNumbers, ∃ k : Core, core b i = some (k.repaired old) ∧
    (core a i = some k ∨ (core a i = none ∧ ∃ r, k = Core.empty r ∧ a.nextRef ≤ r ∧ r < b.nextRef))
  others : ∀ i, i ∉ slotNumbers → core b i = core a i ∨ core b i = (core a i).map (Core.timeReset now)
  pendingCast : b.pendingCast = a.pendingCast
  nextRef : a.nextRef ≤ b.nextRef

theorem coreOf_repairSlot (old : ℚ) (slot : Slot) : coreOf (repairSlot old slot) = (coreOf slot).repaired old := by
  unfold Core.repaired
  simp only [coreOf, repairSlot, getn_refs]
  rfl

theorem initializeSlot_self (old : ℚ) (st : State) (i : Nat) :
    ∃ k : Core, core (initializeSlot old st i) i = some (k.repaired old) ∧
      (core st i = some k ∨ (core st i = none ∧ k = Core.empty st.nextRef ∧
        st.nextRef < (initializeSlot old st i).nextRef)) := by
  unfold initializeSlot
  split
  · rename_i slot h
    exact ⟨coreOf slot, by rw [core_setSlot_same, coreOf_repairSlot], Or.inl (core_of_slot h)⟩
  · rename_i h
    refine ⟨Core.empty st.nextRef, by rw [core_setSlot_same, coreOf_repairSlot]; rfl, Or.inr ⟨by simp [core, h], rfl, ?_⟩⟩
    exact Nat.lt_succ_self _

theorem initializeSlot_other (old : ℚ) (st : State) {i j : Nat} (h : j ≠ i) :
    core (initializeSlot old st i) j = core st j := by
  unfold initializeSlot
  split
  · exact core_setSlot_ne _ _ h
  · exact core_setSlot_ne _ _ h

theorem initializeSlot_rest (old : ℚ) (st : State) (i : Nat) :
    (initializeSlot old st i).pendingCast = st.pendingCast ∧ st.nextRef ≤ (initializeSlot old st i).nextRef := by
  unfold initializeSlot
  split
  · exact ⟨rfl, Nat.le_refl _⟩
  · exact ⟨rfl, Nat.le_succ _⟩

/-- The loop of `InitializeDB` repairs each of its slots once. -/
theorem initializeSlots (old : ℚ) : ∀ (l : List Nat), l.Nodup → ∀ st : State,
    (∀ i ∈ l, ∃ k : Core, core (l.foldl (initializeSlot old) st) i = some (k.repaired old) ∧
      (core st i = some k ∨ (core st i = none ∧ ∃ r, k = Core.empty r ∧ st.nextRef ≤ r ∧
        r < (l.foldl (initializeSlot old) st).nextRef))) ∧
    (∀ i, i ∉ l → core (l.foldl (initializeSlot old) st) i = core st i) ∧
    (l.foldl (initializeSlot old) st).pendingCast = st.pendingCast ∧
    st.nextRef ≤ (l.foldl (initializeSlot old) st).nextRef := by
  intro l
  induction l with
  | nil => intro _ st; exact ⟨by simp, fun _ _ => rfl, rfl, Nat.le_refl _⟩
  | cons x l ih =>
    intro hnd st
    obtain ⟨hx, hnd⟩ := List.nodup_cons.mp hnd
    obtain ⟨hrep, hkept, hpend, hnext⟩ := ih hnd (initializeSlot old st x)
    obtain ⟨hp1, hn1⟩ := initializeSlot_rest old st x
    simp only [List.foldl_cons]
    refine ⟨fun i hi => ?_, fun i hi => ?_, hpend.trans hp1, Nat.le_trans hn1 hnext⟩
    · by_cases hix : i = x
      · subst hix
        obtain ⟨k, hk, hfrom⟩ := initializeSlot_self old st i
        refine ⟨k, by rw [hkept i hx, hk], ?_⟩
        rcases hfrom with hfrom | ⟨hnone, rfl, hlt⟩
        · exact Or.inl hfrom
        · exact Or.inr ⟨hnone, _, rfl, Nat.le_refl _, by omega⟩
      · obtain ⟨k, hk, hfrom⟩ := hrep i ((List.mem_cons.mp hi).resolve_left hix)
        rw [initializeSlot_other old st hix] at hfrom
        refine ⟨k, hk, ?_⟩
        rcases hfrom with hfrom | ⟨hnone, r, hr, hle, hlt⟩
        · exact Or.inl hfrom
        · exact Or.inr ⟨hnone, r, hr, by omega, hlt⟩
    · have hix : i ≠ x := fun e => hi (e ▸ List.mem_cons_self ..)
      have hil : i ∉ l := fun hm => hi (List.mem_cons_of_mem _ hm)
      rw [hkept i hil, initializeSlot_other old st hix]

theorem slotNumbers_nodup : slotNumbers.Nodup := List.nodup_range'

theorem mem_slotNumbers {i : Nat} : i ∈ slotNumbers ↔ 1 ≤ i ∧ i ≤ SLOT_COUNT := by
  simp only [slotNumbers, SLOT_COUNT, List.mem_range'_1]
  omega

theorem old_reset_valid (saved : Option ℚ) : validReset ((saved.filter validReset).getD DEFAULT_RESET) = true := by
  cases h : saved.filter validReset with
  | none => decide +kernel
  | some x => exact (Option.filter_eq_some_iff.mp h).2

theorem initializeDB_initialized (now : ℚ) (st : State) :
    Initialized now ((st.resetSeconds.filter validReset).getD DEFAULT_RESET) st (initializeDB st) := by
  obtain ⟨hrep, hkept, hpend, hnext⟩ :=
    initializeSlots ((st.resetSeconds.filter validReset).getD DEFAULT_RESET) slotNumbers slotNumbers_nodup st
  exact ⟨old_reset_valid _, hrep, fun i hi => Or.inl (hkept i hi), hpend, hnext⟩

/-- Showing the slots after initialising polls nothing that could be due. -/
theorem Initialized.then_refresh {now old : ℚ} {P : Nat → Prop} {a b d : State} (h : Initialized now old a b)
    (hr : Refresh now P b d) : Initialized now old a d := by
  refine ⟨h.valid, fun i hi => ?_, fun i hi => ?_, hr.pendingCast.trans h.pendingCast,
    Nat.le_trans h.nextRef hr.nextRef⟩
  · obtain ⟨k, hk, hfrom⟩ := h.repaired i hi
    have hd : core d i = some (k.repaired old) := by
      rcases hr.core_cases i with hsame | ⟨_, hpoll⟩
      · rw [hsame, hk]
      · rw [hpoll, hk, Option.map_some, Core.timeReset_not_due (Core.not_due_of_unused rfl)]
    refine ⟨k, hd, hfrom.imp_right fun ⟨hnone, r, hr', hle, hlt⟩ => ⟨hnone, r, hr', hle, ?_⟩⟩
    have := hr.nextRef
    omega
  · exact polled_again (h.others i hi) ((hr.core_cases i).imp_right And.right)

theorem Initialized.with_frames {now old : ℚ} {a b : State} (h : Initialized now old a b) (frames : Bool) :
    Initialized now old a { b with frames := frames } :=
  ⟨h.valid, h.repaired, h.others, h.pendingCast, h.nextRef⟩

theorem createFrames_initialized {now old : ℚ} {c : Client} {a b : State} (hnow : c.getTime = now)
    (h : Initialized now old a b) : Initialized now old a (createFrames c b) := by
  subst hnow
  unfold createFrames
  split
  · exact h
  · exact (h.with_frames true).then_refresh (refresh_updateAllSlots c _)

/-- Login and loading screens repair every slot. -/
theorem step_initializes {c : Client} {op : Op} (h : op.kind = .initializes) (st : State) :
    Initialized c.getTime ((st.resetSeconds.filter validReset).getD DEFAULT_RESET) st (step st (c, op)) := by
  have hinit := initializeDB_initialized c.getTime st
  cases op with
  | initializeDB => exact hinit
  | onEvent e =>
    cases e with
    | ADDON_LOADED own =>
      cases own with
      | true => exact createFrames_initialized rfl hinit
      | false => cases h
    | VARIABLES_LOADED | PLAYER_LOGIN | PLAYER_ENTERING_WORLD =>
      exact (createFrames_initialized rfl hinit).then_refresh (refresh_updateAllSlots c _)
    | _ => cases h
  | _ => cases h

/-! ## Saving and clearing -/

/-- A chain just installed: at step 1, unused, its table and its entries new, with
    0 or 2 to 4 steps without holes. -/
structure Fresh (lo hi : Nat) (k : Core) : Prop where
  current : k.current = 1
  lastUsed : k.lastUsed = none
  chain : lo ≤ k.chain ∧ k.chain < hi
  entries : ∀ r, some r ∈ k.refs → lo ≤ r ∧ r < hi
  full : Full k.refs
  length : k.refs.length = 0 ∨ (MIN_SPELLS ≤ k.refs.length ∧ k.refs.length ≤ MAX_SPELLS)
  reset : validReset k.resetSeconds = true

/-- From `a` to `b` the slot `index` got a fresh chain and the slots in `P` were polled. -/
structure Edited (now : ℚ) (P : Nat → Prop) (index : Nat) (a b : State) : Prop where
  installed : ∃ k, core b index = some k ∧ Fresh a.nextRef b.nextRef k
  polled : ∀ i, i ≠ index → P i → core b i = (core a i).map (Core.timeReset now)
  kept : ∀ i, i ≠ index → ¬ P i → core b i = core a i
  pendingCast : b.pendingCast = a.pendingCast
  nextRef : a.nextRef ≤ b.nextRef

theorem Fresh.mono {lo hi hi' : Nat} {k : Core} (h : Fresh lo hi k) (hle : hi ≤ hi') : Fresh lo hi' k :=
  ⟨h.current, h.lastUsed, ⟨h.chain.1, Nat.lt_of_lt_of_le h.chain.2 hle⟩,
    fun r hr => ⟨(h.entries r hr).1, Nat.lt_of_lt_of_le (h.entries r hr).2 hle⟩, h.full, h.length, h.reset⟩

theorem Fresh.not_due {lo hi : Nat} {k : Core} (h : Fresh lo hi k) (now : ℚ) : ¬ k.ResetDue now :=
  Core.not_due_of_one h.current

theorem fresh_newSlot (ref : Nat) : Fresh ref (ref + 1) (coreOf (newSlot ref)) :=
  ⟨rfl, rfl, ⟨Nat.le_refl _, Nat.lt_succ_self _⟩, by simp [coreOf, newSlot], by simp [Full, coreOf, newSlot],
    Or.inl rfl, (by decide +kernel : validReset DEFAULT_RESET = true)⟩

theorem compactSteps_spec (lo : Nat) : ∀ (l : List Spell) (ref : Nat) (compact : Arr Spell), Full compact → lo ≤ ref →
    (∀ a, some a ∈ compact → lo ≤ a.ref ∧ a.ref < ref) →
    Full (compactSteps ref l compact) ∧ (compactSteps ref l compact).length = compact.length + l.length ∧
      ∀ a, some a ∈ compactSteps ref l compact → lo ≤ a.ref ∧ a.ref < ref + l.length := by
  intro l
  induction l with
  | nil => intro ref compact hfull _ hrefs; exact ⟨hfull, rfl, hrefs⟩
  | cons spell rest ih =>
    intro ref compact hfull hlo hrefs
    simp only [compactSteps, tinsert_full hfull]
    have hnew : ∀ a, some a ∈ compact ++ [some (copySpell ref spell)] → lo ≤ a.ref ∧ a.ref < ref + 1 := by
      intro a ha
      rcases List.mem_append.mp ha with ha | ha
      · have := hrefs a ha
        omega
      · simp only [List.mem_singleton, Option.some.injEq] at ha
        subst ha
        exact ⟨hlo, Nat.lt_succ_self _⟩
    obtain ⟨h1, h2, h3⟩ := ih (ref + 1) _ (full_append hfull _) (by omega) hnew
    refine ⟨h1, ?_, fun a ha => ?_⟩
    · rw [h2, List.length_append, List.length_cons, List.length_cons, List.length_nil]
      omega
    · have := h3 a ha
      rw [List.length_cons]
      omega

/-- Resolving the steps leaves alone what looking a step up leaves alone. -/
theorem resolveAll_entries {β : Type*} (f : Spell → β) {c : Client} (hf : ∀ spell, f (resolveSpell c spell).2 = f spell) :
    ∀ (l : List Nat) (compact steps : Arr Spell),
      resolveAll c l compact = .ok steps → mapEntries f steps = mapEntries f compact := by
  intro l
  induction l with
  | nil => intro compact steps h; cases h; rfl
  | cons i rest ih =>
    intro compact steps h
    simp only [resolveAll] at h
    split at h
    · cases h
    · rename_i spell hget
      split at h
      · cases h
      · rename_i r spell' hres
        have hcopy := hf spell
        rw [hres] at hcopy
        rw [ih _ _ h, mapEntries_put f hget hcopy]

theorem resolveAll_refs (c : Client) (l : List Nat) (compact steps : Arr Spell)
    (h : resolveAll c l compact = .ok steps) : refs steps = refs compact :=
  resolveAll_entries Spell.ref (fun spell => (resolveSpell_copy c spell).1) l compact steps h

theorem editorSteps_length (st : State) : (editorSteps st).length ≤ MAX_SPELLS := by
  have h := List.length_filterMap_le st.editorSpells (List.range' 1 MAX_SPELLS)
  rwa [List.length_range'] at h

/-- What `SaveEditor` accepts makes a fresh chain. -/
theorem checkEditor_fresh {c : Client} {st : State} {steps : Arr Spell} {resetSeconds : ℚ}
    (h : checkEditor c st = .ok (steps, resetSeconds)) (slot : Slot) :
    Fresh st.nextRef (st.nextRef + 1 + MAX_SPELLS) (coreOf (savedSlot st steps resetSeconds slot)) := by
  obtain ⟨hfull, _, hrefs⟩ := compactSteps_spec (st.nextRef + 1) (editorSteps st) (st.nextRef + 1) []
    (by simp [Full]) (Nat.le_refl _) (by simp)
  have hlen := editorSteps_length st
  unfold checkEditor at h
  dsimp only at h
  split at h
  · cases h
  · rename_i hcount
    split at h
    · cases h
    · rename_i resolved hres
      split at h
      · cases h
      · rename_i r hr
        simp only [Except.ok.injEq, Prod.mk.injEq] at h
        obtain ⟨rfl, rfl⟩ := h
        have hsame := resolveAll_refs c _ _ _ hres
        have hfull' : Full (refs resolved) := by rw [hsame]; exact full_mapEntries.mpr hfull
        refine ⟨rfl, rfl, ⟨Nat.le_refl _, by simp only [coreOf, savedSlot]; omega⟩, fun q hq => ?_, hfull', Or.inr ?_, ?_⟩
        · simp only [coreOf, savedSlot, hsame] at hq
          obtain ⟨x, hx, hxq⟩ := List.mem_map.mp hq
          obtain ⟨a, rfl, rfl⟩ := Option.map_eq_some_iff.mp hxq
          have := hrefs a hx
          omega
        · have hg : getn (refs resolved) = (refs resolved).length := getn_eq_length hfull'
          simp only [coreOf, savedSlot]
          rw [← hg, hsame, getn_refs]
          omega
        · exact (Option.filter_eq_some_iff.mp hr).2

/-- Showing the slots after installing a chain. -/
theorem edited_of_refresh {now : ℚ} {P : Nat → Prop} {a b d : State} {index : Nat} {slot : Slot}
    (hs : b.slots = (setSlot index slot a).slots) (hp : b.pendingCast = a.pendingCast)
    (hfresh : Fresh a.nextRef b.nextRef (coreOf slot)) (hr : Refresh now P b d) : Edited now P index a d := by
  have hself : core b index = some (coreOf slot) := by rw [core_congr hs, core_setSlot_same]
  have hother : ∀ i, i ≠ index → core b i = core a i := fun i hi => by rw [core_congr hs, core_setSlot_ne _ _ hi]
  have hle : a.nextRef ≤ b.nextRef := by have := hfresh.chain; omega
  refine ⟨⟨coreOf slot, ?_, hfresh.mono hr.nextRef⟩, fun i hi hP => ?_, fun i hi hP => ?_, hr.pendingCast.trans hp,
    Nat.le_trans hle hr.nextRef⟩
  · rcases hr.core_cases index with h | ⟨_, h⟩
    · rw [h, hself]
    · rw [h, hself, Option.map_some, Core.timeReset_not_due (hfresh.not_due now)]
  · rw [hr.polled i hP, hother i hi]
  · rw [hr.kept i hP, hother i hi]

theorem refresh_shown (c : Client) {st b : State} (hf : b.frames = st.frames) :
    Refresh c.getTime (Shown c st) b (updateAllSlots c b) :=
  (refresh_updateAllSlots c b).congr (by simp [Shown, hf])

theorem saveEditor_cases (c : Client) (st : State) :
    ((¬ ∃ index, editGoesThrough c st .saveEditor index) ∧ Refresh c.getTime (fun _ => False) st (saveEditor c st)) ∨
      ∃ index, editGoesThrough c st .saveEditor index ∧ Edited c.getTime (Shown c st) index st (saveEditor c st) := by
  unfold saveEditor
  split
  · rename_i h
    exact Or.inl ⟨by simp [editGoesThrough, h], Refresh.refl st⟩
  · rename_i index h
    split
    · rename_i complaint hc
      exact Or.inl ⟨by simp [editGoesThrough, hc], refresh_setEditorStatus _ _ _ st⟩
    · rename_i steps resetSeconds hc
      split
      · rename_i hs
        refine Or.inl ⟨?_, Refresh.refl st⟩
        intro ⟨j, hj, _, slot, hslot⟩
        rw [h] at hj
        cases hj
        rw [hs] at hslot
        cases hslot
      · rename_i slot hs
        refine Or.inr ⟨index, ⟨h, ⟨_, hc⟩, slot, hs⟩, ?_⟩
        refine edited_of_refresh (b := { setSlot index (savedSlot st steps resetSeconds slot) st with
          nextRef := st.nextRef + 1 + MAX_SPELLS }) rfl rfl (checkEditor_fresh hc slot) ?_
        have hshow : ∀ b : State, b.frames = st.frames → Refresh c.getTime (Shown c st) b
            { setStatus s!"Slot {index} saved." false (updateAllSlots c b) with editorShown := false } :=
          fun b hf => Refresh.quiet ((refresh_shown c hf).status _ _) rfl rfl rfl rfl (Nat.le_refl _)
        exact hshow _ rfl

theorem clearEditorSlot_cases (c : Client) (st : State) :
    ((¬ ∃ index, editGoesThrough c st .clearEditorSlot index) ∧
        Refresh c.getTime (fun _ => False) st (clearEditorSlot c st)) ∨
      ∃ index, editGoesThrough c st .clearEditorSlot index ∧
        Edited c.getTime (Shown c st) index st (clearEditorSlot c st) := by
  unfold clearEditorSlot
  split
  · rename_i h
    exact Or.inl ⟨by simp [editGoesThrough, h], Refresh.refl st⟩
  · rename_i index h
    refine Or.inr ⟨index, ⟨h, trivial⟩, ?_⟩
    refine edited_of_refresh (b := { setSlot index (newSlot st.nextRef) st with
      nextRef := st.nextRef + 1
      editorSpells := fun _ => none
      nameEdit := ""
      resetEdit := tostring DEFAULT_RESET
      targetResetCheck := false }) rfl rfl (fresh_newSlot st.nextRef) ?_
    have hshow : ∀ b : State, b.frames = st.frames → Refresh c.getTime (Shown c st) b
        (setStatus s!"Slot {index} cleared." false
          (setEditorStatus "The entire slot was cleared." false (updateAllSlots c b))) :=
      fun b hf => ((refresh_shown c hf).edStatus _ _).status _ _
    exact hshow _ rfl

/-- Saving and clearing do nothing, or install a fresh chain. -/
theorem step_edits {c : Client} {op : Op} (h : op.kind = .edits) (st : State) :
    ((¬ ∃ index, editGoesThrough c st op index) ∧ Refresh c.getTime (fun _ => False) st (step st (c, op))) ∨
      ∃ index, editGoesThrough c st op index ∧ Edited c.getTime (Shown c st) index st (step st (c, op)) := by
  cases op with
  | saveEditor => exact saveEditor_cases c st
  | clearEditorSlot => exact clearEditorSlot_cases c st
  | onEvent e =>
    cases e with
    | ADDON_LOADED own => cases own <;> cases h
    | _ => cases h
  | _ => cases h

/-! ## The target changes -/

/-- Resetting a marked slot and showing it. -/
theorem core_reset_shown (c : Client) (st : State) (i j : Nat) {slot : Slot} (h : st.slots i = some slot)
    (hmark : slot.resetOnTargetChange = true) :
    core (updateSlotButton c i (setSlot i { slot with current := 1, lastUsed := none } st)) j =
      if j = i then (core st j).map Core.targetReset else core st j := by
  have hr := refresh_updateSlotButton c i (setSlot i { slot with current := 1, lastUsed := none } st)
  have hmid : core (setSlot i { slot with current := 1, lastUsed := none } st) j =
      if j = i then (core st j).map Core.targetReset else core st j := by
    by_cases hj : j = i
    · subst hj
      rw [core_setSlot_same, if_pos rfl, core_of_slot h, Option.map_some, Core.targetReset]
      simp [coreOf, hmark]
    · rw [core_setSlot_ne _ _ hj, if_neg hj]
  rcases hr.core_cases j with hsame | ⟨⟨_, _, rfl⟩, hpoll⟩
  · rw [hsame, hmid]
  · rw [hpoll, core_setSlot_same, Option.map_some, Core.timeReset_not_due (Core.not_due_of_one rfl),
      ← core_setSlot_same j { slot with current := 1, lastUsed := none } st, hmid]

/-- A marked slot at step 1 and unused is as the reset would leave it. -/
theorem targetReset_unused {slot : Slot} (h1 : ¬ (slot.current ≠ 1 ∨ slot.lastUsed.isSome)) :
    (coreOf slot).targetReset = coreOf slot := by
  have hc : slot.current = 1 := by by_contra hc; exact h1 (Or.inl hc)
  have hl : slot.lastUsed = none := by
    cases hl : slot.lastUsed with
    | none => rfl
    | some l => exact absurd (Or.inr (by simp [hl])) h1
  unfold Core.targetReset
  split
  · simp [coreOf, hc, hl]
  · rfl

theorem targetChanged_core (c : Client) (acc : Bool × State) (i j : Nat) :
    core (targetChanged c acc i).2 j = if j = i then (core acc.2 j).map Core.targetReset else core acc.2 j := by
  unfold targetChanged
  split
  · rename_i h
    split
    · rename_i hj; subst hj; simp [core, h]
    · rfl
  · rename_i slot h
    split
    · rename_i hmark
      have hdrop : ∀ (b b' : Bool) (st : State), core (if st.pendingCast.any (·.slotIndex = i) then
          (b, { st with pendingCast := none }) else (b', st)).2 j = core st j := by
        intro b b' st; split <;> rfl
      dsimp only
      rw [hdrop]
      split
      · exact core_reset_shown c acc.2 i j h hmark
      · rename_i hun
        split
        · rename_i hj; subst hj
          rw [core_of_slot h, Option.map_some, targetReset_unused hun]
        · rfl
    · rename_i hmark
      split
      · rename_i hj
        subst hj
        rw [core_of_slot h, Option.map_some, Core.targetReset_unmarked (by simpa [coreOf] using hmark)]
      · rfl

/-- Dropping the pending cast if it is of slot `i`, after steps that kept it. -/
theorem pending_dropped (b b' : Bool) {st st₀ : State} {i : Nat} (hp : st.pendingCast = st₀.pendingCast)
    (hn : st₀.nextRef ≤ st.nextRef) {r : Bool × State}
    (hr : (if st.pendingCast.any (·.slotIndex = i) then (b, { st with pendingCast := none }) else (b', st)) = r) :
    (r.2.pendingCast = none ∨ r.2.pendingCast = st₀.pendingCast) ∧
      (r.2.pendingCast = st₀.pendingCast → ∀ p, st₀.pendingCast = some p → p.slotIndex ≠ i) ∧
      st₀.nextRef ≤ r.2.nextRef := by
  split at hr
  · subst hr
    refine ⟨Or.inl rfl, fun hnone p hpk _ => ?_, hn⟩
    rw [← hnone] at hpk
    cases hpk
  · rename_i hany
    subst hr
    refine ⟨Or.inr hp, fun _ p hpk hi => ?_, hn⟩
    rw [hp, hpk] at hany
    simp [hi] at hany

/-- The pending cast after the loop body: dropped exactly if it is of this slot and the
    slot is marked. -/
theorem targetChanged_pending (c : Client) (acc : Bool × State) (i : Nat) :
    ((targetChanged c acc i).2.pendingCast = none ∨ (targetChanged c acc i).2.pendingCast = acc.2.pendingCast) ∧
      ((targetChanged c acc i).2.pendingCast = acc.2.pendingCast → ∀ p k, acc.2.pendingCast = some p → p.slotIndex = i →
        core acc.2 i = some k → k.resetOnTargetChange = false) ∧
      acc.2.nextRef ≤ (targetChanged c acc i).2.nextRef := by
  cases h : acc.2.slots i with
  | none =>
    have hbody : targetChanged c acc i = acc := by simp only [targetChanged, h]
    rw [hbody]
    refine ⟨Or.inr rfl, fun _ p k _ _ hk => ?_, Nat.le_refl _⟩
    rw [core, h] at hk
    cases hk
  | some slot =>
    by_cases hmark : slot.resetOnTargetChange = true
    · obtain ⟨hp, hdrop, hn⟩ : ((targetChanged c acc i).2.pendingCast = none ∨
            (targetChanged c acc i).2.pendingCast = acc.2.pendingCast) ∧
          ((targetChanged c acc i).2.pendingCast = acc.2.pendingCast → ∀ p, acc.2.pendingCast = some p → p.slotIndex ≠ i) ∧
          acc.2.nextRef ≤ (targetChanged c acc i).2.nextRef := by
        by_cases hused : slot.current ≠ 1 ∨ slot.lastUsed.isSome = true
        · have hu := refresh_updateSlotButton c i (setSlot i { slot with current := 1, lastUsed := none } acc.2)
          refine pending_dropped true true hu.pendingCast hu.nextRef ?_
          simp only [targetChanged, h, if_pos hmark, if_pos hused]
        · refine pending_dropped true acc.1 rfl (Nat.le_refl _) ?_
          simp only [targetChanged, h, if_pos hmark, if_neg hused]
      exact ⟨hp, fun hsame p k hpk hi _ => absurd hi (hdrop hsame p hpk), hn⟩
    · have hbody : targetChanged c acc i = acc := by simp only [targetChanged, h, if_neg hmark]
      rw [hbody]
      refine ⟨Or.inr rfl, fun _ p k _ _ hk => ?_, Nat.le_refl _⟩
      rw [core_of_slot h] at hk
      cases hk
      simpa [coreOf] using hmark

/-- The loop of PLAYER_TARGET_CHANGED over some slots. -/
theorem targetChanged_fold (c : Client) : ∀ (l : List Nat) (acc : Bool × State),
    (∀ j, core (l.foldl (targetChanged c) acc).2 j =
      if j ∈ l then (core acc.2 j).map Core.targetReset else core acc.2 j) ∧
    ((l.foldl (targetChanged c) acc).2.pendingCast = none ∨
      ((l.foldl (targetChanged c) acc).2.pendingCast = acc.2.pendingCast ∧
        ∀ p k, acc.2.pendingCast = some p → p.slotIndex ∈ l → core acc.2 p.slotIndex = some k →
          k.resetOnTargetChange = false)) ∧
    acc.2.nextRef ≤ (l.foldl (targetChanged c) acc).2.nextRef := by
  intro l
  induction l with
  | nil => intro acc; exact ⟨by simp, Or.inr ⟨rfl, by simp⟩, Nat.le_refl _⟩
  | cons x l ih =>
    intro acc
    obtain ⟨hcore, hpend, hnext⟩ := ih (targetChanged c acc x)
    obtain ⟨hp1, hp2, hp3⟩ := targetChanged_pending c acc x
    simp only [List.foldl_cons]
    refine ⟨fun j => ?_, ?_, Nat.le_trans hp3 hnext⟩
    · rw [hcore j, targetChanged_core]
      by_cases hjx : j = x
      · subst hjx
        cases core acc.2 j with
        | none => simp
        | some k =>
          have hidem : k.targetReset.targetReset = k.targetReset := by
            unfold Core.targetReset; split <;> simp_all
          simp [hidem]
      · simp [hjx]
    · rcases hpend with hnone | ⟨hsame, hmarks⟩
      · exact Or.inl hnone
      · rcases hp1 with h1 | h1
        · exact Or.inl (hsame.trans h1)
        · refine Or.inr ⟨hsame.trans h1, fun p k hp hmem hk => ?_⟩
          by_cases hx : p.slotIndex = x
          · exact hp2 h1 p k hp hx (hx ▸ hk)
          · refine hmarks p k (h1.trans hp) ((List.mem_cons.mp hmem).resolve_left hx) ?_
            rw [targetChanged_core, if_neg hx, hk]

/-- From `a` to `b` the marked slots went back to step 1 and the other ones were polled
    at most. A pending cast that stays is of an unmarked slot. -/
structure Targeted (now : ℚ) (a b : State) : Prop where
  cores : ∀ i, core b i = (core a i).map (fun k => if i ∈ slotNumbers then k.targetReset else k) ∨
    core b i = ((core a i).map fun k => if i ∈ slotNumbers then k.targetReset else k).map (Core.timeReset now)
  pendingCast : b.pendingCast = none ∨ (b.pendingCast = a.pendingCast ∧ ∀ p k, a.pendingCast = some p →
    p.slotIndex ∈ slotNumbers → core a p.slotIndex = some k → k.resetOnTargetChange = false)
  nextRef : a.nextRef ≤ b.nextRef

theorem step_targets {c : Client} {op : Op} (h : op.kind = .targets) (st : State) :
    Targeted c.getTime st (step st (c, op)) := by
  have hall : Targeted c.getTime st (onEvent c .PLAYER_TARGET_CHANGED st) := by
    obtain ⟨hcore, hpend, hnext⟩ := targetChanged_fold c slotNumbers (false, st)
    have hmid : ∀ i, core (slotNumbers.foldl (targetChanged c) (false, st)).2 i =
        (core st i).map (fun k => if i ∈ slotNumbers then k.targetReset else k) := by
      intro i
      rw [hcore i]
      split <;> simp
    simp only [onEvent]
    split
    · have hr := (refresh_updateBlizzardCooldowns c (slotNumbers.foldl (targetChanged c) (false, st)).2).status
        "Target changed: marked chains reset to step 1." false
      refine ⟨fun i => ?_, ?_, Nat.le_trans hnext hr.nextRef⟩
      · rcases hr.core_cases i with hi | ⟨_, hi⟩
        · exact Or.inl (hi.trans (hmid i))
        · exact Or.inr (by rw [hi, hmid i])
      · rcases hpend with hp | ⟨hp, hmarks⟩
        · exact Or.inl (hr.pendingCast.trans hp)
        · exact Or.inr ⟨hr.pendingCast.trans hp, hmarks⟩
    · exact ⟨fun i => Or.inl (hmid i), hpend, hnext⟩
  cases op with
  | onEvent e =>
    cases e with
    | PLAYER_TARGET_CHANGED => exact hall
    | ADDON_LOADED own => cases own <;> cases h
    | _ => cases h
  | _ => cases h

/-! ## Stops and failures -/

theorem step_stops {c : Client} {op : Op} (h : op.kind = .stops) (st : State) :
    step st (c, op) = spellStopped c st := by
  cases op with
  | onEvent e =>
    cases e with
    | SPELLCAST_STOP | SPELLCAST_CHANNEL_STOP => rfl
    | ADDON_LOADED own => cases own <;> cases h
    | _ => cases h
  | _ => cases h

theorem step_fails {c : Client} {op : Op} (h : op.kind = .fails) (st : State) : step st (c, op) = spellFailed st := by
  cases op with
  | onEvent e =>
    cases e with
    | SPELLCAST_FAILED | SPELLCAST_INTERRUPTED | UI_ERROR_MESSAGE => rfl
    | ADDON_LOADED own => cases own <;> cases h
    | _ => cases h
  | _ => cases h

@[simp] theorem core_spellStopped (c : Client) (st : State) (i : Nat) : core (spellStopped c st) i = core st i := rfl

/-- A stop event only sets when the pending cast is confirmed. -/
theorem pending_spellStopped (c : Client) (st : State) : (spellStopped c st).pendingCast =
    st.pendingCast.map fun p => { p with successAt := some (c.getTime + SUCCESS_DELAY) } := rfl

theorem spellFailed_spec (st : State) : (spellFailed st).pendingCast = none ∧ (spellFailed st).slots = st.slots ∧
    st.nextRef ≤ (spellFailed st).nextRef := by
  unfold spellFailed
  split
  · have hr := refresh_setStatus 0 "Spell failed; step unchanged." true { st with pendingCast := none }
    refine ⟨hr.pendingCast, ?_, hr.nextRef⟩
    unfold setStatus
    split <;> rfl
  · rename_i h
    refine ⟨by simpa using h, rfl, Nat.le_refl _⟩

@[simp] theorem core_spellFailed (st : State) (i : Nat) : core (spellFailed st) i = core st i :=
  core_congr (spellFailed_spec st).2.1 i

end Nostalgia.MacroManager
