/-
  Nostalgia.MacroManager.Shown — the step a slot shows and the step it uses
  (DinoMacroManager.lua).

  Four readers of one instant: the slot button, the query of the HUD and the action bar,
  the button's tooltip, and a trigger. Three of them apply the inactivity reset and ask
  `GetEffectiveStep`; the tooltip names the step at the stored `slot.current`.
  - `updateSlotButton_shows`, `onEnter_names`, `triggerSlot_attempts`: the readers' steps
    in what the AddOn shows and does.
  - `reported_eq_button`, `attempted_eq_button`: three of the readers always agree.
  - `views_agree_iff`: in every reachable state all four agree exactly if the slot
    `ShowsStored`.
  - `tooltip_names_skipped_step`: a run after which they do not.
-/

import Nostalgia.MacroManager.FirstFit
import Nostalgia.MacroManager.Failure

namespace Nostalgia.MacroManager

open Nostalgia.Lua Nostalgia.Machine

/-! ## The four readers -/

/-- `DinoMacroManager_GetSlotCurrentSpell`: the entry, its book index, the step and the
    number of steps. -/
def slotCurrentSpell (c : Client) (st : State) (slotIndex : Nat) : Option (Spell × Option Resolved × Nat × Nat) :=
  match st.slots slotIndex with
  | none => none
  | some slot =>
    let slot := (applyTimeReset c.getTime slot).2
    let (cur, slot) := getEffectiveStep c slot
    match get slot.spells.steps cur with
    | none => none
    | some spell =>
      let (bookIndex, spell) := resolveSpell c spell
      some (spell, bookIndex, cur, getn slot.spells.steps)

def reportedStep (c : Client) (st : State) (slotIndex : Nat) : Option Nat :=
  (slotCurrentSpell c st slotIndex).map fun r => r.2.2.1

/-- The step whose icon and number `DMM.UpdateSlotButton` shows; none for "Empty". -/
def buttonStep (c : Client) (st : State) (index : Nat) : Option Nat :=
  match st.slots index with
  | none => none
  | some slot =>
    let slot := (applyTimeReset c.getTime slot).2
    let (cur, slot) := getEffectiveStep c slot
    match get slot.spells.steps cur with
    | none => none
    | some _ => some cur

/-- The lines of the tooltip that the button's `OnEnter` shows. -/
def onEnter (st : State) (index : Nat) : Option (List String) :=
  (st.slots index).map fun slot =>
    [s!"Slot {index}" ++ (if slot.name ≠ "" then " - " ++ slot.name else "")] ++
      (match get slot.spells.steps slot.current with
        | some spell => ["Next step: " ++ spell.name]
        | none => []) ++
      ["Left-click: trigger", "Right-click: edit"]

/-- The step its "Next step" line names. -/
def tooltipStep (st : State) (index : Nat) : Option Nat :=
  (st.slots index).bind fun slot => if (get slot.spells.steps slot.current).isSome then some slot.current else none

/-- The step `DinoMacroManager_TriggerSlot` attempts, if it is not refused before. -/
def attemptedStep (c : Client) (st : State) (index : Nat) : Option Nat :=
  if index < 1 ∨ SLOT_COUNT < index then none
  else
    match st.slots index with
    | none => none
    | some slot =>
      let slot := (applyTimeReset c.getTime slot).2
      let count := getn slot.spells.steps
      if count < MIN_SPELLS ∨ MAX_SPELLS < count then none
      else if st.pendingCast.isSome then none
      else some (getEffectiveStep c slot).1

/-- The four readers of slot `i` agree; a refused trigger attempts no step. -/
structure ViewsAgree (c : Client) (st : State) (i : Nat) : Prop where
  reported : reportedStep c st i = buttonStep c st i
  tooltip : tooltipStep st i = buttonStep c st i
  attempted : ∀ s, attemptedStep c st i = some s → buttonStep c st i = some s

/-! ## The readers' steps in the AddOn's functions -/

/-- The button shows the number of `buttonStep`, or "Invalid" for an entry that does not
    resolve, with the entry's icon. -/
theorem updateSlotButton_shows {c : Client} {index : Nat} {st : State} {slot : Slot} (hf : st.frames = true)
    (hi : index ∈ slotNumbers) (hs : st.slots index = some slot) :
    ∃ b, (updateSlotButton c index st).buttons index = some b ∧
      match buttonStep c st index with
      | none => b.icon = QUESTION_ICON ∧ b.step = "Empty"
      | some cur => ∃ spell,
          get (getEffectiveStep c (applyTimeReset c.getTime slot).2).2.spells.steps cur = some spell ∧
          b.icon = (resolveSpell c spell).2.icon.getD QUESTION_ICON ∧
          b.step = if (resolveSpell c spell).1.isNone then "Invalid"
            else s!"{cur}/{getn (applyTimeReset c.getTime slot).2.spells.steps}" := by
  unfold updateSlotButton buttonStep
  rw [if_pos ⟨hf, hi⟩]
  simp only [hs]
  cases hget : get (getEffectiveStep c (applyTimeReset c.getTime slot).2).2.spells.steps
      (getEffectiveStep c (applyTimeReset c.getTime slot).2).1 with
  | none => exact ⟨_, Function.update_self .., rfl, rfl⟩
  | some spell => exact ⟨_, Function.update_self .., spell, hget, rfl, rfl⟩

/-- The tooltip's second line names the entry at `tooltipStep`, if there is one. -/
theorem onEnter_names {st : State} {index cur : Nat} (h : tooltipStep st index = some cur) :
    ∃ slot spell title, st.slots index = some slot ∧ get slot.spells.steps cur = some spell ∧
      onEnter st index = some [title, "Next step: " ++ spell.name, "Left-click: trigger", "Right-click: edit"] := by
  obtain ⟨slot, hs, h⟩ := Option.bind_eq_some_iff.mp h
  split at h
  · rename_i hsome
    obtain ⟨spell, hget⟩ := Option.isSome_iff_exists.mp hsome
    obtain rfl : slot.current = cur := by simpa using h
    refine ⟨slot, spell, s!"Slot {index}" ++ (if slot.name ≠ "" then " - " ++ slot.name else ""), hs, hget, ?_⟩
    unfold onEnter
    rw [hs, Option.map_some, hget]
    rfl
  · cases h

/-- A trigger attempts a step exactly if it is not refused. -/
theorem attemptedStep_iff {c : Client} {st : State} {i s : Nat} :
    attemptedStep c st i = some s ↔ ¬ Refused st i ∧ ∃ slot, st.slots i = some slot ∧ stepToUse c slot = s := by
  unfold attemptedStep Refused
  rw [mem_slotNumbers]
  split
  · rename_i hout
    refine ⟨fun h => (nomatch h), fun ⟨hno, _⟩ => absurd ?_ hno⟩
    exact Or.inl (by omega)
  · rename_i hin
    cases hs : st.slots i with
    | none => simp
    | some slot =>
      have hn := getn_afterReset c.getTime slot
      simp only [core_of_slot hs, Option.some.injEq, forall_eq']
      unfold Core.Complete
      rw [← hn]
      split
      · rename_i hcount
        refine ⟨fun h => (nomatch h), fun ⟨hno, _⟩ => absurd ?_ hno⟩
        exact Or.inr (Or.inr (by omega))
      · rename_i hcount
        split
        · rename_i hpend
          refine ⟨fun h => (nomatch h), fun ⟨hno, _⟩ => absurd ?_ hno⟩
          refine Or.inr (Or.inl fun h => ?_)
          simp [h] at hpend
        · rename_i hpend
          have hfree : st.pendingCast = none := by simpa using hpend
          have hno : ¬ (¬ (1 ≤ i ∧ i ≤ SLOT_COUNT) ∨ st.pendingCast ≠ none ∨
              ¬ (MIN_SPELLS ≤ getn (applyTimeReset c.getTime slot).2.spells.steps ∧
                getn (applyTimeReset c.getTime slot).2.spells.steps ≤ MAX_SPELLS)) := by
            simp only [hfree, ne_eq, not_true_eq_false, false_or]
            omega
          constructor
          · intro h
            exact ⟨hno, slot, rfl, Option.some.inj h⟩
          · rintro ⟨_, slot', hslot, rfl⟩
            cases hslot
            rfl

/-- The step attempted is the one the trigger moves the slot to and whose cast it arms. -/
theorem triggerSlot_attempts {c : Client} {st : State} {i s : Nat} (h : attemptedStep c st i = some s) :
    ∃ k, core st i = some k ∧
      Started c.getTime i s (k.timeReset c.getTime) (triggerSlot c i st).1 st (triggerSlot c i st).2 := by
  obtain ⟨href, slot, hs, rfl⟩ := attemptedStep_iff.mp h
  obtain ⟨slot', hs', _, _, _, hstart⟩ := @triggerSlot_started c i st href
  rw [hs] at hs'
  cases hs'
  exact ⟨_, core_of_slot hs, hstart⟩

/-! ## Three readers agree -/

theorem reported_eq_button (c : Client) (st : State) (i : Nat) : reportedStep c st i = buttonStep c st i := by
  unfold reportedStep slotCurrentSpell buttonStep
  cases st.slots i with
  | none => rfl
  | some slot =>
    dsimp only
    cases get (getEffectiveStep c (applyTimeReset c.getTime slot).2).2.spells.steps
        (getEffectiveStep c (applyTimeReset c.getTime slot).2).1 with
    | none => rfl
    | some spell => rfl

theorem get_one_of_empty {α : Type*} {t : Arr α} (h : getn t = 0) : get t 1 = none := by
  have hpast := get_past_getn t
  rwa [h] at hpast

/-- The entry is there after the caches are written exactly if it was before. -/
theorem effective_get_isSome (c : Client) (slot : Slot) (i : Nat) :
    (get (getEffectiveStep c slot).2.spells.steps i).isSome = (get slot.spells.steps i).isSome := by
  obtain ⟨steps, he, hr⟩ := getEffectiveStep_slot c slot
  have h := congrArg (fun t => (get t i).isSome) hr
  simpa [get_refs, he] using h

/-- A slot with steps shows the step a trigger would use; an empty one shows none. -/
theorem buttonStep_eq (c : Client) {st : State} {i : Nat} {slot : Slot} (hs : st.slots i = some slot) :
    buttonStep c st i = if getn slot.spells.steps = 0 then none else some (stepToUse c slot) := by
  have hn : getn (applyTimeReset c.getTime slot).2.spells.steps = getn slot.spells.steps := by
    rw [getn_afterReset, coreOf, getn_refs]
  have hsome := effective_get_isSome c (applyTimeReset c.getTime slot).2
  unfold buttonStep
  simp only [hs]
  by_cases h0 : getn slot.spells.steps = 0
  · have hone : (getEffectiveStep c (applyTimeReset c.getTime slot).2).1 = 1 := by
      rw [getEffectiveStep_first, if_pos (hn.trans h0)]
    have hnone : get (getEffectiveStep c (applyTimeReset c.getTime slot).2).2.spells.steps 1 = none := by
      have h := hsome 1
      rw [get_one_of_empty (hn.trans h0)] at h
      simpa using h
    rw [if_pos h0, hone, hnone]
  · have hle := getEffectiveStep_le c (applyTimeReset c.getTime slot).2 (by omega)
    obtain ⟨spell, hget⟩ := get_isSome _ hle.1 hle.2
    have h := hsome (getEffectiveStep c (applyTimeReset c.getTime slot).2).1
    rw [hget] at h
    obtain ⟨spell', hget'⟩ := Option.isSome_iff_exists.mp h
    rw [if_neg h0, hget']
    rfl

theorem attempted_eq_button {c : Client} {st : State} {i s : Nat} (h : attemptedStep c st i = some s) :
    buttonStep c st i = some s := by
  obtain ⟨href, slot, hs, rfl⟩ := attemptedStep_iff.mp h
  obtain ⟨slot', hs', _, _, hcomplete, _⟩ := @triggerSlot_started c i st href
  rw [hs] at hs'
  cases hs'
  unfold Core.Complete MIN_SPELLS at hcomplete
  simp only [coreOf, getn_refs] at hcomplete
  rw [buttonStep_eq c hs, if_neg (by omega)]

/-! ## The tooltip -/

/-- The stored position is where the chain stands now: when the inactivity reset is due,
    it is the first available step from step 1; otherwise the chain keeps its step. -/
def ShowsStored (c : Client) (slot : Slot) : Prop :=
  if (coreOf slot).ResetDue c.getTime then
    stepAvailable c slot.spells.steps slot.current = true ∧
      ∀ j, 1 ≤ j → j < slot.current → stepAvailable c slot.spells.steps j = false
  else KeepsStep c slot

theorem applyTimeReset_due {now : ℚ} {slot : Slot} (h : (coreOf slot).ResetDue now) :
    (applyTimeReset now slot).2 = { slot with current := 1, lastUsed := none } := by
  obtain ⟨lastUsed, hl, hcur, hpos, hle⟩ := h
  have hl' : slot.lastUsed = some lastUsed := hl
  have hcur' : ¬ slot.current = 1 := hcur
  have hpos' : ¬ slot.resetSeconds ≤ 0 := not_le.mpr hpos
  have hle' : slot.resetSeconds ≤ now - lastUsed := hle
  unfold applyTimeReset
  rw [hl']
  dsimp only
  rw [if_neg hcur', if_neg hpos', if_pos hle']

theorem applyTimeReset_not_due {now : ℚ} {slot : Slot} (h : ¬ (coreOf slot).ResetDue now) :
    (applyTimeReset now slot).2 = slot := by
  have hno : (applyTimeReset now slot).1 ≠ true := fun ht => h ((applyTimeReset_core now slot).2.mp ht)
  unfold applyTimeReset at hno ⊢
  split
  · rfl
  · split
    · rfl
    · split
      · rfl
      · split
        · simp_all
        · rfl

theorem cyclic_one {count o : Nat} (h : o < count) : cyclic count 1 o = o + 1 := by
  unfold cyclic
  rw [Nat.sub_self, Nat.zero_add, Nat.mod_eq_of_lt h]

/-- From step 1, a later step is chosen exactly if it is the first available one. -/
theorem effective_from_one_iff (c : Client) {slot : Slot} (h1 : slot.current = 1) {m : Nat} (hm : 1 < m)
    (hle : m ≤ getn slot.spells.steps) :
    (getEffectiveStep c slot).1 = m ↔ stepAvailable c slot.spells.steps m = true ∧
      ∀ j, 1 ≤ j → j < m → stepAvailable c slot.spells.steps j = false := by
  have hnorm : normalised (getn slot.spells.steps) slot.current = 1 := by
    rw [h1]
    unfold normalised
    split <;> rfl
  rw [getEffectiveStep_first, if_neg (by omega), hnorm]
  cases hf : firstAvailable c (getn slot.spells.steps) 1 slot.spells.steps with
  | none =>
    refine ⟨fun h => ?_, fun ⟨hav, _⟩ => ?_⟩
    · simp only [Option.getD_none] at h
      omega
    · obtain ⟨o, ho, rfl⟩ := cyclic_surj (i := m) (Nat.le_refl 1) (by omega) (by omega) hle
      have hno := List.find?_eq_none.mp hf _ (List.mem_map_of_mem (List.mem_range.mpr ho))
      exact absurd hav hno
  | some s =>
    obtain ⟨hs, o, ho, rfl, hbefore⟩ := find_cyclic hf
    rw [cyclic_one ho] at hs ⊢
    simp only [Option.getD_some]
    constructor
    · rintro rfl
      refine ⟨hs, fun j hj1 hj2 => ?_⟩
      have h := hbefore (j - 1) (by omega)
      rwa [cyclic_one (by omega), Nat.sub_add_cancel hj1] at h
    · intro ⟨hav, hno⟩
      rcases Nat.lt_trichotomy (o + 1) m with hlt | heq | hgt
      · rw [hno _ (by omega) hlt] at hs
        cases hs
      · exact heq
      · have h := hbefore (m - 1) (by omega)
        rw [cyclic_one (by omega), Nat.sub_add_cancel (by omega), hav] at h
        cases h

/-- On a chain with steps, the step a trigger would use is the stored one exactly if the
    slot shows where it stands. -/
theorem stepToUse_stored_iff (c : Client) {slot : Slot} (h1 : 1 ≤ slot.current)
    (h2 : slot.current ≤ getn slot.spells.steps) : stepToUse c slot = slot.current ↔ ShowsStored c slot := by
  unfold stepToUse ShowsStored
  by_cases hd : (coreOf slot).ResetDue c.getTime
  · have hne : slot.current ≠ 1 := hd.choose_spec.2.1
    rw [if_pos hd, applyTimeReset_due hd]
    exact @effective_from_one_iff c { slot with current := 1, lastUsed := none } rfl slot.current (by omega) h2
  · rw [if_neg hd, applyTimeReset_not_due hd]
    exact effective_eq_current_iff c slot h1 h2

/-- A slot on its chain agrees in all four readers exactly if it shows where it stands. -/
theorem viewsAgree_iff (c : Client) {st : State} {i : Nat} {slot : Slot} (hs : st.slots i = some slot)
    (hon : (coreOf slot).OnChain) : ViewsAgree c st i ↔ ShowsStored c slot := by
  have htooltip : ViewsAgree c st i ↔ tooltipStep st i = buttonStep c st i :=
    ⟨fun h => h.tooltip, fun h => ⟨reported_eq_button c st i, h, fun _ => attempted_eq_button⟩⟩
  have hcur : 1 ≤ slot.current ∧ slot.current ≤ max 1 (getn slot.spells.steps) := by
    unfold Core.OnChain at hon
    simpa [coreOf] using hon
  rw [htooltip, buttonStep_eq c hs]
  simp only [tooltipStep, hs, Option.bind_some]
  by_cases h0 : getn slot.spells.steps = 0
  · -- an empty chain: nothing is named, and nothing is there to skip
    have hone : slot.current = 1 := by omega
    have hshows : ShowsStored c slot := by
      unfold ShowsStored
      rw [if_neg (Core.not_due_of_one hone)]
      exact Or.inr fun j hj1 hj2 => by omega
    rw [if_pos h0, hone, get_one_of_empty h0]
    simp [hshows]
  · obtain ⟨spell, hget⟩ := get_isSome slot.spells.steps hcur.1 (by omega)
    rw [if_neg h0, hget, ← stepToUse_stored_iff c hcur.1 (by omega)]
    simp only [Option.isSome_some, if_true, Option.some.injEq]
    exact eq_comm

/-! ## Whole runs -/

/-- In every state a run from any saved database reaches, and at every instant of the
    client, the four readers of a slot agree exactly if it shows where it stands. -/
theorem views_agree_iff (db : State) (es : List Step) (c : Client) (i : Nat) (h1 : 1 ≤ i) (h2 : i ≤ SLOT_COUNT) :
    ∃ slot, (run step (initializeDB db) es).slots i = some slot ∧
      (ViewsAgree c (run step (initializeDB db) es) i ↔ ShowsStored c slot) := by
  have hinit := initializeDB_initialized 0 db
  have hstart : Slots Core.OnChain (initializeDB db) :=
    slots_initialized onChain_inv (fun _ _ _ _ => onChain_repaired _ _) hinit
  have hon := @inv_run State Step step (Slots Core.OnChain) (fun _ e h => slots_step onChain_inv h e) es _ hstart
  obtain ⟨k, hk, honk⟩ := hon i (mem_slotNumbers.mpr ⟨h1, h2⟩)
  obtain ⟨slot, hs, rfl⟩ := Option.map_eq_some_iff.mp hk
  exact ⟨slot, hs, viewsAgree_iff c hs honk⟩

/-- With the second spell ready its step is shown, named and attempted. -/
theorem slot_one_agrees : ViewsAgree (bookClient 4) (run step (initializeDB noDB) (buildChain ++ castFirst)) 1 := by
  obtain ⟨slot, hs, hagree⟩ := views_agree_iff noDB (buildChain ++ castFirst) (bookClient 4) 1 (by decide) (by decide)
  have hready : ∀ slot ∈ (run step (initializeDB noDB) (buildChain ++ castFirst)).slots 1,
      ¬ (coreOf slot).ResetDue (bookClient 4).getTime ∧
        stepAvailable (bookClient 4) slot.spells.steps slot.current = true := by decide +kernel
  obtain ⟨hnot, havailable⟩ := hready slot hs
  refine hagree.mpr ?_
  unfold ShowsStored
  rw [if_neg hnot]
  exact Or.inl havailable

/-- Not always: at step 2, whose spell is on cooldown, button and trigger are at step 3
    and the tooltip names step 2. -/
theorem tooltip_names_skipped_step :
    ¬ ∀ (es : List Step) (c : Client) (i : Nat), 1 ≤ i → i ≤ SLOT_COUNT →
      ViewsAgree c (run step (initializeDB noDB) es) i := by
  intro h
  have hagree := (h (buildChain ++ castFirst) (cooldownClient 4) 1 (by decide) (by decide)).tooltip
  have htooltip : tooltipStep (run step (initializeDB noDB) (buildChain ++ castFirst)) 1 = some 2 := by decide +kernel
  have hbutton : buttonStep (cooldownClient 4) (run step (initializeDB noDB) (buildChain ++ castFirst)) 1 = some 3 := by
    decide +kernel
  rw [htooltip, hbutton] at hagree
  cases hagree

end Nostalgia.MacroManager
