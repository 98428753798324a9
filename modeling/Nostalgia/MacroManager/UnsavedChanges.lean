/-
  Nostalgia.MacroManager.UnsavedChanges — `EditorHasUnsavedChanges` against `SaveEditor`
  (DinoMacroManager.lua).

  `PickupSlotMacro` lets a chain be dragged to an action bar only when
  `EditorHasUnsavedChanges` says no. `SaveKeeps` is what that answer stands for: saving
  now succeeds and leaves the slot's settings as they are. Both functions read the same
  widgets. `SaveEditor` closes the gaps between the fields, rejects a reset text that is
  not a number and looks every step up; the check compares field by field and takes the
  default for a text that is not a number.

  - `noChanges_iff`, `saveKeeps_iff`: each function on its own.
  - `unsavedChanges_agrees_iff`: they agree exactly under `Agree`.
  - `unsavedChanges_wrong`: a reset text "abc" over a saved 10 is no change to the check
    and an error to the save.
-/

import Nostalgia.MacroManager.Editor

namespace Nostalgia.MacroManager

open Nostalgia.Lua Nostalgia.Machine

/-! ## What a save checks, as conditions -/

/-- The step can be looked up. -/
def resolves (c : Client) (spell : Spell) : Bool := (resolveSpell c spell).1.isSome

theorem resolves_copySpell (c : Client) (ref : Nat) (spell : Spell) :
    resolves c (copySpell ref spell) = resolves c spell := by
  unfold resolves resolveSpell copySpell spellMatches
  dsimp only
  cases spell.command with
  | some k => cases k <;> rfl
  | none =>
    dsimp only
    split
    · rfl
    · split <;> rfl

/-- The loop succeeds exactly when every key it visits has a step that can be looked up:
    the steps it rewrites are not visited again. -/
theorem resolveAll_ok_iff (c : Client) : ∀ (l : List Nat) (compact : Arr Spell), l.Nodup →
    ((∃ steps, resolveAll c l compact = .ok steps) ↔
      ∀ i ∈ l, ∃ spell, get compact i = some spell ∧ resolves c spell = true) := by
  intro l
  induction l with
  | nil => intro compact _; simp [resolveAll]
  | cons i rest ih =>
    intro compact hnd
    obtain ⟨hni, hnd⟩ := List.nodup_cons.mp hnd
    rw [List.forall_mem_cons]
    cases hget : get compact i with
    | none => simp [resolveAll, hget]
    | some spell =>
      cases hres : resolveSpell c spell with
      | mk found spell' =>
        have hr : resolves c spell = found.isSome := by rw [resolves, hres]
        cases found with
        | none => simp [resolveAll, hget, hres, hr]
        | some r =>
          simp only [resolveAll, hget, hres]
          rw [ih _ hnd]
          have hsame : ∀ j ∈ rest, get (put compact i spell') j = get compact j :=
            fun j hj => get_put_ne _ _ (fun he => hni (he ▸ hj))
          constructor
          · intro h
            exact ⟨⟨spell, rfl, by rw [hr]; rfl⟩, fun j hj => by rw [← hsame j hj]; exact h j hj⟩
          · rintro ⟨_, h⟩ j hj
            rw [hsame j hj]
            exact h j hj

/-- A property of every entry, key by key. -/
theorem forall_keys {α : Type*} {t : Arr α} (hfull : Full t) (p : α → Prop) :
    (∀ i ∈ List.range' 1 (getn t), ∃ a, get t i = some a ∧ p a) ↔ ∀ a, some a ∈ t → p a := by
  simp only [List.mem_range'_1]
  constructor
  · intro h a ha
    obtain ⟨k, hk⟩ := List.mem_iff_getElem?.mp ha
    have hlt := (List.getElem?_eq_some_iff.mp hk).1
    rw [← getn_eq_length hfull] at hlt
    obtain ⟨b, hb, hp⟩ := h (k + 1) (by omega)
    simp only [Lua.get, hk, Option.join_some] at hb
    cases hb
    exact hp
  · intro h i hi
    obtain ⟨a, ha⟩ := get_isSome t hi.1 (by omega)
    exact ⟨a, ha, h a (get_mem ha)⟩

/-- `SaveEditor` accepts 2 to 4 non-empty fields that can all be looked up and a number in range. -/
theorem checkEditor_ok_iff (c : Client) (st : State) (resetSeconds : ℚ) :
    (∃ steps, checkEditor c st = .ok (steps, resetSeconds)) ↔
      MIN_SPELLS ≤ (editorSteps st).length ∧ (∀ spell ∈ editorSteps st, resolves c spell = true) ∧
        tonumber st.resetEdit = some resetSeconds ∧ validReset resetSeconds = true := by
  have hle := editorSteps_length st
  obtain ⟨hfull, hlength, _⟩ := compactSteps_spec (st.nextRef + 1) (editorSteps st) (st.nextRef + 1) []
    (by simp [Full]) (Nat.le_refl _) (by simp)
  have hmap := compactSteps_entries (resolves c) (resolves_copySpell c) (editorSteps st) (st.nextRef + 1) [] (by simp [Full])
  generalize hcompact : compactSteps (st.nextRef + 1) (editorSteps st) [] = compact at hfull hlength hmap
  have hcount : getn compact = (editorSteps st).length := by
    rw [getn_eq_length hfull, hlength, List.length_nil, Nat.zero_add]
  -- looking the copies up is looking the entries up
  have hall : (∃ steps, resolveAll c (List.range' 1 (getn compact)) compact = .ok steps) ↔
      ∀ spell ∈ editorSteps st, resolves c spell = true := by
    rw [resolveAll_ok_iff c _ _ (List.nodup_range' ..), forall_keys hfull]
    constructor
    · intro h spell hspell
      have hmem : some (resolves c spell) ∈ mapEntries (resolves c) compact := by
        rw [hmap]
        exact List.mem_append_right _ (List.mem_map_of_mem hspell)
      obtain ⟨x, hx, hxe⟩ := List.mem_map.mp hmem
      obtain ⟨a, rfl, ha⟩ := Option.map_eq_some_iff.mp hxe
      rw [← ha]
      exact h a hx
    · intro h a ha
      have hmem : some (resolves c a) ∈ mapEntries (resolves c) compact := List.mem_map_of_mem ha
      rw [hmap] at hmem
      rcases List.mem_append.mp hmem with hnil | hmem
      · cases hnil
      · obtain ⟨spell, hspell, he⟩ := List.mem_map.mp hmem
        rw [← Option.some.inj he]
        exact h spell hspell
  unfold checkEditor
  simp only [hcompact]
  split
  · rename_i hrange
    constructor
    · rintro ⟨steps, h⟩
      cases h
    · rintro ⟨hmin, _⟩
      omega
  · rename_i hrange
    have hmin : MIN_SPELLS ≤ (editorSteps st).length := by omega
    rw [← hall]
    cases hres : resolveAll c (List.range' 1 (getn compact)) compact with
    | error i => simp
    | ok steps =>
      dsimp only
      cases hreset : (tonumber st.resetEdit).filter validReset with
      | none =>
        constructor
        · rintro ⟨steps, h⟩
          cases h
        · rintro ⟨_, _, hnumber, hvalid⟩
          rw [hnumber, Option.filter_some_pos hvalid] at hreset
          cases hreset
      | some r =>
        obtain ⟨hnumber, hvalid⟩ := Option.filter_eq_some_iff.mp hreset
        constructor
        · rintro ⟨steps', h⟩
          cases h
          exact ⟨hmin, ⟨steps, rfl⟩, hnumber, hvalid⟩
        · rintro ⟨_, _, hnumber', _⟩
          rw [hnumber] at hnumber'
          cases hnumber'
          exact ⟨steps, rfl⟩

/-! ## The two functions -/

/-- Saving now succeeds and leaves the settings of slot `i` as they are. -/
def SaveKeeps (c : Client) (st : State) (i : Nat) : Prop :=
  saveReport c st = some (.ok i) ∧ settings (saveEditor c st) i = settings st i

/-- Name, check box and non-empty fields are the slot's. -/
structure WidgetsMatch (st : State) (slot : Slot) : Prop where
  name : st.nameEdit = slot.name
  targetReset : st.targetResetCheck = slot.resetOnTargetChange
  chain : (fields st).filter Option.isSome = mapEntries content slot.spells.steps

theorem get_fields {st : State} {i : Nat} (h1 : 1 ≤ i) (h4 : i ≤ MAX_SPELLS) :
    get (fields st) i = (st.editorSpells i).map content := by
  unfold MAX_SPELLS at h4
  interval_cases i <;> rfl

/-- A field compares equal to a saved step exactly when it says the same. -/
theorem fieldDiffers_eq_false (e : Option Spell) (sSpell : Spell) :
    fieldDiffers e (some sSpell) = false ↔ e.map content = some (content sSpell) := by
  cases e with
  | none => simp [fieldDiffers]
  | some eSpell =>
    simp only [fieldDiffers, content, Option.map_some, Option.some.injEq, Content.mk.injEq, Bool.or_eq_false_iff,
      bne_eq_false_iff_eq]
    tauto

theorem saveKeeps_iff {c : Client} {st : State} {i : Nat} {slot : Slot} (he : st.editorSlot = some i)
    (hs : st.slots i = some slot) (h2 : MIN_SPELLS ≤ getn slot.spells.steps) (hfull : Full slot.spells.steps) :
    SaveKeeps c st i ↔
      WidgetsMatch st slot ∧ (∀ spell ∈ editorSteps st, resolves c spell = true) ∧
        tonumber st.resetEdit = some slot.resetSeconds ∧ validReset slot.resetSeconds = true := by
  constructor
  · rintro ⟨hreport, hkept⟩
    obtain ⟨resetSeconds, hnumber, hvalid, hsettings⟩ := (saveEditor_ok hreport).settings
    rw [hkept, settings_of_slot hs] at hsettings
    simp only [settingsOf, Option.some.injEq, Settings.mk.injEq] at hsettings
    obtain ⟨hname, hchain, hreset, htarget⟩ := hsettings
    refine ⟨⟨hname.symm, htarget.symm, hchain.symm⟩, ?_, by rw [hnumber, hreset], by rw [hreset]; exact hvalid⟩
    have hrep := saveEditor_report c st
    rw [hreport] at hrep
    obtain ⟨steps, r, _, hcheck, _, _⟩ := hrep
    exact ((checkEditor_ok_iff c st r).mp ⟨steps, hcheck⟩).2.1
  · rintro ⟨hmatch, hresolves, hnumber, hvalid⟩
    have hlength : (editorSteps st).length = getn slot.spells.steps := by
      have hl := congrArg List.length hmatch.chain
      rwa [fields_filter, List.length_map, length_mapEntries, ← getn_eq_length hfull] at hl
    obtain ⟨steps, hcheck⟩ := (checkEditor_ok_iff c st slot.resetSeconds).mpr
      ⟨by omega, hresolves, hnumber, hvalid⟩
    have hreport : saveReport c st = some (.ok i) := by simp [saveReport, he, hcheck, hs]
    refine ⟨hreport, ?_⟩
    obtain ⟨r, hr, _, hsettings⟩ := (saveEditor_ok hreport).settings
    rw [hnumber] at hr
    cases hr
    rw [hsettings, settings_of_slot hs, settingsOf, hmatch.name, hmatch.targetReset, hmatch.chain]

/-- The check says no change exactly when the widgets match, the reset time read with its
    default is the slot's, and no field is empty before a filled one. -/
theorem noChanges_iff {st : State} {i : Nat} {slot : Slot} (hf : st.frames = true) (he : st.editorSlot = some i)
    (hs : st.slots i = some slot) (h2 : MIN_SPELLS ≤ getn slot.spells.steps) (h4 : getn slot.spells.steps ≤ MAX_SPELLS)
    (hfull : Full slot.spells.steps) :
    editorHasUnsavedChanges st = false ↔
      WidgetsMatch st slot ∧ (tonumber st.resetEdit).getD DEFAULT_RESET = slot.resetSeconds ∧ ¬ Hole (fields st) := by
  have hcount : (mapEntries content slot.spells.steps).length = getn slot.spells.steps := by
    rw [length_mapEntries, getn_eq_length hfull]
  have hfields : ((fields st).filter Option.isSome).length = (editorSteps st).length := by
    rw [fields_filter, List.length_map]
  have htable := filter_isSome_eq_iff (fields st) (full_mapEntries (f := content).mpr hfull)
  rw [hfields, hcount] at htable
  -- the loop over the fields compares the two tables key by key
  have hloop : (editorSteps st).length = getn slot.spells.steps →
      ((List.range' 1 (editorSteps st).length).any
          (fun i => fieldDiffers (st.editorSpells i) (get slot.spells.steps i)) = false ↔
        ∀ i, 1 ≤ i → i ≤ getn slot.spells.steps →
          get (fields st) i = get (mapEntries content slot.spells.steps) i) := by
    intro hlen
    rw [List.any_eq_false, hlen]
    refine forall_congr' fun j => ?_
    rw [List.mem_range'_1, Bool.not_eq_true]
    constructor
    · intro h h1 hj
      obtain ⟨sSpell, hsSpell⟩ := get_isSome slot.spells.steps h1 hj
      have hsame := h (by omega)
      rw [hsSpell, fieldDiffers_eq_false] at hsame
      rw [get_fields h1 (Nat.le_trans hj h4), hsame, get_mapEntries, hsSpell]
      rfl
    · intro h hj
      obtain ⟨sSpell, hsSpell⟩ := get_isSome slot.spells.steps (i := j) hj.1 (by omega)
      have hsame := h hj.1 (by omega)
      rw [get_fields hj.1 (by omega), get_mapEntries, hsSpell] at hsame
      rw [hsSpell, fieldDiffers_eq_false]
      exact hsame
  unfold editorHasUnsavedChanges
  rw [he]
  dsimp only
  rw [hs]
  simp only [currentName, currentReset, currentTargetReset, hf, if_true, Bool.true_and]
  constructor
  · intro h
    split at h
    · cases h
    · rename_i hname
      split at h
      · cases h
      · rename_i hreset
        split at h
        · cases h
        · rename_i htarget
          split at h
          · cases h
          · rename_i hlen
            split at h
            · cases h
            · rename_i hany
              have hlen := not_not.mp hlen
              obtain ⟨hchain, hhole⟩ := htable.mpr ⟨hlen, (hloop hlen).mp (Bool.not_eq_true _ ▸ hany)⟩
              exact ⟨⟨not_not.mp hname, not_not.mp htarget, hchain⟩, not_not.mp hreset, hhole⟩
  · rintro ⟨hmatch, hreset, hhole⟩
    obtain ⟨hlen, hkeys⟩ := htable.mp ⟨hmatch.chain, hhole⟩
    rw [if_neg (not_not.mpr hmatch.name), if_neg (not_not.mpr hreset), if_neg (not_not.mpr hmatch.targetReset),
      if_neg (not_not.mpr hlen), (hloop hlen).mpr hkeys]
    simp
    omega

/-! ## Where they agree -/

/-- The condition: the widgets differ from the slot anyway; or the reset text is no number,
    and the saved time is not the default or a field is empty before a filled one; or it is
    another number; or no field is empty before a filled one exactly when every step can be
    looked up and the saved time is in range. -/
def Agree (c : Client) (st : State) (slot : Slot) : Prop :=
  WidgetsMatch st slot →
    match tonumber st.resetEdit with
    | none => slot.resetSeconds = DEFAULT_RESET → Hole (fields st)
    | some r => r = slot.resetSeconds →
        (¬ Hole (fields st) ↔
          (∀ spell ∈ editorSteps st, resolves c spell = true) ∧ validReset slot.resetSeconds = true)

/-- For every editor content and every saved chain of 2 to 4 steps the check agrees with
    what saving does exactly under `Agree`. -/
theorem unsavedChanges_agrees_iff (c : Client) (st : State) (i : Nat) (slot : Slot) (hf : st.frames = true)
    (he : st.editorSlot = some i) (hs : st.slots i = some slot) (h2 : MIN_SPELLS ≤ getn slot.spells.steps)
    (h4 : getn slot.spells.steps ≤ MAX_SPELLS) (hfull : Full slot.spells.steps) :
    (editorHasUnsavedChanges st = false ↔ SaveKeeps c st i) ↔ Agree c st slot := by
  rw [noChanges_iff hf he hs h2 h4 hfull, saveKeeps_iff he hs h2 hfull, Agree]
  by_cases hmatch : WidgetsMatch st slot
  · cases hnumber : tonumber st.resetEdit with
    | none =>
      simp only [hmatch, true_and, Option.getD_none, reduceCtorEq, false_and, and_false, iff_false, not_and, not_not,
        forall_const]
      rw [eq_comm]
    | some r =>
      simp only [hmatch, true_and, Option.getD_some, Option.some.injEq, forall_const]
      tauto
  · simp only [hmatch, false_and, false_imp_iff]

/-! ## Where they do not -/

/-- The saved chain of two commands opened again, with `resetEdit` in the reset field. -/
def reopened (resetEdit : String) : State :=
  run editorStep emptySlots
    (twoCommands ++ [(bookClient 2, .openEditor 1), (bookClient 2, .typeTexts "" resetEdit false)])

/-- The slot is one the check and the save are about. -/
theorem reopened_slot (resetEdit : String) :
    (reopened resetEdit).frames = true ∧ (reopened resetEdit).editorSlot = some 1 ∧
      ∃ slot, (reopened resetEdit).slots 1 = some slot ∧ MIN_SPELLS ≤ getn slot.spells.steps ∧
        getn slot.spells.steps ≤ MAX_SPELLS ∧ Full slot.spells.steps ∧
        ∀ a, some a ∈ slot.spells.steps → resolves (bookClient 2) a = true := by
  -- the typed text is none of this
  have hslots : (reopened resetEdit).slots 1 = (reopened "").slots 1 := rfl
  have hsame : (reopened resetEdit).frames = (reopened "").frames ∧
      (reopened resetEdit).editorSlot = (reopened "").editorSlot := ⟨rfl, rfl⟩
  have hopen : (reopened "").frames = true ∧ (reopened "").editorSlot = some 1 := by decide +kernel
  have hfacts : ∃ slot ∈ (reopened "").slots 1, (MIN_SPELLS ≤ getn slot.spells.steps ∧
      getn slot.spells.steps ≤ MAX_SPELLS) ∧ (∀ x ∈ slot.spells.steps, x.isSome = true) ∧
      ∀ x ∈ slot.spells.steps, x.all (resolves (bookClient 2)) = true := by decide +kernel
  obtain ⟨slot, hs, hcount, hfull, hres⟩ := hfacts
  exact ⟨hsame.1.trans hopen.1, hsame.2.trans hopen.2, slot, hslots.trans hs, hcount.1, hcount.2, hfull, fun a ha => by simpa using hres _ ha⟩

/-- With "abc" for the reset time over a saved 10 the check says no change, and a save is
    refused. -/
theorem unsavedChanges_wrong :
    ¬ ∀ (c : Client) (st : State) (i : Nat) (slot : Slot), st.frames = true → st.editorSlot = some i →
      st.slots i = some slot → MIN_SPELLS ≤ getn slot.spells.steps → getn slot.spells.steps ≤ MAX_SPELLS →
      Full slot.spells.steps → (∀ a, some a ∈ slot.spells.steps → resolves c a = true) →
      (editorHasUnsavedChanges st = false ↔ SaveKeeps c st i) := by
  intro h
  obtain ⟨hf, he, slot, hs, h2, h4, hfull, hres⟩ := reopened_slot "abc"
  have hsame : editorHasUnsavedChanges (reopened "abc") = false := by decide +kernel
  have hkeeps := (h (bookClient 2) (reopened "abc") 1 slot hf he hs h2 h4 hfull hres).mp hsame
  have hrefused : saveReport (bookClient 2) (reopened "abc") =
      some (.error "Reset time must be between 0 and 3600 seconds.") := by decide +kernel
  rw [hkeeps.1] at hrefused
  cases hrefused

/-- With the number that was saved there is no change, and a save keeps everything. -/
theorem reopened_agrees :
    editorHasUnsavedChanges (reopened "10") = false ∧ SaveKeeps (bookClient 2) (reopened "10") 1 := by
  obtain ⟨hf, he, slot, hs, h2, h4, hfull, _⟩ := reopened_slot "10"
  have hsame : editorHasUnsavedChanges (reopened "10") = false := by decide +kernel
  have hreset : tonumber (reopened "10").resetEdit = some 10 := by decide +kernel
  have hsteps : ∀ spell ∈ editorSteps (reopened "10"), resolves (bookClient 2) spell = true := by decide +kernel
  have hhole : ¬ Hole (fields (reopened "10")) := ((noChanges_iff hf he hs h2 h4 hfull).mp hsame).2.2
  have hagree : Agree (bookClient 2) (reopened "10") slot := by
    unfold Agree
    rw [hreset]
    rintro _ hsaved
    refine ⟨fun _ => ⟨hsteps, ?_⟩, fun _ => hhole⟩
    rw [← hsaved]
    decide +kernel
  have hiff := (unsavedChanges_agrees_iff (bookClient 2) (reopened "10") 1 slot hf he hs h2 h4 hfull).mpr hagree
  exact ⟨hsame, hiff.mp hsame⟩

end Nostalgia.MacroManager
