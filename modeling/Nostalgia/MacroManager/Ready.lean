/-
  Nostalgia.MacroManager.Ready — the steps skipping passes over and the steps a trigger
  can start (DinoMacroManager.lua).

  `TriggerSlot` takes the step `GetEffectiveStep` chooses and tests it again by rules of
  its own (`ready`). Skipping passes over a spell only for a cooldown longer than 1.5
  seconds: while the global cooldown runs, a chain waits at its step.
  - `available_of_ready`: skipping passes over no step that is ready.
  - `available_iff`: among enabled spells, what it does not pass over is ready or only
    held up.
  - `trigger_starts_first_passed`: a trigger starts the first step not passed over
    exactly if that one is ready, and then it is the first ready step in cyclic order.
  - `global_cooldown_is_waited_for`: a trigger that starts nothing while a later step is
    ready.
-/

import Nostalgia.MacroManager.Failure

namespace Nostalgia.MacroManager

open Nostalgia.Lua Nostalgia.Machine

/-! ## The tests of a trigger -/

/-- The entry passes `TriggerSlot`'s own tests: it resolves, its spell is enabled and has
    no running cooldown, its command's pet and target conditions hold. -/
def ready (c : Client) (entry : Spell) : Bool :=
  match resolveSpell c entry with
  | (none, _) => false
  | (some book, spell) =>
    !(stepCooldown c spell book).blocks c.getTime &&
      (if isPetAttack spell then !noActivePet c && !noAttackableTarget c
        else if isBotAttack spell then !noAttackableTarget c
        else true)

/-- What `TriggerSlot` asks of the client for an entry. -/
def issue (spell : Spell) : Issued :=
  if isPetAttack spell then .petAttack
  else if isBotAttack spell then .botAttack
  else .castSpellByName (castName spell)

/-- The cooldown `GetSpellCooldown` answers for an entry; a command has none. -/
def spellCooldown (c : Client) (entry : Spell) : Option Cooldown :=
  match resolveSpell c entry with
  | (some (.index i), spell) => some (c.getSpellCooldown i (spell.bookType.getD BOOKTYPE))
  | _ => none

/-- Not ready, but nothing skipping looks at is in the way: a cooldown of at most 1.5
    seconds is running, or the client has no `PetAttack` to resolve. -/
def heldUp (c : Client) (entry : Spell) : Bool :=
  if isPetAttack entry then !c.hasPetAttack && !(noActivePet c || noAttackableTarget c)
  else (spellCooldown c entry).any fun cd => cd.running 0 c.getTime && !cd.running (3 / 2) c.getTime

/-! ## Looking steps up twice -/

theorem isCommand_iff (spell : Spell) : isCommand spell = false ↔ spell.command = none := by
  unfold isCommand isPetAttack isBotAttack
  cases spell.command with
  | none => simp
  | some k => cases k <;> decide

theorem resolveSpell_spell {c : Client} {spell : Spell} (h : spell.command = none) :
    resolveSpell c spell = (none, spell) ∨ ∃ index bookType, spellMatches c index bookType spell = true ∧
      resolveSpell c spell = (some (.index index), cacheIndex c index bookType spell) := by
  unfold resolveSpell
  rw [h]
  dsimp only
  split
  · rename_i oldIndex hfilter
    exact Or.inr ⟨oldIndex, _, (Option.filter_eq_some_iff.mp hfilter).2, rfl⟩
  · split
    · rename_i index hfind
      exact Or.inr ⟨index, _, List.find?_some (p := fun x => spellMatches c x (spell.bookType.getD BOOKTYPE) spell) hfind, rfl⟩
    · exact Or.inl rfl

theorem resolveSpell_hit {c : Client} {spell : Spell} {index : Nat} {bookType : BookType} (hk : spell.command = none)
    (hi : spell.bookIndex = some index) (ht : spell.bookType = some bookType)
    (hmatch : spellMatches c index bookType spell = true) :
    resolveSpell c spell = (some (.index index), cacheIndex c index bookType spell) := by
  have hfilter : spell.bookIndex.filter (spellMatches c · bookType spell) = some index := by simp [hi, hmatch]
  unfold resolveSpell
  rw [hk]
  simp only [ht, Option.getD_some, hfilter]

theorem cacheIndex_again (c : Client) (index : Nat) (bookType : BookType) (spell : Spell) :
    cacheIndex c index bookType (cacheIndex c index bookType spell) = cacheIndex c index bookType spell := by
  unfold cacheIndex
  cases c.getSpellTexture index bookType with
  | none => rfl
  | some icon => rfl

/-- An entry just looked up is found again at the same index. -/
theorem resolveSpell_again (c : Client) (spell : Spell) : resolveSpell c (resolveSpell c spell).2 = resolveSpell c spell := by
  cases hk : spell.command with
  | none =>
    rcases resolveSpell_spell (c := c) hk with h | ⟨index, bookType, hmatch, h⟩
    · rw [h]
      exact h
    · have hcached : (cacheIndex c index bookType spell).command = none := hk
      rw [h, resolveSpell_hit hcached rfl rfl hmatch, cacheIndex_again]
  | some k => cases k <;> simp [resolveSpell, hk]

theorem unavailable_lookup (c : Client) (spell : Spell) :
    (isSpellOnCooldownOrUnavailable c spell).2 = spell ∨
      (isSpellOnCooldownOrUnavailable c spell).2 = (resolveSpell c spell).2 := by
  unfold isSpellOnCooldownOrUnavailable
  split
  · exact Or.inl rfl
  · split
    · exact Or.inl rfl
    · split
      · rename_i h
        exact Or.inr (by rw [h])
      · rename_i h
        exact Or.inr (by rw [h])

theorem issue_copy {a b : Spell} (h : IsCopyOf a b) : issue a = issue b := by
  obtain ⟨_, hcommand, hname, hrank⟩ := h
  simp [issue, isPetAttack, isBotAttack, castName, hcommand, hname, hrank]

/-- Skipping leaves alone whether an entry is ready and what it issues. -/
theorem ready_lookup (c : Client) (spell : Spell) : ready c (isSpellOnCooldownOrUnavailable c spell).2 = ready c spell := by
  rcases unavailable_lookup c spell with h | h
  · rw [h]
  · rw [h]
    unfold ready
    rw [resolveSpell_again]

/-! ## Passed over, held up, ready -/

theorem running_mono {cd : Cooldown} {now : ℚ} (h : cd.running (3 / 2) now = true) : cd.running 0 now = true := by
  unfold Cooldown.running at h ⊢
  split at h
  · simp only [Bool.and_eq_true, decide_eq_true_eq] at h ⊢
    exact ⟨by linarith [h.1], h.2⟩
  · cases h

theorem ready_petAttack {c : Client} {entry : Spell} (h : isPetAttack entry = true) :
    ready c entry = (c.hasPetAttack && !(noActivePet c || noAttackableTarget c)) := by
  have hk : entry.command = some .petAttack := by simpa [isPetAttack] using h
  unfold ready resolveSpell
  rw [hk]
  cases c.hasPetAttack <;> simp [stepCooldown, Cooldown.blocks, Cooldown.running, isPetAttack]

theorem ready_botAttack {c : Client} {entry : Spell} (h : isBotAttack entry = true) :
    ready c entry = !noAttackableTarget c := by
  have hk : entry.command = some .botAttack := by simpa [isBotAttack] using h
  unfold ready resolveSpell
  rw [hk]
  simp [stepCooldown, Cooldown.blocks, Cooldown.running, isPetAttack, isBotAttack]

theorem ready_spell {c : Client} {entry : Spell} (h : isCommand entry = false) :
    ready c entry = (spellCooldown c entry).any fun cd => !cd.blocks c.getTime := by
  have hk := (isCommand_iff entry).mp h
  unfold ready spellCooldown
  rcases resolveSpell_spell (c := c) hk with h | ⟨index, bookType, _, h⟩
  · rw [h]
    rfl
  · rw [h]
    simp [stepCooldown, cacheIndex, isPetAttack, isBotAttack, hk]

theorem available_spell {c : Client} {entry : Spell} (h : isCommand entry = false) :
    available c entry = (spellCooldown c entry).any fun cd => !cd.running (3 / 2) c.getTime := by
  have hk := (isCommand_iff entry).mp h
  unfold available isSpellOnCooldownOrUnavailable spellCooldown
  rw [if_neg (by simp [isPetAttack, hk]), if_neg (by simp [isBotAttack, hk])]
  rcases resolveSpell_spell (c := c) hk with h | ⟨index, bookType, _, h⟩
  · rw [h]
    rfl
  · rw [h]
    rfl

/-- The three kinds of entry. -/
theorem kind_cases (entry : Spell) :
    isPetAttack entry = true ∨ (isPetAttack entry = false ∧ isBotAttack entry = true) ∨ isCommand entry = false := by
  unfold isCommand
  cases isPetAttack entry <;> cases isBotAttack entry <;> simp

/-- Skipping passes over no entry that is ready. -/
theorem available_of_ready {c : Client} {entry : Spell} (h : ready c entry = true) : available c entry = true := by
  rcases kind_cases entry with hpet | ⟨hpet, hbot⟩ | hspell
  · rw [ready_petAttack hpet, Bool.and_eq_true] at h
    simp [available, isSpellOnCooldownOrUnavailable, hpet] at h ⊢
    exact h.2
  · rw [ready_botAttack hbot] at h
    simpa [available, isSpellOnCooldownOrUnavailable, hpet, hbot] using h
  · rw [ready_spell hspell] at h
    rw [available_spell hspell]
    cases hcd : spellCooldown c entry with
    | none => simp [hcd] at h
    | some cd =>
      rw [hcd, Option.any_some] at h
      cases hrun : cd.running (3 / 2) c.getTime with
      | true => simp [Cooldown.blocks, running_mono hrun] at h
      | false => simp [hrun]

/-- Among enabled spells, what skipping does not pass over is ready or held up. -/
theorem available_iff {c : Client} {entry : Spell}
    (henabled : ∀ cd, spellCooldown c entry = some cd → cd.enable ≠ some 0) :
    available c entry = (ready c entry || heldUp c entry) := by
  rcases kind_cases entry with hpet | ⟨hpet, hbot⟩ | hspell
  · rw [ready_petAttack hpet]
    simp only [available, isSpellOnCooldownOrUnavailable, heldUp, hpet, if_true]
    cases c.hasPetAttack <;> simp
  · have hcd : spellCooldown c entry = none := by
      have hk : entry.command = some .botAttack := by simpa [isBotAttack] using hbot
      unfold spellCooldown resolveSpell
      rw [hk]
    rw [ready_botAttack hbot]
    simp [available, isSpellOnCooldownOrUnavailable, heldUp, hpet, hbot, hcd]
  · have hpet : isPetAttack entry = false := by
      simp only [isCommand, Bool.or_eq_false_iff] at hspell
      exact hspell.1
    rw [ready_spell hspell, available_spell hspell, heldUp, hpet]
    cases hcd : spellCooldown c entry with
    | none => rfl
    | some cd =>
      have hen : (cd.enable == some 0) = false := by simpa using henabled cd hcd
      simp only [Option.any_some, Cooldown.blocks, hen, Bool.false_or]
      cases hlong : cd.running (3 / 2) c.getTime with
      | true => simp [running_mono hlong]
      | false => simp

/-! ## Starting a step -/

/-- A step that passes the tests is issued, and waits unless the wrapper of
    `CastSpellByName` refused it. -/
theorem castStep_ready {c : Client} {entry spell : Spell} {book : Resolved} (index s : Nat) (st : State)
    (hres : resolveSpell c entry = (some book, spell)) (h : ready c entry = true) :
    (castStep c index s spell book st).1 = some (issue spell) ∧ (castStep c index s spell book st).2.slots = st.slots ∧
      ((∀ r, c.castSpellByName (castName spell) = some r → r = .cast) → ∃ successAt,
        (castStep c index s spell book st).2.pendingCast = some ⟨index, s, spell.ref, c.getTime, successAt⟩) := by
  unfold ready at h
  simp only [hres, Bool.and_eq_true, Bool.not_eq_true'] at h
  obtain ⟨hfree, hkind⟩ := h
  unfold castStep issue
  rw [if_neg (by simp [hfree])]
  dsimp only
  by_cases hpet : isPetAttack spell = true
  · simp only [hpet, if_true, Bool.and_eq_true, Bool.not_eq_true'] at hkind ⊢
    rw [if_neg (by simp [hkind.1]), if_neg (by simp [hkind.2])]
    exact ⟨rfl, rfl, fun _ => ⟨_, rfl⟩⟩
  · rw [if_neg hpet] at hkind ⊢
    by_cases hbot : isBotAttack spell = true
    · simp only [hbot, if_true, Bool.not_eq_true'] at hkind ⊢
      rw [if_neg hpet, if_neg (by simp [hkind])]
      exact ⟨rfl, rfl, fun _ => ⟨_, rfl⟩⟩
    · rw [if_neg hpet, if_neg hbot, if_neg hbot]
      split
      · rename_i hrefused
        refine ⟨rfl, ?_, fun hcast => ?_⟩
        · unfold setStatus
          split <;> rfl
        · cases hcast _ hrefused
      · rename_i hrefused
        refine ⟨rfl, ?_, fun hcast => ?_⟩
        · unfold setStatus
          split <;> rfl
        · cases hcast _ hrefused
      · exact ⟨rfl, rfl, fun _ => ⟨_, rfl⟩⟩

theorem castStep_not_ready {c : Client} {index s : Nat} {entry spell : Spell} {book : Resolved} {st : State}
    (hres : resolveSpell c entry = (some book, spell)) (h : ready c entry = false) :
    (castStep c index s spell book st).1 = none := by
  unfold ready at h
  simp only [hres] at h
  unfold castStep
  split
  · rfl
  · rename_i hblocks
    simp only [Bool.not_eq_true] at hblocks
    simp only [hblocks, Bool.not_false, Bool.true_and] at h
    dsimp only
    split
    · rename_i hpet
      rw [if_pos hpet, Bool.and_eq_false_iff] at h
      split
      · rfl
      · rename_i hactive
        have htarget : noAttackableTarget c = true := by simpa [hactive] using h
        rw [if_pos htarget]
    · rename_i hpet
      rw [if_neg hpet] at h
      split
      · rename_i hbot
        rw [if_pos hbot, Bool.not_eq_false'] at h
        rw [if_pos h]
      · rename_i hbot
        rw [if_neg hbot] at h
        cases h

/-- A trigger of slot `i` starts step `s`: it issues the step's entry, moves the slot to
    it and, unless the cast is refused as a ground spell, waits for it. -/
structure StartsStep (c : Client) (st : State) (i s : Nat) : Prop where
  issued : ∃ slot entry, st.slots i = some slot ∧ get slot.spells.steps s = some entry ∧
    (triggerSlot c i st).1 = some (issue entry)
  position : (core (triggerSlot c i st).2 i).map Core.current = some s
  waits : (∀ name r, c.castSpellByName name = some r → r = .cast) → ∃ p, (triggerSlot c i st).2.pendingCast = some p ∧
    p.slotIndex = i ∧ p.step = s

/-- `startStep` starts the step `GetEffectiveStep` chooses exactly if its entry is ready. -/
theorem startStep_chosen (c : Client) (index : Nat) (st : State) {slot : Slot} {entry : Spell}
    (hget : get slot.spells.steps (getEffectiveStep c slot).1 = some entry) :
    (ready c entry = false → (startStep c index slot st).1 = none) ∧
      (ready c entry = true → (startStep c index slot st).1 = some (issue entry) ∧
        (core (startStep c index slot st).2 index).map Core.current = some (getEffectiveStep c slot).1 ∧
        ((∀ name r, c.castSpellByName name = some r → r = .cast) → ∃ p,
          (startStep c index slot st).2.pendingCast = some p ∧ p.slotIndex = index ∧
            p.step = (getEffectiveStep c slot).1)) := by
  -- the entry the trigger finds is the one skipping may have looked up
  have hentries := getEffectiveStep_entries (fun sp => (ready c sp, issue sp)) (c := c)
    (fun sp => by rw [ready_lookup, issue_copy (unavailable_copy c sp)]) slot
  obtain ⟨found, hfound, hsame⟩ : ∃ found, get (getEffectiveStep c slot).2.spells.steps (getEffectiveStep c slot).1 = some found ∧
      (ready c found, issue found) = (ready c entry, issue entry) := by
    have h := congrArg (fun t => get t (getEffectiveStep c slot).1) hentries
    simp only [get_mapEntries, hget, Option.map_some] at h
    exact Option.map_eq_some_iff.mp h
  obtain ⟨hready, hissue⟩ := Prod.mk.inj hsame
  rw [← hready, ← hissue]
  unfold startStep
  simp only [hfound, Option.map_some]
  rcases hres : resolveSpell c found with ⟨book, spell⟩
  cases book with
  | none =>
    have hno : ready c found = false := by
      unfold ready
      rw [hres]
    exact ⟨fun _ => rfl, fun h => by rw [hno] at h; cases h⟩
  | some book =>
    refine ⟨fun h => castStep_not_ready hres h, fun h => ?_⟩
    obtain ⟨hissued, hslots, hwaits⟩ := castStep_ready index (getEffectiveStep c slot).1
      (setSlot index _ st) hres h
    have hcopy : IsCopyOf spell found := by
      have hcopy := resolveSpell_copy c found
      rwa [hres] at hcopy
    refine ⟨by rw [hissued, issue_copy hcopy], ?_, fun hcast => ?_⟩
    · rw [core_congr hslots, core_setSlot_same]
      rfl
    · obtain ⟨successAt, hp⟩ := hwaits fun r hr => hcast _ r hr
      exact ⟨_, hp, rfl, rfl⟩

/-! ## In cyclic order -/

/-- The steps of a chain in cyclic order from its position, or from step 1 where that is
    off the chain. -/
def stepOrder (slot : Slot) : List Nat :=
  (List.range (getn slot.spells.steps)).map
    (cyclic (getn slot.spells.steps) (normalised (getn slot.spells.steps) slot.current))

/-- The entry at a step is there and has the property. -/
def stepIs (p : Spell → Bool) (steps : Arr Spell) (i : Nat) : Bool := (get steps i).any p

theorem stepIs_true {p : Spell → Bool} {steps : Arr Spell} {i : Nat} :
    stepIs p steps i = true ↔ ∃ entry, get steps i = some entry ∧ p entry = true := by
  unfold stepIs
  cases get steps i with
  | none => simp
  | some entry => simp

theorem find?_of_imp {α : Type*} {p q : α → Bool} (himp : ∀ x, q x = true → p x = true) {x : α} (hq : q x = true) :
    ∀ {l : List α}, l.find? p = some x → l.find? q = some x := by
  intro l h
  induction l with
  | nil => cases h
  | cons y l ih =>
    rw [List.find?_cons] at h ⊢
    cases hy : p y with
    | true =>
      simp only [hy, Option.some.injEq] at h
      rw [h, hq]
    | false =>
      have hno : q y = false := by
        by_contra hyes
        rw [himp y (by simpa using hyes)] at hy
        cases hy
      simp only [hy] at h
      rw [hno]
      exact ih h

theorem mem_stepOrder {slot : Slot} (h : 0 < getn slot.spells.steps) {i : Nat} :
    i ∈ stepOrder slot ↔ 1 ≤ i ∧ i ≤ getn slot.spells.steps := by
  have hn := normalised_mem h slot.current
  unfold stepOrder
  rw [List.mem_map]
  constructor
  · rintro ⟨o, _, rfl⟩
    exact ⟨cyclic_pos _ _ _, cyclic_le h _ _⟩
  · intro ⟨h1, h2⟩
    obtain ⟨o, ho, hi⟩ := cyclic_surj hn.1 hn.2 h1 h2
    exact ⟨o, List.mem_range.mpr ho, hi⟩

/-- What a trigger starts: the chosen step, if it is ready. -/
theorem startStep_first (c : Client) (index : Nat) (st : State) {slot : Slot} (h : 0 < getn slot.spells.steps) :
    ((startStep c index slot st).1.isSome = true ↔
        ∃ s, (stepOrder slot).find? (stepIs (available c) slot.spells.steps) = some s ∧
          stepIs (ready c) slot.spells.steps s = true) := by
  have hle := getEffectiveStep_le c slot h
  obtain ⟨entry, hget⟩ := get_isSome _ hle.1 hle.2
  have hchosen := startStep_chosen c index st hget
  have hfirst := getEffectiveStep_first c slot
  rw [if_neg (by omega)] at hfirst
  have hfind : firstAvailable c (getn slot.spells.steps) (normalised (getn slot.spells.steps) slot.current)
      slot.spells.steps = (stepOrder slot).find? (stepIs (available c) slot.spells.steps) := rfl
  rw [hfind] at hfirst
  constructor
  · intro hstarts
    have hready : ready c entry = true := by
      by_contra hno
      rw [hchosen.1 (by simpa using hno)] at hstarts
      cases hstarts
    have hthere : stepIs (ready c) slot.spells.steps (getEffectiveStep c slot).1 = true :=
      stepIs_true.mpr ⟨entry, hget, hready⟩
    cases hf : (stepOrder slot).find? (stepIs (available c) slot.spells.steps) with
    | some s =>
      rw [hf] at hfirst
      exact ⟨s, rfl, by rwa [hfirst] at hthere⟩
    | none =>
      -- a ready step is available, so one would have been found
      have hno := List.find?_eq_none.mp hf _ ((mem_stepOrder h).mpr hle)
      exact absurd (stepIs_true.mpr ⟨entry, hget, available_of_ready hready⟩) hno
  · rintro ⟨s, hf, hthere⟩
    rw [hf] at hfirst
    obtain ⟨entry', hget', hready⟩ := stepIs_true.mp hthere
    rw [hfirst, Option.getD_some, hget'] at hget
    cases hget
    rw [(hchosen.2 hready).1]
    rfl

/-- A trigger that starts a step starts the chosen one. -/
theorem startStep_starts (c : Client) (index s : Nat) (slot : Slot) (st : State)
    (hf : (stepOrder slot).find? (stepIs (available c) slot.spells.steps) = some s)
    (hready : stepIs (ready c) slot.spells.steps s = true) :
    ∃ entry, get slot.spells.steps s = some entry ∧ (startStep c index slot st).1 = some (issue entry) ∧
      (core (startStep c index slot st).2 index).map Core.current = some s ∧
      ((∀ name r, c.castSpellByName name = some r → r = .cast) → ∃ p,
        (startStep c index slot st).2.pendingCast = some p ∧ p.slotIndex = index ∧ p.step = s) := by
  obtain ⟨entry, hget, hentry⟩ := stepIs_true.mp hready
  have hpos : getn slot.spells.steps ≠ 0 := by
    intro h0
    have hmem := List.mem_of_find?_eq_some hf
    unfold stepOrder at hmem
    rw [h0] at hmem
    simp at hmem
  have hfirst := getEffectiveStep_first c slot
  rw [if_neg hpos] at hfirst
  have hchosen : (getEffectiveStep c slot).1 = s := by
    rw [hfirst]
    exact congrArg (fun o => Option.getD o (normalised (getn slot.spells.steps) slot.current)) hf
  have hstarts := (startStep_chosen c index st (hchosen ▸ hget)).2 hentry
  rw [hchosen] at hstarts
  exact ⟨entry, hget, hstarts⟩

/-! ## Triggers -/

/-- A trigger of the slot starts something exactly if a step is ready, and then the first
    ready one in cyclic order from the position the inactivity reset leaves. -/
def StartsFirstReady (c : Client) (st : State) (i : Nat) (slot : Slot) : Prop :=
  let order := stepOrder (applyTimeReset c.getTime slot).2
  ((triggerSlot c i st).1.isSome = true ↔ ∃ s ∈ order, stepIs (ready c) slot.spells.steps s = true) ∧
    ∀ s, order.find? (stepIs (ready c) slot.spells.steps) = some s → StartsStep c st i s

/-- The step is ready, or held up and waited for. -/
def passed (c : Client) (steps : Arr Spell) (s : Nat) : Bool := stepIs (ready c) steps s || stepIs (heldUp c) steps s

theorem available_eq_passed {c : Client} {steps : Arr Spell}
    (henabled : ∀ s entry cd, get steps s = some entry → spellCooldown c entry = some cd → cd.enable ≠ some 0) :
    stepIs (available c) steps = passed c steps := by
  funext s
  unfold passed stepIs
  cases hget : get steps s with
  | none => rfl
  | some entry => exact available_iff fun cd hcd => henabled s entry cd hget hcd

/-- On a complete chain of enabled spells, with no cast waiting: the trigger starts the
    first step in cyclic order that is ready or held up, exactly if it is ready; that
    step is the first ready one. Where nothing is held up, it starts the first ready step. -/
theorem trigger_starts_first_passed {c : Client} {st : State} {i : Nat} {slot : Slot} (h1 : 1 ≤ i) (h14 : i ≤ SLOT_COUNT)
    (hs : st.slots i = some slot) (hmin : MIN_SPELLS ≤ getn slot.spells.steps) (hmax : getn slot.spells.steps ≤ MAX_SPELLS)
    (hfree : st.pendingCast = none)
    (henabled : ∀ s entry cd, get slot.spells.steps s = some entry → spellCooldown c entry = some cd → cd.enable ≠ some 0) :
    let order := stepOrder (applyTimeReset c.getTime slot).2
    ((triggerSlot c i st).1.isSome = true ↔
        ∃ s, order.find? (passed c slot.spells.steps) = some s ∧ stepIs (ready c) slot.spells.steps s = true) ∧
      (∀ s, order.find? (passed c slot.spells.steps) = some s → stepIs (ready c) slot.spells.steps s = true →
        order.find? (stepIs (ready c) slot.spells.steps) = some s ∧ StartsStep c st i s) ∧
      ((∀ s ∈ order, stepIs (heldUp c) slot.spells.steps s = false) → StartsFirstReady c st i slot) := by
  intro order
  have hcomplete : (coreOf slot).Complete := by
    unfold Core.Complete
    simp only [coreOf, getn_refs]
    exact ⟨hmin, hmax⟩
  have htrigger := triggerSlot_eq c hs (mem_slotNumbers.mpr ⟨h1, h14⟩) hcomplete hfree
  have hpos : 0 < getn (applyTimeReset c.getTime slot).2.spells.steps := by
    rw [applyTimeReset_spells]
    unfold MIN_SPELLS at hmin
    omega
  have hpassed := available_eq_passed henabled
  have hfirst := startStep_first c i (setSlot i (applyTimeReset c.getTime slot).2 st) hpos
  rw [applyTimeReset_spells, hpassed, ← htrigger] at hfirst
  have hstarts : ∀ s, order.find? (passed c slot.spells.steps) = some s → stepIs (ready c) slot.spells.steps s = true →
      StartsStep c st i s := by
    intro s hf hready
    have h := startStep_starts c i s (applyTimeReset c.getTime slot).2
      (setSlot i (applyTimeReset c.getTime slot).2 st)
    rw [applyTimeReset_spells, hpassed, ← htrigger] at h
    obtain ⟨entry, hget, hissued, hposition, hwaits⟩ := h hf hready
    exact ⟨⟨slot, entry, hs, hget, hissued⟩, hposition, hwaits⟩
  have himp : ∀ s, stepIs (ready c) slot.spells.steps s = true → passed c slot.spells.steps s = true := by
    intro s hready
    rw [passed, hready, Bool.true_or]
  refine ⟨hfirst, fun s hf hready => ⟨find?_of_imp himp hready hf, hstarts s hf hready⟩, fun hheld => ?_⟩
  -- with nothing held up, what is passed to the trigger is what is ready
  have hsame : ∀ s ∈ order, passed c slot.spells.steps s = stepIs (ready c) slot.spells.steps s := by
    intro s hmem
    rw [passed, hheld s hmem, Bool.or_false]
  have hfind : order.find? (passed c slot.spells.steps) = order.find? (stepIs (ready c) slot.spells.steps) :=
    List.find?_congr hsame
  refine ⟨hfirst.trans ⟨?_, ?_⟩, fun s hf => hstarts s (hfind.trans hf) (List.find?_some hf)⟩
  · rintro ⟨s, hf, hready⟩
    exact ⟨s, List.mem_of_find?_eq_some hf, hready⟩
  · rintro ⟨s, hmem, hready⟩
    cases hf : order.find? (stepIs (ready c) slot.spells.steps) with
    | none => exact absurd hready (List.find?_eq_none.mp hf s hmem)
    | some s' => exact ⟨s', hfind.trans hf, List.find?_some hf⟩

/-! ## A chain that waits -/

theorem spellCooldown_enabled {c : Client} (h : ∀ i bookType, (c.getSpellCooldown i bookType).enable ≠ some 0) {entry : Spell}
    {cd : Cooldown} (hcd : spellCooldown c entry = some cd) : cd.enable ≠ some 0 := by
  unfold spellCooldown at hcd
  split at hcd
  · cases hcd
    exact h _ _
  · cases hcd

/-- Slot 1 after its first step was cast. -/
def slotOne : Slot := (afterFirst.slots 1).getD (newSlot 0)

theorem slotOne_saved : afterFirst.slots 1 = some slotOne ∧ getn slotOne.spells.steps = 3 := by decide +kernel

theorem trigger_slotOne :
    let c := cooldownClient 4
    let order := stepOrder (applyTimeReset c.getTime slotOne).2
    ((triggerSlot c 1 afterFirst).1.isSome = true ↔
        ∃ s, order.find? (passed c slotOne.spells.steps) = some s ∧ stepIs (ready c) slotOne.spells.steps s = true) ∧
      (∀ s, order.find? (passed c slotOne.spells.steps) = some s → stepIs (ready c) slotOne.spells.steps s = true →
        order.find? (stepIs (ready c) slotOne.spells.steps) = some s ∧ StartsStep c afterFirst 1 s) ∧
      ((∀ s ∈ order, stepIs (heldUp c) slotOne.spells.steps s = false) → StartsFirstReady c afterFirst 1 slotOne) := by
  have henabled : ∀ i bookType, ((cooldownClient 4).getSpellCooldown i bookType).enable ≠ some 0 := by
    intro i bookType
    simp only [cooldownClient]
    split <;> decide
  exact trigger_starts_first_passed (by decide) (by decide) slotOne_saved.1 (by rw [slotOne_saved.2]; decide)
    (by rw [slotOne_saved.2]; decide) afterFirst_triggered.1 fun _ _ _ _ hcd => spellCooldown_enabled henabled hcd

/-- The second spell is on the global cooldown. -/
def globalClient (t : ℚ) : Client :=
  { bookClient t with getSpellCooldown := fun i _ => if i = 2 then ⟨some 3, some (3 / 2), some 1⟩ else ⟨some 0, some 0, some 1⟩ }

/-- Not every trigger starts the first ready step: at step 2, whose spell is on a cooldown
    of 1.5 seconds, the trigger at 4 starts nothing, and step 3 is ready. -/
theorem global_cooldown_is_waited_for :
    ¬ ∀ (c : Client) (st : State) (i : Nat) (slot : Slot), 1 ≤ i → i ≤ SLOT_COUNT → st.slots i = some slot →
      MIN_SPELLS ≤ getn slot.spells.steps → getn slot.spells.steps ≤ MAX_SPELLS → st.pendingCast = none →
      StartsFirstReady c st i slot := by
  intro h
  have hevery := h (globalClient 4) afterFirst 1 slotOne (by decide) (by decide) slotOne_saved.1
    (by rw [slotOne_saved.2]; decide) (by rw [slotOne_saved.2]; decide) afterFirst_triggered.1
  have hthird : 3 ∈ stepOrder (applyTimeReset (globalClient 4).getTime slotOne).2 ∧
      stepIs (ready (globalClient 4)) slotOne.spells.steps 3 = true := by decide +kernel
  have hstarted := hevery.1.mpr ⟨3, hthird⟩
  have hnothing : (triggerSlot (globalClient 4) 1 afterFirst).1.isSome = false := by decide +kernel
  rw [hnothing] at hstarted
  cases hstarted

end Nostalgia.MacroManager
