/-
  Nostalgia.MacroManager.Chain — one spell chain of DinoMacroManager
  (DinoMacroManager.lua): its steps, the inactivity reset and the choice of a step.

  Actors. `Client` is what the game answers at one instant: the clock, the spell book,
  cooldowns, the pet and the target, the cursor, the action bars. A `Spell` is one step
  of a chain; `ref` is the identity of its Lua table, which `ConfirmPendingCast` compares.
  A `Slot` keeps its chain, the position `current` and the time `lastUsed`.

  `ResolveSpell` rewrites a step's cached book index, book type and icon whenever it
  looks the step up, so everything that looks at steps returns them changed; `IsCopyOf`
  is what it leaves alone.

  Proved:
  - `resolveSpell_copy`, `getEffectiveStep_slot`: looking steps up changes caches only.
  - `getEffectiveStep_first`: the step chosen is the first available one in cyclic order
    from the current position, else the current position itself.
  - `getEffectiveStep_le`: for a chain with steps it is one of them.
-/

import Nostalgia.Lua.Table

namespace Nostalgia.MacroManager

open Nostalgia.Lua

/-! ## Constants -/

def SLOT_COUNT : Nat := 14
def MIN_SPELLS : Nat := 2
def MAX_SPELLS : Nat := 4
def DEFAULT_RESET : ℚ := 10
def SUCCESS_DELAY : ℚ := 12 / 100
def PENDING_TIMEOUT : ℚ := 30
def QUESTION_ICON : String := "Interface\\Icons\\INV_Misc_QuestionMark"
def PET_ATTACK_ICON : String := "Interface\\Icons\\Ability_GhoulFrenzy"
def BOT_ATTACK_ICON : String := "Interface\\Icons\\Ability_Warrior_OffensiveStance"

/-! ## Data -/

inductive BookType where
  | spell
  | pet
  deriving DecidableEq, Repr

def BOOKTYPE : BookType := .spell

/-- The entries with `kind = "command"`. -/
inductive Command where
  | petAttack
  | botAttack
  deriving DecidableEq, Repr

/-- One step. `command = none` is a spell (no `kind`); a missing rank is "". -/
structure Spell where
  ref : Nat
  command : Option Command
  name : String
  rank : String
  bookIndex : Option Nat
  bookType : Option BookType
  icon : Option String
  deriving DecidableEq, Repr

/-- A `spells` table: its identity and its steps. -/
structure Chain where
  ref : Nat
  steps : Arr Spell
  deriving DecidableEq

structure Slot where
  name : String
  current : Nat
  spells : Chain
  resetSeconds : ℚ
  resetOnTargetChange : Bool
  lastUsed : Option ℚ
  invalid : Bool
  deriving DecidableEq

structure Cooldown where
  start : Option ℚ
  duration : Option ℚ
  enable : Option Nat
  deriving DecidableEq

inductive UnitId where
  | pet
  | target
  deriving DecidableEq, Repr

/-- The second result of `CastSpellByName`, which DinoController's wrapper adds. -/
inductive GroundResult where
  | no_target
  | unresolved
  | cast
  deriving DecidableEq, Repr

/-- What holds the cursor: `GetCursorInfo`, where the client has it. -/
inductive Cursor where
  | spell (bookIndex : Nat) (bookType : Option BookType)
  | other
  deriving DecidableEq, Repr

/-- What the game answers at one instant. -/
structure Client where
  getTime : ℚ
  getSpellName : Nat → BookType → Option (String × Option String)
  getSpellTexture : Nat → BookType → Option String
  /-- Offset and number of spells of each spell-book tab. -/
  spellTabs : List (Option Nat × Option Nat)
  getSpellCooldown : Nat → BookType → Cooldown
  isSpellPassive : Nat → BookType → Bool
  /-- `type(PetAttack) == "function"`. -/
  hasPetAttack : Bool
  unitExists : UnitId → Bool
  unitIsDead : UnitId → Bool
  /-- `UnitCanAttack("player", "target")`. -/
  canAttackTarget : Bool
  castSpellByName : String → Option GroundResult
  /-- `none`: the client has no `GetCursorInfo` (1.12). -/
  getCursorInfo : Option Cursor
  cursorHasSpell : Bool
  /-- `GetActionText` of the slot each Blizzard action button shows, in the order
      `UpdateBlizzardCooldowns` visits them. -/
  actionTexts : List (Option String)

/-! ## Looking steps up -/

def isPetAttack (entry : Spell) : Bool := entry.command == some .petAttack
def isBotAttack (entry : Spell) : Bool := entry.command == some .botAttack
def isCommand (entry : Spell) : Bool := isPetAttack entry || isBotAttack entry

def spellMatches (c : Client) (bookIndex : Nat) (bookType : BookType) (spell : Spell) : Bool :=
  match c.getSpellName bookIndex bookType with
  | none => false
  | some (name, rank) => name == spell.name && (spell.rank == "" || rank.getD "" == spell.rank)

/-- The indices the tabs of the spell book cover, in order. -/
def bookIndices (c : Client) : List Nat :=
  c.spellTabs.flatMap fun tab =>
    match tab with
    | (some offset, some numSpells) => List.range' (offset + 1) numSpells
    | _ => []

inductive Resolved where
  | command (k : Command)
  | index (i : Nat)
  deriving DecidableEq, Repr

/-- `spell` with the caches `ResolveSpell` writes after finding it at `index`. -/
def cacheIndex (c : Client) (index : Nat) (bookType : BookType) (spell : Spell) : Spell :=
  { spell with
    bookIndex := some index
    bookType := some bookType
    icon := (c.getSpellTexture index bookType).or spell.icon }

def resolveSpell (c : Client) (spell : Spell) : Option Resolved × Spell :=
  match spell.command with
  | some .petAttack =>
    (if c.hasPetAttack then some (.command .petAttack) else none, { spell with icon := some PET_ATTACK_ICON })
  | some .botAttack => (some (.command .botAttack), { spell with icon := some BOT_ATTACK_ICON })
  | none =>
    let bookType := spell.bookType.getD BOOKTYPE
    match spell.bookIndex.filter (spellMatches c · bookType spell) with
    | some oldIndex => (some (.index oldIndex), cacheIndex c oldIndex bookType spell)
    | none =>
      match (bookIndices c).find? (spellMatches c · bookType spell) with
      | some index => (some (.index index), cacheIndex c index bookType spell)
      | none => (none, spell)

/-- A running cooldown longer than `atLeast`. -/
def Cooldown.running (cd : Cooldown) (atLeast now : ℚ) : Bool :=
  match cd.start, cd.duration with
  | some start, some duration => decide (atLeast < duration) && decide (now < start + duration)
  | _, _ => false

def noActivePet (c : Client) : Bool := !c.unitExists .pet || c.unitIsDead .pet
def noAttackableTarget (c : Client) : Bool :=
  !c.unitExists .target || c.unitIsDead .target || !c.canAttackTarget

def isSpellOnCooldownOrUnavailable (c : Client) (spell : Spell) : Bool × Spell :=
  if isPetAttack spell then (noActivePet c || noAttackableTarget c, spell)
  else if isBotAttack spell then (noAttackableTarget c, spell)
  else
    match resolveSpell c spell with
    | (some (.index bookIndex), spell) =>
      ((c.getSpellCooldown bookIndex (spell.bookType.getD BOOKTYPE)).running (3 / 2) c.getTime, spell)
    | (_, spell) => (true, spell)

/-- The step can be used now, as the skipping of steps sees it. -/
def available (c : Client) (spell : Spell) : Bool := !(isSpellOnCooldownOrUnavailable c spell).1

/-! ## The inactivity reset -/

/-- `DMM.ApplyTimeReset`: whether it reset the slot, and the slot. -/
def applyTimeReset (now : ℚ) (slot : Slot) : Bool × Slot :=
  match slot.lastUsed with
  | none => (false, slot)
  | some lastUsed =>
    if slot.current = 1 then (false, slot)
    else if slot.resetSeconds ≤ 0 then (false, slot)
    else if slot.resetSeconds ≤ now - lastUsed then (true, { slot with current := 1, lastUsed := none })
    else (false, slot)

/-! ## The step to use -/

/-- The loop of `DMM.GetEffectiveStep` over the offsets still to try. -/
def tryOffsets (c : Client) (count current : Nat) : List Nat → Arr Spell → Option Nat × Arr Spell
  | [], steps => (none, steps)
  | offset :: rest, steps =>
    let stepIndex := (current - 1 + offset) % count + 1
    match get steps stepIndex with
    | none => tryOffsets c count current rest steps
    | some spell =>
      let r := isSpellOnCooldownOrUnavailable c spell
      if r.1 then tryOffsets c count current rest (put steps stepIndex r.2)
      else (some stepIndex, put steps stepIndex r.2)

/-- The position `GetEffectiveStep` starts from. -/
def normalised (count current : Nat) : Nat := if current < 1 ∨ count < current then 1 else current

def getEffectiveStep (c : Client) (slot : Slot) : Nat × Slot :=
  let count := getn slot.spells.steps
  if count = 0 then (1, slot)
  else
    let current := normalised count slot.current
    let r := tryOffsets c count current (List.range count) slot.spells.steps
    (r.1.getD current, { slot with spells := { slot.spells with steps := r.2 } })

/-! ## Looking up changes caches only -/

/-- Two entries that differ in `ResolveSpell`'s caches at most. -/
def IsCopyOf (a b : Spell) : Prop := a.ref = b.ref ∧ a.command = b.command ∧ a.name = b.name ∧ a.rank = b.rank

theorem resolveSpell_copy (c : Client) (spell : Spell) : IsCopyOf (resolveSpell c spell).2 spell := by
  unfold resolveSpell
  split
  · exact ⟨rfl, rfl, rfl, rfl⟩
  · exact ⟨rfl, rfl, rfl, rfl⟩
  · dsimp only
    split
    · exact ⟨rfl, rfl, rfl, rfl⟩
    · split
      · exact ⟨rfl, rfl, rfl, rfl⟩
      · exact ⟨rfl, rfl, rfl, rfl⟩

theorem unavailable_copy (c : Client) (spell : Spell) : IsCopyOf (isSpellOnCooldownOrUnavailable c spell).2 spell := by
  have hr := resolveSpell_copy c spell
  unfold isSpellOnCooldownOrUnavailable
  split
  · exact ⟨rfl, rfl, rfl, rfl⟩
  · split
    · exact ⟨rfl, rfl, rfl, rfl⟩
    · split <;> simp_all

/-- The identities of a chain's steps. -/
def refs (steps : Arr Spell) : Arr Nat := mapEntries Spell.ref steps

@[simp] theorem getn_refs (steps : Arr Spell) : getn (refs steps) = getn steps := getn_mapEntries _ _
@[simp] theorem refs_nil : refs [] = [] := rfl

theorem get_refs (steps : Arr Spell) (i : Nat) : get (refs steps) i = (get steps i).map Spell.ref :=
  get_mapEntries _ _ _

theorem refs_put {steps : Arr Spell} {i : Nat} {a b : Spell} (h : get steps i = some a) (hc : IsCopyOf b a) :
    refs (put steps i b) = refs steps :=
  mapEntries_put _ h hc.1

/-- The search leaves alone what looking a step up leaves alone. -/
theorem tryOffsets_entries {β : Type*} (f : Spell → β) (c : Client)
    (hf : ∀ spell, f (isSpellOnCooldownOrUnavailable c spell).2 = f spell)
    (count current : Nat) : ∀ (offsets : List Nat) (steps : Arr Spell),
      mapEntries f (tryOffsets c count current offsets steps).2 = mapEntries f steps := by
  intro offsets
  induction offsets with
  | nil => intro steps; rfl
  | cons offset rest ih =>
    intro steps
    simp only [tryOffsets]
    split
    · exact ih steps
    · rename_i spell hget
      have hput := mapEntries_put f hget (hf spell)
      split
      · rw [ih, hput]
      · exact hput

theorem getEffectiveStep_entries {β : Type*} (f : Spell → β) {c : Client}
    (hf : ∀ spell, f (isSpellOnCooldownOrUnavailable c spell).2 = f spell)
    (slot : Slot) : mapEntries f (getEffectiveStep c slot).2.spells.steps = mapEntries f slot.spells.steps := by
  unfold getEffectiveStep
  dsimp only
  split
  · rfl
  · exact tryOffsets_entries f c hf _ _ _ _

/-- `GetEffectiveStep` changes nothing of the slot but caches. -/
theorem getEffectiveStep_slot (c : Client) (slot : Slot) :
    ∃ steps, (getEffectiveStep c slot).2 = { slot with spells := { slot.spells with steps := steps } } ∧
      refs steps = refs slot.spells.steps := by
  unfold getEffectiveStep
  dsimp only
  split
  · exact ⟨slot.spells.steps, rfl, rfl⟩
  · exact ⟨_, rfl, tryOffsets_entries Spell.ref c (fun spell => (unavailable_copy c spell).1) _ _ _ _⟩

/-! ## The step chosen is the first available one -/

/-- The step at a cyclic distance from `current`. -/
def cyclic (count current offset : Nat) : Nat := (current - 1 + offset) % count + 1

theorem cyclic_pos (count current offset : Nat) : 1 ≤ cyclic count current offset := by simp [cyclic]

theorem cyclic_le {count : Nat} (h : 0 < count) (current offset : Nat) : cyclic count current offset ≤ count :=
  Nat.mod_lt _ h

theorem cyclic_zero {count current : Nat} (h1 : 1 ≤ current) (h2 : current ≤ count) : cyclic count current 0 = current := by
  unfold cyclic
  rw [Nat.add_zero, Nat.mod_eq_of_lt (by omega)]
  omega

/-- Distances below the count give different steps. -/
theorem cyclic_inj {count current a b : Nat} (ha : a < count) (hb : b < count)
    (h : cyclic count current a = cyclic count current b) : a = b := by
  have hmod : (current - 1 + a) ≡ (current - 1 + b) [MOD count] := Nat.add_right_cancel h
  have hab : a ≡ b [MOD count] := Nat.ModEq.add_left_cancel' _ hmod
  rwa [Nat.ModEq, Nat.mod_eq_of_lt ha, Nat.mod_eq_of_lt hb] at hab

/-- Every step is at some distance below the count. -/
theorem cyclic_surj {count current i : Nat} (h1 : 1 ≤ current) (h2 : current ≤ count) (hi1 : 1 ≤ i) (hi2 : i ≤ count) :
    ∃ o < count, cyclic count current o = i := by
  rcases Nat.lt_or_ge i current with hlt | hge
  · refine ⟨i + count - current, by omega, ?_⟩
    have e : current - 1 + (i + count - current) = i - 1 + count := by omega
    rw [cyclic, e, Nat.add_mod_right, Nat.mod_eq_of_lt (by omega)]
    omega
  · refine ⟨i - current, by omega, ?_⟩
    have e : current - 1 + (i - current) = i - 1 := by omega
    rw [cyclic, e, Nat.mod_eq_of_lt (by omega)]
    omega

/-- The step at `i` is present and can be used now. -/
def stepAvailable (c : Client) (steps : Arr Spell) (i : Nat) : Bool := (get steps i).any (available c)

/-- The loop finds the first available step, whatever the caches of the steps already
    visited have become: it visits every step once. -/
theorem tryOffsets_find (c : Client) (count current : Nat) :
    ∀ (offsets : List Nat) (steps : Arr Spell), (offsets.map (cyclic count current)).Nodup →
      (tryOffsets c count current offsets steps).1 =
        (offsets.map (cyclic count current)).find? (stepAvailable c steps) := by
  intro offsets
  induction offsets with
  | nil => intro steps _; rfl
  | cons offset rest ih =>
    intro steps hnd
    obtain ⟨hni, hnd⟩ := List.nodup_cons.mp hnd
    simp only [tryOffsets, List.map_cons, List.find?_cons]
    split
    · rename_i hget
      have hno : stepAvailable c steps (cyclic count current offset) = false := by
        unfold stepAvailable cyclic; rw [hget]; rfl
      rw [hno]
      exact ih steps hnd
    · rename_i spell hget
      have hav : stepAvailable c steps (cyclic count current offset) = available c spell := by
        unfold stepAvailable cyclic; rw [hget]; rfl
      rw [hav, available]
      split
      · rename_i hun
        rw [hun, ih _ hnd]
        -- the steps still to visit are not the one just rewritten
        refine List.find?_congr fun x hx => ?_
        have hne : x ≠ (current - 1 + offset) % count + 1 := by rintro rfl; exact hni hx
        simp only [stepAvailable, get_put_ne _ _ hne]
      · rename_i hun
        rw [Bool.not_eq_true _ |>.mp hun]
        rfl

/-- The step `GetEffectiveStep` chooses, said without the loop and its caches. -/
def firstAvailable (c : Client) (count current : Nat) (steps : Arr Spell) : Option Nat :=
  ((List.range count).map (cyclic count current)).find? (stepAvailable c steps)

theorem getEffectiveStep_first (c : Client) (slot : Slot) :
    (getEffectiveStep c slot).1 =
      if getn slot.spells.steps = 0 then 1
      else (firstAvailable c (getn slot.spells.steps) (normalised (getn slot.spells.steps) slot.current)
        slot.spells.steps).getD (normalised (getn slot.spells.steps) slot.current) := by
  unfold getEffectiveStep
  dsimp only
  split
  · rfl
  · rw [tryOffsets_find, firstAvailable]
    exact List.Nodup.map_on (fun a ha b hb h => cyclic_inj (List.mem_range.mp ha) (List.mem_range.mp hb) h)
      List.nodup_range

theorem normalised_mem {count : Nat} (h : 0 < count) (current : Nat) :
    1 ≤ normalised count current ∧ normalised count current ≤ count := by
  unfold normalised
  split <;> omega

/-- For a chain with steps the step chosen is one of them. -/
theorem getEffectiveStep_le (c : Client) (slot : Slot) (h : 0 < getn slot.spells.steps) :
    1 ≤ (getEffectiveStep c slot).1 ∧ (getEffectiveStep c slot).1 ≤ getn slot.spells.steps := by
  rw [getEffectiveStep_first, if_neg (by omega)]
  cases hf : firstAvailable c (getn slot.spells.steps) (normalised (getn slot.spells.steps) slot.current)
      slot.spells.steps with
  | none => exact normalised_mem h _
  | some s =>
    obtain ⟨o, _, rfl⟩ := List.mem_map.mp (List.mem_of_find?_eq_some hf)
    exact ⟨cyclic_pos _ _ _, cyclic_le h _ _⟩

/-- The chain stays where it is: the current step can be used, or no step can. -/
def KeepsStep (c : Client) (slot : Slot) : Prop :=
  stepAvailable c slot.spells.steps slot.current = true ∨
    ∀ i, 1 ≤ i → i ≤ getn slot.spells.steps → stepAvailable c slot.spells.steps i = false

/-- With the position on a step, the step chosen is the current one exactly when that
    one is available or none is. -/
theorem effective_eq_current_iff (c : Client) (slot : Slot) (h1 : 1 ≤ slot.current)
    (h2 : slot.current ≤ getn slot.spells.steps) :
    (getEffectiveStep c slot).1 = slot.current ↔ KeepsStep c slot := by
  have hnorm : normalised (getn slot.spells.steps) slot.current = slot.current := by
    unfold normalised; rw [if_neg (by omega)]
  rw [getEffectiveStep_first, if_neg (by omega), hnorm]
  constructor
  · intro h
    cases hf : firstAvailable c (getn slot.spells.steps) slot.current slot.spells.steps with
    | some s =>
      rw [hf] at h
      obtain rfl : s = slot.current := h
      exact Or.inl (List.find?_some hf)
    | none =>
      refine Or.inr fun i hi1 hi2 => ?_
      obtain ⟨o, ho, rfl⟩ := cyclic_surj h1 h2 hi1 hi2
      have hno := List.find?_eq_none.mp hf _ (List.mem_map_of_mem (List.mem_range.mpr ho))
      simpa using hno
  · rintro (hcur | hnone)
    · -- the current step is the first one tried
      obtain ⟨n, hn⟩ : ∃ n, getn slot.spells.steps = n + 1 := ⟨getn slot.spells.steps - 1, by omega⟩
      have hzero := cyclic_zero h1 h2
      unfold firstAvailable
      rw [hn] at hzero ⊢
      rw [List.range_succ_eq_map, List.map_cons, List.find?_cons, hzero, hcur]
      rfl
    · have hf : firstAvailable c (getn slot.spells.steps) slot.current slot.spells.steps = none := by
        refine List.find?_eq_none.mpr fun i hi => ?_
        obtain ⟨o, _, rfl⟩ := List.mem_map.mp hi
        rw [hnone _ (cyclic_pos _ _ _) (cyclic_le (by omega) _ _)]
        simp
      rw [hf]; rfl

end Nostalgia.MacroManager
