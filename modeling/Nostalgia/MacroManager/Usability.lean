/-
  Nostalgia.MacroManager.Usability — whether a chain step is shown as usable
  (DinoMacroManager.lua).

  `IsSpellEntryUsable` asks the action bars first: the first action slot whose icon is the
  spell's and for which the client has an answer decides, whatever the slot holds. Only
  when there is none does it ask about the spell itself: `IsUsableSpell`, the cost its
  tooltip shows, its cooldown.

  `ActionSlot` is what the client says about a slot beside what the slot holds. Two bars
  agree on a spell when they agree on the slots that hold its name and rank.

  - `ownUsability_iff`: the result depends on those slots only exactly when every slot
    that holds something else comes behind a slot that decides, with the spell itself in
    all slots up to that one (`DecidedByOwn`); or the entry is a command, is not found or
    has no icon.
  - `another_rank_decides`: the first rank on slot 1, out of mana or not, decides for the
    second.
-/

import Nostalgia.MacroManager.Confirmation

namespace Nostalgia.MacroManager

open Nostalgia.Lua

/-! ## The client -/

/-- An action slot with something in it. `none` is nil in the client's answers. -/
structure ActionSlot where
  /-- The name and rank of the spell it holds, where it holds one. -/
  holds : Option (String × Option String)
  /-- `GetActionText`: a macro's name. -/
  text : Option String
  texture : Option String
  isUsable : Option Bool
  notEnoughMana : Option Bool
  cooldown : Cooldown
  deriving DecidableEq

/-- The action slots; `none` where `HasAction` says no. -/
abbrev Bar := Nat → Option ActionSlot

/-- What the client says about the player's spells beside `Client`. -/
structure SpellClient where
  /-- `none`: no `IsUsableSpell`, or the call fails. -/
  isUsableSpell : Nat → BookType → Option (Option Bool × Option Bool)
  /-- The left lines of the spell's tooltip. -/
  tooltipLine : Nat → BookType → Nat → Option String
  /-- `UnitMana("player")`. -/
  unitMana : Option Nat

inductive PowerType where
  | MANA | ENERGY | RAGE | FOCUS
  deriving DecidableEq, Repr

/-- The second word of a cost line: its first letter in both cases, and the rest. -/
def costWords : List (Char × Char × String × PowerType) :=
  [('M', 'm', "ana", .MANA), ('E', 'e', "nergie", .ENERGY), ('E', 'e', "nergy", .ENERGY), ('W', 'w', "ut", .RAGE),
    ('R', 'r', "age", .RAGE), ('F', 'f', "okus", .FOCUS), ('F', 'f', "ocus", .FOCUS)]

/-- `string.find(text, "^(%d+)%s+[Mm]ana")` and the like. -/
def lineCost (text : String) (word : Char × Char × String × PowerType) : Option (Nat × PowerType) :=
  let digits := text.toList.takeWhile isDigit
  let behind := text.toList.dropWhile isDigit
  let isWord := match behind.dropWhile isSpace with
    | [] => false
    | c :: tail => (c == word.1 || c == word.2.1) && word.2.2.1.toList.isPrefixOf tail
  if !digits.isEmpty && !(behind.takeWhile isSpace).isEmpty && isWord then some (digitsVal digits, word.2.2.2) else none

/-- `DMM.GetSpellResourceCost`. -/
def getSpellResourceCost (u : SpellClient) (bookIndex : Nat) (bookType : BookType) : Option (Nat × PowerType) :=
  [2, 3, 4].findSome? fun lineIndex =>
    (u.tooltipLine bookIndex bookType lineIndex).bind fun text => costWords.findSome? (lineCost text)

/-! ## The code -/

/-- The two results of `DMM.IsSpellEntryUsable`. -/
structure Usable where
  isUsable : Bool
  notEnoughMana : Option Bool
  deriving DecidableEq

/-- The slot shows the spell's icon, holds no macro, and the client has an answer for it. -/
def decides (icon : String) (a : ActionSlot) : Bool := a.text.isNone && a.texture == some icon && a.isUsable.isSome

/-- The answer taken from an action slot. -/
def actionAnswer (now : ℚ) (a : ActionSlot) : Usable :=
  if a.isUsable = some true then
    if a.cooldown.blocks now then ⟨false, a.notEnoughMana⟩ else ⟨true, some false⟩
  else ⟨false, a.notEnoughMana⟩

/-- The loop over the action slots. -/
def scanActions (now : ℚ) (bar : Bar) (icon : String) : List Nat → Option Usable
  | [] => none
  | actSlot :: rest =>
    match bar actSlot with
    | none => scanActions now bar icon rest
    | some a => if decides icon a then some (actionAnswer now a) else scanActions now bar icon rest

def actionSlots : List Nat := List.range' 1 120

/-- The answer from the spell itself, behind the loop. -/
def spellAnswer (c : Client) (u : SpellClient) (bookIndex : Nat) (bookType : BookType) : Usable :=
  match u.isUsableSpell bookIndex bookType with
  | some (some false, notEnoughMana) => ⟨false, notEnoughMana⟩
  | _ =>
    if (getSpellResourceCost u bookIndex bookType).any fun cost => 0 < cost.1 && u.unitMana.getD 0 < cost.1 then
      ⟨false, some true⟩
    else if (c.getSpellCooldown bookIndex bookType).blocks c.getTime then ⟨false, some false⟩
    else ⟨true, some false⟩

/-- `DMM.IsSpellEntryUsable`: its results, and the entry with its caches written. -/
def isSpellEntryUsable (c : Client) (u : SpellClient) (bar : Bar) (entry : Spell) : Usable × Spell :=
  match resolveSpell c entry with
  | (none, spell) => (⟨false, some false⟩, spell)
  | (some (.command .petAttack), spell) => (⟨!(noActivePet c || noAttackableTarget c), some false⟩, spell)
  | (some (.command .botAttack), spell) => (⟨!noAttackableTarget c, some false⟩, spell)
  | (some (.index bookIndex), spell) =>
    let scanned := spell.icon.bind fun icon => scanActions c.getTime bar icon actionSlots
    (scanned.getD (spellAnswer c u bookIndex (spell.bookType.getD BOOKTYPE)), spell)

/-! ## The loop -/

theorem scanActions_append (now : ℚ) (bar : Bar) (icon : String) (l₁ l₂ : List Nat) :
    scanActions now bar icon (l₁ ++ l₂) = (scanActions now bar icon l₁).or (scanActions now bar icon l₂) := by
  induction l₁ with
  | nil => simp [scanActions]
  | cons i l₁ ih =>
    simp only [List.cons_append, scanActions]
    cases bar i with
    | none => exact ih
    | some a =>
      dsimp only
      by_cases h : decides icon a = true
      · simp [h]
      · simp [h, ih]

theorem scanActions_congr {now : ℚ} {bar bar' : Bar} {icon : String} {l : List Nat} (h : ∀ i ∈ l, bar i = bar' i) :
    scanActions now bar icon l = scanActions now bar' icon l := by
  induction l with
  | nil => rfl
  | cons i l ih =>
    have hrest := ih fun j hj => h j (List.mem_cons_of_mem _ hj)
    simp only [scanActions, h i List.mem_cons_self, hrest]

/-- A slot that decides ends the loop. -/
theorem scanActions_isSome_iff {now : ℚ} {bar : Bar} {icon : String} {l : List Nat} :
    (scanActions now bar icon l).isSome = true ↔ ∃ i ∈ l, (bar i).any (decides icon) = true := by
  induction l with
  | nil => simp [scanActions]
  | cons i l ih =>
    simp only [scanActions, List.exists_mem_cons_iff]
    cases bar i with
    | none => simpa using ih
    | some a =>
      by_cases h : decides icon a = true
      · simp [h]
      · simp [h, ih]

/-! ## The spell's own slots -/

/-- The name and rank of the spell the entry stands for. -/
def bookSpell (c : Client) (entry : Spell) : Option (String × Option String) :=
  match resolveSpell c entry with
  | (some (.index i), spell) => c.getSpellName i (spell.bookType.getD BOOKTYPE)
  | _ => none

/-- The slot holds that spell, in that rank. -/
def holdsSpell (c : Client) (entry : Spell) (slot : Option ActionSlot) : Bool :=
  slot.any fun a => a.holds.isSome && a.holds == bookSpell c entry

/-- The bars agree on the slots that hold the entry's spell and rank. -/
def AgreeOnSpell (c : Client) (entry : Spell) (bar bar' : Bar) : Prop :=
  ∀ i ∈ actionSlots, holdsSpell c entry (bar i) = true ∨ holdsSpell c entry (bar' i) = true → bar' i = bar i

/-- What is shown for the entry depends on those slots only. -/
def OwnUsability (c : Client) (u : SpellClient) (entry : Spell) (bar : Bar) : Prop :=
  ∀ bar', AgreeOnSpell c entry bar bar' → isSpellEntryUsable c u bar' entry = isSpellEntryUsable c u bar entry

/-- Every slot that holds something else (or nothing) comes behind one that decides, with
    the spell itself in all slots up to that one. -/
def DecidedByOwn (c : Client) (entry : Spell) (bar : Bar) (icon : String) : Prop :=
  ∀ m ∈ actionSlots, holdsSpell c entry (bar m) = false →
    ∃ k, 1 ≤ k ∧ k < m ∧ (bar k).any (decides icon) = true ∧ ∀ j, 1 ≤ j → j ≤ k → holdsSpell c entry (bar j) = true

/-- Another rank of the entry's spell: its icon, and the answer `usable`. -/
def otherRank (c : Client) (entry : Spell) (icon : String) (usable : Bool) : ActionSlot :=
  { holds := (bookSpell c entry).map fun (name, rank) => (name, some (rank.getD "" ++ "I"))
    text := none
    texture := some icon
    isUsable := some usable
    notEnoughMana := none
    cooldown := ⟨none, none, none⟩ }

theorem otherRank_foreign (c : Client) (entry : Spell) (icon : String) (usable : Bool) :
    holdsSpell c entry (some (otherRank c entry icon usable)) = false := by
  simp only [holdsSpell, otherRank, Option.any_some]
  cases bookSpell c entry with
  | none => rfl
  | some r =>
    obtain ⟨name, rank⟩ := r
    cases rank with
    | none => simp
    | some rank =>
      have hne : rank ++ "I" ≠ rank := by
        intro h
        have hlen := congrArg String.length h
        rw [String.length_append] at hlen
        simp at hlen
      simp [hne]

theorem actionSlots_split {m : Nat} (h : m ∈ actionSlots) :
    actionSlots = List.range' 1 (m - 1) ++ m :: List.range' (m + 1) (120 - m) := by
  have hm := List.mem_range'_1.mp h
  have hall := List.range'_append_1 (s := 1) (m := m - 1) (n := 120 - m + 1)
  rw [show 1 + (m - 1) = m by omega, show m - 1 + (120 - m + 1) = 120 by omega] at hall
  rw [actionSlots, ← hall]
  rfl

/-- Behind slots that hold the spell and do not decide, a foreign slot decides for it. -/
theorem foreign_decides {c : Client} {u : SpellClient} {entry spell : Spell} {bar : Bar} {i m : Nat} {icon : String}
    (hres : resolveSpell c entry = (some (.index i), spell)) (hicon : spell.icon = some icon) (hm : m ∈ actionSlots)
    (hno : ∀ k, 1 ≤ k → k < m → (bar k).any (decides icon) = false) (usable : Bool) :
    (isSpellEntryUsable c u (Function.update bar m (some (otherRank c entry icon usable))) entry).1.isUsable = usable := by
  have hfirst : scanActions c.getTime (Function.update bar m (some (otherRank c entry icon usable))) icon
      (List.range' 1 (m - 1)) = none := by
    rw [← Option.not_isSome_iff_eq_none, scanActions_isSome_iff]
    rintro ⟨k, hk, hdec⟩
    have hk := List.mem_range'_1.mp hk
    rw [Function.update_of_ne (by omega), hno k hk.1 (by omega)] at hdec
    cases hdec
  have hscan : scanActions c.getTime (Function.update bar m (some (otherRank c entry icon usable))) icon actionSlots =
      some (actionAnswer c.getTime (otherRank c entry icon usable)) := by
    rw [actionSlots_split hm, scanActions_append, hfirst, Option.none_or]
    simp [scanActions, decides, otherRank]
  simp only [isSpellEntryUsable, hres, hicon, Option.bind_some, hscan, Option.getD_some]
  cases usable <;> simp [actionAnswer, otherRank, Cooldown.blocks, Cooldown.running]

/-- Under `DecidedByOwn` the loop sees slots of the spell only. -/
theorem scanActions_own {c : Client} {entry : Spell} {bar bar' : Bar} {icon : String} (now : ℚ)
    (h : DecidedByOwn c entry bar icon) (hagree : AgreeOnSpell c entry bar bar') :
    scanActions now bar' icon actionSlots = scanActions now bar icon actionSlots := by
  have hsame : ∀ j, 1 ≤ j → j ≤ 120 → holdsSpell c entry (bar j) = true → bar' j = bar j :=
    fun j h1 h2 hj => hagree j (List.mem_range'_1.mpr ⟨h1, by omega⟩) (Or.inl hj)
  by_cases hforeign : ∃ m ∈ actionSlots, holdsSpell c entry (bar m) = false
  · obtain ⟨m, hm, hmf⟩ := hforeign
    obtain ⟨k, hk1, hkm, hdec, hown⟩ := h m hm hmf
    have hm := List.mem_range'_1.mp hm
    -- the loop ends at slot k or before
    have hprefix : scanActions now bar' icon (List.range' 1 k) = scanActions now bar icon (List.range' 1 k) := by
      refine scanActions_congr fun j hj => ?_
      have hj := List.mem_range'_1.mp hj
      exact hsame j hj.1 (by omega) (hown j hj.1 (by omega))
    have hends : (scanActions now bar icon (List.range' 1 k)).isSome = true :=
      scanActions_isSome_iff.mpr ⟨k, List.mem_range'_1.mpr ⟨hk1, by omega⟩, hdec⟩
    obtain ⟨answer, ha⟩ := Option.isSome_iff_exists.mp hends
    have hsplit : actionSlots = List.range' 1 k ++ List.range' (1 + k) (120 - k) := by
      rw [List.range'_append_1, Nat.add_sub_cancel' (by omega)]
      rfl
    rw [hsplit, scanActions_append, scanActions_append, hprefix, ha, Option.some_or, Option.some_or]
  · refine scanActions_congr fun j hj => ?_
    have hj' := List.mem_range'_1.mp hj
    refine hsame j hj'.1 (by omega) ?_
    by_contra hno
    exact hforeign ⟨j, hj, by simpa using hno⟩

/-- For every entry and every content of the bars: what is shown depends on the slots of
    the spell itself only, exactly if the loop is not reached, the entry has no icon, or
    the loop is decided by those slots. -/
theorem ownUsability_iff (c : Client) (u : SpellClient) (entry : Spell) (bar : Bar) :
    OwnUsability c u entry bar ↔
      ∀ i spell icon, resolveSpell c entry = (some (.index i), spell) → spell.icon = some icon →
        DecidedByOwn c entry bar icon := by
  constructor
  · intro h i spell icon hres hicon m hm hforeign
    by_contra hnone
    -- the first slot that holds something else
    have hex : ∃ m, m ∈ actionSlots ∧ holdsSpell c entry (bar m) = false := ⟨m, hm, hforeign⟩
    obtain ⟨hm₀, hf₀⟩ := Nat.find_spec hex
    have hle := Nat.find_min' hex ⟨hm, hforeign⟩
    have hmin : ∀ j, j < Nat.find hex → ¬ (j ∈ actionSlots ∧ holdsSpell c entry (bar j) = false) :=
      fun j hj => Nat.find_min hex hj
    generalize Nat.find hex = m₀ at hm₀ hf₀ hle hmin
    have hrange := List.mem_range'_1.mp hm₀
    have hown : ∀ j, 1 ≤ j → j < m₀ → holdsSpell c entry (bar j) = true := by
      intro j h1 hj
      by_contra hno
      exact hmin j hj ⟨List.mem_range'_1.mpr ⟨h1, by omega⟩, by simpa using hno⟩
    have hno : ∀ k, 1 ≤ k → k < m₀ → (bar k).any (decides icon) = false := by
      intro k h1 hk
      by_contra hdec
      exact hnone ⟨k, h1, by omega, by simpa using hdec, fun j hj1 hjk => hown j hj1 (by omega)⟩
    have hagree : ∀ usable,
        AgreeOnSpell c entry bar (Function.update bar m₀ (some (otherRank c entry icon usable))) := by
      intro usable j hj hholds
      by_cases hjm : j = m₀
      · subst hjm
        rw [Function.update_self, otherRank_foreign, hf₀] at hholds
        simp at hholds
      · exact Function.update_of_ne hjm _ _
    have htrue := foreign_decides (u := u) hres hicon hm₀ hno true
    have hfalse := foreign_decides (u := u) hres hicon hm₀ hno false
    rw [h _ (hagree true)] at htrue
    rw [h _ (hagree false), htrue] at hfalse
    cases hfalse
  · intro h bar' hagree
    unfold isSpellEntryUsable
    cases hres : resolveSpell c entry with
    | mk found spell =>
      cases found with
      | none => rfl
      | some r =>
        cases r with
        | command k => cases k <;> rfl
        | index i =>
          dsimp only
          cases hicon : spell.icon with
          | none => rfl
          | some icon =>
            rw [Option.bind_some, Option.bind_some, scanActions_own c.getTime (h i spell icon hres hicon) hagree]

/-! ## Another rank -/

/-- A book with two ranks of Fireball, which share their icon. -/
def rankClient : Client :=
  { bookClient 0 with
    getSpellName := fun i _ =>
      if i = 1 then some ("Fireball", some "Rank 1") else if i = 2 then some ("Fireball", some "Rank 2") else none
    getSpellTexture := fun _ _ => some "Spell_Fire" }

def plainSpells : SpellClient := { isUsableSpell := fun _ _ => none, tooltipLine := fun _ _ _ => none, unitMana := none }

def secondRank : Spell := ⟨1, none, "Fireball", "Rank 2", none, none, none⟩

/-- The first rank on slot 1, and nothing else. -/
def firstRankBar (usable : Bool) : Bar := fun i =>
  if i = 1 then some ⟨some ("Fireball", some "Rank 1"), none, some "Spell_Fire", some usable, some (!usable), ⟨none, none, none⟩⟩
  else none

theorem firstRankBar_foreign (usable : Bool) (i : Nat) : holdsSpell rankClient secondRank (firstRankBar usable i) = false := by
  unfold firstRankBar
  split
  · cases usable <;> decide +kernel
  · rfl

/-- Neither bar holds the second rank; with the first rank out of mana on slot 1 the step
    is shown as lacking mana. -/
theorem another_rank_decides :
    ¬ ∀ (c : Client) (u : SpellClient) (entry : Spell) (bar bar' : Bar), AgreeOnSpell c entry bar bar' →
      isSpellEntryUsable c u bar' entry = isSpellEntryUsable c u bar entry := by
  intro h
  have hagree : AgreeOnSpell rankClient secondRank (firstRankBar true) (firstRankBar false) := by
    intro i _ hholds
    rw [firstRankBar_foreign, firstRankBar_foreign] at hholds
    simp at hholds
  have hsame := congrArg Prod.fst (h rankClient plainSpells secondRank _ _ hagree)
  have htrue : (isSpellEntryUsable rankClient plainSpells (firstRankBar true) secondRank).1 = ⟨true, some false⟩ := by
    decide +kernel
  have hfalse : (isSpellEntryUsable rankClient plainSpells (firstRankBar false) secondRank).1 = ⟨false, some true⟩ := by
    decide +kernel
  rw [htrue, hfalse] at hsame
  cases hsame

end Nostalgia.MacroManager
