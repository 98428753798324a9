/-
  Nostalgia.MacroManager.SavedVariables — `DMM.InitializeDB` on whatever the
  saved-variables file holds (DinoMacroManager.lua).

  The database is a Lua value: of a later or an earlier version, edited by hand, or not
  there. `InitializeDB` replaces what has the wrong type, bounds every slot's reset time
  and position, and drops the one reset time version 1 kept for all slots.
  - `repairSlot_fields`: the fields of a slot it has gone over.
  - `initializeDB_again`: a second run changes nothing, whatever the value was.
  - `initializeDB_repairs_iff`: all slots end repaired exactly if every saved slot
    `CanRepair`: one saved as a table has no fraction within the chain for its position,
    no number that is NaN and no "n" field that counts entries that are not there; for any
    other the old reset time is not valid or the default, as a new slot has one of its own.
  - `fraction_stays`: a database that is not repaired.
  - `repairSlot_encode`: on slots of the right types the loop body is `Manager`'s
    `repairSlot`.
-/

import Nostalgia.Lua.Value
import Nostalgia.MacroManager.Manager

namespace Nostalgia.MacroManager.SavedVariables

open Nostalgia.Lua

/-! ## The code -/

/-- `DMM.NewSlot()`. -/
def newSlot : Table :=
  [(.field "name", .string ""), (.field "current", .number (.finite 1)), (.field "spells", .table []),
    (.field "resetSeconds", .number (.finite DEFAULT_RESET))]

/-- A reset time that is missing or out of range gives way to another. -/
def resetOr (other : Number) : Option Number → Number
  | none => other
  | some x => if x.outside 0 3600 then other else x

def oldResetSeconds (db : Table) : Number :=
  resetOr (.finite DEFAULT_RESET) (Table.get db (.field "resetSeconds")).tonumber

/-- `slot.current` becomes a number, and 1 where that is out of range. -/
def boundPosition (slot : Table) : Table :=
  let current := (Table.get slot (.field "current")).tonumber.getD (.finite 1)
  let slot := Table.set slot (.field "current") (.number current)
  if current.outside 1 (Table.getn (Table.get slot (.field "spells")).fields) then
    Table.set slot (.field "current") (.number (.finite 1))
  else slot

/-- The loop body of `DMM.InitializeDB` once `slot` is a table. -/
def repairSlot (oldResetSeconds : Number) (slot : Table) : Table :=
  let slot := Table.ensure Value.isTable (.field "spells") (.table []) slot
  let slot := Table.ensure Value.isString (.field "name") (.string "") slot
  let slotResetSeconds := resetOr oldResetSeconds (Table.get slot (.field "resetSeconds")).tonumber
  let slot := Table.set slot (.field "resetSeconds") (.number slotResetSeconds)
  let slot := Table.set slot (.field "resetOnTargetChange")
    (if (Table.get slot (.field "resetOnTargetChange")).truthy then .number (.finite 1) else .nil)
  Table.set (Table.set (boundPosition slot) (.field "lastUsed") .nil) (.field "invalid") .nil

/-- The loop body on `slots[i]`. -/
def repairEntry (oldResetSeconds : Number) : Value → Value
  | .table slot => .table (repairSlot oldResetSeconds slot)
  | _ => .table (repairSlot oldResetSeconds newSlot)

/-- `slots[1]` to `slots[14]`. -/
def slotKeys : List Key := slotNumbers.map Key.index

def defaultPosition : Table :=
  [(.field "point", .string "CENTER"), (.field "relativePoint", .string "CENTER"), (.field "x", .number (.finite 0)),
    (.field "y", .number (.finite 0))]

/-- `DMM.InitializeDB`. -/
def initializeDB (db : Value) : Value :=
  let db := Table.ensure Value.isTable (.field "slots") (.table []) db.fields
  let db := Table.ensure Value.isTable (.field "position") (.table defaultPosition) db
  let oldResetSeconds := oldResetSeconds db
  let db := Table.set db (.field "version") (.number (.finite 2))
  let slots := (Table.get db (.field "slots")).fields
  let db := Table.set db (.field "slots") (.table (Table.updateAll (repairEntry oldResetSeconds) slotKeys slots))
  .table (Table.set db (.field "resetSeconds") .nil)

/-! ## What is asked of a slot -/

/-- `slot.spells` as `InitializeDB` leaves it. -/
def chainOf (slot : Table) : Table := (Table.get slot (.field "spells")).fields

/-- The slot's own reset time, where it has a valid one. -/
def validNumber : Option Number → Option ℚ
  | some (.finite x) => if validReset x then some x else none
  | _ => none

/-- A repaired slot; `before` is the value saved for it, `old` the reset time saved for all. -/
structure Repaired (old : Option Number) (before : Value) (slot : Table) : Prop where
  name : ∃ s, Table.get slot (.field "name") = .string s
  spells : Table.get slot (.field "spells") = .table (chainOf slot)
  resetSeconds : ∃ x, Table.get slot (.field "resetSeconds") = .number (.finite x) ∧ 0 ≤ x ∧ x ≤ 3600
  /-- The slot's own valid reset time, else the old one for all. -/
  resetFrom : Table.get slot (.field "resetSeconds") = .number (.finite
    (((validNumber (Table.get before.fields (.field "resetSeconds")).tonumber).or (validNumber old)).getD DEFAULT_RESET))
  resetOnTargetChange : Table.get slot (.field "resetOnTargetChange") = .number (.finite 1) ∨
    Table.get slot (.field "resetOnTargetChange") = .nil
  current : ∃ i : Nat, Table.get slot (.field "current") = .number (.finite i) ∧
    (Table.get (chainOf slot) (.index i) ≠ .nil ∨ (Table.getn (chainOf slot) = 0 ∧ i = 1))

/-- The old reset time for all slots in a saved value. -/
def savedReset (db : Value) : Option Number := (Table.get db.fields (.field "resetSeconds")).tonumber

/-- The value saved for slot `i`. -/
def savedSlot (db : Value) (i : Nat) : Value := Table.get (Table.get db.fields (.field "slots")).fields (.index i)

/-- Every slot of the database `db'`, which came from `db`, is repaired. -/
def AllRepaired (db db' : Value) : Prop :=
  ∀ i ∈ slotNumbers, ∃ slot, savedSlot db' i = .table slot ∧ Repaired (savedReset db) (savedSlot db i) slot

/-! ## What can be repaired -/

/-- The position read from a slot leads to a step: a fraction within the chain is no
    index, and the entry counted at it has to be there. -/
def PositionFits (slot : Table) : Prop :=
  match (Table.get slot (.field "current")).tonumber.getD (.finite 1) with
  | .nan => False
  | x =>
    if x.outside 1 (Table.getn (chainOf slot)) then
      Table.getn (chainOf slot) = 0 ∨ Table.get (chainOf slot) (.index 1) ≠ .nil
    else ∃ i : Nat, x = .finite i ∧ Table.get (chainOf slot) (.index i) ≠ .nil

/-- The reset time is not NaN, neither the slot's own nor the one it would take. -/
def ResetFits (old : Option Number) (slot : Table) : Prop :=
  (Table.get slot (.field "resetSeconds")).tonumber ≠ some .nan ∧
    (validNumber (Table.get slot (.field "resetSeconds")).tonumber = none → old ≠ some .nan)

/-- A new slot has the default for its reset time, so the old one never gets into it. -/
def NewSlotFits (old : Option Number) : Prop := ∀ x, validNumber old = some x → x = DEFAULT_RESET

/-- The saved value leads to a repaired slot. -/
def CanRepair (old : Option Number) : Value → Prop
  | .table slot => PositionFits slot ∧ ResetFits old slot
  | _ => NewSlotFits old

/-! ## One slot -/

/-- The position `boundPosition` writes. -/
def boundedCurrent (slot : Table) : Number :=
  let current := (Table.get slot (.field "current")).tonumber.getD (.finite 1)
  if current.outside 1 (Table.getn (chainOf slot)) then .finite 1 else current

theorem boundedCurrent_congr {a b : Table} (hcurrent : Table.get a (.field "current") = Table.get b (.field "current"))
    (hchain : chainOf a = chainOf b) : boundedCurrent a = boundedCurrent b := by
  unfold boundedCurrent
  rw [hcurrent, hchain]

theorem boundPosition_current (slot : Table) :
    Table.get (boundPosition slot) (.field "current") = .number (boundedCurrent slot) := by
  unfold boundPosition boundedCurrent chainOf
  dsimp only
  rw [Table.get_set_ne (by decide)]
  split
  · simp
  · simp

theorem boundPosition_ne {slot : Table} {k : Key} (h : k ≠ .field "current") :
    Table.get (boundPosition slot) k = Table.get slot k := by
  unfold boundPosition
  dsimp only
  split
  · rw [Table.get_set_ne h, Table.get_set_ne h]
  · rw [Table.get_set_ne h]

theorem absent_boundPosition {slot : Table} {k : Key} (h : Table.Absent slot k) (hne : Key.field "current" ≠ k) :
    Table.Absent (boundPosition slot) k := by
  unfold boundPosition
  dsimp only
  split
  · exact (h.set hne).set hne
  · exact h.set hne

/-- The fields of `slot`, which `repairSlot` made of `before`. -/
structure SlotFields (old : Number) (before slot : Table) : Prop where
  spells : Table.get slot (.field "spells") = .table (chainOf before)
  name : ∃ s, Table.get slot (.field "name") = .string s
  resetSeconds : Table.get slot (.field "resetSeconds") =
    .number (resetOr old (Table.get before (.field "resetSeconds")).tonumber)
  resetOnTargetChange : Table.get slot (.field "resetOnTargetChange") = .number (.finite 1) ∨
    Table.Absent slot (.field "resetOnTargetChange")
  current : Table.get slot (.field "current") = .number (boundedCurrent before)
  lastUsed : Table.Absent slot (.field "lastUsed")
  invalid : Table.Absent slot (.field "invalid")

theorem repairSlot_fields (old : Number) (slot : Table) : SlotFields old slot (repairSlot old slot) := by
  have hspells : (if (Table.get slot (.field "spells")).isTable then Table.get slot (.field "spells") else .table []) =
      Value.table (chainOf slot) := by
    unfold chainOf
    cases Table.get slot (.field "spells") <;> rfl
  refine ⟨?_, ?_, ?_, ?_, ?_, ?_, ?_⟩
  · simp [repairSlot, Table.get_set_ne, Table.get_ensure_ne, boundPosition_ne, hspells]
  · simp only [repairSlot, Table.get_set_ne, Table.get_ensure_ne, boundPosition_ne, Table.get_ensure_self, ne_eq,
      Key.string.injEq, String.reduceEq, not_false_eq_true]
    cases hname : Table.get slot (.field "name") <;> simp [Value.isString]
  · simp [repairSlot, Table.get_set_ne, Table.get_ensure_ne, boundPosition_ne]
  · unfold repairSlot
    dsimp only
    split
    · exact Or.inl (by simp [Table.get_set_ne, boundPosition_ne])
    · refine Or.inr (Table.Absent.set (Table.Absent.set (absent_boundPosition ?_ ?_) ?_) ?_)
      · exact Table.absent_set_nil _ _
      · decide
      · decide
      · decide
  · have hfields : (if (Table.get slot (.field "spells")).isTable then Table.get slot (.field "spells") else .table []).fields =
        (Table.get slot (.field "spells")).fields := by rw [hspells]; rfl
    unfold repairSlot
    rw [Table.get_set_ne (by decide), Table.get_set_ne (by decide), boundPosition_current]
    refine congrArg Value.number (boundedCurrent_congr ?_ ?_)
    · simp [Table.get_set_ne, Table.get_ensure_ne]
    · simp [chainOf, Table.get_set_ne, Table.get_ensure_ne, hfields]
  · unfold repairSlot
    refine Table.Absent.set (Table.absent_set_nil _ _) ?_
    decide
  · exact Table.absent_set_nil _ _

theorem boundPosition_eq_self {slot : Table} {x : Number} (h : Table.get slot (.field "current") = .number x)
    (hx : x.outside 1 (Table.getn (chainOf slot)) = false ∨ x = .finite 1) : boundPosition slot = slot := by
  have hset : Table.set slot (.field "current") (.number x) = slot := Table.set_eq_self h (by simp)
  unfold boundPosition
  simp only [h, Value.tonumber, Option.getD_some, hset]
  rcases hx with hin | rfl
  · unfold chainOf at hin
    rw [hin]
    rfl
  · rw [hset, ite_self]

/-- A slot whose fields are as `repairSlot` leaves them is left as it is. -/
theorem repairSlot_eq_self {slot : Table} {old : Number} {r x : Number}
    (hspells : (Table.get slot (.field "spells")).isTable = true)
    (hname : (Table.get slot (.field "name")).isString = true)
    (hreset : Table.get slot (.field "resetSeconds") = .number r) (hr : r.outside 0 3600 = false)
    (hmark : Table.get slot (.field "resetOnTargetChange") = .number (.finite 1) ∨
      Table.Absent slot (.field "resetOnTargetChange"))
    (hcurrent : Table.get slot (.field "current") = .number x)
    (hx : x.outside 1 (Table.getn (chainOf slot)) = false ∨ x = .finite 1)
    (hlastUsed : Table.Absent slot (.field "lastUsed")) (hinvalid : Table.Absent slot (.field "invalid")) :
    repairSlot old slot = slot := by
  have hr' : resetOr old (Table.get slot (.field "resetSeconds")).tonumber = r := by
    simp [hreset, Value.tonumber, resetOr, hr]
  have hresetSet : Table.set slot (.field "resetSeconds") (.number r) = slot := Table.set_eq_self hreset (by simp)
  have hmarkSet : Table.set slot (.field "resetOnTargetChange")
      (if (Table.get slot (.field "resetOnTargetChange")).truthy then .number (.finite 1) else .nil) = slot := by
    rcases hmark with h | h
    · rw [h]
      exact Table.set_eq_self h (by simp [Value.truthy])
    · rw [Table.get_absent h]
      exact Table.set_nil_eq_self h
  unfold repairSlot
  simp only [Table.ensure_eq_self hspells, Table.ensure_eq_self hname, hr', hresetSet, hmarkSet,
    boundPosition_eq_self hcurrent hx, Table.set_nil_eq_self hlastUsed, Table.set_nil_eq_self hinvalid]

theorem resetOr_inside {old : Number} (h : old.outside 0 3600 = false) (own : Option Number) :
    (resetOr old own).outside 0 3600 = false := by
  unfold resetOr
  split
  · exact h
  · split
    · exact h
    · rename_i hin
      simpa using hin

theorem boundedCurrent_cases (slot : Table) :
    (boundedCurrent slot).outside 1 (Table.getn (chainOf slot)) = false ∨ boundedCurrent slot = .finite 1 := by
  unfold boundedCurrent
  dsimp only
  split
  · exact Or.inr rfl
  · rename_i hin
    exact Or.inl (by simpa using hin)

/-- Going over a slot a second time, with any valid reset time for all, changes nothing. -/
theorem repairSlot_again {old old' : Number} (h : old.outside 0 3600 = false) (slot : Table) :
    repairSlot old' (repairSlot old slot) = repairSlot old slot := by
  have hf := repairSlot_fields old slot
  obtain ⟨name, hname⟩ := hf.name
  have hchain : chainOf (repairSlot old slot) = chainOf slot := by
    unfold chainOf
    rw [hf.spells]
    rfl
  refine repairSlot_eq_self (by rw [hf.spells]; rfl) (by rw [hname]; rfl) hf.resetSeconds (resetOr_inside h _)
    hf.resetOnTargetChange hf.current ?_ hf.lastUsed hf.invalid
  rw [hchain]
  exact boundedCurrent_cases slot

/-- The position ends on a step exactly if it fits. -/
theorem positionFits_iff (slot : Table) : PositionFits slot ↔ ∃ i : Nat, boundedCurrent slot = .finite i ∧
    (Table.get (chainOf slot) (.index i) ≠ .nil ∨ (Table.getn (chainOf slot) = 0 ∧ i = 1)) := by
  unfold PositionFits boundedCurrent
  generalize (Table.get slot (.field "current")).tonumber.getD (.finite 1) = x
  by_cases hout : x.outside 1 (Table.getn (chainOf slot)) = true
  · have hx : x ≠ .nan := by
      rintro rfl
      simp at hout
    simp only [hout, if_true]
    have hone : ∀ i : Nat, Number.finite 1 = .finite i ↔ i = 1 := by
      intro i
      rw [Number.finite.injEq, eq_comm]
      exact Nat.cast_eq_one
    simp only [hone, exists_eq_left, and_true]
    cases x with
    | nan => exact absurd rfl hx
    | _ => exact or_comm
  · cases x with
    | nan => simp
    | finite q =>
      dsimp only
      rw [if_neg hout, if_neg hout]
      refine exists_congr fun i => and_congr_right fun hi => ⟨Or.inl, fun h => ?_⟩
      rcases h with h | ⟨hn, _⟩
      · exact h
      · -- an empty chain has no numbers within it
        rw [Number.outside_finite, hn, not_or, not_lt, not_lt, Nat.cast_zero] at hout
        linarith [hout.1, hout.2]
    | posInf => simp [Number.outside, Number.lt] at hout
    | negInf => simp [Number.outside, Number.lt] at hout

theorem resetOr_of_valid {own : Option Number} {x : ℚ} (h : validNumber own = some x) (other : Number) :
    resetOr other own = .finite x ∧ 0 ≤ x ∧ x ≤ 3600 := by
  unfold validNumber at h
  split at h
  · rename_i y
    split at h
    · rename_i hv
      cases h
      obtain ⟨h0, h1⟩ := by simpa [validReset] using hv
      refine ⟨?_, h0, h1⟩
      have hin : ¬ (Number.finite x).outside 0 3600 = true := by
        rw [Number.outside_finite]
        rintro (hlt | hlt)
        · linarith
        · linarith
      simp [resetOr, hin]
    · cases h
  · cases h

theorem resetOr_of_invalid {own : Option Number} (h : validNumber own = none) (hnan : own ≠ some .nan) (other : Number) :
    resetOr other own = other := by
  cases own with
  | none => rfl
  | some x =>
    have hout : x.outside 0 3600 = true := by
      cases hin : x.outside 0 3600 with
      | true => rfl
      | false =>
        rcases Number.inside_cases hin with rfl | ⟨q, rfl, h0, h1⟩
        · exact absurd rfl hnan
        · simp [validNumber, validReset, h0, h1] at h
    simp [resetOr, hout]

/-- The reset time ends as it should exactly if it fits. -/
theorem resetFits_iff (old : Option Number) (slot : Table) : ResetFits old slot ↔
    ∃ x, resetOr (resetOr (.finite DEFAULT_RESET) old) (Table.get slot (.field "resetSeconds")).tonumber = .finite x := by
  unfold ResetFits
  generalize (Table.get slot (.field "resetSeconds")).tonumber = own
  constructor
  · intro ⟨hown, hold⟩
    cases hv : validNumber own with
    | some x => exact ⟨x, (resetOr_of_valid hv _).1⟩
    | none =>
      rw [resetOr_of_invalid hv hown]
      cases hv' : validNumber old with
      | some x => exact ⟨x, (resetOr_of_valid hv' _).1⟩
      | none => exact ⟨_, resetOr_of_invalid hv' (hold hv) _⟩
  · rintro ⟨x, hx⟩
    refine ⟨?_, fun hv => ?_⟩
    · rintro rfl
      simp [resetOr] at hx
    · rintro rfl
      by_cases hown : own = some .nan
      · rw [hown] at hx
        simp [resetOr] at hx
      · rw [resetOr_of_invalid hv hown] at hx
        simp [resetOr] at hx

/-- A reset time that ends finite is the slot's own where valid, else the old one for
    all where that is valid, else the default. -/
theorem resetOr_value {old own : Option Number} {x : ℚ} (h : resetOr (resetOr (.finite DEFAULT_RESET) old) own = .finite x) :
    x = ((validNumber own).or (validNumber old)).getD DEFAULT_RESET ∧ 0 ≤ x ∧ x ≤ 3600 := by
  have hdefault : (0 : ℚ) ≤ DEFAULT_RESET ∧ DEFAULT_RESET ≤ 3600 := by
    unfold DEFAULT_RESET
    norm_num
  cases hv : validNumber own with
  | some y =>
    obtain ⟨hy, hbounds⟩ := resetOr_of_valid hv (resetOr (.finite DEFAULT_RESET) old)
    rw [hy, Number.finite.injEq] at h
    subst h
    exact ⟨rfl, hbounds⟩
  | none =>
    have hown : own ≠ some .nan := by
      rintro rfl
      simp [resetOr] at h
    rw [resetOr_of_invalid hv hown] at h
    cases hv' : validNumber old with
    | some y =>
      obtain ⟨hy, hbounds⟩ := resetOr_of_valid hv' (.finite DEFAULT_RESET)
      rw [hy, Number.finite.injEq] at h
      subst h
      exact ⟨rfl, hbounds⟩
    | none =>
      have hold : old ≠ some .nan := by
        rintro rfl
        simp [resetOr] at h
      rw [resetOr_of_invalid hv' hold, Number.finite.injEq] at h
      subst h
      exact ⟨rfl, hdefault⟩

/-- A slot saved as a table ends repaired exactly if its position and its reset time fit. -/
theorem repaired_table_iff (old : Option Number) (slot : Table) :
    Repaired old (.table slot) (repairSlot (resetOr (.finite DEFAULT_RESET) old) slot) ↔
      PositionFits slot ∧ ResetFits old slot := by
  have hf := repairSlot_fields (resetOr (.finite DEFAULT_RESET) old) slot
  have hchain : chainOf (repairSlot (resetOr (.finite DEFAULT_RESET) old) slot) = chainOf slot := by
    rw [chainOf, hf.spells]
    rfl
  constructor
  · intro h
    refine ⟨(positionFits_iff slot).mpr ?_, (resetFits_iff old slot).mpr ?_⟩
    · obtain ⟨i, hi, hstep⟩ := h.current
      rw [hf.current, Value.number.injEq] at hi
      rw [hchain] at hstep
      exact ⟨i, hi, hstep⟩
    · obtain ⟨x, hx, _⟩ := h.resetSeconds
      rw [hf.resetSeconds, Value.number.injEq] at hx
      exact ⟨x, hx⟩
  · intro ⟨hposition, hfits⟩
    obtain ⟨i, hi, hstep⟩ := (positionFits_iff slot).mp hposition
    obtain ⟨x, hx⟩ := (resetFits_iff old slot).mp hfits
    obtain ⟨hvalue, hbounds⟩ := resetOr_value hx
    refine ⟨hf.name, by rw [hf.spells, hchain], ⟨x, by rw [hf.resetSeconds, hx], hbounds⟩, ?_,
      hf.resetOnTargetChange.imp_right Table.get_absent, ⟨i, by rw [hf.current, hi], by rwa [hchain]⟩⟩
    rw [hf.resetSeconds, hx, hvalue]
    rfl

theorem newSlotFits_iff (old : Option Number) :
    NewSlotFits old ↔ (DEFAULT_RESET : ℚ) = (validNumber old).getD DEFAULT_RESET := by
  unfold NewSlotFits
  cases validNumber old with
  | none => simp
  | some x => simp [eq_comm]

/-- A slot that was not saved as a table is a new one, with the default for its reset time. -/
theorem repaired_newSlot_iff (old : Option Number) {before : Value} (h : before.fields = []) (other : Number) :
    Repaired old before (repairSlot other newSlot) ↔ NewSlotFits old := by
  have hf := repairSlot_fields other newSlot
  have hempty : chainOf newSlot = [] := rfl
  have hchain : chainOf (repairSlot other newSlot) = [] := by
    rw [chainOf, hf.spells]
    rfl
  have hreset : resetOr other (Table.get newSlot (.field "resetSeconds")).tonumber = .finite DEFAULT_RESET := by
    have hin : (Number.finite DEFAULT_RESET).outside 0 3600 = false := by decide +kernel
    show resetOr other (some (.finite DEFAULT_RESET)) = _
    simp [resetOr, hin]
  have hcurrent : boundedCurrent newSlot = .finite 1 := by
    rcases boundedCurrent_cases newSlot with _ | h
    · decide +kernel
    · exact h
  have hown : (validNumber (Table.get before.fields (.field "resetSeconds")).tonumber).or (validNumber old) =
      validNumber old := by
    rw [h]
    rfl
  rw [newSlotFits_iff]
  constructor
  · intro hrepaired
    have hfrom := hrepaired.resetFrom
    rw [hf.resetSeconds, hreset, hown, Value.number.injEq, Number.finite.injEq] at hfrom
    exact hfrom
  · intro hfits
    refine ⟨hf.name, by rw [hf.spells, hchain, hempty], ⟨DEFAULT_RESET, by rw [hf.resetSeconds, hreset], ?_, ?_⟩, ?_,
      hf.resetOnTargetChange.imp_right Table.get_absent, ⟨1, ?_, Or.inr ⟨?_, rfl⟩⟩⟩
    · decide +kernel
    · decide +kernel
    · rw [hf.resetSeconds, hreset, hown, ← hfits]
    · rw [hf.current, hcurrent, Nat.cast_one]
    · rw [hchain]
      rfl

/-- The slot the loop makes of a saved value is repaired exactly if the value can be. -/
theorem repairEntry_repaired_iff (old : Option Number) (before : Value) :
    (∃ slot, repairEntry (resetOr (.finite DEFAULT_RESET) old) before = .table slot ∧ Repaired old before slot) ↔
      CanRepair old before := by
  have hmade : ∀ {slot : Table} {P : Table → Prop}, (∃ t, Value.table slot = .table t ∧ P t) ↔ P slot := by
    intro slot P
    constructor
    · rintro ⟨t, ht, hp⟩
      cases ht
      exact hp
    · exact fun hp => ⟨slot, rfl, hp⟩
  cases before with
  | table slot => exact hmade.trans (repaired_table_iff old slot)
  | _ => exact hmade.trans (repaired_newSlot_iff old rfl _)

/-! ## The database -/

theorem index_injective {i j : Nat} (h : Key.index i = Key.index j) : i = j := by simpa using h

theorem slotKeys_nodup : slotKeys.Nodup :=
  List.Nodup.map (fun _ _ h => index_injective h) (List.nodup_range' ..)

theorem index_mem_slotKeys {i : Nat} (h : i ∈ slotNumbers) : Key.index i ∈ slotKeys := List.mem_map_of_mem h

/-- The fields of the database `InitializeDB` makes of `db`. -/
structure Fields (db : Value) (t : Table) : Prop where
  slots : Table.get t (.field "slots") = .table
    (Table.updateAll (repairEntry (resetOr (.finite DEFAULT_RESET) (savedReset db))) slotKeys
      (Table.get db.fields (.field "slots")).fields)
  position : (Table.get t (.field "position")).isTable = true
  version : Table.get t (.field "version") = .number (.finite 2)
  resetSeconds : Table.Absent t (.field "resetSeconds")

theorem initializeDB_fields (db : Value) : ∃ t, initializeDB db = .table t ∧ Fields db t := by
  have hslots : (if (Table.get db.fields (.field "slots")).isTable then Table.get db.fields (.field "slots")
      else .table []).fields = (Table.get db.fields (.field "slots")).fields := by
    cases Table.get db.fields (.field "slots") <;> rfl
  refine ⟨_, rfl, ?_, ?_, ?_, ?_⟩
  · simp [Table.get_set_ne, Table.get_ensure_ne, oldResetSeconds, savedReset, hslots]
  · simp only [Table.get_set_ne, Table.get_ensure_ne, Table.get_ensure_self, ne_eq, Key.string.injEq, String.reduceEq,
      not_false_eq_true]
    split
    · assumption
    · rfl
  · simp [Table.get_set_ne]
  · exact Table.absent_set_nil _ _

theorem savedSlot_initialized {db : Value} {i : Nat} (h : i ∈ slotNumbers) :
    savedSlot (initializeDB db) i = repairEntry (resetOr (.finite DEFAULT_RESET) (savedReset db)) (savedSlot db i) := by
  obtain ⟨t, ht, hf⟩ := initializeDB_fields db
  rw [savedSlot, ht, Value.fields_table, hf.slots, Value.fields_table, Table.get_updateAll _ _ slotKeys_nodup,
    if_pos (index_mem_slotKeys h), savedSlot]

theorem repairEntry_isTable (old : Number) (v : Value) : ∃ slot, repairEntry old v = .table slot := by
  cases v <;> exact ⟨_, rfl⟩

theorem repairEntry_again {old old' : Number} (h : old.outside 0 3600 = false) (v : Value) :
    repairEntry old' (repairEntry old v) = repairEntry old v := by
  cases v <;> exact congrArg Value.table (repairSlot_again h _)

/-- Initialising a second time changes nothing. -/
theorem initializeDB_again (db : Value) : initializeDB (initializeDB db) = initializeDB db := by
  obtain ⟨t, ht, hf⟩ := initializeDB_fields db
  have hold : (resetOr (.finite DEFAULT_RESET) (savedReset db)).outside 0 3600 = false :=
    resetOr_inside (by decide +kernel) _
  have hslotsTable : (Table.get t (.field "slots")).isTable = true := by rw [hf.slots]; rfl
  -- every entry the loop visits is one it has made
  have hentries : ∀ other, Table.updateAll (repairEntry other) slotKeys (Table.get t (.field "slots")).fields =
      (Table.get t (.field "slots")).fields := by
    intro other
    refine Table.updateAll_eq_self fun k hk => ?_
    obtain ⟨i, hi, rfl⟩ := List.mem_map.mp hk
    have hentry := @savedSlot_initialized db i hi
    rw [savedSlot, ht, Value.fields_table] at hentry
    rw [hentry, repairEntry_again hold]
    obtain ⟨slot, hslot⟩ := repairEntry_isTable (resetOr (.finite DEFAULT_RESET) (savedReset db)) (savedSlot db i)
    exact ⟨rfl, by rw [hslot]; simp⟩
  rw [ht]
  unfold initializeDB
  show Value.table _ = _
  have hversion : Table.set t (.field "version") (.number (.finite 2)) = t := Table.set_eq_self hf.version (by simp)
  have hslotsSet : Table.set t (.field "slots") (.table (Table.get t (.field "slots")).fields) = t :=
    Table.set_eq_self (Value.isTable_iff.mp hslotsTable) (by simp)
  simp only [Value.fields_table, Table.ensure_eq_self hslotsTable, Table.ensure_eq_self hf.position, hversion, hentries, hslotsSet,
    Table.set_nil_eq_self hf.resetSeconds]

/-- For every value of the saved variable: all 14 slots end repaired, and a second run
    changes nothing, exactly if every slot can be repaired. -/
theorem initializeDB_repairs_iff (db : Value) :
    (AllRepaired db (initializeDB db) ∧ initializeDB (initializeDB db) = initializeDB db) ↔
      ∀ i ∈ slotNumbers, CanRepair (savedReset db) (savedSlot db i) := by
  have hslot : ∀ i ∈ slotNumbers,
      (∃ slot, savedSlot (initializeDB db) i = .table slot ∧ Repaired (savedReset db) (savedSlot db i) slot) ↔
        CanRepair (savedReset db) (savedSlot db i) := by
    intro i hi
    rw [savedSlot_initialized hi]
    exact repairEntry_repaired_iff (savedReset db) (savedSlot db i)
  constructor
  · intro ⟨hall, _⟩ i hi
    exact (hslot i hi).mp (hall i hi)
  · intro hcan
    exact ⟨fun i hi => (hslot i hi).mpr (hcan i hi), initializeDB_again db⟩

/-- Two spells and a position between them. -/
def fractionalSlot : Table :=
  [(.field "current", .number (.finite (3 / 2))),
    (.field "spells", .table [(.index 1, .table [(.field "name", .string "Fireball")]),
      (.index 2, .table [(.field "name", .string "Frostbolt")])])]

def fractionalDB : Value := .table [(.field "slots", .table [(.index 1, .table fractionalSlot)])]

/-- Not every saved value is repaired: the position 1.5 of a chain of two spells stays. -/
theorem fraction_stays :
    ¬ ∀ db, AllRepaired db (initializeDB db) ∧ initializeDB (initializeDB db) = initializeDB db := by
  intro h
  have hone : 1 ∈ slotNumbers := by decide
  obtain ⟨slot, hslot, hrepaired⟩ := (h fractionalDB).1 1 hone
  have hsaved : savedSlot fractionalDB 1 = .table fractionalSlot := rfl
  rw [savedSlot_initialized hone, hsaved] at hslot
  cases hslot
  obtain ⟨i, hi, _⟩ := hrepaired.current
  have hbounded : boundedCurrent fractionalSlot = .finite (3 / 2) := by decide +kernel
  rw [(repairSlot_fields _ fractionalSlot).current, hbounded, Value.number.injEq, Number.finite.injEq] at hi
  have htwice : (3 : ℚ) = 2 * i := by linarith
  have hodd : 3 = 2 * i := by exact_mod_cast htwice
  omega

/-! ## Slots of the right types -/

/-- The steps of a chain as the entries from `i` on; `entry` writes one step. -/
def encodeSteps (entry : Spell → Value) : Nat → Arr Spell → Table
  | _, [] => []
  | i, none :: steps => encodeSteps entry (i + 1) steps
  | i, some spell :: steps => (.index i, entry spell) :: encodeSteps entry (i + 1) steps

/-- A slot as a table. -/
def encodeSlot (entry : Spell → Value) (slot : Slot) : Table :=
  [(Key.field "name", Value.string slot.name), (Key.field "current", Value.number (.finite slot.current)),
      (Key.field "spells", Value.table (encodeSteps entry 1 slot.spells.steps)),
      (Key.field "resetSeconds", Value.number (.finite slot.resetSeconds))] ++
    (if slot.resetOnTargetChange then [(Key.field "resetOnTargetChange", Value.number (.finite 1))] else []) ++
    (slot.lastUsed.map fun x => (Key.field "lastUsed", Value.number (.finite x))).toList ++
    (if slot.invalid then [(Key.field "invalid", Value.number (.finite 1))] else [])

theorem encode_newSlot (entry : Spell → Value) (ref : Nat) :
    encodeSlot entry (MacroManager.newSlot ref) = newSlot := by
  simp [encodeSlot, MacroManager.newSlot, newSlot, encodeSteps]

theorem get_encodeSteps (entry : Spell → Value) : ∀ (steps : Arr Spell) (i j : Nat),
    Table.get (encodeSteps entry i steps) (.index j) = if i ≤ j then ((get steps (j + 1 - i)).map entry).getD .nil else .nil := by
  intro steps
  induction steps with
  | nil => intro i j; simp [encodeSteps, Table.get]
  | cons x steps ih =>
    intro i j
    have hrest : i < j → get (x :: steps) (j + 1 - i) = get steps (j + 1 - (i + 1)) := by
      intro hlt
      obtain ⟨d, hd⟩ : ∃ d, j + 1 - i = d + 2 := ⟨j - 1 - i, by omega⟩
      have hd' : j + 1 - (i + 1) = d + 1 := by omega
      rw [hd, hd', get_cons_succ]
    cases x with
    | none =>
      rw [encodeSteps, ih]
      rcases Nat.lt_trichotomy i j with hlt | rfl | hgt
      · rw [if_pos (by omega), if_pos (by omega), hrest hlt]
      · rw [if_neg (by omega), if_pos (by omega), Nat.add_sub_cancel_left, get_cons_one]
        rfl
      · rw [if_neg (by omega), if_neg (by omega)]
    | some spell =>
      rw [encodeSteps, Table.get]
      rcases Nat.lt_trichotomy i j with hlt | rfl | hgt
      · rw [if_neg (fun h => by have := index_injective h; omega), ih, if_pos (by omega), if_pos (by omega), hrest hlt]
      · rw [if_pos rfl, if_pos (by omega), Nat.add_sub_cancel_left, get_cons_one]
        rfl
      · rw [if_neg (fun h => by have := index_injective h; omega), ih, if_neg (by omega), if_neg (by omega)]

theorem field_notMem_encodeSteps (entry : Spell → Value) (name : String) : ∀ (steps : Arr Spell) (i : Nat),
    Table.Absent (encodeSteps entry i steps) (.field name) := by
  intro steps
  induction steps with
  | nil => intro i e he; cases he
  | cons x steps ih =>
    intro i
    cases x with
    | none => exact ih (i + 1)
    | some spell =>
      intro e he
      rcases List.mem_cons.mp he with rfl | hin
      · simp
      · exact ih (i + 1) e hin

/-- A chain written as a table has as many steps. -/
theorem getn_encodeSteps {entry : Spell → Value} (hentry : ∀ spell, entry spell ≠ .nil) (steps : Arr Spell) :
    Table.getn (encodeSteps entry 1 steps) = getn steps := by
  have hn : Table.fieldN (encodeSteps entry 1 steps) = none := by
    unfold Table.fieldN
    rw [Table.get_absent (field_notMem_encodeSteps entry "n" steps 1)]
    rfl
  rw [Table.getn, hn, Option.getD_none]
  refine Table.count_eq (fun i h1 h2 => ?_) ?_
  · obtain ⟨spell, hspell⟩ := get_isSome steps h1 h2
    rw [get_encodeSteps, if_pos h1, Nat.add_sub_cancel, hspell]
    exact hentry spell
  · rw [get_encodeSteps, if_pos (by omega), Nat.add_sub_cancel, get_past_getn]
    rfl

theorem outside_index (n current : Nat) :
    (Number.finite (current : ℚ)).outside 1 n = true ↔ current < 1 ∨ n < current := by
  rw [Number.outside_finite]
  exact_mod_cast Iff.rfl

/-- On a slot of the right types, the loop body is `Manager`'s `repairSlot`. -/
theorem repairSlot_encode {entry : Spell → Value} (hentry : ∀ spell, entry spell ≠ .nil) (old : ℚ) (slot : Slot) :
    repairSlot (.finite old) (encodeSlot entry slot) = encodeSlot entry (MacroManager.repairSlot old slot) := by
  have hreset : resetOr (.finite old) (some (.finite slot.resetSeconds)) =
      .finite (if validReset slot.resetSeconds then slot.resetSeconds else old) := by
    cases hv : validReset slot.resetSeconds with
    | true =>
      have hown : validNumber (some (.finite slot.resetSeconds)) = some slot.resetSeconds := by simp [validNumber, hv]
      exact (resetOr_of_valid hown _).1
    | false =>
      have hown : validNumber (some (.finite slot.resetSeconds)) = none := by simp [validNumber, hv]
      exact resetOr_of_invalid hown (by simp) _
  have hout : (Number.finite (slot.current : ℚ)).outside 1 (Table.getn (encodeSteps entry 1 slot.spells.steps)) =
      decide (slot.current < 1 ∨ getn slot.spells.steps < slot.current) := by
    rw [getn_encodeSteps hentry, Bool.eq_iff_iff, outside_index, decide_eq_true_iff]
  obtain ⟨name, current, spells, resetSeconds, resetOnTargetChange, lastUsed, invalid⟩ := slot
  dsimp only at hreset hout
  cases resetOnTargetChange <;> cases lastUsed <;> cases invalid <;>
    by_cases hbad : current = 0 ∨ getn spells.steps < current <;>
    simp [repairSlot, boundPosition, encodeSlot, MacroManager.repairSlot, Table.ensure, Table.get, Table.set, Table.put,
      Table.erase, Value.isTable, Value.isString, Value.truthy, Value.tonumber, Value.fields, normalised, hreset, hout, hbad]

end Nostalgia.MacroManager.SavedVariables
