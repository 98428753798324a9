/-
  Nostalgia.MacroManager.MacroIcon — the icon of a chain's macro
  (DMM.UpdateSlotMacroIcon, DinoMacroManager.lua).

  `slotIconEdit` is the call of `EditMacro` an update makes, if it makes one; the client
  then gives the macro the listed icon with that number. The update compares the icons as
  they are written, the search for the number ignores their case:
  `updateSlotMacroIcon_idempotent_iff` says when a second update finds nothing to do, and
  `other_case_edited_again` runs one that edits the macro again and again.
-/

import Nostalgia.MacroManager.Editor

namespace Nostalgia.MacroManager

/-- What `GetMacroInfo` answers. -/
structure MacroInfo where
  name : String
  icon : Option String
  body : String
  deriving DecidableEq

structure IconClient where
  /-- `none`: no `GetMacroInfo`. -/
  getMacroInfo : Option (Nat → Option MacroInfo)
  /-- The icons of the client by their number, from 1. -/
  icons : List (Option String)
  /-- `GetNumMacroIcons` and `GetMacroIconInfo` exist. -/
  hasIconFunctions : Bool
  hasEditMacro : Bool

/-- The arguments of one call of `EditMacro`. -/
structure MacroEdit where
  macroIndex : Nat
  name : String
  iconIndex : Nat
  body : String
  deriving DecidableEq

namespace IconClient

variable (m : IconClient)

/-- The macro `DMM.FindSlotMacro` finds, with its number. -/
def slotMacro (index : Nat) : Option (Nat × MacroInfo) :=
  m.getMacroInfo.bind fun info =>
    (findSlotMacro (some fun i => (info i).map fun found => ⟨found.name, found.icon.getD "", found.body⟩) index).bind
      fun macroIndex => (info macroIndex).map ((macroIndex, ·))

/-- The icon with a number, from 1. -/
def iconAt (iconIndex : Nat) : Option String := (m.icons[iconIndex - 1]?).join

def iconIndex (icon : String) : Nat := findMacroIconIndex (if m.hasIconFunctions then some m.icons else none) icon

/-- `EditMacro` sets name, icon and body. -/
def editMacro (e : MacroEdit) : IconClient :=
  { m with getMacroInfo := m.getMacroInfo.map fun info i =>
      if i = e.macroIndex then some ⟨e.name, m.iconAt e.iconIndex, e.body⟩ else info i }

/-- The call `DMM.UpdateSlotMacroIcon` makes. -/
def slotIconEdit (index : Nat) (icon : Option String) : Option MacroEdit :=
  if m.hasEditMacro then
    (m.slotMacro index).bind fun found => icon.bind fun icon =>
      if found.2.icon = some icon then none else some ⟨found.1, found.2.name, m.iconIndex icon, found.2.body⟩
  else none

/-- `DMM.UpdateSlotMacroIcon`. -/
def updateSlotMacroIcon (index : Nat) (icon : Option String) : IconClient :=
  ((m.slotIconEdit index icon).map m.editMacro).getD m

/-- The first icon that is the given one up to case is it exactly. Without the functions
    of the list number 1 is taken. -/
def ListsExactly (icon : String) : Prop :=
  (if m.hasIconFunctions then m.icons.find? fun t => t.any (·.toLower == icon.toLower) else m.icons.head?) = some (some icon)

/-! ## The icon a macro gets -/

variable {m}

theorem iconAt_iconIndex_iff {icon : String} : m.iconAt (m.iconIndex icon) = some icon ↔ m.ListsExactly icon := by
  unfold iconAt iconIndex ListsExactly findMacroIconIndex
  by_cases hfunctions : m.hasIconFunctions = true
  · simp only [hfunctions, if_true]
    rw [List.find?_eq_bind_findIdx?_getElem?, Option.join_eq_some_iff]
    cases hfound : m.icons.findIdx? fun t => t.any (·.toLower == icon.toLower) with
    | some i => simp
    | none =>
      -- the question mark or number 1: never the wanted icon
      have hother : ∀ j : Nat, m.icons[j]? ≠ some (some icon) := by
        intro j hj
        have := List.findIdx?_eq_none_iff.mp hfound (some icon) (List.mem_of_getElem? hj)
        simp at this
      simp [hother]
  · simp [hfunctions, List.head?_eq_getElem?, Option.join_eq_some_iff]

theorem mem_of_listsExactly {icon : String} (h : m.ListsExactly icon) : some icon ∈ m.icons := by
  unfold ListsExactly at h
  split at h
  · exact List.mem_of_find?_eq_some h
  · exact List.mem_of_head? h

/-- A macro whose body starts the slot. -/
def bodyStarts (index : Nat) (found : MacroInfo) : Bool := found.body == triggerBody index || found.body == executeBody index

theorem slotMacro_iff {index : Nat} {found : Nat × MacroInfo} : m.slotMacro index = some found ↔
    ∃ info, m.getMacroInfo = some info ∧
      (List.range' 1 36).find? (fun i => (info i).any (bodyStarts index)) = some found.1 ∧ info found.1 = some found.2 := by
  have hbody : ∀ info : Nat → Option MacroInfo,
      findSlotMacro (some fun i => (info i).map fun found => ⟨found.name, found.icon.getD "", found.body⟩) index =
        (List.range' 1 36).find? fun i => (info i).any (bodyStarts index) := by
    intro info
    show List.find? _ _ = _
    congr 1
    funext i
    rw [Option.any_map]
    rfl
  unfold slotMacro
  simp only [Option.bind_eq_some_iff, hbody, Option.map_eq_some_iff]
  constructor
  · intro ⟨info, hinfo, i, hi, entry, hentry, heq⟩
    subst heq
    exact ⟨info, hinfo, hi, hentry⟩
  · intro ⟨info, hinfo, hi, hentry⟩
    exact ⟨info, hinfo, found.1, hi, found.2, hentry, rfl⟩

/-- An edit of the slot's macro with its own body leaves it the slot's macro. -/
theorem slotMacro_editMacro {index : Nat} {found : Nat × MacroInfo} (hfound : m.slotMacro index = some found)
    (iconIndex : Nat) : (m.editMacro ⟨found.1, found.2.name, iconIndex, found.2.body⟩).slotMacro index =
      some (found.1, ⟨found.2.name, m.iconAt iconIndex, found.2.body⟩) := by
  obtain ⟨info, hinfo, hindex, hentry⟩ := slotMacro_iff.mp hfound
  let edited : Nat → Option MacroInfo := fun i =>
    if i = found.1 then some ⟨found.2.name, m.iconAt iconIndex, found.2.body⟩ else info i
  have hsame : (fun i => (edited i).any (bodyStarts index)) = fun i => (info i).any (bodyStarts index) := by
    funext i
    show (ite _ _ _ : Option MacroInfo).any _ = _
    by_cases hi : i = found.1
    · rw [if_pos hi, hi, hentry]
      rfl
    · rw [if_neg hi]
  refine slotMacro_iff.mpr ⟨edited, by rw [editMacro, hinfo]; rfl, ?_, if_pos rfl⟩
  rw [hsame]
  exact hindex

/-! ## Two updates -/

/-- After an edit the next update compares the listed icon with the wanted one. -/
theorem slotIconEdit_again {index : Nat} {icon : String} (hedit : m.hasEditMacro = true) {found : Nat × MacroInfo}
    (hfound : m.slotMacro index = some found) (hicon : found.2.icon ≠ some icon) :
    (m.updateSlotMacroIcon index (some icon)).slotIconEdit index (some icon) = none ↔
      m.iconAt (m.iconIndex icon) = some icon := by
  have hsome : m.slotIconEdit index (some icon) = some ⟨found.1, found.2.name, m.iconIndex icon, found.2.body⟩ := by
    simp [slotIconEdit, hedit, hfound, hicon]
  have hkeeps : (m.editMacro ⟨found.1, found.2.name, m.iconIndex icon, found.2.body⟩).hasEditMacro = true := hedit
  rw [updateSlotMacroIcon, hsome, Option.map_some, Option.getD_some, slotIconEdit, if_pos hkeeps,
    slotMacro_editMacro hfound (m.iconIndex icon)]
  simp

theorem updateSlotMacroIcon_none {index : Nat} {icon : String} (h : m.slotIconEdit index (some icon) = none) :
    (m.updateSlotMacroIcon index (some icon)).slotIconEdit index (some icon) = none := by
  rw [updateSlotMacroIcon, h]
  exact h

/-- No second edit exactly if there was none to make, or the icon is listed as it is written. -/
theorem updateSlotMacroIcon_idempotent_iff (m : IconClient) (index : Nat) (icon : String) :
    (m.updateSlotMacroIcon index (some icon)).slotIconEdit index (some icon) = none ↔
      m.hasEditMacro = false ∨ m.slotMacro index = none ∨ (m.slotMacro index).map (·.2.icon) = some (some icon) ∨
        m.ListsExactly icon := by
  by_cases hedit : m.hasEditMacro = true
  · cases hfound : m.slotMacro index with
    | none => simp [updateSlotMacroIcon_none (show m.slotIconEdit index (some icon) = none by simp [slotIconEdit, hfound])]
    | some found =>
      by_cases hicon : found.2.icon = some icon
      · simp [updateSlotMacroIcon_none (show m.slotIconEdit index (some icon) = none by simp [slotIconEdit, hfound, hicon]),
          hicon]
      · rw [slotIconEdit_again hedit hfound hicon, iconAt_iconIndex_iff]
        simp [hedit, hicon]
  · have hoff : m.hasEditMacro = false := by simpa using hedit
    simp [updateSlotMacroIcon_none (show m.slotIconEdit index (some icon) = none by simp [slotIconEdit, hoff]), hoff]

/-! ## The icon in another case -/

/-- The client lists the icon of the spell in small letters. -/
def smallLetters : IconClient where
  getMacroInfo := some fun i =>
    if i = 1 then some ⟨"Fire", some "Interface\\Icons\\INV_Misc_QuestionMark", triggerBody 1⟩ else none
  icons := [some "Interface\\Icons\\INV_Misc_QuestionMark", some "Interface\\Icons\\spell_fire_flamebolt"]
  hasIconFunctions := true
  hasEditMacro := true

theorem other_case_edited_again : ¬ ∀ (m : IconClient) (index : Nat) (icon : String),
    (m.updateSlotMacroIcon index (some icon)).slotIconEdit index (some icon) = none := by
  intro hall
  have hagain := hall smallLetters 1 "Interface\\Icons\\Spell_Fire_FlameBolt"
  have hfound : smallLetters.slotMacro 1 =
      some (1, ⟨"Fire", some "Interface\\Icons\\INV_Misc_QuestionMark", triggerBody 1⟩) := by decide +kernel
  rw [slotIconEdit_again rfl hfound (by decide), iconAt_iconIndex_iff] at hagain
  exact absurd (mem_of_listsExactly hagain) (by decide)

end IconClient

end Nostalgia.MacroManager
