/-
  Nostalgia.Controller.Menu — the settings menu and the /dino commands (DinoController.lua,
  DinoControllerHUD.lua).

  A `Menu` is what its labels depend on: the saved settings, of which a field is `none`
  until it has its default, the settings of the HUD, whether the menu is open, and the texts
  its buttons show. What the handlers do to bindings, reticle, camera and HUD frames and
  what they print is left out: no label depends on it.

  `Truthful`: while the menu is open every label is the one `UpdateMenu` would give it now.
  `menu_truthful_iff`: it stays so through exactly the runs whose steps meet `KeepsLabels`.
  `DinoController_SetControllerEnabled` stands before the local function `UpdateMenu` and
  calls a global of that name, which there is not; `/dino lock`, `unlock` and `hud` call
  nothing. (`stale_after_controller`: one click and the menu lies.)
-/

import Nostalgia.Controller.Session
import Nostalgia.Machine.Run

namespace Nostalgia.Controller

open Nostalgia.Lua Nostalgia.Machine

/-! ## Settings -/

inductive DpadLayout where
  | Standard | Mitte
  deriving DecidableEq, Repr

inductive HudLayout where
  | Unten | Seitlich
  deriving DecidableEq, Repr

/-- `DinoControllerDB`, as far as the menu shows or the commands set it. -/
structure Settings where
  controllerEnabled : Option Nat := none
  showReticle : Option Nat := none
  reticleOpacityLevel : Option Nat := none
  uiEnabled : Option Nat := none
  autoQuest : Option Nat := none
  autoLoot : Option Nat := none
  swapAB : Option Nat := none
  swapXY : Option Nat := none
  targetMode : Option TargetMode := none
  autoTrackQuest : Option Nat := none
  swapMenuButtons : Option Nat := none
  secondaryWindows : Option Nat := none
  dpadLayout : Option DpadLayout := none
  hudLayout : Option HudLayout := none
  groundSpellMode : Option Nat := none
  deriving DecidableEq, Repr

/-- `DinoControllerHUDDB`. -/
structure HudSettings where
  hudVisible : Option Nat := none
  hudLocked : Option Nat := none
  deriving DecidableEq, Repr

/-- `EnsureDefaults`. -/
def Settings.ensureDefaults (db : Settings) : Settings where
  controllerEnabled := db.controllerEnabled.or (some 1)
  showReticle := db.showReticle.or (some 1)
  reticleOpacityLevel :=
    if db.reticleOpacityLevel = some 1 ∨ db.reticleOpacityLevel = some 2 ∨ db.reticleOpacityLevel = some 3 then
      db.reticleOpacityLevel
    else some 3
  uiEnabled := db.uiEnabled.or (some 1)
  autoQuest := db.autoQuest.or (some 1)
  autoLoot := db.autoLoot.or (some 1)
  swapAB := db.swapAB.or (some 0)
  swapXY := db.swapXY.or (some 0)
  targetMode := if db.targetMode = some .healer then db.targetMode else some .dps
  autoTrackQuest := db.autoTrackQuest.or (some 1)
  swapMenuButtons := db.swapMenuButtons.or (some 0)
  secondaryWindows := db.secondaryWindows.or (some 1)
  dpadLayout := db.dpadLayout.or (some .Standard)
  hudLayout := db.hudLayout.or (some .Unten)
  groundSpellMode := match db.groundSpellMode with
    | none => some 0
    | some mode => if mode = 0 then some 0 else some 1

/-- `DinoController_GetGroundSpellMode`. -/
def Settings.getGroundSpellMode (db : Settings) : Nat := if db.groundSpellMode = some 1 then 1 else 0

/-- `value == 1 and 0 or 1`. -/
def flipped (value : Option Nat) : Option Nat := some (if value = some 1 then 0 else 1)

def onOff (value : Option Nat) : String := if value = some 1 then "ON" else "OFF"

/-! ## Labels -/

inductive MenuButton where
  | controllerButton | reticleButton | reticleOpacityButton | autoQuestButton | hudButton | hudLockButton
  | hudLayoutButton | swapABButton | swapXYButton | dpadLayoutButton | groundSpellButton | targetDpsButton
  | targetHealerButton | autoTrackQuestButton | swapMenuButtonsButton | secondaryWindowsButton
  | dmmButton | infoButton | closeButton
  deriving DecidableEq, Repr

/-- The text `UpdateMenu` sets, behind its `EnsureDefaults`; the last three keep theirs. -/
def labelText (db : Settings) (hud : HudSettings) : MenuButton → Option String
  | .controllerButton => some ("Controller support: " ++ onOff db.controllerEnabled)
  | .reticleButton => some ("Reticle: " ++ onOff db.showReticle)
  | .reticleOpacityButton => some ("Reticle opacity: " ++ toString (db.reticleOpacityLevel.getD 3))
  | .autoQuestButton => some ("Auto Quest: " ++ onOff db.autoQuest)
  | .hudButton => some ("Controller-HUD: " ++ onOff (some (hud.hudVisible.getD 1)))
  | .hudLockButton => some ("HUD position: " ++ if hud.hudLocked = some 1 then "Locked" else "Unlocked")
  | .hudLayoutButton => some ("HUD layout: " ++ if db.hudLayout = some .Seitlich then "Side" else "Bottom")
  | .swapABButton => some ("Swap A/B: " ++ onOff db.swapAB)
  | .swapXYButton => some ("Swap X/Y: " ++ onOff db.swapXY)
  | .dpadLayoutButton => some ("D-pad layout: " ++ if db.dpadLayout = some .Mitte then "Center" else "Standard")
  | .groundSpellButton => some ("Auto ground spells: " ++ onOff (some db.getGroundSpellMode))
  | .targetDpsButton => some (if db.targetMode = some .dps then "[ DPS/Tank ]" else "DPS/Tank")
  | .targetHealerButton => some (if db.targetMode = some .healer then "[ Healer ]" else "Healer")
  | .autoTrackQuestButton => some ("Auto-track quests: " ++ onOff db.autoTrackQuest)
  | .swapMenuButtonsButton => some ("Swap Select/Start: " ++ onOff db.swapMenuButtons)
  | .secondaryWindowsButton => some ("Secondary windows: " ++ onOff db.secondaryWindows)
  | .dmmButton | .infoButton | .closeButton => none

structure Menu where
  db : Settings
  hudDB : HudSettings
  /-- The local `hudVisible` of DinoControllerHUD.lua. -/
  hudVisible : Bool
  isVisible : Bool
  labels : MenuButton → String

namespace Menu

def withDB (f : Settings → Settings) (s : Menu) : Menu := { s with db := f s.db }

/-- The label `UpdateMenu` would give a button now. -/
def label (s : Menu) (b : MenuButton) : Option String := labelText s.db.ensureDefaults s.hudDB b

def updateMenu (s : Menu) : Menu :=
  { s with db := s.db.ensureDefaults, labels := fun b => (s.label b).getD (s.labels b) }

/-! ## Handlers -/

/-- The global `UpdateMenu`: the function of that name is a local one, defined later. -/
def globalUpdateMenu : Option (Menu → Menu) := none

/-- `DinoController_ApplyTargetMode`. -/
def applyTargetMode (s : Menu) : Menu :=
  if s.db.targetMode = some .healer then s else s.withDB fun db => { db with targetMode := some .dps }

/-- `InstallBindings(true)`. -/
def installBindings (s : Menu) : Menu := s.applyTargetMode

/-- `DinoController_SetControllerEnabled`. -/
def setControllerEnabled (enabled : Bool) (s : Menu) : Menu :=
  let s := s.withDB fun db => { db with controllerEnabled := some enabled.toNat }
  let s := if enabled then s.installBindings else s
  (globalUpdateMenu.getD id) s

/-- `DinoHUD_Lock`, and `DinoHUD_Unlock`. -/
def lockHUD (s : Menu) : Menu := { s with hudDB := { s.hudDB with hudLocked := some 1 } }
def unlockHUD (s : Menu) : Menu := { s with hudDB := { s.hudDB with hudLocked := some 0 } }

/-- `DinoHUD_Show`, and `DinoHUD_Hide`. -/
def showHUD (s : Menu) : Menu := { s with hudVisible := true, hudDB := { s.hudDB with hudVisible := some 1 } }
def hideHUD (s : Menu) : Menu := { s with hudVisible := false, hudDB := { s.hudDB with hudVisible := some 0 } }

def hide (s : Menu) : Menu := { s with isVisible := false }

def setTargetMode (mode : TargetMode) (s : Menu) : Menu :=
  (s.withDB fun db => { db with targetMode := some mode }).applyTargetMode.updateMenu

def flipGroundSpellMode (s : Menu) : Menu :=
  (s.withDB fun db => { db with groundSpellMode := some (if db.getGroundSpellMode = 1 then 0 else 1) }).updateMenu

def flipReticle (s : Menu) : Menu := (s.withDB fun db => { db with showReticle := flipped db.showReticle }).updateMenu

/-- The next of the three levels. -/
def nextOpacity (level : Option Nat) : Option Nat := some (if 3 ≤ level.getD 3 then 1 else level.getD 3 + 1)

/-- `OnClick` of the buttons. -/
def click : MenuButton → Menu → Menu
  | .controllerButton, s => s.setControllerEnabled (s.db.controllerEnabled != some 1)
  | .reticleButton, s => s.flipReticle
  | .reticleOpacityButton, s =>
    (s.withDB fun db => { db with reticleOpacityLevel := nextOpacity db.reticleOpacityLevel }).updateMenu
  | .autoQuestButton, s => (s.withDB fun db => { db with autoQuest := flipped db.autoQuest }).updateMenu
  | .hudButton, s => (if s.hudDB.hudVisible = some 1 then s.hideHUD else s.showHUD).updateMenu
  | .hudLockButton, s => (if s.hudDB.hudLocked = some 1 then s.unlockHUD else s.lockHUD).updateMenu
  | .hudLayoutButton, s =>
    (s.withDB fun db => { db with
      hudLayout := if db.hudLayout = some .Seitlich then some .Unten else some .Seitlich }).updateMenu
  | .swapABButton, s => (s.withDB fun db => { db with swapAB := flipped db.swapAB }).updateMenu
  | .swapXYButton, s => (s.withDB fun db => { db with swapXY := flipped db.swapXY }).updateMenu
  | .dpadLayoutButton, s =>
    (s.withDB fun db => { db with
      dpadLayout := if db.dpadLayout = some .Mitte then some .Standard else some .Mitte }).updateMenu
  | .groundSpellButton, s => s.flipGroundSpellMode
  | .targetDpsButton, s => s.setTargetMode .dps
  | .targetHealerButton, s => s.setTargetMode .healer
  | .autoTrackQuestButton, s =>
    (s.withDB fun db => { db with autoTrackQuest := flipped db.autoTrackQuest }).updateMenu
  | .swapMenuButtonsButton, s =>
    (s.withDB fun db => { db with swapMenuButtons := flipped db.swapMenuButtons }).updateMenu
  | .secondaryWindowsButton, s =>
    (s.withDB fun db => { db with secondaryWindows := flipped db.secondaryWindows }).updateMenu
  | .dmmButton, s => s.hide
  | .infoButton, s => s
  | .closeButton, s => s.hide

def toggleMenu (s : Menu) : Menu := if s.isVisible then s.hide else { s.updateMenu with isVisible := true }

/-- The setting of a value, in English or German. -/
def enabledOf (value : String) : Option Nat :=
  if value = "off" ∨ value = "aus" ∨ value = "0" then some 0
  else if value = "on" ∨ value = "an" ∨ value = "1" then some 1
  else none

/-- `SetOption` for the setting `set` stores. -/
def setOption (set : Nat → Settings → Settings) (value : String) (s : Menu) : Menu :=
  match enabledOf value with
  | none => s
  | some enabled => (s.withDB (set enabled)).updateMenu

/-- `string.find(string.lower(message), "^(%S*)%s*(%S*)")`. -/
def findCommand (message : String) : String × String :=
  let text := message.toList.map Char.toLower
  let rest := text.dropWhile fun ch => !isSpace ch
  (String.ofList (text.takeWhile fun ch => !isSpace ch),
    String.ofList ((rest.dropWhile isSpace).takeWhile fun ch => !isSpace ch))

/-- The body of `SlashCmdList["DINOCONTROLLER"]` of DinoController.lua. -/
def originalSlash (command value : String) (s : Menu) : Menu :=
  if command = "" ∨ command = "menu" then s.toggleMenu
  else if command = "camera" then s
  else if command = "bind" ∨ command = "bindings" then s.installBindings
  else if command = "reticle" ∨ command = "fadenkreuz" then
    if value = "" then s.flipReticle else s.setOption (fun enabled db => { db with showReticle := some enabled }) value
  else if command = "ui" then
    if value = "" then s.withDB fun db => { db with uiEnabled := flipped db.uiEnabled }
    else s.setOption (fun enabled db => { db with uiEnabled := some enabled }) value
  else if command = "autoquest" then s.setOption (fun enabled db => { db with autoQuest := some enabled }) value
  else if command = "autoloot" then s.setOption (fun enabled db => { db with autoLoot := some enabled }) value
  else if command = "ground" ∨ command = "boden" ∨ command = "bodenzauber" then
    if value = "" then s.flipGroundSpellMode
    else s.setOption (fun enabled db => { db with groundSpellMode := some enabled }) value
  else if command = "layout" then
    if value = "xbox" ∨ value = "nintendo" then
      (s.withDB fun db => { db with swapAB := some (if value = "nintendo" then 1 else 0) }).updateMenu
    else s
  else if command = "target" ∨ command = "targetmode" then
    if value = "healer" ∨ value = "heal" then s.setTargetMode .healer
    else if value = "dps" ∨ value = "tank" ∨ value = "dpstank" then s.setTargetMode .dps
    else s
  else if command = "controller" then
    if value = "on" ∨ value = "an" ∨ value = "1" then s.setControllerEnabled true
    else if value = "off" ∨ value = "aus" ∨ value = "0" then s.setControllerEnabled false
    else s.setControllerEnabled (s.db.controllerEnabled != some 1)
  else s

def originalSlashHandler (message : String) (s : Menu) : Menu :=
  s.originalSlash (findCommand message).1 (findCommand message).2

/-- The body of `SlashCmdList["DINOCONTROLLER"]` of DinoControllerHUD.lua. -/
def slash (command value message : String) (s : Menu) : Menu :=
  if command = "lock" then s.lockHUD
  else if command = "unlock" then s.unlockHUD
  else if command = "hud" then
    if value = "on" ∨ value = "an" then s.showHUD
    else if value = "off" ∨ value = "aus" then s.hideHUD
    else if s.hudVisible then s.hideHUD else s.showHUD
  else s.originalSlashHandler message

def slashHandler (message : String) (s : Menu) : Menu :=
  s.slash (findCommand message).1 (findCommand message).2 message

end Menu

inductive MenuEv where
  | click (b : MenuButton)
  | slash (message : String)
  deriving Repr

def menuStep (s : Menu) : MenuEv → Menu
  | .click b => s.click b
  | .slash message => s.slashHandler message

/-! ## What the menu says -/

namespace Menu

/-- Every label of the open menu is the one `UpdateMenu` would set. -/
def Truthful (s : Menu) : Prop := s.isVisible = true → ∀ b text, s.label b = some text → s.labels b = text

def ControllerOn (s : Menu) : Prop := s.db.controllerEnabled.getD 1 = 1

def HudOn (s : Menu) : Prop := s.hudDB.hudVisible.getD 1 = 1

instance (s : Menu) : Decidable s.ControllerOn := inferInstanceAs (Decidable (_ = _))

instance (s : Menu) : Decidable s.HudOn := inferInstanceAs (Decidable (_ = _))

/-- The commands that change no label, or update the menu. -/
def KeepsUnder (s : Menu) (command value : String) : Prop :=
  if command = "lock" then s.hudDB.hudLocked = some 1
  else if command = "unlock" then s.hudDB.hudLocked ≠ some 1
  else if command = "hud" then
    if value = "on" ∨ value = "an" then s.HudOn
    else if value = "off" ∨ value = "aus" then ¬ s.HudOn
    else (s.hudVisible = true ↔ ¬ s.HudOn)
  else if command = "controller" then
    if value = "on" ∨ value = "an" ∨ value = "1" then s.ControllerOn
    else if value = "off" ∨ value = "aus" ∨ value = "0" then ¬ s.ControllerOn
    else s.db.controllerEnabled = none
  else True

/-- The steps that change no label, or update the menu. -/
def KeepsLabels (s : Menu) : MenuEv → Prop
  | .click b => b = .controllerButton → s.db.controllerEnabled = none
  | .slash message => s.KeepsUnder (findCommand message).1 (findCommand message).2

instance (s : Menu) (command value : String) : Decidable (s.KeepsUnder command value) :=
  inferInstanceAs (Decidable (ite _ _ _))

instance (s : Menu) : ∀ e, Decidable (s.KeepsLabels e)
  | .click _ => inferInstanceAs (Decidable (_ → _))
  | .slash _ => inferInstanceAs (Decidable (s.KeepsUnder _ _))

end Menu

theorem or_some_or {α : Type} (v : Option α) (d : α) : (v.or (some d)).or (some d) = v.or (some d) := by cases v <;> rfl

theorem ensureDefaults_idem (db : Settings) : db.ensureDefaults.ensureDefaults = db.ensureDefaults := by
  have hlevel : db.ensureDefaults.ensureDefaults.reticleOpacityLevel = db.ensureDefaults.reticleOpacityLevel := by
    show (if db.ensureDefaults.reticleOpacityLevel = some 1 ∨ db.ensureDefaults.reticleOpacityLevel = some 2 ∨
      db.ensureDefaults.reticleOpacityLevel = some 3 then db.ensureDefaults.reticleOpacityLevel else some 3) = _
    refine if_pos ?_
    show (ite _ _ _ = _) ∨ (ite _ _ _ = _) ∨ (ite _ _ _ = _)
    by_cases h : db.reticleOpacityLevel = some 1 ∨ db.reticleOpacityLevel = some 2 ∨ db.reticleOpacityLevel = some 3
    · simp only [if_pos h]
      exact h
    · simp only [if_neg h]
      simp
  have htarget : db.ensureDefaults.ensureDefaults.targetMode = db.ensureDefaults.targetMode := by
    show (if (if db.targetMode = some .healer then db.targetMode else some .dps) = some .healer then
      (if db.targetMode = some .healer then db.targetMode else some .dps) else some .dps) = ite _ _ _
    by_cases h : db.targetMode = some .healer <;> simp [h]
  have hground : db.ensureDefaults.ensureDefaults.groundSpellMode = db.ensureDefaults.groundSpellMode := by
    unfold Settings.ensureDefaults
    cases db.groundSpellMode with
    | none => rfl
    | some mode => by_cases h : mode = 0 <;> simp [h]
  rw [Settings.mk.injEq]
  exact ⟨or_some_or _ _, or_some_or _ _, hlevel, or_some_or _ _, or_some_or _ _, or_some_or _ _, or_some_or _ _,
    or_some_or _ _, htarget, or_some_or _ _, or_some_or _ _, or_some_or _ _, or_some_or _ _, or_some_or _ _, hground⟩

namespace Menu

variable {s t : Menu}

theorem label_updateMenu (s : Menu) (b : MenuButton) : s.updateMenu.label b = s.label b := by
  show labelText s.db.ensureDefaults.ensureDefaults s.hudDB b = _
  rw [ensureDefaults_idem]
  rfl

theorem updateMenu_labels (s : Menu) (b : MenuButton) (text : String) (htext : s.updateMenu.label b = some text) :
    s.updateMenu.labels b = text := by
  rw [label_updateMenu] at htext
  show (s.label b).getD (s.labels b) = text
  rw [htext]
  rfl

theorem updateMenu_truthful (s : Menu) : Truthful s.updateMenu := fun _ => updateMenu_labels s

theorem hidden_truthful (h : s.isVisible = false) : Truthful s := by
  intro hshown
  rw [h] at hshown
  cases hshown

/-- Without a new text the menu stays truthful exactly if no label would change. -/
theorem silent_iff (hs : Truthful s) (hvisible : t.isVisible = s.isVisible) (hlabels : t.labels = s.labels) :
    Truthful t ↔ s.isVisible = false ∨ ∀ b, t.label b = s.label b := by
  have hset : ∀ b, (t.label b).isSome = (s.label b).isSome := by
    intro b
    cases b <;> rfl
  constructor
  · intro ht
    by_cases hopen : s.isVisible = true
    · right
      intro b
      cases hsb : s.label b with
      | none =>
        have hnone := hset b
        rw [hsb] at hnone
        simpa using hnone
      | some text =>
        obtain ⟨text', htb⟩ := Option.isSome_iff_exists.mp ((hset b).trans (by rw [hsb]; rfl))
        rw [htb, ← ht (hvisible.trans hopen) b text' htb, hlabels, hs hopen b text hsb]
    · exact Or.inl (by simpa using hopen)
  · intro h hopen b text htext
    rcases h with hhidden | hsame
    · rw [hvisible, hhidden] at hopen
      cases hopen
    · rw [hsame b] at htext
      rw [hlabels]
      exact hs (hvisible ▸ hopen) b text htext

/-! ### The steps that set a label without a word -/

theorem onOff_eq_iff {v v' : Option Nat} : onOff v = onOff v' ↔ (v = some 1 ↔ v' = some 1) := by
  unfold onOff
  by_cases h : v = some 1 <;> by_cases h' : v' = some 1 <;> simp [h, h']

/-- The same where the step changes what one label stands for. -/
theorem silent_one (b0 : MenuButton) (hs : Truthful s) (hvisible : t.isVisible = s.isVisible)
    (hlabels : t.labels = s.labels) (hother : ∀ b, b ≠ b0 → t.label b = s.label b) :
    Truthful t ↔ s.isVisible = false ∨ t.label b0 = s.label b0 := by
  rw [silent_iff hs hvisible hlabels]
  apply or_congr_right
  constructor
  · intro h
    exact h b0
  · intro h b
    by_cases hb : b = b0
    · rw [hb, h]
    · exact hother b hb

/-- `DinoHUD_Lock` and `DinoHUD_Unlock`. -/
theorem hudLocked_iff (hs : Truthful s) (locked : Nat) :
    Truthful { s with hudDB := { s.hudDB with hudLocked := some locked } } ↔
      s.isVisible = false ∨ (locked = 1 ↔ s.hudDB.hudLocked = some 1) := by
  rw [silent_one (t := { s with hudDB := { s.hudDB with hudLocked := some locked } }) .hudLockButton hs rfl rfl (by
    intro b hb
    cases b <;> first | rfl | exact absurd rfl hb)]
  apply or_congr_right
  show some ("HUD position: " ++ ite _ _ _) = some ("HUD position: " ++ ite _ _ _) ↔ _
  rw [Option.some.injEq, String.append_right_inj]
  by_cases hnew : locked = 1 <;> by_cases hold : s.hudDB.hudLocked = some 1 <;> simp [hnew, hold]

/-- `DinoHUD_Show` and `DinoHUD_Hide`. -/
theorem hudVisible_iff (hs : Truthful s) (hudVisible : Bool) (visible : Nat) :
    Truthful { s with hudVisible, hudDB := { s.hudDB with hudVisible := some visible } } ↔
      s.isVisible = false ∨ (visible = 1 ↔ s.HudOn) := by
  rw [silent_one (t := { s with hudVisible, hudDB := { s.hudDB with hudVisible := some visible } }) .hudButton hs rfl rfl (by
    intro b hb
    cases b <;> first | rfl | exact absurd rfl hb)]
  apply or_congr_right
  show some ("Controller-HUD: " ++ onOff (some visible)) = some ("Controller-HUD: " ++ onOff (some _)) ↔ _
  rw [Option.some.injEq, String.append_right_inj, onOff_eq_iff, Option.some.injEq, Option.some.injEq]
  rfl

/-- The target mode is shown as `EnsureDefaults` leaves it. -/
theorem label_applyTargetMode (s : Menu) (b : MenuButton) : s.applyTargetMode.label b = s.label b := by
  unfold applyTargetMode
  by_cases h : s.db.targetMode = some .healer
  · rw [if_pos h]
  · rw [if_neg h]
    have hmode : (s.withDB fun db => { db with targetMode := some .dps }).db.ensureDefaults = s.db.ensureDefaults := by
      unfold Settings.ensureDefaults withDB
      simp [h]
    show labelText _ _ b = labelText _ _ b
    rw [hmode]
    rfl

theorem applyTargetMode_shown (s : Menu) : s.applyTargetMode.isVisible = s.isVisible ∧ s.applyTargetMode.labels = s.labels := by
  unfold applyTargetMode
  split <;> exact ⟨rfl, rfl⟩

theorem setControllerEnabled_iff (hs : Truthful s) (enabled : Bool) : Truthful (s.setControllerEnabled enabled) ↔
    s.isVisible = false ∨ (enabled = true ↔ s.ControllerOn) := by
  let u : Menu := s.withDB fun db => { db with controllerEnabled := some enabled.toNat }
  have hshown : (s.setControllerEnabled enabled).isVisible = s.isVisible ∧ (s.setControllerEnabled enabled).labels = s.labels := by
    cases enabled with
    | true => exact applyTargetMode_shown u
    | false => exact ⟨rfl, rfl⟩
  have hlabel : ∀ b, (s.setControllerEnabled enabled).label b = u.label b := by
    intro b
    cases enabled with
    | true => exact label_applyTargetMode u b
    | false => rfl
  rw [silent_one .controllerButton hs hshown.1 hshown.2 (by
    intro b hb
    rw [hlabel]
    cases b <;> first | rfl | exact absurd rfl hb)]
  apply or_congr_right
  rw [hlabel]
  show some ("Controller support: " ++ onOff (some enabled.toNat)) =
    some ("Controller support: " ++ onOff (s.db.controllerEnabled.or (some 1))) ↔ _
  rw [Option.some.injEq, String.append_right_inj, onOff_eq_iff]
  unfold ControllerOn
  cases s.db.controllerEnabled <;> cases enabled <;> simp

/-- The controller switch of the menu and of `/dino controller`. -/
theorem flipController_iff (hs : Truthful s) : Truthful (s.setControllerEnabled (s.db.controllerEnabled != some 1)) ↔
    s.isVisible = false ∨ s.db.controllerEnabled = none := by
  rw [setControllerEnabled_iff hs]
  apply or_congr_right
  unfold ControllerOn
  cases s.db.controllerEnabled with
  | none => simp
  | some value => by_cases h : value = 1 <;> simp [h]

/-! ### The other steps -/

theorem click_truthful (hs : Truthful s) {b : MenuButton} (hb : b ≠ .controllerButton) : Truthful (s.click b) := by
  cases b with
  | controllerButton => exact absurd rfl hb
  | dmmButton => exact hidden_truthful rfl
  | closeButton => exact hidden_truthful rfl
  | infoButton => exact hs
  | _ => exact updateMenu_truthful _

theorem toggleMenu_truthful (s : Menu) : Truthful s.toggleMenu := by
  unfold toggleMenu
  split
  · exact hidden_truthful rfl
  · exact fun _ => updateMenu_labels s

theorem setOption_truthful (hs : Truthful s) (set : Nat → Settings → Settings) (value : String) :
    Truthful (s.setOption set value) := by
  unfold setOption
  split
  · exact hs
  · exact updateMenu_truthful _

theorem installBindings_truthful (hs : Truthful s) : Truthful s.installBindings := by
  obtain ⟨hvisible, hlabels⟩ := applyTargetMode_shown s
  exact (silent_iff hs hvisible hlabels).mpr (Or.inr (label_applyTargetMode s))

/-- No label shows `uiEnabled`. -/
theorem uiEnabled_truthful (hs : Truthful s) (value : Option Nat) : Truthful (s.withDB fun db => { db with uiEnabled := value }) := by
  refine (silent_iff hs rfl rfl).mpr (Or.inr fun b => ?_)
  cases b <;> rfl

theorem truthful_ite {p : Prop} [Decidable p] (hs : Truthful s) (ht : Truthful t) : Truthful (if p then s else t) := by
  by_cases hp : p
  · rw [if_pos hp]
    exact hs
  · rw [if_neg hp]
    exact ht

theorem originalSlash_truthful (hs : Truthful s) {command : String} (hcommand : command ≠ "controller") (value : String) :
    Truthful (s.originalSlash command value) := by
  have hoption := fun set => setOption_truthful hs set value
  have hground : Truthful s.flipGroundSpellMode := updateMenu_truthful _
  have htarget : ∀ mode, Truthful (s.setTargetMode mode) := fun mode => updateMenu_truthful _
  unfold originalSlash
  refine truthful_ite (toggleMenu_truthful s) ?_
  refine truthful_ite hs ?_
  refine truthful_ite (installBindings_truthful hs) ?_
  refine truthful_ite (truthful_ite (updateMenu_truthful _) (hoption _)) ?_
  refine truthful_ite (truthful_ite (uiEnabled_truthful hs _) (hoption _)) ?_
  refine truthful_ite (hoption _) ?_
  refine truthful_ite (hoption _) ?_
  refine truthful_ite (truthful_ite hground (hoption _)) ?_
  refine truthful_ite (truthful_ite (updateMenu_truthful _) hs) ?_
  refine truthful_ite (truthful_ite (htarget _) (truthful_ite (htarget _) hs)) ?_
  rw [if_neg hcommand]
  exact hs

/-- `/dino controller`, whatever its value. -/
theorem controllerSlash_iff (hs : Truthful s) (value : String) :
    Truthful (s.originalSlash "controller" value) ↔ s.isVisible = false ∨ s.KeepsUnder "controller" value := by
  have hcontroller : s.originalSlash "controller" value =
      if value = "on" ∨ value = "an" ∨ value = "1" then s.setControllerEnabled true
      else if value = "off" ∨ value = "aus" ∨ value = "0" then s.setControllerEnabled false
      else s.setControllerEnabled (s.db.controllerEnabled != some 1) := rfl
  have hkeeps : s.KeepsUnder "controller" value =
      if value = "on" ∨ value = "an" ∨ value = "1" then s.ControllerOn
      else if value = "off" ∨ value = "aus" ∨ value = "0" then ¬ s.ControllerOn
      else s.db.controllerEnabled = none := rfl
  rw [hcontroller, hkeeps]
  by_cases hon : value = "on" ∨ value = "an" ∨ value = "1"
  · rw [if_pos hon, if_pos hon, setControllerEnabled_iff hs]
    simp
  rw [if_neg hon, if_neg hon]
  by_cases hoff : value = "off" ∨ value = "aus" ∨ value = "0"
  · rw [if_pos hoff, if_pos hoff, setControllerEnabled_iff hs]
    simp
  · rw [if_neg hoff, if_neg hoff, flipController_iff hs]

/-- `/dino hud`, whatever its value. -/
theorem hudSlash_iff (hs : Truthful s) (value : String) :
    Truthful (if value = "on" ∨ value = "an" then s.showHUD
      else if value = "off" ∨ value = "aus" then s.hideHUD
      else if s.hudVisible then s.hideHUD else s.showHUD) ↔
    s.isVisible = false ∨
      (if value = "on" ∨ value = "an" then s.HudOn
      else if value = "off" ∨ value = "aus" then ¬ s.HudOn
      else (s.hudVisible = true ↔ ¬ s.HudOn)) := by
  have hshow : Truthful s.showHUD ↔ s.isVisible = false ∨ s.HudOn := (hudVisible_iff hs true 1).trans (by simp)
  have hhide : Truthful s.hideHUD ↔ s.isVisible = false ∨ ¬ s.HudOn := (hudVisible_iff hs false 0).trans (by simp)
  by_cases hon : value = "on" ∨ value = "an"
  · rw [if_pos hon, if_pos hon, hshow]
  rw [if_neg hon, if_neg hon]
  by_cases hoff : value = "off" ∨ value = "aus"
  · rw [if_pos hoff, if_pos hoff, hhide]
  rw [if_neg hoff, if_neg hoff]
  cases hvisible : s.hudVisible with
  | true => simp [hhide]
  | false => simp [hshow]

theorem slash_iff (hs : Truthful s) (message : String) :
    Truthful (s.slashHandler message) ↔ s.isVisible = false ∨ s.KeepsUnder (findCommand message).1 (findCommand message).2 := by
  show Truthful (s.slash _ _ message) ↔ _
  have horiginal : s.originalSlashHandler message = s.originalSlash (findCommand message).1 (findCommand message).2 := rfl
  unfold slash
  rw [horiginal]
  generalize (findCommand message).1 = command
  generalize (findCommand message).2 = value
  by_cases hlock : command = "lock"
  · rw [if_pos hlock, KeepsUnder, if_pos hlock]
    exact (hudLocked_iff hs 1).trans (by simp)
  rw [if_neg hlock]
  by_cases hunlock : command = "unlock"
  · rw [if_pos hunlock, KeepsUnder, if_neg hlock, if_pos hunlock]
    exact (hudLocked_iff hs 0).trans (by simp)
  rw [if_neg hunlock]
  by_cases hhud : command = "hud"
  · rw [if_pos hhud, KeepsUnder, if_neg hlock, if_neg hunlock, if_pos hhud]
    exact hudSlash_iff hs value
  rw [if_neg hhud]
  by_cases hcontroller : command = "controller"
  · rw [hcontroller]
    exact controllerSlash_iff hs value
  · have hkeeps : s.KeepsUnder command value = True := by
      rw [KeepsUnder, if_neg hlock, if_neg hunlock, if_neg hhud, if_neg hcontroller]
    rw [hkeeps]
    simp [originalSlash_truthful hs hcontroller value]

theorem menuStep_iff (hs : Truthful s) (e : MenuEv) : Truthful (menuStep s e) ↔ s.isVisible = false ∨ s.KeepsLabels e := by
  cases e with
  | click b =>
    by_cases hb : b = .controllerButton
    · subst hb
      show Truthful (s.setControllerEnabled _) ↔ _
      rw [flipController_iff hs]
      simp [KeepsLabels]
    · exact ⟨fun _ => Or.inr fun h => absurd h hb, fun _ => click_truthful hs hb⟩
  | slash message => exact slash_iff hs message

end Menu

/-- From a menu that says what is set: it does so after every step exactly if each step
    with the menu open keeps the labels. -/
theorem menu_truthful_iff (s : Menu) (hs : s.Truthful) (es : List MenuEv) :
    (∀ k ≤ es.length, (stateAt menuStep s es k).Truthful) ↔
      Throughout menuStep (fun s e => s.isVisible = false ∨ s.KeepsLabels e) s es := by
  have hstep : ∀ (t : Menu) (e : MenuEv), Menu.Truthful t →
      (Menu.Truthful (menuStep t e) ↔ t.isVisible = false ∨ t.KeepsLabels e) := fun _ e ht => Menu.menuStep_iff ht e
  exact holds_throughout_iff menuStep hstep hs es

/-- The menu opened with the defaults. -/
def openedMenu : Menu := Menu.toggleMenu ⟨{}, {}, true, false, fun _ => ""⟩

def hudLockedThenReticleOff : List MenuEv := [.click .hudLockButton, .slash "Reticle off"]

theorem openedMenu_truthful_through : (stateAt menuStep openedMenu hudLockedThenReticleOff 1).Truthful ∧
    (stateAt menuStep openedMenu hudLockedThenReticleOff 2).Truthful := by
  have hall := (menu_truthful_iff openedMenu (Menu.toggleMenu_truthful _) hudLockedThenReticleOff).mpr (by decide)
  exact ⟨hall 1 (by decide), hall 2 (by decide)⟩

/-- The controller is switched off, and its button still says ON. -/
theorem stale_after_controller : ¬ ∀ (s : Menu), s.Truthful → ∀ (es : List MenuEv), ∀ k ≤ es.length,
    (stateAt menuStep s es k).Truthful := by
  intro hall
  have hsays := hall openedMenu (Menu.toggleMenu_truthful _) [.click .controllerButton] 1 (le_refl _) rfl .controllerButton
    "Controller support: OFF" (by decide)
  revert hsays
  decide

end Nostalgia.Controller
