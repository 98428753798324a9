/-
  Nostalgia.Controller.Handlers — what a handler does to UI mode, move by move.

  Steady moves touch neither UI mode nor the keys: fields nobody here depends on, a call of
  the client that is no hover script, `UpdateHighlight`. A scan adds arriving in a context;
  leaving UI mode, the layout pass and the settings are the other moves. No handler scans
  again behind leaving UI mode: there is no element and no context then (`Idle`).
  - `step_handled`: an event that neither shows other frames nor writes world bindings is
    steady moves and arrivals (`Stays`), then steady moves and departures (`Leaves`).
  - `step_rebinds`: an event that writes world bindings does nothing else.
-/

import Nostalgia.Controller.Focus
import Nostalgia.Controller.Session

namespace Nostalgia.Controller

open Nostalgia.Lua

/-! ## Moves -/

/-- A hover script of a frame. -/
def Call.hovers : Call → Bool
  | .onEnter _ | .onLeave _ => true
  | _ => false

/-- What UI mode, its keys and the hover scripts depend on. -/
structure Mode where
  screen : Screen
  bindings : String → String
  saves : List Save
  uiModeActive : Bool
  uiModeContext : Option Context
  active : Bool
  context : Option Context
  elements : List Element
  temporaryBindings : Option (List (String × String))
  suspendedFocus : Option SuspendedFocus
  tooltipElement : Option Element
  entry : Entry

def St.mode (s : St) : Mode where
  screen := s.screen
  bindings := s.bindings
  saves := s.saves
  uiModeActive := s.uiModeActive
  uiModeContext := s.uiModeContext
  active := s.nav.active
  context := s.nav.context
  elements := s.nav.elements
  temporaryBindings := s.nav.temporaryBindings
  suspendedFocus := s.nav.suspendedFocus
  tooltipElement := s.nav.tooltipElement
  entry := s.nav.entry

inductive Steady (c : Client) : St → St → Prop
  | keep {s t : St} : t.mode = s.mode → t.db = s.db → Steady c s t
  | perform (call : Call) (s : St) : call.hovers = false → Steady c s (s.perform c call)
  | setSlot (button : FrameId) (slot : Nat) (s : St) : Steady c s (s.setSlot button slot)
  | highlight (s : St) : Steady c s (updateHighlight c s)
  | trans {a b d : St} : Steady c a b → Steady c b d → Steady c a d

inductive Stays (c : Client) : St → St → Prop
  | steady {s t : St} : Steady c s t → Stays c s t
  | arrive (context : Context) (elements : List Element) (suspended : Option SuspendedFocus) (s : St) :
      Allowed s → elements ≠ [] → Stays c s (enterContext c context elements suspended s)
  | trans {a b d : St} : Stays c a b → Stays c b d → Stays c a d

inductive Leaves (c : Client) : St → St → Prop
  | steady {s t : St} : Steady c s t → Leaves c s t
  | leave (s : St) : Leaves c s (leaveUIMode c s)
  | layout (save : Bool) (s : St) : Leaves c s (applyButtonLayout c save s)
  | settings {s t : St} : t.mode = s.mode → Leaves c s t
  | trans {a b d : St} : Leaves c a b → Leaves c b d → Leaves c a d

variable {c : Client}

/-- No UI mode, and nothing left of one. -/
structure Idle (s : St) : Prop where
  active : s.nav.active = false
  context : s.nav.context = none
  elements : s.nav.elements = []

/-- Scans, none of them behind leaving UI mode. -/
inductive Scans (c : Client) (s t : St) : Prop
  | stays : Stays c s t → Scans c s t
  | left {u : St} : Stays c s u → Leaves c u t → Idle t → Scans c s t

def Handled (c : Client) (s t : St) : Prop := ∃ u, Stays c s u ∧ Leaves c u t

theorem Steady.refl (s : St) : Steady c s s := .keep rfl rfl

theorem Stays.refl (s : St) : Stays c s s := .steady (.refl s)

theorem Leaves.refl (s : St) : Leaves c s s := .steady (.refl s)

theorem Scans.refl (s : St) : Scans c s s := .stays (.refl s)

theorem Steady.scans {s t : St} (h : Steady c s t) : Scans c s t := .stays (.steady h)

theorem Scans.handled {s t : St} (h : Scans c s t) : Handled c s t := by
  cases h with
  | stays h => exact ⟨t, h, .refl t⟩
  | left h hleaves _ => exact ⟨_, h, hleaves⟩

theorem Leaves.handled {s t : St} (h : Leaves c s t) : Handled c s t := ⟨s, .refl s, h⟩

/-! ## Steady moves -/

theorem setIndex_steady (index : Nat) (s : St) : Steady c s (setIndex index s) := .keep rfl rfl

theorem updateAt_steady (index : Nat) (s : St) : Steady c s (updateHighlight c (setIndex index s)) :=
  (setIndex_steady index s).trans (.highlight _)

theorem keepLootIndex_steady (s : St) : Steady c s (keepLootIndex s) := .keep rfl rfl

theorem setWindows_steady (next : MapQuestWindow) (pending : Bool) (s : St) : Steady c s (s.setWindows next pending) :=
  .keep rfl rfl

/-- Of UI mode a steady move changes the screen and the tooltip only. -/
theorem Steady.frame {s t : St} (h : Steady c s t) :
    t.mode = { s.mode with screen := t.mode.screen, tooltipElement := t.mode.tooltipElement } ∧ t.db = s.db := by
  induction h with
  | keep hmode hdb =>
    rw [hmode]
    exact ⟨rfl, hdb⟩
  | perform call s _ => exact ⟨rfl, rfl⟩
  | setSlot button slot s => exact ⟨rfl, rfl⟩
  | highlight s =>
    obtain ⟨_, _, _, hsame, _⟩ := updateHighlight_hovered (c := c) s
    rw [hsame]
    exact ⟨rfl, rfl⟩
  | trans _ _ ih1 ih2 =>
    refine ⟨?_, ih2.2.trans ih1.2⟩
    rw [ih2.1, ih1.1]

theorem Steady.idle {s t : St} (h : Steady c s t) (hs : Idle s) : Idle t := by
  have hmode := h.frame.1
  exact ⟨(congrArg Mode.active hmode).trans hs.active, (congrArg Mode.context hmode).trans hs.context,
    (congrArg Mode.elements hmode).trans hs.elements⟩

theorem Scans.thenSteady {s t u : St} (h : Scans c s t) (hq : Steady c t u) : Scans c s u := by
  cases h with
  | stays h => exact .stays (h.trans (.steady hq))
  | left h hleaves hidle => exact .left h (hleaves.trans (.steady hq)) (hq.idle hidle)

theorem Steady.thenScans {s t u : St} (h : Steady c s t) (hscans : Scans c t u) : Scans c s u := by
  cases hscans with
  | stays hs => exact .stays (Stays.trans (.steady h) hs)
  | left hs hleaves hidle => exact .left (Stays.trans (.steady h) hs) hleaves hidle

/-- What follows a scan may scan again, if it does not behind leaving UI mode. -/
theorem Scans.andThen {s t u : St} (h : Scans c s t) (hnext : Scans c t u) (hidle : Idle t → Steady c t u) :
    Scans c s u := by
  cases h with
  | stays h =>
    cases hnext with
    | stays hn => exact .stays (h.trans hn)
    | left hn hleaves hi => exact .left (h.trans hn) hleaves hi
  | left h hleaves hi => exact (Scans.left h hleaves hi).thenSteady (hidle hi)

/-! ## Scans -/

/-- The navigation as `LeaveUIMode` leaves it. -/
def Nav.left (nav : Nav) : Nav := { nav with
  tooltipElement := none, temporaryBindings := none, active := false, context := none, elements := [], index := 1
  suspendedFocus := none, highlight := none }

theorem leave_nav {s : St} (h : s.nav.active = true) : (leaveUIMode c s).nav = s.nav.left := by
  have hleft : ∀ t : St, (∃ screen, t = s.withScreen screen) →
      (applyButtonLayout c true (setUIMode false none
        ((restoreBindings (t.perform c .hideTooltip)).withNav Nav.left))).nav = s.nav.left := by
    rintro t ⟨screen, rfl⟩
    rw [applyButtonLayout_nav]
    rfl
  unfold leaveUIMode
  rw [if_neg (by simp [h])]
  exact hleft _ (leaveTooltip_screen s.nav.tooltipElement s)

theorem leave_idle {s : St} (h : s.nav.active = true) : Idle (leaveUIMode c s) := by
  have hnav := leave_nav (c := c) h
  exact ⟨by rw [hnav]; rfl, by rw [hnav]; rfl, by rw [hnav]; rfl⟩

/-- The frames are read; building the list calls the client for two things only. -/
theorem buildElements_steady (s : St) : Steady c s (s.withScreen (buildElements c s.screen).1) := by
  unfold buildElements
  split
  · split
    · exact .refl s
    · dsimp only
      unfold ensureMerchantSellJunkButton
      split
      · exact .perform .createJunkButton s rfl
      · exact .refl s
    · exact .refl s
  · dsimp only
    split
    · exact .perform .closeLoot s rfl
    · exact .refl s

theorem leave_scans {s t : St} (h : Steady c s t) : Scans c s (leaveUIMode c t) := by
  cases ha : t.nav.active with
  | false => rw [leaveUIMode_idle ha]; exact h.scans
  | true => exact .left (.steady h) (.leave t) (leave_idle ha)

theorem focusOn_stays (context : Context) {elements : List Element} {s : St} (ha : Allowed s) (hne : elements ≠ []) :
    Stays c s (focusOn c context elements s).1 := by
  have harrive := Stays.arrive (c := c) context elements (suspendFocus s.nav context).1 s ha hne
  cases hc : chooseFocus s.world s.nav context elements (suspendFocus s.nav context).2 with
  | error err =>
    rw [focusOn_error hc]
    exact harrive
  | ok focus =>
    have hset : ∀ t : St, Steady c t (t.withNav (setFocus focus.1 focus.2)) := fun t => .keep rfl rfl
    rw [focusOn_ok hc]
    exact harrive.trans (.steady ((hset _).trans (.highlight _)))

theorem readFrames_steady (s : St) : Steady c s (s.withScreen (readFrames c s)) := by
  unfold readFrames
  split
  · exact .refl s
  · exact buildElements_steady s

theorem refreshElements_scans (s : St) : Scans c s (refreshElements c s).1 := by
  have hread := readFrames_steady (c := c) s
  rcases refresh_cases c s with ⟨_, hleft⟩ | ⟨context, elements, hreads, hfocus⟩
  · rw [hleft]
    exact leave_scans hread
  · rw [hfocus]
    exact .stays (Stays.trans (.steady hread) (focusOn_stays context hreads.allowed hreads.listed))

/-- What follows a scan, unless the scan ended in an error. -/
theorem after_refresh {s : St} {f : St → St × Option LuaError} (hf : ∀ t, Scans c t (f t).1)
    (hidle : ∀ t, Idle t → Steady c t (f t).1) : Scans c s (match refreshElements c s with
      | (t, some err) => (t, some err)
      | (t, none) => f t).1 := by
  have h := refreshElements_scans (c := c) s
  split
  · rename_i hr; rw [hr] at h; exact h
  · rename_i hr; rw [hr] at h; exact h.andThen (hf _) (hidle _)

/-! ## D-pad -/

theorem moveSpatial_steady (dir : Dir) (s : St) : Steady c s (moveSpatial c dir s) := by
  unfold moveSpatial
  split
  · exact .refl s
  · split
    · exact updateAt_steady _ s
    · exact .refl s

theorem performScroll_steady {target : Option FrameId} {up : Bool} {s s' : St} {scrolled : Bool}
    (h : performScroll c target up s = .ok (scrolled, s')) : Steady c s s' := by
  unfold performScroll at h
  dsimp only at h
  repeat' split at h
  all_goals cases h
  all_goals first
    | exact .refl s
    | exact .perform _ s rfl

theorem rescanKey_scans (key : String) (s : St) : Scans c s (rescanKey c key s).1 := by
  unfold rescanKey
  refine after_refresh (fun t => Steady.scans ?_) fun t _ => ?_
  all_goals
    dsimp only
    cases findKey t.nav.elements key with
    | some index => exact updateAt_steady index t
    | none => exact .highlight t

theorem moveFocus_scans (dir : Dir) (s : St) : Scans c s (moveFocus c dir s).1 := by
  unfold moveFocus
  dsimp only
  split
  · exact (moveSpatial_steady dir s).scans
  · split
    · exact (moveSpatial_steady dir s).scans
    · split
      · split
        · exact .refl s
        · rename_i hscroll
          split
          · exact (performScroll_steady hscroll).thenScans (refreshElements_scans _)
          · exact (performScroll_steady hscroll).scans
        · rename_i hscroll
          exact ((performScroll_steady hscroll).trans (moveSpatial_steady dir _)).scans
      · split
        · exact (moveSpatial_steady dir s).scans
        · split
          · exact .refl s
          · rename_i hscroll
            exact (performScroll_steady hscroll).thenScans (rescanKey_scans _ _)
          · rename_i hscroll
            exact ((performScroll_steady hscroll).trans (moveSpatial_steady dir _)).scans

/-- Without elements there is nothing to move from. -/
theorem moveFocus_idle (dir : Dir) {s : St} (h : Idle s) : Steady c s (moveFocus c dir s).1 := by
  unfold moveFocus
  have hnone : elementAt s.nav.elements s.nav.index = none := by
    rw [h.elements]
    simp [elementAt]
  rw [hnone]
  exact moveSpatial_steady dir s

theorem moveGroupLootRoll_steady (dir : Dir) (s : St) : Steady c s (moveGroupLootRoll c dir s).2 := by
  unfold moveGroupLootRoll
  split
  · exact updateAt_steady _ s
  · exact .refl s

theorem moveInRolls_scans (dir : Dir) (s : St) : Scans c s (moveInRolls c dir s).1 := by
  unfold moveInRolls
  split
  · refine after_refresh (fun t => ?_) fun t hidle => ?_
    · split
      · have hroll := moveGroupLootRoll_steady (c := c) dir t
        split
        · rename_i hm; rw [hm] at hroll; exact hroll.scans
        · rename_i hm; rw [hm] at hroll; exact hroll.thenScans (moveFocus_scans dir _)
      · exact moveFocus_scans dir t
    · rw [if_neg (by rw [hidle.context]; decide)]
      exact moveFocus_idle dir hidle
  · exact moveFocus_scans dir s

theorem uiMoveDir_scans (dir : Dir) (s : St) : Scans c s (uiMoveDir c dir s).1 := by
  have hrest : ∀ t, Scans c t (if t.nav.elements.isEmpty then (t, none) else moveInRolls c dir t).1 := by
    intro t
    split
    · exact .refl t
    · exact moveInRolls_scans dir t
  unfold uiMoveDir
  by_cases ha : s.nav.active = true
  · rw [if_pos ha]
    exact hrest s
  · rw [if_neg ha]
    refine after_refresh hrest fun t hidle => ?_
    rw [if_pos (by rw [hidle.elements]; rfl)]
    exact .refl t

theorem uiMove_scans (forward : Bool) (s : St) : Scans c s (uiMove c forward s).1 := by
  have hnext : ∀ t : St, Steady c t (if !t.nav.active || t.nav.elements.isEmpty then (t, none)
      else (updateHighlight c (setIndex (cyclic t.nav.elements.length t.nav.index forward) t),
        (none : Option LuaError))).1 := by
    intro t
    split
    · exact .refl t
    · exact updateAt_steady _ t
  unfold uiMove
  exact after_refresh (fun t => (hnext t).scans) fun t _ => hnext t

/-! ## Confirm and Cancel -/

theorem clearCursor_steady (s : St) : Steady c s (clearCursor c s) := by
  unfold clearCursor
  split
  · exact .perform _ s rfl
  · exact .refl s

theorem activateLootButton_steady (button : FrameId) (s : St) : Steady c s (activateLootButton c button s) := by
  unfold activateLootButton
  split
  · exact (Steady.setSlot _ _ s).trans (.perform _ _ rfl)
  · exact .refl s

theorem groupLootRoll_steady (rollFrame button : FrameId) (choice : Choice) (s : St) :
    Steady c s (groupLootRoll c rollFrame button choice s) := by
  have hroll : ∀ rollType t, Steady c t (activateGroupLootRoll c rollFrame rollType t) := by
    intro rollType t
    unfold activateGroupLootRoll
    split
    · split
      · exact .perform _ t rfl
      · exact .refl t
    · exact .refl t
  have hclick : Steady c s (if (s.world.frame button).clickable then s.perform c (.click button .LeftButton) else s) := by
    split
    · exact .perform _ s rfl
    · exact .refl s
  unfold groupLootRoll
  dsimp only
  split
  · exact hclick.trans (hroll _ _)
  · exact hclick

theorem activateMerchantRepairItem_scans (button : FrameId) (s : St) :
    Scans c s (activateMerchantRepairItem c button s) := by
  unfold activateMerchantRepairItem
  split
  · dsimp only
    have hclick : Steady c s (s.perform c (.click button .LeftButton)) := .perform _ s rfl
    split
    · have hopen : ∀ t, Steady c t (if visible t.world "CharacterFrame" then t else t.perform c .toggleCharacter) := by
        intro t
        split
        · exact .refl t
        · exact .perform _ t rfl
      have h := (hclick.trans (hopen _)).thenScans (refreshElements_scans (c := c) _)
      split
      · rename_i hr; rw [hr] at h; exact h
      · rename_i hr
        rw [hr] at h
        refine h.thenSteady ?_
        split
        · exact updateAt_steady _ _
        · exact .refl _
    · exact hclick.scans
  · exact .refl s

/-- Every other action is at most calls of the client. -/
theorem runAction_scans (action : ElementAction) (s : St) : Scans c s (runAction c action s) := by
  cases action with
  | activateMerchantRepairItem button => exact activateMerchantRepairItem_scans button s
  | activateLootButton button => exact (activateLootButton_steady button s).scans
  | groupLootRoll rollFrame button choice => exact (groupLootRoll_steady rollFrame button choice s).scans
  | activateTalentTab button =>
    simp only [runAction, activateTalentTab]
    have hclick : Steady c s (s.perform c (.click button .LeftButton)) := .perform _ s rfl
    exact hclick.scans.thenSteady (.keep rfl rfl)
  | toggleSelectedQuestWatch => exact (Steady.perform _ s rfl).scans
  | activateMerchantButton button =>
    simp only [runAction, activateMerchantButton]
    repeat' split
    all_goals first
      | exact .refl s
      | exact ((clearCursor_steady s).trans (.perform _ _ rfl)).scans
      | exact (clearCursor_steady s).scans
  | activateMerchantBuyBackItem button =>
    simp only [runAction, activateMerchantBuyBackItem]
    repeat' split
    all_goals first
      | exact .refl s
      | exact ((clearCursor_steady s).trans (.perform _ _ rfl)).scans
      | exact (clearCursor_steady s).scans
  | sellAllGreyItems =>
    simp only [runAction]
    split
    · exact ((Steady.perform _ s rfl).trans (.perform _ _ rfl)).scans
    · exact .refl s
  | activateContainerItemInMerchant button =>
    simp only [runAction, activateContainerItemInMerchant]
    repeat' split
    all_goals first
      | exact .refl s
      | exact (Steady.perform _ s rfl).scans
  | activateStableSlot button =>
    simp only [runAction, activateStableSlot]
    split
    · exact (Steady.perform _ s rfl).scans
    · exact .refl s
  | activateTalentButton button =>
    simp only [runAction, activateTalentButton]
    split
    · exact .refl s
    · exact (Steady.perform _ s rfl).scans
  | activateWorldStateScoreLeave =>
    simp only [runAction]
    split
    · exact (Steady.perform _ s rfl).scans
    · exact .refl s
  | activateWorldStateScoreTab tab =>
    simp only [runAction]
    split
    · exact (Steady.perform _ s rfl).scans
    · exact .refl s
  | closeWorldStateScoreFrame =>
    simp only [runAction]
    split
    · exact (Steady.perform _ s rfl).scans
    · exact .refl s

theorem firePress_scans (press : Press) (s : St) : Scans c s (firePress c press s) := by
  cases press with
  | closeLoot => exact (Steady.perform _ s rfl).scans
  | lootButton button slot => exact (activateLootButton_steady button s).scans
  | element element =>
    simp only [firePress]
    split
    · exact runAction_scans _ s
    · split
      · exact (Steady.perform _ s rfl).scans
      · exact .refl s

/-- The first stage of Confirm only scans. -/
theorem pressTarget_state (s : St) : (pressTarget c s).1 = s ∨ (pressTarget c s).1 = (refreshElements c s).1 := by
  have hscan : ∀ {t err}, refreshElements c s = (t, err) → t = s ∨ t = (refreshElements c s).1 := by
    intro t err hr
    rw [hr]
    exact Or.inr rfl
  unfold pressTarget
  split
  · by_cases hempty : s.nav.elements.isEmpty = true
    · rw [if_pos hempty]
      split
      · rename_i hr; exact hscan hr
      · rename_i hr; exact hscan hr
    · rw [if_neg hempty]
      exact Or.inl rfl
  · dsimp only
    split
    · rename_i hr; exact hscan hr
    · rename_i hr
      repeat' split
      all_goals exact hscan hr

theorem pressTarget_scans (s : St) : Scans c s (pressTarget c s).1 := by
  rcases pressTarget_state (c := c) s with h | h
  · rw [h]
    exact .refl s
  · rw [h]
    exact refreshElements_scans s

theorem lootPress_idle {s : St} (h : Idle s) : lootPress s = none := by
  unfold lootPress
  rw [h.elements]
  simp [elementAt]

/-- Behind leaving UI mode Confirm has nothing to activate. -/
theorem pressTarget_idle {s t : St} {err : Option LuaError} {press : Option Press}
    (h : pressTarget c s = (t, err, press)) (hidle : Idle t) : press = none := by
  unfold pressTarget at h
  split at h
  · split at h
    · cases h
      rfl
    · cases h
      exact lootPress_idle hidle
  · dsimp only at h
    split at h
    · cases h
      rfl
    · split at h
      · rename_i hactive
        repeat' split at h
        all_goals
          cases h
          exact absurd (hidle.active.symm.trans hactive) Bool.false_ne_true
      · cases h
        rfl

theorem uiActivate_scans (s : St) : Scans c s (uiActivate c s).1 := by
  have h := pressTarget_scans (c := c) s
  unfold uiActivate
  dsimp only
  split
  · rename_i hp; rw [hp] at h; exact h
  · rename_i hp
    rw [hp] at h
    dsimp only
    split
    · exact h.thenSteady (keepLootIndex_steady _)
    · exact h
  · rename_i t press hp
    rw [hp] at h
    have hno : ∀ {u}, Idle t → Steady c t u := fun hidle => by cases pressTarget_idle hp hidle
    have hfire := firePress_scans (c := c) press t
    refine h.andThen ?_ hno
    split
    · exact hfire.thenSteady (keepLootIndex_steady _)
    · -- the last scan is for talents and rolls only
      refine hfire.andThen ?_ fun hidle => ?_
      · split
        · exact refreshElements_scans _
        · exact .refl _
      · rw [if_neg (by rw [hidle.context]; decide)]
        exact .refl _

theorem uiCancel_steady (s : St) : Steady c s (uiCancel c s) := by
  unfold uiCancel
  dsimp only
  repeat' split
  all_goals first
    | exact .perform _ s rfl
    | exact (Steady.perform _ s rfl).trans (.perform _ _ rfl)
    | exact ((Steady.perform _ s rfl).trans (.perform _ _ rfl)).trans (.perform _ _ rfl)

/-! ## Windows -/

theorem performs_steady {α : Type} {f : α → Call} (hf : ∀ a, (f a).hovers = false) : ∀ (l : List α) (s : St),
    Steady c s (l.foldl (fun s a => s.perform c (f a)) s) := by
  intro l
  induction l with
  | nil => intro s; exact .refl s
  | cons a l ih => intro s; exact (Steady.perform (f a) s (hf a)).trans (ih _)

theorem request_scans {f : Nav → Nav} (s : St) (hf : (s.withNav f).mode = s.mode) :
    Scans c s (refreshElements c (s.withNav f)).1 :=
  (Steady.keep hf rfl).thenScans (refreshElements_scans _)

theorem closeWorldMap_steady (s : St) : Steady c s (closeWorldMap c s) := by
  unfold closeWorldMap
  dsimp only
  repeat' split
  all_goals first
    | exact .refl s
    | exact .perform _ s rfl
    | exact (Steady.perform _ s rfl).trans (.perform _ _ rfl)

theorem openAndFocusQuestLog_scans (s : St) : Scans c s (openAndFocusQuestLog c s) := by
  unfold openAndFocusQuestLog requestQuestLogFocus
  refine Steady.thenScans ?_ (request_scans _ rfl)
  split
  · exact .refl s
  · exact .perform _ s rfl

/-- The map's scan, and the window to come next where no error ended it. -/
theorem worldMapNext_scans (t : St) : Scans c t (match requestWorldMapFocus c t with
    | (s, some _) => s
    | (s, none) => s.setWindows .questlog s.pendingMapQuestWindow) := by
  have hscan : Scans c t (requestWorldMapFocus c t).1 := request_scans t rfl
  generalize requestWorldMapFocus c t = result at hscan ⊢
  obtain ⟨u, err⟩ := result
  cases err with
  | some _ => exact hscan
  | none => exact hscan.thenSteady (setWindows_steady _ _ u)

theorem toggleMapQuest_scans (s : St) : Scans c s (toggleMapQuest c s) := by
  unfold toggleMapQuest
  split
  · refine (setWindows_steady .map false s).thenScans ?_
    dsimp only
    split
    · exact (closeWorldMap_steady _).scans
    · exact (Steady.perform _ _ rfl).thenScans (request_scans _ rfl)
  · split
    · have hquest : ∀ t, Steady c t (if visible t.world "QuestLogFrame" then t.perform c .toggleQuestLog else t) := by
        intro t
        split
        · exact .perform _ t rfl
        · exact .refl t
      have hmap : ∀ t, Steady c t (if visible t.world "WorldMapFrame" then t else t.perform c .toggleWorldMap) := by
        intro t
        split
        · exact .refl t
        · exact .perform _ t rfl
      exact (((setWindows_steady s.nextMapQuestWindow false s).trans (hquest _)).trans (hmap _)).thenScans
        (worldMapNext_scans _)
    · refine (setWindows_steady .map s.pendingMapQuestWindow s).thenScans ?_
      dsimp only
      split
      · exact ((closeWorldMap_steady _).trans (setWindows_steady _ _ _)).scans
      · exact openAndFocusQuestLog_scans _

theorem onUpdate_scans (s : St) : Scans c s (onUpdate c s) := by
  unfold onUpdate
  split
  · split
    · exact (closeWorldMap_steady s).scans
    · exact (setWindows_steady _ _ s).thenScans (openAndFocusQuestLog_scans _)
  · exact .refl s

theorem toggleMenuWindows_scans (s : St) : Scans c s (toggleMenuWindows c s) := by
  unfold toggleMenuWindows
  dsimp only
  split
  · exact ((Steady.perform _ s rfl).trans (.perform _ _ rfl)).scans
  · split
    · have hclose : Steady c s ((s.perform c .closeAllBags).perform c (.hideUIPanel "CharacterFrame")) :=
        (Steady.perform _ s rfl).trans (.perform _ _ rfl)
      have htalents := hclose.trans (.perform .toggleTalentFrame _ rfl)
      split
      · split
        · exact htalents.thenScans (request_scans _ rfl)
        · exact htalents.scans
      · exact hclose.scans
    · exact ((Steady.perform _ s rfl).trans (.perform _ _ rfl)).scans

theorem onNavigationEvent_handled (e : NavigationEvent) (s : St) : Handled c s (onNavigationEvent c e s) := by
  have hset : ∀ f : Nav → Nav, (s.withNav f).mode = s.mode → Steady c s (s.withNav f) := fun f hf => .keep hf rfl
  cases e with
  | MERCHANT_SHOW => exact ((hset _ rfl).trans (.perform _ _ rfl)).scans.handled
  | MERCHANT_CLOSED => exact ((hset _ rfl).trans (.perform _ _ rfl)).scans.handled
  | BANKFRAME_OPENED =>
    have hopen := (hset (fun nav => { nav with pendingBankFocus := true }) rfl).trans
      (.perform (c := c) .openAllBags _ rfl)
    exact (hopen.trans (performs_steady (fun _ => rfl) _ _)).scans.handled
  | BANKFRAME_CLOSED => exact ((hset _ rfl).trans (.perform _ _ rfl)).scans.handled
  | TAXIMAP_CLOSED =>
    simp only [onNavigationEvent]
    split
    · exact (Leaves.leave s).handled
    · exact (Scans.refl s).handled

/-! ## Settings -/

theorem withDB_leaves (f : DB → DB) (s : St) : Leaves c s (s.withDB f) := .settings rfl

theorem updateMenu_leaves {s t : St} (h : Leaves c s t) : Leaves c s (updateMenu t) := h.trans (.settings rfl)

/-- A setting is written, the layout pass runs, the menu is updated. -/
theorem setting_leaves (f : DB → DB) (s : St) : Leaves c s (updateMenu (applyButtonLayout c true (s.withDB f))) :=
  updateMenu_leaves ((withDB_leaves f s).trans (.layout true _))

theorem onUiCommand_leaves (value : OptionValue) (s : St) : Leaves c s (onUiCommand c value s) := by
  have hset : Leaves c s (setUiEnabled value s) := by
    cases value with
    | toggle =>
      simp only [setUiEnabled]
      exact withDB_leaves _ s
    | on => exact updateMenu_leaves (withDB_leaves _ s)
    | off => exact updateMenu_leaves (withDB_leaves _ s)
    | unknown => exact .refl s
  unfold onUiCommand
  dsimp only
  split
  · exact hset.trans (.leave _)
  · exact hset

theorem onSwapAB_leaves (s : St) : Leaves c s (onSwapAB c s) := by
  unfold onSwapAB
  apply updateMenu_leaves
  have hlayout : ∀ f : DB → DB, Leaves c s (applyButtonLayout c true (s.withDB f)) :=
    fun f => (withDB_leaves f s).trans (.layout true _)
  split
  · exact (hlayout _).trans (.leave _)
  · exact hlayout _

theorem onLayout_leaves (nintendo : Bool) (s : St) : Leaves c s (onLayout c nintendo s) := by
  unfold onLayout
  apply updateMenu_leaves
  split
  · exact withDB_leaves _ s
  · exact (withDB_leaves _ s).trans (.layout true _)

theorem onSpellsChanged_leaves (s : St) : Leaves c s (onSpellsChanged c s) := by
  have hrefresh : Leaves c s (refreshPrimaryAction s) := .settings rfl
  unfold onSpellsChanged
  dsimp only
  split
  · exact hrefresh
  · exact hrefresh.trans (.layout false _)

/-! ## Events -/

/-- The event shows other frames. -/
def Ev.shows : Ev → Bool
  | .frames _ => true
  | _ => false

theorem step_handled (s : St) {e : Ev} (hw : e.shows = false) (hi : e.installs = false) (ht : e.setsTarget = false) :
    Handled c s (step c s e) := by
  cases e with
  | frames w => cases hw
  | scan => exact (refreshElements_scans s).handled
  | navigation e => exact onNavigationEvent_handled e s
  | uiMove forward => exact (uiMove_scans forward s).handled
  | uiMoveDir dir => exact (uiMoveDir_scans dir s).handled
  | uiActivate => exact (uiActivate_scans s).handled
  | uiCancel => exact (uiCancel_steady s).scans.handled
  | toggleMenuWindows => exact (toggleMenuWindows_scans s).handled
  | toggleMapQuest => exact (toggleMapQuest_scans s).handled
  | update => exact (onUpdate_scans s).handled
  | setControllerEnabled enabled =>
    cases enabled with
    | true => cases hi
    | false => exact ((withDB_leaves _ s).trans (.leave _)).handled
  | bind => cases hi
  | ui value => exact (onUiCommand_leaves value s).handled
  | swapAB => exact (onSwapAB_leaves s).handled
  | swapXY => exact (setting_leaves _ s).handled
  | swapMenuButtons => exact (setting_leaves _ s).handled
  | secondaryWindows =>
    have hset := withDB_leaves (c := c) (fun db => { db with secondaryWindows := toggled db.secondaryWindows }) s
    refine (updateMenu_leaves (hset.trans ?_)).handled
    split
    · exact .steady (setWindows_steady _ _ _)
    · exact .refl _
  | layout nintendo => exact (onLayout_leaves nintendo s).handled
  | targetMode mode => cases ht
  | updateMenu => exact (updateMenu_leaves (.refl s)).handled
  | enteringWorld => cases hi
  | spellsChanged => exact (onSpellsChanged_leaves s).handled

/-! ## World bindings -/

/-- Bindings and settings were written; a save tells the mode it was made in. -/
structure Rebinds (s t : St) : Prop where
  screen : t.screen = s.screen
  nav : t.nav = s.nav
  uiModeActive : t.uiModeActive = s.uiModeActive
  uiModeContext : t.uiModeContext = s.uiModeContext
  saves : ∀ save ∈ t.saves, save ∈ s.saves ∨ save.uiMode = s.nav.active

theorem Rebinds.refl (s : St) : Rebinds s s := ⟨rfl, rfl, rfl, rfl, fun _ h => Or.inl h⟩

theorem Rebinds.trans {a b d : St} (h1 : Rebinds a b) (h2 : Rebinds b d) : Rebinds a d := by
  refine ⟨h2.screen.trans h1.screen, h2.nav.trans h1.nav, h2.uiModeActive.trans h1.uiModeActive,
    h2.uiModeContext.trans h1.uiModeContext, fun save hsave => ?_⟩
  rcases h2.saves save hsave with h | h
  · exact h1.saves save h
  · rw [h1.nav] at h
    exact Or.inr h

theorem rebinds_withDB (f : DB → DB) (s : St) : Rebinds s (s.withDB f) := ⟨rfl, rfl, rfl, rfl, fun _ h => Or.inl h⟩

theorem rebinds_refreshPrimaryAction (s : St) : Rebinds s (refreshPrimaryAction s) :=
  ⟨rfl, rfl, rfl, rfl, fun _ h => Or.inl h⟩

theorem rebinds_setBinding (key action : String) (s : St) : Rebinds s (setBinding key action s) :=
  ⟨rfl, rfl, rfl, rfl, fun _ h => Or.inl h⟩

theorem rebinds_saveBindings (s : St) : Rebinds s (saveBindings s) := by
  refine ⟨rfl, rfl, rfl, rfl, fun save hsave => ?_⟩
  rcases List.mem_append.mp hsave with h | h
  · exact Or.inl h
  · obtain rfl := List.mem_singleton.mp h
    exact Or.inr rfl

theorem rebinds_foldl {α : Type} {f : St → α → St} (hf : ∀ s a, Rebinds s (f s a)) :
    ∀ (l : List α) (s : St), Rebinds s (l.foldl f s) := by
  intro l
  induction l with
  | nil => intro s; exact .refl s
  | cons a l ih => intro s; exact (hf s a).trans (ih _)

theorem rebinds_applyTargetMode (save : Bool) (s : St) : Rebinds s (applyTargetMode save s) := by
  have hset : ∀ a b, Rebinds s (setBinding "NUMPAD3" a (setBinding "NUMPAD1" b s)) :=
    fun a b => (rebinds_setBinding _ _ s).trans (rebinds_setBinding _ _ _)
  unfold applyTargetMode
  dsimp only
  cases s.db.targetMode <;> (dsimp only; split)
  · exact (hset _ _).trans (rebinds_saveBindings _)
  · exact hset _ _
  · exact (hset _ _).trans (rebinds_saveBindings _)
  · exact hset _ _

theorem rebinds_applyButtonLayout (save : Bool) (s : St) : Rebinds s (applyButtonLayout c save s) := by
  cases h : s.uiModeActive with
  | true =>
    rw [applyButtonLayout_active save h]
    exact .refl s
  | false =>
    rw [applyButtonLayout_eq save h]
    have hwrite : Rebinds s (s.withBindings (Nostalgia.Machine.putAll s.bindings (worldLayout c s))) :=
      ⟨rfl, rfl, rfl, rfl, fun _ h => Or.inl h⟩
    cases save with
    | true => exact hwrite.trans (rebinds_saveBindings _)
    | false => exact hwrite

theorem rebinds_setMappedBinding (key : Option String) (action : String) (s : St) :
    Rebinds s (setMappedBinding key action s) := by
  unfold setMappedBinding
  split
  · exact rebinds_setBinding _ _ s
  · exact .refl s

theorem rebinds_installWorldBindings (s : St) : Rebinds s (installWorldBindings c s) := by
  have hkey : ∀ (s : St) (b : Option String × String), Rebinds s (setMappedBinding b.1 b.2 s) :=
    fun s b => rebinds_setMappedBinding b.1 b.2 s
  exact (rebinds_foldl hkey _ s).trans (rebinds_saveBindings _)

/-- An install saves last; without force it may do nothing. -/
theorem installBindings_spec (force : Bool) (s : St) : (installBindings c force s = s ∧ force = false) ∨
    ∃ t f, installBindings c force s = (saveBindings t).withDB f ∧ Rebinds s t := by
  unfold installBindings
  split
  · rename_i hskip
    exact Or.inl ⟨rfl, by simpa using (Bool.and_eq_true_iff.mp hskip).1⟩
  · have hcamera : ∀ (s : St) (b : String × String × String × String), Rebinds s
        (if s.bindings b.1 == b.2.1 || s.bindings b.1 == b.2.2.1 then setBinding b.1 b.2.2.2 s else s) := by
      intro s b
      split
      · exact rebinds_setBinding _ _ s
      · exact .refl s
    have hkey : ∀ (s : St) (b : String × String), Rebinds s (setBinding b.1 b.2 s) := fun s b => rebinds_setBinding _ _ s
    have h1 := rebinds_foldl hcamera obsoleteCameraBindings s
    have h2 := h1.trans (rebinds_foldl hkey controllerBindings _)
    have h3 := h2.trans (rebinds_applyTargetMode false _)
    have h4 := h3.trans (rebinds_applyButtonLayout (c := c) false _)
    exact Or.inr ⟨_, _, rfl, h4.trans (rebinds_installWorldBindings _)⟩

theorem rebinds_installBindings (force : Bool) (s : St) : Rebinds s (installBindings c force s) := by
  rcases installBindings_spec (c := c) force s with ⟨he, _⟩ | ⟨t, f, he, hw⟩
  · rw [he]
    exact .refl s
  · rw [he]
    exact (hw.trans (rebinds_saveBindings t)).trans (rebinds_withDB f _)

theorem rebinds_onTargetMode (mode : TargetMode) (s : St) : Rebinds s (onTargetMode mode s) :=
  ((rebinds_withDB _ s).trans (rebinds_applyTargetMode true _)).trans (rebinds_refreshPrimaryAction _)

/-- Entering the world saves last. -/
theorem onEnteringWorld_spec (s : St) : ∃ t, onEnteringWorld c s = saveBindings t ∧ Rebinds s t := by
  have h1 := (rebinds_installBindings (c := c) false s).trans (rebinds_refreshPrimaryAction _)
  have h2 := h1.trans (rebinds_applyButtonLayout (c := c) false _)
  have h3 := h2.trans (rebinds_applyTargetMode false _)
  exact ⟨_, rfl, h3.trans (rebinds_installWorldBindings (c := c) _)⟩

theorem step_rebinds (s : St) {e : Ev} (h : e.installs = true ∨ e.setsTarget = true) : Rebinds s (step c s e) := by
  cases e with
  | bind => exact rebinds_installBindings true s
  | setControllerEnabled enabled =>
    cases enabled with
    | true => exact (rebinds_withDB _ s).trans (rebinds_installBindings true _)
    | false => rcases h with h | h <;> cases h
  | targetMode mode => exact rebinds_onTargetMode mode s
  | enteringWorld =>
    obtain ⟨t, ht, hw⟩ := onEnteringWorld_spec (c := c) s
    show Rebinds s (onEnteringWorld c s)
    rw [ht]
    exact hw.trans (rebinds_saveBindings t)
  | _ => rcases h with h | h <;> cases h

end Nostalgia.Controller
