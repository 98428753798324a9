/-
  Nostalgia.Controller.Suspended — the loot rolls give the focus back (DinoControllerUI.lua).

  The first scan that finds loot rolls remembers the focus (`suspendedFocus`). The first
  scan that finds none takes it over, ahead of every other focus rule; if that scan is not
  in the remembered context, or leaves UI mode, the focus is forgotten.
  - `step_suspended`: scans of rolls and D-pad moves keep it, whatever rolls are shown.
  - `scan_gives_back`, `scan_forgets`: what the scan behind the rolls does.
  - `lootRolls_give_back`: both, behind every run among rolls.
-/

import Nostalgia.Controller.Completes
import Nostalgia.Controller.FocusStability
import Nostalgia.Controller.Handlers
import Nostalgia.Controller.RollMoves

namespace Nostalgia.Controller

open Nostalgia.Lua Nostalgia.Machine

/-! ## The law -/

section

variable (c : Client)

def showsRolls (s : St) : Bool := (scanned c s).any (·.1 == .lootroll)

/-- The events of a run among rolls: the game shows other frames, scans that find rolls,
    moves with one. -/
def amongRolls (s : St) : Ev → Bool
  | .frames _ => true
  | .scan | .uiMove _ | .uiMoveDir _ => showsRolls c s
  | _ => false

/-- The events that scan before anything else. -/
def Ev.scansFirst : Ev → Bool
  | .scan | .uiMove _ => true
  | _ => false

def St.remember (memory : Option SuspendedFocus) (s : St) : St :=
  s.withNav fun nav => { nav with suspendedFocus := memory }

/-- A scan's outcome with the focus back: on the key, else on the index in the new list. -/
structure GivesBack (context : Context) (elements : List Element) (key : String) (index : Nat)
    (result : St × Option LuaError) : Prop where
  error : result.2 = none
  active : result.1.nav.active = true
  inContext : result.1.nav.context = some context
  listing : result.1.nav.elements = elements
  onKey : (∃ e ∈ elements, e.key = key) → ∃ e, elementAt elements result.1.nav.index = some e ∧ e.key = key
  onIndex : (∀ e ∈ elements, e.key ≠ key) → result.1.nav.index = clampTo elements index
  forgotten : result.1.nav.suspendedFocus = none

/-- A scan that forgets the focus: from then on all is as if none had been remembered. -/
structure Forgets (c : Client) (t : St) : Prop where
  forgotten : (refreshElements c t).1.nav.suspendedFocus = none
  error : (refreshElements c t).2 = (refreshElements c (t.remember none)).2
  unused : ∀ later : List Ev,
    run (step c) (refreshElements c t).1 later = run (step c) (refreshElements c (t.remember none)).1 later

end

variable {c : Client} {s : St} {context : Context} {elements : List Element}

/-! ## Scans -/

theorem reads_rolls (hallowed : Allowed s) (hrolls : groupLootRolls s.world ≠ []) :
    Reads c s .lootroll (groupLootRolls s.world) := by
  refine ⟨hallowed, ?_, hrolls⟩
  have hempty : (groupLootRolls s.screen.world).isEmpty = false := by
    simpa using (show groupLootRolls s.screen.world ≠ [] from hrolls)
  unfold buildElements
  rw [hempty, if_neg Bool.false_ne_true]
  rfl

theorem showsRolls_iff : showsRolls c s = true ↔ Allowed s ∧ groupLootRolls s.world ≠ [] := by
  unfold showsRolls
  rw [Option.any_eq_true]
  constructor
  · intro ⟨⟨context, elements⟩, hscan, hrolls⟩
    have hreads := scanned_iff.mp hscan
    obtain rfl : context = .lootroll := by simpa using hrolls
    exact ⟨hreads.allowed, (buildElements_lootroll_iff s.screen).mp (congrArg Prod.fst hreads.built)⟩
  · intro ⟨hallowed, hrolls⟩
    exact ⟨(.lootroll, groupLootRolls s.world), scanned_iff.mpr (reads_rolls hallowed hrolls), rfl⟩

/-- The rules of the rolls always give a focus. -/
theorem scan_rolls (h : showsRolls c s = true) : ∃ index,
    Arrives .lootroll (groupLootRolls s.world) index (suspendFocus s.nav .lootroll).1 (refreshElements c s) := by
  obtain ⟨hallowed, hrolls⟩ := showsRolls_iff.mp h
  rw [refresh_scanned (reads_rolls hallowed hrolls)]
  cases hc : chooseFocus (readFrames c s).world s.nav .lootroll (groupLootRolls s.world) (suspendFocus s.nav .lootroll).2 with
  | error err => exact absurd (chooseFocus_error_iff.mp ⟨err, hc⟩).1 (by decide)
  | ok focus => exact ⟨focus.1, focusOn_arrives (c := c) (s := s.withScreen (readFrames c s)) hallowed hc⟩

/-! ## Among the rolls -/

/-- In the rolls with a focus remembered. -/
structure Suspended (memory : SuspendedFocus) (s : St) : Prop where
  active : s.nav.active = true
  inRolls : s.nav.context = some .lootroll
  memory : s.nav.suspendedFocus = some memory

variable {memory : SuspendedFocus}

theorem Suspended.steady {s t : St} (h : Steady c s t) (hs : Suspended memory s) : Suspended memory t := by
  have hmode := h.frame.1
  exact ⟨(congrArg Mode.active hmode).trans hs.active, (congrArg Mode.context hmode).trans hs.inRolls,
    (congrArg Mode.suspendedFocus hmode).trans hs.memory⟩

/-- The first scan of rolls remembers the focus. -/
theorem scan_suspends {old : Element} (hrolls : context ≠ .lootroll) (hfocus : Focused context old s)
    (h : showsRolls c s = true) : (refreshElements c s).2 = none ∧
      Suspended ⟨context, some old.key, s.nav.index⟩ (refreshElements c s).1 := by
  obtain ⟨index, harrives⟩ := scan_rolls h
  refine ⟨harrives.error, harrives.active, harrives.inContext, ?_⟩
  have hchanged : (Context.lootroll == Context.lootroll && s.nav.context != some .lootroll) = true := by
    rw [hfocus.context]
    simpa using hrolls
  rw [harrives.memory]
  unfold suspendFocus
  rw [if_pos hchanged, hfocus.active, hfocus.context, hfocus.focus]
  rfl

/-- The later ones keep it. -/
theorem Suspended.scan (hs : Suspended memory s) (h : showsRolls c s = true) : (refreshElements c s).2 = none ∧
    Suspended memory (refreshElements c s).1 ∧ (refreshElements c s).1.nav.elements = groupLootRolls s.world := by
  obtain ⟨index, harrives⟩ := scan_rolls h
  refine ⟨harrives.error, ⟨harrives.active, harrives.inContext, ?_⟩, harrives.listing⟩
  rw [harrives.memory, ← hs.memory]
  unfold suspendFocus
  rw [hs.inRolls]
  rfl

/-- Roll elements neither scroll themselves nor are rows of a list that does. -/
structure StillRow (e : Element) : Prop where
  noScrollArea : e.isScrollArea = false
  noEdge : ∀ up, edgeScrollBar e.key up = none

theorem groupLootFrame_noEdge (frameIndex : Nat) (suffix : String) (up : Bool) :
    edgeScrollBar (groupLootFrame frameIndex ++ suffix) up = none := by
  have hkey : (groupLootFrame frameIndex ++ suffix).toList =
      "GroupLootFrame".toList ++ ((toString frameIndex).toList ++ suffix.toList) := by
    simp only [groupLootFrame, String.toList_append, List.append_assoc]
  unfold edgeScrollBar
  rw [hkey]
  rfl

theorem groupLootRolls_still {w : World} : ∀ e ∈ groupLootRolls w, StillRow e := by
  apply groupLootRolls_of_round
  intro els rollFrame frameIndex actionInfo _ _ _ _ e he
  unfold addGroupLootRollAction at he
  dsimp only at he
  split at he
  · exact Or.inl he
  · split at he
    · rcases List.mem_append.mp he with hold | hnew
      · exact Or.inl hold
      · obtain rfl := List.mem_singleton.mp hnew
        exact Or.inr ⟨rfl, groupLootFrame_noEdge frameIndex actionInfo.1⟩
    · exact Or.inl he

/-- From such an element the D-pad only moves. -/
theorem moveFocus_still (dir : Dir) (h : ∀ e ∈ s.nav.elements, StillRow e) :
    moveFocus c dir s = (moveSpatial c dir s, none) := by
  unfold moveFocus
  dsimp only
  cases he : elementAt s.nav.elements s.nav.index with
  | none => rfl
  | some e =>
    have hstill := h e (elementAt_mem he)
    dsimp only
    split
    · rfl
    · rw [hstill.noScrollArea, hstill.noEdge, if_neg Bool.false_ne_true]

theorem Suspended.moveInRolls (dir : Dir) (hs : Suspended memory s) (h : showsRolls c s = true) :
    Suspended memory (moveInRolls c dir s).1 := by
  obtain ⟨herror, hscan, hlisting⟩ := hs.scan h
  have hstill : ∀ e ∈ (refreshElements c s).1.nav.elements, StillRow e := by
    intro e he
    rw [hlisting] at he
    exact groupLootRolls_still e he
  unfold Nostalgia.Controller.moveInRolls
  rw [hs.inRolls, if_pos (beq_self_eq_true _)]
  generalize refreshElements c s = result at herror hscan hstill
  obtain ⟨t, error⟩ := result
  obtain rfl : error = none := herror
  dsimp only at hscan hstill ⊢
  rw [hscan.inRolls, if_pos (beq_self_eq_true _)]
  unfold moveGroupLootRoll
  cases rollMove t.world t.nav.elements t.nav.index dir with
  | some index => exact hscan.steady (updateAt_steady index t)
  | none =>
    dsimp only
    rw [moveFocus_still dir hstill]
    exact hscan.steady (moveSpatial_steady dir t)

theorem Suspended.uiMoveDir (dir : Dir) (hs : Suspended memory s) (h : showsRolls c s = true) :
    Suspended memory (uiMoveDir c dir s).1 := by
  unfold Nostalgia.Controller.uiMoveDir
  rw [if_pos hs.active]
  dsimp only
  split
  · exact hs
  · exact hs.moveInRolls dir h

/-- What `DinoController_UIMove` does behind its scan. -/
theorem uiMove_suspended (forward : Bool) (hscan : (refreshElements c s).2 = none ∧ Suspended memory (refreshElements c s).1) :
    Suspended memory (uiMove c forward s).1 := by
  unfold uiMove
  generalize refreshElements c s = result at hscan
  obtain ⟨t, error⟩ := result
  obtain ⟨herror, hs⟩ := hscan
  obtain rfl : error = none := herror
  dsimp only at hs ⊢
  split
  · exact hs
  · exact hs.steady (updateAt_steady _ t)

theorem step_suspended (s : St) (e : Ev) (hs : Suspended memory s) (h : amongRolls c s e = true) :
    Suspended memory (step c s e) := by
  cases e with
  | frames w => exact ⟨hs.active, hs.inRolls, hs.memory⟩
  | scan => exact (hs.scan h).2.1
  | uiMove forward => exact uiMove_suspended forward ⟨(hs.scan h).1, (hs.scan h).2.1⟩
  | uiMoveDir dir => exact hs.uiMoveDir dir h
  | _ => cases h

theorem first_suspends {old : Element} (hrolls : context ≠ .lootroll) (hfocus : Focused context old s) {first : Ev}
    (hfirst : first.scansFirst = true) (h : amongRolls c s first = true) :
    Suspended ⟨context, some old.key, s.nav.index⟩ (step c s first) := by
  cases first with
  | scan => exact (scan_suspends hrolls hfocus h).2
  | uiMove forward => exact uiMove_suspended forward (scan_suspends hrolls hfocus h)
  | _ => cases hfirst

theorem run_suspended {old : Element} (hrolls : context ≠ .lootroll) (hfocus : Focused context old s) {first : Ev}
    (hfirst : first.scansFirst = true) {es : List Ev}
    (h : Throughout (step c) (fun s e => amongRolls c s e = true) s (first :: es)) :
    Suspended ⟨context, some old.key, s.nav.index⟩ (run (step c) s (first :: es)) :=
  inv_run_throughout (step c) step_suspended es (step c s first) (first_suspends hrolls hfocus hfirst h.1) h.2

/-! ## Behind the rolls -/

theorem suspendFocus_leaves {nav : Nav} (hrolls : nav.context = some .lootroll) (hne : context ≠ .lootroll) :
    suspendFocus nav context = (none, nav.suspendedFocus) := by
  unfold suspendFocus
  have hsame : (context == .lootroll && nav.context != some .lootroll) = false := by simp [hrolls]
  have hleft : (nav.context == some .lootroll && context != .lootroll) = true := by simpa [hrolls] using hne
  rw [hsame, hleft]
  rfl

/-- The focus taken over goes before every pending request and first visit. -/
theorem preferredFocus_resumes {nav : Nav} (w : World) (elements : List Element) (hne : memory.context ≠ .lootroll) :
    preferredFocus w nav memory.context elements (some memory) =
      .ok ((memory.key.bind (findKey elements)).or (some (clampTo elements memory.index)), nav) := by
  have hcontext : (memory.context == .lootroll) = false := by simpa using hne
  have hresume : (some memory).filter (·.context == memory.context) = some memory := by simp
  unfold preferredFocus
  dsimp only
  rw [hcontext, Bool.false_and, if_neg Bool.false_ne_true, if_neg Bool.false_ne_true, hresume]
  rfl

theorem scan_gives_back {key : String} (hs : Suspended memory s) (hkey : memory.key = some key)
    (hne : memory.context ≠ .lootroll) (h : Reads c s memory.context elements) :
    GivesBack memory.context elements key memory.index (refreshElements c s) := by
  have hsuspend := suspendFocus_leaves hs.inRolls hne
  have hchoose : chooseFocus (readFrames c s).world s.nav memory.context elements (suspendFocus s.nav memory.context).2 =
      .ok ((findKey elements key).getD (clampTo elements memory.index), s.nav) := by
    unfold chooseFocus
    rw [hsuspend, hs.memory, preferredFocus_resumes _ elements hne, hkey, Option.bind_some, Option.or_some]
    rfl
  have harrives := focusOn_arrives (c := c) (s := s.withScreen (readFrames c s)) h.allowed hchoose
  rw [← refresh_scanned h] at harrives
  refine ⟨harrives.error, harrives.active, harrives.inContext, harrives.listing, ?_, ?_, ?_⟩
  · intro ⟨e, he, hek⟩
    obtain ⟨index, hfound⟩ := findKey_isSome he
    rw [hek] at hfound
    rw [harrives.index, hfound]
    exact findKey_spec hfound
  · intro hmissing
    have hnone : findKey elements key = none := by
      cases hfound : findKey elements key with
      | none => rfl
      | some index =>
        obtain ⟨e, he, hek⟩ := findKey_spec hfound
        exact absurd hek (hmissing e (elementAt_mem he))
    rw [harrives.index, hnone]
    rfl
  · rw [harrives.memory]
    show (suspendFocus s.nav memory.context).1 = none
    rw [hsuspend]

theorem triggerOnLeave_remember (e : Element) (memory : Option SuspendedFocus) (s : St) :
    triggerOnLeave c e (s.remember memory) = (triggerOnLeave c e s).remember memory := by
  unfold triggerOnLeave
  split
  · rfl
  · split
    · rw [if_pos ‹_›]
      rfl
    · rw [if_neg ‹_›]
      rfl

/-- Leaving UI mode forgets what was remembered. -/
theorem leave_remember (memory : Option SuspendedFocus) (ha : s.nav.active = true) :
    leaveUIMode c (s.remember memory) = leaveUIMode c s := by
  have hactive : (!s.nav.active) = false := by rw [ha]; rfl
  unfold leaveUIMode
  rw [show (s.remember memory).nav.active = s.nav.active from rfl, hactive, if_neg Bool.false_ne_true,
    if_neg Bool.false_ne_true, show (s.remember memory).nav.tooltipElement = s.nav.tooltipElement from rfl]
  cases s.nav.tooltipElement with
  | none => rfl
  | some e =>
    dsimp only
    rw [triggerOnLeave_remember]
    rfl

/-- What was remembered in another context does not count. -/
theorem preferredFocus_other (w : World) (nav : Nav) (elements : List Element) (hother : memory.context ≠ context) :
    preferredFocus w { nav with suspendedFocus := none } context elements none =
      (preferredFocus w nav context elements (some memory)).map fun p => (p.1, { p.2 with suspendedFocus := none }) := by
  have hnone : (some memory).filter (·.context == context) = none := by simp [hother]
  unfold preferredFocus
  dsimp only
  rw [hnone, Option.filter_none]
  repeat' split
  all_goals rfl

theorem chooseFocus_other (w : World) (nav : Nav) (elements : List Element) (hother : memory.context ≠ context) :
    chooseFocus w { nav with suspendedFocus := none } context elements none =
      (chooseFocus w nav context elements (some memory)).map fun p => (p.1, { p.2 with suspendedFocus := none }) := by
  unfold chooseFocus
  rw [preferredFocus_other w nav elements hother]
  cases preferredFocus w nav context elements (some memory) with
  | error err => rfl
  | ok chosen => rfl

theorem focusOn_other (hs : Suspended memory s) (hother : memory.context ≠ context) (hne : context ≠ .lootroll) :
    focusOn c context elements s = focusOn c context elements (s.remember none) := by
  have hsuspend := suspendFocus_leaves hs.inRolls hne
  have hforgot : suspendFocus (s.remember none).nav context = (none, none) := suspendFocus_leaves hs.inRolls hne
  have henter : enterContext c context elements none (s.remember none) = enterContext c context elements none s := rfl
  unfold focusOn
  dsimp only
  rw [hsuspend, hforgot, hs.memory]
  dsimp only
  rw [henter, show (s.remember none).nav = { s.nav with suspendedFocus := none } from rfl,
    chooseFocus_other _ _ _ hother]
  cases chooseFocus _ s.nav context elements (some memory) with
  | error err => rfl
  | ok focus => rfl

theorem focusOn_forgets (hs : Suspended memory s) (ha : Allowed s) (hne : context ≠ .lootroll) :
    (focusOn c context elements s).1.nav.suspendedFocus = none := by
  have hsuspend : (suspendFocus s.nav context).1 = none := by rw [suspendFocus_leaves hs.inRolls hne]
  cases hc : chooseFocus s.world s.nav context elements (suspendFocus s.nav context).2 with
  | error err =>
    obtain ⟨_, _, _, _, _, _, hframe⟩ := enterContext_frame (c := c) context elements (suspendFocus s.nav context).1 s
    rw [focusOn_error hc, hframe, hsuspend]
  | ok focus =>
    have harrives := focusOn_arrives (c := c) ha hc
    rw [harrives.memory, hsuspend]

theorem Suspended.withScreen (screen : Screen) (hs : Suspended memory s) : Suspended memory (s.withScreen screen) :=
  ⟨hs.active, hs.inRolls, hs.memory⟩

theorem scan_forgets (hs : Suspended memory s) (hrolls : showsRolls c s = false)
    (hother : ∀ elements, scanned c s ≠ some (memory.context, elements)) : Forgets c s := by
  have hscreen := hs.withScreen (readFrames c s)
  have hforgets : refreshElements c s = refreshElements c (s.remember none) ∧
      (refreshElements c s).1.nav.suspendedFocus = none := by
    cases hscan : scanned c s with
    | none =>
      rw [refresh_unscanned hscan, refresh_unscanned (s := s.remember none) hscan,
        show (s.remember none).withScreen (readFrames c (s.remember none)) = (s.withScreen (readFrames c s)).remember none from rfl,
        leave_remember none hscreen.active, leave_nav hscreen.active]
      exact ⟨rfl, rfl⟩
    | some scan =>
      obtain ⟨context, elements⟩ := scan
      have hreads := scanned_iff.mp hscan
      have hreads' : Reads c (s.remember none) context elements := ⟨hreads.allowed, hreads.built, hreads.listed⟩
      have hne : context ≠ .lootroll := by simpa [showsRolls, hscan] using hrolls
      have hcontext : memory.context ≠ context := fun hsame => hother elements (by rw [hscan, hsame])
      rw [refresh_scanned hreads, refresh_scanned hreads',
        show (s.remember none).withScreen (readFrames c (s.remember none)) = (s.withScreen (readFrames c s)).remember none from rfl,
        ← focusOn_other hscreen hcontext hne]
      exact ⟨rfl, focusOn_forgets hscreen hreads.allowed hne⟩
  refine ⟨hforgets.2, ?_, fun later => ?_⟩
  · rw [hforgets.1]
  · rw [hforgets.1]

/-- For every focus outside the rolls and every run among rolls that begins there with a
    scan, the next scan that finds no rolls gives the focus back in its own context, and
    anywhere else forgets it. -/
theorem lootRolls_give_back (c : Client) (s : St) (context : Context) (old : Element) (hrolls : context ≠ .lootroll)
    (hfocus : Focused context old s) (first : Ev) (hfirst : first.scansFirst = true) (es : List Ev)
    (h : Throughout (step c) (fun s e => amongRolls c s e = true) s (first :: es)) :
    let t := run (step c) s (first :: es)
    (∀ elements, scanned c t = some (context, elements) →
      GivesBack context elements old.key s.nav.index (refreshElements c t)) ∧
    (showsRolls c t = false → (∀ elements, scanned c t ≠ some (context, elements)) → Forgets c t) := by
  intro t
  have ht : Suspended ⟨context, some old.key, s.nav.index⟩ t := run_suspended hrolls hfocus hfirst h
  exact ⟨fun elements hscan => scan_gives_back ht rfl hrolls (scanned_iff.mp hscan), scan_forgets ht⟩

/-! ## From the inbox and back -/

/-- The last of four mails has the focus when two rolls appear. -/
def mailState : St :=
  run (step (stillClient bridgeMappings)) (fresh (inbox 4) defaultDB fun _ => "") [.scan, .uiMove false, .frames twoRolls]

/-- Moves in both rolls, then in one, and then other frames. -/
def rollsThen (w : World) : List Ev :=
  [.uiMoveDir .DOWN, .uiMoveDir .LEFT, .frames { twoRolls with NUM_GROUP_LOOT_FRAMES := some 1 }, .scan, .uiMove true, .frames w]

theorem mailState_focused : ∃ old, Focused .mail old mailState ∧ old.key = "MailItem4Button" := by
  have hkey : (elementAt mailState.nav.elements mailState.nav.index).map (·.key) = some "MailItem4Button" := by
    decide +kernel
  obtain ⟨old, hold, hkey⟩ := Option.map_eq_some_iff.mp hkey
  exact ⟨old, ⟨by decide +kernel, by decide +kernel, hold⟩, hkey⟩

def mailsAfter (w : World) : St := run (step (stillClient bridgeMappings)) mailState (.scan :: rollsThen w)

/-- The mail is still there; it is gone; a loot window is open instead. -/
theorem mails_given_back :
    GivesBack .mail (panelElements (inbox 4) .mail) "MailItem4Button" 4
      (refreshElements (stillClient bridgeMappings) (mailsAfter (inbox 4))) ∧
    GivesBack .mail (panelElements (inbox 3) .mail) "MailItem4Button" 4
      (refreshElements (stillClient bridgeMappings) (mailsAfter (inbox 3))) ∧
    Forgets (stillClient bridgeMappings) (mailsAfter lootWindow) := by
  obtain ⟨old, hfocus, hkey⟩ := mailState_focused
  have hindex : mailState.nav.index = 4 := by decide +kernel
  have hback := lootRolls_give_back (stillClient bridgeMappings) mailState .mail old (by decide) hfocus .scan rfl
  rw [hkey, hindex] at hback
  refine ⟨?_, ?_, ?_⟩
  · exact (hback (rollsThen (inbox 4)) (by decide +kernel)).1 _ (by decide +kernel)
  · exact (hback (rollsThen (inbox 3)) (by decide +kernel)).1 _ (by decide +kernel)
  · refine (hback (rollsThen lootWindow) (by decide +kernel)).2 (by decide +kernel) fun elements hscan => ?_
    have hloot : (scanned (stillClient bridgeMappings) (mailsAfter lootWindow)).map Prod.fst = some .loot := by decide +kernel
    rw [show mailsAfter lootWindow = run (step (stillClient bridgeMappings)) mailState (.scan :: rollsThen lootWindow) from rfl,
      hscan] at hloot
    cases hloot

end Nostalgia.Controller
