/-
  Nostalgia.Controller.Hover — the hover scripts the navigation fires.

  `tooltipElement` is the element whose OnEnter was fired last. Elements are rebuilt with
  every scan, so the old element is kept until its OnLeave: what it says of its frame then
  is what it said on entering. `F` is a set of frames that define both scripts whatever
  the client shows; of the others nothing is assumed and nothing is said.
  - `hover_step`: at every moment the frame of `tooltipElement` is the one left open,
    unless it is used as a scroll area.
  - `hovers_bracketed`: so over every run the scripts alternate, each OnEnter with the
    OnLeave of its frame, and outside UI mode none is left open.
-/

import Nostalgia.Controller.Agreement
import Nostalgia.Machine.Brackets

namespace Nostalgia.Controller

open Nostalgia.Lua Nostalgia.Machine

/-- The same client with nothing of its own scripts' calls in the log: what remains are
    the calls of the navigation. -/
def Client.quiet (c : Client) : Client := { c with act := fun call w => ((c.act call w).1, []) }

variable (F : FrameId → Bool)

/-- The frames of `F` define both scripts. -/
def Scripted (w : World) : Prop := ∀ f, F f = true → (w.frame f).hasOnEnter = true ∧ (w.frame f).hasOnLeave = true

/-- A hover script of a frame of `F`. -/
def hoverMark : Call → Option (Mark FrameId)
  | .onEnter f => if F f then some (.enter f) else none
  | .onLeave f => if F f then some (.leave f) else none
  | _ => none

/-- The hover scripts of a log. -/
def hovers (calls : List Call) : List (Mark FrameId) := calls.filterMap (hoverMark F)

/-- The frame an element opens: none, if it is a scroll area. -/
def hoverFrame (element : Element) : Option FrameId :=
  if !element.isScrollArea && F element.frame then some element.frame else none

/-- The frame that is left open. -/
def openFrame (nav : Nav) : Option FrameId := nav.tooltipElement.bind (hoverFrame F)

structure HoverInv (s : St) : Prop where
  scripted : Scripted F s.world
  open_frame : openAfter none (hovers F s.screen.calls) = some (openFrame F s.nav)

variable {F} {c : Client}

/-! ## Calls -/

theorem hoverMark_of_not_hovers {call : Call} (h : call.hovers = false) : hoverMark F call = none := by
  cases call with
  | onEnter f => cases h
  | onLeave f => cases h
  | _ => rfl

theorem hovers_perform (call : Call) (s : St) :
    hovers F (s.perform c.quiet call).screen.calls = hovers F s.screen.calls ++ (hoverMark F call).toList := by
  show (s.screen.calls ++ [call]).filterMap (hoverMark F) = _
  rw [List.filterMap_append]
  cases h : hoverMark F call <;> simp [hovers, h]

/-- Scripts fired on frames of `F`, and nothing of the navigation changed. -/
structure Fires (F : FrameId → Bool) (marks : List (Mark FrameId)) (s t : St) : Prop where
  nav : t.nav = s.nav
  scripted : Scripted F t.world
  hovers : hovers F t.screen.calls = Controller.hovers F s.screen.calls ++ marks

theorem Fires.none {s : St} (hs : Scripted F s.world) : Fires F [] s s := ⟨rfl, hs, (List.append_nil _).symm⟩

theorem Fires.trans {a b d : St} {l1 l2 : List (Mark FrameId)} (h1 : Fires F l1 a b) (h2 : Fires F l2 b d) :
    Fires F (l1 ++ l2) a d :=
  ⟨h2.nav.trans h1.nav, h2.scripted, by rw [h2.hovers, h1.hovers, List.append_assoc]⟩

/-- The log goes on with marks that fit what is open. -/
theorem HoverInv.next {s t : St} {marks : List (Mark FrameId)} (hs : HoverInv F s) (hscripted : Scripted F t.world)
    (hmarks : hovers F t.screen.calls = hovers F s.screen.calls ++ marks)
    (hopen : openAfter (openFrame F s.nav) marks = some (openFrame F t.nav)) : HoverInv F t := by
  refine ⟨hscripted, ?_⟩
  rw [hmarks, openAfter_append_of hs.open_frame, hopen]

theorem openAfter_leaving (o : Option FrameId) : openAfter o (o.toList.map .leave) = some none := by
  cases o with
  | none => rfl
  | some f => exact openAfter_leave f []

theorem openAfter_entering (o : Option FrameId) : openAfter none (o.toList.map .enter) = some o := by
  cases o with
  | none => rfl
  | some f => rfl

/-! ## Arriving -/

theorem enterContext_tooltip (context : Context) (elements : List Element) (suspended : Option SuspendedFocus) (s : St) :
    (enterContext c context elements suspended s).nav.tooltipElement = s.nav.tooltipElement := by
  obtain ⟨_, _, _, _, _, _, hframe⟩ := enterContext_frame (c := c) context elements suspended s
  rw [hframe]

/-! ## Scripts -/

section Scripts

variable (hact : ∀ call w, Scripted F w → Scripted F (c.act call w).1)
include hact

theorem fires_perform (call : Call) {s : St} (hs : Scripted F s.world) :
    Fires F (hoverMark F call).toList s (s.perform c.quiet call) :=
  ⟨rfl, hact call s.world hs, hovers_perform call s⟩

theorem fires_silent {call : Call} (h : call.hovers = false) {s : St} (hs : Scripted F s.world) :
    Fires F [] s (s.perform c.quiet call) := by
  have hfires := fires_perform hact call hs
  rw [hoverMark_of_not_hovers h] at hfires
  exact hfires

theorem fires_hideTooltip {s : St} (hs : Scripted F s.world) : Fires F [] s (s.perform c.quiet .hideTooltip) :=
  fires_silent hact rfl hs

theorem fires_triggerOnLeave (e : Element) {s : St} (hs : Scripted F s.world) :
    Fires F ((hoverFrame F e).toList.map .leave) s (triggerOnLeave c.quiet e s) := by
  have hleave := fires_perform hact (.onLeave e.frame) hs
  unfold triggerOnLeave
  cases hscroll : e.isScrollArea with
  | true =>
    have hframe : hoverFrame F e = none := by simp [hoverFrame, hscroll]
    rw [hframe]
    exact .none hs
  | false =>
    rw [if_neg Bool.false_ne_true]
    cases hf : F e.frame with
    | true =>
      have hframe : hoverFrame F e = some e.frame := by simp [hoverFrame, hscroll, hf]
      rw [hframe, if_pos (hs e.frame hf).2]
      simpa [hoverMark, hf] using hleave
    | false =>
      -- a frame outside `F` may have the script or not
      have hframe : hoverFrame F e = none := by simp [hoverFrame, hf]
      rw [hframe]
      split
      · simpa [hoverMark, hf] using hleave
      · exact fires_hideTooltip hact hs

theorem fires_triggerOnEnter (e : Element) {s : St} (hs : Scripted F s.world) :
    Fires F ((hoverFrame F e).toList.map .enter) s (triggerOnEnter c.quiet e s) := by
  have htooltip := fires_hideTooltip hact hs
  have henter := htooltip.trans (fires_perform hact (.onEnter e.frame) htooltip.scripted)
  unfold triggerOnEnter
  cases hscroll : e.isScrollArea with
  | true =>
    have hframe : hoverFrame F e = none := by simp [hoverFrame, hscroll]
    rw [hframe]
    exact .none hs
  | false =>
    rw [if_neg Bool.false_ne_true]
    cases hf : F e.frame with
    | true =>
      have hframe : hoverFrame F e = some e.frame := by simp [hoverFrame, hscroll, hf]
      rw [hframe, if_pos (hs e.frame hf).1]
      simpa [hoverMark, hf] using henter
    | false =>
      have hframe : hoverFrame F e = none := by simp [hoverFrame, hf]
      rw [hframe]
      split
      · simpa [hoverMark, hf] using henter
      · exact .none hs

/-- The tooltip of the former element is closed. -/
theorem fires_leaveTooltip (tooltip : Option Element) {s : St} (hs : Scripted F s.world) :
    Fires F ((tooltip.bind (hoverFrame F)).toList.map .leave) s
      (match tooltip with | some e => triggerOnLeave c.quiet e s | none => s) := by
  cases tooltip with
  | none => exact .none hs
  | some e => exact fires_triggerOnLeave hact e hs

theorem fires_centerLootFrame (e : Element) {s : St} (hs : Scripted F s.world) :
    Fires F [] s (centerLootFrame c.quiet e s) := by
  unfold centerLootFrame
  split
  · split
    · exact fires_silent hact rfl hs
    · exact .none hs
  · exact .none hs

/-! ## The highlight -/

theorem hover_hideHighlight {s : St} (hs : HoverInv F s) : HoverInv F (hideHighlight c.quiet s) := by
  have hleave := fires_leaveTooltip hact s.nav.tooltipElement hs.scripted
  exact hs.next hleave.scripted hleave.hovers (openAfter_leaving _)

/-- Behind the hover scripts the highlight is anchored; the tooltip stays. -/
theorem hover_anchor (e : Element) {t : St} (ht : HoverInv F t) : HoverInv F
    (let t := t.withNav fun nav => { nav with highlight := some ⟨nav.context, e⟩ }
     if t.nav.context == some .loot then centerLootFrame c.quiet e t else t) := by
  have hset : HoverInv F (t.withNav fun nav => { nav with highlight := some ⟨nav.context, e⟩ }) :=
    ⟨ht.scripted, ht.open_frame⟩
  dsimp only
  split
  · have hcenter := fires_centerLootFrame hact e hset.scripted
    refine hset.next hcenter.scripted hcenter.hovers ?_
    rw [hcenter.nav, openAfter_nil]
  · exact hset

theorem hover_showHighlight (e : Element) {s : St} (hs : HoverInv F s) : HoverInv F (showHighlight c.quiet e s) := by
  unfold showHighlight
  apply hover_anchor hact e
  split
  · exact hs
  · have hleave := fires_leaveTooltip hact s.nav.tooltipElement hs.scripted
    have henter : ∀ t : St, Fires F ((openFrame F s.nav).toList.map .leave) s t →
        HoverInv F (triggerOnEnter c.quiet e (t.withNav fun nav => { nav with tooltipElement := some e })) := by
      intro t ht
      -- left, then entered
      have hleft : HoverInv F (t.withNav fun nav => { nav with tooltipElement := none }) :=
        hs.next ht.scripted ht.hovers (openAfter_leaving _)
      have hfires := fires_triggerOnEnter hact e
        (show Scripted F (t.withNav fun nav => { nav with tooltipElement := some e }).world from ht.scripted)
      refine hleft.next hfires.scripted hfires.hovers ?_
      rw [hfires.nav]
      exact openAfter_entering _
    exact henter _ hleave

theorem hover_updateHighlight {s : St} (hs : HoverInv F s) : HoverInv F (updateHighlight c.quiet s) := by
  unfold updateHighlight
  split
  · split
    · exact hover_showHighlight hact _ hs
    · exact hover_hideHighlight hact hs
  · exact hover_hideHighlight hact hs

/-! ## Moves -/

omit hact in
theorem hover_same {s t : St} (hscreen : t.screen = s.screen) (htooltip : t.nav.tooltipElement = s.nav.tooltipElement)
    (hs : HoverInv F s) : HoverInv F t := by
  refine ⟨?_, ?_⟩
  · show Scripted F t.screen.world
    rw [hscreen]
    exact hs.scripted
  · have hopen : openFrame F t.nav = openFrame F s.nav := congrArg (·.bind (hoverFrame F)) htooltip
    rw [hscreen, hopen]
    exact hs.open_frame

omit hact in
theorem hover_mode {s t : St} (h : t.mode = s.mode) (hs : HoverInv F s) : HoverInv F t :=
  hover_same (congrArg Mode.screen h) (congrArg Mode.tooltipElement h) hs

omit hact in
theorem hover_setSlot (button : FrameId) (slot : Nat) {s : St} (hs : HoverInv F s) : HoverInv F (s.setSlot button slot) := by
  refine ⟨fun f hf => ?_, hs.open_frame⟩
  show ((if f = button then { s.world.frame f with slot := some slot }
      else s.world.frame f) : Frame).hasOnEnter = true ∧
    ((if f = button then { s.world.frame f with slot := some slot } else s.world.frame f) : Frame).hasOnLeave = true
  split <;> exact hs.scripted f hf

theorem hover_steady {s t : St} (h : Steady c.quiet s t) (hs : HoverInv F s) : HoverInv F t := by
  induction h with
  | keep hmode _ => exact hover_mode hmode hs
  | perform call s hcall =>
    have hfires := fires_silent hact hcall hs.scripted
    exact hs.next hfires.scripted hfires.hovers (openAfter_nil _)
  | setSlot button slot s => exact hover_setSlot button slot hs
  | highlight s => exact hover_updateHighlight hact hs
  | trans _ _ ih1 ih2 => exact ih2 (ih1 hs)

omit hact in
/-- Arriving in a context fires nothing. -/
theorem hover_arrive (context : Context) (elements : List Element) (suspended : Option SuspendedFocus) {s : St}
    (ha : Allowed s) (hs : HoverInv F s) : HoverInv F (enterContext c.quiet context elements suspended s) :=
  hover_same (enterContext_spec context elements suspended ha).screen
    (enterContext_tooltip context elements suspended s) hs

theorem hover_stays {s t : St} (h : Stays c.quiet s t) (hs : HoverInv F s) : HoverInv F t := by
  induction h with
  | steady h => exact hover_steady hact h hs
  | arrive context elements suspended s ha _ => exact hover_arrive context elements suspended ha hs
  | trans _ _ ih1 ih2 => exact ih2 (ih1 hs)

omit hact in
theorem hover_rebinds {s t : St} (h : Rebinds s t) (hs : HoverInv F s) : HoverInv F t :=
  hover_same h.screen (congrArg Nav.tooltipElement h.nav) hs

theorem hover_leave {s : St} (hs : HoverInv F s) : HoverInv F (leaveUIMode c.quiet s) := by
  have hleft : ∀ t : St, Fires F ((openFrame F s.nav).toList.map .leave) s t →
      HoverInv F (setUIMode false none ((restoreBindings (t.perform c.quiet .hideTooltip)).withNav Nav.left)) := by
    intro t ht
    have hfires := ht.trans (fires_hideTooltip hact ht.scripted)
    rw [List.append_nil] at hfires
    exact hs.next hfires.scripted hfires.hovers (openAfter_leaving _)
  unfold leaveUIMode
  split
  · exact hs
  · exact hover_rebinds (rebinds_applyButtonLayout true _)
      (hleft _ (fires_leaveTooltip hact s.nav.tooltipElement hs.scripted))

theorem hover_leaves {s t : St} (h : Leaves c.quiet s t) (hs : HoverInv F s) : HoverInv F t := by
  induction h with
  | steady h => exact hover_steady hact h hs
  | leave s => exact hover_leave hact hs
  | layout save s => exact hover_rebinds (rebinds_applyButtonLayout save s) hs
  | settings hmode => exact hover_mode hmode hs
  | trans _ _ ih1 ih2 => exact ih2 (ih1 hs)

/-! ## Runs -/

theorem hover_step (s : St) (e : Ev) (he : ∀ w, e = .frames w → Scripted F w) (hs : HoverInv F s) :
    HoverInv F (step c.quiet s e) := by
  by_cases hwrites : e.installs = true ∨ e.setsTarget = true
  · exact hover_rebinds (step_rebinds s hwrites) hs
  · have hno : e.installs = false ∧ e.setsTarget = false := by simpa using hwrites
    cases hshows : e.shows with
    | true =>
      cases e with
      | frames w => exact ⟨he w rfl, hs.open_frame⟩
      | _ => cases hshows
    | false =>
      obtain ⟨u, hstays, hleaves⟩ := step_handled (c := c.quiet) s hshows hno.1 hno.2
      exact hover_leaves hact hleaves (hover_stays hact hstays hs)

end Scripts

/-- What is left open, read off the tooltip. -/
theorem HoverInv.bracketed {s : St} (hs : HoverInv F s) : Bracketed (hovers F s.screen.calls) ∧
    (openFrame F s.nav = none → Closed (hovers F s.screen.calls)) :=
  bracketed_of_openAfter hs.open_frame

/-- Over every run on frames that define both scripts, at every instant. -/
theorem hovers_bracketed (c : Client) (F : FrameId → Bool) (hact : ∀ call w, Scripted F w → Scripted F (c.act call w).1)
    (w : World) (hw : Scripted F w) (db : DB) (bindings : String → String) (es : List Ev)
    (hes : ∀ w', Ev.frames w' ∈ es → Scripted F w') (k : Nat) :
    let t := stateAt (step c.quiet) (fresh w db bindings) es k
    Bracketed (hovers F t.screen.calls) ∧ (t.nav.active = false → Closed (hovers F t.screen.calls)) ∧
      ∀ e, t.nav.tooltipElement = some e → e.isScrollArea = true → Closed (hovers F t.screen.calls) := by
  intro t
  have hinv : HoverInv F t := by
    refine inv_stateAt_of_mem (step c.quiet) (fun s e he hs => ?_) ⟨hw, rfl⟩ k
    exact hover_step hact s e (fun w' heq => hes w' (heq ▸ he)) hs
  have hagree : ModulesAgree t :=
    inv_stateAt (step c.quiet) (fun s e hs => agree_step s e hs) (agree_fresh w db bindings) es k
  obtain ⟨hbracketed, hclosed⟩ := hinv.bracketed
  refine ⟨hbracketed, fun ha => hclosed ?_, fun e htooltip hscroll => hclosed ?_⟩
  · unfold openFrame
    rw [(hagree.cleared ha).tooltipElement]
    rfl
  · unfold openFrame
    rw [htooltip]
    simp [hoverFrame, hscroll]

/-- A quest to accept or decline, shown or hidden. -/
def hoverWorld (shown : Bool) : World := World.ofFrames
  [{ name := some "QuestFrame", visible := shown, hasOnEnter := true, hasOnLeave := true },
   { name := some "QuestFrameDetailPanel", visible := shown, hasOnEnter := true, hasOnLeave := true },
   { name := some "QuestFrameAcceptButton", visible := shown, center := some (10, 10), clickable := true,
     hasOnEnter := true, hasOnLeave := true },
   { name := some "QuestFrameDeclineButton", visible := shown, center := some (40, 10), clickable := true,
     hasOnEnter := true, hasOnLeave := true }]

/-- The four frames of it. -/
def questFrames (f : FrameId) : Bool := f < 4

theorem hoverWorld_scripted (shown : Bool) : Scripted questFrames (hoverWorld shown) := by
  have hall : ∀ shown, ∀ f < 4,
      ((hoverWorld shown).frame f).hasOnEnter = true ∧ ((hoverWorld shown).frame f).hasOnLeave = true := by
    decide +kernel
  intro f hf
  exact hall shown f (by simpa [questFrames] using hf)

/-- The quest is focused, then its other button, then it closes. -/
def hoverRun : List Ev := [.scan, .uiMove true, .frames (hoverWorld false), .scan]

theorem quest_hovers_bracketed :
    let t := stateAt (step (stillClient bridgeMappings).quiet) (fresh (hoverWorld true) defaultDB fun _ => "") hoverRun 4
    Bracketed (hovers questFrames t.screen.calls) ∧
      (t.nav.active = false → Closed (hovers questFrames t.screen.calls)) ∧
      ∀ e, t.nav.tooltipElement = some e → e.isScrollArea = true → Closed (hovers questFrames t.screen.calls) := by
  refine hovers_bracketed (stillClient bridgeMappings) questFrames (fun _ _ h => h) (hoverWorld true)
    (hoverWorld_scripted true) defaultDB (fun _ => "") hoverRun (fun w' hw' => ?_) 4
  obtain rfl : w' = hoverWorld false := by simpa [hoverRun] using hw'
  exact hoverWorld_scripted false

-- both buttons are entered and left
example : hovers questFrames (stateAt (step (stillClient bridgeMappings).quiet)
    (fresh (hoverWorld true) defaultDB fun _ => "") hoverRun 4).screen.calls =
    [.enter 2, .leave 2, .enter 3, .leave 3] := by decide +kernel

end Nostalgia.Controller
