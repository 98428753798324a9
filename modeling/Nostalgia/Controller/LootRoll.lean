/-
  Nostalgia.Controller.LootRoll — what one Confirm submits to the group loot rolls.

  Two calls can submit a roll: the OnClick of the native Need, Greed or Pass button, which
  the action of a roll element clicks, and `ActivateGroupLootRoll` right behind it. Both
  take the roll the frame has then; the roll the element recorded when it was listed
  (`lootRollID`) is read by nobody. The client is a parameter: `NativeRolls` is what the
  comment above `GROUP_LOOT_ACTIONS` says of it.
  - `nativeRoll_offered`: a listed button and its native OnClick mean the same roll.
  - `uiActivate_submits`: one Confirm submits what these two find, and nothing else does.
  - `submits_once_iff`: exactly when that is one roll at most, the recorded one.
  - `confirm_rolls_twice`: a run on which it is two; `confirm_rolls_once`: on a client
    that hides the frame at once it is one.
-/

import Nostalgia.Controller.Confirm
import Nostalgia.Controller.Handlers

namespace Nostalgia.Controller

open Nostalgia.Lua Nostalgia.Machine

variable {c : Client}

/-! ## Rolls -/

/-- The rolls a list of calls submits: roll and type. -/
def rollCalls (calls : List Call) : List (Nat × Nat) :=
  calls.filterMap fun call => match call with
    | .rollOnLoot rollID rollType => some (rollID, rollType)
    | _ => none

@[simp] theorem rollCalls_nil : rollCalls [] = [] := rfl

@[simp] theorem rollCalls_append (a b : List Call) : rollCalls (a ++ b) = rollCalls a ++ rollCalls b :=
  List.filterMap_append

/-- What a button of one roll frame submits. -/
def frameRoll (w : World) (frameIndex : Nat) (choice : Choice) : Option (Nat × Nat) :=
  choice.rollType.bind fun rollType =>
    (w.getglobal (groupLootFrame frameIndex)).bind fun rollFrame => (w.frame rollFrame).rollID.map (·, rollType)

/-- What the OnClick of a usable button submits: the roll its frame has now. -/
def nativeRoll (w : World) (button : FrameId) : Option (Nat × Nat) :=
  if usableButton w button then
    (groupLootFrames w).findSome? fun frameIndex => GROUP_LOOT_ACTIONS.findSome? fun actionInfo =>
      if w.getglobal (groupLootFrame frameIndex ++ actionInfo.1) = some button then frameRoll w frameIndex actionInfo.2
      else none
  else none

/-- The native buttons roll when clicked; no other call makes the client roll. -/
structure NativeRolls (c : Client) : Prop where
  click : ∀ button w, rollCalls (c.act (.click button .LeftButton) w).2 = (nativeRoll w button).toList
  other : ∀ call w, (∀ button, call ≠ .click button .LeftButton) → rollCalls (c.act call w).2 = []

/-- What a call submits, by itself and through the native buttons. -/
def submitted (w : World) : Call → List (Nat × Nat)
  | .click button .LeftButton => (nativeRoll w button).toList
  | .rollOnLoot rollID rollType => [(rollID, rollType)]
  | _ => []

/-! ## The names of the roll buttons -/

theorem findSome?_unique {α β : Type} {f : α → Option β} {a : α} : ∀ {l : List α}, a ∈ l →
    (∀ b ∈ l, f b ≠ none → b = a) → l.findSome? f = f a := by
  intro l
  induction l with
  | nil => intro h; cases h
  | cons b l ih =>
    intro ha hunique
    rw [List.findSome?_cons]
    cases hb : f b with
    | some v =>
      have hba : b = a := hunique b List.mem_cons_self (by rw [hb]; exact Option.some_ne_none v)
      rw [← hba, hb]
    | none =>
      rcases List.mem_cons.mp ha with rfl | hmem
      · dsimp only
        rw [hb]
        apply List.findSome?_eq_none_iff.mpr
        intro x hx
        by_contra hne
        obtain rfl := hunique x (List.mem_cons_of_mem _ hx) hne
        exact hne hb
      · exact ih hmem fun x hx => hunique x (List.mem_cons_of_mem _ hx)

theorem toDigits_isDigit (n : Nat) : ∀ ch ∈ Nat.toDigits 10 n, isDigit ch = true := by
  intro ch hch
  have h := Nat.isDigit_of_mem_toDigits (by decide) (by decide) hch
  simpa [isDigit, Char.isDigit, Char.le_def] using h

/-- A frame's number can be read off the name of a button of it. -/
theorem groupLootFrame_inj {i j : Nat} {x y : String} (hx : (x.toList.head?.all fun ch => !isDigit ch) = true)
    (hy : (y.toList.head?.all fun ch => !isDigit ch) = true) (h : groupLootFrame i ++ x = groupLootFrame j ++ y) :
    i = j ∧ x = y := by
  have hnumber : ∀ (n : Nat) (z : String), (z.toList.head?.all fun ch => !isDigit ch) = true →
      (Nat.toDigits 10 n ++ z.toList).takeWhile isDigit = Nat.toDigits 10 n := by
    intro n z hz
    rw [List.takeWhile_append_of_pos (toDigits_isDigit n)]
    cases hl : z.toList with
    | nil => simp
    | cons ch rest =>
      rw [hl] at hz
      simp at hz
      simp [hz]
  have hchars := congrArg String.toList h
  simp only [groupLootFrame, String.toList_append, Nat.toString_eq_repr, Nat.toList_repr, List.append_assoc,
    List.append_cancel_left_eq] at hchars
  have hdigits := congrArg (List.takeWhile isDigit) hchars
  rw [hnumber i x hx, hnumber j y hy] at hdigits
  have hij := congrArg (Nat.ofDigitChars 10 · 0) hdigits
  simp only [Nat.ofDigitChars_toDigits (by decide : 1 < 10) (by decide : 10 ≤ 10)] at hij
  rw [hdigits, List.append_cancel_left_eq] at hchars
  exact ⟨hij, String.toList_inj.mp hchars⟩

theorem suffix_head : ∀ actionInfo ∈ GROUP_LOOT_ACTIONS,
    (actionInfo.1.toList.head?.all fun ch => !isDigit ch) = true := by decide +kernel

/-- The buttons of the roll frames have different suffixes. -/
theorem suffix_inj : ∀ a ∈ GROUP_LOOT_ACTIONS, ∀ b ∈ GROUP_LOOT_ACTIONS, a.1 = b.1 → a = b := by decide +kernel

/-- One frame is one button of one roll frame. -/
theorem rollButton_unique {w : World} {button : FrameId} {i j : Nat} {a b : String × Choice} (ha : a ∈ GROUP_LOOT_ACTIONS)
    (hb : b ∈ GROUP_LOOT_ACTIONS) (hi : w.getglobal (groupLootFrame i ++ a.1) = some button)
    (hj : w.getglobal (groupLootFrame j ++ b.1) = some button) : i = j ∧ a = b := by
  have hname : some (groupLootFrame i ++ a.1) = some (groupLootFrame j ++ b.1) :=
    (w.named _ _ hi).symm.trans (w.named _ _ hj)
  obtain ⟨hij, hsuffix⟩ := groupLootFrame_inj (suffix_head a ha) (suffix_head b hb) (Option.some.inj hname)
  exact ⟨hij, suffix_inj a ha b hb hsuffix⟩

theorem nativeRoll_button {w : World} {button : FrameId} {i : Nat} {a : String × Choice} (hi : i ∈ groupLootFrames w)
    (ha : a ∈ GROUP_LOOT_ACTIONS) (hbutton : w.getglobal (groupLootFrame i ++ a.1) = some button)
    (husable : usableButton w button = true) : nativeRoll w button = frameRoll w i a.2 := by
  have hinner : ∀ j, (∀ b ∈ GROUP_LOOT_ACTIONS, w.getglobal (groupLootFrame j ++ b.1) = some button → b = a) →
      (GROUP_LOOT_ACTIONS.findSome? fun b =>
        if w.getglobal (groupLootFrame j ++ b.1) = some button then frameRoll w j b.2 else none) =
      if w.getglobal (groupLootFrame j ++ a.1) = some button then frameRoll w j a.2 else none := by
    intro j hj
    refine findSome?_unique ha fun b hb hne => ?_
    by_cases hg : w.getglobal (groupLootFrame j ++ b.1) = some button
    · exact hj b hb hg
    · exact absurd (if_neg hg) hne
  unfold nativeRoll
  rw [if_pos husable, findSome?_unique hi, hinner i, if_pos hbutton]
  · intro b hb hg
    exact (rollButton_unique hb ha hg hbutton).2
  · intro j _ hne
    obtain ⟨b, hb, hval⟩ := List.exists_of_findSome?_eq_some (Option.ne_none_iff_exists'.mp hne).choose_spec
    by_cases hg : w.getglobal (groupLootFrame j ++ b.1) = some button
    · exact (rollButton_unique hb ha hg hbutton).1
    · rw [if_neg hg] at hval
      cases hval

/-- Where it was listed, a roll element's native button means the roll the element records. -/
theorem nativeRoll_offered {w : World} {e : Element} (he : e ∈ groupLootRolls w) :
    nativeRoll w e.frame = (e.lootRollChoice.bind Choice.rollType).bind fun rollType => e.lootRollID.map (·, rollType) := by
  obtain ⟨i, rollFrame, a, hroll⟩ := mem_groupLootRolls he
  rw [nativeRoll_button hroll.numbered hroll.listed hroll.button hroll.usable, hroll.lootRollID, hroll.lootRollChoice]
  unfold frameRoll
  rw [hroll.owner]
  rfl

/-! ## What a step submits -/

/-- Between the two states the client made calls that submit `rolls`. -/
def Submits (rolls : List (Nat × Nat)) (s t : St) : Prop :=
  ∃ calls, t.screen.calls = s.screen.calls ++ calls ∧ rollCalls calls = rolls

theorem Submits.refl (s : St) : Submits [] s s := ⟨[], (List.append_nil _).symm, rfl⟩

theorem submits_same {s t : St} (h : t.screen = s.screen) : Submits [] s t :=
  ⟨[], by rw [h, List.append_nil], rfl⟩

theorem Submits.trans {a b d : St} {r1 r2 : List (Nat × Nat)} (h1 : Submits r1 a b) (h2 : Submits r2 b d) :
    Submits (r1 ++ r2) a d := by
  obtain ⟨c1, hc1, rfl⟩ := h1
  obtain ⟨c2, hc2, rfl⟩ := h2
  exact ⟨c1 ++ c2, by rw [hc2, hc1, List.append_assoc], rollCalls_append c1 c2⟩

/-- Nothing is submitted on the way. -/
abbrev Quiet (s t : St) : Prop := Submits [] s t

theorem submits_perform (hc : NativeRolls c) (call : Call) (s : St) :
    Submits (submitted s.world call) s (s.perform c call) := by
  refine ⟨call :: (c.act call s.world).2, rfl, ?_⟩
  have hother := hc.other call s.world
  cases call with
  | rollOnLoot rollID rollType =>
    have hnested := hother fun button h => by cases h
    show (rollID, rollType) :: rollCalls (c.act (.rollOnLoot rollID rollType) s.world).2 = [(rollID, rollType)]
    rw [hnested]
  | click button mouseButton =>
    cases mouseButton with
    | LeftButton => exact hc.click button s.world
    | RightButton => exact hother fun _ h => by cases h
  | _ => exact hother fun _ h => by cases h

theorem quiet_enterContext (context : Context) (elements : List Element) (suspended : Option SuspendedFocus) (s : St) :
    Quiet s (enterContext c context elements suspended s) := by
  obtain ⟨_, _, _, _, _, _, hframe⟩ := enterContext_frame (c := c) context elements suspended s
  rw [hframe]
  exact submits_same rfl

section Scans

variable (hc : NativeRolls c)
include hc

/-- No call of hovering submits a roll. -/
theorem quiet_hovering {s t : St} (h : HoverCalls c s.screen t.screen) : Quiet s t := by
  have hcalls : ∀ b, HoverCalls c s.screen b → Quiet s (s.withScreen b) := by
    intro b hb
    induction hb with
    | none => exact .refl s
    | @perform b call hcall _ ih =>
      have hnone : submitted b.world call = [] := by
        cases call <;> first | rfl | cases hcall
      have hperform := submits_perform hc call (s.withScreen b)
      rw [show (s.withScreen b).world = b.world from rfl, hnone] at hperform
      exact ih.trans hperform
  exact hcalls t.screen h

theorem quiet_updateHighlight (s : St) : Quiet s (updateHighlight c s) := quiet_hovering hc (updateHighlight_calls s)

theorem quiet_leaveUIMode (s : St) : Quiet s (leaveUIMode c s) := by
  unfold leaveUIMode
  dsimp only
  split
  · exact .refl s
  · split
    · exact ((quiet_hovering hc (triggerOnLeave_calls _ s)).trans (submits_perform hc .hideTooltip _)).trans (submits_same (applyButtonLayout_screen _ _))
    · exact (submits_perform hc .hideTooltip s).trans (submits_same (applyButtonLayout_screen _ _))

theorem quiet_buildElements (s : St) : Quiet s (s.withScreen (buildElements c s.screen).1) := by
  have hcall : ∀ call, submitted s.world call = [] → Quiet s (s.withScreen (perform c call s.screen)) := by
    intro call hnone
    have h := submits_perform hc call s
    rw [hnone] at h
    exact h
  unfold buildElements
  split
  · split
    · exact .refl s
    · dsimp only
      unfold ensureMerchantSellJunkButton
      split
      · exact hcall .createJunkButton rfl
      · exact .refl s
    · exact .refl s
  · dsimp only
    split
    · exact hcall .closeLoot rfl
    · exact .refl s

/-- A scan submits nothing. -/
theorem quiet_refreshElements (s : St) : Quiet s (refreshElements c s).1 := by
  have hread : Quiet s (s.withScreen (readFrames c s)) := by
    unfold readFrames
    split
    · exact .refl s
    · exact quiet_buildElements hc s
  rcases refresh_cases c s with ⟨_, hleft⟩ | ⟨context, elements, _, hfocus⟩
  · rw [hleft]
    exact hread.trans (quiet_leaveUIMode hc _)
  · rw [hfocus]
    have harrive := hread.trans (quiet_enterContext (c := c) context elements (suspendFocus s.nav context).1 _)
    cases hchoose : chooseFocus (readFrames c s).world s.nav context elements (suspendFocus s.nav context).2 with
    | error err =>
      rw [focusOn_error (s := s.withScreen (readFrames c s)) hchoose]
      exact harrive
    | ok focus =>
      rw [focusOn_ok (s := s.withScreen (readFrames c s)) hchoose]
      exact harrive.trans (Submits.trans (submits_same rfl) (quiet_updateHighlight hc _))

end Scans

/-! ## What one Confirm submits -/

/-- The frame an element's activation left-clicks, if it does. -/
def clickedFrame (w : World) (e : Element) : Option FrameId :=
  match e.action with
  | none => if (w.frame e.frame).clickable && e.mouseButton == .LeftButton then some e.frame else none
  | some (.groupLootRoll _ button _) => if (w.frame button).clickable then some button else none
  | some (.activateMerchantRepairItem button) => if (w.frame button).visible then some button else none
  | some (.activateStableSlot button) =>
    let f := w.frame button
    if f.visible && (f.isEnabled.all (· == some 1)) && f.clickable then some button else none
  | some (.activateTalentButton button) => if (w.frame button).isEnabled == some (some 0) then none else some button
  | some (.activateTalentTab button) => some button
  | _ => none

/-- The roll the click submits. -/
def clickedRoll (w : World) (e : Element) : Option (Nat × Nat) := (clickedFrame w e).bind (nativeRoll w)

variable (c) in
/-- The roll `ActivateGroupLootRoll` submits, in the world the click leaves. -/
def directRoll (w : World) (e : Element) : Option (Nat × Nat) :=
  match e.action with
  | some (.groupLootRoll rollFrame button choice) =>
    let w := if (w.frame button).clickable then (c.act (.click button .LeftButton) w).1 else w
    choice.rollType.bind fun rollType =>
      if (w.frame rollFrame).visible then (w.frame rollFrame).rollID.map (·, rollType) else none
  | _ => none

variable (c) in
/-- The element a press behind a scan activates. -/
def pressedElement (s : St) : Option Element :=
  if lootBranch s.world then none
  else ((scanFocus c s).map Prod.snd).filter (activatable (refreshElements c s).1.world)

variable (c) in
/-- What the press submits, by the click and then directly. -/
def pressRolls (s : St) : List (Nat × Nat) :=
  match pressedElement c s with
  | none => []
  | some e => (clickedRoll (refreshElements c s).1.world e).toList ++ (directRoll c (refreshElements c s).1.world e).toList

section Confirm

variable (hc : NativeRolls c)
include hc

theorem quiet_lootButton (button : FrameId) (s : St) : Quiet s (activateLootButton c button s) := by
  unfold activateLootButton
  split
  · rename_i slot _
    exact Submits.trans (submits_same rfl) (submits_perform hc (.lootSlot slot) _)
  · exact .refl s

theorem quiet_clearCursor (s : St) : Quiet s (clearCursor c s) := by
  unfold clearCursor
  split
  · exact submits_perform hc .clearCursor s
  · exact .refl s

theorem submits_click (button : FrameId) (s : St) :
    Submits (nativeRoll s.world button).toList s (s.perform c (.click button .LeftButton)) :=
  submits_perform hc _ s

theorem groupLootRoll_submits (rollFrame button : FrameId) (choice : Choice) (s : St) (e : Element)
    (he : e.action = some (.groupLootRoll rollFrame button choice)) :
    Submits ((clickedRoll s.world e).toList ++ (directRoll c s.world e).toList) s
      (groupLootRoll c rollFrame button choice s) := by
  have hdirect : ∀ (rollType : Nat) (u : St), Submits (if (u.world.frame rollFrame).visible then
      (u.world.frame rollFrame).rollID.map (·, rollType) else none).toList u
      (activateGroupLootRoll c rollFrame rollType u) := by
    intro rollType u
    unfold activateGroupLootRoll
    by_cases hv : (u.world.frame rollFrame).visible = true
    · rw [if_pos hv, if_pos hv]
      cases (u.world.frame rollFrame).rollID with
      | none => exact .refl u
      | some rollID => exact submits_perform hc (.rollOnLoot rollID rollType) u
    · rw [if_neg hv, if_neg hv]
      exact .refl u
  unfold clickedRoll clickedFrame directRoll groupLootRoll
  rw [he]
  dsimp only
  by_cases hclick : (s.world.frame button).clickable = true
  · rw [if_pos hclick, if_pos hclick, if_pos hclick, Option.bind_some]
    refine (submits_click hc button s).trans ?_
    cases choice.rollType with
    | none => exact .refl _
    | some rollType => exact hdirect rollType _
  · rw [if_neg hclick, if_neg hclick, if_neg hclick, Option.bind_none]
    refine (Submits.refl s).trans ?_
    cases choice.rollType with
    | none => exact .refl s
    | some rollType => exact hdirect rollType s

theorem repairItem_submits (button : FrameId) (s : St) :
    Submits (if (s.world.frame button).visible then (nativeRoll s.world button).toList else []) s
      (activateMerchantRepairItem c button s) := by
  unfold activateMerchantRepairItem
  split
  · have hclick := submits_click hc button s
    have hopen : ∀ t : St, Quiet t (if visible t.world "CharacterFrame" then t else t.perform c .toggleCharacter) := by
      intro t
      split
      · exact .refl t
      · exact submits_perform hc .toggleCharacter t
    have hfocus : ∀ u index, Quiet u (updateHighlight c (setIndex index u)) :=
      fun u index => Submits.trans (submits_same rfl) (quiet_updateHighlight hc _)
    dsimp only
    split
    · have h := (hclick.trans (hopen _)).trans (quiet_refreshElements hc _)
      rw [List.append_nil, List.append_nil] at h
      split
      · rename_i hr
        rw [hr] at h
        exact h
      · rename_i hr
        rw [hr] at h
        split
        · rename_i index _
          have htotal := h.trans (hfocus _ index)
          rw [List.append_nil] at htotal
          exact htotal
        · exact h
    · exact hclick
  · exact .refl s

/-- An action submits what its click finds, then what it submits itself. -/
theorem runAction_submits (e : Element) {action : ElementAction} (he : e.action = some action) (s : St) :
    Submits ((clickedRoll s.world e).toList ++ (directRoll c s.world e).toList) s (runAction c action s) := by
  cases action with
  | groupLootRoll rollFrame button choice => exact groupLootRoll_submits hc rollFrame button choice s e he
  | activateMerchantRepairItem button =>
    have h := repairItem_submits hc button s
    simp only [clickedRoll, clickedFrame, directRoll, he]
    by_cases hv : (s.world.frame button).visible = true
    · rw [if_pos hv] at h
      simpa [hv, runAction] using h
    · rw [if_neg hv] at h
      simpa [hv, runAction] using h
  | activateStableSlot button =>
    simp only [clickedRoll, clickedFrame, directRoll, he, runAction, activateStableSlot]
    split
    · simpa using submits_click hc button s
    · exact .refl s
  | activateTalentButton button =>
    simp only [clickedRoll, clickedFrame, directRoll, he, runAction, activateTalentButton]
    split
    · exact .refl s
    · simpa using submits_click hc button s
  | activateTalentTab button =>
    simp only [clickedRoll, clickedFrame, directRoll, he]
    have h := (submits_click hc button s).trans (submits_same (t := activateTalentTab c button s) rfl)
    simpa [runAction] using h
  | _ =>
    simp only [clickedRoll, clickedFrame, directRoll, he, runAction, activateContainerItemInMerchant,
      activateMerchantButton, activateMerchantBuyBackItem]
    repeat' split
    all_goals first
      | exact .refl s
      | exact quiet_lootButton hc _ s
      | exact quiet_clearCursor hc s
      | exact (quiet_clearCursor hc s).trans (submits_perform hc _ _)
      | exact submits_perform hc _ s
      | exact (submits_perform hc _ s).trans (submits_perform hc _ _)

theorem firePress_element_submits (e : Element) (s : St) :
    Submits ((clickedRoll s.world e).toList ++ (directRoll c s.world e).toList) s (firePress c (.element e) s) := by
  unfold firePress
  dsimp only
  cases he : e.action with
  | some action => exact runAction_submits hc e he s
  | none =>
    unfold clickedRoll clickedFrame directRoll
    rw [he]
    by_cases hclick : (s.world.frame e.frame).clickable = true
    · rw [if_pos hclick]
      have hperform := submits_perform hc (.click e.frame e.mouseButton) s
      cases hm : e.mouseButton with
      | LeftButton =>
        rw [hm] at hperform
        simpa [hclick, submitted] using hperform
      | RightButton =>
        rw [hm] at hperform
        simpa [hclick, submitted] using hperform
    · rw [if_neg hclick]
      simpa [hclick] using Submits.refl s

theorem quiet_pressTarget (s : St) : Quiet s (pressTarget c s).1 := by
  rcases pressTarget_state (c := c) s with h | h
  · rw [h]
    exact .refl s
  · rw [h]
    exact quiet_refreshElements hc s

/-- The loot branch closes the window or loots a slot. -/
theorem quiet_lootPress {s : St} {press : Press} (hp : lootPress s = some press) (t : St) : Quiet t (firePress c press t) := by
  unfold lootPress at hp
  split at hp
  · cases hp
  · split at hp
    · obtain rfl := Option.some.inj hp
      exact submits_perform hc .closeLoot t
    · obtain ⟨slot, _, rfl⟩ := Option.map_eq_some_iff.mp hp
      exact quiet_lootButton hc _ t

theorem uiActivate_submits (s : St) : Submits (pressRolls c s) s (uiActivate c s).1 := by
  have htarget := quiet_pressTarget hc s
  unfold uiActivate
  dsimp only
  cases hloot : lootBranch s.world with
  | true =>
    have hrolls : pressRolls c s = [] := by
      unfold pressRolls pressedElement
      rw [hloot]
      rfl
    have hkeep : ∀ u, Quiet u (keepLootIndex u) := fun u => submits_same rfl
    have hpress : ∀ t press, pressTarget c s = (t, none, some press) → ∀ u, Quiet u (firePress c press u) := by
      intro t press heq
      unfold pressTarget at heq
      rw [if_pos hloot] at heq
      split at heq
      · cases heq
      · exact quiet_lootPress hc (Prod.mk.inj (Prod.mk.inj heq).2).2
    rw [hrolls]
    split
    · rename_i hp; rw [hp] at htarget; exact htarget
    · rename_i hp; rw [hp] at htarget; exact htarget.trans (hkeep _)
    · rename_i hp
      rw [hp] at htarget
      exact (htarget.trans (hpress _ _ hp _)).trans (hkeep _)
  | false =>
    cases hscan : scanFocus c s with
    | none =>
      have hrolls : pressRolls c s = [] := by
        unfold pressRolls pressedElement
        rw [hloot, hscan]
        rfl
      rw [hrolls]
      split
      · rename_i hp; rw [hp] at htarget; exact htarget
      · rename_i hp; rw [hp] at htarget; exact htarget
      · rename_i hp
        exact absurd hp (pressTarget_unfocused hloot hscan _)
    | some focus =>
      obtain ⟨context, e⟩ := focus
      rw [pressTarget_scan hloot hscan] at htarget ⊢
      unfold pressRolls pressedElement
      rw [hloot, hscan, if_neg Bool.false_ne_true, Option.map_some]
      dsimp only
      by_cases hact : activatable (refreshElements c s).1.world e = true
      · rw [if_pos hact, Option.filter_some, if_pos hact]
        dsimp only
        have hfire := htarget.trans (firePress_element_submits hc e (refreshElements c s).1)
        rw [if_neg Bool.false_ne_true]
        split
        · have hagain := hfire.trans (quiet_refreshElements hc _)
          rw [List.append_nil] at hagain
          exact hagain
        · exact hfire
      · rw [if_neg hact, Option.filter_some, if_neg hact]
        exact htarget

end Confirm

/-! ## Once, and the recorded roll -/

variable (c) in
/-- The rolls one Confirm submits. -/
def confirmRolls (s : St) : List (Nat × Nat) := rollCalls ((uiActivate c s).1.screen.calls.drop s.screen.calls.length)

/-- The roll a Need, Greed or Pass element recorded, with the type of its choice. -/
def recordedRoll (e : Element) : Option (Nat × Nat) :=
  e.lootRollID.bind fun rollID => (e.lootRollChoice.bind Choice.rollType).map (rollID, ·)

/-- The highlighted element `e` is rolled for once at most, with what it recorded. -/
structure SubmitsOnce (e : Element) (rolls : List (Nat × Nat)) : Prop where
  once : rolls.length ≤ 1
  recorded : ∀ roll ∈ rolls, recordedRoll e = some roll

variable (c) in
/-- Where the press activates an element, its native button has no roll to submit or, after
    the click, its roll frame is gone; and the roll that is left is the recorded one. -/
structure RollSafe (s : St) (e : Element) : Prop where
  single : ∀ pressed, pressedElement c s = some pressed →
    clickedRoll (refreshElements c s).1.world pressed = none ∨ directRoll c (refreshElements c s).1.world pressed = none
  recorded : ∀ pressed, pressedElement c s = some pressed → ∀ roll,
    clickedRoll (refreshElements c s).1.world pressed = some roll ∨
      directRoll c (refreshElements c s).1.world pressed = some roll → recordedRoll e = some roll

theorem submitsOnce_two (e : Element) (clicked direct : Option (Nat × Nat)) :
    SubmitsOnce e (clicked.toList ++ direct.toList) ↔
      (clicked = none ∨ direct = none) ∧ ∀ roll, clicked = some roll ∨ direct = some roll → recordedRoll e = some roll := by
  constructor
  · intro h
    refine ⟨?_, fun roll hroll => h.recorded roll (by simpa using hroll)⟩
    have honce := h.once
    cases clicked with
    | none => exact Or.inl rfl
    | some a =>
      cases direct with
      | none => exact Or.inr rfl
      | some b => simp at honce
  · intro ⟨hone, hrec⟩
    refine ⟨?_, fun roll hroll => hrec roll (by simpa using hroll)⟩
    rcases hone with rfl | rfl
    · cases direct <;> simp
    · cases clicked <;> simp

theorem confirmRolls_eq (hc : NativeRolls c) (s : St) : confirmRolls c s = pressRolls c s := by
  obtain ⟨calls, happend, hrolls⟩ := uiActivate_submits hc s
  unfold confirmRolls
  rw [happend, List.drop_left, hrolls]

theorem submitsOnce_iff_rollSafe (hc : NativeRolls c) (s : St) (e : Element) :
    SubmitsOnce e (confirmRolls c s) ↔ RollSafe c s e := by
  rw [confirmRolls_eq hc]
  unfold pressRolls
  cases hp : pressedElement c s with
  | none =>
    refine ⟨fun _ => ⟨fun pressed he => ?_, fun pressed he => ?_⟩, fun _ => ⟨Nat.zero_le 1, fun roll hmem => ?_⟩⟩
    · rw [hp] at he
      cases he
    · rw [hp] at he
      cases he
    · cases hmem
  | some pressed =>
    dsimp only
    rw [submitsOnce_two]
    constructor
    · intro hsafe
      refine ⟨fun p he => ?_, fun p he => ?_⟩
      · obtain rfl := Option.some.inj (hp.symm.trans he)
        exact hsafe.1
      · obtain rfl := Option.some.inj (hp.symm.trans he)
        exact hsafe.2
    · intro hsafe
      exact ⟨hsafe.single pressed hp, hsafe.recorded pressed hp⟩

/-- A Need, Greed or Pass button is highlighted. -/
def RollHighlighted (s : St) (h : Highlight) : Prop :=
  s.nav.highlight = some h ∧ (h.element.lootRollChoice.bind Choice.rollType).isSome = true

variable (c) in
/-- With such a button highlighted Confirm submits its recorded roll, once at most. -/
def RollsOnce (s : St) : Prop := ∀ h, RollHighlighted s h → SubmitsOnce h.element (confirmRolls c s)

/-- Whatever happened to the frames before. -/
theorem submits_once_iff (c : Client) (hc : NativeRolls c) (s : St) :
    RollsOnce c s ↔ ∀ h, RollHighlighted s h → RollSafe c s h.element :=
  forall_congr' fun h => imp_congr_right fun _ => submitsOnce_iff_rollSafe hc s h.element

/-! ## One roll frame -/

/-- A client with native roll buttons; `after` is what the roll does to the frames. -/
def nativeClient (after : World → FrameId → World) : Client where
  act call w := match call with
    | .click button .LeftButton => match nativeRoll w button with
      | some roll => (after w button, [.rollOnLoot roll.1 roll.2])
      | none => (w, [])
    | _ => (w, [])
  answer _ _ := false
  hasSetBindingSpell := true
  mappings := bridgeMappings

theorem nativeClient_rolls (after : World → FrameId → World) : NativeRolls (nativeClient after) := by
  refine ⟨fun button w => ?_, fun call w hother => ?_⟩
  · show rollCalls (match nativeRoll w button with
      | some roll => (after w button, [Call.rollOnLoot roll.1 roll.2])
      | none => (w, [])).2 = _
    cases nativeRoll w button with
    | none => rfl
    | some roll => rfl
  · cases call with
    | click button mouseButton =>
      cases mouseButton with
      | LeftButton => exact absurd rfl (hother button)
      | RightButton => rfl
    | _ => rfl

/-- Roll 7 on the first roll frame. -/
def rollWorld : World := World.ofFrames
  [{ name := some "GroupLootFrame1", visible := true, rollID := some 7 },
   { name := some "GroupLootFrame1IconFrame", visible := true, center := some (10, 10), clickable := true,
     parent := some 0 },
   { name := some "GroupLootFrame1RollButton", visible := true, center := some (40, 10), isEnabled := some (some 1),
     clickable := true, parent := some 0 },
   { name := some "GroupLootFrame1GreedButton", visible := true, center := some (70, 10), isEnabled := some (some 1),
     clickable := true, parent := some 0 },
   { name := some "GroupLootFrame1PassButton", visible := true, center := some (100, 10), isEnabled := some (some 1),
     clickable := true, parent := some 0 }]

/-- The roll appears, and the player moves to Need. -/
def needState (after : World → FrameId → World) : St :=
  run (step (nativeClient after)) (fresh rollWorld defaultDB fun _ => "") [.scan, .uiMoveDir .RIGHT]

/-- The frame a button belongs to is hidden, with its buttons. -/
def hideOwner (w : World) (button : FrameId) : World where
  __ := w
  frame f :=
    if (w.frame button).parent = some f ∨ (w.frame f).parent = (w.frame button).parent then
      { w.frame f with visible := false }
    else w.frame f
  named name f h := by
    have := w.named name f h
    split <;> exact this

/-- Where the roll hides its frame at once, `RollSafe` holds and Need is submitted once. -/
theorem confirm_rolls_once : RollsOnce (nativeClient hideOwner) (needState hideOwner) := by
  refine (submits_once_iff (nativeClient hideOwner) (nativeClient_rolls hideOwner) (needState hideOwner)).mpr ?_
  intro h hroll
  have hneed : (needState hideOwner).nav.highlight.map (fun h => recordedRoll h.element) = some (some (7, 1)) := by
    decide +kernel
  rw [hroll.1] at hneed
  have hrec : recordedRoll h.element = some (7, 1) := Option.some.inj hneed
  have hpressed : (pressedElement (nativeClient hideOwner) (needState hideOwner)).map (fun e =>
      (clickedRoll (refreshElements (nativeClient hideOwner) (needState hideOwner)).1.world e,
       directRoll (nativeClient hideOwner) (refreshElements (nativeClient hideOwner) (needState hideOwner)).1.world e)) =
      some (some (7, 1), none) := by decide +kernel
  refine ⟨fun pressed hp => ?_, fun pressed hp roll hfound => ?_⟩
  · rw [hp] at hpressed
    exact Or.inr (Prod.mk.inj (Option.some.inj hpressed)).2
  · rw [hp] at hpressed
    obtain ⟨hclick, hdirect⟩ := Prod.mk.inj (Option.some.inj hpressed)
    rw [hclick, hdirect] at hfound
    rw [hrec]
    rcases hfound with he | he
    · exact he
    · cases he

/-- The client asks before it binds the item: the frame stays, and Need is submitted twice. -/
theorem confirm_rolls_twice : ¬ ∀ c, NativeRolls c → ∀ (w : World) (db : DB) (bindings : String → String) (es : List Ev),
    RollsOnce c (run (step c) (fresh w db bindings) es) := by
  intro hall
  have hneed : ((needState fun w _ => w).nav.highlight.bind fun h => recordedRoll h.element) = some (7, 1) := by decide +kernel
  obtain ⟨h, hh, hrec⟩ := Option.bind_eq_some_iff.mp hneed
  obtain ⟨rollID, _, htype⟩ := Option.bind_eq_some_iff.mp hrec
  have hchoice : (h.element.lootRollChoice.bind Choice.rollType).isSome = true := by
    cases hc : h.element.lootRollChoice.bind Choice.rollType with
    | none => rw [hc] at htype; cases htype
    | some rollType => rfl
  have honce := hall _ (nativeClient_rolls fun w _ => w) rollWorld defaultDB (fun _ => "") [.scan, .uiMoveDir .RIGHT] h
    ⟨hh, hchoice⟩
  have hrolls : confirmRolls (nativeClient fun w _ => w) (needState fun w _ => w) = [(7, 1), (7, 1)] := by decide +kernel
  have hlen := honce.once
  change (confirmRolls (nativeClient fun w _ => w) (needState fun w _ => w)).length ≤ 1 at hlen
  rw [hrolls] at hlen
  exact absurd hlen (by decide)

end Nostalgia.Controller
