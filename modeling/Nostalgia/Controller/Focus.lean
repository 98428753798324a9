/-
  Nostalgia.Controller.Focus — where a scan puts the focus.

  `scanFocus` reads it off the state before the scan: the context of the frames then, its
  elements, and the focus rule on the old navigation. The highlight and the hover scripts
  come after it and do not move it.
  - `chooseFocus_mem`: the focus is on one of the elements, whichever rule chose it.
  - `refresh_cases`: a scan leaves UI mode, or puts the focus somewhere in what it read
    (`focusOn_ok`, `focusOn_error`).
  - `enterContext_frame`: arriving in a context writes the key bindings, what DinoController
    knows of UI mode, and its own fields of the navigation.
  - `refresh_focused`, `refresh_unfocused`: a scan ends with that element in focus, or it
    fails or leaves UI mode.
  - `chooseFocus_stays_iff`: in an unchanged context the focus stays on its key exactly if
    the key is still listed and no pending request asks for another one.
  - `chooseFocus_fallsTo_iff`: when any focus ends on a given key.
-/

import Nostalgia.Controller.Scan

namespace Nostalgia.Controller

open Nostalgia.Lua

variable {c : Client}

/-! ## Indices -/

theorem elementAt_mem {elements : List Element} {index : Nat} {e : Element} (h : elementAt elements index = some e) :
    e ∈ elements := by
  unfold elementAt at h
  split at h
  · cases h
  · exact List.mem_of_getElem? h

theorem elementAt_range {elements : List Element} {index : Nat} {e : Element} (h : elementAt elements index = some e) :
    1 ≤ index ∧ index ≤ elements.length := by
  unfold elementAt at h
  split at h
  · cases h
  · have hlt := (List.getElem?_eq_some_iff.mp h).1
    omega

theorem elementAt_clamp {elements : List Element} (hne : elements ≠ []) (index : Nat) :
    ∃ e, elementAt elements (max 1 (min index elements.length)) = some e := by
  have hlen : 0 < elements.length := List.length_pos_iff.mpr hne
  have hlt : max 1 (min index elements.length) - 1 < elements.length := by omega
  refine ⟨elements[max 1 (min index elements.length) - 1], ?_⟩
  unfold elementAt
  rw [if_neg (by omega), List.getElem?_eq_getElem hlt]

theorem elementAt_one {elements : List Element} (hne : elements ≠ []) : ∃ e, elementAt elements 1 = some e := by
  cases elements with
  | nil => exact absurd rfl hne
  | cons e rest => exact ⟨e, rfl⟩

/-- A search ends on an element it was for. -/
theorem findElement_spec {elements : List Element} {p : Element → Bool} {index : Nat}
    (h : findElement elements p = some index) : ∃ e, elementAt elements index = some e ∧ p e = true := by
  obtain ⟨i, hi, rfl⟩ := Option.map_eq_some_iff.mp h
  obtain ⟨hlt, hp, _⟩ := List.findIdx?_eq_some_iff_getElem.mp hi
  refine ⟨elements[i], ?_, hp⟩
  show elements[i]? = some elements[i]
  exact List.getElem?_eq_getElem hlt

theorem findElement_isSome {elements : List Element} {p : Element → Bool} {e : Element} (he : e ∈ elements)
    (hp : p e = true) : ∃ index, findElement elements p = some index := by
  cases hf : elements.findIdx? p with
  | none => exact absurd hp (by simp [List.findIdx?_eq_none_iff.mp hf e he])
  | some i => exact ⟨i + 1, by simp [findElement, hf]⟩

theorem findKey_spec {elements : List Element} {key : String} {index : Nat} (h : findKey elements key = some index) :
    ∃ e, elementAt elements index = some e ∧ e.key = key := by
  obtain ⟨e, he, hp⟩ := findElement_spec h
  exact ⟨e, he, by simpa using hp⟩

theorem findKey_isSome {elements : List Element} {e : Element} (he : e ∈ elements) :
    ∃ index, findKey elements e.key = some index :=
  findElement_isSome he (by simp)

/-- One of two searches. -/
theorem or_spec {a b : Option Nat} {P : Nat → Prop} (ha : ∀ i, a = some i → P i) (hb : ∀ i, b = some i → P i) :
    ∀ i, a.or b = some i → P i := by
  intro i h
  cases a with
  | none => exact hb i h
  | some j => exact ha i h

/-! ## The chosen index -/

/-- The index has an element. -/
def Listed (elements : List Element) (index : Nat) : Prop := ∃ e, elementAt elements index = some e

theorem listed_find {elements : List Element} {p : Element → Bool} : ∀ i, findElement elements p = some i → Listed elements i :=
  fun _ h => (findElement_spec h).imp fun _ he => he.1

theorem listed_one {elements : List Element} (hne : elements ≠ []) : ∀ i, some 1 = some i → Listed elements i := by
  intro i h
  obtain rfl := Option.some.inj h
  exact elementAt_one hne

theorem rollSuccessor_listed {elements : List Element} {frameIndex : Nat} {choice : Option Choice} :
    ∀ i, rollSuccessor elements frameIndex choice = some i → Listed elements i := by
  intro i h
  unfold rollSuccessor at h
  dsimp only at h
  split at h
  · cases h
  · exact or_spec listed_find listed_find i h

theorem findInitialBankSlot_listed {w : World} {elements : List Element} {i : Nat}
    (h : findInitialBankSlot w elements = .ok i) : Listed elements i := by
  unfold findInitialBankSlot at h
  dsimp only at h
  split at h
  · rename_i index hf
    cases h
    exact or_spec listed_find listed_find i hf
  · cases h

theorem ok_fst {a a' : α} {b b' : β} (h : (.ok (a, b) : Except ε (α × β)) = .ok (a', b')) : a = a' :=
  congrArg Prod.fst (Except.ok.inj h)

theorem preferredFocus_listed {w : World} {nav requests : Nav} {context : Context} {elements : List Element}
    {resumeFocus : Option SuspendedFocus} {i : Nat} (hne : elements ≠ [])
    (h : preferredFocus w nav context elements resumeFocus = .ok (some i, requests)) : Listed elements i := by
  have hfind : ∀ pattern, ∀ i, findFirstMatchingElement elements pattern = some i → Listed elements i := fun _ => listed_find
  unfold preferredFocus at h
  dsimp only at h
  split at h
  · -- a roll appears
    replace h := ok_fst h
    exact or_spec (hfind _) (or_spec (hfind _) (or_spec (hfind _) (or_spec (hfind _) (listed_one hne)))) i h
  · split at h
    · -- the next roll
      replace h := ok_fst h
      exact or_spec listed_find rollSuccessor_listed i h
    · split at h
      · -- the focus from before the rolls
        rename_i resume _
        replace h := ok_fst h
        refine or_spec (fun i hi => ?_) (fun i hi => ?_) i h
        · obtain ⟨key, _, hkey⟩ := Option.bind_eq_some_iff.mp hi
          exact listed_find i hkey
        · obtain rfl := Option.some.inj hi
          exact elementAt_clamp hne _
      · split at h
        · split at h
          · rename_i index hf
            replace h := ok_fst h
            cases h
            exact or_spec listed_find listed_find _ hf
          · cases h
        · split at h
          · replace h := ok_fst h
            exact or_spec (hfind _) (listed_one hne) i h
          · split at h
            · split at h
              · rename_i index hf
                replace h := ok_fst h
                cases h
                exact findInitialBankSlot_listed hf
              · cases h
            · split at h
              · split at h
                · rename_i index hf
                  replace h := ok_fst h
                  cases h
                  exact hfind _ _ hf
                · cases h
              · split at h
                · replace h := ok_fst h
                  exact or_spec (hfind _) (or_spec (hfind _) (listed_one hne)) i h
                · cases h

/-- The focus on its key, else on its index, is on an element. -/
theorem settleFocus_listed {nav : Nav} {context : Context} {elements : List Element} (hne : elements ≠ []) :
    Listed elements (settleFocus nav context elements none).1 := by
  unfold settleFocus
  dsimp only
  split
  · exact elementAt_one hne
  · split
    · rename_i found hf
      obtain ⟨old, _, hkey⟩ := Option.bind_eq_some_iff.mp hf
      exact listed_find found hkey
    · split
      · exact elementAt_clamp hne _
      · exact elementAt_clamp hne _

theorem chooseFocus_ok {w : World} {nav requests : Nav} {context : Context} {elements : List Element}
    {resumeFocus : Option SuspendedFocus} {i : Nat}
    (h : chooseFocus w nav context elements resumeFocus = .ok (i, requests)) :
    ∃ preferred left, preferredFocus w nav context elements resumeFocus = .ok (preferred, left) ∧
      (settleFocus nav context elements preferred).1 = i := by
  unfold chooseFocus at h
  cases hp : preferredFocus w nav context elements resumeFocus with
  | error err =>
    rw [hp] at h
    cases h
  | ok result =>
    obtain ⟨preferred, left⟩ := result
    rw [hp] at h
    injection h with h
    injection h with h _
    exact ⟨preferred, left, rfl, h⟩

theorem chooseFocus_mem {w : World} {nav requests : Nav} {context : Context} {elements : List Element}
    {resumeFocus : Option SuspendedFocus} {i : Nat} (hne : elements ≠ [])
    (h : chooseFocus w nav context elements resumeFocus = .ok (i, requests)) : Listed elements i := by
  obtain ⟨preferred, left, hp, rfl⟩ := chooseFocus_ok h
  cases preferred with
  | some index => exact preferredFocus_listed hne hp
  | none => exact settleFocus_listed hne

/-! ## An unchanged context -/

/-- The key of the element at an index. -/
def keyAt (elements : List Element) (index : Nat) : Option String := (elementAt elements index).map (·.key)

theorem keyAt_of_elementAt {elements : List Element} {index : Nat} {e : Element}
    (h : elementAt elements index = some e) : keyAt elements index = some e.key := by
  rw [keyAt, h, Option.map_some]

/-- The focus a pending request asks for. -/
def requestedFocus (w : World) (nav : Nav) (context : Context) (elements : List Element) : Option Nat :=
  match context with
  | .merchant => if nav.pendingMerchantBagFocus then findInitialMerchantBagSlot w elements else none
  | .questlog =>
    if nav.pendingQuestLogFocus then
      (findFirstMatchingElement elements (· == "QuestFrameExitButton")).or (some 1)
    else none
  | .bank => if nav.pendingBankFocus then (findInitialBankSlot w elements).toOption else none
  | .talent =>
    if nav.pendingTalentFocus then findFirstMatchingElement elements (isNumbered "TalentFrameTalent" "") else none
  | _ => none

theorem suspendFocus_same {nav : Nav} {context : Context} (hctx : nav.context = some context) :
    (suspendFocus nav context).2 = none := by
  unfold suspendFocus
  rw [hctx]
  cases context <;> rfl

/-- Where the rolls keep the focus: its key, else the next roll. -/
def rollFocus (context : Context) (elements : List Element) (old : Element) : Option Nat :=
  if context == .lootroll then
    old.lootRollFrameIndex.bind fun frameIndex =>
      (findKey elements old.key).or (rollSuccessor elements frameIndex old.lootRollChoice)
  else none

section Unchanged

variable {w : World} {nav requests : Nav} {context : Context} {elements : List Element} {old : Element}

theorem preferredFocus_same {preferred : Option Nat} (hctx : nav.context = some context)
    (hold : elementAt nav.elements nav.index = some old)
    (h : preferredFocus w nav context elements none = .ok (preferred, requests)) :
    preferred = (rollFocus context elements old).or (requestedFocus w nav context elements) := by
  have hsame : (nav.context != some context) = false := by simp [hctx]
  unfold preferredFocus at h
  simp only [hsame, hold, Bool.and_false, Bool.false_eq_true, if_false, Bool.or_false, Option.filter_none] at h
  cases context with
  | lootroll =>
    cases hroll : old.lootRollFrameIndex with
    | none =>
      simp [hroll] at h
      obtain ⟨rfl, _⟩ := h
      simp [rollFocus, hroll, requestedFocus]
    | some frameIndex =>
      simp [hroll] at h
      simp [rollFocus, hroll, requestedFocus, h.1]
  | merchant =>
    cases hp : nav.pendingMerchantBagFocus with
    | false =>
      simp [hp] at h
      simp [rollFocus, requestedFocus, hp, h.1]
    | true =>
      cases hf : findInitialMerchantBagSlot w elements with
      | none =>
        simp [hp, hf] at h
        simp [rollFocus, requestedFocus, hp, hf, h.1]
      | some index =>
        simp [hp, hf] at h
        simp [rollFocus, requestedFocus, hp, hf, h.1]
  | questlog =>
    cases hp : nav.pendingQuestLogFocus with
    | false =>
      simp [hp] at h
      simp [rollFocus, requestedFocus, hp, h.1]
    | true =>
      simp [hp] at h
      simp [rollFocus, requestedFocus, hp, h.1]
  | bank =>
    cases hp : nav.pendingBankFocus with
    | false =>
      simp [hp] at h
      simp [rollFocus, requestedFocus, hp, h.1]
    | true =>
      cases hf : findInitialBankSlot w elements with
      | error err =>
        simp [hp, hf] at h
      | ok index =>
        simp [hp, hf] at h
        simp [rollFocus, requestedFocus, hp, hf, h.1, Except.toOption]
  | talent =>
    cases hp : nav.pendingTalentFocus with
    | false =>
      simp [hp] at h
      simp [rollFocus, requestedFocus, hp, h.1]
    | true =>
      cases hf : findFirstMatchingElement elements (isNumbered "TalentFrameTalent" "") with
      | none =>
        simp [hp, hf] at h
        simp [rollFocus, requestedFocus, hp, hf, h.1]
      | some index =>
        simp [hp, hf] at h
        simp [rollFocus, requestedFocus, hp, hf, h.1]
  | _ =>
    simp at h
    simp [rollFocus, requestedFocus, h.1]

theorem settleFocus_same (hctx : nav.context = some context) (hold : elementAt nav.elements nav.index = some old)
    (hlisted : ∃ e ∈ elements, e.key = old.key) :
    ∃ e, elementAt elements (settleFocus nav context elements none).1 = some e ∧ e.key = old.key := by
  obtain ⟨e, he, hkey⟩ := hlisted
  obtain ⟨found, hf⟩ := findKey_isSome he
  rw [hkey] at hf
  have hsettle : (settleFocus nav context elements none).1 = found := by
    unfold settleFocus
    simp [hctx, hold, hf]
  rw [hsettle]
  exact findKey_spec hf

theorem chooseFocus_stays_iff {index : Nat} {e : Element} (hctx : nav.context = some context)
    (hold : elementAt nav.elements nav.index = some old)
    (h : chooseFocus w nav context elements none = .ok (index, requests)) (he : elementAt elements index = some e) :
    e.key = old.key ↔ (∃ e ∈ elements, e.key = old.key) ∧
      ∀ i, requestedFocus w nav context elements = some i → keyAt elements i = some old.key := by
  obtain ⟨preferred, left, hp, hindex⟩ := chooseFocus_ok h
  have hpref := preferredFocus_same hctx hold hp
  cases hr : requestedFocus w nav context elements with
  | some i =>
    -- the rolls keep the focus themselves, so the request decides
    have hroll : rollFocus context elements old = none := by
      cases context <;> first | rfl | cases hr
    rw [hroll, hr] at hpref
    subst hpref
    obtain rfl : i = index := hindex
    constructor
    · intro hkey
      refine ⟨⟨e, elementAt_mem he, hkey⟩, fun j hj => ?_⟩
      obtain rfl := Option.some.inj hj
      rw [keyAt_of_elementAt he, hkey]
    · intro hreq
      have hkey := hreq.2 i rfl
      rw [keyAt_of_elementAt he] at hkey
      exact Option.some.inj hkey
  | none =>
    rw [hr, Option.or_none] at hpref
    refine ⟨fun hkey => ⟨⟨e, elementAt_mem he, hkey⟩, fun i hi => (by cases hi)⟩, fun hreq => ?_⟩
    have hlisted := hreq.1
    cases hroll : rollFocus context elements old with
    | none =>
      rw [hroll] at hpref
      subst hpref
      obtain ⟨e', he', hkey⟩ := settleFocus_same hctx hold hlisted
      rw [hindex, he] at he'
      obtain rfl := Option.some.inj he'
      exact hkey
    | some i =>
      obtain ⟨a, ha, hkey⟩ := hlisted
      obtain ⟨found, hf⟩ := findKey_isSome ha
      rw [hkey] at hf
      have hi : i = found := by
        unfold rollFocus at hroll
        split at hroll
        · obtain ⟨frameIndex, _, hor⟩ := Option.bind_eq_some_iff.mp hroll
          rw [hf] at hor
          exact (Option.some.inj hor).symm
        · cases hroll
      rw [hroll] at hpref
      subst hpref
      obtain rfl : i = index := hindex
      subst hi
      obtain ⟨e', he', hkey'⟩ := findKey_spec hf
      rw [he] at he'
      obtain rfl := Option.some.inj he'
      exact hkey'

end Unchanged

/-! ## Any context -/

/-- The index a scan prefers: where rolls appear or go on, where the focus was before them,
    where a pending request or a context that always begins there wants it. -/
def preferredIndex (w : World) (nav : Nav) (context : Context) (elements : List Element)
    (resumeFocus : Option SuspendedFocus) : Option Nat :=
  (preferredFocus w nav context elements resumeFocus).toOption.bind (·.1)

/-- The position a lost focus keeps. -/
def keptPosition (nav : Nav) (elements : List Element) : Nat :=
  max 1 (min (nav.pendingLootIndex.getD nav.index) elements.length)

/-- The focused element is still listed. -/
def FocusListed (nav : Nav) (elements : List Element) : Prop :=
  ∃ old, elementAt nav.elements nav.index = some old ∧ ∃ e ∈ elements, e.key = old.key

/-- A scan leaves the focus on a key: preferred, or first in a new context, else the
    focused one, if it is still listed, else the one at its position. -/
structure FallsTo (w : World) (nav : Nav) (context : Context) (elements : List Element)
    (resumeFocus : Option SuspendedFocus) (key : String) : Prop where
  preferred : ∀ i, preferredIndex w nav context elements resumeFocus = some i → keyAt elements i = some key
  arriving : preferredIndex w nav context elements resumeFocus = none → nav.context ≠ some context →
    keyAt elements 1 = some key
  kept : preferredIndex w nav context elements resumeFocus = none → nav.context = some context →
    FocusListed nav elements → keyAt nav.elements nav.index = some key
  lost : preferredIndex w nav context elements resumeFocus = none → nav.context = some context →
    ¬ FocusListed nav elements → keyAt elements (keptPosition nav elements) = some key

section Falls

variable {w : World} {nav requests : Nav} {context : Context} {elements : List Element}
  {resumeFocus : Option SuspendedFocus}

theorem settleFocus_arriving (h : nav.context ≠ some context) : (settleFocus nav context elements none).1 = 1 := by
  unfold settleFocus
  simp [h]

theorem settleFocus_lost (hctx : nav.context = some context) (h : ¬ FocusListed nav elements) :
    (settleFocus nav context elements none).1 = keptPosition nav elements := by
  have hfound : ((elementAt nav.elements nav.index).bind fun old => findKey elements old.key) = none := by
    rw [Option.bind_eq_none_iff]
    intro old hold
    cases hf : findKey elements old.key with
    | none => rfl
    | some i =>
      obtain ⟨e, he, hkey⟩ := findKey_spec hf
      exact absurd ⟨old, hold, e, elementAt_mem he, hkey⟩ h
  unfold settleFocus keptPosition
  simp only [hctx, hfound, bne_self_eq_false, Bool.false_eq_true, if_false]
  cases nav.pendingLootIndex <;> rfl

theorem settleFocus_kept (hctx : nav.context = some context) (h : FocusListed nav elements) :
    keyAt elements (settleFocus nav context elements none).1 = keyAt nav.elements nav.index := by
  obtain ⟨old, hold, hlisted⟩ := h
  obtain ⟨e, he, hkey⟩ := settleFocus_same hctx hold hlisted
  rw [keyAt_of_elementAt he, keyAt_of_elementAt hold, hkey]

/-- The four ways a scan settles the focus. -/
theorem chooseFocus_fallsTo_iff {index : Nat} {e : Element} {key : String}
    (h : chooseFocus w nav context elements resumeFocus = .ok (index, requests))
    (he : elementAt elements index = some e) : e.key = key ↔ FallsTo w nav context elements resumeFocus key := by
  obtain ⟨preferred, left, hp, rfl⟩ := chooseFocus_ok h
  have hpref : preferredIndex w nav context elements resumeFocus = preferred := by
    rw [preferredIndex, hp]
    rfl
  have hkey : e.key = key ↔ keyAt elements (settleFocus nav context elements preferred).1 = some key := by
    rw [keyAt_of_elementAt he, Option.some.injEq]
  rw [hkey]
  cases preferred with
  | some i =>
    refine ⟨fun hi => ⟨fun j hj => ?_, fun hnone => ?_, fun hnone => ?_, fun hnone => ?_⟩,
      fun hfalls => hfalls.preferred i hpref⟩
    · rw [hpref] at hj
      obtain rfl := Option.some.inj hj
      exact hi
    all_goals
      rw [hpref] at hnone
      cases hnone
  | none =>
    have hnone : ∀ i, preferredIndex w nav context elements resumeFocus = some i → keyAt elements i = some key := by
      intro i hi
      rw [hpref] at hi
      cases hi
    by_cases hctx : nav.context = some context
    · by_cases hlisted : FocusListed nav elements
      · rw [settleFocus_kept hctx hlisted]
        exact ⟨fun hold => ⟨hnone, fun _ hne => absurd hctx hne, fun _ _ _ => hold,
            fun _ _ hno => absurd hlisted hno⟩,
          fun hfalls => hfalls.kept hpref hctx hlisted⟩
      · rw [settleFocus_lost hctx hlisted]
        exact ⟨fun hold => ⟨hnone, fun _ hne => absurd hctx hne, fun _ _ hyes => absurd hyes hlisted,
            fun _ _ _ => hold⟩,
          fun hfalls => hfalls.lost hpref hctx hlisted⟩
    · rw [settleFocus_arriving hctx]
      exact ⟨fun hfirst => ⟨hnone, fun _ _ => hfirst, fun _ hsame => absurd hsame hctx,
          fun _ hsame => absurd hsame hctx⟩,
        fun hfalls => hfalls.arriving hpref hctx⟩

end Falls

/-! ## What a scan reads -/

/-- The settings let UI mode be entered. -/
def Allowed (s : St) : Prop := s.db.controllerEnabled ≠ 0 ∧ s.db.uiEnabled ≠ 0

/-- The context and the elements a scan reads off the frames; none, if it leaves UI mode. -/
def scanned (c : Client) (s : St) : Option (Context × List Element) :=
  if s.db.controllerEnabled == 0 || s.db.uiEnabled == 0 then none
  else
    let built := buildElements c s.screen
    (built.2.1.map (·, built.2.2)).filter fun scan => !scan.2.isEmpty

/-- The screen as `BuildElements` leaves it. -/
def readFrames (c : Client) (s : St) : Screen :=
  if s.db.controllerEnabled == 0 || s.db.uiEnabled == 0 then s.screen else (buildElements c s.screen).1

section Reads

variable {s : St} {context : Context} {elements : List Element}

theorem refresh_unscanned (h : scanned c s = none) :
    refreshElements c s = (leaveUIMode c (s.withScreen (readFrames c s)), none) := by
  unfold scanned at h
  unfold refreshElements readFrames
  by_cases hoff : (s.db.controllerEnabled == 0 || s.db.uiEnabled == 0) = true
  · rw [if_pos hoff, if_pos hoff]
    rfl
  · rw [if_neg hoff] at h
    rw [if_neg hoff, if_neg hoff]
    dsimp only at h ⊢
    cases hcontext : (buildElements c s.screen).2.1 with
    | none => rfl
    | some context =>
      cases hempty : (buildElements c s.screen).2.2.isEmpty with
      | true => rfl
      | false =>
        rw [hcontext, Option.map_some, Option.filter_some, hempty] at h
        cases h

/-- What a scan that stays in UI mode has read. -/
structure Reads (c : Client) (s : St) (context : Context) (elements : List Element) : Prop where
  allowed : Allowed s
  built : (buildElements c s.screen).2 = (some context, elements)
  listed : elements ≠ []

theorem scanned_iff : scanned c s = some (context, elements) ↔ Reads c s context elements := by
  unfold scanned
  by_cases hoff : (s.db.controllerEnabled == 0 || s.db.uiEnabled == 0) = true
  · rw [if_pos hoff]
    refine ⟨fun h => by (cases h), fun h => ?_⟩
    have hon := h.allowed
    simp [Allowed] at hon
    simp [hon] at hoff
  · rw [if_neg hoff]
    have hon : Allowed s := by simpa [Allowed] using hoff
    simp only [Option.filter_eq_some_iff, Option.map_eq_some_iff]
    constructor
    · intro h
      obtain ⟨⟨context', hcontext, hpair⟩, hlisted⟩ := h
      obtain ⟨rfl, rfl⟩ := Prod.mk.inj hpair
      exact ⟨hon, Prod.ext hcontext rfl, by simpa using hlisted⟩
    · intro h
      refine ⟨⟨context, congrArg Prod.fst h.built, ?_⟩, by simpa using h.listed⟩
      rw [h.built]

theorem refresh_scanned (h : Reads c s context elements) :
    refreshElements c s = focusOn c context elements (s.withScreen (readFrames c s)) := by
  have hoff : (s.db.controllerEnabled == 0 || s.db.uiEnabled == 0) = false := by simpa [Allowed] using h.allowed
  have hempty : elements.isEmpty = false := by simpa using h.listed
  unfold refreshElements readFrames
  rw [hoff, if_neg Bool.false_ne_true, if_neg Bool.false_ne_true]
  dsimp only
  rw [h.built]
  dsimp only
  rw [hempty, if_neg Bool.false_ne_true]

/-- A scan leaves UI mode or puts the focus on what it read. -/
theorem refresh_cases (c : Client) (s : St) :
    (scanned c s = none ∧ refreshElements c s = (leaveUIMode c (s.withScreen (readFrames c s)), none)) ∨
    ∃ context elements, Reads c s context elements ∧
      refreshElements c s = focusOn c context elements (s.withScreen (readFrames c s)) := by
  cases h : scanned c s with
  | none => exact Or.inl ⟨rfl, refresh_unscanned h⟩
  | some scan =>
    have hreads : Reads c s scan.1 scan.2 := scanned_iff.mp h
    exact Or.inr ⟨scan.1, scan.2, hreads, refresh_scanned hreads⟩

end Reads

/-! ## Scans -/

variable (c) in
/-- The context and the element a scan puts the focus on; none, if it fails or leaves UI mode. -/
def scanFocus (s : St) : Option (Context × Element) :=
  if s.db.controllerEnabled == 0 || s.db.uiEnabled == 0 then none
  else
    let built := buildElements c s.screen
    match built.2.1 with
    | none => none
    | some context =>
      match chooseFocus built.1.world s.nav context built.2.2 (suspendFocus s.nav context).2 with
      | .ok (index, _) => (elementAt built.2.2 index).map (context, ·)
      | .error _ => none

/-- The state with another screen, tooltip and highlight. -/
def St.withHover (screen : Screen) (tooltipElement : Option Element) (highlight : Option Highlight) (s : St) : St :=
  { s with screen, nav := { s.nav with tooltipElement, highlight } }

/-- The highlight and the hover scripts change nothing else; outside UI mode no tooltip is left. -/
def Hovered (s t : St) : Prop := ∃ screen tooltipElement highlight,
  t = s.withHover screen tooltipElement highlight ∧ (s.nav.active = false → tooltipElement = none)

theorem triggerOnLeave_screen (e : Element) (s : St) : ∃ screen, triggerOnLeave c e s = s.withScreen screen := by
  unfold triggerOnLeave
  repeat' split
  all_goals exact ⟨_, rfl⟩

theorem triggerOnEnter_screen (e : Element) (s : St) : ∃ screen, triggerOnEnter c e s = s.withScreen screen := by
  unfold triggerOnEnter
  repeat' split
  all_goals exact ⟨_, rfl⟩

theorem centerLootFrame_screen (e : Element) (s : St) : ∃ screen, centerLootFrame c e s = s.withScreen screen := by
  unfold centerLootFrame
  repeat' split
  all_goals exact ⟨_, rfl⟩

/-- The tooltip of the former element is closed. -/
theorem leaveTooltip_screen (tooltip : Option Element) (s : St) :
    ∃ screen, (match tooltip with | some e => triggerOnLeave c e s | none => s) = s.withScreen screen := by
  cases tooltip with
  | none => exact ⟨s.screen, rfl⟩
  | some e => exact triggerOnLeave_screen e s

theorem hideHighlight_hovered (s : St) : Hovered s (hideHighlight c s) := by
  have hhide : ∀ t : St, (∃ screen, t = s.withScreen screen) →
      Hovered s (t.withNav fun nav => { nav with tooltipElement := none, highlight := none }) := by
    rintro t ⟨screen, rfl⟩
    exact ⟨screen, none, none, rfl, fun _ => rfl⟩
  exact hhide _ (leaveTooltip_screen s.nav.tooltipElement s)

theorem showHighlight_hovered (e : Element) {s : St} (ha : s.nav.active = true) : Hovered s (showHighlight c e s) := by
  have hactive : ∀ tooltip : Option Element, s.nav.active = false → tooltip = none := by
    intro tooltip h
    rw [ha] at h
    cases h
  have hanchor : ∀ t : St, (∃ screen tooltip, t = s.withHover screen tooltip s.nav.highlight) → Hovered s
      (let t := t.withNav fun nav => { nav with highlight := some ⟨nav.context, e⟩ }
       if t.nav.context == some .loot then centerLootFrame c e t else t) := by
    rintro t ⟨screen, tooltip, rfl⟩
    dsimp only
    split
    · obtain ⟨screen', hcenter⟩ := centerLootFrame_screen (c := c) e
        ((s.withHover screen tooltip s.nav.highlight).withNav fun nav => { nav with highlight := some ⟨nav.context, e⟩ })
      rw [hcenter]
      exact ⟨screen', tooltip, _, rfl, hactive tooltip⟩
    · exact ⟨screen, tooltip, _, rfl, hactive tooltip⟩
  have henter : ∀ t : St, (∃ screen, t = s.withScreen screen) → ∃ screen tooltip,
      triggerOnEnter c e (t.withNav fun nav => { nav with tooltipElement := some e }) =
        s.withHover screen tooltip s.nav.highlight := by
    rintro t ⟨screen, rfl⟩
    obtain ⟨screen', h⟩ := triggerOnEnter_screen (c := c) e
      ((s.withScreen screen).withNav fun nav => { nav with tooltipElement := some e })
    exact ⟨screen', some e, h⟩
  unfold showHighlight
  split
  · exact hanchor _ ⟨s.screen, s.nav.tooltipElement, rfl⟩
  · exact hanchor _ (henter _ (leaveTooltip_screen s.nav.tooltipElement s))

theorem updateHighlight_hovered (s : St) : Hovered s (updateHighlight c s) := by
  unfold updateHighlight
  split
  · split
    · rename_i hshow
      exact showHighlight_hovered _ (Bool.and_eq_true_iff.mp hshow).1
    · exact hideHighlight_hovered s
  · exact hideHighlight_hovered s

/-- The calls of hovering: the hover scripts, the tooltip, the place of the loot window. -/
def Call.hovering : Call → Bool
  | .onEnter _ | .onLeave _ | .hideTooltip | .setLootFramePoint _ _ => true
  | _ => false

variable (c) in
/-- Only calls of hovering lead from the one screen to the other. -/
inductive HoverCalls : Screen → Screen → Prop
  | none (a : Screen) : HoverCalls a a
  | perform {a b : Screen} (call : Call) : call.hovering = true → HoverCalls a b → HoverCalls a (perform c call b)

theorem HoverCalls.trans {a b d : Screen} (h1 : HoverCalls c a b) (h2 : HoverCalls c b d) : HoverCalls c a d := by
  induction h2 with
  | none => exact h1
  | perform call hcall _ ih => exact .perform call hcall ih

theorem triggerOnLeave_calls (e : Element) (s : St) : HoverCalls c s.screen (triggerOnLeave c e s).screen := by
  unfold triggerOnLeave
  repeat' split
  · exact .none s.screen
  · exact .perform (.onLeave e.frame) rfl (.none s.screen)
  · exact .perform .hideTooltip rfl (.none s.screen)

theorem triggerOnEnter_calls (e : Element) (s : St) : HoverCalls c s.screen (triggerOnEnter c e s).screen := by
  unfold triggerOnEnter
  repeat' split
  · exact .none s.screen
  · exact .perform (.onEnter e.frame) rfl (.perform .hideTooltip rfl (.none s.screen))
  · exact .none s.screen

theorem centerLootFrame_calls (e : Element) (s : St) : HoverCalls c s.screen (centerLootFrame c e s).screen := by
  unfold centerLootFrame
  repeat' split
  · exact .perform (.setLootFramePoint _ _) rfl (.none s.screen)
  · exact .none s.screen
  · exact .none s.screen

theorem hideHighlight_calls (s : St) : HoverCalls c s.screen (hideHighlight c s).screen := by
  unfold hideHighlight
  split
  · exact triggerOnLeave_calls _ s
  · exact .none s.screen

theorem showHighlight_calls (e : Element) (s : St) : HoverCalls c s.screen (showHighlight c e s).screen := by
  have hanchor : ∀ t : St, HoverCalls c s.screen t.screen → HoverCalls c s.screen
      (let t := t.withNav fun nav => { nav with highlight := some ⟨nav.context, e⟩ }
       if t.nav.context == some .loot then centerLootFrame c e t else t).screen := by
    intro t ht
    dsimp only
    split
    · exact ht.trans (centerLootFrame_calls e (t.withNav fun nav => { nav with highlight := some ⟨nav.context, e⟩ }))
    · exact ht
  have henter : ∀ t : St, HoverCalls c s.screen t.screen →
      HoverCalls c s.screen (triggerOnEnter c e (t.withNav fun nav => { nav with tooltipElement := some e })).screen :=
    fun t ht => ht.trans (triggerOnEnter_calls e (t.withNav fun nav => { nav with tooltipElement := some e }))
  unfold showHighlight
  split
  · exact hanchor s (.none s.screen)
  · split
    · exact hanchor _ (henter _ (triggerOnLeave_calls _ s))
    · exact hanchor _ (henter _ (.none s.screen))

theorem updateHighlight_calls (s : St) : HoverCalls c s.screen (updateHighlight c s).screen := by
  unfold updateHighlight
  repeat' split
  · exact showHighlight_calls _ s
  · exact hideHighlight_calls s
  · exact hideHighlight_calls s

/-- What entering and leaving leave of the list the focus is on. -/
structure SameList (s t : St) : Prop where
  screen : t.screen = s.screen
  context : t.nav.context = s.nav.context
  elements : t.nav.elements = s.nav.elements

/-- Capturing keys writes the bindings and their table, and nothing else. -/
theorem saveAndBindAll_frame : ∀ (l : List (Option String × String)) (s : St), ∃ bindings temporaryBindings,
    saveAndBindAll l s = { s with bindings, nav := { s.nav with temporaryBindings } } := by
  intro l
  induction l with
  | nil => intro s; exact ⟨s.bindings, s.nav.temporaryBindings, rfl⟩
  | cons b l ih =>
    intro s
    have hb : ∃ bindings temporaryBindings,
        saveAndBind b.1 b.2 s = { s with bindings, nav := { s.nav with temporaryBindings } } := by
      unfold saveAndBind
      split
      · exact ⟨s.bindings, s.nav.temporaryBindings, rfl⟩
      · exact ⟨_, _, rfl⟩
    obtain ⟨bindings, table, hb⟩ := hb
    obtain ⟨bindings', table', hl⟩ := ih (saveAndBind b.1 b.2 s)
    refine ⟨bindings', table', ?_⟩
    show saveAndBindAll l (saveAndBind b.1 b.2 s) = _
    rw [hl, hb]

theorem enterUIMode_frame (s : St) : ∃ bindings uiModeActive uiModeContext active temporaryBindings entry,
    enterUIMode c s =
      { s with bindings, uiModeActive, uiModeContext, nav := { s.nav with active, temporaryBindings, entry } } := by
  unfold enterUIMode
  repeat' split
  · exact ⟨_, _, _, _, _, _, rfl⟩
  · exact ⟨_, _, _, _, _, _, rfl⟩
  · obtain ⟨bindings, table, h⟩ := saveAndBindAll_frame (entryBindings c.mappings (entryOf s)) (activate s)
    rw [h]
    exact ⟨_, _, _, _, _, _, rfl⟩

theorem enterUIMode_sameList (s : St) : SameList s (enterUIMode c s) := by
  obtain ⟨_, _, _, _, _, _, h⟩ := enterUIMode_frame (c := c) s
  rw [h]
  exact ⟨rfl, rfl, rfl⟩

/-- In UI mode with the element in focus. -/
structure Focused (context : Context) (e : Element) (t : St) : Prop where
  active : t.nav.active = true
  context : t.nav.context = some context
  focus : elementAt t.nav.elements t.nav.index = some e

/-- Entering a context puts UI mode on its elements and calls nothing. -/
structure InContext (context : Context) (elements : List Element) (s t : St) : Prop where
  active : t.nav.active = true
  context : t.nav.context = some context
  elements : t.nav.elements = elements
  screen : t.screen = s.screen

theorem enterContext_frame (context : Context) (elements : List Element) (suspendedFocus : Option SuspendedFocus) (s : St) :
    ∃ bindings uiModeActive uiModeContext active temporaryBindings entry,
      enterContext c context elements suspendedFocus s = { s with
        bindings, uiModeActive, uiModeContext
        nav := { s.nav with
          context := some context, elements, suspendedFocus, active, temporaryBindings, entry } } := by
  unfold enterContext
  dsimp only
  split
  · obtain ⟨_, _, _, _, _, _, h⟩ := enterUIMode_frame (c := c)
      (s.withNav fun nav => { nav with context := some context, elements, suspendedFocus })
    rw [h]
    exact ⟨_, _, _, _, _, _, rfl⟩
  · split
    · exact ⟨_, _, _, _, _, _, rfl⟩
    · exact ⟨_, _, _, _, _, _, rfl⟩

theorem enterContext_world (context : Context) (elements : List Element) (suspendedFocus : Option SuspendedFocus) (s : St) :
    (enterContext c context elements suspendedFocus s).world = s.world := by
  obtain ⟨_, _, _, _, _, _, hframe⟩ := enterContext_frame (c := c) context elements suspendedFocus s
  rw [hframe]
  rfl

theorem enterContext_active (context : Context) (elements : List Element) (suspendedFocus : Option SuspendedFocus) {s : St}
    (h : Allowed s) : (enterContext c context elements suspendedFocus s).nav.active = true := by
  unfold enterContext
  dsimp only
  cases ha : s.nav.active with
  | false =>
    rw [if_pos (by simp [St.withNav, ha])]
    have henters : Enters (s.withNav fun nav => { nav with context := some context, elements, suspendedFocus }) := ⟨ha, h⟩
    exact (enterUIMode_spec henters).active
  | true =>
    rw [if_neg (by simp [St.withNav, ha])]
    split
    · exact ha
    · exact ha

theorem enterContext_spec (context : Context) (elements : List Element) (suspended : Option SuspendedFocus) {s : St}
    (h : Allowed s) : InContext context elements s (enterContext c context elements suspended s) := by
  have hactive := enterContext_active (c := c) context elements suspended h
  obtain ⟨_, _, _, _, _, _, hframe⟩ := enterContext_frame (c := c) context elements suspended s
  refine ⟨hactive, ?_, ?_, ?_⟩
  · rw [hframe]
  · rw [hframe]
  · rw [hframe]

theorem leaveUIMode_elements {s : St} (h : s.nav.elements = []) : (leaveUIMode c s).nav.elements = [] := by
  unfold leaveUIMode
  split
  · exact h
  · dsimp only
    rw [applyButtonLayout_nav]
    rfl

theorem leaveUIMode_inactive (s : St) : (leaveUIMode c s).nav.active = false := by
  cases ha : s.nav.active with
  | false => rw [leaveUIMode_idle ha, ha]
  | true =>
    obtain ⟨u, hu, hleft⟩ := leaveUIMode_spec (c := c) ha
    rw [hu, applyButtonLayout_nav, hleft.active]

/-- What `scanFocus` says the scan does, as far as the focus is concerned. -/
def ScansTo (s : St) (focus : Option (Context × Element)) (result : St × Option LuaError) : Prop :=
  match focus with
  | some (context, e) => result.2 = none ∧ Focused context e result.1
  | none => result.2.isSome ∨ result.1.nav.active = false ∧ (s.nav.elements = [] → result.1.nav.elements = [])

/-- A scan's outcome with the focus on an index. -/
structure Arrives (context : Context) (elements : List Element) (index : Nat) (memory : Option SuspendedFocus)
    (result : St × Option LuaError) : Prop where
  error : result.2 = none
  active : result.1.nav.active = true
  inContext : result.1.nav.context = some context
  listing : result.1.nav.elements = elements
  index : result.1.nav.index = index
  memory : result.1.nav.suspendedFocus = memory

section FocusOn

variable {s : St} {context : Context} {elements : List Element} {index : Nat} {requests : Nav}

theorem focusOn_error {err : LuaError}
    (h : chooseFocus s.world s.nav context elements (suspendFocus s.nav context).2 = .error err) :
    focusOn c context elements s = (enterContext c context elements (suspendFocus s.nav context).1 s, some err) := by
  unfold focusOn
  dsimp only
  rw [enterContext_world, h]

theorem focusOn_ok (h : chooseFocus s.world s.nav context elements (suspendFocus s.nav context).2 = .ok (index, requests)) :
    focusOn c context elements s =
      (updateHighlight c ((enterContext c context elements (suspendFocus s.nav context).1 s).withNav (setFocus index requests)),
        none) := by
  unfold focusOn
  dsimp only
  rw [enterContext_world, h]

theorem focusOn_arrives (ha : Allowed s)
    (h : chooseFocus s.world s.nav context elements (suspendFocus s.nav context).2 = .ok (index, requests)) :
    Arrives context elements index (suspendFocus s.nav context).1 (focusOn c context elements s) := by
  have hactive := enterContext_active (c := c) context elements (suspendFocus s.nav context).1 ha
  obtain ⟨_, _, _, _, _, _, hframe⟩ := enterContext_frame (c := c) context elements (suspendFocus s.nav context).1 s
  rw [focusOn_ok h]
  obtain ⟨_, _, _, hsame, _⟩ := updateHighlight_hovered (c := c)
    ((enterContext c context elements (suspendFocus s.nav context).1 s).withNav (setFocus index requests))
  rw [hsame]
  rw [hframe] at hactive ⊢
  exact ⟨rfl, hactive, rfl, rfl, rfl, rfl⟩

end FocusOn

theorem scanFocus_unscanned {s : St} (h : scanned c s = none) : scanFocus c s = none := by
  unfold scanned at h
  unfold scanFocus
  by_cases hoff : (s.db.controllerEnabled == 0 || s.db.uiEnabled == 0) = true
  · rw [if_pos hoff]
  · rw [if_neg hoff] at h ⊢
    dsimp only at h ⊢
    cases hcontext : (buildElements c s.screen).2.1 with
    | none => rfl
    | some context =>
      rw [hcontext, Option.map_some] at h
      have hempty : (buildElements c s.screen).2.2 = [] := by simpa using h
      dsimp only
      rw [hempty]
      cases chooseFocus (buildElements c s.screen).1.world s.nav context [] (suspendFocus s.nav context).2 with
      | error err => rfl
      | ok focus => simp [elementAt]

theorem scanFocus_reads {s : St} {context : Context} {elements : List Element} (h : Reads c s context elements) :
    scanFocus c s = (chooseFocus (readFrames c s).world s.nav context elements (suspendFocus s.nav context).2).toOption.bind
      fun focus => (elementAt elements focus.1).map (context, ·) := by
  have hoff : (s.db.controllerEnabled == 0 || s.db.uiEnabled == 0) = false := by simpa [Allowed] using h.allowed
  unfold scanFocus readFrames
  rw [hoff, if_neg Bool.false_ne_true, if_neg Bool.false_ne_true]
  dsimp only
  rw [h.built]
  dsimp only
  cases chooseFocus (buildElements c s.screen).1.world s.nav context elements (suspendFocus s.nav context).2 with
  | error err => rfl
  | ok focus => rfl

/-- A scan behind which UI mode is on the elements it read. -/
theorem focusOn_scansTo {s : St} {context : Context} {elements : List Element} (h : Reads c s context elements) :
    ScansTo s (scanFocus c s) (focusOn c context elements (s.withScreen (readFrames c s))) := by
  rw [scanFocus_reads h]
  cases hc : chooseFocus (readFrames c s).world s.nav context elements (suspendFocus s.nav context).2 with
  | error err =>
    rw [focusOn_error (s := s.withScreen (readFrames c s)) hc]
    exact Or.inl rfl
  | ok focus =>
    obtain ⟨e, he⟩ := chooseFocus_mem h.listed hc
    have harrives := focusOn_arrives (c := c) (s := s.withScreen (readFrames c s)) h.allowed hc
    dsimp only [Except.toOption, Option.bind_some]
    rw [he]
    exact ⟨harrives.error, harrives.active, harrives.inContext, by rw [harrives.listing, harrives.index, he]⟩

theorem refresh_scansTo (s : St) : ScansTo s (scanFocus c s) (refreshElements c s) := by
  rcases refresh_cases c s with ⟨hnone, hleft⟩ | ⟨context, elements, hreads, hfocus⟩
  · rw [hleft, scanFocus_unscanned hnone]
    refine Or.inr ⟨leaveUIMode_inactive _, fun hempty => leaveUIMode_elements ?_⟩
    exact hempty
  · rw [hfocus]
    exact focusOn_scansTo hreads

theorem refresh_focused {s : St} {context : Context} {e : Element} (h : scanFocus c s = some (context, e)) :
    (refreshElements c s).2 = none ∧ Focused context e (refreshElements c s).1 := by
  have hscan := refresh_scansTo (c := c) s
  rw [h] at hscan
  exact hscan

theorem refresh_unfocused {s : St} (h : scanFocus c s = none) :
    (refreshElements c s).2.isSome ∨
      (refreshElements c s).1.nav.active = false ∧ (s.nav.elements = [] → (refreshElements c s).1.nav.elements = []) := by
  have hscan := refresh_scansTo (c := c) s
  rw [h] at hscan
  exact hscan

/-- The focused element is one the frames give, in the context they give. -/
theorem scanFocus_choice {s : St} {context : Context} {e : Element} (h : scanFocus c s = some (context, e)) :
    (buildElements c s.screen).2.1 = some context ∧
      ∃ index requests, elementAt (buildElements c s.screen).2.2 index = some e ∧
        chooseFocus (buildElements c s.screen).1.world s.nav context (buildElements c s.screen).2.2
          (suspendFocus s.nav context).2 = .ok (index, requests) := by
  unfold scanFocus at h
  split at h
  · cases h
  · dsimp only at h
    split at h
    · cases h
    · rename_i context' hctx
      split at h
      · rename_i index requests hc
        obtain ⟨e', he', heq⟩ := Option.map_eq_some_iff.mp h
        obtain ⟨rfl, rfl⟩ := Prod.mk.inj heq
        exact ⟨hctx, index, requests, he', hc⟩
      · cases h

end Nostalgia.Controller
