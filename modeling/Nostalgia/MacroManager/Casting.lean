/-
  Nostalgia.MacroManager.Casting — what triggering, confirming and the timer do.

  The life of a cast: `TriggerSlot` moves the slot to the effective step and, when the
  cast or command went out, leaves a `pendingCast`; `OnUpdate` confirms it once
  `successAt` has come, or drops it after 30 seconds; the slot is advanced only if it
  still is at the pending step and that step still is the pending entry (`Matches`).
  - `startStep_spec`: a started step writes the position, whatever comes of it.
  - `triggerSlot_refused`, `triggerSlot_started`: what comes of a trigger.
  - `confirmPendingCast_cases`, `onUpdate_cases`.
-/

import Nostalgia.MacroManager.Effects

namespace Nostalgia.MacroManager

open Nostalgia.Lua

/-! ## The pending cast -/

/-- `OnUpdate` confirms it. -/
def Pending.Due (now : ℚ) (p : Pending) : Prop := p.successAt.any (· ≤ now) = true

/-- `OnUpdate` gives it up. -/
def Pending.Expired (now : ℚ) (p : Pending) : Prop := PENDING_TIMEOUT < now - p.startedAt

instance (now : ℚ) (p : Pending) : Decidable (p.Due now) := inferInstanceAs (Decidable (_ = true))
instance (now : ℚ) (p : Pending) : Decidable (p.Expired now) := inferInstanceAs (Decidable (_ < _))

/-- The slot still is where the cast was triggered. -/
structure Matches (st : State) (p : Pending) (k : Core) : Prop where
  core : core st p.slotIndex = some k
  current : k.current = p.step
  entry : get k.refs p.step = some p.spell

/-- From `a` to `b` the slots in `P` were polled and nothing else happened to a core. -/
structure Polls (now : ℚ) (P : Nat → Prop) (a b : State) : Prop where
  polled : ∀ i, P i → core b i = (core a i).map (Core.timeReset now)
  kept : ∀ i, ¬ P i → core b i = core a i
  nextRef : a.nextRef ≤ b.nextRef

theorem Refresh.polls {now : ℚ} {P : Nat → Prop} {a b : State} (h : Refresh now P a b) : Polls now P a b :=
  ⟨h.polled, h.kept, h.nextRef⟩

theorem Polls.core_cases {now : ℚ} {P : Nat → Prop} {a b : State} (h : Polls now P a b) (i : Nat) :
    MacroManager.core b i = MacroManager.core a i ∨
      (P i ∧ MacroManager.core b i = (MacroManager.core a i).map (Core.timeReset now)) := by
  by_cases hp : P i
  · exact Or.inr ⟨hp, h.polled i hp⟩
  · exact Or.inl (h.kept i hp)

theorem Polls.polled_or_kept {now : ℚ} {P : Nat → Prop} {a b : State} (h : Polls now P a b) {i : Nat} {k : Core}
    (hk : MacroManager.core a i = some k) :
    (P i ∧ MacroManager.core b i = some (k.timeReset now)) ∨ (¬ P i ∧ MacroManager.core b i = some k) := by
  by_cases hP : P i
  · exact Or.inl ⟨hP, by rw [h.polled i hP, hk]; rfl⟩
  · exact Or.inr ⟨hP, by rw [h.kept i hP, hk]⟩

/-! ## Triggering -/

/-- What comes of a cast: nothing changes but the status line and the pending cast, and
    a pending cast means that something was issued. -/
structure CastResult (now : ℚ) (index s : Nat) (spell : Spell) (st : State) (r : Option Issued × State) : Prop where
  slots : r.2.slots = st.slots
  nextRef : st.nextRef ≤ r.2.nextRef
  pendingCast : r.2.pendingCast = none ∨ ∃ what successAt, r.1 = some what ∧
    r.2.pendingCast = some ⟨index, s, spell.ref, now, successAt⟩

/-- An early return reports on a state without a pending cast. -/
theorem castResult_reports {now : ℚ} {index s : Nat} {spell : Spell} {st st' : State} {what : Option Issued} {text : String}
    (hs : st'.slots = st.slots) (hn : st.nextRef ≤ st'.nextRef) (hp : st'.pendingCast = none) :
    CastResult now index s spell st (what, setStatus text true st') := by
  have hr := refresh_setStatus now text true st'
  refine ⟨?_, Nat.le_trans hn hr.nextRef, Or.inl (hr.pendingCast.trans hp)⟩
  unfold setStatus
  split
  · exact hs
  · exact hs

theorem castStep_spec (c : Client) (index s : Nat) (spell : Spell) (book : Resolved) (st : State)
    (hfree : st.pendingCast = none) : CastResult c.getTime index s spell st (castStep c index s spell book st) := by
  unfold castStep
  split
  · exact castResult_reports rfl (Nat.le_refl _) hfree
  · dsimp only
    split
    · split
      · exact castResult_reports rfl (Nat.le_refl _) rfl
      · split
        · exact castResult_reports rfl (Nat.le_refl _) rfl
        · exact ⟨rfl, Nat.le_refl _, Or.inr ⟨_, _, rfl, rfl⟩⟩
    · split
      · split
        · exact ⟨rfl, Nat.le_refl _, Or.inl rfl⟩
        · exact ⟨rfl, Nat.le_refl _, Or.inr ⟨_, _, rfl, rfl⟩⟩
      · split
        · exact castResult_reports rfl (Nat.le_refl _) rfl
        · exact castResult_reports rfl (Nat.le_refl _) rfl
        · exact ⟨rfl, Nat.le_refl _, Or.inr ⟨_, _, rfl, rfl⟩⟩

/-- The step a started trigger uses. -/
def stepToUse (c : Client) (slot : Slot) : Nat := (getEffectiveStep c (applyTimeReset c.getTime slot).2).1

/-- From `a` to `b` slot `index` was moved to step `s`, from core `k`; perhaps it was
    polled afterwards, and then no cast went out. -/
structure Started (now : ℚ) (index s : Nat) (k : Core) (what : Option Issued) (a b : State) : Prop where
  core : core b index = some (k.moved s) ∨
    (b.pendingCast = none ∧ core b index = some ((k.moved s).timeReset now))
  others : ∀ i, i ≠ index → MacroManager.core b i = MacroManager.core a i
  pendingCast : b.pendingCast = none ∨ ∃ x spell successAt, what = some x ∧
    b.pendingCast = some ⟨index, s, spell, now, successAt⟩ ∧ get k.refs s = some spell
  nextRef : a.nextRef ≤ b.nextRef

/-- The invalid step: the slot is moved, shown and reported. -/
theorem started_invalid {c : Client} {index s : Nat} {st : State} {slot slot' : Slot} (hfree : st.pendingCast = none)
    (hc : coreOf slot' = (coreOf slot).moved s) :
    Started c.getTime index s (coreOf slot) none st
      (setStatus s!"Slot {index}: current spell is invalid." true (updateSlotButton c index (setSlot index slot' st))) := by
  have hr := (refresh_updateSlotButton c index (setSlot index slot' st)).status
    s!"Slot {index}: current spell is invalid." true
  refine ⟨?_, fun i hi => ?_, Or.inl (hr.pendingCast.trans hfree), hr.nextRef⟩
  · rcases hr.core_cases index with h | ⟨_, h⟩
    · exact Or.inl (by rw [h, core_setSlot_same, hc])
    · exact Or.inr ⟨hr.pendingCast.trans hfree, by rw [h, core_setSlot_same, hc]; rfl⟩
  · rw [hr.kept i (fun h => hi h.2.2), core_setSlot_ne _ _ hi]

/-- A started step writes the position, whatever comes of it. -/
theorem startStep_spec (c : Client) (index : Nat) (slot : Slot) (st : State) (hfree : st.pendingCast = none) :
    Started c.getTime index (getEffectiveStep c slot).1 (coreOf slot) (startStep c index slot st).1 st
      (startStep c index slot st).2 := by
  obtain ⟨steps, heff, hrefs⟩ := getEffectiveStep_slot c slot
  have hmoved : ∀ (steps' : Arr Spell) (invalid : Bool), refs steps' = refs slot.spells.steps →
      coreOf { slot with
        current := (getEffectiveStep c slot).1, spells := { slot.spells with steps := steps' }, invalid := invalid } =
        (coreOf slot).moved (getEffectiveStep c slot).1 := by
    intro steps' invalid h
    simp [coreOf, Core.moved, h]
  unfold startStep
  simp only [heff]
  split
  · rename_i book spell hres
    obtain ⟨entry, hget, hentry⟩ := Option.map_eq_some_iff.mp hres
    have hcopy : IsCopyOf spell entry := by
      have h := resolveSpell_copy c entry
      rwa [hentry] at h
    have hput := refs_put hget hcopy
    obtain ⟨hslots, hnext, hpend⟩ := castStep_spec c index (getEffectiveStep c slot).1 spell book
      (setSlot index { slot with
        current := (getEffectiveStep c slot).1
        spells := { slot.spells with steps := put steps (getEffectiveStep c slot).1 spell } } st) hfree
    refine ⟨Or.inl ?_, fun i hi => ?_, ?_, hnext⟩
    · rw [core_congr hslots, core_setSlot_same]
      exact congrArg some (hmoved _ slot.invalid (hput.trans hrefs))
    · rw [core_congr hslots, core_setSlot_ne _ _ hi]
    · refine hpend.imp_right ?_
      rintro ⟨what, successAt, h1, h2⟩
      refine ⟨what, spell.ref, successAt, h1, h2, ?_⟩
      have hget' : get (coreOf slot).refs (getEffectiveStep c slot).1 = some entry.ref := by
        simp only [coreOf]
        rw [← hrefs, get_refs, hget]
        rfl
      rw [hget', hcopy.1]
  · rename_i spell hres
    obtain ⟨entry, hget, hentry⟩ := Option.map_eq_some_iff.mp hres
    have hcopy : IsCopyOf spell entry := by
      have h := resolveSpell_copy c entry
      rwa [hentry] at h
    exact started_invalid hfree (hmoved _ true ((refs_put hget hcopy).trans hrefs))
  · exact started_invalid hfree (hmoved _ true hrefs)

/-- The chain can be triggered. -/
def Core.Complete (k : Core) : Prop := MIN_SPELLS ≤ getn k.refs ∧ getn k.refs ≤ MAX_SPELLS

instance (k : Core) : Decidable k.Complete := inferInstanceAs (Decidable (_ ∧ _))

/-- A trigger is refused and changes nothing but polling its slot. -/
def Refused (st : State) (index : Nat) : Prop :=
  index ∉ slotNumbers ∨ st.pendingCast ≠ none ∨ ∀ k, core st index = some k → ¬ k.Complete

theorem getn_afterReset (now : ℚ) (slot : Slot) :
    getn (applyTimeReset now slot).2.spells.steps = getn (coreOf slot).refs := by
  rw [← getn_refs]
  have hrefs := congrArg Core.refs (applyTimeReset_core now slot).1
  rw [Core.timeReset_refs] at hrefs
  exact congrArg getn hrefs

theorem triggerSlot_refused {c : Client} {index : Nat} {st : State} (h : Refused st index) :
    (triggerSlot c index st).1 = none ∧
      Refresh c.getTime (polledBy c st (.triggerSlot index)) st (triggerSlot c index st).2 := by
  unfold triggerSlot
  split
  · rename_i hout
    have hno : index ∉ slotNumbers := fun hm => by have := mem_slotNumbers.mp hm; omega
    exact ⟨rfl, (Refresh.refl st).congr (by simp [polledBy, hno])⟩
  · rename_i hin
    have hm : index ∈ slotNumbers := mem_slotNumbers.mpr (by omega)
    have hP : ∀ i, i = index ↔ polledBy c st (.triggerSlot index) i := by simp [polledBy, hm]
    split
    · rename_i hs
      exact ⟨rfl, (refresh_missing hs).congr hP⟩
    · rename_i slot hs
      have hpoll : Refresh c.getTime (polledBy c st (.triggerSlot index)) st
          (setSlot index (applyTimeReset c.getTime slot).2 st) :=
        (refresh_setSlot hs (applyTimeReset_core _ _).1).congr hP
      dsimp only
      split
      · refine ⟨rfl, ?_⟩
        exact ((hpoll.status _ _).trans (refresh_openEditor _ _ index)).congr (by simp)
      · rename_i hcount
        split
        · exact ⟨rfl, hpoll.status _ _⟩
        · rename_i hwait
          -- not refused: the slot is in range, complete, and no cast is waiting
          exfalso
          rcases h with hno | hpend | hinc
          · exact hno hm
          · simp at hwait
            exact hpend hwait
          · have hcore := (applyTimeReset_core c.getTime slot).1
            have hn : getn (applyTimeReset c.getTime slot).2.spells.steps = getn (coreOf slot).refs := by
              rw [← getn_refs]
              have := congrArg Core.refs hcore
              simp only [Core.timeReset_refs] at this
              exact congrArg getn this
            refine hinc _ (core_of_slot hs) ⟨?_, ?_⟩ <;> omega

/-- A trigger that is not refused starts from its slot after the inactivity reset. -/
theorem triggerSlot_eq (c : Client) {index : Nat} {st : State} {slot : Slot} (hs : st.slots index = some slot)
    (hm : index ∈ slotNumbers) (hcomplete : (coreOf slot).Complete) (hfree : st.pendingCast = none) :
    triggerSlot c index st =
      startStep c index (applyTimeReset c.getTime slot).2 (setSlot index (applyTimeReset c.getTime slot).2 st) := by
  have hn := getn_afterReset c.getTime slot
  have hrange := mem_slotNumbers.mp hm
  unfold Core.Complete at hcomplete
  rw [← hn] at hcomplete
  unfold triggerSlot
  rw [if_neg (by omega)]
  simp only [hs]
  rw [if_neg (by omega), if_neg (by simp [hfree])]

theorem triggerSlot_started {c : Client} {index : Nat} {st : State} (h : ¬ Refused st index) :
    ∃ slot, st.slots index = some slot ∧ index ∈ slotNumbers ∧ st.pendingCast = none ∧ (coreOf slot).Complete ∧
      Started c.getTime index (stepToUse c slot) ((coreOf slot).timeReset c.getTime) (triggerSlot c index st).1 st
        (triggerSlot c index st).2 := by
  simp only [Refused, not_or, not_forall, not_not] at h
  obtain ⟨hm, hfree, k, hk, hcomplete⟩ := h
  obtain ⟨slot, hs, rfl⟩ := Option.map_eq_some_iff.mp hk
  refine ⟨slot, hs, hm, hfree, hcomplete, ?_⟩
  rw [triggerSlot_eq c hs hm hcomplete hfree]
  have hstart := startStep_spec c index (applyTimeReset c.getTime slot).2
    (setSlot index (applyTimeReset c.getTime slot).2 st) hfree
  rw [(applyTimeReset_core c.getTime slot).1] at hstart
  refine ⟨hstart.core, fun i hi => ?_, hstart.pendingCast, hstart.nextRef⟩
  rw [hstart.others i hi, core_setSlot_ne _ _ hi]

/-- A started trigger uses a step of the chain. -/
theorem stepToUse_le (c : Client) {slot : Slot} (h : (coreOf slot).Complete) :
    1 ≤ stepToUse c slot ∧ stepToUse c slot ≤ getn (coreOf slot).refs := by
  have hn := getn_afterReset c.getTime slot
  unfold Core.Complete MIN_SPELLS at h
  have := getEffectiveStep_le c (applyTimeReset c.getTime slot).2 (by omega)
  unfold stepToUse
  omega

/-! ## Confirming -/

/-- From `a` to `b` the pending cast `p` was confirmed: its slot, at core `k`, advanced. -/
structure Confirmed (now : ℚ) (p : Pending) (k : Core) (a b : State) : Prop where
  before : Matches a p k
  advanced : core b p.slotIndex = some (k.advanced now)
  others : ∀ i, i ≠ p.slotIndex → core b i = core a i ∨ core b i = (core a i).map (Core.timeReset now)
  pendingCast : b.pendingCast = none
  nextRef : a.nextRef ≤ b.nextRef

theorem Confirmed.then_polls {now : ℚ} {P : Nat → Prop} {p : Pending} {k : Core} {a b d : State}
    (h : Confirmed now p k a b) (hr : Polls now P b d) (hp : d.pendingCast = b.pendingCast) : Confirmed now p k a d := by
  refine ⟨h.before, ?_, fun i hi => ?_, hp.trans h.pendingCast, Nat.le_trans h.nextRef hr.nextRef⟩
  · rcases hr.core_cases p.slotIndex with hd | ⟨_, hd⟩
    · rw [hd, h.advanced]
    · rw [hd, h.advanced, Option.map_some, Core.timeReset_not_due (Core.advanced_not_due now k)]
  · exact polled_again (h.others i hi) ((hr.core_cases i).imp_right And.right)

/-- `ConfirmPendingCast` drops a cast that does not match, and advances its slot else. -/
theorem confirmPendingCast_cases (c : Client) {st : State} {p : Pending} (hp : st.pendingCast = some p) :
    ((¬ ∃ k, Matches st p k) ∧ confirmPendingCast c st = (none, { st with pendingCast := none })) ∨
      ∃ k, (confirmPendingCast c st).1 = some p.slotIndex ∧ Confirmed c.getTime p k st (confirmPendingCast c st).2 ∧
        (confirmPendingCast c st).2.updateElapsed = st.updateElapsed := by
  unfold confirmPendingCast
  rw [hp]
  dsimp only
  split
  · rename_i hs
    refine Or.inl ⟨?_, rfl⟩
    intro ⟨k, hk⟩
    have := hk.core
    rw [core, hs] at this
    cases this
  · rename_i slot hs
    split
    · rename_i hno
      refine Or.inl ⟨?_, rfl⟩
      intro ⟨k, hk⟩
      have hkc := hk.core
      rw [core_of_slot hs] at hkc
      cases hkc
      rcases hno with hcur | hentry
      · exact hcur hk.current
      · refine hentry ?_
        rw [← get_refs]
        exact hk.entry
    · rename_i hmatch
      rw [not_or, not_not, not_not] at hmatch
      refine Or.inr ⟨coreOf slot, rfl, ?_⟩
      have hcore : coreOf { slot with
          current := if getn slot.spells.steps < slot.current + 1 then 1 else slot.current + 1
          lastUsed := some c.getTime } = (coreOf slot).advanced c.getTime := by
        simp [coreOf, Core.advanced, Core.next]
      generalize hnext : (if getn slot.spells.steps < slot.current + 1 then 1 else slot.current + 1) = next at hcore
      have hmid : Confirmed c.getTime p (coreOf slot) st
          { setSlot p.slotIndex { slot with current := next, lastUsed := some c.getTime } st with pendingCast := none } := by
        refine ⟨⟨core_of_slot hs, hmatch.1, ?_⟩, ?_, fun i hi => Or.inl ?_, rfl, Nat.le_refl _⟩
        · rw [← hmatch.2, ← get_refs]
          rfl
        · rw [← hcore]
          exact core_setSlot_same p.slotIndex { slot with current := next, lastUsed := some c.getTime } st
        · exact core_setSlot_ne _ _ hi
      have hr := ((refresh_updateSlotButton c p.slotIndex { setSlot p.slotIndex { slot with
        current := next, lastUsed := some c.getTime } st with pendingCast := none }).trans
          (refresh_updateBlizzardCooldowns c _)).status s!"Slot {p.slotIndex}: next step {next}." false
      exact ⟨hmid.then_polls hr.polls hr.pendingCast, hr.updateElapsed⟩

/-! ## The timer -/

theorem refresh_pollSlot (c : Client) (acc : Bool × State) (i : Nat) :
    Refresh c.getTime (· = i) acc.2 (pollSlot c acc i).2 := by
  unfold pollSlot
  split
  · rename_i hs
    exact refresh_missing hs
  · rename_i slot hs
    dsimp only
    split
    · refine ((refresh_setSlot hs (applyTimeReset_core _ _).1).trans (refresh_updateSlotButton c i _)).congr ?_
      simp
    · rename_i hno
      have hdue : ¬ (coreOf slot).ResetDue c.getTime := fun hd => hno ((applyTimeReset_core _ _).2.mpr hd)
      refine ⟨fun j hj => ?_, fun _ _ => rfl, rfl, rfl, rfl, Nat.le_refl _⟩
      subst hj
      rw [core_of_slot hs, Option.map_some, Core.timeReset_not_due hdue]

theorem refresh_pollSlot_fold (c : Client) : ∀ (l : List Nat) (acc : Bool × State),
    Refresh c.getTime (· ∈ l) acc.2 (l.foldl (pollSlot c) acc).2 := by
  intro l
  induction l with
  | nil => intro acc; exact (Refresh.refl acc.2).congr (by simp)
  | cons x l ih =>
    intro acc
    exact ((refresh_pollSlot c acc x).trans (ih (pollSlot c acc x))).congr (by simp)

theorem polls_pollSlots (c : Client) (st : State) :
    Polls c.getTime (fun i => i ∈ slotNumbers ∨ i ∈ barSlots c) st (pollSlots c st) ∧
      (pollSlots c st).pendingCast = st.pendingCast := by
  have hfold := refresh_pollSlot_fold c slotNumbers (false, { st with updateElapsed := 0 })
  unfold pollSlots
  dsimp only
  split
  · have h := (hfold.status "Inactive chain reset to step 1." false).trans (refresh_updateBlizzardCooldowns c _)
    exact ⟨⟨h.polled, h.kept, h.nextRef⟩, h.pendingCast⟩
  · have h := hfold.trans (refresh_updateBlizzardCooldowns c _)
    exact ⟨⟨h.polled, h.kept, h.nextRef⟩, h.pendingCast⟩

/-- The second half of `OnUpdate`. -/
theorem polls_timer (c : Client) (elapsed : ℚ) (st : State) {b : State} (hu : b.updateElapsed = st.updateElapsed + elapsed) :
    Polls c.getTime (polledBy c st (.onUpdate elapsed)) b (if b.updateElapsed < 8 / 100 then b else pollSlots c b) ∧
      (if b.updateElapsed < 8 / 100 then b else pollSlots c b).pendingCast = b.pendingCast := by
  split
  · rename_i hlt
    have hno : ∀ i, ¬ polledBy c st (.onUpdate elapsed) i := by
      intro i ⟨hle, _⟩
      rw [hu] at hlt
      exact absurd hle (not_le.mpr hlt)
    exact ⟨⟨fun i hi => absurd hi (hno i), fun _ _ => rfl, Nat.le_refl _⟩, rfl⟩
  · rename_i hge
    obtain ⟨h, hpend⟩ := polls_pollSlots c b
    have hP : ∀ i, polledBy c st (.onUpdate elapsed) i ↔ i ∈ slotNumbers ∨ i ∈ barSlots c := by
      intro i
      simp only [polledBy]
      rw [← hu]
      exact ⟨fun hi => hi.2, fun hi => ⟨not_lt.mp hge, hi⟩⟩
    exact ⟨⟨fun i hi => h.polled i ((hP i).mp hi), fun i hi => h.kept i (fun hm => hi ((hP i).mpr hm)), h.nextRef⟩, hpend⟩

/-- The pending cast is given up: it no longer matches its slot, or it is too old. -/
def GivesUp (now : ℚ) (st : State) (p : Pending) : Prop :=
  (p.Due now ∧ ¬ ∃ k, Matches st p k) ∨ (¬ p.Due now ∧ p.Expired now)

theorem checkPending_cases (c : Client) (st : State) :
    ((∀ p, st.pendingCast = some p → ¬ p.Due c.getTime ∧ ¬ p.Expired c.getTime) ∧ checkPending c st = (none, st)) ∨
      ∃ p, st.pendingCast = some p ∧ (checkPending c st).2.updateElapsed = st.updateElapsed ∧
        ((GivesUp c.getTime st p ∧ (checkPending c st).1 = none ∧ (checkPending c st).2.pendingCast = none ∧
            (checkPending c st).2.slots = st.slots ∧ st.nextRef ≤ (checkPending c st).2.nextRef) ∨
          (p.Due c.getTime ∧ (checkPending c st).1 = some p.slotIndex ∧
            ∃ k, Confirmed c.getTime p k st (checkPending c st).2)) := by
  unfold checkPending
  split
  · rename_i hp
    exact Or.inl ⟨by simp [hp], rfl⟩
  · rename_i p hp
    split
    · rename_i hdue
      refine Or.inr ⟨p, hp, ?_⟩
      rcases confirmPendingCast_cases c hp with ⟨hno, hr⟩ | ⟨k, h1, hconf, hu⟩
      · rw [hr]
        exact ⟨rfl, Or.inl ⟨Or.inl ⟨hdue, hno⟩, rfl, rfl, rfl, Nat.le_refl _⟩⟩
      · exact ⟨hu, Or.inr ⟨hdue, h1, k, hconf⟩⟩
    · rename_i hdue
      split
      · rename_i hexp
        have hr := refresh_setStatus c.getTime "Cast confirmation timed out; step unchanged." true
          { st with pendingCast := none }
        refine Or.inr ⟨p, hp, hr.updateElapsed, Or.inl ⟨Or.inr ⟨hdue, hexp⟩, rfl, hr.pendingCast, ?_, hr.nextRef⟩⟩
        unfold setStatus
        split <;> rfl
      · rename_i hexp
        refine Or.inl ⟨fun q hq => ?_, rfl⟩
        rw [hp] at hq
        cases hq
        exact ⟨hdue, hexp⟩

/-- `OnUpdate` leaves the pending cast waiting, gives it up, or confirms it; besides it
    polls. -/
theorem onUpdate_cases (c : Client) (elapsed : ℚ) (st : State) :
    ((∀ p, st.pendingCast = some p → ¬ p.Due c.getTime ∧ ¬ p.Expired c.getTime) ∧ (onUpdate c elapsed st).1 = none ∧
        (onUpdate c elapsed st).2.pendingCast = st.pendingCast ∧
        Polls c.getTime (polledBy c st (.onUpdate elapsed)) st (onUpdate c elapsed st).2) ∨
      ∃ p, st.pendingCast = some p ∧
        ((GivesUp c.getTime st p ∧ (onUpdate c elapsed st).1 = none ∧ (onUpdate c elapsed st).2.pendingCast = none ∧
            Polls c.getTime (polledBy c st (.onUpdate elapsed)) st (onUpdate c elapsed st).2) ∨
          (p.Due c.getTime ∧ (onUpdate c elapsed st).1 = some p.slotIndex ∧
            ∃ k, Confirmed c.getTime p k st (onUpdate c elapsed st).2)) := by
  have hsame : ∀ (p : Pending) (k : Core),
      Matches { st with updateElapsed := st.updateElapsed + elapsed } p k ↔ Matches st p k :=
    fun p k => ⟨fun h => ⟨h.core, h.current, h.entry⟩, fun h => ⟨h.core, h.current, h.entry⟩⟩
  unfold onUpdate
  dsimp only
  rcases checkPending_cases c { st with updateElapsed := st.updateElapsed + elapsed } with
    ⟨hwait, hr⟩ | ⟨p, hp, hu, ⟨hgive, h1, hpend, hslots, hnext⟩ | ⟨hdue, h1, k, hconf⟩⟩
  · rw [hr]
    obtain ⟨h, hpend⟩ := polls_timer c elapsed st (b := { st with updateElapsed := st.updateElapsed + elapsed }) rfl
    exact Or.inl ⟨hwait, rfl, hpend, h.polled, h.kept, h.nextRef⟩
  · obtain ⟨h, hpend'⟩ := polls_timer c elapsed st hu
    have hgive' : GivesUp c.getTime st p := hgive.imp_left fun ⟨hd, hno⟩ => ⟨hd, fun ⟨k, hk⟩ => hno ⟨k, (hsame p k).mpr hk⟩⟩
    refine Or.inr ⟨p, hp, Or.inl ⟨hgive', h1, hpend'.trans hpend, fun i hi => ?_, fun i hi => ?_,
      Nat.le_trans hnext h.nextRef⟩⟩
    · rw [h.polled i hi, core_congr hslots]
      rfl
    · rw [h.kept i hi, core_congr hslots]
      rfl
  · obtain ⟨h, hpend⟩ := polls_timer c elapsed st hu
    have hconf' : Confirmed c.getTime p k st
        (checkPending c { st with updateElapsed := st.updateElapsed + elapsed }).2 :=
      ⟨(hsame p k).mp hconf.before, hconf.advanced, hconf.others, hconf.pendingCast, hconf.nextRef⟩
    exact Or.inr ⟨p, hp, Or.inr ⟨hdue, h1, k, hconf'.then_polls h hpend⟩⟩

end Nostalgia.MacroManager
