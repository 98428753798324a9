/-
  Nostalgia.MacroManager.Failure — what an unsuccessful trigger leaves behind.

  A trigger comes to nothing when it returns early, or when the cast it started is
  dropped by a failure event or given up after 30 seconds; the status lines say "step
  unchanged". But `TriggerSlot` writes the effective step into `current` before any of
  this is known, and nothing takes it back: a trigger that skips an unavailable step has
  moved the chain even if the substitute fails.

  `LeavesPosition` says that however the trigger comes to nothing, the slot's position
  and time of use are what they were, but for an inactivity reset that was due at some
  clock reading of the interval (and for `lastUsed`, which a loading screen clears).
  - `waiting_keeps`: while a cast waits nothing else moves its slot.
  - `leaves_position_iff`: it holds exactly if the trigger is refused or does not skip.
  - `failed_trigger_moves_chain`: a run in which it fails.
-/

import Nostalgia.MacroManager.Confirmation
import Nostalgia.MacroManager.Wellformed

namespace Nostalgia.MacroManager

open Nostalgia.Lua Nostalgia.Machine

/-! ## What an unsuccessful trigger should leave -/

/-- The cast stays pending and slot `i` is not edited. -/
def StillWaits (i : Nat) (st : State) (e : Step) : Prop :=
  (step st e).pendingCast ≠ none ∧ (e.2.kind = .edits → st.editorSlot ≠ some i)

instance (i : Nat) (st : State) (e : Step) : Decidable (StillWaits i st e) := inferInstanceAs (Decidable (_ ∧ _))

/-- The step drops the pending cast: a failure event, or an `OnUpdate` that gives it up. -/
def ComesToNothing (st : State) (e : Step) : Prop :=
  e.2.kind = .fails ∨
    ∃ elapsed p, e.2 = .onUpdate elapsed ∧ st.pendingCast = some p ∧ ¬ p.Due e.1.getTime ∧ p.Expired e.1.getTime

/-- Core `k'` has the position and the time of use of core `k`, apart from a reset of
    `k` due at a clock reading of the steps `es` and from initialising in `es`. -/
def PositionKept (es : List Step) (k k' : Core) : Prop :=
  (k'.current = k.current ∧ k'.lastUsed = k.lastUsed) ∨
    (k'.current = 1 ∧ k'.lastUsed = none ∧ ∃ e ∈ es, k.ResetDue e.1.getTime) ∨
    (k'.current = k.current ∧ k'.lastUsed = none ∧ ∃ e ∈ es, e.2.kind = .initializes)

/-- Slot `i` of `b` has kept the position it has in `a`, over the steps `es`. -/
def SlotKept (es : List Step) (i : Nat) (a b : State) : Prop :=
  ∀ k, core a i = some k → ∃ k', core b i = some k' ∧ PositionKept es k k'

/-- However triggering slot `i` at `c` comes to nothing, the slot keeps its position. -/
structure LeavesPosition (st : State) (c : Client) (i : Nat) : Prop where
  early : st.pendingCast ≠ none ∨ (step st (c, .triggerSlot i)).pendingCast = none →
    SlotKept [(c, .triggerSlot i)] i st (step st (c, .triggerSlot i))
  later : ∀ es e, st.pendingCast = none → (step st (c, .triggerSlot i)).pendingCast ≠ none →
    Throughout step (StillWaits i) (step st (c, .triggerSlot i)) es →
    ComesToNothing (run step (step st (c, .triggerSlot i)) es) e →
    SlotKept ((c, .triggerSlot i) :: (es ++ [e])) i st (step (run step (step st (c, .triggerSlot i)) es) e)

/-! ## A wait moves nothing -/

/-- What a core may become from `k` while a cast waits. -/
structure Rests (es : List Step) (k k' : Core) : Prop where
  kept : PositionKept es k k'
  resetSeconds : k'.resetSeconds = k.resetSeconds
  wellFormed : k'.WellFormed

theorem PositionKept.mono {es es' : List Step} {k k' : Core} (h : PositionKept es k k') (hsub : es ⊆ es') :
    PositionKept es' k k' := by
  rcases h with h | ⟨h1, h2, e, he, hd⟩ | ⟨h1, h2, e, he, hd⟩
  · exact Or.inl h
  · exact Or.inr (Or.inl ⟨h1, h2, e, hsub he, hd⟩)
  · exact Or.inr (Or.inr ⟨h1, h2, e, hsub he, hd⟩)

theorem Rests.mono {es es' : List Step} {k k' : Core} (h : Rests es k k') (hsub : es ⊆ es') : Rests es' k k' :=
  ⟨h.kept.mono hsub, h.resetSeconds, h.wellFormed⟩

theorem Rests.refl {k : Core} (hw : k.WellFormed) : Rests [] k k := ⟨Or.inl ⟨rfl, rfl⟩, rfl, hw⟩

theorem Rests.timeReset {es : List Step} {k k' : Core} (h : Rests es k k') (e : Step) :
    Rests (es ++ [e]) k (k'.timeReset e.1.getTime) := by
  rcases Core.timeReset_cases e.1.getTime k' with hs | ⟨hd, hs⟩
  · rw [hs]
    exact h.mono (List.subset_append_left _ _)
  · rw [hs]
    refine ⟨Or.inr (Or.inl ⟨rfl, rfl, e, by simp, ?_⟩), h.resetSeconds, h.wellFormed.at_one⟩
    -- the reset was due of `k` as well: `k'` has its position and time of use
    obtain ⟨l, hl, hne, hpos, hle⟩ := hd
    rcases h.kept with ⟨hc, hu⟩ | ⟨_, hu, _⟩ | ⟨_, hu, _⟩
    · refine ⟨l, hu ▸ hl, hc ▸ hne, ?_, ?_⟩
      · rw [← h.resetSeconds]; exact hpos
      · rw [← h.resetSeconds]; exact hle
    · rw [hu] at hl; cases hl
    · rw [hu] at hl; cases hl

theorem Rests.repaired {es : List Step} {k k' : Core} (h : Rests es k k') {e : Step} (he : e.2.kind = .initializes)
    {old : ℚ} (hold : validReset old = true) : Rests (es ++ [e]) k (k'.repaired old) := by
  have hn : getn k'.refs = k'.refs.length := getn_eq_length h.wellFormed.full
  have hcur : (k'.repaired old).current = k'.current := by
    have hc := h.wellFormed.current
    show normalised (getn k'.refs) k'.current = k'.current
    rw [normalised, hn]
    split <;> omega
  refine ⟨?_, ?_, h.wellFormed.repaired hold⟩
  · rcases h.kept with ⟨hc, _⟩ | ⟨hc, _, e', he', hd⟩ | ⟨hc, _, _⟩
    · exact Or.inr (Or.inr ⟨hcur.trans hc, rfl, e, by simp, he⟩)
    · exact Or.inr (Or.inl ⟨hcur.trans hc, rfl, e', List.mem_append_left _ he', hd⟩)
    · exact Or.inr (Or.inr ⟨hcur.trans hc, rfl, e, by simp, he⟩)
  · show (if validReset k'.resetSeconds = true then k'.resetSeconds else old) = k.resetSeconds
    rw [if_pos h.wellFormed.reset, h.resetSeconds]

/-- A step of a wait leaves the waiting slot, polls it, or repairs it. -/
theorem waiting_step {i : Nat} {st : State} {e : Step} {q : Pending} {k : Core} (h : StillWaits i st e)
    (hi : i ∈ slotNumbers) (hq : st.pendingCast = some q) (hqi : q.slotIndex = i) (hk : core st i = some k) :
    (∃ q', (step st e).pendingCast = some q' ∧ q'.slotIndex = i) ∧
      (core (step st e) i = some k ∨ core (step st e) i = some (k.timeReset e.1.getTime) ∨
        ∃ old, e.2.kind = .initializes ∧ validReset old = true ∧ core (step st e) i = some (k.repaired old)) := by
  obtain ⟨hstill, hedit⟩ := h
  by_cases htarget : e.2.kind = .targets
  · have ht := step_targets (c := e.1) htarget st
    rcases ht.pendingCast with hn | ⟨hs, hmarks⟩
    · exact absurd hn hstill
    · refine ⟨⟨q, hs.trans hq, hqi⟩, ?_⟩
      have hun : k.targetReset = k := Core.targetReset_unmarked (hmarks q k hq (hqi ▸ hi) (hqi ▸ hk))
      rcases ht.cores i with hb | hb
      · left; rw [hb, hk]; simp [hi, hun]
      · right; left; rw [hb, hk]; simp [hi, hun]
  · have hund : Undisturbed i st e := by
      unfold Undisturbed
      cases hkind : e.2.kind with
      | fails =>
        obtain ⟨c, op⟩ := e
        rw [step_fails hkind st] at hstill
        exact hstill (spellFailed_spec st).1
      | targets => exact htarget hkind
      | edits => exact hedit hkind
      | updates elapsed =>
        intro p hp
        obtain ⟨c, op⟩ := e
        obtain rfl := Op.eq_of_updates hkind
        rcases onUpdate_cases c elapsed st with ⟨hwait, _⟩ | ⟨_, _, ⟨_, _, hn, _⟩ | ⟨_, _, k', hc⟩⟩
        · exact hwait p hp
        · exact absurd hn hstill
        · exact absurd hc.pendingCast hstill
      | shows | initializes | triggers index | stops => trivial
    obtain ⟨⟨q', hq', h1, _⟩, hcore⟩ := undisturbed_step hund hi hq hk
    refine ⟨⟨q', hq', h1.trans hqi⟩, ?_⟩
    rcases hcore with ⟨_, hb⟩ | ⟨_, hb⟩ | ⟨old, hinit, hold, _, hb⟩
    · exact Or.inr (Or.inl hb)
    · exact Or.inl hb
    · exact Or.inr (Or.inr ⟨old, hinit, hold, hb⟩)

/-- While a cast waits nothing else moves its slot. -/
theorem waiting_keeps {i : Nat} (hi : i ∈ slotNumbers) {k0 : Core} : ∀ (es : List Step) (seen : List Step) (st : State)
    (q : Pending) (k : Core), Throughout step (StillWaits i) st es → st.pendingCast = some q → q.slotIndex = i →
      core st i = some k → Rests seen k0 k →
      ∃ k', core (run step st es) i = some k' ∧ Rests (seen ++ es) k0 k' := by
  intro es
  induction es with
  | nil => intro seen st q k _ _ _ hk hr; exact ⟨k, hk, by simpa using hr⟩
  | cons e es ih =>
    intro seen st q k hund hq hqi hk hr
    obtain ⟨⟨q', hq', hqi'⟩, hcore⟩ := waiting_step hund.1 hi hq hqi hk
    have happ : seen ++ e :: es = (seen ++ [e]) ++ es := by simp
    rw [happ]
    rcases hcore with hb | hb | ⟨old, hinit, hold, hb⟩
    · exact ih _ _ q' k hund.2 hq' hqi' hb (hr.mono (List.subset_append_left _ _))
    · exact ih _ _ q' _ hund.2 hq' hqi' hb (hr.timeReset e)
    · exact ih _ _ q' _ hund.2 hq' hqi' hb (hr.repaired hinit hold)

/-- The step that drops the cast polls its slot at most. -/
theorem drop_keeps {i : Nat} {st : State} {e : Step} {k0 k : Core} {seen : List Step} (h : ComesToNothing st e)
    (hk : core st i = some k) (hr : Rests seen k0 k) :
    ∃ k', core (step st e) i = some k' ∧ Rests (seen ++ [e]) k0 k' := by
  obtain ⟨c, op⟩ := e
  rcases h with hkind | ⟨elapsed, p, hop, hp, hdue, hexp⟩
  · rw [step_fails hkind st]
    exact ⟨k, by rw [core_spellFailed, hk], hr.mono (List.subset_append_left _ _)⟩
  · obtain rfl : op = .onUpdate elapsed := hop
    have hpolls : Polls c.getTime (polledBy c st (.onUpdate elapsed)) st (step st (c, .onUpdate elapsed)) := by
      rcases onUpdate_cases c elapsed st with ⟨_, _, _, hpolls⟩ | ⟨p', hp', ⟨_, _, _, hpolls⟩ | ⟨hdue', _⟩⟩
      · exact hpolls
      · exact hpolls
      · rw [hp] at hp'
        cases hp'
        exact absurd hdue' hdue
    rcases hpolls.core_cases i with hb | ⟨_, hb⟩
    · exact ⟨k, hb.trans hk, hr.mono (List.subset_append_left _ _)⟩
    · exact ⟨k.timeReset c.getTime, by rw [hb, hk]; rfl, hr.timeReset (c, .onUpdate elapsed)⟩

/-! ## A trigger that does not skip -/

/-- A refused trigger polls its slot at most. -/
theorem refused_keeps {st : State} {c : Client} {i : Nat} (href : Refused st i) :
    SlotKept [(c, .triggerSlot i)] i st (step st (c, .triggerSlot i)) := by
  intro k hk
  have hr := (@triggerSlot_refused c i st href).2
  rcases hr.core_cases i with hb | ⟨_, hb⟩
  · exact ⟨k, hb.trans hk, Or.inl ⟨rfl, rfl⟩⟩
  · refine ⟨k.timeReset c.getTime, by rw [← Option.map_some, ← hk]; exact hb, ?_⟩
    rcases Core.timeReset_cases c.getTime k with hs | ⟨hd, hs⟩
    · rw [hs]; exact Or.inl ⟨rfl, rfl⟩
    · rw [hs]; exact Or.inr (Or.inl ⟨rfl, rfl, (c, .triggerSlot i), by simp, hd⟩)

/-- The step a trigger uses is the current one exactly if it does not skip. -/
theorem stepToUse_eq_iff {c : Client} {slot : Slot} (hon : (coreOf slot).OnChain) (hcomplete : (coreOf slot).Complete) :
    stepToUse c slot = ((coreOf slot).timeReset c.getTime).current ↔ KeepsStep c (applyTimeReset c.getTime slot).2 := by
  have hcore := (applyTimeReset_core c.getTime slot).1
  have hcur : (applyTimeReset c.getTime slot).2.current = ((coreOf slot).timeReset c.getTime).current :=
    congrArg Core.current hcore
  have hn := getn_afterReset c.getTime slot
  have hrange := onChain_inv.timeReset hon c.getTime
  unfold Core.OnChain at hrange
  rw [Core.timeReset_refs] at hrange
  unfold Core.Complete MIN_SPELLS at hcomplete
  rw [← hcur]
  exact effective_eq_current_iff c (applyTimeReset c.getTime slot).2 (by omega) (by omega)

/-- The polled core of a trigger that does not skip, after the trigger. -/
theorem polled_rests {k : Core} (hw : k.WellFormed) (c : Client) (i : Nat) :
    Rests [(c, .triggerSlot i)] k (k.timeReset c.getTime) := by
  simpa using (Rests.refl hw).timeReset (c, .triggerSlot i)

theorem keeping_leaves {st : State} {c : Client} {i : Nat} {slot : Slot} (h : Inv st) (hs : st.slots i = some slot)
    (href : ¬ Refused st i) (hkeeps : KeepsStep c (applyTimeReset c.getTime slot).2) : LeavesPosition st c i := by
  obtain ⟨slot', hs', hi, hfree, hcomplete, hstart⟩ := @triggerSlot_started c i st href
  rw [hs] at hs'
  cases hs'
  have hw : (coreOf slot).WellFormed := h.slots.of_slot hi hs
  have hmoved : ((coreOf slot).timeReset c.getTime).moved (stepToUse c slot) = (coreOf slot).timeReset c.getTime := by
    rw [(stepToUse_eq_iff hw.onChain hcomplete).mpr hkeeps, Core.moved_self]
  have hcore : core (step st (c, .triggerSlot i)) i = some ((coreOf slot).timeReset c.getTime) := by
    rcases hstart.core with hb | ⟨_, hb⟩
    · rw [hmoved] at hb
      exact hb
    · rw [hmoved, Core.timeReset_idem] at hb
      exact hb
  have hrests := polled_rests hw c i
  refine ⟨fun _ k hk => ?_, fun es e _ hfly hund hdrop k hk => ?_⟩
  · rw [core_of_slot hs] at hk
    cases hk
    exact ⟨_, hcore, hrests.kept⟩
  · rw [core_of_slot hs] at hk
    cases hk
    obtain ⟨p, hp⟩ := Option.ne_none_iff_exists'.mp hfly
    obtain ⟨hpi, _⟩ := triggered_waits hfree hp
    obtain ⟨k1, hk1, hr1⟩ := waiting_keeps hi es _ _ p _ hund hp hpi hcore hrests
    obtain ⟨k2, hk2, hr2⟩ := drop_keeps hdrop hk1 hr1
    exact ⟨k2, hk2, by simpa using hr2.kept⟩

/-! ## A trigger that skips -/

/-- A core moved off its position has not kept it, at the same instant. -/
theorem moved_not_kept {es : List Step} {k k' : Core} {t : ℚ} {s : Nat} (hreads : ∀ e ∈ es, e.1.getTime = t)
    (hinit : ∀ e ∈ es, e.2.kind ≠ .initializes) (hs : s ≠ (k.timeReset t).current)
    (hk' : k' = (k.timeReset t).moved s ∨ k' = ((k.timeReset t).moved s).timeReset t) : ¬ PositionKept es k k' := by
  intro hkept
  have hnoinit : ¬ (∃ e ∈ es, e.2.kind = .initializes) := fun ⟨e, he, hk⟩ => hinit e he hk
  by_cases hdue : k.ResetDue t
  · -- reset first, then moved off step 1, unused
    rw [Core.timeReset_due hdue] at hs hk'
    have hsame : k' = { k with current := s, lastUsed := none } := by
      rcases hk' with rfl | rfl
      · rfl
      · exact Core.timeReset_not_due (Core.not_due_of_unused rfl)
    obtain ⟨l, hl, _⟩ := hdue
    subst hsame
    rcases hkept with ⟨_, hu⟩ | ⟨hc, _⟩ | ⟨_, _, hex⟩
    · rw [hl] at hu; cases hu
    · exact hs hc
    · exact hnoinit hex
  · rw [Core.timeReset_not_due hdue] at hs hk'
    have hnodue : ¬ ∃ e ∈ es, k.ResetDue e.1.getTime := by
      intro ⟨e, he, hd⟩
      rw [hreads e he] at hd
      exact hdue hd
    rcases hkept with ⟨hc, hu⟩ | ⟨_, _, hex⟩ | ⟨_, _, hex⟩
    · rcases hk' with rfl | rfl
      · exact hs hc
      · rcases Core.timeReset_cases t (k.moved s) with hm | ⟨hd, hm⟩
        · rw [hm] at hc
          exact hs hc
        · rw [hm] at hu
          obtain ⟨l, hl, _⟩ := hd
          have hl' : k.lastUsed = some l := hl
          rw [hl'] at hu
          cases hu
    · exact hnodue hex
    · exact hnoinit hex

theorem skipping_moves {st : State} {c : Client} {i : Nat} {slot : Slot} (h : Inv st) (hs : st.slots i = some slot)
    (href : ¬ Refused st i) (hskips : ¬ KeepsStep c (applyTimeReset c.getTime slot).2) : ¬ LeavesPosition st c i := by
  intro hleaves
  obtain ⟨slot', hs', hi, hfree, hcomplete, hstart⟩ := @triggerSlot_started c i st href
  rw [hs] at hs'
  cases hs'
  have hw : (coreOf slot).WellFormed := h.slots.of_slot hi hs
  have hne : stepToUse c slot ≠ ((coreOf slot).timeReset c.getTime).current :=
    fun heq => hskips ((stepToUse_eq_iff hw.onChain hcomplete).mp heq)
  have hstep : step st (c, .triggerSlot i) = (triggerSlot c i st).2 := rfl
  by_cases hfly : (step st (c, .triggerSlot i)).pendingCast = none
  · obtain ⟨k', hk', hkept⟩ := hleaves.early (Or.inr hfly) _ (core_of_slot hs)
    refine moved_not_kept (t := c.getTime) (by simp) (by simp [Op.kind]) hne ?_ hkept
    rcases hstart.core with hb | ⟨_, hb⟩
    · rw [hstep, hb] at hk'
      cases hk'
      exact Or.inl rfl
    · rw [hstep, hb] at hk'
      cases hk'
      exact Or.inr rfl
  · -- the cast fails at once
    have hdrop : ComesToNothing (step st (c, .triggerSlot i)) (c, .onEvent .SPELLCAST_FAILED) := Or.inl rfl
    obtain ⟨k', hk', hkept⟩ := hleaves.later [] _ hfree hfly trivial hdrop _ (core_of_slot hs)
    refine moved_not_kept (t := c.getTime) (by simp) (by simp [Op.kind, Event.kind]) hne ?_ hkept
    rw [run_nil, step_fails rfl, core_spellFailed] at hk'
    rcases hstart.core with hb | ⟨hn, _⟩
    · rw [hstep, hb] at hk'
      cases hk'
      exact Or.inl rfl
    · exact absurd hn hfly

/-- In a well-formed state, triggering slot `i` leaves its position however the trigger
    comes to nothing exactly if the trigger is refused or, after the reset that may be
    due, the current step can be used or no step can. -/
theorem leaves_position_iff {st : State} (h : Inv st) (c : Client) (i : Nat) :
    LeavesPosition st c i ↔ Refused st i ∨
      ∀ slot, st.slots i = some slot → KeepsStep c (applyTimeReset c.getTime slot).2 := by
  by_cases href : Refused st i
  · refine ⟨fun _ => Or.inl href, fun _ => ⟨fun _ => refused_keeps href, ?_⟩⟩
    intro es e hfree hfly
    have hr := (@triggerSlot_refused c i st href).2
    exact absurd (hr.pendingCast.trans hfree) hfly
  · obtain ⟨slot, hs, _⟩ := @triggerSlot_started c i st href
    by_cases hkeeps : KeepsStep c (applyTimeReset c.getTime slot).2
    · refine ⟨fun _ => Or.inr fun slot' hs' => ?_, fun _ => keeping_leaves h hs href hkeeps⟩
      rw [hs] at hs'
      cases hs'
      exact hkeeps
    · refine ⟨fun hl => absurd hl (skipping_moves h hs href hkeeps), fun hor => ?_⟩
      rcases hor with hr | hall
      · exact absurd hr href
      · exact absurd (hall slot hs) hkeeps

theorem inv_afterFirst : Inv afterFirst := inv_run step step_inv _ _ inv_fresh

/-- The second spell is ready at 4, so a trigger there leaves the position whatever becomes of it. -/
theorem leaves_position_afterFirst : LeavesPosition afterFirst (bookClient 4) 1 := by
  have hready : ∀ slot ∈ afterFirst.slots 1,
      let slot := (applyTimeReset (bookClient 4).getTime slot).2
      stepAvailable (bookClient 4) slot.spells.steps slot.current = true := by decide +kernel
  exact (leaves_position_iff inv_afterFirst (bookClient 4) 1).mpr (Or.inr fun slot hs => Or.inl (hready slot hs))

/-- The second spell is on a long cooldown. -/
def cooldownClient (t : ℚ) : Client :=
  { bookClient t with getSpellCooldown := fun i _ => if i = 2 then ⟨some 0, some 100, some 1⟩ else ⟨some 0, some 0, some 1⟩ }

/-- Not every failed trigger leaves its chain: at step 2, with the second spell on
    cooldown, the trigger at 4 casts the third; interrupted at 5, the chain is at step 3. -/
theorem failed_trigger_moves_chain :
    ¬ ∀ (setup : List Step) (c : Client) (i : Nat), LeavesPosition (run step (initializeDB noDB) setup) c i := by
  intro h
  have hrun : run step (initializeDB noDB) (buildChain ++ castFirst) = afterFirst := rfl
  have hevery := h (buildChain ++ castFirst) (cooldownClient 4) 1
  rw [hrun] at hevery
  have hfly : (step afterFirst (cooldownClient 4, .triggerSlot 1)).pendingCast ≠ none := by decide +kernel
  obtain ⟨slot, hs, hcur⟩ : ∃ slot, afterFirst.slots 1 = some slot ∧ slot.current = 2 := by
    have hmap : (afterFirst.slots 1).map Slot.current = some 2 := by decide +kernel
    exact Option.map_eq_some_iff.mp hmap
  obtain ⟨k', hk', hkept⟩ := hevery.later [] (cooldownClient 5, .onEvent .SPELLCAST_INTERRUPTED) afterFirst_triggered.1 hfly
    trivial (Or.inl rfl) _ (core_of_slot hs)
  have hafter : (core (step (step afterFirst (cooldownClient 4, .triggerSlot 1))
      (cooldownClient 5, .onEvent .SPELLCAST_INTERRUPTED)) 1).map Core.current = some 3 := by decide +kernel
  rw [run_nil] at hk'
  rw [hk', Option.map_some, Option.some.injEq] at hafter
  rcases hkept with ⟨hc, _⟩ | ⟨hc, _⟩ | ⟨hc, _⟩
  · rw [hafter] at hc
    have : (3 : Nat) = slot.current := hc
    omega
  · omega
  · rw [hafter] at hc
    have : (3 : Nat) = slot.current := hc
    omega

end Nostalgia.MacroManager
