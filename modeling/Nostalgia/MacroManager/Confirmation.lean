/-
  Nostalgia.MacroManager.Confirmation — when a confirmed cast advances its chain.

  The inactivity timer and the pending cast both write a slot's position and do not know
  of each other. While a cast of slot `i` waits, every display refresh and every poll of
  `OnUpdate` runs `ApplyTimeReset` on the slot; when the reset comes due meanwhile (a
  cast longer than the rest of the reset window, or a skipped step behind a stale
  `lastUsed`), the slot goes back to step 1 and `ConfirmPendingCast` then drops the cast.

  Between trigger and confirmation the slot is either still at the triggered step
  (`Standing`), or reset (`WasReset`), and it is reset from the first due poll on.
  - `undisturbed_step`, `waiting_run`: what one step and a whole wait do.
  - `confirmed_iff_no_reset`: the cast advances the chain exactly if no step of the wait
    polls the slot while its inactivity reset is due.
  - `a_confirmed_cast_is_lost`: a run in which it does not.
-/

import Nostalgia.MacroManager.Casting

namespace Nostalgia.MacroManager

open Nostalgia.Lua Nostalgia.Machine

/-! ## The wait for a confirmation -/

/-- What may happen while a cast of slot `i` waits: no failure, no change of target, no
    edit of the slot, and `OnUpdate` neither confirms nor gives up. -/
def UndisturbedBy (i : Nat) (st : State) (now : ℚ) : Kind → Prop
  | .fails | .targets => False
  | .edits => st.editorSlot ≠ some i
  | .updates _ => ∀ p ∈ st.pendingCast, ¬ p.Due now ∧ ¬ p.Expired now
  | _ => True

instance (i : Nat) (st : State) (now : ℚ) : ∀ k : Kind, Decidable (UndisturbedBy i st now k)
  | .fails | .targets => inferInstanceAs (Decidable False)
  | .edits => inferInstanceAs (Decidable (_ ≠ _))
  | .updates _ => inferInstanceAs (Decidable (∀ p ∈ st.pendingCast, _))
  | .shows | .initializes | .triggers _ | .stops => inferInstanceAs (Decidable True)

def Undisturbed (i : Nat) (st : State) (e : Step) : Prop := UndisturbedBy i st e.1.getTime e.2.kind

instance (i : Nat) (st : State) (e : Step) : Decidable (Undisturbed i st e) :=
  inferInstanceAs (Decidable (UndisturbedBy i st e.1.getTime e.2.kind))

/-- The step does not poll slot `i` while its inactivity reset is due. -/
def NoDuePoll (i : Nat) (st : State) (e : Step) : Prop :=
  ∀ k, core st i = some k → polledBy e.1 st e.2 i → ¬ k.ResetDue e.1.getTime

/-- Slot `i` is one step past `s`, used at `t`. -/
def StandsAfter (st : State) (i s : Nat) (t : ℚ) : Prop :=
  ∃ slot, st.slots i = some slot ∧ slot.current = s % getn slot.spells.steps + 1 ∧ slot.lastUsed = some t

/-- Saving or clearing another slot only polls this one. -/
theorem edits_other {c : Client} {op : Op} (hkind : op.kind = .edits) {st : State} {i : Nat} {k : Core}
    (hother : st.editorSlot ≠ some i) (hk : core st i = some k) :
    (step st (c, op)).pendingCast = st.pendingCast ∧
      ((polledBy c st op i ∧ core (step st (c, op)) i = some (k.timeReset c.getTime)) ∨
        (¬ polledBy c st op i ∧ core (step st (c, op)) i = some k)) := by
  rw [polledBy_edits hkind]
  rcases step_edits (c := c) hkind st with ⟨hno, hr⟩ | ⟨index, hgoes, he⟩
  · exact ⟨hr.pendingCast, Or.inr ⟨fun hp => hno hp.1, by rw [hr.kept i id, hk]⟩⟩
  · have hne : i ≠ index := by
      rintro rfl
      exact hother hgoes.1
    refine ⟨he.pendingCast, ?_⟩
    by_cases hP : Shown c st i
    · exact Or.inl ⟨⟨⟨index, hgoes⟩, hP⟩, by rw [he.polled i hne hP, hk]; rfl⟩
    · exact Or.inr ⟨fun hp => hP hp.2, by rw [he.kept i hne hP, hk]⟩

/-- What a step of the wait does to the waiting slot. -/
theorem undisturbed_step {i : Nat} {st : State} {e : Step} {q : Pending} {k : Core} (h : Undisturbed i st e)
    (hi : i ∈ slotNumbers) (hq : st.pendingCast = some q) (hk : core st i = some k) :
    (∃ q', (step st e).pendingCast = some q' ∧ q'.slotIndex = q.slotIndex ∧ q'.step = q.step ∧ q'.spell = q.spell) ∧
      ((polledBy e.1 st e.2 i ∧ core (step st e) i = some (k.timeReset e.1.getTime)) ∨
        (¬ polledBy e.1 st e.2 i ∧ core (step st e) i = some k) ∨
        ∃ old, e.2.kind = .initializes ∧ validReset old = true ∧ ¬ polledBy e.1 st e.2 i ∧
          core (step st e) i = some (k.repaired old)) := by
  obtain ⟨c, op⟩ := e
  have hsame : (step st (c, op)).pendingCast = st.pendingCast → ∃ q', (step st (c, op)).pendingCast = some q' ∧
      q'.slotIndex = q.slotIndex ∧ q'.step = q.step ∧ q'.spell = q.spell :=
    fun heq => ⟨q, heq.trans hq, rfl, rfl, rfl⟩
  unfold Undisturbed at h
  dsimp only at h ⊢
  cases hkind : op.kind with
  | shows =>
    have hr := step_shows (c := c) hkind st
    exact ⟨hsame hr.pendingCast, (hr.polls.polled_or_kept hk).imp_right Or.inl⟩
  | initializes =>
    have hinit := step_initializes (c := c) hkind st
    have hno : ¬ polledBy c st op i := not_polledBy (Or.inl hkind)
    refine ⟨hsame hinit.pendingCast, ?_⟩
    obtain ⟨k', hk', hfrom⟩ := hinit.repaired i hi
    rw [hk] at hfrom
    rcases hfrom with hfrom | ⟨hfrom, _⟩
    · cases hfrom
      exact Or.inr (Or.inr ⟨_, rfl, hinit.valid, hno, hk'⟩)
    · cases hfrom
  | edits =>
    rw [hkind] at h
    obtain ⟨hpend, hmoves⟩ := edits_other (c := c) hkind h hk
    exact ⟨hsame hpend, hmoves.imp_right Or.inl⟩
  | triggers index =>
    obtain rfl := Op.eq_of_triggers hkind
    have hr := (@triggerSlot_refused c index st (Or.inr (Or.inl (by rw [hq]; simp)))).2
    exact ⟨hsame hr.pendingCast, (hr.polls.polled_or_kept hk).imp_right Or.inl⟩
  | updates elapsed =>
    obtain rfl := Op.eq_of_updates hkind
    rw [hkind] at h
    obtain ⟨hdue, hexp⟩ := h q (by simp [hq])
    rcases onUpdate_cases c elapsed st with ⟨_, _, hs, hr⟩ | ⟨q', hq', ⟨hgive, _⟩ | ⟨hdue', _⟩⟩
    · exact ⟨hsame hs, (hr.polled_or_kept hk).imp_right Or.inl⟩
    · rw [hq] at hq'
      cases hq'
      rcases hgive with ⟨hd, _⟩ | ⟨_, he⟩
      · exact absurd hd hdue
      · exact absurd he hexp
    · rw [hq] at hq'
      cases hq'
      exact absurd hdue' hdue
  | targets => rw [hkind] at h; exact h.elim
  | stops =>
    have hno : ¬ polledBy c st op i := not_polledBy (Or.inr (Or.inl hkind))
    rw [step_stops hkind st]
    refine ⟨⟨{ q with successAt := some (c.getTime + SUCCESS_DELAY) }, ?_, rfl, rfl, rfl⟩, Or.inr (Or.inl ⟨hno, hk⟩)⟩
    rw [pending_spellStopped, hq]
    rfl
  | fails => rw [hkind] at h; exact h.elim

/-! ## Standing or reset -/

/-- `p` still is pending, but perhaps for its `successAt`, and its slot is at core `k`. -/
structure Waiting (p : Pending) (st : State) (k : Core) : Prop where
  pendingCast : ∃ q, st.pendingCast = some q ∧ q.slotIndex = p.slotIndex ∧ q.step = p.step ∧ q.spell = p.spell
  core : core st p.slotIndex = some k

/-- The slot is at the triggered step of the triggered chain. -/
structure Standing (p : Pending) (k : Core) : Prop where
  current : k.current = p.step
  entry : get k.refs p.step = some p.spell
  pos : 1 ≤ p.step
  le : p.step ≤ getn k.refs

/-- The inactivity reset took the slot back to step 1. -/
structure WasReset (p : Pending) (k : Core) : Prop where
  skipped : p.step ≠ 1
  current : k.current = 1
  lastUsed : k.lastUsed = none

theorem Standing.repaired {p : Pending} {k : Core} (h : Standing p k) (old : ℚ) : Standing p (k.repaired old) := by
  refine ⟨?_, h.entry, h.pos, h.le⟩
  have h1 := h.pos
  have h2 := h.le
  show normalised (getn k.refs) k.current = p.step
  rw [h.current, normalised, if_neg (by omega)]

theorem WasReset.repaired {p : Pending} {k : Core} (h : WasReset p k) (old : ℚ) : WasReset p (k.repaired old) := by
  refine ⟨h.skipped, ?_, rfl⟩
  show normalised (getn k.refs) k.current = 1
  rw [h.current, normalised]
  split <;> rfl

theorem waiting_next {p q : Pending} {st : State} {k : Core} (hq : q.slotIndex = p.slotIndex ∧ q.step = p.step ∧ q.spell = p.spell)
    (hnext : ∃ q', st.pendingCast = some q' ∧ q'.slotIndex = q.slotIndex ∧ q'.step = q.step ∧ q'.spell = q.spell)
    (hk : core st p.slotIndex = some k) : Waiting p st k := by
  obtain ⟨q', hq', h1, h2, h3⟩ := hnext
  exact ⟨⟨q', hq', h1.trans hq.1, h2.trans hq.2.1, h3.trans hq.2.2⟩, hk⟩

/-- The first due poll resets a standing slot, and nothing else moves it. -/
theorem standing_step {p : Pending} {st : State} {e : Step} {k : Core} (h : Undisturbed p.slotIndex st e)
    (hi : p.slotIndex ∈ slotNumbers) (hw : Waiting p st k) (hs : Standing p k) :
    ∃ k', Waiting p (step st e) k' ∧ (NoDuePoll p.slotIndex st e → Standing p k') ∧
      (¬ NoDuePoll p.slotIndex st e → WasReset p k') := by
  obtain ⟨q, hq, hkey⟩ := hw.pendingCast
  obtain ⟨hpend, hcore⟩ := undisturbed_step h hi hq hw.core
  have hnodue : ¬ polledBy e.1 st e.2 p.slotIndex → NoDuePoll p.slotIndex st e := fun hno _ _ hP => absurd hP hno
  rcases hcore with ⟨hP, hcore⟩ | ⟨hP, hcore⟩ | ⟨old, _, _, hP, hcore⟩
  · refine ⟨k.timeReset e.1.getTime, waiting_next hkey hpend hcore, ?_, ?_⟩
    · intro hno
      rw [Core.timeReset_not_due (hno k hw.core hP)]
      exact hs
    · intro hdue
      have hd : k.ResetDue e.1.getTime := by
        by_contra hd
        refine hdue fun k' hk' _ => ?_
        rw [hw.core] at hk'
        cases hk'
        exact hd
      have hne : k.current ≠ 1 := by
        obtain ⟨_, _, hne, _⟩ := hd
        exact hne
      rw [Core.timeReset_due hd]
      exact ⟨hs.current ▸ hne, rfl, rfl⟩
  · exact ⟨k, waiting_next hkey hpend hcore, fun _ => hs, fun hdue => absurd (hnodue hP) hdue⟩
  · exact ⟨k.repaired old, waiting_next hkey hpend hcore, fun _ => hs.repaired old, fun hdue => absurd (hnodue hP) hdue⟩

theorem reset_step {p : Pending} {st : State} {e : Step} {k : Core} (h : Undisturbed p.slotIndex st e)
    (hi : p.slotIndex ∈ slotNumbers) (hw : Waiting p st k) (hr : WasReset p k) :
    ∃ k', Waiting p (step st e) k' ∧ WasReset p k' := by
  obtain ⟨q, hq, hkey⟩ := hw.pendingCast
  obtain ⟨hpend, hcore⟩ := undisturbed_step h hi hq hw.core
  rcases hcore with ⟨_, hcore⟩ | ⟨_, hcore⟩ | ⟨old, _, _, _, hcore⟩
  · rw [Core.timeReset_not_due (Core.not_due_of_one hr.current)] at hcore
    exact ⟨k, waiting_next hkey hpend hcore, hr⟩
  · exact ⟨k, waiting_next hkey hpend hcore, hr⟩
  · exact ⟨k.repaired old, waiting_next hkey hpend hcore, hr.repaired old⟩

theorem reset_run {p : Pending} (hi : p.slotIndex ∈ slotNumbers) (es : List Step) (st : State) (k : Core)
    (hund : Throughout step (Undisturbed p.slotIndex) st es) (hw : Waiting p st k) (hr : WasReset p k) :
    ∃ k', Waiting p (run step st es) k' ∧ WasReset p k' := by
  have hstep : ∀ st e, (∃ k, Waiting p st k ∧ WasReset p k) → Undisturbed p.slotIndex st e →
      ∃ k', Waiting p (step st e) k' ∧ WasReset p k' := fun _ _ ⟨_, hw, hr⟩ hund => reset_step hund hi hw hr
  exact inv_run_throughout step hstep es st ⟨k, hw, hr⟩ hund

/-- Over a whole wait: the slot stands exactly if no step polled it while due. -/
theorem waiting_run {p : Pending} (hi : p.slotIndex ∈ slotNumbers) : ∀ (es : List Step) (st : State) (k : Core),
    Throughout step (Undisturbed p.slotIndex) st es → Waiting p st k → Standing p k →
      ∃ k', Waiting p (run step st es) k' ∧ (Throughout step (NoDuePoll p.slotIndex) st es → Standing p k') ∧
        (¬ Throughout step (NoDuePoll p.slotIndex) st es → WasReset p k') := by
  intro es
  induction es with
  | nil => intro st k _ hw hs; exact ⟨k, hw, fun _ => hs, fun hno => absurd trivial hno⟩
  | cons e es ih =>
    intro st k hund hw hs
    obtain ⟨k1, hw1, hstand, hreset⟩ := standing_step hund.1 hi hw hs
    by_cases hno : NoDuePoll p.slotIndex st e
    · obtain ⟨k2, hw2, h2, h2'⟩ := ih _ k1 hund.2 hw1 (hstand hno)
      exact ⟨k2, hw2, fun hall => h2 hall.2, fun hall => h2' fun hrest => hall ⟨hno, hrest⟩⟩
    · obtain ⟨k2, hw2, hr2⟩ := reset_run hi es _ k1 hund.2 hw1 (hreset hno)
      exact ⟨k2, hw2, fun hall => absurd hall.1 hno, fun _ => hr2⟩

/-! ## The confirmation -/

theorem standsAfter_iff {st : State} {i s : Nat} {t : ℚ} : StandsAfter st i s t ↔
    ∃ k, core st i = some k ∧ k.current = s % getn k.refs + 1 ∧ k.lastUsed = some t := by
  constructor
  · rintro ⟨slot, hs, hc, hl⟩
    exact ⟨coreOf slot, core_of_slot hs, by simpa [coreOf] using hc, hl⟩
  · rintro ⟨k, hk, hc, hl⟩
    obtain ⟨slot, hs, rfl⟩ := Option.map_eq_some_iff.mp hk
    exact ⟨slot, hs, by simpa [coreOf] using hc, hl⟩

theorem standing_confirms {p : Pending} {st : State} {c : Client} {elapsed : ℚ} {k : Core} (hw : Waiting p st k)
    (hs : Standing p k) (hdue : ∀ q, st.pendingCast = some q → q.Due c.getTime) :
    StandsAfter (step st (c, .onUpdate elapsed)) p.slotIndex p.step c.getTime := by
  obtain ⟨q, hq, hslot, hstep, hspell⟩ := hw.pendingCast
  have hmatch : Matches st q k := ⟨hslot ▸ hw.core, by rw [hs.current, hstep], by rw [hstep, hspell]; exact hs.entry⟩
  rcases onUpdate_cases c elapsed st with ⟨hwait, _⟩ | ⟨q', hq', ⟨hgive, _⟩ | ⟨_, _, k', hconf⟩⟩
  · exact absurd (hdue q hq) (hwait q hq).1
  · rw [hq] at hq'
    cases hq'
    rcases hgive with ⟨_, hno⟩ | ⟨hno, _⟩
    · exact absurd ⟨k, hmatch⟩ hno
    · exact absurd (hdue q hq) hno
  · rw [hq] at hq'
    cases hq'
    have hk : k' = k := by
      have h1 := hconf.before.core
      rw [hmatch.core] at h1
      cases h1
      rfl
    subst hk
    rw [standsAfter_iff]
    refine ⟨_, hslot ▸ hconf.advanced, ?_, rfl⟩
    show k'.next = p.step % getn k'.refs + 1
    rw [Core.next_eq (by rw [hs.current]; exact hs.le), hs.current]

theorem reset_loses {p : Pending} {st : State} {c : Client} {elapsed : ℚ} {k : Core} (hw : Waiting p st k)
    (hr : WasReset p k) (hdue : ∀ q, st.pendingCast = some q → q.Due c.getTime) :
    ¬ StandsAfter (step st (c, .onUpdate elapsed)) p.slotIndex p.step c.getTime := by
  obtain ⟨q, hq, hslot, hstep, hspell⟩ := hw.pendingCast
  rw [standsAfter_iff]
  intro ⟨k', hk', _, hl⟩
  rcases onUpdate_cases c elapsed st with ⟨hwait, _⟩ | ⟨q', hq', ⟨_, _, _, hpolls⟩ | ⟨_, _, k1, hconf⟩⟩
  · exact absurd (hdue q hq) (hwait q hq).1
  · have hsame : core (step st (c, .onUpdate elapsed)) p.slotIndex = some k := by
      rcases hpolls.core_cases p.slotIndex with h | ⟨_, h⟩
      · exact h.trans hw.core
      · refine h.trans ?_
        rw [hw.core, Option.map_some, Core.timeReset_not_due (Core.not_due_of_one hr.current)]
    rw [hsame] at hk'
    cases hk'
    rw [hr.lastUsed] at hl
    cases hl
  · rw [hq] at hq'
    cases hq'
    have h1 := hconf.before.core
    rw [hslot, hw.core] at h1
    cases h1
    have h2 := hconf.before.current
    rw [hr.current, hstep] at h2
    exact hr.skipped h2.symm

/-- A started trigger leaves its slot standing. -/
theorem triggered_waits {st : State} {c : Client} {i : Nat} {p : Pending} (hfree : st.pendingCast = none)
    (hp : (step st (c, .triggerSlot i)).pendingCast = some p) :
    p.slotIndex = i ∧ i ∈ slotNumbers ∧ ∃ k, Waiting p (step st (c, .triggerSlot i)) k ∧ Standing p k := by
  have hstep : step st (c, .triggerSlot i) = (triggerSlot c i st).2 := rfl
  by_cases href : Refused st i
  · have hr := (@triggerSlot_refused c i st href).2
    rw [hstep, hr.pendingCast, hfree] at hp
    cases hp
  · obtain ⟨slot, _, hi, _, hcomplete, hstart⟩ := @triggerSlot_started c i st href
    have hle := stepToUse_le c hcomplete
    rcases hstart.pendingCast with hn | ⟨what, spell, successAt, _, hsome, hget⟩
    · rw [hstep, hn] at hp
      cases hp
    · have hp' := hsome
      rw [hstep, hsome] at hp
      cases hp
      refine ⟨rfl, hi, ?_⟩
      rcases hstart.core with hk | ⟨hn, _⟩
      · refine ⟨_, ⟨⟨_, hp', rfl, rfl, rfl⟩, hk⟩, rfl, ?_, hle.1, ?_⟩
        · simpa [Core.moved] using hget
        · simpa [Core.moved] using hle.2
      · rw [hn] at hp'
        cases hp'

/-- A cast of slot `i` that a trigger put in flight, left alone until the first
    `OnUpdate` at which it is due, advances the slot by one step exactly if no step of
    the wait polled the slot while its inactivity reset was due. -/
theorem confirmed_iff_no_reset {st : State} {c c' : Client} {i : Nat} {p : Pending} {es : List Step} {elapsed : ℚ}
    (hfree : st.pendingCast = none) (hp : (step st (c, .triggerSlot i)).pendingCast = some p)
    (hund : Throughout step (Undisturbed i) (step st (c, .triggerSlot i)) es)
    (hdue : ∀ q, (run step (step st (c, .triggerSlot i)) es).pendingCast = some q → q.Due c'.getTime) :
    StandsAfter (step (run step (step st (c, .triggerSlot i)) es) (c', .onUpdate elapsed)) i p.step c'.getTime ↔
      Throughout step (NoDuePoll i) (step st (c, .triggerSlot i)) es := by
  obtain ⟨rfl, hi, k, hw, hs⟩ := triggered_waits hfree hp
  obtain ⟨k', hw', hstand, hreset⟩ := waiting_run hi es _ k hund hw hs
  by_cases hno : Throughout step (NoDuePoll p.slotIndex) (step st (c, .triggerSlot p.slotIndex)) es
  · exact ⟨fun _ => hno, fun _ => standing_confirms hw' (hstand hno) hdue⟩
  · exact ⟨fun h => absurd h (reset_loses hw' (hreset hno) hdue), fun h => absurd h hno⟩

/-! ## A lost confirmation -/

/-- A client at time `t` whose spell book holds three spells. -/
def bookClient (t : ℚ) : Client :=
  { getTime := t
    getSpellName := fun i bookType =>
      if bookType = .spell then
        match i with
        | 1 => some ("Fireball", some "")
        | 2 => some ("Frostbolt", some "")
        | 3 => some ("Scorch", some "")
        | _ => none
      else none
    getSpellTexture := fun _ _ => none
    spellTabs := [(some 0, some 3)]
    getSpellCooldown := fun _ _ => ⟨some 0, some 0, some 1⟩
    isSpellPassive := fun _ _ => false
    hasPetAttack := true
    unitExists := fun _ => false
    unitIsDead := fun _ => false
    canAttackTarget := false
    castSpellByName := fun _ => none
    getCursorInfo := none
    cursorHasSpell := true
    actionTexts := [] }

/-- Login, and a chain of the three spells saved in slot 1, with the default reset time. -/
def buildChain : List Step :=
  let c := bookClient 0
  [(c, .onEvent .PLAYER_LOGIN), (c, .openEditor 1), (c, .pickupSpell 1 none), (c, .receiveSpell 1),
    (c, .pickupSpell 2 none), (c, .receiveSpell 2), (c, .pickupSpell 3 none), (c, .receiveSpell 3), (c, .saveEditor)]

/-- The first step is cast and confirmed at 3. -/
def castFirst : List Step :=
  [(bookClient 1, .triggerSlot 1), (bookClient 2, .onEvent .SPELLCAST_STOP), (bookClient 3, .onUpdate 1)]

def afterFirst : State := run step (initializeDB noDB) (buildChain ++ castFirst)

/-- A cast longer than the rest of the reset window: triggered at 10, stopped at 15. -/
def longCast : List Step := [(bookClient 14, .onUpdate 1), (bookClient 15, .onEvent .SPELLCAST_STOP)]

/-- A shorter one. -/
def shortCast : List Step := [(bookClient 11, .onUpdate 1), (bookClient 12, .onEvent .SPELLCAST_STOP)]

theorem afterFirst_triggered : afterFirst.pendingCast = none ∧
    (step afterFirst (bookClient 10, .triggerSlot 1)).pendingCast.map (fun p => (p.slotIndex, p.step)) = some (1, 2) := by
  decide +kernel

/-- Not every confirmed cast advances its chain: the poll at 14 resets slot 1, and the
    confirmation at 16 finds it at step 1 and drops the cast of step 2. -/
theorem a_confirmed_cast_is_lost :
    ¬ ∀ (setup es : List Step) (c c' : Client) (i : Nat) (p : Pending) (elapsed : ℚ),
      (run step (initializeDB noDB) setup).pendingCast = none →
      (step (run step (initializeDB noDB) setup) (c, .triggerSlot i)).pendingCast = some p →
      Throughout step (Undisturbed i) (step (run step (initializeDB noDB) setup) (c, .triggerSlot i)) es →
      (∀ q, (run step (step (run step (initializeDB noDB) setup) (c, .triggerSlot i)) es).pendingCast = some q →
        q.Due c'.getTime) →
      StandsAfter (step (run step (step (run step (initializeDB noDB) setup) (c, .triggerSlot i)) es)
        (c', .onUpdate elapsed)) i p.step c'.getTime := by
  intro h
  obtain ⟨hfree, htrig⟩ := afterFirst_triggered
  obtain ⟨p, hp, hkey⟩ := Option.map_eq_some_iff.mp htrig
  have hund : Throughout step (Undisturbed 1) (step afterFirst (bookClient 10, .triggerSlot 1)) longCast := by
    decide +kernel
  have hdue : ∀ q ∈ (run step (step afterFirst (bookClient 10, .triggerSlot 1)) longCast).pendingCast,
      q.Due (bookClient 16).getTime := by decide +kernel
  have hrun : run step (initializeDB noDB) (buildChain ++ castFirst) = afterFirst := rfl
  have hevery := h (buildChain ++ castFirst) longCast (bookClient 10) (bookClient 16) 1 p 1
  rw [hrun] at hevery
  obtain ⟨slot, hs, _, hl⟩ := hevery hfree hp hund hdue
  have hlost : ((step (run step (step afterFirst (bookClient 10, .triggerSlot 1)) longCast)
      (bookClient 16, .onUpdate 1)).slots 1).map (fun slot => slot.lastUsed) = some none := by decide +kernel
  rw [hs, Option.map_some, hl] at hlost
  cases hlost

/-- A step at which the reset is not due polls nothing that is. -/
theorem noDuePoll_of_core {i : Nat} {st : State} {e : Step} (h : ∀ k ∈ core st i, ¬ k.ResetDue e.1.getTime) :
    NoDuePoll i st e := fun k hk _ => h k hk

/-- With the shorter cast no poll falls due, and the slot stands after step 2. -/
theorem short_cast_confirmed :
    StandsAfter (step (run step (step afterFirst (bookClient 10, .triggerSlot 1)) shortCast)
      (bookClient 13, .onUpdate 1)) 1 2 13 := by
  have hp : (step afterFirst (bookClient 10, .triggerSlot 1)).pendingCast = some ⟨1, 2, 23, 10, none⟩ := by
    decide +kernel
  have hund : Throughout step (Undisturbed 1) (step afterFirst (bookClient 10, .triggerSlot 1)) shortCast := by
    decide +kernel
  have hdue : ∀ q ∈ (run step (step afterFirst (bookClient 10, .triggerSlot 1)) shortCast).pendingCast,
      q.Due (bookClient 13).getTime := by decide +kernel
  refine (confirmed_iff_no_reset afterFirst_triggered.1 hp hund hdue).mpr ⟨?_, ?_, trivial⟩
  · exact noDuePoll_of_core (by decide +kernel)
  · exact noDuePoll_of_core (by decide +kernel)

end Nostalgia.MacroManager
