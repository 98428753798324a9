/-
  Nostalgia.MacroManager.Inactivity — when the inactivity reset is armed.

  The editor promises a "Time reset after" some seconds, 0 for off. A slot is armed when,
  off step 1 and with a reset time, it knows when it was last used; then
  `ApplyTimeReset` takes it back (`armed_resets`). Two entry points disarm slots:
  `InitializeDB`, which runs at every loading screen, clears `lastUsed` but keeps
  `current`; and a trigger that skips writes `current` without `lastUsed`.
  - `armed_step_iff`: from an armed state a step leaves all slots armed exactly if it
    meets `KeepsArmed`.
  - `always_armed_iff`: a run from login is armed throughout exactly if the login and
    all steps meet it.
  - `loading_screen_disarms`: a run in which a slot is not armed.
-/

import Nostalgia.MacroManager.Failure

namespace Nostalgia.MacroManager

open Nostalgia.Lua Nostalgia.Machine

/-! ## Armed slots -/

def Core.Armed (k : Core) : Prop := k.current ≠ 1 → 0 < k.resetSeconds → k.lastUsed ≠ none

/-- Every slot off step 1 with a reset time knows when it was last used. -/
def Armed (st : State) : Prop :=
  ∀ i ∈ slotNumbers, ∀ slot, st.slots i = some slot → slot.current ≠ 1 → 0 < slot.resetSeconds → slot.lastUsed ≠ none

theorem armed_iff {st : State} : Armed st ↔ ∀ i ∈ slotNumbers, ∀ k, core st i = some k → k.Armed := by
  constructor
  · intro h i hi k hk
    obtain ⟨slot, hs, rfl⟩ := Option.map_eq_some_iff.mp hk
    exact h i hi slot hs
  · intro h i hi slot hs
    exact h i hi _ (core_of_slot hs)

/-- An armed slot off step 1 goes back to it once its reset time has passed. -/
theorem armed_resets {st : State} (h : Armed st) {i : Nat} (hi : i ∈ slotNumbers) {slot : Slot} (hs : st.slots i = some slot)
    (hcur : slot.current ≠ 1) (hpos : 0 < slot.resetSeconds) : ∃ lastUsed, slot.lastUsed = some lastUsed ∧
      ∀ now, slot.resetSeconds ≤ now - lastUsed → (applyTimeReset now slot).2.current = 1 := by
  obtain ⟨lastUsed, hl⟩ := Option.ne_none_iff_exists'.mp (h i hi slot hs hcur hpos)
  refine ⟨lastUsed, hl, fun now hle => ?_⟩
  have hd : (coreOf slot).ResetDue now := ⟨lastUsed, hl, hcur, hpos, hle⟩
  have hcore := (applyTimeReset_core now slot).1
  rw [Core.timeReset_due hd] at hcore
  exact congrArg Core.current hcore

/-! ## What the steps do to armed slots -/

/-- Initialising leaves a slot armed: it ends at step 1, or has no reset time. -/
def StaysArmed (old : ℚ) (k : Core) : Prop :=
  k.current ≤ 1 ∨ getn k.refs < k.current ∨ (if validReset k.resetSeconds then k.resetSeconds else old) ≤ 0

/-- The reset time `InitializeDB` gives a slot without a valid one. -/
def oldResetSeconds (st : State) : ℚ := (st.resetSeconds.filter validReset).getD DEFAULT_RESET

/-- A trigger leaves its slot armed: refused, no reset time, in use, or not skipping. -/
def TriggerArms (c : Client) (st : State) (index : Nat) : Prop :=
  Refused st index ∨ ∀ slot, st.slots index = some slot → slot.resetSeconds ≤ 0 ∨
    (applyTimeReset c.getTime slot).2.lastUsed ≠ none ∨ KeepsStep c (applyTimeReset c.getTime slot).2

/-- The step leaves armed slots armed. -/
def KeepsArmed (st : State) (e : Step) : Prop :=
  match e.2.kind with
  | .initializes => ∀ i ∈ slotNumbers, ∀ k, core st i = some k → StaysArmed (oldResetSeconds st) k
  | .triggers index => TriggerArms e.1 st index
  | _ => True

theorem armed_repaired_iff {old : ℚ} {k : Core} : (k.repaired old).Armed ↔ StaysArmed old k := by
  have hone : normalised (getn k.refs) k.current = 1 ↔ k.current ≤ 1 ∨ getn k.refs < k.current := by
    unfold normalised
    split <;> omega
  unfold Core.Armed StaysArmed
  show (normalised (getn k.refs) k.current ≠ 1 → 0 < (if validReset k.resetSeconds then k.resetSeconds else old) →
    (none : Option ℚ) ≠ none) ↔ _
  constructor
  · intro h
    by_cases h1 : normalised (getn k.refs) k.current = 1
    · rcases hone.mp h1 with hle | hlt
      · exact Or.inl hle
      · exact Or.inr (Or.inl hlt)
    · refine Or.inr (Or.inr ?_)
      by_contra hpos
      exact h h1 (not_le.mp hpos) rfl
  · intro h hne hpos
    rcases h with h | h | h
    · exact absurd (hone.mpr (Or.inl h)) hne
    · exact absurd (hone.mpr (Or.inr h)) hne
    · exact absurd hpos (not_lt.mpr h)

theorem armed_of_one {k : Core} (h : k.current = 1) : k.Armed := fun hne _ => absurd h hne

theorem Core.Armed.timeReset {k : Core} (h : k.Armed) (now : ℚ) : (k.timeReset now).Armed := by
  rcases Core.timeReset_cases now k with hs | ⟨_, hs⟩
  · rw [hs]; exact h
  · rw [hs]; exact armed_of_one rfl

theorem Core.Armed.targetReset {k : Core} (h : k.Armed) : k.targetReset.Armed := by
  unfold Core.targetReset
  split
  · exact armed_of_one rfl
  · exact h

/-- All cores of `b` are armed when each is one of `a`, polled at most, or armed anyway. -/
theorem armed_of_cases {now : ℚ} {a b : State} (h : Armed a)
    (hcore : ∀ i ∈ slotNumbers, (core b i = core a i ∨ core b i = (core a i).map (Core.timeReset now)) ∨
      ∀ k, core b i = some k → k.Armed) : Armed b := by
  rw [armed_iff] at h ⊢
  intro i hi k hk
  rcases hcore i hi with (hb | hb) | hb
  · exact h i hi k (hb ▸ hk)
  · rw [hb] at hk
    obtain ⟨k0, hk0, rfl⟩ := Option.map_eq_some_iff.mp hk
    exact (h i hi k0 hk0).timeReset now
  · exact hb k hk

theorem Polls.armed {now : ℚ} {P : Nat → Prop} {a b : State} (h : Polls now P a b) (ha : Armed a) : Armed b :=
  armed_of_cases ha fun i _ => Or.inl ((h.core_cases i).imp_right And.right)

theorem Edited.armed {now : ℚ} {P : Nat → Prop} {index : Nat} {a b : State} (h : Edited now P index a b) (ha : Armed a) :
    Armed b := by
  refine @armed_of_cases now a b ha fun i _ => ?_
  by_cases hi : i = index
  · subst hi
    refine Or.inr fun k hk => ?_
    obtain ⟨k', hk', hf⟩ := h.installed
    rw [hk'] at hk
    cases hk
    exact armed_of_one hf.current
  · by_cases hP : P i
    · exact Or.inl (Or.inr (h.polled i hi hP))
    · exact Or.inl (Or.inl (h.kept i hi hP))

theorem Targeted.armed {now : ℚ} {a b : State} (h : Targeted now a b) (ha : Armed a) : Armed b := by
  rw [armed_iff] at ha ⊢
  intro i hi k hk
  rcases h.cores i with hb | hb
  · rw [hb] at hk
    obtain ⟨k0, hk0, rfl⟩ := Option.map_eq_some_iff.mp hk
    rw [if_pos hi]
    exact (ha i hi k0 hk0).targetReset
  · rw [hb, Option.map_map] at hk
    obtain ⟨k0, hk0, rfl⟩ := Option.map_eq_some_iff.mp hk
    rw [Function.comp_apply, if_pos hi]
    exact (ha i hi k0 hk0).targetReset.timeReset now

theorem Confirmed.armed {now : ℚ} {p : Pending} {k : Core} {a b : State} (h : Confirmed now p k a b) (ha : Armed a) :
    Armed b := by
  refine @armed_of_cases now a b ha fun i _ => ?_
  by_cases hi : i = p.slotIndex
  · subst hi
    refine Or.inr fun k' hk' => ?_
    rw [h.advanced] at hk'
    cases hk'
    exact fun _ _ => Option.some_ne_none now
  · exact Or.inl (h.others i hi)

/-! ## The steps that may disarm -/

theorem initialized_armed_iff {now old : ℚ} {a b : State} (h : Initialized now old a b) :
    Armed b ↔ ∀ i ∈ slotNumbers, ∀ k, core a i = some k → StaysArmed old k := by
  rw [armed_iff]
  constructor
  · intro hb i hi k hk
    obtain ⟨k', hk', hfrom⟩ := h.repaired i hi
    rcases hfrom with hfrom | ⟨hfrom, _⟩
    · rw [hk] at hfrom
      cases hfrom
      exact armed_repaired_iff.mp (hb i hi _ hk')
    · rw [hk] at hfrom
      cases hfrom
  · intro hall i hi kb hkb
    obtain ⟨k', hk', hfrom⟩ := h.repaired i hi
    rw [hk'] at hkb
    cases hkb
    apply armed_repaired_iff.mpr
    rcases hfrom with hfrom | ⟨_, r, rfl, _⟩
    · exact hall i hi k' hfrom
    · exact Or.inl (Nat.le_refl 1)

/-- What a started trigger does to its own slot. -/
theorem moved_armed_iff {now : ℚ} {k k' : Core} {s : Nat} (hk : k.Armed)
    (hk' : k' = (k.timeReset now).moved s ∨ k' = ((k.timeReset now).moved s).timeReset now) :
    k'.Armed ↔ k.resetSeconds ≤ 0 ∨ (k.timeReset now).lastUsed ≠ none ∨ s = (k.timeReset now).current := by
  have hk0 := hk.timeReset now
  have hreset : (k.timeReset now).resetSeconds = k.resetSeconds := by simp
  by_cases hoff : k.resetSeconds ≤ 0
  · refine ⟨fun _ => Or.inl hoff, fun _ => ?_⟩
    have hoff' : ((k.timeReset now).moved s).Armed := by
      intro _ hpos
      have hpos' : 0 < (k.timeReset now).resetSeconds := hpos
      rw [hreset] at hpos'
      exact absurd hpos' (not_lt.mpr hoff)
    rcases hk' with rfl | rfl
    · exact hoff'
    · exact hoff'.timeReset now
  · by_cases hused : (k.timeReset now).lastUsed = none
    · -- unused and armed: at step 1, so armed again exactly if it stays there
      have hone : (k.timeReset now).current = 1 := by
        by_contra hne
        exact hk0 hne (by rw [hreset]; exact not_le.mp hoff) hused
      have hsame : k' = (k.timeReset now).moved s := by
        rcases hk' with rfl | rfl
        · rfl
        · apply Core.timeReset_not_due
          apply Core.not_due_of_unused
          exact hused
      subst hsame
      constructor
      · intro harmed
        refine Or.inr (Or.inr ?_)
        by_contra hne
        refine harmed ?_ ?_ hused
        · intro hs
          rw [hone] at hne
          exact hne hs
        · show 0 < (k.timeReset now).resetSeconds
          rw [hreset]
          exact not_le.mp hoff
      · intro hor
        rcases hor with h | h | h
        · exact absurd h hoff
        · exact absurd hused h
        · rw [h, Core.moved_self]
          exact hk0
    · refine ⟨fun _ => Or.inr (Or.inl hused), fun _ => ?_⟩
      have hmoved : ((k.timeReset now).moved s).Armed := fun _ _ => hused
      rcases hk' with rfl | rfl
      · exact hmoved
      · exact hmoved.timeReset now

theorem triggered_armed_iff {st : State} (harmed : Armed st) (hon : Slots Core.OnChain st) (c : Client) (index : Nat) :
    Armed (triggerSlot c index st).2 ↔ TriggerArms c st index := by
  by_cases href : Refused st index
  · exact ⟨fun _ => Or.inl href, fun _ => (@triggerSlot_refused c index st href).2.polls.armed harmed⟩
  · obtain ⟨slot, hs, hi, _, hcomplete, hstart⟩ := @triggerSlot_started c index st href
    have hk := armed_iff.mp harmed index hi _ (core_of_slot hs)
    have honk : (coreOf slot).OnChain := hon.of_slot hi hs
    have hcore := (applyTimeReset_core c.getTime slot).1
    have hlast : (applyTimeReset c.getTime slot).2.lastUsed = ((coreOf slot).timeReset c.getTime).lastUsed :=
      congrArg Core.lastUsed hcore
    obtain ⟨k', hk', hor⟩ : ∃ k', core (triggerSlot c index st).2 index = some k' ∧
        (k' = ((coreOf slot).timeReset c.getTime).moved (stepToUse c slot) ∨
          k' = (((coreOf slot).timeReset c.getTime).moved (stepToUse c slot)).timeReset c.getTime) := by
      rcases hstart.core with hb | ⟨_, hb⟩
      · exact ⟨_, hb, Or.inl rfl⟩
      · exact ⟨_, hb, Or.inr rfl⟩
    have hown : Armed (triggerSlot c index st).2 ↔ k'.Armed := by
      rw [armed_iff]
      refine ⟨fun h => h index hi k' hk', fun h i him k hki => ?_⟩
      by_cases hii : i = index
      · subst hii
        rw [hk'] at hki
        cases hki
        exact h
      · rw [hstart.others i hii] at hki
        exact armed_iff.mp harmed i him k hki
    have hcond : TriggerArms c st index ↔ slot.resetSeconds ≤ 0 ∨ (applyTimeReset c.getTime slot).2.lastUsed ≠ none ∨
        KeepsStep c (applyTimeReset c.getTime slot).2 := by
      constructor
      · intro h
        rcases h with h | h
        · exact absurd h href
        · exact h slot hs
      · intro h
        refine Or.inr fun slot' hs' => ?_
        rw [hs] at hs'
        cases hs'
        exact h
    rw [hown, moved_armed_iff hk hor, hcond, ← stepToUse_eq_iff honk hcomplete, hlast]
    rfl

/-- From an armed state a step leaves all slots armed exactly if it meets `KeepsArmed`. -/
theorem armed_step_iff {st : State} (harmed : Armed st) (hon : Slots Core.OnChain st) (e : Step) :
    Armed (step st e) ↔ KeepsArmed st e := by
  obtain ⟨c, op⟩ := e
  unfold KeepsArmed
  dsimp only
  cases hk : op.kind with
  | shows => exact ⟨fun _ => trivial, fun _ => (step_shows (c := c) hk st).polls.armed harmed⟩
  | initializes => exact initialized_armed_iff (step_initializes (c := c) hk st)
  | edits =>
    refine ⟨fun _ => trivial, fun _ => ?_⟩
    rcases step_edits (c := c) hk st with ⟨_, hr⟩ | ⟨index, _, he⟩
    · exact hr.polls.armed harmed
    · exact he.armed harmed
  | triggers index =>
    obtain rfl := Op.eq_of_triggers hk
    exact triggered_armed_iff harmed hon c index
  | updates elapsed =>
    obtain rfl := Op.eq_of_updates hk
    refine ⟨fun _ => trivial, fun _ => ?_⟩
    rcases onUpdate_cases c elapsed st with ⟨_, _, _, hr⟩ | ⟨p, _, ⟨_, _, _, hr⟩ | ⟨_, _, k, hc⟩⟩
    · exact hr.armed harmed
    · exact hr.armed harmed
    · exact hc.armed harmed
  | targets => exact ⟨fun _ => trivial, fun _ => (step_targets (c := c) hk st).armed harmed⟩
  | stops =>
    rw [step_stops hk st]
    exact ⟨fun _ => trivial, fun _ => harmed⟩
  | fails =>
    rw [step_fails hk st]
    refine ⟨fun _ => trivial, fun _ => armed_iff.mpr fun i hi k hk' => ?_⟩
    rw [core_spellFailed] at hk'
    exact armed_iff.mp harmed i hi k hk'

/-! ## Whole runs -/

/-- A run from login with any saved database is armed throughout exactly if the login
    leaves every saved slot armed and every step meets `KeepsArmed` where it happens. -/
theorem always_armed_iff (db : State) (es : List Step) :
    (∀ k ≤ es.length, Armed (stateAt step (initializeDB db) es k)) ↔
      (∀ i ∈ slotNumbers, ∀ k, core db i = some k → StaysArmed (oldResetSeconds db) k) ∧
        Throughout step KeepsArmed (initializeDB db) es := by
  have hinit := initializeDB_initialized 0 db
  have hon : Slots Core.OnChain (initializeDB db) := slots_initialized onChain_inv (fun _ _ _ _ => onChain_repaired _ _) hinit
  have hstart := initialized_armed_iff hinit
  have hrun : Armed (initializeDB db) →
      ((∀ k ≤ es.length, Armed (stateAt step (initializeDB db) es k) ∧ Slots Core.OnChain (stateAt step (initializeDB db) es k)) ↔
        Throughout step KeepsArmed (initializeDB db) es) := fun harmed =>
    @holds_throughout_iff State Step step (fun st => Armed st ∧ Slots Core.OnChain st) KeepsArmed
      (fun st e hgood => ⟨fun h => (armed_step_iff hgood.1 hgood.2 e).mp h.1,
        fun h => ⟨(armed_step_iff hgood.1 hgood.2 e).mpr h, slots_step onChain_inv hgood.2 e⟩⟩) _ ⟨harmed, hon⟩ es
  constructor
  · intro hall
    have harmed : Armed (initializeDB db) := hall 0 (Nat.zero_le _)
    refine ⟨hstart.mp harmed, (hrun harmed).mp fun k hk => ⟨hall k hk, ?_⟩⟩
    exact @inv_stateAt State Step step (Slots Core.OnChain) (fun _ e h => slots_step onChain_inv h e) _ hon es k
  · intro ⟨hsaved, hsteps⟩ k hk
    exact ((hrun (hstart.mpr hsaved)).mpr hsteps k hk).1

/-- Not every reachable state is armed: after the first cast is confirmed, slot 1 is at
    step 2; a loading screen at 4 clears when it was used. -/
theorem loading_screen_disarms : ¬ ∀ (db : State) (es : List Step), Armed (run step (initializeDB db) es) := by
  intro h
  have harmed := h noDB (buildChain ++ castFirst ++ [(bookClient 4, .onEvent .PLAYER_ENTERING_WORLD)])
  have hslot : ((run step (initializeDB noDB)
      (buildChain ++ castFirst ++ [(bookClient 4, .onEvent .PLAYER_ENTERING_WORLD)])).slots 1).map
        (fun slot => (slot.current, slot.resetSeconds, slot.lastUsed)) = some (2, 10, none) := by decide +kernel
  obtain ⟨slot, hs, hval⟩ := Option.map_eq_some_iff.mp hslot
  simp only [Prod.mk.injEq] at hval
  obtain ⟨hc, hr, hl⟩ := hval
  refine harmed 1 (by decide) slot hs ?_ ?_ hl
  · rw [hc]; decide
  · rw [hr]; decide +kernel

end Nostalgia.MacroManager
