/-
  Nostalgia.MacroManager.InFlight — at most one cast in flight, each confirmed at most
  once and never against an edited chain.

  The pending cast is a token: only a trigger that issued something grants it, and only
  while nobody holds it (`pending_step`). Table identities say which chain a slot holds:
  from one instant to a later one a slot keeps its chain, or it holds one whose entries
  did not exist before (`Inherits`). Since `ConfirmPendingCast` compares the entry's
  identity, a chain that replaced the triggered one can never be advanced.

  Proved, for every run from an initialised state (`casts_confirmed_once`):
  - while a cast is pending nothing is issued;
  - every advance has a cause of its own: an earlier trigger of that slot that issued a
    cast, with no failure event since, on the same chain object, one cyclic step on;
  - after every `OnUpdate` the pending cast is at most 30 seconds old and not yet due.
-/

import Nostalgia.MacroManager.Casting

namespace Nostalgia.MacroManager

open Nostalgia.Lua Nostalgia.Machine

/-! ## Which chain a slot holds -/

/-- From `a` to `b` slot `i` keeps its chain, or gets one made since. -/
def InheritsAt (a b : State) (i : Nat) : Prop :=
  ∀ kb, core b i = some kb → (∃ ka, core a i = some ka ∧ kb.chain = ka.chain ∧ kb.refs = ka.refs) ∨
    (a.nextRef ≤ kb.chain ∧ kb.chain < b.nextRef ∧ ∀ r, some r ∈ kb.refs → a.nextRef ≤ r ∧ r < b.nextRef)

structure Inherits (a b : State) : Prop where
  nextRef : a.nextRef ≤ b.nextRef
  chain : ∀ i, InheritsAt a b i

theorem Inherits.refl (a : State) : Inherits a a := ⟨Nat.le_refl _, fun _ kb h => Or.inl ⟨kb, h, rfl, rfl⟩⟩

theorem Inherits.trans {a b d : State} (h : Inherits a b) (h' : Inherits b d) : Inherits a d := by
  have hab := h.nextRef
  have hbd := h'.nextRef
  refine ⟨Nat.le_trans hab hbd, ?_⟩
  intro i kd hd
  rcases h'.chain i kd hd with ⟨kb, hb, hc, hr⟩ | ⟨h1, h2, h3⟩
  · rcases h.chain i kb hb with ⟨ka, ha, hc', hr'⟩ | ⟨h1, h2, h3⟩
    · exact Or.inl ⟨ka, ha, hc.trans hc', hr.trans hr'⟩
    · refine Or.inr ⟨by omega, by omega, ?_⟩
      intro r hmem
      have := h3 r (hr ▸ hmem)
      omega
  · refine Or.inr ⟨by omega, h2, ?_⟩
    intro r hmem
    have := h3 r hmem
    omega

theorem inheritsAt_map {a b : State} {i : Nat} {f : Core → Core} (hf : ∀ k, (f k).chain = k.chain ∧ (f k).refs = k.refs)
    (h : core b i = (core a i).map f) : InheritsAt a b i := by
  intro kb hb
  rw [h] at hb
  obtain ⟨ka, ha, rfl⟩ := Option.map_eq_some_iff.mp hb
  exact Or.inl ⟨ka, ha, hf ka⟩

theorem inheritsAt_same {a b : State} {i : Nat} (h : core b i = core a i) : InheritsAt a b i := by
  intro kb hb
  exact Or.inl ⟨kb, h ▸ hb, rfl, rfl⟩

theorem inheritsAt_polled {now : ℚ} {a b : State} {i : Nat}
    (h : core b i = core a i ∨ core b i = (core a i).map (Core.timeReset now)) : InheritsAt a b i := by
  rcases h with h | h
  · exact inheritsAt_same h
  · exact inheritsAt_map (fun k => ⟨by simp, by simp⟩) h

theorem Polls.inherits {now : ℚ} {P : Nat → Prop} {a b : State} (h : Polls now P a b) : Inherits a b :=
  ⟨h.nextRef, fun i => inheritsAt_polled ((h.core_cases i).imp_right And.right)⟩

theorem Initialized.inherits {now old : ℚ} {a b : State} (h : Initialized now old a b) : Inherits a b := by
  refine ⟨h.nextRef, fun i => ?_⟩
  by_cases hi : i ∈ slotNumbers
  · intro kb hb
    obtain ⟨k, hk, hfrom⟩ := h.repaired i hi
    rw [hk] at hb
    cases hb
    rcases hfrom with ha | ⟨_, r, rfl, hle, hlt⟩
    · exact Or.inl ⟨k, ha, rfl, rfl⟩
    · exact Or.inr ⟨hle, hlt, by simp [Core.repaired, Core.empty, coreOf, newSlot]⟩
  · exact inheritsAt_polled (h.others i hi)

theorem Edited.inherits {now : ℚ} {P : Nat → Prop} {index : Nat} {a b : State} (h : Edited now P index a b) :
    Inherits a b := by
  refine ⟨h.nextRef, fun i => ?_⟩
  by_cases hi : i = index
  · subst hi
    intro kb hb
    obtain ⟨k, hk, hf⟩ := h.installed
    rw [hk] at hb
    cases hb
    exact Or.inr ⟨hf.chain.1, hf.chain.2, hf.entries⟩
  · by_cases hP : P i
    · exact inheritsAt_polled (Or.inr (h.polled i hi hP))
    · exact inheritsAt_same (h.kept i hi hP)

theorem Targeted.inherits {now : ℚ} {a b : State} (h : Targeted now a b) : Inherits a b := by
  have hreset : ∀ (i : Nat) (k : Core), (if i ∈ slotNumbers then k.targetReset else k).chain = k.chain ∧
      (if i ∈ slotNumbers then k.targetReset else k).refs = k.refs := by
    intro i k
    unfold Core.targetReset
    split
    · split <;> exact ⟨rfl, rfl⟩
    · exact ⟨rfl, rfl⟩
  refine ⟨h.nextRef, fun i => ?_⟩
  rcases h.cores i with hb | hb
  · exact inheritsAt_map (hreset i) hb
  · rw [Option.map_map] at hb
    exact inheritsAt_map (fun k => by simpa using hreset i k) hb

theorem Confirmed.inherits {now : ℚ} {p : Pending} {k : Core} {a b : State} (h : Confirmed now p k a b) :
    Inherits a b := by
  refine ⟨h.nextRef, fun i => ?_⟩
  by_cases hi : i = p.slotIndex
  · subst hi
    exact inheritsAt_map (f := Core.advanced now) (fun k => ⟨rfl, rfl⟩) (by rw [h.before.core, h.advanced]; rfl)
  · exact inheritsAt_polled (h.others i hi)

theorem inherits_triggered (c : Client) (index : Nat) (st : State) : Inherits st (triggerSlot c index st).2 := by
  by_cases href : Refused st index
  · exact (triggerSlot_refused (c := c) href).2.polls.inherits
  · obtain ⟨slot, hs, _, _, _, hstart⟩ := triggerSlot_started (c := c) href
    refine ⟨hstart.nextRef, fun i => ?_⟩
    by_cases hi : i = index
    · subst hi
      rcases hstart.core with hb | ⟨_, hb⟩
      · exact inheritsAt_map (f := fun k => (k.timeReset c.getTime).moved (stepToUse c slot))
          (fun k => by simp [Core.moved]) (by rw [hb, core_of_slot hs]; rfl)
      · exact inheritsAt_map (f := fun k => ((k.timeReset c.getTime).moved (stepToUse c slot)).timeReset c.getTime)
          (fun k => by simp [Core.moved]) (by rw [hb, core_of_slot hs]; rfl)
    · exact inheritsAt_same (hstart.others i hi)

theorem step_inherits (st : State) (e : Step) : Inherits st (step st e) := by
  obtain ⟨c, op⟩ := e
  cases hk : op.kind with
  | shows => exact (step_shows (c := c) hk st).polls.inherits
  | initializes => exact (step_initializes (c := c) hk st).inherits
  | edits =>
    rcases step_edits (c := c) hk st with ⟨_, hr⟩ | ⟨index, _, he⟩
    · exact hr.polls.inherits
    · exact he.inherits
  | triggers index =>
    obtain rfl := Op.eq_of_triggers hk
    exact inherits_triggered c index st
  | updates elapsed =>
    obtain rfl := Op.eq_of_updates hk
    rcases onUpdate_cases c elapsed st with ⟨_, _, _, hr⟩ | ⟨p, _, ⟨_, _, _, hr⟩ | ⟨_, _, k, hc⟩⟩
    · exact hr.inherits
    · exact hr.inherits
    · exact hc.inherits
  | targets => exact (step_targets hk st).inherits
  | stops =>
    rw [step_stops hk st]
    exact ⟨Nat.le_refl _, fun i => inheritsAt_same rfl⟩
  | fails =>
    rw [step_fails hk st]
    exact ⟨(spellFailed_spec st).2.2, fun i => inheritsAt_same (core_spellFailed st i)⟩

/-- Every identity in use was handed out. -/
def Allocated (st : State) : Prop :=
  ∀ i k, core st i = some k → k.chain < st.nextRef ∧ ∀ r, some r ∈ k.refs → r < st.nextRef

theorem Inherits.allocated {a b : State} (h : Inherits a b) (ha : Allocated a) : Allocated b := by
  intro i kb hb
  have hle := h.nextRef
  rcases h.chain i kb hb with ⟨ka, hka, hc, hr⟩ | ⟨_, h2, h3⟩
  · obtain ⟨h1, h2⟩ := ha i ka hka
    refine ⟨by omega, ?_⟩
    intro r hmem
    have := h2 r (hr ▸ hmem)
    omega
  · exact ⟨h2, fun r hmem => (h3 r hmem).2⟩

/-- A slot that holds an entry known at `a` still holds the chain it held at `a`. -/
theorem Inherits.same_chain {a b : State} (h : Inherits a b) {i s r : Nat} {kb : Core} (hb : core b i = some kb)
    (hentry : get kb.refs s = some r) (hold : r < a.nextRef) :
    ∃ ka, core a i = some ka ∧ kb.chain = ka.chain ∧ kb.refs = ka.refs := by
  rcases h.chain i kb hb with hsame | ⟨_, _, hnew⟩
  · exact hsame
  · have := hnew r (get_mem hentry)
    omega

/-! ## The pending cast is a token -/

/-- What stays of a pending cast until it is confirmed or dropped. -/
def Pending.key (p : Pending) : Nat × Nat × Nat := (p.slotIndex, p.step, p.spell)

/-- The step triggered slot `p.slotIndex`, issued something and left `p` behind. -/
structure Grants (s : State) (e : Step) (p : Pending) : Prop where
  trigger : e.2 = .triggerSlot p.slotIndex
  issued : ∃ what, (stepOut e.1 e.2 s).1 = .issued p.slotIndex what
  core : ∃ k, core (step s e) p.slotIndex = some k ∧ k.current = p.step ∧ 1 ≤ p.step ∧ p.step ≤ getn k.refs ∧
    get k.refs p.step = some p.spell

/-- The step left the pending cast what it was, but for the time of its confirmation. -/
structure Keeps (e : Step) (p p' : Pending) : Prop where
  slotIndex : p'.slotIndex = p.slotIndex
  step : p'.step = p.step
  spell : p'.spell = p.spell
  unfailed : e.2.kind ≠ .fails

theorem keeps_same {s s' : State} {e : Step} {p' : Pending} (h : s'.pendingCast = s.pendingCast)
    (hp : s'.pendingCast = some p') (hk : e.2.kind ≠ .fails) : ∃ p, s.pendingCast = some p ∧ Keeps e p p' :=
  ⟨p', h ▸ hp, rfl, rfl, rfl, hk⟩

theorem pending_triggered {c : Client} {index : Nat} {s : State} {p' : Pending}
    (hp : (step s (c, .triggerSlot index)).pendingCast = some p') :
    (s.pendingCast = none ∧ Grants s (c, .triggerSlot index) p') ∨
      ∃ p, s.pendingCast = some p ∧ Keeps (c, .triggerSlot index) p p' := by
  have hstep : step s (c, .triggerSlot index) = (triggerSlot c index s).2 := rfl
  by_cases href : Refused s index
  · have hr := (triggerSlot_refused (c := c) href).2
    exact Or.inr (keeps_same hr.pendingCast hp (by simp [Op.kind]))
  · obtain ⟨slot, _, _, hfree, hcomplete, hstart⟩ := triggerSlot_started (c := c) href
    have hle := stepToUse_le c hcomplete
    rw [hstep] at hp
    rcases hstart.pendingCast with hn | ⟨what, spell, successAt, hwhat, hsome, hget⟩
    · rw [hn] at hp; cases hp
    · rw [hsome] at hp
      cases hp
      refine Or.inl ⟨hfree, rfl, ⟨what, ?_⟩, ?_⟩
      · simp only [stepOut, hwhat]
      · rcases hstart.core with hb | ⟨hnone, _⟩
        · refine ⟨_, hb, rfl, hle.1, ?_, ?_⟩
          · simpa [Core.moved] using hle.2
          · simpa [Core.moved] using hget
        · rw [hnone] at hsome; cases hsome

theorem pending_step (s : State) (e : Step) (p' : Pending) (hp : (step s e).pendingCast = some p') :
    (s.pendingCast = none ∧ Grants s e p') ∨ ∃ p, s.pendingCast = some p ∧ Keeps e p p' := by
  obtain ⟨c, op⟩ := e
  cases hk : op.kind with
  | shows => exact Or.inr (keeps_same (step_shows (c := c) hk s).pendingCast hp (by simp [hk]))
  | initializes => exact Or.inr (keeps_same (step_initializes (c := c) hk s).pendingCast hp (by simp [hk]))
  | edits =>
    rcases step_edits (c := c) hk s with ⟨_, hr⟩ | ⟨index, _, he⟩
    · exact Or.inr (keeps_same hr.pendingCast hp (by simp [hk]))
    · exact Or.inr (keeps_same he.pendingCast hp (by simp [hk]))
  | triggers index =>
    obtain rfl := Op.eq_of_triggers hk
    exact pending_triggered hp
  | updates elapsed =>
    obtain rfl := Op.eq_of_updates hk
    have hstep : step s (c, .onUpdate elapsed) = (onUpdate c elapsed s).2 := rfl
    rw [hstep] at hp
    rcases onUpdate_cases c elapsed s with ⟨_, _, hs, _⟩ | ⟨p, _, ⟨_, _, hn, _⟩ | ⟨_, _, k, hc⟩⟩
    · exact Or.inr (keeps_same hs hp (by simp [hk]))
    · rw [hn] at hp; cases hp
    · rw [hc.pendingCast] at hp; cases hp
  | targets =>
    rcases (step_targets (c := c) hk s).pendingCast with hn | ⟨hs, _⟩
    · rw [hn] at hp; cases hp
    · exact Or.inr (keeps_same hs hp (by simp [hk]))
  | stops =>
    rw [step_stops hk s, pending_spellStopped] at hp
    obtain ⟨p, hps, rfl⟩ := Option.map_eq_some_iff.mp hp
    exact Or.inr ⟨p, hps, rfl, rfl, rfl, by simp [hk]⟩
  | fails =>
    rw [step_fails hk s, (spellFailed_spec s).1] at hp
    cases hp

/-- While a cast is pending no entry point issues anything. -/
theorem pending_blocks {s : State} (h : s.pendingCast ≠ none) (e : Step) (i : Nat) (what : Issued) :
    (stepOut e.1 e.2 s).1 ≠ .issued i what := by
  obtain ⟨c, op⟩ := e
  cases op with
  | triggerSlot index =>
    have href : Refused s index := Or.inr (Or.inl h)
    simp only [stepOut, (triggerSlot_refused (c := c) href).1]
    simp
  | onUpdate elapsed =>
    simp only [stepOut]
    split <;> simp
  | _ => simp [stepOut]

/-- An advance is a confirmation by `OnUpdate`. -/
theorem advanced_confirmed {s : State} {e : Step} {i : Nat} (h : (stepOut e.1 e.2 s).1 = .advanced i) :
    ∃ elapsed p k, e.2 = .onUpdate elapsed ∧ s.pendingCast = some p ∧ p.slotIndex = i ∧
      Confirmed e.1.getTime p k s (step s e) := by
  obtain ⟨c, op⟩ := e
  cases op with
  | onUpdate elapsed =>
    simp only [stepOut] at h
    rcases onUpdate_cases c elapsed s with ⟨_, h1, _⟩ | ⟨p, _, ⟨_, h1, _⟩ | ⟨_, h1, k, hc⟩⟩
    · rw [h1] at h; cases h
    · rw [h1] at h; cases h
    · rw [h1] at h
      cases h
      exact ⟨elapsed, p, k, rfl, by assumption, rfl, hc⟩
  | triggerSlot index =>
    simp only [stepOut] at h
    split at h <;> cases h
  | _ => simp [stepOut] at h

/-- After `OnUpdate` a pending cast is neither due nor too old. -/
theorem onUpdate_bounds {c : Client} {elapsed : ℚ} {s : State} {p : Pending}
    (hp : (step s (c, .onUpdate elapsed)).pendingCast = some p) :
    c.getTime - p.startedAt ≤ PENDING_TIMEOUT ∧ ∀ t, p.successAt = some t → ¬ t ≤ c.getTime := by
  have hstep : step s (c, .onUpdate elapsed) = (onUpdate c elapsed s).2 := rfl
  rw [hstep] at hp
  rcases onUpdate_cases c elapsed s with ⟨hwait, _, hs, _⟩ | ⟨_, _, ⟨_, _, hn, _⟩ | ⟨_, _, k, hc⟩⟩
  · obtain ⟨hdue, hexp⟩ := hwait p (hs ▸ hp)
    refine ⟨not_lt.mp hexp, ?_⟩
    intro t ht hle
    apply hdue
    simp [Pending.Due, ht, hle]
  · rw [hn] at hp; cases hp
  · rw [hc.pendingCast] at hp; cases hp

/-! ## Whole runs -/

/-- A saved database before login: no cast waits, and its tables have identities. -/
structure SavedDB where
  state : State
  idle : state.pendingCast = none
  allocated : Allocated state

instance : Inhabited SavedDB := ⟨noDB, rfl, fun _ _ h => by simp [core, noDB] at h⟩

section Runs

variable (s : State) (es : List Step)

/-- Step `k` advances slot `i`. -/
def AdvancesAt (k i : Nat) : Prop := ∃ e, es[k]? = some e ∧ (stepOut e.1 e.2 (stateAt step s es k)).1 = .advanced i

/-- The advance of slot `i` at step `k` is due to the trigger at step `j`. -/
structure CausedBy (j k i : Nat) : Prop where
  before : j < k
  /-- Step `j` triggers slot `i` with no cast pending, and issues something. -/
  free : (stateAt step s es j).pendingCast = none
  issued : ∃ c what, es[j]? = some (c, .triggerSlot i) ∧
    (stepOut c (.triggerSlot i) (stateAt step s es j)).1 = .issued i what
  unfailed : ∀ m e, j < m → m < k → es[m]? = some e → e.2.kind ≠ .fails
  /-- From the triggered step of the chain installed then to its cyclic successor. -/
  moves : ∃ e p k0 k1, es[k]? = some e ∧ (stateAt step s es (j + 1)).pendingCast = some p ∧ p.slotIndex = i ∧
    core (stateAt step s es (j + 1)) i = some k0 ∧ k0.current = p.step ∧
    core (stateAt step s es k) i = some k1 ∧ k1.current = p.step ∧ k1.chain = k0.chain ∧ k1.refs = k0.refs ∧
    core (stateAt step s es (k + 1)) i =
      some { k1 with current := p.step % getn k1.refs + 1, lastUsed := some e.1.getTime } ∧
    ∀ i', i' ≠ i → core (stateAt step s es (k + 1)) i' = core (stateAt step s es k) i' ∨
      core (stateAt step s es (k + 1)) i' = (core (stateAt step s es k) i').map (Core.timeReset e.1.getTime)

variable {s es}

/-- Every advance has a cause, which the token's history gives. -/
theorem advance_caused (hidle : s.pendingCast = none) (halloc : Allocated s) {k i : Nat} (h : AdvancesAt s es k i) :
    ∃ j, Origin step State.pendingCast Grants (fun _ => Keeps) s es j k ∧ CausedBy s es j k i := by
  obtain ⟨e, he, hadv⟩ := h
  obtain ⟨elapsed, p, k1, hop, hp, hi, hconf⟩ := advanced_confirmed hadv
  have horigin : ∃ j, Origin step State.pendingCast Grants (fun _ => Keeps) s es j k :=
    token_origin pending_step hidle es k (Nat.le_of_lt (lt_of_getElem? he)) p hp
  obtain ⟨j, hj⟩ := horigin
  obtain ⟨ej, p0, hej, hgrant, hp0⟩ := hj.granted
  have hkey : p.key = p0.key := hj.key_eq (fun _ _ a b hk => by
    rw [Pending.key, Pending.key, hk.slotIndex, hk.step, hk.spell]) hp0 hp
  simp only [Pending.key, Prod.mk.injEq] at hkey
  obtain ⟨hslot, hstep, hspell⟩ := hkey
  have hi0 : p0.slotIndex = i := hslot.symm.trans hi
  refine ⟨j, hj, hj.before, hj.free, ?_, ?_, ?_⟩
  · obtain ⟨what, hwhat⟩ := hgrant.issued
    have htrigger := hgrant.trigger
    rw [htrigger, hi0] at hwhat
    rw [hi0] at htrigger
    exact ⟨ej.1, what, by rw [hej, ← htrigger], hwhat⟩
  · intro m em h1 h2 hem
    obtain ⟨em', a, b, hem', _, _, hkeep⟩ := hj.kept m h1 h2
    rw [hem] at hem'
    cases hem'
    exact hkeep.unfailed
  · obtain ⟨k0, hk0, hcur0, hge, hle, hget0⟩ := hgrant.core
    rw [← stateAt_succ step s hej, hi0] at hk0
    -- the entry existed at the trigger, so the slot still holds the chain installed then
    have hinh : Inherits (stateAt step s es (j + 1)) (stateAt step s es k) :=
      rel_stateAt step Inherits.refl (fun _ _ _ => Inherits.trans) step_inherits s es hj.before
    have hinh0 : Inherits s (stateAt step s es (j + 1)) :=
      rel_stateAt step Inherits.refl (fun _ _ _ => Inherits.trans) step_inherits s es (Nat.zero_le (j + 1))
    have hold : p.spell < (stateAt step s es (j + 1)).nextRef := by
      rw [hspell]
      exact (hinh0.allocated halloc i k0 hk0).2 _ (get_mem hget0)
    have hk1 : core (stateAt step s es k) i = some k1 := by rw [← hi]; exact hconf.before.core
    obtain ⟨k0', hk0', hchain, hrefs⟩ := hinh.same_chain hk1 hconf.before.entry hold
    rw [hk0] at hk0'
    cases hk0'
    have hcur1 := hconf.before.current
    have hnext : k1.next = p.step % getn k1.refs + 1 := by
      rw [Core.next_eq, hcur1]
      rw [hcur1, hrefs, hstep]
      exact hle
    refine ⟨e, p0, k0, k1, he, hp0, hi0, hk0, hcur0, hk1, hcur1.trans hstep, hchain, hrefs, ?_, ?_⟩
    · rw [stateAt_succ step s he, ← hi, hconf.advanced, Core.advanced, hnext, hstep]
    · intro i' hi'
      rw [stateAt_succ step s he]
      exact hconf.others i' (by rw [hi]; exact hi')

theorem advance_unique {k i i' : Nat} (h : AdvancesAt s es k i) (h' : AdvancesAt s es k i') : i = i' := by
  obtain ⟨e, he, hadv⟩ := h
  obtain ⟨e', he', hadv'⟩ := h'
  rw [he] at he'
  cases he'
  rw [hadv] at hadv'
  cases hadv'
  rfl

/-- An advance ends the holding. -/
theorem advance_frees {k i : Nat} (h : AdvancesAt s es k i) :
    (stateAt step s es k).pendingCast ≠ none ∧ (stateAt step s es (k + 1)).pendingCast = none := by
  obtain ⟨e, he, hadv⟩ := h
  obtain ⟨_, p, k1, _, hp, _, hconf⟩ := advanced_confirmed hadv
  refine ⟨by rw [hp]; simp, ?_⟩
  rw [stateAt_succ step s he]
  exact hconf.pendingCast

/-- For every run from an initialised state: while a cast is pending nothing is issued;
    every advance has a cause, and no two have the same; and after `OnUpdate` a pending
    cast is at most 30 seconds old and not due. -/
theorem casts_confirmed_once (db : SavedDB) (es : List Step) :
    (∀ k e, es[k]? = some e → (stateAt step (initializeDB db.state) es k).pendingCast ≠ none →
      ∀ i what, (stepOut e.1 e.2 (stateAt step (initializeDB db.state) es k)).1 ≠ .issued i what) ∧
    (∃ cause : Nat → Nat,
      (∀ k i, AdvancesAt (initializeDB db.state) es k i → CausedBy (initializeDB db.state) es (cause k) k i) ∧
      ∀ k k' i i', AdvancesAt (initializeDB db.state) es k i → AdvancesAt (initializeDB db.state) es k' i' →
        cause k = cause k' → k = k') ∧
    ∀ k c elapsed p, es[k]? = some (c, .onUpdate elapsed) →
      (stateAt step (initializeDB db.state) es (k + 1)).pendingCast = some p →
      c.getTime - p.startedAt ≤ PENDING_TIMEOUT ∧ ∀ t, p.successAt = some t → ¬ t ≤ c.getTime := by
  have hinit := initializeDB_initialized 0 db.state
  have hidle : (initializeDB db.state).pendingCast = none := hinit.pendingCast.trans db.idle
  have halloc : Allocated (initializeDB db.state) := hinit.inherits.allocated db.allocated
  refine ⟨?_, ?_, ?_⟩
  · intro k e _ hheld i what
    exact pending_blocks hheld e i what
  · have hcause : ∀ k, ∃ j, ∀ i, AdvancesAt (initializeDB db.state) es k i →
        Origin step State.pendingCast Grants (fun _ => Keeps) (initializeDB db.state) es j k ∧
          CausedBy (initializeDB db.state) es j k i := by
      intro k
      by_cases hadv : ∃ i, AdvancesAt (initializeDB db.state) es k i
      · obtain ⟨i, hi⟩ := hadv
        obtain ⟨j, hj⟩ := advance_caused hidle halloc hi
        exact ⟨j, fun i' hi' => advance_unique hi hi' ▸ hj⟩
      · exact ⟨0, fun i hi => absurd ⟨i, hi⟩ hadv⟩
    choose cause hcause using hcause
    refine ⟨cause, fun k i hi => (hcause k i hi).2, ?_⟩
    intro k k' i i' hi hi' heq
    have hfree := advance_frees hi
    have hfree' := advance_frees hi'
    have hj := (hcause k i hi).1
    have hj' := (hcause k' i' hi').1
    rcases Nat.lt_trichotomy k k' with hlt | rfl | hlt
    · exact absurd heq (tokens_distinct hj hj' hfree.2 hfree'.1 hlt)
    · rfl
    · exact absurd heq.symm (tokens_distinct hj' hj hfree'.2 hfree.1 hlt)
  · intro k c elapsed p he hp
    rw [stateAt_succ step _ he] at hp
    exact onUpdate_bounds hp

end Runs

end Nostalgia.MacroManager
