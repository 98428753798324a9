/-
  Nostalgia.MacroManager.Wellformed — the representation of chains over whole runs.

  Six operations write a slot's position, saving and clearing swap the chain under a
  pending cast, and the editor can hold holes. From a fresh database every run keeps:
  - each of the 14 slots holds 0 or 2 to 4 steps without holes, a position on the
    chain and a reset time between 0 and 3600;
  - a pending cast names one of them.

  Every change of a core is one of six, so a property of cores is kept by all entry
  points once it is kept by these (`CoreInv`, `slots_step`).
  Proved: `wellFormed_inv`, `step_inv` and `slots_wellformed` (every run), with its
  consequence that `GetEffectiveStep` finds a step in every non-empty chain.
-/

import Nostalgia.MacroManager.InFlight

namespace Nostalgia.MacroManager

open Nostalgia.Lua Nostalgia.Machine

theorem validReset_iff {x : ℚ} : validReset x = true ↔ 0 ≤ x ∧ x ≤ 3600 := by
  unfold validReset
  rw [Bool.and_eq_true]
  exact ⟨fun h => ⟨of_decide_eq_true h.1, of_decide_eq_true h.2⟩, fun h => ⟨decide_eq_true h.1, decide_eq_true h.2⟩⟩

/-! ## One chain -/

structure Core.WellFormed (k : Core) : Prop where
  full : Full k.refs
  length : k.refs.length = 0 ∨ (MIN_SPELLS ≤ k.refs.length ∧ k.refs.length ≤ MAX_SPELLS)
  current : 1 ≤ k.current ∧ k.current ≤ max 1 k.refs.length
  reset : validReset k.resetSeconds = true

namespace Core.WellFormed

variable {k : Core}

theorem at_one (h : k.WellFormed) {l : Option ℚ} : Core.WellFormed { k with current := 1, lastUsed := l } :=
  ⟨h.full, h.length, ⟨Nat.le_refl _, Nat.le_max_left _ _⟩, h.reset⟩

theorem timeReset (h : k.WellFormed) (now : ℚ) : (k.timeReset now).WellFormed := by
  rcases Core.timeReset_cases now k with hk | ⟨_, hk⟩
  · rw [hk]; exact h
  · rw [hk]; exact h.at_one

theorem targetReset (h : k.WellFormed) : k.targetReset.WellFormed := by
  unfold Core.targetReset
  split
  · exact h.at_one
  · exact h

theorem repaired (h : k.WellFormed) {old : ℚ} (hold : validReset old = true) : (k.repaired old).WellFormed := by
  have hn : getn k.refs = k.refs.length := getn_eq_length h.full
  refine ⟨h.full, h.length, ?_, ?_⟩
  · have hc := h.current
    simp only [Core.repaired, normalised, hn]
    split <;> omega
  · simp only [Core.repaired]
    split
    · rename_i hv; exact hv
    · exact hold

theorem moved (h : k.WellFormed) {s : Nat} (h1 : 1 ≤ s) (h2 : s ≤ getn k.refs) : (k.moved s).WellFormed := by
  have hn : getn k.refs = k.refs.length := getn_eq_length h.full
  exact ⟨h.full, h.length, ⟨h1, by simp only [Core.moved]; omega⟩, h.reset⟩

theorem advanced (h : k.WellFormed) (now : ℚ) : (k.advanced now).WellFormed := by
  have hn : getn k.refs = k.refs.length := getn_eq_length h.full
  refine ⟨h.full, h.length, ?_, h.reset⟩
  have hc := h.current
  simp only [Core.advanced, Core.next, hn]
  split <;> omega

end Core.WellFormed

theorem Fresh.wellFormed {lo hi : Nat} {k : Core} (h : Fresh lo hi k) : k.WellFormed := by
  refine ⟨h.full, h.length, ?_, h.reset⟩
  rw [h.current]
  exact ⟨Nat.le_refl _, Nat.le_max_left _ _⟩

/-! ## What every change of a core keeps -/

/-- A property of cores that every change of a core keeps. -/
structure CoreInv (Q : Core → Prop) : Prop where
  timeReset : ∀ {k}, Q k → ∀ now, Q (k.timeReset now)
  targetReset : ∀ {k}, Q k → Q k.targetReset
  repaired : ∀ {k}, Q k → ∀ {old}, validReset old = true → Q (k.repaired old)
  moved : ∀ {k}, Q k → ∀ {s}, 1 ≤ s → s ≤ getn k.refs → Q (k.moved s)
  advanced : ∀ {k}, Q k → ∀ now, Q (k.advanced now)
  fresh : ∀ {lo hi k}, Fresh lo hi k → Q k

/-- Every slot has a core with `Q`. -/
def Slots (Q : Core → Prop) (st : State) : Prop := ∀ i ∈ slotNumbers, ∃ k, core st i = some k ∧ Q k

theorem Slots.of_slot {Q : Core → Prop} {st : State} (h : Slots Q st) {i : Nat} (hi : i ∈ slotNumbers) {slot : Slot}
    (hs : st.slots i = some slot) : Q (coreOf slot) := by
  obtain ⟨k, hk, hq⟩ := h i hi
  rw [core_of_slot hs] at hk
  cases hk
  exact hq

section Slots

variable {Q : Core → Prop} (hQ : CoreInv Q) {now : ℚ} {a b : State}

include hQ

theorem slots_polled {i : Nat} {k : Core} (hk : core a i = some k) (hq : Q k)
    (h : core b i = core a i ∨ core b i = (core a i).map (Core.timeReset now)) : ∃ k', core b i = some k' ∧ Q k' := by
  rcases h with h | h
  · exact ⟨k, h.trans hk, hq⟩
  · exact ⟨k.timeReset now, by rw [h, hk]; rfl, hQ.timeReset hq now⟩

theorem slots_polls {P : Nat → Prop} (h : Slots Q a) (hp : Polls now P a b) : Slots Q b := by
  intro i hi
  obtain ⟨k, hk, hq⟩ := h i hi
  exact slots_polled hQ hk hq ((hp.core_cases i).imp_right And.right)

theorem slots_initialized {old : ℚ} (hwas : ∀ i ∈ slotNumbers, ∀ k, core a i = some k → Q (k.repaired old))
    (hinit : Initialized now old a b) : Slots Q b := by
  intro i hi
  obtain ⟨k, hk, hfrom⟩ := hinit.repaired i hi
  refine ⟨_, hk, ?_⟩
  rcases hfrom with hk' | ⟨_, r, rfl, _⟩
  · exact hwas i hi k hk'
  · exact hQ.repaired (hQ.fresh (fresh_newSlot r)) hinit.valid

theorem slots_edited {P : Nat → Prop} {index : Nat} (h : Slots Q a) (he : Edited now P index a b) : Slots Q b := by
  intro i hi
  obtain ⟨k, hk, hq⟩ := h i hi
  by_cases hii : i = index
  · subst hii
    obtain ⟨k', hk', hf⟩ := he.installed
    exact ⟨k', hk', hQ.fresh hf⟩
  · by_cases hP : P i
    · exact slots_polled hQ hk hq (Or.inr (he.polled i hii hP))
    · exact @slots_polled Q hQ now a b i k hk hq (Or.inl (he.kept i hii hP))

theorem slots_targeted (h : Slots Q a) (ht : Targeted now a b) : Slots Q b := by
  intro i hi
  obtain ⟨k, hk, hq⟩ := h i hi
  rcases ht.cores i with hb | hb
  · exact ⟨k.targetReset, by simp [hb, hk, hi], hQ.targetReset hq⟩
  · exact ⟨k.targetReset.timeReset now, by simp [hb, hk, hi], hQ.timeReset (hQ.targetReset hq) now⟩

theorem slots_confirmed {p : Pending} {k : Core} (h : Slots Q a) (hc : Confirmed now p k a b) : Slots Q b := by
  intro i hi
  obtain ⟨k', hk', hq⟩ := h i hi
  by_cases hii : i = p.slotIndex
  · subst hii
    rw [hc.before.core] at hk'
    cases hk'
    exact ⟨_, hc.advanced, hQ.advanced hq now⟩
  · exact slots_polled hQ hk' hq (hc.others i hii)

theorem slots_triggered (h : Slots Q a) (c : Client) (index : Nat) : Slots Q (triggerSlot c index a).2 := by
  by_cases href : Refused a index
  · exact slots_polls hQ h (@triggerSlot_refused c index a href).2.polls
  · obtain ⟨slot, hs, _, _, hcomplete, hstart⟩ := @triggerSlot_started c index a href
    have hle := stepToUse_le c hcomplete
    intro i hi
    obtain ⟨k, hk, hq⟩ := h i hi
    by_cases hii : i = index
    · subst hii
      rw [core_of_slot hs] at hk
      cases hk
      have hmoved := hQ.moved (s := stepToUse c slot) (hQ.timeReset hq c.getTime) hle.1 (by simpa using hle.2)
      rcases hstart.core with hb | ⟨_, hb⟩
      · exact ⟨_, hb, hmoved⟩
      · exact ⟨_, hb, hQ.timeReset hmoved c.getTime⟩
    · exact ⟨k, (hstart.others i hii).trans hk, hq⟩

/-- Every entry point keeps such a property of all slots. -/
theorem slots_step {st : State} (h : Slots Q st) (e : Step) : Slots Q (step st e) := by
  obtain ⟨c, op⟩ := e
  cases hk : op.kind with
  | shows => exact slots_polls hQ h (step_shows (c := c) hk st).polls
  | initializes =>
    have hinit := step_initializes (c := c) hk st
    refine slots_initialized hQ (fun i hi k hk' => ?_) hinit
    obtain ⟨k0, hk0, hq⟩ := h i hi
    rw [hk0] at hk'
    cases hk'
    exact hQ.repaired hq hinit.valid
  | edits =>
    rcases step_edits (c := c) hk st with ⟨_, hr⟩ | ⟨index, _, he⟩
    · exact slots_polls hQ h hr.polls
    · exact slots_edited hQ h he
  | triggers index =>
    obtain rfl := Op.eq_of_triggers hk
    exact slots_triggered hQ h c index
  | updates elapsed =>
    obtain rfl := Op.eq_of_updates hk
    rcases onUpdate_cases c elapsed st with ⟨_, _, _, hr⟩ | ⟨p, _, ⟨_, _, _, hr⟩ | ⟨_, _, k, hc⟩⟩
    · exact slots_polls hQ h hr
    · exact slots_polls hQ h hr
    · exact slots_confirmed hQ h hc
  | targets => exact slots_targeted hQ h (step_targets hk st)
  | stops =>
    rw [step_stops hk st]
    exact h
  | fails =>
    rw [step_fails hk st]
    intro i hi
    rw [core_spellFailed]
    exact h i hi

end Slots

theorem wellFormed_inv : CoreInv Core.WellFormed :=
  ⟨fun h now => h.timeReset now, fun h => h.targetReset, fun h _ hold => h.repaired hold,
    fun h _ h1 h2 => h.moved h1 h2, fun h now => h.advanced now, fun h => h.wellFormed⟩

/-! ## The position stays on the chain -/

def Core.OnChain (k : Core) : Prop := 1 ≤ k.current ∧ k.current ≤ max 1 (getn k.refs)

theorem onChain_one {k : Core} (h : k.current = 1) : k.OnChain := by
  unfold Core.OnChain
  omega

theorem onChain_repaired (old : ℚ) (k : Core) : (k.repaired old).OnChain := by
  show 1 ≤ normalised (getn k.refs) k.current ∧ normalised (getn k.refs) k.current ≤ max 1 (getn k.refs)
  unfold normalised
  split <;> omega

theorem onChain_inv : CoreInv Core.OnChain := by
  refine ⟨fun h now => ?_, fun h => ?_, fun _ _ _ => onChain_repaired _ _, fun _ _ h1 h2 => ?_, fun h now => ?_,
    fun h => onChain_one h.current⟩
  · rcases Core.timeReset_cases now _ with hs | ⟨_, hs⟩
    · rw [hs]; exact h
    · rw [hs]; exact onChain_one rfl
  · unfold Core.targetReset
    split
    · exact onChain_one rfl
    · exact h
  · exact ⟨h1, Nat.le_trans h2 (Nat.le_max_right _ _)⟩
  · rename_i k
    unfold Core.OnChain at h
    show 1 ≤ k.next ∧ k.next ≤ max 1 (getn k.refs)
    unfold Core.next
    split <;> omega

theorem Core.WellFormed.onChain {k : Core} (h : k.WellFormed) : k.OnChain := by
  unfold Core.OnChain
  rw [getn_eq_length h.full]
  exact h.current

/-! ## The invariant -/

structure Inv (st : State) : Prop where
  slots : Slots Core.WellFormed st
  pendingCast : ∀ p, st.pendingCast = some p → p.slotIndex ∈ slotNumbers

/-- A pending cast names a slot that can be triggered. -/
theorem pending_names_slot {st : State} (h : ∀ p, st.pendingCast = some p → p.slotIndex ∈ slotNumbers) (e : Step) :
    ∀ p, (step st e).pendingCast = some p → p.slotIndex ∈ slotNumbers := by
  intro p' hp
  rcases pending_step st e p' hp with ⟨hfree, hgrant⟩ | ⟨p, hp0, hkeep⟩
  · obtain ⟨c, op⟩ := e
    obtain rfl : op = .triggerSlot p'.slotIndex := hgrant.trigger
    obtain ⟨what, hwhat⟩ := hgrant.issued
    by_contra hout
    have href := (@triggerSlot_refused c p'.slotIndex st (Or.inl hout)).1
    simp only [stepOut, href] at hwhat
    cases hwhat
  · rw [hkeep.slotIndex]
    exact h p hp0

/-- Every entry point keeps the representation. -/
theorem step_inv (st : State) (e : Step) (h : Inv st) : Inv (step st e) :=
  ⟨slots_step wellFormed_inv h.slots e, pending_names_slot h.pendingCast e⟩

/-! ## Whole runs -/

theorem inv_fresh : Inv (initializeDB noDB) := by
  have hinit := initializeDB_initialized 0 noDB
  refine ⟨slots_initialized wellFormed_inv (by simp [core, noDB]) hinit, ?_⟩
  intro p hp
  rw [hinit.pendingCast] at hp
  cases hp

/-- From a fresh database, every run of the entry points keeps all 14 chains well-formed
    and the pending cast on one of them, so the effective step of a chain with steps is
    one of its steps. -/
theorem slots_wellformed (es : List Step) :
    (∀ i, 1 ≤ i → i ≤ SLOT_COUNT → ∃ slot, (run step (initializeDB noDB) es).slots i = some slot ∧
      Full slot.spells.steps ∧
      (slot.spells.steps.length = 0 ∨ (MIN_SPELLS ≤ slot.spells.steps.length ∧ slot.spells.steps.length ≤ MAX_SPELLS)) ∧
      1 ≤ slot.current ∧ slot.current ≤ max 1 slot.spells.steps.length ∧
      0 ≤ slot.resetSeconds ∧ slot.resetSeconds ≤ 3600 ∧
      ∀ c : Client, slot.spells.steps ≠ [] → ∃ spell, get slot.spells.steps (getEffectiveStep c slot).1 = some spell) ∧
    ∀ p, (run step (initializeDB noDB) es).pendingCast = some p →
      1 ≤ p.slotIndex ∧ p.slotIndex ≤ SLOT_COUNT ∧
        ∃ slot, (run step (initializeDB noDB) es).slots p.slotIndex = some slot := by
  have hinv : Inv (run step (initializeDB noDB) es) := inv_run step step_inv es _ inv_fresh
  refine ⟨fun i h1 h2 => ?_, fun p hp => ?_⟩
  · obtain ⟨k, hk, hw⟩ := hinv.slots i (mem_slotNumbers.mpr ⟨h1, h2⟩)
    obtain ⟨slot, hs, rfl⟩ := Option.map_eq_some_iff.mp hk
    have hlen : (refs slot.spells.steps).length = slot.spells.steps.length := length_mapEntries _ _
    have hfull : Full slot.spells.steps := full_mapEntries.mp hw.full
    have hlength := hw.length
    have hcurrent := hw.current
    have hreset := validReset_iff.mp hw.reset
    simp only [coreOf, hlen] at hlength hcurrent
    refine ⟨slot, hs, hfull, hlength, hcurrent.1, hcurrent.2, hreset.1, hreset.2, fun c hne => ?_⟩
    have hpos : 0 < getn slot.spells.steps := by
      rw [getn_eq_length hfull]
      exact List.length_pos_iff.mpr hne
    have hle := getEffectiveStep_le c slot hpos
    exact get_isSome _ hle.1 hle.2
  · have hm := hinv.pendingCast p hp
    obtain ⟨k, hk, _⟩ := hinv.slots _ hm
    obtain ⟨slot, hs, _⟩ := Option.map_eq_some_iff.mp hk
    exact ⟨(mem_slotNumbers.mp hm).1, (mem_slotNumbers.mp hm).2, slot, hs⟩

end Nostalgia.MacroManager
