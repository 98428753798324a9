/-
  Nostalgia.MacroManager.Position — what the entry points do to a slot's position.

  The position of a chain is an abstract view of its slot: the step it is at, when it
  was last used, its reset settings and which entries it holds.
  `Core` is that view, `coreOf` reads it off a slot; caches, names and what the buttons
  show are gone. On cores the inactivity reset is `Core.timeReset`.

  Every display refresh polls the inactivity reset. `Refresh now P a b` says that going
  from `a` to `b` polled the slots in `P` at `now` and did nothing else to any core nor
  to the pending cast. Refreshes compose (`Refresh.trans`), since polling twice at one
  instant is polling once, so each entry point that only shows things is one.
-/

import Nostalgia.MacroManager.Manager

namespace Nostalgia.MacroManager

open Nostalgia.Lua

structure Core where
  current : Nat
  lastUsed : Option ℚ
  resetSeconds : ℚ
  resetOnTargetChange : Bool
  /-- The identity of the `spells` table. -/
  chain : Nat
  /-- The identities of its entries. -/
  refs : Arr Nat
  deriving DecidableEq

def coreOf (slot : Slot) : Core :=
  ⟨slot.current, slot.lastUsed, slot.resetSeconds, slot.resetOnTargetChange, slot.spells.ref, refs slot.spells.steps⟩

def core (st : State) (i : Nat) : Option Core := (st.slots i).map coreOf

namespace Core

/-- The inactivity reset is due. -/
def ResetDue (now : ℚ) (k : Core) : Prop :=
  ∃ lastUsed, k.lastUsed = some lastUsed ∧ k.current ≠ 1 ∧ 0 < k.resetSeconds ∧ k.resetSeconds ≤ now - lastUsed

instance (now : ℚ) (k : Core) : Decidable (ResetDue now k) :=
  match h : k.lastUsed with
  | none => isFalse fun ⟨_, hl, _⟩ => by rw [h] at hl; cases hl
  | some lastUsed =>
    decidable_of_iff (k.current ≠ 1 ∧ 0 < k.resetSeconds ∧ k.resetSeconds ≤ now - lastUsed)
      ⟨fun hr => ⟨lastUsed, h, hr⟩, fun ⟨l, hl, hr⟩ => by rw [h] at hl; cases hl; exact hr⟩

/-- The inactivity reset. -/
def timeReset (now : ℚ) (k : Core) : Core :=
  if ResetDue now k then { k with current := 1, lastUsed := none } else k

theorem timeReset_due {now : ℚ} {k : Core} (h : ResetDue now k) :
    timeReset now k = { k with current := 1, lastUsed := none } := if_pos h

theorem timeReset_not_due {now : ℚ} {k : Core} (h : ¬ ResetDue now k) : timeReset now k = k := if_neg h

theorem not_due_of_one {now : ℚ} {k : Core} (h : k.current = 1) : ¬ ResetDue now k :=
  fun ⟨_, _, hne, _⟩ => hne h

theorem not_due_of_unused {now : ℚ} {k : Core} (h : k.lastUsed = none) : ¬ ResetDue now k :=
  fun ⟨_, hl, _⟩ => by rw [h] at hl; cases hl

theorem timeReset_idem (now : ℚ) (k : Core) : timeReset now (timeReset now k) = timeReset now k := by
  by_cases h : ResetDue now k
  · rw [timeReset_due h]
    exact timeReset_not_due (not_due_of_one rfl)
  · rw [timeReset_not_due h, timeReset_not_due h]

theorem timeReset_cases (now : ℚ) (k : Core) :
    timeReset now k = k ∨ (ResetDue now k ∧ timeReset now k = { k with current := 1, lastUsed := none }) := by
  by_cases h : ResetDue now k
  · exact Or.inr ⟨h, timeReset_due h⟩
  · exact Or.inl (timeReset_not_due h)

@[simp] theorem timeReset_resetSeconds (now : ℚ) (k : Core) : (timeReset now k).resetSeconds = k.resetSeconds := by
  unfold timeReset; split <;> rfl
@[simp] theorem timeReset_chain (now : ℚ) (k : Core) : (timeReset now k).chain = k.chain := by
  unfold timeReset; split <;> rfl
@[simp] theorem timeReset_refs (now : ℚ) (k : Core) : (timeReset now k).refs = k.refs := by
  unfold timeReset; split <;> rfl

end Core

/-! ## Reading cores -/

theorem applyTimeReset_core (now : ℚ) (slot : Slot) :
    coreOf (applyTimeReset now slot).2 = (coreOf slot).timeReset now ∧
      ((applyTimeReset now slot).1 = true ↔ (coreOf slot).ResetDue now) := by
  unfold applyTimeReset
  split
  · rename_i h
    have hn : ¬ (coreOf slot).ResetDue now := Core.not_due_of_unused h
    exact ⟨(Core.timeReset_not_due hn).symm, by simp [hn]⟩
  · rename_i lastUsed h
    split
    · rename_i h1
      have hn : ¬ (coreOf slot).ResetDue now := Core.not_due_of_one h1
      exact ⟨(Core.timeReset_not_due hn).symm, by simp [hn]⟩
    · split
      · rename_i h2
        have hn : ¬ (coreOf slot).ResetDue now := by
          rintro ⟨_, _, _, hp, _⟩
          exact absurd hp (not_lt.mpr h2)
        exact ⟨(Core.timeReset_not_due hn).symm, by simp [hn]⟩
      · split
        · rename_i h1 h2 h3
          have hd : (coreOf slot).ResetDue now := ⟨lastUsed, h, h1, not_le.mp h2, h3⟩
          exact ⟨(Core.timeReset_due hd).symm, by simp [hd]⟩
        · rename_i h1 h2 h3
          have hn : ¬ (coreOf slot).ResetDue now := by
            rintro ⟨l, hl, _, _, hle⟩
            obtain rfl : lastUsed = l := by
              have : slot.lastUsed = some l := hl
              rw [h] at this; cases this; rfl
            exact h3 hle
          exact ⟨(Core.timeReset_not_due hn).symm, by simp [hn]⟩

@[simp] theorem applyTimeReset_spells (now : ℚ) (slot : Slot) : (applyTimeReset now slot).2.spells = slot.spells := by
  unfold applyTimeReset
  split
  · rfl
  · split
    · rfl
    · split
      · rfl
      · split <;> rfl

theorem coreOf_put {slot : Slot} {i : Nat} {a b : Spell} (h : get slot.spells.steps i = some a) (hc : IsCopyOf b a) :
    coreOf { slot with spells := { slot.spells with steps := put slot.spells.steps i b } } = coreOf slot := by
  simp [coreOf, refs_put h hc]

theorem coreOf_effective (c : Client) (slot : Slot) : coreOf (getEffectiveStep c slot).2 = coreOf slot := by
  obtain ⟨steps, he, hr⟩ := getEffectiveStep_slot c slot
  rw [he]
  simp [coreOf, hr]

@[simp] theorem core_setSlot_same (index : Nat) (slot : Slot) (st : State) :
    core (setSlot index slot st) index = some (coreOf slot) := by simp [core, setSlot]

theorem core_setSlot_ne {index i : Nat} (slot : Slot) (st : State) (h : i ≠ index) :
    core (setSlot index slot st) i = core st i := by simp [core, setSlot, h]

theorem core_of_slot {st : State} {i : Nat} {slot : Slot} (h : st.slots i = some slot) : core st i = some (coreOf slot) := by
  simp [core, h]

theorem core_congr {a b : State} (h : b.slots = a.slots) (i : Nat) : core b i = core a i := by simp [core, h]

@[simp] theorem setSlot_pendingCast (i : Nat) (s : Slot) (st : State) : (setSlot i s st).pendingCast = st.pendingCast := rfl
@[simp] theorem setSlot_frames (i : Nat) (s : Slot) (st : State) : (setSlot i s st).frames = st.frames := rfl
@[simp] theorem setSlot_updateElapsed (i : Nat) (s : Slot) (st : State) : (setSlot i s st).updateElapsed = st.updateElapsed := rfl
@[simp] theorem setSlot_nextRef (i : Nat) (s : Slot) (st : State) : (setSlot i s st).nextRef = st.nextRef := rfl

/-- A core polled again at the same time is the core polled once. -/
theorem polled_again {now : ℚ} {a b d : Option Core} (hb : b = a ∨ b = a.map (Core.timeReset now))
    (hd : d = b ∨ d = b.map (Core.timeReset now)) : d = a ∨ d = a.map (Core.timeReset now) := by
  rcases hd with rfl | rfl
  · exact hb
  · rcases hb with rfl | rfl
    · exact Or.inr rfl
    · refine Or.inr ?_
      cases a with
      | none => rfl
      | some k => simp [Core.timeReset_idem]

theorem coreOf_polled (c : Client) (slot : Slot) :
    coreOf (getEffectiveStep c (applyTimeReset c.getTime slot).2).2 = (coreOf slot).timeReset c.getTime := by
  rw [coreOf_effective, (applyTimeReset_core _ _).1]

/-! ## Refreshes -/

/-- From `a` to `b` the slots in `P` were polled at `now`; nothing else changed a core,
    the pending cast, the frames or the poll timer. -/
structure Refresh (now : ℚ) (P : Nat → Prop) (a b : State) : Prop where
  polled : ∀ i, P i → core b i = (core a i).map (Core.timeReset now)
  kept : ∀ i, ¬ P i → core b i = core a i
  pendingCast : b.pendingCast = a.pendingCast
  frames : b.frames = a.frames
  updateElapsed : b.updateElapsed = a.updateElapsed
  nextRef : a.nextRef ≤ b.nextRef

namespace Refresh

variable {now : ℚ} {P Q : Nat → Prop} {a b d : State}

/-- A change of what no core, nor the pending cast, can see. -/
theorem of_slots (hs : b.slots = a.slots) (hp : b.pendingCast = a.pendingCast) (hf : b.frames = a.frames)
    (hu : b.updateElapsed = a.updateElapsed) (hn : a.nextRef ≤ b.nextRef) : Refresh now (fun _ => False) a b :=
  ⟨fun _ h => h.elim, fun i _ => core_congr hs i, hp, hf, hu, hn⟩

theorem refl (a : State) : Refresh now (fun _ => False) a a := of_slots rfl rfl rfl rfl (Nat.le_refl _)

theorem trans (h : Refresh now P a b) (h' : Refresh now Q b d) : Refresh now (fun i => P i ∨ Q i) a d := by
  refine ⟨fun i hi => ?_, fun i hi => ?_, h'.pendingCast.trans h.pendingCast, h'.frames.trans h.frames,
    h'.updateElapsed.trans h.updateElapsed, Nat.le_trans h.nextRef h'.nextRef⟩
  · by_cases hp : P i
    · by_cases hq : Q i
      · rw [h'.polled i hq, h.polled i hp]
        cases core a i with
        | none => rfl
        | some k => simp [Core.timeReset_idem]
      · rw [h'.kept i hq, h.polled i hp]
    · rcases hi with hi | hi
      · exact absurd hi hp
      · rw [h'.polled i hi, h.kept i hp]
  · rw [h'.kept i (fun hq => hi (Or.inr hq)), h.kept i (fun hp => hi (Or.inl hp))]

theorem congr (h : Refresh now P a b) (hpq : ∀ i, P i ↔ Q i) : Refresh now Q a b :=
  ⟨fun i hi => h.polled i ((hpq i).mpr hi), fun i hi => h.kept i (fun hp => hi ((hpq i).mp hp)), h.pendingCast, h.frames,
    h.updateElapsed, h.nextRef⟩

/-- A refresh followed by a change nothing here can see. -/
theorem quiet (h : Refresh now P a b) (hs : d.slots = b.slots) (hp : d.pendingCast = b.pendingCast)
    (hf : d.frames = b.frames) (hu : d.updateElapsed = b.updateElapsed) (hn : b.nextRef ≤ d.nextRef) :
    Refresh now P a d :=
  (h.trans (of_slots hs hp hf hu hn)).congr (by simp)

/-- A refresh after a change nothing here can see. -/
theorem after (h : Refresh now P b d) (hs : b.slots = a.slots) (hp : b.pendingCast = a.pendingCast)
    (hf : b.frames = a.frames) (hu : b.updateElapsed = a.updateElapsed) (hn : a.nextRef ≤ b.nextRef) :
    Refresh now P a d :=
  ((of_slots hs hp hf hu hn).trans h).congr (by simp)

theorem foldl {α : Type} {f : State → α → State} {P : α → Nat → Prop} {fr : Bool}
    (hf : ∀ st x, st.frames = fr → Refresh now (P x) st (f st x)) :
    ∀ (l : List α) (st : State), st.frames = fr → Refresh now (fun i => ∃ x ∈ l, P x i) st (l.foldl f st) := by
  intro l
  induction l with
  | nil => intro st _; exact (refl st).congr (by simp)
  | cons x l ih =>
    intro st hst
    have h1 := hf st x hst
    have h2 := ih (f st x) (h1.frames.trans hst)
    exact (h1.trans h2).congr (by simp)

/-- Each core is as it was, or as the inactivity reset leaves it. -/
theorem core_cases (h : Refresh now P a b) (i : Nat) :
    core b i = core a i ∨ (P i ∧ core b i = (core a i).map (Core.timeReset now)) := by
  by_cases hp : P i
  · exact Or.inr ⟨hp, h.polled i hp⟩
  · exact Or.inl (h.kept i hp)

end Refresh

theorem refresh_setStatus (now : ℚ) (text : String) (isError : Bool) (st : State) :
    Refresh now (fun _ => False) st (setStatus text isError st) := by
  unfold setStatus
  split
  · exact Refresh.of_slots rfl rfl rfl rfl (Nat.le_refl _)
  · exact Refresh.refl st

theorem refresh_setEditorStatus (now : ℚ) (text : String) (isError : Bool) (st : State) :
    Refresh now (fun _ => False) st (setEditorStatus text isError st) := by
  unfold setEditorStatus
  split
  · exact Refresh.of_slots rfl rfl rfl rfl (Nat.le_refl _)
  · exact Refresh.refl st

theorem Refresh.status {now : ℚ} {P : Nat → Prop} {a b : State} (h : Refresh now P a b) (text : String)
    (isError : Bool) : Refresh now P a (setStatus text isError b) :=
  (h.trans (refresh_setStatus now text isError b)).congr (by simp)

theorem Refresh.edStatus {now : ℚ} {P : Nat → Prop} {a b : State} (h : Refresh now P a b) (text : String)
    (isError : Bool) : Refresh now P a (setEditorStatus text isError b) :=
  (h.trans (refresh_setEditorStatus now text isError b)).congr (by simp)

/-- Writing back a slot whose core is the polled one is a poll of it. -/
theorem refresh_setSlot {now : ℚ} {st : State} {index : Nat} {slot slot' : Slot} (h : st.slots index = some slot)
    (hc : coreOf slot' = (coreOf slot).timeReset now) : Refresh now (· = index) st (setSlot index slot' st) := by
  refine ⟨fun i hi => ?_, fun i hi => core_setSlot_ne _ _ hi, rfl, rfl, rfl, Nat.le_refl _⟩
  subst hi
  rw [core_setSlot_same, core_of_slot h, hc]
  rfl

/-- Where there is no slot a poll does nothing. -/
theorem refresh_missing {now : ℚ} {st : State} {index : Nat} (h : st.slots index = none) :
    Refresh now (· = index) st st := by
  refine ⟨fun i hi => ?_, fun i _ => rfl, rfl, rfl, rfl, Nat.le_refl _⟩
  subst hi
  simp [core, h]

theorem refresh_getSlotCurrentSpell (c : Client) (st : State) (index : Nat) :
    Refresh c.getTime (· = index) st (getSlotCurrentSpell c st index) := by
  unfold getSlotCurrentSpell
  split
  · rename_i h; exact refresh_missing h
  · rename_i slot h
    dsimp only
    split
    · exact refresh_setSlot h (coreOf_polled c slot)
    · rename_i spell hget
      exact refresh_setSlot h ((coreOf_put hget (resolveSpell_copy c spell)).trans (coreOf_polled c slot))

theorem refresh_updateSlotButton (c : Client) (index : Nat) (st : State) :
    Refresh c.getTime (fun i => st.frames = true ∧ i ∈ slotNumbers ∧ i = index) st (updateSlotButton c index st) := by
  unfold updateSlotButton
  split
  · rename_i hcond
    have hiff : ∀ i, i = index ↔ st.frames = true ∧ i ∈ slotNumbers ∧ i = index :=
      fun i => ⟨by rintro rfl; exact ⟨hcond.1, hcond.2, rfl⟩, fun h => h.2.2⟩
    split
    · rename_i h; exact (refresh_missing h).congr hiff
    · rename_i slot h
      dsimp only
      split
      · refine Refresh.quiet ((refresh_setSlot h ?_).congr hiff) rfl rfl rfl rfl (Nat.le_refl _)
        exact coreOf_polled c slot
      · rename_i spell hget
        refine Refresh.quiet ((refresh_setSlot h ?_).congr hiff) rfl rfl rfl rfl (Nat.le_refl _)
        exact (coreOf_put hget (resolveSpell_copy c spell)).trans (coreOf_polled c slot)
  · rename_i hcond
    refine (Refresh.refl st).congr fun i => ⟨False.elim, ?_⟩
    rintro ⟨hf, hm, rfl⟩
    exact hcond ⟨hf, hm⟩

theorem refresh_updateBlizzardButton (c : Client) (st : State) (index : Nat) :
    Refresh c.getTime (· = index) st (updateBlizzardButtonCooldown c st index) := by
  have h1 := refresh_getSlotCurrentSpell c st index
  have h2 := h1.trans (refresh_getSlotCurrentSpell c _ index)
  have h3 := h2.trans (refresh_getSlotCurrentSpell c _ index)
  exact (h3.trans (refresh_getSlotCurrentSpell c _ index)).congr (by simp)

theorem refresh_updateBlizzardCooldowns (c : Client) (st : State) :
    Refresh c.getTime (· ∈ barSlots c) st (updateBlizzardCooldowns c st) :=
  (Refresh.foldl (fun st x _ => refresh_updateBlizzardButton c st x) (barSlots c) st rfl).congr (by simp)

/-- The slots some button shows. -/
def Shown (c : Client) (st : State) (i : Nat) : Prop := (st.frames = true ∧ i ∈ slotNumbers) ∨ i ∈ barSlots c

theorem refresh_updateAllSlots (c : Client) (st : State) :
    Refresh c.getTime (Shown c st) st (updateAllSlots c st) := by
  have h1 := Refresh.foldl (P := fun x i => st.frames = true ∧ i ∈ slotNumbers ∧ i = x)
    (fun s x (hs : s.frames = st.frames) => hs ▸ refresh_updateSlotButton c x s) slotNumbers st rfl
  refine (h1.trans (refresh_updateBlizzardCooldowns c _)).congr fun i => ?_
  simp only [Shown]
  constructor
  · rintro (⟨x, _, hf, hm, rfl⟩ | hb)
    · exact Or.inl ⟨hf, hm⟩
    · exact Or.inr hb
  · rintro (⟨hf, hm⟩ | hb)
    · exact Or.inl ⟨i, hm, hf, hm, rfl⟩
    · exact Or.inr hb

end Nostalgia.MacroManager
