/-
  Nostalgia.Together.BotAttack — DinoMacroManager and DinoController side by side, and
  the order to the bots (DinoMacroManager.lua, DinoController.lua).

  Model.  `Both` is the two AddOns' state, an event is an entry point of one of them. A
  trigger of a Bot: Attack step arms the step's confirmation and then calls
  `DinoController_BotAttack`, which returns nothing: it has its own reasons to send no
  order (world map open, UI mode, no group, no attackable target), and the chain goes on
  whatever it did. `ChatEdit_SendText` and `SendChatMessage` are one chat command.

  Proved, for every run of both from login (`orders_sent_iff`): every advance of a chain
  is due to one earlier trigger, pending since; and where that was a Bot: Attack step,
  its order was sent exactly if `Heard` holds at the trigger. As built it is not always:
  a player without a group advances the step and commands nobody (`order_to_nobody`).
-/

import Nostalgia.MacroManager.Confirmation
import Nostalgia.MacroManager.InFlight
import Nostalgia.Controller.Session

namespace Nostalgia.Together

open Nostalgia.Lua Nostalgia.Machine Nostalgia.MacroManager

/-- `GetNumPartyMembers` and `GetNumRaidMembers`. -/
structure Group where
  partyCount : Nat
  raidCount : Nat
  deriving DecidableEq, Repr

structure Both where
  manager : State
  controller : Controller.St

inductive Ev where
  /-- An entry point of DinoMacroManager, at an instant of the client. -/
  | manager (c : Client) (g : Group) (op : Op)
  | controller (e : Controller.Ev)

def xAttack : String := ".x attack"

/-- `DinoController_BotAttack`: the chat commands it sends. -/
def botAttack (c : Client) (g : Group) (s : Controller.St) : List String :=
  if Controller.visible s.world "WorldMapFrame" then []
  else if s.nav.active then []
  else if g.partyCount < 1 ∧ g.raidCount < 1 then []
  else if !c.unitExists .target || !c.canAttackTarget || c.unitIsDead .target then []
  else [xAttack]

/-- The chat commands an event sends. -/
def sent (s : Both) : Ev → List String
  | .manager c g (.triggerSlot index) =>
    match (triggerSlot c index s.manager).1 with
    | some .botAttack => botAttack c g s.controller
    | _ => []
  | _ => []

/-- The two AddOns write no state of each other's. -/
def step (client : Controller.Client) (s : Both) : Ev → Both
  | .manager c _ op => { s with manager := MacroManager.step s.manager (c, op) }
  | .controller e => { s with controller := Controller.step client s.controller e }

/-- Both AddOns after loading. -/
def login (db : SavedDB) (w : Controller.World) (settings : Controller.DB) (bindings : String → String) : Both :=
  ⟨initializeDB db.state, Controller.fresh w settings bindings⟩

/-- `BotAttack` finds a group and no reason to stay silent. -/
structure Heard (g : Group) (s : Controller.St) : Prop where
  noMap : Controller.visible s.world "WorldMapFrame" = false
  noUIMode : s.nav.active = false
  group : 1 ≤ g.partyCount ∨ 1 ≤ g.raidCount

theorem botAttack_iff {c : Client} (htarget : noAttackableTarget c = false) (g : Group) (s : Controller.St) :
    botAttack c g s = [xAttack] ↔ Heard g s := by
  simp only [noAttackableTarget, Bool.or_eq_false_iff, Bool.not_eq_false'] at htarget
  obtain ⟨⟨hexists, halive⟩, hattack⟩ := htarget
  unfold botAttack
  constructor
  · intro h
    split at h
    · cases h
    · rename_i hmap
      split at h
      · cases h
      · rename_i hui
        split at h
        · cases h
        · exact ⟨by simpa using hmap, by simpa using hui, by omega⟩
  · intro ⟨hmap, hui, hgroup⟩
    rw [if_neg (by simp [hmap]), if_neg (by simp [hui]), if_neg (by omega),
      if_neg (by simp [hexists, halive, hattack])]

/-! ## What a trigger of a Bot: Attack step issues -/

/-- The pending cast is of a Bot: Attack step. -/
def PendingBotAttack (st : State) : Prop :=
  ∃ p slot spell, st.pendingCast = some p ∧ st.slots p.slotIndex = some slot ∧
    get slot.spells.steps p.step = some spell ∧ isBotAttack spell = true

/-- `castStep` on a bot command, if it leaves a cast pending. -/
theorem castStep_bot {c : Client} {index s : Nat} {spell : Spell} {book : Resolved} {st : State}
    (hbot : isBotAttack spell = true) (hfree : st.pendingCast = none)
    (hp : (castStep c index s spell book st).2.pendingCast ≠ none) :
    (castStep c index s spell book st).1 = some .botAttack ∧ noAttackableTarget c = false := by
  have hpet : isPetAttack spell = false := by
    simp only [isBotAttack, beq_iff_eq] at hbot
    simp [isPetAttack, hbot]
  unfold castStep at hp ⊢
  split
  · rename_i hblocked
    rw [if_pos hblocked] at hp
    exact absurd ((refresh_setStatus c.getTime _ true st).pendingCast.trans hfree) hp
  · rename_i hready
    rw [if_neg hready] at hp
    simp only [hpet, hbot, Bool.false_eq_true, if_false, if_true] at hp ⊢
    cases htarget : noAttackableTarget c with
    | true =>
      rw [htarget] at hp
      exact absurd rfl hp
    | false => exact ⟨rfl, rfl⟩

theorem startStep_bot {c : Client} {index : Nat} {slot : Slot} {st : State} (hfree : st.pendingCast = none)
    (hbot : PendingBotAttack (startStep c index slot st).2) :
    (startStep c index slot st).1 = some .botAttack ∧ noAttackableTarget c = false := by
  obtain ⟨p, slot', spell', hp, hslot, hget, hspell⟩ := hbot
  unfold startStep at hp hslot ⊢
  generalize getEffectiveStep c slot = eff at hp hslot ⊢
  obtain ⟨s, slot⟩ := eff
  dsimp only at hp hslot ⊢
  split
  · rename_i book spell hres
    simp only [hres] at hp hslot
    obtain ⟨entry, hentry, _⟩ := Option.map_eq_some_iff.mp hres
    generalize hcast : setSlot index { slot with
      current := s, spells := { slot.spells with steps := put slot.spells.steps s spell } } st = cast at hp hslot ⊢
    have hfree' : cast.pendingCast = none := by rw [← hcast]; exact hfree
    have hspec := castStep_spec c index s spell book cast hfree'
    have harmed : p.slotIndex = index ∧ p.step = s := by
      rcases hspec.pendingCast with hnone | ⟨_, _, _, hsome⟩
      · rw [hnone] at hp
        cases hp
      · rw [hsome] at hp
        cases hp
        exact ⟨rfl, rfl⟩
    -- the step's entry in the slot is the one resolved and cast
    rw [hspec.slots, ← hcast, harmed.1] at hslot
    simp only [setSlot, Function.update_self, Option.some.injEq] at hslot
    subst hslot
    rw [harmed.2, get_put_self spell hentry] at hget
    cases hget
    exact castStep_bot hspell hfree' (by rw [hp]; simp)
  · rename_i spell hres
    simp only [hres] at hp
    rw [((refresh_updateSlotButton c index _).status _ true).pendingCast] at hp
    exact absurd (hfree.symm.trans hp) (by simp)
  · rename_i hres
    simp only [hres] at hp
    rw [((refresh_updateSlotButton c index _).status _ true).pendingCast] at hp
    exact absurd (hfree.symm.trans hp) (by simp)

/-- A trigger that leaves a Bot: Attack step pending called `BotAttack`, on a target that
    it attacks too. -/
theorem triggerSlot_bot {c : Client} {index : Nat} {st : State} (hfree : st.pendingCast = none)
    (hbot : PendingBotAttack (triggerSlot c index st).2) :
    (triggerSlot c index st).1 = some .botAttack ∧ noAttackableTarget c = false := by
  by_cases href : Refused st index
  · obtain ⟨p, _, _, hp, _⟩ := hbot
    rw [(triggerSlot_refused (c := c) href).2.pendingCast, hfree] at hp
    cases hp
  · obtain ⟨slot, hs, hm, _, hcomplete, _⟩ := triggerSlot_started (c := c) href
    have hn := getn_afterReset c.getTime slot
    have hrange := mem_slotNumbers.mp hm
    unfold Core.Complete at hcomplete
    rw [← hn] at hcomplete
    unfold triggerSlot at hbot ⊢
    rw [if_neg (by omega)] at hbot ⊢
    simp only [hs] at hbot ⊢
    rw [if_neg (by omega), if_neg (by simp [setSlot, hfree])] at hbot ⊢
    exact startStep_bot (by exact hfree) hbot

/-! ## Which trigger an advance confirms -/

section Runs

variable (client : Controller.Client) (s : Both) (es : List Ev)

/-- Event `k` advances slot `i`. -/
def AdvancesAt (k i : Nat) : Prop :=
  ∃ c g op, es[k]? = some (.manager c g op) ∧ (stepOut c op (stateAt (step client) s es k).manager).1 = .advanced i

/-- Event `k` confirms the step that event `j` triggered: it advances the slot, and the
    cast put in flight then was pending all the while. -/
structure Confirms (c : Client) (g : Group) (j k i : Nat) : Prop where
  before : j < k
  trigger : es[j]? = some (.manager c g (.triggerSlot i))
  free : (stateAt (step client) s es j).manager.pendingCast = none
  waits : ∃ p : Pending, p.slotIndex = i ∧ ∀ m, j < m → m ≤ k →
    ((stateAt (step client) s es m).manager.pendingCast).map Pending.key = some p.key
  advances : AdvancesAt client s es k i

/-- What event `j` sends. -/
def sentAt (j : Nat) : List String :=
  match es[j]? with
  | some e => sent (stateAt (step client) s es j) e
  | none => []

variable {client s es}

/-- The event triggered `p.slotIndex` and left `p` behind. -/
def Grants (s : Both) (e : Ev) (p : Pending) : Prop :=
  ∃ c g op, e = .manager c g op ∧ MacroManager.Grants s.manager (c, op) p

theorem pending_step (s : Both) (e : Ev) (p' : Pending) (hp : (step client s e).manager.pendingCast = some p') :
    (s.manager.pendingCast = none ∧ Grants s e p') ∨ ∃ p, s.manager.pendingCast = some p ∧ p'.key = p.key := by
  cases e with
  | controller e => exact Or.inr ⟨p', hp, rfl⟩
  | manager c g op =>
    rcases MacroManager.pending_step s.manager (c, op) p' hp with ⟨hfree, hgrant⟩ | ⟨p, hheld, hkeep⟩
    · exact Or.inl ⟨hfree, c, g, op, rfl, hgrant⟩
    · refine Or.inr ⟨p, hheld, ?_⟩
      rw [Pending.key, Pending.key, hkeep.slotIndex, hkeep.step, hkeep.spell]

theorem advance_confirms (hidle : s.manager.pendingCast = none) {k i : Nat} (h : AdvancesAt client s es k i) :
    ∃ c g j, Confirms client s es c g j k i := by
  have hadv := h
  obtain ⟨c, g, op, he, hout⟩ := hadv
  obtain ⟨_, p, _, _, hp, hi, _⟩ := advanced_confirmed (e := (c, op)) hout
  have horigin : ∃ j, Origin (step client) (fun b => b.manager.pendingCast) Grants (fun _ _ p p' => p'.key = p.key) s es j k := by
    refine token_origin pending_step ?_ es k (Nat.le_of_lt (lt_of_getElem? he)) p ?_
    · exact hidle
    · exact hp
  obtain ⟨j, hj⟩ := horigin
  obtain ⟨_, p0, hej, ⟨cj, gj, opj, rfl, hgrant⟩, hp0⟩ := hj.granted
  have hslot : p0.slotIndex = i := by
    have hkey : p.key = p0.key := hj.key_eq (fun _ _ _ _ hk => hk) hp0 hp
    simp only [Pending.key, Prod.mk.injEq] at hkey
    exact hkey.1.symm.trans hi
  have hop := hgrant.trigger
  rw [hslot] at hop
  dsimp only at hop
  subst hop
  refine ⟨cj, gj, j, hj.before, hej, hj.free, ⟨p0, hslot, ?_⟩, h⟩
  intro m h1 h2
  have hheld : ∃ q, (stateAt (step client) s es m).manager.pendingCast = some q := by
    rcases Nat.lt_or_ge m k with hm | hm
    · obtain ⟨_, a, _, _, ha, _⟩ := hj.kept m h1 hm
      exact ⟨a, ha⟩
    · obtain rfl : m = k := by omega
      exact ⟨p, hp⟩
  obtain ⟨q, hq⟩ := hheld
  rw [hq]
  exact congrArg some (hj.key_along (fun _ _ _ _ hk => hk) hp0 m h1 h2 q hq)

/-- For every run from login: every advance confirms an earlier trigger, and the trigger
    of a Bot: Attack step sent its one order exactly if it was heard. -/
theorem orders_sent_iff (client : Controller.Client) (db : SavedDB) (w : Controller.World) (settings : Controller.DB)
    (bindings : String → String) (es : List Ev) :
    let s := login db w settings bindings
    (∀ k i, AdvancesAt client s es k i → ∃ c g j, Confirms client s es c g j k i) ∧
      ∀ c g j k i, Confirms client s es c g j k i → PendingBotAttack (stateAt (step client) s es (j + 1)).manager →
        (sentAt client s es j = [xAttack] ↔ Heard g (stateAt (step client) s es j).controller) := by
  intro s
  constructor
  · intro k i h
    have hidle : s.manager.pendingCast = none := (initializeDB_initialized 0 db.state).pendingCast.trans db.idle
    exact advance_confirms hidle h
  · intro c g j k i h hbot
    have hstep : (stateAt (step client) s es (j + 1)).manager = (triggerSlot c i (stateAt (step client) s es j).manager).2 := by
      rw [stateAt_succ (step client) s h.trigger]
      rfl
    rw [hstep] at hbot
    obtain ⟨hissued, htarget⟩ := triggerSlot_bot h.free hbot
    have hsent : sentAt client s es j = botAttack c g (stateAt (step client) s es j).controller := by
      simp only [sentAt, h.trigger, sent, hissued]
    rw [hsent]
    exact botAttack_iff htarget g _

end Runs

/-! ## An order to nobody -/

/-- DinoMacroManager's events alone, in one group. -/
def managed (g : Group) (es : List Step) : List Ev := es.map fun e => .manager e.1 g e.2

theorem managed_run (client : Controller.Client) (g : Group) : ∀ (es : List Step) (s : Both),
    run (step client) s (managed g es) = { s with manager := run MacroManager.step s.manager es } := by
  intro es
  induction es with
  | nil => intro s; rfl
  | cons e es ih => intro s; exact ih _

theorem managed_stateAt (client : Controller.Client) (g : Group) (es : List Step) (s : Both) (k : Nat) :
    stateAt (step client) s (managed g es) k = { s with manager := stateAt MacroManager.step s.manager es k } := by
  rw [stateAt, managed, ← List.map_take]
  exact managed_run client g _ s

/-- A client that targets a living enemy. -/
def foeClient (t : ℚ) : Client :=
  { bookClient t with unitExists := fun u => u == .target, canAttackTarget := true }

/-- A chain of two Bot: Attack steps saved in slot 1, its first step triggered at 1, and
    the `OnUpdate` at 2. -/
def attackSteps : List Step :=
  [.onEvent .PLAYER_LOGIN, .openEditor 1, .insertBotAttack 1, .insertBotAttack 2, .saveEditor].map (foeClient 0, ·) ++
    [(foeClient 1, .triggerSlot 1), (foeClient 2, .onUpdate 1)]

def atLogin : Both := login default (Controller.World.ofFrames []) Controller.defaultDB fun _ => ""

def stillClient : Controller.Client := Controller.stillClient Controller.bridgeMappings

theorem attack_pending : (stateAt MacroManager.step atLogin.manager attackSteps 6).pendingCast =
    some ⟨1, 1, 21, 1, some (28 / 25)⟩ := by decide +kernel

/-- In any group the trigger at event 5 is confirmed by event 6. -/
theorem attack_confirms (g : Group) : Confirms stillClient atLogin (managed g attackSteps) (foeClient 1) g 5 6 1 := by
  refine ⟨by decide, rfl, ?_, ⟨⟨1, 1, 21, 1, some (28 / 25)⟩, rfl, ?_⟩, ⟨foeClient 2, g, .onUpdate 1, rfl, ?_⟩⟩
  · rw [managed_stateAt]
    show (stateAt MacroManager.step atLogin.manager attackSteps 5).pendingCast = none
    decide +kernel
  · intro m h1 h2
    obtain rfl : m = 6 := by omega
    rw [managed_stateAt]
    show (stateAt MacroManager.step atLogin.manager attackSteps 6).pendingCast.map Pending.key = _
    rw [attack_pending]
    rfl
  · rw [managed_stateAt]
    show (stepOut (foeClient 2) (.onUpdate 1) (stateAt MacroManager.step atLogin.manager attackSteps 6)).1 = .advanced 1
    decide +kernel

theorem attack_isBot (g : Group) :
    PendingBotAttack (stateAt (step stillClient) atLogin (managed g attackSteps) (5 + 1)).manager := by
  rw [managed_stateAt]
  have hentry : (((stateAt MacroManager.step atLogin.manager attackSteps 6).slots 1).bind fun slot =>
      get slot.spells.steps 1).map isBotAttack = some true := by decide +kernel
  obtain ⟨spell, hspell, hbot⟩ := Option.map_eq_some_iff.mp hentry
  obtain ⟨slot, hslot, hget⟩ := Option.bind_eq_some_iff.mp hspell
  exact ⟨_, slot, spell, attack_pending, hslot, hget, hbot⟩

/-- A player with no group: the step is confirmed and advances, no order was sent. -/
theorem order_to_nobody :
    ¬ ∀ (client : Controller.Client) (db : SavedDB) (w : Controller.World) (settings : Controller.DB)
      (bindings : String → String) (es : List Ev) (c : Client) (g : Group) (j k i : Nat),
      Confirms client (login db w settings bindings) es c g j k i →
        PendingBotAttack (stateAt (step client) (login db w settings bindings) es (j + 1)).manager →
          sentAt client (login db w settings bindings) es j = [xAttack] := by
  intro h
  have hsent := h stillClient default (Controller.World.ofFrames []) Controller.defaultDB (fun _ => "")
    (managed ⟨0, 0⟩ attackSteps) (foeClient 1) ⟨0, 0⟩ 5 6 1 (attack_confirms _) (attack_isBot _)
  have hnone : sentAt stillClient atLogin (managed ⟨0, 0⟩ attackSteps) 5 = [] := by decide +kernel
  exact absurd (hnone.symm.trans hsent) (by decide)

/-- The same chain in a party of two, where the order goes out. -/
theorem order_to_party : sentAt stillClient atLogin (managed ⟨1, 0⟩ attackSteps) 5 = [xAttack] := by
  have hheard : Heard ⟨1, 0⟩ (stateAt (step stillClient) atLogin (managed ⟨1, 0⟩ attackSteps) 5).controller := by
    rw [managed_stateAt]
    exact ⟨by decide +kernel, by decide +kernel, Or.inl (by decide)⟩
  exact ((orders_sent_iff stillClient default (Controller.World.ofFrames []) Controller.defaultDB (fun _ => "")
    (managed ⟨1, 0⟩ attackSteps)).2 (foeClient 1) ⟨1, 0⟩ 5 6 1 (attack_confirms _) (attack_isBot _)).mpr hheard

end Nostalgia.Together
