/-
  Nostalgia.Quests.Dialogs — after a list of several quests the AddOn leaves the choice to
  the player (DinoController.lua).

  `ambiguousQuestList` remembers such a list. A closing event schedules its clearing five
  seconds on, every dialog event takes the schedule back, and only `OnUpdate` clears.
  - `ambiguity_step`: what one event does to the flag and to the schedule.
  - `scheduled_at`: a schedule stands for a closing event with no dialog event since.
  - `cleared_after_quiet`: a cleared flag means a closing event with five quiet seconds
    behind it, after every list of several quests.
  - `never_chooses_for_player`: so a quest is selected only where the dialog offers exactly
    one, and only after such a closing event.
-/

import Nostalgia.Quests.Machine

namespace Nostalgia.Quests

open Nostalgia.Lua Nostalgia.Machine

/-! ## What a dialog offers -/

/-- How many quests the dialog offers. -/
def Ev.offers : Ev → Option Nat
  | .QUEST_GREETING active available => some (active + available)
  | .GOSSIP_SHOW active available => some (active.length + available.length)
  | _ => none

def Ev.offersMany (e : Ev) : Bool := e.offers.any (1 < ·)

/-- The five dialog events. -/
def Ev.isDialog : Ev → Bool
  | .QUEST_GREETING .. | .GOSSIP_SHOW .. | .QUEST_DETAIL _ | .QUEST_PROGRESS _ | .QUEST_COMPLETE _ => true
  | _ => false

def Ev.closes : Ev → Bool
  | .QUEST_FINISHED | .GOSSIP_CLOSED => true
  | _ => false

/-- The call selects a quest for the player. -/
def Call.chooses : Call → Bool
  | .selectActiveQuest _ | .selectAvailableQuest _ | .selectGossipActiveQuest _ | .selectGossipAvailableQuest _ => true
  | _ => false

/-- A quest is a title and a level, so half the results are as many as the quests. -/
theorem getn_gossipValues (quests : List (String × Int)) : getn (gossipValues quests) = 2 * quests.length := by
  induction quests with
  | nil => rfl
  | cons q quests ih =>
    have hcons : gossipValues (q :: quests) = some (.title q.1) :: some (.level q.2) :: gossipValues quests := rfl
    rw [hcons, getn_some_cons, getn_some_cons, ih, List.length_cons]
    omega

theorem gossip_count (quests : List (String × Int)) : ((getn (gossipValues quests) : Nat) : ℚ) / 2 = quests.length := by
  rw [getn_gossipValues]
  push_cast
  ring

/-! ## One event -/

theorem handleQuestList_spec {s : St} (hon : s.autoQuest = 1) (active available : Nat) (x y : Call) :
    (handleQuestList active available x y s).2 =
        { s with ambiguousQuestList := s.ambiguousQuestList || decide (1 < active + available), ambiguityClearAt := none } ∧
      ∀ call ∈ (handleQuestList active available x y s).1, call.chooses = true →
        active + available = 1 ∧ s.ambiguousQuestList = false := by
  have hmany : (1 : ℚ) < active + available ↔ 1 < active + available := by exact_mod_cast Iff.rfl
  have hone : (active : ℚ) + available = 1 ↔ active + available = 1 := by exact_mod_cast Iff.rfl
  unfold handleQuestList
  simp only [cancelAmbiguityClear, hon, ne_eq, not_true_eq_false, if_false, hmany, hone]
  split
  · rename_i h
    refine ⟨by simp [markQuestListAmbiguous, h], ?_⟩
    intro call hcall hchoose
    simp only [markQuestListAmbiguous] at hcall
    split at hcall
    · cases hcall
    · rw [List.mem_singleton] at hcall
      subst hcall
      cases hchoose
  · rename_i h
    split
    · rename_i hsel
      exact ⟨by simp [h], fun _ _ _ => hsel⟩
    · exact ⟨by simp [h], fun _ hcall => absurd hcall List.not_mem_nil⟩

theorem greeting_spec {s : St} (hon : s.autoQuest = 1) {e : Ev} {n : Nat} (he : e.offers = some n) (now : ℚ) :
    step s (now, e) =
        { s with ambiguousQuestList := s.ambiguousQuestList || decide (1 < n), ambiguityClearAt := none } ∧
      ∀ call ∈ (stepOut s (now, e)).1, call.chooses = true → n = 1 ∧ s.ambiguousQuestList = false := by
  cases e with
  | QUEST_GREETING active available =>
    cases he
    exact handleQuestList_spec hon active available _ _
  | GOSSIP_SHOW active available =>
    cases he
    simp only [step, stepOut, handleGossipShow, gossip_count]
    exact handleQuestList_spec hon active.length available.length _ _
  | _ => cases he

/-- What event `e` at `now` makes of the flag and the schedule of `s`. -/
inductive Ambiguity (s s' : St) (now : ℚ) (e : Ev) : Prop where
  | dialog : e.isDialog = true → s'.ambiguityClearAt = none →
      s'.ambiguousQuestList = (s.ambiguousQuestList || e.offersMany) → Ambiguity s s' now e
  | closing : e.closes = true → s'.ambiguityClearAt = some (now + 5) →
      s'.ambiguousQuestList = s.ambiguousQuestList → Ambiguity s s' now e
  | clearing (x : ℚ) : e = .onUpdate → s.ambiguityClearAt = some x → x ≤ now → s'.ambiguityClearAt = none →
      Ambiguity s s' now e
  | other : e.isDialog = false → s'.ambiguityClearAt = s.ambiguityClearAt →
      s'.ambiguousQuestList = s.ambiguousQuestList → Ambiguity s s' now e

theorem ambiguity_acceptQuest (now : ℚ) (s : St) : (acceptQuest now s).2.ambiguityClearAt = s.ambiguityClearAt ∧
    (acceptQuest now s).2.ambiguousQuestList = s.ambiguousQuestList := by
  unfold acceptQuest
  dsimp only
  split
  · exact ⟨rfl, rfl⟩
  · exact ⟨rfl, rfl⟩

theorem ambiguity_track (addQuestWatch : Nat → Bool) (s : St) :
    (trackNewlyAcceptedQuest addQuestWatch s).2.ambiguityClearAt = s.ambiguityClearAt ∧
      (trackNewlyAcceptedQuest addQuestWatch s).2.ambiguousQuestList = s.ambiguousQuestList := by
  unfold trackNewlyAcceptedQuest
  split
  · exact ⟨rfl, rfl⟩
  · split
    · exact ⟨rfl, rfl⟩
    · dsimp only
      split
      · exact ⟨rfl, rfl⟩
      · exact ⟨rfl, rfl⟩

theorem ambiguity_onUpdate (now : ℚ) (s : St) :
    (∃ x, s.ambiguityClearAt = some x ∧ x ≤ now ∧ (onUpdate now s).ambiguityClearAt = none) ∨
      ((onUpdate now s).ambiguityClearAt = s.ambiguityClearAt ∧
        (onUpdate now s).ambiguousQuestList = s.ambiguousQuestList) := by
  unfold onUpdate
  by_cases hdue : s.ambiguityClearAt.any (· ≤ now) = true
  · obtain ⟨x, hx, hle⟩ := due_iff.mp hdue
    refine Or.inl ⟨x, hx, hle, ?_⟩
    rw [if_pos hdue]
    dsimp only
    split
    · rfl
    · rfl
  · refine Or.inr ?_
    rw [if_neg hdue]
    dsimp only
    split
    · exact ⟨rfl, rfl⟩
    · exact ⟨rfl, rfl⟩

theorem ambiguity_step {s : St} (hon : s.autoQuest = 1) (now : ℚ) (e : Ev) : Ambiguity s (step s (now, e)) now e := by
  cases e with
  | QUEST_GREETING active available =>
    have h := (greeting_spec hon (e := .QUEST_GREETING active available) rfl now).1
    exact .dialog rfl (by rw [h]) (by rw [h]; rfl)
  | GOSSIP_SHOW active available =>
    have h := (greeting_spec hon (e := .GOSSIP_SHOW active available) rfl now).1
    exact .dialog rfl (by rw [h]) (by rw [h]; rfl)
  | QUEST_DETAIL offered =>
    have h := ambiguity_acceptQuest now (cancelAmbiguityClear s)
    refine .dialog rfl ?_ ?_
    · simp only [step, stepOut]
      split
      · exact h.1
      · rfl
    · simp only [step, stepOut, Ev.offersMany, Ev.offers, Option.any_none, Bool.or_false]
      split
      · exact h.2
      · rfl
  | QUEST_PROGRESS completable => exact .dialog rfl rfl (by simp [step, stepOut, cancelAmbiguityClear, Ev.offersMany, Ev.offers])
  | QUEST_COMPLETE choices => exact .dialog rfl rfl (by simp [step, stepOut, cancelAmbiguityClear, Ev.offersMany, Ev.offers])
  | QUEST_FINISHED => exact .closing rfl rfl rfl
  | GOSSIP_CLOSED => exact .closing rfl rfl rfl
  | QUEST_LOG_UPDATE log addQuestWatch =>
    have h := ambiguity_track addQuestWatch { s with log := log }
    exact .other rfl h.1 h.2
  | acceptQuest offered =>
    have h := ambiguity_acceptQuest now s
    exact .other rfl h.1 h.2
  | onUpdate =>
    rcases ambiguity_onUpdate now s with ⟨x, hx, hle, hnone⟩ | ⟨hclear, hflag⟩
    · exact .clearing x rfl hx hle hnone
    · exact .other rfl hclear hflag
  | autoQuestClick => exact .other rfl rfl rfl
  | autoTrackQuestClick =>
    refine .other rfl ?_ ?_
    · simp only [step, stepOut, autoTrackQuestClick]
      split
      · rfl
      · rfl
    · simp only [step, stepOut, autoTrackQuestClick]
      split
      · rfl
      · rfl
  | autoQuestCommand on => exact .other rfl rfl rfl

/-! ## Whole histories -/

namespace History

variable (h : History)

def AutoQuestOn : Prop := ∀ k ≤ h.events.length, (h.state k).autoQuest = 1

/-- Event `a` is a dialog that offers more than one quest. -/
def OffersMany (a : Nat) : Prop := ∃ now e, h.events[a]? = some (now, e) ∧ e.offersMany = true

def DialogAt (d : Nat) : Prop := ∃ now e, h.events[d]? = some (now, e) ∧ e.isDialog = true

def ClosesAt (c : Nat) (T : ℚ) : Prop := ∃ e, h.events[c]? = some (T, e) ∧ e.closes = true

/-- Event `c` closes a dialog, and no dialog event comes in the five seconds after it. -/
def QuietAfter (c : Nat) : Prop :=
  ∃ T, h.ClosesAt c T ∧ ∀ d t e, c < d → h.events[d]? = some (t, e) → e.isDialog = true → T + 5 ≤ t

variable {h}

theorem OffersMany.dialog {a : Nat} (ha : h.OffersMany a) : h.DialogAt a := by
  obtain ⟨now, e, he, hmany⟩ := ha
  refine ⟨now, e, he, ?_⟩
  cases e with
  | QUEST_GREETING => rfl
  | GOSSIP_SHOW => rfl
  | _ => cases hmany

theorem ClosesAt.not_dialog {c : Nat} {T : ℚ} (hc : h.ClosesAt c T) : ¬ h.DialogAt c := by
  intro ⟨now, e, he, hdialog⟩
  obtain ⟨e', he', hcloses⟩ := hc
  rw [he] at he'
  cases he'
  cases e with
  | QUEST_FINISHED => cases hdialog
  | GOSSIP_CLOSED => cases hdialog
  | _ => cases hcloses

theorem dialogAt_iff {d : Nat} {now : ℚ} {e : Ev} (he : h.events[d]? = some (now, e)) :
    h.DialogAt d ↔ e.isDialog = true := by
  constructor
  · intro ⟨_, _, he', hdialog⟩
    rw [he] at he'
    cases he'
    exact hdialog
  · intro hdialog
    exact ⟨now, e, he, hdialog⟩

/-- A schedule stands for a closing event five seconds earlier, with no dialog since. -/
theorem scheduled_at (hon : h.AutoQuestOn) : ∀ k ≤ h.events.length, ∀ x, (h.state k).ambiguityClearAt = some x →
    ∃ c, c < k ∧ h.ClosesAt c (x - 5) ∧ ∀ d, c < d → d < k → ¬ h.DialogAt d := by
  intro k
  induction k with
  | zero => intro _ x hx; cases hx
  | succ k ih =>
    intro hk x hx
    obtain ⟨⟨now, e⟩, he⟩ : ∃ e, h.events[k]? = some e := getElem?_of_lt (by omega)
    rw [state_succ he] at hx
    cases ambiguity_step (hon k (by omega)) now e with
    | dialog _ hclear _ => rw [hclear] at hx; cases hx
    | closing hcloses hclear _ =>
      rw [hclear] at hx
      cases hx
      exact ⟨k, by omega, ⟨e, by simpa using he, hcloses⟩, fun d h1 h2 => by omega⟩
    | clearing y _ _ _ hclear => rw [hclear] at hx; cases hx
    | other hdialog hclear _ =>
      rw [hclear] at hx
      obtain ⟨c, hc, hcloses, hquiet⟩ := ih (by omega) x hx
      refine ⟨c, by omega, hcloses, fun d h1 h2 => ?_⟩
      by_cases hd : d = k
      · subst hd
        rw [dialogAt_iff he, hdialog]
        exact Bool.false_ne_true
      · exact hquiet d h1 (by omega)

/-- Where the flag is clear, every list of several quests has a quiet closing behind it. -/
theorem cleared_after_quiet (hon : h.AutoQuestOn) : ∀ k ≤ h.events.length, (h.state k).ambiguousQuestList = false →
    ∀ a < k, h.OffersMany a → ∃ c, a < c ∧ c < k ∧ h.QuietAfter c := by
  intro k
  induction k with
  | zero => intro _ _ a ha; omega
  | succ k ih =>
    intro hk hflag a ha hmany
    obtain ⟨⟨now, e⟩, he⟩ : ∃ e, h.events[k]? = some e := getElem?_of_lt (by omega)
    rw [state_succ he] at hflag
    -- the flag was clear before, unless the event is the clearing one
    have hbefore : (h.state k).ambiguousQuestList = false → ¬ (a = k) → ∃ c, a < c ∧ c < k + 1 ∧ h.QuietAfter c := by
      intro hclear hne
      obtain ⟨c, h1, h2, hquiet⟩ := ih (by omega) hclear a (by omega) hmany
      exact ⟨c, h1, by omega, hquiet⟩
    cases ambiguity_step (hon k (by omega)) now e with
    | dialog _ _ hnext =>
      rw [hnext, Bool.or_eq_false_iff] at hflag
      apply hbefore hflag.1
      rintro rfl
      obtain ⟨_, _, he', hmany'⟩ := hmany
      rw [he] at he'
      cases he'
      exact absurd (hflag.2.symm.trans hmany') Bool.false_ne_true
    | closing hcloses _ hnext =>
      apply hbefore (hnext ▸ hflag)
      rintro rfl
      exact (ClosesAt.not_dialog ⟨e, he, hcloses⟩) hmany.dialog
    | clearing x hupdate hx hle _ =>
      subst hupdate
      obtain ⟨c, hc, hcloses, hquiet⟩ := scheduled_at hon k (by omega) x hx
      have hak : a ≠ k := by
        rintro rfl
        exact absurd ((dialogAt_iff he).mp hmany.dialog) Bool.false_ne_true
      have hac : a < c := by
        rcases Nat.lt_trichotomy a c with hlt | rfl | hlt
        · exact hlt
        · exact absurd hmany.dialog hcloses.not_dialog
        · exact absurd hmany.dialog (hquiet a hlt (by omega))
      refine ⟨c, hac, by omega, x - 5, hcloses, ?_⟩
      intro d t e' h1 hd hdialog
      have hdk : k < d := by
        rcases Nat.lt_trichotomy d k with hlt | rfl | hlt
        · exact absurd ⟨t, e', hd, hdialog⟩ (hquiet d h1 hlt)
        · rw [he] at hd
          cases hd
          cases hdialog
        · exact hlt
      have := time_le he hd hdk
      dsimp only at this
      linarith
    | other hdialog _ hnext =>
      apply hbefore (hnext ▸ hflag)
      rintro rfl
      exact absurd ((dialogAt_iff he).mp hmany.dialog) (by simp [hdialog])

end History

/-! ## Who selects -/

theorem track_no_choice {addQuestWatch : Nat → Bool} {s : St} {call : Call}
    (hcall : call ∈ (trackNewlyAcceptedQuest addQuestWatch s).1) : call.chooses = false := by
  have hwatch : ∀ indices : List Nat, call ∈ indices.map .addQuestWatch → call.chooses = false := by
    intro indices hmem
    obtain ⟨index, _, rfl⟩ := List.mem_map.mp hmem
    rfl
  unfold trackNewlyAcceptedQuest at hcall
  split at hcall
  · cases hcall
  · split at hcall
    · cases hcall
    · dsimp only at hcall
      split at hcall
      · rcases List.mem_append.mp hcall with hmem | hmem
        · exact hwatch _ hmem
        · rw [List.mem_singleton.mp hmem]
          rfl
      · exact hwatch _ hcall

/-- At most one call, and one that chooses nothing. -/
theorem single_no_choice {p : Prop} [Decidable p] {single call : Call} (hsingle : single.chooses = false)
    (hcall : call ∈ if p then [single] else []) : call.chooses = false := by
  split at hcall
  · rw [List.mem_singleton.mp hcall]
    exact hsingle
  · cases hcall

theorem complete_no_choice {choices : Nat} {s : St} {call : Call} (hcall : call ∈ completeQuest choices s) :
    call.chooses = false := by
  unfold completeQuest at hcall
  split at hcall
  · rw [List.mem_singleton.mp hcall]
    rfl
  · exact single_no_choice rfl hcall

/-- Only a list of quests makes the AddOn select one. -/
theorem chooses_offers {s : St} {now : ℚ} {e : Ev} {call : Call} (hcall : call ∈ (stepOut s (now, e)).1)
    (hchoose : call.chooses = true) : ∃ n, e.offers = some n := by
  cases e with
  | QUEST_GREETING => exact ⟨_, rfl⟩
  | GOSSIP_SHOW => exact ⟨_, rfl⟩
  | QUEST_DETAIL offered =>
    simp only [stepOut] at hcall
    split at hcall
    · rw [List.mem_singleton.mp hcall] at hchoose
      cases hchoose
    · cases hcall
  | QUEST_PROGRESS completable =>
    rw [single_no_choice rfl hcall] at hchoose
    cases hchoose
  | QUEST_COMPLETE choices =>
    rw [complete_no_choice hcall] at hchoose
    cases hchoose
  | QUEST_LOG_UPDATE log addQuestWatch =>
    rw [track_no_choice hcall] at hchoose
    cases hchoose
  | acceptQuest offered =>
    rw [List.mem_singleton.mp hcall] at hchoose
    cases hchoose
  | _ => cases hcall

/-- With autoQuest on throughout: a quest is selected only in a dialog that offers exactly
    one, and after every dialog that offered more there was a closing event with no
    dialog event in the five seconds after it. -/
theorem never_chooses_for_player (h : History) (hon : h.AutoQuestOn) (k : Nat) (call : Call) (hcall : call ∈ h.calls k)
    (hchoose : call.chooses = true) :
    (∃ now e, h.events[k]? = some (now, e) ∧ e.offers = some 1) ∧
      ∀ a < k, h.OffersMany a → ∃ c, a < c ∧ c < k ∧ h.QuietAfter c := by
  cases he : h.events[k]? with
  | none =>
    simp only [History.calls, he] at hcall
    cases hcall
  | some p =>
    obtain ⟨now, e⟩ := p
    have hk := lt_of_getElem? he
    rw [History.calls_eq he] at hcall
    obtain ⟨n, hn⟩ := chooses_offers hcall hchoose
    obtain ⟨rfl, hflag⟩ := (greeting_spec (hon k (by omega)) hn now).2 call hcall hchoose
    exact ⟨⟨now, e, rfl, hn⟩, History.cleared_after_quiet hon k (by omega) hflag⟩

/-- Two quests in a gossip, goodbye, five seconds, and a greeting with one quest. -/
def askedOnce : History where
  autoQuest := 1
  autoTrackQuest := 1
  log := []
  events :=
    [(0, .GOSSIP_SHOW [("Wolves", 3)] [("Bears", 4)]), (1, .GOSSIP_CLOSED), (6, .onUpdate), (7, .QUEST_GREETING 0 1)]
  ordered := by decide +kernel

theorem askedOnce_selects :
    (∃ now e, askedOnce.events[3]? = some (now, e) ∧ e.offers = some 1) ∧
      ∀ a < 3, askedOnce.OffersMany a → ∃ c, a < c ∧ c < 3 ∧ askedOnce.QuietAfter c :=
  never_chooses_for_player askedOnce (by unfold History.AutoQuestOn; decide +kernel) 3 (.selectAvailableQuest 1)
    (by decide +kernel) rfl

end Nostalgia.Quests
