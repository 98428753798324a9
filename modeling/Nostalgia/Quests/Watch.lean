/-
  Nostalgia.Quests.Watch — which quests the AddOn puts on the quest watch
  (DinoController.lua).

  Accepting a quest counts the listed entries by key, and until the snapshot is dropped
  every update watches the entries numbered beyond that count (`Beyond`). One snapshot and
  one deadline serve all acceptances: the next call replaces them, the first successful
  `AddQuestWatch` and the deadline drop them (`Waits`).
  - `snapshot_at`: at every instant the snapshot is that of the latest call, while it waits.
  - `watches_iff`: an update watches exactly the entries beyond a waiting snapshot.
  - `auto_track_iff`: every quest is watched when it appears, and no earlier one is, exactly
    in an orderly history: nothing new is listed between the latest call and the update that
    shows an accepted quest, that quest's entry is numbered beyond the count, and no quest
    accepted before comes to be listed beyond it.
  As built a history need not be orderly: of two calls that overlap the second quest is
  lost, and an expanded header has its old quests watched (`auto_track_misses`).
-/

import Nostalgia.Quests.Machine

namespace Nostalgia.Quests

open Nostalgia.Machine

/-! ## Numbered entries -/

/-- How many lines have the key. -/
def keyCount (key : String) (lines : List Line) : Nat := lines.countP (questLogEntryKey · == some key)

/-- The line at position `p` is a quest entry, and more entries of its key come up to it
    than `base` has in all. -/
def Beyond (base lines : List Line) (p : Nat) : Prop :=
  ∃ line key, lines[p]? = some line ∧ questLogEntryKey line = some key ∧
    keyCount key base < keyCount key (lines.take (p + 1))

/-- An update that lists `lines` drops the snapshot of `base`. -/
def Discards (base lines : List Line) (addQuestWatch : Nat → Bool) : Prop :=
  ∃ p, Beyond base lines p ∧ addQuestWatch (p + 1) = true

theorem keyCount_cons (key : String) (line : Line) (lines : List Line) :
    keyCount key (line :: lines) = keyCount key [line] + keyCount key lines := by
  show keyCount key ([line] ++ lines) = _
  exact List.countP_append

theorem counted_apply (counts : Counts) (line : Line) (key : String) :
    counted counts line key = counts key + keyCount key [line] := by
  unfold counted keyCount
  cases hkey : questLogEntryKey line with
  | none => simp [hkey]
  | some k =>
    by_cases h : key = k
    · subst h
      simp [hkey]
    · simp [hkey, h, Ne.symm h]

theorem foldl_counted (lines : List Line) (key : String) :
    ∀ counts : Counts, lines.foldl counted counts key = counts key + keyCount key lines := by
  induction lines with
  | nil => intro counts; rfl
  | cons line lines ih =>
    intro counts
    rw [List.foldl_cons, ih, counted_apply, keyCount_cons key line lines]
    omega

theorem capture_apply (lines : List Line) (key : String) :
    captureQuestLogSnapshot lines key = keyCount key lines := by
  rw [captureQuestLogSnapshot, foldl_counted]
  exact Nat.zero_add _

/-! ## The loop over the listed lines -/

theorem keyCount_take_succ (key : String) (line : Line) (lines : List Line) (p : Nat) :
    keyCount key ((line :: lines).take (p + 1)) = keyCount key [line] + keyCount key (lines.take p) :=
  keyCount_cons key line (lines.take p)

/-- An entry of a list is its first line or one of the rest. -/
theorem exists_entry_cons {line : Line} {lines : List Line} (Q : Nat → String → Prop) :
    (∃ p l key, (line :: lines)[p]? = some l ∧ questLogEntryKey l = some key ∧ Q p key) ↔
      (∃ key, questLogEntryKey line = some key ∧ Q 0 key) ∨
        ∃ p l key, lines[p]? = some l ∧ questLogEntryKey l = some key ∧ Q (p + 1) key := by
  rw [← Nat.or_exists_add_one]
  simp only [List.getElem?_cons_zero, List.getElem?_cons_succ, Option.some.injEq, exists_and_left, exists_eq_left']

/-- The loop passes on the entries numbered beyond the snapshot. -/
theorem trackLines_mem (snapshot : Counts) (ok : Nat → Bool) : ∀ (lines : List Line) (index : Nat) (seen : Counts) (j : Nat),
    j ∈ (trackLines snapshot ok lines index seen).1 ↔
      ∃ p line key, lines[p]? = some line ∧ questLogEntryKey line = some key ∧ j = index + p ∧
        snapshot key < seen key + keyCount key (lines.take (p + 1)) := by
  intro lines
  induction lines with
  | nil => intro index seen j; simp [trackLines]
  | cons line lines ih =>
    intro index seen j
    rw [exists_entry_cons fun p key => j = index + p ∧
      snapshot key < seen key + keyCount key ((line :: lines).take (p + 1))]
    have hrest : j ∈ (trackLines snapshot ok lines (index + 1) (counted seen line)).1 ↔
        ∃ p l key, lines[p]? = some l ∧ questLogEntryKey l = some key ∧ j = index + (p + 1) ∧
          snapshot key < seen key + keyCount key ((line :: lines).take (p + 1 + 1)) := by
      rw [ih]
      simp only [counted_apply, keyCount_take_succ, ← Nat.add_assoc, Nat.add_right_comm index]
    rw [← hrest]
    simp only [trackLines]
    split
    · rename_i key hkey
      have hone : keyCount key [line] = 1 := by simp [keyCount, hkey]
      have hnone : keyCount key (lines.take 0) = 0 := rfl
      simp only [hkey, Option.some.injEq, exists_eq_left', keyCount_take_succ, hone, hnone, Nat.add_zero]
      split
      · rename_i hlt
        simp [hlt]
      · rename_i hlt
        simp [hlt]
    · rename_i hkey
      simp [hkey]

theorem trackLines_added (snapshot : Counts) (ok : Nat → Bool) : ∀ (lines : List Line) (index : Nat) (seen : Counts),
    (trackLines snapshot ok lines index seen).2 = true ↔
      ∃ j ∈ (trackLines snapshot ok lines index seen).1, ok j = true := by
  intro lines
  induction lines with
  | nil => intro index seen; simp [trackLines]
  | cons line lines ih =>
    intro index seen
    simp only [trackLines]
    split
    · split
      · simp only [Bool.or_eq_true, List.mem_cons, exists_eq_or_imp, ih]
      · exact ih _ _
    · exact ih _ _

/-- An update with the snapshot of `base` pending. -/
theorem track_mem (base lines : List Line) (ok : Nat → Bool) (j : Nat) :
    j ∈ (trackLines (captureQuestLogSnapshot base) ok lines 1 fun _ => 0).1 ↔ ∃ p, j = p + 1 ∧ Beyond base lines p := by
  rw [trackLines_mem]
  simp only [capture_apply, Nat.zero_add]
  constructor
  · intro ⟨p, line, key, hl, hk, hj, hlt⟩
    exact ⟨p, by omega, line, key, hl, hk, hlt⟩
  · intro ⟨p, hj, line, key, hl, hk, hlt⟩
    exact ⟨p, line, key, hl, hk, by omega, hlt⟩

theorem track_added (base lines : List Line) (ok : Nat → Bool) :
    (trackLines (captureQuestLogSnapshot base) ok lines 1 fun _ => 0).2 = true ↔ Discards base lines ok := by
  rw [trackLines_added]
  constructor
  · intro ⟨j, hj, hok⟩
    obtain ⟨p, rfl, hp⟩ := (track_mem base lines ok j).mp hj
    exact ⟨p, hp, hok⟩
  · intro ⟨p, hp, hok⟩
    exact ⟨p + 1, (track_mem base lines ok _).mpr ⟨p, rfl, hp⟩, hok⟩

/-! ## One event -/

/-- The quest whose acceptance the event asks for. -/
def Ev.accepts (s : St) : Ev → Option Quest
  | .acceptQuest q => some q
  | .QUEST_DETAIL q => if s.autoQuest = 1 then some q else none
  | _ => none

/-- What event `e` at `now` makes of the snapshot and the deadline of `s`. -/
inductive Watch (s s' : St) (now : ℚ) (e : Ev) : Prop where
  | accepts (q : Quest) : e.accepts s = some q →
      s'.pendingQuestWatchSnapshot = some (captureQuestLogSnapshot (listed s.log)) →
      s'.pendingQuestWatchUntil = some (now + 5) → Watch s s' now e
  | updates (log : QuestLog) (ok : Nat → Bool) : e = .QUEST_LOG_UPDATE log ok →
      (s.pendingQuestWatchSnapshot = none → s'.pendingQuestWatchSnapshot = none) →
      (∀ base, s.pendingQuestWatchSnapshot = some (captureQuestLogSnapshot base) →
        (Discards base (listed log) ok → s'.pendingQuestWatchSnapshot = none) ∧
        (¬ Discards base (listed log) ok → s'.pendingQuestWatchSnapshot = s.pendingQuestWatchSnapshot ∧
          s'.pendingQuestWatchUntil = s.pendingQuestWatchUntil)) → Watch s s' now e
  | tick : e = .onUpdate → (s.pendingQuestWatchSnapshot = none → s'.pendingQuestWatchSnapshot = none) →
      (∀ x, s.pendingQuestWatchUntil = some x → (x ≤ now → s'.pendingQuestWatchSnapshot = none) ∧
        (now < x → s'.pendingQuestWatchSnapshot = s.pendingQuestWatchSnapshot ∧
          s'.pendingQuestWatchUntil = s.pendingQuestWatchUntil)) → Watch s s' now e
  | other : e.accepts s = none → e ≠ .onUpdate → (∀ log ok, e ≠ .QUEST_LOG_UPDATE log ok) →
      s'.pendingQuestWatchSnapshot = s.pendingQuestWatchSnapshot →
      s'.pendingQuestWatchUntil = s.pendingQuestWatchUntil → Watch s s' now e

theorem watch_list {s : St} (active available : ℚ) (x y : Call) :
    (handleQuestList active available x y s).2.pendingQuestWatchSnapshot = s.pendingQuestWatchSnapshot ∧
      (handleQuestList active available x y s).2.pendingQuestWatchUntil = s.pendingQuestWatchUntil := by
  unfold handleQuestList
  dsimp only
  split
  · exact ⟨rfl, rfl⟩
  · split
    · exact ⟨rfl, rfl⟩
    · split
      · exact ⟨rfl, rfl⟩
      · exact ⟨rfl, rfl⟩

theorem watch_acceptQuest {s : St} (hon : s.autoTrackQuest = 1) (now : ℚ) :
    (acceptQuest now s).2.pendingQuestWatchSnapshot = some (captureQuestLogSnapshot (listed s.log)) ∧
      (acceptQuest now s).2.pendingQuestWatchUntil = some (now + 5) := by
  unfold acceptQuest
  dsimp only
  rw [if_pos hon]
  exact ⟨rfl, rfl⟩

/-- An update of an AddOn that waits with the snapshot of `base`. -/
theorem track_pending {s : St} (hon : s.autoTrackQuest = 1) {base : List Line}
    (hs : s.pendingQuestWatchSnapshot = some (captureQuestLogSnapshot base)) (ok : Nat → Bool) :
    (∀ j, .addQuestWatch j ∈ (trackNewlyAcceptedQuest ok s).1 ↔ ∃ p, j = p + 1 ∧ Beyond base (listed s.log) p) ∧
      (Discards base (listed s.log) ok → (trackNewlyAcceptedQuest ok s).2 = dropSnapshot s) ∧
      (¬ Discards base (listed s.log) ok → (trackNewlyAcceptedQuest ok s).2 = s) := by
  unfold trackNewlyAcceptedQuest
  simp only [hs, hon, ne_eq, not_true_eq_false, if_false]
  have hmem : ∀ j, Call.addQuestWatch j ∈ (trackLines (captureQuestLogSnapshot base) ok (listed s.log) 1 fun _ => 0).1.map .addQuestWatch ↔
      ∃ p, j = p + 1 ∧ Beyond base (listed s.log) p := by
    intro j
    rw [← track_mem base (listed s.log) ok j, List.mem_map]
    simp
  by_cases hd : Discards base (listed s.log) ok
  · rw [if_pos ((track_added base (listed s.log) ok).mpr hd)]
    refine ⟨fun j => ?_, fun _ => rfl, fun hno => absurd hd hno⟩
    rw [List.mem_append, hmem]
    simp
  · rw [if_neg fun h => hd ((track_added base (listed s.log) ok).mp h)]
    exact ⟨hmem, fun h => absurd h hd, fun _ => rfl⟩

theorem watch_onUpdate (now : ℚ) (s : St) : Watch s (step s (now, .onUpdate)) now .onUpdate := by
  -- clearing the ambiguity first leaves the watch alone
  have hsplit : ∃ t : St, t.pendingQuestWatchSnapshot = s.pendingQuestWatchSnapshot ∧
      t.pendingQuestWatchUntil = s.pendingQuestWatchUntil ∧
      step s (now, .onUpdate) = if t.pendingQuestWatchUntil.any (· ≤ now) then dropSnapshot t else t := by
    by_cases hclear : s.ambiguityClearAt.any (· ≤ now) = true
    · refine ⟨{ s with ambiguousQuestList := false, ambiguityClearAt := none }, rfl, rfl, ?_⟩
      simp only [step, stepOut, onUpdate, if_pos hclear]
    · refine ⟨s, rfl, rfl, ?_⟩
      simp only [step, stepOut, onUpdate, if_neg hclear]
  obtain ⟨t, hsnap, huntil, hstep⟩ := hsplit
  rw [hstep]
  refine .tick rfl ?_ ?_
  · intro hnone
    split
    · rfl
    · rw [hsnap, hnone]
  · intro x hx
    constructor
    · intro hle
      rw [if_pos (due_iff.mpr ⟨x, huntil.trans hx, hle⟩)]
      rfl
    · intro hlt
      rw [if_neg]
      · exact ⟨hsnap, huntil⟩
      · intro hdue
        obtain ⟨y, hy, hle⟩ := due_iff.mp hdue
        rw [huntil, hx] at hy
        cases hy
        linarith

theorem watch_step {s : St} (hon : s.autoTrackQuest = 1) (now : ℚ) {e : Ev} (hon' : (step s (now, e)).autoTrackQuest = 1) :
    Watch s (step s (now, e)) now e := by
  cases e with
  | QUEST_GREETING active available =>
    have h := watch_list (s := s) active available (.selectActiveQuest 1) (.selectAvailableQuest 1)
    exact .other rfl (by simp) (by simp) h.1 h.2
  | GOSSIP_SHOW active available =>
    have h := watch_list (s := s) ((Lua.getn (gossipValues active) : ℚ) / 2) ((Lua.getn (gossipValues available) : ℚ) / 2)
      (.selectGossipActiveQuest 1) (.selectGossipAvailableQuest 1)
    exact .other rfl (by simp) (by simp) h.1 h.2
  | QUEST_DETAIL offered =>
    by_cases hauto : s.autoQuest = 1
    · have h := watch_acceptQuest (s := cancelAmbiguityClear s) hon now
      have hstep : step s (now, .QUEST_DETAIL offered) = (acceptQuest now (cancelAmbiguityClear s)).2 := by
        simp only [step, stepOut]
        rw [if_pos (show (cancelAmbiguityClear s).autoQuest = 1 from hauto)]
      rw [hstep]
      exact .accepts offered (by simp [Ev.accepts, hauto]) h.1 h.2
    · have hstep : step s (now, .QUEST_DETAIL offered) = cancelAmbiguityClear s := by
        simp only [step, stepOut]
        rw [if_neg (show ¬ (cancelAmbiguityClear s).autoQuest = 1 from hauto)]
      rw [hstep]
      exact .other (by simp [Ev.accepts, hauto]) (by simp) (by simp) rfl rfl
  | QUEST_LOG_UPDATE log ok =>
    refine .updates log ok rfl ?_ ?_
    · intro hnone
      simp only [step, stepOut, trackNewlyAcceptedQuest, hnone]
    · intro base hbase
      have h := (track_pending (s := { s with log := log }) hon hbase ok).2
      constructor
      · intro hd
        have hstep : step s (now, .QUEST_LOG_UPDATE log ok) = dropSnapshot { s with log := log } := h.1 hd
        rw [hstep]
        rfl
      · intro hd
        have hstep : step s (now, .QUEST_LOG_UPDATE log ok) = { s with log := log } := h.2 hd
        rw [hstep]
        exact ⟨rfl, rfl⟩
  | acceptQuest offered =>
    have h := watch_acceptQuest hon now
    exact .accepts offered rfl h.1 h.2
  | onUpdate => exact watch_onUpdate now s
  | autoTrackQuestClick =>
    exfalso
    simp only [step, stepOut, autoTrackQuestClick, toggled, hon] at hon'
    cases hon'
  | _ => exact .other rfl (by simp) (by simp) rfl rfl

/-! ## Which call an update answers to -/

namespace History

variable (h : History)

def TrackingOn : Prop := ∀ k ≤ h.events.length, (h.state k).autoTrackQuest = 1

/-- The lines the quest log window has before event `k`. -/
def listedAt (k : Nat) : List Line := listed (h.state k).log

/-- Event `n` calls `AcceptQuest` at time `T`, for `q`. -/
def AcceptsAt (n : Nat) (T : ℚ) (q : Quest) : Prop :=
  ∃ e, h.events[n]? = some (T, e) ∧ e.accepts (h.state n) = some q

def UpdatesAt (m : Nat) (t : ℚ) (log : QuestLog) (ok : Nat → Bool) : Prop :=
  h.events[m]? = some (t, .QUEST_LOG_UPDATE log ok)

/-- The latest `AcceptQuest` before event `k` is event `n`, at `T`. -/
structure LatestAccept (n k : Nat) (T : ℚ) : Prop where
  before : n < k
  accepts : ∃ q, h.AcceptsAt n T q
  latest : ∀ d, n < d → d < k → ∀ t q, ¬ h.AcceptsAt d t q

/-- No update between events `n` and `k` lists anything beyond what was listed at `n`. -/
def Undisturbed (n k : Nat) : Prop :=
  ∀ d, n < d → d < k → ∀ t log ok, h.UpdatesAt d t log ok → ¬ Discards (h.listedAt n) (listed log) ok

/-- And no `OnUpdate` comes at the deadline or after it: the call's snapshot is pending. -/
structure Waits (n k : Nat) (T : ℚ) : Prop extends h.LatestAccept n k T where
  undisturbed : h.Undisturbed n k
  inTime : ∀ d, n < d → d < k → ∀ t, h.events[d]? = some (t, .onUpdate) → t < T + 5

variable {h}

theorem LatestAccept.unique {n n' k : Nat} {T T' : ℚ} (hn : h.LatestAccept n k T) (hn' : h.LatestAccept n' k T') :
    n = n' ∧ T = T' := by
  obtain ⟨q, hq⟩ := hn.accepts
  obtain ⟨q', hq'⟩ := hn'.accepts
  have heq : n = n' := by
    rcases Nat.lt_trichotomy n n' with hlt | heq | hlt
    · exact absurd hq' (hn.latest n' hlt hn'.before T' q')
    · exact heq
    · exact absurd hq (hn'.latest n hlt hn.before T q)
  subst heq
  obtain ⟨e, he, _⟩ := hq
  obtain ⟨e', he', _⟩ := hq'
  rw [he] at he'
  cases he'
  exact ⟨rfl, rfl⟩

/-- After a call there is a latest one. -/
theorem latestAccept_exists {n : Nat} {T : ℚ} {q : Quest} (hn : h.AcceptsAt n T q) : ∀ k, n < k →
    ∃ l T', n ≤ l ∧ h.LatestAccept l k T' := by
  intro k
  induction k with
  | zero => intro hk; omega
  | succ k ih =>
    intro hk
    by_cases hlast : ∃ t q', h.AcceptsAt k t q'
    · obtain ⟨t, q', hq'⟩ := hlast
      exact ⟨k, t, by omega, by omega, ⟨q', hq'⟩, fun d h1 h2 => by omega⟩
    · have hnk : n < k := by
        rcases Nat.lt_or_ge n k with hlt | hge
        · exact hlt
        · obtain rfl : n = k := by omega
          exact absurd ⟨T, q, hn⟩ hlast
      obtain ⟨l, T', hle, hl⟩ := ih hnk
      refine ⟨l, T', hle, by have := hl.before; omega, hl.accepts, fun d h1 h2 t q' hd => ?_⟩
      by_cases hdk : d = k
      · subst hdk
        exact hlast ⟨t, q', hd⟩
      · exact hl.latest d h1 (by omega) t q' hd

/-- A wait goes on over an event that neither calls, drops nor comes too late. -/
theorem Waits.next {n k : Nat} {T now : ℚ} {e : Ev} (hw : h.Waits n k T) (he : h.events[k]? = some (now, e))
    (hcall : e.accepts (h.state k) = none)
    (hupdate : ∀ log ok, e = .QUEST_LOG_UPDATE log ok → ¬ Discards (h.listedAt n) (listed log) ok)
    (htick : e = .onUpdate → now < T + 5) : h.Waits n (k + 1) T := by
  have hbefore := hw.before
  refine { before := by omega, accepts := hw.accepts, latest := ?_, undisturbed := ?_, inTime := ?_ }
  · intro d h1 h2 t q hd
    by_cases hdk : d = k
    · subst hdk
      obtain ⟨e', he', hq⟩ := hd
      rw [he] at he'
      cases he'
      rw [hcall] at hq
      cases hq
    · exact hw.latest d h1 (by omega) t q hd
  · intro d h1 h2 t log ok hd
    by_cases hdk : d = k
    · subst hdk
      have hd' := hd
      unfold UpdatesAt at hd'
      rw [he] at hd'
      cases hd'
      exact hupdate log ok rfl
    · exact hw.undisturbed d h1 (by omega) t log ok hd
  · intro d h1 h2 t hd
    by_cases hdk : d = k
    · subst hdk
      rw [he] at hd
      cases hd
      exact htick rfl
    · exact hw.inTime d h1 (by omega) t hd

/-- A wait is a wait one event earlier, or it starts with that event. -/
theorem Waits.previous {n k : Nat} {T : ℚ} (hw : h.Waits n (k + 1) T) (hnk : n ≠ k) : h.Waits n k T := by
  have hbefore := hw.before
  exact { before := by omega
          accepts := hw.accepts
          latest := fun d h1 h2 => hw.latest d h1 (by omega)
          undisturbed := fun d h1 h2 => hw.undisturbed d h1 (by omega)
          inTime := fun d h1 h2 => hw.inTime d h1 (by omega) }

/-- The pending snapshot is that of the waiting call. -/
structure Holds (k : Nat) : Prop where
  waiting : ∀ n T, h.Waits n k T → (h.state k).pendingQuestWatchSnapshot = some (captureQuestLogSnapshot (h.listedAt n)) ∧
    (h.state k).pendingQuestWatchUntil = some (T + 5)
  pending : (h.state k).pendingQuestWatchSnapshot ≠ none → ∃ n T, h.Waits n k T

theorem Waits.starts_at {n k : Nat} {T now : ℚ} {e : Ev} (hw : h.Waits n (k + 1) T) (he : h.events[k]? = some (now, e))
    (hcall : e.accepts (h.state k) = none) : n ≠ k := by
  rintro rfl
  obtain ⟨q, e', he', hq⟩ := hw.accepts
  rw [he] at he'
  cases he'
  rw [hcall] at hq
  cases hq

theorem holds_accept {k : Nat} {now : ℚ} {e : Ev} {q : Quest} (he : h.events[k]? = some (now, e))
    (hcall : e.accepts (h.state k) = some q)
    (hsnap : (h.state (k + 1)).pendingQuestWatchSnapshot = some (captureQuestLogSnapshot (h.listedAt k)))
    (huntil : (h.state (k + 1)).pendingQuestWatchUntil = some (now + 5)) : h.Holds (k + 1) := by
  have hk : h.LatestAccept k (k + 1) now := ⟨by omega, ⟨q, e, he, hcall⟩, fun d h1 h2 => by omega⟩
  constructor
  · intro n T hw
    obtain ⟨rfl, rfl⟩ := hw.toLatestAccept.unique hk
    exact ⟨hsnap, huntil⟩
  · intro _
    exact ⟨k, now, hk, fun d h1 h2 => by omega, fun d h1 h2 => by omega⟩

/-- At every instant: the induction over the history. -/
theorem snapshot_at (hon : h.TrackingOn) : ∀ k ≤ h.events.length, h.Holds k := by
  intro k
  induction k with
  | zero =>
    intro _
    exact ⟨fun n T hw => absurd hw.before (by omega), fun hsome => absurd rfl hsome⟩
  | succ k ih =>
    intro hk
    obtain ⟨⟨now, e⟩, he⟩ : ∃ e, h.events[k]? = some e := getElem?_of_lt (by omega)
    obtain ⟨hwaiting, hpending⟩ := ih (by omega)
    have hnext := hon (k + 1) hk
    rw [state_succ he] at hnext
    have hwatch := watch_step (hon k (by omega)) now hnext
    rw [← state_succ he] at hwatch
    cases hwatch with
    | accepts q hcall hsnap huntil => exact holds_accept he hcall hsnap huntil
    | updates log ok hupdate hnone hbase =>
      subst hupdate
      constructor
      · intro n T hw
        obtain ⟨hsnap, huntil⟩ := hwaiting n T (hw.previous (hw.starts_at he rfl))
        have hquiet := hw.undisturbed k (by have := hw.starts_at he rfl; have := hw.before; omega) (by omega) now log ok he
        obtain ⟨h1, h2⟩ := (hbase _ hsnap).2 hquiet
        exact ⟨h1.trans hsnap, h2.trans huntil⟩
      · intro hsome
        obtain ⟨n, T, hw⟩ := hpending fun h0 => hsome (hnone h0)
        have hquiet : ¬ Discards (h.listedAt n) (listed log) ok := fun hd => hsome ((hbase _ (hwaiting n T hw).1).1 hd)
        refine ⟨n, T, hw.next he rfl ?_ ?_⟩
        · intro log' ok' heq
          cases heq
          exact hquiet
        · intro heq
          cases heq
    | tick hupdate hnone htick =>
      subst hupdate
      constructor
      · intro n T hw
        obtain ⟨hsnap, huntil⟩ := hwaiting n T (hw.previous (hw.starts_at he rfl))
        have hlt := hw.inTime k (by have := hw.starts_at he rfl; have := hw.before; omega) (by omega) now he
        obtain ⟨h1, h2⟩ := (htick _ huntil).2 hlt
        exact ⟨h1.trans hsnap, h2.trans huntil⟩
      · intro hsome
        obtain ⟨n, T, hw⟩ := hpending fun h0 => hsome (hnone h0)
        have hlt : now < T + 5 := by
          by_contra hle
          exact hsome ((htick _ (hwaiting n T hw).2).1 (not_lt.mp hle))
        refine ⟨n, T, hw.next he rfl ?_ (fun _ => hlt)⟩
        intro log ok heq
        cases heq
    | other hcall hno hno' hsnap huntil =>
      constructor
      · intro n T hw
        obtain ⟨h1, h2⟩ := hwaiting n T (hw.previous (hw.starts_at he hcall))
        exact ⟨hsnap.trans h1, huntil.trans h2⟩
      · intro hsome
        rw [hsnap] at hsome
        obtain ⟨n, T, hw⟩ := hpending hsome
        exact ⟨n, T, hw.next he hcall (fun log ok heq => absurd heq (hno' log ok)) fun heq => absurd heq hno⟩

/-- An update watches exactly the entries beyond the snapshot of a waiting call. -/
theorem watches_iff (hon : h.TrackingOn) {m : Nat} {t : ℚ} {log : QuestLog} {ok : Nat → Bool} (hm : h.UpdatesAt m t log ok)
    (p : Nat) : .addQuestWatch (p + 1) ∈ h.calls m ↔ ∃ n T, h.Waits n m T ∧ Beyond (h.listedAt n) (listed log) p := by
  have hlt := lt_of_getElem? hm
  obtain ⟨hwaiting, hpending⟩ := snapshot_at hon m (by omega)
  rw [calls_eq hm]
  simp only [stepOut]
  by_cases hsome : (h.state m).pendingQuestWatchSnapshot = none
  · have hno : ¬ ∃ n T, h.Waits n m T ∧ Beyond (h.listedAt n) (listed log) p := by
      intro ⟨n, T, hw, _⟩
      rw [(hwaiting n T hw).1] at hsome
      cases hsome
    simp only [trackNewlyAcceptedQuest, hsome]
    exact ⟨fun hmem => absurd hmem List.not_mem_nil, fun hex => absurd hex hno⟩
  · obtain ⟨n, T, hw⟩ := hpending hsome
    have htrack := (track_pending (s := { h.state m with log := log }) (hon m (by omega)) (hwaiting n T hw).1 ok).1 (p + 1)
    rw [htrack]
    constructor
    · intro ⟨p', heq, hp⟩
      obtain rfl : p = p' := by omega
      exact ⟨n, T, hw, hp⟩
    · intro ⟨n', T', hw', hp⟩
      obtain ⟨rfl, rfl⟩ := hw'.toLatestAccept.unique hw.toLatestAccept
      exact ⟨p, rfl, hp⟩

/-! ## Every accepted quest, and only those -/

variable (h)

/-- The call at event `n` is for `q`, and less than five seconds later the update at event
    `m` is the first to list it, at position `p`. -/
structure Appears (n m p : Nat) (q : Quest) : Prop where
  before : n < m
  intime : ∃ T t log ok, h.AcceptsAt n T q ∧ h.UpdatesAt m t log ok ∧ t < T + 5
  unlisted : ∀ d, n ≤ d → d ≤ m → .quest q ∉ h.listedAt d
  listed : (h.listedAt (m + 1))[p]? = some (.quest q)

/-- At event `m` the call at event `n`, less than five seconds ago, has not shown its quest. -/
structure PendingAt (n m : Nat) : Prop where
  before : n < m
  waiting : ∃ T q t e, h.AcceptsAt n T q ∧ h.events[m]? = some (t, e) ∧ t < T + 5 ∧
    ∀ d, n < d → d ≤ m → .quest q ∉ h.listedAt d

/-- The earliest call still pending. -/
def EarliestPending (n m : Nat) : Prop := h.PendingAt n m ∧ ∀ n' < n, ¬ h.PendingAt n' m

/-- The update at event `m` lists, at position `p`, a quest that the player had before
    the earliest call still pending. -/
def ListsOld (m p : Nat) : Prop :=
  ∃ n t log ok q, h.EarliestPending n m ∧ h.UpdatesAt m t log ok ∧ (Quests.listed log)[p]? = some (.quest q) ∧
    q ∈ accepted (h.state n).log

/-- `AddQuestWatch` is called for every quest whose call was made and that appears within
    five seconds, at an update that lists it. -/
def CatchesAccepted : Prop :=
  ∀ n m p q, h.Appears n m p q → ∃ m' t log ok p', n < m' ∧ h.UpdatesAt m' t log ok ∧
    (Quests.listed log)[p']? = some (.quest q) ∧ .addQuestWatch (p' + 1) ∈ h.calls m'

/-- The update that shows the quest watches it. -/
def CatchesOnSight : Prop := ∀ n m p q, h.Appears n m p q → .addQuestWatch (p + 1) ∈ h.calls m

def SparesOld : Prop := ∀ m p, h.ListsOld m p → .addQuestWatch (p + 1) ∉ h.calls m

/-- The history is one that a single snapshot can serve. -/
structure Orderly : Prop where
  /-- Nothing new is listed between the latest call and the update that shows a quest. -/
  undisturbed : ∀ n m p q, h.Appears n m p q → ∀ l T, h.LatestAccept l m T → h.Undisturbed l m
  /-- The quest's entry is numbered beyond what was listed at the latest call. -/
  numbered : ∀ n m p q, h.Appears n m p q → ∀ l T, h.LatestAccept l m T → Beyond (h.listedAt l) (h.listedAt (m + 1)) p
  /-- No quest from before comes to be listed beyond it while the latest call waits. -/
  noneRelisted : ∀ m p, h.ListsOld m p → ∀ l T, h.Waits l m T → ¬ Beyond (h.listedAt l) (h.listedAt (m + 1)) p

variable {h}

/-- An update leaves the log as it came. -/
theorem listedAt_update {m : Nat} {t : ℚ} {log : QuestLog} {ok : Nat → Bool} (hm : h.UpdatesAt m t log ok) :
    h.listedAt (m + 1) = Quests.listed log := by
  have hlog : (h.state (m + 1)).log = log := by
    rw [state_succ hm]
    simp only [step, stepOut, trackNewlyAcceptedQuest]
    split
    · rfl
    · split
      · rfl
      · split
        · rfl
        · rfl
  rw [listedAt, hlog]

theorem AcceptsAt.time_le {n l : Nat} {T T' : ℚ} {q q' : Quest} (hn : h.AcceptsAt n T q) (hl : h.AcceptsAt l T' q')
    (hnl : n ≤ l) : T ≤ T' := by
  obtain ⟨e, he, _⟩ := hn
  obtain ⟨e', he', _⟩ := hl
  rcases Nat.lt_or_ge n l with hlt | hge
  · exact History.time_le he he' hlt
  · obtain rfl : n = l := by omega
    rw [he] at he'
    cases he'
    exact le_refl _

/-- Less than five seconds after the call the latest call has not run out. -/
theorem Appears.waits {n m p l : Nat} {q : Quest} {T : ℚ} (ha : h.Appears n m p q) (hl : h.LatestAccept l m T)
    (hund : h.Undisturbed l m) : h.Waits l m T := by
  obtain ⟨Tn, t, log, ok, hn, hm, hlt⟩ := ha.intime
  obtain ⟨ql, hql⟩ := hl.accepts
  have hnl : n ≤ l := by
    by_contra hnl
    exact hl.latest n (by omega) ha.before Tn q hn
  have hT := hn.time_le hql hnl
  refine ⟨hl, hund, ?_⟩
  intro d h1 h2 td hd
  have hle : td ≤ t := History.time_le hd hm h2
  linarith

theorem appears_watched_iff (hon : h.TrackingOn) {n m p : Nat} {q : Quest} (ha : h.Appears n m p q) :
    .addQuestWatch (p + 1) ∈ h.calls m ↔
      ∀ l T, h.LatestAccept l m T → h.Undisturbed l m ∧ Beyond (h.listedAt l) (h.listedAt (m + 1)) p := by
  obtain ⟨Tn, t, log, ok, hn, hm, _⟩ := ha.intime
  rw [watches_iff hon hm, listedAt_update hm]
  constructor
  · intro ⟨l, T, hw, hp⟩ l' T' hl'
    obtain ⟨rfl, rfl⟩ := hl'.unique hw.toLatestAccept
    exact ⟨hw.undisturbed, hp⟩
  · intro hall
    obtain ⟨l, T, _, hl⟩ := latestAccept_exists hn m ha.before
    obtain ⟨hund, hp⟩ := hall l T hl
    exact ⟨l, T, ha.waits hl hund, hp⟩

theorem old_spared_iff (hon : h.TrackingOn) {m p : Nat} (hold : h.ListsOld m p) :
    .addQuestWatch (p + 1) ∉ h.calls m ↔ ∀ l T, h.Waits l m T → ¬ Beyond (h.listedAt l) (h.listedAt (m + 1)) p := by
  obtain ⟨_, t, log, ok, _, _, hm, _, _⟩ := hold
  rw [watches_iff hon hm, listedAt_update hm]
  constructor
  · intro hno l T hw hp
    exact hno ⟨l, T, hw, hp⟩
  · intro hall ⟨l, T, hw, hp⟩
    exact hall l T hw hp

theorem CatchesOnSight.catches (hcatch : h.CatchesOnSight) : h.CatchesAccepted := by
  intro n m p q ha
  obtain ⟨_, t, log, ok, _, hm, _⟩ := ha.intime
  refine ⟨m, t, log, ok, p, ha.before, hm, ?_, hcatch n m p q ha⟩
  rw [← listedAt_update hm]
  exact ha.listed

end History

/-- With autoTrackQuest on throughout: every accepted quest is watched as soon as it
    appears, and no earlier one is, exactly if the history is orderly. -/
theorem auto_track_iff (h : History) (hon : h.TrackingOn) :
    (h.CatchesOnSight ∧ h.SparesOld ↔ h.Orderly) ∧ (h.CatchesOnSight → h.CatchesAccepted) := by
  refine ⟨?_, History.CatchesOnSight.catches⟩
  constructor
  · intro ⟨hcatch, hspare⟩
    refine ⟨?_, ?_, ?_⟩
    · intro n m p q ha l T hl
      exact ((History.appears_watched_iff hon ha).mp (hcatch n m p q ha) l T hl).1
    · intro n m p q ha l T hl
      exact ((History.appears_watched_iff hon ha).mp (hcatch n m p q ha) l T hl).2
    · intro m p hold
      exact (History.old_spared_iff hon hold).mp (hspare m p hold)
  · intro ho
    refine ⟨?_, ?_⟩
    · intro n m p q ha
      exact (History.appears_watched_iff hon ha).mpr fun l T hl =>
        ⟨ho.undisturbed n m p q ha l T hl, ho.numbered n m p q ha l T hl⟩
    · intro m p hold
      exact (History.old_spared_iff hon hold).mpr (ho.noneRelisted m p hold)

/-! ## Quests lost and quests brought back -/

def wolves : Quest := ⟨1, "Wolves", some 3, none⟩
def bears : Quest := ⟨2, "Bears", some 4, none⟩

/-- Two calls before the server answers; the quests come one after the other. -/
def overlapping : History where
  autoQuest := 1
  autoTrackQuest := 1
  log := [⟨"Elwynn Forest", false, []⟩]
  events :=
    [(0, .acceptQuest wolves), (1 / 2, .acceptQuest bears),
      (1, .QUEST_LOG_UPDATE [⟨"Elwynn Forest", false, [wolves]⟩] fun _ => true),
      (2, .QUEST_LOG_UPDATE [⟨"Elwynn Forest", false, [wolves, bears]⟩] fun _ => true), (6, .onUpdate)]
  ordered := by decide +kernel

/-- A call, and the header of an old quest is expanded. -/
def expanded : History where
  autoQuest := 1
  autoTrackQuest := 1
  log := [⟨"Elwynn Forest", true, [wolves]⟩]
  events :=
    [(0, .acceptQuest bears), (1, .QUEST_LOG_UPDATE [⟨"Elwynn Forest", false, [wolves]⟩] fun _ => true)]
  ordered := by decide +kernel

theorem bears_appear : overlapping.Appears 1 3 2 bears where
  before := by decide
  intime := ⟨1 / 2, 2, _, _, ⟨_, rfl, rfl⟩, rfl, by norm_num⟩
  unlisted := by
    intro d h1 h2
    obtain rfl | rfl | rfl : d = 1 ∨ d = 2 ∨ d = 3 := by omega
    · decide +kernel
    · decide +kernel
    · decide +kernel
  listed := by decide +kernel

theorem wolves_relisted : expanded.ListsOld 1 1 := by
  have hpending : expanded.PendingAt 0 1 := by
    refine ⟨by decide, 0, bears, 1, _, ⟨_, rfl, rfl⟩, rfl, by norm_num, ?_⟩
    intro d h1 h2
    obtain rfl : d = 1 := by omega
    decide +kernel
  exact ⟨0, 1, _, _, wolves, ⟨hpending, fun n' hn' => by omega⟩, rfl, by decide +kernel, by decide +kernel⟩

/-- The second of two overlapping quests is never watched; an old quest is, when its
    header is expanded. -/
theorem auto_track_misses : (overlapping.TrackingOn ∧ ¬ overlapping.CatchesAccepted) ∧
    (expanded.TrackingOn ∧ ¬ expanded.SparesOld) := by
  refine ⟨⟨by unfold History.TrackingOn; decide +kernel, ?_⟩, ⟨by unfold History.TrackingOn; decide +kernel, ?_⟩⟩
  · intro hcatch
    obtain ⟨m, t, log, ok, p, hlt, hm, hp, hcall⟩ := hcatch 1 3 2 bears bears_appear
    rcases m with _ | _ | _ | _ | _ | m
    · omega
    · omega
    · -- the first update does not list it
      simp only [History.UpdatesAt, overlapping, List.getElem?_cons_succ, List.getElem?_cons_zero, Option.some.injEq,
        Prod.mk.injEq, Ev.QUEST_LOG_UPDATE.injEq] at hm
      obtain ⟨_, rfl, _⟩ := hm
      have hmem := List.mem_of_getElem? hp
      revert hmem
      decide +kernel
    · have hnone : overlapping.calls 3 = [] := by decide +kernel
      rw [hnone] at hcall
      cases hcall
    · simp [History.UpdatesAt, overlapping] at hm
    · simp [History.UpdatesAt, overlapping] at hm
  · intro hspare
    apply hspare 1 1 wolves_relisted
    decide +kernel

/-- A call, and its quest. -/
def alone : History where
  autoQuest := 1
  autoTrackQuest := 1
  log := [⟨"Elwynn Forest", false, [wolves]⟩]
  events :=
    [(0, .acceptQuest bears), (1, .QUEST_LOG_UPDATE [⟨"Elwynn Forest", false, [wolves, bears]⟩] fun _ => true)]
  ordered := by decide +kernel

theorem alone_updates {m : Nat} {t : ℚ} {log : QuestLog} {ok : Nat → Bool} (h : alone.UpdatesAt m t log ok) :
    m = 1 ∧ log = [⟨"Elwynn Forest", false, [wolves, bears]⟩] := by
  rcases m with _ | _ | m
  · simp [History.UpdatesAt, alone] at h
  · simp only [History.UpdatesAt, alone, List.getElem?_cons_succ, List.getElem?_cons_zero, Option.some.injEq,
      Prod.mk.injEq, Ev.QUEST_LOG_UPDATE.injEq, zero_add] at h
    exact ⟨rfl, h.2.1.symm⟩
  · simp [History.UpdatesAt, alone] at h

theorem alone_listed : alone.listedAt 2 = [.header "Elwynn Forest", .quest wolves, .quest bears] := by decide +kernel

/-- What the update lists beyond the log at the call is the third line alone. -/
theorem alone_beyond (p : Nat) : Beyond (alone.listedAt 0) (alone.listedAt 2) p ↔ p = 2 := by
  have hwolves : keyCount wolves.key (alone.listedAt 0) = 1 ∧
      keyCount wolves.key [.header "Elwynn Forest", .quest wolves] = 1 := by decide +kernel
  have hbears : keyCount bears.key (alone.listedAt 0) = 0 ∧
      keyCount bears.key [.header "Elwynn Forest", .quest wolves, .quest bears] = 1 := by decide +kernel
  rw [alone_listed]
  constructor
  · rintro ⟨line, key, hline, hkey, hlt⟩
    rcases p with _ | _ | _ | p
    · cases hline
      cases hkey
    · cases hline
      cases hkey
      rw [hwolves.1] at hlt
      exact absurd hwolves.2 (by simpa using Nat.ne_of_gt hlt)
    · rfl
    · cases hline
  · rintro rfl
    refine ⟨.quest bears, bears.key, rfl, rfl, ?_⟩
    rw [hbears.1]
    exact Nat.lt_of_lt_of_eq Nat.zero_lt_one hbears.2.symm

theorem alone_orderly : alone.Orderly where
  undisturbed n m p q ha l T hl d h1 h2 := by
    obtain ⟨_, _, _, _, _, hm, _⟩ := ha.intime
    obtain ⟨rfl, _⟩ := alone_updates hm
    omega
  numbered n m p q ha l T hl := by
    obtain ⟨T', _, _, _, ⟨e, he, hq⟩, hm, _⟩ := ha.intime
    obtain ⟨rfl, _⟩ := alone_updates hm
    obtain rfl : n = 0 := Nat.lt_one_iff.mp ha.before
    obtain rfl : l = 0 := Nat.lt_one_iff.mp hl.before
    obtain ⟨_, rfl⟩ := Prod.mk.inj (Option.some.inj he)
    have hbears : q = bears := by
      have haccepts : (Ev.acceptQuest bears).accepts (alone.state 0) = some bears := by decide +kernel
      rw [haccepts] at hq
      exact (Option.some.inj hq).symm
    subst hbears
    have hlisted := ha.listed
    rw [alone_listed] at hlisted
    rw [alone_beyond]
    rcases p with _ | _ | _ | p
    · cases hlisted
    · cases hlisted
    · rfl
    · cases hlisted
  noneRelisted m p hold l T hl := by
    obtain ⟨n, t, log, ok, q, hearliest, hm, hp, hq⟩ := hold
    obtain ⟨rfl, rfl⟩ := alone_updates hm
    obtain rfl : n = 0 := Nat.lt_one_iff.mp hearliest.1.before
    obtain rfl : l = 0 := Nat.lt_one_iff.mp hl.before
    rw [alone_beyond]
    rintro rfl
    have hold : accepted (alone.state 0).log = [wolves] := by decide +kernel
    rw [hold] at hq
    obtain rfl := List.mem_singleton.mp hq
    have hthird : (Quests.listed [⟨"Elwynn Forest", false, [wolves, bears]⟩])[2]? = some (.quest bears) := by
      decide +kernel
    rw [hthird] at hp
    cases hp

/-- The new quest is watched as it appears, the old one is not. -/
theorem alone_tracked : (alone.CatchesOnSight ∧ alone.SparesOld) ∧ alone.CatchesAccepted := by
  obtain ⟨hiff, haccepted⟩ := auto_track_iff alone (by unfold History.TrackingOn; decide +kernel)
  exact ⟨hiff.mpr alone_orderly, haccepted (hiff.mpr alone_orderly).1⟩

end Nostalgia.Quests
