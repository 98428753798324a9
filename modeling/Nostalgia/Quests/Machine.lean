/-
  Nostalgia.Quests.Machine — the quest events of the AddOn: automatic dialogs and the
  quest watch (DinoController.lua).

  Model.  The state is the four locals `ambiguousQuestList`, `ambiguityClearAt`,
  `pendingQuestWatchSnapshot` and `pendingQuestWatchUntil`, the two settings that steer
  them, and the client's quest log. An event comes at a time of `GetTime` with what the
  client tells about it then; `stepOut` is the calls a handler makes, and the state.
  - A quest has an identity the AddOn never sees: it reads title, level and tag, and
    counts entries that agree in them (`QuestLogEntryKey`).
  - `GetNumQuestLogEntries` counts the lines of the window: a collapsed header hides its
    quests. A change of the log and its QUEST_LOG_UPDATE are one event.
  - `AcceptQuest` is the wrapped global: the client's button and QUEST_DETAIL call it, and
    the quest it accepts is the one offered then.
-/

import Nostalgia.Lua.Table
import Nostalgia.Machine.Run

namespace Nostalgia.Quests

open Nostalgia.Lua Nostalgia.Machine

/-! ## The quest log -/

structure Quest where
  /-- Which quest it is, for the server. -/
  id : Nat
  title : String
  level : Option Int
  questTag : Option String
  deriving DecidableEq, Repr

structure Section where
  header : String
  collapsed : Bool
  quests : List Quest
  deriving DecidableEq, Repr

abbrev QuestLog := List Section

/-- A line of the quest log window. -/
inductive Line where
  | header (title : String)
  | quest (q : Quest)
  deriving DecidableEq, Repr

def Section.lines (s : Section) : List Line :=
  .header s.header :: if s.collapsed then [] else s.quests.map .quest

/-- What `GetQuestLogTitle` goes through, from index 1 to `GetNumQuestLogEntries`. -/
def listed (log : QuestLog) : List Line := log.flatMap Section.lines

/-- The quests the player has, listed or not. -/
def accepted (log : QuestLog) : List Quest := log.flatMap Section.quests

def Quest.key (q : Quest) : String :=
  q.title ++ "\x1f" ++ (q.level.map toString).getD "" ++ "\x1f" ++ q.questTag.getD ""

/-- `QuestLogEntryKey` of a line. -/
def questLogEntryKey : Line → Option String
  | .header _ => none
  | .quest q => some q.key

/-- A table from keys to numbers, 0 where it has nothing. -/
abbrev Counts := String → Nat

def counted (counts : Counts) (line : Line) : Counts :=
  match questLogEntryKey line with
  | some key => Function.update counts key (counts key + 1)
  | none => counts

def captureQuestLogSnapshot (lines : List Line) : Counts := lines.foldl counted fun _ => 0

/-! ## State -/

structure St where
  autoQuest : Nat
  autoTrackQuest : Nat
  ambiguousQuestList : Bool
  ambiguityClearAt : Option ℚ
  pendingQuestWatchSnapshot : Option Counts
  pendingQuestWatchUntil : Option ℚ
  log : QuestLog

/-- What the handlers ask of the client. -/
inductive Call where
  | print (text : String)
  | selectActiveQuest (index : Nat)
  | selectAvailableQuest (index : Nat)
  | selectGossipActiveQuest (index : Nat)
  | selectGossipAvailableQuest (index : Nat)
  | acceptQuest
  | completeQuest
  | getQuestReward (choice : Nat)
  | addQuestWatch (index : Nat)
  | questWatchUpdate
  deriving DecidableEq, Repr

/-! ## Dialogs -/

def markQuestListAmbiguous (s : St) : List Call × St :=
  (if s.ambiguousQuestList then [] else [.print "Multiple quests are available - select one."],
    { s with ambiguousQuestList := true })

def cancelAmbiguityClear (s : St) : St := { s with ambiguityClearAt := none }

/-- The body that `HandleQuestGreeting` and `HandleGossipShow` share. -/
def handleQuestList (active available : ℚ) (selectActive selectAvailable : Call) (s : St) : List Call × St :=
  let s := cancelAmbiguityClear s
  if s.autoQuest ≠ 1 then ([], s)
  else if 1 < active + available then markQuestListAmbiguous s
  else if active + available = 1 ∧ s.ambiguousQuestList = false then
    ([if active = 1 then selectActive else selectAvailable], s)
  else ([], s)

/-- A result of `GetGossipActiveQuests` or `GetGossipAvailableQuests`. -/
inductive GossipValue where
  | title (title : String)
  | level (level : Int)
  deriving DecidableEq, Repr

/-- The results as the table the handler makes of them: a title and a level a quest. -/
def gossipValues (quests : List (String × Int)) : Arr GossipValue :=
  quests.flatMap fun q => [some (.title q.1), some (.level q.2)]

def handleQuestGreeting (active available : Nat) : St → List Call × St :=
  handleQuestList active available (.selectActiveQuest 1) (.selectAvailableQuest 1)

def handleGossipShow (activeValues availableValues : Arr GossipValue) : St → List Call × St :=
  handleQuestList ((getn activeValues : ℚ) / 2) ((getn availableValues : ℚ) / 2)
    (.selectGossipActiveQuest 1) (.selectGossipAvailableQuest 1)

/-! ## The quest watch -/

/-- The loop of `TrackNewlyAcceptedQuest` from line `index` on: the indices it passes to
    `AddQuestWatch`, and whether one of these calls succeeded. -/
def trackLines (snapshot : Counts) (addQuestWatch : Nat → Bool) : List Line → Nat → Counts → List Nat × Bool
  | [], _, _ => ([], false)
  | line :: rest, index, oldEntriesSeen =>
    let r := trackLines snapshot addQuestWatch rest (index + 1) (counted oldEntriesSeen line)
    match questLogEntryKey line with
    | some key =>
      if snapshot key < oldEntriesSeen key + 1 then (index :: r.1, addQuestWatch index || r.2) else r
    | none => r

def dropSnapshot (s : St) : St := { s with pendingQuestWatchSnapshot := none, pendingQuestWatchUntil := none }

/-- `addQuestWatch` says which calls of `AddQuestWatch` succeed. -/
def trackNewlyAcceptedQuest (addQuestWatch : Nat → Bool) (s : St) : List Call × St :=
  match s.pendingQuestWatchSnapshot with
  | none => ([], s)
  | some snapshot =>
    if s.autoTrackQuest ≠ 1 then ([], dropSnapshot s)
    else
      let r := trackLines snapshot addQuestWatch (listed s.log) 1 fun _ => 0
      if r.2 then (r.1.map .addQuestWatch ++ [.questWatchUpdate], dropSnapshot s) else (r.1.map .addQuestWatch, s)

def acceptQuest (now : ℚ) (s : St) : List Call × St :=
  ([.acceptQuest],
    if s.autoTrackQuest = 1 then
      { s with
        pendingQuestWatchSnapshot := some (captureQuestLogSnapshot (listed s.log))
        pendingQuestWatchUntil := some (now + 5) }
    else dropSnapshot s)

/-! ## Events -/

inductive Ev where
  /-- With `GetNumActiveQuests` and `GetNumAvailableQuests`. -/
  | QUEST_GREETING (active available : Nat)
  | GOSSIP_SHOW (active available : List (String × Int))
  | QUEST_DETAIL (offered : Quest)
  | QUEST_PROGRESS (completable : Bool)
  | QUEST_COMPLETE (choices : Nat)
  | QUEST_FINISHED
  | GOSSIP_CLOSED
  /-- The log is `log` now. -/
  | QUEST_LOG_UPDATE (log : QuestLog) (addQuestWatch : Nat → Bool)
  | acceptQuest (offered : Quest)
  | onUpdate
  /-- The menu's buttons, and `/dino autoquest on` and `off`. -/
  | autoQuestClick
  | autoTrackQuestClick
  | autoQuestCommand (on : Bool)

def onUpdate (now : ℚ) (s : St) : St :=
  let s := if s.ambiguityClearAt.any (· ≤ now) then { s with ambiguousQuestList := false, ambiguityClearAt := none } else s
  if s.pendingQuestWatchUntil.any (· ≤ now) then dropSnapshot s else s

theorem due_iff {deadline : Option ℚ} {now : ℚ} : deadline.any (· ≤ now) = true ↔ ∃ x, deadline = some x ∧ x ≤ now := by
  cases deadline with
  | none => simp
  | some x => simp

/-- `DinoControllerDB[name] == 1 and 0 or 1`. -/
def toggled (value : Nat) : Nat := if value = 1 then 0 else 1

def autoTrackQuestClick (s : St) : St :=
  let s := { s with autoTrackQuest := toggled s.autoTrackQuest }
  if s.autoTrackQuest ≠ 1 then dropSnapshot s else s

/-- The rewards of QUEST_COMPLETE. -/
def completeQuest (choices : Nat) (s : St) : List Call :=
  if 1 < choices then [.print "Multiple rewards - choose with the D-pad and press Confirm."]
  else if s.autoQuest = 1 then [.getQuestReward (if choices = 1 then 1 else 0)]
  else []

/-- `HandleQuestEvent` and `OnUpdate`, `AcceptQuest`, and the settings. -/
def stepOut (s : St) : ℚ × Ev → List Call × St
  | (_, .QUEST_GREETING active available) => handleQuestGreeting active available s
  | (_, .GOSSIP_SHOW active available) => handleGossipShow (gossipValues active) (gossipValues available) s
  | (now, .QUEST_DETAIL _) =>
    let s := cancelAmbiguityClear s
    if s.autoQuest = 1 then acceptQuest now s else ([], s)
  | (_, .QUEST_PROGRESS completable) =>
    (if s.autoQuest = 1 ∧ completable = true then [.completeQuest] else [], cancelAmbiguityClear s)
  | (_, .QUEST_COMPLETE choices) => (completeQuest choices s, cancelAmbiguityClear s)
  | (now, .QUEST_FINISHED) => ([], { s with ambiguityClearAt := some (now + 5) })
  | (now, .GOSSIP_CLOSED) => ([], { s with ambiguityClearAt := some (now + 5) })
  | (_, .QUEST_LOG_UPDATE log addQuestWatch) => trackNewlyAcceptedQuest addQuestWatch { s with log := log }
  | (now, .acceptQuest _) => acceptQuest now s
  | (now, .onUpdate) => ([], onUpdate now s)
  | (_, .autoQuestClick) => ([], { s with autoQuest := toggled s.autoQuest })
  | (_, .autoTrackQuestClick) => ([], autoTrackQuestClick s)
  | (_, .autoQuestCommand on) => ([], { s with autoQuest := on.toNat })

def step (s : St) (e : ℚ × Ev) : St := (stepOut s e).2

/-- After loading, with the saved settings. -/
def fresh (autoQuest autoTrackQuest : Nat) (log : QuestLog) : St :=
  ⟨autoQuest, autoTrackQuest, false, none, none, none, log⟩

/-! ## Histories -/

/-- A run of the AddOn from its loading, at times that never go back. -/
structure History where
  autoQuest : Nat
  autoTrackQuest : Nat
  log : QuestLog
  events : List (ℚ × Ev)
  ordered : events.Pairwise fun a b => a.1 ≤ b.1

namespace History

variable (h : History)

/-- The state before event `k`. -/
def state (k : Nat) : St := stateAt step (fresh h.autoQuest h.autoTrackQuest h.log) h.events k

/-- The calls event `k` makes. -/
def calls (k : Nat) : List Call :=
  match h.events[k]? with
  | some e => (stepOut (h.state k) e).1
  | none => []

variable {h}

theorem state_succ {k : Nat} {e : ℚ × Ev} (he : h.events[k]? = some e) : h.state (k + 1) = step (h.state k) e :=
  stateAt_succ step _ he

theorem calls_eq {k : Nat} {e : ℚ × Ev} (he : h.events[k]? = some e) : h.calls k = (stepOut (h.state k) e).1 := by
  simp only [calls, he]

theorem time_le {j k : Nat} {a b : ℚ × Ev} (hj : h.events[j]? = some a) (hk : h.events[k]? = some b) (hjk : j < k) :
    a.1 ≤ b.1 := by
  obtain ⟨hj', rfl⟩ := List.getElem?_eq_some_iff.mp hj
  obtain ⟨hk', rfl⟩ := List.getElem?_eq_some_iff.mp hk
  exact List.pairwise_iff_getElem.mp h.ordered j k hj' hk' hjk

end History

end Nostalgia.Quests
