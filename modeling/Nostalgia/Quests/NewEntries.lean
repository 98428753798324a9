/-
  Nostalgia.Quests.NewEntries — one call of `TrackNewlyAcceptedQuest` as a multiset
  difference (DinoController.lua).

  The snapshot counts the entries of the old log by a key, the title, the level and the
  tag joined by byte 31; the call numbers the entries of the new log by the same key and
  watches those numbered beyond the old count. Here the lines are any list, headers
  anywhere; `Quest.triple` is what the key stands for (no tag is the empty tag, as the
  code reads it).

  - `key_eq_iff`: without byte 31 in titles the key is the triple.
  - `trackLines_sorted`, `trackLines_count`: each entry at most once, and how many of a key.
  - `tracksNew`: the calls are exactly those for the entries numbered beyond their triple's
    old count, and the snapshot goes with the first of them.
-/

import Nostalgia.Quests.Watch

namespace Nostalgia.Quests

/-! ## Keys and triples -/

def Quest.levelText (q : Quest) : String := (q.level.map toString).getD ""

/-- Title, level and tag. -/
def Quest.triple (q : Quest) : String × Option Int × String := (q.title, q.level, q.questTag.getD "")

/-- Byte 31 is not in the title. A level has none, and in a tag it does no harm. -/
def Quest.NoSeparator (q : Quest) : Prop := '\x1f' ∉ q.title.toList

def NoSeparators (lines : List Line) : Prop := ∀ q, .quest q ∈ lines → q.NoSeparator

/-- What stands before the first separator, and what behind it. -/
theorem append_separator_inj {α : Type*} {sep : α} : ∀ {x y : List α}, sep ∉ x → sep ∉ y → ∀ {u v : List α},
    (x ++ sep :: u = y ++ sep :: v ↔ x = y ∧ u = v) := by
  intro x
  induction x with
  | nil =>
    intro y _ hy u v
    cases y with
    | nil => simp
    | cons b y =>
      have hb : sep ≠ b := fun h => hy (h ▸ List.mem_cons_self)
      simp [hb]
  | cons a x ih =>
    intro y hx hy u v
    have ha : a ≠ sep := fun h => hx (h ▸ List.mem_cons_self)
    cases y with
    | nil => simp [ha]
    | cons b y =>
      have hrest := ih (fun h => hx (List.mem_cons_of_mem _ h)) (fun h => hy (List.mem_cons_of_mem _ h)) (u := u) (v := v)
      rw [List.cons_append, List.cons_append, List.cons.injEq, List.cons.injEq, hrest, and_assoc]

theorem levelText_eq_iff {a b : Quest} : a.levelText = b.levelText ↔ a.level = b.level := by
  have hne : ∀ n : Int, n.repr ≠ "" := by
    intro n
    rw [Int.repr_eq_if]
    split
    · exact Nat.repr_ne_empty
    · simp
  have htext : ∀ n : Int, toString n = n.repr := fun _ => rfl
  unfold Quest.levelText
  cases a.level with
  | none =>
    cases b.level with
    | none => simp
    | some n => simp [htext, (hne n).symm]
  | some m =>
    cases b.level with
    | none => simp [htext, hne m]
    | some n => simp [htext, Int.repr_inj]

/-- A number is written in digits, with a sign before a negative one. -/
theorem levelText_noSeparator (q : Quest) : '\x1f' ∉ q.levelText.toList := by
  have hdigits : ∀ n : Nat, '\x1f' ∉ n.repr.toList := by
    intro n hmem
    rw [Nat.toList_repr] at hmem
    exact absurd (Nat.isDigit_of_mem_toDigits (by decide) (by decide) hmem) (by decide)
  unfold Quest.levelText
  cases q.level with
  | none => simp
  | some n =>
    show '\x1f' ∉ n.repr.toList
    rw [Int.repr_eq_if]
    split
    · exact hdigits _
    · simpa using hdigits _

/-- The key says the triple. -/
theorem key_eq_iff {a b : Quest} (ha : a.NoSeparator) (hb : b.NoSeparator) : a.key = b.key ↔ a.triple = b.triple := by
  have hkey : ∀ q : Quest, q.key.toList =
      q.title.toList ++ '\x1f' :: (q.levelText.toList ++ '\x1f' :: (q.questTag.getD "").toList) := by
    intro q
    simp [Quest.key, Quest.levelText]
  rw [← String.toList_inj, hkey, hkey, append_separator_inj ha hb,
    append_separator_inj (levelText_noSeparator a) (levelText_noSeparator b),
    String.toList_inj, String.toList_inj, String.toList_inj, levelText_eq_iff, Quest.triple, Quest.triple, Prod.mk.injEq,
    Prod.mk.injEq]

/-! ## Counting triples -/

/-- The line is an entry with the triple. -/
def hasTriple (triple : String × Option Int × String) : Line → Bool
  | .header _ => false
  | .quest q => q.triple == triple

/-- How many lines have the triple. -/
def tripleCount (triple : String × Option Int × String) (lines : List Line) : Nat := lines.countP (hasTriple triple)

theorem keyCount_eq {q : Quest} (hq : q.NoSeparator) {lines : List Line} (hlines : NoSeparators lines) :
    keyCount q.key lines = tripleCount q.triple lines := by
  refine List.countP_congr fun line hline => ?_
  cases line with
  | header title => simp [questLogEntryKey, hasTriple]
  | quest q' =>
    simp only [questLogEntryKey, hasTriple, beq_iff_eq, Option.some.injEq]
    exact key_eq_iff (hlines q' hline) hq

theorem NoSeparators.take {lines : List Line} (h : NoSeparators lines) (n : Nat) : NoSeparators (lines.take n) :=
  fun q hq => h q (List.mem_of_mem_take hq)

/-! ## The indices the loop passes on -/

/-- In ascending order, none twice. -/
theorem trackLines_sorted (snapshot : Counts) (ok : Nat → Bool) : ∀ (lines : List Line) (index : Nat) (seen : Counts),
    (trackLines snapshot ok lines index seen).1.Pairwise (· < ·) ∧
      ∀ j ∈ (trackLines snapshot ok lines index seen).1, index ≤ j := by
  intro lines
  induction lines with
  | nil => intro index seen; simp [trackLines]
  | cons line lines ih =>
    intro index seen
    obtain ⟨hsorted, hle⟩ := ih (index + 1) (counted seen line)
    have hle' : ∀ j ∈ (trackLines snapshot ok lines (index + 1) (counted seen line)).1, index ≤ j :=
      fun j hj => by have := hle j hj; omega
    simp only [trackLines]
    split
    · split
      · refine ⟨List.pairwise_cons.mpr ⟨fun j hj => by have := hle j hj; omega, hsorted⟩, fun j hj => ?_⟩
        rcases List.mem_cons.mp hj with rfl | hj
        · exact Nat.le_refl _
        · exact hle' j hj
      · exact ⟨hsorted, hle'⟩
    · exact ⟨hsorted, hle'⟩

/-- How many indices of a key it passes on. -/
theorem trackLines_count (snapshot : Counts) (ok : Nat → Bool) (key : String) :
    ∀ (lines : List Line) (index : Nat) (seen : Counts),
      (trackLines snapshot ok lines index seen).1.countP
          (fun j => (lines[j - index]?.bind questLogEntryKey) == some key) =
        seen key + keyCount key lines - max (snapshot key) (seen key) := by
  intro lines
  induction lines with
  | nil =>
    intro index seen
    simp [trackLines, keyCount]
  | cons line lines ih =>
    intro index seen
    have hrest := ih (index + 1) (counted seen line)
    -- an index behind the first line counts from the rest
    have hshift : (trackLines snapshot ok lines (index + 1) (counted seen line)).1.countP
          (fun j => ((line :: lines)[j - index]?.bind questLogEntryKey) == some key) =
        (trackLines snapshot ok lines (index + 1) (counted seen line)).1.countP
          (fun j => (lines[j - (index + 1)]?.bind questLogEntryKey) == some key) := by
      refine List.countP_congr fun j hj => ?_
      have hle := (trackLines_sorted snapshot ok lines (index + 1) (counted seen line)).2 j hj
      rw [show j - index = (j - (index + 1)) + 1 by omega, List.getElem?_cons_succ]
    rw [counted_apply] at hrest
    rw [keyCount_cons key line lines]
    simp only [trackLines]
    split
    · rename_i k hk
      by_cases hkey : k = key
      · subst hkey
        have hone : keyCount k [line] = 1 := by simp [keyCount, hk]
        rw [hone] at hrest ⊢
        split
        · rename_i hlt
          rw [List.countP_cons_of_pos (by simp [hk]), hshift, hrest]
          omega
        · rename_i hlt
          rw [hshift, hrest]
          omega
      · have hzero : keyCount key [line] = 0 := by simp [keyCount, hk, hkey]
        rw [hzero] at hrest ⊢
        split
        · rw [List.countP_cons_of_neg (by simp [hk, hkey]), hshift, hrest]
          omega
        · rw [hshift, hrest]
          omega
    · rename_i hk
      have hzero : keyCount key [line] = 0 := by simp [keyCount, hk]
      rw [hzero] at hrest ⊢
      rw [hshift, hrest]
      omega

/-! ## One call -/

/-- `TrackNewlyAcceptedQuest` where `GetQuestLogTitle` goes through `lines`. -/
def trackListed (addQuestWatch : Nat → Bool) (lines : List Line) (s : St) : List Call × St :=
  match s.pendingQuestWatchSnapshot with
  | none => ([], s)
  | some snapshot =>
    if s.autoTrackQuest ≠ 1 then ([], dropSnapshot s)
    else
      let r := trackLines snapshot addQuestWatch lines 1 fun _ => 0
      if r.2 then (r.1.map .addQuestWatch ++ [.questWatchUpdate], dropSnapshot s) else (r.1.map .addQuestWatch, s)

theorem trackNewlyAcceptedQuest_eq (addQuestWatch : Nat → Bool) (s : St) :
    trackNewlyAcceptedQuest addQuestWatch s = trackListed addQuestWatch (listed s.log) s := rfl

/-- The indices `AddQuestWatch` is called for, in order. -/
def watched (calls : List Call) : List Nat :=
  calls.filterMap fun call => match call with
    | .addQuestWatch j => some j
    | _ => none

/-- What a call with the old lines `base` and the new lines `lines` asks for. -/
structure TracksNew (base lines : List Line) (calls : List Call) (s s' : St) : Prop where
  /-- Exactly the entries whose occurrence number exceeds the old count of their triple. -/
  indices : ∀ j, j ∈ watched calls ↔ ∃ p q, j = p + 1 ∧ lines[p]? = some (.quest q) ∧
    tripleCount q.triple base < tripleCount q.triple (lines.take (p + 1))
  /-- Each once, in ascending order. -/
  once : (watched calls).Pairwise (· < ·)
  /-- As many of a triple as there are new ones. -/
  number : ∀ triple, (watched calls).countP (fun j => lines[j - 1]?.any (hasTriple triple)) =
    tripleCount triple lines - tripleCount triple base
  discards : s'.pendingQuestWatchSnapshot = none ↔ watched calls ≠ []
  kept : watched calls = [] → s' = s

theorem trackListed_eq {base : List Line} (lines : List Line) {s : St} (hon : s.autoTrackQuest = 1)
    (hs : s.pendingQuestWatchSnapshot = some (captureQuestLogSnapshot base)) :
    watched (trackListed (fun _ => true) lines s).1 =
        (trackLines (captureQuestLogSnapshot base) (fun _ => true) lines 1 fun _ => 0).1 ∧
      (trackListed (fun _ => true) lines s).2 =
        if (trackLines (captureQuestLogSnapshot base) (fun _ => true) lines 1 fun _ => 0).1 = [] then s
        else dropSnapshot s := by
  have hmap : ∀ l : List Nat, watched (l.map .addQuestWatch) = l := by
    intro l
    induction l with
    | nil => rfl
    | cons j l ih => exact congrArg (j :: ·) ih
  have hadded := trackLines_added (captureQuestLogSnapshot base) (fun _ => true) lines 1 fun _ => 0
  unfold trackListed
  simp only [hs, hon, ne_eq, not_true_eq_false, if_false]
  generalize trackLines (captureQuestLogSnapshot base) (fun _ => true) lines 1 (fun _ => 0) = r at hadded
  by_cases hnil : r.1 = []
  · have hno : ¬ r.2 = true := by
      rw [hadded, hnil]
      simp
    rw [if_neg hno, if_pos hnil]
    exact ⟨hmap _, rfl⟩
  · obtain ⟨j, rest, hj⟩ := List.exists_cons_of_ne_nil hnil
    have hyes : r.2 = true := hadded.mpr ⟨j, by rw [hj]; exact List.mem_cons_self, rfl⟩
    rw [if_pos hyes, if_neg hnil]
    refine ⟨?_, rfl⟩
    show watched (r.1.map .addQuestWatch ++ [.questWatchUpdate]) = r.1
    unfold watched
    rw [List.filterMap_append]
    exact (List.append_nil _).trans (hmap _)

/-- For every old and every new log, with no byte 31 in titles, autoTrackQuest on, the old
    log's snapshot pending and no `AddQuestWatch` failing. -/
theorem tracksNew (base lines : List Line) (s : St) (hbase : NoSeparators base) (hlines : NoSeparators lines)
    (hon : s.autoTrackQuest = 1) (hs : s.pendingQuestWatchSnapshot = some (captureQuestLogSnapshot base)) :
    TracksNew base lines (trackListed (fun _ => true) lines s).1 s (trackListed (fun _ => true) lines s).2 := by
  obtain ⟨hwatched, hstate⟩ := trackListed_eq lines hon hs
  refine ⟨?_, ?_, ?_, ?_, ?_⟩
  · intro j
    rw [hwatched, track_mem]
    constructor
    · rintro ⟨p, rfl, line, key, hl, hk, hlt⟩
      cases line with
      | header title => cases hk
      | quest q =>
        cases hk
        have hq := hlines q (List.mem_of_getElem? hl)
        rw [keyCount_eq hq hbase, keyCount_eq hq (hlines.take _)] at hlt
        exact ⟨p, q, rfl, hl, hlt⟩
    · rintro ⟨p, q, rfl, hl, hlt⟩
      have hq := hlines q (List.mem_of_getElem? hl)
      rw [← keyCount_eq hq hbase, ← keyCount_eq hq (hlines.take _)] at hlt
      exact ⟨p, rfl, .quest q, q.key, hl, rfl, hlt⟩
  · rw [hwatched]
    exact (trackLines_sorted _ _ lines 1 _).1
  · intro triple
    rw [hwatched]
    by_cases hex : ∃ q, .quest q ∈ lines ∧ q.triple = triple
    · obtain ⟨q, hmem, rfl⟩ := hex
      have hq := hlines q hmem
      have hcount := trackLines_count (captureQuestLogSnapshot base) (fun _ => true) q.key lines 1 fun _ => 0
      rw [capture_apply, Nat.zero_add, Nat.max_zero, keyCount_eq hq hbase, keyCount_eq hq hlines] at hcount
      rw [← hcount]
      refine List.countP_congr fun j _ => ?_
      cases hl : lines[j - 1]? with
      | none => simp
      | some line =>
        cases line with
        | header title => simp [questLogEntryKey, hasTriple]
        | quest q' =>
          have hq' := hlines q' (List.mem_of_getElem? hl)
          simp [questLogEntryKey, hasTriple, key_eq_iff hq' hq]
    · -- no entry has the triple
      have hnone : ∀ line ∈ lines, hasTriple triple line = false := by
        intro line hline
        cases line with
        | header title => rfl
        | quest q =>
          simp only [hasTriple, beq_eq_false_iff_ne]
          exact fun h => hex ⟨q, hline, h⟩
      have hzero : tripleCount triple lines = 0 := List.countP_eq_zero.mpr fun line hline => by simp [hnone line hline]
      rw [hzero, Nat.zero_sub, List.countP_eq_zero]
      intro j _
      cases hl : lines[j - 1]? with
      | none => simp
      | some line => simp [hnone line (List.mem_of_getElem? hl)]
  · rw [hwatched, hstate]
    split
    · rename_i hnil
      simp [hnil, hs]
    · rename_i hnil
      exact ⟨fun _ => hnil, fun _ => rfl⟩
  · intro hnil
    rw [hwatched] at hnil
    rw [hstate, if_pos hnil]

/-- An AddOn that waits with the snapshot of `base`. -/
def waiting (base : List Line) : St :=
  { fresh 1 1 [] with pendingQuestWatchSnapshot := some (captureQuestLogSnapshot base) }

theorem wolves_noSeparators {lines : List Line} (h : ∀ q, .quest q ∈ lines → q = wolves) : NoSeparators lines := by
  intro q hq
  rw [h q hq]
  unfold Quest.NoSeparator
  decide

/-- The log of one quest comes back with it twice, before the header. -/
theorem wolves_twice :
    TracksNew [.quest wolves] [.quest wolves, .quest wolves, .header "Elwynn Forest"]
      (trackListed (fun _ => true) [.quest wolves, .quest wolves, .header "Elwynn Forest"] (waiting [.quest wolves])).1
      (waiting [.quest wolves])
      (trackListed (fun _ => true) [.quest wolves, .quest wolves, .header "Elwynn Forest"] (waiting [.quest wolves])).2 :=
  tracksNew [.quest wolves] [.quest wolves, .quest wolves, .header "Elwynn Forest"] (waiting [.quest wolves])
    (wolves_noSeparators (by simp)) (wolves_noSeparators (by simp)) rfl rfl

end Nostalgia.Quests
