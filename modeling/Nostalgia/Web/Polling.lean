/-
  Nostalgia.Web.Polling — create_backup and a world server that is still writing.

  The server creates the temporary file and fills it piece by piece; the page looks at it
  20 times, then renames it. A `Schedule` fixes the instants of both sides.
  - `pollDump_none`: the stat cache never looks twice, so the first poll that sees the
    file decides.
  - `reports_iff`: success means a whole dump and a whole dump means success exactly when
    that first sight is right: more than 50 bytes of a file that is whole by the rename,
    or at most 50 of one that is not whole and longer at the last poll.
  - `truncated_backup`: a first sight of a half-written file.
-/

import Nostalgia.Web.Keeping

namespace Nostalgia.Web

open Nostalgia.Machine World

/-! ## Two sides of a file -/

structure Schedule where
  /-- When the server creates the file. -/
  created : Option Nat
  /-- What it writes, and when. -/
  pieces : List (Nat × Bytes)
  /-- When the page polls. -/
  poll : Nat → Nat
  /-- From the poll that finds the file to the rename. -/
  delay : Nat

namespace Schedule

variable (T : Schedule)

def dump : Bytes := T.pieces.flatMap Prod.snd

/-- The file at an instant: a beginning of the dump. -/
def contentAt (t : Nat) : Option Bytes :=
  if T.created.any (· ≤ t) then some ((T.pieces.takeWhile (·.1 ≤ t)).flatMap Prod.snd) else none

def sizeAt (k : Nat) : Option Nat := (T.contentAt (T.poll k)).map List.length

/-- The first poll that sees the file. -/
def firstSight : Option Nat := (List.range 20).find? fun k => (T.sizeAt k).isSome

def renameAt (k : Nat) : Nat := T.poll k + T.delay

/-- The dump is whole by the last poll, and longer than 50 bytes. -/
def Whole : Prop := T.contentAt (T.poll 19) = some T.dump ∧ 50 < T.dump.length

/-- What the first poll that sees the file concludes from its size is right. -/
def RightAtFirstSight : Prop :=
  ∀ k n, T.firstSight = some k → T.sizeAt k = some n →
    if 50 < n then T.contentAt (T.renameAt k) = some T.dump else ¬ T.Whole

end Schedule

/-- The request, with a server that writes by the schedule. -/
def CreateBackup.timed (r : CreateBackup) (T : Schedule) : CreateBackup :=
  { r with
    size := T.sizeAt
    dumped := T.firstSight.bind fun k => T.contentAt (T.renameAt k) }

/-! ## The polls -/

/-- At most 50 bytes in the cache stay at most 50 bytes. -/
theorem pollDump_cached {n : Nat} (hn : n ≤ 50) : ∀ l : List (Option Nat), pollDump (some n) l = false := by
  intro l
  induction l with
  | nil => rfl
  | cons fresh rest ih =>
    unfold pollDump
    simp only [Option.some_or, Option.any_some, ih, Bool.or_false, decide_eq_false_iff_not]
    omega

theorem pollDump_none : ∀ l : List (Option Nat),
    pollDump none l = (l.find? Option.isSome).any fun size => size.any (50 < ·) := by
  intro l
  induction l with
  | nil => rfl
  | cons fresh rest ih =>
    unfold pollDump
    cases fresh with
    | none =>
      rw [List.find?_cons_of_neg (by simp)]
      exact ih
    | some n =>
      rw [List.find?_cons_of_pos (by simp)]
      by_cases hn : 50 < n
      · simp [hn]
      · have hcached : pollDump (some n) rest = false := pollDump_cached (by omega) rest
        simp [hn, hcached]

variable {T : Schedule}

theorem found_timed (r : CreateBackup) :
    (r.timed T).found = true ↔ ∃ k n, T.firstSight = some k ∧ T.sizeAt k = some n ∧ 50 < n := by
  have hfirst : (((List.range 20).map T.sizeAt).find? Option.isSome) = T.firstSight.map T.sizeAt := by
    rw [List.find?_map]
    rfl
  show pollDump none ((List.range 20).map T.sizeAt) = true ↔ _
  rw [pollDump_none, hfirst]
  cases T.firstSight with
  | none => simp
  | some k =>
    cases hk : T.sizeAt k with
    | none => simp [hk]
    | some n => simp [hk]

/-- The file does not go away again. -/
theorem contentAt_isSome {s t : Nat} (hst : s ≤ t) (hs : (T.contentAt s).isSome = true) :
    (T.contentAt t).isSome = true := by
  unfold Schedule.contentAt at hs ⊢
  split at hs
  · rename_i hcreated
    rw [if_pos]
    · rfl
    · cases hc : T.created with
      | none =>
        rw [hc] at hcreated
        cases hcreated
      | some c =>
        rw [hc] at hcreated
        simp only [Option.any_some, decide_eq_true_eq] at hcreated ⊢
        omega
  · cases hs

theorem firstSight_size {k : Nat} (hk : T.firstSight = some k) : ∃ n, T.sizeAt k = some n := by
  have hsome := List.find?_some hk
  exact Option.isSome_iff_exists.mp hsome

/-- What is there at the last poll was seen. -/
theorem firstSight_of_last {c : Bytes} (hc : T.contentAt (T.poll 19) = some c) : ∃ k, T.firstSight = some k := by
  cases hk : T.firstSight with
  | some k => exact ⟨k, rfl⟩
  | none =>
    have hnone := List.find?_eq_none.mp hk 19 (by decide)
    simp [Schedule.sizeAt, hc] at hnone

/-- There is a file to rename. -/
theorem dumped_timed (r : CreateBackup) {k : Nat} (hk : T.firstSight = some k) :
    ∃ c, T.contentAt (T.renameAt k) = some c ∧ (r.timed T).dumped = some c := by
  obtain ⟨n, hn⟩ := firstSight_size hk
  have hseen : (T.contentAt (T.poll k)).isSome = true := by
    unfold Schedule.sizeAt at hn
    cases hc : T.contentAt (T.poll k) with
    | none =>
      rw [hc] at hn
      cases hn
    | some c => rfl
  have hle : T.poll k ≤ T.renameAt k := by
    unfold Schedule.renameAt
    omega
  obtain ⟨c, hc⟩ := Option.isSome_iff_exists.mp (contentAt_isSome hle hseen)
  refine ⟨c, hc, ?_⟩
  show (T.firstSight.bind fun k => T.contentAt (T.renameAt k)) = some c
  rw [hk]
  exact hc

/-! ## Success and the whole dump -/

variable {h : Host} {w : World} {r : CreateBackup}

def Succeeds (h : Host) (w : World) (r : CreateBackup) : Prop :=
  ∃ notice, (exec (createBackup h r) w).1 = .ok (.page notice)

theorem succeeds_iff : Succeeds h w r ↔ ∃ charName content, Saves h w r charName content := by
  constructor
  · intro ⟨notice, hok⟩
    by_contra hno
    simp only [not_exists] at hno
    obtain ⟨e, w', hexec, _⟩ := createBackup_fails hno
    rw [hexec] at hok
    cases hok
  · intro ⟨charName, content, hs⟩
    obtain ⟨w', hexec, _⟩ := createBackup_saves hs
    exact ⟨savedNotice charName, by rw [hexec]⟩

/-- Success means the whole dump at the final name; and with the checks passed, the command
    sent and a rename that works, a whole dump by the last poll means success. -/
structure ReportsWhole (h : Host) (w : World) (r : CreateBackup) (T : Schedule) : Prop where
  sound : ∀ charName, r.character = some charName → Succeeds h w (r.timed T) →
    (request h w (.createBackup (r.timed T))).lookup h (r.finalPath h (accountName r.account_name) charName) = some T.dump
  complete : ∀ charName, Checked r (accountName r.account_name) charName → r.pipeOk = true → r.renameOk = true →
    T.Whole → Succeeds h w (r.timed T)

theorem checked_timed {account charName : Bytes} : Checked (r.timed T) account charName ↔ Checked r account charName :=
  ⟨fun hc => ⟨hc.1, hc.2, hc.3, hc.4, hc.5⟩, fun hc => ⟨hc.1, hc.2, hc.3, hc.4, hc.5⟩⟩

/-- A dump found at first sight is renamed as it is then. -/
theorem saves_timed {charName : Bytes} (hc : Checked r (accountName r.account_name) charName) (hpipe : r.pipeOk = true)
    (hrename : r.renameOk = true) {k n : Nat} (hk : T.firstSight = some k) (hn : T.sizeAt k = some n) (h50 : 50 < n) :
    ∃ c, T.contentAt (T.renameAt k) = some c ∧ Saves h w (r.timed T) charName c := by
  obtain ⟨c, hcontent, hdumped⟩ := dumped_timed r hk
  refine ⟨c, hcontent, checked_timed.mpr hc, hpipe, (found_timed r).mpr ⟨k, n, hk, hn, h50⟩, ?_, hrename⟩
  unfold CreateBackup.dumpedInto
  rw [hdumped]
  exact lookup_put_self h w _ c

/-- And a stored dump was found at first sight. -/
theorem Saves.timed {charName content : Bytes} (hs : Saves h w (r.timed T) charName content) :
    ∃ k n, T.firstSight = some k ∧ T.sizeAt k = some n ∧ 50 < n ∧ T.contentAt (T.renameAt k) = some content := by
  obtain ⟨k, n, hk, hn, h50⟩ := (found_timed r).mp hs.found
  obtain ⟨c, hcontent, hdumped⟩ := dumped_timed r hk
  have hcontent_eq := hs.content_eq
  unfold CreateBackup.dumpedInto at hcontent_eq
  rw [hdumped] at hcontent_eq
  have heq : some c = some content := (lookup_put_self h w _ c).symm.trans hcontent_eq
  exact ⟨k, n, hk, hn, h50, hcontent.trans heq⟩

theorem Saves.lookup {charName content : Bytes} (hs : Saves h w r charName content) :
    (request h w (.createBackup r)).lookup h (r.finalPath h (accountName r.account_name) charName) = some content := by
  obtain ⟨w', hexec, hsame⟩ := createBackup_saves hs
  have hw' : request h w (.createBackup r) = w' := congrArg Prod.snd hexec
  rw [hw', hsame.lookup, savedWorld_lookup (finalPath_inStore r _ charName), if_pos rfl]

/-- Whatever the server and the page do when: success and the whole dump go together
    exactly when the first sight of the file is right, or the request gets nowhere. -/
theorem reports_iff (h : Host) (w : World) (r : CreateBackup) (T : Schedule) :
    ReportsWhole h w r T ↔
      ((∃ charName, Checked r (accountName r.account_name) charName) → r.pipeOk = true → r.renameOk = true →
        T.RightAtFirstSight) := by
  constructor
  · intro hreports ⟨charName, hc⟩ hpipe hrename k n hk hn
    by_cases h50 : 50 < n
    · rw [if_pos h50]
      obtain ⟨c, hcontent, hs⟩ := saves_timed (h := h) (w := w) hc hpipe hrename hk hn h50
      have hsound := hreports.sound charName hc.character (succeeds_iff.mpr ⟨charName, c, hs⟩)
      have hstored := hs.lookup
      rw [hcontent]
      exact hstored.symm.trans hsound
    · rw [if_neg h50]
      intro hwhole
      obtain ⟨name, content, hs⟩ := succeeds_iff.mp (hreports.complete charName hc hpipe hrename hwhole)
      obtain ⟨k', n', hk', hn', h50', _⟩ := hs.timed
      obtain rfl : k = k' := by rw [hk] at hk'; injection hk'
      obtain rfl : n = n' := by rw [hn] at hn'; injection hn'
      exact h50 h50'
  · intro hright
    constructor
    · intro charName hchar hsucceeds
      obtain ⟨name, content, hs⟩ := succeeds_iff.mp hsucceeds
      have hc := checked_timed.mp hs.checked
      obtain rfl : name = charName := by
        have hname := hc.character
        rw [hchar] at hname
        injection hname with hname
        exact hname.symm
      obtain ⟨k, n, hk, hn, h50, hcontent⟩ := hs.timed
      have hfirst := hright ⟨name, hc⟩ hs.pipeOk hs.renameOk k n hk hn
      rw [if_pos h50, hcontent] at hfirst
      rw [← hfirst]
      exact hs.lookup
    · intro charName hc hpipe hrename hwhole
      obtain ⟨k, hk⟩ := firstSight_of_last hwhole.1
      obtain ⟨n, hn⟩ := firstSight_size hk
      have hfirst := hright ⟨charName, hc⟩ hpipe hrename k n hk hn
      by_cases h50 : 50 < n
      · obtain ⟨c, _, hs⟩ := saves_timed (h := h) (w := w) hc hpipe hrename hk hn h50
        exact succeeds_iff.mpr ⟨charName, c, hs⟩
      · rw [if_neg h50] at hfirst
        exact absurd hwhole hfirst

/-- 60 of 120 bytes at the first poll: a truncated backup is reported. -/
def halfWritten : Schedule where
  created := some 10
  pieces := [(20, List.replicate 60 65), (400, List.replicate 60 66)]
  poll k := 250 * (k + 1)
  delay := 1

theorem truncated_backup : ¬ ∀ (h : Host) (w : World) (r : CreateBackup) (T : Schedule), ReportsWhole h w r T := by
  intro hall
  have hreports := hall (Host.windows (ascii "C:\\Nostalgia")) emptyWorld (backupAtNoon 1715940000 []) halfWritten
  have hstored := hreports.sound (ascii "Thrall") (by decide +kernel)
    ⟨savedNotice (ascii "Thrall"), by decide +kernel⟩
  revert hstored
  decide +kernel

end Nostalgia.Web
