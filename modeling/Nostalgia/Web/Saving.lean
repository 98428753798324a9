/-
  Nostalgia.Web.Saving — when create_backup stores a dump, and what it stores.

  - `Saves`: every check passes, the command is sent, a poll finds the dump and the
    rename succeeds.
  - `createBackup_saves`: then it reports success, and the dump stands at the final name
    in place of whatever stood there.
  - `createBackup_fails`: otherwise it ends with an exception, and no file but the
    server's own dump is touched.
-/

import Nostalgia.Web.Containment

namespace Nostalgia.Web

open Nostalgia.Machine World

/-! ## The checks -/

/-- The name the databases have for the selected character. -/
def CreateBackup.character (r : CreateBackup) : Option Bytes := do
  let database ← r.database
  let accId ← (database.accountId (accountName r.account_name)).filter (0 < ·)
  (database.characterName r.character_guid.toNat accId).filter truthy

/-- What create_backup checks before it sends the command. -/
structure Checked (r : CreateBackup) (account charName : Bytes) : Prop where
  serverRunning : r.serverRunning = true
  account_eq : account = accountName r.account_name
  valid : validAccount (accountName r.account_name) = true
  guid : 0 < r.character_guid
  character : r.character = some charName

variable {h : Host}

theorem same_require {c : Bool} {e : Bytes} : Moves SameFiles (require c e : Page Unit) := by
  intro w
  cases c
  · exact SameFiles.refl w
  · exact SameFiles.refl w

theorem same_required {value : Option α} {e : Bytes} : Moves SameFiles (required value e : Page α) := by
  intro w
  cases value
  · exact SameFiles.refl w
  · exact SameFiles.refl w

theorem same_ensureDir {path : Bytes} {ok : Bool} : Moves SameFiles (ensureDir h path ok) :=
  ensureDir_moves SameFiles.refl SameFiles.trans same_isDir same_mkdir

theorem exec_ensureDir (path : Bytes) (ok : Bool) (w : World) : ∃ w', exec (ensureDir h path ok) w = (.ok (), w') := by
  unfold ensureDir
  rw [exec_bind, exec_isDir]
  dsimp only
  split
  · exact ⟨_, rfl⟩
  · exact ⟨_, exec_mkdir path ok _⟩

theorem same_backupCharacter (r : CreateBackup) : Moves SameFiles (backupCharacter h r) := by
  unfold backupCharacter
  refine Moves.bind SameFiles.trans same_require fun _ _ => ?_
  refine Moves.bind SameFiles.trans same_require fun _ _ => ?_
  refine Moves.bind SameFiles.trans same_ensureDir fun _ _ => ?_
  refine Moves.bind SameFiles.trans same_require fun _ _ => ?_
  refine Moves.bind SameFiles.trans same_required fun _ _ => ?_
  refine Moves.bind SameFiles.trans same_required fun _ _ => ?_
  exact Moves.bind SameFiles.trans same_required fun _ _ => Moves.pure SameFiles.refl _

theorem backupCharacter_ok {r : CreateBackup} {w w' : World} {account charName : Bytes}
    (he : exec (backupCharacter h r) w = (.ok (account, charName), w')) : Checked r account charName := by
  unfold backupCharacter at he
  dsimp only at he
  obtain ⟨_, w1, hrun, h1⟩ := exec_bind_ok he
  obtain ⟨_, w2, hvalid, h2⟩ := exec_bind_ok h1
  obtain ⟨_, w3, _, h3⟩ := exec_bind_ok h2
  obtain ⟨_, w4, hguid, h4⟩ := exec_bind_ok h3
  obtain ⟨database, w5, hdb, h5⟩ := exec_bind_ok h4
  obtain ⟨accId, w6, hacc, h6⟩ := exec_bind_ok h5
  obtain ⟨name, w7, hname, h7⟩ := exec_bind_ok h6
  cases h7
  refine ⟨(exec_require_ok hrun).1, rfl, (exec_require_ok hvalid).1, ?_, ?_⟩
  · simpa using (exec_require_ok hguid).1
  · unfold CreateBackup.character
    simp only [(exec_required_ok hdb).1, (exec_required_ok hacc).1, (exec_required_ok hname).1, Option.bind_eq_bind,
      Option.bind_some]

theorem backupCharacter_of {r : CreateBackup} {account charName : Bytes} (hc : Checked r account charName) (w : World) :
    ∃ w', exec (backupCharacter h r) w = (.ok (account, charName), w') := by
  obtain ⟨hrun, rfl, hvalid, hguid, hchar⟩ := hc
  unfold CreateBackup.character at hchar
  simp only [Option.bind_eq_bind, Option.bind_eq_some_iff] at hchar
  obtain ⟨database, hdb, accId, hacc, hname⟩ := hchar
  obtain ⟨w1, hdir⟩ := exec_ensureDir (h := h) (h.accountDir (accountName r.account_name)) r.mkdirOk w
  refine ⟨w1, ?_⟩
  unfold backupCharacter required
  simp only [hrun, hvalid, hguid, hdb, hacc, hname, decide_true, exec_bind, exec_require_true, hdir, exec_pure]

/-! ## The dump -/

/-- With what the server wrote meanwhile. -/
def CreateBackup.dumpedInto (h : Host) (r : CreateBackup) (w : World) : World :=
  match r.dumped with
  | some c => w.put h (r.tempPath h) c
  | none => w

/-- The request stores `content` as a backup of `charName`. -/
structure Saves (h : Host) (w : World) (r : CreateBackup) (charName content : Bytes) : Prop where
  checked : Checked r (accountName r.account_name) charName
  pipeOk : r.pipeOk = true
  found : r.found = true
  content_eq : (r.dumpedInto h w).lookup h (r.tempPath h) = some content
  renameOk : r.renameOk = true

/-- The world with the dump at its final name. -/
def savedWorld (h : Host) (w : World) (r : CreateBackup) (charName content : Bytes) : World :=
  (((r.dumpedInto h w).erase h (r.tempPath h)).put h (r.finalPath h (accountName r.account_name) charName) content)

theorem SameFiles.put {w w' : World} (hw : SameFiles w w') (p c : Bytes) : SameFiles (w.put h p c) (w'.put h p c) := by
  unfold SameFiles World.put World.erase at *
  rw [hw]

theorem SameFiles.erase {w w' : World} (hw : SameFiles w w') (p : Bytes) : SameFiles (w.erase h p) (w'.erase h p) := by
  unfold SameFiles World.erase at *
  rw [hw]

theorem SameFiles.dumpedInto {w w' : World} (hw : SameFiles w w') (r : CreateBackup) :
    SameFiles (r.dumpedInto h w) (r.dumpedInto h w') := by
  unfold CreateBackup.dumpedInto
  cases r.dumped with
  | none => exact hw
  | some c => exact hw.put _ c

theorem rename_moves (target : Bytes) {source content : Bytes} {w : World} (hs : w.lookup h source = some content) :
    ∃ w', exec (rename h source target true) w = (.ok true, w') ∧
      SameFiles ((w.erase h source).put h target content) w' :=
  ⟨_, exec_rename_some h hs, rfl⟩

theorem rename_stays (target : Bytes) {source : Bytes} {ok : Bool} {w : World} (hno : w.lookup h source = none ∨ ok = false) :
    ∃ w', exec (rename h source target ok) w = (.ok false, w') ∧ SameFiles w w' := by
  cases hl : w.lookup h source with
  | none => exact ⟨_, exec_rename_none h hl, rfl⟩
  | some c =>
    rw [hl] at hno
    obtain rfl : ok = false := hno.resolve_left (by simp)
    exact ⟨_, exec_rename_some h hl, rfl⟩

theorem exec_dumpedInto (r : CreateBackup) (w : World) :
    exec (serverWrites h (r.tempPath h) r.dumped) w = (.ok (), r.dumpedInto h w) := rfl

def savedNotice (charName : Bytes) : Bytes := ascii "Character '" ++ charName ++ ascii "' was backed up successfully."

theorem saveDump_moves (account charName : Bytes) {r : CreateBackup} {content : Bytes} {w : World}
    (hcontent : (r.dumpedInto h w).lookup h (r.tempPath h) = some content) (hok : r.renameOk = true) :
    ∃ w', exec (saveDump h r account charName) w = (.ok (.page (savedNotice charName)), w') ∧
      SameFiles (((r.dumpedInto h w).erase h (r.tempPath h)).put h (r.finalPath h account charName) content) w' := by
  obtain ⟨w', hrename, hsame⟩ := rename_moves (r.finalPath h account charName) hcontent
  refine ⟨w', ?_, hsame⟩
  unfold saveDump
  rw [hok, exec_bind_of_ok (exec_dumpedInto r w), exec_bind_of_ok hrename]
  rfl

theorem saveDump_stays (account charName : Bytes) {r : CreateBackup} {w : World}
    (hno : (r.dumpedInto h w).lookup h (r.tempPath h) = none ∨ r.renameOk = false) :
    ∃ e w', exec (saveDump h r account charName) w = (.error e, w') ∧ SameFiles (r.dumpedInto h w) w' := by
  obtain ⟨w', hrename, hsame⟩ := rename_stays (r.finalPath h account charName) hno
  refine ⟨ascii "The backup could not be moved into the backup folder.", w', ?_, hsame⟩
  unfold saveDump
  rw [exec_bind_of_ok (exec_dumpedInto r w), exec_bind_of_ok hrename]
  rfl

/-! ## The whole request -/

/-- Once the character is known and a poll found the dump, only the rename is left. -/
theorem createBackup_sent {r : CreateBackup} {charName : Bytes} (hc : Checked r (accountName r.account_name) charName)
    (hpipe : r.pipeOk = true) (hfound : r.found = true) (w : World) :
    ∃ w', exec (createBackup h r) w = exec (saveDump h r (accountName r.account_name) charName) w' ∧ SameFiles w w' := by
  obtain ⟨w1, h1⟩ := backupCharacter_of (h := h) hc w
  have hsame : SameFiles w w1 := (same_backupCharacter r).of_exec h1
  refine ⟨World.note { w1 with pipe := w1.pipe ++ [.pdumpWrite (tempDump r.character_guid.toNat r.now) charName] }
    (.read (r.tempPath h)), ?_, hsame⟩
  unfold createBackup
  rw [exec_bind_of_ok h1]
  dsimp only
  rw [hpipe, hfound, exec_bind_of_ok (exec_sendWorldServerCommand _ true w1)]
  rfl

/-- Without the pipe or a dump it stops before the rename. -/
theorem createBackup_stopped {r : CreateBackup} {charName : Bytes} (hc : Checked r (accountName r.account_name) charName)
    (hstop : r.pipeOk = false ∨ r.found = false) (w : World) :
    ∃ e w', exec (createBackup h r) w = (.error e, w') ∧ SameFiles w w' := by
  obtain ⟨w1, h1⟩ := backupCharacter_of (h := h) hc w
  have hsame : SameFiles w w1 := (same_backupCharacter r).of_exec h1
  unfold createBackup
  rw [exec_bind_of_ok h1]
  dsimp only
  by_cases hpipe : r.pipeOk = true
  · have hfound : r.found = false := hstop.resolve_left (by simp [hpipe])
    rw [hpipe, hfound, exec_bind_of_ok (exec_sendWorldServerCommand _ true w1)]
    exact ⟨noDump, _, rfl, hsame⟩
  · rw [Bool.eq_false_iff.mpr hpipe, exec_bind_of_ok (exec_sendWorldServerCommand _ false w1)]
    exact ⟨notSent, w1, rfl, hsame⟩

theorem createBackup_saves {r : CreateBackup} {w : World} {charName content : Bytes} (hs : Saves h w r charName content) :
    ∃ w', exec (createBackup h r) w = (.ok (.page (savedNotice charName)), w') ∧
      SameFiles (savedWorld h w r charName content) w' := by
  obtain ⟨w1, hexec, hsame⟩ := createBackup_sent (h := h) hs.checked hs.pipeOk hs.found w
  have hdumped := hsame.dumpedInto (h := h) r
  obtain ⟨w', hsave, hfiles⟩ := saveDump_moves (accountName r.account_name) charName
    ((hdumped.lookup _).trans hs.content_eq) hs.renameOk
  refine ⟨w', hexec.trans hsave, ?_⟩
  exact SameFiles.trans _ _ _ ((hdumped.erase _).put _ _) hfiles

theorem createBackup_fails {r : CreateBackup} {w : World} (hno : ∀ charName content, ¬ Saves h w r charName content) :
    ∃ e w', exec (createBackup h r) w = (.error e, w') ∧ (SameFiles w w' ∨ SameFiles (r.dumpedInto h w) w') := by
  cases hchar : exec (backupCharacter h r) w with
  | mk result w1 =>
    have hsame : SameFiles w w1 := (same_backupCharacter r).of_exec hchar
    cases result with
    | error e =>
      refine ⟨e, w1, ?_, Or.inl hsame⟩
      unfold createBackup
      rw [exec_bind_of_error hchar]
    | ok checked =>
      obtain ⟨account, charName⟩ := checked
      have hc := backupCharacter_ok hchar
      obtain rfl := hc.account_eq
      by_cases hpipe : r.pipeOk = true
      · by_cases hfound : r.found = true
        · obtain ⟨w2, hexec, hsame2⟩ := createBackup_sent (h := h) hc hpipe hfound w
          have hdumped := hsame2.dumpedInto (h := h) r
          have hstop : (r.dumpedInto h w2).lookup h (r.tempPath h) = none ∨ r.renameOk = false := by
            rw [hdumped.lookup]
            cases hl : (r.dumpedInto h w).lookup h (r.tempPath h) with
            | none => exact Or.inl rfl
            | some content =>
              right
              by_contra hok
              exact hno charName content ⟨hc, hpipe, hfound, hl, by simpa using hok⟩
          obtain ⟨e, w', hsave, hfiles⟩ := saveDump_stays (accountName r.account_name) charName hstop
          exact ⟨e, w', hexec.trans hsave, Or.inr (SameFiles.trans _ _ _ hdumped hfiles)⟩
        · obtain ⟨e, w', he, hw'⟩ := createBackup_stopped (h := h) hc (Or.inr (Bool.eq_false_iff.mpr hfound)) w
          exact ⟨e, w', he, Or.inl hw'⟩
      · obtain ⟨e, w', he, hw'⟩ := createBackup_stopped (h := h) hc (Or.inl (Bool.eq_false_iff.mpr hpipe)) w
        exact ⟨e, w', he, Or.inl hw'⟩

end Nostalgia.Web
