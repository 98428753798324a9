/-
  Nostalgia.Web.Keeping — what the requests leave of the stored backups.

  - `saveUpload_still`: an upload asks whether the name is taken, and stops.
  - `createBackup_still`, `createBackup_overwrites`: create_backup does not ask. It keeps
    every stored file unless another content stands at its minute-stamped name.
  - `backups_kept_iff`: so a run of requests keeps every backup that it is not asked to
    delete exactly when no create_backup of it meets such a name.
  - `backup_overwritten`: two backups of one character within a minute.
-/

import Nostalgia.Machine.Run
import Nostalgia.Web.Saving

namespace Nostalgia.Web

open Nostalgia.Machine World

variable {h : Host} {f : Bytes}

/-- A file that was there still is, with its content. -/
def StillThere (h : Host) (f : Bytes) (w w' : World) : Prop := ∀ c, w.lookup h f = some c → w'.lookup h f = some c

theorem StillThere.refl (w : World) : StillThere h f w w := fun _ hc => hc

theorem StillThere.trans (a b c : World) : StillThere h f a b → StillThere h f b c → StillThere h f a c :=
  fun hab hbc content hcontent => hbc content (hab content hcontent)

theorem KeepsFile.still (w w' : World) (hw : KeepsFile h f w w') : StillThere h f w w' := fun _ hc => Eq.trans hw hc

theorem SameFiles.still (w w' : World) (hw : SameFiles w w') : StillThere h f w w' :=
  KeepsFile.still w w' (SameFiles.keeps w w' hw)

/-- No file of the store is one of the server's directory. -/
theorem tempPath_apart (hf : InStore h f) (name : Bytes) : h.fold f ≠ h.fold (h.tempPath name) := by
  obtain ⟨t, rfl⟩ := hf
  exact fun he => h.apart name t he.symm

theorem isTempLoad_apart (hf : InStore h f) {path : Bytes} (ht : isTempLoad h path = true) : h.fold f ≠ h.fold path := by
  obtain ⟨name, rfl⟩ := isTempLoad_tempPath h ht
  exact tempPath_apart hf name

/-! ## Each action -/

theorem saveUpload_still (target targetName content : Bytes) (ok : Bool) :
    Moves (StillThere h f) (saveUpload h target targetName content ok) := by
  intro w
  unfold saveUpload
  rw [exec_bind_of_ok (exec_isFile h target w)]
  cases hl : w.lookup h target with
  | some c => exact StillThere.refl w
  | none =>
    -- the name is free: the file of that name is not one that was there
    have hput : StillThere h f w ((w.note (.read target)).note (.write target) |>.put h target content) := by
      intro c hc
      by_cases hsame : h.fold f = h.fold target
      · rw [lookup_congr h hsame, hl] at hc
        cases hc
      · rw [lookup_put_ne h _ content hsame]
        exact hc
    cases ok with
    | true => exact hput
    | false => exact StillThere.refl w

theorem uploadDump_still (r : UploadDump) : Moves (StillThere h f) (uploadDump h r) := by
  apply uploadDump_moves StillThere.refl StillThere.trans
  · intro _
    exact same_ensureDir.mono SameFiles.still
  · intro _ filename name content _
    exact saveUpload_still _ _ _ _

theorem downloadDump_same (r : DownloadDump) : Moves SameFiles (downloadDump h r) :=
  downloadDump_moves SameFiles.refl SameFiles.trans fun _ _ _ => ⟨same_isFile, same_readFile⟩

theorem downloadDump_still (r : DownloadDump) : Moves (StillThere h f) (downloadDump h r) :=
  (downloadDump_same r).mono SameFiles.still

/-- The request is a delete_dump that names the file. -/
def Request.deletes (h : Host) (f : Bytes) : Request → Prop
  | .deleteDump r =>
    ∃ name, safeDumpName r.filename = .ok name ∧ h.fold f = h.fold (h.backupPath (accountName r.account_name) name)
  | _ => False

theorem deleteDump_still {r : DeleteDump} (hr : ¬ (Request.deleteDump r).deletes h f) :
    Moves (StillThere h f) (deleteDump h r) := by
  apply deleteDump_moves StillThere.refl StillThere.trans
  intro _ name hn
  have hother : h.fold f ≠ h.fold (h.backupPath (accountName r.account_name) name) := fun he => hr ⟨name, hn, he⟩
  exact ⟨same_isFile.mono SameFiles.still, (keeps_unlink hother).mono KeepsFile.still⟩

theorem restoreSource_same (r : RestoreBackup) : Moves SameFiles (restoreSource h r) :=
  restoreSource_moves SameFiles.refl SameFiles.trans fun _ _ _ => same_isFile

theorem restoreBackup_keeps (hf : InStore h f) (r : RestoreBackup) : Moves (KeepsFile h f) (restoreBackup h r) := by
  apply restoreBackup_moves KeepsFile.refl KeepsFile.trans ((restoreSource_same r).mono SameFiles.keeps)
  · intro temp htemp
    exact keeps_unlink (isTempLoad_apart hf htemp)
  · intro source _
    exact keeps_copy (tempPath_apart hf _)
  · intro command
    exact same_send.mono SameFiles.keeps
  · exact keeps_unlink (tempPath_apart hf _)

/-! ## create_backup -/

theorem dumpedInto_keeps (hf : InStore h f) (r : CreateBackup) (w : World) : KeepsFile h f w (r.dumpedInto h w) := by
  unfold CreateBackup.dumpedInto
  cases r.dumped with
  | none => exact KeepsFile.refl w
  | some c => exact lookup_put_ne h w c (tempPath_apart hf _)

theorem finalPath_inStore (r : CreateBackup) (account charName : Bytes) : InStore h (r.finalPath h account charName) :=
  backupPath_inStore h _ _

/-- The final name gets the dump, every other file of the store is as it was. -/
theorem savedWorld_lookup (hf : InStore h f) (w : World) (r : CreateBackup) (charName content : Bytes) :
    (savedWorld h w r charName content).lookup h f =
      if h.fold f = h.fold (r.finalPath h (accountName r.account_name) charName) then some content else w.lookup h f := by
  unfold savedWorld
  split
  · rename_i hsame
    rw [lookup_congr h hsame, lookup_put_self]
  · rename_i hother
    have htemp : h.fold f ≠ h.fold (r.tempPath h) := tempPath_apart hf _
    rw [lookup_put_ne h _ content hother, lookup_erase_ne h _ htemp]
    exact dumpedInto_keeps hf r w

/-- A create_backup that stores its dump in place of another content. -/
def Overwrites (h : Host) (w : World) : Request → Prop
  | .createBackup r => ∃ charName content old, Saves h w r charName content ∧
      w.lookup h (r.finalPath h (accountName r.account_name) charName) = some old ∧ old ≠ content
  | _ => False

theorem createBackup_still {r : CreateBackup} {w : World} (hf : InStore h f)
    (hr : ¬ Overwrites h w (.createBackup r)) : StillThere h f w (request h w (.createBackup r)) := by
  by_cases hsaves : ∃ charName content, Saves h w r charName content
  · obtain ⟨charName, content, hs⟩ := hsaves
    obtain ⟨w', hexec, hsame⟩ := createBackup_saves hs
    have hw' : request h w (.createBackup r) = w' := congrArg Prod.snd hexec
    intro c hc
    rw [hw', hsame.lookup, savedWorld_lookup hf]
    split
    · rename_i hfinal
      rw [lookup_congr h hfinal] at hc
      by_contra hne
      exact hr ⟨charName, content, c, hs, hc, fun he => hne (by rw [he])⟩
    · exact hc
  · simp only [not_exists] at hsaves
    obtain ⟨e, w', hexec, hsame⟩ := createBackup_fails hsaves
    have hw' : request h w (.createBackup r) = w' := congrArg Prod.snd hexec
    rw [hw']
    rcases hsame with hsame | hsame
    · exact SameFiles.still w w' hsame
    · intro c hc
      rw [hsame.lookup, dumpedInto_keeps hf r w]
      exact hc

theorem createBackup_overwrites {r : CreateBackup} {w : World} {charName content old : Bytes}
    (hs : Saves h w r charName content)
    (hold : w.lookup h (r.finalPath h (accountName r.account_name) charName) = some old) (hne : old ≠ content) :
    ¬ StillThere h (r.finalPath h (accountName r.account_name) charName) w (request h w (.createBackup r)) := by
  intro hstill
  obtain ⟨w', hexec, hsame⟩ := createBackup_saves hs
  have hw' : request h w (.createBackup r) = w' := congrArg Prod.snd hexec
  have hnew := hstill old hold
  rw [hw', hsame.lookup, savedWorld_lookup (finalPath_inStore r _ charName), if_pos rfl] at hnew
  injection hnew with hnew
  exact hne hnew.symm

/-! ## Runs of requests -/

/-- A `.pdump` file under the backup store. -/
def StoredBackup (h : Host) (f : Bytes) : Prop := InStore h f ∧ pdumpExtension <:+ f

theorem finalPath_stored (r : CreateBackup) (account charName : Bytes) : StoredBackup h (r.finalPath h account charName) := by
  refine ⟨finalPath_inStore r account charName, ?_⟩
  unfold CreateBackup.finalPath Host.backupPath finalFilename
  rw [← List.append_assoc]
  exact List.suffix_append _ _

/-- A request leaves every backup that it is not asked to delete. -/
def Spares (h : Host) (w : World) (r : Request) : Prop :=
  ∀ f, StoredBackup h f → ¬ r.deletes h f → ∀ c, w.lookup h f = some c → (request h w r).lookup h f = some c

theorem spares_iff (w : World) (r : Request) : Spares h w r ↔ ¬ Overwrites h w r := by
  constructor
  · intro hspares hover
    cases r with
    | createBackup r =>
      obtain ⟨charName, content, old, hs, hold, hne⟩ := hover
      exact createBackup_overwrites hs hold hne (hspares _ (finalPath_stored r _ charName) id)
    | uploadDump r | downloadDump r | deleteDump r | restoreBackup r => exact hover
  · intro hover f hf hdel
    cases r with
    | uploadDump r => exact uploadDump_still r w
    | downloadDump r => exact downloadDump_still r w
    | deleteDump r => exact deleteDump_still hdel w
    | createBackup r => exact createBackup_still hf.1 hover
    | restoreBackup r => exact KeepsFile.still _ _ (restoreBackup_keeps hf.1 r w)

/-- In a run of requests every backup outlives every request that is not asked to delete
    it, exactly when no create_backup meets another content at its final name. -/
theorem backups_kept_iff (h : Host) (w : World) (rs : List Request) :
    (∀ k r, rs[k]? = some r → Spares h (stateAt (request h) w rs k) r) ↔
      Throughout (request h) (fun w r => ¬ Overwrites h w r) w rs := by
  rw [throughout_iff]
  constructor
  · intro hall k r hr
    exact (spares_iff _ r).mp (hall k r hr)
  · intro hall k r hr
    exact (spares_iff _ r).mpr (hall k r hr)

/-! ## Two backups within a minute -/

def emptyWorld : World := ⟨[], [], [], []⟩

def onlyThrall : Database where
  accountId name := if name = ascii "PLAYER" then some 5 else none
  characterName guid account := if guid = 7 && account = 5 then some (ascii "Thrall") else none

/-- A create_backup at noon whose first poll finds `content`. -/
def backupAtNoon (now : Nat) (content : Bytes) : CreateBackup where
  serverRunning := true
  account_name := ascii "player"
  character_guid := 7
  database := some onlyThrall
  mkdirOk := true
  now := now
  pipeOk := true
  size _ := some content.length
  dumped := some content
  date := ⟨2024, 5, 17, 12, 0⟩
  renameOk := true

/-- The second backup takes the place of the first, which nobody asked to delete. -/
theorem backup_overwritten : ¬ ∀ (h : Host) (w : World) (rs : List Request) (k : Nat) (r : Request),
    rs[k]? = some r → Spares h (stateAt (request h) w rs k) r := by
  intro hall
  have hspares := hall (Host.windows (ascii "C:\\Nostalgia")) emptyWorld
    [.createBackup (backupAtNoon 1715940000 (List.replicate 60 65)),
     .createBackup (backupAtNoon 1715940030 (List.replicate 60 66))] 1 _ rfl
  have hkept := hspares ((backupAtNoon 1715940000 []).finalPath _ (ascii "PLAYER") (ascii "Thrall"))
    (finalPath_stored _ _ _) id (List.replicate 60 65) (by decide +kernel)
  revert hkept
  decide +kernel

end Nostalgia.Web
