/-
  Nostalgia.Web.Walks — what a request does to the world, from what its file operations do.

  For each action one rule: a reflexive and transitive relation that every file operation
  of the action respects is respected by the action, whatever it checks and answers. Each
  operation may use what the checks before it found: the account is valid, the name is
  one `safeDumpName` returned, the temporary file is one the glob found.
-/

import Nostalgia.Web.Requests

namespace Nostalgia.Web

open Nostalgia.Machine

variable {h : Host} {R : World → World → Prop}

/-- What stands behind `safeDumpName` may use the name's shape. -/
theorem moves_dumpName (hrefl : ∀ w, R w w) (htrans : ∀ a b c, R a b → R b c → R a c) {filename : Bytes}
    {f : Bytes → Page β} (hf : ∀ name, safeDumpName filename = .ok name → Moves R (f name)) :
    Moves R (dumpName filename >>= f) := by
  unfold dumpName
  cases hn : safeDumpName filename with
  | ok name => exact Moves.bind htrans (Moves.pure hrefl _) fun a ⟨_, _, he⟩ => by cases he; exact hf name hn
  | error e => exact Moves.bind htrans (Moves.throw hrefl _) fun a ⟨_, _, he⟩ => by cases he

theorem exec_dumpName_ok {filename name : Bytes} {w w' : World} (he : exec (dumpName filename) w = (.ok name, w')) :
    safeDumpName filename = .ok name ∧ w' = w := by
  unfold dumpName at he
  split at he
  · rename_i hn
    cases he
    exact ⟨hn, rfl⟩
  · cases he

theorem ensureDir_moves (hrefl : ∀ w, R w w) (htrans : ∀ a b c, R a b → R b c → R a c) {path : Bytes} {ok : Bool}
    (hlook : Moves R (isDir h path)) (hmake : Moves R (mkdir path ok)) : Moves R (ensureDir h path ok) := by
  refine Moves.bind htrans hlook fun there _ => ?_
  exact Moves.ite (fun _ => Moves.pure hrefl _) (fun _ => hmake)

theorem saveUpload_moves (hrefl : ∀ w, R w w) (htrans : ∀ a b c, R a b → R b c → R a c) {target targetName content : Bytes}
    {ok : Bool} (hlook : Moves R (isFile h target)) (hmove : Moves R (moveUploadedFile h content target ok)) :
    Moves R (saveUpload h target targetName content ok) := by
  unfold saveUpload
  refine Moves.bind htrans hlook fun _ _ => ?_
  refine Moves.require hrefl htrans fun _ => ?_
  refine Moves.bind htrans hmove fun _ _ => ?_
  exact Moves.require hrefl htrans fun _ => Moves.pure hrefl _

theorem uploadDump_moves (hrefl : ∀ w, R w w) (htrans : ∀ a b c, R a b → R b c → R a c) {r : UploadDump}
    (hdir : validAccount (accountName r.account_name) = true →
      Moves R (ensureDir h (h.accountDir (accountName r.account_name)) r.mkdirOk))
    (hsave : validAccount (accountName r.account_name) = true → ∀ filename name content, safeDumpName filename = .ok name →
      Moves R (saveUpload h (h.backupPath (accountName r.account_name) name) name content r.moveOk)) :
    Moves R (uploadDump h r) := by
  unfold uploadDump
  refine Moves.require hrefl htrans fun ha => ?_
  refine Moves.bind htrans (hdir ha) fun _ _ => ?_
  refine Moves.required hrefl htrans fun upload _ => ?_
  refine Moves.require hrefl htrans fun _ => ?_
  refine Moves.require hrefl htrans fun _ => ?_
  refine Moves.require hrefl htrans fun _ => ?_
  refine moves_dumpName hrefl htrans fun name hn => ?_
  exact Moves.require hrefl htrans fun _ => hsave ha upload.name name upload.content hn

theorem downloadDump_moves (hrefl : ∀ w, R w w) (htrans : ∀ a b c, R a b → R b c → R a c) {r : DownloadDump}
    (hfile : validAccount (accountName r.account_name) = true → ∀ name, safeDumpName r.filename = .ok name →
      Moves R (isFile h (h.backupPath (accountName r.account_name) name)) ∧
        Moves R (readFile h (h.backupPath (accountName r.account_name) name))) :
    Moves R (downloadDump h r) := by
  unfold downloadDump
  refine moves_dumpName hrefl htrans fun name hn => ?_
  refine Moves.require hrefl htrans fun ha => ?_
  obtain ⟨hlook, hread⟩ := hfile ha name hn
  refine Moves.bind htrans hlook fun _ _ => ?_
  refine Moves.require hrefl htrans fun _ => ?_
  exact Moves.bind htrans hread fun _ _ => Moves.pure hrefl _

theorem deleteDump_moves (hrefl : ∀ w, R w w) (htrans : ∀ a b c, R a b → R b c → R a c) {r : DeleteDump}
    (hfile : validAccount (accountName r.account_name) = true → ∀ name, safeDumpName r.filename = .ok name →
      Moves R (isFile h (h.backupPath (accountName r.account_name) name)) ∧
        Moves R (unlink h (h.backupPath (accountName r.account_name) name) r.unlinkOk)) :
    Moves R (deleteDump h r) := by
  unfold deleteDump
  refine moves_dumpName hrefl htrans fun name hn => ?_
  refine Moves.require hrefl htrans fun ha => ?_
  obtain ⟨hlook, hunlink⟩ := hfile ha name hn
  refine Moves.bind htrans hlook fun _ _ => ?_
  refine Moves.ite (fun _ => ?_) (fun _ => Moves.pure hrefl _)
  exact Moves.bind htrans hunlink fun _ _ => Moves.pure hrefl _

theorem restoreSource_moves (hrefl : ∀ w, R w w) (htrans : ∀ a b c, R a b → R b c → R a c) {r : RestoreBackup}
    (hlook : validAccount (accountName r.account_name) = true → ∀ name, safeDumpName r.filename = .ok name →
      Moves R (isFile h (h.backupPath (accountName r.account_name) name))) :
    Moves R (restoreSource h r) := by
  unfold restoreSource
  refine Moves.require hrefl htrans fun _ => ?_
  refine moves_dumpName hrefl htrans fun name hn => ?_
  refine Moves.require hrefl htrans fun ha => ?_
  simp only [Bool.and_eq_true] at ha
  refine Moves.bind htrans (hlook ha.1 name hn) fun _ _ => ?_
  exact Moves.require hrefl htrans fun _ => Moves.pure hrefl _

/-- The old temporary files go, the source is copied to the new one, and that goes again
    if the command cannot be sent. -/
theorem restoreBackup_moves (hrefl : ∀ w, R w w) (htrans : ∀ a b c, R a b → R b c → R a c) {r : RestoreBackup}
    (hsource : Moves R (restoreSource h r))
    (hold : ∀ temp, isTempLoad h temp = true → Moves R (unlink h temp (r.unlinkOk temp)))
    (hcopy : ∀ source, (∃ w w', exec (restoreSource h r) w = (.ok source, w')) →
      Moves R (copy h source.1 (h.tempPath (tempLoad r.now)) r.copyOk))
    (hsend : ∀ command, Moves R (sendWorldServerCommand command r.pipeOk))
    (hnew : Moves R (unlink h (h.tempPath (tempLoad r.now)) (r.unlinkOk (h.tempPath (tempLoad r.now))))) :
    Moves R (restoreBackup h r) := by
  unfold restoreBackup
  refine Moves.bind htrans hsource fun source hs => ?_
  refine Moves.bind htrans (fun w => hrefl w) fun temps ⟨w, w', htemps⟩ => ?_
  refine Moves.bind htrans (Moves.forM hrefl htrans _ fun temp ht => ?_) fun _ _ => ?_
  · cases htemps
    exact hold temp (List.mem_filter.mp ht).2
  unfold copyTemp sendLoad
  refine Moves.bind htrans ?_ fun _ _ => ?_
  · refine Moves.bind htrans (hcopy source hs) fun copied _ => ?_
    intro w
    cases copied
    · exact hrefl w
    · exact hrefl w
  refine Moves.bind htrans (hsend _) fun sent _ => ?_
  refine Moves.ite (fun _ => Moves.pure hrefl _) (fun _ => ?_)
  exact Moves.bind htrans hnew fun _ _ => Moves.throw hrefl _

end Nostalgia.Web
