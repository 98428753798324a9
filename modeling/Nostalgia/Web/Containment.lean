/-
  Nostalgia.Web.Containment — the paths a posted name can reach.

  - `isTempLoad_outside`: what stands in the server's directory is not in the store.
  - `Inside`: an account's folder, a backup of a valid account under an accepted file
    name, or a temporary file of the server's directory. The four actions that take a
    file name are given only such paths (`uploadDump_inside`, `downloadDump_inside`,
    `deleteDump_inside`, `restoreBackup_inside`).
  - `posted_names_stay_inside`: the names are accepted in one shape, once accepted they
    stay as they are, and every file of the store these actions are given is a backup of
    that shape.
-/

import Nostalgia.Web.Walks

namespace Nostalgia.Web

open Nostalgia.Machine

variable (h : Host)

/-- Under the backup store. -/
def InStore (path : Bytes) : Prop := dumpDirectory h.root ++ DIRECTORY_SEPARATOR <+: path

theorem backupPath_inStore (account filename : Bytes) : InStore h (h.backupPath account filename) := by
  refine ⟨account ++ DIRECTORY_SEPARATOR ++ filename, ?_⟩
  simp only [Host.backupPath, Host.accountDir, List.append_assoc]

theorem tempPath_outside (filename : Bytes) : ¬ InStore h (h.tempPath filename) := by
  unfold InStore Host.tempPath serverDirectory dumpDirectory
  rintro ⟨t, ht⟩
  simp only [List.append_assoc, List.append_cancel_left_eq] at ht
  have hhead := congrArg List.head? ht
  simp [ascii] at hhead

/-- What the glob finds stands in the server's directory. -/
theorem isTempLoad_tempPath {path : Bytes} (ht : isTempLoad h path = true) : ∃ name, path = h.tempPath name := by
  unfold isTempLoad at ht
  simp only [Bool.and_eq_true, List.isPrefixOf_iff_prefix] at ht
  obtain ⟨t, rfl⟩ := ht.1.1
  refine ⟨ascii "temp_load_" ++ t, ?_⟩
  simp only [Host.tempPath, List.append_assoc]

theorem isTempLoad_outside {path : Bytes} (ht : isTempLoad h path = true) : ¬ InStore h path := by
  obtain ⟨name, rfl⟩ := isTempLoad_tempPath h ht
  exact tempPath_outside h name

/-! ## Decimal numbers -/

theorem isSafeByte_digit {ch : Char} (hd : ch.isDigit = true) : isSafeByte (UInt8.ofNat ch.toNat) = true := by
  simp only [Char.isDigit, Bool.and_eq_true, decide_eq_true_eq] at hd
  have hlo : 48 ≤ ch.toNat := hd.1
  have hhi : ch.toNat ≤ 57 := hd.2
  have hdigit : isDigit (UInt8.ofNat ch.toNat) = true := by
    unfold isDigit
    rw [UInt8.toNat_ofNat_of_lt' (by show ch.toNat < 256; omega)]
    simp only [Bool.and_eq_true, decide_eq_true_eq]
    exact ⟨hlo, hhi⟩
  unfold isSafeByte
  simp [hdigit]

theorem decimal_safe (n : Nat) : ∀ c ∈ decimal n, isSafeByte c = true := by
  intro c hc
  obtain ⟨ch, hch, rfl⟩ := List.mem_map.mp hc
  exact isSafeByte_digit (Nat.isDigit_of_mem_toDigits (by decide) (by decide) hch)

theorem tempLoad_isTempLoad (now : Nat) : isTempLoad h (h.tempPath (tempLoad now)) = true := by
  have hjoin : h.tempPath (tempLoad now) = h.tempPath (ascii "temp_load_") ++ (decimal now ++ pdumpExtension) := by
    simp only [Host.tempPath, tempLoad, List.append_assoc]
  unfold isTempLoad
  rw [hjoin, List.drop_left]
  simp only [Bool.and_eq_true, List.isPrefixOf_iff_prefix, List.isSuffixOf_iff_suffix, Bool.not_eq_true',
    List.any_eq_false]
  refine ⟨⟨List.prefix_append _ _, ?_⟩, ?_⟩
  · rw [← List.append_assoc]
    exact List.suffix_append _ _
  · intro c hc
    rcases List.mem_append.mp hc with hc | hc
    · simp [(isSafeByte_plain (decimal_safe now c hc)).1]
    · simp [pdumpExtension_plain c hc]

/-! ## What an action is given -/

def StoredPath (path : Bytes) : Prop :=
  ∃ account b, IsAccount account ∧ SafeBase b ∧ path = h.backupPath account (b ++ pdumpExtension)

def Inside : Access → Prop
  | .directory path => ∃ account, IsAccount account ∧ path = h.accountDir account
  | .read path => StoredPath h path ∨ isTempLoad h path = true
  | .write path => StoredPath h path ∨ isTempLoad h path = true
  | .remove path => StoredPath h path ∨ isTempLoad h path = true

theorem backupPath_stored {posted filename name : Bytes} (ha : validAccount (accountName posted) = true)
    (hn : safeDumpName filename = .ok name) : StoredPath h (h.backupPath (accountName posted) name) := by
  obtain ⟨b, hb, rfl⟩ := safeDumpName_ok hn
  exact ⟨accountName posted, b, validAccount_ok ha, hb, rfl⟩

variable {h} {P : Access → Prop}

theorem uploadDump_inside (r : UploadDump) : Moves (Touches (Inside h)) (uploadDump h r) := by
  apply uploadDump_moves Touches.refl Touches.trans
  · intro ha
    have hdir : Inside h (.directory (h.accountDir (accountName r.account_name))) := ⟨_, validAccount_ok ha, rfl⟩
    exact ensureDir_moves Touches.refl Touches.trans (touches_isDir hdir) (touches_mkdir hdir)
  · intro ha filename name content hn
    have hstored := backupPath_stored h ha hn
    exact saveUpload_moves Touches.refl Touches.trans (touches_isFile (Or.inl hstored))
      (touches_moveUploadedFile (Or.inl hstored))

theorem downloadDump_inside (r : DownloadDump) : Moves (Touches (Inside h)) (downloadDump h r) := by
  apply downloadDump_moves Touches.refl Touches.trans
  intro ha name hn
  have hstored := backupPath_stored h ha hn
  exact ⟨touches_isFile (Or.inl hstored), touches_readFile (Or.inl hstored)⟩

theorem deleteDump_inside (r : DeleteDump) : Moves (Touches (Inside h)) (deleteDump h r) := by
  apply deleteDump_moves Touches.refl Touches.trans
  intro ha name hn
  have hstored := backupPath_stored h ha hn
  exact ⟨touches_isFile (Or.inl hstored), touches_unlink (Or.inl hstored)⟩

theorem restoreSource_inside (r : RestoreBackup) : Moves (Touches (Inside h)) (restoreSource h r) := by
  apply restoreSource_moves Touches.refl Touches.trans
  intro ha name hn
  exact touches_isFile (Or.inl (backupPath_stored h ha hn))

/-- The checks of restore_backup have passed for `path`. -/
structure RestoreSource (h : Host) (r : RestoreBackup) (w : World) (path filename targetAccount : Bytes) : Prop where
  account : validAccount (accountName r.account_name) = true
  target : validAccount targetAccount = true
  targetAccount_eq : targetAccount = accountName r.target_account
  filename_ok : safeDumpName r.filename = .ok filename
  path_eq : path = h.backupPath (accountName r.account_name) filename
  there : (w.lookup h path).isSome = true

theorem restoreSource_ok {r : RestoreBackup} {w w' : World} {path filename targetAccount : Bytes}
    (he : exec (restoreSource h r) w = (.ok (path, filename, targetAccount), w')) :
    RestoreSource h r w path filename targetAccount ∧ w' = w.note (.read path) := by
  unfold restoreSource at he
  dsimp only at he
  obtain ⟨_, w1, hrun, h1⟩ := exec_bind_ok he
  obtain ⟨name, w2, hname, h2⟩ := exec_bind_ok h1
  obtain ⟨_, w3, hvalid, h3⟩ := exec_bind_ok h2
  obtain ⟨found, w4, hfound, h4⟩ := exec_bind_ok h3
  obtain ⟨_, w5, hthere, h5⟩ := exec_bind_ok h4
  obtain ⟨_, rfl⟩ := exec_require_ok hrun
  obtain ⟨hn, rfl⟩ := exec_dumpName_ok hname
  obtain ⟨hv, rfl⟩ := exec_require_ok hvalid
  obtain ⟨ht, rfl⟩ := exec_require_ok hthere
  rw [exec_isFile] at hfound
  cases hfound
  cases h5
  simp only [Bool.and_eq_true] at hv
  exact ⟨⟨hv.1, hv.2, rfl, hn, rfl, ht⟩, rfl⟩

theorem restoreBackup_inside (r : RestoreBackup) : Moves (Touches (Inside h)) (restoreBackup h r) := by
  have hnew : isTempLoad h (h.tempPath (tempLoad r.now)) = true := tempLoad_isTempLoad h r.now
  apply restoreBackup_moves Touches.refl Touches.trans (restoreSource_inside r)
  · intro temp htemp
    exact touches_unlink (Or.inr htemp)
  · intro source ⟨w, w', hsource⟩
    obtain ⟨hs, _⟩ := restoreSource_ok hsource
    have hpath : StoredPath h source.1 := by
      rw [hs.path_eq]
      exact backupPath_stored h hs.account hs.filename_ok
    exact touches_copy (Or.inl hpath) (Or.inr hnew)
  · intro command
    exact touches_send
  · exact touches_unlink (Or.inr hnew)

/-! ## All of them -/

/-- The actions that take a file name. -/
def Request.takesName : Request → Bool
  | .createBackup _ => false
  | _ => true

/-- What a request adds to the record. -/
def accesses (h : Host) (w : World) (r : Request) : List Access := (request h w r).log.drop w.log.length

/-- The file an access reads, writes or deletes. -/
def Access.file? : Access → Option Bytes
  | .directory _ => none
  | .read path => some path
  | .write path => some path
  | .remove path => some path

theorem handle_inside {r : Request} (hr : r.takesName = true) : Moves (Touches (Inside h)) (handle h r) := by
  cases r with
  | uploadDump r => exact uploadDump_inside r
  | downloadDump r => exact downloadDump_inside r
  | deleteDump r => exact deleteDump_inside r
  | createBackup r => cases hr
  | restoreBackup r => exact restoreBackup_inside r

theorem accesses_inside (w : World) {r : Request} (hr : r.takesName = true) : ∀ a ∈ accesses h w r, Inside h a := by
  obtain ⟨l, hl, hP⟩ := handle_inside (h := h) hr w
  intro a ha
  unfold accesses request at ha
  rw [hl, List.drop_left] at ha
  exact hP a ha

/-- The only files of the store these actions read, write or delete are those of an
    account of 3 to 16 letters and digits with a name of 1 to 48 safe bytes; neither has
    a separator or a dot. The directories they look at or make are such an account's. -/
theorem posted_names_stay_inside (h : Host) :
    (∀ x, (∃ e, safeDumpName x = .error e) ∨ ∃ b, SafeBase b ∧ safeDumpName x = .ok (b ++ pdumpExtension)) ∧
    (∀ x y, safeDumpName x = .ok y → safeDumpName y = .ok y) ∧
    ∀ w r, r.takesName = true → ∀ a ∈ accesses h w r,
      (∀ path, a.file? = some path → InStore h path → ∃ account b, IsAccount account ∧ SafeBase b ∧
        path = dumpDirectory h.root ++ DIRECTORY_SEPARATOR ++ account ++ DIRECTORY_SEPARATOR ++ (b ++ ascii ".pdump") ∧
        ∀ c ∈ account ++ b, isSeparator c = false ∧ c ≠ 46) ∧
      ∀ path, a = .directory path →
        ∃ account, IsAccount account ∧ path = dumpDirectory h.root ++ DIRECTORY_SEPARATOR ++ account := by
  have hstored : ∀ path, StoredPath h path ∨ isTempLoad h path = true → InStore h path →
      ∃ account b, IsAccount account ∧ SafeBase b ∧
        path = dumpDirectory h.root ++ DIRECTORY_SEPARATOR ++ account ++ DIRECTORY_SEPARATOR ++ (b ++ ascii ".pdump") ∧
        ∀ c ∈ account ++ b, isSeparator c = false ∧ c ≠ 46 := by
    intro path hpath hin
    rcases hpath with ⟨account, b, ha, hb, rfl⟩ | htemp
    · refine ⟨account, b, ha, hb, rfl, fun c hc => ?_⟩
      rcases List.mem_append.mp hc with hc | hc
      · exact isAccountByte_plain (ha.bytes c hc)
      · exact isSafeByte_plain (hb.safe c hc)
    · exact absurd hin (isTempLoad_outside h htemp)
  refine ⟨fun x => ?_, fun x y hxy => ?_, fun w r hr a ha => ?_⟩
  · cases hx : safeDumpName x with
    | error e => exact Or.inl ⟨e, rfl⟩
    | ok y =>
      obtain ⟨b, hb, rfl⟩ := safeDumpName_ok hx
      exact Or.inr ⟨b, hb, rfl⟩
  · exact (safeDumpName_fixed_iff y).mpr (safeDumpName_ok hxy)
  · have hin := accesses_inside w hr a ha
    cases a with
    | directory path =>
      refine ⟨fun q hq => (by cases hq), fun q hq => ?_⟩
      cases hq
      exact hin
    | read path | write path | remove path =>
      refine ⟨fun q hq hstore => ?_, fun q hq => (by cases hq)⟩
      cases hq
      exact hstored path hin hstore

end Nostalgia.Web
