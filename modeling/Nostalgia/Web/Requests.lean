/-
  Nostalgia.Web.Requests — the POST requests that handle backup files.

  A request carries what was posted, what the databases and the clock say while it runs,
  and what the operating system answers. `handle` is the script's branch for each action;
  a notice or an attachment is its response, an exception's message its error.
  - `temp_dump_…` and `temp_load_…` stand in the server's directory, backups in the
    account's folder of the backup store.
  - create_backup polls for the dump 20 times through the stat cache (`pollDump`).
  - restore_backup is cut where the server may run in between: `restoreSource`,
    `oldTemps`, the unlinks, `copyTemp` and `sendLoad`.
-/

import Nostalgia.Web.Files

namespace Nostalgia.Web

open Nostalgia.Machine

inductive Response where
  /-- The page, with its notice. -/
  | page (notice : Bytes)
  | attachment (filename content : Bytes)
  deriving DecidableEq

/-! ## Names -/

/-- A number in a file name. -/
def decimal (n : Nat) : Bytes := (Nat.toDigits 10 n).map fun ch => UInt8.ofNat ch.toNat

/-- A number filled up with zeros. -/
def padded (width n : Nat) : Bytes := List.replicate (width - (decimal n).length) 48 ++ decimal n

/-- The local time of a 64-bit time stamp. -/
structure LocalTime where
  year : Fin (10 ^ 12)
  month : Fin 13
  day : Fin 32
  hour : Fin 24
  minute : Fin 60

/-- `date('Y-m-d_Hi')`. -/
def LocalTime.stamp (t : LocalTime) : Bytes :=
  padded 4 t.year ++ ascii "-" ++ padded 2 t.month ++ ascii "-" ++ padded 2 t.day ++ ascii "_" ++
    padded 2 t.hour ++ padded 2 t.minute

/-- `$finalFilename`. -/
def finalFilename (charName : Bytes) (t : LocalTime) : Bytes := charName ++ ascii "_" ++ t.stamp ++ pdumpExtension

def tempDump (charGuid now : Nat) : Bytes :=
  ascii "temp_dump_" ++ decimal charGuid ++ ascii "_" ++ decimal now ++ pdumpExtension

def tempLoad (now : Nat) : Bytes := ascii "temp_load_" ++ decimal now ++ pdumpExtension

/-- `strpos` finds `needle`. -/
def contains (needle s : Bytes) : Bool := s.tails.any (needle.isPrefixOf ·)

/-! ## What is posted -/

/-- An entry of `$_FILES`. -/
structure Upload where
  error : Int
  size : Int
  /-- `is_uploaded_file`. -/
  isUploaded : Bool
  name : Bytes
  content : Bytes

structure UploadDump where
  account_name : Bytes
  pdump : Option Upload
  mkdirOk : Bool
  moveOk : Bool

structure DownloadDump where
  account_name : Bytes
  filename : Bytes

structure DeleteDump where
  account_name : Bytes
  filename : Bytes
  unlinkOk : Bool

/-- The login and the character database; a query that finds nothing fetches `none`. -/
structure Database where
  accountId : Bytes → Option Nat
  characterName : Nat → Nat → Option Bytes

structure CreateBackup where
  serverRunning : Bool
  account_name : Bytes
  character_guid : Int
  /-- `none`: the databases do not answer. -/
  database : Option Database
  mkdirOk : Bool
  /-- `time()`. -/
  now : Nat
  pipeOk : Bool
  /-- What a fresh stat of the temporary file says at each poll. -/
  size : Nat → Option Nat
  /-- What the server has written by the time of the rename. -/
  dumped : Option Bytes
  date : LocalTime
  renameOk : Bool

structure RestoreBackup where
  serverRunning : Bool
  account_name : Bytes
  filename : Bytes
  target_account : Bytes
  unlinkOk : Bytes → Bool
  now : Nat
  copyOk : Bool
  pipeOk : Bool

inductive Request where
  | uploadDump (r : UploadDump)
  | downloadDump (r : DownloadDump)
  | deleteDump (r : DeleteDump)
  | createBackup (r : CreateBackup)
  | restoreBackup (r : RestoreBackup)

/-! ## The actions -/

variable (h : Host)

/-- `safeDumpName` inside an action. -/
def dumpName (filename : Bytes) : Page Bytes :=
  match safeDumpName filename with
  | .ok name => pure name
  | .error message => throw (ascii message)

/-- `if (!is_dir(…)) @mkdir(…)`. -/
def ensureDir (path : Bytes) (ok : Bool) : Page Unit := do
  let there ← isDir h path
  if there then pure () else mkdir path ok

def invalidAccount : Bytes := ascii "Invalid account name."

/-- The last checks of an upload, and the move. -/
def saveUpload (target targetName content : Bytes) (ok : Bool) : Page Response := do
  let taken ← isFile h target
  require (!taken) (ascii "Backup " ++ targetName ++ ascii " already exists.")
  let moved ← moveUploadedFile h content target ok
  require moved (ascii "Could not save the file.")
  pure (.page (ascii "Backup " ++ targetName ++ ascii " was uploaded."))

def uploadDump (r : UploadDump) : Page Response := do
  let account := accountName r.account_name
  require (validAccount account) invalidAccount
  ensureDir h (h.accountDir account) r.mkdirOk
  let upload ← required r.pdump (ascii "Select a .pdump file.")
  require (upload.error == 0) (ascii "The upload failed.")
  require (1 ≤ upload.size && upload.size ≤ 10 * 1024 * 1024) (ascii "The .pdump file must not exceed 10 MB.")
  require upload.isUploaded (ascii "The uploaded file is invalid.")
  let targetName ← dumpName upload.name
  let header := upload.content.take 512
  require (contains (ascii "IMPORTANT NOTE:") header) (ascii "This is not a valid vMaNGOS .pdump file.")
  saveUpload h (h.backupPath account targetName) targetName upload.content r.moveOk

def downloadDump (r : DownloadDump) : Page Response := do
  let account := accountName r.account_name
  let filename ← dumpName r.filename
  require (validAccount account) invalidAccount
  let path := h.backupPath account filename
  let found ← isFile h path
  require found (ascii "The backup was not found.")
  let content ← readFile h path
  pure (.attachment filename content)

def deleteDump (r : DeleteDump) : Page Response := do
  let account := accountName r.account_name
  let filename ← dumpName r.filename
  require (validAccount account) invalidAccount
  let path := h.backupPath account filename
  let found ← isFile h path
  if found then do
    unlink h path r.unlinkOk
    pure (.page (ascii "Backup " ++ filename ++ ascii " was deleted."))
  else pure (.page [])

def noServer : Bytes := ascii "The world server is not running."

def noDatabase : Bytes := ascii "The database is not available. Start the server or MariaDB first."

/-- One after the other: `file_exists` and `filesize > 50`. Once the file was seen, its
    stat comes from the cache. -/
def pollDump : Option Nat → List (Option Nat) → Bool
  | _, [] => false
  | cached, fresh :: rest =>
    let stat := cached.or fresh
    stat.any (50 < ·) || pollDump stat rest

/-- `!$charName` is false. -/
def truthy (s : Bytes) : Bool := s != [] && s != ascii "0"

/-- The checks of create_backup, up to the character's name. -/
def backupCharacter (r : CreateBackup) : Page (Bytes × Bytes) := do
  require r.serverRunning noServer
  let account := accountName r.account_name
  require (validAccount account) invalidAccount
  ensureDir h (h.accountDir account) r.mkdirOk
  require (0 < r.character_guid) (ascii "No valid character selected.")
  let database ← required r.database noDatabase
  let accId ← required ((database.accountId account).filter (0 < ·)) (ascii "Account not found in the database.")
  let charName ← required ((database.characterName r.character_guid.toNat accId).filter truthy)
    (ascii "The character does not exist or does not belong to this account.")
  pure (account, charName)

/-- `$tempPath`. -/
def CreateBackup.tempPath (r : CreateBackup) : Bytes := h.tempPath (tempDump r.character_guid.toNat r.now)

/-- `$finalPath`. -/
def CreateBackup.finalPath (r : CreateBackup) (account charName : Bytes) : Bytes :=
  h.backupPath account (finalFilename charName r.date)

/-- `$found`. -/
def CreateBackup.found (r : CreateBackup) : Bool := pollDump none ((List.range 20).map r.size)

/-- The rename, once the dump was found. -/
def saveDump (r : CreateBackup) (account charName : Bytes) : Page Response := do
  serverWrites h (r.tempPath h) r.dumped
  let moved ← rename h (r.tempPath h) (r.finalPath h account charName) r.renameOk
  require moved (ascii "The backup could not be moved into the backup folder.")
  pure (.page (ascii "Character '" ++ charName ++ ascii "' was backed up successfully."))

def notSent : Bytes := ascii "Could not send the backup command to the world server."

def noDump : Bytes :=
  utf8 "Der Worldserver hat keine .pdump-Datei erzeugt. Bitte prÃ¼fen, ob pdump write existiert."

def createBackup (r : CreateBackup) : Page Response := do
  let (account, charName) ← backupCharacter h r
  let sent ← sendWorldServerCommand (.pdumpWrite (tempDump r.character_guid.toNat r.now) charName) r.pipeOk
  require sent notSent
  noteAccess (.read (r.tempPath h))
  require r.found noDump
  saveDump h r account charName

/-- The checks of restore_backup: the backup's path and the account to load it into. -/
def restoreSource (r : RestoreBackup) : Page (Bytes × Bytes × Bytes) := do
  require r.serverRunning noServer
  let account := accountName r.account_name
  let filename ← dumpName r.filename
  let targetAccount := accountName r.target_account
  require (validAccount account && validAccount targetAccount) invalidAccount
  let path := h.backupPath account filename
  let found ← isFile h path
  require found (ascii "The backup was not found.")
  pure (path, filename, targetAccount)

/-- `temp_load_*.pdump` in the server's directory. -/
def isTempLoad (path : Bytes) : Bool :=
  (h.tempPath (ascii "temp_load_")).isPrefixOf path && pdumpExtension.isSuffixOf path &&
    !(path.drop (h.tempPath (ascii "temp_load_")).length).any isSeparator

/-- `glob`. -/
def tempLoads (w : World) : List Bytes := (w.files.map Prod.fst).filter (isTempLoad h)

def oldTemps : Page (List Bytes) := do
  let w ← get
  pure (tempLoads h w)

def copyTemp (r : RestoreBackup) (path : Bytes) : Page Unit := do
  let copied ← copy h path (h.tempPath (tempLoad r.now)) r.copyOk
  require copied (ascii "The backup could not be copied into the temporary folder.")

/-- The temporary file stays until the next restore, unless the pipe cannot be opened. -/
def sendLoad (r : RestoreBackup) (filename targetAccount : Bytes) : Page Response := do
  let sent ← sendWorldServerCommand (.pdumpLoad (tempLoad r.now) targetAccount) r.pipeOk
  if sent then
    pure (.page (ascii "Backup " ++ filename ++ ascii " is being restored to account " ++ targetAccount ++ ascii "."))
  else do
    unlink h (h.tempPath (tempLoad r.now)) (r.unlinkOk (h.tempPath (tempLoad r.now)))
    throw (ascii "Could not send the restore command.")

def restoreBackup (r : RestoreBackup) : Page Response := do
  let (path, filename, targetAccount) ← restoreSource h r
  let temps ← oldTemps h
  temps.forM fun temp => unlink h temp (r.unlinkOk temp)
  copyTemp h r path
  sendLoad h r filename targetAccount

def handle : Request → Page Response
  | .uploadDump r => uploadDump h r
  | .downloadDump r => downloadDump h r
  | .deleteDump r => deleteDump h r
  | .createBackup r => createBackup h r
  | .restoreBackup r => restoreBackup h r

/-- The world after a request. -/
def request (w : World) (r : Request) : World := (exec (handle h r) w).2

end Nostalgia.Web
