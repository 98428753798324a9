/-
  Nostalgia.Web.Files — the disk, the pipe to the world server, and the page's operations
  on them.

  Two paths name one file when the file system folds them to the same name (NTFS does not
  tell upper from lower case). What the operating system may refuse (a mkdir, a move, a
  rename, a copy, an unlink, opening the pipe) is an argument of the operation. `log` is
  the model's record of the paths an operation was given.
  - `lookup_put_self`, `lookup_put_ne`, `lookup_erase_ne`: what an operation does to the
    file it names and to every other one.
  - `Touches P`, `SameFiles` and `KeepsFile h p`: what a program does to the record, to all
    files and to one file, with a lemma for each operation.
-/

import Nostalgia.Machine.Program
import Nostalgia.Web.DumpNames

namespace Nostalgia.Web

open Nostalgia.Machine

/-! ## Paths -/

def serverDirectory (root : Bytes) : Bytes := root ++ DIRECTORY_SEPARATOR ++ ascii "Server"

def dumpDirectory (root : Bytes) : Bytes :=
  root ++ DIRECTORY_SEPARATOR ++ ascii "backups" ++ DIRECTORY_SEPARATOR ++ ascii "characters"

/-- The installation: its directory, and the name the file system knows a path by. The
    server's directory and the backup store have no file in common. -/
structure Host where
  root : Bytes
  fold : Bytes → Bytes
  apart : ∀ s t, fold (serverDirectory root ++ DIRECTORY_SEPARATOR ++ s) ≠
    fold (dumpDirectory root ++ DIRECTORY_SEPARATOR ++ t)

/-- Windows: letters of either case are the same. -/
def Host.windows (root : Bytes) : Host where
  root := root
  fold := strtoupper
  apart := by
    intro s t he
    unfold serverDirectory dumpDirectory strtoupper at he
    simp only [List.map_append, List.append_assoc, List.append_cancel_left_eq] at he
    have hhead := congrArg List.head? he
    simp [ascii, toUpper, isLower] at hhead

namespace Host

variable (h : Host)

def same (p q : Bytes) : Bool := h.fold p == h.fold q

def accountDir (account : Bytes) : Bytes := dumpDirectory h.root ++ DIRECTORY_SEPARATOR ++ account

def backupPath (account filename : Bytes) : Bytes := h.accountDir account ++ DIRECTORY_SEPARATOR ++ filename

def tempPath (filename : Bytes) : Bytes := serverDirectory h.root ++ DIRECTORY_SEPARATOR ++ filename

end Host

/-! ## The disk -/

/-- A line for the server's console. -/
inductive Command where
  /-- `pdump write file character`. -/
  | pdumpWrite (file character : Bytes)
  /-- `pdump load file account`. -/
  | pdumpLoad (file account : Bytes)
  deriving DecidableEq, Repr

inductive Access where
  | directory (path : Bytes)
  | read (path : Bytes)
  | write (path : Bytes)
  | remove (path : Bytes)
  deriving DecidableEq, Repr

structure World where
  /-- Each file's path and content. -/
  files : List (Bytes × Bytes)
  dirs : List Bytes
  /-- Sent to the server and not executed yet. -/
  pipe : List Command
  log : List Access
  deriving DecidableEq

namespace World

variable (h : Host)

def lookup (w : World) (p : Bytes) : Option Bytes := (w.files.find? fun f => h.same f.1 p).map Prod.snd

def erase (w : World) (p : Bytes) : World := { w with files := w.files.filter fun f => !h.same f.1 p }

def put (w : World) (p content : Bytes) : World := { w with files := (p, content) :: (w.erase h p).files }

def note (w : World) (a : Access) : World := { w with log := w.log ++ [a] }

@[simp] theorem note_files (w : World) (a : Access) : (w.note a).files = w.files := rfl
@[simp] theorem note_log (w : World) (a : Access) : (w.note a).log = w.log ++ [a] := rfl
@[simp] theorem note_pipe (w : World) (a : Access) : (w.note a).pipe = w.pipe := rfl
@[simp] theorem put_log (w : World) (p c : Bytes) : (w.put h p c).log = w.log := rfl
@[simp] theorem erase_log (w : World) (p : Bytes) : (w.erase h p).log = w.log := rfl
@[simp] theorem put_pipe (w : World) (p c : Bytes) : (w.put h p c).pipe = w.pipe := rfl
@[simp] theorem erase_pipe (w : World) (p : Bytes) : (w.erase h p).pipe = w.pipe := rfl
@[simp] theorem note_lookup (w : World) (a : Access) (p : Bytes) : (w.note a).lookup h p = w.lookup h p := rfl

theorem lookup_congr {w : World} {p q : Bytes} (hpq : h.fold p = h.fold q) : w.lookup h p = w.lookup h q := by
  unfold lookup Host.same
  rw [hpq]

@[simp] theorem lookup_erase_self (w : World) (p : Bytes) : (w.erase h p).lookup h p = none := by
  unfold lookup erase
  simp only [Option.map_eq_none_iff, List.find?_eq_none, List.mem_filter]
  intro f ⟨_, hf⟩ hs
  rw [hs] at hf
  cases hf

theorem lookup_erase_ne (w : World) {p q : Bytes} (hpq : h.fold q ≠ h.fold p) :
    (w.erase h p).lookup h q = w.lookup h q := by
  unfold lookup erase
  dsimp only
  rw [List.find?_filter]
  congr 2
  funext f
  by_cases hf : h.same f.1 q = true
  · have hne : h.same f.1 p = false := by
      unfold Host.same at hf ⊢
      rw [beq_iff_eq] at hf
      rw [hf]
      exact beq_eq_false_iff_ne.mpr hpq
    simp [hf, hne]
  · simp [hf]

@[simp] theorem lookup_put_self (w : World) (p c : Bytes) : (w.put h p c).lookup h p = some c := by
  unfold lookup put
  rw [List.find?_cons_of_pos (by simp [Host.same])]
  rfl

theorem lookup_put_ne (w : World) {p q : Bytes} (c : Bytes) (hpq : h.fold q ≠ h.fold p) :
    (w.put h p c).lookup h q = w.lookup h q := by
  have hne : ¬ h.same p q = true := by
    unfold Host.same
    rw [beq_iff_eq]
    exact fun he => hpq he.symm
  rw [← lookup_erase_ne h w hpq]
  exact congrArg (Option.map Prod.snd) (List.find?_cons_of_neg hne)

theorem mem_put {w : World} {p c : Bytes} {f : Bytes × Bytes} (hf : f ∈ (w.put h p c).files) :
    f = (p, c) ∨ f ∈ w.files := by
  rcases List.mem_cons.mp hf with hf | hf
  · exact Or.inl hf
  · exact Or.inr (List.mem_filter.mp hf).1

theorem mem_erase {w : World} {p : Bytes} {f : Bytes × Bytes} (hf : f ∈ (w.erase h p).files) : f ∈ w.files :=
  (List.mem_filter.mp hf).1

end World

/-! ## Operations -/

open World

/-- A script that may end with an exception's message. -/
abbrev Page (α : Type) := Program World Bytes α

variable (h : Host)

def noteAccess (a : Access) : Page Unit := modify fun w => w.note a

def isDir (path : Bytes) : Page Bool := do
  noteAccess (.directory path)
  let w ← get
  pure (w.dirs.any (h.same · path))

def mkdir (path : Bytes) (ok : Bool) : Page Unit := do
  noteAccess (.directory path)
  modify fun w => if ok then { w with dirs := path :: w.dirs } else w

/-- `is_file` and `file_exists`. -/
def isFile (path : Bytes) : Page Bool := do
  noteAccess (.read path)
  let w ← get
  pure (w.lookup h path).isSome

def readFile (path : Bytes) : Page Bytes := do
  noteAccess (.read path)
  let w ← get
  pure ((w.lookup h path).getD [])

def unlink (path : Bytes) (ok : Bool) : Page Unit := do
  noteAccess (.remove path)
  modify fun w => if ok then w.erase h path else w

/-- `move_uploaded_file`. -/
def moveUploadedFile (content path : Bytes) (ok : Bool) : Page Bool := do
  noteAccess (.write path)
  modify fun w => if ok then w.put h path content else w
  pure ok

/-- `rename`: an existing target is replaced. -/
def rename (source target : Bytes) (ok : Bool) : Page Bool := do
  noteAccess (.remove source)
  noteAccess (.write target)
  let w ← get
  match w.lookup h source with
  | some content =>
    modify fun w => if ok then (w.erase h source).put h target content else w
    pure ok
  | none => pure false

def copy (source target : Bytes) (ok : Bool) : Page Bool := do
  noteAccess (.read source)
  noteAccess (.write target)
  let w ← get
  match w.lookup h source with
  | some content =>
    modify fun w => if ok then w.put h target content else w
    pure ok
  | none => pure false

def sendWorldServerCommand (command : Command) (ok : Bool) : Page Bool := do
  modify fun w => if ok then { w with pipe := w.pipe ++ [command] } else w
  pure ok

/-- What the server wrote meanwhile; not an access of the page. -/
def serverWrites (path : Bytes) (content : Option Bytes) : Page Unit :=
  modify fun w =>
    match content with
    | some c => w.put h path c
    | none => w

/-! ### What each does -/

@[simp] theorem exec_isDir (path : Bytes) (w : World) :
    exec (isDir h path) w = (.ok (w.dirs.any (h.same · path)), w.note (.directory path)) := rfl

@[simp] theorem exec_mkdir (path : Bytes) (ok : Bool) (w : World) :
    exec (mkdir path ok) w = (.ok (), if ok then { w.note (.directory path) with dirs := path :: w.dirs }
      else w.note (.directory path)) := rfl

@[simp] theorem exec_isFile (path : Bytes) (w : World) :
    exec (isFile h path) w = (.ok (w.lookup h path).isSome, w.note (.read path)) := rfl

@[simp] theorem exec_readFile (path : Bytes) (w : World) :
    exec (readFile h path) w = (.ok ((w.lookup h path).getD []), w.note (.read path)) := rfl

@[simp] theorem exec_unlink (path : Bytes) (ok : Bool) (w : World) :
    exec (unlink h path ok) w = (.ok (), if ok then (w.note (.remove path)).erase h path
      else w.note (.remove path)) := rfl

@[simp] theorem exec_moveUploadedFile (content path : Bytes) (ok : Bool) (w : World) :
    exec (moveUploadedFile h content path ok) w = (.ok ok, if ok then (w.note (.write path)).put h path content
      else w.note (.write path)) := rfl

theorem exec_rename_some {source target content : Bytes} {ok : Bool} {w : World} (hs : w.lookup h source = some content) :
    exec (rename h source target ok) w = (.ok ok,
      if ok then (((w.note (.remove source)).note (.write target)).erase h source).put h target content
      else (w.note (.remove source)).note (.write target)) := by
  unfold rename noteAccess
  simp only [exec_bind, exec_modify, exec_get, note_lookup, hs, exec_pure]

theorem exec_rename_none {source target : Bytes} {ok : Bool} {w : World} (hs : w.lookup h source = none) :
    exec (rename h source target ok) w = (.ok false, (w.note (.remove source)).note (.write target)) := by
  unfold rename noteAccess
  simp only [exec_bind, exec_modify, exec_get, note_lookup, hs, exec_pure]

theorem exec_copy_some {source target content : Bytes} {ok : Bool} {w : World} (hs : w.lookup h source = some content) :
    exec (copy h source target ok) w = (.ok ok,
      if ok then ((w.note (.read source)).note (.write target)).put h target content
      else (w.note (.read source)).note (.write target)) := by
  unfold copy noteAccess
  simp only [exec_bind, exec_modify, exec_get, note_lookup, hs, exec_pure]

theorem exec_copy_none {source target : Bytes} {ok : Bool} {w : World} (hs : w.lookup h source = none) :
    exec (copy h source target ok) w = (.ok false, (w.note (.read source)).note (.write target)) := by
  unfold copy noteAccess
  simp only [exec_bind, exec_modify, exec_get, note_lookup, hs, exec_pure]

@[simp] theorem exec_sendWorldServerCommand (command : Command) (ok : Bool) (w : World) :
    exec (sendWorldServerCommand command ok) w = (.ok ok, if ok then { w with pipe := w.pipe ++ [command] } else w) := rfl

@[simp] theorem exec_serverWrites (path : Bytes) (content : Option Bytes) (w : World) :
    exec (serverWrites h path content) w = (.ok (), match content with
      | some c => w.put h path c
      | none => w) := rfl

/-! ### The record of the paths -/

/-- Only accesses with `P` were added to the record. -/
def Touches (P : Access → Prop) (w w' : World) : Prop := ∃ l, w'.log = w.log ++ l ∧ ∀ a ∈ l, P a

variable {h} {P : Access → Prop}

theorem Touches.refl (w : World) : Touches P w w := ⟨[], (List.append_nil _).symm, fun _ ha => absurd ha List.not_mem_nil⟩

theorem Touches.trans (a b c : World) : Touches P a b → Touches P b c → Touches P a c := by
  intro ⟨l, hl, hP⟩ ⟨m, hm, hQ⟩
  refine ⟨l ++ m, by rw [hm, hl, List.append_assoc], ?_⟩
  intro x hx
  rcases List.mem_append.mp hx with hx | hx
  · exact hP x hx
  · exact hQ x hx

theorem Touches.of_log {w w' : World} {l : List Access} (hlog : w'.log = w.log ++ l) (hl : ∀ a ∈ l, P a) :
    Touches P w w' := ⟨l, hlog, hl⟩

theorem Touches.of_eq {w w' : World} (hlog : w'.log = w.log) : Touches P w w' :=
  ⟨[], by rw [hlog, List.append_nil], fun _ ha => absurd ha List.not_mem_nil⟩

theorem touches_isDir {path : Bytes} (hP : P (.directory path)) : Moves (Touches P) (isDir h path) :=
  fun _ => .of_log rfl (by simpa using hP)

theorem touches_mkdir {path : Bytes} {ok : Bool} (hP : P (.directory path)) : Moves (Touches P) (mkdir path ok) := by
  intro w
  refine .of_log (l := [.directory path]) ?_ (by simpa using hP)
  rw [exec_mkdir]
  split <;> rfl

theorem touches_isFile {path : Bytes} (hP : P (.read path)) : Moves (Touches P) (isFile h path) :=
  fun _ => .of_log rfl (by simpa using hP)

theorem touches_readFile {path : Bytes} (hP : P (.read path)) : Moves (Touches P) (readFile h path) :=
  fun _ => .of_log rfl (by simpa using hP)

theorem touches_unlink {path : Bytes} {ok : Bool} (hP : P (.remove path)) : Moves (Touches P) (unlink h path ok) := by
  intro w
  refine .of_log (l := [.remove path]) ?_ (by simpa using hP)
  rw [exec_unlink]
  split <;> rfl

theorem touches_moveUploadedFile {content path : Bytes} {ok : Bool} (hP : P (.write path)) :
    Moves (Touches P) (moveUploadedFile h content path ok) := by
  intro w
  refine .of_log (l := [.write path]) ?_ (by simpa using hP)
  rw [exec_moveUploadedFile]
  split <;> rfl

theorem touches_copy {source target : Bytes} {ok : Bool} (hs : P (.read source)) (ht : P (.write target)) :
    Moves (Touches P) (copy h source target ok) := by
  intro w
  refine .of_log (l := [.read source, .write target]) ?_ (by simpa using ⟨hs, ht⟩)
  cases hw : w.lookup h source with
  | none =>
    rw [exec_copy_none h hw]
    simp
  | some c =>
    rw [exec_copy_some h hw]
    split <;> simp

theorem touches_send {command : Command} {ok : Bool} : Moves (Touches P) (sendWorldServerCommand command ok) := by
  intro w
  refine .of_eq ?_
  rw [exec_sendWorldServerCommand]
  split <;> rfl

/-! ### One file -/

/-- The file at `p` is as it was. -/
def KeepsFile (h : Host) (p : Bytes) (w w' : World) : Prop := w'.lookup h p = w.lookup h p

variable {p : Bytes}

theorem KeepsFile.refl (w : World) : KeepsFile h p w w := rfl

theorem KeepsFile.trans (a b c : World) : KeepsFile h p a b → KeepsFile h p b c → KeepsFile h p a c :=
  fun hab hbc => Eq.trans hbc hab

/-- No file was touched. -/
def SameFiles (w w' : World) : Prop := w'.files = w.files

theorem SameFiles.refl (w : World) : SameFiles w w := rfl

theorem SameFiles.trans (a b c : World) : SameFiles a b → SameFiles b c → SameFiles a c :=
  fun hab hbc => Eq.trans hbc hab

theorem SameFiles.lookup {w w' : World} (hw : SameFiles w w') (q : Bytes) : w'.lookup h q = w.lookup h q := by
  unfold World.lookup
  rw [hw]

theorem SameFiles.keeps (w w' : World) (hw : SameFiles w w') : KeepsFile h p w w' := hw.lookup p

theorem same_isDir {path : Bytes} : Moves SameFiles (isDir h path) := fun _ => rfl

theorem same_mkdir {path : Bytes} {ok : Bool} : Moves SameFiles (mkdir path ok) := by
  intro w
  rw [exec_mkdir]
  split <;> rfl

theorem same_isFile {path : Bytes} : Moves SameFiles (isFile h path) := fun _ => rfl

theorem same_readFile {path : Bytes} : Moves SameFiles (readFile h path) := fun _ => rfl

theorem same_send {command : Command} {ok : Bool} : Moves SameFiles (sendWorldServerCommand command ok) := by
  intro w
  rw [exec_sendWorldServerCommand]
  split <;> rfl

theorem keeps_unlink {path : Bytes} {ok : Bool} (hp : h.fold p ≠ h.fold path) :
    Moves (KeepsFile h p) (unlink h path ok) := by
  intro w
  rw [exec_unlink]
  split
  · exact lookup_erase_ne h _ hp
  · rfl

theorem keeps_copy {source target : Bytes} {ok : Bool} (hp : h.fold p ≠ h.fold target) :
    Moves (KeepsFile h p) (copy h source target ok) := by
  intro w
  cases hw : w.lookup h source with
  | none =>
    rw [exec_copy_none h hw]
    rfl
  | some c =>
    rw [exec_copy_some h hw]
    dsimp only
    split
    · exact lookup_put_ne h _ c hp
    · rfl

end Nostalgia.Web
