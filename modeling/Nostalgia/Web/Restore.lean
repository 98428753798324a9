/-
  Nostalgia.Web.Restore — restore_backup requests and the server at the other end of the
  pipe.

  One request follows the other, but the server runs beside them: it executes the load
  commands in the order they were sent, any time later, and reads the named file only
  then. `RestoreState` keeps where the page stands between two of its file operations;
  `step` is the page's next one (`page`), a new request (`arrive`), or the server's next
  command (`serve`). Beside each command it keeps the content its request selected.
  - `restoreBackup_uninterrupted`: without the server these are the page's requests.
  - `drained_iff`: whenever the server catches up, every load reads what was selected
    exactly when every outstanding command's file still holds it.
  - `loads_selected_iff`: this is so at every instant of a run exactly when no unlink and
    no copy of the run meets the file of an outstanding command (`Clear`).
  - `wrong_backup_loaded`: two restores within a second.
-/

import Nostalgia.Web.Listing

namespace Nostalgia.Web

open Nostalgia.Machine World

/-! ## The page and the server -/

/-- What a request has selected. -/
structure Source where
  path : Bytes
  filename : Bytes
  targetAccount : Bytes
  content : Bytes
  deriving DecidableEq

/-- Where the page stands. -/
inductive Phase where
  | idle
  /-- The temporary files it still unlinks; the copy is next. -/
  | cleaning (r : RestoreBackup) (source : Source) (temps : List Bytes)
  /-- The command is next. -/
  | copied (r : RestoreBackup) (source : Source)

/-- A load command in the pipe, and the content its request selected. -/
structure Sent where
  file : Bytes
  account : Bytes
  selected : Bytes
  deriving DecidableEq

def Sent.command (x : Sent) : Command := .pdumpLoad x.file x.account

/-- A command the server executed, the content it read, and what was sent. -/
structure Executed where
  command : Command
  read : Option Bytes
  sent : Sent
  deriving DecidableEq

structure RestoreState where
  world : World
  phase : Phase
  outstanding : List Sent
  executed : List Executed

inductive Event where
  | arrive (r : RestoreBackup)
  | page
  | serve

variable (h : Host)

/-- A request passes its checks and looks for old files. -/
def arrive (s : RestoreState) (r : RestoreBackup) : RestoreState :=
  match exec (restoreSource h r) s.world with
  | (.ok (path, filename, targetAccount), w) =>
    let source := ⟨path, filename, targetAccount, (w.lookup h path).getD []⟩
    { s with world := w, phase := .cleaning r source (tempLoads h w) }
  | (.error _, w) => { s with world := w }

/-- The page's next operation. -/
def pageStep (s : RestoreState) : RestoreState :=
  match s.phase with
  | .idle => s
  | .cleaning r source (t :: temps) =>
    { s with world := (exec (unlink h t (r.unlinkOk t)) s.world).2, phase := .cleaning r source temps }
  | .cleaning r source [] =>
    match exec (copyTemp h r source.path) s.world with
    | (.ok _, w) => { s with world := w, phase := .copied r source }
    | (.error _, w) => { s with world := w, phase := .idle }
  | .copied r source =>
    match exec (sendLoad h r source.filename source.targetAccount) s.world with
    | (.ok _, w) =>
      { s with world := w, phase := .idle,
               outstanding := s.outstanding ++ [⟨tempLoad r.now, source.targetAccount, source.content⟩] }
    | (.error _, w) => { s with world := w, phase := .idle }

/-- The file a command names, as the server finds it. -/
def readBy (w : World) : Command → Option Bytes
  | .pdumpWrite _ _ => none
  | .pdumpLoad file _ => w.lookup h (h.tempPath file)

/-- The server executes the next command of the pipe. -/
def serve (s : RestoreState) : RestoreState :=
  match s.world.pipe, s.outstanding with
  | c :: pipe, x :: rest =>
    { s with world := { s.world with pipe := pipe }, outstanding := rest,
             executed := s.executed ++ [⟨c, readBy h s.world c, x⟩] }
  | _, _ => s

def restoreStep (s : RestoreState) : Event → RestoreState
  | .arrive r =>
    match s.phase with
    | .idle => arrive h s r
    | _ => s
  | .page => pageStep h s
  | .serve => serve h s

/-- No request and no command under way. -/
def restStart (w : World) : RestoreState := ⟨{ w with pipe := [] }, .idle, [], []⟩

/-- Every executed command was the one that was sent, and read what was selected for it. -/
def LoadsSelected (s : RestoreState) : Prop :=
  ∀ e ∈ s.executed, e.command = e.sent.command ∧ e.read = some e.sent.selected

/-- Every outstanding command's file holds what was selected for it. -/
def PendingRight (s : RestoreState) : Prop :=
  ∀ x ∈ s.outstanding, s.world.lookup h (h.tempPath x.file) = some x.selected

/-! ## The operations -/

variable {h}

theorem exec_copyTemp_ok {r : RestoreBackup} {path c : Bytes} {w : World} (hc : w.lookup h path = some c)
    (hok : r.copyOk = true) :
    ∃ w', exec (copyTemp h r path) w = (.ok (), w') ∧ SameFiles (w.put h (h.tempPath (tempLoad r.now)) c) w' ∧
      w'.pipe = w.pipe := by
  unfold copyTemp
  rw [hok, exec_bind_of_ok (exec_copy_some h hc)]
  exact ⟨_, rfl, rfl, rfl⟩

theorem exec_copyTemp_error {r : RestoreBackup} {path c : Bytes} {w : World} (hc : w.lookup h path = some c)
    (hok : r.copyOk = false) :
    ∃ e w', exec (copyTemp h r path) w = (.error e, w') ∧ SameFiles w w' ∧ w'.pipe = w.pipe := by
  unfold copyTemp
  rw [hok, exec_bind_of_ok (exec_copy_some h hc)]
  exact ⟨_, _, rfl, rfl, rfl⟩

theorem exec_sendLoad_ok {r : RestoreBackup} (filename account : Bytes) (w : World) (hok : r.pipeOk = true) :
    ∃ p, exec (sendLoad h r filename account) w =
      (.ok p, { w with pipe := w.pipe ++ [.pdumpLoad (tempLoad r.now) account] }) := by
  unfold sendLoad
  rw [hok, exec_bind_of_ok (exec_sendWorldServerCommand _ true w)]
  exact ⟨_, rfl⟩

theorem exec_sendLoad_error {r : RestoreBackup} (filename account : Bytes) (w : World) (hok : r.pipeOk = false) :
    ∃ e, exec (sendLoad h r filename account) w =
      (.error e, (exec (unlink h (h.tempPath (tempLoad r.now)) (r.unlinkOk (h.tempPath (tempLoad r.now)))) w).2) := by
  unfold sendLoad
  rw [hok, exec_bind_of_ok (exec_sendWorldServerCommand _ false w)]
  exact ⟨_, rfl⟩

theorem exec_unlink_pipe (p : Bytes) (ok : Bool) (w : World) : (exec (unlink h p ok) w).2.pipe = w.pipe := by
  rw [exec_unlink]
  split <;> rfl

/-! ## Without the server -/

theorem exec_unlinks (ok : Bytes → Bool) : ∀ (temps : List Bytes) (w : World),
    ∃ w', exec (temps.forM fun t => unlink h t (ok t)) w = (.ok (), w') := by
  intro temps
  induction temps with
  | nil => exact fun w => ⟨w, rfl⟩
  | cons t temps ih =>
    intro w
    obtain ⟨w', hrest⟩ := ih (exec (unlink h t (ok t)) w).2
    refine ⟨w', ?_⟩
    show exec (unlink h t (ok t) >>= fun _ => temps.forM fun t => unlink h t (ok t)) w = _
    rw [exec_bind_of_ok (exec_unlink h t (ok t) w)]
    exact hrest

/-- The pages of a request that unlink its old files. -/
theorem run_unlinks {r : RestoreBackup} {source : Source} : ∀ (temps : List Bytes) (s : RestoreState),
    s.phase = .cleaning r source temps →
    run (restoreStep h) s (List.replicate temps.length .page) =
      { s with world := (exec (temps.forM fun t => unlink h t (r.unlinkOk t)) s.world).2,
               phase := .cleaning r source [] } := by
  intro temps
  induction temps with
  | nil =>
    intro s hphase
    rw [← hphase]
    rfl
  | cons t temps ih =>
    intro s hphase
    have hstep : restoreStep h s .page =
        { s with world := (exec (unlink h t (r.unlinkOk t)) s.world).2, phase := .cleaning r source temps } := by
      show pageStep h s = _
      unfold pageStep
      rw [hphase]
    rw [List.length_cons, List.replicate_succ, run_cons, hstep, ih _ rfl]
    show _ = { s with
      world := (exec (unlink h t (r.unlinkOk t) >>= fun _ => temps.forM fun t => unlink h t (r.unlinkOk t)) s.world).2
      phase := .cleaning r source [] }
    rw [exec_bind_of_ok (exec_unlink h t (r.unlinkOk t) s.world)]
    rfl

/-- With the server quiet, a request's operations one after the other are the request. -/
theorem restoreBackup_uninterrupted {s : RestoreState} (hidle : s.phase = .idle) (r : RestoreBackup) :
    ∃ n, (run (restoreStep h) s (.arrive r :: List.replicate n .page)).world = request h s.world (.restoreBackup r) := by
  have harrive : restoreStep h s (.arrive r) = arrive h s r := by
    show (match s.phase with
      | .idle => arrive h s r
      | _ => s) = _
    rw [hidle]
  show ∃ n, _ = (exec (restoreBackup h r) s.world).2
  unfold restoreBackup
  cases hsource : exec (restoreSource h r) s.world with
  | mk result w =>
    cases result with
    | error e =>
      refine ⟨0, ?_⟩
      rw [exec_bind_of_error hsource, run_cons, harrive]
      unfold arrive
      rw [hsource]
      rfl
    | ok found =>
      obtain ⟨path, filename, targetAccount⟩ := found
      obtain ⟨w1, hunlinks⟩ := exec_unlinks (h := h) r.unlinkOk (tempLoads h w) w
      have htemps : exec (oldTemps h) w = (.ok (tempLoads h w), w) := rfl
      refine ⟨(tempLoads h w).length + 2, ?_⟩
      rw [exec_bind_of_ok hsource]
      dsimp only
      rw [exec_bind_of_ok htemps, exec_bind_of_ok hunlinks, run_cons, harrive, List.replicate_add, run_append]
      unfold arrive
      rw [hsource]
      dsimp only
      rw [run_unlinks _ _ rfl, hunlinks]
      show (pageStep h (pageStep h _)).world = _
      unfold pageStep
      dsimp only
      cases hcopy : exec (copyTemp h r path) w1 with
      | mk result w2 =>
        cases result with
        | error e =>
          rw [exec_bind_of_error hcopy]
        | ok u =>
          rw [exec_bind_of_ok hcopy]
          dsimp only
          cases hsend : exec (sendLoad h r filename targetAccount) w2 with
          | mk result w3 =>
            cases result with
            | error e => rfl
            | ok response => rfl

/-! ## Catching up -/

/-- The pipe holds the outstanding commands, and what a request under way relies on. -/
structure Consistent (h : Host) (s : RestoreState) : Prop where
  pipe : s.world.pipe = s.outstanding.map Sent.command
  cleaning : ∀ r source temps, s.phase = .cleaning r source temps →
    InStore h source.path ∧ s.world.lookup h source.path = some source.content ∧ ∀ t ∈ temps, isTempLoad h t = true
  copied : ∀ r source, s.phase = .copied r source →
    s.world.lookup h (h.tempPath (tempLoad r.now)) = some source.content

theorem serve_cons {s : RestoreState} (hs : Consistent h s) {x : Sent} {rest : List Sent} (hx : s.outstanding = x :: rest) :
    serve h s = { s with world := { s.world with pipe := rest.map Sent.command }, outstanding := rest,
                         executed := s.executed ++ [⟨x.command, s.world.lookup h (h.tempPath x.file), x⟩] } := by
  have hpipe : s.world.pipe = x.command :: rest.map Sent.command := by
    rw [hs.pipe, hx]
    rfl
  unfold serve
  rw [hpipe, hx]
  rfl

theorem serve_nil {s : RestoreState} (hx : s.outstanding = []) : serve h s = s := by
  unfold serve
  rw [hx]
  split
  · rename_i _ he
    cases he
  · rfl

theorem serve_consistent {s : RestoreState} (hs : Consistent h s) : Consistent h (serve h s) := by
  cases hx : s.outstanding with
  | nil =>
    rw [serve_nil hx]
    exact hs
  | cons x rest =>
    rw [serve_cons hs hx]
    exact ⟨rfl, fun r source temps hp => hs.cleaning r source temps hp, fun r source hp => hs.copied r source hp⟩

/-- The server alone, whenever it catches up: every load reads what was selected exactly
    when that is so already and every outstanding command's file still holds it. -/
theorem drained_iff : ∀ (xs : List Sent) (s : RestoreState), Consistent h s → s.outstanding = xs →
    ((∀ n, LoadsSelected (run (restoreStep h) s (List.replicate n .serve))) ↔ LoadsSelected s ∧ PendingRight h s) := by
  intro xs
  induction xs with
  | nil =>
    intro s hs hx
    have hstay : ∀ n, run (restoreStep h) s (List.replicate n .serve) = s := by
      intro n
      induction n with
      | zero => rfl
      | succ n ih =>
        rw [List.replicate_succ, run_cons]
        show run (restoreStep h) (serve h s) (List.replicate n .serve) = s
        rw [serve_nil hx, ih]
    constructor
    · intro hall
      refine ⟨hall 0, fun x hmem => ?_⟩
      rw [hx] at hmem
      cases hmem
    · intro ⟨hloads, _⟩ n
      rw [hstay n]
      exact hloads
  | cons x rest ih =>
    intro s hs hx
    have hserve := serve_cons hs hx
    have hnext := ih (serve h s) (serve_consistent hs) (by rw [hserve])
    have hloads : LoadsSelected (serve h s) ↔
        LoadsSelected s ∧ s.world.lookup h (h.tempPath x.file) = some x.selected := by
      rw [hserve]
      unfold LoadsSelected
      simp only [List.mem_append, List.mem_singleton]
      constructor
      · intro hall
        exact ⟨fun e he => hall e (Or.inl he), (hall _ (Or.inr rfl)).2⟩
      · rintro ⟨hall, hread⟩ e (he | rfl)
        · exact hall e he
        · exact ⟨rfl, hread⟩
    have hpending : PendingRight h (serve h s) ↔ ∀ y ∈ rest, s.world.lookup h (h.tempPath y.file) = some y.selected := by
      rw [hserve]
      rfl
    have hsplit : PendingRight h s ↔ s.world.lookup h (h.tempPath x.file) = some x.selected ∧
        ∀ y ∈ rest, s.world.lookup h (h.tempPath y.file) = some y.selected := by
      unfold PendingRight
      rw [hx, List.forall_mem_cons]
    rw [hloads, hpending] at hnext
    rw [hsplit]
    constructor
    · intro hall
      obtain ⟨⟨hl, hr⟩, hp⟩ := hnext.mp fun n => hall (n + 1)
      exact ⟨hl, hr, hp⟩
    · rintro ⟨hl, hr, hp⟩ n
      cases n with
      | zero => exact hl
      | succ n => exact hnext.mpr ⟨⟨hl, hr⟩, hp⟩ n

/-! ## One step -/

/-- No command that the server has not executed names this file. -/
def Unclaimed (h : Host) (s : RestoreState) (path : Bytes) : Prop :=
  ∀ x ∈ s.outstanding, h.fold (h.tempPath x.file) ≠ h.fold path

/-- The page's next operation leaves the files of the outstanding commands: it unlinks
    none of them, and copies onto one only what it holds already. -/
def Clear (h : Host) (s : RestoreState) : Event → Prop
  | .page =>
    match s.phase with
    | .idle => True
    | .cleaning r _ (t :: _) => r.unlinkOk t = true → Unclaimed h s t
    | .cleaning r source [] => r.copyOk = true →
      ∀ x ∈ s.outstanding, h.fold (h.tempPath x.file) = h.fold (h.tempPath (tempLoad r.now)) → x.selected = source.content
    | .copied r _ => r.pipeOk = false → r.unlinkOk (h.tempPath (tempLoad r.now)) = true →
      Unclaimed h s (h.tempPath (tempLoad r.now))
  | _ => True

theorem SameFiles.pendingRight {s s' : RestoreState} (hw : SameFiles s.world s'.world)
    (ho : s'.outstanding = s.outstanding) : PendingRight h s' ↔ PendingRight h s := by
  unfold PendingRight
  rw [ho]
  simp only [hw.lookup]

/-- Unlinking leaves every outstanding file as selected exactly when it hits none. -/
theorem unlink_pending_iff {s : RestoreState} (hp : PendingRight h s) (path : Bytes) (ok : Bool) :
    (∀ x ∈ s.outstanding, (exec (unlink h path ok) s.world).2.lookup h (h.tempPath x.file) = some x.selected) ↔
      (ok = true → Unclaimed h s path) := by
  rw [exec_unlink]
  cases ok with
  | false =>
    refine ⟨fun _ he => (by cases he), fun _ x hx => ?_⟩
    exact hp x hx
  | true =>
    constructor
    · intro hall _ x hx hsame
      have hgone := hall x hx
      rw [lookup_congr h hsame] at hgone
      have hnone : ((s.world.note (.remove path)).erase h path).lookup h path = none := lookup_erase_self h _ path
      rw [if_pos rfl, hnone] at hgone
      cases hgone
    · intro hclear x hx
      rw [if_pos rfl]
      exact (lookup_erase_ne h _ (hclear rfl x hx)).trans (hp x hx)

def SamePipe (w w' : World) : Prop := w'.pipe = w.pipe

theorem restoreSource_pipe (r : RestoreBackup) : Moves SamePipe (restoreSource h r) := by
  have hrefl : ∀ w, SamePipe w w := fun _ => rfl
  have htrans : ∀ a b c, SamePipe a b → SamePipe b c → SamePipe a c := fun _ _ _ hab hbc => Eq.trans hbc hab
  apply restoreSource_moves hrefl htrans
  intro _ name _ w
  rfl

theorem arrive_same (s : RestoreState) (r : RestoreBackup) :
    SameFiles s.world (arrive h s r).world ∧ (arrive h s r).outstanding = s.outstanding ∧
      (arrive h s r).executed = s.executed ∧ (arrive h s r).world.pipe = s.world.pipe := by
  have hsame := restoreSource_same (h := h) r s.world
  have hpipe := restoreSource_pipe (h := h) r s.world
  unfold arrive
  cases he : exec (restoreSource h r) s.world with
  | mk result w =>
    rw [he] at hsame hpipe
    cases result with
    | ok source => exact ⟨hsame, rfl, rfl, hpipe⟩
    | error e => exact ⟨hsame, rfl, rfl, hpipe⟩

theorem arrive_consistent {s : RestoreState} (hs : Consistent h s) (hidle : s.phase = .idle) (r : RestoreBackup) :
    Consistent h (arrive h s r) := by
  obtain ⟨_, houtstanding, _, hpipe⟩ := arrive_same (h := h) s r
  refine ⟨by rw [hpipe, houtstanding, hs.pipe], ?_, ?_⟩
  · intro r' source temps hphase
    unfold arrive at hphase ⊢
    cases he : exec (restoreSource h r) s.world with
    | mk result w =>
      rw [he] at hphase
      cases result with
      | error e =>
        dsimp only at hphase
        rw [hidle] at hphase
        cases hphase
      | ok found =>
        obtain ⟨path, filename, targetAccount⟩ := found
        obtain ⟨hsource, hw⟩ := restoreSource_ok he
        cases hphase
        refine ⟨?_, ?_, fun t ht => (List.mem_filter.mp ht).2⟩
        · show InStore h path
          rw [hsource.path_eq]
          exact backupPath_inStore h _ _
        · obtain ⟨c, hc⟩ := Option.isSome_iff_exists.mp hsource.there
          have hthere : w.lookup h path = some c := by
            rw [hw]
            exact hc
          show w.lookup h path = some ((w.lookup h path).getD [])
          rw [hthere]
          rfl
  · intro r' source hphase
    unfold arrive at hphase
    cases he : exec (restoreSource h r) s.world with
    | mk result w =>
      rw [he] at hphase
      cases result with
      | error e =>
        dsimp only at hphase
        rw [hidle] at hphase
        cases hphase
      | ok found => cases hphase

/-- What the page's next operation does: it keeps the bookkeeping, executes nothing, and
    leaves the outstanding files right exactly when it is clear of them. -/
structure PageSpec (h : Host) (s : RestoreState) : Prop where
  consistent : Consistent h (pageStep h s)
  executed : (pageStep h s).executed = s.executed
  pending : PendingRight h (pageStep h s) ↔ Clear h s .page

theorem page_idle {s : RestoreState} (hs : Consistent h s) (hp : PendingRight h s) (hphase : s.phase = .idle) :
    PageSpec h s := by
  have hstep : pageStep h s = s := by
    unfold pageStep
    rw [hphase]
  refine ⟨by rw [hstep]; exact hs, by rw [hstep], ?_⟩
  rw [hstep]
  unfold Clear
  rw [hphase]
  exact ⟨fun _ => trivial, fun _ => hp⟩

theorem page_unlink {s : RestoreState} (hs : Consistent h s) (hp : PendingRight h s) {r : RestoreBackup} {source : Source}
    {t : Bytes} {temps : List Bytes} (hphase : s.phase = .cleaning r source (t :: temps)) : PageSpec h s := by
  obtain ⟨hin, hsource, htemps⟩ := hs.cleaning r source _ hphase
  have hstep : pageStep h s =
      { s with world := (exec (unlink h t (r.unlinkOk t)) s.world).2, phase := .cleaning r source temps } := by
    unfold pageStep
    rw [hphase]
  have hkeep : KeepsFile h source.path s.world (exec (unlink h t (r.unlinkOk t)) s.world).2 :=
    keeps_unlink (isTempLoad_apart hin (htemps t List.mem_cons_self)) s.world
  refine ⟨?_, by rw [hstep], ?_⟩
  · rw [hstep]
    refine ⟨(exec_unlink_pipe t _ s.world).trans hs.pipe, fun r' source' temps' he => ?_, fun r' source' he => ?_⟩
    · cases he
      exact ⟨hin, Eq.trans hkeep hsource, fun t' ht' => htemps t' (List.mem_cons_of_mem _ ht')⟩
    · cases he
  · rw [hstep]
    unfold Clear
    rw [hphase]
    exact unlink_pending_iff hp t _

theorem page_copy {s : RestoreState} (hs : Consistent h s) (hp : PendingRight h s) {r : RestoreBackup} {source : Source}
    (hphase : s.phase = .cleaning r source []) : PageSpec h s := by
  obtain ⟨_, hsource, _⟩ := hs.cleaning r source _ hphase
  have hclear : Clear h s .page = (r.copyOk = true → ∀ x ∈ s.outstanding,
      h.fold (h.tempPath x.file) = h.fold (h.tempPath (tempLoad r.now)) → x.selected = source.content) := by
    unfold Clear
    rw [hphase]
  by_cases hok : r.copyOk = true
  · obtain ⟨w', hexec, hsame, hpipe⟩ := exec_copyTemp_ok hsource hok
    have hstep : pageStep h s = { s with world := w', phase := .copied r source } := by
      unfold pageStep
      rw [hphase]
      simp only [hexec]
    refine ⟨?_, by rw [hstep], ?_⟩
    · rw [hstep]
      refine ⟨hpipe.trans hs.pipe, fun r' source' temps' he => (by cases he), fun r' source' he => ?_⟩
      cases he
      exact (hsame.lookup _).trans (lookup_put_self h _ _ _)
    · rw [hstep, hclear]
      constructor
      · intro hall _ x hx hfile
        have hnow := hall x hx
        rw [hsame.lookup, lookup_congr h hfile, lookup_put_self] at hnow
        injection hnow with hnow
        exact hnow.symm
      · intro hcopy x hx
        show w'.lookup h _ = _
        rw [hsame.lookup]
        by_cases hfile : h.fold (h.tempPath x.file) = h.fold (h.tempPath (tempLoad r.now))
        · rw [lookup_congr h hfile, lookup_put_self, hcopy hok x hx hfile]
        · rw [lookup_put_ne h _ _ hfile]
          exact hp x hx
  · obtain ⟨e, w', hexec, hsame, hpipe⟩ := exec_copyTemp_error hsource (Bool.eq_false_iff.mpr hok)
    have hstep : pageStep h s = { s with world := w', phase := .idle } := by
      unfold pageStep
      rw [hphase]
      simp only [hexec]
    refine ⟨?_, by rw [hstep], ?_⟩
    · rw [hstep]
      exact ⟨hpipe.trans hs.pipe, fun r' source' temps' he => (by cases he), fun r' source' he => (by cases he)⟩
    · rw [hstep, hclear]
      refine ⟨fun _ he => absurd he hok, fun _ x hx => ?_⟩
      show w'.lookup h _ = _
      rw [hsame.lookup]
      exact hp x hx

theorem page_send {s : RestoreState} (hs : Consistent h s) (hp : PendingRight h s) {r : RestoreBackup} {source : Source}
    (hphase : s.phase = .copied r source) : PageSpec h s := by
  have hcopied := hs.copied r source hphase
  have hclear : Clear h s .page = (r.pipeOk = false → r.unlinkOk (h.tempPath (tempLoad r.now)) = true →
      Unclaimed h s (h.tempPath (tempLoad r.now))) := by
    unfold Clear
    rw [hphase]
  by_cases hok : r.pipeOk = true
  · obtain ⟨response, hexec⟩ := exec_sendLoad_ok (h := h) source.filename source.targetAccount s.world hok
    have hstep : pageStep h s =
        { s with world := { s.world with pipe := s.world.pipe ++ [.pdumpLoad (tempLoad r.now) source.targetAccount] },
                 phase := .idle,
                 outstanding := s.outstanding ++ [⟨tempLoad r.now, source.targetAccount, source.content⟩] } := by
      unfold pageStep
      rw [hphase]
      simp only [hexec]
    refine ⟨?_, by rw [hstep], ?_⟩
    · rw [hstep]
      refine ⟨?_, fun r' source' temps' he => (by cases he), fun r' source' he => (by cases he)⟩
      show s.world.pipe ++ _ = (s.outstanding ++ _).map Sent.command
      rw [hs.pipe, List.map_append]
      rfl
    · rw [hstep, hclear]
      refine ⟨fun _ he => (by rw [hok] at he; cases he), fun _ x hx => ?_⟩
      rcases List.mem_append.mp hx with hx | hx
      · exact hp x hx
      · obtain rfl := List.mem_singleton.mp hx
        exact hcopied
  · have hfalse := Bool.eq_false_iff.mpr hok
    obtain ⟨e, hexec⟩ := exec_sendLoad_error (h := h) source.filename source.targetAccount s.world hfalse
    have hstep : pageStep h s = { s with
        world := (exec (unlink h (h.tempPath (tempLoad r.now)) (r.unlinkOk (h.tempPath (tempLoad r.now)))) s.world).2
        phase := .idle } := by
      unfold pageStep
      rw [hphase]
      simp only [hexec]
    refine ⟨?_, by rw [hstep], ?_⟩
    · rw [hstep]
      exact ⟨(exec_unlink_pipe _ _ s.world).trans hs.pipe, fun r' source' temps' he => (by cases he),
        fun r' source' he => (by cases he)⟩
    · rw [hstep, hclear]
      have hunlink := unlink_pending_iff hp (h.tempPath (tempLoad r.now)) (r.unlinkOk (h.tempPath (tempLoad r.now)))
      exact ⟨fun hall _ => hunlink.mp hall, fun hall => hunlink.mpr (hall hfalse)⟩

theorem pageSpec {s : RestoreState} (hs : Consistent h s) (hp : PendingRight h s) : PageSpec h s := by
  cases hphase : s.phase with
  | idle => exact page_idle hs hp hphase
  | cleaning r source temps =>
    cases temps with
    | nil => exact page_copy hs hp hphase
    | cons t temps => exact page_unlink hs hp hphase
  | copied r source => exact page_send hs hp hphase

/-! ## Runs -/

structure AllRight (h : Host) (s : RestoreState) : Prop where
  consistent : Consistent h s
  loads : LoadsSelected s
  pending : PendingRight h s

theorem serve_right {s : RestoreState} (hs : AllRight h s) : AllRight h (serve h s) := by
  refine ⟨serve_consistent hs.consistent, ?_, ?_⟩
  · exact (drained_iff _ s hs.consistent rfl).mpr ⟨hs.loads, hs.pending⟩ 1
  · cases hx : s.outstanding with
    | nil =>
      rw [serve_nil hx]
      exact hs.pending
    | cons x rest =>
      rw [serve_cons hs.consistent hx]
      intro y hy
      exact hs.pending y (by rw [hx]; exact List.mem_cons_of_mem _ hy)

theorem arrive_right {s : RestoreState} (hs : AllRight h s) (hidle : s.phase = .idle) (r : RestoreBackup) :
    AllRight h (arrive h s r) := by
  obtain ⟨hsame, houtstanding, hexecuted, _⟩ := arrive_same (h := h) s r
  refine ⟨arrive_consistent hs.consistent hidle r, ?_, (hsame.pendingRight houtstanding).mpr hs.pending⟩
  unfold LoadsSelected
  rw [hexecuted]
  exact hs.loads

/-- One step from a state where all is right: the bookkeeping is kept whatever happens,
    and all stays right exactly when the step is clear of the outstanding files. -/
theorem restoreStep_right {s : RestoreState} (hs : AllRight h s) (e : Event) :
    Consistent h (restoreStep h s e) ∧ (AllRight h (restoreStep h s e) ↔ Clear h s e) := by
  cases e with
  | arrive r =>
    have hright : AllRight h (restoreStep h s (.arrive r)) := by
      show AllRight h (match s.phase with
        | .idle => arrive h s r
        | _ => s)
      cases hphase : s.phase with
      | idle => exact arrive_right hs hphase r
      | cleaning r' source temps => exact hs
      | copied r' source => exact hs
    exact ⟨hright.consistent, fun _ => trivial, fun _ => hright⟩
  | page =>
    obtain ⟨hconsistent, hexecuted, hpending⟩ := pageSpec hs.consistent hs.pending
    refine ⟨hconsistent, fun hright => hpending.mp hright.pending, fun hclear => ?_⟩
    refine ⟨hconsistent, ?_, hpending.mpr hclear⟩
    show ∀ e ∈ (pageStep h s).executed, _
    rw [hexecuted]
    exact hs.loads
  | serve =>
    have hright := serve_right hs
    exact ⟨hright.consistent, fun _ => trivial, fun _ => hright⟩

theorem restStart_right (w : World) : AllRight h (restStart w) :=
  ⟨⟨rfl, fun _ _ _ he => (by cases he), fun _ _ he => (by cases he)⟩, fun _ he => absurd he List.not_mem_nil,
    fun _ he => absurd he List.not_mem_nil⟩

/-- Wherever a run of requests stands and however long the server then works on its own,
    every load it has executed read what the request that sent it had selected: exactly
    when no unlink and no copy of the run meets the file of an outstanding command. -/
theorem loads_selected_iff (h : Host) (w : World) (es : List Event) :
    (∀ k ≤ es.length, ∀ n, LoadsSelected
      (run (restoreStep h) (stateAt (restoreStep h) (restStart w) es k) (List.replicate n .serve))) ↔
      Throughout (restoreStep h) (Clear h) (restStart w) es := by
  have hstep : ∀ s e, AllRight h s → (AllRight h (restoreStep h s e) ↔ Clear h s e) :=
    fun _ e hs => (restoreStep_right hs e).2
  rw [← holds_throughout_iff _ hstep (restStart_right w) es]
  constructor
  · intro hall k
    induction k with
    | zero =>
      intro _
      exact restStart_right w
    | succ k ih =>
      intro hk
      obtain ⟨e, he⟩ : ∃ e, es[k]? = some e := getElem?_of_lt (by omega)
      have hconsistent := (restoreStep_right (ih (by omega)) e).1
      rw [← stateAt_succ (restoreStep h) (restStart w) he] at hconsistent
      obtain ⟨hloads, hpending⟩ := (drained_iff _ _ hconsistent rfl).mp (hall (k + 1) hk)
      exact ⟨hconsistent, hloads, hpending⟩
  · intro hall k hk
    obtain ⟨hconsistent, hloads, hpending⟩ := hall k hk
    exact (drained_iff _ _ hconsistent rfl).mpr ⟨hloads, hpending⟩

def restoreOf (account name : Bytes) : RestoreBackup where
  serverRunning := true
  account_name := account
  filename := name
  target_account := account
  unlinkOk _ := true
  now := 1715940000
  copyOk := true
  pipeOk := true

/-- One backup in each of two accounts' folders. -/
def twoBackups (h : Host) : World :=
  { emptyWorld with
    files := [(h.backupPath (ascii "PLAYER") (ascii "Thrall.pdump"), ascii "Thrall"),
      (h.backupPath (ascii "OTHER") (ascii "Jaina.pdump"), ascii "Jaina")] }

/-- Two restores within a second, before the server executes the first: it loads Jaina
    into the account that asked for Thrall. -/
theorem wrong_backup_loaded : ¬ ∀ (h : Host) (w : World) (es : List Event),
    ∀ k ≤ es.length, LoadsSelected (stateAt (restoreStep h) (restStart w) es k) := by
  intro hall
  have hloads := hall (Host.windows (ascii "C:\\Nostalgia")) (twoBackups (Host.windows (ascii "C:\\Nostalgia")))
    [.arrive (restoreOf (ascii "PLAYER") (ascii "Thrall.pdump")), .page, .page,
      .arrive (restoreOf (ascii "OTHER") (ascii "Jaina.pdump")), .page, .page, .page, .serve] 8 (Nat.le_refl 8)
  have hread := (hloads ⟨.pdumpLoad (ascii "temp_load_1715940000.pdump") (ascii "PLAYER"), some (ascii "Jaina"),
    ⟨ascii "temp_load_1715940000.pdump", ascii "PLAYER", ascii "Thrall"⟩⟩ (by decide +kernel)).2
  revert hread
  decide +kernel

end Nostalgia.Web
