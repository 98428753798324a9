/-
  Nostalgia.Web.PushLevel — push_level_55 beside a world server that writes the same rows.

  The request reads the character's row (`selectCharacter`) and later runs its UPDATE
  (`raiseCharacter`); the server logs the character in, levels it and logs it out whenever
  it likes. `PushState` keeps what the SELECT found until the UPDATE runs.
  - `raised_row`: the UPDATE changes no row but an offline one of the account.
  - `push_safe_iff`: it never lowers a level exactly when it never meets such a row above
    level 55. Its WHERE repeats the online check of the SELECT, not the level check.
  - `level_lowered`: a session between the two.
-/

import Nostalgia.Machine.Run
import Nostalgia.Web.Requests

namespace Nostalgia.Web

open Nostalgia.Machine

/-! ## The request -/

/-- The columns of `characters` the request and the server write here. -/
structure CharacterRow where
  name : Bytes
  account : Nat
  level : Nat
  xp : Nat
  online : Bool
  deriving DecidableEq

/-- The table, by its key `guid`. -/
abbrev Characters := Int → Option CharacterRow

structure PushLevel55 where
  account_name : Bytes
  character_guid : Int
  /-- `SELECT id FROM account WHERE username = :name`. -/
  accountId : Bytes → Option Nat

/-- What the SELECT leaves in `$accId` and `$char`. -/
structure Selected where
  accId : Nat
  name : Bytes
  oldLevel : Nat

/-- The account the request is for. -/
def PushLevel55.account (r : PushLevel55) : Option Nat := r.accountId (accountName r.account_name)

def selectCharacter (r : PushLevel55) : Program Characters Bytes Selected := do
  require (accountName r.account_name != [] && r.character_guid != 0) (ascii "No valid character selected.")
  let accId ← required r.account (ascii "Account not found.")
  let characters ← get
  let char ← required ((characters r.character_guid).filter (·.account == accId))
    (ascii "Character not found or not owned by this account.")
  require (!char.online) (ascii "The character is currently online. Log out first.")
  require (!decide (55 ≤ char.level)) (ascii "This character is already level 55 or higher.")
  pure ⟨accId, char.name, char.level⟩

/-- `WHERE guid = :guid AND account = :acc AND online = 0`. -/
def offlineRow (characters : Characters) (guid : Int) (accId : Nat) : Option CharacterRow :=
  (characters guid).filter fun char => char.account == accId && !char.online

/-- `UPDATE characters SET level = 55, xp = 0 …`; the number of rows it changed. -/
def updateLevel (guid : Int) (accId : Nat) : Program Characters Bytes Nat := do
  let characters ← get
  match offlineRow characters guid accId with
  | some char =>
    modify fun characters => Function.update characters guid (some { char with level := 55, xp := 0 })
    pure (if char.level = 55 ∧ char.xp = 0 then 0 else 1)
  | none => pure 0

def raiseCharacter (r : PushLevel55) (selected : Selected) : Program Characters Bytes Response := do
  let affected ← updateLevel r.character_guid selected.accId
  require (decide (0 < affected)) (selected.name ++ ascii " could not be updated (0 rows affected).")
  pure (.page (selected.name ++ ascii " was raised from level " ++ decimal selected.oldLevel ++ ascii " to level 55."))

def pushLevel55 (r : PushLevel55) : Program Characters Bytes Response := do
  let selected ← selectCharacter r
  raiseCharacter r selected

/-! ## The request and the server -/

inductive ServerWrite where
  | login
  | levelUp (level xp : Nat)
  | logout (level xp : Nat)

def ServerWrite.apply : ServerWrite → CharacterRow → CharacterRow
  | .login, char => { char with online := true }
  | .levelUp level xp, char => { char with level := level, xp := xp }
  | .logout level xp, char => { char with level := level, xp := xp, online := false }

structure PushState where
  characters : Characters
  /-- The request between its SELECT and its UPDATE. -/
  pending : Option (PushLevel55 × Selected)

inductive PushEvent where
  | select (r : PushLevel55)
  | update
  | server (guid : Int) (write : ServerWrite)

/-- One request at a time. -/
def selectStep (s : PushState) (r : PushLevel55) : PushState :=
  match s.pending with
  | some _ => s
  | none =>
    match exec (selectCharacter r) s.characters with
    | (.ok selected, characters) => ⟨characters, some (r, selected)⟩
    | (.error _, characters) => ⟨characters, none⟩

def updateStep (s : PushState) : PushState :=
  match s.pending with
  | some (r, selected) => ⟨(exec (raiseCharacter r selected) s.characters).2, none⟩
  | none => s

def pushStep (s : PushState) : PushEvent → PushState
  | .select r => selectStep s r
  | .update => updateStep s
  | .server guid write =>
    { s with characters := Function.update s.characters guid ((s.characters guid).map write.apply) }

def pushStart (characters : Characters) : PushState := ⟨characters, none⟩

/-! ## What the two statements do -/

/-- The SELECT changes nothing. -/
theorem selectCharacter_same (r : PushLevel55) : Moves Eq (selectCharacter r) := by
  have hrefl : ∀ c : Characters, c = c := fun _ => rfl
  have htrans : ∀ a b c : Characters, a = b → b = c → a = c := fun _ _ _ => Eq.trans
  unfold selectCharacter
  refine Moves.require hrefl htrans fun _ => ?_
  refine Moves.required hrefl htrans fun accId _ => ?_
  refine Moves.bind htrans (Moves.get hrefl) fun characters _ => ?_
  refine Moves.required hrefl htrans fun char _ => ?_
  refine Moves.require hrefl htrans fun _ => ?_
  exact Moves.require hrefl htrans fun _ => Moves.pure hrefl _

theorem selectCharacter_account {r : PushLevel55} {selected : Selected} {c c' : Characters}
    (he : exec (selectCharacter r) c = (.ok selected, c')) : r.account = some selected.accId := by
  unfold selectCharacter at he
  obtain ⟨_, c1, _, h1⟩ := exec_bind_ok he
  obtain ⟨accId, c2, hacc, h2⟩ := exec_bind_ok h1
  obtain ⟨characters, c3, _, h3⟩ := exec_bind_ok h2
  obtain ⟨char, c4, _, h4⟩ := exec_bind_ok h3
  obtain ⟨_, c5, _, h5⟩ := exec_bind_ok h4
  obtain ⟨_, c6, _, h6⟩ := exec_bind_ok h5
  cases h6
  exact (exec_required_ok hacc).1

/-- The table after the UPDATE. -/
def raised (characters : Characters) (guid : Int) (accId : Nat) : Characters :=
  match offlineRow characters guid accId with
  | some char => Function.update characters guid (some { char with level := 55, xp := 0 })
  | none => characters

theorem exec_updateLevel (guid : Int) (accId : Nat) (c : Characters) :
    ∃ n, exec (updateLevel guid accId) c = (.ok n, raised c guid accId) := by
  unfold updateLevel raised
  rw [exec_bind_of_ok (exec_get c)]
  cases offlineRow c guid accId with
  | none => exact ⟨0, rfl⟩
  | some char => exact ⟨_, rfl⟩

theorem exec_raiseCharacter (r : PushLevel55) (selected : Selected) (c : Characters) :
    (exec (raiseCharacter r selected) c).2 = raised c r.character_guid selected.accId := by
  obtain ⟨n, hupdate⟩ := exec_updateLevel r.character_guid selected.accId c
  unfold raiseCharacter
  rw [exec_bind_of_ok hupdate]
  by_cases hn : 0 < n
  · rw [decide_eq_true hn]
    rfl
  · rw [decide_eq_false hn]
    rfl

theorem offlineRow_eq_some {characters : Characters} {guid : Int} {accId : Nat} {char : CharacterRow} :
    offlineRow characters guid accId = some char ↔
      characters guid = some char ∧ char.account = accId ∧ char.online = false := by
  unfold offlineRow
  rw [Option.filter_eq_some_iff]
  simp only [Bool.and_eq_true, beq_iff_eq, Bool.not_eq_true']

/-- The UPDATE replaces the offline row of the account, if there is one. -/
theorem raised_row (characters : Characters) (guid : Int) (accId : Nat) {g : Int} {row : CharacterRow}
    (hrow : characters g = some row) :
    raised characters guid accId g =
      some (if g = guid ∧ row.account = accId ∧ row.online = false then { row with level := 55, xp := 0 } else row) := by
  unfold raised
  cases hoff : offlineRow characters guid accId with
  | none =>
    rw [if_neg]
    · exact hrow
    · rintro ⟨rfl, hacc, honline⟩
      rw [offlineRow_eq_some.mpr ⟨hrow, hacc, honline⟩] at hoff
      cases hoff
  | some char =>
    obtain ⟨hchar, hacc, honline⟩ := offlineRow_eq_some.mp hoff
    by_cases hg : g = guid
    · subst hg
      obtain rfl : char = row := by
        rw [hrow] at hchar
        injection hchar with hchar
        exact hchar.symm
      rw [if_pos ⟨rfl, hacc, honline⟩]
      exact Function.update_self _ _ _
    · rw [if_neg fun hc => hg hc.1]
      exact (Function.update_of_ne hg _ _).trans hrow

/-- What a SELECT can leave behind. -/
theorem selectStep_cases (s : PushState) (r : PushLevel55) :
    selectStep s r = s ∨ selectStep s r = ⟨s.characters, none⟩ ∨
      ∃ selected, r.account = some selected.accId ∧ selectStep s r = ⟨s.characters, some (r, selected)⟩ := by
  unfold selectStep
  cases s.pending with
  | some p => exact Or.inl rfl
  | none =>
    have hsame := selectCharacter_same r s.characters
    cases he : exec (selectCharacter r) s.characters with
    | mk result c =>
      rw [he] at hsame
      obtain rfl : s.characters = c := hsame
      cases result with
      | error e => exact Or.inr (Or.inl rfl)
      | ok selected => exact Or.inr (Or.inr ⟨selected, selectCharacter_account he, rfl⟩)

/-- Without the server between them, the two statements are the request. -/
theorem pushLevel55_uninterrupted (r : PushLevel55) (characters : Characters) :
    (run pushStep (pushStart characters) [.select r, .update]).characters = (exec (pushLevel55 r) characters).2 := by
  unfold pushLevel55
  show (updateStep (selectStep (pushStart characters) r)).characters = _
  have hselect : selectStep (pushStart characters) r = match exec (selectCharacter r) characters with
      | (.ok selected, characters) => ⟨characters, some (r, selected)⟩
      | (.error _, characters) => ⟨characters, none⟩ := rfl
  rw [hselect]
  cases he : exec (selectCharacter r) characters with
  | mk result c =>
    cases result with
    | ok selected =>
      rw [exec_bind_of_ok he]
      rfl
    | error e =>
      rw [exec_bind_of_error he]
      rfl

/-! ## Safe beside the server -/

/-- A step of the request lowers no level, changes no row of a character that is online,
    and no row of an account other than the one it is for. -/
def PushSafe (s : PushState) : PushEvent → Prop
  | .server _ _ => True
  | e => ∀ guid row, s.characters guid = some row → ∃ row', (pushStep s e).characters guid = some row' ∧
      row.level ≤ row'.level ∧ (row.online = true → row' = row) ∧
      ∀ r selected, s.pending = some (r, selected) → r.account ≠ some row.account → row' = row

/-- The UPDATE meets no offline row of the account above level 55. -/
def NotOutlevelled (s : PushState) : PushEvent → Prop
  | .update => ∀ r selected row, s.pending = some (r, selected) → s.characters r.character_guid = some row →
      row.account = selected.accId → row.online = false → row.level ≤ 55
  | _ => True

/-- The pending request's account is the one it is for. -/
def PendingAccount (s : PushState) : Prop :=
  ∀ r selected, s.pending = some (r, selected) → r.account = some selected.accId

theorem pendingAccount_step (s : PushState) (e : PushEvent) (hs : PendingAccount s) : PendingAccount (pushStep s e) := by
  cases e with
  | select r =>
    show PendingAccount (selectStep s r)
    rcases selectStep_cases s r with he | he | ⟨selected, hacc, he⟩
    · rw [he]
      exact hs
    · rw [he]
      intro r' selected' hp
      cases hp
    · rw [he]
      intro r' selected' hp
      cases hp
      exact hacc
  | update =>
    show PendingAccount (updateStep s)
    unfold updateStep
    cases hp : s.pending with
    | some p =>
      intro r' selected' hp'
      cases hp'
    | none => exact hs
  | server guid write => exact hs

theorem select_characters (s : PushState) (r : PushLevel55) : (pushStep s (.select r)).characters = s.characters := by
  show (selectStep s r).characters = s.characters
  rcases selectStep_cases s r with he | he | ⟨selected, _, he⟩
  · rw [he]
  · rw [he]
  · rw [he]

theorem update_characters {s : PushState} {r : PushLevel55} {selected : Selected} (hp : s.pending = some (r, selected)) :
    (pushStep s .update).characters = raised s.characters r.character_guid selected.accId := by
  show (updateStep s).characters = _
  unfold updateStep
  rw [hp]
  exact exec_raiseCharacter r selected s.characters

theorem update_idle {s : PushState} (hp : s.pending = none) : pushStep s .update = s := by
  show updateStep s = s
  unfold updateStep
  rw [hp]

theorem pushSafe_iff {s : PushState} (hs : PendingAccount s) (e : PushEvent) : PushSafe s e ↔ NotOutlevelled s e := by
  cases e with
  | server guid write => exact ⟨fun _ => trivial, fun _ => trivial⟩
  | select r =>
    refine ⟨fun _ => trivial, fun _ guid row hrow => ⟨row, ?_, Nat.le_refl _, fun _ => rfl, fun _ _ _ _ => rfl⟩⟩
    rw [select_characters]
    exact hrow
  | update =>
    cases hp : s.pending with
    | none =>
      have hsame := update_idle hp
      constructor
      · intro _ r selected row hp'
        rw [hp] at hp'
        cases hp'
      · intro _ guid row hrow
        exact ⟨row, by rw [hsame]; exact hrow, Nat.le_refl _, fun _ => rfl, fun _ _ _ _ => rfl⟩
    | some p =>
      obtain ⟨r, selected⟩ := p
      have haccount := hs r selected hp
      constructor
      · intro hsafe r' selected' row hp' hrow hacc honline
        rw [hp] at hp'
        cases hp'
        obtain ⟨row', hrow', hlevel, _⟩ := hsafe _ row hrow
        rw [update_characters hp, raised_row _ _ _ hrow, if_pos ⟨rfl, hacc, honline⟩] at hrow'
        cases hrow'
        exact hlevel
      · intro hnot guid row hrow
        refine ⟨_, by rw [update_characters hp]; exact raised_row _ _ _ hrow, ?_, ?_, ?_⟩
        · split
          · rename_i hc
            obtain ⟨rfl, hacc, honline⟩ := hc
            exact hnot r selected row hp hrow hacc honline
          · exact Nat.le_refl _
        · intro honline
          rw [if_neg]
          rintro ⟨_, _, hoff⟩
          rw [honline] at hoff
          cases hoff
        · intro r' selected' hp' hother
          rw [hp] at hp'
          cases hp'
          rw [if_neg]
          rintro ⟨_, hacc, _⟩
          rw [haccount, hacc] at hother
          exact hother rfl

/-- Whatever the server writes in between: every step of the request is safe exactly when
    the UPDATE never meets an offline row of the account above level 55. -/
theorem push_safe_iff (characters : Characters) (es : List PushEvent) :
    (∀ k e, es[k]? = some e → PushSafe (stateAt pushStep (pushStart characters) es k) e) ↔
      Throughout pushStep NotOutlevelled (pushStart characters) es := by
  have hstart : PendingAccount (pushStart characters) := fun _ _ hp => by cases hp
  have hpending : ∀ k, PendingAccount (stateAt pushStep (pushStart characters) es k) :=
    fun k => inv_stateAt pushStep pendingAccount_step hstart es k
  rw [throughout_iff]
  constructor
  · intro hall k e he
    exact (pushSafe_iff (hpending k) e).mp (hall k e he)
  · intro hall k e he
    exact (pushSafe_iff (hpending k) e).mpr (hall k e he)

/-- A session from level 54 to 57 between the SELECT and the UPDATE. -/
theorem level_lowered : ¬ ∀ (characters : Characters) (es : List PushEvent) (k : Nat) (e : PushEvent),
    es[k]? = some e → PushSafe (stateAt pushStep (pushStart characters) es k) e := by
  intro hall
  have hsafe := hall (fun guid => if guid = 7 then some ⟨ascii "Thrall", 5, 54, 0, false⟩ else none)
    [.select ⟨ascii "player", 7, fun _ => some 5⟩, .server 7 .login, .server 7 (.levelUp 57 0),
      .server 7 (.logout 57 100), .update] 4 .update rfl
  obtain ⟨row', hrow', hlevel, _⟩ := hsafe 7 ⟨ascii "Thrall", 5, 57, 100, false⟩ (by decide +kernel)
  have hafter : some row' = some ⟨ascii "Thrall", 5, 55, 0, false⟩ := by
    rw [← hrow']
    decide +kernel
  cases hafter
  exact absurd hlevel (by decide)

end Nostalgia.Web
