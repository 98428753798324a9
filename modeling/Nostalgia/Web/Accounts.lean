/-
  Nostalgia.Web.Accounts — create_account and delete_account, statement by statement.

  A request sends its statements one after the other. Any of them may fail: it then
  changes nothing and throws, and the request ends. In between the world server creates
  characters. `Environment` says which statement throws what and which characters are
  created just before each; a request is a `Program` on the tables it touches. The server
  has no turn behind the last statement, so a character created between the commit and
  the page's report is not part of a run.

  create_account has no transaction: what its first INSERT did stays. delete_account
  counts the characters on one connection and deletes in a transaction on the other; a
  rollback brings back the rows of transactional tables only, and the shipped
  `realmcharacters` is a MyISAM table.
  - `create_all_or_nothing_iff`: all or nothing, exactly if nothing fails behind the
    INSERT into `account`.
  - `delete_clean_iff`: no orphan and no half deletion, exactly if no character is created
    on the account behind the count, and nothing fails behind the first DELETE where that
    one removed rows for good.
  - `account_half_created`, `character_orphaned`: runs that are not.
-/

import Nostalgia.Web.Srp6
import Nostalgia.Web.Requests

namespace Nostalgia.Web

open Nostalgia.Machine

/-! ## Tables -/

/-- `account`; `v` and `s` are the verifier and the salt. -/
structure AccountRow where
  id : Nat
  username : Bytes
  v : Bytes
  s : Bytes
  deriving DecidableEq

structure RealmCharactersRow where
  realmid : Nat
  acctid : Nat
  numchars : Nat
  deriving DecidableEq

/-- `characters`, as far as it is counted. -/
structure OwnedCharacter where
  guid : Nat
  account : Nat
  deriving DecidableEq

structure Tables where
  account : List AccountRow
  realmcharacters : List RealmCharactersRow
  /-- The ids of `realmlist`. -/
  realmlist : List Nat
  characters : List OwnedCharacter
  /-- `AUTO_INCREMENT` of `account`. -/
  nextId : Nat
  /-- A rollback restores `realmcharacters`; it does not for a MyISAM table. -/
  transactional : Bool

/-- The login database. -/
def Tables.login (d : Tables) : List AccountRow × List RealmCharactersRow × List Nat :=
  (d.account, d.realmcharacters, d.realmlist)

/-! ## Statements -/

inductive Statement where
  | loginDatabase
  | selectExists
  | insertAccount
  | lastInsertId
  | insertRealmCharacters
  | findAccount
  | characterDatabase
  | characterCount
  | beginTransaction
  | deleteRealmCharacters
  | deleteAccount
  | commit
  deriving DecidableEq

/-- A RuntimeException with its message, or a PDOException. -/
inductive Exception where
  | runtime (message : Bytes)
  | pdo
  deriving DecidableEq

structure Environment where
  /-- What a statement throws, where it fails. -/
  throws : Statement → Option Exception
  /-- What the world server creates before it. -/
  creates : Statement → List OwnedCharacter
  /-- How the collation of `username` compares names. -/
  sameName : Bytes → Bytes → Bool

abbrev Script := Program Tables Exception

variable (e : Environment)

def serverTurn (s : Statement) (d : Tables) : Tables := { d with characters := d.characters ++ e.creates s }

/-- One statement: the server's turn, then the failure or the effect. -/
def statement {α : Type} (s : Statement) (effect : Tables → α × Tables) : Script α := do
  modify (serverTurn e s)
  match e.throws s with
  | some exception => throw exception
  | none =>
    let d ← get
    modify fun d => (effect d).2
    pure (effect d).1

/-- A statement without an effect on the tables. -/
def query {α : Type} (s : Statement) (answer : Tables → α) : Script α := statement e s fun d => (answer d, d)

/-! ## create_account -/

structure CreateAccount where
  username : Bytes
  password : Bytes

/-- What the page computes with: the hash, the GMP extension, the random bytes. -/
structure Crypto where
  sha1 : Bytes → Octets 20
  gmpLoaded : Bool
  random : Octets 32

def CreateAccount.srp6 (r : CreateAccount) (crypto : Crypto) : Except Bytes (Bytes × Bytes) :=
  vanillaSrp6 crypto.sha1 crypto.gmpLoaded crypto.random (accountName r.username) (accountName r.password)

def orThrow {α : Type} : Except Bytes α → Script α
  | .ok a => pure a
  | .error message => throw (.runtime message)

/-- `INSERT IGNORE INTO realmcharacters … SELECT id, :account, 0 FROM realmlist`. -/
def insertIgnore (accountId : Nat) (realms : List Nat) (rows : List RealmCharactersRow) : List RealmCharactersRow :=
  realms.foldl (fun rows realm =>
    if rows.any fun row => row.realmid == realm && row.acctid == accountId then rows
    else rows ++ [⟨realm, accountId, 0⟩]) rows

/-- The checks of create_account; the verifier and the salt. -/
def newAccount (crypto : Crypto) (r : CreateAccount) : Script (Bytes × Bytes) := do
  let username := accountName r.username
  require (validAccount username) (.runtime (ascii "The account name must contain 3 to 16 letters or digits."))
  require (validAccount (accountName r.password)) (.runtime (ascii "The password must contain 3 to 16 letters or digits."))
  let srp ← orThrow (r.srp6 crypto)
  query e .loginDatabase fun _ => ()
  let taken ← query e .selectExists fun d => d.account.any fun row => e.sameName row.username username
  require (!taken) (.runtime (ascii "This account name is already in use."))
  pure srp

/-- The row of a new account. -/
def insertAccount (username : Bytes) (srp : Bytes × Bytes) (d : Tables) : Nat × Tables :=
  (d.nextId, { d with account := d.account ++ [⟨d.nextId, username, srp.1, srp.2⟩], nextId := d.nextId + 1 })

def insertRows (username : Bytes) (srp : Bytes × Bytes) : Script Unit := do
  let inserted ← statement e .insertAccount (insertAccount username srp)
  let accountId ← query e .lastInsertId fun _ => inserted
  statement e .insertRealmCharacters fun d =>
    ((), { d with realmcharacters := insertIgnore accountId d.realmlist d.realmcharacters })

def createAccount (crypto : Crypto) (r : CreateAccount) : Script Bytes := do
  let srp ← newAccount e crypto r
  insertRows e (accountName r.username) srp
  pure (ascii "Account " ++ accountName r.username ++ ascii " was created. You can now sign in with it.")

/-! ## delete_account -/

structure DeleteAccount where
  username : Bytes
  confirmation : Bytes

/-- `rollBack` to the tables as they were when the transaction began. -/
def rollBack (before d : Tables) : Tables :=
  { d with
    account := before.account
    realmcharacters := if d.transactional then before.realmcharacters else d.realmcharacters }

/-- The body of the inner `try`. -/
def deleteRows (accountId : Nat) : Script Unit := do
  statement e .deleteRealmCharacters fun d =>
    ((), { d with realmcharacters := d.realmcharacters.filter (·.acctid != accountId) })
  statement e .deleteAccount fun d => ((), { d with account := d.account.filter (·.id != accountId) })
  query e .commit fun _ => ()

def transaction (accountId : Nat) : Script Unit := do
  query e .beginTransaction fun _ => ()
  let before ← get
  tryCatch (deleteRows e accountId) fun exception => do
    modify (rollBack before)
    throw exception

def findAccount (username : Bytes) (d : Tables) : Option Nat :=
  (d.account.find? fun row => e.sameName row.username username).map (·.id)

/-- The checks of delete_account and the account's id. -/
def deletableAccount (r : DeleteAccount) : Script Nat := do
  let username := accountName r.username
  require (username != [] && validAccount username) (.runtime (ascii "Enter a valid account name."))
  require (!(username == ascii "ADMIN" || username == ascii "AHBOT"))
    (.runtime (ascii "This system account is protected and cannot be deleted."))
  require (accountName r.confirmation == username)
    (.runtime (ascii "For confirmation, enter exactly " ++ username ++ ascii "."))
  query e .loginDatabase fun _ => ()
  let found ← query e .findAccount (findAccount e username)
  let accountId ← required found (.runtime (ascii "This account was not found."))
  query e .characterDatabase fun _ => ()
  let characters ← query e .characterCount fun d => d.characters.countP (·.account == accountId)
  require (!decide (0 < characters)) (.runtime (username ++ ascii " still owns " ++ decimal characters ++
    ascii " character(s). Delete those characters before deleting the account."))
  pure accountId

def deleteAccount (r : DeleteAccount) : Script Bytes := do
  let accountId ← deletableAccount e r
  transaction e accountId
  pure (ascii "Account " ++ accountName r.username ++ ascii " was deleted.")

/-! ## Running statements -/

variable {e} {α : Type}

theorem exec_statement_ok {s : Statement} (h : e.throws s = none) (effect : Tables → α × Tables) (d : Tables) :
    exec (statement e s effect) d = (.ok (effect (serverTurn e s d)).1, (effect (serverTurn e s d)).2) := by
  unfold statement
  rw [exec_bind_of_ok (exec_modify (serverTurn e s) d), h]
  rfl

theorem exec_statement_error {s : Statement} {exception : Exception} (h : e.throws s = some exception)
    (effect : Tables → α × Tables) (d : Tables) :
    exec (statement e s effect) d = (.error exception, serverTurn e s d) := by
  unfold statement
  rw [exec_bind_of_ok (exec_modify (serverTurn e s) d), h]
  rfl

theorem exec_query_ok {s : Statement} (h : e.throws s = none) (answer : Tables → α) (d : Tables) :
    exec (query e s answer) d = (.ok (answer (serverTurn e s d)), serverTurn e s d) := exec_statement_ok h _ d

theorem exec_query_error {s : Statement} {exception : Exception} (h : e.throws s = some exception)
    (answer : Tables → α) (d : Tables) :
    exec (query e s answer) d = (.error exception, serverTurn e s d) := exec_statement_error h _ d

@[simp] theorem serverTurn_login (s : Statement) (d : Tables) : (serverTurn e s d).login = d.login := rfl
@[simp] theorem serverTurn_account (s : Statement) (d : Tables) : (serverTurn e s d).account = d.account := rfl
@[simp] theorem serverTurn_realmcharacters (s : Statement) (d : Tables) :
    (serverTurn e s d).realmcharacters = d.realmcharacters := rfl

/-- The login database stays as it was. -/
def SameLogin (d d' : Tables) : Prop := d'.login = d.login

theorem sameLogin_refl (d : Tables) : SameLogin d d := rfl
theorem sameLogin_trans (a b c : Tables) (hab : SameLogin a b) (hbc : SameLogin b c) : SameLogin a c := hbc.trans hab

theorem moves_query (s : Statement) (answer : Tables → α) : Moves SameLogin (query e s answer) := by
  intro d
  cases h : e.throws s with
  | none => rw [exec_query_ok h]; exact serverTurn_login s d
  | some exception => rw [exec_query_error h]; exact serverTurn_login s d

/-! ## All or nothing -/

/-- The request gets as far as its first INSERT, and that one takes effect. -/
structure Inserts (e : Environment) (crypto : Crypto) (r : CreateAccount) (d : Tables) : Prop where
  username : validAccount (accountName r.username) = true
  password : validAccount (accountName r.password) = true
  srp6 : ∃ srp, r.srp6 crypto = .ok srp
  connects : e.throws .loginDatabase = none
  selects : e.throws .selectExists = none
  free : (d.account.any fun row => e.sameName row.username (accountName r.username)) = false
  inserts : e.throws .insertAccount = none

/-- Success with the account's row and one for it in every realm, or an error and the
    login database as it was. -/
def AllOrNothing (username : Bytes) (d : Tables) : Except Exception Bytes × Tables → Prop
  | (.ok _, d') => ∃ row ∈ d'.account, row.username = username ∧
      ∀ realm ∈ d'.realmlist, ∃ own ∈ d'.realmcharacters, own.realmid = realm ∧ own.acctid = row.id
  | (.error _, d') => SameLogin d d'

theorem newAccount_same (crypto : Crypto) (r : CreateAccount) : Moves SameLogin (newAccount e crypto r) := by
  unfold newAccount
  refine Moves.require sameLogin_refl sameLogin_trans fun _ => ?_
  refine Moves.require sameLogin_refl sameLogin_trans fun _ => ?_
  refine Moves.bind sameLogin_trans ?_ fun srp _ => ?_
  · intro d
    cases r.srp6 crypto <;> exact sameLogin_refl d
  refine Moves.bind sameLogin_trans (moves_query _ _) fun _ _ => ?_
  refine Moves.bind sameLogin_trans (moves_query _ _) fun taken _ => ?_
  exact Moves.require sameLogin_refl sameLogin_trans fun _ => Moves.pure sameLogin_refl _

theorem orThrow_ok {result : Except Bytes α} {a : α} (h : result = .ok a) (d : Tables) :
    exec (orThrow result) d = (.ok a, d) := by
  rw [h]
  rfl

/-- The checks are passed exactly if every one of them would be, on the tables as they
    were before the request. -/
theorem newAccount_ok_iff (crypto : Crypto) (r : CreateAccount) (d : Tables)
    (hinserts : e.throws .insertAccount = none) :
    (∃ srp d', exec (newAccount e crypto r) d = (.ok srp, d')) ↔ Inserts e crypto r d := by
  unfold newAccount
  constructor
  · rintro ⟨srp, d', h⟩
    obtain ⟨_, d1, h1, h⟩ := exec_bind_ok h
    obtain ⟨_, d2, h2, h⟩ := exec_bind_ok h
    obtain ⟨srp', d3, h3, h⟩ := exec_bind_ok h
    obtain ⟨_, d4, h4, h⟩ := exec_bind_ok h
    obtain ⟨taken, d5, h5, h⟩ := exec_bind_ok h
    obtain ⟨_, d6, h6, _⟩ := exec_bind_ok h
    obtain ⟨husername, rfl⟩ := exec_require_ok h1
    obtain ⟨hpassword, rfl⟩ := exec_require_ok h2
    obtain ⟨hsrp, rfl⟩ : r.srp6 crypto = .ok srp' ∧ d3 = d2 := by
      cases hr : r.srp6 crypto with
      | ok p =>
        rw [orThrow_ok hr] at h3
        cases h3
        exact ⟨rfl, rfl⟩
      | error message =>
        rw [hr] at h3
        cases h3
    obtain ⟨hfree, rfl⟩ := exec_require_ok h6
    cases hconnects : e.throws .loginDatabase with
    | some exception =>
      rw [exec_query_error hconnects] at h4
      cases h4
    | none =>
      rw [exec_query_ok hconnects] at h4
      cases h4
      cases hselects : e.throws .selectExists with
      | some exception =>
        rw [exec_query_error hselects] at h5
        cases h5
      | none =>
        rw [exec_query_ok hselects] at h5
        cases h5
        exact ⟨husername, hpassword, ⟨_, hsrp⟩, hconnects, hselects, by simpa using hfree, hinserts⟩
  · intro h
    obtain ⟨srp, hsrp⟩ := h.srp6
    refine ⟨srp, serverTurn e .selectExists (serverTurn e .loginDatabase d), ?_⟩
    dsimp only
    rw [h.username, h.password, exec_bind_of_ok (exec_require_true _ d), exec_bind_of_ok (exec_require_true _ d),
      exec_bind_of_ok (orThrow_ok hsrp d), exec_bind_of_ok (exec_query_ok h.connects _ d),
      exec_bind_of_ok (exec_query_ok h.selects _ _)]
    rw [serverTurn_account, serverTurn_account, h.free]
    rfl

/-- After `INSERT IGNORE` every realm has a row for the account. -/
theorem insertIgnore_covers (accountId : Nat) : ∀ (realms : List Nat) (rows : List RealmCharactersRow),
    (∀ row ∈ rows, row ∈ insertIgnore accountId realms rows) ∧
      ∀ realm ∈ realms, ∃ own ∈ insertIgnore accountId realms rows, own.realmid = realm ∧ own.acctid = accountId := by
  intro realms
  induction realms with
  | nil => intro rows; exact ⟨fun row h => h, fun realm h => nomatch h⟩
  | cons realm realms ih =>
    intro rows
    unfold insertIgnore
    rw [List.foldl_cons]
    split
    · rename_i hthere
      obtain ⟨hkeep, hcover⟩ := ih rows
      refine ⟨hkeep, fun realm' h => ?_⟩
      rcases List.mem_cons.mp h with rfl | h
      · obtain ⟨own, hown, hkey⟩ := List.any_eq_true.mp hthere
        simp only [Bool.and_eq_true, beq_iff_eq] at hkey
        exact ⟨own, hkeep own hown, hkey⟩
      · exact hcover realm' h
    · obtain ⟨hkeep, hcover⟩ := ih (rows ++ [⟨realm, accountId, 0⟩])
      refine ⟨fun row h => hkeep row (List.mem_append_left _ h), fun realm' h => ?_⟩
      rcases List.mem_cons.mp h with rfl | h
      · exact ⟨_, hkeep _ (List.mem_append_right _ (List.mem_singleton_self _)), rfl, rfl⟩
      · exact hcover realm' h

/-- What the three statements behind the checks leave. -/
theorem insertRows_cases (username : Bytes) (srp : Bytes × Bytes) (d : Tables) :
    (∃ x, e.throws .insertAccount = some x ∧ ∃ d', exec (insertRows e username srp) d = (.error x, d') ∧ SameLogin d d') ∨
      (e.throws .insertAccount = none ∧ ∃ row : AccountRow, row.username = username ∧
        ((e.throws .lastInsertId = none ∧ e.throws .insertRealmCharacters = none ∧
            ∃ d', exec (insertRows e username srp) d = (.ok (), d') ∧ row ∈ d'.account ∧
              ∀ realm ∈ d'.realmlist, ∃ own ∈ d'.realmcharacters, own.realmid = realm ∧ own.acctid = row.id) ∨
          (¬ (e.throws .lastInsertId = none ∧ e.throws .insertRealmCharacters = none) ∧
            ∃ x d', exec (insertRows e username srp) d = (.error x, d') ∧ d'.account = d.account ++ [row]))) := by
  unfold insertRows
  cases hinsert : e.throws .insertAccount with
  | some x =>
    refine Or.inl ⟨x, rfl, serverTurn e .insertAccount d, ?_, serverTurn_login _ d⟩
    rw [exec_bind_of_error (exec_statement_error hinsert _ d)]
  | none =>
    refine Or.inr ⟨rfl, ⟨d.nextId, username, srp.1, srp.2⟩, rfl, ?_⟩
    rw [exec_bind_of_ok (exec_statement_ok hinsert _ d)]
    cases hid : e.throws .lastInsertId with
    | some x =>
      refine Or.inr ⟨by simp, x,
        serverTurn e .lastInsertId (insertAccount username srp (serverTurn e .insertAccount d)).2, ?_, rfl⟩
      rw [exec_bind_of_error (exec_query_error hid _ _)]
    | none =>
      rw [exec_bind_of_ok (exec_query_ok hid _ _)]
      cases hrealm : e.throws .insertRealmCharacters with
      | some x => exact Or.inr ⟨by simp, x, _, exec_statement_error hrealm _ _, rfl⟩
      | none =>
        refine Or.inl ⟨rfl, rfl, _, exec_statement_ok hrealm _ _, ?_, ?_⟩
        · exact List.mem_append_right _ (List.mem_singleton_self _)
        · exact (insertIgnore_covers d.nextId d.realmlist d.realmcharacters).2

/-- A request that does not insert reports an error and leaves the login database. -/
theorem createAccount_refused {crypto : Crypto} {r : CreateAccount} {d : Tables} (h : ¬ Inserts e crypto r d) :
    ∃ x d', exec (createAccount e crypto r) d = (.error x, d') ∧ SameLogin d d' := by
  have hsame := @newAccount_same e crypto r d
  unfold createAccount
  cases hchecks : exec (newAccount e crypto r) d with
  | mk result d1 =>
    rw [hchecks] at hsame
    cases result with
    | error x =>
      rw [exec_bind_of_error hchecks]
      exact ⟨x, d1, rfl, hsame⟩
    | ok srp =>
      rw [exec_bind_of_ok hchecks]
      rcases @insertRows_cases e (accountName r.username) srp d1 with ⟨x, _, d2, hrun, hlogin⟩ | ⟨hinsert, _⟩
      · rw [exec_bind_of_error hrun]
        exact ⟨x, d2, rfl, sameLogin_trans _ _ _ hsame hlogin⟩
      · exact absurd ((newAccount_ok_iff crypto r d hinsert).mp ⟨srp, d1, hchecks⟩) h

/-- One that inserts ends with its row there, and succeeds if nothing behind it fails. -/
theorem createAccount_inserted {crypto : Crypto} {r : CreateAccount} {d : Tables} (h : Inserts e crypto r d) :
    ∃ row : AccountRow, row.username = accountName r.username ∧
      ((e.throws .lastInsertId = none ∧ e.throws .insertRealmCharacters = none ∧
          ∃ notice d', exec (createAccount e crypto r) d = (.ok notice, d') ∧ row ∈ d'.account ∧
            ∀ realm ∈ d'.realmlist, ∃ own ∈ d'.realmcharacters, own.realmid = realm ∧ own.acctid = row.id) ∨
        (¬ (e.throws .lastInsertId = none ∧ e.throws .insertRealmCharacters = none) ∧
          ∃ x d', exec (createAccount e crypto r) d = (.error x, d') ∧ d'.account = d.account ++ [row])) := by
  have hsame := @newAccount_same e crypto r d
  obtain ⟨srp, d1, hchecks⟩ := (newAccount_ok_iff crypto r d h.inserts).mpr h
  rw [hchecks] at hsame
  have haccount : d1.account = d.account := congrArg Prod.fst (show d1.login = d.login from hsame)
  unfold createAccount
  rw [exec_bind_of_ok hchecks]
  rcases @insertRows_cases e (accountName r.username) srp d1 with ⟨x, hx, _⟩ | ⟨_, row, hname, hrest⟩
  · rw [h.inserts] at hx
    cases hx
  · refine ⟨row, hname, ?_⟩
    rcases hrest with ⟨hid, hrealm, d2, hrun, hrows⟩ | ⟨hfails, x, d2, hrun, hhalf⟩
    · rw [exec_bind_of_ok hrun]
      exact Or.inl ⟨hid, hrealm, _, d2, rfl, hrows⟩
    · rw [exec_bind_of_error hrun]
      exact Or.inr ⟨hfails, x, d2, rfl, by rw [hhalf, haccount]⟩

theorem not_sameLogin_of_row {d d' : Tables} {row : AccountRow} (h : d'.account = d.account ++ [row]) :
    ¬ SameLogin d d' := by
  intro hsame
  have haccount : d'.account = d.account := congrArg Prod.fst hsame
  rw [h] at haccount
  simp at haccount

/-- For every state of the tables and every failing statement: creating an account is all
    or nothing exactly if, once its row is inserted, neither the id lookup nor the second
    INSERT fails. -/
theorem create_all_or_nothing_iff (e : Environment) (crypto : Crypto) (r : CreateAccount) (d : Tables) :
    AllOrNothing (accountName r.username) d (exec (createAccount e crypto r) d) ↔
      (Inserts e crypto r d → e.throws .lastInsertId = none ∧ e.throws .insertRealmCharacters = none) := by
  by_cases hin : Inserts e crypto r d
  · obtain ⟨row, hname, ⟨hid, hrealm, notice, d', hrun, hrow, hrealms⟩ | ⟨hfails, x, d', hrun, hhalf⟩⟩ :=
      createAccount_inserted hin
    · rw [hrun]
      exact ⟨fun _ _ => ⟨hid, hrealm⟩, fun _ => ⟨row, hrow, hname, hrealms⟩⟩
    · rw [hrun]
      exact ⟨fun hall => absurd hall (not_sameLogin_of_row hhalf), fun hok => absurd (hok hin) hfails⟩
  · obtain ⟨x, d', hrun, hsame⟩ := createAccount_refused hin
    rw [hrun]
    exact ⟨fun _ h => absurd h hin, fun _ => hsame⟩

/-- Only the INSERT into `realmcharacters` fails. -/
def realmInsertFails : Environment :=
  { throws := fun s => if s = .insertRealmCharacters then some .pdo else none
    creates := fun _ => []
    sameName := fun a b => a == b }

/-- One realm and no account. -/
def emptyTables : Tables :=
  { account := [], realmcharacters := [], realmlist := [1], characters := [], nextId := 5, transactional := false }

/-- Not always: the request reports that the database is not available, and the account is
    there, whatever was drawn for its salt. -/
theorem account_half_created : ¬ ∃ (sha1 : Bytes → Octets 20) (random : Octets 32),
    ∀ (e : Environment) (r : CreateAccount) (d : Tables),
      AllOrNothing (accountName r.username) d (exec (createAccount e ⟨sha1, true, random⟩ r) d) := by
  rintro ⟨sha1, random, h⟩
  have hin : Inserts realmInsertFails ⟨sha1, true, random⟩ ⟨ascii "player", ascii "secret"⟩ emptyTables :=
    ⟨by decide, by decide, ⟨_, rfl⟩, rfl, rfl, rfl, rfl⟩
  obtain ⟨row, _, ⟨_, hrealm, _⟩ | ⟨_, x, d', hrun, hhalf⟩⟩ := createAccount_inserted hin
  · cases hrealm
  · have hall := h realmInsertFails ⟨ascii "player", ascii "secret"⟩ emptyTables
    rw [hrun] at hall
    exact not_sameLogin_of_row hhalf hall

/-! ## Deleting without orphans -/

/-- The request passes its checks and its count for the account `accountId`. -/
structure Counted (e : Environment) (r : DeleteAccount) (d : Tables) (accountId : Nat) : Prop where
  name : (accountName r.username != [] && validAccount (accountName r.username)) = true
  unprotected : (accountName r.username == ascii "ADMIN" || accountName r.username == ascii "AHBOT") = false
  confirmed : (accountName r.confirmation == accountName r.username) = true
  connects : e.throws .loginDatabase = none
  finds : e.throws .findAccount = none
  found : findAccount e (accountName r.username) d = some accountId
  opens : e.throws .characterDatabase = none
  counts : e.throws .characterCount = none
  empty : ∀ own ∈ d.characters ++ e.creates .loginDatabase ++ e.creates .findAccount ++ e.creates .characterDatabase ++
    e.creates .characterCount, own.account ≠ accountId

/-- The tables at the count: the server had four turns. -/
def countedTables (e : Environment) (d : Tables) : Tables :=
  serverTurn e .characterCount (serverTurn e .characterDatabase (serverTurn e .findAccount (serverTurn e .loginDatabase d)))

theorem countedTables_characters (d : Tables) : (countedTables e d).characters = d.characters ++ e.creates .loginDatabase ++
    e.creates .findAccount ++ e.creates .characterDatabase ++ e.creates .characterCount := rfl

theorem deletableAccount_same (r : DeleteAccount) : Moves SameLogin (deletableAccount e r) := by
  unfold deletableAccount
  refine Moves.require sameLogin_refl sameLogin_trans fun _ => ?_
  refine Moves.require sameLogin_refl sameLogin_trans fun _ => ?_
  refine Moves.require sameLogin_refl sameLogin_trans fun _ => ?_
  refine Moves.bind sameLogin_trans (moves_query _ _) fun _ _ => ?_
  refine Moves.bind sameLogin_trans (moves_query _ _) fun found _ => ?_
  refine Moves.required sameLogin_refl sameLogin_trans fun accountId _ => ?_
  refine Moves.bind sameLogin_trans (moves_query _ _) fun _ _ => ?_
  refine Moves.bind sameLogin_trans (moves_query _ _) fun characters _ => ?_
  exact Moves.require sameLogin_refl sameLogin_trans fun _ => Moves.pure sameLogin_refl _

/-- A query that completed did not fail, and answered on the tables after the server's turn. -/
theorem exec_query_completed {s : Statement} {answer : Tables → α} {a : α} {d d' : Tables}
    (h : exec (query e s answer) d = (.ok a, d')) :
    e.throws s = none ∧ a = answer (serverTurn e s d) ∧ d' = serverTurn e s d := by
  cases hs : e.throws s with
  | some x =>
    rw [exec_query_error hs] at h
    cases h
  | none =>
    rw [exec_query_ok hs] at h
    cases h
    exact ⟨rfl, rfl, rfl⟩

theorem deletableAccount_ok {r : DeleteAccount} {d d' : Tables} {accountId : Nat}
    (h : exec (deletableAccount e r) d = (.ok accountId, d')) : Counted e r d accountId ∧ d' = countedTables e d := by
  unfold deletableAccount at h
  obtain ⟨_, d1, h1, h⟩ := exec_bind_ok h
  obtain ⟨_, d2, h2, h⟩ := exec_bind_ok h
  obtain ⟨_, d3, h3, h⟩ := exec_bind_ok h
  obtain ⟨_, d4, h4, h⟩ := exec_bind_ok h
  obtain ⟨found, d5, h5, h⟩ := exec_bind_ok h
  obtain ⟨id, d6, h6, h⟩ := exec_bind_ok h
  obtain ⟨_, d7, h7, h⟩ := exec_bind_ok h
  obtain ⟨characters, d8, h8, h⟩ := exec_bind_ok h
  obtain ⟨_, d9, h9, h⟩ := exec_bind_ok h
  cases h
  obtain ⟨hname, rfl⟩ := exec_require_ok h1
  obtain ⟨hunprotected, rfl⟩ := exec_require_ok h2
  obtain ⟨hconfirmed, rfl⟩ := exec_require_ok h3
  obtain ⟨hconnects, -, rfl⟩ := exec_query_completed h4
  obtain ⟨hfinds, rfl, rfl⟩ := exec_query_completed h5
  obtain ⟨hfound, rfl⟩ := exec_required_ok h6
  obtain ⟨hopens, -, rfl⟩ := exec_query_completed h7
  obtain ⟨hcounts, rfl, rfl⟩ := exec_query_completed h8
  obtain ⟨hnone, rfl⟩ := exec_require_ok h9
  refine ⟨⟨hname, by simpa using hunprotected, hconfirmed, hconnects, hfinds, hfound, hopens, hcounts, ?_⟩, rfl⟩
  simp only [Bool.not_eq_true', decide_eq_false_iff_not, Nat.not_lt, Nat.le_zero] at hnone
  intro own hown heq
  have hno := List.countP_eq_zero.mp hnone own hown
  simp [heq] at hno

theorem deletableAccount_counted {r : DeleteAccount} {d : Tables} {accountId : Nat} (h : Counted e r d accountId) :
    exec (deletableAccount e r) d = (.ok accountId, countedTables e d) := by
  have hzero : (countedTables e d).characters.countP (·.account == accountId) = 0 :=
    List.countP_eq_zero.mpr fun own hown => by simpa using h.empty own hown
  have hfound : findAccount e (accountName r.username)
      (serverTurn e .findAccount (serverTurn e .loginDatabase d)) = some accountId := h.found
  unfold deletableAccount
  dsimp only
  rw [h.name, h.unprotected, h.confirmed, exec_bind_of_ok (exec_require_true _ d), Bool.not_false,
    exec_bind_of_ok (exec_require_true _ d), exec_bind_of_ok (exec_require_true _ d),
    exec_bind_of_ok (exec_query_ok h.connects _ d), exec_bind_of_ok (exec_query_ok h.finds _ _), hfound]
  show exec (query e .characterDatabase _ >>= _) _ = _
  rw [exec_bind_of_ok (exec_query_ok h.opens _ _), exec_bind_of_ok (exec_query_ok h.counts _ _)]
  show exec (require (!decide (0 < (countedTables e d).characters.countP (·.account == accountId))) _ >>= _) _ = _
  rw [hzero]
  rfl

/-- The account's rows in `realmcharacters` are gone. -/
def withoutRealms (accountId : Nat) (rows : List RealmCharactersRow) : List RealmCharactersRow :=
  rows.filter (·.acctid != accountId)

theorem withoutRealms_eq_self {accountId : Nat} {rows : List RealmCharactersRow} :
    withoutRealms accountId rows = rows ↔ ∀ row ∈ rows, row.acctid ≠ accountId := by
  unfold withoutRealms
  rw [List.filter_eq_self]
  simp

/-- Nothing inside the transaction fails. -/
theorem transaction_ok {accountId : Nat} (d : Tables) (hbegin : e.throws .beginTransaction = none)
    (hrealms : e.throws .deleteRealmCharacters = none) (haccount : e.throws .deleteAccount = none)
    (hcommit : e.throws .commit = none) : ∃ d', exec (transaction e accountId) d = (.ok (), d') ∧
      d'.characters = d.characters ++ e.creates .beginTransaction ++ e.creates .deleteRealmCharacters ++
        e.creates .deleteAccount ++ e.creates .commit := by
  unfold transaction
  rw [exec_bind_of_ok (exec_query_ok hbegin _ d), exec_bind_of_ok (exec_get _), exec_tryCatch]
  unfold deleteRows
  rw [exec_bind_of_ok (exec_statement_ok hrealms _ _), exec_bind_of_ok (exec_statement_ok haccount _ _),
    exec_query_ok hcommit]
  exact ⟨_, rfl, rfl⟩

/-- Something fails before the first DELETE took effect. -/
theorem transaction_early {accountId : Nat} (d : Tables)
    (h : ¬ (e.throws .beginTransaction = none ∧ e.throws .deleteRealmCharacters = none)) :
    ∃ x d', exec (transaction e accountId) d = (.error x, d') ∧ d'.account = d.account ∧
      d'.realmcharacters = d.realmcharacters := by
  unfold transaction
  cases hbegin : e.throws .beginTransaction with
  | some x =>
    rw [exec_bind_of_error (exec_query_error hbegin _ d)]
    exact ⟨x, _, rfl, rfl, rfl⟩
  | none =>
    rw [exec_bind_of_ok (exec_query_ok hbegin _ d), exec_bind_of_ok (exec_get _), exec_tryCatch]
    unfold deleteRows
    cases hrealms : e.throws .deleteRealmCharacters with
    | some x =>
      rw [exec_bind_of_error (exec_statement_error hrealms _ _)]
      refine ⟨x, _, rfl, rfl, ?_⟩
      show (if d.transactional then d.realmcharacters else d.realmcharacters) = d.realmcharacters
      rw [ite_self]
    | none => exact absurd ⟨hbegin, hrealms⟩ h

/-- Something fails behind it: the rollback brings back what it can. -/
theorem transaction_late {accountId : Nat} (d : Tables) (hbegin : e.throws .beginTransaction = none)
    (hrealms : e.throws .deleteRealmCharacters = none)
    (h : ¬ (e.throws .deleteAccount = none ∧ e.throws .commit = none)) :
    ∃ x d', exec (transaction e accountId) d = (.error x, d') ∧ d'.account = d.account ∧
      d'.realmcharacters = if d.transactional then d.realmcharacters else withoutRealms accountId d.realmcharacters := by
  unfold transaction
  rw [exec_bind_of_ok (exec_query_ok hbegin _ d), exec_bind_of_ok (exec_get _), exec_tryCatch]
  unfold deleteRows
  rw [exec_bind_of_ok (exec_statement_ok hrealms _ _)]
  cases haccount : e.throws .deleteAccount with
  | some x =>
    rw [exec_bind_of_error (exec_statement_error haccount _ _)]
    exact ⟨x, _, rfl, rfl, rfl⟩
  | none =>
    rw [exec_bind_of_ok (exec_statement_ok haccount _ _)]
    cases hcommit : e.throws .commit with
    | some x =>
      rw [exec_query_error hcommit]
      exact ⟨x, _, rfl, rfl, rfl⟩
    | none => exact absurd ⟨haccount, hcommit⟩ h

/-- After success no character belongs to the account that was found; after an error the
    account and realmcharacters rows are unchanged. -/
def DeletesCleanly (e : Environment) (r : DeleteAccount) (d : Tables) : Except Exception Bytes × Tables → Prop
  | (.ok _, d') => ∀ accountId, findAccount e (accountName r.username) d = some accountId →
      ∀ own ∈ d'.characters, own.account ≠ accountId
  | (.error _, d') => d'.account = d.account ∧ d'.realmcharacters = d.realmcharacters

/-- The statements behind the count. -/
def behindCount : List Statement := [.beginTransaction, .deleteRealmCharacters, .deleteAccount, .commit]

/-- Once the count found no character: if the deletion goes through, none is created on the
    account behind it; if it breaks off behind the first DELETE, that one removed no row
    or `realmcharacters` is transactional. -/
def NothingBehindCount (e : Environment) (r : DeleteAccount) (d : Tables) : Prop :=
  ∀ accountId, Counted e r d accountId → e.throws .beginTransaction = none → e.throws .deleteRealmCharacters = none →
    (e.throws .deleteAccount = none ∧ e.throws .commit = none →
      ∀ s ∈ behindCount, ∀ own ∈ e.creates s, own.account ≠ accountId) ∧
    (¬ (e.throws .deleteAccount = none ∧ e.throws .commit = none) →
      d.transactional = true ∨ ∀ row ∈ d.realmcharacters, row.acctid ≠ accountId)

theorem deleteAccount_refused {r : DeleteAccount} {d : Tables} (h : ∀ accountId, ¬ Counted e r d accountId) :
    ∃ x d', exec (deleteAccount e r) d = (.error x, d') ∧ SameLogin d d' := by
  have hsame := @deletableAccount_same e r d
  unfold deleteAccount
  cases hchecks : exec (deletableAccount e r) d with
  | mk result d1 =>
    rw [hchecks] at hsame
    cases result with
    | error x =>
      rw [exec_bind_of_error hchecks]
      exact ⟨x, d1, rfl, hsame⟩
    | ok accountId => exact absurd (deletableAccount_ok hchecks).1 (h accountId)

/-- For every interleaving with the server's creations and every failing statement: the
    deletion is clean exactly if nothing comes behind the count. -/
theorem delete_clean_iff (e : Environment) (r : DeleteAccount) (d : Tables) :
    DeletesCleanly e r d (exec (deleteAccount e r) d) ↔ NothingBehindCount e r d := by
  by_cases hcounted : ∃ accountId, Counted e r d accountId
  · obtain ⟨accountId, hc⟩ := hcounted
    have hunique : ∀ id, Counted e r d id → id = accountId := by
      intro id h
      have hfound := h.found
      rw [hc.found] at hfound
      exact (Option.some.inj hfound).symm
    have hrun := deletableAccount_counted hc
    unfold deleteAccount
    rw [exec_bind_of_ok hrun]
    by_cases hearly : e.throws .beginTransaction = none ∧ e.throws .deleteRealmCharacters = none
    · obtain ⟨hbegin, hrealms⟩ := hearly
      by_cases hlate : e.throws .deleteAccount = none ∧ e.throws .commit = none
      · obtain ⟨d', htrans, hchars⟩ := @transaction_ok e accountId (countedTables e d) hbegin hrealms hlate.1 hlate.2
        rw [exec_bind_of_ok htrans]
        have hmem : ∀ own, own ∈ d'.characters ↔
            own ∈ (countedTables e d).characters ∨ ∃ s ∈ behindCount, own ∈ e.creates s := by
          intro own
          rw [hchars]
          simp [behindCount]
        constructor
        · intro hclean id h _ _
          obtain rfl := hunique id h
          refine ⟨fun _ s hs own hown => ?_, fun hno => absurd hlate hno⟩
          exact hclean id hc.found own ((hmem own).mpr (Or.inr ⟨s, hs, hown⟩))
        · intro hnothing id hfound own hown
          obtain rfl : accountId = id := by
            rw [hc.found] at hfound
            exact Option.some.inj hfound
          rcases (hmem own).mp hown with hbefore | ⟨s, hs, hcreated⟩
          · exact hc.empty own hbefore
          · exact (hnothing accountId hc hbegin hrealms).1 hlate s hs own hcreated
      · obtain ⟨x, d', htrans, haccount, hrows⟩ := @transaction_late e accountId (countedTables e d) hbegin hrealms hlate
        rw [exec_bind_of_error htrans]
        have hunchanged : d'.realmcharacters = d.realmcharacters ↔
            d.transactional = true ∨ ∀ row ∈ d.realmcharacters, row.acctid ≠ accountId := by
          rw [hrows, ← withoutRealms_eq_self]
          show (if d.transactional = true then d.realmcharacters else withoutRealms accountId d.realmcharacters) = _ ↔ _
          cases d.transactional <;> simp
        constructor
        · intro hclean id h _ _
          obtain rfl := hunique id h
          exact ⟨fun hok => absurd hok hlate, fun _ => hunchanged.mp hclean.2⟩
        · intro hnothing
          exact ⟨haccount, hunchanged.mpr ((hnothing accountId hc hbegin hrealms).2 hlate)⟩
    · obtain ⟨x, d', htrans, haccount, hrows⟩ := @transaction_early e accountId (countedTables e d) hearly
      rw [exec_bind_of_error htrans]
      exact ⟨fun _ _ _ hbegin hrealms => absurd ⟨hbegin, hrealms⟩ hearly, fun _ => ⟨haccount, hrows⟩⟩
  · have hno : ∀ accountId, ¬ Counted e r d accountId := fun accountId h => hcounted ⟨accountId, h⟩
    obtain ⟨x, d', hrun, hsame⟩ := deleteAccount_refused hno
    rw [hrun]
    exact ⟨fun _ id h => absurd h (hno id), fun _ => ⟨congrArg Prod.fst hsame, congrArg (fun l => l.2.1) hsame⟩⟩

/-- One account without characters. -/
def oneAccount : Tables :=
  { account := [⟨5, ascii "PLAYER", [], []⟩], realmcharacters := [⟨1, 5, 0⟩], realmlist := [1], characters := [],
    nextId := 6, transactional := false }

/-- The server creates a character on the account before the transaction begins. -/
def createdBehindCount : Environment :=
  { throws := fun _ => none
    creates := fun s => if s = .beginTransaction then [⟨7, 5⟩] else []
    sameName := fun a b => a == b }

/-- The DELETE from `account` fails. -/
def secondDeleteFails : Environment :=
  { throws := fun s => if s = .deleteAccount then some .pdo else none
    creates := fun _ => []
    sameName := fun a b => a == b }

def deletePlayer : DeleteAccount := ⟨ascii "player", ascii "PLAYER"⟩

/-- Not always: the deletion succeeds, and the new character belongs to no account. -/
theorem character_orphaned :
    ¬ ∀ (e : Environment) (r : DeleteAccount) (d : Tables), DeletesCleanly e r d (exec (deleteAccount e r) d) := by
  intro h
  have hclean := h createdBehindCount deletePlayer oneAccount
  have hok : (exec (deleteAccount createdBehindCount deletePlayer) oneAccount).1 =
      .ok (ascii "Account PLAYER was deleted.") := by decide +kernel
  have hown : (exec (deleteAccount createdBehindCount deletePlayer) oneAccount).2.characters = [⟨7, 5⟩] := by decide +kernel
  cases hrun : exec (deleteAccount createdBehindCount deletePlayer) oneAccount with
  | mk result d' =>
    rw [hrun] at hclean hok hown
    cases hok
    have hown' : d'.characters = [⟨7, 5⟩] := hown
    refine hclean 5 (by decide +kernel) ⟨7, 5⟩ ?_ rfl
    rw [hown']
    exact List.mem_singleton_self _

-- an error that leaves the account without its row in `realmcharacters`
example : ((exec (deleteAccount secondDeleteFails deletePlayer) oneAccount).1 = .error .pdo) ∧
    (exec (deleteAccount secondDeleteFails deletePlayer) oneAccount).2.realmcharacters = [] := by decide +kernel

end Nostalgia.Web
