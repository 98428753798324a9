/-
  Nostalgia.MacroManager.Cursor — which spell a drop stores on a client without
  `GetCursorInfo` (DinoMacroManager.lua).

  Vanilla 1.12 does not say what holds the cursor. The AddOn hooks `PickupSpell`,
  remembers its last call and forgets it in `ReceiveSpell` only. `World` is the AddOn
  beside the client's cursor and action bars; `CursorOp` is how a spell gets onto the
  cursor and off it. The spell book does not change in between.

  - `cursorRun_picked`: what is remembered is the last pickup from the book, whatever
    happened to the cursor since.
  - `dropStoresCursor_iff`: a drop stores the cursor's spell exactly when that pickup is
    missing, is one `ReceiveSpell` rejects, or is the same spell.
  - `drop_stores_another_spell`: a spell placed on a filled action slot leaves the slot's
    former spell on the cursor; dropping that stores the first.
-/

import Nostalgia.MacroManager.Editor

namespace Nostalgia.MacroManager

open Nostalgia.Lua Nostalgia.Machine

/-! ## The cursor -/

/-- A spell of the spell book. -/
structure BookSpell where
  index : Nat
  bookType : BookType
  deriving DecidableEq, Repr

structure World where
  st : State
  cursor : Option BookSpell
  /-- The spells on the action bars. -/
  actions : Nat → Option BookSpell

inductive CursorOp where
  /-- `PickupSpell`, through the AddOn's hook. -/
  | pickupSpell (spellIndex : Nat) (bookType : Option BookType)
  /-- `PickupAction` of a slot. -/
  | pickupAction (slot : Nat)
  /-- `PlaceAction`: the slot's former spell is on the cursor afterwards. -/
  | placeAction (slot : Nat)
  | clearCursor
  deriving DecidableEq

/-- The cursor's spell and the slot's change places. -/
def exchange (slot : Nat) (w : World) : World :=
  { w with cursor := w.actions slot, actions := Function.update w.actions slot w.cursor }

def cursorStep (w : World) (op : CursorOp) : World :=
  match op with
  | .pickupSpell spellIndex bookType =>
    { w with st := pickupSpell spellIndex bookType w.st, cursor := some ⟨spellIndex, bookType.getD BOOKTYPE⟩ }
  | .pickupAction slot => exchange slot w
  | .placeAction slot => if w.cursor.isSome then exchange slot w else w
  | .clearCursor => { w with cursor := none }

/-- The client `c` as `ReceiveSpell` meets it: no `GetCursorInfo`, and the cursor of `w`. -/
def clientOf (c : Client) (w : World) : Client := { c with getCursorInfo := none, cursorHasSpell := w.cursor.isSome }

/-- The entry a drop on field `index` stores, if any. -/
def droppedEntry (c : Client) (index : Nat) (w : World) : Option Spell :=
  match receivedEntry (clientOf c w) w.st with
  | .error _ => none
  | .ok _ => (receiveSpell (clientOf c w) index w.st).editorSpells index

/-- The book calls both spells by one name and rank. -/
def sameSpell (c : Client) (a b : BookSpell) : Prop :=
  (c.getSpellName a.index a.bookType).map (fun n => (n.1, n.2.getD "")) =
    (c.getSpellName b.index b.bookType).map fun n => (n.1, n.2.getD "")

/-- The entry is the spell `b` of the book. -/
def IsSpell (c : Client) (b : BookSpell) (entry : Spell) : Prop :=
  entry.command = none ∧
    (c.getSpellName b.index b.bookType).map (fun n => (n.1, n.2.getD "")) = some (entry.name, entry.rank)

/-- A drop on field `index` stores the cursor's spell, if it stores any. -/
def DropStoresCursor (c : Client) (index : Nat) (w : World) : Prop :=
  ∀ entry, droppedEntry c index w = some entry → ∃ b, w.cursor = some b ∧ IsSpell c b entry

/-! ## What is remembered -/

/-- The pickup the AddOn remembers. -/
def pickedSpell (st : State) : Option BookSpell :=
  st.pickedSpellIndex.map fun i => ⟨i, st.pickedSpellBookType.getD BOOKTYPE⟩

def CursorOp.picked : CursorOp → Option BookSpell
  | .pickupSpell spellIndex bookType => some ⟨spellIndex, bookType.getD BOOKTYPE⟩
  | _ => none

/-- The last spell taken from the book in `ops`. -/
def lastPicked (ops : List CursorOp) : Option BookSpell := (ops.filterMap CursorOp.picked).getLast?

theorem cursorStep_picked (w : World) (op : CursorOp) :
    pickedSpell (cursorStep w op).st = op.picked.or (pickedSpell w.st) := by
  cases op with
  | pickupSpell spellIndex bookType => rfl
  | pickupAction slot => rfl
  | placeAction slot =>
    simp only [cursorStep]
    split <;> rfl
  | clearCursor => rfl

/-- Only pickups from the book count. -/
theorem cursorRun_picked (ops : List CursorOp) :
    ∀ w, pickedSpell (run cursorStep w ops).st = (lastPicked ops).or (pickedSpell w.st) := by
  induction ops with
  | nil => intro w; rfl
  | cons op ops ih =>
    intro w
    rw [run_cons, ih, cursorStep_picked]
    unfold lastPicked
    cases hp : op.picked with
    | none => rw [List.filterMap_cons_none hp, Option.none_or]
    | some b =>
      rw [List.filterMap_cons_some hp, List.getLast?_cons, Option.some_or]
      cases (ops.filterMap CursorOp.picked).getLast? <;> rfl

/-! ## What is stored -/

/-- `ReceiveSpell` turns the spell down: a pet's, one it cannot read, a passive one. -/
def Rejected (c : Client) (b : BookSpell) : Prop :=
  b.bookType ≠ BOOKTYPE ∨ c.getSpellName b.index b.bookType = none ∨ c.isSpellPassive b.index b.bookType = true

/-- Without a remembered pickup nothing is stored. -/
theorem droppedEntry_none {c : Client} {index : Nat} {w : World} (h : pickedSpell w.st = none) :
    droppedEntry c index w = none := by
  have hpick : w.st.pickedSpellIndex = none := by simpa [pickedSpell] using h
  have herr : ∃ complaint, receivedEntry (clientOf c w) w.st = .error complaint := by
    unfold receivedEntry cursorSpell
    simp only [clientOf, hpick]
    split <;> exact ⟨_, rfl⟩
  obtain ⟨complaint, he⟩ := herr
  rw [droppedEntry, he]

/-- What `ReceiveSpell` makes of the remembered pickup. -/
theorem receivedEntry_picked {c : Client} {w : World} {b : BookSpell} (h : pickedSpell w.st = some b)
    (hcursor : w.cursor.isSome = true) :
    (Rejected c b ∧ ∃ complaint, receivedEntry (clientOf c w) w.st = .error complaint) ∨
      (¬ Rejected c b ∧ ∃ entry, receivedEntry (clientOf c w) w.st = .ok entry ∧ IsSpell c b entry) := by
  obtain ⟨i, hi, rfl⟩ := Option.map_eq_some_iff.mp h
  have hspell : cursorSpell (clientOf c w) w.st = .ok (i, w.st.pickedSpellBookType) := by
    simp only [cursorSpell, clientOf, hcursor, hi, if_true]
  have hname : (clientOf c w).getSpellName = c.getSpellName := rfl
  have hpassive : (clientOf c w).isSpellPassive = c.isSpellPassive := rfl
  unfold receivedEntry Rejected IsSpell
  rw [hspell, hname, hpassive]
  simp only [bind, Except.bind, throw, throwThe, MonadExceptOf.throw, pure, Except.pure]
  generalize w.st.pickedSpellBookType.getD BOOKTYPE = bookType
  by_cases hbook : bookType = BOOKTYPE
  · rw [if_neg (not_not.mpr hbook)]
    cases hread : c.getSpellName i bookType with
    | none => exact Or.inl ⟨Or.inr (Or.inl rfl), _, rfl⟩
    | some nameRank =>
      dsimp only
      by_cases hp : c.isSpellPassive i bookType = true
      · rw [if_pos hp]
        exact Or.inl ⟨Or.inr (Or.inr hp), _, rfl⟩
      · rw [if_neg hp]
        refine Or.inr ⟨?_, _, rfl, rfl, rfl⟩
        rintro (hne | hnone | hpass)
        · exact hne hbook
        · cases hnone
        · exact hp hpass
  · rw [if_pos hbook]
    exact Or.inl ⟨Or.inl hbook, _, rfl⟩

/-- A drop stores the remembered pickup unless it is rejected. -/
theorem droppedEntry_picked {c : Client} (index : Nat) {w : World} {b : BookSpell} (h : pickedSpell w.st = some b)
    (hcursor : w.cursor.isSome = true) :
    (Rejected c b ∧ droppedEntry c index w = none) ∨
      (¬ Rejected c b ∧ ∃ entry, droppedEntry c index w = some entry ∧ IsSpell c b entry) := by
  rcases receivedEntry_picked h hcursor with ⟨hrej, complaint, he⟩ | ⟨hrej, entry, he, hentry⟩
  · exact Or.inl ⟨hrej, by rw [droppedEntry, he]⟩
  · refine Or.inr ⟨hrej, entry, ?_, hentry⟩
    rw [droppedEntry, he]
    simp only [receiveSpell, he, setEditorStatus_editorSpells, setEditorSpell]
    exact Function.update_self ..

/-- The pickup remembered after `ops` from `w`. -/
def rememberedPick (w : World) (ops : List CursorOp) : Option BookSpell := (lastPicked ops).or (pickedSpell w.st)

/-- After any sequence of cursor operations that leaves a spell on the cursor, a drop
    stores that spell exactly when the remembered pickup is missing, is rejected, or is
    that spell. -/
theorem dropStoresCursor_iff (c : Client) (index : Nat) (w : World) (ops : List CursorOp) (held : BookSpell)
    (hheld : (run cursorStep w ops).cursor = some held) :
    DropStoresCursor c index (run cursorStep w ops) ↔
      ∀ b, rememberedPick w ops = some b → Rejected c b ∨ sameSpell c b held := by
  have hpicked := cursorRun_picked ops w
  have hcursor : (run cursorStep w ops).cursor.isSome = true := by rw [hheld]; rfl
  rw [show (lastPicked ops).or (pickedSpell w.st) = rememberedPick w ops from rfl] at hpicked
  generalize run cursorStep w ops = w' at hheld hpicked hcursor
  cases hrem : rememberedPick w ops with
  | none =>
    rw [hrem] at hpicked
    have hnothing : droppedEntry c index w' = none := droppedEntry_none hpicked
    simp [DropStoresCursor, hnothing]
  | some b =>
    rw [hrem] at hpicked
    simp only [DropStoresCursor, hheld, Option.some.injEq, forall_eq', exists_eq_left']
    rcases droppedEntry_picked (c := c) index hpicked hcursor with ⟨hrej, hnothing⟩ | ⟨hrej, entry, hsome, hentry⟩
    · simp [hnothing, hrej]
    · simp only [hsome, Option.some.injEq, forall_eq', hrej, false_or]
      -- the entry is the pickup; it is the cursor's spell when they are the same one
      constructor
      · intro hheldEntry
        exact hentry.2.trans hheldEntry.2.symm
      · intro hsame
        exact ⟨hentry.1, hsame.symm.trans hentry.2⟩

/-! ## A stale pickup -/

/-- Frostbolt is on action slot 5; Fireball is taken from the book and placed there. -/
def swapped : World :=
  run cursorStep ⟨initializeDB noDB, none, Function.update (fun _ => none) 5 (some ⟨2, .spell⟩)⟩
    [.pickupSpell 1 none, .placeAction 5]

/-- Frostbolt is on the cursor then, and the drop stores Fireball. -/
theorem drop_stores_another_spell :
    ¬ ∀ (c : Client) (index : Nat) (w : World) (ops : List CursorOp) (held : BookSpell),
      pickedSpell w.st = none → (run cursorStep w ops).cursor = some held →
      DropStoresCursor c index (run cursorStep w ops) := by
  intro h
  have hdrop := h (bookClient 0) 1
    ⟨initializeDB noDB, none, Function.update (fun _ => none) 5 (some ⟨2, .spell⟩)⟩
    [.pickupSpell 1 none, .placeAction 5] ⟨2, .spell⟩ rfl rfl
  have hstored : (droppedEntry (bookClient 0) 1 swapped).map Spell.name = some "Fireball" := by decide +kernel
  obtain ⟨entry, hentry, hname⟩ := Option.map_eq_some_iff.mp hstored
  obtain ⟨b, hb, _, hspell⟩ := hdrop entry hentry
  obtain rfl : (⟨2, .spell⟩ : BookSpell) = b := Option.some.inj hb
  have hfrost : (some ("Frostbolt", "") : Option (String × String)) = some (entry.name, entry.rank) := hspell
  rw [hname] at hfrost
  simp at hfrost

/-- Dropped straight from the book it is the spell stored. -/
theorem drop_from_book : DropStoresCursor (bookClient 0) 1
    (run cursorStep ⟨initializeDB noDB, none, fun _ => none⟩ [.pickupSpell 1 none]) := by
  refine (dropStoresCursor_iff (bookClient 0) 1 ⟨initializeDB noDB, none, fun _ => none⟩ [.pickupSpell 1 none]
    ⟨1, .spell⟩ rfl).mpr fun b hb => Or.inr ?_
  have hpicked : rememberedPick ⟨initializeDB noDB, none, fun _ => none⟩ [.pickupSpell 1 none] = some ⟨1, .spell⟩ := rfl
  rw [hpicked] at hb
  obtain rfl := Option.some.inj hb
  rfl

end Nostalgia.MacroManager
