/-
  Nostalgia.Machine.Brackets — logs of entering and leaving, one at a time.

  `openAfter o l` reads the marks of `l` with `o` open at first: the key that is open
  behind them, or nothing if a mark does not fit.
  - `openAfter_append`: reading on.
  - `bracketed_of_openAfter`: a log that can be read alternates, every key is left before
    the next is entered, and the last mark enters what is still open.
-/

import Mathlib

namespace Nostalgia.Machine

variable {κ : Type*}

inductive Mark (κ : Type*) where
  | enter (k : κ)
  | leave (k : κ)
  deriving DecidableEq, Repr

/-- Every mark behind an entry leaves its key, and every leaving mark has that entry
    right before it. -/
structure Bracketed (l : List (Mark κ)) : Prop where
  entered : ∀ (i : Nat) (k : κ) (m : Mark κ), l[i]? = some (.enter k) → l[i + 1]? = some m → m = .leave k
  left : ∀ (i : Nat) (k : κ), l[i]? = some (.leave k) → ∃ j : Nat, i = j + 1 ∧ l[j]? = some (.enter k)

/-- No key is left open. -/
def Closed (l : List (Mark κ)) : Prop :=
  ∀ (i : Nat) (k : κ), l[i]? = some (.enter k) → l[i + 1]? = some (.leave k)

variable [DecidableEq κ]

def openAfter : Option κ → List (Mark κ) → Option (Option κ)
  | o, [] => some o
  | none, .enter k :: l => openAfter (some k) l
  | some k, .leave k' :: l => if k' = k then openAfter none l else none
  | none, .leave _ :: _ => none
  | some _, .enter _ :: _ => none

@[simp] theorem openAfter_nil (o : Option κ) : openAfter o [] = some o := by cases o <;> rfl

@[simp] theorem openAfter_enter (k : κ) (l : List (Mark κ)) : openAfter none (.enter k :: l) = openAfter (some k) l := rfl

@[simp] theorem openAfter_leave (k : κ) (l : List (Mark κ)) : openAfter (some k) (.leave k :: l) = openAfter none l :=
  if_pos rfl

theorem openAfter_append (a b : List (Mark κ)) :
    ∀ o, openAfter o (a ++ b) = (openAfter o a).bind fun o' => openAfter o' b := by
  induction a with
  | nil => intro o; simp
  | cons m a ih =>
    intro o
    cases o with
    | none =>
      cases m with
      | enter k => exact ih (some k)
      | leave k => rfl
    | some k' =>
      cases m with
      | enter k => rfl
      | leave k =>
        show (if k = k' then openAfter none (a ++ b) else none) = _
        by_cases h : k = k'
        · subst h
          rw [if_pos rfl, openAfter_leave]
          exact ih none
        · rw [if_neg h]
          show none = (if k = k' then openAfter none a else none).bind _
          rw [if_neg h]
          rfl

/-- Reading on from a log with `o` open. -/
theorem openAfter_append_of {o o' : Option κ} {a : List (Mark κ)} (h : openAfter o a = some o') (b : List (Mark κ)) :
    openAfter o (a ++ b) = openAfter o' b := by
  rw [openAfter_append, h]
  rfl

/-- What a log tells that is read with `o` open: as `Bracketed`, but that its first mark may leave `o`. -/
structure Follows (o o' : Option κ) (l : List (Mark κ)) : Prop where
  entered : ∀ (i : Nat) (k : κ), l[i]? = some (.enter k) →
    l[i + 1]? = some (.leave k) ∨ (l[i + 1]? = none ∧ o' = some k)
  left : ∀ (i : Nat) (k : κ), l[i]? = some (.leave k) →
    (i = 0 ∧ o = some k) ∨ ∃ j : Nat, i = j + 1 ∧ l[j]? = some (.enter k)
  first : ∀ k, o = some k → l[0]? = some (.leave k) ∨ (l = [] ∧ o' = some k)

omit [DecidableEq κ] in
theorem follows_enter {o' : Option κ} {k : κ} {l : List (Mark κ)} (h : Follows (some k) o' l) :
    Follows none o' (.enter k :: l) := by
  refine ⟨fun i k' hi => ?_, fun i k' hi => ?_, fun k' hk => by cases hk⟩
  · cases i with
    | zero =>
      obtain rfl : k = k' := by simpa using hi
      rcases h.first k rfl with hleave | ⟨rfl, ho⟩
      · exact Or.inl hleave
      · exact Or.inr ⟨rfl, ho⟩
    | succ i => exact h.entered i k' hi
  · cases i with
    | zero => simp at hi
    | succ i =>
      rcases h.left i k' hi with ⟨rfl, hk⟩ | ⟨j, rfl, hj⟩
      · obtain rfl := Option.some.inj hk
        exact Or.inr ⟨0, rfl, rfl⟩
      · exact Or.inr ⟨j + 1, rfl, hj⟩

omit [DecidableEq κ] in
theorem follows_leave {o' : Option κ} {k : κ} {l : List (Mark κ)} (h : Follows none o' l) :
    Follows (some k) o' (.leave k :: l) := by
  refine ⟨fun i k' hi => ?_, fun i k' hi => ?_, fun k' hk => ?_⟩
  · cases i with
    | zero => simp at hi
    | succ i => exact h.entered i k' hi
  · cases i with
    | zero =>
      obtain rfl : k = k' := by simpa using hi
      exact Or.inl ⟨rfl, rfl⟩
    | succ i =>
      rcases h.left i k' hi with ⟨_, hk⟩ | ⟨j, rfl, hj⟩
      · cases hk
      · exact Or.inr ⟨j + 1, rfl, hj⟩
  · obtain rfl := Option.some.inj hk
    exact Or.inl rfl

theorem follows_of_openAfter : ∀ (l : List (Mark κ)) {o o' : Option κ}, openAfter o l = some o' → Follows o o' l := by
  intro l
  induction l with
  | nil =>
    intro o o' h
    obtain rfl : o = o' := by simpa using h
    exact ⟨fun i k hi => (by simp at hi), fun i k hi => (by simp at hi), fun k hk => Or.inr ⟨rfl, hk⟩⟩
  | cons m l ih =>
    intro o o' h
    cases o with
    | none =>
      cases m with
      | enter k => exact follows_enter (ih h)
      | leave k => cases h
    | some k =>
      cases m with
      | enter k' => cases h
      | leave k' =>
        by_cases hk : k' = k
        · subst hk
          rw [openAfter_leave] at h
          exact follows_leave (ih h)
        · rw [openAfter, if_neg hk] at h
          cases h

theorem bracketed_of_openAfter {l : List (Mark κ)} {o : Option κ} (h : openAfter none l = some o) :
    Bracketed l ∧ (o = none → Closed l) := by
  have hfollows := follows_of_openAfter l h
  refine ⟨⟨fun i k m hi hm => ?_, fun i k hi => ?_⟩, fun ho i k hi => ?_⟩
  · rcases hfollows.entered i k hi with hleave | ⟨hnone, _⟩
    · rw [hm] at hleave
      exact Option.some.inj hleave
    · rw [hm] at hnone
      cases hnone
  · rcases hfollows.left i k hi with ⟨_, hno⟩ | hj
    · cases hno
    · exact hj
  · rcases hfollows.entered i k hi with hleave | ⟨_, hopen⟩
    · exact hleave
    · rw [ho] at hopen
      cases hopen

end Nostalgia.Machine
