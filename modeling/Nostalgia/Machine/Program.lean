/-
  Nostalgia.Machine.Program — programs that change a state and may throw.

  What a program did to the state before it threw stays done. `exec p s` is the outcome
  and the state of running `p` from `s`; `exec_bind_ok` takes a completed sequence apart.
  `Moves R p` says that every run of `p`, completed or not, takes its state to an
  `R`-related one. Its rules follow the syntax of `p`:
  - `Moves.bind`: of a sequence, the rest only needs the relation for the values the
    first part completes with.
  - `Moves.require`, `Moves.required`: what stands behind a check may use that it passed.
-/

import Mathlib

namespace Nostalgia.Machine

variable {σ ε α β : Type}

abbrev Program (σ ε α : Type) := ExceptT ε (StateM σ) α

def exec (p : Program σ ε α) (s : σ) : Except ε α × σ := StateT.run (ExceptT.run p) s

/-- `if (!c) throw e`. -/
def require (c : Bool) (e : ε) : Program σ ε Unit := if c then pure () else throw e

/-- What an option holds, or the exception. -/
def required (value : Option α) (e : ε) : Program σ ε α :=
  match value with
  | some a => pure a
  | none => throw e

@[simp] theorem exec_pure (a : α) (s : σ) : exec (pure a : Program σ ε α) s = (.ok a, s) := rfl
@[simp] theorem exec_throw (e : ε) (s : σ) : exec (throw e : Program σ ε α) s = (.error e, s) := rfl
@[simp] theorem exec_get (s : σ) : exec (get : Program σ ε σ) s = (.ok s, s) := rfl
@[simp] theorem exec_modify (f : σ → σ) (s : σ) : exec (modify f : Program σ ε Unit) s = (.ok (), f s) := rfl

theorem exec_bind (p : Program σ ε α) (f : α → Program σ ε β) (s : σ) :
    exec (p >>= f) s = match exec p s with
      | (.ok a, s') => exec (f a) s'
      | (.error e, s') => (.error e, s') := by
  show StateT.run (ExceptT.run (p >>= f)) s = _
  rw [ExceptT.run_bind, StateT.run_bind]
  unfold exec
  cases hp : StateT.run (ExceptT.run p) s with
  | mk r s' =>
    cases r with
    | ok a => rfl
    | error e => rfl

theorem exec_bind_of_ok {p : Program σ ε α} {f : α → Program σ ε β} {s s' : σ} {a : α} (h : exec p s = (.ok a, s')) :
    exec (p >>= f) s = exec (f a) s' := by
  rw [exec_bind, h]

theorem exec_bind_of_error {p : Program σ ε α} {f : α → Program σ ε β} {s s' : σ} {e : ε}
    (h : exec p s = (.error e, s')) : exec (p >>= f) s = (.error e, s') := by
  rw [exec_bind, h]

/-- A sequence that completed completed both parts. -/
theorem exec_bind_ok {p : Program σ ε α} {f : α → Program σ ε β} {s s'' : σ} {b : β}
    (h : exec (p >>= f) s = (.ok b, s'')) : ∃ a s', exec p s = (.ok a, s') ∧ exec (f a) s' = (.ok b, s'') := by
  cases hp : exec p s with
  | mk r s' =>
    cases r with
    | ok a =>
      rw [exec_bind_of_ok hp] at h
      exact ⟨a, s', rfl, h⟩
    | error e =>
      rw [exec_bind_of_error hp] at h
      cases h

/-- The handler starts from the state the exception left. -/
theorem exec_tryCatch (p : Program σ ε α) (handler : ε → Program σ ε α) (s : σ) :
    exec (tryCatch p handler) s = match exec p s with
      | (.ok a, s') => (.ok a, s')
      | (.error e, s') => exec (handler e) s' := by
  show StateT.run (ExceptT.run (ExceptT.tryCatch p handler)) s = _
  unfold ExceptT.tryCatch exec
  rw [ExceptT.run_mk, StateT.run_bind]
  cases hp : StateT.run (ExceptT.run p) s with
  | mk r s' =>
    have hp' : StateT.run p s = (r, s') := hp
    cases r with
    | ok a =>
      rw [hp']
      rfl
    | error e =>
      rw [hp']
      rfl

@[simp] theorem exec_require_true (e : ε) (s : σ) : exec (require true e) s = (.ok (), s) := rfl
@[simp] theorem exec_require_false (e : ε) (s : σ) : exec (require false e) s = (.error e, s) := rfl

theorem exec_require_ok {c : Bool} {e : ε} {s s' : σ} {u : Unit} (h : exec (require c e) s = (.ok u, s')) :
    c = true ∧ s' = s := by
  cases c with
  | true =>
    rw [exec_require_true] at h
    cases h
    exact ⟨rfl, rfl⟩
  | false => cases h

theorem exec_required_ok {value : Option α} {e : ε} {s s' : σ} {a : α} (h : exec (required value e) s = (.ok a, s')) :
    value = some a ∧ s' = s := by
  cases value with
  | none => cases h
  | some b =>
    cases h
    exact ⟨rfl, rfl⟩

/-! ## What a run does to the state -/

def Moves (R : σ → σ → Prop) (p : Program σ ε α) : Prop := ∀ s, R s (exec p s).2

variable {R : σ → σ → Prop}

theorem Moves.mono {Q : σ → σ → Prop} (hRQ : ∀ s s', R s s' → Q s s') {p : Program σ ε α} (hp : Moves R p) : Moves Q p :=
  fun s => hRQ _ _ (hp s)

theorem Moves.of_exec {p : Program σ ε α} (hp : Moves R p) {r : Except ε α} {s s' : σ} (h : exec p s = (r, s')) :
    R s s' := by
  have hs := hp s
  rw [h] at hs
  exact hs

theorem Moves.pure (hrefl : ∀ s, R s s) (a : α) : Moves R (pure a : Program σ ε α) := fun s => hrefl s

theorem Moves.throw (hrefl : ∀ s, R s s) (e : ε) : Moves R (throw e : Program σ ε α) := fun s => hrefl s

theorem Moves.get (hrefl : ∀ s, R s s) : Moves R (get : Program σ ε σ) := fun s => hrefl s

theorem Moves.modify {f : σ → σ} (h : ∀ s, R s (f s)) : Moves R (modify f : Program σ ε Unit) := h

theorem Moves.bind (htrans : ∀ a b c, R a b → R b c → R a c) {p : Program σ ε α} {f : α → Program σ ε β}
    (hp : Moves R p) (hf : ∀ a, (∃ s s', exec p s = (.ok a, s')) → Moves R (f a)) : Moves R (p >>= f) := by
  intro s
  cases he : exec p s with
  | mk r s' =>
    have hfirst := hp.of_exec he
    cases r with
    | ok a =>
      rw [exec_bind_of_ok he]
      exact htrans _ _ _ hfirst (hf a ⟨s, s', he⟩ s')
    | error e =>
      rw [exec_bind_of_error he]
      exact hfirst

theorem Moves.require (hrefl : ∀ s, R s s) (htrans : ∀ a b c, R a b → R b c → R a c) {c : Bool} {e : ε}
    {f : Unit → Program σ ε β} (hf : c = true → Moves R (f ())) : Moves R (require c e >>= f) := by
  refine Moves.bind htrans ?_ ?_
  · intro s
    cases c
    · exact hrefl s
    · exact hrefl s
  · intro _ ⟨s, s', h⟩
    exact hf (exec_require_ok h).1

theorem Moves.required (hrefl : ∀ s, R s s) (htrans : ∀ a b c, R a b → R b c → R a c) {value : Option α} {e : ε}
    {f : α → Program σ ε β} (hf : ∀ a, value = some a → Moves R (f a)) : Moves R (required value e >>= f) := by
  refine Moves.bind htrans ?_ ?_
  · intro s
    cases value
    · exact hrefl s
    · exact hrefl s
  · intro a ⟨s, s', h⟩
    exact hf a (exec_required_ok h).1

theorem Moves.ite {c : Prop} [Decidable c] {p q : Program σ ε α} (hp : c → Moves R p) (hq : ¬ c → Moves R q) :
    Moves R (if c then p else q) := by
  split
  · rename_i h
    exact hp h
  · rename_i h
    exact hq h

/-- A loop over a list, when every body does. -/
theorem Moves.forM (hrefl : ∀ s, R s s) (htrans : ∀ a b c, R a b → R b c → R a c) {f : α → Program σ ε PUnit} :
    ∀ l : List α, (∀ a ∈ l, Moves R (f a)) → Moves R (l.forM f) := by
  intro l
  induction l with
  | nil =>
    intro _
    exact Moves.pure hrefl _
  | cons a l ih =>
    intro hl
    refine Moves.bind htrans (hl a List.mem_cons_self) fun _ _ => ?_
    exact ih fun b hb => hl b (List.mem_cons_of_mem _ hb)

end Nostalgia.Machine
