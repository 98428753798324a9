/-
  Nostalgia.Machine.Run — finite runs of a deterministic machine.

  `step s e` is the machine's state after event `e`; `stateAt s es k` is the state
  before event number `k` of the run `es` from `s`; `Throughout C` says that every step
  of a run meets `C`. The rules, each an induction over a run done once:
  - `inv_stateAt`: an invariant of the start and of every step holds at every instant;
    `inv_stateAt_of_mem` asks for the steps with the run's events only,
    `inv_run_throughout` for those that meet a condition all steps of the run meet.
  - `rel_stateAt`: a reflexive and transitive relation of every step to the next relates
    every instant to every later one.
  - `holds_throughout_iff`: when a step from a good state stays good exactly if it meets
    a condition, a run from a good state stays good exactly if every step meets it;
    `holds_throughout_iff_with` allows an invariant beside it.
  - `token_origin` and `tokens_distinct`: at most one token is held. Whoever holds it at
    an instant was granted it by a step with no holder, and every step since kept it;
    two steps that each end a holding end two different grants.
-/

import Mathlib

namespace Nostalgia.Machine

variable {σ ε : Type*} (step : σ → ε → σ)

/-- The state after the events `es`. -/
def run (s : σ) (es : List ε) : σ := es.foldl step s

/-- The state before event number `k`. -/
def stateAt (s : σ) (es : List ε) (k : Nat) : σ := run step s (es.take k)

/-! ## Basics -/

@[simp] theorem run_nil (s : σ) : run step s [] = s := rfl
@[simp] theorem run_cons (s : σ) (e : ε) (es : List ε) : run step s (e :: es) = run step (step s e) es := rfl

theorem run_append (s : σ) (a b : List ε) : run step s (a ++ b) = run step (run step s a) b :=
  List.foldl_append

theorem run_replicate (s : σ) (e : ε) (n : Nat) : run step s (List.replicate n e) = (fun s => step s e)^[n] s := by
  induction n generalizing s with
  | zero => rfl
  | succ n ih => rw [List.replicate_succ, run_cons, ih, Function.iterate_succ_apply]

@[simp] theorem stateAt_zero (s : σ) (es : List ε) : stateAt step s es 0 = s := rfl

theorem stateAt_succ (s : σ) {es : List ε} {k : Nat} {e : ε} (he : es[k]? = some e) :
    stateAt step s es (k + 1) = step (stateAt step s es k) e := by
  simp only [stateAt, List.take_add_one, he, Option.toList_some, run_append, run_cons, run_nil]

theorem getElem?_of_lt {es : List ε} {k : Nat} (hk : k < es.length) : ∃ e, es[k]? = some e :=
  ⟨es[k], List.getElem?_eq_getElem hk⟩

theorem lt_of_getElem? {es : List ε} {k : Nat} {e : ε} (he : es[k]? = some e) : k < es.length :=
  (List.getElem?_eq_some_iff.mp he).1

/-- Every step of the run from `s` meets `C` where it happens. -/
def Throughout (C : σ → ε → Prop) : σ → List ε → Prop
  | _, [] => True
  | s, e :: es => C s e ∧ Throughout C (step s e) es

instance Throughout.decidable {C : σ → ε → Prop} [∀ s e, Decidable (C s e)] :
    ∀ (s : σ) (es : List ε), Decidable (Throughout step C s es)
  | _, [] => inferInstanceAs (Decidable True)
  | s, e :: es =>
    @instDecidableAnd (C s e) (Throughout step C (step s e) es) inferInstance (Throughout.decidable (step s e) es)

@[simp] theorem throughout_nil (C : σ → ε → Prop) (s : σ) : Throughout step C s [] := trivial
@[simp] theorem throughout_cons (C : σ → ε → Prop) (s : σ) (e : ε) (es : List ε) :
    Throughout step C s (e :: es) ↔ C s e ∧ Throughout step C (step s e) es := Iff.rfl

theorem throughout_iff (C : σ → ε → Prop) : ∀ (es : List ε) (s : σ),
    Throughout step C s es ↔ ∀ k e, es[k]? = some e → C (stateAt step s es k) e := by
  intro es
  induction es with
  | nil => intro s; simp
  | cons e es ih =>
    intro s
    rw [throughout_cons, ih]
    constructor
    · intro ⟨h0, hrest⟩ k e' he'
      cases k with
      | zero => simp at he'; subst he'; exact h0
      | succ k => exact hrest k e' (by simpa using he')
    · intro hall
      refine ⟨hall 0 e rfl, ?_⟩
      intro k e' he'
      exact hall (k + 1) e' (by simpa using he')

/-! ## Invariants and relations along a run -/

/-- An invariant of the steps with the events of the run. -/
theorem inv_run_of_mem {Inv : σ → Prop} : ∀ (es : List ε) (s : σ), (∀ s, ∀ e ∈ es, Inv s → Inv (step s e)) →
    Inv s → Inv (run step s es) := by
  intro es
  induction es with
  | nil => intro s _ h; exact h
  | cons e es ih =>
    intro s hstep h
    exact ih _ (fun s e' he' => hstep s e' (List.mem_cons_of_mem _ he')) (hstep s e List.mem_cons_self h)

theorem inv_stateAt_of_mem {Inv : σ → Prop} {es : List ε} (hstep : ∀ s, ∀ e ∈ es, Inv s → Inv (step s e)) {s : σ}
    (h : Inv s) (k : Nat) : Inv (stateAt step s es k) :=
  inv_run_of_mem step _ s (fun s e he => hstep s e (List.mem_of_mem_take he)) h

/-- An invariant of the steps that meet `C`. -/
theorem inv_run_throughout {Inv : σ → Prop} {C : σ → ε → Prop} (hstep : ∀ s e, Inv s → C s e → Inv (step s e)) :
    ∀ (es : List ε) (s : σ), Inv s → Throughout step C s es → Inv (run step s es) := by
  intro es
  induction es with
  | nil => intro s h _; exact h
  | cons e es ih => intro s h hrun; exact ih (step s e) (hstep s e h hrun.1) hrun.2

theorem inv_run {Inv : σ → Prop} (hstep : ∀ s e, Inv s → Inv (step s e)) (es : List ε) (s : σ) (h : Inv s) :
    Inv (run step s es) :=
  inv_run_of_mem step es s (fun s e _ => hstep s e) h

theorem inv_stateAt {Inv : σ → Prop} (hstep : ∀ s e, Inv s → Inv (step s e)) {s : σ} (h : Inv s)
    (es : List ε) (k : Nat) : Inv (stateAt step s es k) :=
  inv_run step hstep _ s h

theorem rel_stateAt {R : σ → σ → Prop} (hrefl : ∀ s, R s s) (htrans : ∀ a b c, R a b → R b c → R a c)
    (hstep : ∀ s e, R s (step s e)) (s : σ) (es : List ε) {j k : Nat} (hjk : j ≤ k) :
    R (stateAt step s es j) (stateAt step s es k) := by
  induction k with
  | zero => obtain rfl : j = 0 := by omega
            exact hrefl _
  | succ k ih =>
    rcases Nat.lt_or_ge k j with hlt | hle
    · obtain rfl : j = k + 1 := by omega
      exact hrefl _
    · refine htrans _ _ _ (ih hle) ?_
      by_cases hk : k < es.length
      · obtain ⟨e, he⟩ := getElem?_of_lt hk
        rw [stateAt_succ step s he]
        exact hstep _ e
      · have : es.take (k + 1) = es.take k := by
          rw [List.take_of_length_le (by omega), List.take_of_length_le (by omega)]
        rw [stateAt, stateAt, this]
        exact hrefl _

/-- A step from a good state stays good exactly when it meets `C`: then a run from a
    good state is good at every instant exactly when every step of it meets `C`. -/
theorem holds_throughout_iff {Good : σ → Prop} {C : σ → ε → Prop}
    (hstep : ∀ s e, Good s → (Good (step s e) ↔ C s e)) {s : σ} (h : Good s) (es : List ε) :
    (∀ k ≤ es.length, Good (stateAt step s es k)) ↔ Throughout step C s es := by
  rw [throughout_iff]
  constructor
  · intro hall k e he
    have hk := lt_of_getElem? he
    have hgood := hall k (by omega)
    have hnext := hall (k + 1) (by omega)
    rw [stateAt_succ step s he] at hnext
    exact (hstep _ e hgood).mp hnext
  · intro hall k hk
    induction k with
    | zero => exact h
    | succ k ih =>
      obtain ⟨e, he⟩ : ∃ e, es[k]? = some e := getElem?_of_lt (by omega)
      rw [stateAt_succ step s he]
      exact (hstep _ e (ih (by omega))).mpr (hall k e he)

/-- The same with an invariant `K` that every step meeting `C` keeps. -/
theorem holds_throughout_iff_with {Good K : σ → Prop} {C : σ → ε → Prop}
    (hstep : ∀ s e, K s → Good s → (Good (step s e) ↔ C s e)) (hkeep : ∀ s e, K s → C s e → K (step s e)) {s : σ}
    (hk : K s) (h : Good s) (es : List ε) :
    (∀ k ≤ es.length, Good (stateAt step s es k)) ↔ Throughout step C s es := by
  induction es generalizing s with
  | nil =>
    refine ⟨fun _ => trivial, fun _ k hle => ?_⟩
    obtain rfl : k = 0 := by simpa using hle
    exact h
  | cons e es ih =>
    rw [throughout_cons]
    have hsucc : ∀ k, stateAt step s (e :: es) (k + 1) = stateAt step (step s e) es k := fun _ => rfl
    constructor
    · intro hall
      have hgood : Good (step s e) := hall 1 (by simp)
      have hc := (hstep s e hk h).mp hgood
      refine ⟨hc, (ih (hkeep s e hk hc) hgood).mp fun k hle => ?_⟩
      rw [← hsucc]
      exact hall (k + 1) (by simpa using hle)
    · intro ⟨hc, hrest⟩ k hle
      have hgood := (hstep s e hk h).mpr hc
      cases k with
      | zero => exact h
      | succ k =>
        rw [hsucc]
        exact (ih (hkeep s e hk hc) hgood).mpr hrest k (by simpa using hle)

/-! ## A token with at most one holder -/

section Token

variable {τ : Type*} (held : σ → Option τ) (Grant : σ → ε → τ → Prop) (Keep : σ → ε → τ → τ → Prop)

/-- `j` is the step that granted the token held at instant `k`. -/
structure Origin (s : σ) (es : List ε) (j k : Nat) : Prop where
  before : j < k
  free : held (stateAt step s es j) = none
  granted : ∃ e p, es[j]? = some e ∧ Grant (stateAt step s es j) e p ∧ held (stateAt step s es (j + 1)) = some p
  kept : ∀ m, j < m → m < k → ∃ e a b, es[m]? = some e ∧ held (stateAt step s es m) = some a ∧
    held (stateAt step s es (m + 1)) = some b ∧ Keep (stateAt step s es m) e a b

variable {step held Grant Keep}

theorem token_origin
    (hstep : ∀ s e p', held (step s e) = some p' →
      (held s = none ∧ Grant s e p') ∨ ∃ p, held s = some p ∧ Keep s e p p')
    {s : σ} (h0 : held s = none) (es : List ε) :
    ∀ k, k ≤ es.length → ∀ p, held (stateAt step s es k) = some p →
      ∃ j, Origin step held Grant Keep s es j k := by
  intro k
  induction k with
  | zero => intro _ p hp; rw [stateAt_zero, h0] at hp; cases hp
  | succ k ih =>
    intro hk p' hp'
    obtain ⟨e, he⟩ : ∃ e, es[k]? = some e := getElem?_of_lt (by omega)
    have hp := hp'
    rw [stateAt_succ step s he] at hp
    rcases hstep _ e p' hp with ⟨hfree, hg⟩ | ⟨p, hheld, hkeep⟩
    · exact ⟨k, by omega, hfree, ⟨e, p', he, hg, hp'⟩, fun m h1 h2 => by omega⟩
    · obtain ⟨j, hj⟩ := ih (by omega) p hheld
      refine ⟨j, by have := hj.before; omega, hj.free, hj.granted, fun m h1 h2 => ?_⟩
      rcases Nat.lt_or_ge m k with hm | hm
      · exact hj.kept m h1 hm
      · obtain rfl : m = k := by omega
        exact ⟨e, p, p', he, hheld, hp', hkeep⟩

/-- What every keeping step preserves is the same at every instant from the grant to `k`. -/
theorem Origin.key_along {κ : Type*} {key : τ → κ} (hkey : ∀ s e a b, Keep s e a b → key b = key a) {s : σ}
    {es : List ε} {j k : Nat} (h : Origin step held Grant Keep s es j k) {p0 : τ}
    (hp0 : held (stateAt step s es (j + 1)) = some p0) :
    ∀ m, j < m → m ≤ k → ∀ q, held (stateAt step s es m) = some q → key q = key p0 := by
  intro m
  induction m with
  | zero => intro h1; omega
  | succ m ih =>
    intro h1 h2 q hq
    rcases Nat.lt_or_ge j m with hm | hm
    · obtain ⟨e, a, b, _, ha, hb, hkeep⟩ := h.kept m hm (by omega)
      rw [hb] at hq; cases hq
      rw [hkey _ _ _ _ hkeep]
      exact ih hm (by omega) a ha
    · obtain rfl : m = j := by omega
      rw [hp0] at hq; cases hq; rfl

theorem Origin.key_eq {κ : Type*} {key : τ → κ} (hkey : ∀ s e a b, Keep s e a b → key b = key a) {s : σ}
    {es : List ε} {j k : Nat} (h : Origin step held Grant Keep s es j k) {p0 p : τ}
    (hp0 : held (stateAt step s es (j + 1)) = some p0) (hp : held (stateAt step s es k) = some p) :
    key p = key p0 :=
  h.key_along hkey hp0 k h.before (Nat.le_refl _) p hp

theorem Origin.held_between {s : σ} {es : List ε} {j k : Nat} (h : Origin step held Grant Keep s es j k)
    {m : Nat} (h1 : j < m) (h2 : m < k) : held (stateAt step s es m) ≠ none := by
  obtain ⟨e, a, b, _, ha, _⟩ := h.kept m h1 h2
  rw [ha]; simp

/-- Two steps that each end a holding end two different grants. -/
theorem tokens_distinct {s : σ} {es : List ε} {j j' k k' : Nat} (h : Origin step held Grant Keep s es j k)
    (h' : Origin step held Grant Keep s es j' k') (hend : held (stateAt step s es (k + 1)) = none)
    (hheld' : held (stateAt step s es k') ≠ none) (hlt : k < k') : j ≠ j' := by
  rintro rfl
  have hjk := h.before
  rcases Nat.lt_or_ge (k + 1) k' with hlt' | hge
  · exact h'.held_between (by omega) hlt' hend
  · obtain rfl : k' = k + 1 := by omega
    exact hheld' hend

end Token

end Nostalgia.Machine
