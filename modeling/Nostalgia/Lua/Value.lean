/-
  Nostalgia.Lua.Value — the values of Lua 5.0 as a saved-variables file holds them.

  A value read from a file is a tree: a table's fields are values, and no two tables share
  one. A `Table` is an association list of which the first entry for a key counts; a
  field that is not there is nil, and `set t k .nil` takes the field away. `Number` has
  the infinities and NaN, whose comparisons are all false. `tonumber` converts strings,
  and `getn` believes a numeric field "n" before it counts.
  - `get_set_self`, `get_set_ne`: reading back a write.
  - `set_eq_self`, `set_nil_eq_self`: a write that changes nothing.
  - `count_spec`: the loop of `getn` stops at the first missing entry.
  - `get_updateAll`, `updateAll_eq_self`: a loop that rewrites the entries at some keys.
-/

import Nostalgia.Lua.Text

namespace Nostalgia.Lua

/-! ## Numbers -/

inductive Number where
  | finite (x : ℚ)
  | posInf
  | negInf
  | nan
  deriving DecidableEq

/-- `a < b`. -/
def Number.lt : Number → Number → Bool
  | .finite a, .finite b => decide (a < b)
  | .negInf, .finite _ => true
  | .negInf, .posInf => true
  | .finite _, .posInf => true
  | _, _ => false

/-- `x < lo or x > hi`; false for NaN. -/
def Number.outside (lo hi : ℚ) (x : Number) : Bool := x.lt (.finite lo) || (Number.finite hi).lt x

@[simp] theorem Number.outside_finite (lo hi x : ℚ) : (Number.finite x).outside lo hi = true ↔ x < lo ∨ hi < x := by
  simp [Number.outside, Number.lt]

@[simp] theorem Number.outside_nan (lo hi : ℚ) : Number.nan.outside lo hi = false := rfl

/-- A number that is not outside is NaN or between the bounds. -/
theorem Number.inside_cases {lo hi : ℚ} {x : Number} (h : x.outside lo hi = false) :
    x = .nan ∨ ∃ q, x = .finite q ∧ lo ≤ q ∧ q ≤ hi := by
  cases x with
  | finite q =>
    refine Or.inr ⟨q, rfl, ?_⟩
    have hno : ¬ (q < lo ∨ hi < q) := fun hout => by
      rw [(Number.outside_finite lo hi q).mpr hout] at h
      cases h
    rw [not_or, not_lt, not_lt] at hno
    exact hno
  | posInf => simp [Number.outside, Number.lt] at h
  | negInf => simp [Number.outside, Number.lt] at h
  | nan => exact Or.inl rfl

/-! ## Values -/

inductive Key where
  | boolean (b : Bool)
  | number (x : Number)
  | string (s : String)
  deriving DecidableEq

/-- `other` stands for functions, userdata and threads. -/
inductive Value where
  | nil
  | boolean (b : Bool)
  | number (x : Number)
  | string (s : String)
  | table (entries : List (Key × Value))
  | other (n : Nat)

abbrev Table := List (Key × Value)

/-- `t.name`. -/
abbrev Key.field (name : String) : Key := .string name

/-- `t[i]` at an integer index. -/
abbrev Key.index (i : Nat) : Key := .number (.finite i)

namespace Value

def isTable : Value → Bool
  | table _ => true
  | _ => false

def isString : Value → Bool
  | string _ => true
  | _ => false

/-- Everything but nil and false. -/
def truthy : Value → Bool
  | nil => false
  | boolean false => false
  | _ => true

/-- `tonumber(v)`. -/
def tonumber : Value → Option Number
  | number x => some x
  | string s => (Lua.tonumber s).map .finite
  | _ => none

/-- The fields of a table; another value has none. -/
def fields : Value → Table
  | table t => t
  | _ => []

@[simp] theorem fields_table (t : Table) : (table t).fields = t := rfl

end Value

theorem Value.isTable_iff {v : Value} : v.isTable = true ↔ v = .table v.fields := by
  cases v <;> simp [Value.isTable, Value.fields]

/-! ## Fields -/

/-- `t[k]`. -/
def Table.get : Table → Key → Value
  | [], _ => .nil
  | (k', v) :: t, k => if k' = k then v else Table.get t k

/-- `t[k] = v` for a `v` that is not nil. -/
def Table.put : Table → Key → Value → Table
  | [], k, v => [(k, v)]
  | (k', v') :: t, k, v => if k' = k then (k, v) :: t else (k', v') :: Table.put t k v

def Table.erase (t : Table) (k : Key) : Table := t.filter fun e => e.1 ≠ k

/-- `t[k] = v`. -/
def Table.set (t : Table) (k : Key) : Value → Table
  | .nil => Table.erase t k
  | v => Table.put t k v

/-- `if not test(t[k]) then t[k] = v`. -/
def Table.ensure (test : Value → Bool) (k : Key) (v : Value) (t : Table) : Table :=
  if test (Table.get t k) then t else Table.set t k v

/-- There is no entry for the key. -/
def Table.Absent (t : Table) (k : Key) : Prop := ∀ e ∈ t, e.1 ≠ k

namespace Table

variable {t : Table} {k k' : Key} {v : Value}

theorem set_of_ne (h : v ≠ .nil) : Table.set t k v = Table.put t k v := by
  cases v with
  | nil => exact absurd rfl h
  | _ => rfl

theorem get_absent (h : Table.Absent t k) : Table.get t k = .nil := by
  induction t with
  | nil => rfl
  | cons e t ih =>
    have hne := h e (List.mem_cons_self ..)
    rw [Table.get, if_neg hne]
    exact ih fun e' he' => h e' (List.mem_cons_of_mem _ he')

theorem absent_erase : Table.Absent (Table.erase t k) k := by
  intro e he
  simpa using (List.mem_filter.mp he).2

theorem absent_of_erase (h : Table.Absent t k) : Table.Absent (Table.erase t k') k :=
  fun e he => h e (List.mem_of_mem_filter he)

theorem absent_put (h : Table.Absent t k) (hne : k' ≠ k) : Table.Absent (Table.put t k' v) k := by
  induction t with
  | nil =>
    intro e he
    simp only [Table.put, List.mem_singleton] at he
    rw [he]
    exact hne
  | cons e t ih =>
    have hhead := h e (List.mem_cons_self ..)
    have htail : Table.Absent t k := fun e' he' => h e' (List.mem_cons_of_mem _ he')
    intro e' he'
    rw [Table.put] at he'
    split at he'
    · rcases List.mem_cons.mp he' with rfl | hin
      · exact hne
      · exact htail e' hin
    · rcases List.mem_cons.mp he' with rfl | hin
      · exact hhead
      · exact ih htail e' hin

theorem get_put_self : Table.get (Table.put t k v) k = v := by
  induction t with
  | nil => simp [Table.put, Table.get]
  | cons e t ih =>
    rw [Table.put]
    split
    · rw [Table.get, if_pos rfl]
    · rename_i hne
      rw [Table.get, if_neg hne]
      exact ih

theorem get_put_ne (h : k' ≠ k) : Table.get (Table.put t k v) k' = Table.get t k' := by
  induction t with
  | nil => simp [Table.put, Table.get, h.symm]
  | cons e t ih =>
    rw [Table.put]
    split
    · rename_i heq
      rw [Table.get, if_neg h.symm, Table.get, if_neg (heq ▸ h.symm)]
    · rw [Table.get, Table.get, ih]

theorem get_erase_ne (h : k' ≠ k) : Table.get (Table.erase t k) k' = Table.get t k' := by
  induction t with
  | nil => rfl
  | cons e t ih =>
    by_cases hk : e.1 = k
    · have hdrop : Table.erase (e :: t) k = Table.erase t k := by simp [Table.erase, hk]
      rw [hdrop, ih, Table.get, if_neg (hk ▸ h.symm)]
    · have hkeep : Table.erase (e :: t) k = e :: Table.erase t k := by simp [Table.erase, hk]
      rw [hkeep, Table.get, Table.get, ih]

@[simp] theorem get_set_self (t : Table) (k : Key) (v : Value) : Table.get (Table.set t k v) k = v := by
  cases v with
  | nil => exact get_absent absent_erase
  | _ => exact get_put_self

theorem get_set_ne (h : k' ≠ k) : Table.get (Table.set t k v) k' = Table.get t k' := by
  cases v with
  | nil => exact get_erase_ne h
  | _ => exact get_put_ne h

theorem absent_set_nil (t : Table) (k : Key) : Table.Absent (Table.set t k .nil) k := absent_erase

theorem Absent.set (h : Table.Absent t k) (hne : k' ≠ k) : Table.Absent (Table.set t k' v) k := by
  cases v with
  | nil => exact absent_of_erase h
  | _ => exact absent_put h hne

/-- Writing the value that is there changes nothing. -/
theorem set_eq_self (h : Table.get t k = v) (hv : v ≠ .nil) : Table.set t k v = t := by
  rw [set_of_ne hv]
  induction t with
  | nil =>
    rw [Table.get] at h
    exact absurd h.symm hv
  | cons e t ih =>
    rw [Table.get] at h
    rw [Table.put]
    split at h
    · rename_i heq
      rw [if_pos heq, ← heq, ← h]
    · rename_i hne
      rw [if_neg hne, ih h]

theorem set_nil_eq_self (h : Table.Absent t k) : Table.set t k .nil = t :=
  List.filter_eq_self.mpr fun e he => by simpa using h e he

@[simp] theorem get_ensure_self (test : Value → Bool) (k : Key) (v : Value) (t : Table) :
    Table.get (Table.ensure test k v t) k = if test (Table.get t k) then Table.get t k else v := by
  unfold Table.ensure
  split
  · rfl
  · exact get_set_self t k v

theorem get_ensure_ne {test : Value → Bool} (h : k' ≠ k) : Table.get (Table.ensure test k v t) k' = Table.get t k' := by
  unfold Table.ensure
  split
  · rfl
  · exact get_set_ne h

theorem ensure_eq_self {test : Value → Bool} (h : test (Table.get t k) = true) : Table.ensure test k v t = t := if_pos h

/-! ## Rewriting the entries at some keys -/

/-- `for k in ks: t[k] = f(t[k])`. -/
def updateAll (f : Value → Value) (ks : List Key) (t : Table) : Table :=
  ks.foldl (fun t k => Table.set t k (f (Table.get t k))) t

theorem get_updateAll (f : Value → Value) : ∀ {ks : List Key} (t : Table), ks.Nodup → ∀ k,
    Table.get (Table.updateAll f ks t) k = if k ∈ ks then f (Table.get t k) else Table.get t k := by
  intro ks
  induction ks with
  | nil => intro t _ k; rfl
  | cons k₀ ks ih =>
    intro t hnd k
    obtain ⟨hni, hnd⟩ := List.nodup_cons.mp hnd
    have hstep := ih (Table.set t k₀ (f (Table.get t k₀))) hnd k
    have hunfold : Table.updateAll f (k₀ :: ks) t = Table.updateAll f ks (Table.set t k₀ (f (Table.get t k₀))) := rfl
    rw [hunfold, hstep]
    by_cases hk : k = k₀
    · subst hk
      rw [if_neg hni, if_pos (List.mem_cons_self ..), get_set_self]
    · simp only [get_set_ne hk, List.mem_cons, hk, false_or]

theorem updateAll_eq_self {f : Value → Value} {ks : List Key}
    (h : ∀ k ∈ ks, f (Table.get t k) = Table.get t k ∧ Table.get t k ≠ .nil) : Table.updateAll f ks t = t := by
  induction ks with
  | nil => rfl
  | cons k ks ih =>
    obtain ⟨hf, hne⟩ := h k (List.mem_cons_self ..)
    have hunfold : Table.updateAll f (k :: ks) t = Table.updateAll f ks (Table.set t k (f (Table.get t k))) := rfl
    rw [hunfold, hf, set_eq_self rfl hne]
    exact ih fun k' hk' => h k' (List.mem_cons_of_mem _ hk')

/-! ## Counting -/

/-- The loop of `luaL_getn` from `n + 1` on, for at most `fuel` entries. -/
def countFrom (t : Table) : Nat → Nat → Nat
  | 0, n => n
  | fuel + 1, n =>
    match Table.get t (.index (n + 1)) with
    | .nil => n
    | _ => countFrom t fuel (n + 1)

/-- The entries before the first nil; a table has no more entries than its list. -/
def count (t : Table) : Nat := countFrom t t.length 0

/-- Field "n" as a C int, if it converts to one that is not negative. -/
def fieldN (t : Table) : Option Nat :=
  match (Table.get t (.field "n")).tonumber with
  | some (.finite x) =>
    let n := x.num.tdiv x.den
    if 0 ≤ n ∧ n < 2 ^ 31 then some n.toNat else none
  | _ => none

/-- `table.getn(t)`. -/
def getn (t : Table) : Nat := (fieldN t).getD (count t)

theorem countFrom_spec (t : Table) : ∀ fuel n, n ≤ countFrom t fuel n ∧ countFrom t fuel n ≤ n + fuel ∧
    (∀ i, n < i → i ≤ countFrom t fuel n → Table.get t (.index i) ≠ .nil) ∧
    (countFrom t fuel n < n + fuel → Table.get t (.index (countFrom t fuel n + 1)) = .nil) := by
  intro fuel
  induction fuel with
  | zero => intro n; exact ⟨Nat.le_refl _, Nat.le_refl _, fun i h1 h2 => by simp only [countFrom] at h2; omega,
      fun h => by simp only [countFrom] at h; omega⟩
  | succ fuel ih =>
    intro n
    rw [countFrom]
    split
    · rename_i hnil
      exact ⟨Nat.le_refl _, by omega, fun i h1 h2 => by omega, fun _ => hnil⟩
    · rename_i hsome
      obtain ⟨hle, hmax, hentries, hstop⟩ := ih (n + 1)
      refine ⟨by omega, by omega, fun i h1 h2 => ?_, fun h => hstop (by omega)⟩
      rcases Nat.lt_or_ge (n + 1) i with hlt | hge
      · exact hentries i hlt h2
      · obtain rfl : i = n + 1 := by omega
        exact hsome

theorem mem_of_get_ne (h : Table.get t k ≠ .nil) : k ∈ t.map Prod.fst := by
  by_contra hno
  refine h (get_absent fun e he heq => hno ?_)
  exact List.mem_map.mpr ⟨e, he, heq⟩

/-- `count` entries are there and the next one is not. -/
theorem count_spec (t : Table) : (∀ i, 1 ≤ i → i ≤ count t → Table.get t (.index i) ≠ .nil) ∧
    Table.get t (.index (count t + 1)) = .nil := by
  obtain ⟨_, hmax, hentries, hstop⟩ := countFrom_spec t t.length 0
  refine ⟨fun i h1 h2 => hentries i h1 h2, ?_⟩
  by_contra hmore
  -- otherwise more keys than the list has entries
  have hfull : count t = t.length := by
    by_contra hne
    exact hmore (hstop (by unfold count at hne; omega))
  have hsub : (List.range (t.length + 1)).map (fun i => Key.index (i + 1)) ⊆ t.map Prod.fst := by
    intro k hk
    obtain ⟨i, hi, rfl⟩ := List.mem_map.mp hk
    have hlt := List.mem_range.mp hi
    refine mem_of_get_ne ?_
    rcases Nat.lt_or_ge i t.length with hin | hout
    · exact hentries (i + 1) (by omega) (by unfold count at hfull; omega)
    · obtain rfl : i = t.length := by omega
      rwa [hfull] at hmore
  have hnd : ((List.range (t.length + 1)).map fun i => Key.index (i + 1)).Nodup := by
    refine List.Nodup.map (fun a b hab => ?_) List.nodup_range
    simpa using hab
  have hlen := (hnd.subperm hsub).length_le
  simp at hlen

theorem count_eq {n : Nat} (hentries : ∀ i, 1 ≤ i → i ≤ n → Table.get t (.index i) ≠ .nil)
    (hend : Table.get t (.index (n + 1)) = .nil) : count t = n := by
  obtain ⟨hcount, hstop⟩ := count_spec t
  rcases Nat.lt_trichotomy (count t) n with hlt | heq | hgt
  · exact absurd hstop (hentries _ (by omega) (by omega))
  · exact heq
  · exact absurd hend (hcount _ (by omega) (by omega))

end Table

end Nostalgia.Lua
