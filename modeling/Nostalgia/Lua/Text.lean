/-
  Nostalgia.Lua.Text — the string functions of Lua 5.0 the AddOns use.

  `tonumber` reads a decimal numeral as `strtod` does: blanks around it, an optional
  sign, digits with an optional fraction, an optional exponent. `tostring` writes a
  number as `%.14g` does. `gsubTrailingGroup` is `string.gsub(s, "%s*%b()$", "")`:
  a balanced group in parentheses at the end of the text, with the blanks before it,
  is removed. `findTrailingGroup` is the capture of `string.find(s, "%((.-)%)%s*$")`: from
  the first opening parenthesis to a closing one with blanks only behind it. Numbers are
  exact rationals.

  On a text `n(r)`: the first pattern gives back `n` exactly when `r` is balanced and `n`
  does not end in a blank (`gsubTrailingGroup_eq_iff`), the second `r` exactly when `n` has
  no opening parenthesis (`findTrailingGroup_append`).
-/

import Mathlib

namespace Nostalgia.Lua

/-- `%s`. -/
def isSpace (c : Char) : Bool := c == ' ' || c == '\t' || c == '\n' || c == '\r' || c.toNat == 11 || c.toNat == 12

def isDigit (c : Char) : Bool := '0' ≤ c && c ≤ '9'

/-! ## Numbers -/

def digitsVal (cs : List Char) : Nat := cs.foldl (fun n c => 10 * n + (c.toNat - '0'.toNat)) 0

/-- A leading sign: whether it is a minus, and the rest. -/
def takeSign : List Char → Bool × List Char
  | '-' :: cs => (true, cs)
  | '+' :: cs => (false, cs)
  | cs => (false, cs)

def takeFraction : List Char → List Char × List Char
  | '.' :: cs => (cs.takeWhile isDigit, cs.dropWhile isDigit)
  | cs => ([], cs)

/-- The exponent part; without digits behind it the letter is not part of the numeral. -/
def takeExponent (cs : List Char) : Int × List Char :=
  match cs with
  | c :: rest =>
    if c == 'e' || c == 'E' then
      let (neg, ds) := takeSign rest
      if (ds.takeWhile isDigit).isEmpty then (0, cs)
      else ((if neg then -1 else 1) * (digitsVal (ds.takeWhile isDigit) : Int), ds.dropWhile isDigit)
    else (0, cs)
  | [] => (0, [])

/-- `tonumber` of a string. -/
def tonumber (s : String) : Option ℚ :=
  let (neg, cs) := takeSign (s.toList.dropWhile isSpace)
  let whole := cs.takeWhile isDigit
  let (frac, cs) := takeFraction (cs.dropWhile isDigit)
  if whole.isEmpty && frac.isEmpty then none
  else
    let (ex, cs) := takeExponent cs
    if cs.all isSpace then
      some ((if neg then -1 else 1) * (digitsVal (whole ++ frac) : ℚ) * (10 : ℚ) ^ (ex - frac.length))
    else none

/-- The decimal exponent of a positive number: `10 ^ e ≤ x < 10 ^ (e + 1)`. -/
def decimalExponent (x : ℚ) : Int :=
  if 1 ≤ x then (Nat.log 10 x.floor.toNat : Int) else -(Nat.clog 10 (x⁻¹).ceil.toNat : Int)

/-- The 14 significant digits of a positive number and its decimal exponent. -/
def significant (x : ℚ) : Nat × Int :=
  let e := decimalExponent x
  let m := (x * (10 : ℚ) ^ (13 - e) + 1 / 2).floor.toNat
  if m = 10 ^ 14 then (10 ^ 13, e + 1) else (m, e)

def dropTrailingZeros (cs : List Char) : List Char := (cs.reverse.dropWhile (· == '0')).reverse

def withFraction (whole frac : List Char) : List Char :=
  if frac.isEmpty then whole else whole ++ '.' :: frac

/-- `%.14g` of a positive number. -/
def formatPositive (x : ℚ) : List Char :=
  let (m, e) := significant x
  let ds := (toString m).toList
  if e < -4 ∨ 14 ≤ e then
    let ex := (toString e.natAbs).toList
    withFraction (ds.take 1) (dropTrailingZeros (ds.drop 1)) ++
      'e' :: (if e < 0 then '-' else '+') :: (if ex.length < 2 then '0' :: ex else ex)
  else if 0 ≤ e then withFraction (ds.take (e.toNat + 1)) (dropTrailingZeros (ds.drop (e.toNat + 1)))
  else withFraction ['0'] (List.replicate (-e - 1).toNat '0' ++ dropTrailingZeros ds)

/-- `tostring` of a number. -/
def tostring (x : ℚ) : String :=
  String.ofList (if x = 0 then ['0'] else if 0 < x then formatPositive x else '-' :: formatPositive (-x))

/-! ## Patterns -/

/-- `%b()` behind its opening parenthesis: what follows the matching close. -/
def closeGroup : Nat → List Char → Option (List Char)
  | _, [] => none
  | depth, c :: cs =>
    if c == ')' then (match depth with
      | 0 => some cs
      | d + 1 => closeGroup d cs)
    else if c == '(' then closeGroup (depth + 1) cs
    else closeGroup depth cs

/-- `%s*%b()$` matches from here to the end. -/
def isTrailingGroup (cs : List Char) : Bool :=
  match cs.dropWhile isSpace with
  | '(' :: rest => closeGroup 0 rest == some []
  | _ => false

def gsubTrailingGroupChars : List Char → List Char
  | [] => []
  | c :: cs => if isTrailingGroup (c :: cs) then [] else c :: gsubTrailingGroupChars cs

/-- `string.gsub(s, "%s*%b()$", "")`. -/
def gsubTrailingGroup (s : String) : String := String.ofList (gsubTrailingGroupChars s.toList)

/-- `(.-)%)%s*$` behind an opening parenthesis: the shortest capture. -/
def lazyGroup : List Char → Option (List Char)
  | [] => none
  | c :: cs => if c == ')' && cs.all isSpace then some [] else (lazyGroup cs).map (c :: ·)

def findTrailingGroupChars : List Char → Option (List Char)
  | [] => none
  | c :: cs => if c == '(' then (lazyGroup cs).or (findTrailingGroupChars cs) else findTrailingGroupChars cs

/-- The capture of `string.find(s, "%((.-)%)%s*$")`. -/
def findTrailingGroup (s : String) : Option String := (findTrailingGroupChars s.toList).map String.ofList

/-! ## A group at the end -/

/-- Its parentheses match. -/
def Balanced (cs : List Char) : Prop := closeGroup 0 (cs ++ [')']) = some []

instance (cs : List Char) : Decidable (Balanced cs) := inferInstanceAs (Decidable (_ = _))

@[simp] theorem closeGroup_nil (k : Nat) : closeGroup k [] = none := rfl
@[simp] theorem closeGroup_close_zero (cs : List Char) : closeGroup 0 (')' :: cs) = some cs := rfl
@[simp] theorem closeGroup_close_succ (k : Nat) (cs : List Char) : closeGroup (k + 1) (')' :: cs) = closeGroup k cs := rfl
@[simp] theorem closeGroup_open (k : Nat) (cs : List Char) : closeGroup k ('(' :: cs) = closeGroup (k + 1) cs := by
  simp [closeGroup]

theorem closeGroup_other {c : Char} (h1 : c ≠ ')') (h2 : c ≠ '(') (k : Nat) (cs : List Char) :
    closeGroup k (c :: cs) = closeGroup k cs := by simp [closeGroup, h1, h2]

/-- A text that ends by closing `k + 1` groups closes them wherever it stands. -/
theorem closeGroup_append : ∀ (cs : List Char) (k : Nat), closeGroup k (cs ++ [')']) = some [] →
    ∀ (d : Nat) (rest : List Char), closeGroup (k + 1 + d) (cs ++ ')' :: rest) = closeGroup d rest := by
  intro cs
  induction cs with
  | nil =>
    intro k h d rest
    cases k with
    | zero => rw [Nat.zero_add, Nat.add_comm]; rfl
    | succ k => cases h
  | cons c cs ih =>
    intro k h d rest
    rw [List.cons_append] at h ⊢
    by_cases hclose : c = ')'
    · subst hclose
      cases k with
      | zero => simp at h
      | succ k =>
        rw [closeGroup_close_succ] at h
        rw [show k + 1 + 1 + d = (k + 1 + d) + 1 by omega, closeGroup_close_succ]
        exact ih k h d rest
    · by_cases hopen : c = '('
      · subst hopen
        rw [closeGroup_open] at h ⊢
        rw [show k + 1 + d + 1 = k + 1 + 1 + d by omega]
        exact ih (k + 1) h d rest
      · rw [closeGroup_other hclose hopen] at h ⊢
        exact ih k h d rest

/-- A balanced group at the end closes no group opened before it. -/
theorem closeGroup_ne_nil {r : List Char} (h : Balanced r) : ∀ (cs : List Char) (k : Nat),
    closeGroup k (cs ++ '(' :: (r ++ [')'])) ≠ some [] := by
  intro cs
  induction cs with
  | nil =>
    intro k
    have happ := closeGroup_append r 0 h k []
    rw [Nat.zero_add, Nat.add_comm] at happ
    rw [List.nil_append, closeGroup_open, happ, closeGroup_nil]
    simp
  | cons c cs ih =>
    intro k
    rw [List.cons_append]
    by_cases hclose : c = ')'
    · subst hclose
      cases k with
      | zero => simp
      | succ k => exact ih k
    · by_cases hopen : c = '('
      · subst hopen
        rw [closeGroup_open]
        exact ih (k + 1)
      · rw [closeGroup_other hclose hopen]
        exact ih k

/-- The text does not end in a blank. -/
def NoBlankEnd (cs : List Char) : Prop := ∀ c, cs.getLast? = some c → isSpace c = false

instance (cs : List Char) : Decidable (NoBlankEnd cs) :=
  inferInstanceAs (Decidable (∀ c ∈ cs.getLast?, isSpace c = false))

theorem noBlankEnd_cons (c : Char) (cs : List Char) :
    NoBlankEnd (c :: cs) ↔ NoBlankEnd cs ∧ (cs = [] → isSpace c = false) := by
  cases cs with
  | nil => simp [NoBlankEnd]
  | cons d ds => simp [NoBlankEnd, List.getLast?_cons_cons]

/-- A text that is not all blanks keeps its end when its leading blanks go. -/
theorem dropWhile_append {n : List Char} (h : NoBlankEnd n) (hne : n ≠ []) (rest : List Char) :
    (n ++ rest).dropWhile isSpace = n.dropWhile isSpace ++ rest ∧ n.dropWhile isSpace ≠ [] := by
  induction n with
  | nil => exact absurd rfl hne
  | cons c cs ih =>
    obtain ⟨hcs, hc⟩ := (noBlankEnd_cons c cs).mp h
    by_cases hblank : isSpace c = true
    · have hne' : cs ≠ [] := by
        rintro rfl
        rw [hc rfl] at hblank
        cases hblank
      rw [List.cons_append, List.dropWhile_cons_of_pos hblank, List.dropWhile_cons_of_pos hblank]
      exact ih hcs hne'
    · rw [List.cons_append, List.dropWhile_cons_of_neg hblank, List.dropWhile_cons_of_neg hblank]
      simp

theorem isTrailingGroup_open (cs : List Char) : isTrailingGroup ('(' :: cs) = (closeGroup 0 cs == some []) := rfl

/-- Before a balanced group at the end no group at the end begins. -/
theorem isTrailingGroup_append {n r : List Char} (hn : NoBlankEnd n) (hne : n ≠ []) (hr : Balanced r) :
    isTrailingGroup (n ++ '(' :: (r ++ [')'])) = false := by
  obtain ⟨hdrop, hne'⟩ := dropWhile_append hn hne ('(' :: (r ++ [')']))
  unfold isTrailingGroup
  rw [hdrop]
  cases hd : n.dropWhile isSpace with
  | nil => exact absurd hd hne'
  | cons c cs =>
    rw [List.cons_append]
    by_cases hopen : c = '('
    · subst hopen
      simpa using closeGroup_ne_nil hr cs 0
    · split
      · rename_i heq
        cases heq
        exact absurd rfl hopen
      · rfl

/-- The first pattern takes `(r)` off `n(r)` exactly when `r` is balanced and `n` does not
    end in a blank. -/
theorem gsubTrailingGroupChars_eq_iff (r : List Char) : ∀ n : List Char,
    gsubTrailingGroupChars (n ++ '(' :: (r ++ [')'])) = n ↔ Balanced r ∧ NoBlankEnd n := by
  intro n
  induction n with
  | nil =>
    have hend : NoBlankEnd [] := by simp [NoBlankEnd]
    rw [List.nil_append, gsubTrailingGroupChars, isTrailingGroup_open]
    by_cases hr : Balanced r
    · rw [if_pos (by simpa [Balanced] using hr)]
      exact ⟨fun _ => ⟨hr, hend⟩, fun _ => rfl⟩
    · rw [if_neg (by simpa [Balanced] using hr)]
      simp [hr]
  | cons c cs ih =>
    rw [List.cons_append, gsubTrailingGroupChars, ← List.cons_append]
    constructor
    · intro h
      split at h
      · cases h
      · rename_i htrail
        obtain ⟨hr, hcs⟩ := ih.mp (List.cons.inj h).2
        refine ⟨hr, (noBlankEnd_cons c cs).mpr ⟨hcs, ?_⟩⟩
        rintro rfl
        -- one blank before the group would have gone with it
        by_contra hblank
        rw [Bool.not_eq_false] at hblank
        have hgroup : isTrailingGroup ([c] ++ '(' :: (r ++ [')'])) = true := by
          unfold isTrailingGroup
          rw [List.singleton_append, List.dropWhile_cons_of_pos hblank,
            List.dropWhile_cons_of_neg (by decide)]
          simpa [Balanced] using hr
        exact htrail hgroup
    · rintro ⟨hr, hn⟩
      rw [if_neg (by rw [isTrailingGroup_append hn (by simp) hr]; simp)]
      rw [ih.mpr ⟨hr, ((noBlankEnd_cons c cs).mp hn).1⟩]

theorem gsubTrailingGroup_eq_iff (n r : String) :
    gsubTrailingGroup (n ++ "(" ++ r ++ ")") = n ↔ Balanced r.toList ∧ NoBlankEnd n.toList := by
  rw [← gsubTrailingGroupChars_eq_iff, gsubTrailingGroup, ← String.toList_inj, String.toList_ofList]
  simp

/-- The shortest capture behind an opening parenthesis runs to the end of the text. -/
theorem lazyGroup_append (cs : List Char) : lazyGroup (cs ++ [')']) = some cs := by
  induction cs with
  | nil => rfl
  | cons c cs ih =>
    have hend : (cs ++ [')']).all isSpace = false := by
      rw [List.all_append]
      simp [isSpace]
    rw [List.cons_append, lazyGroup, hend, Bool.and_false, if_neg (by simp), ih]
    rfl

/-- The second pattern captures from the first opening parenthesis on. -/
theorem findTrailingGroupChars_append (r : List Char) : ∀ n : List Char,
    findTrailingGroupChars (n ++ '(' :: (r ++ [')'])) =
      some (if '(' ∈ n then (n.dropWhile (· != '(')).tail ++ '(' :: r else r) := by
  intro n
  induction n with
  | nil =>
    rw [List.nil_append, findTrailingGroupChars, if_pos (by rfl), lazyGroup_append]
    simp
  | cons c cs ih =>
    rw [List.cons_append, findTrailingGroupChars]
    by_cases hopen : c = '('
    · subst hopen
      have happ : cs ++ '(' :: (r ++ [')']) = (cs ++ '(' :: r) ++ [')'] := by simp
      rw [if_pos (by rfl), happ, lazyGroup_append]
      simp
    · rw [if_neg (by simpa using hopen), ih]
      simp [hopen, Ne.symm hopen]

/-- The text behind its first opening parenthesis. -/
def afterOpen (n : String) : String := String.ofList (n.toList.dropWhile (· != '(')).tail

theorem findTrailingGroup_append (n r : String) :
    findTrailingGroup (n ++ "(" ++ r ++ ")") = some (if '(' ∈ n.toList then afterOpen n ++ "(" ++ r else r) := by
  have hlist : (n ++ "(" ++ r ++ ")").toList = n.toList ++ '(' :: (r.toList ++ [')']) := by simp
  rw [findTrailingGroup, hlist, findTrailingGroupChars_append, Option.map_some, Option.some.injEq]
  split
  · rw [← String.toList_inj, String.toList_ofList]
    simp [afterOpen]
  · rw [String.ofList_toList]

example : tonumber " 2.5 " = some (5 / 2) := by decide +kernel
example : tonumber "1e" = none := by decide +kernel
example : gsubTrailingGroup "Faerie Fire (Feral)" = "Faerie Fire" := by decide +kernel

end Nostalgia.Lua
