/-
  Nostalgia.Controller.NamedSpells — which entry of the spell book a name or a cast name
  finds (DinoController.lua).

  `FindSpellBookIndex` keeps one best index while it scans the book: an entry with the
  name replaces it, and so does a later one with the icon alone. `ResolveNamedSpell` takes
  the name and the rank out of a cast name with two patterns and looks them up without an
  icon; DinoMacroManager builds the cast name of a step as `name(rank)`.

  - `prefersName_iff`: the lookup prefers name and rank over the icon exactly when an
    exact entry exists, or no entry has the name, or none behind the last one of that name
    has the icon.
  - `decodes_iff`: a cast name leads back to its entry exactly when the name does not end
    in a blank, the rank is balanced, and the name has no opening parenthesis or its last
    entry has the rank.
  - `icon_overrides_name`, `cast_name_changes_rank`: the failing books.
-/

import Nostalgia.Controller.GroundSpells
import Nostalgia.MacroManager.Manager

namespace Nostalgia.Controller

open Nostalgia.Lua
open Nostalgia.MacroManager (BookType BOOKTYPE)

def resolveNamedSpell (w : GameClient) (spellName : String) : Option Nat :=
  findSpellBookIndex w (some (gsubTrailingGroup spellName)) (findTrailingGroup spellName) none

/-! ## Name and rank before the icon -/

/-- The entry has the wanted name. -/
def hasName (w : GameClient) (spellName : Option String) (i : Nat) : Bool :=
  spellName.isSome && (w.getSpellName i BOOKTYPE).map Prod.fst == spellName

/-- The entry has the wanted name and the wanted, non-empty rank. -/
def hasNameAndRank (w : GameClient) (spellName wantedRank : Option String) (i : Nat) : Bool :=
  hasName w spellName i && rankMatches w wantedRank i

/-- The lookup prefers name and rank, then the name, over the icon. -/
structure PrefersName (w : GameClient) (spellName wantedRank wantedTexture : Option String) : Prop where
  both : (∃ i ∈ bookIndices w, hasNameAndRank w spellName wantedRank i = true) →
    ∃ j ∈ bookIndices w, findSpellBookIndex w spellName wantedRank wantedTexture = some j ∧
      hasNameAndRank w spellName wantedRank j = true
  name : (∀ i ∈ bookIndices w, hasNameAndRank w spellName wantedRank i = false) →
    (∃ i ∈ bookIndices w, hasName w spellName i = true) →
      ∃ j ∈ bookIndices w, findSpellBookIndex w spellName wantedRank wantedTexture = some j ∧
        hasName w spellName j = true
  icon : ∀ j, findSpellBookIndex w spellName wantedRank wantedTexture = some j → hasName w spellName j = false →
    ∀ i ∈ bookIndices w, hasName w spellName i = false

/-- No entry behind the last one of the name has the icon. -/
def NoIconBehind (w : GameClient) (spellName wantedTexture : Option String) : Prop :=
  ∃ before i behind, bookIndices w = before ++ i :: behind ∧ hasName w spellName i = true ∧
    ∀ j ∈ behind, hasName w spellName j = false ∧ textureMatches w wantedTexture j = false

theorem nameMatches_some (w : GameClient) (name : String) (wantedTexture : Option String) (i : Nat) :
    nameMatches w (some name) wantedTexture i = hasName w (some name) i := by
  simp [nameMatches, hasName]

theorem exact_some (w : GameClient) (name : String) (wantedRank wantedTexture : Option String) (i : Nat) :
    exact_ w (some name) wantedRank wantedTexture i = hasNameAndRank w (some name) wantedRank i := by
  rw [exact_, nameMatches_some, hasNameAndRank]

theorem alike_some (w : GameClient) (name : String) (wantedTexture : Option String) (i : Nat) :
    alike w (some name) wantedTexture i = (hasName w (some name) i || textureMatches w wantedTexture i) := by
  rw [alike, nameMatches_some]

theorem hasName_none (w : GameClient) (i : Nat) : hasName w none i = false := rfl

/-- What the lookup returns lies in the book. -/
theorem findSpellBookIndex_mem {w : GameClient} {spellName wantedRank wantedTexture : Option String} {j : Nat}
    (h : findSpellBookIndex w spellName wantedRank wantedTexture = some j) : j ∈ bookIndices w := by
  rw [findSpellBookIndex_eq] at h
  rcases Option.or_eq_some_iff.mp h with h | ⟨_, h⟩
  · exact List.mem_of_find?_eq_some h
  · exact List.mem_reverse.mp (List.mem_of_find?_eq_some h)

/-- An exact entry wins. -/
theorem find_exact {w : GameClient} {name : String} {wantedRank : Option String} (wantedTexture : Option String)
    (h : ∃ i ∈ bookIndices w, hasNameAndRank w (some name) wantedRank i = true) :
    ∃ j ∈ bookIndices w, findSpellBookIndex w (some name) wantedRank wantedTexture = some j ∧
      hasNameAndRank w (some name) wantedRank j = true := by
  obtain ⟨i, hi, hexact⟩ := h
  rw [findSpellBookIndex_eq]
  cases hfind : (bookIndices w).find? (exact_ w (some name) wantedRank wantedTexture) with
  | none =>
    have hno := List.find?_eq_none.mp hfind i hi
    rw [exact_some, hexact] at hno
    exact absurd rfl hno
  | some j =>
    have hj := List.find?_some hfind
    rw [exact_some] at hj
    exact ⟨j, List.mem_of_find?_eq_some hfind, by rw [Option.some_or], hj⟩

/-- Without one the last alike entry does. -/
theorem find_alike {w : GameClient} {name : String} {wantedRank : Option String} (wantedTexture : Option String)
    (h : ∀ i ∈ bookIndices w, hasNameAndRank w (some name) wantedRank i = false) :
    findSpellBookIndex w (some name) wantedRank wantedTexture =
      (bookIndices w).reverse.find? fun i => hasName w (some name) i || textureMatches w wantedTexture i := by
  have hno : (bookIndices w).find? (exact_ w (some name) wantedRank wantedTexture) = none := by
    refine List.find?_eq_none.mpr fun i hi => ?_
    rw [exact_some, h i hi]
    simp
  rw [findSpellBookIndex_eq, hno, Option.none_or]
  exact List.find?_congr fun i _ => alike_some w name wantedTexture i

/-- The last entry of a list with a property, as the split of the list at it. -/
theorem find_reverse_iff {α : Type*} {l : List α} {p : α → Bool} {i : α} :
    l.reverse.find? p = some i ↔
      p i = true ∧ ∃ before behind, l = before ++ i :: behind ∧ ∀ j ∈ behind, p j = false := by
  rw [List.find?_eq_some_iff_append]
  refine and_congr_right fun _ => ⟨?_, ?_⟩
  · rintro ⟨as, bs, hl, hno⟩
    refine ⟨bs.reverse, as.reverse, ?_, fun j hj => by simpa using hno j (List.mem_reverse.mp hj)⟩
    rw [← List.reverse_reverse l, hl]
    simp
  · rintro ⟨before, behind, rfl, hno⟩
    exact ⟨behind.reverse, before.reverse, by simp, fun j hj => by simpa using hno j (List.mem_reverse.mp hj)⟩

/-- For every book and every wanted name, rank and icon: the lookup prefers name and rank
    over the icon exactly when an exact entry exists, or no entry has the name, or no entry
    behind the last one of that name has the icon. -/
theorem prefersName_iff (w : GameClient) (spellName wantedRank wantedTexture : Option String) :
    PrefersName w spellName wantedRank wantedTexture ↔
      (∃ i ∈ bookIndices w, hasNameAndRank w spellName wantedRank i = true) ∨
        (∀ i ∈ bookIndices w, hasName w spellName i = false) ∨ NoIconBehind w spellName wantedTexture := by
  cases spellName with
  | none =>
    have hno : ∀ i ∈ bookIndices w, hasName w none i = false := fun i _ => hasName_none w i
    refine ⟨fun _ => Or.inr (Or.inl hno), fun _ => ⟨?_, ?_, fun _ _ _ => hno⟩⟩
    · rintro ⟨i, _, hi⟩
      cases hi
    · rintro _ ⟨i, _, hi⟩
      cases hi
  | some name =>
    by_cases hexact : ∃ i ∈ bookIndices w, hasNameAndRank w (some name) wantedRank i = true
    · refine ⟨fun _ => Or.inl hexact, fun _ => ⟨find_exact wantedTexture, ?_, ?_⟩⟩
      · intro hno
        obtain ⟨i, hi, hrank⟩ := hexact
        rw [hno i hi] at hrank
        cases hrank
      · intro j hj hname
        obtain ⟨k, _, hk, hrank⟩ := find_exact wantedTexture hexact
        rw [hj] at hk
        cases hk
        simp [hasNameAndRank, hname] at hrank
    · have hno : ∀ i ∈ bookIndices w, hasNameAndRank w (some name) wantedRank i = false := by
        intro i hi
        by_contra hrank
        exact hexact ⟨i, hi, by simpa using hrank⟩
      have hfind := find_alike wantedTexture hno
      by_cases hname : ∃ i ∈ bookIndices w, hasName w (some name) i = true
      · constructor
        · intro h
          obtain ⟨j, _, hj, hjname⟩ := h.name hno hname
          rw [hfind] at hj
          obtain ⟨_, before, behind, hsplit, hbehind⟩ := find_reverse_iff.mp hj
          exact Or.inr (Or.inr ⟨before, j, behind, hsplit, hjname, fun k hk => by simpa using hbehind k hk⟩)
        · rintro (h | h | ⟨before, i, behind, hsplit, hi, hbehind⟩)
          · exact absurd h hexact
          · obtain ⟨i, hi, hiname⟩ := hname
            rw [h i hi] at hiname
            cases hiname
          · have hresult : findSpellBookIndex w (some name) wantedRank wantedTexture = some i := by
              rw [hfind]
              refine find_reverse_iff.mpr ⟨by rw [hi]; rfl, before, behind, hsplit, fun k hk => ?_⟩
              rw [(hbehind k hk).1, (hbehind k hk).2]
              rfl
            refine ⟨fun h => absurd h hexact, fun _ _ => ⟨i, findSpellBookIndex_mem hresult, hresult, hi⟩, ?_⟩
            intro j hj hjname
            rw [hresult] at hj
            cases hj
            rw [hi] at hjname
            cases hjname
      · have hall : ∀ i ∈ bookIndices w, hasName w (some name) i = false := by
          intro i hi
          by_contra hi'
          exact hname ⟨i, hi, by simpa using hi'⟩
        exact ⟨fun _ => Or.inr (Or.inl hall),
          fun _ => ⟨fun h => absurd h hexact, fun _ h => absurd h hname, fun _ _ _ => hall⟩⟩

/-- A book with Fireball and, behind it, another spell with the same icon. -/
def sharedIconClient : GameClient :=
  { mageClient with
    getSpellName := fun
      | 1, _ => some ("Fireball", some "Rank 1")
      | 2, _ => some ("Scorch", some "Rank 1")
      | _, _ => none
    getSpellTexture := fun _ _ => some "Spell_Fire" }

/-- Fireball is wanted by its name, and Scorch is found by the icon. -/
theorem icon_overrides_name :
    ¬ ∀ w spellName wantedRank wantedTexture, PrefersName w spellName wantedRank wantedTexture := by
  intro h
  have hall := (h sharedIconClient (some "Fireball") none (some "Spell_Fire")).icon 2 (by decide +kernel)
    (by decide +kernel) 1 (by decide +kernel)
  exact absurd hall (by decide +kernel)

/-! ## Cast names -/

/-- Entry `i` has the name and the rank. -/
def IsEntry (w : GameClient) (name rank : String) (i : Nat) : Prop := w.getSpellName i BOOKTYPE = some (name, some rank)

instance (w : GameClient) (name rank : String) (i : Nat) : Decidable (IsEntry w name rank i) :=
  inferInstanceAs (Decidable (_ = _))

/-- The cast name of a step leads to an entry with its name and rank. -/
def Decodes (w : GameClient) (spell : MacroManager.Spell) : Prop :=
  ∃ j ∈ bookIndices w, resolveNamedSpell w (MacroManager.castName spell) = some j ∧ IsEntry w spell.name spell.rank j

/-- The rank the second pattern reads off a name with a parenthesis. -/
def garbledRank (spell : MacroManager.Spell) : String := afterOpen spell.name ++ "(" ++ spell.rank

/-- The last entry of the name has the rank. -/
def LastHasRank (w : GameClient) (name rank : String) : Prop :=
  ∃ before i behind, bookIndices w = before ++ i :: behind ∧ IsEntry w name rank i ∧
    ∀ j ∈ behind, hasName w (some name) j = false

/-- The name survives the first pattern, and the rank the second; or the rank it reads
    instead is none of that name's, and the last entry of the name is the one wanted. -/
structure ReadsBack (w : GameClient) (spell : MacroManager.Spell) : Prop where
  name : NoBlankEnd spell.name.toList
  rank : Balanced spell.rank.toList
  found : '(' ∉ spell.name.toList ∨
    ((∀ i ∈ bookIndices w, ¬ IsEntry w spell.name (garbledRank spell) i) ∧ LastHasRank w spell.name spell.rank)

theorem IsEntry.hasName {w : GameClient} {name rank : String} {i : Nat} (h : IsEntry w name rank i) :
    hasName w (some name) i = true := by
  unfold IsEntry at h
  simp [Controller.hasName, h]

theorem hasNameAndRank_iff {w : GameClient} {name rank : String} (hrank : rank ≠ "") (i : Nat) :
    hasNameAndRank w (some name) (some rank) i = true ↔ IsEntry w name rank i := by
  unfold hasNameAndRank Controller.hasName rankMatches IsEntry
  cases w.getSpellName i BOOKTYPE with
  | none => simp
  | some r =>
    obtain ⟨n, k⟩ := r
    simp [hrank]

theorem castName_eq {spell : MacroManager.Spell} (h : spell.rank ≠ "") :
    MacroManager.castName spell = spell.name ++ "(" ++ spell.rank ++ ")" := by
  unfold MacroManager.castName
  rw [if_pos h]

/-- What a name finds has that name. -/
theorem findSpellBookIndex_name {w : GameClient} {name : String} {wantedRank : Option String} {j : Nat}
    (h : findSpellBookIndex w (some name) wantedRank none = some j) : hasName w (some name) j = true := by
  rw [findSpellBookIndex_eq] at h
  rcases Option.or_eq_some_iff.mp h with h | ⟨_, h⟩
  · have hj := List.find?_some h
    rw [exact_some] at hj
    exact (Bool.and_eq_true _ _ ▸ hj).1
  · have hj := List.find?_some h
    rw [alike_some] at hj
    simpa [textureMatches] using hj

theorem resolveNamedSpell_castName {w : GameClient} {spell : MacroManager.Spell} (h : spell.rank ≠ "") :
    resolveNamedSpell w (MacroManager.castName spell) =
      findSpellBookIndex w (some (gsubTrailingGroup (MacroManager.castName spell)))
        (some (if '(' ∈ spell.name.toList then garbledRank spell else spell.rank)) none := by
  rw [resolveNamedSpell, castName_eq h, findTrailingGroup_append, garbledRank]

theorem garbledRank_ne {spell : MacroManager.Spell} : garbledRank spell ≠ spell.rank ∧ garbledRank spell ≠ "" := by
  have hlen : (garbledRank spell).length = (afterOpen spell.name).length + 1 + spell.rank.length := by
    rw [garbledRank, String.length_append, String.length_append]
    rfl
  constructor
  · intro h
    rw [h] at hlen
    omega
  · intro h
    rw [h, String.length_empty] at hlen
    omega

/-- An entry has one rank. -/
theorem IsEntry.rank_unique {w : GameClient} {name rank rank' : String} {i : Nat} (h : IsEntry w name rank i)
    (h' : IsEntry w name rank' i) : rank = rank' := by
  unfold IsEntry at h h'
  rw [h] at h'
  simpa using h'

/-- Looked up by its name with a rank no entry of that name has, a spell is the last of it. -/
theorem find_last_iff {w : GameClient} {name rank : String} (hrank : rank ≠ "")
    (hno : ∀ i ∈ bookIndices w, ¬ IsEntry w name rank i) (j : Nat) :
    findSpellBookIndex w (some name) (some rank) none = some j ↔
      hasName w (some name) j = true ∧
        ∃ before behind, bookIndices w = before ++ j :: behind ∧ ∀ k ∈ behind, hasName w (some name) k = false := by
  have hno' : ∀ i ∈ bookIndices w, hasNameAndRank w (some name) (some rank) i = false := by
    intro i hi
    by_contra h
    exact hno i hi ((hasNameAndRank_iff hrank i).mp (by simpa using h))
  rw [find_alike none hno', find_reverse_iff]
  simp [textureMatches]

/-- For every book and every entry of it with a rank: the cast name of the entry leads to
    an entry with exactly its name and rank, exactly under `ReadsBack`. -/
theorem decodes_iff (w : GameClient) (spell : MacroManager.Spell) (i : Nat) (hi : i ∈ bookIndices w)
    (hentry : IsEntry w spell.name spell.rank i) (hrank : spell.rank ≠ "") :
    Decodes w spell ↔ ReadsBack w spell := by
  unfold Decodes
  rw [resolveNamedSpell_castName hrank, castName_eq hrank]
  constructor
  · rintro ⟨j, _, hfind, hj⟩
    -- what is found has the name the first pattern left
    have hname : gsubTrailingGroup (spell.name ++ "(" ++ spell.rank ++ ")") = spell.name := by
      have hbase := findSpellBookIndex_name hfind
      unfold IsEntry at hj
      simp only [hasName, hj, Option.isSome_some, Bool.true_and, Option.map_some, beq_iff_eq,
        Option.some.injEq] at hbase
      exact hbase.symm
    obtain ⟨hbalanced, hend⟩ := (gsubTrailingGroup_eq_iff _ _).mp hname
    refine ⟨hend, hbalanced, ?_⟩
    by_cases hopen : '(' ∈ spell.name.toList
    · rw [hname, if_pos hopen] at hfind
      have hno : ∀ k ∈ bookIndices w, ¬ IsEntry w spell.name (garbledRank spell) k := by
        intro k hk hgarbled
        obtain ⟨j', _, hfind', hj'⟩ := find_exact none
          ⟨k, hk, (hasNameAndRank_iff garbledRank_ne.2 k).mpr hgarbled⟩
        rw [hfind] at hfind'
        cases hfind'
        exact garbledRank_ne.1 (((hasNameAndRank_iff garbledRank_ne.2 j).mp hj').rank_unique hj)
      obtain ⟨_, before, behind, hsplit, hbehind⟩ := (find_last_iff garbledRank_ne.2 hno j).mp hfind
      exact Or.inr ⟨hno, before, j, behind, hsplit, hj, hbehind⟩
    · exact Or.inl hopen
  · rintro ⟨hend, hbalanced, hfound⟩
    rw [(gsubTrailingGroup_eq_iff _ _).mpr ⟨hbalanced, hend⟩]
    by_cases hopen : '(' ∈ spell.name.toList
    · obtain ⟨hno, before, j, behind, hsplit, hj, hbehind⟩ := hfound.resolve_left (not_not.mpr hopen)
      rw [if_pos hopen]
      have hfind := (find_last_iff garbledRank_ne.2 hno j).mpr ⟨hj.hasName, before, behind, hsplit, hbehind⟩
      exact ⟨j, findSpellBookIndex_mem hfind, hfind, hj⟩
    · rw [if_neg hopen]
      obtain ⟨j, hj, hfind, hexact⟩ := find_exact none ⟨i, hi, (hasNameAndRank_iff hrank i).mpr hentry⟩
      exact ⟨j, hj, hfind, (hasNameAndRank_iff hrank j).mp hexact⟩

/-- A druid's book with two ranks of a spell with a parenthesis in its name. -/
def feralClient : GameClient :=
  { mageClient with
    getSpellName := fun
      | 1, _ => some ("Faerie Fire (Feral)", some "Rank 1")
      | 2, _ => some ("Faerie Fire (Feral)", some "Rank 2")
      | _, _ => none }

def feralStep (rank : String) : MacroManager.Spell := ⟨1, none, "Faerie Fire (Feral)", rank, none, none, none⟩

/-- The cast name of its first rank leads to the second. -/
theorem cast_name_changes_rank :
    ¬ ∀ (w : GameClient) (spell : MacroManager.Spell) (i : Nat), i ∈ bookIndices w →
      IsEntry w spell.name spell.rank i → spell.rank ≠ "" → Decodes w spell := by
  intro h
  obtain ⟨j, _, hfind, hj⟩ := h feralClient (feralStep "Rank 1") 1 (by decide +kernel) (by decide +kernel)
    (by decide +kernel)
  have hsecond : resolveNamedSpell feralClient (MacroManager.castName (feralStep "Rank 1")) = some 2 := by
    decide +kernel
  rw [hsecond] at hfind
  cases hfind
  exact absurd hj (by decide +kernel)

/-- A name without a parenthesis. -/
theorem fireball_decodes : Decodes mageClient ⟨1, none, "Fireball", "Rank 1", none, none, none⟩ := by
  have hend : NoBlankEnd "Fireball".toList := by
    intro last hlast
    obtain rfl : 'l' = last := by simpa using hlast
    decide
  have hreads : ReadsBack mageClient ⟨1, none, "Fireball", "Rank 1", none, none, none⟩ :=
    ⟨hend, by decide +kernel, Or.inl (by decide +kernel)⟩
  exact (decodes_iff mageClient ⟨1, none, "Fireball", "Rank 1", none, none, none⟩ 1 (by decide +kernel)
    (by decide +kernel) (by decide +kernel)).mpr hreads

end Nostalgia.Controller
