/-
  Nostalgia.Controller.Targeting — the friendly targets of the healer mode
  (DinoController.lua).

  A `Group` is what the client says about party and raid: how many members it counts,
  which unit ids exist and which player an id stands for. `TargetUnit` makes that player
  the target.

  `targetGroup_visits_everyone`: the list is the existing members of the raid, else the
  player and the existing members of the party. With the listed ids standing for different
  players, the calls of one direction go around it, the other direction goes back, and a
  target that is not in the list is left for one that is.
-/

import Nostalgia.Controller.Navigation
import Nostalgia.Machine.Cycle

namespace Nostalgia.Controller

open Nostalgia.Machine

structure Group (π : Type) where
  numRaidMembers : Nat
  numPartyMembers : Nat
  unitExists : String → Bool
  player : String → π

structure Targeting (π : Type) where
  targetMode : TargetMode
  target : Option π
  deriving DecidableEq

variable {π : Type} (g : Group π)

/-- The existing units among `kind .. 1` to `kind .. count`. -/
def existingUnits (kind : String) (count : Nat) : List String :=
  ((List.range' 1 count).map fun index => kind ++ toString index).filter g.unitExists

/-- A raid lists the player as one of its members. -/
def getFriendlyTargetUnits : List String :=
  if 0 < g.numRaidMembers then existingUnits g "raid" g.numRaidMembers
  else "player" :: existingUnits g "party" g.numPartyMembers

/-- The existing members of the raid, else the player and the existing members of the party. -/
def FriendlyUnit (unit : String) : Prop :=
  if 0 < g.numRaidMembers then
    ∃ i : Nat, 1 ≤ i ∧ i ≤ g.numRaidMembers ∧ unit = "raid" ++ toString i ∧ g.unitExists unit = true
  else unit = "player" ∨
    ∃ i : Nat, 1 ≤ i ∧ i ≤ g.numPartyMembers ∧ unit = "party" ++ toString i ∧ g.unitExists unit = true

/-- The players behind the units, as targets. -/
def groupTargets : List (Option π) := (getFriendlyTargetUnits g).map fun unit => some (g.player unit)

/-- The index after the current one in a direction, or the one to begin with. -/
def nextTargetIndex (count : Nat) (currentIndex : Option Nat) (direction : Int) : Nat :=
  match currentIndex with
  | some i => cyclic count (i + 1) (0 ≤ direction)
  | none => if direction < 0 then count else 1

/-- `DinoController_TargetGroup`. -/
def targetGroup [DecidableEq π] (direction : Int) (s : Targeting π) : Targeting π :=
  if s.targetMode = .healer then
    let units := getFriendlyTargetUnits g
    let currentIndex := units.findIdx? fun unit => s.target == some (g.player unit)
    match units[nextTargetIndex units.length currentIndex direction - 1]? with
    | some unit => { s with target := some (g.player unit) }
    | none => s
  else s

/-! ## The list -/

theorem mem_existingUnits {kind unit : String} {count : Nat} : unit ∈ existingUnits g kind count ↔
    ∃ i : Nat, 1 ≤ i ∧ i ≤ count ∧ unit = kind ++ toString i ∧ g.unitExists unit = true := by
  unfold existingUnits
  rw [List.mem_filter, List.mem_map]
  constructor
  · rintro ⟨⟨i, hi, rfl⟩, hexists⟩
    rw [List.mem_range'_1] at hi
    exact ⟨i, hi.1, by omega, rfl, hexists⟩
  · rintro ⟨i, h1, hcount, rfl, hexists⟩
    exact ⟨⟨i, List.mem_range'_1.mpr ⟨h1, by omega⟩, rfl⟩, hexists⟩

/-- No member is left out, and nobody else is listed. -/
theorem mem_getFriendlyTargetUnits (unit : String) : unit ∈ getFriendlyTargetUnits g ↔ FriendlyUnit g unit := by
  unfold getFriendlyTargetUnits FriendlyUnit
  split
  · exact mem_existingUnits g
  · rw [List.mem_cons, mem_existingUnits]

theorem existingUnits_nodup (kind : String) (count : Nat) : (existingUnits g kind count).Nodup := by
  apply List.Nodup.filter
  refine List.Nodup.map ?_ List.nodup_range'
  intro i j hij
  have hchars := congrArg String.toList hij
  simp only [String.toList_append, List.append_cancel_left_eq] at hchars
  exact Nat.repr_inj.mp (String.toList_injective hchars)

theorem player_not_party (i : Nat) : "party" ++ toString i ≠ "player" := by
  intro h
  have hchars := congrArg String.toList h
  rw [String.toList_append] at hchars
  simp at hchars

theorem getFriendlyTargetUnits_nodup : (getFriendlyTargetUnits g).Nodup := by
  unfold getFriendlyTargetUnits
  split
  · exact existingUnits_nodup g "raid" _
  · refine List.nodup_cons.mpr ⟨fun hmem => ?_, existingUnits_nodup g "party" _⟩
    obtain ⟨i, _, hi⟩ := List.mem_map.mp (List.mem_filter.mp hmem).1
    exact player_not_party i hi

variable {g}

theorem groupTargets_nodup (hdistinct : ∀ u ∈ getFriendlyTargetUnits g, ∀ v ∈ getFriendlyTargetUnits g,
    g.player u = g.player v → u = v) : (groupTargets g).Nodup :=
  List.Nodup.map_on (fun u hu v hv huv => hdistinct u hu v hv (Option.some.inj huv)) (getFriendlyTargetUnits_nodup g)

theorem groupTargets_length : (groupTargets g).length = (getFriendlyTargetUnits g).length := List.length_map ..

/-! ## One call -/

section Call

variable [DecidableEq π]

theorem targetGroup_mode (direction : Int) (s : Targeting π) :
    (targetGroup g direction s).targetMode = s.targetMode := by
  unfold targetGroup
  split
  · dsimp only
    split <;> rfl
  · rfl

/-- The search for the target is one in the list of players. -/
theorem currentIndex_eq (s : Targeting π) :
    ((getFriendlyTargetUnits g).findIdx? fun unit => s.target == some (g.player unit)) =
      (groupTargets g).findIdx? (s.target == ·) := by
  rw [groupTargets, List.findIdx?_map]
  rfl

/-- The call leads to the entry at its index. -/
theorem targetGroup_target {direction : Int} {s : Targeting π} (hhealer : s.targetMode = .healer) {j : Nat}
    (hj : nextTargetIndex (groupTargets g).length ((groupTargets g).findIdx? (s.target == ·)) direction - 1 = j)
    (hlt : j < (groupTargets g).length) : (groupTargets g)[j]? = some (targetGroup g direction s).target := by
  rw [groupTargets_length, ← currentIndex_eq] at hj
  rw [groupTargets_length] at hlt
  have hunit := List.getElem?_eq_getElem hlt
  rw [groupTargets, List.getElem?_map, hunit, targetGroup, if_pos hhealer]
  simp only [hj, hunit, Option.map_some]

/-- The index a member is found at is its only one. -/
theorem currentIndex_member (hnodup : (groupTargets g).Nodup) {s : Targeting π} {i : Nat}
    (hi : (groupTargets g)[i]? = some s.target) : (groupTargets g).findIdx? (s.target == ·) = some i := by
  obtain ⟨hlt, heq⟩ := List.getElem?_eq_some_iff.mp hi
  rw [List.findIdx?_eq_some_iff_getElem]
  refine ⟨hlt, by simp [heq], fun j hj hfound => ?_⟩
  have hsame : (groupTargets g)[j] = (groupTargets g)[i] := by
    rw [heq]
    exact (eq_of_beq hfound).symm
  have := hnodup.getElem_inj_iff.mp hsame
  omega

variable (hnodup : (groupTargets g).Nodup)

include hnodup in
theorem targetGroup_rotates : Rotates (fun s => s.targetMode = .healer) Targeting.target (groupTargets g) (targetGroup g 1) := by
  refine ⟨fun s hs => by rw [targetGroup_mode, hs], fun s i hs hi => ?_⟩
  have hlt := (List.getElem?_eq_some_iff.mp hi).1
  apply targetGroup_target hs
  · rw [currentIndex_member hnodup hi]
    exact cyclic_forward hlt
  · exact Nat.mod_lt _ (by omega)

include hnodup in
theorem targetGroup_rotates_back :
    Rotates (fun s => s.targetMode = .healer) Targeting.target (groupTargets g).reverse (targetGroup g (-1)) := by
  apply rotates_reverse
  · intro s hs
    rw [targetGroup_mode, hs]
  · intro s i hs hi
    have hlt := (List.getElem?_eq_some_iff.mp hi).1
    apply targetGroup_target hs
    · rw [currentIndex_member hnodup hi]
      exact cyclic_back hlt
    · exact Nat.mod_lt _ (by omega)

/-- A target outside the list is left for its first or its last entry. -/
theorem targetGroup_enters {s : Targeting π} (hhealer : s.targetMode = .healer) (hexists : getFriendlyTargetUnits g ≠ [])
    (hout : s.target ∉ groupTargets g) (direction : Int) : (targetGroup g direction s).target ∈ groupTargets g := by
  have hpos : 0 < (groupTargets g).length := by
    rw [groupTargets_length]
    exact List.length_pos_iff.mpr hexists
  have hnone : (groupTargets g).findIdx? (s.target == ·) = none := by
    rw [List.findIdx?_eq_none_iff]
    intro t ht
    by_cases heq : s.target = t
    · exact absurd (heq ▸ ht) hout
    · simp [heq]
  refine List.mem_of_getElem? (targetGroup_target hhealer rfl ?_)
  rw [hnone]
  show (if direction < 0 then (groupTargets g).length else 1) - 1 < _
  split <;> omega

end Call

/-- The list holds every friendly unit once. The calls of one direction target every
    listed player once and come back; the other direction undoes a call; from any other
    target both directions enter the list. -/
theorem targetGroup_visits_everyone [DecidableEq π] (g : Group π)
    (hdistinct : ∀ u ∈ getFriendlyTargetUnits g, ∀ v ∈ getFriendlyTargetUnits g, g.player u = g.player v → u = v)
    (hexists : getFriendlyTargetUnits g ≠ []) (s : Targeting π) (hhealer : s.targetMode = .healer) :
    let n := (getFriendlyTargetUnits g).length
    ((getFriendlyTargetUnits g).Nodup ∧ ∀ unit, unit ∈ getFriendlyTargetUnits g ↔ FriendlyUnit g unit) ∧
    (s.target ∈ groupTargets g →
      (groupTargets g).Nodup ∧
      List.Perm ((List.range n).map fun k => ((targetGroup g 1)^[k + 1] s).target) (groupTargets g) ∧
      ((targetGroup g 1)^[n] s).target = s.target ∧
      (targetGroup g (-1) (targetGroup g 1 s)).target = s.target) ∧
    (s.target ∉ groupTargets g → ∀ direction, (targetGroup g direction s).target ∈ groupTargets g) := by
  have hnodup := groupTargets_nodup hdistinct
  refine ⟨⟨getFriendlyTargetUnits_nodup g, mem_getFriendlyTargetUnits g⟩,
    fun hmem => ⟨hnodup, ?_, ?_, ?_⟩, targetGroup_enters hhealer hexists⟩
  · rw [← groupTargets_length]
    exact (targetGroup_rotates hnodup).visits hhealer hmem
  · rw [← groupTargets_length]
    exact (targetGroup_rotates hnodup).returns hhealer hmem
  · exact (targetGroup_rotates hnodup).undo (targetGroup_rotates_back hnodup) hhealer hmem

/-- A raid of four places, one of them empty. -/
def sparseRaid : Group Nat where
  numRaidMembers := 4
  numPartyMembers := 0
  unitExists unit := unit != "raid2"
  player unit := if unit = "raid1" then 1 else if unit = "raid3" then 3 else if unit = "raid4" then 4 else 0

theorem sparseRaid_units : getFriendlyTargetUnits sparseRaid = ["raid1", "raid3", "raid4"] := by decide

theorem sparseRaid_visited :
    FriendlyUnit sparseRaid "raid4" ∧ ¬ FriendlyUnit sparseRaid "raid2" ∧
    ((targetGroup sparseRaid 1)^[3] ⟨.healer, some 3⟩).target = some 3 ∧
    (targetGroup sparseRaid (-1) ⟨.healer, none⟩).target ∈ groupTargets sparseRaid := by
  have hdistinct : ∀ u ∈ getFriendlyTargetUnits sparseRaid, ∀ v ∈ getFriendlyTargetUnits sparseRaid,
      sparseRaid.player u = sparseRaid.player v → u = v := by
    rw [sparseRaid_units]
    decide
  have hexists : getFriendlyTargetUnits sparseRaid ≠ [] := by rw [sparseRaid_units]; simp
  obtain ⟨⟨_, hunits⟩, hinside, _⟩ := targetGroup_visits_everyone sparseRaid hdistinct hexists ⟨.healer, some 3⟩ rfl
  obtain ⟨_, _, houtside⟩ := targetGroup_visits_everyone sparseRaid hdistinct hexists ⟨.healer, none⟩ rfl
  rw [sparseRaid_units] at hinside hunits
  exact ⟨(hunits "raid4").mp (by decide), fun h => absurd ((hunits "raid2").mpr h) (by decide),
    (hinside (by rw [groupTargets, sparseRaid_units]; decide)).2.2.1,
    houtside (by rw [groupTargets, sparseRaid_units]; decide) (-1)⟩

end Nostalgia.Controller
