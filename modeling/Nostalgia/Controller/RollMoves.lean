/-
  Nostalgia.Controller.RollMoves — the D-pad inside the loot rolls (MoveGroupLootRoll).

  `Rolls`: the list is a group of usable elements for each roll frame, one group behind
  the other, with a frame number for each group and a choice for each of its elements.
  LEFT and RIGHT go around the elements of the focused frame (`CyclesInFrame`), UP and
  DOWN around the frames (`CyclesFrames`): both are moves around a list, of indices and
  of frame numbers.
-/

import Nostalgia.Controller.Spatial
import Nostalgia.Machine.Cycle

namespace Nostalgia.Controller

open Nostalgia.Machine

def Dir.sideways : Dir → Bool
  | .LEFT | .RIGHT => true
  | .UP | .DOWN => false

def Dir.opposite : Dir → Dir
  | .UP => .DOWN
  | .DOWN => .UP
  | .LEFT => .RIGHT
  | .RIGHT => .LEFT

/-- The frame number of the focused element. -/
def focusedFrame (s : St) : Option Nat := (elementAt s.nav.elements s.nav.index).bind (·.lootRollFrameIndex)

section

variable (c : Client)

def pressRoll (dir : Dir) (s : St) : St := (moveGroupLootRoll c dir s).2

def pressAll (ds : List Dir) (s : St) : St := run (fun s dir => pressRoll c dir s) s ds

end

/-- A frame number and the elements of that frame, for each group. -/
structure RollGroups (elements : List Element) (groups : List (Nat × List Element)) : Prop where
  flat : elements = groups.flatMap Prod.snd
  frames : (groups.map Prod.fst).Nodup
  filled : ∀ g ∈ groups, g.2 ≠ []
  numbered : ∀ g ∈ groups, ∀ e ∈ g.2, e.lootRollFrameIndex = some g.1
  choices : ∀ g ∈ groups, (g.2.map fun e => e.lootRollChoice).Nodup

/-- A list of rolls that stays usable under the presses. -/
structure Rolls (c : Client) (groups : List (Nat × List Element)) (s : St) : Prop where
  groups : RollGroups s.nav.elements groups
  usable : ∀ ds, ∀ e ∈ s.nav.elements, usableElement (pressAll c ds s).world e = true

/-- Presses of a direction inside the frame of a group. -/
structure CyclesInFrame (c : Client) (g : Nat × List Element) (dir : Dir) (s : St) : Prop where
  moves : (moveGroupLootRoll c dir s).1 = true
  stays : ∀ ds : List Dir, (∀ d ∈ ds, d.sideways = true) → focusedFrame (pressAll c ds s) = some g.1
  undone : (pressRoll c dir.opposite (pressRoll c dir s)).nav.index = s.nav.index
  returns : ((pressRoll c dir)^[g.2.length] s).nav.index = s.nav.index
  visits : ∀ index e, elementAt s.nav.elements index = some e → e.lootRollFrameIndex = some g.1 →
    ∃ k < g.2.length, ((pressRoll c dir)^[k + 1] s).nav.index = index

/-- Presses of a direction from frame to frame. -/
structure CyclesFrames (c : Client) (groups : List (Nat × List Element)) (dir : Dir) (s : St) : Prop where
  moves : (moveGroupLootRoll c dir s).1 = true
  undone : focusedFrame (pressRoll c dir.opposite (pressRoll c dir s)) = focusedFrame s
  /-- Where the frame moved to offers the choice as well. -/
  undoneExactly : ∀ e e', elementAt s.nav.elements s.nav.index = some e → e' ∈ s.nav.elements →
    e'.lootRollFrameIndex = focusedFrame (pressRoll c dir s) → e'.lootRollChoice = e.lootRollChoice →
    (pressRoll c dir.opposite (pressRoll c dir s)).nav.index = s.nav.index
  returns : focusedFrame ((pressRoll c dir)^[groups.length] s) = focusedFrame s
  visits : ∀ g ∈ groups, ∃ k < groups.length, focusedFrame ((pressRoll c dir)^[k + 1] s) = some g.1

variable {c : Client} {groups : List (Nat × List Element)} {s : St}

/-! ## One press -/

theorem pressRoll_eq (dir : Dir) (s : St) : pressRoll c dir s =
    ((rollMove s.world s.nav.elements s.nav.index dir).map fun index => updateHighlight c (setIndex index s)).getD s := by
  unfold pressRoll moveGroupLootRoll
  cases rollMove s.world s.nav.elements s.nav.index dir with
  | none => rfl
  | some index => rfl

theorem moveGroupLootRoll_moves (dir : Dir) (s : St) :
    (moveGroupLootRoll c dir s).1 = (rollMove s.world s.nav.elements s.nav.index dir).isSome := by
  unfold moveGroupLootRoll
  cases rollMove s.world s.nav.elements s.nav.index dir with
  | none => rfl
  | some index => rfl

theorem pressRoll_elements (dir : Dir) (s : St) : (pressRoll c dir s).nav.elements = s.nav.elements := by
  rw [pressRoll_eq]
  cases rollMove s.world s.nav.elements s.nav.index dir with
  | none => rfl
  | some index =>
    obtain ⟨_, _, _, h, _⟩ := updateHighlight_hovered (c := c) (setIndex index s)
    show (updateHighlight c (setIndex index s)).nav.elements = _
    rw [h]
    rfl

theorem pressRoll_index {dir : Dir} {s : St} {index : Nat}
    (h : rollMove s.world s.nav.elements s.nav.index dir = some index) : (pressRoll c dir s).nav.index = index := by
  obtain ⟨_, _, _, hsame, _⟩ := updateHighlight_hovered (c := c) (setIndex index s)
  rw [pressRoll_eq, h]
  show (updateHighlight c (setIndex index s)).nav.index = _
  rw [hsame]
  rfl

theorem Rolls.press (h : Rolls c groups s) (dir : Dir) : Rolls c groups (pressRoll c dir s) := by
  refine ⟨?_, fun ds e he => ?_⟩
  · rw [pressRoll_elements]
    exact h.groups
  · rw [pressRoll_elements] at he
    exact h.usable (dir :: ds) e he

theorem Rolls.usableNow (h : Rolls c groups s) : ∀ e ∈ s.nav.elements, usableElement s.world e = true := h.usable []

/-! ## Inside a frame -/

/-- The indices of a frame's elements. -/
def frameElements (elements : List Element) (frameIndex : Nat) : List Nat :=
  ((elements.zipIdx 1).filter fun x => x.1.lootRollFrameIndex == some frameIndex).map Prod.snd

theorem rollCandidates_usable {w : World} {elements : List Element} (h : ∀ e ∈ elements, usableElement w e = true)
    (frameIndex : Nat) : rollCandidates w elements frameIndex = frameElements elements frameIndex := by
  have hloop : ∀ l : List (Element × Nat), (∀ x ∈ l, usableElement w x.1 = true) →
      l.filterMap (fun x => if x.1.lootRollFrameIndex == some frameIndex && usableElement w x.1 then some x.2 else none) =
        (l.filter fun x => x.1.lootRollFrameIndex == some frameIndex).map Prod.snd := by
    intro l hl
    induction l with
    | nil => rfl
    | cons x l ih =>
      have hx := hl x List.mem_cons_self
      have hrest := ih fun y hy => hl y (List.mem_cons_of_mem _ hy)
      rw [List.filterMap_cons, List.filter_cons, hx, Bool.and_true]
      by_cases hf : (x.1.lootRollFrameIndex == some frameIndex) = true
      · simp only [hf, if_true, List.map_cons, hrest]
      · simp only [hf, Bool.false_eq_true, if_false, hrest]
  apply hloop
  intro x hx
  exact h x.1 (List.fst_mem_of_mem_zipIdx hx)

theorem frameElements_nodup (elements : List Element) (frameIndex : Nat) : (frameElements elements frameIndex).Nodup := by
  have hsub : (frameElements elements frameIndex).Sublist ((elements.zipIdx 1).map Prod.snd) :=
    List.filter_sublist.map Prod.snd
  rw [List.zipIdx_map_snd] at hsub
  exact hsub.nodup List.nodup_range'

theorem elementAt_iff {elements : List Element} {index : Nat} {e : Element} :
    elementAt elements index = some e ↔ 1 ≤ index ∧ elements[index - 1]? = some e := by
  unfold elementAt
  split
  · simp_all
  · simp only [iff_and_self]
    omega

theorem mem_frameElements {elements : List Element} {frameIndex index : Nat} :
    index ∈ frameElements elements frameIndex ↔
      (elementAt elements index).bind (·.lootRollFrameIndex) = some frameIndex := by
  simp only [frameElements, List.mem_map, List.mem_filter, Option.bind_eq_some_iff, elementAt_iff, beq_iff_eq]
  constructor
  · intro ⟨x, ⟨hx, hf⟩, hi⟩
    rw [List.mem_zipIdx_iff_le_and_getElem?_sub, hi] at hx
    exact ⟨x.1, hx, hf⟩
  · intro ⟨e, he, hf⟩
    exact ⟨(e, index), ⟨List.mk_mem_zipIdx_iff_le_and_getElem?_sub.mpr he, hf⟩, rfl⟩

theorem frameElements_length (elements : List Element) (frameIndex : Nat) :
    (frameElements elements frameIndex).length =
      (elements.filter fun e => e.lootRollFrameIndex == some frameIndex).length := by
  have hfst : ((elements.zipIdx 1).filter fun x => x.1.lootRollFrameIndex == some frameIndex).map Prod.fst =
      elements.filter fun e => e.lootRollFrameIndex == some frameIndex := by
    conv_rhs => rw [← List.zipIdx_map_fst 1 elements, List.filter_map]
    rfl
  rw [frameElements, List.length_map, ← hfst, List.length_map]

/-- The position of an entry is the one a search for it finds. -/
theorem findIdx?_of_nodup {l : List Nat} (hnodup : l.Nodup) {i x : Nat} (hi : l[i]? = some x) :
    l.findIdx? (· == x) = some i := by
  obtain ⟨hlt, rfl⟩ := List.getElem?_eq_some_iff.mp hi
  rw [List.findIdx?_eq_some_iff_getElem]
  refine ⟨hlt, by simp, fun j hj hfound => ?_⟩
  have := hnodup.getElem_inj_iff.mp (eq_of_beq hfound)
  omega

theorem focusedFrame_eq {f : Nat} (hf : focusedFrame s = some f) :
    ∃ e, elementAt s.nav.elements s.nav.index = some e ∧ e.lootRollFrameIndex = some f :=
  Option.bind_eq_some_iff.mp hf

theorem mem_focused {f : Nat} : s.nav.index ∈ frameElements s.nav.elements f ↔ focusedFrame s = some f :=
  mem_frameElements

/-- LEFT and RIGHT go by the position among the frame's elements. -/
theorem rollMove_sideways (hs : Rolls c groups s) {f : Nat} (hf : focusedFrame s = some f) {dir : Dir}
    (hdir : dir.sideways = true) : rollMove s.world s.nav.elements s.nav.index dir =
      if (frameElements s.nav.elements f).length < 2 then none
      else (frameElements s.nav.elements f)[cyclic (frameElements s.nav.elements f).length
        ((((frameElements s.nav.elements f).findIdx? (· == s.nav.index)).map (· + 1)).getD 1) (dir == .RIGHT) - 1]? := by
  obtain ⟨e, he, hframe⟩ := focusedFrame_eq hf
  have hside : (dir == .LEFT || dir == .RIGHT) = true := by cases dir <;> simp_all [Dir.sideways]
  unfold rollMove
  rw [he]
  simp only [Option.bind_some, hframe, Option.map_some, hside, if_true, rollCandidates_usable hs.usableNow]

section Sideways

variable {elements : List Element} {f : Nat} (h2 : 2 ≤ (frameElements elements f).length)
include h2

theorem sideways_place (dir : Dir) (hdir : dir.sideways = true) (hs : Rolls c groups s) (hel : s.nav.elements = elements)
    {i : Nat} (hi : (frameElements elements f)[i]? = some s.nav.index) {j : Nat}
    (hj : cyclic (frameElements elements f).length (i + 1) (dir == .RIGHT) - 1 = j)
    (hlt : j < (frameElements elements f).length) :
    rollMove s.world s.nav.elements s.nav.index dir = some (pressRoll c dir s).nav.index ∧
      (frameElements elements f)[j]? = some (pressRoll c dir s).nav.index := by
  subst hel
  have hf := mem_focused.mp (List.mem_of_getElem? hi)
  have hto := List.getElem?_eq_getElem hlt
  have hmove : rollMove s.world s.nav.elements s.nav.index dir = some (frameElements s.nav.elements f)[j] := by
    rw [rollMove_sideways hs hf hdir, if_neg (by omega), findIdx?_of_nodup (frameElements_nodup _ _) hi]
    simp only [Option.map_some, Option.getD_some, hj, hto]
  rw [pressRoll_index hmove]
  exact ⟨hmove, hto⟩

theorem right_rotates : Rotates (fun t => Rolls c groups t ∧ t.nav.elements = elements) (fun t => t.nav.index)
    (frameElements elements f) (pressRoll c .RIGHT) := by
  refine ⟨fun t ht => ⟨ht.1.press .RIGHT, by rw [pressRoll_elements, ht.2]⟩, fun t i ht hi => ?_⟩
  have hlt := (List.getElem?_eq_some_iff.mp hi).1
  exact (sideways_place h2 .RIGHT rfl ht.1 ht.2 hi (cyclic_forward hlt) (Nat.mod_lt _ (by omega))).2

theorem left_rotates : Rotates (fun t => Rolls c groups t ∧ t.nav.elements = elements) (fun t => t.nav.index)
    (frameElements elements f).reverse (pressRoll c .LEFT) := by
  apply rotates_reverse
  · intro t ht
    exact ⟨ht.1.press .LEFT, by rw [pressRoll_elements, ht.2]⟩
  · intro t i ht hi
    have hlt := (List.getElem?_eq_some_iff.mp hi).1
    exact (sideways_place h2 .LEFT rfl ht.1 ht.2 hi (cyclic_back hlt) (Nat.mod_lt _ (by omega))).2

variable (c groups) in
/-- A press and its opposite go around the same list, one each way. -/
theorem sideways_rotates {dir : Dir} (hdir : dir.sideways = true) : ∃ l, l.Perm (frameElements elements f) ∧
    Rotates (fun t => Rolls c groups t ∧ t.nav.elements = elements) (fun t => t.nav.index) l (pressRoll c dir) ∧
    Rotates (fun t => Rolls c groups t ∧ t.nav.elements = elements) (fun t => t.nav.index) l.reverse
      (pressRoll c dir.opposite) := by
  cases dir with
  | UP => cases hdir
  | DOWN => cases hdir
  | LEFT =>
    refine ⟨_, List.reverse_perm _, left_rotates h2, ?_⟩
    rw [List.reverse_reverse]
    exact right_rotates h2
  | RIGHT => exact ⟨_, List.Perm.refl _, right_rotates h2, left_rotates h2⟩

theorem sideways_stays {dir : Dir} (hdir : dir.sideways = true) (hs : Rolls c groups s) (hel : s.nav.elements = elements)
    (hf : focusedFrame s = some f) : focusedFrame (pressRoll c dir s) = some f := by
  obtain ⟨l, hperm, hrot, _⟩ := sideways_rotates c groups h2 hdir
  have hmem : s.nav.index ∈ frameElements elements f := hel ▸ mem_focused.mpr hf
  have hnext := hperm.mem_iff.mp (hrot.mem_iterate ⟨hs, hel⟩ (hperm.mem_iff.mpr hmem) 1)
  rw [← hel, ← pressRoll_elements (c := c) dir s] at hnext
  exact mem_focused.mp hnext

theorem sideways_stays_run (hs : Rolls c groups s) (hel : s.nav.elements = elements) (hf : focusedFrame s = some f)
    (ds : List Dir) (hds : ∀ d ∈ ds, d.sideways = true) : focusedFrame (pressAll c ds s) = some f := by
  induction ds generalizing s with
  | nil => exact hf
  | cons dir ds ih =>
    have hdir := hds dir List.mem_cons_self
    exact ih (hs.press dir) (by rw [pressRoll_elements, hel]) (sideways_stays h2 hdir hs hel hf)
      fun d hd => hds d (List.mem_cons_of_mem _ hd)

end Sideways

/-! ## From frame to frame -/

section Frames

variable {elements : List Element}

/-- A group adds its frame number once. -/
theorem rollFrameIndices_group {f : Nat} {block rest : List Element} (hblock : ∀ e ∈ block, e.lootRollFrameIndex = some f) :
    rollFrameIndices (some f) (block ++ rest) = rollFrameIndices (some f) rest := by
  induction block with
  | nil => rfl
  | cons e block ih =>
    have he := hblock e List.mem_cons_self
    rw [List.cons_append, rollFrameIndices, he]
    simp only [BEq.rfl, if_true]
    exact ih fun e' he' => hblock e' (List.mem_cons_of_mem _ he')

theorem rollFrameIndices_flat (groups : List (Nat × List Element)) (hfilled : ∀ g ∈ groups, g.2 ≠ [])
    (hnumbered : ∀ g ∈ groups, ∀ e ∈ g.2, e.lootRollFrameIndex = some g.1) (hframes : (groups.map Prod.fst).Nodup)
    (last : Option Nat) (hlast : ∀ f ∈ groups.map Prod.fst, some f ≠ last) :
    rollFrameIndices last (groups.flatMap Prod.snd) = groups.map Prod.fst := by
  induction groups generalizing last with
  | nil => rfl
  | cons g groups ih =>
    obtain ⟨f, block⟩ := g
    rw [List.map_cons, List.nodup_cons] at hframes
    have hblock := hnumbered (f, block) List.mem_cons_self
    cases block with
    | nil => exact absurd rfl (hfilled (f, []) List.mem_cons_self)
    | cons e block =>
      have hnew : (some f == last) = false := by simpa using hlast f (by simp)
      have hrest : rollFrameIndices (some f) (groups.flatMap Prod.snd) = groups.map Prod.fst := by
        apply ih (fun g hg => hfilled g (List.mem_cons_of_mem _ hg)) (fun g hg => hnumbered g (List.mem_cons_of_mem _ hg))
          hframes.2
        intro f' hf' heq
        exact hframes.1 (Option.some.inj heq ▸ hf')
      rw [List.flatMap_cons, List.map_cons, List.cons_append, rollFrameIndices, hblock e List.mem_cons_self]
      simp only [hnew, Bool.false_eq_true, if_false]
      rw [rollFrameIndices_group fun e' he' => hblock e' (List.mem_cons_of_mem _ he'), hrest]

variable (h : RollGroups elements groups)
include h

theorem RollGroups.frameIndices : rollFrameIndices none elements = groups.map Prod.fst := by
  rw [h.flat]
  exact rollFrameIndices_flat groups h.filled h.numbered h.frames none (by simp)

theorem RollGroups.mem {g : Nat × List Element} (hg : g ∈ groups) {e : Element} (he : e ∈ g.2) : e ∈ elements := by
  rw [h.flat]
  exact List.mem_flatMap.mpr ⟨g, hg, he⟩

/-- The group of an element. -/
theorem RollGroups.exists_group {e : Element} (he : e ∈ elements) : ∃ g ∈ groups, e ∈ g.2 ∧ e.lootRollFrameIndex = some g.1 := by
  rw [h.flat] at he
  obtain ⟨g, hg, heg⟩ := List.mem_flatMap.mp he
  exact ⟨g, hg, heg, h.numbered g hg e heg⟩

theorem RollGroups.group_elements {g : Nat × List Element} (hg : g ∈ groups) :
    (elements.filter fun e => e.lootRollFrameIndex == some g.1) = g.2 := by
  obtain ⟨before, after, hsplit⟩ := List.append_of_mem hg
  have hother : ∀ other : List (Nat × List Element), (∀ g' ∈ other, g' ∈ groups ∧ g'.1 ≠ g.1) →
      ((other.flatMap Prod.snd).filter fun e => e.lootRollFrameIndex == some g.1) = [] := by
    intro other hne
    rw [List.filter_eq_nil_iff]
    intro e he
    obtain ⟨g', hg', heg'⟩ := List.mem_flatMap.mp he
    rw [h.numbered g' (hne g' hg').1 e heg']
    simpa using (hne g' hg').2
  have hframes := h.frames
  rw [hsplit, List.map_append, List.map_cons] at hframes
  have hdistinct := List.nodup_middle.mp hframes
  rw [List.nodup_cons, List.mem_append, not_or] at hdistinct
  have hbefore := hother before fun g' hg' => ⟨by simp [hsplit, hg'], fun heq =>
    hdistinct.1.1 (heq ▸ List.mem_map_of_mem hg')⟩
  have hafter := hother after fun g' hg' => ⟨by simp [hsplit, hg'], fun heq =>
    hdistinct.1.2 (heq ▸ List.mem_map_of_mem hg')⟩
  have hgroup : (g.2.filter fun e => e.lootRollFrameIndex == some g.1) = g.2 := by
    rw [List.filter_eq_self]
    intro e he
    simp [h.numbered g hg e he]
  rw [h.flat, hsplit, List.flatMap_append, List.flatMap_cons, List.filter_append, List.filter_append, hbefore, hafter,
    hgroup, List.nil_append, List.append_nil]

/-- The frame and the choice tell the elements apart. -/
theorem RollGroups.nodup : (elements.map fun e => (e.lootRollFrameIndex, e.lootRollChoice)).Nodup := by
  rw [h.flat, List.map_flatMap, List.nodup_flatMap]
  constructor
  · intro g hg
    refine List.Nodup.of_map Prod.snd ?_
    rw [List.map_map]
    exact h.choices g hg
  · refine List.Pairwise.imp_of_mem ?_ (List.pairwise_map.mp h.frames)
    intro g g' hg hg' hne x hx hx'
    obtain ⟨e, he, rfl⟩ := List.mem_map.mp hx
    obtain ⟨e', he', heq⟩ := List.mem_map.mp hx'
    have hframe := (Prod.mk.inj heq).1
    rw [h.numbered g hg e he, h.numbered g' hg' e' he'] at hframe
    exact hne (Option.some.inj hframe).symm

theorem RollGroups.index_eq {i j : Nat} {e e' : Element} (he : elementAt elements i = some e)
    (he' : elementAt elements j = some e') (hframe : e.lootRollFrameIndex = e'.lootRollFrameIndex)
    (hchoice : e.lootRollChoice = e'.lootRollChoice) : i = j := by
  obtain ⟨hi, he⟩ := elementAt_iff.mp he
  obtain ⟨hj, he'⟩ := elementAt_iff.mp he'
  have hsame : (elements.map fun e => (e.lootRollFrameIndex, e.lootRollChoice))[i - 1]? =
      (elements.map fun e => (e.lootRollFrameIndex, e.lootRollChoice))[j - 1]? := by
    rw [List.getElem?_map, List.getElem?_map, he, he', Option.map_some, Option.map_some, hframe, hchoice]
  have hlt : i - 1 < (elements.map fun e => (e.lootRollFrameIndex, e.lootRollChoice)).length := by
    rw [List.length_map]
    exact (List.getElem?_eq_some_iff.mp he).1
  have := (List.getElem?_inj hlt h.nodup).mp hsame
  omega

end Frames

/-- UP and DOWN go by the position among the frames, to the choice if it is offered there. -/
theorem rollMove_vertical (s : St) {e : Element} (he : elementAt s.nav.elements s.nav.index = some e) {f : Nat}
    (hf : e.lootRollFrameIndex = some f) {dir : Dir} (hdir : dir.sideways = false) :
    rollMove s.world s.nav.elements s.nav.index dir =
      if (rollFrameIndices none s.nav.elements).length < 2 then none
      else
        let target := (rollFrameIndices none s.nav.elements)[cyclic (rollFrameIndices none s.nav.elements).length
          ((((rollFrameIndices none s.nav.elements).findIdx? (· == f)).map (· + 1)).getD 1) (dir == .UP) - 1]?
        (findElement s.nav.elements fun e' => e'.lootRollFrameIndex == target && e'.lootRollChoice == e.lootRollChoice &&
          usableElement s.world e').or
        (findElement s.nav.elements fun e' => e'.lootRollFrameIndex == target && usableElement s.world e') := by
  have hside : (dir == .LEFT || dir == .RIGHT) = false := by cases dir <;> simp_all [Dir.sideways]
  unfold rollMove
  rw [he]
  simp only [Option.bind_some, hf, Option.map_some, hside, Bool.false_eq_true, if_false]

section Vertical

variable (h2 : 2 ≤ groups.length)
include h2

/-- The element a press to the frame at position `j` lands on. -/
theorem vertical_lands (dir : Dir) (hdir : dir.sideways = false) (hs : Rolls c groups s) {e : Element}
    (he : elementAt s.nav.elements s.nav.index = some e) {f : Nat} (hf : e.lootRollFrameIndex = some f) {i : Nat}
    (hi : (groups.map Prod.fst)[i]? = some f) {j : Nat} (hj : cyclic groups.length (i + 1) (dir == .UP) - 1 = j)
    {g : Nat × List Element} (hg : groups[j]? = some g) :
    rollMove s.world s.nav.elements s.nav.index dir = some (pressRoll c dir s).nav.index ∧
      ∃ e', elementAt s.nav.elements (pressRoll c dir s).nav.index = some e' ∧ e'.lootRollFrameIndex = some g.1 ∧
        ((∃ e'' ∈ s.nav.elements, e''.lootRollFrameIndex = some g.1 ∧ e''.lootRollChoice = e.lootRollChoice) →
          e'.lootRollChoice = e.lootRollChoice) := by
  have hmem := List.mem_of_getElem? hg
  have htarget : (groups.map Prod.fst)[j]? = some g.1 := by rw [List.getElem?_map, hg, Option.map_some]
  have hmove := rollMove_vertical s he hf hdir
  rw [hs.groups.frameIndices, List.length_map, if_neg (by omega), findIdx?_of_nodup hs.groups.frames hi] at hmove
  simp only [Option.map_some, Option.getD_some, hj, htarget] at hmove
  cases hchoice : findElement s.nav.elements fun e' => e'.lootRollFrameIndex == some g.1 &&
      e'.lootRollChoice == e.lootRollChoice && usableElement s.world e' with
  | some index =>
    rw [hchoice, Option.some_or] at hmove
    obtain ⟨e', he', hspec⟩ := findElement_spec hchoice
    simp only [Bool.and_eq_true, beq_iff_eq] at hspec
    rw [pressRoll_index hmove]
    exact ⟨hmove, e', he', hspec.1.1, fun _ => hspec.1.2⟩
  | none =>
    obtain ⟨e0, rest, hblock⟩ := List.exists_cons_of_ne_nil (hs.groups.filled g hmem)
    have he0 : e0 ∈ g.2 := by simp [hblock]
    have hin := hs.groups.mem hmem he0
    obtain ⟨index, hfirst⟩ := findElement_isSome (p := fun e' => e'.lootRollFrameIndex == some g.1 && usableElement s.world e')
      hin (by simp [hs.groups.numbered g hmem e0 he0, hs.usableNow e0 hin])
    rw [hchoice, Option.none_or, hfirst] at hmove
    obtain ⟨e', he', hspec⟩ := findElement_spec hfirst
    rw [pressRoll_index hmove]
    refine ⟨hmove, e', he', by simpa using (Bool.and_eq_true_iff.mp hspec).1, fun hoffered => ?_⟩
    obtain ⟨e'', hin', hframe, hsame⟩ := hoffered
    obtain ⟨_, hfound⟩ := findElement_isSome (p := fun e' => e'.lootRollFrameIndex == some g.1 &&
      e'.lootRollChoice == e.lootRollChoice && usableElement s.world e') hin' (by simp [hframe, hsame, hs.usableNow e'' hin'])
    rw [hchoice] at hfound
    cases hfound

theorem vertical_place (dir : Dir) (hdir : dir.sideways = false) (hs : Rolls c groups s) {i : Nat}
    (hi : (groups.map fun g => some g.1)[i]? = some (focusedFrame s)) {j : Nat}
    (hj : cyclic groups.length (i + 1) (dir == .UP) - 1 = j) (hlt : j < groups.length) :
    (groups.map fun g => some g.1)[j]? = some (focusedFrame (pressRoll c dir s)) := by
  have hg := List.getElem?_eq_getElem hlt
  rw [List.getElem?_map, Option.map_eq_some_iff] at hi
  obtain ⟨g, hgi, hf⟩ := hi
  obtain ⟨e, he, hframe⟩ := focusedFrame_eq hf.symm
  have hi' : (groups.map Prod.fst)[i]? = some g.1 := by rw [List.getElem?_map, hgi, Option.map_some]
  obtain ⟨_, e', he', hf', _⟩ := vertical_lands h2 dir hdir hs he hframe hi' hj hg
  rw [List.getElem?_map, hg, Option.map_some, focusedFrame, pressRoll_elements, he', Option.bind_some, hf']

theorem up_rotates : Rotates (Rolls c groups) focusedFrame (groups.map fun g => some g.1) (pressRoll c .UP) := by
  refine ⟨fun t ht => ht.press .UP, fun t i ht hi => ?_⟩
  have hlt := (List.getElem?_eq_some_iff.mp hi).1
  rw [List.length_map] at hlt ⊢
  exact vertical_place h2 .UP rfl ht hi (cyclic_forward hlt) (Nat.mod_lt _ (by omega))

theorem down_rotates : Rotates (Rolls c groups) focusedFrame (groups.map fun g => some g.1).reverse (pressRoll c .DOWN) := by
  apply rotates_reverse
  · intro t ht
    exact ht.press .DOWN
  · intro t i ht hi
    have hlt := (List.getElem?_eq_some_iff.mp hi).1
    rw [List.length_map] at hlt ⊢
    exact vertical_place h2 .DOWN rfl ht hi (cyclic_back hlt) (Nat.mod_lt _ (by omega))

theorem vertical_rotates {dir : Dir} (hdir : dir.sideways = false) : ∃ l, l.Perm (groups.map fun g => some g.1) ∧
    Rotates (Rolls c groups) focusedFrame l (pressRoll c dir) ∧
    Rotates (Rolls c groups) focusedFrame l.reverse (pressRoll c dir.opposite) := by
  cases dir with
  | UP => exact ⟨_, List.Perm.refl _, up_rotates h2, down_rotates h2⟩
  | DOWN =>
    refine ⟨_, List.reverse_perm _, down_rotates h2, ?_⟩
    rw [List.reverse_reverse]
    exact up_rotates h2
  | LEFT => cases hdir
  | RIGHT => cases hdir

/-- A press moves, to the focused choice if the frame it leads to offers it. -/
theorem vertical_moves {dir : Dir} (hdir : dir.sideways = false) (hs : Rolls c groups s) {e : Element}
    (he : elementAt s.nav.elements s.nav.index = some e) :
    rollMove s.world s.nav.elements s.nav.index dir = some (pressRoll c dir s).nav.index ∧
      ∀ e'' ∈ s.nav.elements, e''.lootRollFrameIndex = focusedFrame (pressRoll c dir s) →
        e''.lootRollChoice = e.lootRollChoice →
        ∃ e', elementAt s.nav.elements (pressRoll c dir s).nav.index = some e' ∧
          e'.lootRollFrameIndex = focusedFrame (pressRoll c dir s) ∧ e'.lootRollChoice = e.lootRollChoice := by
  obtain ⟨g, hg, _, hframe⟩ := hs.groups.exists_group (elementAt_mem he)
  obtain ⟨i, hi⟩ := List.mem_iff_getElem?.mp (List.mem_map_of_mem (f := Prod.fst) hg)
  have hlt : i < groups.length := by simpa using (List.getElem?_eq_some_iff.mp hi).1
  obtain ⟨hmove, e', he', hf', hchoice⟩ := vertical_lands h2 dir hdir hs he hframe hi rfl
    (List.getElem?_eq_getElem (cyclic_lt hlt (dir == .UP)))
  have hfocus : focusedFrame (pressRoll c dir s) = e'.lootRollFrameIndex := by
    rw [focusedFrame, pressRoll_elements, he', Option.bind_some]
  refine ⟨hmove, fun e'' hin hframe'' hsame => ⟨e', he', hfocus.symm, ?_⟩⟩
  exact hchoice ⟨e'', hin, by rw [hframe'', hfocus, hf'], hsame⟩

end Vertical

/-! ## The rules of the loot rolls -/

theorem opposite_sideways (dir : Dir) : dir.opposite.sideways = dir.sideways := by cases dir <;> rfl

theorem cyclesInFrame (hs : Rolls c groups s) {g : Nat × List Element} (hg : g ∈ groups)
    (hf : focusedFrame s = some g.1) {dir : Dir} (hdir : dir.sideways = true) (h2 : 2 ≤ g.2.length) :
    CyclesInFrame c g dir s := by
  have hlen : (frameElements s.nav.elements g.1).length = g.2.length := by
    rw [frameElements_length, hs.groups.group_elements hg]
  rw [← hlen] at h2
  obtain ⟨l, hperm, hrot, hback⟩ := sideways_rotates c groups h2 hdir
  have hmem : s.nav.index ∈ l := hperm.mem_iff.mpr (mem_focused.mpr hf)
  have hlength : l.length = g.2.length := by rw [hperm.length_eq, hlen]
  obtain ⟨i, hi⟩ := List.mem_iff_getElem?.mp (mem_focused.mpr hf)
  have hlt := (List.getElem?_eq_some_iff.mp hi).1
  constructor
  · rw [moveGroupLootRoll_moves, (sideways_place h2 dir hdir hs rfl hi rfl (cyclic_lt hlt _)).1]
    rfl
  · exact sideways_stays_run h2 hs rfl hf
  · exact hrot.undo hback ⟨hs, rfl⟩ hmem
  · rw [← hlength]
    exact hrot.returns ⟨hs, rfl⟩ hmem
  · intro index e he hframe
    rw [← hlength]
    apply hrot.reaches ⟨hs, rfl⟩ hmem
    rw [hperm.mem_iff, mem_frameElements, he]
    exact hframe

theorem cyclesFrames (hs : Rolls c groups s) {g : Nat × List Element} (hg : g ∈ groups)
    (hf : focusedFrame s = some g.1) {dir : Dir} (hdir : dir.sideways = false) (h2 : 2 ≤ groups.length) :
    CyclesFrames c groups dir s := by
  obtain ⟨l, hperm, hrot, hback⟩ := vertical_rotates (c := c) h2 hdir
  have hmem : focusedFrame s ∈ l := by
    rw [hperm.mem_iff, hf]
    exact List.mem_map_of_mem (f := fun g : Nat × List Element => some g.1) hg
  have hlength : l.length = groups.length := by rw [hperm.length_eq, List.length_map]
  have hundone := hrot.undo hback hs hmem
  obtain ⟨e, he, _⟩ := focusedFrame_eq hf
  constructor
  · rw [moveGroupLootRoll_moves, (vertical_moves h2 hdir hs he).1]
    rfl
  · exact hundone
  · intro e e' he hin hframe' hchoice
    have hfocus : focusedFrame s = e.lootRollFrameIndex := by rw [focusedFrame, he, Option.bind_some]
    obtain ⟨e1, he1, hf1, hc1⟩ := (vertical_moves h2 hdir hs he).2 e' hin hframe' hchoice
    have hopposite : dir.opposite.sideways = false := by rw [opposite_sideways, hdir]
    have hel := pressRoll_elements (c := c) dir s
    obtain ⟨e2, he2, hf2, hc2⟩ := (vertical_moves h2 hopposite (hs.press dir) (hel ▸ he1)).2 e
      (hel ▸ elementAt_mem he) (by rw [hundone, hfocus]) hc1.symm
    rw [hel] at he2
    exact hs.groups.index_eq he2 he (by rw [hf2, hundone, hfocus]) (by rw [hc2, hc1])
  · rw [← hlength]
    exact hrot.returns hs hmem
  · intro g' hg'
    rw [← hlength]
    apply hrot.reaches hs hmem
    rw [hperm.mem_iff]
    exact List.mem_map_of_mem (f := fun g : Nat × List Element => some g.1) hg'

/-- From every focused element of the rolls: LEFT and RIGHT go around its frame, UP and
    DOWN around the frames, and where there is nothing to go around to nothing changes. -/
theorem moveGroupLootRoll_cyclic (c : Client) (groups : List (Nat × List Element)) (s : St) (hs : Rolls c groups s)
    (g : Nat × List Element) (hg : g ∈ groups) (hf : focusedFrame s = some g.1) (dir : Dir) :
    (dir.sideways = true → 2 ≤ g.2.length → CyclesInFrame c g dir s) ∧
    (dir.sideways = false → 2 ≤ groups.length → CyclesFrames c groups dir s) ∧
    ((if dir.sideways then g.2.length else groups.length) < 2 → moveGroupLootRoll c dir s = (false, s)) := by
  refine ⟨cyclesInFrame hs hg hf, cyclesFrames hs hg hf, fun hfew => ?_⟩
  have hnone : rollMove s.world s.nav.elements s.nav.index dir = none := by
    cases hdir : dir.sideways with
    | true =>
      rw [hdir, if_pos rfl, ← hs.groups.group_elements hg, ← frameElements_length] at hfew
      rw [rollMove_sideways hs hf hdir, if_pos hfew]
    | false =>
      rw [hdir, if_neg (by simp)] at hfew
      obtain ⟨e, he, hframe⟩ := focusedFrame_eq hf
      rw [rollMove_vertical s he hframe hdir, hs.groups.frameIndices, List.length_map, if_pos hfew]
  unfold moveGroupLootRoll
  rw [hnone]

/-! ## Two rolls -/

theorem pressAll_still {mappings : ButtonMappings} (ds : List Dir) (s : St) :
    (pressAll (stillClient mappings) ds s).world = s.world := by
  induction ds generalizing s with
  | nil => rfl
  | cons dir ds ih =>
    show (pressAll (stillClient mappings) ds (pressRoll (stillClient mappings) dir s)).world = _
    rw [ih, pressRoll_eq]
    cases rollMove s.world s.nav.elements s.nav.index dir with
    | none => rfl
    | some index => exact hovering_still (updateHighlight_calls (setIndex index s))

/-- The second roll offers no greed. -/
def twoRolls : World := World.ofFrames
  [{ name := some "GroupLootFrame1", visible := true, rollID := some 7 },
   { name := some "GroupLootFrame1RollButton", visible := true, center := some (40, 10), clickable := true },
   { name := some "GroupLootFrame1GreedButton", visible := true, center := some (70, 10), clickable := true },
   { name := some "GroupLootFrame1PassButton", visible := true, center := some (100, 10), clickable := true },
   { name := some "GroupLootFrame2", visible := true, rollID := some 8 },
   { name := some "GroupLootFrame2RollButton", visible := true, center := some (40, 60), clickable := true },
   { name := some "GroupLootFrame2PassButton", visible := true, center := some (100, 60), clickable := true }]

def twoRollsState : St := run (step (stillClient bridgeMappings)) (fresh twoRolls defaultDB fun _ => "") [.scan]

/-- The groups of a list by its frame numbers. -/
def rollGroups (elements : List Element) : List (Nat × List Element) :=
  (rollFrameIndices none elements).map fun f => (f, elements.filter fun e => e.lootRollFrameIndex == some f)

theorem twoRollsState_rolls : Rolls (stillClient bridgeMappings) (rollGroups twoRollsState.nav.elements) twoRollsState := by
  refine ⟨⟨?_, ?_, ?_, ?_, ?_⟩, fun ds e he => ?_⟩
  · decide +kernel
  · decide +kernel
  · decide +kernel
  · decide +kernel
  · decide +kernel
  · rw [pressAll_still]
    have husable : ∀ e ∈ twoRollsState.nav.elements, usableElement twoRollsState.world e = true := by decide +kernel
    exact husable e he

theorem twoRollsState_cyclic :
    CyclesInFrame (stillClient bridgeMappings) (1, twoRollsState.nav.elements.take 3) .RIGHT twoRollsState ∧
    CyclesFrames (stillClient bridgeMappings) (rollGroups twoRollsState.nav.elements) .DOWN twoRollsState := by
  have hcyclic := moveGroupLootRoll_cyclic (stillClient bridgeMappings) (rollGroups twoRollsState.nav.elements) twoRollsState
    twoRollsState_rolls (1, twoRollsState.nav.elements.take 3) (by decide +kernel) (by decide +kernel)
  exact ⟨(hcyclic .RIGHT).1 rfl (by decide +kernel), (hcyclic .DOWN).2.1 rfl (by decide +kernel)⟩

end Nostalgia.Controller
