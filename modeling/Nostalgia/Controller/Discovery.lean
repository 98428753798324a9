/-
  Nostalgia.Controller.Discovery — the scroll areas a scan finds in a frame tree
  (ScanScrollFrames).

  A scroll frame is met as itself and through its slider, and may already be listed under
  another key. `scanScrollFrames_distinct`: whatever the tree, what the scan appends are
  visible scrollable areas, and no frame and no scroll target is listed twice if none was
  before.
-/

import Nostalgia.Controller.Frames

namespace Nostalgia.Controller

variable (w : World)

/-- No two elements share a frame, and no two a scroll target. -/
structure Distinct (elements : List Element) : Prop where
  frames : (elements.map fun e => e.frame).Nodup
  targets : (elements.filterMap fun e => e.scrollTarget).Nodup

/-- A visible scrollable area, marked at its own frame. -/
structure Discovered (e : Element) : Prop where
  area : e.isScrollArea = true
  target : e.scrollTarget = some e.frame
  visible : (w.frame e.frame).visible = true
  scrollable : isScrollable w e.frame = true

/-- The second list is the first and discovered areas behind it, and as distinct. -/
structure Extends (elements elements' : List Element) : Prop where
  appends : ∃ added, elements' = elements ++ added ∧ ∀ e ∈ added, Discovered w e
  distinct : Distinct elements → Distinct elements'

variable {w}

theorem Extends.refl (elements : List Element) : Extends w elements elements :=
  ⟨⟨[], (List.append_nil _).symm, by simp⟩, fun h => h⟩

theorem Extends.trans {a b d : List Element} (h1 : Extends w a b) (h2 : Extends w b d) : Extends w a d := by
  obtain ⟨⟨added, rfl, hadded⟩, hdistinct⟩ := h1
  obtain ⟨⟨more, rfl, hmore⟩, hdistinct'⟩ := h2
  refine ⟨⟨added ++ more, List.append_assoc .., fun e he => ?_⟩, fun h => hdistinct' (hdistinct h)⟩
  rcases List.mem_append.mp he with he | he
  · exact hadded e he
  · exact hmore e he

/-! ## One child -/

/-- A target that is not registered is new as a frame and as a scroll target. -/
theorem distinct_append {elements : List Element} {e : Element} (h : Distinct elements) (he : e.scrollTarget = some e.frame)
    (hnew : isAlreadyRegistered elements e.frame e.frame = false) : Distinct (elements ++ [e]) := by
  have hfree : ∀ a ∈ elements, a.frame ≠ e.frame ∧ a.scrollTarget ≠ some e.frame := by
    intro a ha
    have := List.any_eq_false.mp hnew a ha
    simpa using this
  constructor
  · rw [List.map_append, List.nodup_append]
    refine ⟨h.frames, by simp, fun f hf g hg => ?_⟩
    obtain ⟨a, ha, rfl⟩ := List.mem_map.mp hf
    obtain rfl : g = e.frame := by simpa using hg
    exact (hfree a ha).1
  · rw [List.filterMap_append, List.nodup_append]
    refine ⟨h.targets, by simp [he], fun f hf g hg => ?_⟩
    obtain ⟨a, ha, hf⟩ := List.mem_filterMap.mp hf
    obtain rfl : g = e.frame := by simpa [he] using hg
    intro heq
    exact (hfree a ha).2 (heq ▸ hf)

theorem addScrollArea_extends {elements : List Element} (key : String) (target : FrameId) :
    Extends w elements (if isScrollable w target && !isAlreadyRegistered elements target target then
      addScrollArea w elements key (some target) (some target) (some target) else elements) := by
  split
  · rename_i hnew
    rw [Bool.and_eq_true, Bool.not_eq_true'] at hnew
    unfold addScrollArea
    dsimp only [Option.getD_some]
    split
    · rename_i hshown
      simp only [Bool.and_eq_true] at hshown
      refine ⟨⟨_, rfl, fun e he => ?_⟩, fun h => distinct_append h rfl hnew.2⟩
      obtain rfl := List.mem_singleton.mp he
      exact ⟨rfl, rfl, hshown.1.1, hshown.1.2⟩
    · exact .refl elements
  · exact .refl elements

theorem addDiscovered_extends (elements : List Element) (child : FrameId) :
    Extends w elements (addDiscovered w elements child) := by
  unfold addDiscovered
  dsimp only
  split
  · split
    · exact .refl elements
    -- the target: the slider's scroll frame, or the child itself
    · split
      · exact addScrollArea_extends _ _
      · exact addScrollArea_extends _ _
  · exact .refl elements

/-! ## The tree -/

/-- By the depth, and inside by the children. -/
theorem scanScrollFrames_extends (depth : Nat) (parent : FrameId) (elements : List Element) :
    Extends w elements (scanScrollFrames w depth parent elements) := by
  induction depth generalizing parent elements with
  | zero => exact .refl elements
  | succ depth ih =>
    have hchildren : ∀ (children : List FrameId) (els : List Element), Extends w els
        (children.foldl (fun els child =>
          if (w.frame child).visible then scanScrollFrames w depth child (addDiscovered w els child) else els) els) := by
      intro children
      induction children with
      | nil => exact .refl
      | cons child children hrest =>
        intro els
        rw [List.foldl_cons]
        refine Extends.trans ?_ (hrest _)
        by_cases hshown : (w.frame child).visible = true
        · rw [if_pos hshown]
          exact (addDiscovered_extends els child).trans (ih child _)
        · rw [if_neg hshown]
          exact .refl els
    rw [scanScrollFrames]
    split
    · exact hchildren _ elements
    · exact .refl elements

/-- A scan of any tree, to any depth. -/
theorem scanScrollFrames_distinct (w : World) (elements : List Element) (parent : Option FrameId) (depth : Nat)
    (h : Distinct elements) : ∃ added, scanScrollFramesOf w elements parent depth = elements ++ added ∧
      (∀ e ∈ added, Discovered w e) ∧ Distinct (scanScrollFramesOf w elements parent depth) := by
  have hext : Extends w elements (scanScrollFramesOf w elements parent depth) := by
    unfold scanScrollFramesOf
    cases parent with
    | none => exact .refl elements
    | some parent => exact scanScrollFrames_extends depth parent elements
  obtain ⟨added, heq, hadded⟩ := hext.appends
  exact ⟨added, heq, hadded, hext.distinct h⟩

/-! ## A scroll frame and its slider -/

/-- A panel with a scroll frame, its slider and a slider of its own. -/
def scrollPanel : World := World.ofFrames
  [{ name := some "Panel", visible := true, children := [1, 3] },
   { name := some "ListScrollFrame", visible := true, center := some (10, 10), objectType := .ScrollFrame,
     parent := some 0, children := [2], scrollFrame := some ⟨0, 100⟩ },
   { name := some "ListScrollFrameScrollBar", visible := true, center := some (20, 10), objectType := .Slider,
     parent := some 1, slider := some ⟨0, 100, 0, none⟩ },
   { visible := true, center := some (40, 10), objectType := .Slider, parent := some 0,
     slider := some ⟨0, 1, 0, none⟩ }]

/-- The scroll frame is registered under another key and through its slider's frame. -/
def panelList : List Element := [{ key := "ListArea", frame := 2, scrollTarget := some 1, isScrollArea := true }]

theorem scrollPanel_distinct : Distinct (scanScrollFramesOf scrollPanel panelList (some 0) 4) := by
  obtain ⟨_, _, _, hdistinct⟩ := scanScrollFrames_distinct scrollPanel panelList (some 0) 4 ⟨by decide, by decide⟩
  exact hdistinct

example : (scanScrollFramesOf scrollPanel panelList (some 0) 4).map (fun e => e.key) =
    ["ListArea", "DiscoveredScroll_2"] := by decide +kernel

end Nostalgia.Controller
