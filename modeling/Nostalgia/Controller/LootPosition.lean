/-
  Nostalgia.Controller.LootPosition — the loot window beside the cursor
  (PositionLootFrameAtCursor, DinoController.lua).

  The window goes to the right of the cursor and below it, else to the left and above, and
  is then kept inside the parent. `lootFrame_placed`: where one of the four sides has room
  for it no clamp undoes that side, so the cursor is off the window.
-/

import Nostalgia.Controller.Session

namespace Nostalgia.Controller

/-- `GetEffectiveScale`, which always answers, `GetWidth` and `GetHeight` of UIParent or of LootFrame. -/
structure Region where
  effectiveScale : ℚ
  width : Option ℚ
  height : Option ℚ

/-- What `PositionLootFrameAtCursor` asks the client; `none`: there is no such global. -/
structure LootScreen where
  UIParent : Option Region
  LootFrame : Option Region
  /-- `GetCursorPosition`, in physical pixels. -/
  cursorPosition : Option (ℚ × ℚ)

def offset : ℚ := 16

/-- Inside the parent, at 0 if it is smaller than the window. -/
def keepInside (parentSize visibleSize x : ℚ) : ℚ := max 0 (min x (max 0 (parentSize - visibleSize)))

def lootLeft (parentWidth visibleWidth cursorX : ℚ) : ℚ :=
  let left := cursorX + offset
  let left := if parentWidth < left + visibleWidth then cursorX - offset - visibleWidth else left
  keepInside parentWidth visibleWidth left

def lootBottom (parentHeight visibleHeight cursorY : ℚ) : ℚ :=
  let bottom := cursorY - offset - visibleHeight
  let bottom := if bottom < 0 then cursorY + offset else bottom
  keepInside parentHeight visibleHeight bottom

/-- The point `PositionLootFrameAtCursor` sets, if it sets one. -/
def positionLootFrameAtCursor (db : DB) (screen : LootScreen) : Option (ℚ × ℚ) :=
  if db.controllerEnabled ≠ 0 then none
  else match screen.LootFrame, screen.UIParent, screen.cursorPosition with
  | some frame, some parent, some cursor =>
    if parent.effectiveScale ≤ 0 then none
    else match parent.width, parent.height, frame.width, frame.height with
    | some parentWidth, some parentHeight, some frameWidth, some frameHeight =>
      let frameScale := frame.effectiveScale / parent.effectiveScale
      if frameScale ≤ 0 then none
      else some (lootLeft parentWidth (frameWidth * frameScale) (cursor.1 / parent.effectiveScale),
        lootBottom parentHeight (frameHeight * frameScale) (cursor.2 / parent.effectiveScale))
    | _, _, _, _ => none
  | _, _, _ => none

/-! ## Inside the parent -/

section

variable {size visible x : ℚ}

theorem keepInside_bounds (h : visible ≤ size) : 0 ≤ keepInside size visible x ∧ keepInside size visible x ≤ size - visible := by
  have hroom : 0 ≤ size - visible := by linarith
  constructor
  · exact le_max_left _ _
  · apply max_le hroom
    rw [max_eq_right hroom]
    exact min_le_right _ _

theorem keepInside_same (h0 : 0 ≤ x) (h : x + visible ≤ size) : keepInside size visible x = x := by
  have hroom : x ≤ max 0 (size - visible) := le_max_of_le_right (by linarith)
  rw [keepInside, min_eq_left hroom, max_eq_right h0]

theorem keepInside_larger (h : size < visible) : keepInside size visible x = 0 := by
  have hnone : max 0 (size - visible) = 0 := max_eq_left (by linarith)
  rw [keepInside, hnone]
  exact max_eq_left (min_le_right x 0)

end

/-! ## Off the cursor -/

/-- Room beside the cursor on one of the two sides, with the offset. -/
def Room (size visible x : ℚ) : Prop := x + offset + visible ≤ size ∨ 0 ≤ x - offset - visible

theorem lootLeft_off {W w x : ℚ} (h0 : 0 ≤ x) (hW : x ≤ W) (h : Room W w x) : x < lootLeft W w x ∨ lootLeft W w x + w < x := by
  unfold Room offset at h
  unfold lootLeft offset
  dsimp only
  by_cases hright : W < x + 16 + w
  · have hleft : 0 ≤ x - 16 - w := by
      rcases h with h | h
      · linarith
      · exact h
    rw [if_pos hright, keepInside_same hleft (by linarith)]
    right
    linarith
  · rw [if_neg hright, keepInside_same (by linarith) (by linarith)]
    left
    linarith

theorem lootBottom_off {H h y : ℚ} (h0 : 0 ≤ y) (hH : y ≤ H) (hroom : Room H h y) :
    y < lootBottom H h y ∨ lootBottom H h y + h < y := by
  unfold Room offset at hroom
  unfold lootBottom offset
  dsimp only
  by_cases hbelow : y - 16 - h < 0
  · have habove : y + 16 + h ≤ H := by
      rcases hroom with hroom | hroom
      · exact hroom
      · linarith
    rw [if_pos hbelow, keepInside_same (by linarith) (by linarith)]
    left
    linarith
  · rw [if_neg hbelow, keepInside_same (by linarith) (by linarith)]
    right
    linarith

/-- The point is not in the rectangle. -/
def Outside (p : ℚ × ℚ) (left bottom w h : ℚ) : Prop :=
  p.1 < left ∨ left + w < p.1 ∨ p.2 < bottom ∨ bottom + h < p.2

/-- With the sizes `w` and `h` and the cursor in the units of the parent. -/
theorem lootFrame_placed (db : DB) (hdb : db.controllerEnabled = 0) (W H frameWidth frameHeight scale frameScale : ℚ)
    (hscale : 0 < scale) (hframe : 0 < frameScale) (cursor : ℚ × ℚ) (hx : 0 ≤ cursor.1 / scale ∧ cursor.1 / scale ≤ W)
    (hy : 0 ≤ cursor.2 / scale ∧ cursor.2 / scale ≤ H) :
    let x := cursor.1 / scale
    let y := cursor.2 / scale
    let w := frameWidth * (frameScale / scale)
    let h := frameHeight * (frameScale / scale)
    ∃ left bottom,
      positionLootFrameAtCursor db ⟨some ⟨scale, some W, some H⟩, some ⟨frameScale, some frameWidth, some frameHeight⟩,
        some cursor⟩ = some (left, bottom) ∧
      (w ≤ W → 0 ≤ left ∧ left ≤ W - w) ∧ (h ≤ H → 0 ≤ bottom ∧ bottom ≤ H - h) ∧
      (Room W w x ∨ Room H h y → Outside (x, y) left bottom w h) ∧
      (W < w → left = 0) ∧ (H < h → bottom = 0) := by
  have hratio : ¬ frameScale / scale ≤ 0 := not_le.mpr (div_pos hframe hscale)
  refine ⟨lootLeft W (frameWidth * (frameScale / scale)) (cursor.1 / scale),
    lootBottom H (frameHeight * (frameScale / scale)) (cursor.2 / scale), ?_, keepInside_bounds, keepInside_bounds,
    fun hroom => ?_, keepInside_larger, keepInside_larger⟩
  · rw [positionLootFrameAtCursor, if_neg (by simp [hdb])]
    simp only [not_le.mpr hscale, hratio, if_false]
  · rcases hroom with hroom | hroom
    · rcases lootLeft_off hx.1 hx.2 hroom with hoff | hoff
      · exact Or.inl hoff
      · exact Or.inr (Or.inl hoff)
    · rcases lootBottom_off hy.1 hy.2 hroom with hoff | hoff
      · exact Or.inr (Or.inr (Or.inl hoff))
      · exact Or.inr (Or.inr (Or.inr hoff))

/-- A window of 200 by 300 at the right edge of a parent of 1000 by 800, at half scale. -/
theorem edge_placed : ∃ left bottom,
    positionLootFrameAtCursor { defaultDB with controllerEnabled := 0 }
      ⟨some ⟨1 / 2, some 1000, some 800⟩, some ⟨1 / 2, some 200, some 300⟩, some (495, 100)⟩ = some (left, bottom) ∧
    Outside (990, 200) left bottom 200 300 := by
  obtain ⟨left, bottom, hset, _, _, hoff, _⟩ := lootFrame_placed { defaultDB with controllerEnabled := 0 } rfl 1000 800
    200 300 (1 / 2) (1 / 2) (by norm_num) (by norm_num) (495, 100) (by norm_num) (by norm_num)
  refine ⟨left, bottom, hset, ?_⟩
  norm_num at hoff
  exact hoff (Or.inl (Or.inr (by norm_num [offset])))

end Nostalgia.Controller
