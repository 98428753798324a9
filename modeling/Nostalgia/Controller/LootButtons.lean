/-
  Nostalgia.Controller.LootButtons — which elements loot (DinoControllerUI.lua).

  `LootSlot` is called by `ActivateLootButton` alone, which an element runs only if it
  carries it as its action. Each loop that lists a panel is shown to add no such element;
  `AddLoot` is the only one that does.
  - `panelElements_lootless`, `buildElements_lootless`: only the loot window's list has
    loot buttons.
-/

import Nostalgia.Controller.Elements

namespace Nostalgia.Controller

variable {w : World} {els : List Element}

/-- The element stands for a loot button. -/
def Element.Loots (e : Element) : Prop := ∃ button, e.action = some (.activateLootButton button)

/-- No element of the list stands for a loot button. -/
def Lootless (elements : List Element) : Prop := ∀ e ∈ elements, ¬ e.Loots

/-! ## One element -/

theorem lootless_nil : Lootless [] := fun _ h => by cases h

theorem lootless_append {e : Element} (he : ¬ e.Loots) : Lootless (els ++ [e]) ↔ Lootless els := by
  simp [Lootless, or_imp, forall_and, he]

/-- Whichever way a test goes. -/
theorem ite_lootless {p : Prop} [Decidable p] {a b : List Element} (ha : Lootless a ↔ Lootless els)
    (hb : Lootless b ↔ Lootless els) : Lootless (if p then a else b) ↔ Lootless els := by
  split
  · exact ha
  · exact hb

/-- A loop whose rounds add no loot button adds none. -/
theorem foldl_lootless {α : Type} {f : List Element → α → List Element}
    (hf : ∀ els a, Lootless (f els a) ↔ Lootless els) (l : List α) (els : List Element) : Lootless (l.foldl f els) ↔ Lootless els := by
  induction l generalizing els with
  | nil => rfl
  | cons a l ih => rw [List.foldl_cons, ih, hf]

/-- An action of a button is made by this function, if there is one. -/
theorem map_not_loots {button : Option FrameId} {action : FrameId → ElementAction}
    (ha : ∀ a b, action a ≠ .activateLootButton b) (b : FrameId) :
    button.map action ≠ some (.activateLootButton b) := by
  intro h
  obtain ⟨a, _, heq⟩ := Option.map_eq_some_iff.mp h
  exact ha a b heq

theorem addFrameButton_lootless {key : String} {button : Option FrameId} {mouseButton : MouseButton}
    {action : Option ElementAction} {allowDisabled : Bool} (ha : ∀ b, action ≠ some (.activateLootButton b)) :
    Lootless (addFrameButton w els key button mouseButton action allowDisabled) ↔ Lootless els := by
  have he : ∀ frame, ¬ Element.Loots { key, frame, mouseButton, action, allowDisabled } :=
    fun _ ⟨b, hb⟩ => ha b hb
  unfold addFrameButton
  cases button with
  | none => rfl
  | some frame => exact ite_lootless (lootless_append (he frame)) Iff.rfl

theorem addScrollArea_lootless {key : String} {bar highlight target : Option FrameId} :
    Lootless (addScrollArea w els key bar highlight target) ↔ Lootless els := by
  unfold addScrollArea
  cases bar with
  | none => rfl
  | some bar => exact ite_lootless (lootless_append fun ⟨_, h⟩ => by cases h) Iff.rfl

/-! ## The loops -/

@[simp] theorem addActionButton_lootless {name : String} {mouseButton : MouseButton} {action : FrameId → ElementAction}
    (ha : ∀ a b, action a ≠ .activateLootButton b) :
    Lootless (addActionButton w els name mouseButton action) ↔ Lootless els :=
  addFrameButton_lootless (map_not_loots ha)

@[simp] theorem addActionButtons_lootless {names : Nat → String} {l : List Nat} {mouseButton : MouseButton}
    {action : FrameId → ElementAction} (ha : ∀ a b, action a ≠ .activateLootButton b) :
    Lootless (l.foldl (fun els index => addActionButton w els (names index) mouseButton action) els) ↔ Lootless els :=
  foldl_lootless (fun _ _ => addActionButton_lootless ha) l els

@[simp] theorem addButtonWith_lootless {name : String} {mouseButton : MouseButton} :
    Lootless (addButtonWith w els name mouseButton none) ↔ Lootless els :=
  addFrameButton_lootless fun _ h => by cases h

@[simp] theorem addButton_lootless {name : String} : Lootless (addButton w els name) ↔ Lootless els :=
  addButtonWith_lootless

@[simp] theorem addButtons_lootless {names : List String} : Lootless (addButtons w els names) ↔ Lootless els :=
  foldl_lootless (fun _ _ => addButton_lootless) names els

@[simp] theorem addRange_lootless {pre suffix : String} {first last : Nat} {mouseButton : MouseButton} :
    Lootless (addRange w els pre first last suffix mouseButton) ↔ Lootless els :=
  foldl_lootless (fun _ _ => addButtonWith_lootless) _ els

@[simp] theorem addScrollAreaNamed_lootless {key bar target : String} :
    Lootless (addScrollAreaNamed w els key bar target) ↔ Lootless els := addScrollArea_lootless

@[simp] theorem addStableSlot_lootless {name : String} : Lootless (addStableSlot w els name) ↔ Lootless els :=
  addFrameButton_lootless (map_not_loots (by simp))

theorem addDiscovered_lootless {child : FrameId} : Lootless (addDiscovered w els child) ↔ Lootless els := by
  unfold addDiscovered
  exact ite_lootless (ite_lootless Iff.rfl (ite_lootless addScrollArea_lootless Iff.rfl)) Iff.rfl

/-- By the depth. -/
theorem scanScrollFrames_lootless (depth : Nat) (parent : FrameId) (els : List Element) :
    Lootless (scanScrollFrames w depth parent els) ↔ Lootless els := by
  induction depth generalizing parent els with
  | zero => rfl
  | succ depth ih =>
    rw [scanScrollFrames]
    split
    · refine foldl_lootless (fun els child => ?_) _ els
      split
      · rw [ih, addDiscovered_lootless]
      · rfl
    · rfl

@[simp] theorem scanScrollFramesOf_lootless {parent : Option FrameId} {depth : Nat} :
    Lootless (scanScrollFramesOf w els parent depth) ↔ Lootless els := by
  unfold scanScrollFramesOf
  split
  · rfl
  · exact scanScrollFrames_lootless _ _ els

@[simp] theorem addContainers_lootless {mouseButton : MouseButton} {customAction : Option (FrameId → ElementAction)}
    (ha : ∀ action ∈ customAction, ∀ a b, action a ≠ .activateLootButton b) :
    Lootless (addContainers w els mouseButton customAction) ↔ Lootless els := by
  refine foldl_lootless (fun els frameIndex => ?_) _ els
  dsimp only
  split
  · rw [addButton_lootless]
    refine foldl_lootless (fun els itemIndex => addFrameButton_lootless fun b h => ?_) _ els
    obtain ⟨action, haction, hmap⟩ := Option.bind_eq_some_iff.mp h
    exact map_not_loots (ha action haction) b hmap
  · rfl

/-! ## The panels -/

theorem addMerchant_lootless : Lootless (addMerchant w els) ↔ Lootless els := by
  unfold addMerchant
  dsimp only
  split <;> simp

theorem addQuest_lootless : Lootless (addQuest w els) ↔ Lootless els := by
  unfold addQuest
  dsimp only
  repeat' split
  all_goals simp

theorem addAuction_lootless : Lootless (addAuction w els) ↔ Lootless els := by
  unfold addAuction
  dsimp only
  repeat' split
  all_goals simp

theorem addMail_lootless : Lootless (addMail w els) ↔ Lootless els := by
  unfold addMail
  dsimp only
  repeat' split
  all_goals simp

theorem addCharacter_lootless : Lootless (addCharacter w els) ↔ Lootless els := by
  unfold addCharacter
  dsimp only
  repeat' split
  all_goals simp

theorem addBank_lootless : Lootless (addBank w els) ↔ Lootless els := by
  unfold addBank
  dsimp only
  rw [addContainers_lootless (by simp), addButton_lootless]
  refine (addFrameButton_lootless (by simp)).trans ?_
  rw [foldl_lootless fun _ _ => addFrameButton_lootless (by simp), addRange_lootless]

theorem addTalent_lootless : Lootless (addTalent w els) ↔ Lootless els := by
  unfold addTalent
  dsimp only
  rw [addButtons_lootless, addActionButtons_lootless (by simp), addScrollAreaNamed_lootless]
  refine foldl_lootless (fun els index => ?_) _ els
  split
  · split
    · exact addFrameButton_lootless (by simp)
    · rfl
  · rfl

theorem addTaxi_lootless : Lootless (addTaxi w els) ↔ Lootless els := by
  refine foldl_lootless (fun els index => ?_) _ els
  dsimp only
  split
  · rfl
  · split
    · exact lootless_append fun ⟨_, h⟩ => by cases h
    · rfl

theorem addStable_lootless : Lootless (addStable w els) ↔ Lootless els := by
  unfold addStable
  dsimp only
  rw [addButtons_lootless, foldl_lootless fun _ _ => addStableSlot_lootless, addStableSlot_lootless]

theorem addDropDownList_lootless {listIndex : Nat} : Lootless (addDropDownList w els listIndex) ↔ Lootless els := by
  unfold addDropDownList
  dsimp only
  split <;> simp

theorem addStaticPopup_lootless : Lootless (addStaticPopup w els) ↔ Lootless els := by
  unfold addStaticPopup
  generalize List.find? _ _ = popup
  cases popup <;> simp

theorem groupLootRolls_lootless : Lootless (groupLootRolls w) := by
  rintro e he ⟨button, hloots⟩
  obtain ⟨_, _, _, hroll⟩ := mem_groupLootRolls he
  rw [hroll.action] at hloots
  cases hloots

/-- Only the loot window's list has loot buttons. -/
theorem panelElements_lootless {context : Context} (h : context ≠ .loot) : Lootless (panelElements w context) := by
  cases context with
  | lootroll => exact groupLootRolls_lootless
  | dropdown =>
    have hfirst : Lootless (addDropDownList w [] 1) := addDropDownList_lootless.mpr lootless_nil
    exact (ite_lootless addDropDownList_lootless Iff.rfl).mpr hfirst
  | popup => exact addStaticPopup_lootless.mpr lootless_nil
  | battlegroundscore => simp [panelElements, addWorldStateScore, lootless_nil]
  | taxi => exact addTaxi_lootless.mpr lootless_nil
  | worldmap => simp [panelElements, addWorldMap, lootless_nil]
  | quest => simp [panelElements, addQuest_lootless, lootless_nil]
  | gossip => simp [panelElements, addGossip, lootless_nil]
  | merchant => simp [panelElements, addMerchant_lootless, lootless_nil]
  | loot => exact absurd rfl h
  | trainer => simp [panelElements, addTrainer, lootless_nil]
  | bank => simp [panelElements, addBank_lootless, lootless_nil]
  | auction => simp [panelElements, addAuction_lootless, lootless_nil]
  | mail => simp [panelElements, addMail_lootless, lootless_nil]
  | stable => simp [panelElements, addStable_lootless, lootless_nil]
  | questlog => simp [panelElements, addQuestLog, lootless_nil]
  | talent => simp [panelElements, addTalent_lootless, lootless_nil]
  | character => simp [panelElements, addCharacter_lootless, lootless_nil]
  | bags => simp [panelElements, lootless_nil]

theorem buildElements_lootless {c : Client} {s : Screen} (h : (buildElements c s).2.1 ≠ some .loot) :
    Lootless (buildElements c s).2.2 := by
  unfold buildElements at h ⊢
  by_cases hrolls : (groupLootRolls s.world).isEmpty = true
  · rw [if_pos hrolls] at h ⊢
    cases hpanel : panelContext s.world with
    | none => exact lootless_nil
    | some context =>
      rw [hpanel] at h
      have hne : context ≠ .loot := by
        rintro rfl
        exact h rfl
      cases context <;> exact panelElements_lootless hne
  · rw [if_neg hrolls]
    exact groupLootRolls_lootless

end Nostalgia.Controller
