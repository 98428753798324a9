/-
  Nostalgia.Controller.Completes — when a scan completes (DinoControllerUI.lua).

  Of the rules that choose the focus only the bank's can fail: `FindInitialBankSlot` finds
  no slot and calls `FindFirstMatchingElement`, a local function defined further down.
  Every other rule ends on an element of the list.
  - `refreshElements_completes_iff`: from every state a scan completes, with the focus on
    an element of an active UI mode, exactly if it is not one of a bank without slots.
  - `bank_without_slots`: a bank window that shows its close button only.
-/

import Nostalgia.Controller.Focus
import Nostalgia.Controller.Session
import Nostalgia.Machine.Run

namespace Nostalgia.Controller

open Nostalgia.Lua Nostalgia.Machine

variable {c : Client}

/-! ## The bank's slots -/

/-- What `FindInitialBankSlot` takes for a slot. -/
def isBankSlot (w : World) (element : Element) : Bool :=
  isNumbered "BankFrameItem" "" element.key && 0 < (w.frame element.frame).id

/-- A filled slot, else an empty one, else the error. -/
theorem findInitialBankSlot_eq (w : World) (elements : List Element) :
    findInitialBankSlot w elements = ((findElement elements fun element => isBankSlot w element &&
      w.containerItem (-1) (w.frame element.frame).id).or (findElement elements (isBankSlot w))).elim
        (.error (.callNil "FindFirstMatchingElement")) .ok := by
  unfold findInitialBankSlot
  dsimp only
  split
  · rename_i index h
    change (findElement elements fun element => isBankSlot w element &&
      w.containerItem (-1) (w.frame element.frame).id).or (findElement elements (isBankSlot w)) = some index at h
    rw [h]
    rfl
  · rename_i h
    change (findElement elements fun element => isBankSlot w element &&
      w.containerItem (-1) (w.frame element.frame).id).or (findElement elements (isBankSlot w)) = none at h
    rw [h]
    rfl

theorem findInitialBankSlot_error_iff {w : World} {elements : List Element} :
    (∃ err, findInitialBankSlot w elements = .error err) ↔ ∀ element ∈ elements, isBankSlot w element = false := by
  have hslot : (findElement elements (isBankSlot w)).isNone = true ↔
      ∀ element ∈ elements, isBankSlot w element = false := by
    simp [findElement]
  rw [← hslot, findInitialBankSlot_eq]
  cases hempty : findElement elements (isBankSlot w) with
  | some index =>
    cases findElement elements fun element => isBankSlot w element && w.containerItem (-1) (w.frame element.frame).id <;>
      simp
  | none =>
    -- a filled slot is a slot
    have hnone := hslot.mp (by rw [hempty]; rfl)
    have hfilled : (findElement elements fun element => isBankSlot w element &&
        w.containerItem (-1) (w.frame element.frame).id) = none := by
      unfold findElement
      rw [List.findIdx?_eq_none_iff.mpr fun element he => by rw [hnone element he, Bool.false_and]]
      rfl
    rw [hfilled]
    simp

/-! ## The rules of the focus -/

section Rules

variable {w : World} {nav : Nav} {context : Context} {elements : List Element} {resumeFocus : Option SuspendedFocus}

/-- Outside the bank every rule gives an answer. -/
theorem preferredFocus_ok (h : context ≠ .bank) :
    ∃ result, preferredFocus w nav context elements resumeFocus = .ok result := by
  have hbank : (context == .bank) = false := by simpa using h
  unfold preferredFocus
  dsimp only
  rw [hbank]
  repeat' split
  all_goals first
    | exact ⟨_, rfl⟩
    | contradiction

/-- In the bank only the focus it is resumed with goes before its own rule. -/
theorem preferredFocus_bank : preferredFocus w nav .bank elements resumeFocus =
    match resumeFocus.filter (·.context == .bank) with
    | some resume => .ok ((resume.key.bind (findKey elements)).or (some (max 1 (min resume.index elements.length))), nav)
    | none =>
      if nav.pendingBankFocus || nav.context != some .bank then
        match findInitialBankSlot w elements with
        | .ok index => .ok (some index, { nav with pendingBankFocus := false })
        | .error err => .error err
      else .ok (none, nav) := by
  unfold preferredFocus
  dsimp only
  have hroll : (Context.bank == Context.lootroll) = false := rfl
  simp only [hroll, Bool.false_and, Bool.false_eq_true, if_false]
  rfl

/-- The bank's rule asks for a slot and finds none. -/
structure AsksForSlot (w : World) (nav : Nav) (elements : List Element) (resumeFocus : Option SuspendedFocus) : Prop where
  notResumed : ∀ resume, resumeFocus = some resume → resume.context ≠ .bank
  requested : nav.pendingBankFocus = true ∨ nav.context ≠ some .bank
  missing : ∀ element ∈ elements, isBankSlot w element = false

theorem chooseFocus_error_iff : (∃ err, chooseFocus w nav context elements resumeFocus = .error err) ↔
    context = .bank ∧ AsksForSlot w nav elements resumeFocus := by
  have hchoose : (∃ err, chooseFocus w nav context elements resumeFocus = .error err) ↔
      ∃ err, preferredFocus w nav context elements resumeFocus = .error err := by
    unfold chooseFocus
    cases preferredFocus w nav context elements resumeFocus with
    | error err => simp
    | ok result => simp
  rw [hchoose]
  by_cases hbank : context = .bank
  · subst hbank
    rw [preferredFocus_bank]
    cases hresume : resumeFocus.filter (·.context == .bank) with
    | some resume =>
      obtain ⟨hfocus, hcontext⟩ := Option.filter_eq_some_iff.mp hresume
      refine ⟨fun ⟨_, he⟩ => (by cases he), fun ⟨_, hasks⟩ => ?_⟩
      exact absurd (by simpa using hcontext) (hasks.notResumed resume hfocus)
    | none =>
      have hnot : ∀ resume, resumeFocus = some resume → resume.context ≠ .bank := by
        intro resume hfocus hcontext
        rw [hfocus] at hresume
        simp [Option.filter, hcontext] at hresume
      dsimp only
      by_cases hrequest : (nav.pendingBankFocus || nav.context != some .bank) = true
      · rw [if_pos hrequest]
        have hrequested : nav.pendingBankFocus = true ∨ nav.context ≠ some .bank := by simpa using hrequest
        have hslot := @findInitialBankSlot_error_iff w elements
        cases hfind : findInitialBankSlot w elements with
        | ok index =>
          rw [hfind] at hslot
          refine ⟨fun ⟨_, he⟩ => (by cases he), fun ⟨_, hasks⟩ => ?_⟩
          obtain ⟨err, he⟩ := hslot.mpr hasks.missing
          cases he
        | error err =>
          rw [hfind] at hslot
          exact ⟨fun _ => ⟨rfl, hnot, hrequested, hslot.mp ⟨err, rfl⟩⟩, fun _ => ⟨err, rfl⟩⟩
      · rw [if_neg hrequest]
        refine ⟨fun ⟨_, he⟩ => (by cases he), fun ⟨_, hasks⟩ => ?_⟩
        have hrequested := hasks.requested
        exact absurd (by simpa using hrequested) hrequest
  · obtain ⟨result, hok⟩ := @preferredFocus_ok w nav context elements resumeFocus hbank
    rw [hok]
    exact ⟨fun ⟨_, he⟩ => (by cases he), fun ⟨h, _⟩ => absurd h hbank⟩

end Rules

/-! ## Scans -/

theorem buildElements_bank_iff {screen : Screen} : (buildElements c screen).2.1 = some .bank ↔
    groupLootRolls screen.world = [] ∧ panelContext screen.world = some .bank := by
  unfold buildElements
  cases hrolls : groupLootRolls screen.world with
  | cons e rest => simp
  | nil =>
    rw [List.isEmpty_nil, if_pos rfl]
    split <;> simp_all

theorem buildElements_bank {screen : Screen} (h : (buildElements c screen).2.1 = some .bank) :
    buildElements c screen = (screen, some .bank, panelElements screen.world .bank) := by
  obtain ⟨hrolls, hpanel⟩ := buildElements_bank_iff.mp h
  unfold buildElements
  rw [hrolls, hpanel]
  rfl

/-- The scan is one of a bank window, asks for its first slot, and lists none. -/
structure BankSlotMissing (s : St) : Prop where
  controller : s.db.controllerEnabled ≠ 0
  ui : s.db.uiEnabled ≠ 0
  noRolls : groupLootRolls s.world = []
  bank : panelContext s.world = some .bank
  listed : panelElements s.world .bank ≠ []
  asks : AsksForSlot s.world s.nav (panelElements s.world .bank) (suspendFocus s.nav .bank).2

/-- A scan that puts the focus somewhere fails exactly if the rules of the focus do. -/
theorem focusOn_error_iff {context : Context} {elements : List Element} :
    (focusOn c context elements (s.withScreen (readFrames c s))).2.isSome = true ↔
      ∃ err, chooseFocus (readFrames c s).world s.nav context elements (suspendFocus s.nav context).2 = .error err := by
  cases hc : chooseFocus (readFrames c s).world s.nav context elements (suspendFocus s.nav context).2 with
  | error err =>
    rw [focusOn_error (s := s.withScreen (readFrames c s)) hc]
    simp
  | ok focus =>
    rw [focusOn_ok (s := s.withScreen (readFrames c s)) hc]
    simp

/-- A scan of the bank reads its own list, and changes nothing. -/
theorem reads_bank {elements : List Element} (h : Reads c s .bank elements) :
    groupLootRolls s.world = [] ∧ panelContext s.world = some .bank ∧ elements = panelElements s.world .bank ∧
      (readFrames c s).world = s.world := by
  have hcontext : (buildElements c s.screen).2.1 = some .bank := congrArg Prod.fst h.built
  have hbuilt := buildElements_bank hcontext
  have hlist := h.built
  rw [hbuilt] at hlist
  obtain ⟨hrolls, hpanel⟩ := buildElements_bank_iff.mp hcontext
  refine ⟨hrolls, hpanel, (Prod.mk.inj hlist).2.symm, ?_⟩
  unfold readFrames
  split
  · rfl
  · rw [hbuilt]
    rfl

theorem refreshElements_error_iff (s : St) : (refreshElements c s).2.isSome = true ↔ BankSlotMissing s := by
  have hmissing : BankSlotMissing s → Reads c s .bank (panelElements s.world .bank) := by
    intro h
    have hbuilt := buildElements_bank (c := c) (buildElements_bank_iff.mpr ⟨h.noRolls, h.bank⟩)
    exact ⟨⟨h.controller, h.ui⟩, congrArg Prod.snd hbuilt, h.listed⟩
  rcases refresh_cases c s with ⟨hnone, hleft⟩ | ⟨context, elements, hreads, hfocus⟩
  · rw [hleft]
    refine ⟨fun h => by simp at h, fun h => ?_⟩
    have hscan := scanned_iff.mpr (hmissing h)
    rw [hnone] at hscan
    cases hscan
  · rw [hfocus, focusOn_error_iff, chooseFocus_error_iff]
    constructor
    · rintro ⟨rfl, hasks⟩
      obtain ⟨hrolls, hpanel, rfl, hworld⟩ := reads_bank hreads
      rw [hworld] at hasks
      exact ⟨hreads.allowed.1, hreads.allowed.2, hrolls, hpanel, hreads.listed, hasks⟩
    · intro h
      have hsame := (hmissing h).built.symm.trans hreads.built
      obtain rfl : Context.bank = context := Option.some.inj (Prod.mk.inj hsame).1
      obtain ⟨_, _, rfl, hworld⟩ := reads_bank hreads
      rw [hworld]
      exact ⟨rfl, h.asks⟩

/-- No Lua error, and in UI mode the focus is on an element. -/
def Completes (result : St × Option LuaError) : Prop :=
  result.2 = none ∧
    (result.1.nav.active = true → 1 ≤ result.1.nav.index ∧ result.1.nav.index ≤ result.1.nav.elements.length)

/-- For every state of the navigation and all visible frames. -/
theorem refreshElements_completes_iff (c : Client) (s : St) :
    Completes (refreshElements c s) ↔ ¬ BankSlotMissing s := by
  rw [← refreshElements_error_iff (c := c)]
  constructor
  · intro h
    rw [h.1]
    exact Bool.false_ne_true
  · intro h
    have hscan := refresh_scansTo (c := c) s
    refine ⟨by simpa using h, fun hactive => ?_⟩
    cases hf : scanFocus c s with
    | none =>
      rw [hf] at hscan
      rcases hscan with herr | ⟨hinactive, _⟩
      · exact absurd herr h
      · rw [hinactive] at hactive
        cases hactive
    | some focus =>
      rw [hf] at hscan
      exact elementAt_range hscan.2.focus

/-- A bank window of which only the close button can be used. -/
def closedBank : World := World.ofFrames
  [{ name := some "BankFrame", visible := true },
   { name := some "BankCloseButton", visible := true, center := some (10, 10), clickable := true }]

/-- Not always: the first scan after loading, with the bank open. -/
theorem bank_without_slots : ¬ ∀ (c : Client) (w : World) (db : DB) (bindings : String → String) (es : List Ev),
    Completes (refreshElements c (run (step c) (fresh w db bindings) es)) := by
  intro h
  have hscan := (h (stillClient bridgeMappings) closedBank defaultDB (fun _ => "") []).1
  have herr : (refreshElements (stillClient bridgeMappings) (fresh closedBank defaultDB fun _ => "")).2 =
      some (.callNil "FindFirstMatchingElement") := by decide +kernel
  change (refreshElements (stillClient bridgeMappings) (fresh closedBank defaultDB fun _ => "")).2 = none at hscan
  rw [herr] at hscan
  cases hscan

-- with a slot that can be used the same scan completes
example : (refreshElements (stillClient bridgeMappings) (fresh (World.ofFrames
    [{ name := some "BankFrame", visible := true },
     { name := some "BankFrameItem2", visible := true, center := some (10, 10), id := 2 }]) defaultDB fun _ => "")).2 =
    none := by decide +kernel

end Nostalgia.Controller
