/-
  Nostalgia.Controller.ScreenKeys — whether the keys of UI mode follow the screen.

  `EnterUIMode` chooses the keys by what it sees on entering; a scan that finds another
  context while UI mode is active only tells DinoController (`DinoController_SetUIMode`).
  So what is captured depends on the screen UI mode was entered on: bags, then the world
  map, leaves the movement keys walking; the world map, then the quest log, keeps them
  suppressed.
  - `exists_uiRun`: every run that ends in UI mode is a `UIRun`.
  - `captured_last`: in a run that never carries UI mode between the world map and another
    screen, and never writes world bindings in it, the bindings are those before with the
    commands of the current screen written over them.
  - `keys_follow_screen`: two such runs that end on one screen end with the same keys, and
    the movement keys are suppressed exactly on the world map.
  - `map_over_bags`: two runs that do not.
-/

import Nostalgia.Controller.Agreement
import Nostalgia.Controller.TemporaryBindings

namespace Nostalgia.Controller

open Nostalgia.Lua Nostalgia.Machine

/-! ## Runs -/

/-- A run from login that ends in UI mode, entered in event number `entered`. -/
structure UIRun (c : Client) where
  world : World
  db : DB
  bindings : String → String
  events : List Ev
  entered : Nat
  before : entered < events.length
  outside : (stateAt (step c) (fresh world db bindings) events entered).nav.active = false
  inside : ∀ j, entered < j → j ≤ events.length → (stateAt (step c) (fresh world db bindings) events j).nav.active = true

variable {c : Client}

/-- The state before event number `k`. -/
def UIRun.at (r : UIRun c) (k : Nat) : St := stateAt (step c) (fresh r.world r.db r.bindings) r.events k

/-- The state before UI mode was entered. -/
def UIRun.start (r : UIRun c) : St := r.at r.entered

def UIRun.last (r : UIRun c) : St := r.at r.events.length

/-- Every run that ends in UI mode is one: login is outside. -/
theorem exists_uiRun (w : World) (db : DB) (bindings : String → String) (es : List Ev)
    (h : (run (step c) (fresh w db bindings) es).nav.active = true) :
    ∃ r : UIRun c, r.world = w ∧ r.db = db ∧ r.bindings = bindings ∧ r.events = es := by
  let P : Nat → Prop := fun k => (stateAt (step c) (fresh w db bindings) es k).nav.active = false
  have hspec : P (Nat.findGreatest P es.length) := Nat.findGreatest_spec (Nat.zero_le _) (show P 0 from rfl)
  have hlast : ¬ P es.length := by
    show ¬ (run (step c) (fresh w db bindings) (es.take es.length)).nav.active = false
    rw [List.take_length, h]
    exact Bool.noConfusion
  have hlt : Nat.findGreatest P es.length < es.length := by
    rcases Nat.lt_or_eq_of_le (Nat.findGreatest_le (P := P) es.length) with hlt | heq
    · exact hlt
    · exact absurd (heq ▸ hspec) hlast
  refine ⟨⟨w, db, bindings, es, Nat.findGreatest P es.length, hlt, hspec, fun j hj hle => ?_⟩, rfl, rfl, rfl, rfl⟩
  have hno := Nat.findGreatest_is_greatest hj hle
  simpa [P] using hno

/-! ## What is captured -/

def movementKeys : List String := ["NUMPAD8", "NUMPAD2", "NUMPAD4", "NUMPAD6", "NUMPAD7"]

/-- The key is captured and does nothing. -/
def Suppressed (s : St) (key : String) : Prop :=
  s.bindings key = "" ∧ ∃ table, s.nav.temporaryBindings = some table ∧ key ∈ table.map Prod.fst

/-- The commands of an entry were written over `base`, and their keys captured. -/
structure Captured (m : ButtonMappings) (base : String → String) (entry : Entry) (s : St) : Prop where
  bindings : s.bindings = putAll base (temporaryCommands m entry)
  table : ∃ table, s.nav.temporaryBindings = some table ∧
    ∀ key, key ∈ table.map Prod.fst ↔ key ∈ (temporaryCommands m entry).map Prod.fst

theorem mem_save (f : String → String) (t : List (String × String)) (k key : String) :
    key ∈ (save f t k).map Prod.fst ↔ key ∈ t.map Prod.fst ∨ key = k := by
  unfold save
  split
  · rename_i hk
    refine ⟨Or.inl, fun h => h.elim id fun he => ?_⟩
    rw [he]
    exact hk
  · simp

/-- The table has the keys it had and those of the buttons. -/
theorem saveAndBindAll_table : ∀ (l : List (Option String × String)) (s : St) {t : List (String × String)},
    s.nav.temporaryBindings = some t → ∃ t', (saveAndBindAll l s).nav.temporaryBindings = some t' ∧
      ∀ key, key ∈ t'.map Prod.fst ↔ key ∈ t.map Prod.fst ∨ key ∈ (bound l).map Prod.fst := by
  intro l
  induction l with
  | nil => intro s t ht; exact ⟨t, ht, fun key => by simp [bound]⟩
  | cons b l ih =>
    intro s t ht
    cases hk : normalizeBindingKey b.1 with
    | none =>
      have hs : saveAndBind b.1 b.2 s = s := by unfold saveAndBind; rw [hk]
      obtain ⟨t', ht', hmem⟩ := ih s ht
      refine ⟨t', ?_, fun key => ?_⟩
      · show (saveAndBindAll l (saveAndBind b.1 b.2 s)).nav.temporaryBindings = some t'
        rw [hs, ht']
      · rw [hmem]
        simp [bound, hk]
    | some k =>
      have hs : (saveAndBind b.1 b.2 s).nav.temporaryBindings = some (save s.bindings t k) := by
        unfold saveAndBind
        rw [hk]
        show s.nav.temporaryBindings.map (save s.bindings · k) = _
        rw [ht]
        rfl
      obtain ⟨t', ht', hmem⟩ := ih (saveAndBind b.1 b.2 s) hs
      refine ⟨t', ht', fun key => ?_⟩
      rw [hmem, mem_save]
      simp [bound, hk, or_assoc]

theorem captured_enter {s : St} (h : Enters s) :
    Captured c.mappings s.bindings (enterUIMode c s).nav.entry (enterUIMode c s) := by
  refine ⟨(enterUIMode_spec h).bindings, ?_⟩
  obtain ⟨table, htable, hmem⟩ := saveAndBindAll_table (entryBindings c.mappings (entryOf s)) (activate s) rfl
  refine ⟨table, ?_, fun key => ?_⟩
  · unfold enterUIMode
    rw [if_neg (by simp [h.1]), if_neg (by simp [h.2])]
    exact htable
  · rw [hmem, (enterUIMode_spec h).entry]
    simp [temporaryCommands]

/-! ## Moves -/

theorem Captured.congr {m : ButtonMappings} {base : String → String} {entry : Entry} {s t : St}
    (h : Captured m base entry s) (hb : t.bindings = s.bindings)
    (ht : t.nav.temporaryBindings = s.nav.temporaryBindings) : Captured m base entry t :=
  ⟨hb.trans h.bindings, by rw [ht]; exact h.table⟩

/-- Outside UI mode the bindings are `base`; in it they are what entering made of them. -/
structure KeysFrom (c : Client) (base : String → String) (swapped : Bool) (s : St) : Prop where
  outside : s.nav.active = false → s.bindings = base ∧ (s.db.swapAB == 1) = swapped
  inside : s.nav.active = true → Captured c.mappings base s.nav.entry s ∧ s.nav.entry.swapped = swapped

section Moves

variable {base : String → String} {swapped : Bool}

theorem keysFrom_steady {s t : St} (h : Steady c s t) (hs : KeysFrom c base swapped s) : KeysFrom c base swapped t := by
  have hkeeps := h.keeps
  refine ⟨fun ha => ?_, fun ha => ?_⟩
  · rw [hkeeps.bindings, h.frame.2]
    exact hs.outside (hkeeps.active ▸ ha)
  · obtain ⟨hcaptured, hswapped⟩ := hs.inside (hkeeps.active ▸ ha)
    rw [hkeeps.entry]
    exact ⟨hcaptured.congr hkeeps.bindings hkeeps.temporaryBindings, hswapped⟩

/-- In UI mode a scan leaves the keys alone, whatever it finds. -/
structure SameCapture (s t : St) : Prop where
  active : t.nav.active = true
  bindings : t.bindings = s.bindings
  temporaryBindings : t.nav.temporaryBindings = s.nav.temporaryBindings
  entry : t.nav.entry = s.nav.entry

theorem arrive_inside (context : Context) (elements : List Element) (suspended : Option SuspendedFocus) {s : St}
    (ha : s.nav.active = true) : SameCapture s (enterContext c context elements suspended s) := by
  unfold enterContext
  dsimp only
  rw [if_neg (by simp [St.withNav, ha])]
  split
  · exact ⟨ha, rfl, rfl, rfl⟩
  · exact ⟨ha, rfl, rfl, rfl⟩

theorem keysFrom_arrive (context : Context) (elements : List Element) (suspended : Option SuspendedFocus) {s : St}
    (hallowed : Allowed s) (hs : KeysFrom c base swapped s) :
    KeysFrom c base swapped (enterContext c context elements suspended s) := by
  cases ha : s.nav.active with
  | true =>
    have hkeeps := arrive_inside (c := c) context elements suspended ha
    obtain ⟨hcaptured, hswapped⟩ := hs.inside ha
    refine ⟨fun hno => absurd (hno.symm.trans hkeeps.active) Bool.false_ne_true, fun _ => ?_⟩
    rw [hkeeps.entry]
    exact ⟨hcaptured.congr hkeeps.bindings hkeeps.temporaryBindings, hswapped⟩
  | false =>
    obtain ⟨hbase, hswap⟩ := hs.outside ha
    unfold enterContext
    dsimp only
    rw [if_pos (by simp [St.withNav, ha])]
    have henters : Enters (s.withNav fun nav =>
        { nav with context := some context, elements, suspendedFocus := suspended }) :=
      ⟨ha, hallowed⟩
    have hentered := enterUIMode_spec (c := c) henters
    refine ⟨fun hno => absurd (hno.symm.trans hentered.active) Bool.false_ne_true, fun _ => ⟨?_, ?_⟩⟩
    · rw [← hbase]
      exact captured_enter henters
    · rw [hentered.entry]
      exact hswap

theorem keysFrom_stays {s t : St} (h : Stays c s t) (hs : KeysFrom c base swapped s) : KeysFrom c base swapped t := by
  induction h with
  | steady h => exact keysFrom_steady h hs
  | arrive context elements suspended s hallowed _ => exact keysFrom_arrive context elements suspended hallowed hs
  | trans _ _ ih1 ih2 => exact ih2 (ih1 hs)

theorem stays_inside {s t : St} (h : Stays c s t) : s.nav.active = true → SameCapture s t := by
  induction h with
  | steady h =>
    intro ha
    have hkeeps := h.keeps
    exact ⟨hkeeps.active.trans ha, hkeeps.bindings, hkeeps.temporaryBindings, hkeeps.entry⟩
  | arrive context elements suspended s _ _ => exact arrive_inside context elements suspended
  | trans _ _ ih1 ih2 =>
    intro ha
    have h1 := ih1 ha
    have h2 := ih2 h1.active
    exact ⟨h2.active, h2.bindings.trans h1.bindings, h2.temporaryBindings.trans h1.temporaryBindings,
      h2.entry.trans h1.entry⟩

/-- Moves that leave UI mode, change settings or pass over the layout do nothing to the
    keys if UI mode is still active behind them. -/
theorem leaves_inside {s t : St} (h : Leaves c s t) : ModulesAgree s → t.nav.active = true →
    s.nav.active = true ∧ SameCapture s t := by
  induction h with
  | steady h =>
    intro _ ht
    have hkeeps := h.keeps
    exact ⟨hkeeps.active ▸ ht, ht, hkeeps.bindings, hkeeps.temporaryBindings, hkeeps.entry⟩
  | leave s =>
    intro _ ht
    rw [leaveUIMode_inactive s] at ht
    cases ht
  | layout save s =>
    intro hagree ht
    rw [applyButtonLayout_nav] at ht
    rw [applyButtonLayout_active save (hagree.uiModeActive.trans ht)]
    exact ⟨ht, ht, rfl, rfl, rfl⟩
  | settings hmode =>
    intro _ ht
    exact ⟨(congrArg Mode.active hmode).symm.trans ht, ht, congrArg Mode.bindings hmode,
      congrArg Mode.temporaryBindings hmode, congrArg Mode.entry hmode⟩
  | trans h1 _ ih1 ih2 =>
    intro hagree ht
    obtain ⟨hb, h2⟩ := ih2 (agree_leaves h1 hagree) ht
    obtain ⟨ha, h1⟩ := ih1 hagree hb
    exact ⟨ha, ht, h2.bindings.trans h1.bindings, h2.temporaryBindings.trans h1.temporaryBindings,
      h2.entry.trans h1.entry⟩

/-- A step that ends in UI mode, and writes no world bindings in it. -/
theorem step_keysFrom {s : St} {e : Ev} (hagree : ModulesAgree s)
    (hwrites : e.installs = true ∨ e.setsTarget = true → s.nav.active = false) (hs : KeysFrom c base swapped s)
    (ht : (step c s e).nav.active = true) :
    KeysFrom c base swapped (step c s e) ∧ (s.nav.active = true → (step c s e).nav.entry = s.nav.entry) := by
  by_cases hw : e.installs = true ∨ e.setsTarget = true
  · rw [(step_rebinds s hw).nav, hwrites hw] at ht
    cases ht
  · have hno : e.installs = false ∧ e.setsTarget = false := by simpa using hw
    cases hshows : e.shows with
    | true =>
      cases e with
      | frames w => exact ⟨⟨hs.outside, fun ha => ⟨(hs.inside ha).1.congr rfl rfl, (hs.inside ha).2⟩⟩, fun _ => rfl⟩
      | _ => cases hshows
    | false =>
      obtain ⟨u, hstays, hleaves⟩ := step_handled (c := c) s hshows hno.1 hno.2
      obtain ⟨hu, hkeeps⟩ := leaves_inside hleaves (agree_stays hstays hagree) ht
      obtain ⟨hcaptured, hswapped⟩ := (keysFrom_stays hstays hs).inside hu
      refine ⟨⟨fun hno => absurd (hno.symm.trans ht) Bool.false_ne_true, fun _ => ?_⟩, fun ha => ?_⟩
      · rw [hkeeps.entry]
        exact ⟨hcaptured.congr hkeeps.bindings hkeeps.temporaryBindings, hswapped⟩
      · rw [hkeeps.entry, (stays_inside hstays ha).entry]

end Moves

/-! ## The screen -/

/-- World bindings are written outside UI mode only; UI mode is entered over the world map
    exactly if that is the screen it shows; and while it lasts it is not carried from the
    world map to another screen or back. -/
structure KeepsScreen (c : Client) (s : St) (e : Ev) : Prop where
  writes : e.installs = true ∨ e.setsTarget = true → s.nav.active = false
  enters : s.nav.active = false → (step c s e).nav.active = true →
    ((step c s e).nav.entry.worldMap = true ↔ (step c s e).nav.context = some .worldmap)
  carries : s.nav.active = true → (step c s e).nav.active = true →
    ((step c s e).nav.context = some .worldmap ↔ s.nav.context = some .worldmap)

instance (s : St) (e : Ev) : Decidable (KeepsScreen c s e) :=
  decidable_of_iff ((e.installs = true ∨ e.setsTarget = true → s.nav.active = false) ∧
      (s.nav.active = false → (step c s e).nav.active = true →
        ((step c s e).nav.entry.worldMap = true ↔ (step c s e).nav.context = some .worldmap)) ∧
      (s.nav.active = true → (step c s e).nav.active = true →
        ((step c s e).nav.context = some .worldmap ↔ s.nav.context = some .worldmap)))
    ⟨fun ⟨h1, h2, h3⟩ => ⟨h1, h2, h3⟩, fun h => ⟨h.writes, h.enters, h.carries⟩⟩

/-- Every step from the entering one on keeps the screen. -/
def UIRun.KeepsScreen (r : UIRun c) : Prop :=
  ∀ k e, r.entered ≤ k → r.events[k]? = some e → Controller.KeepsScreen c (r.at k) e

/-- What entering on the current screen would have seen. -/
def UIRun.screenEntry (r : UIRun c) (s : St) : Entry := ⟨r.start.db.swapAB == 1, s.nav.context == some .worldmap⟩

theorem UIRun.agree (r : UIRun c) (k : Nat) : ModulesAgree (r.at k) :=
  inv_stateAt (step c) (fun s e hs => agree_step s e hs) (agree_fresh r.world r.db r.bindings) r.events k

theorem UIRun.at_succ (r : UIRun c) {k : Nat} {e : Ev} (he : r.events[k]? = some e) :
    r.at (k + 1) = step c (r.at k) e := stateAt_succ (step c) _ he

/-- One more step keeps what the current screen says of the keys. -/
theorem captured_next (r : UIRun c) (hkeeps : r.KeepsScreen) {k : Nat} (hk : r.entered ≤ k) (hlt : k < r.events.length)
    (hfrom : KeysFrom c r.start.bindings (r.start.db.swapAB == 1) (r.at k))
    (hscreen : (r.at k).nav.active = true → (r.at k).nav.entry = r.screenEntry (r.at k)) :
    KeysFrom c r.start.bindings (r.start.db.swapAB == 1) (r.at (k + 1)) ∧
      (r.at (k + 1)).nav.entry = r.screenEntry (r.at (k + 1)) := by
  obtain ⟨e, he⟩ := getElem?_of_lt hlt
  have hactive := r.inside (k + 1) (by omega) (by omega)
  change (r.at (k + 1)).nav.active = true at hactive
  have hscr := hkeeps k e hk he
  rw [r.at_succ he] at hactive ⊢
  obtain ⟨hnext, hentry⟩ := step_keysFrom (r.agree k) hscr.writes hfrom hactive
  refine ⟨hnext, ?_⟩
  have hswapped := (hnext.inside hactive).2
  have hmap : (step c (r.at k) e).nav.entry.worldMap = ((step c (r.at k) e).nav.context == some .worldmap) := by
    rw [Bool.eq_iff_iff, beq_iff_eq]
    cases ha : (r.at k).nav.active with
    | false => exact hscr.enters ha hactive
    | true =>
      rw [hentry ha, hscreen ha, hscr.carries ha hactive]
      simp [UIRun.screenEntry]
  calc (step c (r.at k) e).nav.entry
      = ⟨(step c (r.at k) e).nav.entry.swapped, (step c (r.at k) e).nav.entry.worldMap⟩ := rfl
    _ = r.screenEntry (step c (r.at k) e) := by rw [hswapped, hmap]; rfl

/-- From the entering step on: the commands of the current screen, over the bindings before. -/
theorem captured_at (r : UIRun c) (hkeeps : r.KeepsScreen) : ∀ n, r.entered + n + 1 ≤ r.events.length →
    KeysFrom c r.start.bindings (r.start.db.swapAB == 1) (r.at (r.entered + n + 1)) ∧
      (r.at (r.entered + n + 1)).nav.entry = r.screenEntry (r.at (r.entered + n + 1)) := by
  intro n
  induction n with
  | zero =>
    intro hle
    have hout : (r.at r.entered).nav.active = false := r.outside
    refine captured_next r hkeeps (Nat.le_refl _) (by omega) ⟨fun _ => ⟨rfl, rfl⟩, fun ha => ?_⟩ fun ha => ?_
    · rw [hout] at ha
      cases ha
    · rw [hout] at ha
      cases ha
  | succ n ih =>
    intro hle
    obtain ⟨hfrom, hentry⟩ := ih (by omega)
    exact captured_next r hkeeps (by omega) (by omega) hfrom fun _ => hentry

theorem captured_last (r : UIRun c) (hkeeps : r.KeepsScreen) :
    Captured c.mappings r.start.bindings (r.screenEntry r.last) r.last := by
  have hbefore := r.before
  have hlen : r.entered + (r.events.length - r.entered - 1) + 1 = r.events.length := by omega
  obtain ⟨hfrom, hentry⟩ := captured_at r hkeeps (r.events.length - r.entered - 1) (by omega)
  rw [hlen] at hfrom hentry
  have hcaptured := (hfrom.inside (r.inside r.events.length hbefore (Nat.le_refl _))).1
  rw [hentry] at hcaptured
  exact hcaptured

/-! ## The movement keys -/

theorem suppressed_iff {m : ButtonMappings} {base : String → String} {entry : Entry} {s : St}
    (h : Captured m base entry s) {key : String} (hkey : key ∈ suppressedKeys) :
    Suppressed s key ↔ entry.worldMap = true := by
  obtain ⟨table, htable, hmem⟩ := h.table
  constructor
  · rintro ⟨hempty, t, ht, hin⟩
    obtain rfl : table = t := Option.some.inj (htable.symm.trans ht)
    -- off the world map a captured key has a command
    by_contra hno
    have hcommands : temporaryCommands m entry = uiCommands m entry := by
      rw [temporaryCommands_eq, Bool.eq_false_iff.mpr hno]
      exact List.append_nil _
    rw [hmem, hcommands] at hin
    have hcommand := putAll_of_mem (uiCommands m entry) base hin
    rw [← hcommands, ← h.bindings, hempty] at hcommand
    rw [hcommands] at hcommand
    exact (uiCommands_different m entry).2 _ hcommand rfl
  · intro hmap
    have hpair := mem_bound_suppressed hkey
    refine ⟨?_, table, htable, ?_⟩
    · rw [h.bindings, temporaryCommands_eq, putAll_append, hmap]
      exact putAll_of_nodup suppressed_nodup _ hpair
    · rw [hmem, temporaryCommands_eq, List.map_append, hmap]
      exact List.mem_append_right _ (List.mem_map_of_mem hpair)

theorem movementKeys_suppressed : ∀ key ∈ movementKeys, key ∈ suppressedKeys := by decide

/-- On their last screens two runs have the same bindings, and each suppresses the movement
    keys exactly on the world map. -/
structure SameKeysOnScreen {c₁ c₂ : Client} (r₁ : UIRun c₁) (r₂ : UIRun c₂) : Prop where
  bindings : r₁.last.bindings = r₂.last.bindings
  movement : ∀ key ∈ movementKeys, Suppressed r₁.last key ↔ r₁.last.nav.context = some .worldmap

/-- Two runs that keep their screens and end on the same one, with the same mappings, the
    same layout and the same bindings on entering. -/
theorem keys_follow_screen {c₁ c₂ : Client} (hm : c₁.mappings = c₂.mappings) (r₁ : UIRun c₁) (r₂ : UIRun c₂)
    (h₁ : r₁.KeepsScreen) (h₂ : r₂.KeepsScreen) (hcontext : r₁.last.nav.context = r₂.last.nav.context)
    (hswap : r₁.start.db.swapAB = r₂.start.db.swapAB) (hbindings : r₁.start.bindings = r₂.start.bindings) :
    SameKeysOnScreen r₁ r₂ := by
  have hlast₁ := captured_last r₁ h₁
  have hlast₂ := captured_last r₂ h₂
  refine ⟨?_, fun key hkey => ?_⟩
  · rw [hlast₁.bindings, hlast₂.bindings, hm, hbindings]
    unfold UIRun.screenEntry
    rw [hcontext, hswap]
  · rw [suppressed_iff hlast₁ (movementKeys_suppressed key hkey)]
    simp [UIRun.screenEntry]

/-! ## The world map -/

theorem UIRun.keepsScreen_of_throughout (r : UIRun c)
    (h : Throughout (step c) (Controller.KeepsScreen c) (fresh r.world r.db r.bindings) r.events) : r.KeepsScreen :=
  fun k e _ he => (throughout_iff (step c) _ _ _).mp h k e he

def mapWorld : World := World.ofFrames
  [{ name := some "WorldMapFrame", visible := true },
   { name := some "WorldMapZoomOutButton", visible := true, center := some (10, 10), clickable := true }]

def bagsWorld : World := World.ofFrames
  [{ name := some "ContainerFrame1", visible := true },
   { name := some "ContainerFrame1Item1", visible := true, center := some (10, 10), clickable := true }]

def walking (key : String) : String := if key == "NUMPAD8" then "MOVEFORWARD" else ""

/-- The world map is open. -/
def mapRun : UIRun (stillClient bridgeMappings) where
  world := mapWorld
  db := defaultDB
  bindings := walking
  events := [.scan]
  entered := 0
  before := by decide
  outside := rfl
  inside j h1 h2 := by
    obtain rfl : j = 1 := Nat.le_antisymm h2 h1
    decide +kernel

/-- It is opened later, and a button of it is chosen. -/
def laterMapRun : UIRun (stillClient bridgeMappings) where
  world := World.ofFrames []
  db := defaultDB
  bindings := walking
  events := [.scan, .frames mapWorld, .uiMove true, .scan]
  entered := 2
  before := by decide
  outside := by decide +kernel
  inside j h1 h2 := by
    have hj : j = 3 ∨ j = 4 := by
      change j ≤ 4 at h2
      omega
    rcases hj with rfl | rfl <;> decide +kernel

theorem map_keys_follow_screen : SameKeysOnScreen mapRun laterMapRun :=
  keys_follow_screen rfl mapRun laterMapRun (mapRun.keepsScreen_of_throughout (by decide +kernel))
    (laterMapRun.keepsScreen_of_throughout (by decide +kernel)) (by decide +kernel) (by decide +kernel) rfl

/-- The bags are open, then the world map comes in their place. -/
def bagsRun : UIRun (stillClient bridgeMappings) where
  world := bagsWorld
  db := defaultDB
  bindings := walking
  events := [.scan, .frames mapWorld, .scan]
  entered := 0
  before := by decide
  outside := rfl
  inside j h1 h2 := by
    have hj : j = 1 ∨ j = 2 ∨ j = 3 := by
      change j ≤ 3 at h2
      omega
    rcases hj with rfl | rfl | rfl <;> decide +kernel

/-- Not always: both runs end on the world map; opened first it keeps the player from
    walking, opened after the bags it does not. -/
theorem map_over_bags : ¬ ∀ (c : Client) (r₁ r₂ : UIRun c), r₁.last.nav.context = r₂.last.nav.context →
    (∀ j₁ ≤ r₁.events.length, ∀ j₂ ≤ r₂.events.length, (r₁.at j₁).db.swapAB = (r₂.at j₂).db.swapAB) →
    r₁.start.bindings = r₂.start.bindings → SameKeysOnScreen r₁ r₂ := by
  intro h
  have hsame := h (stillClient bridgeMappings) mapRun bagsRun (by decide +kernel) (by decide +kernel) rfl
  have hkey := congrFun hsame.bindings "NUMPAD8"
  have hmap : mapRun.last.bindings "NUMPAD8" = "" := by decide +kernel
  have hbags : bagsRun.last.bindings "NUMPAD8" = "MOVEFORWARD" := by decide +kernel
  rw [hmap, hbags] at hkey
  exact absurd hkey (by decide)

end Nostalgia.Controller
