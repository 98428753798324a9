/-
  Nostalgia.Controller.TemporaryBindings — whether the keys `EnterUIMode` rebinds keep
  their commands while UI mode lasts.

  The layout pass refuses to run in UI mode and the target mode is not saved there
  ("must never overwrite the active UI bindings", "rebound temporarily"). Installing world
  bindings checks neither: `/dino bind`, switching the controller on and entering the world
  overwrite and persist bindings in UI mode too. Setting the target mode writes NUMPAD1
  and NUMPAD3, which may be D-pad keys, and keys that coincide cannot all be held.
  - `temporaryCommands_held_iff`: entering gives every key its command exactly if the keys
    are clear of each other.
  - `keysKept_step_iff`: one step keeps the keys exactly if it meets `KeepsKeys`.
  - `keys_kept_iff`: a run from login keeps them throughout exactly if every step does.
  - `bind_overwrites_ui_keys`: a run that does not.
-/

import Nostalgia.Controller.Restore

namespace Nostalgia.Controller

open Nostalgia.Lua Nostalgia.Machine

variable {c : Client}

/-! ## The keys of UI mode -/

/-- The D-pad keys, with their commands. -/
def dpadCommands (m : ButtonMappings) : List (String × String) := bound (dpadBindings m)

/-- The keys `EnterUIMode` rebinds for navigation, with their commands. -/
def uiCommands (m : ButtonMappings) (entry : Entry) : List (String × String) :=
  bound (dpadBindings m ++ confirmBindings entry.swapped)

/-- In UI mode the rebound keys have their commands, and what was saved in UI mode has
    none of them. -/
structure KeysKept (c : Client) (s : St) : Prop where
  held : s.nav.active = true → ∀ p ∈ uiCommands c.mappings s.nav.entry, s.bindings p.1 = p.2
  clean : ∀ save ∈ s.saves, save.uiMode = true → ∀ p ∈ uiCommands c.mappings save.entry, save.bindings p.1 ≠ p.2

/-- The D-pad keys are different, and none is Confirm, Cancel or suppressed. -/
structure KeysClear (m : ButtonMappings) (entry : Entry) : Prop where
  nodup : ((dpadCommands m).map Prod.fst).Nodup
  confirm : ∀ p ∈ dpadCommands m, p.1 ≠ "NUMPAD0" ∧ p.1 ≠ "NUMPAD9"
  worldMap : entry.worldMap = true → ∀ p ∈ dpadCommands m, p.1 ∉ suppressedKeys

/-! ## Entering -/

theorem bound_append (a b : List (Option String × String)) : bound (a ++ b) = bound a ++ bound b :=
  List.filterMap_append

/-- The commands of a list of buttons are among those it names, in order. -/
theorem bound_commands : ∀ l : List (Option String × String), ((bound l).map Prod.snd).Sublist (l.map Prod.snd) := by
  intro l
  induction l with
  | nil => exact List.Sublist.slnil
  | cons b l ih =>
    cases hk : normalizeBindingKey b.1 with
    | none => simpa [bound, hk] using List.Sublist.cons b.2 ih
    | some k => simpa [bound, hk] using List.Sublist.cons_cons b.2 ih

theorem bound_confirm (swapped : Bool) : bound (confirmBindings swapped) =
    if swapped then [("NUMPAD9", "DINOCONTROLLER_UI_ACTIVATE"), ("NUMPAD0", "DINOCONTROLLER_UI_CANCEL")]
    else [("NUMPAD0", "DINOCONTROLLER_UI_ACTIVATE"), ("NUMPAD9", "DINOCONTROLLER_UI_CANCEL")] := by
  cases swapped <;> decide +kernel

theorem bound_suppressed : bound (suppressedBindings true) = suppressedKeys.map (·, "") := by decide +kernel

theorem uiCommands_eq (m : ButtonMappings) (entry : Entry) :
    uiCommands m entry = dpadCommands m ++ bound (confirmBindings entry.swapped) := bound_append _ _

theorem temporaryCommands_eq (m : ButtonMappings) (entry : Entry) :
    temporaryCommands m entry = uiCommands m entry ++ bound (suppressedBindings entry.worldMap) := bound_append _ _

/-- The commands are different texts, none of them empty. -/
theorem uiCommands_different (m : ButtonMappings) (entry : Entry) :
    ((uiCommands m entry).map Prod.snd).Nodup ∧ ∀ p ∈ uiCommands m entry, p.2 ≠ "" := by
  have hsub := bound_commands (dpadBindings m ++ confirmBindings entry.swapped)
  have hcommands : (dpadBindings m ++ confirmBindings entry.swapped).map Prod.snd =
      ["DINOCONTROLLER_UI_UP", "DINOCONTROLLER_UI_DOWN", "DINOCONTROLLER_UI_LEFT", "DINOCONTROLLER_UI_RIGHT",
       "DINOCONTROLLER_UI_ACTIVATE", "DINOCONTROLLER_UI_CANCEL"] := by
    cases entry.swapped <;> rfl
  rw [hcommands] at hsub
  refine ⟨hsub.nodup (by decide), fun p hp he => ?_⟩
  have hmem : "" ∈ _ := hsub.subset (show "" ∈ (uiCommands m entry).map Prod.snd from ?_)
  · exact absurd hmem (by decide)
  rw [← he]
  exact List.mem_map_of_mem hp

theorem confirm_keys (swapped : Bool) (key : String) :
    key ∈ (bound (confirmBindings swapped)).map Prod.fst ↔ key = "NUMPAD0" ∨ key = "NUMPAD9" := by
  rw [bound_confirm]
  cases swapped
  · simp
  · simp [or_comm]

theorem confirm_key {swapped : Bool} {p : String × String} (hp : p ∈ bound (confirmBindings swapped)) :
    p.1 = "NUMPAD0" ∨ p.1 = "NUMPAD9" :=
  (confirm_keys swapped p.1).mp (List.mem_map_of_mem hp)

theorem uiCommands_nodup {m : ButtonMappings} {entry : Entry} (h : KeysClear m entry) :
    ((uiCommands m entry).map Prod.fst).Nodup := by
  rw [uiCommands_eq, List.map_append, List.nodup_append]
  refine ⟨h.nodup, ?_, ?_⟩
  · rw [bound_confirm]
    cases entry.swapped <;> decide
  · intro a ha b hb hab
    obtain ⟨p, hp, rfl⟩ := List.mem_map.mp ha
    obtain ⟨q, hq, rfl⟩ := List.mem_map.mp hb
    have hclear := h.confirm p hp
    rcases confirm_key hq with he | he
    · exact hclear.1 (hab.trans he)
    · exact hclear.2 (hab.trans he)

/-- No navigation key is suppressed. -/
theorem not_suppressed {m : ButtonMappings} {entry : Entry} (h : KeysClear m entry) (hmap : entry.worldMap = true)
    {p : String × String} (hp : p ∈ uiCommands m entry) : p.1 ∉ suppressedKeys := by
  rw [uiCommands_eq] at hp
  rcases List.mem_append.mp hp with hp | hp
  · exact h.worldMap hmap p hp
  · rcases confirm_key hp with he | he
    · rw [he]; decide
    · rw [he]; decide

theorem suppressed_keys : (bound (suppressedBindings true)).map Prod.fst = suppressedKeys := by
  rw [bound_suppressed, List.map_map]
  exact List.map_id _

theorem suppressed_nodup : ((bound (suppressedBindings true)).map Prod.fst).Nodup := by
  rw [suppressed_keys]
  decide

theorem mem_bound_suppressed {key : String} (h : key ∈ suppressedKeys) : (key, "") ∈ bound (suppressedBindings true) := by
  rw [bound_suppressed]
  exact List.mem_map.mpr ⟨key, h, rfl⟩

theorem temporaryCommands_held_iff (m : ButtonMappings) (entry : Entry) (f : String → String) :
    (∀ p ∈ uiCommands m entry, putAll f (temporaryCommands m entry) p.1 = p.2) ↔ KeysClear m entry := by
  constructor
  · intro hheld
    have hkeys := nodup_keys_of_holds (uiCommands_different m entry).1 hheld
    rw [uiCommands_eq, List.map_append, List.nodup_append] at hkeys
    refine ⟨hkeys.1, fun p hp => ?_, fun hmap p hp hsup => ?_⟩
    · have hne : ∀ key ∈ (bound (confirmBindings entry.swapped)).map Prod.fst, p.1 ≠ key :=
        fun key hkey => hkeys.2.2 p.1 (List.mem_map_of_mem hp) key hkey
      exact ⟨hne _ ((confirm_keys _ _).mpr (Or.inl rfl)), hne _ ((confirm_keys _ _).mpr (Or.inr rfl))⟩
    · -- the pass over the suppressed keys comes last and unbinds the key
      have hmem : p ∈ uiCommands m entry := by
        rw [uiCommands_eq]
        exact List.mem_append_left _ hp
      have hp2 := hheld p hmem
      rw [temporaryCommands_eq, putAll_append, hmap,
        putAll_of_nodup suppressed_nodup _ (mem_bound_suppressed hsup)] at hp2
      exact (uiCommands_different m entry).2 p hmem hp2.symm
  · intro hclear p hp
    rw [temporaryCommands_eq, putAll_append, putAll_of_not_mem]
    · exact putAll_of_nodup (uiCommands_nodup hclear) f hp
    · cases hmap : entry.worldMap with
      | false => exact List.not_mem_nil
      | true =>
        rw [suppressed_keys]
        exact not_suppressed hclear hmap hp

/-! ## Steps without an install -/

/-- What every such step keeps: in UI mode the commands are held exactly if the keys were
    clear on entering, both modules agree on the mode, and no bad save was made. -/
structure Watched (c : Client) (s : St) : Prop where
  held_iff : s.nav.active = true →
    ((∀ p ∈ uiCommands c.mappings s.nav.entry, s.bindings p.1 = p.2) ↔ KeysClear c.mappings s.nav.entry)
  agrees : s.uiModeActive = s.nav.active
  clean : ∀ save ∈ s.saves, save.uiMode = true → ∀ p ∈ uiCommands c.mappings save.entry, save.bindings p.1 ≠ p.2

theorem watched_keep {s s' : St} (h : SameKeys s s') (hw : Watched c s) : Watched c s' := by
  refine ⟨fun ha => ?_, ?_, ?_⟩
  · rw [h.entry, h.bindings]
    exact hw.held_iff (h.active ▸ ha)
  · rw [h.uiModeActive, h.active]
    exact hw.agrees
  · rw [h.saves]
    exact hw.clean

theorem watched_enter {s : St} (hw : Watched c s) : Watched c (enterUIMode c s) := by
  by_cases he : Enters s
  · have hentered := enterUIMode_spec (c := c) he
    refine ⟨fun _ => ?_, ?_, ?_⟩
    · rw [hentered.bindings]
      exact temporaryCommands_held_iff _ _ _
    · rw [hentered.uiModeActive, hentered.active]
    · rw [hentered.saves]
      exact hw.clean
  · rw [enterUIMode_idle he]
    exact hw

theorem watched_layout (save : Bool) {s : St} (hw : Watched c s) : Watched c (applyButtonLayout c save s) := by
  cases hmode : s.uiModeActive with
  | true =>
    rw [applyButtonLayout_active save hmode]
    exact hw
  | false =>
    have hactive : s.nav.active = false := hw.agrees ▸ hmode
    refine ⟨fun ha => ?_, by simpa using hw.agrees, ?_⟩
    · rw [applyButtonLayout_nav, hactive] at ha
      cases ha
    · rcases applyButtonLayout_saves (c := c) save s with hs | hs
      · rw [hs]
        exact hw.clean
      · rw [hs]
        intro sv hsv hui
        rcases List.mem_append.mp hsv with hsv | hsv
        · exact hw.clean sv hsv hui
        · obtain rfl := List.mem_singleton.mp hsv
          rw [hactive] at hui
          cases hui

theorem watched_leave {s : St} (hw : Watched c s) : Watched c (leaveUIMode c s) := by
  cases ha : s.nav.active with
  | false => rw [leaveUIMode_idle ha]; exact hw
  | true =>
    obtain ⟨u, hu, hleft⟩ := leaveUIMode_spec (c := c) ha
    rw [hu]
    apply watched_layout
    refine ⟨fun hactive => ?_, ?_, ?_⟩
    · rw [hleft.active] at hactive
      cases hactive
    · rw [hleft.uiModeActive, hleft.active]
    · rw [hleft.saves]
      exact hw.clean

theorem watched_step {s : St} {e : Ev} (hi : e.installs = false) (ht : e.setsTarget = false) (hw : Watched c s) :
    Watched c (step c s e) :=
  (step_keyPath s hi ht).inv (fun _ _ h hw => watched_keep h hw)
    (fun _ _ ha hw => ⟨hw.held_iff, ha.symm, hw.clean⟩) (fun _ hw => watched_enter hw) (fun _ hw => watched_leave hw)
    (fun save _ hw => watched_layout save hw) hw

/-! ## Installing world bindings -/

/-- What an install leaves alone, and that it persists the bindings it ends with. -/
structure Installed (s t : St) : Prop where
  active : t.nav.active = s.nav.active
  entry : t.nav.entry = s.nav.entry
  uiModeActive : t.uiModeActive = s.uiModeActive
  saves : ∀ save ∈ t.saves, save ∈ s.saves ∨ save.uiMode = s.nav.active
  persisted : (⟨s.nav.active, s.nav.entry, t.bindings⟩ : Save) ∈ t.saves

/-- What writing bindings leaves alone. -/
structure Writes (s t : St) : Prop where
  nav : t.nav = s.nav
  uiModeActive : t.uiModeActive = s.uiModeActive
  saves : ∀ save ∈ t.saves, save ∈ s.saves ∨ save.uiMode = s.nav.active

theorem Rebinds.writes {s t : St} (h : Rebinds s t) : Writes s t := ⟨h.nav, h.uiModeActive, h.saves⟩

/-- Saving last persists the bindings it ends with. -/
theorem Rebinds.installed {s t : St} (h : Rebinds s t) : Installed s (saveBindings t) := by
  have hs := h.trans (rebinds_saveBindings t)
  refine ⟨congrArg Nav.active hs.nav, congrArg Nav.entry hs.nav, hs.uiModeActive, hs.saves, ?_⟩
  rw [← h.nav]
  exact List.mem_append_right _ (List.mem_singleton.mpr rfl)

theorem installed_step {s : St} {e : Ev} (hi : e.installs = true) : Installed s (step c s e) := by
  have hforced : ∀ t, Rebinds s t → Installed s (installBindings c true t) := by
    intro t ht
    rcases installBindings_spec (c := c) true t with ⟨_, hforce⟩ | ⟨u, f, he, hw⟩
    · cases hforce
    · have h := (ht.trans hw).installed
      rw [he]
      exact ⟨h.active, h.entry, h.uiModeActive, h.saves, h.persisted⟩
  cases e with
  | bind => exact hforced s (.refl s)
  | setControllerEnabled enabled =>
    cases enabled with
    | true => exact hforced _ (rebinds_withDB _ s)
    | false => cases hi
  | enteringWorld =>
    obtain ⟨t, ht, hw⟩ := onEnteringWorld_spec (c := c) s
    show Installed s (onEnteringWorld c s)
    rw [ht]
    exact hw.installed
  | _ => cases hi

/-! ## Setting the target mode -/

def targetBindings : TargetMode → List (String × String)
  | .healer => [("NUMPAD1", "DINOCONTROLLER_TARGET_GROUP_NEXT"), ("NUMPAD3", "DINOCONTROLLER_TARGET_GROUP_PREVIOUS")]
  | .dps => [("NUMPAD1", "TARGETNEARESTENEMY"), ("NUMPAD3", "TARGETPREVIOUSENEMY")]

theorem targetMode_bindings (mode : TargetMode) (s : St) :
    (onTargetMode mode s).bindings = putAll s.bindings (targetBindings mode) := by
  have hsave : ∀ t : St, (if (true && !t.uiModeActive) = true then saveBindings t else t).bindings = t.bindings := by
    intro t
    split <;> rfl
  cases mode with
  | healer => exact hsave _
  | dps => exact hsave _

/-- In UI mode setting the target mode saves nothing. -/
theorem targetMode_saves (mode : TargetMode) {s : St} (h : s.uiModeActive = true) :
    (onTargetMode mode s).saves = s.saves := by
  have hsave : ∀ t : St, t.uiModeActive = true → (if (true && !t.uiModeActive) = true then saveBindings t else t).saves = t.saves := by
    intro t ht
    rw [if_neg (by simp [ht])]
  cases mode with
  | healer => exact hsave _ h
  | dps => exact hsave _ h

/-! ## Runs -/

/-- A step keeps the rebound keys: world bindings are installed outside UI mode only, the
    target mode is set in UI mode only where NUMPAD1 and NUMPAD3 are no D-pad keys, and UI
    mode is entered with clear keys only. -/
structure KeepsKeys (c : Client) (s : St) (e : Ev) : Prop where
  install : e.installs = true → s.nav.active = false
  target : e.setsTarget = true → s.nav.active = true → ∀ p ∈ dpadCommands c.mappings, p.1 ≠ "NUMPAD1" ∧ p.1 ≠ "NUMPAD3"
  clear : (step c s e).nav.active = true → KeysClear c.mappings (step c s e).nav.entry

/-- The keys were clear on entering, and both modules agree on the mode. -/
structure EntryClear (c : Client) (s : St) : Prop where
  clear : s.nav.active = true → KeysClear c.mappings s.nav.entry
  agrees : s.uiModeActive = s.nav.active

theorem Watched.of_clear {s : St} (hk : EntryClear c s) (h : KeysKept c s) : Watched c s :=
  ⟨fun ha => ⟨fun _ => hk.clear ha, fun _ => h.held ha⟩, hk.agrees, h.clean⟩

/-- World bindings installed in UI mode: the commands are lost or persisted. -/
theorem install_breaks {s : St} {e : Ev} (hi : e.installs = true) (ha : s.nav.active = true) : ¬ KeysKept c (step c s e) := by
  intro hkept
  have h := installed_step (c := c) (s := s) hi
  have hactive : (step c s e).nav.active = true := h.active.trans ha
  have hheld := hkept.held hactive
  have hclean := hkept.clean _ h.persisted ha
  rw [h.entry] at hheld
  -- Confirm is always rebound, so one of the two fails for it
  obtain ⟨p, hp⟩ : ∃ p, p ∈ uiCommands c.mappings s.nav.entry := by
    refine ⟨(bound (confirmBindings s.nav.entry.swapped)).head ?_, ?_⟩
    · rw [bound_confirm]
      cases s.nav.entry.swapped <;> simp
    · rw [uiCommands_eq]
      exact List.mem_append_right _ (List.head_mem _)
  exact hclean p hp (hheld p hp)

theorem install_keeps {s : St} {e : Ev} (hi : e.installs = true) (ha : s.nav.active = false) (h : KeysKept c s) :
    KeysKept c (step c s e) := by
  have hin := installed_step (c := c) (s := s) hi
  refine ⟨fun hactive => ?_, fun save hsave hui => ?_⟩
  · rw [hin.active, ha] at hactive
    cases hactive
  · rcases hin.saves save hsave with hold | hmode
    · exact h.clean save hold hui
    · rw [hmode, ha] at hui
      cases hui

/-- A D-pad key among the target keys is overwritten. -/
theorem target_held_iff {s : St} (mode : TargetMode) (hheld : ∀ p ∈ uiCommands c.mappings s.nav.entry, s.bindings p.1 = p.2) :
    (∀ p ∈ uiCommands c.mappings s.nav.entry, (onTargetMode mode s).bindings p.1 = p.2) ↔
      ∀ p ∈ dpadCommands c.mappings, p.1 ≠ "NUMPAD1" ∧ p.1 ≠ "NUMPAD3" := by
  rw [targetMode_bindings]
  have hkeys : (targetBindings mode).map Prod.fst = ["NUMPAD1", "NUMPAD3"] := by cases mode <;> rfl
  have hcommands : ∀ q ∈ targetBindings mode, ∀ p ∈ uiCommands c.mappings s.nav.entry, q.2 ≠ p.2 := by
    intro q hq p hp he
    have hmem := (bound_commands (dpadBindings c.mappings ++ confirmBindings s.nav.entry.swapped)).subset
      (List.mem_map_of_mem hp)
    rw [← he] at hmem
    have hnot : ∀ q ∈ targetBindings mode, ∀ swapped,
        q.2 ∉ (dpadBindings c.mappings ++ confirmBindings swapped).map Prod.snd := by
      cases mode <;> simp [targetBindings, dpadBindings, confirmBindings]
    exact hnot q hq _ hmem
  constructor
  · intro hall p hp
    have hmem : p ∈ uiCommands c.mappings s.nav.entry := by
      rw [uiCommands_eq]
      exact List.mem_append_left _ hp
    by_contra hne
    have hin : p.1 ∈ (targetBindings mode).map Prod.fst := by
      rw [hkeys]
      simp only [List.mem_cons, List.not_mem_nil, or_false]
      tauto
    exact hcommands _ (putAll_of_mem _ s.bindings hin) p hmem (hall p hmem)
  · intro hclear p hp
    rw [putAll_of_not_mem _ _ ?_]
    · exact hheld p hp
    · rw [hkeys]
      rw [uiCommands_eq] at hp
      rcases List.mem_append.mp hp with hp | hp
      · simpa using hclear p hp
      · rcases confirm_key hp with he | he
        · rw [he]; decide
        · rw [he]; decide

theorem target_step_iff {s : St} (mode : TargetMode) (hk : EntryClear c s) (h : KeysKept c s) :
    KeysKept c (step c s (.targetMode mode)) ↔ KeepsKeys c s (.targetMode mode) := by
  have hw := (rebinds_onTargetMode mode s).writes
  have hstep : step c s (.targetMode mode) = onTargetMode mode s := rfl
  have hclear : (step c s (.targetMode mode)).nav.active = true → KeysClear c.mappings (step c s (.targetMode mode)).nav.entry := by
    rw [hstep, hw.nav]
    exact hk.clear
  cases ha : s.nav.active with
  | false =>
    constructor
    · intro _
      refine ⟨fun hi => (by cases hi), fun _ hactive => ?_, hclear⟩
      rw [ha] at hactive
      cases hactive
    · intro _
      refine ⟨fun hactive => ?_, fun save hsave hui => ?_⟩
      · rw [hstep, hw.nav, ha] at hactive
        cases hactive
      · rcases hw.saves save hsave with hold | hmode
        · exact h.clean save hold hui
        · rw [hmode, ha] at hui
          cases hui
  | true =>
    have hiff := target_held_iff mode (h.held ha)
    constructor
    · intro hkept
      refine ⟨fun hi => (by cases hi), fun _ _ => hiff.mp ?_, hclear⟩
      have hheld := hkept.held (by rw [hstep, hw.nav]; exact ha)
      rw [hstep, hw.nav] at hheld
      exact hheld
    · intro hkeeps
      refine ⟨fun _ => ?_, ?_⟩
      · rw [hstep, hw.nav]
        exact hiff.mpr (hkeeps.target rfl ha)
      · rw [hstep, targetMode_saves mode (hk.agrees.trans ha)]
        exact h.clean

/-- From a state that keeps the keys, a step keeps them exactly if it meets `KeepsKeys`. -/
theorem keysKept_step_iff {s : St} (e : Ev) (hk : EntryClear c s) (h : KeysKept c s) :
    KeysKept c (step c s e) ↔ KeepsKeys c s e := by
  cases hi : e.installs with
  | true =>
    constructor
    · intro hkept
      have ha : s.nav.active = false := by
        by_contra hactive
        exact install_breaks hi (by simpa using hactive) hkept
      refine ⟨fun _ => ha, fun ht => ?_, fun hactive => ?_⟩
      · cases e <;> cases ht
        cases hi
      · rw [(installed_step hi).active, ha] at hactive
        cases hactive
    · intro hkeeps
      exact install_keeps hi (hkeeps.install hi) h
  | false =>
    cases ht : e.setsTarget with
    | true =>
      cases e with
      | targetMode mode => exact target_step_iff mode hk h
      | _ => cases ht
    | false =>
      have hw := watched_step hi ht (Watched.of_clear hk h)
      constructor
      · intro hkept
        refine ⟨fun h => ?_, fun h => ?_, fun ha => (hw.held_iff ha).mp (hkept.held ha)⟩
        · rw [hi] at h
          cases h
        · rw [ht] at h
          cases h
      · intro hkeeps
        exact ⟨fun ha => (hw.held_iff ha).mpr (hkeeps.clear ha), hw.clean⟩

theorem agrees_step {s : St} (e : Ev) (h : s.uiModeActive = s.nav.active) :
    (step c s e).uiModeActive = (step c s e).nav.active := by
  cases hi : e.installs with
  | true =>
    have hin := installed_step (c := c) (s := s) hi
    rw [hin.uiModeActive, hin.active, h]
  | false =>
    cases ht : e.setsTarget with
    | true =>
      cases e with
      | targetMode mode =>
        have hw := (rebinds_onTargetMode mode s).writes
        show (onTargetMode mode s).uiModeActive = (onTargetMode mode s).nav.active
        rw [hw.uiModeActive, hw.nav, h]
      | _ => cases ht
    | false =>
      refine KeyPath.inv (I := fun t => t.uiModeActive = t.nav.active) ?_ ?_ ?_ ?_ ?_ (step_keyPath (c := c) s hi ht) h
      · intro _ _ hs h
        rw [hs.uiModeActive, hs.active, h]
      · intro _ _ ha _
        exact ha.symm
      · intro s h
        by_cases he : Enters s
        · rw [(enterUIMode_spec he).uiModeActive, (enterUIMode_spec he).active]
        · rw [enterUIMode_idle he, h]
      · intro s h
        cases ha : s.nav.active with
        | false => rw [leaveUIMode_idle ha, h]
        | true =>
          obtain ⟨u, hu, hleft⟩ := leaveUIMode_spec (c := c) ha
          rw [hu, applyButtonLayout_uiModeActive, applyButtonLayout_nav, hleft.uiModeActive, hleft.active]
      · intro save s h
        rw [applyButtonLayout_uiModeActive, applyButtonLayout_nav, h]

/-- A run from login holds the rebound keys, and saves none of their commands in UI mode,
    at every instant exactly if every step of it meets `KeepsKeys`. -/
theorem keys_kept_iff (c : Client) (w : World) (db : DB) (bindings : String → String) (es : List Ev) :
    (∀ k ≤ es.length, KeysKept c (stateAt (step c) (fresh w db bindings) es k)) ↔
      Throughout (step c) (KeepsKeys c) (fresh w db bindings) es := by
  refine @holds_throughout_iff_with St Ev (step c) (KeysKept c) (EntryClear c) (KeepsKeys c)
    (fun s e hk h => keysKept_step_iff e hk h) (fun s e hk hkeeps => ⟨hkeeps.clear, agrees_step e hk.agrees⟩)
    (fresh w db bindings) ⟨?_, rfl⟩ ⟨?_, ?_⟩ es
  · intro ha
    cases ha
  · intro ha
    cases ha
  · intro save hsave
    cases hsave

/-- `/dino bind` with a quest window open. -/
theorem bind_overwrites_ui_keys : ¬ ∀ (c : Client) (w : World) (db : DB) (bindings : String → String) (es : List Ev),
    ∀ k ≤ es.length, KeysKept c (stateAt (step c) (fresh w db bindings) es k) := by
  intro h
  have hkept := h (stillClient bridgeMappings) questWorld defaultDB (fun _ => "") [.scan, .bind] 2 (by decide)
  have hup := hkept.held (by decide +kernel) ("1", "DINOCONTROLLER_UI_UP") (by decide +kernel)
  exact absurd hup (by decide +kernel)

end Nostalgia.Controller
