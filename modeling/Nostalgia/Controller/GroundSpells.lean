/-
  Nostalgia.Controller.GroundSpells — automatic ground-targeted casts of DinoController
  (DinoController.lua, DinoGroundSpells.lua).

  The AddOn wraps `UseAction`: it looks the action slot up in the spell book by what the
  scan tooltip and the icon show, and if it finds a ground-targeted spell it sends the
  server command `.gcast` instead of letting the client cast. `GameClient` is what the
  game answers; a slot's `Action` says what it really holds, `nameLine`, `rankLine` and
  `texture` what the lookup sees of it. A call returns the list of client calls it made.

  `FindSpellBookIndex` returns the first entry with the slot's name and its shown rank,
  else the last entry with its name or its icon (`findSpellBookIndex_eq`). The icon
  counts even where the slot has a name, so a macro or an item is taken for a spell
  that shares its icon.
  - `keys_consistent`: the id and name tables agree on every key.
  - `hijacked_only_for_ground_iff`: a press is hijacked only for a slot that holds a
    ground spell exactly if the entry the lookup picks is not one otherwise.
  - `a_chain_macro_is_hijacked`: a slot with a macro that sends `.gcast`.
-/

import Nostalgia.Lua.Text
import Nostalgia.MacroManager.Chain

namespace Nostalgia.Controller

open Nostalgia.Lua
open Nostalgia.MacroManager (BookType BOOKTYPE GroundResult)

/-! ## The spell tables -/

inductive ClassToken where
  | WARRIOR | PALADIN | HUNTER | ROGUE | PRIEST | SHAMAN | MAGE | WARLOCK | DRUID
  deriving DecidableEq, Repr

def DinoGroundSpellIds : List Nat :=
  [10, 1122, 1510, 1543, 1725, 2120, 2121, 5740, 6141, 6196, 6197, 6219, 8422, 8423, 8427, 10185, 10186,
   10187, 10215, 10216, 11677, 11678, 14294, 14295, 16914, 17401, 17402]

/-- The table of a class: the entry `name`, byte 31, `rank` holds the spell id. -/
def DinoGroundSpellKeys : ClassToken → List (String × String × Nat)
  | .WARRIOR => []
  | .PALADIN => []
  | .HUNTER =>
    [("Adlerauge", "", 6197), ("Bengala", "", 1543), ("Eagle Eye", "", 6197), ("Flare", "", 1543),
     ("Fusée éclairante", "", 1543), ("Leuchtfeuer", "", 1543), ("Lluvia", "Rango 1", 1510),
     ("Lluvia", "Rango 2", 14294), ("Lluvia", "Rango 3", 14295), ("Oeil d'aigle", "", 6197),
     ("Ojo de águila", "", 6197), ("Salve", "Rang 1", 1510), ("Salve", "Rang 2", 14294),
     ("Salve", "Rang 3", 14295), ("Volley", "Rank 1", 1510), ("Volley", "Rank 2", 14294),
     ("Volley", "Rank 3", 14295), ("독수리의 눈", "", 6197), ("섬광", "", 1543),
     ("연발 사격", "1 레벨", 1510), ("연발 사격", "2 레벨", 14294), ("연발 사격", "3 레벨", 14295),
     ("乱射", "等级 1", 1510), ("乱射", "等级 2", 14294), ("乱射", "等级 3", 14295),
     ("亂射", "等級 1", 1510), ("亂射", "等級 2", 14294), ("亂射", "等級 3", 14295),
     ("照明弹", "", 1543), ("照明彈", "", 1543), ("鷹眼術", "", 6197), ("鹰眼术", "", 6197)]
  | .ROGUE =>
    [("Ablenken", "", 1725), ("Distract", "", 1725), ("Distraction", "", 1725), ("Distraer", "", 1725),
     ("혼란", "", 1725), ("扰乱", "", 1725), ("擾亂", "", 1725)]
  | .PRIEST => []
  | .SHAMAN =>
    [("Double vue", "", 6196), ("Far Sight", "", 6196), ("Fernsicht", "", 6196),
     ("Visión lejana", "", 6196), ("천리안", "", 6196), ("视界术", "", 6196), ("視界術", "", 6196)]
  | .MAGE =>
    [("Blizzard", "Rang 1", 10), ("Blizzard", "Rang 2", 6141), ("Blizzard", "Rang 3", 8427),
     ("Blizzard", "Rang 4", 10185), ("Blizzard", "Rang 5", 10186), ("Blizzard", "Rang 6", 10187),
     ("Blizzard", "Rank 1", 10), ("Blizzard", "Rank 2", 6141), ("Blizzard", "Rank 3", 8427),
     ("Blizzard", "Rank 4", 10185), ("Blizzard", "Rank 5", 10186), ("Blizzard", "Rank 6", 10187),
     ("Choc de flammes", "Rang 1", 2120), ("Choc de flammes", "Rang 2", 2121),
     ("Choc de flammes", "Rang 3", 8422), ("Choc de flammes", "Rang 4", 8423),
     ("Choc de flammes", "Rang 5", 10215), ("Choc de flammes", "Rang 6", 10216),
     ("Flamestrike", "Rank 1", 2120), ("Flamestrike", "Rank 2", 2121), ("Flamestrike", "Rank 3", 8422),
     ("Flamestrike", "Rank 4", 8423), ("Flamestrike", "Rank 5", 10215),
     ("Flamestrike", "Rank 6", 10216), ("Flammenstoß", "Rang 1", 2120), ("Flammenstoß", "Rang 2", 2121),
     ("Flammenstoß", "Rang 3", 8422), ("Flammenstoß", "Rang 4", 8423), ("Flammenstoß", "Rang 5", 10215),
     ("Flammenstoß", "Rang 6", 10216), ("Fogonazo", "Rango 1", 2120), ("Fogonazo", "Rango 2", 2121),
     ("Fogonazo", "Rango 3", 8422), ("Fogonazo", "Rango 4", 8423), ("Fogonazo", "Rango 5", 10215),
     ("Fogonazo", "Rango 6", 10216), ("Ventisca", "Rango 1", 10), ("Ventisca", "Rango 2", 6141),
     ("Ventisca", "Rango 3", 8427), ("Ventisca", "Rango 4", 10185), ("Ventisca", "Rango 5", 10186),
     ("Ventisca", "Rango 6", 10187), ("눈보라", "1 레벨", 10), ("눈보라", "2 레벨", 6141),
     ("눈보라", "3 레벨", 8427), ("눈보라", "4 레벨", 10185), ("눈보라", "5 레벨", 10186),
     ("눈보라", "6 레벨", 10187), ("불기둥", "1 레벨", 2120), ("불기둥", "2 레벨", 2121),
     ("불기둥", "3 레벨", 8422), ("불기둥", "4 레벨", 8423), ("불기둥", "5 레벨", 10215),
     ("불기둥", "6 레벨", 10216), ("暴風雪", "等級 1", 10), ("暴風雪", "等級 2", 6141),
     ("暴風雪", "等級 3", 8427), ("暴風雪", "等級 4", 10185), ("暴風雪", "等級 5", 10186),
     ("暴風雪", "等級 6", 10187), ("暴风雪", "等级 1", 10), ("暴风雪", "等级 2", 6141),
     ("暴风雪", "等级 3", 8427), ("暴风雪", "等级 4", 10185), ("暴风雪", "等级 5", 10186),
     ("暴风雪", "等级 6", 10187), ("烈焰風暴", "等級 1", 2120), ("烈焰風暴", "等級 2", 2121),
     ("烈焰風暴", "等級 3", 8422), ("烈焰風暴", "等級 4", 8423), ("烈焰風暴", "等級 5", 10215),
     ("烈焰風暴", "等級 6", 10216), ("烈焰风暴", "等级 1", 2120), ("烈焰风暴", "等级 2", 2121),
     ("烈焰风暴", "等级 3", 8422), ("烈焰风暴", "等级 4", 8423), ("烈焰风暴", "等级 5", 10215),
     ("烈焰风暴", "等级 6", 10216)]
  | .WARLOCK =>
    [("Feuerregen", "Rang 1", 5740), ("Feuerregen", "Rang 2", 6219), ("Feuerregen", "Rang 3", 11677),
     ("Feuerregen", "Rang 4", 11678), ("Inferno", "Beschwören", 1122), ("Inferno", "Invocación", 1122),
     ("Inferno", "Invocation", 1122), ("Inferno", "Summon", 1122), ("Lluvia de Fuego", "Rango 1", 5740),
     ("Lluvia de Fuego", "Rango 2", 6219), ("Lluvia de Fuego", "Rango 3", 11677),
     ("Lluvia de Fuego", "Rango 4", 11678), ("Pluie de feu", "Rang 1", 5740),
     ("Pluie de feu", "Rang 2", 6219), ("Pluie de feu", "Rang 3", 11677),
     ("Pluie de feu", "Rang 4", 11678), ("Rain of Fire", "Rank 1", 5740),
     ("Rain of Fire", "Rank 2", 6219), ("Rain of Fire", "Rank 3", 11677),
     ("Rain of Fire", "Rank 4", 11678), ("불의 비", "1 레벨", 5740), ("불의 비", "2 레벨", 6219),
     ("불의 비", "3 레벨", 11677), ("불의 비", "4 레벨", 11678), ("불지옥", "소환", 1122),
     ("地狱火", "召唤", 1122), ("地獄火", "召喚", 1122), ("火焰之雨", "等级 1", 5740),
     ("火焰之雨", "等级 2", 6219), ("火焰之雨", "等级 3", 11677), ("火焰之雨", "等级 4", 11678),
     ("火焰之雨", "等級 1", 5740), ("火焰之雨", "等級 2", 6219), ("火焰之雨", "等級 3", 11677),
     ("火焰之雨", "等級 4", 11678)]
  | .DRUID =>
    [("Huracán", "Rango 1", 16914), ("Huracán", "Rango 2", 17401), ("Huracán", "Rango 3", 17402),
     ("Hurricane", "Rank 1", 16914), ("Hurricane", "Rank 2", 17401), ("Hurricane", "Rank 3", 17402),
     ("Hurrikan", "Rang 1", 16914), ("Hurrikan", "Rang 2", 17401), ("Hurrikan", "Rang 3", 17402),
     ("Ouragan", "Rang 1", 16914), ("Ouragan", "Rang 2", 17401), ("Ouragan", "Rang 3", 17402),
     ("허리케인", "1 레벨", 16914), ("허리케인", "2 레벨", 17401), ("허리케인", "3 레벨", 17402),
     ("颶風", "等級 1", 16914), ("颶風", "等級 2", 17401), ("颶風", "等級 3", 17402),
     ("飓风", "等级 1", 16914), ("飓风", "等级 2", 17401), ("飓风", "等级 3", 17402)]

def DinoGroundSpellNames : ClassToken → List String
  | .WARRIOR => []
  | .PALADIN => []
  | .HUNTER =>
    ["Adlerauge", "Bengala", "Eagle Eye", "Flare", "Fusée éclairante", "Leuchtfeuer", "Lluvia",
     "Oeil d'aigle", "Ojo de águila", "Salve", "Volley", "乱射", "亂射", "照明弹", "照明彈", "鷹眼術",
     "鹰眼术", "독수리의 눈", "섬광", "연발 사격"]
  | .ROGUE =>
    ["Ablenken", "Distract", "Distraction", "Distraer", "扰乱", "擾亂", "혼란"]
  | .PRIEST => []
  | .SHAMAN =>
    ["Double vue", "Far Sight", "Fernsicht", "Visión lejana", "視界術", "视界术", "천리안"]
  | .MAGE =>
    ["Blizzard", "Choc de flammes", "Flamestrike", "Flammenstoß", "Fogonazo", "Ventisca", "暴風雪",
     "暴风雪", "烈焰風暴", "烈焰风暴", "눈보라", "불기둥"]
  | .WARLOCK =>
    ["Feuerregen", "Inferno", "Lluvia de Fuego", "Pluie de feu", "Rain of Fire", "地狱火", "地獄火",
     "火焰之雨", "불의 비", "불지옥"]
  | .DRUID =>
    ["Huracán", "Hurricane", "Hurrikan", "Ouragan", "颶風", "飓风", "허리케인"]

/-- `keys[spellName .. "\031" .. spellRank]`. -/
def lookupKey (token : ClassToken) (spellName spellRank : String) : Option Nat :=
  ((DinoGroundSpellKeys token).find? fun (name, rank, _) =>
    name ++ "\x1f" ++ rank == spellName ++ "\x1f" ++ spellRank).map fun (_, _, id) => id

/-- Every key of a class names a spell of its name table, with an id of the id table. -/
theorem keys_consistent (token : ClassToken) :
    ∀ entry ∈ DinoGroundSpellKeys token, entry.1 ∈ DinoGroundSpellNames token ∧ entry.2.2 ∈ DinoGroundSpellIds := by
  cases token <;> decide +kernel

/-! ## The client -/

/-- What an action slot holds. -/
inductive Action where
  | spell (bookIndex : Nat)
  | macro_ (name icon : String)
  | item (name icon : String)
  deriving DecidableEq, Repr

structure GameClient where
  classToken : ClassToken
  /-- Offset and number of spells of each spell-book tab. -/
  spellTabs : List (Option Nat × Option Nat)
  getSpellName : Nat → BookType → Option (String × Option String)
  getSpellTexture : Nat → BookType → Option String
  /-- The id in the spell's link; `none` where the client gives no link. -/
  getSpellLink : Nat → BookType → Option Nat
  actions : Nat → Option Action
  /-- What the right line of the scan tooltip shows for an action slot. -/
  rankLine : Nat → Option String
  targetExists : Bool
  spellIsTargeting : Bool
  /-- `DinoControllerDB.groundSpellMode`. -/
  groundSpellMode : Nat

/-- The left line of the scan tooltip: the name of what the slot holds. -/
def nameLine (w : GameClient) (slot : Nat) : Option String :=
  match w.actions slot with
  | none => none
  | some (.spell bookIndex) => (w.getSpellName bookIndex .spell).map Prod.fst
  | some (.macro_ name _) => some name
  | some (.item name _) => some name

/-- `GetActionTexture`. -/
def getActionTexture (w : GameClient) (slot : Nat) : Option String :=
  match w.actions slot with
  | none => none
  | some (.spell bookIndex) => w.getSpellTexture bookIndex .spell
  | some (.macro_ _ icon) => some icon
  | some (.item _ icon) => some icon

inductive ClientCall where
  | spellStopTargeting
  | addError (message : String)
  | sendChatMessage (text channel : String)
  | originalUseAction (slot : Nat) (checkCursor onSelf : Option Nat)
  deriving DecidableEq, Repr

/-! ## The code -/

/-- `GetSpellIdentity`: the id, the name and the rank. -/
def getSpellIdentity (w : GameClient) (bookIndex : Option Nat) (bookType : Option BookType) (fallbackName : Option String) :
    Option Nat × Option String × Option String :=
  let resolvedBookType := bookType.getD BOOKTYPE
  let (spellName, spellRank) := match bookIndex with
    | some i => match w.getSpellName i resolvedBookType with
      | some (name, rank) => (some name, rank)
      | none => (none, none)
    | none => (fallbackName, none)
  let linkedId := bookIndex.bind fun i => w.getSpellLink i resolvedBookType
  let spellName := spellName.map gsubTrailingGroup
  let spellId := match linkedId, spellName with
    | some id, _ => some id
    | none, some name => lookupKey w.classToken name (spellRank.getD "")
    | none, none => none
  (spellId, spellName, spellRank)

/-- The indices the tabs of the spell book cover, in order. -/
def bookIndices (w : GameClient) : List Nat :=
  w.spellTabs.flatMap fun (offset, count) => List.range' (offset.getD 0 + 1) (count.getD 0)

/-- The entry has the wanted name, or no name is wanted and it has the wanted icon. -/
def nameMatches (w : GameClient) (spellName wantedTexture : Option String) (spellIndex : Nat) : Bool :=
  match spellName with
  | some n => (w.getSpellName spellIndex BOOKTYPE).map Prod.fst == some n
  | none => wantedTexture.isSome && w.getSpellTexture spellIndex BOOKTYPE == wantedTexture

def textureMatches (w : GameClient) (wantedTexture : Option String) (spellIndex : Nat) : Bool :=
  wantedTexture.isSome && w.getSpellTexture spellIndex BOOKTYPE == wantedTexture

def rankMatches (w : GameClient) (wantedRank : Option String) (spellIndex : Nat) : Bool :=
  wantedRank.any (· != "") && ((w.getSpellName spellIndex BOOKTYPE).bind Prod.snd) == wantedRank

/-- The loops of `FindSpellBookIndex`, with the best index so far. -/
def scanBook (w : GameClient) (spellName wantedRank wantedTexture : Option String) :
    List Nat → Option Nat → Option Nat
  | [], bestIndex => bestIndex
  | spellIndex :: rest, bestIndex =>
    if nameMatches w spellName wantedTexture spellIndex then
      if rankMatches w wantedRank spellIndex then some spellIndex
      else scanBook w spellName wantedRank wantedTexture rest (some spellIndex)
    else if textureMatches w wantedTexture spellIndex then
      scanBook w spellName wantedRank wantedTexture rest (some spellIndex)
    else scanBook w spellName wantedRank wantedTexture rest bestIndex

def findSpellBookIndex (w : GameClient) (spellName wantedRank wantedTexture : Option String) : Option Nat :=
  scanBook w spellName wantedRank wantedTexture (bookIndices w) none

def resolveActionSpell (w : GameClient) (actionSlot : Nat) : Option Nat :=
  findSpellBookIndex w (nameLine w actionSlot) (w.rankLine actionSlot) (getActionTexture w actionSlot)

/-- `IsGroundSpell`: whether it is one, its id and its name. -/
def isGroundSpell (w : GameClient) (bookIndex : Option Nat) (bookType : Option BookType) (fallbackName : Option String) :
    Bool × Option Nat × Option String :=
  let (spellId, spellName, _) := getSpellIdentity w bookIndex bookType fallbackName
  if spellId.any (DinoGroundSpellIds.contains ·) then (true, spellId, spellName)
  else if spellName.any ((DinoGroundSpellNames w.classToken).contains ·) then (true, spellId, spellName)
  else (false, spellId, spellName)

def cancelStaleGroundTargeting (w : GameClient) : List ClientCall :=
  if w.spellIsTargeting then [.spellStopTargeting] else []

def isAutoGroundSpellEnabled (w : GameClient) : Bool := w.groundSpellMode == 1

def tryAutomaticGroundCast (w : GameClient) (bookIndex : Option Nat) (bookType : Option BookType)
    (fallbackName : Option String) : Option GroundResult × List ClientCall :=
  if isAutoGroundSpellEnabled w then
    let (isGround, spellId, _) := isGroundSpell w bookIndex bookType fallbackName
    if isGround then
      let calls := cancelStaleGroundTargeting w
      if w.targetExists then
        match spellId with
        | some id => (some .cast, calls ++ [.sendChatMessage (".gcast " ++ toString id) "SAY"])
        | none => (some .unresolved, calls ++ [.addError "The ground-targeted spell ID could not be resolved."])
      else (some .no_target, calls ++ [.addError "This ground-targeted spell requires a target."])
    else (none, [])
  else (none, [])

/-- The wrapped `UseAction`: its ground result, if it did not call the original one, and
    its client calls. -/
def useAction (w : GameClient) (actionSlot : Nat) (checkCursor onSelf : Option Nat) : Option GroundResult × List ClientCall :=
  match tryAutomaticGroundCast w (resolveActionSpell w actionSlot) (some BOOKTYPE) none with
  | (some groundResult, calls) => (some groundResult, calls)
  | (none, calls) => (none, calls ++ [.originalUseAction actionSlot checkCursor onSelf])

/-! ## The lookup -/

/-- An entry with the wanted name and the wanted, non-empty rank. -/
def exact_ (w : GameClient) (spellName wantedRank wantedTexture : Option String) (i : Nat) : Bool :=
  nameMatches w spellName wantedTexture i && rankMatches w wantedRank i

/-- An entry with the wanted name or the wanted icon. -/
def alike (w : GameClient) (spellName wantedTexture : Option String) (i : Nat) : Bool :=
  nameMatches w spellName wantedTexture i || textureMatches w wantedTexture i

theorem scanBook_eq (w : GameClient) (spellName wantedRank wantedTexture : Option String) :
    ∀ (l : List Nat) (best : Option Nat), scanBook w spellName wantedRank wantedTexture l best =
      (l.find? (exact_ w spellName wantedRank wantedTexture)).or
        ((l.reverse.find? (alike w spellName wantedTexture)).or best) := by
  intro l
  induction l with
  | nil => intro best; rfl
  | cons i rest ih =>
    intro best
    simp only [scanBook, List.find?_cons, List.reverse_cons, List.find?_append, List.find?_nil]
    by_cases hn : nameMatches w spellName wantedTexture i = true
    · rw [if_pos hn]
      have hal : alike w spellName wantedTexture i = true := by simp [alike, hn]
      by_cases hr : rankMatches w wantedRank i = true
      · rw [if_pos hr]
        simp [exact_, hn, hr]
      · rw [if_neg hr, ih]
        have hex : exact_ w spellName wantedRank wantedTexture i = false := by simp [exact_, hr]
        rw [hex, hal]
        cases rest.find? (exact_ w spellName wantedRank wantedTexture) <;>
          cases rest.reverse.find? (alike w spellName wantedTexture) <;> rfl
    · rw [if_neg hn]
      have hex : exact_ w spellName wantedRank wantedTexture i = false := by simp [exact_, hn]
      by_cases ht : textureMatches w wantedTexture i = true
      · rw [if_pos ht, ih]
        have hal : alike w spellName wantedTexture i = true := by simp [alike, ht]
        rw [hex, hal]
        cases rest.find? (exact_ w spellName wantedRank wantedTexture) <;>
          cases rest.reverse.find? (alike w spellName wantedTexture) <;> rfl
      · rw [if_neg ht, ih]
        have hal : alike w spellName wantedTexture i = false := by simp [alike, hn, ht]
        rw [hex, hal]
        simp

/-- The first exact entry, else the last alike one. -/
theorem findSpellBookIndex_eq (w : GameClient) (spellName wantedRank wantedTexture : Option String) :
    findSpellBookIndex w spellName wantedRank wantedTexture =
      ((bookIndices w).find? (exact_ w spellName wantedRank wantedTexture)).or
        ((bookIndices w).reverse.find? (alike w spellName wantedTexture)) := by
  unfold findSpellBookIndex
  rw [scanBook_eq]
  simp

/-! ## Which presses are hijacked -/

/-- The entry at a book index is in the ground-spell tables. -/
def InTables (w : GameClient) (bookIndex : Nat) : Prop := (isGroundSpell w (some bookIndex) (some BOOKTYPE) none).1 = true

instance (w : GameClient) (bookIndex : Nat) : Decidable (InTables w bookIndex) := inferInstanceAs (Decidable (_ = true))

/-- The slot itself holds a ground spell of the player's class. -/
def HoldsGroundSpell (w : GameClient) (slot : Nat) : Prop :=
  ∃ bookIndex, w.actions slot = some (.spell bookIndex) ∧ InTables w bookIndex

/-- The press calls the original `UseAction` with its arguments and sends no `.gcast`. -/
def ReachesOriginal (w : GameClient) (slot : Nat) : Prop :=
  ∀ checkCursor onSelf,
    .originalUseAction slot checkCursor onSelf ∈ (useAction w slot checkCursor onSelf).2 ∧
      ∀ id : Nat, .sendChatMessage (".gcast " ++ toString id) "SAY" ∉ (useAction w slot checkCursor onSelf).2

/-- An entry that a slot with this name, rank and icon singles out: the first with its
    name and its (non-empty) rank; else, if there is none, the last with its name or icon. -/
def SingledOut (w : GameClient) (slot bookIndex : Nat) : Prop :=
  ((bookIndices w).find? (exact_ w (nameLine w slot) (w.rankLine slot) (getActionTexture w slot)) = some bookIndex) ∨
    ((∀ i ∈ bookIndices w, exact_ w (nameLine w slot) (w.rankLine slot) (getActionTexture w slot) i = false) ∧
      (bookIndices w).reverse.find? (alike w (nameLine w slot) (getActionTexture w slot)) = some bookIndex)

theorem resolveActionSpell_iff (w : GameClient) (slot bookIndex : Nat) :
    resolveActionSpell w slot = some bookIndex ↔ SingledOut w slot bookIndex := by
  unfold resolveActionSpell SingledOut
  rw [findSpellBookIndex_eq]
  cases h : (bookIndices w).find? (exact_ w (nameLine w slot) (w.rankLine slot) (getActionTexture w slot)) with
  | some i =>
    have hi := List.find?_some h
    have hmem := List.mem_of_find?_eq_some h
    constructor
    · intro he
      exact Or.inl he
    · intro he
      rcases he with he | ⟨hno, _⟩
      · exact he
      · rw [hno i hmem] at hi
        cases hi
  | none =>
    have hno : ∀ i ∈ bookIndices w,
        exact_ w (nameLine w slot) (w.rankLine slot) (getActionTexture w slot) i = false := by
      intro i hi
      have := List.find?_eq_none.mp h i hi
      simpa using this
    constructor
    · intro he
      exact Or.inr ⟨hno, he⟩
    · intro he
      rcases he with he | ⟨_, he⟩
      · cases he
      · exact he

/-- A cast attempt that is not hijacked makes no call. -/
theorem tryAutomaticGroundCast_none {w : GameClient} {bookIndex : Option Nat}
    (h : isAutoGroundSpellEnabled w = false ∨ (isGroundSpell w bookIndex (some BOOKTYPE) none).1 = false) :
    tryAutomaticGroundCast w bookIndex (some BOOKTYPE) none = (none, []) := by
  unfold tryAutomaticGroundCast
  rcases h with h | h
  · rw [h]; rfl
  · split
    · dsimp only
      rw [h]
      rfl
    · rfl

/-- A hijacked one has a result. -/
theorem tryAutomaticGroundCast_some {w : GameClient} {bookIndex : Option Nat} (hon : isAutoGroundSpellEnabled w = true)
    (h : (isGroundSpell w bookIndex (some BOOKTYPE) none).1 = true) :
    ∃ groundResult calls, tryAutomaticGroundCast w bookIndex (some BOOKTYPE) none = (some groundResult, calls) ∧
      ∀ slot checkCursor onSelf, ClientCall.originalUseAction slot checkCursor onSelf ∉ calls := by
  have hstale : ∀ slot checkCursor onSelf,
      ClientCall.originalUseAction slot checkCursor onSelf ∉ cancelStaleGroundTargeting w := by
    intro slot checkCursor onSelf
    unfold cancelStaleGroundTargeting
    split <;> simp
  unfold tryAutomaticGroundCast
  rw [if_pos hon]
  dsimp only
  rw [if_pos h]
  split
  · split
    · exact ⟨_, _, rfl, by simp [hstale]⟩
    · exact ⟨_, _, rfl, by simp [hstale]⟩
  · exact ⟨_, _, rfl, by simp [hstale]⟩

theorem not_ground_without_entry (w : GameClient) : (isGroundSpell w none (some BOOKTYPE) none).1 = false := by
  simp [isGroundSpell, getSpellIdentity]

/-- A press reaches the original `UseAction` exactly if the lookup does not land on a
    ground spell. -/
theorem reachesOriginal_iff (w : GameClient) (slot : Nat) : ReachesOriginal w slot ↔
    isAutoGroundSpellEnabled w = false ∨ ∀ bookIndex, SingledOut w slot bookIndex → ¬ InTables w bookIndex := by
  by_cases hon : isAutoGroundSpellEnabled w = true
  · cases hres : resolveActionSpell w slot with
    | none =>
      have hnone := tryAutomaticGroundCast_none (w := w) (Or.inr (not_ground_without_entry w))
      refine ⟨fun _ => Or.inr fun i hi => ?_, fun _ checkCursor onSelf => ?_⟩
      · rw [← resolveActionSpell_iff, hres] at hi
        cases hi
      · simp [useAction, hres, hnone]
    | some i =>
      by_cases hg : (isGroundSpell w (some i) (some BOOKTYPE) none).1 = true
      · obtain ⟨groundResult, calls, hcast, hno⟩ := tryAutomaticGroundCast_some hon hg
        constructor
        · intro hreach
          have h := (hreach none none).1
          simp only [useAction, hres, hcast] at h
          exact absurd h (hno slot none none)
        · intro hor
          rcases hor with hoff | hall
          · rw [hon] at hoff; cases hoff
          · exact absurd hg (hall i ((resolveActionSpell_iff w slot i).mp hres))
      · have hnone := tryAutomaticGroundCast_none (w := w) (Or.inr (Bool.not_eq_true _ ▸ hg))
        refine ⟨fun _ => Or.inr fun j hj => ?_, fun _ checkCursor onSelf => ?_⟩
        · rw [← resolveActionSpell_iff, hres] at hj
          cases hj
          exact hg
        · simp [useAction, hres, hnone]
  · have hoff : isAutoGroundSpellEnabled w = false := by simpa using hon
    have hnone : ∀ b, tryAutomaticGroundCast w b (some BOOKTYPE) none = (none, []) :=
      fun b => tryAutomaticGroundCast_none (Or.inl hoff)
    exact ⟨fun _ => Or.inl hoff, fun _ checkCursor onSelf => by simp [useAction, hnone]⟩

/-- With automatic ground spells on, a press is hijacked only for a slot that holds a
    ground spell, exactly if the slot does hold one or no entry that its name, rank and
    icon single out is a ground spell. -/
theorem hijacked_only_for_ground_iff (w : GameClient) (slot : Nat) (hon : isAutoGroundSpellEnabled w = true) :
    (HoldsGroundSpell w slot ∨ ReachesOriginal w slot) ↔
      HoldsGroundSpell w slot ∨ ∀ bookIndex, SingledOut w slot bookIndex → ¬ InTables w bookIndex := by
  rw [reachesOriginal_iff, hon]
  simp

/-! ## A macro with the icon of Blizzard -/

/-- A mage whose book holds Fireball and Blizzard. Slot 1 holds the macro of a chain whose
    current spell is Blizzard, with the icon `UpdateSlotMacroIcon` gave it; slot 2 holds
    Fireball. -/
def mageClient : GameClient where
  classToken := .MAGE
  spellTabs := [(some 0, some 2)]
  getSpellName := fun
    | 1, _ => some ("Fireball", some "Rank 1")
    | 2, _ => some ("Blizzard", some "Rank 1")
    | _, _ => none
  getSpellTexture := fun
    | 1, _ => some "Spell_Fire_FlameBolt"
    | 2, _ => some "Spell_Frost_IceStorm"
    | _, _ => none
  getSpellLink := fun _ _ => none
  actions := fun
    | 1 => some (.macro_ "DMM Slot 1" "Spell_Frost_IceStorm")
    | 2 => some (.spell 1)
    | _ => none
  rankLine := fun
    | 2 => some "Rank 1"
    | _ => none
  targetExists := true
  spellIsTargeting := false
  groundSpellMode := 1

example : (useAction mageClient 1 none none).2 = [.sendChatMessage ".gcast 10" "SAY"] := by decide +kernel

/-- The press of Fireball reaches the original `UseAction`. -/
theorem mage_fireball_not_hijacked : HoldsGroundSpell mageClient 2 ∨ ReachesOriginal mageClient 2 := by
  refine (hijacked_only_for_ground_iff mageClient 2 (by decide)).mpr (Or.inr fun bookIndex hsingled hin => ?_)
  have hres : resolveActionSpell mageClient 2 = some 1 := by decide +kernel
  rw [← resolveActionSpell_iff, hres] at hsingled
  cases hsingled
  exact absurd hin (by decide +kernel)

/-- The slot holds a macro, and its press sends `.gcast`. -/
theorem a_chain_macro_is_hijacked : ¬ ∀ w slot, isAutoGroundSpellEnabled w = true →
    HoldsGroundSpell w slot ∨ ReachesOriginal w slot := by
  intro h
  rcases h mageClient 1 (by decide) with ⟨bookIndex, hholds, _⟩ | hreach
  · cases hholds
  · exact absurd (hreach none none).1 (by decide +kernel)

end Nostalgia.Controller
