/-
  Nostalgia.Web.Listing — the names the page lists, posted back to it.

  An account's page lists the `.pdump` files of its folder; a name of the list is posted
  to download, delete or restore the file, and `safeDumpName` is applied to it.
  - `Actionable`: every listed name comes back as it is, so it resolves to its file.
  - `finalFilename_fixed_iff`: of create_backup's names these are the ones whose character
    has only bytes `safeDumpName` keeps; an admitted name has a byte of another kind
    exactly when it has a letter outside ASCII.
  - `actionable_iff`: a run of requests keeps every listed name actionable exactly when
    no create_backup of it stores a dump of another character.
  - `unreachable_backup`: Jörg's backup is listed, and nothing can be done with it.
-/

import Nostalgia.Web.Polling

namespace Nostalgia.Web

open Nostalgia.Machine World

/-! ## The list -/

/-- `basename` of a path that `glob` finds for `dir\*.pdump`. -/
def listedName (dir path : Bytes) : Option Bytes :=
  let name := path.drop (dir ++ DIRECTORY_SEPARATOR).length
  if (dir ++ DIRECTORY_SEPARATOR).isPrefixOf path && pdumpExtension.isSuffixOf name && !name.any isSeparator then some name
  else none

theorem listedName_eq_some {dir path name : Bytes} : listedName dir path = some name ↔
    path = dir ++ DIRECTORY_SEPARATOR ++ name ∧ pdumpExtension <:+ name ∧ ∀ c ∈ name, isSeparator c = false := by
  unfold listedName
  dsimp only
  constructor
  · intro h
    split at h
    · rename_i hc
      injection h with h
      simp only [Bool.and_eq_true, List.isPrefixOf_iff_prefix, List.isSuffixOf_iff_suffix, Bool.not_eq_true',
        List.any_eq_false] at hc
      obtain ⟨⟨⟨t, rfl⟩, hsuffix⟩, hplain⟩ := hc
      rw [List.drop_left] at h hsuffix hplain
      subst h
      exact ⟨rfl, hsuffix, fun c hc => by simpa using hplain c hc⟩
    · cases h
  · rintro ⟨rfl, hsuffix, hplain⟩
    rw [List.drop_left, if_pos]
    simp only [Bool.and_eq_true, List.isPrefixOf_iff_prefix, List.isSuffixOf_iff_suffix, Bool.not_eq_true',
      List.any_eq_false]
    exact ⟨⟨List.prefix_append _ _, hsuffix⟩, fun c hc => by simp [hplain c hc]⟩

/-- Every listed name is left as it is, and names the listed file. -/
def Actionable (h : Host) (w : World) : Prop :=
  ∀ account, IsAccount account → ∀ f ∈ w.files, ∀ name, listedName (h.accountDir account) f.1 = some name →
    safeDumpName name = .ok name ∧ h.backupPath account name = f.1

/-! ## Texts in UTF-8 -/

theorem utf8EncodeChar_ascii {ch : Char} (hch : ch.toNat < 128) : String.utf8EncodeChar ch = [UInt8.ofNat ch.toNat] := by
  unfold String.utf8EncodeChar
  exact if_pos (by show ch.toNat ≤ 127; omega)

theorem utf8EncodeChar_high {ch : Char} (hch : 128 ≤ ch.toNat) : ∀ b ∈ String.utf8EncodeChar ch, 128 ≤ b.toNat := by
  have hbyte : ∀ n, 128 ≤ n → n < 256 → 128 ≤ (UInt8.ofNat n).toNat := by
    intro n hlo hhi
    rw [UInt8.toNat_ofNat_of_lt' hhi]
    exact hlo
  unfold String.utf8EncodeChar
  dsimp only
  rw [if_neg (by show ¬ ch.toNat ≤ 127; omega)]
  intro b hb
  split at hb
  · simp only [List.mem_cons, List.not_mem_nil, or_false] at hb
    rcases hb with rfl | rfl
    · exact hbyte _ (by omega) (by omega)
    · exact hbyte _ (by omega) (by omega)
  · split at hb
    · simp only [List.mem_cons, List.not_mem_nil, or_false] at hb
      rcases hb with rfl | rfl | rfl
      · exact hbyte _ (by omega) (by omega)
      · exact hbyte _ (by omega) (by omega)
      · exact hbyte _ (by omega) (by omega)
    · simp only [List.mem_cons, List.not_mem_nil, or_false] at hb
      rcases hb with rfl | rfl | rfl | rfl
      · exact hbyte _ (by omega) (by omega)
      · exact hbyte _ (by omega) (by omega)
      · exact hbyte _ (by omega) (by omega)
      · exact hbyte _ (by omega) (by omega)

theorem isSafeByte_lt {b : Byte} (hb : isSafeByte b = true) : b.toNat < 128 := by
  by_contra hge
  simp only [isSafeByte, isUpper, isLower, isDigit, Bool.or_eq_true, Bool.and_eq_true, decide_eq_true_eq, beq_iff_eq] at hb
  rcases hb with (((hb | hb) | hb) | rfl) | rfl
  · omega
  · omega
  · omega
  · exact hge (by decide)
  · exact hge (by decide)

/-- What the server admits as a character's name with StrictPlayerNames = 0: at most 12
    characters, of ASCII only letters. -/
structure AdmittedName (text : String) : Prop where
  short : text.toList.length ≤ 12
  letters : ∀ ch ∈ text.toList, ch.toNat < 128 → ch.isAlpha = true

theorem isSafeByte_alpha {ch : Char} (hch : ch.isAlpha = true) : isSafeByte (UInt8.ofNat ch.toNat) = true := by
  simp only [Char.isAlpha, Char.isUpper, Char.isLower, Bool.or_eq_true, Bool.and_eq_true, decide_eq_true_eq] at hch
  have hval : ∀ n, n < 256 → (65 ≤ n ∧ n ≤ 90) ∨ (97 ≤ n ∧ n ≤ 122) → isSafeByte (UInt8.ofNat n) = true := by
    intro n hn hrange
    unfold isSafeByte isUpper isLower
    rw [UInt8.toNat_ofNat_of_lt' hn]
    rcases hrange with hrange | hrange
    · simp [hrange]
    · simp [hrange]
  rcases hch with ⟨hlo, hhi⟩ | ⟨hlo, hhi⟩
  · have h1 : 65 ≤ ch.toNat := hlo
    have h2 : ch.toNat ≤ 90 := hhi
    exact hval _ (by omega) (Or.inl ⟨h1, h2⟩)
  · have h1 : 97 ≤ ch.toNat := hlo
    have h2 : ch.toNat ≤ 122 := hhi
    exact hval _ (by omega) (Or.inr ⟨h1, h2⟩)

theorem admitted_plain {text : String} (ht : AdmittedName text) : ∀ c ∈ utf8 text, isSeparator c = false := by
  intro c hc
  obtain ⟨ch, hch, hc⟩ := List.mem_flatMap.mp hc
  by_cases hascii : ch.toNat < 128
  · rw [utf8EncodeChar_ascii hascii, List.mem_singleton] at hc
    rw [hc]
    exact (isSafeByte_plain (isSafeByte_alpha (ht.letters ch hch hascii))).1
  · have hhigh := utf8EncodeChar_high (by omega) c hc
    by_contra hsep
    simp only [isSeparator, Bool.not_eq_false, Bool.or_eq_true, beq_iff_eq] at hsep
    rcases hsep with rfl | rfl
    · exact absurd hhigh (by decide)
    · exact absurd hhigh (by decide)

/-- An admitted name is kept byte by byte exactly when it is ASCII. -/
theorem admitted_safe_iff {text : String} (ht : AdmittedName text) :
    (∀ c ∈ utf8 text, isSafeByte c = true) ↔ ∀ ch ∈ text.toList, ch.toNat < 128 := by
  constructor
  · intro hsafe ch hch
    by_contra hhigh
    cases hbytes : String.utf8EncodeChar ch with
    | nil => exact absurd hbytes String.utf8EncodeChar_ne_nil
    | cons b rest =>
      have hb : b ∈ String.utf8EncodeChar ch := by rw [hbytes]; exact List.mem_cons_self
      have hlow := isSafeByte_lt (hsafe b (List.mem_flatMap.mpr ⟨ch, hch, hb⟩))
      have hge := utf8EncodeChar_high (by omega) b hb
      omega
  · intro hascii c hc
    obtain ⟨ch, hch, hc⟩ := List.mem_flatMap.mp hc
    rw [utf8EncodeChar_ascii (hascii ch hch), List.mem_singleton] at hc
    rw [hc]
    exact isSafeByte_alpha (ht.letters ch hch (hascii ch hch))

theorem utf8_length {text : String} (hascii : ∀ ch ∈ text.toList, ch.toNat < 128) :
    (utf8 text).length = text.toList.length := by
  unfold utf8
  generalize text.toList = chars at hascii
  induction chars with
  | nil => rfl
  | cons ch rest ih =>
    rw [List.flatMap_cons, utf8EncodeChar_ascii (hascii ch List.mem_cons_self), List.length_append, List.length_cons,
      ih fun c hc => hascii c (List.mem_cons_of_mem _ hc)]
    simp only [List.length_cons, List.length_nil]
    omega

/-! ## create_backup's names -/

theorem decimal_length {n k : Nat} (hk : 0 < k) (hn : n < 10 ^ k) : (decimal n).length ≤ k := by
  unfold decimal
  rw [List.length_map]
  exact (Nat.length_toDigits_le_iff (by decide) hk).mpr hn

theorem padded_safe (width n : Nat) : ∀ c ∈ padded width n, isSafeByte c = true := by
  intro c hc
  rcases List.mem_append.mp hc with hc | hc
  · rw [(List.mem_replicate.mp hc).2]
    decide
  · exact decimal_safe n c hc

theorem padded_length (width k : Nat) {n : Nat} (hk : 0 < k) (hn : n < 10 ^ k) (hw : width ≤ k) : (padded width n).length ≤ k := by
  have hlen := decimal_length hk hn
  unfold padded
  rw [List.length_append, List.length_replicate]
  omega

theorem stamp_safe (t : LocalTime) : ∀ c ∈ t.stamp, isSafeByte c = true := by
  have hdash : ∀ c ∈ ascii "-", isSafeByte c = true := by decide +kernel
  have hline : ∀ c ∈ ascii "_", isSafeByte c = true := by decide +kernel
  unfold LocalTime.stamp
  simp only [List.forall_mem_append]
  exact ⟨⟨⟨⟨⟨⟨⟨padded_safe 4 _, hdash⟩, padded_safe 2 _⟩, hdash⟩, padded_safe 2 _⟩, hline⟩, padded_safe 2 _⟩,
    padded_safe 2 _⟩

theorem stamp_length (t : LocalTime) : t.stamp.length ≤ 23 := by
  have hyear := padded_length 4 12 (by decide) t.year.isLt (by decide)
  have hmonth := padded_length 2 2 (n := t.month) (by decide) (by omega) (Nat.le_refl 2)
  have hday := padded_length 2 2 (n := t.day) (by decide) (by omega) (Nat.le_refl 2)
  have hhour := padded_length 2 2 (n := t.hour) (by decide) (by omega) (Nat.le_refl 2)
  have hminute := padded_length 2 2 (n := t.minute) (by decide) (by omega) (Nat.le_refl 2)
  have hdash : (ascii "-").length = 1 := rfl
  have hline : (ascii "_").length = 1 := rfl
  unfold LocalTime.stamp
  simp only [List.length_append, hdash, hline]
  omega

/-- What stands before the extension of a final file name. -/
def finalBase (charName : Bytes) (t : LocalTime) : Bytes := charName ++ ascii "_" ++ t.stamp

theorem finalFilename_eq (charName : Bytes) (t : LocalTime) :
    finalFilename charName t = finalBase charName t ++ pdumpExtension := rfl

theorem finalFilename_fixed_iff {text : String} (ht : AdmittedName text) (t : LocalTime) :
    safeDumpName (finalFilename (utf8 text) t) = .ok (finalFilename (utf8 text) t) ↔
      ∀ c ∈ utf8 text, isSafeByte c = true := by
  rw [safeDumpName_fixed_iff, finalFilename_eq]
  constructor
  · intro ⟨b, hb, he⟩ c hc
    have hbase : finalBase (utf8 text) t = b := List.append_cancel_right he
    refine hb.safe c ?_
    rw [← hbase]
    exact List.mem_append_left _ (List.mem_append_left _ hc)
  · intro hsafe
    refine ⟨_, ⟨?_, ?_, ?_⟩, rfl⟩
    · unfold finalBase
      have hline : (ascii "_").length = 1 := rfl
      simp only [List.length_append, hline]
      omega
    · have hlen := utf8_length ((admitted_safe_iff ht).mp hsafe)
      have hshort := ht.short
      have hstamp := stamp_length t
      have hline : (ascii "_").length = 1 := rfl
      unfold finalBase
      simp only [List.length_append, hline]
      omega
    · intro c hc
      rcases List.mem_append.mp hc with hc | hc
      · rcases List.mem_append.mp hc with hc | hc
        · exact hsafe c hc
        · rw [show c = 95 from List.mem_singleton.mp hc]
          decide
      · exact stamp_safe t c hc

theorem finalFilename_plain {text : String} (ht : AdmittedName text) (t : LocalTime) :
    ∀ c ∈ finalFilename (utf8 text) t, isSeparator c = false := by
  intro c hc
  rcases List.mem_append.mp hc with hc | hc
  · rcases List.mem_append.mp hc with hc | hc
    · rcases List.mem_append.mp hc with hc | hc
      · exact admitted_plain ht c hc
      · rw [show c = 95 from List.mem_singleton.mp hc]
        decide
    · exact (isSafeByte_plain (stamp_safe t c hc)).1
  · exact pdumpExtension_plain c hc

/-! ## One account, one name -/

theorem split_at_separator {a a' n n' : Bytes} (ha : ∀ c ∈ a, isSeparator c = false) (ha' : ∀ c ∈ a', isSeparator c = false)
    (he : a ++ DIRECTORY_SEPARATOR ++ n = a' ++ DIRECTORY_SEPARATOR ++ n') : a = a' ∧ n = n' := by
  have htake : ∀ (x y : Bytes), (∀ c ∈ x, isSeparator c = false) →
      (x ++ DIRECTORY_SEPARATOR ++ y).takeWhile (!isSeparator ·) = x := by
    intro x y hx
    rw [List.append_assoc, List.takeWhile_append_of_pos fun c hc => by simp [hx c hc]]
    have hsep : isSeparator 92 = true := by decide
    show x ++ ((92 : Byte) :: y).takeWhile _ = x
    rw [List.takeWhile_cons_of_neg (by simp [hsep]), List.append_nil]
  have haa : a = a' := by
    rw [← htake a n ha, he, htake a' n' ha']
  subst haa
  exact ⟨rfl, List.append_cancel_left he⟩

variable {h : Host}

theorem account_plain {account : Bytes} (ha : IsAccount account) : ∀ c ∈ account, isSeparator c = false :=
  fun c hc => (isAccountByte_plain (ha.bytes c hc)).1

theorem listedName_backupPath {account account' name name' : Bytes} (ha : IsAccount account) (ha' : IsAccount account')
    (hl : listedName (h.accountDir account) (h.backupPath account' name') = some name) : account = account' ∧ name = name' := by
  obtain ⟨hpath, _, _⟩ := listedName_eq_some.mp hl
  unfold Host.backupPath Host.accountDir at hpath
  simp only [List.append_assoc, List.append_cancel_left_eq] at hpath
  have hjoined : account' ++ DIRECTORY_SEPARATOR ++ name' = account ++ DIRECTORY_SEPARATOR ++ name := by
    simpa only [List.append_assoc] using hpath
  obtain ⟨haccount, hname⟩ := split_at_separator (account_plain ha') (account_plain ha) hjoined
  exact ⟨haccount.symm, hname.symm⟩

theorem listedName_tempPath {account name temp : Bytes} : listedName (h.accountDir account) (h.tempPath temp) ≠ some name := by
  intro hl
  obtain ⟨hpath, _, _⟩ := listedName_eq_some.mp hl
  refine tempPath_outside h temp ?_
  rw [hpath]
  exact backupPath_inStore h account name

/-! ## The other actions -/

/-- Every file but those with `Q` was there before. -/
def NewFiles (Q : Bytes → Prop) (w w' : World) : Prop := ∀ f ∈ w'.files, f ∈ w.files ∨ Q f.1

variable {Q : Bytes → Prop}

theorem NewFiles.refl (w : World) : NewFiles Q w w := fun _ hf => Or.inl hf

theorem NewFiles.trans (a b c : World) : NewFiles Q a b → NewFiles Q b c → NewFiles Q a c := by
  intro hab hbc f hf
  rcases hbc f hf with hf | hf
  · exact hab f hf
  · exact Or.inr hf

theorem SameFiles.newFiles (w w' : World) (hw : SameFiles w w') : NewFiles Q w w' := by
  intro f hf
  rw [hw] at hf
  exact Or.inl hf

theorem newFiles_put {p c : Bytes} (hp : Q p) (w : World) : NewFiles Q w (w.put h p c) := by
  intro f hf
  rcases mem_put h hf with rfl | hf
  · exact Or.inr hp
  · exact Or.inl hf

theorem newFiles_unlink {p : Bytes} {ok : Bool} : Moves (NewFiles Q) (unlink h p ok) := by
  intro w f hf
  rw [exec_unlink] at hf
  cases ok with
  | true => exact Or.inl (mem_erase h hf)
  | false => exact Or.inl hf

theorem newFiles_moveUploadedFile {content p : Bytes} {ok : Bool} (hp : Q p) :
    Moves (NewFiles Q) (moveUploadedFile h content p ok) := by
  intro w f hf
  rw [exec_moveUploadedFile] at hf
  cases ok with
  | true => exact newFiles_put hp w f hf
  | false => exact Or.inl hf

theorem newFiles_copy {source target : Bytes} {ok : Bool} (ht : Q target) : Moves (NewFiles Q) (copy h source target ok) := by
  intro w f hf
  cases hw : w.lookup h source with
  | none =>
    rw [exec_copy_none h hw] at hf
    exact Or.inl hf
  | some c =>
    rw [exec_copy_some h hw] at hf
    cases ok with
    | true => exact newFiles_put ht w f hf
    | false => exact Or.inl hf

/-- A backup of a valid account under an accepted name, or a file of the server. -/
def StoredOrTemp (h : Host) (path : Bytes) : Prop := StoredPath h path ∨ ∃ name, path = h.tempPath name

theorem uploadDump_new (r : UploadDump) : Moves (NewFiles (StoredOrTemp h)) (uploadDump h r) := by
  apply uploadDump_moves NewFiles.refl NewFiles.trans
  · intro _
    exact same_ensureDir.mono SameFiles.newFiles
  · intro ha filename name content hn
    exact saveUpload_moves NewFiles.refl NewFiles.trans (same_isFile.mono SameFiles.newFiles)
      (newFiles_moveUploadedFile (Or.inl (backupPath_stored h ha hn)))

theorem deleteDump_new (r : DeleteDump) : Moves (NewFiles Q) (deleteDump h r) :=
  deleteDump_moves NewFiles.refl NewFiles.trans fun _ _ _ => ⟨same_isFile.mono SameFiles.newFiles, newFiles_unlink⟩

theorem restoreBackup_new (r : RestoreBackup) : Moves (NewFiles (StoredOrTemp h)) (restoreBackup h r) := by
  apply restoreBackup_moves NewFiles.refl NewFiles.trans ((restoreSource_same r).mono SameFiles.newFiles)
  · intro temp _
    exact newFiles_unlink
  · intro source _
    exact newFiles_copy (Or.inr ⟨_, rfl⟩)
  · intro command
    exact same_send.mono SameFiles.newFiles
  · exact newFiles_unlink

/-- What uploads and restores add does not disturb the lists. -/
theorem actionable_new {w w' : World} (hw : Actionable h w) (hnew : NewFiles (StoredOrTemp h) w w') : Actionable h w' := by
  intro account ha f hf name hl
  rcases hnew f hf with hf | ⟨account', b, ha', hb, hpath⟩ | ⟨temp, hpath⟩
  · exact hw account ha f hf name hl
  · rw [hpath] at hl ⊢
    obtain ⟨rfl, rfl⟩ := listedName_backupPath ha ha' hl
    exact ⟨safeDumpName_fixed hb, rfl⟩
  · rw [hpath] at hl
    exact absurd hl listedName_tempPath

/-! ## Runs of requests -/

/-- The character of a create_backup has an admitted name. -/
def Request.Admitted : Request → Prop
  | .createBackup r => ∀ charName, r.character = some charName → ∃ text, AdmittedName text ∧ charName = utf8 text
  | _ => True

/-- A create_backup that stores a dump stores it for a character with an ASCII name. -/
def PlainName (h : Host) (w : World) : Request → Prop
  | .createBackup r => ∀ charName content, Saves h w r charName content → ∀ c ∈ charName, isSafeByte c = true
  | _ => True

theorem dumpedInto_new (r : CreateBackup) (w : World) : NewFiles (StoredOrTemp h) w (r.dumpedInto h w) := by
  unfold CreateBackup.dumpedInto
  cases r.dumped with
  | none => exact NewFiles.refl w
  | some c => exact newFiles_put (Or.inr ⟨_, rfl⟩) w

theorem createBackup_actionable_iff {r : CreateBackup} {w : World} (hr : (Request.createBackup r).Admitted)
    (hw : Actionable h w) : Actionable h (request h w (.createBackup r)) ↔ PlainName h w (.createBackup r) := by
  by_cases hsaves : ∃ charName content, Saves h w r charName content
  · obtain ⟨charName, content, hs⟩ := hsaves
    obtain ⟨text, ht, rfl⟩ := hr charName hs.checked.character
    have haccount : IsAccount (accountName r.account_name) := validAccount_ok hs.checked.valid
    obtain ⟨w', hexec, hsame⟩ := createBackup_saves hs
    have hw' : request h w (.createBackup r) = w' := congrArg Prod.snd hexec
    have hlisted : listedName (h.accountDir (accountName r.account_name))
        (r.finalPath h (accountName r.account_name) (utf8 text)) = some (finalFilename (utf8 text) r.date) :=
      listedName_eq_some.mpr ⟨rfl, List.suffix_append _ _, finalFilename_plain ht r.date⟩
    rw [hw']
    constructor
    · intro hact name c hs'
      obtain rfl : utf8 text = name := by
        have hname := hs'.checked.character
        rw [hs.checked.character] at hname
        injection hname
      have hmem : (r.finalPath h (accountName r.account_name) (utf8 text), content) ∈ w'.files := by
        rw [hsame]
        exact List.mem_cons_self
      exact (finalFilename_fixed_iff ht r.date).mp (hact _ haccount _ hmem _ hlisted).1
    · intro hplain account ha f hf name hl
      rw [hsame] at hf
      rcases mem_put h hf with rfl | hf
      · obtain ⟨rfl, rfl⟩ := listedName_backupPath ha haccount hl
        exact ⟨(finalFilename_fixed_iff ht r.date).mpr (hplain _ content hs), rfl⟩
      · exact actionable_new hw (dumpedInto_new r w) account ha f (mem_erase h hf) name hl
  · simp only [not_exists] at hsaves
    obtain ⟨e, w', hexec, hsame⟩ := createBackup_fails hsaves
    have hw' : request h w (.createBackup r) = w' := congrArg Prod.snd hexec
    have hact : Actionable h (request h w (.createBackup r)) := by
      rw [hw']
      rcases hsame with hsame | hsame
      · exact actionable_new hw (SameFiles.newFiles w w' hsame)
      · exact actionable_new (actionable_new hw (dumpedInto_new r w)) (SameFiles.newFiles _ w' hsame)
    exact ⟨fun _ charName content hs => absurd hs (hsaves charName content), fun _ => hact⟩

/-- The requests that select an admitted name. -/
abbrev AdmittedRequest := { r : Request // r.Admitted }

def admittedRequest (h : Host) (w : World) (r : AdmittedRequest) : World := request h w r.1

theorem request_actionable_iff {w : World} (r : AdmittedRequest) (hw : Actionable h w) :
    Actionable h (admittedRequest h w r) ↔ PlainName h w r.1 := by
  obtain ⟨r, hr⟩ := r
  cases r with
  | uploadDump r => exact ⟨fun _ => trivial, fun _ => actionable_new hw (uploadDump_new r w)⟩
  | downloadDump r =>
    exact ⟨fun _ => trivial, fun _ => actionable_new hw (SameFiles.newFiles _ _ (downloadDump_same r w))⟩
  | deleteDump r => exact ⟨fun _ => trivial, fun _ => actionable_new hw (deleteDump_new r w)⟩
  | createBackup r => exact createBackup_actionable_iff hr hw
  | restoreBackup r => exact ⟨fun _ => trivial, fun _ => actionable_new hw (restoreBackup_new r w)⟩

/-- At every instant of a run every listed name is actionable. -/
def AlwaysActionable (h : Host) (w : World) (rs : List AdmittedRequest) : Prop :=
  ∀ k ≤ rs.length, Actionable h (stateAt (admittedRequest h) w rs k)

/-- From a store whose names are all actionable, such as an empty one, every listed name
    is actionable after every request of a run exactly when no create_backup of the run
    stores a dump of a character whose name is not ASCII. -/
theorem actionable_iff (h : Host) {w : World} (hw : Actionable h w) (rs : List AdmittedRequest) :
    AlwaysActionable h w rs ↔ Throughout (admittedRequest h) (fun w r => PlainName h w r.1) w rs :=
  holds_throughout_iff (admittedRequest h) (fun _ r hgood => request_actionable_iff r hgood) hw rs

theorem emptyWorld_actionable : Actionable h emptyWorld := fun _ _ _ hf => absurd hf List.not_mem_nil

/-- A create_backup for the character of that name. -/
def backupOf (text : String) : CreateBackup :=
  { backupAtNoon 1715940000 (List.replicate 60 65) with
    database := some ⟨fun _ => some 5, fun _ _ => some (utf8 text)⟩ }

theorem backupOf_character {text : String} (ht : truthy (utf8 text) = true) :
    (backupOf text).character = some (utf8 text) := by
  show (some (utf8 text)).filter truthy = some (utf8 text)
  rw [Option.filter_some, if_pos ht]

def backupRequest (text : String) (ht : AdmittedName text) (htruthy : truthy (utf8 text) = true) : AdmittedRequest :=
  ⟨.createBackup (backupOf text), fun charName hc => ⟨text, ht, by
    have he := (backupOf_character htruthy).symm.trans hc
    injection he with he
    exact he.symm⟩⟩

def thrallsBackup : AdmittedRequest := backupRequest "Thrall" ⟨by simp, by simp⟩ (by decide +kernel)

def joergsBackup : AdmittedRequest := backupRequest "Jörg" ⟨by simp, by simp⟩ (by decide +kernel)

theorem thralls_backup_actionable :
    AlwaysActionable (Host.windows (ascii "C:\\Nostalgia")) emptyWorld [thrallsBackup] := by
  refine (actionable_iff _ emptyWorld_actionable _).mpr ⟨fun charName content hs => ?_, trivial⟩
  have hname := hs.checked.character
  rw [backupOf_character (by decide +kernel)] at hname
  injection hname with hname
  rw [← hname]
  decide +kernel

/-- The page lists Jörg's backup, and what it posts back names another file. -/
theorem unreachable_backup : ¬ ∀ (h : Host) (rs : List AdmittedRequest), AlwaysActionable h emptyWorld rs := by
  intro hall
  have hact := hall (Host.windows (ascii "C:\\Nostalgia")) [joergsBackup] 1 (Nat.le_refl 1)
  have hfixed := hact (ascii "PLAYER") ⟨by decide +kernel, by decide +kernel, by decide +kernel⟩
    ((backupOf "Jörg").finalPath (Host.windows (ascii "C:\\Nostalgia")) (ascii "PLAYER") (utf8 "Jörg"), List.replicate 60 65)
    (by decide +kernel) (finalFilename (utf8 "Jörg") (backupOf "Jörg").date) (by decide +kernel)
  revert hfixed
  decide +kernel

end Nostalgia.Web
