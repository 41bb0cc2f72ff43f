import AtariDisk.Proofs.Volume.Operations

/-!
# Looking up files by the names they are listed with

A name that is typed is put into capitals, without blanks around it, and split at its first dot. The
names on a disk are taken as they are. A file whose name on the disk is not spelled like that is
listed, but the listed name does not lead back to it. The main result says exactly when every listed
name leads to a file of that name.
-/

namespace AtariDisk

namespace FileName

/-- The text with its ASCII letters in capitals. -/
def capitals (text : String) : String :=
  String.ofList (text.toList.map Char.toUpper)

theorem toUpper_toUpper (c : Char) : c.toUpper.toUpper = c.toUpper := by
  have hfirst : 'a'.val.toNat = 97 := rfl
  have hlast : 'z'.val.toNat = 122 := rfl
  have hshift : ('A'.val - 'a'.val).toNat = 4294967264 := rfl
  have hcapital : ¬('a'.val ≤ c.toUpper.val ∧ c.toUpper.val ≤ 'z'.val) := by
    unfold Char.toUpper
    split
    · rename_i hsmall
      simp only [UInt32.le_iff_toNat_le, UInt32.toNat_add] at hsmall ⊢
      omega
    · assumption
  exact dif_neg hcapital

theorem capitals_capitals (text : String) : capitals (capitals text) = capitals text := by
  simp only [capitals, String.toList_ofList, List.map_map]
  congr 1
  exact List.map_congr_left fun c _ => toUpper_toUpper c

theorem length_of_capitals_eq {a b : String} (hsame : capitals a = capitals b) :
    a.toList.length = b.toList.length := by
  have hlength := congrArg (fun text => text.toList.length) hsame
  simpa [capitals] using hlength

theorem Valid.capitals_text {name : FileName} (hvalid : name.Valid) :
    capitals name.text = name.text := by
  rw [capitals, hvalid.plain.map_toUpper_text, String.ofList_toList]

theorem length_text_le {chars : List Char} {name : FileName}
    (hsplit : splitAtDot chars = (name.base.toList, name.ext.toList)) :
    name.text.toList.length ≤ chars.length := by
  obtain ⟨_, ⟨rfl, hext⟩ | rfl⟩ := splitAtDot_eq_iff.1 hsplit
  · rw [text, if_pos (String.toList_eq_nil_iff.1 hext)]
  · unfold text
    split
    · simp
    · simp [String.toList_append]

end FileName

theorem Text.trim_sublist (text : List Char) : (trim text).Sublist text := by
  have hfront := List.dropWhile_sublist (p := isBlank) (l := text)
  have hback := List.dropWhile_sublist (p := isBlank) (l := (text.dropWhile isBlank).reverse)
  exact (List.reverse_sublist.1 (by simpa [trim, trimEndBy] using hback)).trans hfront

/-! ### Names that lead back -/

/-- The name leads to a file: there are no blanks around it, and in capitals it is the name of a
file. If it can be read as a name and an extension, the file has these. -/
def Directory.Reaches (d : Directory) (text : String) : Prop :=
  Text.trim text.toList = text.toList ∧
    ∃ f ∈ d.files, f.fileName = FileName.capitals text ∧
      (f.name.Valid ∨ ∀ name, FileName.parse text ≠ .ok name)

/-- A file that the text asks for is no longer than the text without its blanks. -/
theorem Entry.length_le_of_answers {e : Entry} {typed : String}
    (hanswers : e.answers typed = true) :
    e.fileName.toList.length ≤ (Text.trim typed.toList).length := by
  have hlength : (FileName.normalize typed).length = (Text.trim typed.toList).length :=
    List.length_map ..
  unfold answers at hanswers
  cases hparse : FileName.parse typed with
  | ok name =>
    rw [hparse, decide_eq_true_eq] at hanswers
    rw [Entry.fileName, hanswers, ← hlength]
    exact FileName.length_text_le (FileName.parse_eq_ok_iff.1 hparse).1
  | error failure =>
    rw [hparse, decide_eq_true_eq] at hanswers
    rw [hanswers, String.toList_ofList, hlength]

/-- A name is found with a file of that name, up to the case of its letters, exactly if it leads to
one. -/
theorem Directory.exists_find_iff_reaches {d : Directory} {text : String} :
    (∃ f, d.find text = .ok f ∧ FileName.capitals f.fileName = FileName.capitals text) ↔
      d.Reaches text := by
  have hnormalize : Text.trim text.toList = text.toList →
      String.ofList (FileName.normalize text) = FileName.capitals text := by
    intro htrim
    rw [FileName.normalize, htrim, FileName.capitals]
  constructor
  · rintro ⟨f, hfind, hsame⟩
    have hanswers := answers_of_find hfind
    -- With blanks around it the text would be longer than the name of any file it asks for.
    have htrim : Text.trim text.toList = text.toList := by
      apply (Text.trim_sublist text.toList).eq_of_length_le
      rw [← FileName.length_of_capitals_eq hsame]
      exact Entry.length_le_of_answers hanswers
    refine ⟨htrim, f, mem_files_of_find hfind, ?_⟩
    unfold Entry.answers at hanswers
    cases hparse : FileName.parse text with
    | ok name =>
      rw [hparse, decide_eq_true_eq] at hanswers
      have hvalid : f.name.Valid := hanswers ▸ (FileName.parse_eq_ok_iff.1 hparse).2
      exact ⟨hvalid.capitals_text.symm.trans hsame, .inl hvalid⟩
    | error failure =>
      rw [hparse, decide_eq_true_eq] at hanswers
      exact ⟨hanswers.trans (hnormalize htrim), .inr (by simp)⟩
  · rintro ⟨htrim, f, hf, hspelled, hread⟩
    have hanswers : f.answers text = true ∧
        ∀ g : Entry, g.answers text = true → g.fileName = f.fileName := by
      unfold Entry.answers
      cases hparse : FileName.parse text with
      | ok name =>
        have hvalid : f.name.Valid := hread.resolve_right fun hnone => hnone name hparse
        have hagain := FileName.parse_of_normalize_eq hvalid
          ((hnormalize htrim).trans hspelled.symm)
        rw [hparse, Except.ok.injEq] at hagain
        subst hagain
        exact ⟨decide_eq_true rfl, fun g hg => congrArg FileName.text (of_decide_eq_true hg)⟩
      | error failure =>
        have hsame := hspelled.trans (hnormalize htrim).symm
        exact ⟨decide_eq_true hsame, fun g hg => (of_decide_eq_true hg).trans hsame.symm⟩
    obtain ⟨found, hfind⟩ := exists_find hf hanswers.1
    refine ⟨found, hfind, ?_⟩
    rw [hanswers.2 found (answers_of_find hfind), hspelled, FileName.capitals_capitals]

namespace Volume

open Image

theorem names_list (v : Volume) : v.list.map (·.name) = v.directory.files.map (·.fileName) := by
  rw [list, List.map_map]
  refine List.map_congr_left fun e _ => ?_
  simp only [Function.comp_apply]
  split
  · rfl
  · rfl

theorem forall_list_iff {v : Volume} {p : String → Prop} :
    (∀ line ∈ v.list, p line.name) ↔ ∀ e ∈ v.directory.files, p e.fileName := by
  have hmap : (∀ text ∈ v.list.map (·.name), p text) ↔
      ∀ text ∈ v.directory.files.map (·.fileName), p text := by rw [v.names_list]
  simpa only [List.forall_mem_map] using hmap

/-- A file that is found is read, or its chain is damaged. -/
theorem Loaded.refusesOnly_contentsOf {v : Volume} (hloaded : v.Loaded) {typed : String} {f : Entry}
    (hfind : v.directory.find typed = .ok f) : (v.contentsOf typed).RefusesOnly .damaged := by
  have hf := Directory.mem_files_of_find hfind
  have hfirst := (hloaded.storable (List.mem_filter.1 hf).1).first
  unfold contentsOf
  rw [hfind, Outcome.ok_bind]
  exact (hloaded.roomy.refusesOnly_follow hfirst).bind fun _ _ => Outcome.refusesOnly_ok _

/-- **When listed names lead back to files.** On a mounted disk, every listed name is found, with a
file that exists and has this name up to the case of its letters, and reading the file of that name
never says that there is none, exactly if every name leads to a file: it has no blanks around it, in
capitals it is the name of a file, and a user can type the name of that file unless the text cannot
be read as a name at all. -/
theorem listed_files_found_iff {image : Image} (hsound : image.Sound) (hidle : image.phase = .idle)
    {v : Volume} (hmount : mount image = .ok v) :
    (∀ line ∈ v.list,
        (∃ f, v.directory.find line.name = .ok f ∧ f.isInUse = true ∧
          FileName.capitals f.fileName = FileName.capitals line.name) ∧
        ∀ name, v.contentsOf line.name ≠ refuse (.fileNotFound name)) ↔
      ∀ e ∈ v.directory.files, v.directory.Reaches e.fileName := by
  have hloaded := loaded_of_mount hsound hidle hmount
  rw [← forall_list_iff]
  refine forall₂_congr fun line _ => ?_
  rw [← Directory.exists_find_iff_reaches]
  constructor
  · rintro ⟨⟨f, hfind, _, hsame⟩, _⟩
    exact ⟨f, hfind, hsame⟩
  · rintro ⟨f, hfind, hsame⟩
    have huse := (Directory.mem_files.1 (Directory.mem_files_of_find hfind)).2
    refine ⟨⟨f, hfind, huse, hsame⟩, fun name hmissing => ?_⟩
    obtain ⟨cause, hcause, hkind⟩ := hloaded.refusesOnly_contentsOf hfind _ hmissing
    obtain rfl := Failure.refused.inj hcause
    simp [DiskError.kind] at hkind

/-! ### Disks with empty files -/

/-- The record of an empty file. -/
def emptyRecord (base ext : Bytes) : Bytes :=
  [0x42, 0, 0, 0, 0] ++ Bytes.resize 8 0x20 base ++ Bytes.resize 3 0x20 ext

theorem Loaded.listed_sketched {v : Volume} (hloaded : v.Loaded) {parts : List (Nat × Bytes)}
    (himage : v.image = sketched parts) {slot : Nat} (hslot : slot < 64) {stored : Entry}
    (hstored : Entry.parse slot (sketchRecord parts slot) = some stored)
    (huse : stored.isInUse = true) : ∃ line ∈ v.list, line.name = stored.fileName := by
  have hget := hloaded.get?_sketched himage hslot
  rw [hstored, Option.map_some] at hget
  have hmem : v.image.measured stored ∈ v.directory.files := by
    refine Directory.mem_files.2 ⟨?_, huse⟩
    change v.directory.get? stored.slot = _
    rw [Directory.slot_of_parse hstored, hget]
  have hname : stored.fileName ∈ v.list.map (·.name) := by
    rw [v.names_list]
    exact List.mem_map_of_mem (f := (·.fileName)) hmem
  exact List.mem_map.1 hname

/-- Two files, `A-B` and `FOO.BAS`. -/
def capitalParts : List (Nat × Bytes) :=
  [(SectorMap.home, [SectorMap.dos2]), (Directory.home,
    emptyRecord [0x41, 0x2D, 0x42] [] ++ emptyRecord [0x46, 0x4F, 0x4F] [0x42, 0x41, 0x53])]

/-- Both files of the disk are found, though no user could give the first its name. -/
theorem listed_files_found_iff_capitals :
    ∃ v, (sketched capitalParts).Made ∧ mount (sketched capitalParts) = .ok v ∧
      (∃ line ∈ v.list, line.name = "A-B") ∧ (∃ line ∈ v.list, line.name = "FOO.BAS") ∧
      ∀ line ∈ v.list, ∃ f, v.directory.find line.name = .ok f := by
  have hlead : (sketch capitalParts 1).take 2 ≠ Container.atr.signature := by decide +kernel
  have hmade : (sketched capitalParts).Made := .inl ⟨_, ofBuffer_sketched hlead⟩
  obtain ⟨v, hmount, hloaded, himage⟩ := mount_sketched hlead (by decide +kernel)
  have hspelled : ∀ slot < 64, ∀ stored ∈ Entry.parse slot (sketchRecord capitalParts slot),
      Text.trim stored.fileName.toList = stored.fileName.toList ∧
        stored.fileName = FileName.capitals stored.fileName ∧
        (FileName.isValid stored.name.base.toList stored.name.ext.toList = true ∨
          FileName.parse stored.fileName = refuse (.nameInvalid stored.fileName)) := by
    decide +kernel
  have hreaches : ∀ e ∈ v.directory.files, v.directory.Reaches e.fileName := by
    intro e he
    obtain ⟨slot, hslot, stored, hstored, _, rfl⟩ := hloaded.mem_files_sketched himage he
    obtain ⟨htrim, hcapitals, hread⟩ := hspelled slot hslot stored hstored
    refine ⟨htrim, _, he, hcapitals, hread.imp_right fun hbad name hname => ?_⟩
    exact absurd (hbad.symm.trans hname) (Outcome.refuse_ne_ok _ _)
  have hfound := (listed_files_found_iff hmade.sound.1 hmade.sound.2 hmount).2 hreaches
  refine ⟨v, hmade, hmount, ?_, ?_, fun line hline => ?_⟩
  · exact hloaded.listed_sketched himage (show 0 < 64 by decide) rfl (by decide)
  · exact hloaded.listed_sketched himage (show 1 < 64 by decide) rfl (by decide)
  · obtain ⟨⟨f, hfind, _⟩, _⟩ := hfound line hline
    exact ⟨f, hfind⟩

/-- Two files, `a-b` and `abc`. -/
def smallParts : List (Nat × Bytes) :=
  [(SectorMap.home, [SectorMap.dos2]), (Directory.home,
    emptyRecord [0x61, 0x2D, 0x62] [] ++ emptyRecord [0x61, 0x62, 0x63] [])]

/-- Both files of the disk are listed, and neither is found under the name that is listed: not the
one whose name has to be typed as it is, nor the one whose name is looked up in capitals. -/
theorem listed_files_lost :
    ∃ v, (sketched smallParts).Made ∧ mount (sketched smallParts) = .ok v ∧
      ∀ text ∈ ["a-b", "abc"], (∃ line ∈ v.list, line.name = text) ∧
        v.directory.find text = refuse (.fileNotFound text) ∧
        v.contentsOf text = refuse (.fileNotFound text) := by
  have hlead : (sketch smallParts 1).take 2 ≠ Container.atr.signature := by decide +kernel
  have hmade : (sketched smallParts).Made := .inl ⟨_, ofBuffer_sketched hlead⟩
  obtain ⟨v, hmount, hloaded, himage⟩ := mount_sketched hlead (by decide +kernel)
  have hothers : ∀ slot < 64, ∀ stored ∈ Entry.parse slot (sketchRecord smallParts slot),
      ∀ text ∈ ["a-b", "abc"], stored.answers text = false := by decide +kernel
  have hlost : ∀ text ∈ ["a-b", "abc"],
      v.directory.find text = refuse (.fileNotFound text) := by
    intro text htext
    have hnone : v.directory.files.find? (·.answers text) = none := by
      rw [List.find?_eq_none]
      intro f hf
      obtain ⟨slot, hslot, stored, hstored, _, rfl⟩ := hloaded.mem_files_sketched himage hf
      exact Bool.eq_false_iff.1 (hothers slot hslot stored hstored text htext)
    rw [Directory.find_eq, hnone]
  refine ⟨v, hmade, hmount, fun text htext => ⟨?_, hlost text htext, ?_⟩⟩
  · rcases List.mem_pair.1 htext with rfl | rfl
    · exact hloaded.listed_sketched himage (show 0 < 64 by decide) rfl (by decide)
    · exact hloaded.listed_sketched himage (show 1 < 64 by decide) rfl (by decide)
  · unfold contentsOf
    rw [hlost text htext, Outcome.refuse_bind]

end Volume

end AtariDisk
