import AtariDisk.Proofs.Directory.Record
import AtariDisk.Proofs.Volume.Operations

/-!
# What becomes of the other records

Writing or deleting a file writes the directory anew, from the entries that were read of it. The
record of any other entry keeps its numbers, and each field of its name becomes what the text in it
says, which is the same again if that is filled up with blanks. A record that was never used is
cleared if entries lie behind it or in its sector, and is left alone otherwise.
-/

namespace AtariDisk

namespace Image

/-- The record of the slot belongs to a file, be it deleted or not. -/
def Used (image : Image) (slot : Nat) : Prop :=
  (image.record slot).headD 0 ≠ 0

/-- The record was never used, but its sector is written when the entry of `slot` changes: that
entry, or another one, lies in the same sector or behind it. -/
def InGap (image : Image) (slot other : Nat) : Prop :=
  ¬image.Used other ∧
    ∃ used < Directory.capacity, other / 8 ≤ used / 8 ∧ (used = slot ∨ image.Used used)

end Image

namespace Volume

open Image

/-- A file is written or deleted: the slot of its record, and the sectors that get its contents. -/
inductive Changes (v u : Volume) : Nat → List Nat → Prop where
  | write {typed : String} {kind : FileKind} {contents : Bytes} {e : Entry}
      (hok : v.writeFile typed kind contents = .ok e u) :
      Changes v u e.slot (v.map.freeSectors.take e.sectorCount)
  | delete {typed : String} {e : Entry} (hfind : v.directory.find typed = .ok e)
      (hok : v.deleteFile typed = .ok () u) : Changes v u e.slot []

theorem numbers_of_plan {v : Volume} {typed : String} {kind : FileKind} {contents : Bytes}
    {p : Plan} (hplan : v.plan typed kind contents = .ok p) :
    p.chain.numbers = v.map.freeSectors.take p.entry.sectorCount := by
  obtain ⟨_, hnumbers, hlength, hcount, _⟩ := chain_of_plan hplan
  rw [hcount, hlength, hnumbers]

section Change

variable {v u : Volume} (hloaded : v.Loaded) {slot : Nat} {order : List Nat}
  (hchange : v.Changes u slot order)

include hloaded

theorem Loaded.get?_of_used {other : Nat} (hother : other < Directory.capacity)
    (hused : v.image.Used other) :
    ∃ e, Entry.parse other (v.image.record other) = some e ∧
      v.directory.get? other = some (v.image.measured e) := by
  obtain ⟨e, hparse, _⟩ := Entry.encode_parse (hloaded.roomy.length_record hother) hused
  refine ⟨e, hparse, ?_⟩
  rw [hloaded.reads.get?_directory, entryAt_of_lt _ hother, hparse, Option.map_some]

theorem Loaded.get?_of_unused {other : Nat} (hother : other < Directory.capacity)
    (hunused : ¬v.image.Used other) : v.directory.get? other = none := by
  rw [hloaded.reads.get?_directory, entryAt_of_lt _ hother,
    Entry.parse_eq_none (Decidable.not_not.1 hunused), Option.map_none]

/-- The sectors of the gaps are those that are written with the directory. -/
theorem Loaded.inGap_iff {d : Directory} {other : Nat} (hslot : slot < Directory.capacity)
    (hown : ∃ e, d.get? slot = some e)
    (hothers : ∀ other, other ≠ slot → d.get? other = v.directory.get? other)
    (hunused : ¬v.image.Used other) :
    v.image.InGap slot other ↔ other / 8 < d.groups.length := by
  rw [Directory.lt_length_groups_iff]
  constructor
  · rintro ⟨_, used, hlt, hbehind, hsome⟩
    have hentry : ∃ e, d.get? used = some e := by
      by_cases hsame : used = slot
      · rw [hsame]
        exact hown
      · obtain ⟨e, _, hget⟩ := hloaded.get?_of_used hlt (hsome.resolve_left hsame)
        exact ⟨_, (hothers used hsame).trans hget⟩
    obtain ⟨e, hget⟩ := hentry
    obtain ⟨hmem, rfl⟩ := Directory.get?_eq_some_iff.1 hget
    exact ⟨e, hmem, hbehind⟩
  · rintro ⟨e, hmem, hbehind⟩
    have hget := Directory.get?_eq_some_iff.2 ⟨hmem, rfl⟩
    by_cases hsame : e.slot = slot
    · exact ⟨hunused, e.slot, hsame ▸ hslot, hbehind, .inl hsame⟩
    · rw [hothers e.slot hsame] at hget
      have hlt := hloaded.slot_lt (Directory.get?_eq_some_iff.1 hget).1
      refine ⟨hunused, e.slot, hlt, hbehind, .inr fun hzero => ?_⟩
      rw [hloaded.get?_of_unused hlt (fun hused => hused hzero)] at hget
      simp at hget

include hchange

/-- Both changes end by writing a directory with the entries of the other slots as they were, and
before that fill the sectors of the file alone. -/
theorem Loaded.stored_of_changes :
    ∃ before after map d, u.image = after.closed ∧ SystemStored before after map d ∧
      slot < Directory.capacity ∧ (∃ e, d.get? slot = some e) ∧
      (∀ other, other ≠ slot → d.get? other = v.directory.get? other) ∧
      ∀ n, 1 ≤ n → n ∉ order → before.sector n = v.image.sector n := by
  cases hchange with
  | write hok =>
    obtain ⟨p, after, hplan, rfl, hfits, _, himage, hstored⟩ := hloaded.writeFile_stored hok
    have hlinkable : ∀ s ∈ p.chain, v.image.Linkable s.number := fun s hs =>
      (hloaded.mem_numbers_plan hplan (List.mem_map_of_mem hs)).2.2.2
    have hget := get?_plan hplan p.entry.slot
    rw [if_pos rfl] at hget
    refine ⟨_, after, _, _, himage, hstored, ?_, ⟨_, hget⟩, fun other hne => ?_,
      fun n hn hnot => ?_⟩
    · exact hloaded.slot_lt_plan hplan (Directory.get?_eq_some_iff.1 hget).1
    · rw [get?_plan hplan, if_neg hne]
    · apply hloaded.roomy.opened.toSound.sector_putAll_of_not_mem
        (fitting_chainWrites hlinkable hfits) hn
      rwa [fst_chainWrites, numbers_of_plan hplan]
  | delete hfind hok =>
    rename_i e
    obtain ⟨hunlocked, chain, hfollow⟩ := follow_of_delete hok hfind
    obtain ⟨w, after, hw, _, himage, hstored⟩ := hloaded.deleteFile_stored hfind hunlocked hfollow
    rw [hok, EStateM.Result.ok.injEq] at hw
    obtain ⟨_, rfl⟩ := hw
    have hslot := hloaded.slot_lt (List.mem_filter.1 (Directory.mem_files_of_find hfind)).1
    refine ⟨_, after, _, _, himage, hstored, hslot, ⟨e.markDeleted, ?_⟩, fun other hne => ?_,
      fun n _ _ => sector_opened ..⟩
    · rw [Directory.get?_set, if_pos (show e.slot = e.markDeleted.slot from rfl)]
    · rw [Directory.get?_set, if_neg (show other ≠ e.markDeleted.slot from hne)]

variable {other : Nat} (hother : other < Directory.capacity) (hne : other ≠ slot)

include hother hne

theorem Loaded.record_of_used (hused : v.image.Used other) :
    ∃ e, Entry.parse other (v.image.record other) = some e ∧ u.image.record other = e.encode := by
  obtain ⟨before, after, map, d, himage, hstored, _, _, hothers, _⟩ :=
    hloaded.stored_of_changes hchange
  obtain ⟨e, hparse, hget⟩ := hloaded.get?_of_used hother hused
  refine ⟨e, hparse, ?_⟩
  rw [← hothers other hne] at hget
  have hrecord := hstored.present other _ hget
  rw [himage]
  exact hrecord

theorem Loaded.record_of_unused (hunused : ¬v.image.Used other) :
    (v.image.InGap slot other → u.image.record other = Entry.unusedRecord) ∧
      (¬v.image.InGap slot other → Directory.home + other / 8 ∉ order →
        u.image.record other = v.image.record other) := by
  obtain ⟨before, after, map, d, himage, hstored, hslot, hown, hothers, hsectors⟩ :=
    hloaded.stored_of_changes hchange
  have hgap := hloaded.inGap_iff hslot hown hothers hunused
  have hnone : d.get? other = none := by
    rw [hothers other hne, hloaded.get?_of_unused hother hunused]
  have hrecord : u.image.record other =
      if other / 8 < d.groups.length then Entry.unusedRecord else before.record other := by
    rw [himage]
    exact hstored.absent other hother hnone
  constructor
  · intro hinside
    rw [hrecord, if_pos (hgap.1 hinside)]
  · intro houtside hclear
    have hfirst : 1 ≤ Directory.home + other / 8 := by
      simp only [Directory.home]
      omega
    rw [hrecord, if_neg fun hless => houtside (hgap.2 hless), Image.record, Image.record,
      hsectors _ hfirst hclear]

end Change

/-- **The other records.** When a file is written or deleted, the record of any other file keeps its
numbers. Each of the two fields of its name is written anew from the text that was read of it, so it
stays, whatever the other field holds, if it is text filled up with blanks. Records that were never
used are cleared in the sectors that are written, and stay in those behind them as long as no
contents are put there. -/
theorem other_records_kept {image : Image} (hsound : image.Sound) (hidle : image.phase = .idle)
    {v u : Volume} (hmount : mount image = .ok v) {slot other : Nat} {order : List Nat}
    (hchange : v.Changes u slot order) (hother : other < Directory.capacity) (hne : other ≠ slot) :
    (v.image.Used other →
      (u.image.record other).take 5 = (v.image.record other).take 5 ∧
        ∀ field ∈ [Entry.baseField, Entry.extField],
          field (u.image.record other) = Entry.rewritten (field (v.image.record other)) ∧
            (Entry.Padded (field (v.image.record other)) →
              field (u.image.record other) = field (v.image.record other))) ∧
      (v.image.InGap slot other → u.image.record other = Entry.unusedRecord) ∧
      (¬v.image.Used other → ¬v.image.InGap slot other → Directory.home + other / 8 ∉ order →
        u.image.record other = v.image.record other) := by
  have hloaded := loaded_of_mount hsound hidle hmount
  have hlength := hloaded.roomy.length_record hother
  refine ⟨fun hused => ?_, fun hgap => ?_, fun hunused => ?_⟩
  · obtain ⟨e, hparse, hrecord⟩ := hloaded.record_of_used hchange hother hne hused
    obtain ⟨hnumbers, hbase, hext⟩ := Entry.fields_encode_of_parse hlength hparse
    rw [hrecord]
    refine ⟨hnumbers, fun field hfield => ?_⟩
    have hfresh : field e.encode = Entry.rewritten (field (v.image.record other)) := by
      rcases List.mem_pair.1 hfield with rfl | rfl
      · exact hbase
      · exact hext
    exact ⟨hfresh, fun hpadded => hfresh.trans hpadded.rewritten_eq⟩
  · exact (hloaded.record_of_unused hchange hother hne hgap.1).1 hgap
  · exact (hloaded.record_of_unused hchange hother hne hunused).2

/-! ### A disk with a gap -/

/-- A slot that is free, bytes left over in one that was never used, a file whose name is filled up
with zeros, one whose name is no text, and one as it should be. -/
def gapRecords : List Bytes :=
  [Entry.unusedRecord, 0 :: List.replicate 15 0xFF,
    [0x42, 0, 0, 0, 0, 0x42] ++ Bytes.zeros 7 ++ List.replicate 3 0x20,
    [0x42, 0, 0, 0, 0] ++ List.replicate 8 0xC1 ++ List.replicate 3 0x20,
    [0x42, 0, 0, 0, 0, 0x43] ++ List.replicate 10 0x20]

/-- Sectors 4 and 5 are free, and bytes are left over in the second sector of the directory. -/
def gapParts : List (Nat × Bytes) :=
  [(SectorMap.home, SectorMap.dos2 :: Bytes.zeros 9 ++ [0x0C]),
    (Directory.home, gapRecords.flatten), (Directory.home + 1, 0 :: List.replicate 15 0xFF)]

theorem writeFile_gapDisk :
    ∃ v e u, (sketched gapParts).Made ∧ mount (sketched gapParts) = .ok v ∧ v.Loaded ∧
      v.image = sketched gapParts ∧ v.writeFile "A" .normal [0x41] = .ok e u ∧ e.slot = 0 := by
  have hlead : (sketch gapParts 1).take 2 ≠ Container.atr.signature := by decide +kernel
  obtain ⟨v, e, u, hwritten⟩ := writeFile_sketched hlead
    (by decide +kernel) (show FileName.parse "A" = .ok ⟨"A", ""⟩ by decide +kernel)
    (by decide +kernel) (show 0 < 64 by decide) (by decide +kernel) (by decide +kernel)
    (show 1 ≤ 4 ∧ 4 ≤ 368 ∧ _ by decide +kernel) (by decide +kernel) .normal 0x41
  exact ⟨v, e, u, .inl ⟨_, ofBuffer_sketched hlead⟩, hwritten⟩

theorem record_gapDisk {v : Volume} (himage : v.image = sketched gapParts) {slot : Nat}
    (hslot : slot < 64) : v.image.record slot = sketchRecord gapParts slot := by
  rw [himage, record_sketched _ hslot]

/-- Writing a file to the disk changes the bytes of three other records. -/
theorem writeFile_changes_other_records :
    ∃ v e u, (sketched gapParts).Made ∧ mount (sketched gapParts) = .ok v ∧
      v.writeFile "A" .normal [0x41] = .ok e u ∧ e.slot = 0 ∧
      ∀ other ∈ [1, 2, 3], u.image.record other ≠ v.image.record other := by
  obtain ⟨v, e, u, hmade, hmount, hloaded, himage, hok, hslot⟩ := writeFile_gapDisk
  refine ⟨v, e, u, hmade, hmount, hok, hslot, fun other hmem => ?_⟩
  have hrange : other < 64 ∧ other ≠ e.slot ∧ other / 8 = 0 := by
    simp only [List.mem_cons, List.not_mem_nil, or_false] at hmem
    omega
  have hbefore := record_gapDisk himage hrange.1
  by_cases hused : v.image.Used other
  · obtain ⟨f, hparse, hrecord⟩ := hloaded.record_of_used (.write hok) hrange.1 hrange.2.1 hused
    have hnames : ∀ other ∈ [1, 2, 3], (sketchRecord gapParts other).headD 0 ≠ 0 →
        (sketchRecord gapParts other).take 5 ++
            Entry.rewritten (Entry.baseField (sketchRecord gapParts other)) ++
            Entry.rewritten (Entry.extField (sketchRecord gapParts other)) ≠
          sketchRecord gapParts other := by decide +kernel
    rw [Used, hbefore] at hused
    rw [hrecord, Entry.encode_of_parse (hloaded.roomy.length_record hrange.1) hparse, hbefore]
    exact hnames other hmem hused
  · -- The record lies in the sector of the new file.
    have hgap : v.image.InGap e.slot other := by
      refine ⟨hused, e.slot, ?_, by omega, .inl rfl⟩
      rw [hslot]
      decide
    have hfilled : ∀ other ∈ [1, 2, 3], Entry.unusedRecord ≠ sketchRecord gapParts other := by
      decide +kernel
    rw [(hloaded.record_of_unused (.write hok) hrange.1 hrange.2.1 hused).1 hgap, hbefore]
    exact hfilled other hmem

/-- The record of a file as it should be stays. Of the two others the extensions stay, while the
zeros behind a name turn into blanks. Bytes in the gap are cleared, and those behind the last entry
stay. -/
theorem other_records_kept_gapDisk :
    ∃ v e u, (sketched gapParts).Made ∧ mount (sketched gapParts) = .ok v ∧
      v.writeFile "A" .normal [0x41] = .ok e u ∧ e.slot = 0 ∧
      u.image.record 4 = v.image.record 4 ∧
      (∀ other ∈ [2, 3],
        Entry.extField (u.image.record other) = Entry.extField (v.image.record other)) ∧
      Entry.baseField (v.image.record 2) = 0x42 :: List.replicate 7 0 ∧
      Entry.baseField (u.image.record 2) = 0x42 :: List.replicate 7 0x20 ∧
      u.image.record 1 = Entry.unusedRecord ∧ u.image.record 8 = v.image.record 8 := by
  obtain ⟨v, e, u, hmade, hmount, hloaded, himage, hok, hslot⟩ := writeFile_gapDisk
  have hused : ∀ slot < 64, v.image.Used slot ↔ 2 ≤ slot ∧ slot ≤ 4 := by
    have hheads : ∀ slot < 64, (sketchRecord gapParts slot).headD 0 ≠ 0 ↔ 2 ≤ slot ∧ slot ≤ 4 := by
      decide +kernel
    intro slot hlt
    rw [Used, record_gapDisk himage hlt]
    exact hheads slot hlt
  have hothers := fun other (hother : other < 64) (hne : other ≠ 0) =>
    other_records_kept hmade.sound.1 hmade.sound.2 hmount (.write hok) hother
      (show other ≠ e.slot from hslot ▸ hne)
  have hblank : ∀ slot, 2 ≤ slot → slot ≤ 4 →
      Entry.Padded (Entry.extField (v.image.record slot)) := by
    have hexts : ∀ slot < 64, 2 ≤ slot → slot ≤ 4 →
        Entry.extField (sketchRecord gapParts slot) = List.replicate 3 0x20 := by decide +kernel
    intro slot hfirst hlast
    rw [record_gapDisk himage (by omega), hexts slot (by omega) hfirst hlast]
    exact ⟨[], 3, by simp [Text.Trimmed], by decide +kernel⟩
  have hfields := fun slot (hfirst : 2 ≤ slot) (hlast : slot ≤ 4) =>
    (hothers slot (by omega) (by omega)).1 ((hused slot (by omega)).2 ⟨hfirst, hlast⟩)
  have hzeros : Entry.baseField (v.image.record 2) = 0x42 :: List.replicate 7 0 := by
    rw [record_gapDisk himage (by omega)]
    decide +kernel
  refine ⟨v, e, u, hmade, hmount, hok, hslot, ?_, fun other hmem => ?_, hzeros, ?_, ?_, ?_⟩
  · obtain ⟨hnumbers, hkept⟩ := hfields 4 (by omega) (by omega)
    refine Entry.eq_of_fields hnumbers ((hkept _ (by simp)).2 ?_)
      ((hkept _ (by simp)).2 (hblank 4 (by omega) (by omega)))
    rw [record_gapDisk himage (by omega)]
    exact ⟨['C'], 7, by simp [Text.Trimmed, Entry.isFiller], by decide +kernel⟩
  · have hrange : 2 ≤ other ∧ other ≤ 4 := by
      simp only [List.mem_cons, List.not_mem_nil, or_false] at hmem
      omega
    exact ((hfields other hrange.1 hrange.2).2 _ (by simp)).2 (hblank other hrange.1 hrange.2)
  · rw [((hfields 2 (by omega) (by omega)).2 Entry.baseField (by simp)).1, hzeros]
    decide +kernel
  · apply (hothers 1 (by omega) (by omega)).2.1
    have hunused : ¬v.image.Used 1 := by
      rw [hused 1 (by omega)]
      omega
    exact ⟨hunused, 2, by decide, by omega, .inr ((hused 2 (by omega)).2 (by omega))⟩
  · apply (hothers 8 (by omega) (by omega)).2.2
    · rw [hused 8 (by omega)]
      omega
    · rintro ⟨_, used, hlt, hsector, hsame | hfile⟩
      · omega
      · have hrange := (hused used hlt).1 hfile
        omega
    · intro hmem
      have hfree := (SectorMap.mem_freeSectors.1 (List.mem_of_mem_take hmem)).2.2
      rw [hloaded.isFree_sketched himage (by decide)] at hfree
      exact absurd hfree (by decide +kernel)

end Volume

end AtariDisk
