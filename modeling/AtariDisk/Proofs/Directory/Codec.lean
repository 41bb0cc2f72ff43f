import AtariDisk.Proofs.Directory.Slots
import Mathlib.Order.Bounds.Basic

/-!
# The sectors of a directory

A directory is written up to its last entry, eight records to a sector, with blank records in the
gaps and zeros behind the records. The sectors are read back as the same entries: what is written
into slot `i` lies in sector `i / 8`, and that is where slot `i` is read.
-/

namespace AtariDisk.Directory

variable {d : Directory} {size : Nat}

/-- What becomes of an empty directory when slots are taken and given back, and entries that were
made for a name are put into slots. -/
inductive Built (size : Nat) : Directory → Prop where
  | empty : Built size (Directory.empty size)
  | add {d after : Directory} {e : Entry} {typed : String} {kind : FileKind} (hbuilt : Built size d)
      (hadd : d.add typed kind = .ok e after) : Built size after
  | remove {d after : Directory} {slot : Nat} (hbuilt : Built size d)
      (hremove : d.remove slot = .ok () after) : Built size after
  | set {d : Directory} {e : Entry} {typed : String} {kind : FileKind} {slot count first : Nat}
      (length : Nat) (hbuilt : Built size d) (hcreate : Entry.create slot typed kind = .ok e)
      (hslot : slot < 64) (hcount : count < 65536) (hfirst : first < 65536) :
      Built size (d.set { e with sectorCount := count, firstSector := first, length })

/-- The entry has a slot on disk, and can be read back from its record. -/
structure Lasting (e : Entry) : Prop where
  slot : e.slot < capacity
  storable : e.Storable
  named : e.name.Valid

theorem lasting_fresh {slot : Nat} (hslot : slot < capacity) {name : FileName} (hname : name.Valid)
    (kind : FileKind) : Lasting (fresh slot name kind) :=
  ⟨hslot, ⟨EntryFlags.byte_ofKind kind, Nat.succ_pos _, Nat.succ_pos _⟩, hname⟩

theorem forall_lasting_set (hlasting : ∀ e ∈ d.entries, Lasting e) {a : Entry} (ha : Lasting a) :
    ∀ e ∈ (d.set a).entries, Lasting e := by
  intro e he
  rcases mem_insertEntry he with rfl | hold
  · exact ha
  · exact hlasting e hold

theorem Built.sectorSize_eq (hbuilt : Built size d) : d.sectorSize = size := by
  induction hbuilt with
  | empty => rfl
  | add _ hadd ih =>
    obtain ⟨_, _, _, _, _, _, rfl⟩ := add_eq_ok_iff.1 hadd
    exact ih
  | remove _ hremove ih =>
    obtain ⟨_, _, _, rfl⟩ := remove_eq_ok_iff.1 hremove
    exact ih
  | set _ _ _ _ _ _ ih => exact ih

theorem Built.lasting (hbuilt : Built size d) : ∀ e ∈ d.entries, Lasting e := by
  induction hbuilt with
  | empty => exact fun e he => absurd he List.not_mem_nil
  | add _ hadd ih =>
    obtain ⟨name, slot, hparse, _, hslot, rfl, rfl⟩ := add_eq_ok_iff.1 hadd
    exact forall_lasting_set ih
      (lasting_fresh (freeSlot_eq_ok_iff.1 hslot).1 (FileName.parse_eq_ok_iff.1 hparse).2 _)
  | remove _ hremove ih =>
    obtain ⟨e, hget, _, rfl⟩ := remove_eq_ok_iff.1 hremove
    obtain ⟨hslot, hstorable, hname⟩ := ih e (get?_eq_some_iff.1 hget).1
    exact forall_lasting_set ih ⟨hslot, hstorable.markDeleted, hname⟩
  | @set d e typed kind slot count first length _ hcreate hslot hcount hfirst ih =>
    obtain ⟨name, hparse, rfl⟩ := create_eq_ok_iff.1 hcreate
    obtain ⟨_, hstorable, hname⟩ :=
      lasting_fresh hslot (FileName.parse_eq_ok_iff.1 hparse).2 kind
    exact forall_lasting_set ih ⟨hslot, ⟨hstorable.used, hcount, hfirst⟩, hname⟩

/-! ### Writing -/

/-- The sectors hold the directory: each record lies in its place, with zeros for slots without
entry and behind the records, and there are no more sectors than that takes. -/
structure Fills (sectors : List Bytes) (d : Directory) (size : Nat) : Prop where
  few : sectors.length ≤ 8
  empty : (∀ slot, d.get? slot = none) → sectors = []
  reach : ∀ top, IsGreatest {slot | ∃ e, d.get? slot = some e} top →
    sectors.length = top / 8 + 1
  length : ∀ sector ∈ sectors, sector.length = max size 128
  entry : ∀ slot e, d.get? slot = some e → ∃ sector, sectors[slot / 8]? = some sector ∧
    (sector.drop (16 * (slot % 8))).take 16 = e.encode
  gap : ∀ slot sector, d.get? slot = none → sectors[slot / 8]? = some sector →
    (sector.drop (16 * (slot % 8))).take 16 = List.replicate 16 0
  rest : ∀ sector ∈ sectors, ∀ b ∈ sector.drop 128, b = 0

theorem length_groups_of_top {top : Nat}
    (htop : IsGreatest {slot | ∃ e, d.get? slot = some e} top) : d.groups.length = top / 8 + 1 := by
  obtain ⟨⟨e, hget⟩, hmax⟩ := htop
  obtain ⟨hmem, hslot⟩ := get?_eq_some_iff.1 hget
  have hreach : ∀ i, i < d.groups.length ↔ i ≤ top / 8 := by
    intro i
    rw [lt_length_groups_iff]
    constructor
    · rintro ⟨f, hf, hi⟩
      have hbelow : f.slot ≤ top := hmax ⟨f, get?_eq_some_iff.2 ⟨hf, rfl⟩⟩
      exact hi.trans (Nat.div_le_div_right hbelow)
    · intro hi
      exact ⟨e, hmem, hslot ▸ hi⟩
  have hlast := (hreach (top / 8)).2 (Nat.le_refl _)
  have hbehind := mt (hreach (top / 8 + 1)).1 (by omega)
  omega

theorem getElem?_sectors (d : Directory) (i : Nat) : d.sectors[i]? = (d.groups[i]?).map d.fill :=
  List.getElem?_map

theorem record_of_getElem?_sectors {slot : Nat} {sector : Bytes}
    (hsector : d.sectors[slot / 8]? = some sector) :
    (sector.drop (16 * (slot % 8))).take 16 = d.record slot := by
  rw [getElem?_sectors, Option.map_eq_some_iff] at hsector
  obtain ⟨group, hgroup, rfl⟩ := hsector
  exact record_of_fill hgroup

theorem fills_sectors (hslots : ∀ e ∈ d.entries, e.slot < capacity) :
    Fills d.sectors d d.sectorSize := by
  have hlength : d.sectors.length = d.groups.length := List.length_map _
  refine ⟨hlength ▸ length_groups_le hslots, ?_,
    fun top htop => hlength ▸ length_groups_of_top htop, ?_, ?_, ?_, ?_⟩
  · intro hnone
    refine List.eq_nil_of_length_eq_zero (Nat.eq_zero_of_not_pos fun hpos => ?_)
    rw [hlength, lt_length_groups_iff, entries_eq_nil_iff.2 hnone] at hpos
    simp at hpos
  · intro sector hsector
    obtain ⟨group, _, rfl⟩ := List.mem_map.1 hsector
    exact Bytes.length_resize ..
  · intro slot e hget
    have hinside : slot / 8 < d.sectors.length := by
      obtain ⟨hmem, hslot⟩ := get?_eq_some_iff.1 hget
      rw [hlength, lt_length_groups_iff]
      exact ⟨e, hmem, hslot ▸ Nat.le_refl _⟩
    refine ⟨_, List.getElem?_eq_getElem hinside, ?_⟩
    rw [record_of_getElem?_sectors (List.getElem?_eq_getElem hinside), record, hget]
  · intro slot sector hget hsector
    rw [record_of_getElem?_sectors hsector, record, hget]
    rfl
  · intro sector hsector b hb
    obtain ⟨group, hgroup, rfl⟩ := List.mem_map.1 hsector
    have hshort : group.length ≤ recordArea := length_le_of_mem_groups hgroup
    have hnone : (group.take d.sectorLength).drop 128 = [] := by
      rw [List.drop_eq_nil_iff, List.length_take]
      exact (Nat.min_le_right _ _).trans hshort
    rw [fill, Bytes.resize, List.drop_append, hnone, List.nil_append] at hb
    exact List.eq_of_mem_replicate (List.mem_of_mem_drop hb)

/-! ### Reading back -/

/-- The records in the sectors, those of empty slots included. -/
theorem records_sectors (hsize : recordArea ≤ d.sectorSize)
    (hslots : ∀ e ∈ d.entries, e.slot < capacity) :
    records d.sectorSize d.sectors.flatten = (List.range (8 * d.groups.length)).map d.record := by
  have hpositive : 0 < d.sectorSize := Nat.lt_of_lt_of_le (by decide) hsize
  have hfills := fills_sectors hslots
  have hsized : ∀ sector ∈ d.sectors, sector.length = d.sectorSize := by
    intro sector hsector
    rw [hfills.length sector hsector]
    exact Nat.max_eq_left hsize
  have hcut : d.sectors.map (fun sector => chunks Entry.size (sector.take recordArea)) =
      (List.range d.groups.length).map fun i =>
        (List.range 8).map fun k => d.record (8 * i + k) := by
    apply List.ext_getElem?
    intro i
    rw [List.getElem?_map, getElem?_sectors, List.getElem?_map]
    cases hgroup : d.groups[i]? with
    | none =>
      rw [List.getElem?_eq_none (by simpa using List.getElem?_eq_none_iff.1 hgroup)]
      rfl
    | some group =>
      rw [List.getElem?_range (List.getElem?_eq_some_iff.1 hgroup).1, Option.map_some,
        Option.map_some, Option.map_some, take_fill hgroup, chunks_flatten _ (by decide)]
      intro record hrecord
      obtain ⟨k, _, rfl⟩ := List.mem_map.1 hrecord
      exact d.length_record _
  have hall : d.sectors.take sectorCount = d.sectors := List.take_of_length_le hfills.few
  rw [records, chunks_flatten hsized hpositive, hall, List.flatMap_def, hcut, range_mul,
    ← List.flatMap_def, List.map_flatMap]
  simp only [List.map_map, Function.comp_def]

/-- The sectors are read back as the same entries, of which only the lengths are not stored. -/
theorem decode_sectors (hsize : recordArea ≤ d.sectorSize)
    (hlasting : ∀ e ∈ d.entries, Lasting e) :
    ∃ again, decode d.sectorSize d.sectors.flatten = .ok again ∧
      again.sectorSize = d.sectorSize ∧
      again.entries = d.entries.map fun e => { e with length := 0 } := by
  have hpositive : 0 < d.sectorSize := Nat.lt_of_lt_of_le (by decide) hsize
  have hslots : ∀ e ∈ d.entries, e.slot < capacity := fun e he => (hlasting e he).slot
  obtain ⟨again, hdecode, hsame, hget⟩ := decode_ok hpositive d.sectors.flatten
  have hslot : ∀ slot, again.get? slot =
      (d.get? slot).map fun e => { e with length := 0 } := by
    intro slot
    rw [hget, records_sectors hsize hslots, List.getElem?_map]
    by_cases hinside : slot < 8 * d.groups.length
    · rw [List.getElem?_range hinside, Option.map_some, Option.bind_some, record]
      cases hentry : d.get? slot with
      | none => exact Entry.parse_unusedRecord slot
      | some e =>
        obtain ⟨hmem, rfl⟩ := get?_eq_some_iff.1 hentry
        obtain ⟨_, hstorable, hname⟩ := hlasting e hmem
        exact Entry.parse_encode_of_valid hstorable hname
    · have hbehind : d.get? slot = none := by
        refine get?_eq_none_iff.2 fun e he heq => hinside ?_
        exact heq ▸ Nat.lt_of_lt_of_le (slot_lt_extent he) d.extent_le_length_groups
      rw [List.getElem?_eq_none (by simpa using hinside), hbehind]
      rfl
  have hagain : ∀ e ∈ again.entries, e.slot < capacity := by
    intro e he
    have hfound := get?_eq_some_iff.2 ⟨he, rfl⟩
    rw [hslot, Option.map_eq_some_iff] at hfound
    obtain ⟨stored, hstored, rfl⟩ := hfound
    exact hslots stored (get?_eq_some_iff.1 hstored).1
  refine ⟨again, hdecode, hsame, ?_⟩
  rw [entries_eq hagain, entries_eq hslots, funext hslot, List.map_filterMap]

/-- **A directory survives its sectors.** Take an empty directory for sectors of at least 128 bytes,
take slots and give them back, and put entries made for a name into slots of the disk. As long as a
sector can be held in memory at all, the directory is written up to the sector of its last entry,
each record in its place, and read back with the same entries in the same slots, lengths apart. -/
theorem survives_its_sectors (hsize : 128 ≤ size) (hbuilt : Built size d) :
    (size < Word.memoryBound → ∃ sectors, d.serialize = .ok sectors ∧ Fills sectors d size ∧
        ∃ again, decode size sectors.flatten = .ok again ∧ again.sectorSize = size ∧
          again.entries = d.entries.map fun e => { e with length := 0 }) ∧
      (Word.memoryBound ≤ size → d.serialize = trap .tooLarge) := by
  have hsame := hbuilt.sectorSize_eq
  have hlasting := hbuilt.lasting
  subst hsame
  constructor
  · intro hsmall
    refine ⟨d.sectors, ?_, fills_sectors fun e he => (hlasting e he).slot,
      decode_sectors hsize hlasting⟩
    rw [serialize, Word.allocate, if_pos hsmall]
    rfl
  · intro hlarge
    rw [serialize, Word.allocate, if_neg (Nat.not_lt.2 hlarge)]
    rfl

/-- A file in slot 9. -/
def late : Entry :=
  { fresh 9 ⟨"LATE", "DAT"⟩ .normal with sectorCount := 1, firstSector := 100, length := 10 }

/-- The file in slot 9, and another that was deleted from slot 0. -/
def ninth : Directory :=
  ((empty 128).set late).set (fresh 0 ⟨"A", ""⟩ .normal).markDeleted

theorem built_ninth : Built 128 ninth := by
  have hcreate : Entry.create 9 "LATE.DAT" .normal = .ok (fresh 9 ⟨"LATE", "DAT"⟩ .normal) := by
    decide +kernel
  have hset : Built 128 ((empty 128).set late) :=
    .set 10 .empty hcreate (by decide) (show 1 < 65536 by decide) (show 100 < 65536 by decide)
  have hadd : ((empty 128).set late).add "A" .normal =
      .ok (fresh 0 ⟨"A", ""⟩ .normal) (((empty 128).set late).set (fresh 0 ⟨"A", ""⟩ .normal)) :=
    add_eq_ok_iff.2
      ⟨⟨"A", ""⟩, 0, by decide +kernel, by decide +kernel, by decide +kernel, rfl, rfl⟩
  have hremove :
      (((empty 128).set late).set (fresh 0 ⟨"A", ""⟩ .normal)).remove 0 = .ok () ninth :=
    remove_eq_ok_iff.2
      ⟨fresh 0 ⟨"A", ""⟩ .normal, by decide +kernel, by decide +kernel, by decide +kernel⟩
  exact .remove (.add hset hadd) hremove

/-- Two sectors are written. The record of slot 9 is the second of the second one, slot 8 is blank
there, and both entries are read back. -/
theorem survives_its_sectors_ninth :
    ∃ sectors again second, Built 128 ninth ∧ ninth.serialize = .ok sectors ∧
      sectors.length = 2 ∧ sectors[1]? = some second ∧
      (second.drop 16).take 9 = [0x42, 1, 0, 100, 0, 0x4C, 0x41, 0x54, 0x45] ∧
      second.take 16 = List.replicate 16 0 ∧
      decode 128 sectors.flatten = .ok again ∧ again.entries.map (·.slot) = [0, 9] := by
  obtain ⟨hwritten, _⟩ := survives_its_sectors (Nat.le_refl 128) built_ninth
  obtain ⟨sectors, hserialize, hfills, again, hdecode, _, hentries⟩ := hwritten (by decide)
  have hget : ninth.get? 9 = some late := by decide +kernel
  obtain ⟨second, hsecond, hrecord⟩ := hfills.entry 9 _ hget
  have htop : IsGreatest {slot | ∃ e, ninth.get? slot = some e} 9 := by
    refine ⟨⟨_, hget⟩, ?_⟩
    rintro slot ⟨e, he⟩
    have hall : ∀ e ∈ ninth.entries, e.slot ≤ 9 := by decide +kernel
    obtain ⟨hmem, rfl⟩ := get?_eq_some_iff.1 he
    exact hall e hmem
  refine ⟨sectors, again, second, built_ninth, hserialize, hfills.reach 9 htop, hsecond, ?_,
    hfills.gap 8 second (by decide +kernel) hsecond, hdecode, ?_⟩
  · calc (second.drop 16).take 9 = ((second.drop (16 * (9 % 8))).take 16).take 9 := by
          rw [List.take_take]
          rfl
      _ = _ := by
        rw [hrecord]
        decide +kernel
  · rw [hentries]
    decide +kernel

/-- No sector has `2 ^ 63` bytes: a directory for such sectors cannot be written even if it is
empty. -/
theorem oversized_sectors_trap :
    128 ≤ Word.memoryBound ∧ Built Word.memoryBound (empty Word.memoryBound) ∧
      (∀ slot, (empty Word.memoryBound).get? slot = none) ∧
      (empty Word.memoryBound).serialize ≠ .ok [] ∧
      (empty Word.memoryBound).serialize = trap .tooLarge := by
  have htrap : (empty Word.memoryBound).serialize = trap .tooLarge := rfl
  refine ⟨by decide, .empty, fun slot => rfl, ?_, htrap⟩
  rw [htrap]
  simp [trap]

end AtariDisk.Directory
