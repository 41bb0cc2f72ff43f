import AtariDisk.Volume.Basic
import AtariDisk.Proofs.Directory.Slots
import AtariDisk.Proofs.Image.Origin
import AtariDisk.Proofs.SectorMap
import AtariDisk.Proofs.Volume.Walk

/-!
# What a volume knows of its image

Reading a volume never fails on a roomy disk (`Image.Roomy.load_ok`). A volume that was read from
its image (`Volume.Loaded`) has the map that sector 360 holds, and in each slot the entry in the
record of the slot, with the length of the chain on which the file lies.
-/

namespace AtariDisk

namespace Image

/-- The 16 bytes of a slot in the sectors of the directory. -/
def record (image : Image) (slot : Nat) : Bytes :=
  ((image.sector (Directory.home + slot / 8)).drop (16 * (slot % 8))).take 16

/-- The entry in the record of a slot. -/
def entryAt (image : Image) (slot : Nat) : Option Entry :=
  if slot < Directory.capacity then Entry.parse slot (image.record slot) else none

theorem entryAt_of_lt (image : Image) {slot : Nat} (hslot : slot < Directory.capacity) :
    image.entryAt slot = Entry.parse slot (image.record slot) :=
  if_pos hslot

/-- The record of a slot on a disk with these sectors. -/
def sketchRecord (parts : List (Nat × Bytes)) (slot : Nat) : Bytes :=
  ((sketch parts (361 + slot / 8)).drop (16 * (slot % 8))).take 16

theorem record_sketched (parts : List (Nat × Bytes)) {slot : Nat} (hslot : slot < 64) :
    (sketched parts).record slot = sketchRecord parts slot := by
  rw [record, Directory.home, sector_sketched parts (by omega) (by omega), sketchRecord]

/-- The entries stay as long as the sectors of the directory do. -/
theorem entryAt_congr {a b : Image} (hsectors : ∀ n, 361 ≤ n → n ≤ 368 → b.sector n = a.sector n)
    (slot : Nat) : b.entryAt slot = a.entryAt slot := by
  by_cases hslot : slot < Directory.capacity
  · have hsector : b.sector (Directory.home + slot / 8) = a.sector (Directory.home + slot / 8) := by
      simp only [Directory.capacity] at hslot
      apply hsectors
      · simp only [Directory.home]
        omega
      · simp only [Directory.home]
        omega
    rw [entryAt_of_lt b hslot, entryAt_of_lt a hslot, record, record, hsector]
  · rw [entryAt, entryAt, if_neg hslot, if_neg hslot]

theorem slot_of_entryAt {image : Image} {slot : Nat} {e : Entry}
    (hentry : image.entryAt slot = some e) : slot < Directory.capacity ∧ e.slot = slot := by
  unfold entryAt at hentry
  split at hentry
  · rename_i hslot
    exact ⟨hslot, Directory.slot_of_parse hentry⟩
  · simp at hentry

theorem storable_of_entryAt {image : Image} {slot : Nat} {e : Entry}
    (hentry : image.entryAt slot = some e) : e.Storable ∧ e.length = 0 := by
  obtain ⟨hslot, _⟩ := slot_of_entryAt hentry
  rw [entryAt_of_lt image hslot] at hentry
  exact Entry.storable_of_parse hentry

/-- What following the chain of a file comes to. -/
def finding (image : Image) (e : Entry) : Except DiskError Nat :=
  match image.follow e with
  | .ok chain => .ok chain.fileLength
  | .error (.refused cause) => .error cause
  | .error (.trapped _) => .ok 0

theorem finding_of_follow {image : Image} {e : Entry} {chain : Chain}
    (hfollow : image.follow e = .ok chain) : image.finding e = .ok chain.fileLength := by
  rw [finding, hfollow]

section Region

variable {image : Image} (hroomy : image.Roomy)

include hroomy

theorem Roomy.addLengths_eq {n count : Nat} (hfirst : 3 < n) (hlast : n + count ≤ 369)
    {total : Nat} (htotal : total + count * 256 < Word.bound) :
    image.header.addLengths n count total = .ok (total + count * image.header.sectorSize) := by
  have hsize := hroomy.regular.size
  change image.header.sectorSize = 128 ∨ image.header.sectorSize = 256 at hsize
  induction count generalizing n total with
  | zero => simp [Header.addLengths]
  | succ count ih =>
    rw [Header.addLengths, hroomy.locate_eq (hroomy.linkable_of_le (by omega) (by omega)),
      Outcome.ok_bind, hroomy.length_place hfirst, Word.add_eq_ok_iff.2 ⟨by omega, rfl⟩,
      Outcome.ok_bind, ih (by omega) (by omega) (by omega), Nat.succ_mul]
    congr 1
    omega

theorem Roomy.place_add {n count : Nat} (hfirst : 3 < n) :
    (image.header.place (n + count)).offset =
      (image.header.place n).offset + count * image.header.sectorSize := by
  induction count with
  | zero => simp
  | succ count ih =>
    have hstep := hroomy.regular.place_succ (show 1 ≤ n + count by omega)
    have hlength := hroomy.length_place (show 3 < n + count by omega)
    simp only [Header.place] at ih hlength ⊢
    rw [← Nat.add_assoc, hstep, hlength, Nat.succ_mul]
    omega

theorem Roomy.slice_eq_flatten {n : Nat} (hfirst : 3 < n) (count : Nat) :
    Buffer.slice image.data (image.header.place n).offset (count * image.header.sectorSize) =
      ((List.range count).map fun j => image.sector (n + j)).flatten := by
  induction count with
  | zero => simp [Buffer.slice]
  | succ count ih =>
    have hsector : image.sector (n + count) = Buffer.slice image.data
        ((image.header.place n).offset + count * image.header.sectorSize)
        image.header.sectorSize := by
      rw [sector, hroomy.place_add hfirst, hroomy.length_place (by omega)]
    calc Buffer.slice image.data (image.header.place n).offset
          ((count + 1) * image.header.sectorSize)
        = ((List.range count).map fun j => image.sector (n + j)).flatten ++
            image.sector (n + count) := by rw [Nat.succ_mul, Buffer.slice_append, ih, ← hsector]
      _ = ((List.range (count + 1)).map fun j => image.sector (n + j)).flatten := by
        simp [List.range_succ]

theorem Roomy.length_sector {n : Nat} (hfirst : 3 < n) (hlast : n ≤ 368) :
    (image.sector n).length = image.header.sectorSize := by
  have hreaches := hroomy.reaches
  rw [hroomy.toSound.length_sector (by omega) (by omega), hroomy.length_place hfirst]

theorem Roomy.length_record {slot : Nat} (hslot : slot < Directory.capacity) :
    (image.record slot).length = Entry.size := by
  have hsize := hroomy.regular.size
  change image.header.sectorSize = 128 ∨ image.header.sectorSize = 256 at hsize
  have hrange : 3 < Directory.home + slot / 8 ∧ Directory.home + slot / 8 ≤ 368 := by
    simp only [Directory.capacity, Directory.home] at hslot ⊢
    omega
  rw [record, List.length_take, List.length_drop, hroomy.length_sector hrange.1 hrange.2,
    Entry.size]
  omega

/-- The directory is decoded from its sectors, one after the other. -/
theorem Roomy.readDirectory_flatten :
    Volume.readDirectory image = Directory.decode image.header.sectorSize
      ((List.range 8).map fun j => image.sector (Directory.home + j)).flatten := by
  have hbound : Word.bound = 18446744073709551616 := rfl
  have hsize := hroomy.regular.size
  change image.header.sectorSize = 128 ∨ image.header.sectorSize = 256 at hsize
  have hhome : image.Linkable Directory.home :=
    hroomy.linkable_of_le (by decide) (by decide)
  have hregion : image.header.region Directory.home Directory.sectorCount =
      .ok ⟨(image.header.place Directory.home).offset, 8 * image.header.sectorSize⟩ := by
    unfold Header.region
    rw [hroomy.locate_eq hhome, Outcome.ok_bind, Word.add_eq_ok_iff.2 ⟨by decide, rfl⟩,
      Outcome.ok_bind, hroomy.addLengths_eq (by decide) (by decide) (by decide)]
    simp [Directory.sectorCount]
  have hreaches := hroomy.reaches
  have hinside := hroomy.place_inside (show 1 ≤ Directory.home + 7 by decide)
    (show Directory.home + 7 ≤ image.header.sectorCount by simp only [Directory.home]; omega)
  rw [hroomy.place_add (by decide), hroomy.length_place (by decide)] at hinside
  have hsmall := hroomy.regular.place_offset_lt (show Directory.home < 65536 by decide)
  have hlead := image.header.length_le
  have hstop : (image.header.place Directory.home).offset + 8 * image.header.sectorSize <
      Word.bound := by
    simp only [Header.place]
    omega
  unfold Volume.readDirectory
  rw [hregion, Outcome.ok_bind]
  simp only
  rw [Word.add_eq_ok_iff.2 ⟨hstop, rfl⟩, Outcome.ok_bind, if_neg (by omega),
    hroomy.slice_eq_flatten (by decide)]

/-- Each slot of the directory on the disk holds the entry in its record. -/
theorem Roomy.readDirectory_eq :
    ∃ d, Volume.readDirectory image = .ok d ∧ d.sectorSize = image.header.sectorSize ∧
      ∀ slot, d.get? slot = image.entryAt slot := by
  have hsize := hroomy.regular.size
  change image.header.sectorSize = 128 ∨ image.header.sectorSize = 256 at hsize
  rw [hroomy.readDirectory_flatten]
  obtain ⟨d, hdecode, hsame, hget⟩ := Directory.decode_ok
    (show 0 < image.header.sectorSize by omega)
    ((List.range 8).map fun j => image.sector (Directory.home + j)).flatten
  refine ⟨d, hdecode, hsame, fun slot => ?_⟩
  have hsectors : ∀ j < 8,
      (image.sector (Directory.home + j)).length = image.header.sectorSize := by
    intro j hj
    exact hroomy.length_sector (by simp only [Directory.home]; omega)
      (by simp only [Directory.home]; omega)
  rw [hget, Directory.records_of_sectors (by simp only [Directory.recordArea]; omega) hsectors,
    List.getElem?_map]
  unfold entryAt
  by_cases hslot : slot < 64
  · rw [List.getElem?_range hslot, if_pos (show slot < Directory.capacity from hslot)]
    rfl
  · rw [List.getElem?_eq_none (by simpa using hslot),
      if_neg (show ¬slot < Directory.capacity from hslot)]
    rfl

theorem Roomy.readMap_eq :
    ∃ map, SectorMap.unpack (image.sector SectorMap.home) = .ok map ∧
      Volume.readMap image = .ok map ∧ map.raw = image.sector SectorMap.home := by
  have hsize := hroomy.regular.size
  change image.header.sectorSize = 128 ∨ image.header.sectorSize = 256 at hsize
  have hlength := hroomy.length_sector (show 3 < SectorMap.home by decide) (by decide)
  obtain ⟨map, hunpack, hraw, _⟩ :=
    SectorMap.unpack_of_le (show 100 ≤ (image.sector SectorMap.home).length by omega)
  refine ⟨map, hunpack, ?_, hraw⟩
  unfold Volume.readMap
  rw [hroomy.readSector_eq (hroomy.linkable_of_le (by decide) (by decide)), Outcome.ok_bind,
    hunpack]

theorem Roomy.survey_eq {entries : List Entry} (hfirst : ∀ e ∈ entries, e.firstSector < 65536) :
    Volume.survey image entries = .ok (entries.map fun e => (e.slot, image.finding e)) := by
  induction entries with
  | nil => rfl
  | cons e rest ih =>
    have hsettles := hroomy.settles_follow (hfirst e List.mem_cons_self)
    have hrest := ih fun f hf => hfirst f (List.mem_cons_of_mem e hf)
    rw [Volume.survey, List.map_cons, finding]
    cases hfollow : image.follow e with
    | ok chain =>
      simp only [Outcome.pure_eq_ok, Outcome.ok_bind, hrest]
    | error failure =>
      cases failure with
      | refused cause => simp only [Outcome.pure_eq_ok, Outcome.ok_bind, hrest]
      | trapped cause => exact absurd hfollow (hsettles cause)

end Region

/-- The entry with the length of the chain on which its file lies. -/
def measured (image : Image) (e : Entry) : Entry :=
  { e with
    length :=
      if e.isInUse then
        match image.finding e with
        | .ok length => length
        | .error _ => 0
      else 0 }

@[simp]
theorem flags_measured (image : Image) (e : Entry) : (image.measured e).flags = e.flags := rfl

@[simp]
theorem name_measured (image : Image) (e : Entry) : (image.measured e).name = e.name := rfl

@[simp]
theorem isInUse_measured (image : Image) (e : Entry) :
    (image.measured e).isInUse = e.isInUse := rfl

theorem Sound.roomy_iff {image : Image} (hsound : image.Sound) :
    image.Roomy ↔ ∃ last, image.header.lastSector = .ok last ∧ Volume.lastSystemSector ≤ last := by
  constructor
  · intro hroomy
    exact ⟨_, hroomy.lastSector_eq, hroomy.reaches⟩
  · rintro ⟨last, hlast, hreaches⟩
    obtain ⟨hcountable, rfl⟩ := hsound.regular.lastSector_eq_ok_iff.1 hlast
    exact ⟨hsound, hreaches, hcountable⟩

end Image

namespace Volume

open Image

theorem lookup_map_of_mem {entries : List Entry} {e : Entry} {β : Type} (f : Entry → β)
    (hordered : entries.Pairwise fun a b => a.slot < b.slot) (hmem : e ∈ entries) :
    (entries.map fun e => (e.slot, f e)).lookup e.slot = some (f e) := by
  induction entries with
  | nil => simp at hmem
  | cons a rest ih =>
    obtain ⟨hfirst, htail⟩ := List.pairwise_cons.1 hordered
    rw [List.map_cons, List.lookup_cons]
    rcases List.mem_cons.1 hmem with rfl | hlater
    · simp
    · have hbefore := hfirst e hlater
      rw [show (e.slot == a.slot) = false by simp only [beq_eq_false_iff_ne]; omega]
      exact ih htail hlater

/-- The length that is found for an entry is that of its own chain. -/
theorem lengthIn_files (image : Image) {d : Directory} {e : Entry} (hmem : e ∈ d.entries) :
    { e with length := lengthIn (d.files.map fun e => (e.slot, image.finding e)) e.slot } =
      image.measured e := by
  have hordered : d.files.Pairwise fun a b => a.slot < b.slot := d.ordered.filter _
  unfold lengthIn measured
  by_cases huse : e.isInUse = true
  · rw [lookup_map_of_mem image.finding hordered (List.mem_filter.2 ⟨hmem, huse⟩), if_pos huse]
    cases image.finding e with
    | ok length => rfl
    | error cause => rfl
  · have hnone : (d.files.map fun e => (e.slot, image.finding e)).lookup e.slot = none := by
      rw [List.lookup_eq_none_iff]
      intro pair hpair
      obtain ⟨f, hf, rfl⟩ := List.mem_map.1 hpair
      -- An entry of the same slot would be `e` itself, which is not in use.
      have hne : e.slot ≠ f.slot := by
        intro hslot
        obtain ⟨hfile, hfuse⟩ := Directory.mem_files.1 hf
        have hsame := Directory.get?_eq_some_iff.2 ⟨hmem, hslot⟩
        rw [hfile, Option.some.injEq] at hsame
        exact huse (hsame ▸ hfuse)
      simpa using hne
    rw [hnone, if_neg huse]

theorem get?_measure (image : Image) (d : Directory) (slot : Nat) :
    (measure d (d.files.map fun e => (e.slot, image.finding e))).get? slot =
      (d.get? slot).map image.measured := by
  have hfind : ∀ findings, (measure d findings).get? slot =
      (d.get? slot).map fun e => { e with length := lengthIn findings e.slot } := by
    intro findings
    exact List.find?_map
  rw [hfind]
  cases hget : d.get? slot with
  | none => rfl
  | some e =>
    rw [Option.map_some, Option.map_some,
      lengthIn_files image (Directory.get?_eq_some_iff.1 hget).1]

theorem damageIn_measure (image : Image) (d : Directory)
    (findings : List (Nat × Except DiskError Nat)) :
    damageIn ((measure d findings).files.map fun e => (e.slot, image.finding e)) =
      damageIn (d.files.map fun e => (e.slot, image.finding e)) := by
  have hfiles : (measure d findings).files =
      d.files.map fun e => { e with length := lengthIn findings e.slot } :=
    List.filter_map
  have hfinding : ∀ (e : Entry) (length : Nat),
      image.finding { e with length } = image.finding e := by
    intro e length
    rw [finding, finding, follow_length]
  rw [hfiles, List.map_map]
  refine congrArg damageIn (List.map_congr_left fun e _ => ?_)
  simp only [Function.comp_apply, hfinding]

/-- What the volume knows is what its image holds. -/
structure Reads (v : Volume) : Prop where
  raw_map : v.map.raw = v.image.sector SectorMap.home
  limit_map : v.map.limit = min (v.image.header.sectorCount + 1) 720
  isFree_map : ∀ map, SectorMap.unpack (v.image.sector SectorMap.home) = .ok map →
    ∀ s, v.map.isFree s = map.isFree s
  sectorSize_directory : v.directory.sectorSize = v.image.header.sectorSize
  get?_directory : ∀ slot, v.directory.get? slot = (v.image.entryAt slot).map v.image.measured
  damage_eq : v.damage = damageIn (v.directory.files.map fun e => (e.slot, v.image.finding e))

theorem Reads.stored {v : Volume} (hreads : v.Reads) {e : Entry}
    (hmem : e ∈ v.directory.entries) :
    ∃ stored, v.image.entryAt e.slot = some stored ∧ v.image.measured stored = e := by
  have hget := Directory.get?_eq_some_iff.2 ⟨hmem, rfl⟩
  rw [hreads.get?_directory, Option.map_eq_some_iff] at hget
  exact hget

theorem Reads.slot_lt {v : Volume} (hreads : v.Reads) {e : Entry}
    (hmem : e ∈ v.directory.entries) : e.slot < Directory.capacity := by
  obtain ⟨stored, hstored, _⟩ := hreads.stored hmem
  exact (slot_of_entryAt hstored).1

theorem Reads.storable {v : Volume} (hreads : v.Reads) {e : Entry}
    (hmem : e ∈ v.directory.entries) : e.Storable := by
  obtain ⟨stored, hstored, rfl⟩ := hreads.stored hmem
  obtain ⟨hused, hcount, hfirst⟩ := (storable_of_entryAt hstored).1
  exact ⟨hused, hcount, hfirst⟩

/-- Reading a volume never fails on a roomy disk. -/
theorem load_ok {image : Image} (hroomy : image.Roomy) :
    ∃ v, load image = .ok v ∧ v.image = image ∧ v.Reads := by
  obtain ⟨map, hunpack, hmap, hraw⟩ := hroomy.readMap_eq
  obtain ⟨d, hdirectory, hsize, hget⟩ := hroomy.readDirectory_eq
  have hfirst : ∀ e ∈ d.files, e.firstSector < 65536 := by
    intro e he
    have hentry := hget e.slot
    rw [(Directory.mem_files.1 he).1] at hentry
    exact (storable_of_entryAt hentry.symm).1.first
  unfold load
  rw [hmap, Outcome.ok_bind, hroomy.lastSector_eq, Outcome.ok_bind,
    SectorMap.restrict_eq hroomy.countable, Outcome.ok_bind, hdirectory, Outcome.ok_bind,
    hroomy.survey_eq hfirst, Outcome.ok_bind]
  refine ⟨_, rfl, rfl, hraw, rfl, ?_, hsize, ?_, (damageIn_measure image d _).symm⟩
  · intro again hagain s
    rw [hunpack, Except.ok.injEq] at hagain
    subst hagain
    exact SectorMap.isFree_congr rfl s
  · intro slot
    rw [← hget slot]
    exact get?_measure image d slot

/-- The volume was read from its image, on which no transaction is open. -/
structure Loaded (v : Volume) : Prop where
  roomy : v.image.Roomy
  idle : v.image.phase = .idle
  current : load v.image = .ok v

theorem Loaded.of_load {image : Image} {v : Volume} (hroomy : image.Roomy)
    (hidle : image.phase = .idle) (hload : load image = .ok v) : v.Loaded ∧ v.image = image := by
  obtain ⟨again, hagain, himage, _⟩ := load_ok hroomy
  rw [hload, Except.ok.injEq] at hagain
  subst hagain
  exact ⟨⟨himage ▸ hroomy, himage ▸ hidle, himage.symm ▸ hload⟩, himage⟩

section Loaded

variable {v : Volume} (hloaded : v.Loaded)

include hloaded

theorem Loaded.reads : v.Reads := by
  obtain ⟨again, hagain, _, hreads⟩ := load_ok hloaded.roomy
  rw [hloaded.current, Except.ok.injEq] at hagain
  exact hagain ▸ hreads

theorem Loaded.sectorSize_cases :
    v.image.header.sectorSize = 128 ∨ v.image.header.sectorSize = 256 :=
  hloaded.roomy.regular.size

theorem Loaded.limit_gt : 368 < v.map.limit := by
  have hlimit := hloaded.reads.limit_map
  have hreaches := hloaded.roomy.reaches
  omega

theorem Loaded.length_raw_map : v.map.raw.length = v.image.header.sectorSize := by
  rw [hloaded.reads.raw_map, hloaded.roomy.length_sector (by decide) (by decide)]

theorem Loaded.isFree_eq {s : Nat} (hs : s < 720) :
    v.map.isFree s =
      (((v.image.sector SectorMap.home)[SectorMap.bitmapOffset + s / 8]?).getD 0).toNat.testBit
        (7 - s % 8) := by
  have hlong : 100 ≤ (v.image.sector SectorMap.home).length := by
    rw [← hloaded.reads.raw_map]
    exact v.map.raw_long
  obtain ⟨map, hunpack, _, _, hbits⟩ := SectorMap.unpack_of_le hlong
  rw [hloaded.reads.isFree_map map hunpack, hbits s hs]

theorem Loaded.slot_lt {e : Entry} (hmem : e ∈ v.directory.entries) : e.slot < 64 :=
  hloaded.reads.slot_lt hmem

theorem Loaded.storable {e : Entry} (hmem : e ∈ v.directory.entries) : e.Storable :=
  hloaded.reads.storable hmem

/-- A map that was written to its sector is what the volume knows. -/
theorem Loaded.map_of_packed {map : SectorMap}
    (hpacked : v.image.sector SectorMap.home = map.pack) :
    (∀ s, v.map.isFree s = map.isFree s) ∧ v.map.total = map.total ∧ v.map.code = map.code ∧
      v.map.recorded = v.map.bitCount := by
  obtain ⟨again, hunpack, _, _, hfree⟩ := map.unpack_pack
  have hraw : v.map.raw = map.pack := hloaded.reads.raw_map.trans hpacked
  have hsame : ∀ s, v.map.isFree s = map.isFree s := by
    intro s
    rw [hloaded.reads.isFree_map again (hpacked ▸ hunpack), hfree]
  refine ⟨hsame, SectorMap.total_of_raw_eq_pack hraw, SectorMap.code_of_raw_eq_pack hraw, ?_⟩
  rw [SectorMap.recorded_of_raw_eq_pack hraw, SectorMap.bitCount_congr hsame]

end Loaded

/-! ### Opening a volume -/

theorem checkExtent_eq_ok_iff {image : Image} (hsound : image.Sound) :
    checkExtent image = .ok () ↔ image.Roomy := by
  rw [hsound.roomy_iff, checkExtent, Outcome.bind_eq_ok_iff]
  refine exists_congr fun last => and_congr_right fun _ => ?_
  split
  · rename_i hshort
    exact ⟨fun hrefused => absurd hrefused (Outcome.refuse_ne_ok _ _), fun hlast => by omega⟩
  · rename_i hlong
    exact ⟨fun _ => by omega, fun _ => rfl⟩

theorem code_of_load {image : Image} {v : Volume} (hroomy : image.Roomy)
    (hload : load image = .ok v) : v.map.code = (image.sector SectorMap.home).headD 0 := by
  obtain ⟨again, hagain, himage, hreads⟩ := load_ok hroomy
  rw [hload, Except.ok.injEq] at hagain
  subst hagain
  rw [SectorMap.code, hreads.raw_map, himage]

theorem mount_eq_ok_iff {image : Image} {v : Volume} (hsound : image.Sound) :
    mount image = .ok v ↔ image.Roomy ∧ v.map.code = SectorMap.dos2 ∧ load image = .ok v := by
  unfold mount
  rw [Outcome.bind_eq_ok_iff]
  constructor
  · rintro ⟨_, hcheck, hmount⟩
    have hroomy := (checkExtent_eq_ok_iff hsound).1 hcheck
    obtain ⟨map, _, hmap, hraw⟩ := hroomy.readMap_eq
    rw [hmap, Outcome.ok_bind] at hmount
    split at hmount
    · rename_i hcode
      refine ⟨hroomy, ?_, hmount⟩
      rw [code_of_load hroomy hmount, ← hraw]
      exact hcode
    · simp at hmount
  · rintro ⟨hroomy, hcode, hload⟩
    obtain ⟨map, _, hmap, hraw⟩ := hroomy.readMap_eq
    refine ⟨(), (checkExtent_eq_ok_iff hsound).2 hroomy, ?_⟩
    rw [code_of_load hroomy hload, ← hraw] at hcode
    rw [hmap, Outcome.ok_bind, if_pos (show map.code = SectorMap.dos2 from hcode), hload]

theorem refusesOnly_checkExtent {image : Image} (hsound : image.Sound)
    (hcountable : image.header.sectorCount + 1 < Word.bound) :
    (checkExtent image).RefusesOnly .format := by
  unfold checkExtent
  rw [hsound.regular.lastSector_eq hcountable, Outcome.ok_bind]
  split
  · exact Outcome.refusesOnly_refuse rfl
  · exact Outcome.refusesOnly_ok _

/-- An image whose sectors can be counted is mounted, or it is none of this format. -/
theorem refusesOnly_mount {image : Image} (hsound : image.Sound)
    (hcountable : image.header.sectorCount + 1 < Word.bound) :
    (mount image).RefusesOnly .format := by
  refine (refusesOnly_checkExtent hsound hcountable).bind fun _ hextent => ?_
  have hroomy := (checkExtent_eq_ok_iff hsound).1 hextent
  obtain ⟨map, _, hmap, _⟩ := hroomy.readMap_eq
  obtain ⟨v, hload, _⟩ := load_ok hroomy
  rw [hmap, Outcome.ok_bind, hload]
  split
  · exact Outcome.refusesOnly_ok _
  · exact Outcome.refusesOnly_refuse rfl

theorem exists_mount {image : Image} (hroomy : image.Roomy) (hidle : image.phase = .idle)
    (hcode : (image.sector SectorMap.home).headD 0 = SectorMap.dos2) :
    ∃ v, mount image = .ok v ∧ v.Loaded ∧ v.image = image := by
  obtain ⟨v, hload, _⟩ := load_ok hroomy
  refine ⟨v, (mount_eq_ok_iff hroomy.toSound).2 ⟨hroomy, ?_, hload⟩, ?_⟩
  · rw [code_of_load hroomy hload, hcode]
  · exact Loaded.of_load hroomy hidle hload

theorem mount_sketched {parts : List (Nat × Bytes)}
    (hlead : (sketch parts 1).take 2 ≠ Container.atr.signature)
    (hcode : (sketch parts SectorMap.home).headD 0 = SectorMap.dos2) :
    ∃ v, mount (sketched parts) = .ok v ∧ v.Loaded ∧ v.image = sketched parts := by
  apply exists_mount (roomy_sketched hlead) rfl
  rw [sector_sketched parts (by decide) (by decide), hcode]

/-- Whether a sector is free on a disk with these sectors. -/
def sketchFree (parts : List (Nat × Bytes)) (s : Nat) : Bool :=
  (((sketch parts SectorMap.home)[SectorMap.bitmapOffset + s / 8]?).getD 0).toNat.testBit
    (7 - s % 8)

section Sketch

variable {v : Volume} (hloaded : v.Loaded) {parts : List (Nat × Bytes)}
  (himage : v.image = sketched parts)

include hloaded himage

theorem Loaded.isFree_sketched {s : Nat} (hs : s < 720) : v.map.isFree s = sketchFree parts s := by
  rw [hloaded.isFree_eq hs, himage, sector_sketched _ (by decide) (by decide), sketchFree]

theorem Loaded.get?_sketched {slot : Nat} (hslot : slot < 64) :
    v.directory.get? slot =
      (Entry.parse slot (sketchRecord parts slot)).map v.image.measured := by
  rw [hloaded.reads.get?_directory, himage, entryAt_of_lt _ hslot, record_sketched _ hslot]

theorem Loaded.isTaken_sketched {slot : Nat} (hslot : slot < 64) :
    v.directory.isTaken slot = (Entry.parse slot (sketchRecord parts slot)).any (·.isInUse) := by
  rw [Directory.isTaken, hloaded.get?_sketched himage hslot, Option.any_map]
  rfl

/-- The files on a sketched disk are those that its records show. -/
theorem Loaded.mem_files_sketched {f : Entry} (hf : f ∈ v.directory.files) :
    ∃ slot < 64, ∃ stored, Entry.parse slot (sketchRecord parts slot) = some stored ∧
      stored.isInUse = true ∧ f = v.image.measured stored := by
  obtain ⟨hget, huse⟩ := Directory.mem_files.1 hf
  have hlt := hloaded.slot_lt (List.mem_filter.1 hf).1
  rw [hloaded.get?_sketched himage hlt, Option.map_eq_some_iff] at hget
  obtain ⟨stored, hstored, rfl⟩ := hget
  exact ⟨_, hlt, stored, hstored, huse, rfl⟩

theorem Loaded.freeSectors_sketched :
    v.map.freeSectors = (List.range' 1 719).filter (sketchFree parts) := by
  have hlimit : v.map.limit = 720 := by
    rw [hloaded.reads.limit_map, himage]
    rfl
  rw [SectorMap.freeSectors, hlimit]
  refine List.filter_congr fun s hs => hloaded.isFree_sketched himage ?_
  have hrange := List.mem_range'_1.1 hs
  omega

end Sketch

theorem reads_of_mount {image : Image} (hsound : image.Sound) {v : Volume}
    (hmount : mount image = .ok v) : image.Roomy ∧ v.image = image ∧ v.Reads := by
  obtain ⟨hroomy, _, hload⟩ := (mount_eq_ok_iff hsound).1 hmount
  obtain ⟨again, hagain, himage, hreads⟩ := load_ok hroomy
  rw [hload, Except.ok.injEq] at hagain
  subst hagain
  exact ⟨hroomy, himage, hreads⟩

theorem loaded_of_mount {image : Image} (hsound : image.Sound) (hidle : image.phase = .idle)
    {v : Volume} (hmount : mount image = .ok v) : v.Loaded := by
  obtain ⟨hroomy, _, hload⟩ := (mount_eq_ok_iff hsound).1 hmount
  exact (Loaded.of_load hroomy hidle hload).1

end Volume

end AtariDisk
