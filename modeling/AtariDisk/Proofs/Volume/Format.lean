import AtariDisk.Proofs.Volume.Update

/-!
# Formatting

Formatting never fails on a roomy disk. The volume it leaves has no files, and all sectors but those
of the system are free.
-/

namespace AtariDisk.Volume

open Image

/-- What formatting writes. -/
def layEmpty (map : SectorMap) : Edit Unit := do
  Image.writeSector SectorMap.home map.pack
  clearSectors (List.range' Directory.home Directory.sectorCount)

/-- The sectors filled with zeros. -/
def zeroWrites (image : Image) (sectors : List Nat) : List (Nat × Bytes) :=
  sectors.map fun n => (n, Bytes.zeros (image.header.place n).length)

theorem clearSectors_eq {image : Image} (hroomy : image.Roomy) {sectors : List Nat}
    (hlinkable : ∀ n ∈ sectors, image.Linkable n) :
    clearSectors sectors image = .ok () (image.putAll (zeroWrites image sectors)) := by
  induction sectors generalizing image with
  | nil => rfl
  | cons n rest ih =>
    have hn := hlinkable n List.mem_cons_self
    have hsize := hroomy.length_place_cases n
    have hallocate : Word.allocate (image.header.place n).length = .ok () :=
      Word.allocate_of_le (by omega)
    have hput := hroomy.of_alike
      (alike_put image n (Bytes.zeros (image.header.place n).length))
    have hrest := ih hput fun m hm => hlinkable m (List.mem_cons_of_mem n hm)
    rw [clearSectors, Call.get_bind, hroomy.locate_eq hn,
      Call.bind_of_ok (Call.ofOutcome_ok _ image), hallocate,
      Call.bind_of_ok (Call.ofOutcome_ok _ image),
      Call.bind_of_ok ((hroomy.writeSized_eq hn _).trans (if_pos rfl)), hrest]
    rfl

/-- The sectors that formatting fills, and what it fills them with. -/
def emptyWrites (image : Image) (map : SectorMap) : List (Nat × Bytes) :=
  (SectorMap.home, map.pack) ::
    zeroWrites image (List.range' Directory.home Directory.sectorCount)

theorem fst_emptyWrites (image : Image) (map : SectorMap) :
    (emptyWrites image map).map Prod.fst = List.range' 360 9 := by
  rw [emptyWrites, zeroWrites, List.map_cons, List.map_map]
  rfl

section Lay

variable {image : Image} (hroomy : image.Roomy) {map : SectorMap}
  (hraw : map.raw.length = image.header.sectorSize)

include hroomy hraw

theorem fitting_emptyWrites : image.Fitting (emptyWrites image map) := by
  intro write hwrite
  have hfst : write.1 ∈ List.range' 360 9 := fst_emptyWrites image map ▸ List.mem_map_of_mem hwrite
  rw [List.mem_range'_1] at hfst
  refine ⟨hroomy.linkable_of_le (by omega) (by omega), ?_⟩
  rcases List.mem_cons.1 hwrite with rfl | hzeros
  · exact length_pack_eq hroomy hraw
  · obtain ⟨n, _, rfl⟩ := List.mem_map.1 hzeros
    exact Bytes.length_zeros _

theorem layEmpty_eq : layEmpty map image = .ok () (image.putAll (emptyWrites image map)) := by
  have hmid := hroomy.of_alike (alike_put image SectorMap.home map.pack)
  have hlinkable : ∀ n ∈ List.range' Directory.home Directory.sectorCount,
      (image.put SectorMap.home map.pack).Linkable n := by
    intro n hn
    rw [List.mem_range'_1] at hn
    simp only [Directory.home, Directory.sectorCount] at hn
    exact hmid.linkable_of_le (by omega) (by omega)
  rw [layEmpty, Call.bind_of_ok (writeMap_eq hroomy hraw), clearSectors_eq hmid hlinkable]
  rfl

theorem sector_emptied {write : Nat × Bytes} (hwrite : write ∈ emptyWrites image map) :
    (image.putAll (emptyWrites image map)).sector write.1 = write.2 :=
  hroomy.toSound.sector_putAll_of_mem (fitting_emptyWrites hroomy hraw)
    (fst_emptyWrites image map ▸ List.nodup_range') hwrite

theorem sector_home_emptied :
    (image.putAll (emptyWrites image map)).sector SectorMap.home = map.pack := by
  have hhome : (SectorMap.home, map.pack) ∈ emptyWrites image map := List.mem_cons_self
  -- named first: against the goal the write would have to be guessed from its two parts
  have hsector := sector_emptied hroomy hraw hhome
  exact hsector

theorem entryAt_emptied (slot : Nat) :
    (image.putAll (emptyWrites image map)).entryAt slot = none := by
  unfold entryAt
  split
  · rename_i hslot
    simp only [Directory.capacity] at hslot
    have hmem : Directory.home + slot / 8 ∈ List.range' Directory.home Directory.sectorCount := by
      rw [List.mem_range'_1]
      simp only [Directory.home, Directory.sectorCount]
      omega
    have hsector := sector_emptied hroomy hraw
      (List.mem_cons_of_mem _ (List.mem_map_of_mem hmem))
    have hsize := hroomy.length_place_cases (Directory.home + slot / 8)
    have hblank : (image.putAll (emptyWrites image map)).record slot = Entry.unusedRecord := by
      rw [Image.record, hsector, Bytes.zeros, List.drop_replicate, List.take_replicate]
      simp only [Entry.unusedRecord, Bytes.zeros, Entry.size]
      congr 1
      omega
    rw [hblank, Entry.parse_unusedRecord]
  · rfl

end Lay

/-- The volume that formatting leaves on an image. -/
structure Emptied (image : Image) (map : SectorMap) (v : Volume) : Prop where
  formatted : SectorMap.formatted image.header.sectorSize image.header.sectorCount = .ok map
  sized : map.raw.length = image.header.sectorSize
  loaded : v.Loaded
  image_eq : v.image = (image.putAll (emptyWrites image map)).closed

theorem format_emptied {image : Image} (hroomy : image.Roomy) (hidle : image.phase = .idle) :
    ∃ map v, format image = .ok v ∧ Emptied image map v := by
  have hhome := hroomy.linkable_of_le (show 1 ≤ SectorMap.home by decide) (by decide)
  have hsize : (image.header.place SectorMap.home).length = image.header.sectorSize :=
    hroomy.length_place (by decide)
  have hcases : image.header.sectorSize = 128 ∨ image.header.sectorSize = 256 :=
    hroomy.regular.size
  obtain ⟨map, hformatted, hraw, _, hcode, _⟩ :=
    SectorMap.formatted_spec (show image.header.sectorSize ≤ 256 by omega) hroomy.countable
  have hsized : map.raw.length = image.header.sectorSize := by omega
  have hrun : Transaction.run (layEmpty map) image =
      .ok () (image.putAll (emptyWrites image map)).closed := by
    refine (Transaction.run_eq_ok_iff hidle).2 ⟨_, layEmpty_eq hroomy.opened hsized, ?_⟩
    exact (congrArg closed (putAll_opened image (emptyWrites image map))).symm
  have hmid : (image.putAll (emptyWrites image map)).closed.Roomy :=
    (hroomy.of_alike (alike_putAll ..)).closed
  obtain ⟨v, hload, _⟩ := load_ok hmid
  obtain ⟨hloaded, himage⟩ := Loaded.of_load hmid rfl hload
  have hpacked : v.image.sector SectorMap.home = map.pack := by
    rw [himage, sector_closed, sector_home_emptied hroomy hsized]
  obtain ⟨_, _, hcode', _⟩ := hloaded.map_of_packed hpacked
  refine ⟨map, v, ?_, hformatted, hsized, hloaded, himage⟩
  unfold format
  rw [(checkExtent_eq_ok_iff hroomy.toSound).2 hroomy, Outcome.ok_bind, hroomy.locate_eq hhome,
    Outcome.ok_bind, hsize, Word.allocate_of_le (by omega), Outcome.ok_bind, hroomy.span_one hhome,
    Outcome.ok_bind, hroomy.lastSector_eq, Outcome.ok_bind, hformatted, Outcome.ok_bind]
  unfold layEmpty at hrun
  simp only [hrun]
  exact (mount_eq_ok_iff hmid.toSound).2 ⟨hmid, hcode'.trans hcode, hload⟩

section Emptied

variable {image : Image} {map : SectorMap} {v : Volume} (hemptied : Emptied image map v)

include hemptied

theorem Emptied.header : v.image.header = image.header := by
  rw [hemptied.image_eq]
  exact header_putAll ..

theorem Emptied.sector_eq (hroomy : image.Roomy) {write : Nat × Bytes}
    (hwrite : write ∈ emptyWrites image map) : v.image.sector write.1 = write.2 := by
  rw [hemptied.image_eq, sector_closed, sector_emptied hroomy hemptied.sized hwrite]

end Emptied

/-- Formatting leaves a volume without files on which every sector for files is free. -/
theorem format_ok {image : Image} (hroomy : image.Roomy) (hidle : image.phase = .idle) :
    ∃ v, format image = .ok v ∧ v.Loaded ∧ v.image.header = image.header ∧
      (∀ slot, v.directory.get? slot = none) ∧
      v.map.total = (SectorMap.usableSectors v.map.limit).length ∧
      v.map.recorded = v.map.bitCount ∧
      ∀ s, v.map.isFree s = true ↔ SectorMap.Usable v.map.limit s := by
  obtain ⟨map, v, hformat, hemptied⟩ := format_emptied hroomy hidle
  have hcases : image.header.sectorSize = 128 ∨ image.header.sectorSize = 256 :=
    hroomy.regular.size
  obtain ⟨again, hagain, _, hlimit, _, htotal, hfree⟩ :=
    SectorMap.formatted_spec (show image.header.sectorSize ≤ 256 by omega) hroomy.countable
  rw [hemptied.formatted, Except.ok.injEq] at hagain
  subst hagain
  have hloaded := hemptied.loaded
  have hpacked : v.image.sector SectorMap.home = map.pack := by
    rw [hemptied.image_eq, sector_closed, sector_home_emptied hroomy hemptied.sized]
  obtain ⟨hsame, htotal', _, hrecorded⟩ := hloaded.map_of_packed hpacked
  have hlimit' : v.map.limit = map.limit := by
    rw [hloaded.reads.limit_map, hemptied.header, hlimit]
  refine ⟨v, hformat, hloaded, hemptied.header, ?_, ?_, hrecorded, ?_⟩
  · intro slot
    rw [hloaded.reads.get?_directory, hemptied.image_eq]
    exact congrArg (Option.map _) (entryAt_emptied hroomy hemptied.sized slot)
  · rw [htotal', htotal, hlimit']
  · intro s
    rw [hsame, hfree, hlimit']

theorem roomy_of_format {image : Image} (hsound : image.Sound) {v : Volume}
    (hformat : format image = .ok v) : image.Roomy := by
  obtain ⟨_, hcheck, _⟩ := Outcome.bind_eq_ok_iff.1 hformat
  exact (checkExtent_eq_ok_iff hsound).1 hcheck

theorem loaded_of_format {image : Image} (hsound : image.Sound) (hidle : image.phase = .idle)
    {v : Volume} (hformat : format image = .ok v) : v.Loaded := by
  obtain ⟨again, hagain, hloaded, _⟩ := format_ok (roomy_of_format hsound hformat) hidle
  rw [hformat, Except.ok.injEq] at hagain
  exact hagain ▸ hloaded

end AtariDisk.Volume
