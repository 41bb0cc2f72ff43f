import AtariDisk.Proofs.Image.Writes
import AtariDisk.Proofs.Volume.Footprint

/-!
# The empty disk

Formatting fills sectors 360 to 368 with what the geometry of the disk alone decides, and leaves all
other bytes alone. Nothing that was on the disk before shows in the volume, and formatting that
volume once more writes what is there already.
-/

namespace AtariDisk

/-- The image was read or made, and since then its sectors may have been written to. -/
def Image.Written (disk : Image) : Prop :=
  ∃ (image : Image) (writes : List SectorWrite), image.Made ∧ disk = image.afterAll writes

theorem Image.Written.sound {disk : Image} (hwritten : disk.Written) :
    disk.Sound ∧ disk.phase = .idle := by
  obtain ⟨image, writes, hmade, rfl⟩ := hwritten
  obtain ⟨hsound, hidle⟩ := hmade.sound
  have halike := alike_afterAll image writes
  exact ⟨hsound.of_alike halike, halike.phase.trans hidle⟩

namespace Volume

open Image

/-- The volume has no files, and its map gives all sectors for files up to `last` as free. -/
structure Blank (v : Volume) (last : Nat) : Prop where
  list : v.list = []
  vacant : ∀ slot, v.directory.get? slot = none
  free : ∀ s, s ∈ v.map.freeSectors ↔ 4 ≤ s ∧ s < min (last + 1) 720 ∧ ¬(360 ≤ s ∧ s ≤ 368)
  bits : ∀ s, v.map.isFree s = true ↔ s ∈ v.map.freeSectors
  recorded : v.map.recorded = v.map.freeCount
  total : v.map.total = v.map.freeCount

theorem blank_of_format {image : Image} (hroomy : image.Roomy) (hidle : image.phase = .idle)
    {v : Volume} (hformat : format image = .ok v) : v.Blank image.header.sectorCount := by
  obtain ⟨again, hagain, hloaded, hheader, hvacant, htotal, hrecorded, hfree⟩ :=
    format_ok hroomy hidle
  rw [hformat, Except.ok.injEq] at hagain
  subst hagain
  have hinside : ∀ s, v.map.isFree s = true → 1 ≤ s ∧ s < v.map.limit := by
    intro s hs
    have husable := (hfree s).1 hs
    exact ⟨husable.1, husable.2.1⟩
  have hbits : ∀ s, v.map.isFree s = true ↔ s ∈ v.map.freeSectors := by
    intro s
    rw [SectorMap.mem_freeSectors]
    exact ⟨fun hs => ⟨(hinside s hs).1, (hinside s hs).2, hs⟩, fun hs => hs.2.2⟩
  refine ⟨?_, hvacant, ?_, hbits, ?_, ?_⟩
  · rw [list, Directory.files, Directory.entries_eq_nil_iff.2 hvacant]
    rfl
  · intro s
    rw [← hbits, hfree, SectorMap.usable_iff, hloaded.reads.limit_map, hheader]
    exact Iff.rfl
  · rw [hrecorded, SectorMap.bitCount_eq_freeCount hinside]
  · rw [htotal, SectorMap.freeCount_of_usable hfree]

/-! ### What formatting writes -/

theorem emptyWrites_congr {a b : Image} (hgeometry : a.header.toGeometry = b.header.toGeometry)
    (map : SectorMap) : emptyWrites a map = emptyWrites b map := by
  unfold emptyWrites zeroWrites Header.place
  rw [hgeometry]

section Emptied

variable {image : Image} (hroomy : image.Roomy) {map : SectorMap} {v : Volume}
  (hemptied : Emptied image map v)

include hroomy hemptied

theorem Emptied.getElem?_data {i : Nat}
    (hmiss : ∀ n, 360 ≤ n → n ≤ 368 → ¬image.Occupies n i) :
    v.image.data[i]? = image.data[i]? := by
  have hclear : ∀ n ∈ (emptyWrites image map).map Prod.fst, ¬(image.header.place n).Covers i := by
    intro n hn
    rw [fst_emptyWrites, List.mem_range'_1] at hn
    exact hroomy.not_covers (hroomy.linkable_of_le (by omega) (by omega))
      (hmiss n (by omega) (by omega))
  calc v.image.data[i]? = (image.putAll (emptyWrites image map)).data[i]? := by
        rw [hemptied.image_eq, closed]
    _ = image.data[i]? := getElem?_putAll (fitting_emptyWrites hroomy hemptied.sized) hclear

/-- Only the geometry tells in what is written. -/
theorem Emptied.readSector_congr {other : Image} (hother : other.Roomy) {more : SectorMap}
    {w : Volume} (hagain : Emptied other more w)
    (hgeometry : other.header.toGeometry = image.header.toGeometry) {n : Nat} (hfirst : 360 ≤ n)
    (hlast : n ≤ 368) : w.image.readSector n = v.image.readSector n := by
  obtain rfl : more = map := by
    have hsame := hagain.formatted
    rw [hgeometry, hemptied.formatted, Except.ok.injEq] at hsame
    exact hsame.symm
  have hmem : n ∈ (emptyWrites image more).map Prod.fst := by
    rw [fst_emptyWrites, List.mem_range'_1]
    omega
  obtain ⟨write, hwrite, rfl⟩ := List.mem_map.1 hmem
  have hthere : write ∈ emptyWrites other more := emptyWrites_congr hgeometry more ▸ hwrite
  rw [hagain.loaded.roomy.readSector_eq (hagain.loaded.roomy.linkable_of_le (by omega) hlast),
    hemptied.loaded.roomy.readSector_eq (hemptied.loaded.roomy.linkable_of_le (by omega) hlast),
    hagain.sector_eq hother hthere, hemptied.sector_eq hroomy hwrite]

/-- Formatting the volume writes to each sector what it holds already. -/
theorem Emptied.format_image : format v.image = .ok v := by
  have hloaded := hemptied.loaded
  obtain ⟨again, w, hformat, hagain⟩ := format_emptied hloaded.roomy hloaded.idle
  obtain rfl : again = map := by
    have hsame := hagain.formatted
    rw [hemptied.header, hemptied.formatted, Except.ok.injEq] at hsame
    exact hsame.symm
  have hchanged : v.image.changed = true := by
    rw [hemptied.image_eq]
    exact changed_putAll image _ _
  have hpresent : v.image.putAll (emptyWrites v.image again) = v.image := by
    refine putAll_of_present hchanged fun write hwrite => hemptied.sector_eq hroomy ?_
    rwa [emptyWrites_congr (congrArg Header.toGeometry hemptied.header)] at hwrite
  have himage : w.image = v.image := by
    rw [hagain.image_eq, hpresent, hemptied.image_eq]
    rfl
  have hsame := hagain.loaded.current
  rw [himage, hloaded.current, Except.ok.injEq] at hsame
  rw [hformat, hsame]

end Emptied

/-! ### Formatting any disk -/

/-- **Formatting gives the empty disk.** An image that was read or made, whatever was written to its
sectors, can be formatted exactly if it reaches sector 368. The volume has no files, and its map
gives the sectors from 4 on, as far as disk and map reach, as free, but for those of map and
directory; it records as many free sectors as usable ones. No byte outside of the sectors 360 to 368
changes. These get the same bytes on every disk of this geometry, so that formatting twice is
formatting once. -/
theorem format_gives_empty_disk {disk : Image} (hwritten : disk.Written) {last : Nat}
    (hlast : disk.header.lastSector = .ok last) :
    (last < 368 → ∃ cause, format disk = refuse cause ∧ cause.kind = .format) ∧
      (368 ≤ last → ∃ v, format disk = .ok v ∧ v.Blank last ∧ v.image.header = disk.header ∧
        v.image.data.size = disk.data.size ∧
        (∀ i, (∀ n, 360 ≤ n → n ≤ 368 → ¬disk.Occupies n i) →
          v.image.data[i]? = disk.data[i]?) ∧
        (∀ other : Image, other.Written → other.header.toGeometry = disk.header.toGeometry →
          ∃ w, format other = .ok w ∧
            ∀ n, 360 ≤ n → n ≤ 368 → w.image.readSector n = v.image.readSector n) ∧
        format v.image = .ok v) := by
  obtain ⟨hsound, hidle⟩ := hwritten.sound
  obtain ⟨hcountable, hcount⟩ := hsound.regular.lastSector_eq_ok_iff.1 hlast
  constructor
  · intro hsmall
    refine ⟨.volumeTooSmall disk.header.sectorCount, ?_, rfl⟩
    have hshort : last < lastSystemSector := hsmall
    unfold format checkExtent
    rw [hlast, Outcome.ok_bind, if_pos hshort]
    rfl
  · intro hreaches
    have hroomy : disk.Roomy := ⟨hsound, hcount ▸ hreaches, hcountable⟩
    obtain ⟨map, v, hformat, hemptied⟩ := format_emptied hroomy hidle
    refine ⟨v, hformat, hcount ▸ blank_of_format hroomy hidle hformat, hemptied.header, ?_,
      fun i hmiss => hemptied.getElem?_data hroomy hmiss, ?_, hemptied.format_image hroomy⟩
    · rw [hemptied.image_eq]
      exact (alike_putAll disk _).size
    · intro other hother hgeometry
      obtain ⟨hsound', hidle'⟩ := hother.sound
      have hroomy' : other.Roomy := by
        refine ⟨hsound', ?_, ?_⟩
        · rw [hgeometry]
          exact hroomy.reaches
        · rw [hgeometry]
          exact hroomy.countable
      obtain ⟨more, w, hagain, hemptied'⟩ := format_emptied hroomy' hidle'
      exact ⟨w, hagain, fun n hfirst hlast =>
        hemptied.readSector_congr hroomy hroomy' hemptied' hgeometry hfirst hlast⟩

/-- A disk with garbage where the directory would be. -/
def scribbled : Image :=
  zeroDisk.afterAll [.one 361 (List.replicate 128 0x42)]

/-- Sectors 4 to 359 and 369 to 719 are free after formatting, which the map tells to be 707. -/
theorem format_gives_empty_disk_scribbled :
    ∃ v, scribbled.Written ∧ scribbled.header.lastSector = .ok 720 ∧ format scribbled = .ok v ∧
      v.list = [] ∧ v.map.freeSectors = List.range' 4 356 ++ List.range' 369 351 ∧
      v.map.recorded = 707 ∧ format v.image = .ok v := by
  have hwritten : scribbled.Written := ⟨zeroDisk, _, made_zeroDisk, rfl⟩
  have hlast : scribbled.header.lastSector = .ok 720 := by
    rw [scribbled, (alike_afterAll ..).header]
    exact roomy_zeroDisk.lastSector_eq
  obtain ⟨v, hformat, hblank, _, _, _, _, htwice⟩ :=
    (format_gives_empty_disk hwritten hlast).2 (by decide)
  have hordered : (List.range' 4 356 ++ List.range' 369 351).Pairwise (· < ·) := by
    refine List.pairwise_append.2 ⟨List.pairwise_lt_range', List.pairwise_lt_range', ?_⟩
    intro s hs t ht
    rw [List.mem_range'_1] at hs ht
    omega
  have hfree : v.map.freeSectors = List.range' 4 356 ++ List.range' 369 351 := by
    refine List.Perm.eq_of_pairwise' v.map.freeSectors_ordered hordered ?_
    refine (List.perm_ext_iff_of_nodup v.map.freeSectors_nodup (hordered.imp Nat.ne_of_lt)).2 ?_
    intro s
    rw [hblank.free, List.mem_append, List.mem_range'_1, List.mem_range'_1]
    omega
  have hrecorded : v.map.recorded = 707 := by
    rw [hblank.recorded, SectorMap.freeCount, hfree, List.length_append, List.length_range',
      List.length_range']
  exact ⟨v, hwritten, hlast, hformat, hblank.list, hfree, hrecorded, htwice⟩

end Volume

end AtariDisk
