import AtariDisk.Volume.Files
import AtariDisk.Volume.Listing
import AtariDisk.Proofs.Image.Conversion
import AtariDisk.Proofs.Image.Reopening
import AtariDisk.Proofs.Volume.Damage

/-!
# Volumes in other containers

Everything that a volume reads, it reads by sectors. Two images of the same disk therefore hold the
same volume, and converting an image keeps its listing and its files.
-/

namespace AtariDisk

namespace Image

namespace SameDisk

variable {a b : Image} (hsame : SameDisk a b)

include hsame

theorem sector_eq (ha : a.Roomy) (hb : b.Roomy) {n : Nat} (hn : a.Linkable n) :
    b.sector n = a.sector n := by
  have hlinkable : b.Linkable n := by
    unfold Linkable
    rw [hsame.geometry]
    exact hn
  have hread := hsame.readSector n
  rw [ha.readSector_eq hn, hb.readSector_eq hlinkable] at hread
  exact Except.ok.inj hread

theorem followFrom_eq (e : Entry) (found remaining n : Nat) :
    b.followFrom e found remaining n = a.followFrom e found remaining n := by
  induction remaining generalizing found n with
  | zero => rfl
  | succ remaining ih =>
    unfold followFrom
    simp only [ih, hsame.geometry, hsame.readSector]

theorem follow_eq (e : Entry) : b.follow e = a.follow e := by
  unfold follow
  simp only [hsame.followFrom_eq]

theorem survey_eq (entries : List Entry) :
    Volume.survey b entries = Volume.survey a entries := by
  induction entries with
  | nil => rfl
  | cons e rest ih => rw [Volume.survey, Volume.survey, hsame.follow_eq, ih]

theorem checkExtent_eq : Volume.checkExtent b = Volume.checkExtent a := by
  unfold Volume.checkExtent
  rw [hsame.geometry]

theorem readMap_eq : Volume.readMap b = Volume.readMap a := by
  unfold Volume.readMap
  rw [hsame.readSector]

theorem readDirectory_eq (ha : a.Roomy) (hb : b.Roomy) :
    Volume.readDirectory b = Volume.readDirectory a := by
  rw [ha.readDirectory_flatten, hb.readDirectory_flatten, hsame.geometry]
  congr 2
  apply List.map_congr_left
  intro j hj
  have hlast := List.mem_range.1 hj
  apply hsame.sector_eq ha hb
  apply ha.linkable_of_le
  · simp only [Directory.home]
    omega
  · simp only [Directory.home]
    omega

theorem load_eq (ha : a.Roomy) (hb : b.Roomy) :
    Volume.load b = (Volume.load a).map fun v => { v with image := b } := by
  obtain ⟨map, _, hmap, _⟩ := ha.readMap_eq
  obtain ⟨d, hdirectory, _⟩ := ha.readDirectory_eq
  unfold Volume.load
  rw [hsame.readMap_eq, hsame.geometry, hsame.readDirectory_eq ha hb, hmap, hdirectory]
  simp only [Outcome.ok_bind, hsame.survey_eq]
  cases a.header.lastSector with
  | error e => rfl
  | ok last =>
    rw [Outcome.ok_bind, Outcome.ok_bind]
    cases map.restrict last with
    | error e => rfl
    | ok map =>
      rw [Outcome.ok_bind, Outcome.ok_bind]
      cases Volume.survey a d.files with
      | error e => rfl
      | ok findings => rfl

/-- The same disk holds the same volume. -/
theorem mount_eq (ha : a.Sound) (hb : b.Sound) :
    Volume.mount b = (Volume.mount a).map fun v => { v with image := b } := by
  unfold Volume.mount
  rw [hsame.checkExtent_eq, hsame.readMap_eq]
  cases hcheck : Volume.checkExtent a with
  | error e => rfl
  | ok done =>
    rw [Outcome.ok_bind, Outcome.ok_bind]
    have hroomy := (Volume.checkExtent_eq_ok_iff ha).1 hcheck
    have hroomy' := (Volume.checkExtent_eq_ok_iff hb).1 (hsame.checkExtent_eq.trans hcheck)
    rw [hsame.load_eq hroomy hroomy']
    cases Volume.readMap a with
    | error e => rfl
    | ok map =>
      rw [Outcome.ok_bind, Outcome.ok_bind]
      split
      · rfl
      · rfl

end SameDisk

end Image

namespace Volume

open Image

theorem list_moved (v : Volume) (b : Image) : list { v with image := b } = v.list := rfl

/-- A volume that is moved to another image of its disk has the same files. -/
theorem contentsOf_moved {v : Volume} {b : Image} (hsame : SameDisk v.image b) (typed : String) :
    contentsOf { v with image := b } typed = v.contentsOf typed := by
  unfold contentsOf
  simp only [hsame.follow_eq]

/-- **Conversion keeps the disk.** An image, after any writes to its sectors, can be put into each
container. The converted image has the same sectors behind its header, and holds the same volume,
with the same listing and the same files. An ATR file that starts with its own header, and has
nothing in the unused field, comes back from an XFD file byte for byte. -/
theorem conversion_keeps_disk {origin : Image} (hmade : origin.Made)
    (hsize : origin.data.size < Word.memoryBound) (writes : List SectorWrite) {image : Image}
    (hwritten : image = origin.afterAll writes) :
    (∀ container, ∃ converted, image.convert container = .ok converted ∧
      converted.header.container = container ∧
      converted.header.toGeometry = image.header.toGeometry ∧
      (∀ n, converted.readSector n = image.readSector n) ∧
      converted.behindHeader = image.behindHeader ∧
      (∀ v, mount image = .ok v → ∃ u, mount converted = .ok u ∧ u.list = v.list ∧
        (∀ typed, u.contentsOf typed = v.contentsOf typed) ∧
        ∀ e, u.image.follow e = v.image.follow e) ∧
      ∀ e, mount image = .error e → mount converted = .error e) ∧
    (image.header.container = .atr → Buffer.slice image.data 0 16 = image.header.encode →
      image.header.unused = 0 →
      ∃ dump back, image.convert .xfd = .ok dump ∧ dump.convert .atr = .ok back ∧
        back.data = image.data) := by
  have hproper : image.Proper := by
    rw [hwritten]
    have halike := alike_afterAll origin writes
    exact (hmade.proper hsize).of_header halike.header halike.size
  constructor
  · intro container
    have hsame := hproper.sameDisk container
    have hmount := hsame.mount_eq hproper.sound (hproper.inContainer container).sound
    refine ⟨_, hproper.convert_eq container, rfl, rfl, hsame.readSector,
      behindHeader_inContainer image container, ?_, ?_⟩
    · intro v hv
      obtain ⟨_, himage, _⟩ := reads_of_mount hproper.sound hv
      have hmoved : SameDisk v.image (image.inContainer container) := by
        rw [himage]
        exact hsame
      rw [hv] at hmount
      exact ⟨_, hmount, list_moved v _, contentsOf_moved hmoved, hmoved.follow_eq⟩
    · intro e he
      rw [hmount, he]
      rfl
  · intro hatr hlead hunused
    exact ⟨_, _, hproper.convert_eq .xfd, (hproper.inContainer .xfd).convert_eq .atr,
      hproper.inContainer_twice hatr hlead hunused⟩

/-! ### Files on a new disk -/

theorem sector_freshDisk {n : Nat} (hfirst : 1 ≤ n) (hlast : n ≤ 720) :
    freshDisk.sector n = sketch [] n := by
  have hrest : (n - 1) * 128 + 128 ≤ 92160 := by omega
  have hplace : freshDisk.header.place n =
      ⟨(n - 1) * 128 + freshDisk.header.encode.toArray.size, 128⟩ := by
    simp [Header.place, Geometry.place, freshDisk, plainHeader, Header.length,
      Container.headerLength, Header.length_encode]
  have hdata : freshDisk.data = freshDisk.header.encode.toArray ++ Array.replicate 92160 0 := rfl
  rw [sector, hplace, hdata, Buffer.slice_append_right, Buffer.slice, Array.extract_replicate,
    Array.toList_replicate, Nat.min_eq_left hrest, Nat.add_sub_cancel_left]
  rfl

/-- The sectors of a sketch, each with its number. -/
def sketchSectors (parts : List (Nat × Bytes)) : List (Nat × Bytes) :=
  parts.map fun part => (part.1, sketch parts part.1)

/-- The writes that put a sketch on a disk. -/
def sketchWrites (parts : List (Nat × Bytes)) : List SectorWrite :=
  (sketchSectors parts).map fun write => .one write.1 write.2

section Sketch

variable {parts : List (Nat × Bytes)} (hinside : ∀ part ∈ parts, 1 ≤ part.1 ∧ part.1 ≤ 720)

theorem numbers_sketchSectors (parts : List (Nat × Bytes)) :
    (sketchSectors parts).map Prod.fst = parts.map Prod.fst := by
  rw [sketchSectors, List.map_map]
  rfl

include hinside

theorem fitting_sketchSectors : freshDisk.Fitting (sketchSectors parts) := by
  intro write hwrite
  obtain ⟨part, hpart, rfl⟩ := List.mem_map.1 hwrite
  obtain ⟨hfirst, hlast⟩ := hinside part hpart
  refine ⟨⟨hfirst, hlast, Nat.lt_of_le_of_lt hlast (by decide)⟩, ?_⟩
  rw [← made_freshDisk.sound.1.length_sector hfirst hlast, sector_freshDisk hfirst hlast, sketch,
    sketch, Bytes.length_resize, Bytes.length_resize]

theorem sector_putAll_sketch (hnodup : (parts.map Prod.fst).Nodup) {n : Nat} (hfirst : 1 ≤ n)
    (hlast : n ≤ 720) : (freshDisk.putAll (sketchSectors parts)).sector n = sketch parts n := by
  have hsound := made_freshDisk.sound.1
  have hfitting := fitting_sketchSectors hinside
  have hnumbers := numbers_sketchSectors parts
  by_cases hmem : n ∈ parts.map Prod.fst
  · obtain ⟨part, hpart, rfl⟩ := List.mem_map.1 hmem
    exact hsound.sector_putAll_of_mem hfitting (hnumbers ▸ hnodup)
      (List.mem_map.2 ⟨part, hpart, rfl⟩)
  · have hnone : parts.lookup n = none := by
      rw [List.lookup_eq_none_iff]
      intro part hpart
      rw [bne_iff_ne]
      rintro rfl
      exact hmem (List.mem_map_of_mem hpart)
    rw [hsound.sector_putAll_of_not_mem hfitting hfirst (hnumbers ▸ hmem),
      sector_freshDisk hfirst hlast, sketch, sketch, hnone]
    rfl

/-- A new disk on which a sketch was put is the disk of the sketch. -/
theorem sameDisk_sketched (hlead : (sketch parts 1).take 2 ≠ Container.atr.signature)
    (hnodup : (parts.map Prod.fst).Nodup) :
    SameDisk (sketched parts) (freshDisk.afterAll (sketchWrites parts)) := by
  rw [sketchWrites, roomy_freshDisk.afterAll_ones (fitting_sketchSectors hinside)]
  have halike := alike_putAll freshDisk (sketchSectors parts)
  have hsound := made_freshDisk.sound.1
  refine (roomy_sketched hlead).toSound.sameDisk (hsound.of_alike halike) ?_ ?_ ?_ ?_
  · exact lt_of_eq_of_lt (size_sketchBytes parts) (by decide)
  · rw [halike.size, ← hsound.covered]
    decide
  · rw [halike.header]
    rfl
  · intro n hfirst hlast
    rw [sector_putAll_sketch hinside hnodup hfirst hlast, sector_sketched parts hfirst hlast]

end Sketch

/-- A new ATR file with two files on it is mounted as an XFD file too, with the same listing and
contents, and comes back from it. -/
theorem conversion_keeps_disk_pairDisk :
    ∃ image dump back : Image, ∃ v u, DiskPlan.image {} = .ok freshDisk ∧
      image = freshDisk.afterAll (sketchWrites pairParts) ∧ image.convert .xfd = .ok dump ∧
      mount image = .ok v ∧ mount dump = .ok u ∧
      (∃ line ∈ v.list, line.name = "A" ∧ line.sectors = 2) ∧ u.list = v.list ∧
      v.contentsOf "A" = .ok [0x41, 0x42] ∧ u.contentsOf "A" = .ok [0x41, 0x42] ∧
      dump.convert .atr = .ok back ∧ back.data = image.data := by
  have hinside : ∀ part ∈ pairParts, 1 ≤ part.1 ∧ part.1 ≤ 720 := by decide +kernel
  have hlead : (sketch pairParts 1).take 2 ≠ Container.atr.signature := by decide +kernel
  have hsame : SameDisk pairDisk (freshDisk.afterAll (sketchWrites pairParts)) :=
    sameDisk_sketched hinside hlead (by decide +kernel)
  have halike := alike_afterAll freshDisk (sketchWrites pairParts)
  have hsound := made_freshDisk.sound.1
  obtain ⟨w, hmounted, hloaded, himage⟩ : ∃ w, mount pairDisk = .ok w ∧ w.Loaded ∧
      w.image = pairDisk := mount_sketched hlead (by decide +kernel)
  obtain ⟨hfile, hfollow⟩ := hloaded.file_pairDisk himage (show 0 < pairFiles.length by decide)
  have hline : ∃ line ∈ w.list, line.name = "A" ∧ line.sectors = 2 := by
    rw [hloaded.reads.list_eq]
    refine ⟨_, List.mem_map_of_mem hfile, ?_⟩
    rw [lineOf_of_follow hfollow]
    exact ⟨by decide +kernel, rfl⟩
  have hstored : w.contentsOf "A" = .ok [0x41, 0x42] := by
    rw [contentsOf, hloaded.find_pairDisk himage, Outcome.ok_bind, hfollow]
    rfl
  obtain ⟨v, hmount, hline, hcontents⟩ : ∃ v,
      mount (freshDisk.afterAll (sketchWrites pairParts)) = .ok v ∧
      (∃ line ∈ v.list, line.name = "A" ∧ line.sectors = 2) ∧
      v.contentsOf "A" = .ok [0x41, 0x42] := by
    have hmoved := hsame.mount_eq roomy_pairDisk.toSound (hsound.of_alike halike)
    rw [hmounted, Except.map] at hmoved
    refine ⟨_, hmoved, ?_, (contentsOf_moved (himage ▸ hsame) "A").trans hstored⟩
    rw [list_moved]
    exact hline
  have hsize : freshDisk.data.size < Word.memoryBound := by
    rw [← hsound.covered]
    decide
  obtain ⟨hconvert, hreturn⟩ :=
    conversion_keeps_disk made_freshDisk hsize (sketchWrites pairParts) rfl
  obtain ⟨dump, hdump, _, _, _, _, hvolume, _⟩ := hconvert .xfd
  obtain ⟨u, hu, hlist, hread, _⟩ := hvolume v hmount
  have hplain := ((planned_of_plan plan_freshDisk).afterAll (sketchWrites pairParts)).lead
  rw [halike.header] at hreturn hplain
  obtain ⟨again, back, hagain, hback, hdata⟩ := hreturn rfl hplain rfl
  rw [hdump, Except.ok.injEq] at hagain
  subst hagain
  exact ⟨_, dump, back, v, u, plan_freshDisk, rfl, hdump, hmount, hu, hline, hlist, hcontents,
    (hread "A").trans hcontents, hback, hdata⟩

end Volume

end AtariDisk
