import AtariDisk.Proofs.Image.Origin

/-!
# Sectors tile the file

However many bytes there are, a header can be made for them. Its sectors lie one behind the other,
from the end of the header bytes on, and leave fewer bytes over than another sector would take. So
do the sectors of every image, whose bytes are just those of its header and its disk.
-/

namespace AtariDisk

namespace Header

/-- The sectors lie one behind the other in the file and take up `size` bytes, but for fewer than
`unit` at its end. -/
structure Tiles (h : Header) (size unit : Nat) : Prop where
  located_iff : ∀ n, (∃ span, h.locate n = .ok span) ↔ 1 ≤ n ∧ n ≤ h.sectorCount
  settles : ∀ n, (h.locate n).Settles
  first : ∀ span, h.locate 1 = .ok span → span.offset = h.length
  adjacent : ∀ n span next, h.locate n = .ok span → h.locate (n + 1) = .ok next →
    span.offset + span.length = next.offset
  last : ∀ span, h.locate h.sectorCount = .ok span →
    span.offset + span.length ≤ h.length + size ∧
      h.length + size < span.offset + span.length + unit
  none : h.sectorCount = 0 → size < unit

section Regular

variable {h : Header} (hregular : h.toGeometry.Regular)

include hregular

theorem le_length_place (n : Nat) : 16 ≤ (h.toGeometry.place n).length := by
  have hsize := hregular.size
  have hboot := hregular.boot
  have hfirst := hregular.first
  unfold Geometry.place
  split
  · simp only
    omega
  · simp only
    omega

/-- Locating a sector of the disk never leaves the range of a word: the header in front is shorter
than the sector itself. -/
theorem locate_eq_place (hsize : h.imageSize < Word.bound) {n : Nat} (hfirst : 1 ≤ n)
    (hlast : n ≤ h.sectorCount) : h.locate n = .ok (h.place n) := by
  have hinside := hregular.place_inside hfirst hlast
  have hlong := le_length_place hregular n
  have hlead := h.length_le
  unfold locate
  rw [hregular.locate_eq (hregular.countable hsize) hfirst hlast (by omega), Outcome.ok_bind,
    Word.add_eq_ok_iff.2 ⟨by omega, rfl⟩]
  rfl

theorem locate_outside (hsize : h.imageSize < Word.bound) {n : Nat}
    (houtside : ¬(1 ≤ n ∧ n ≤ h.sectorCount)) :
    h.locate n = refuse (.sectorOutOfRange n 1 h.sectorCount) := by
  unfold locate
  rw [hregular.locate_outside (hregular.countable hsize) houtside]
  rfl

theorem locate_eq_ok_iff (hsize : h.imageSize < Word.bound) {n : Nat} {span : Span} :
    h.locate n = .ok span ↔ (1 ≤ n ∧ n ≤ h.sectorCount) ∧ span = h.place n := by
  by_cases hn : 1 ≤ n ∧ n ≤ h.sectorCount
  · rw [locate_eq_place hregular hsize hn.1 hn.2, Except.ok.injEq]
    exact ⟨fun hspan => ⟨hn, hspan.symm⟩, fun hspan => hspan.2.symm⟩
  · rw [locate_outside hregular hsize hn]
    exact ⟨fun hspan => absurd hspan (Outcome.refuse_ne_ok _ _), fun hspan => absurd hspan.1 hn⟩

theorem settles_locate (hsize : h.imageSize < Word.bound) (n : Nat) : (h.locate n).Settles := by
  by_cases hn : 1 ≤ n ∧ n ≤ h.sectorCount
  · rw [locate_eq_place hregular hsize hn.1 hn.2]
    exact Outcome.settles_ok _
  · rw [locate_outside hregular hsize hn]
    exact Outcome.settles_refuse _

theorem offset_place_one : (h.place 1).offset = h.length := by
  have hfirst := hregular.first
  have hnone : 1 - h.firstSector = 0 := by omega
  simp only [place, Geometry.place, hnone]
  split
  · simp only [Nat.zero_mul, Nat.zero_add]
  · have hboot : h.bootSectors = 0 := by omega
    simp only [hboot, Nat.zero_mul, Nat.sub_zero, Nat.zero_add]

/-- A regular geometry tiles the file as soon as its last sector ends close enough to the end. -/
theorem tiles_of_rest (hsize : h.imageSize < Word.bound) {unit : Nat}
    (hrest : h.imageSize < h.bootSectors * h.bootSectorSize +
      (h.sectorCount - h.bootSectors) * h.sectorSize + unit) : h.Tiles h.imageSize unit := by
  have hlocate : ∀ {n span}, h.locate n = .ok span → (1 ≤ n ∧ n ≤ h.sectorCount) ∧
      span = h.place n := (locate_eq_ok_iff hregular hsize).1
  have hstop := hregular.place_stop
  refine ⟨fun n => ?_, settles_locate hregular hsize, ?_, ?_, ?_, ?_⟩
  · constructor
    · rintro ⟨span, hspan⟩
      exact (hlocate hspan).1
    · intro hn
      exact ⟨h.place n, locate_eq_place hregular hsize hn.1 hn.2⟩
  · intro span hspan
    rw [(hlocate hspan).2]
    exact offset_place_one hregular
  · intro n span next hspan hnext
    obtain ⟨⟨hfirst, _⟩, rfl⟩ := hlocate hspan
    obtain ⟨_, rfl⟩ := hlocate hnext
    have hstep := hregular.place_succ hfirst
    simp only [place]
    omega
  · intro span hspan
    obtain ⟨⟨hfirst, hlast⟩, rfl⟩ := hlocate hspan
    have hinside := hregular.place_inside hfirst hlast
    have hstep := hregular.place_succ hfirst
    simp only [place]
    omega
  · intro hempty
    have hboot := hregular.boot_le
    have hnone : h.bootSectors = 0 := by omega
    rw [hnone, hempty] at hrest
    omega

end Regular

/-- Any number of bytes that fits into a word makes a header, whose sectors tile them. -/
theorem exists_ofSize (container : Container) {size sectorSize : Nat} (hsize : size < Word.bound)
    (hsector : sectorSize = 128 ∨ sectorSize = 256) :
    ∃ h, ofSize container size sectorSize = .ok h ∧ h.container = container ∧
      h.Tiles size (min sectorSize h.sectorSize) := by
  have hblank : (Geometry.empty sectorSize).sectorSize = sectorSize := rfl
  obtain ⟨g, hfit⟩ := Geometry.exists_fit (g := .empty sectorSize) hsector size
  obtain ⟨hregular, himage⟩ := Geometry.regular_of_fit rfl hsector hfit
  have hrest := Geometry.rest_lt_of_fit (by omega) hfit
  refine ⟨⟨g, container, 0, 0, 0⟩, ofSize_eq_ok_iff.2 ⟨hsector, g, hfit, rfl⟩, rfl, ?_⟩
  rw [← himage] at hsize hrest ⊢
  exact tiles_of_rest hregular hsize hrest

end Header

namespace Image

section Made

variable {image : Image} (hmade : image.Made) (hsize : image.data.size < Word.bound)

include hmade hsize

theorem Made.imageSize_lt : image.header.imageSize < Word.bound := by
  have hcovered := hmade.sound.1.covered
  omega

theorem Made.tiles : image.header.Tiles image.header.imageSize image.header.sectorSize :=
  Header.tiles_of_rest hmade.sound.1.regular (hmade.imageSize_lt hsize) hmade.fitted.rest_lt

theorem Made.locate_inside {n : Nat} (hn : image.header.hasSector n = .ok true) :
    ∃ span, image.header.locate n = .ok span ∧ span.offset + span.length ≤ image.data.size := by
  obtain ⟨hsound, _⟩ := hmade.sound
  rw [hsound.regular.hasSector_eq (hsound.countable hsize), Except.ok.injEq,
    decide_eq_true_eq] at hn
  refine ⟨image.header.place n, ?_, hsound.place_inside hn.1 hn.2⟩
  exact Header.locate_eq_place hsound.regular (hmade.imageSize_lt hsize) hn.1 hn.2

theorem Made.locate_disjoint {m n : Nat} {a b : Span} (hne : m ≠ n)
    (ha : image.header.locate m = .ok a) (hb : image.header.locate n = .ok b) :
    a.offset + a.length ≤ b.offset ∨ b.offset + b.length ≤ a.offset := by
  have hregular := hmade.sound.1.regular
  have hword := hmade.imageSize_lt hsize
  obtain ⟨⟨hm, _⟩, rfl⟩ := (Header.locate_eq_ok_iff hregular hword).1 ha
  obtain ⟨⟨hn, _⟩, rfl⟩ := (Header.locate_eq_ok_iff hregular hword).1 hb
  simp only [Header.place]
  rcases Nat.lt_or_gt_of_ne hne with hbefore | hafter
  · have hends := hregular.place_end_le hm hbefore
    omega
  · have hends := hregular.place_end_le hn hafter
    omega

end Made

/-- **Sectors tile the file.** Any number of bytes and either sector size make a header whose
sectors lie one behind the other and leave over less than a sector. An image is exactly its header
bytes and its disk; every sector that it has lies inside, and no two overlap. -/
theorem sectors_tile :
    (∀ (container : Container) (size sectorSize : Nat), size < Word.bound →
      sectorSize = 128 ∨ sectorSize = 256 →
        ∃ h, Header.ofSize container size sectorSize = .ok h ∧ h.container = container ∧
          h.Tiles size (min sectorSize h.sectorSize)) ∧
    ∀ image : Image, image.Made → image.data.size < Word.bound →
      image.data.size = image.header.length + image.header.imageSize ∧
      image.header.Tiles image.header.imageSize image.header.sectorSize ∧
      (∀ n, image.header.hasSector n = .ok true → ∃ span, image.header.locate n = .ok span ∧
        span.offset + span.length ≤ image.data.size) ∧
      ∀ m n a b, m ≠ n → image.header.locate m = .ok a → image.header.locate n = .ok b →
        a.offset + a.length ≤ b.offset ∨ b.offset + b.length ≤ a.offset := by
  constructor
  · intro container size sectorSize hsize hsector
    exact Header.exists_ofSize container hsize hsector
  · intro image hmade hsize
    refine ⟨hmade.sound.1.covered.symm, hmade.tiles hsize, ?_, ?_⟩
    · intro n hn
      exact hmade.locate_inside hsize hn
    · intro m n a b hne ha hb
      exact hmade.locate_disjoint hsize hne ha hb

/-- 720 sectors of 256 bytes, but for three short ones. -/
def shortBootHeader : Header :=
  ⟨⟨183936, 256, 128, 3, 1, 720, 18⟩, .atr, 0, 0, 0⟩

/-- The largest file there could be, and a disk with short sectors. -/
theorem sectors_tile_extremes :
    (∃ h, Header.ofSize .atr (Word.bound - 1) 256 = .ok h ∧
      h.Tiles (Word.bound - 1) (min 256 h.sectorSize)) ∧
    ∃ image : Image, DiskPlan.image (DiskPlan.doubleDensity {}) = .ok image ∧
      image.header.bootSectors = 3 ∧ image.data.size = 183952 ∧
      ∃ span, image.header.locate 720 = .ok span ∧ span.offset + span.length ≤ 183952 := by
  constructor
  · obtain ⟨h, hsized, _, htiles⟩ :=
      sectors_tile.1 .atr (Word.bound - 1) 256 (by decide) (.inr rfl)
    exact ⟨h, hsized, htiles⟩
  · obtain ⟨image, hplan, hheader⟩ : ∃ image : Image,
        DiskPlan.image (DiskPlan.doubleDensity {}) = .ok image ∧ image.header = shortBootHeader :=
      ⟨_, plan_image_eq_ok_iff.2 ⟨183936, shortBootHeader, rfl, rfl, by decide, rfl⟩, rfl⟩
    have hmade : image.Made := .inr ⟨_, hplan⟩
    have hsize : image.data.size = 183952 := by
      rw [← hmade.sound.1.covered, hheader]
      rfl
    obtain ⟨_, _, hinside, _⟩ := sectors_tile.2 image hmade (by rw [hsize]; decide)
    rw [hsize, hheader] at hinside
    refine ⟨image, hplan, by rw [hheader]; rfl, hsize, ?_⟩
    rw [hheader]
    exact hinside 720 rfl

end Image

end AtariDisk
