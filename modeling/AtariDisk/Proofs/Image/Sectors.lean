import AtariDisk.Image.Sectors
import AtariDisk.Proofs.Header

/-!
# The sectors of an image as a store

`Image.sector` is the view of an image: the bytes of each of its sectors. Reading a sector answers
the view, writing one (`Image.put`) changes the view there and nowhere else.
-/

namespace AtariDisk

/-- Where a sector lies in the file, all arithmetic being exact. -/
def Header.place (h : Header) (sector : Nat) : Span :=
  ⟨(h.toGeometry.place sector).offset + h.length, (h.toGeometry.place sector).length⟩

/-- The byte lies in the stretch. -/
def Span.Covers (span : Span) (position : Nat) : Prop :=
  span.offset ≤ position ∧ position < span.offset + span.length

namespace Image

/-- The header fits the file. It does in every image that was opened or made (`Made.sound`), and
writes leave it so (`Sound.of_alike`). -/
structure Sound (image : Image) : Prop where
  regular : image.header.toGeometry.Regular
  covered : image.header.length + image.header.imageSize = image.data.size

/-- The disk reaches behind the directory of a volume. -/
structure Reaching (image : Image) : Prop extends Sound image where
  reaches : 368 ≤ image.header.sectorCount

/-- The sectors of the disk can be counted. -/
structure Counted (image : Image) : Prop extends Sound image where
  countable : image.header.sectorCount + 1 < Word.bound

/-- The disk has room for a volume. -/
structure Roomy (image : Image) : Prop extends Sound image, Reaching image, Counted image

/-- The disk has the sector, and an entry or a link has room for its number. -/
def Linkable (image : Image) (sector : Nat) : Prop :=
  1 ≤ sector ∧ sector ≤ image.header.sectorCount ∧ sector < 65536

/-- The bytes of a sector. -/
def sector (image : Image) (n : Nat) : Bytes :=
  Buffer.slice image.data (image.header.place n).offset (image.header.place n).length

/-- The image with `bytes` in sector `n`. -/
def put (image : Image) (n : Nat) (bytes : Bytes) : Image :=
  image.patch (image.header.place n).offset bytes

/-- The images agree in all that writing sectors leaves alone. -/
structure Alike (a b : Image) : Prop where
  header : b.header = a.header
  size : b.data.size = a.data.size
  fileName : b.fileName = a.fileName
  phase : b.phase = a.phase

theorem Alike.refl (image : Image) : Alike image image := ⟨rfl, rfl, rfl, rfl⟩

theorem Alike.trans {a b c : Image} (hab : Alike a b) (hbc : Alike b c) : Alike a c :=
  ⟨hbc.header.trans hab.header, hbc.size.trans hab.size, hbc.fileName.trans hab.fileName,
    hbc.phase.trans hab.phase⟩

theorem Linkable.of_header {a b : Image} {n : Nat} (hn : a.Linkable n)
    (hheader : b.header = a.header) : b.Linkable n := by
  unfold Linkable
  rw [hheader]
  exact hn

theorem alike_patch (image : Image) (position : Nat) (bytes : Bytes) :
    Alike image (image.patch position bytes) :=
  ⟨rfl, Buffer.size_overlay image.data position bytes, rfl, rfl⟩

theorem alike_put (image : Image) (n : Nat) (bytes : Bytes) : Alike image (image.put n bytes) :=
  alike_patch image _ bytes

@[simp]
theorem header_put (image : Image) (n : Nat) (bytes : Bytes) :
    (image.put n bytes).header = image.header := rfl

theorem Sound.of_alike {a b : Image} (ha : a.Sound) (hab : Alike a b) : b.Sound := by
  refine ⟨?_, ?_⟩
  · rw [hab.header]
    exact ha.regular
  · rw [hab.header, hab.size]
    exact ha.covered

theorem Counted.of_alike {a b : Image} (ha : a.Counted) (hab : Alike a b) : b.Counted := by
  refine ⟨ha.toSound.of_alike hab, ?_⟩
  rw [hab.header]
  exact ha.countable

theorem Roomy.of_alike {a b : Image} (ha : a.Roomy) (hab : Alike a b) : b.Roomy := by
  refine ⟨ha.toSound.of_alike hab, ?_, ?_⟩
  · rw [hab.header]
    exact ha.reaches
  · rw [hab.header]
    exact ha.countable

theorem Sound.place_inside {image : Image} (hsound : image.Sound) {n : Nat} (hfirst : 1 ≤ n)
    (hlast : n ≤ image.header.sectorCount) :
    (image.header.place n).offset + (image.header.place n).length ≤ image.data.size := by
  have hinside := hsound.regular.place_inside hfirst hlast
  have hcovered := hsound.covered
  simp only [Header.place]
  omega

theorem Sound.length_sector {image : Image} (hsound : image.Sound) {n : Nat} (hfirst : 1 ≤ n)
    (hlast : n ≤ image.header.sectorCount) :
    (image.sector n).length = (image.header.place n).length :=
  Buffer.length_slice (hsound.place_inside hfirst hlast)

theorem Sound.sector_put_self {image : Image} (hsound : image.Sound) {n : Nat} (hfirst : 1 ≤ n)
    (hlast : n ≤ image.header.sectorCount) {bytes : Bytes}
    (hsized : bytes.length = (image.header.place n).length) :
    (image.put n bytes).sector n = bytes := by
  have hinside := hsound.place_inside hfirst hlast
  unfold sector
  rw [header_put, ← hsized]
  exact Buffer.slice_overlay_self (by omega)

theorem Sound.sector_put_of_ne {image : Image} (hsound : image.Sound) {n m : Nat} (hn : 1 ≤ n)
    (hm : 1 ≤ m) (hne : m ≠ n) {bytes : Bytes}
    (hsized : bytes.length = (image.header.place n).length) :
    (image.put n bytes).sector m = image.sector m := by
  have hregular := hsound.regular
  unfold sector
  rw [header_put]
  apply Buffer.slice_overlay_of_disjoint
  simp only [hsized, Header.place]
  rcases Nat.lt_or_gt_of_ne hne with hbefore | hafter
  · have hends := hregular.place_end_le hm hbefore
    exact .inl (by omega)
  · have hends := hregular.place_end_le hn hafter
    exact .inr (by omega)

/-- No byte outside of the sector is written. -/
theorem getElem?_put {image : Image} {n i : Nat} {bytes : Bytes}
    (hsized : bytes.length = (image.header.place n).length)
    (hmiss : ¬(image.header.place n).Covers i) : (image.put n bytes).data[i]? = image.data[i]? := by
  refine (Buffer.getElem?_overlay ..).trans (if_neg fun hin => hmiss ⟨hin.1, ?_⟩)
  rw [← hsized]
  exact hin.2.1

/-- Where a sector lies is where its bytes are read, as long as they are there. -/
theorem span_of_locate {image : Image} {n : Nat}
    (hlocate : image.header.locate n = .ok (image.header.place n)) (hnext : n + 1 < Word.bound)
    (hinside : (image.header.place n).offset + (image.header.place n).length ≤ image.data.size)
    (hstop : (image.header.place n).offset + (image.header.place n).length < Word.bound) :
    image.span n 1 = .ok (image.header.place n) := by
  have hregion : image.header.region n 1 = .ok (image.header.place n) := by
    unfold Header.region
    rw [hlocate, Outcome.ok_bind, Word.add_eq_ok_iff.2 ⟨hnext, rfl⟩, Outcome.ok_bind]
    unfold Header.addLengths
    rw [hlocate, Outcome.ok_bind, Word.add_eq_ok_iff.2 ⟨by omega, rfl⟩, Outcome.ok_bind,
      Header.addLengths, Outcome.ok_bind, Nat.zero_add]
    rfl
  unfold span
  rw [hregion, Outcome.ok_bind, Word.add_eq_ok_iff.2 ⟨hstop, rfl⟩, Outcome.ok_bind,
    if_neg (by omega)]
  rfl

theorem readSector_of_span {image : Image} {n : Nat}
    (hspan : image.span n 1 = .ok (image.header.place n)) :
    image.readSector n = .ok (image.sector n) := by
  unfold readSector readRun
  rw [if_neg (Nat.lt_irrefl n), Nat.sub_self, Word.add_eq_ok_iff.2 ⟨by decide, rfl⟩,
    Outcome.ok_bind, Nat.zero_add, hspan]
  rfl

theorem readSector_of_refused {image : Image} {n : Nat} {cause : DiskError}
    (hlocate : image.header.locate n = refuse cause) : image.readSector n = refuse cause := by
  unfold readSector readRun span Header.region
  rw [if_neg (Nat.lt_irrefl n), Nat.sub_self, Word.add_eq_ok_iff.2 ⟨by decide, rfl⟩,
    Outcome.ok_bind, hlocate]
  rfl

/-- The sectors that the filesystem keeps for itself are on every disk that reaches so far. -/
theorem Reaching.linkable_of_le {image : Image} (hreaching : image.Reaching) {n : Nat}
    (hfirst : 1 ≤ n) (hlast : n ≤ 368) : image.Linkable n := by
  have hreaches := hreaching.reaches
  exact ⟨hfirst, by omega, by omega⟩

section Access

variable {image : Image} (hcounted : image.Counted)

include hcounted

theorem Counted.lastSector_eq : image.header.lastSector = .ok image.header.sectorCount :=
  hcounted.regular.lastSector_eq hcounted.countable

theorem Counted.locate_eq {n : Nat} (hn : image.Linkable n) :
    image.header.locate n = .ok (image.header.place n) := by
  obtain ⟨hfirst, hlast, hshort⟩ := hn
  have hbound : Word.bound = 18446744073709551616 := rfl
  have hsmall := hcounted.regular.place_offset_lt hshort
  have hlead := image.header.length_le
  unfold Header.locate
  rw [hcounted.regular.locate_eq hcounted.countable hfirst hlast (by omega), Outcome.ok_bind,
    Word.add_eq_ok_iff.2 ⟨by omega, rfl⟩]
  rfl

theorem Counted.locate_outside {n : Nat} (hn : ¬(1 ≤ n ∧ n ≤ image.header.sectorCount)) :
    image.header.locate n = refuse (.sectorOutOfRange n 1 image.header.sectorCount) := by
  unfold Header.locate
  rw [hcounted.regular.locate_outside hcounted.countable hn]
  rfl

theorem Counted.length_place_cases (n : Nat) :
    (image.header.place n).length = 128 ∨ (image.header.place n).length = 256 := by
  have hfirst := hcounted.regular.first
  have hsize := hcounted.regular.size
  have hboot := hcounted.regular.boot
  simp only [Header.place, Geometry.place]
  split
  · left
    change image.header.bootSectorSize = 128
    omega
  · exact hsize

theorem Counted.span_one {n : Nat} (hn : image.Linkable n) :
    image.span n 1 = .ok (image.header.place n) := by
  have hbound : Word.bound = 18446744073709551616 := rfl
  have hinside := hcounted.place_inside hn.1 hn.2.1
  have hsmall := hcounted.regular.place_offset_lt hn.2.2
  have hlength := hcounted.length_place_cases n
  have hlead := image.header.length_le
  have hshort := hn.2.2
  have hstop : (image.header.place n).offset + (image.header.place n).length < Word.bound := by
    simp only [Header.place] at hlength ⊢
    omega
  exact span_of_locate (hcounted.locate_eq hn) (by omega) hinside hstop

theorem Counted.span_outside {n : Nat} (hn : ¬(1 ≤ n ∧ n ≤ image.header.sectorCount))
    (count : Nat) :
    image.span n count = refuse (.sectorOutOfRange n 1 image.header.sectorCount) := by
  unfold span Header.region
  rw [hcounted.locate_outside hn]
  rfl

theorem Counted.writeSized_eq {n size : Nat} (hn : image.Linkable n) (make : Unit → Bytes) :
    writeSized n size make image =
      if (image.header.place n).length = size then .ok () (image.put n (make ()))
      else .error (.refused (.sizeMismatch n (image.header.place n).length size)) image := by
  unfold writeSized
  rw [hcounted.span_one hn]
  rfl

theorem Counted.length_place {n : Nat} (hn : 3 < n) :
    (image.header.place n).length = image.header.sectorSize :=
  hcounted.regular.length_place hn

end Access

section Room

variable {image : Image} (hroomy : image.Roomy) {n : Nat} (hn : image.Linkable n)

include hroomy hn

theorem Roomy.readSector_eq : image.readSector n = .ok (image.sector n) :=
  readSector_of_span (hroomy.span_one hn)

theorem Roomy.writeSector_eq (bytes : Bytes) :
    writeSector n bytes image =
      if (image.header.place n).length = bytes.length then .ok () (image.put n bytes)
      else
        .error (.refused (.sizeMismatch n (image.header.place n).length bytes.length)) image := by
  unfold writeSector writeCount
  rw [hroomy.span_one hn]
  rfl

end Room

/-! ### Several writes -/

/-- The image after writing sectors one after the other. -/
def putAll (image : Image) : List (Nat × Bytes) → Image
  | [] => image
  | write :: rest => (image.put write.1 write.2).putAll rest

theorem alike_putAll (image : Image) (writes : List (Nat × Bytes)) :
    Alike image (image.putAll writes) := by
  induction writes generalizing image with
  | nil => exact Alike.refl image
  | cons write rest ih => exact (alike_put image write.1 write.2).trans (ih _)

theorem header_putAll (image : Image) (writes : List (Nat × Bytes)) :
    (image.putAll writes).header = image.header :=
  (alike_putAll image writes).header

theorem changed_putAll (image : Image) (write : Nat × Bytes) (rest : List (Nat × Bytes)) :
    (image.putAll (write :: rest)).changed = true := by
  induction rest generalizing image write with
  | nil => rfl
  | cons next rest ih => exact ih (image.put write.1 write.2) next

/-- Sectors that hold already what is written to them stay as they are. -/
theorem putAll_of_present {image : Image} (hchanged : image.changed = true)
    {writes : List (Nat × Bytes)} (hpresent : ∀ write ∈ writes, image.sector write.1 = write.2) :
    image.putAll writes = image := by
  induction writes with
  | nil => rfl
  | cons write rest ih =>
    have hput : image.put write.1 write.2 = image := by
      obtain ⟨data, header, changed, fileName, phase⟩ := image
      subst hchanged
      rw [← hpresent write List.mem_cons_self]
      simp only [put, patch, sector, Buffer.overlay_slice]
    rw [putAll, hput]
    exact ih fun later hlater => hpresent later (List.mem_cons_of_mem write hlater)

/-- Each write fills its sector. -/
def Fitting (image : Image) (writes : List (Nat × Bytes)) : Prop :=
  ∀ write ∈ writes, image.Linkable write.1 ∧ write.2.length = (image.header.place write.1).length

theorem Fitting.tail {image : Image} {write : Nat × Bytes} {rest : List (Nat × Bytes)}
    (hfitting : image.Fitting (write :: rest)) : (image.put write.1 write.2).Fitting rest :=
  fun later hlater => hfitting later (List.mem_cons_of_mem write hlater)

theorem getElem?_putAll {image : Image} {writes : List (Nat × Bytes)}
    (hfitting : image.Fitting writes) {i : Nat}
    (hmiss : ∀ n ∈ writes.map Prod.fst, ¬(image.header.place n).Covers i) :
    (image.putAll writes).data[i]? = image.data[i]? := by
  induction writes generalizing image with
  | nil => rfl
  | cons write rest ih =>
    obtain ⟨_, hsized⟩ := hfitting write List.mem_cons_self
    rw [List.map_cons, List.forall_mem_cons] at hmiss
    rw [putAll, ih hfitting.tail hmiss.2, getElem?_put hsized hmiss.1]

theorem Sound.sector_putAll_of_not_mem {image : Image} (hsound : image.Sound)
    {writes : List (Nat × Bytes)} (hfitting : image.Fitting writes) {m : Nat} (hm : 1 ≤ m)
    (hmiss : m ∉ writes.map Prod.fst) : (image.putAll writes).sector m = image.sector m := by
  induction writes generalizing image with
  | nil => rfl
  | cons write rest ih =>
    obtain ⟨hlinkable, hsized⟩ := hfitting write List.mem_cons_self
    rw [List.map_cons, List.mem_cons, not_or] at hmiss
    rw [putAll, ih (hsound.of_alike (alike_put ..)) hfitting.tail hmiss.2,
      hsound.sector_put_of_ne hlinkable.1 hm hmiss.1 hsized]

theorem Sound.sector_putAll_of_mem {image : Image} (hsound : image.Sound)
    {writes : List (Nat × Bytes)} (hfitting : image.Fitting writes)
    (hnodup : (writes.map Prod.fst).Nodup) {write : Nat × Bytes} (hmem : write ∈ writes) :
    (image.putAll writes).sector write.1 = write.2 := by
  induction writes generalizing image with
  | nil => simp at hmem
  | cons first rest ih =>
    obtain ⟨hlinkable, hsized⟩ := hfitting first List.mem_cons_self
    have hsound' := hsound.of_alike (alike_put image first.1 first.2)
    rw [List.map_cons, List.nodup_cons] at hnodup
    rcases List.mem_cons.1 hmem with rfl | hlater
    · rw [putAll, hsound'.sector_putAll_of_not_mem hfitting.tail hlinkable.1 hnodup.1,
        hsound.sector_put_self hlinkable.1 hlinkable.2.1 hsized]
    · exact ih hsound' hfitting.tail hnodup.2 hlater

end Image

end AtariDisk
