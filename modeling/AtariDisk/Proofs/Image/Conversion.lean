import AtariDisk.Proofs.Image.Tiling
import AtariDisk.Proofs.Image.Writes

/-!
# Images in other containers

Converting an image does not copy its geometry: the header is made anew from the number of bytes
behind the old one, with the sector size as a hint. It comes out the same, because a disk that was
fitted once is fitted the same way again. So the converted image has the same sectors
(`Image.SameDisk`), and an ATR file whose header says what it is comes back from an XFD file.
-/

namespace AtariDisk

namespace Buffer

/-- The bytes behind a lead are found at the same distance behind another one. -/
theorem slice_append_right (lead rest : Buffer) (position length : Nat) :
    slice (lead ++ rest) (position + lead.size) length = slice rest position length := by
  apply List.ext_getElem?
  intro i
  rw [getElem?_slice, getElem?_slice, Array.getElem?_append_right (by omega)]
  congr 2
  omega

theorem slice_extract {buffer : Buffer} {start position length : Nat}
    (hinside : start + position + length ≤ buffer.size) :
    slice (buffer.extract start buffer.size) position length =
      slice buffer (position + start) length := by
  apply List.ext_getElem?
  intro i
  rw [getElem?_slice, getElem?_slice, Array.getElem?_extract]
  by_cases hi : i < length
  · rw [if_pos hi, if_pos hi, if_pos (by omega)]
    congr 1
    omega
  · rw [if_neg hi, if_neg hi]

/-- A buffer is its first bytes and the rest. -/
theorem toArray_slice_append (buffer : Buffer) {length : Nat} (hlength : length ≤ buffer.size) :
    (slice buffer 0 length).toArray ++ buffer.extract length buffer.size = buffer := by
  rw [slice, Array.toArray_toList, Nat.zero_add, Array.extract_append_extract, Nat.zero_min,
    Nat.max_eq_right hlength, Array.extract_size]

end Buffer

namespace Image

/-! ### Reading sectors of any number -/

section Sound

variable {image : Image} (hsound : image.Sound) (hsize : image.data.size < Word.bound)

include hsound hsize

theorem Sound.imageSize_lt : image.header.imageSize < Word.bound := by
  have hcovered := hsound.covered
  omega

theorem Sound.readSector_eq {n : Nat} (hfirst : 1 ≤ n) (hlast : n ≤ image.header.sectorCount) :
    image.readSector n = .ok (image.sector n) := by
  have hcountable := hsound.countable hsize
  have hinside := hsound.place_inside hfirst hlast
  have hlocate := Header.locate_eq_place hsound.regular (hsound.imageSize_lt hsize) hfirst hlast
  exact readSector_of_span (span_of_locate hlocate (by omega) hinside (by omega))

theorem Sound.readSector_outside {n : Nat} (hn : ¬(1 ≤ n ∧ n ≤ image.header.sectorCount)) :
    image.readSector n = refuse (.sectorOutOfRange n 1 image.header.sectorCount) :=
  readSector_of_refused (Header.locate_outside hsound.regular (hsound.imageSize_lt hsize) hn)

/-- A sector that is not written is read as before, also if it is not there. -/
theorem Sound.readSector_putAll_of_not_mem {writes : List (Nat × Bytes)}
    (hfitting : image.Fitting writes) {n : Nat} (hmiss : n ∉ writes.map Prod.fst) :
    (image.putAll writes).readSector n = image.readSector n := by
  have halike := alike_putAll image writes
  have hafter := hsound.of_alike halike
  have hsize' : (image.putAll writes).data.size < Word.bound := halike.size ▸ hsize
  have hheader := halike.header
  by_cases hn : 1 ≤ n ∧ n ≤ image.header.sectorCount
  · rw [hsound.readSector_eq hsize hn.1 hn.2,
      hafter.readSector_eq hsize' hn.1 (hheader ▸ hn.2),
      hsound.sector_putAll_of_not_mem hfitting hn.1 hmiss]
  · rw [hsound.readSector_outside hsize hn, hafter.readSector_outside hsize' (by rwa [hheader]),
      hheader]

end Sound

/-! ### The same disk -/

/-- The images have the same sectors. -/
structure SameDisk (a b : Image) : Prop where
  geometry : b.header.toGeometry = a.header.toGeometry
  readSector : ∀ n, b.readSector n = a.readSector n

/-- Images with the same sectors have no others either. -/
theorem Sound.sameDisk {a b : Image} (ha : a.Sound) (hb : b.Sound)
    (hsizeA : a.data.size < Word.bound) (hsizeB : b.data.size < Word.bound)
    (hgeometry : b.header.toGeometry = a.header.toGeometry)
    (hsector : ∀ n, 1 ≤ n → n ≤ a.header.sectorCount → b.sector n = a.sector n) :
    SameDisk a b := by
  refine ⟨hgeometry, fun n => ?_⟩
  by_cases hn : 1 ≤ n ∧ n ≤ a.header.sectorCount
  · rw [ha.readSector_eq hsizeA hn.1 hn.2, hb.readSector_eq hsizeB hn.1 (hgeometry ▸ hn.2),
      hsector n hn.1 hn.2]
  · rw [ha.readSector_outside hsizeA hn, hb.readSector_outside hsizeB (by rwa [hgeometry]),
      hgeometry]

/-- The image is what fitting its bytes comes to, and these are few enough to be held in memory,
also with a header in front. -/
structure Proper (image : Image) : Prop where
  fitted : image.header.toGeometry.Fitted
  covered : image.header.length + image.header.imageSize = image.data.size
  small : image.header.imageSize < Word.memoryBound

theorem Proper.sound {image : Image} (hproper : image.Proper) : image.Sound :=
  ⟨hproper.fitted.regular, hproper.covered⟩

theorem Proper.size_lt {image : Image} (hproper : image.Proper) :
    image.data.size < Word.bound := by
  have hmemory : Word.memoryBound + 16 < Word.bound := by decide
  have hlead := image.header.length_le
  have hcovered := hproper.covered
  have hsmall := hproper.small
  omega

theorem Proper.of_header {a b : Image} (ha : a.Proper) (hheader : b.header = a.header)
    (hsize : b.data.size = a.data.size) : b.Proper := by
  refine ⟨?_, ?_, ?_⟩
  · rw [hheader]
    exact ha.fitted
  · rw [hheader, hsize]
    exact ha.covered
  · rw [hheader]
    exact ha.small

theorem Proper.of_sound {a b : Image} (ha : a.Proper) (hb : b.Sound)
    (hheader : b.header = a.header) : b.Proper := by
  apply ha.of_header hheader
  rw [← hb.covered, ← ha.covered, hheader]

theorem Made.proper {image : Image} (hmade : image.Made)
    (hsize : image.data.size < Word.memoryBound) : image.Proper := by
  have hcovered := hmade.sound.1.covered
  exact ⟨hmade.fitted, hcovered, by omega⟩

/-! ### Conversion -/

/-- The header of the same disk in another container. -/
def headerFor (image : Image) (container : Container) : Header :=
  ⟨image.header.toGeometry, container, image.header.crc, 0, image.header.flags⟩

/-- The bytes behind the header. -/
def behindHeader (image : Image) : Buffer :=
  image.data.extract image.header.length image.data.size

/-- The same disk in another container. -/
def inContainer (image : Image) (container : Container) : Image where
  data := (image.headerFor container).encode.toArray ++ image.behindHeader
  header := image.headerFor container
  changed := true
  fileName := none
  phase := .idle

theorem size_encode (header : Header) : header.encode.toArray.size = header.length := by
  rw [List.size_toArray, Header.length_encode]

theorem size_inContainer (image : Image) (container : Container) :
    (image.inContainer container).data.size =
      (image.headerFor container).length + image.behindHeader.size := by
  rw [inContainer, Array.size_append, size_encode]

theorem behindHeader_inContainer (image : Image) (container : Container) :
    (image.inContainer container).behindHeader = image.behindHeader := by
  have hlead := size_encode (image.headerFor container)
  change ((image.headerFor container).encode.toArray ++ image.behindHeader).extract
    (image.headerFor container).length (image.inContainer container).data.size = _
  rw [size_inContainer, ← hlead, Array.extract_append]
  simp

section Proper

variable {image : Image} (hproper : image.Proper)

include hproper

theorem Proper.size_behindHeader : image.behindHeader.size = image.header.imageSize := by
  have hcovered := hproper.covered
  rw [behindHeader, Array.size_extract]
  omega

/-- Fitting the bytes behind the header again comes to the geometry the image has. -/
theorem Proper.convert_eq (container : Container) :
    image.convert container = .ok (image.inContainer container) := by
  unfold convert
  change (Header.ofSize container image.behindHeader.size image.header.sectorSize >>= _) = _
  rw [hproper.size_behindHeader, Header.ofSize_of_fitted hproper.fitted]
  rfl

theorem Proper.inContainer (container : Container) : (image.inContainer container).Proper := by
  refine ⟨hproper.fitted, ?_, hproper.small⟩
  rw [size_inContainer, hproper.size_behindHeader]
  rfl

theorem Proper.sector_inContainer (container : Container) {n : Nat} (hfirst : 1 ≤ n)
    (hlast : n ≤ image.header.sectorCount) :
    (image.inContainer container).sector n = image.sector n := by
  have hinside := hproper.sound.regular.place_inside hfirst hlast
  have hcovered := hproper.covered
  have hlead := size_encode (image.headerFor container)
  change Buffer.slice ((image.headerFor container).encode.toArray ++ image.behindHeader)
    ((image.header.toGeometry.place n).offset + (image.headerFor container).length)
    (image.header.toGeometry.place n).length = _
  rw [← hlead, Buffer.slice_append_right, behindHeader, Buffer.slice_extract (by omega)]
  rfl

theorem Proper.sameDisk (container : Container) : SameDisk image (image.inContainer container) := by
  have hconverted := hproper.inContainer container
  exact hproper.sound.sameDisk hconverted.sound hproper.size_lt hconverted.size_lt rfl
    fun n => hproper.sector_inContainer container

/-- An ATR file that starts with its own header, and has nothing in the unused field, comes back
from an XFD file as it was. -/
theorem Proper.inContainer_twice (hatr : image.header.container = .atr)
    (hlead : Buffer.slice image.data 0 16 = image.header.encode)
    (hunused : image.header.unused = 0) :
    ((image.inContainer .xfd).inContainer .atr).data = image.data := by
  have hheader : (image.inContainer .xfd).headerFor .atr = image.header := by
    rw [← hatr]
    change (⟨image.header.toGeometry, image.header.container, image.header.crc, 0,
      image.header.flags⟩ : Header) = image.header
    rw [← hunused]
  have hlength : image.header.length = 16 := by
    rw [Header.length, hatr]
    rfl
  have hcovered := hproper.covered
  calc ((image.inContainer .xfd).inContainer .atr).data
      = image.header.encode.toArray ++ (image.inContainer .xfd).behindHeader := by
        rw [← hheader]
        rfl
    _ = (Buffer.slice image.data 0 16).toArray ++ image.data.extract 16 image.data.size := by
        rw [behindHeader_inContainer, behindHeader, hlead, hlength]
    _ = image.data := Buffer.toArray_slice_append image.data (by omega)

end Proper

end Image

end AtariDisk
