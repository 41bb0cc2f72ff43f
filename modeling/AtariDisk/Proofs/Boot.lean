import AtariDisk.Boot
import AtariDisk.Proofs.Image.Runs

/-!
# What a machine loads

A boot record is accepted if as many sectors as it counts fit below the end of memory, all of them
taken to be as long as the first. The machine loads the sectors as they are. On a disk with short
boot sectors every sector behind the third is twice as long as the first, and so an accepted record
can make the machine load more than there is room for.
-/

namespace AtariDisk

namespace BootRecord

theorem check_eq_ok_iff {r : BootRecord} {size : Nat} (hsize : 0 < size) :
    r.check size = .ok () ↔
      r.isExecutable = false ∧ 1 ≤ r.sectorCount.toNat ∧ lowestLoad ≤ r.loadAddress ∧
        r.loadAddress + r.sectorCount.toNat * size ≤ ramEnd := by
  have hram : ramEnd < Word.bound := by decide
  unfold check
  simp only [Nat.max_eq_left (show 1 ≤ size from hsize), Nat.div_lt_iff_lt_mul hsize]
  by_cases hexecutable : r.isExecutable = true
  · simp [hexecutable]
  · rw [if_neg hexecutable]
    split
    · rename_i hcount
      refine iff_of_false (Outcome.refuse_ne_ok _ _) ?_
      omega
    · split
      · rename_i hload
        refine iff_of_false (Outcome.refuse_ne_ok _ _) ?_
        omega
      · rename_i hcount hload
        rw [not_or, Nat.not_lt, Nat.not_lt] at hcount
        have hsome : 0 < r.sectorCount.toNat * size := Nat.mul_pos hcount.1 hsize
        have hend : r.loadAddress + r.sectorCount.toNat * size ≤ ramEnd := by omega
        rw [Word.mul_eq_ok_iff.2 ⟨by omega, rfl⟩, Outcome.ok_bind,
          Word.add_eq_ok_iff.2 ⟨by omega, rfl⟩, Outcome.ok_bind, if_neg (by omega)]
        exact iff_of_true rfl ⟨Bool.eq_false_iff.2 hexecutable, hcount.1, by omega, hend⟩

section Sound

variable {image : Image} (hsound : image.Sound) (hsize : image.data.size < Word.bound)
  {r : BootRecord}

include hsound hsize

theorem detect_eq_ok_iff :
    detect image = .ok r ↔
      1 ≤ image.header.sectorCount ∧ parse (image.sector 1) = .ok r ∧
        r.check (image.header.place 1).length = .ok () := by
  unfold detect ofImage
  by_cases hfirst : 1 ≤ image.header.sectorCount
  · rw [hsound.readSector_eq hsize (Nat.le_refl 1) hfirst, Outcome.ok_bind,
      Header.locate_eq_place hsound.regular (hsound.imageSize_lt hsize) (Nat.le_refl 1) hfirst]
    simp only [Outcome.ok_bind, Outcome.bind_eq_ok_iff, Outcome.pure_eq_ok, Except.ok.injEq]
    constructor
    · rintro ⟨found, hparse, _, hcheck, rfl⟩
      exact ⟨hfirst, hparse, hcheck⟩
    · rintro ⟨_, hparse, hcheck⟩
      exact ⟨r, hparse, (), hcheck, rfl⟩
  · rw [hsound.readSector_outside hsize (by omega)]
    refine iff_of_false (Outcome.refuse_ne_ok _ _) ?_
    omega

/-- An accepted record leaves room for all its sectors, were they like the first. -/
theorem room_of_detect (hdetect : detect image = .ok r) :
    1 ≤ r.sectorCount.toNat ∧
      r.loadAddress + r.sectorCount.toNat * (image.header.place 1).length ≤ ramEnd := by
  have hlong : 16 ≤ (image.header.place 1).length := Header.le_length_place hsound.regular 1
  obtain ⟨_, _, hcheck⟩ := (detect_eq_ok_iff hsound hsize).1 hdetect
  obtain ⟨_, hcount, _, hroom⟩ := (check_eq_ok_iff (by omega)).1 hcheck
  exact ⟨hcount, hroom⟩

theorem length_of_readCode {code : Bytes} (hcount : 1 ≤ r.sectorCount.toNat)
    (hcode : readCode image r = .ok code) :
    code.length = image.header.runLength 1 r.sectorCount.toNat := by
  have hbyte := r.sectorCount.toNat_lt
  have hbound : Word.bound = 18446744073709551616 := rfl
  rw [readCode, Nat.max_eq_left hcount] at hcode
  rw [hsound.length_of_readRun hsize (by omega) hcode, Nat.add_sub_cancel]

end Sound

/-- Bytes in the sectors that a record counts, on a disk of this geometry. -/
def codeLength (r : BootRecord) (g : Geometry) : Nat :=
  if g.bootSectors = 0 then r.sectorCount.toNat * g.sectorSize
  else min r.sectorCount.toNat 3 * 128 + (r.sectorCount.toNat - 3) * 256

theorem runLength_eq_codeLength {h : Header} (hfitted : h.toGeometry.Fitted) (r : BootRecord) :
    h.runLength 1 r.sectorCount.toNat = r.codeLength h.toGeometry := by
  rw [Header.runLength_one_eq hfitted.regular, codeLength]
  rcases hfitted.boot_cases with hnone | ⟨hthree, hshort, hdouble⟩
  · rw [if_pos hnone, hnone, Nat.min_zero, Nat.zero_mul, Nat.zero_add, Nat.sub_zero]
  · rw [if_neg (by omega), hthree, hshort, hdouble]

/-- **Code fits into memory unless short sectors hide its length.** What the machine loads after an
accepted record ends below the end of memory exactly if the disk has no short boot sectors, or the
record counts no sector behind them, or the code fits with each sector behind them twice as long. -/
theorem boot_code_fits_iff {image : Image} (hmade : image.Made)
    (hsize : image.data.size < Word.bound) {r : BootRecord} {code : Bytes}
    (hdetect : detect image = .ok r) (hcode : readCode image r = .ok code) :
    code.length = r.codeLength image.header.toGeometry ∧
      (r.loadAddress + code.length ≤ ramEnd ↔
        image.header.bootSectors = 0 ∨ r.sectorCount.toNat ≤ 3 ∨
          r.loadAddress + 3 * 128 + (r.sectorCount.toNat - 3) * 256 ≤ ramEnd) := by
  obtain ⟨hsound, _⟩ := hmade.sound
  have hfitted := hmade.fitted
  obtain ⟨hcount, hroom⟩ := room_of_detect hsound hsize hdetect
  have hlength : code.length = r.codeLength image.header.toGeometry := by
    rw [length_of_readCode hsound hsize hcount hcode, runLength_eq_codeLength hfitted]
  have hfirst : (image.header.place 1).length = min 1 image.header.bootSectors *
      image.header.bootSectorSize + (1 - image.header.bootSectors) * image.header.sectorSize :=
    Header.runLength_one_eq hfitted.regular 1
  refine ⟨hlength, ?_⟩
  rw [hlength, codeLength]
  rcases hfitted.boot_cases with hnone | ⟨hthree, hshort, hdouble⟩
  · rw [hfirst, hnone, Nat.min_zero, Nat.zero_mul, Nat.zero_add, Nat.sub_zero, Nat.one_mul] at hroom
    rw [if_pos hnone]
    exact iff_of_true hroom (.inl hnone)
  · rw [hthree, hshort, hdouble] at hfirst
    rw [show (image.header.place 1).length = 128 from hfirst] at hroom
    rw [if_neg (by omega)]
    omega

/-! ### Too much to load -/

/-- A disk of double density with three short sectors, all zero but for a record that counts so many
sectors and loads them from `0x2000` on. -/
def bootBytes (count : UInt8) : Bytes :=
  [0, count, 0x00, 0x20, 0, 0] ++ Bytes.zeros 183930

def bootDisk (count : UInt8) : Image :=
  ⟨(bootBytes count).toArray, { Image.shortBootHeader with container := .xfd }, false, none, .idle⟩

theorem length_bootBytes (count : UInt8) : (bootBytes count).length = 183936 := by
  have hrecord : ([0, count, 0x00, 0x20, 0, 0] : Bytes).length = 6 := rfl
  rw [bootBytes, List.length_append, Bytes.length_zeros, hrecord]

theorem size_bootDisk (count : UInt8) : (bootDisk count).data.size = 183936 := by
  rw [bootDisk, List.size_toArray, length_bootBytes]

theorem ofBuffer_bootDisk (count : UInt8) :
    Image.ofBuffer (bootBytes count).toArray = .ok (bootDisk count) := by
  have hlead : Container.detect (Buffer.slice (bootBytes count).toArray 0 16) = .xfd := by
    rw [Buffer.slice_toArray]
    rfl
  refine Image.ofBuffer_eq_ok_iff.2 ⟨_, ?_, rfl⟩
  rw [Image.headerIn, hlead, List.size_toArray, length_bootBytes]
  rfl

theorem made_bootDisk (count : UInt8) : (bootDisk count).Made :=
  .inl ⟨_, ofBuffer_bootDisk count⟩

theorem size_bootDisk_lt (count : UInt8) : (bootDisk count).data.size < Word.bound := by
  rw [size_bootDisk]
  decide

/-- Any number of sectors is accepted, as so many sectors of 128 bytes would fit. -/
theorem detect_bootDisk {count : UInt8} (hcount : 1 ≤ count.toNat) :
    detect (bootDisk count) = .ok ⟨0, count, 0x2000, 0⟩ := by
  have hbyte := count.toNat_lt
  have hplace : (bootDisk count).header.place 1 = ⟨0, 128⟩ := rfl
  have hsector : (bootDisk count).sector 1 = (bootBytes count).take 128 := by
    rw [Image.sector, hplace, bootDisk, Buffer.slice_toArray, List.drop_zero]
  apply (detect_eq_ok_iff (made_bootDisk count).sound.1 (size_bootDisk_lt count)).2
  refine ⟨show 1 ≤ 720 by decide, ?_, ?_⟩
  · rw [hsector]
    rfl
  · rw [hplace, check_eq_ok_iff (by decide)]
    refine ⟨rfl, hcount, show 0x0200 ≤ 0x2000 by decide, ?_⟩
    change 0x2000 + count.toNat * 128 ≤ 0xC000
    omega

theorem exists_readCode_bootDisk {count : UInt8} (hcount : 1 ≤ count.toNat) :
    ∃ code, readCode (bootDisk count) ⟨0, count, 0x2000, 0⟩ = .ok code := by
  have hbyte := count.toNat_lt
  have hbound : Word.bound = 18446744073709551616 := rfl
  have hlast : (bootDisk count).header.sectorCount = 720 := rfl
  rw [readCode, Nat.max_eq_left hcount,
    (made_bootDisk count).sound.1.readRun_eq (size_bootDisk_lt count) (by omega), hlast,
    if_neg (by omega), if_neg (by omega), if_pos (by decide), if_pos (by omega)]
  exact ⟨_, rfl⟩

/-- From `0x2000` on there is room for 161 sectors, three of them short, but not for 162. -/
theorem boot_code_fits_iff_short :
    (∃ image r code, Image.ofBuffer (bootBytes 161).toArray = .ok image ∧ detect image = .ok r ∧
      readCode image r = .ok code ∧ r.loadAddress + code.length ≤ ramEnd) ∧
    ∃ image r code, Image.ofBuffer (bootBytes 162).toArray = .ok image ∧ detect image = .ok r ∧
      readCode image r = .ok code ∧ code.length = 41088 ∧
      ¬r.loadAddress + code.length ≤ ramEnd := by
  constructor
  · have hcount : 1 ≤ (161 : UInt8).toNat := by decide
    have hdetect := detect_bootDisk hcount
    obtain ⟨code, hcode⟩ := exists_readCode_bootDisk hcount
    obtain ⟨_, hfits⟩ :=
      boot_code_fits_iff (made_bootDisk 161) (size_bootDisk_lt 161) hdetect hcode
    exact ⟨_, _, code, ofBuffer_bootDisk 161, hdetect, hcode, hfits.2 (.inr (.inr (by decide)))⟩
  · have hcount : 1 ≤ (162 : UInt8).toNat := by decide
    have hdetect := detect_bootDisk hcount
    obtain ⟨code, hcode⟩ := exists_readCode_bootDisk hcount
    obtain ⟨hlength, hfits⟩ :=
      boot_code_fits_iff (made_bootDisk 162) (size_bootDisk_lt 162) hdetect hcode
    refine ⟨_, _, code, ofBuffer_bootDisk 162, hdetect, hcode, hlength, ?_⟩
    rw [hfits]
    decide

/-- 200 sectors are accepted, although they end at `0xE680`. -/
theorem accepted_code_leaves_memory :
    ∃ image r code, Image.ofBuffer (bootBytes 200).toArray = .ok image ∧
      detect image = .ok r ∧ readCode image r = .ok code ∧
      r.loadAddress + code.length = 0xE680 ∧ ¬r.loadAddress + code.length ≤ ramEnd := by
  have hcount : 1 ≤ (200 : UInt8).toNat := by decide
  have hmade := made_bootDisk 200
  obtain ⟨code, hcode⟩ := exists_readCode_bootDisk hcount
  have hlength := length_of_readCode hmade.sound.1 (size_bootDisk_lt 200) hcount hcode
  rw [runLength_eq_codeLength hmade.fitted] at hlength
  refine ⟨bootDisk 200, _, code, ofBuffer_bootDisk 200, detect_bootDisk hcount, hcode, ?_⟩
  rw [hlength]
  decide

end BootRecord

end AtariDisk
