import AtariDisk.Console.Execute
import AtariDisk.Proofs.Image.Conversion
import AtariDisk.Proofs.Volume.Robustness

/-!
# Questions that are always answered

Whatever bytes are on a disk, looking at its sectors, its map, its boot record and its volume is
refused at worst.
-/

namespace AtariDisk

theorem Geometry.Regular.length_place_le {g : Geometry} (hregular : g.Regular) (n : Nat) :
    (g.place n).length ≤ 256 := by
  have hsize := hregular.size
  have hboot := hregular.boot
  unfold Geometry.place
  split
  · simp only
    omega
  · simp only
    omega

namespace Image

theorem Proper.settles_readSector {image : Image} (hproper : image.Proper) (n : Nat) :
    (image.readSector n).Settles := by
  by_cases hn : 1 ≤ n ∧ n ≤ image.header.sectorCount
  · rw [hproper.sound.readSector_eq hproper.size_lt hn.1 hn.2]
    exact Outcome.settles_ok _
  · rw [hproper.sound.readSector_outside hproper.size_lt hn]
    exact Outcome.settles_refuse _

end Image

theorem SectorMap.settles_unpack (raw : Bytes) : (SectorMap.unpack raw).Settles := by
  unfold unpack
  split
  · exact Outcome.settles_ok _
  · exact Outcome.settles_refuse _

/-! ### Boot records -/

namespace BootRecord

theorem settles_parse (bytes : Bytes) : (parse bytes).Settles := by
  unfold parse
  split
  · exact Outcome.settles_ok _
  · exact Outcome.settles_refuse _

theorem loadAddress_of_parse {bytes : Bytes} {r : BootRecord} (hparse : parse bytes = .ok r) :
    r.loadAddress < 65536 := by
  unfold parse at hparse
  split at hparse
  · rename_i flag count l₀ l₁ i₀ i₁ rest
    cases hparse
    simpa using Bytes.littleValue_lt [l₀, l₁]
  · simp at hparse

/-- The sectors to load are counted in a byte, so their end is a small number. -/
theorem settles_check {r : BootRecord} (hload : r.loadAddress < 65536) {size : Nat}
    (hsize : size ≤ 256) : (r.check size).Settles := by
  have hcount := r.sectorCount.toNat_lt
  have hlength : r.sectorCount.toNat * size ≤ 256 * 256 := Nat.mul_le_mul (by omega) hsize
  have hbound : Word.bound = 18446744073709551616 := rfl
  unfold check
  simp only
  split
  · exact Outcome.settles_refuse _
  · split
    · exact Outcome.settles_refuse _
    · split
      · exact Outcome.settles_refuse _
      · rw [Word.mul_eq_ok_iff.2 ⟨by omega, rfl⟩, Outcome.ok_bind,
          Word.add_eq_ok_iff.2 ⟨by omega, rfl⟩, Outcome.ok_bind]
        split
        · exact Outcome.settles_refuse _
        · exact Outcome.settles_ok _

theorem settles_ofImage {image : Image} (hproper : image.Proper) : (ofImage image).Settles :=
  (hproper.settles_readSector 1).bind fun bytes _ => settles_parse bytes

theorem settles_detect {image : Image} (hproper : image.Proper) : (detect image).Settles := by
  unfold detect
  refine (settles_ofImage hproper).bind fun r hr => ?_
  obtain ⟨bytes, _, hparse⟩ := Outcome.bind_eq_ok_iff.1 hr
  have hregular := hproper.fitted.regular
  have hsize := hproper.sound.imageSize_lt hproper.size_lt
  refine (Header.settles_locate hregular hsize 1).bind fun span hspan => ?_
  obtain ⟨_, rfl⟩ := (Header.locate_eq_ok_iff hregular hsize).1 hspan
  have hlength : (image.header.place 1).length ≤ 256 := hregular.length_place_le 1
  refine (settles_check (loadAddress_of_parse hparse) hlength).bind fun _ _ => ?_
  exact Outcome.settles_ok r

end BootRecord

namespace Console

open Image

section Raw

variable {image : Image} (hproper : image.Proper)

include hproper

theorem settles_mapText : (mapText image).Settles := by
  unfold mapText Volume.readMap
  refine Outcome.Settles.bind ?_ fun map _ => Outcome.settles_ok _
  exact (hproper.settles_readSector SectorMap.home).bind fun raw _ => SectorMap.settles_unpack raw

theorem settles_bootLines : (bootLines image).Settles := by
  unfold bootLines
  refine (BootRecord.settles_ofImage hproper).bind fun record _ => ?_
  have hdetect := BootRecord.settles_detect hproper
  cases hverdict : BootRecord.detect image with
  | ok found => exact Outcome.settles_ok _
  | error e =>
    obtain ⟨cause, rfl⟩ := hdetect.exists_refused hverdict
    exact Outcome.settles_ok _

end Raw

section Mounted

variable {v : Volume} (hloaded : v.Loaded)

include hloaded

theorem settles_volumeLines : (volumeLines v).Settles := by
  unfold volumeLines
  rw [hloaded.summary_eq, Outcome.ok_bind, hloaded.freeBytes_eq hloaded.summary_eq]
  exact Outcome.settles_ok _

theorem settles_listLines : (listLines v).Settles := by
  unfold listLines
  rw [hloaded.summary_eq]
  split
  · exact Outcome.settles_ok _
  · exact Outcome.settles_ok _

end Mounted

end Console

end AtariDisk
