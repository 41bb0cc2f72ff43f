import AtariDisk.Proofs.Image.Tiling
import Mathlib.Data.Nat.Find

/-!
# Runs of sectors

A run is some sectors in a row. Its bytes lie in a row as well, although boot sectors may be shorter
than the others (`place_add`), and none of them lies behind the end of the disk. Adding up sector
sizes gives the length of a run, and counting the sectors that some bytes take up gives the shortest
run that holds them. Both are refused for the first sector that the disk does not have.
-/

namespace AtariDisk

namespace Header

/-- Bytes in `count` sectors from `sector` on. -/
def runLength (h : Header) : (sector count : Nat) → Nat
  | _, 0 => 0
  | sector, count + 1 => (h.place sector).length + h.runLength (sector + 1) count

/-- Bytes in the sectors from this one to the last. -/
def bytesFrom (h : Header) (sector : Nat) : Nat :=
  h.runLength sector (h.sectorCount + 1 - sector)

/-- The disk has `count` sectors from `sector` on, and these are one at least. -/
def HasRun (h : Header) (sector count : Nat) : Prop :=
  1 ≤ count ∧ ∀ n, sector ≤ n → n < sector + count → h.hasSector n = .ok true

theorem runLength_add (h : Header) (sector first second : Nat) :
    h.runLength sector (first + second) =
      h.runLength sector first + h.runLength (sector + first) second := by
  induction first generalizing sector with
  | zero => simp [runLength]
  | succ first ih =>
    have hnext : sector + 1 + first = sector + (first + 1) := by omega
    rw [Nat.succ_add, runLength, runLength, ih, hnext, Nat.add_assoc]

theorem bytesFrom_of_le (h : Header) {sector : Nat} (hlast : sector ≤ h.sectorCount) :
    h.bytesFrom sector = (h.place sector).length + h.bytesFrom (sector + 1) := by
  have hstep : h.sectorCount + 1 - sector = h.sectorCount + 1 - (sector + 1) + 1 := by omega
  rw [bytesFrom, hstep, runLength, bytesFrom]

section Regular

variable {h : Header} (hregular : h.toGeometry.Regular)

include hregular

theorem runLength_lt {fewer count : Nat} (hless : fewer < count) (sector : Nat) :
    h.runLength sector fewer < h.runLength sector count := by
  obtain ⟨more, rfl⟩ := Nat.exists_eq_add_of_lt hless
  have hlong : 16 ≤ (h.place (sector + fewer)).length := le_length_place hregular _
  rw [Nat.add_assoc, runLength_add, runLength]
  omega

theorem runLength_le_bytesFrom {sector count : Nat} (hlast : sector + count ≤ h.sectorCount + 1) :
    h.runLength sector count ≤ h.bytesFrom sector := by
  rcases Nat.lt_or_eq_of_le (show count ≤ h.sectorCount + 1 - sector by omega) with hless | heq
  · exact Nat.le_of_lt (runLength_lt hregular hless sector)
  · exact Nat.le_of_eq (by rw [bytesFrom, heq])

theorem place_succ {sector : Nat} (hfirst : 1 ≤ sector) :
    (h.place (sector + 1)).offset = (h.place sector).offset + (h.place sector).length := by
  have hstep := hregular.place_succ hfirst
  simp only [place]
  omega

/-- A run ends where the sector behind it starts. -/
theorem place_add {sector : Nat} (hfirst : 1 ≤ sector) (count : Nat) :
    (h.place (sector + count)).offset = (h.place sector).offset + h.runLength sector count := by
  induction count generalizing sector with
  | zero => rfl
  | succ count ih =>
    have hnext : sector + (count + 1) = sector + 1 + count := by omega
    rw [hnext, ih (by omega), place_succ hregular hfirst, runLength, Nat.add_assoc]

/-- The first sectors, as many of them short as the disk has short ones. -/
theorem runLength_one_eq (count : Nat) :
    h.runLength 1 count =
      min count h.bootSectors * h.bootSectorSize + (count - h.bootSectors) * h.sectorSize := by
  have hfirst := hregular.first
  have hstart := offset_place_one hregular
  have hend := place_add hregular (Nat.le_refl 1) count
  have hindex : 1 + count - h.firstSector = count := by omega
  rw [hstart, place, Geometry.place, hindex] at hend
  by_cases hshort : count < h.bootSectors
  · rw [if_pos hshort] at hend
    rw [Nat.min_eq_left (Nat.le_of_lt hshort), Nat.sub_eq_zero_of_le (Nat.le_of_lt hshort)]
    simp only at hend
    omega
  · rw [if_neg hshort] at hend
    rw [Nat.min_eq_right (Nat.le_of_not_lt hshort)]
    simp only at hend
    omega

/-- A byte of a run lies in one of its sectors. -/
theorem exists_covers {sector count i : Nat} (hfirst : 1 ≤ sector)
    (hstart : (h.place sector).offset ≤ i)
    (hend : i < (h.place sector).offset + h.runLength sector count) :
    ∃ n, sector ≤ n ∧ n < sector + count ∧ (h.place n).Covers i := by
  induction count generalizing sector with
  | zero =>
    rw [runLength] at hend
    omega
  | succ count ih =>
    rw [runLength, ← Nat.add_assoc] at hend
    by_cases hhere : i < (h.place sector).offset + (h.place sector).length
    · exact ⟨sector, Nat.le_refl _, by omega, hstart, hhere⟩
    · rw [← place_succ hregular hfirst] at hhere hend
      obtain ⟨n, hn, hlast, hcovers⟩ := ih (by omega) (by omega) hend
      exact ⟨n, by omega, by omega, hcovers⟩

/-- No run reaches behind the end of the disk. -/
theorem bytesFrom_inside {sector : Nat} (hfirst : 1 ≤ sector) (hlast : sector ≤ h.sectorCount + 1) :
    (h.place sector).offset + h.bytesFrom sector ≤ h.length + h.imageSize := by
  have hstop : (h.place (h.sectorCount + 1)).offset ≤ h.length + h.imageSize := by
    have hfits := hregular.fits
    rw [← hregular.place_stop] at hfits
    simp only [place]
    omega
  calc (h.place sector).offset + h.bytesFrom sector
      = (h.place (sector + (h.sectorCount + 1 - sector))).offset :=
        (place_add hregular hfirst _).symm
    _ = (h.place (h.sectorCount + 1)).offset := by rw [Nat.add_sub_cancel' hlast]
    _ ≤ h.length + h.imageSize := hstop

variable (hsize : h.imageSize < Word.bound)

include hsize

theorem hasSector_iff {n : Nat} : h.hasSector n = .ok true ↔ 1 ≤ n ∧ n ≤ h.sectorCount := by
  rw [hregular.hasSector_eq (hregular.countable hsize), Except.ok.injEq, decide_eq_true_eq]

theorem hasRun_iff {sector count : Nat} :
    h.HasRun sector count ↔ 1 ≤ count ∧ 1 ≤ sector ∧ sector + count ≤ h.sectorCount + 1 := by
  constructor
  · rintro ⟨hcount, hall⟩
    have hfirst := (hasSector_iff hregular hsize).1 (hall sector (Nat.le_refl _) (by omega))
    have hlast := (hasSector_iff hregular hsize).1 (hall (sector + count - 1) (by omega) (by omega))
    exact ⟨hcount, hfirst.1, by omega⟩
  · rintro ⟨hcount, hfirst, hlast⟩
    refine ⟨hcount, ?_⟩
    intro n hn hend
    exact (hasSector_iff hregular hsize).2 (by omega)

/-! ### Adding up sector sizes -/

/-- As long as a run stays on the disk, its sector sizes add up to its length. -/
theorem addLengths_eq {sector count total : Nat} (hfirst : 1 ≤ sector)
    (hlast : sector + count ≤ h.sectorCount + 1)
    (htotal : total + h.runLength sector count < Word.bound) :
    h.addLengths sector count total = .ok (total + h.runLength sector count) := by
  induction count generalizing sector total with
  | zero => rfl
  | succ count ih =>
    rw [runLength, ← Nat.add_assoc] at htotal ⊢
    rw [addLengths, locate_eq_place hregular hsize hfirst (by omega), Outcome.ok_bind,
      Word.add_eq_ok_iff.2 ⟨by omega, rfl⟩, Outcome.ok_bind, ih (by omega) (by omega) htotal]

/-- A run that leaves the disk is refused for the first sector that is not there. -/
theorem addLengths_past {sector count total : Nat} (hfirst : 1 ≤ sector)
    (hlast : sector ≤ h.sectorCount + 1) (hpast : h.sectorCount + 1 < sector + count)
    (htotal : total + h.bytesFrom sector < Word.bound) :
    h.addLengths sector count total =
      refuse (.sectorOutOfRange (h.sectorCount + 1) 1 h.sectorCount) := by
  induction count generalizing sector total with
  | zero => omega
  | succ count ih =>
    rw [addLengths]
    by_cases hend : sector = h.sectorCount + 1
    · rw [locate_outside hregular hsize (by omega), Outcome.refuse_bind, hend]
    · rw [h.bytesFrom_of_le (by omega), ← Nat.add_assoc] at htotal
      rw [locate_eq_place hregular hsize hfirst (by omega), Outcome.ok_bind,
        Word.add_eq_ok_iff.2 ⟨by omega, rfl⟩, Outcome.ok_bind,
        ih (by omega) (by omega) (by omega) htotal]

theorem region_eq (sector count : Nat) :
    h.region sector count =
      if 1 ≤ sector ∧ sector ≤ h.sectorCount then
        if Word.bound ≤ sector + count then trap .overflow
        else if sector + count ≤ h.sectorCount + 1 then
          .ok ⟨(h.place sector).offset, h.runLength sector count⟩
        else refuse (.sectorOutOfRange (h.sectorCount + 1) 1 h.sectorCount)
      else refuse (.sectorOutOfRange sector 1 h.sectorCount) := by
  unfold region
  by_cases hon : 1 ≤ sector ∧ sector ≤ h.sectorCount
  · have hfrom : h.bytesFrom sector < Word.bound := by
      have hinside := bytesFrom_inside hregular hon.1 (by omega)
      have hlead : h.length ≤ (h.place sector).offset := Nat.le_add_left ..
      omega
    rw [if_pos hon, locate_eq_place hregular hsize hon.1 hon.2, Outcome.ok_bind]
    split
    · rename_i hlarge
      rw [Word.add, if_neg (by omega)]
      rfl
    · rename_i hword
      rw [Word.add_eq_ok_iff.2 ⟨by omega, rfl⟩, Outcome.ok_bind]
      split
      · rename_i hlast
        have hlength := runLength_le_bytesFrom hregular hlast
        rw [addLengths_eq hregular hsize hon.1 hlast (by omega), Outcome.ok_bind, Nat.zero_add]
        rfl
      · rw [addLengths_past hregular hsize hon.1 (by omega) (by omega) (by omega)]
        rfl
  · rw [if_neg hon, locate_outside hregular hsize hon]
    rfl

end Regular

/-! ### Counting the sectors that bytes take up -/

theorem countCovering_of_le (h : Header) {wanted covered : Nat} (hdone : wanted ≤ covered)
    (sector : Nat) : h.countCovering wanted sector covered = .ok 0 := by
  rw [countCovering, if_pos hdone]

theorem countCovering_of_lt (h : Header) {wanted covered : Nat} (hmore : covered < wanted)
    (sector : Nat) :
    h.countCovering wanted sector covered = (do
      let span ← h.locate sector
      let covered ← Word.add covered span.length
      let rest ← h.countCovering wanted (sector + 1) covered
      return rest + 1) := by
  rw [countCovering, if_neg (by omega)]
  split
  · rename_i hlocate
    rw [hlocate]
    rfl
  · rename_i hlocate
    rw [hlocate]
    rfl

section Regular

variable {h : Header} (hregular : h.toGeometry.Regular) (hsize : h.imageSize < Word.bound)

include hregular hsize

/-- No more sectors are counted than are needed to hold all the bytes. -/
theorem countCovering_eq {wanted sector count covered : Nat} (hfirst : 1 ≤ sector)
    (hlast : sector + count ≤ h.sectorCount + 1)
    (hword : covered + h.runLength sector count < Word.bound)
    (henough : wanted ≤ covered + h.runLength sector count)
    (hneeded : ∀ fewer < count, covered + h.runLength sector fewer < wanted) :
    h.countCovering wanted sector covered = .ok count := by
  induction count generalizing sector covered with
  | zero => exact countCovering_of_le h henough sector
  | succ count ih =>
    rw [runLength, ← Nat.add_assoc] at hword henough
    have hrest : ∀ fewer < count,
        covered + (h.place sector).length + h.runLength (sector + 1) fewer < wanted := by
      intro fewer hfewer
      have hstep := hneeded (fewer + 1) (by omega)
      rwa [runLength, ← Nat.add_assoc] at hstep
    have hmore : covered < wanted := hneeded 0 (by omega)
    rw [countCovering_of_lt h hmore, locate_eq_place hregular hsize hfirst (by omega),
      Outcome.ok_bind, Word.add_eq_ok_iff.2 ⟨by omega, rfl⟩, Outcome.ok_bind,
      ih (by omega) (by omega) hword henough hrest]
    rfl

theorem countCovering_past {wanted sector covered : Nat} (hfirst : 1 ≤ sector)
    (hlast : sector ≤ h.sectorCount + 1) (hword : covered + h.bytesFrom sector < Word.bound)
    (hshort : covered + h.bytesFrom sector < wanted) :
    h.countCovering wanted sector covered =
      refuse (.sectorOutOfRange (h.sectorCount + 1) 1 h.sectorCount) := by
  -- The sectors that are left, down to none: behind the last one the search is refused.
  obtain ⟨left, hleft⟩ : ∃ left, left + sector = h.sectorCount + 1 := ⟨_, Nat.sub_add_cancel hlast⟩
  induction left generalizing sector covered with
  | zero =>
    rw [countCovering_of_lt h (by omega), locate_outside hregular hsize (by omega),
      Outcome.refuse_bind]
    congr 2
    omega
  | succ left ih =>
    rw [h.bytesFrom_of_le (by omega), ← Nat.add_assoc] at hword hshort
    rw [countCovering_of_lt h (by omega), locate_eq_place hregular hsize hfirst (by omega),
      Outcome.ok_bind, Word.add_eq_ok_iff.2 ⟨by omega, rfl⟩, Outcome.ok_bind,
      ih (by omega) (by omega) hword hshort (by omega), Outcome.refuse_bind]

theorem countCovering_outside {wanted sector : Nat} (hwanted : 0 < wanted)
    (houtside : ¬(1 ≤ sector ∧ sector ≤ h.sectorCount)) :
    h.countCovering wanted sector 0 = refuse (.sectorOutOfRange sector 1 h.sectorCount) := by
  rw [countCovering_of_lt h hwanted, locate_outside hregular hsize houtside, Outcome.refuse_bind]

/-- Bytes that the disk has room for end in one of its sectors. -/
theorem exists_least_run {sector length : Nat} (hfirst : 1 ≤ sector)
    (hlast : sector ≤ h.sectorCount) (hlength : 0 < length) (hroom : length ≤ h.bytesFrom sector) :
    ∃ count, h.HasRun sector (count + 1) ∧ h.runLength sector count < length ∧
      length ≤ h.runLength sector (count + 1) := by
  have hexists : ∃ count, length ≤ h.runLength sector count := ⟨_, hroom⟩
  obtain ⟨count, hcount⟩ : ∃ count, Nat.find hexists = count + 1 := by
    apply Nat.exists_eq_add_one_of_ne_zero
    intro hzero
    have hnone := Nat.find_spec hexists
    rw [hzero, runLength] at hnone
    omega
  have henough := Nat.find_spec hexists
  have hleast : Nat.find hexists ≤ h.sectorCount + 1 - sector := Nat.find_min' hexists hroom
  have hbefore : ¬length ≤ h.runLength sector count := Nat.find_min hexists (by omega)
  rw [hcount] at henough hleast
  exact ⟨count, (hasRun_iff hregular hsize).2 (by omega), by omega, henough⟩

end Regular

end Header

end AtariDisk
