import AtariDisk.Header
import AtariDisk.Proofs.Outcome

/-!
# Sectors tile the disk

Every geometry that fitting produces is regular: sectors count from one, all have one size but for
at most three short boot sectors, and together they fit into the disk. On a regular geometry `place`
says where a sector lies, `locate` answers just that, and consecutive places are adjacent.
-/

namespace AtariDisk

namespace Geometry

/-- The geometries that fitting produces. -/
structure Regular (g : Geometry) : Prop where
  first : g.firstSector = 1
  size : g.sectorSize = 128 ∨ g.sectorSize = 256
  boot : g.bootSectors = 0 ∨ g.bootSectors = 3 ∧ g.bootSectorSize = 128
  boot_le : g.bootSectors ≤ g.sectorCount
  fits : g.bootSectors * g.bootSectorSize + (g.sectorCount - g.bootSectors) * g.sectorSize
    ≤ g.imageSize

/-- Where a sector lies behind the start of the first one, all arithmetic being exact. -/
def place (g : Geometry) (sector : Nat) : Span :=
  if sector - g.firstSector < g.bootSectors then
    ⟨(sector - g.firstSector) * g.bootSectorSize, g.bootSectorSize⟩
  else
    ⟨g.bootSectors * g.bootSectorSize
      + (sector - g.firstSector - g.bootSectors) * g.sectorSize, g.sectorSize⟩

/-- How the layout of a disk is found. -/
theorem Layout.ofSize_inv (hint size : Nat) :
    (size = singleDensityBytes ∧ ofSize hint size = uniform 128) ∨
    (size = doubleDensityBytes ∧ ofSize hint size = uniform 256) ∨
    (size = shortBootDensityBytes ∧ ofSize hint size = shortBoot) ∨
    (hint = 256 ∧ 384 < size ∧ (size - 384) % 256 = 0 ∧ ofSize hint size = shortBoot) ∨
    ofSize hint size = uniform hint := by
  unfold ofSize
  split
  · rename_i hsize
    exact .inl ⟨hsize, rfl⟩
  · split
    · rename_i hsize
      exact .inr (.inl ⟨hsize, rfl⟩)
    · split
      · rename_i hsize
        exact .inr (.inr (.inl ⟨hsize, rfl⟩))
      · split
        · rename_i heven
          exact .inr (.inr (.inr (.inl ⟨heven.1, heven.2.1, heven.2.2, rfl⟩)))
        · exact .inr (.inr (.inr (.inr rfl)))

/-- Short boot sectors are assumed only where there is room for them. -/
theorem Layout.bootBytes_le (hint size : Nat) : (ofSize hint size).bootBytes ≤ size := by
  have hshort : shortBoot.bootBytes = 384 := rfl
  rcases ofSize_inv hint size with ⟨_, h⟩ | ⟨_, h⟩ | ⟨rfl, h⟩ | ⟨_, hlarge, _, h⟩ | h
  · rw [h]
    exact Nat.zero_le _
  · rw [h]
    exact Nat.zero_le _
  · rw [h, hshort]
    decide
  · rw [h, hshort]
    omega
  · rw [h, bootBytes, uniform, Nat.zero_mul]
    exact Nat.zero_le _

/-- The bytes that a layout leaves over are too few for another sector, also for one of the size
hinted at. -/
theorem Layout.rest_lt {hint : Nat} (hpositive : 0 < hint) (size : Nat) :
    (size - (ofSize hint size).bootBytes) % (ofSize hint size).sectorSize <
      min hint (ofSize hint size).sectorSize := by
  have hnone : ∀ {rest unit : Nat}, 0 < unit → rest % unit = 0 → rest % unit < min hint unit := by
    intro rest unit hunit heven
    omega
  rcases ofSize_inv hint size with ⟨rfl, h⟩ | ⟨rfl, h⟩ | ⟨rfl, h⟩ | ⟨_, _, heven, h⟩ | h
  · rw [h]
    exact hnone (by decide) (by decide)
  · rw [h]
    exact hnone (by decide) (by decide)
  · rw [h]
    exact hnone (by decide) (by decide)
  · rw [h]
    exact hnone (by decide) heven
  · rw [h, uniform, Nat.min_self]
    exact Nat.mod_lt _ hpositive

/-- The sector size that was found is as good a hint as the one it was found with. -/
theorem Layout.ofSize_sectorSize (hint size : Nat) :
    ofSize (ofSize hint size).sectorSize size = ofSize hint size := by
  rcases ofSize_inv hint size with ⟨rfl, h⟩ | ⟨rfl, h⟩ | ⟨rfl, h⟩ | ⟨rfl, _, _, h⟩ | h
  · rw [h]
    rfl
  · rw [h]
    rfl
  · rw [h]
    rfl
  · rw [h]
    exact h
  · rw [h]
    exact h

theorem Layout.sectorSize_cases {hint : Nat} (hhint : hint = 128 ∨ hint = 256) (size : Nat) :
    (ofSize hint size).sectorSize = 128 ∨ (ofSize hint size).sectorSize = 256 := by
  rcases ofSize_inv hint size with ⟨_, h⟩ | ⟨_, h⟩ | ⟨_, h⟩ | ⟨_, _, _, h⟩ | h
  · exact .inl (by rw [h]; rfl)
  · exact .inr (by rw [h]; rfl)
  · exact .inr (by rw [h]; rfl)
  · exact .inr (by rw [h]; rfl)
  · rw [h]
    exact hhint

/-- Fitting looks at nothing but the layout. -/
theorem fit_congr {g f : Geometry} {size : Nat} (hfirst : g.firstSector = f.firstSector)
    (hlayout : Layout.ofSize g.sectorSize size = Layout.ofSize f.sectorSize size) :
    g.fit size = f.fit size := by
  unfold fit
  rw [hlayout, hfirst]

/-- Any number of bytes makes a disk. -/
theorem exists_fit {g : Geometry} (hsize : g.sectorSize = 128 ∨ g.sectorSize = 256) (size : Nat) :
    ∃ fitted, g.fit size = .ok fitted := by
  have hboot := Layout.bootBytes_le g.sectorSize size
  have hsector := Layout.sectorSize_cases hsize size
  unfold fit
  simp only
  rw [if_neg (by omega)]
  exact ⟨_, rfl⟩

/-- Sector sizes and counts are those of the layout. -/
theorem layout_of_fit {g fitted : Geometry} {size : Nat} (hfit : g.fit size = .ok fitted) :
    (⟨fitted.sectorSize, fitted.bootSectorSize, fitted.bootSectors⟩ : Layout) =
        Layout.ofSize g.sectorSize size ∧
      fitted.sectorCount = (size - (Layout.ofSize g.sectorSize size).bootBytes) /
        fitted.sectorSize + fitted.bootSectors := by
  unfold fit at hfit
  simp only at hfit
  split at hfit
  · exact absurd hfit (Outcome.refuse_ne_ok _ _)
  · rw [← Except.ok.inj hfit]
    exact ⟨rfl, rfl⟩

theorem sectorSize_of_fit {g fitted : Geometry} {size : Nat} (hfit : g.fit size = .ok fitted) :
    fitted.sectorSize = (Layout.ofSize g.sectorSize size).sectorSize :=
  congrArg Layout.sectorSize (layout_of_fit hfit).1

/-- A disk is not large enough for another sector. -/
theorem rest_lt_of_fit {g fitted : Geometry} {size : Nat} (hpositive : 0 < g.sectorSize)
    (hfit : g.fit size = .ok fitted) :
    size < fitted.bootSectors * fitted.bootSectorSize +
      (fitted.sectorCount - fitted.bootSectors) * fitted.sectorSize +
        min g.sectorSize fitted.sectorSize := by
  have hrest := Layout.rest_lt hpositive size
  have hboot := Layout.bootBytes_le g.sectorSize size
  unfold fit at hfit
  generalize Layout.ofSize g.sectorSize size = layout at hrest hboot hfit
  simp only at hfit
  split at hfit
  · exact absurd hfit (Outcome.refuse_ne_ok _ _)
  · rw [← Except.ok.inj hfit]
    have hdivision := Nat.div_add_mod' (size - layout.bootBytes) layout.sectorSize
    have hbytes : layout.bootSectors * layout.bootSectorSize = layout.bootBytes :=
      Nat.mul_comm _ _
    simp only [Nat.add_sub_cancel, hbytes]
    omega

theorem regular_of_fit {g fitted : Geometry} {size : Nat} (hfirst : g.firstSector = 1)
    (hsize : g.sectorSize = 128 ∨ g.sectorSize = 256) (hfit : g.fit size = .ok fitted) :
    fitted.Regular ∧ fitted.imageSize = size := by
  have hlayout : Layout.ofSize g.sectorSize size = .uniform 128 ∨
      Layout.ofSize g.sectorSize size = .uniform 256 ∨
      Layout.ofSize g.sectorSize size = .shortBoot := by
    rcases Layout.ofSize_inv g.sectorSize size with ⟨_, h⟩ | ⟨_, h⟩ | ⟨_, h⟩ | ⟨_, _, _, h⟩ | h
    · exact .inl h
    · exact .inr (.inl h)
    · exact .inr (.inr h)
    · exact .inr (.inr h)
    · rcases hsize with hs | hs
      · exact .inl (by rw [h, hs])
      · exact .inr (.inl (by rw [h, hs]))
  unfold fit at hfit
  generalize Layout.ofSize g.sectorSize size = layout at hlayout hfit
  simp only at hfit
  split at hfit
  · exact absurd hfit (Outcome.refuse_ne_ok _ _)
  · rename_i hlarge
    simp only [Except.ok.injEq] at hfit
    subst hfit
    refine ⟨⟨hfirst, ?_, ?_, ?_, ?_⟩, rfl⟩
    · rcases hlayout with rfl | rfl | rfl
      · exact .inl rfl
      · exact .inr rfl
      · exact .inr rfl
    · rcases hlayout with rfl | rfl | rfl
      · exact .inl rfl
      · exact .inl rfl
      · exact .inr ⟨rfl, rfl⟩
    · exact Nat.le_add_left _ _
    · have hwhole := Nat.div_mul_le_self (size - layout.bootBytes) layout.sectorSize
      have hboot : layout.bootSectors * layout.bootSectorSize = layout.bootBytes :=
        Nat.mul_comm _ _
      simp only [Nat.add_sub_cancel, hboot]
      omega

/-- The geometry is what fitting a disk to its bytes comes to. -/
def Fitted (g : Geometry) : Prop :=
  ∃ blank : Geometry, blank.firstSector = 1 ∧
    (blank.sectorSize = 128 ∨ blank.sectorSize = 256) ∧ blank.fit g.imageSize = .ok g

theorem Fitted.regular {g : Geometry} (hfitted : g.Fitted) : g.Regular := by
  obtain ⟨blank, hfirst, hsize, hfit⟩ := hfitted
  exact (regular_of_fit hfirst hsize hfit).1

theorem Fitted.of_fit {g fitted : Geometry} {size : Nat} (hfirst : g.firstSector = 1)
    (hsize : g.sectorSize = 128 ∨ g.sectorSize = 256) (hfit : g.fit size = .ok fitted) :
    fitted.Fitted ∧ fitted.imageSize = size := by
  have himage := (regular_of_fit hfirst hsize hfit).2
  refine ⟨⟨g, hfirst, hsize, ?_⟩, himage⟩
  rw [himage, hfit]

/-- Fitting a disk again changes nothing: its sector size is all the hint that is needed. -/
theorem Fitted.refit {g again : Geometry} (hfitted : g.Fitted) (hfirst : again.firstSector = 1)
    (hsize : again.sectorSize = g.sectorSize) : again.fit g.imageSize = .ok g := by
  obtain ⟨blank, hblank, _, hfit⟩ := hfitted
  have hlayout : Layout.ofSize again.sectorSize g.imageSize =
      Layout.ofSize blank.sectorSize g.imageSize := by
    rw [hsize, sectorSize_of_fit hfit, Layout.ofSize_sectorSize]
  rw [fit_congr (hfirst.trans hblank.symm) hlayout, hfit]

/-- Boot sectors are short on disks of double density only. -/
theorem Fitted.boot_cases {g : Geometry} (hfitted : g.Fitted) :
    g.bootSectors = 0 ∨ g.bootSectors = 3 ∧ g.bootSectorSize = 128 ∧ g.sectorSize = 256 := by
  obtain ⟨blank, _, _, hfit⟩ := hfitted
  obtain ⟨hlayout, _⟩ := layout_of_fit hfit
  have hshort : Layout.ofSize blank.sectorSize g.imageSize = .shortBoot →
      g.bootSectors = 3 ∧ g.bootSectorSize = 128 ∧ g.sectorSize = 256 := by
    intro h
    injection hlayout.trans h with hsize hboot hcount
    exact ⟨hcount, hboot, hsize⟩
  rcases Layout.ofSize_inv blank.sectorSize g.imageSize with
    ⟨_, h⟩ | ⟨_, h⟩ | ⟨_, h⟩ | ⟨_, _, _, h⟩ | h
  · exact .inl (congrArg Layout.bootSectors (hlayout.trans h))
  · exact .inl (congrArg Layout.bootSectors (hlayout.trans h))
  · exact .inr (hshort h)
  · exact .inr (hshort h)
  · exact .inl (congrArg Layout.bootSectors (hlayout.trans h))

theorem Fitted.rest_lt {g : Geometry} (hfitted : g.Fitted) :
    g.imageSize < g.bootSectors * g.bootSectorSize +
      (g.sectorCount - g.bootSectors) * g.sectorSize + g.sectorSize := by
  obtain ⟨blank, _, hsize, hfit⟩ := hfitted
  have hrest := rest_lt_of_fit (by omega) hfit
  omega

section Regular

variable {g : Geometry} (hg : g.Regular)

include hg

theorem Regular.length_place {sector : Nat} (hsector : 3 < sector) :
    (g.place sector).length = g.sectorSize := by
  have hfirst := hg.first
  have hboot := hg.boot
  unfold place
  rw [if_neg (by omega)]

theorem Regular.place_succ {sector : Nat} (hsector : 1 ≤ sector) :
    (g.place (sector + 1)).offset = (g.place sector).offset + (g.place sector).length := by
  have hfirst := hg.first
  unfold place
  by_cases hlast : sector < g.bootSectors
  · rw [if_pos (by omega), if_pos (by omega)]
    have hstep : sector + 1 - g.firstSector = (sector - g.firstSector) + 1 := by omega
    simp only [hstep, Nat.succ_mul]
  · rw [if_neg (by omega)]
    by_cases hedge : sector = g.bootSectors
    · have hstep : sector - g.firstSector + 1 = g.bootSectors := by omega
      rw [if_pos (by omega)]
      have hnone : sector + 1 - g.firstSector - g.bootSectors = 0 := by omega
      have hall : g.bootSectors * g.bootSectorSize =
          (sector - g.firstSector) * g.bootSectorSize + g.bootSectorSize := by
        rw [← hstep, Nat.succ_mul]
      simp only [hnone, Nat.zero_mul, Nat.add_zero, hall]
    · have hstep : sector + 1 - g.firstSector - g.bootSectors =
          (sector - g.firstSector - g.bootSectors) + 1 := by omega
      rw [if_neg (by omega)]
      simp only [hstep, Nat.succ_mul]
      omega

/-- A sector ends before any later one starts. -/
theorem Regular.place_end_le {sector later : Nat} (hsector : 1 ≤ sector) (hlater : sector < later) :
    (g.place sector).offset + (g.place sector).length ≤ (g.place later).offset := by
  induction later with
  | zero => omega
  | succ later ih =>
    have hstep : (g.place (later + 1)).offset = (g.place later).offset + (g.place later).length :=
      hg.place_succ (by omega)
    by_cases hnext : sector = later
    · rw [hnext]
      exact Nat.le_of_eq hstep.symm
    · calc (g.place sector).offset + (g.place sector).length
          ≤ (g.place later).offset := ih (by omega)
        _ ≤ (g.place later).offset + (g.place later).length := Nat.le_add_right ..
        _ = (g.place (later + 1)).offset := hstep.symm

/-- Where the last sector ends. -/
theorem Regular.place_stop : (g.place (g.sectorCount + 1)).offset =
    g.bootSectors * g.bootSectorSize + (g.sectorCount - g.bootSectors) * g.sectorSize := by
  have hfirst := hg.first
  have hbootLe := hg.boot_le
  have hcount : g.sectorCount + 1 - g.firstSector - g.bootSectors =
      g.sectorCount - g.bootSectors := by omega
  unfold place
  rw [if_neg (by omega), hcount]

/-- Every sector of the disk lies inside of it. -/
theorem Regular.place_inside {sector : Nat} (hsector : 1 ≤ sector)
    (hlast : sector ≤ g.sectorCount) :
    (g.place sector).offset + (g.place sector).length ≤ g.imageSize := by
  have hstop : (g.place (g.sectorCount + 1)).offset ≤ g.imageSize := by
    rw [hg.place_stop]
    exact hg.fits
  calc (g.place sector).offset + (g.place sector).length
      ≤ (g.place (g.sectorCount + 1)).offset := by
        apply hg.place_end_le hsector
        omega
    _ ≤ g.imageSize := hstop

/-- Sectors with a number of 16 bits lie far below the numbers that do not fit into a word. -/
theorem Regular.place_offset_lt {sector : Nat} (hsector : sector < 65536) :
    (g.place sector).offset < 65536 * 256 := by
  have hfirst := hg.first
  have hsize := hg.size
  have hboot := hg.boot
  unfold place
  split
  · rcases hboot with hnone | ⟨hthree, hshort⟩
    · omega
    · simp only [hshort]
      omega
  · rcases hboot with hnone | ⟨hthree, hshort⟩
    · rcases hsize with hs | hs
      · simp only [hnone, hs]
        omega
      · simp only [hnone, hs]
        omega
    · rcases hsize with hs | hs
      · simp only [hthree, hshort, hs]
        omega
      · simp only [hthree, hshort, hs]
        omega

/-- The sectors of a disk can be counted if its bytes can. -/
theorem Regular.countable (hsize : g.imageSize < Word.bound) : g.sectorCount + 1 < Word.bound := by
  have hbound : Word.bound = 18446744073709551616 := rfl
  have hfits := hg.fits
  have hboot := hg.boot
  rcases hg.size with hs | hs
  · rw [hs] at hfits
    omega
  · rw [hs] at hfits
    omega

theorem Regular.lastSector_eq (hcount : g.sectorCount + 1 < Word.bound) :
    g.lastSector = .ok g.sectorCount := by
  have hfirst := hg.first
  unfold lastSector
  rw [Word.add_eq_ok_iff.2 ⟨by omega, rfl⟩, hfirst]
  simp

theorem Regular.lastSector_eq_ok_iff {last : Nat} :
    g.lastSector = .ok last ↔ g.sectorCount + 1 < Word.bound ∧ last = g.sectorCount := by
  have hfirst := hg.first
  constructor
  · intro hlast
    obtain ⟨stop, hstop, hpred⟩ := Outcome.bind_eq_ok_iff.1 hlast
    obtain ⟨hcount, rfl⟩ := Word.add_eq_ok_iff.1 hstop
    simp only [Outcome.pure_eq_ok, Except.ok.injEq] at hpred
    omega
  · rintro ⟨hcount, rfl⟩
    exact hg.lastSector_eq hcount

theorem Regular.hasSector_eq (hcount : g.sectorCount + 1 < Word.bound) (sector : Nat) :
    g.hasSector sector = .ok (decide (1 ≤ sector ∧ sector ≤ g.sectorCount)) := by
  have hfirst := hg.first
  unfold hasSector
  by_cases hzero : sector < g.firstSector
  · rw [if_pos hzero]
    simp only [Except.ok.injEq]
    symm
    simp only [decide_eq_false_iff_not]
    omega
  · rw [if_neg hzero, Word.add_eq_ok_iff.2 ⟨by omega, rfl⟩]
    simp only [Outcome.ok_bind, Outcome.pure_eq_ok, Except.ok.injEq, decide_eq_decide]
    omega

theorem Regular.locate_eq (hcount : g.sectorCount + 1 < Word.bound) {sector : Nat}
    (hsector : 1 ≤ sector) (hlast : sector ≤ g.sectorCount)
    (hsmall : (g.place sector).offset < Word.bound) :
    g.locate sector = .ok (g.place sector) := by
  unfold locate
  rw [hg.hasSector_eq hcount]
  simp only [hsector, hlast, and_self, decide_true, Outcome.ok_bind, if_true]
  unfold place at hsmall ⊢
  split
  · rename_i hboot
    rw [if_pos hboot] at hsmall
    rw [Word.mul_eq_ok_iff.2 ⟨hsmall, rfl⟩]
    rfl
  · rename_i hboot
    rw [if_neg hboot] at hsmall
    simp only at hsmall
    rw [Word.mul_eq_ok_iff.2 ⟨by omega, rfl⟩, Outcome.ok_bind,
      Word.mul_eq_ok_iff.2 ⟨by omega, rfl⟩, Outcome.ok_bind, Word.add_eq_ok_iff.2 ⟨hsmall, rfl⟩]
    rfl

theorem Regular.locate_outside (hcount : g.sectorCount + 1 < Word.bound) {sector : Nat}
    (houtside : ¬(1 ≤ sector ∧ sector ≤ g.sectorCount)) :
    g.locate sector = refuse (.sectorOutOfRange sector 1 g.sectorCount) := by
  unfold locate outOfRange
  rw [hg.hasSector_eq hcount, hg.lastSector_eq hcount, hg.first]
  simp only [houtside, decide_false, Outcome.ok_bind]
  rfl

end Regular

end Geometry

end AtariDisk
