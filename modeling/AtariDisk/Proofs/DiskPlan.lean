import AtariDisk.DiskPlan
import AtariDisk.Proofs.Header.Codec

/-!
# What becomes of a plan

A plan tells its header nothing but a number of bytes and a sector size, and the header finds out
the rest from these. It comes to what was asked for, except where the bytes are those of a common
disk of the other density, or too few for short boot sectors to be noticed.
-/

namespace AtariDisk

namespace Geometry

theorem Layout.ofSize_of_silent {size : Nat} (hsilent : size ∉ tellingSizes) (hint : Nat) :
    ofSize hint size =
      if hint = 256 ∧ 384 < size ∧ (size - 384) % 256 = 0 then shortBoot else uniform hint := by
  simp only [tellingSizes, List.mem_cons, List.not_mem_nil, or_false, not_or] at hsilent
  obtain ⟨hsingle, hshort, hdouble⟩ := hsilent
  unfold ofSize
  rw [if_neg hsingle, if_neg hdouble, if_neg hshort]
  rfl

theorem mem_tellingSizes {size : Nat} :
    size ∈ tellingSizes ↔ size = 92160 ∨ size = 183936 ∨ size = 184320 := by
  simp only [tellingSizes, singleDensityBytes, shortBootDensityBytes, doubleDensityBytes,
    List.mem_cons, List.not_mem_nil, or_false]

theorem Layout.ofSize_single {n : Nat} (hshort : n ≠ 1437) (hdouble : n ≠ 1440) :
    ofSize 128 (n * 128) = uniform 128 := by
  by_cases hcommon : n = 720
  · rw [hcommon]
    rfl
  · rw [ofSize_of_silent (by rw [mem_tellingSizes]; omega), if_neg (by omega)]

/-- Sectors of 256 bytes never leave 128 bytes over, as short boot sectors do. -/
theorem Layout.ofSize_double {n : Nat} (hsingle : n ≠ 360) :
    ofSize 256 (n * 256) = uniform 256 := by
  by_cases hcommon : n = 720
  · rw [hcommon]
    rfl
  · rw [ofSize_of_silent (by rw [mem_tellingSizes]; omega), if_neg (by omega)]

theorem Layout.ofSize_short {n : Nat} (hlong : 3 < n) :
    ofSize 256 (3 * 128 + (n - 3) * 256) = shortBoot := by
  by_cases hcommon : n = 720
  · rw [hcommon]
    rfl
  · rw [ofSize_of_silent (by rw [mem_tellingSizes]; omega), if_pos (by omega)]

/-- Too few bytes for anything to follow the boot sectors. -/
theorem Layout.ofSize_few {n : Nat} (hfew : n ≤ 3) : ofSize 256 (n * 128) = uniform 256 := by
  rw [ofSize_of_silent (by rw [mem_tellingSizes]; omega), if_neg (by omega)]

theorem fit_of_uniform {g fitted : Geometry} {size unit : Nat} (hfit : g.fit size = .ok fitted)
    (hlayout : Layout.ofSize g.sectorSize size = .uniform unit) :
    fitted.sectorSize = unit ∧ fitted.bootSectors = 0 ∧ fitted.sectorCount = size / unit := by
  obtain ⟨hfields, hcount⟩ := layout_of_fit hfit
  rw [hlayout] at hfields hcount
  injection hfields with hsize _ hboot
  refine ⟨hsize, hboot, ?_⟩
  rw [hcount, hsize, hboot, Layout.bootBytes, Layout.uniform, Nat.zero_mul]
  rfl

theorem fit_of_shortBoot {g fitted : Geometry} {size : Nat} (hfit : g.fit size = .ok fitted)
    (hlayout : Layout.ofSize g.sectorSize size = .shortBoot) :
    fitted.sectorSize = 256 ∧ fitted.bootSectors = 3 ∧
      fitted.sectorCount = (size - 384) / 256 + 3 := by
  obtain ⟨hfields, hcount⟩ := layout_of_fit hfit
  rw [hlayout] at hfields hcount
  injection hfields with hsize _ hboot
  refine ⟨hsize, hboot, ?_⟩
  rw [hcount, hsize, hboot]
  rfl

end Geometry

namespace DiskPlan

/-- Short boot sectors are asked for, and there is something that they are shorter than. -/
def StartsShort (plan : DiskPlan) : Prop :=
  plan.shortBoot = true ∧ plan.sectorSize = Geometry.doubleDensitySize

instance (plan : DiskPlan) : Decidable plan.StartsShort :=
  inferInstanceAs (Decidable (_ ∧ _))

/-- The disk has the sectors that were asked for. -/
structure LaidOut (plan : DiskPlan) (h : Header) : Prop where
  sectorCount : h.sectorCount = plan.sectorCount
  sectorSize : h.sectorSize = plan.sectorSize
  bootSectors : h.bootSectors = if plan.StartsShort ∧ 0 < plan.sectorCount then 3 else 0

/-- The bytes that the plan asks for are taken for another disk. -/
def Misread (plan : DiskPlan) : Prop :=
  (plan.sectorSize = 128 ∧ (plan.sectorCount = 1437 ∨ plan.sectorCount = 1440)) ∨
  (plan.sectorSize = 256 ∧ ¬plan.StartsShort ∧ plan.sectorCount = 360) ∨
  (plan.StartsShort ∧ 1 ≤ plan.sectorCount ∧ plan.sectorCount ≤ 3)

instance (plan : DiskPlan) : Decidable plan.Misread :=
  inferInstanceAs (Decidable (_ ∨ _ ∨ _))

theorem dataLength_eq {plan : DiskPlan} {size : Nat} (hlength : plan.dataLength = .ok size) :
    size = if plan.StartsShort then
        min 3 plan.sectorCount * 128 + (plan.sectorCount - min 3 plan.sectorCount) * 256
      else plan.sectorCount * plan.sectorSize := by
  unfold dataLength at hlength
  split at hlength
  · rename_i hshort
    obtain ⟨boot, hboot, hlength⟩ := Outcome.bind_eq_ok_iff.1 hlength
    obtain ⟨behind, hbehind, hlength⟩ := Outcome.bind_eq_ok_iff.1 hlength
    obtain ⟨_, rfl⟩ := Word.mul_eq_ok_iff.1 hboot
    obtain ⟨_, rfl⟩ := Word.mul_eq_ok_iff.1 hbehind
    obtain ⟨_, rfl⟩ := Word.add_eq_ok_iff.1 hlength
    rw [if_pos (show plan.StartsShort from hshort), hshort.2]
    rfl
  · rename_i hshort
    rw [if_neg (show ¬plan.StartsShort from hshort)]
    exact (Word.mul_eq_ok_iff.1 hlength).2

/-- The disks that can be planned come in whole sectors of single density. -/
theorem dataLength_mod {plan : DiskPlan} {size : Nat}
    (hsector : plan.sectorSize = 128 ∨ plan.sectorSize = 256)
    (hlength : plan.dataLength = .ok size) : size % 128 = 0 := by
  rw [dataLength_eq hlength]
  split
  · omega
  · rcases hsector with hs | hs
    · rw [hs]
      omega
    · rw [hs]
      omega

theorem header_eq_ofSize {plan : DiskPlan} {size : Nat} (hlength : plan.dataLength = .ok size) :
    plan.header = Header.ofSize plan.container size plan.sectorSize := by
  rw [header, hlength, Outcome.ok_bind]

theorem exists_header {plan : DiskPlan} {size : Nat}
    (hsector : plan.sectorSize = 128 ∨ plan.sectorSize = 256)
    (hlength : plan.dataLength = .ok size) : ∃ h, plan.header = .ok h := by
  obtain ⟨g, hfit⟩ := Geometry.exists_fit (g := .empty plan.sectorSize) hsector size
  rw [header_eq_ofSize hlength]
  exact ⟨_, Header.ofSize_eq_ok_iff.2 ⟨hsector, g, hfit, rfl⟩⟩

theorem fit_of_header {plan : DiskPlan} {size : Nat} {h : Header}
    (hlength : plan.dataLength = .ok size) (hheader : plan.header = .ok h) :
    (Geometry.empty plan.sectorSize).fit size = .ok h.toGeometry := by
  rw [header_eq_ofSize hlength] at hheader
  obtain ⟨_, g, hfit, rfl⟩ := Header.ofSize_eq_ok_iff.1 hheader
  exact hfit

theorem not_laidOut_of_misread {plan : DiskPlan} {size : Nat} {h : Header}
    (hlength : plan.dataLength = .ok size) (hheader : plan.header = .ok h)
    (hmisread : plan.Misread) : ¬plan.LaidOut h := by
  intro hlaid
  have hfit := fit_of_header hlength hheader
  have hsize := dataLength_eq hlength
  have hasked := hlaid.sectorSize
  rcases hmisread with ⟨hsector, hcount⟩ | ⟨hsector, hplain, hcount⟩ | ⟨hshort, hsome, hfew⟩
  · have hplain : ¬plan.StartsShort := by
      rintro ⟨_, hdouble⟩
      exact absurd (hsector.symm.trans hdouble) (by decide)
    rw [if_neg hplain, hsector] at hsize
    rcases hcount with hcount | hcount
    · have hlayout : Geometry.Layout.ofSize plan.sectorSize size = .shortBoot := by
        rw [hsize, hsector, hcount]
        rfl
      have hfound := (Geometry.fit_of_shortBoot hfit hlayout).1
      omega
    · have hlayout : Geometry.Layout.ofSize plan.sectorSize size = .uniform 256 := by
        rw [hsize, hsector, hcount]
        rfl
      have hfound := (Geometry.fit_of_uniform hfit hlayout).1
      omega
  · rw [if_neg hplain, hsector, hcount] at hsize
    have hlayout : Geometry.Layout.ofSize plan.sectorSize size = .uniform 128 := by
      rw [hsize, hsector]
      rfl
    have hfound := (Geometry.fit_of_uniform hfit hlayout).1
    omega
  · rw [if_pos hshort, Nat.min_eq_right hfew, Nat.sub_self, Nat.zero_mul, Nat.add_zero] at hsize
    have hlayout : Geometry.Layout.ofSize plan.sectorSize size = .uniform 256 := by
      rw [hshort.2, hsize]
      exact Geometry.Layout.ofSize_few hfew
    have hfound := (Geometry.fit_of_uniform hfit hlayout).2.1
    have hboot := hlaid.bootSectors
    rw [if_pos ⟨hshort, hsome⟩] at hboot
    omega

theorem laidOut_of_not_misread {plan : DiskPlan} {size : Nat} {h : Header}
    (hsector : plan.sectorSize = 128 ∨ plan.sectorSize = 256)
    (hlength : plan.dataLength = .ok size) (hheader : plan.header = .ok h)
    (hread : ¬plan.Misread) : plan.LaidOut h := by
  have hfit := fit_of_header hlength hheader
  have hsize := dataLength_eq hlength
  by_cases hshort : plan.StartsShort
  · rw [if_pos hshort] at hsize
    have hunit : plan.sectorSize = 256 := hshort.2
    by_cases hnone : plan.sectorCount = 0
    · have hlayout : Geometry.Layout.ofSize plan.sectorSize size = .uniform 256 := by
        rw [hsize, hunit, hnone]
        rfl
      obtain ⟨hfound, hboot, hcount⟩ := Geometry.fit_of_uniform hfit hlayout
      refine ⟨by omega, by omega, ?_⟩
      rw [hboot, if_neg (by omega)]
    · have hlong : 3 < plan.sectorCount := by
        refine Nat.lt_of_not_le fun hfew => hread ?_
        exact .inr (.inr ⟨hshort, Nat.pos_of_ne_zero hnone, hfew⟩)
      rw [Nat.min_eq_left (by omega)] at hsize
      have hlayout : Geometry.Layout.ofSize plan.sectorSize size = .shortBoot := by
        rw [hsize, hunit]
        exact Geometry.Layout.ofSize_short hlong
      obtain ⟨hfound, hboot, hcount⟩ := Geometry.fit_of_shortBoot hfit hlayout
      refine ⟨by omega, by omega, ?_⟩
      rw [hboot, if_pos ⟨hshort, by omega⟩]
  · rw [if_neg hshort] at hsize
    have hlayout : Geometry.Layout.ofSize plan.sectorSize size = .uniform plan.sectorSize := by
      rw [hsize]
      rcases hsector with hunit | hunit
      · rw [hunit]
        refine Geometry.Layout.ofSize_single (fun hcount => hread ?_) (fun hcount => hread ?_)
        · exact .inl ⟨hunit, .inl hcount⟩
        · exact .inl ⟨hunit, .inr hcount⟩
      · rw [hunit]
        refine Geometry.Layout.ofSize_double (fun hcount => hread ?_)
        exact .inr (.inl ⟨hunit, hshort, hcount⟩)
    obtain ⟨hfound, hboot, hcount⟩ := Geometry.fit_of_uniform hfit hlayout
    refine ⟨?_, hfound, ?_⟩
    · rw [hcount, hsize, Nat.mul_div_cancel _ (by omega)]
    · rw [hboot, if_neg (fun hasked => hshort hasked.1)]

/-- **A plan comes to the disk that was asked for unless it is misread.** All that a plan can be
refused for is its sector size. -/
theorem header_laid_out_iff {plan : DiskPlan} {size : Nat} (hlength : plan.dataLength = .ok size) :
    (plan.sectorSize = 128 ∨ plan.sectorSize = 256 →
      ∃ h, plan.header = .ok h ∧ (plan.LaidOut h ↔ ¬plan.Misread)) ∧
    (¬(plan.sectorSize = 128 ∨ plan.sectorSize = 256) →
      plan.header = refuse (.sectorSizeUnsupported plan.sectorSize) ∧
      (DiskError.sectorSizeUnsupported plan.sectorSize).kind = .format) := by
  refine ⟨fun hsector => ?_, fun hsector => ?_⟩
  · obtain ⟨h, hheader⟩ := exists_header hsector hlength
    refine ⟨h, hheader, fun hlaid hmisread => ?_, laidOut_of_not_misread hsector hlength hheader⟩
    exact not_laidOut_of_misread hlength hheader hmisread hlaid
  · refine ⟨?_, rfl⟩
    rw [header_eq_ofSize hlength]
    exact if_pos (not_or.1 hsector)

/-- The plan for a disk of single density is laid out as it is; one of 1437 sectors has as many
bytes as a disk of double density with short boot sectors. -/
theorem header_laid_out_iff_common :
    (∃ h, header {} = .ok h ∧ LaidOut {} h) ∧
    (∃ h, header { sectorCount := 1437 } = .ok h ∧ ¬LaidOut { sectorCount := 1437 } h) ∧
    header { sectorSize := 512 } = refuse (.sectorSizeUnsupported 512) := by
  refine ⟨?_, ?_, ?_⟩
  · have hlength : dataLength {} = .ok 92160 := rfl
    obtain ⟨h, hheader, hlaid⟩ := (header_laid_out_iff hlength).1 (.inl rfl)
    exact ⟨h, hheader, hlaid.2 (by decide)⟩
  · have hlength : dataLength { sectorCount := 1437 } = .ok 183936 := rfl
    obtain ⟨h, hheader, hlaid⟩ := (header_laid_out_iff hlength).1 (.inl rfl)
    exact ⟨h, hheader, fun hkept => hlaid.1 hkept (by decide)⟩
  · have hlength : dataLength { sectorSize := 512 } = .ok 368640 := rfl
    exact ((header_laid_out_iff hlength).2 (by decide)).1

end DiskPlan

end AtariDisk
