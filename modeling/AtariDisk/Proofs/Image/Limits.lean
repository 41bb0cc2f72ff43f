import AtariDisk.Proofs.Image.Runs

/-!
# Access at the limits of a word

Single sectors can be asked for by any number, and bytes written from any sector on: at worst the
image says that a sector is not there or has another size. Runs that are given by their last sector
or by their length are another matter. The number behind the last sector is computed before anything
is known about that sector, so a run which starts on the disk and ends at the largest number traps.
-/

namespace AtariDisk

namespace Outcome

variable {α β : Type}

/-- The computation answers, or is refused because a sector is not there or has another size. -/
def Orderly (x : Outcome α) : Prop :=
  ∀ e, x = .error e →
    ∃ cause, e = .refused cause ∧ (cause.kind = .sectorRange ∨ cause.kind = .size)

theorem orderly_ok (a : α) : Orderly (.ok a : Outcome α) := by
  intro e herror
  cases herror

theorem orderly_outOfRange (sector first last : Nat) :
    Orderly (refuse (.sectorOutOfRange sector first last) : Outcome α) := by
  intro e herror
  exact ⟨_, (Except.error.inj herror).symm, .inl rfl⟩

theorem orderly_mismatch (sector expected actual : Nat) :
    Orderly (refuse (.sizeMismatch sector expected actual) : Outcome α) := by
  intro e herror
  exact ⟨_, (Except.error.inj herror).symm, .inr rfl⟩

theorem not_orderly_trap (cause : Trap) : ¬Orderly (trap cause : Outcome α) := by
  intro horderly
  obtain ⟨_, hrefused, _⟩ := horderly _ rfl
  cases hrefused

theorem Orderly.map {x : Outcome α} (hx : Orderly x) (f : α → β) : Orderly (x.map f) := by
  cases x with
  | ok a => exact orderly_ok (f a)
  | error e =>
    intro failure herror
    exact hx failure (by rw [← Except.error.inj herror])

end Outcome

namespace Image

section Sound

variable {image : Image} (hsound : image.Sound) (hsize : image.data.size < Word.bound)

include hsound hsize

theorem Sound.orderly_region_iff (sector count : Nat) :
    (image.header.region sector count).Orderly ↔
      ¬(image.header.hasSector sector = .ok true ∧ Word.bound ≤ sector + count) := by
  rw [hsound.hasSector_iff hsize,
    Header.region_eq hsound.regular (hsound.imageSize_lt hsize) sector count]
  by_cases hon : 1 ≤ sector ∧ sector ≤ image.header.sectorCount
  · rw [if_pos hon]
    by_cases hlarge : Word.bound ≤ sector + count
    · rw [if_pos hlarge]
      exact iff_of_false (Outcome.not_orderly_trap _) (fun hnot => hnot ⟨hon, hlarge⟩)
    · rw [if_neg hlarge]
      refine iff_of_true ?_ (fun hboth => hlarge hboth.2)
      split
      · exact Outcome.orderly_ok _
      · exact Outcome.orderly_outOfRange _ _ _
  · rw [if_neg hon]
    exact iff_of_true (Outcome.orderly_outOfRange _ _ _) (fun hboth => hon hboth.1)

theorem Sound.orderly_readRun_iff {start stop : Nat} (hstop : stop < Word.bound) :
    (image.readRun start stop).Orderly ↔
      ¬(start ≤ image.header.sectorCount ∧ stop + 1 = Word.bound) := by
  have hcountable := hsound.countable hsize
  rw [hsound.readRun_eq hsize hstop]
  by_cases hreversed : stop < start
  · rw [if_pos hreversed]
    exact iff_of_true (Outcome.orderly_outOfRange _ _ _) (by omega)
  · rw [if_neg hreversed]
    by_cases hlargest : start ≤ image.header.sectorCount ∧ stop + 1 = Word.bound
    · rw [if_pos hlargest]
      exact iff_of_false (Outcome.not_orderly_trap _) (fun hnot => hnot hlargest)
    · rw [if_neg hlargest]
      refine iff_of_true ?_ hlargest
      split
      · split
        · exact Outcome.orderly_ok _
        · exact Outcome.orderly_outOfRange _ _ _
      · exact Outcome.orderly_outOfRange _ _ _

theorem Sound.orderly_readSector (n : Nat) : (image.readSector n).Orderly := by
  by_cases hn : 1 ≤ n ∧ n ≤ image.header.sectorCount
  · rw [hsound.readSector_eq hsize hn.1 hn.2]
    exact Outcome.orderly_ok _
  · rw [hsound.readSector_outside hsize hn]
    exact Outcome.orderly_outOfRange _ _ _

theorem Sound.orderly_fill {sector count : Nat} (hrun : image.header.HasRun sector count)
    (bytes : Bytes) : (image.fill sector count bytes).Orderly := by
  rw [hsound.fill_eq hsize hrun]
  split
  · exact Outcome.orderly_ok _
  · exact Outcome.orderly_mismatch _ _ _

theorem Sound.orderly_landing (write : SectorWrite) : (image.landing write).Orderly := by
  cases write with
  | one sector bytes =>
    by_cases hn : image.header.hasSector sector = .ok true
    · exact hsound.orderly_fill hsize ((hsound.hasRun_one_iff hsize).2 hn) bytes
    · rw [hsound.hasSector_iff hsize] at hn
      rw [landing, fill, hsound.span_eq hsize,
        Header.region_eq hsound.regular (hsound.imageSize_lt hsize), if_neg hn]
      exact Outcome.orderly_outOfRange _ _ _
  | run sector bytes =>
    by_cases hbytes : bytes = []
    · rw [hbytes]
      exact Outcome.orderly_ok _
    · by_cases hn : image.header.hasSector sector = .ok true
      · by_cases hroom : bytes.length ≤ image.header.bytesFrom sector
        · obtain ⟨hfirst, hlast⟩ := (hsound.hasSector_iff hsize).1 hn
          obtain ⟨count, hrun, hmore, henough⟩ := Header.exists_least_run hsound.regular
            (hsound.imageSize_lt hsize) hfirst hlast (List.length_pos_iff.2 hbytes) hroom
          rw [hsound.landing_run hsize hrun hmore henough]
          exact hsound.orderly_fill hsize hrun bytes
        · rw [hsound.landing_run_past hsize hn (by omega)]
          exact Outcome.orderly_outOfRange _ _ _
      · rw [hsound.landing_run_outside hsize hn hbytes]
        exact Outcome.orderly_outOfRange _ _ _

theorem Sound.orderly_answer (write : SectorWrite) : (image.answer write).Orderly := by
  rw [answer_eq]
  exact (hsound.orderly_landing hsize write).map _

end Sound

/-- **Only the ends of runs can be too large.** Reading a sector, writing one and writing bytes from
a sector on are answered or refused in an orderly way, whatever the numbers and the bytes. Reading
the sectors from `a` to `b` is as well, unless `b` is the largest number and `a` lies on the disk or
in front of it; so is asking for `b` sectors from `a` on, unless `a` lies on the disk and the sector
behind them has a number that does not fit into a word. -/
theorem access_is_orderly_iff {image : Image} (hmade : image.Made)
    (hsize : image.data.size < Word.bound) (a : Nat) {b : Nat} (hb : b < Word.bound)
    (bytes : Bytes) :
    (image.readSector a).Orderly ∧ (image.answer (.one a bytes)).Orderly ∧
      (image.answer (.run a bytes)).Orderly ∧
      ((image.readRun a b).Orderly ↔
        ¬(a ≤ image.header.sectorCount ∧ b + 1 = Word.bound)) ∧
      ((image.header.region a b).Orderly ↔
        ¬(image.header.hasSector a = .ok true ∧ Word.bound ≤ a + b)) := by
  obtain ⟨hsound, _⟩ := hmade.sound
  exact ⟨hsound.orderly_readSector hsize a, hsound.orderly_answer hsize _,
    hsound.orderly_answer hsize _, hsound.orderly_readRun_iff hsize hb,
    hsound.orderly_region_iff hsize a b⟩

/-- 720 sectors of 128 bytes behind a header. -/
def singleHeader : Header :=
  { plainHeader with container := .atr }

theorem exists_single : ∃ image : Image, DiskPlan.image {} = .ok image ∧
    image.header = singleHeader ∧ image.data.size < Word.bound := by
  obtain ⟨image, hplan, hheader⟩ : ∃ image : Image, DiskPlan.image {} = .ok image ∧
      image.header = singleHeader :=
    ⟨_, plan_image_eq_ok_iff.2 ⟨92160, _, rfl, rfl, by decide, rfl⟩, rfl⟩
  refine ⟨image, hplan, hheader, ?_⟩
  rw [← (Made.sound (.inr ⟨_, hplan⟩)).1.covered, hheader]
  decide

/-- A run from the first sector to the largest number traps, one that ends a number before is
refused for the first sector that is not there. -/
theorem access_is_orderly_iff_largest :
    ∃ image : Image, DiskPlan.image {} = .ok image ∧
      ¬(image.readRun 1 (Word.bound - 1)).Orderly ∧ (image.readRun 1 (Word.bound - 2)).Orderly ∧
      (image.readRun 721 (Word.bound - 1)).Orderly ∧
      ¬(image.header.region 720 (Word.bound - 1)).Orderly ∧
      (image.header.region 721 (Word.bound - 1)).Orderly := by
  obtain ⟨image, hplan, hheader, hsize⟩ := exists_single
  have hlimits := fun a b hb => access_is_orderly_iff (.inr ⟨_, hplan⟩) hsize a (b := b) hb []
  refine ⟨image, hplan, ?_⟩
  rw [hheader] at hlimits ⊢
  refine ⟨?_, ?_, ?_, ?_, ?_⟩
  · exact fun hread => (hlimits 1 _ (by decide)).2.2.2.1.1 hread (by decide)
  · exact (hlimits 1 _ (by decide)).2.2.2.1.2 (by decide)
  · exact (hlimits 721 _ (by decide)).2.2.2.1.2 (by decide)
  · exact fun hregion => (hlimits 720 _ (by decide)).2.2.2.2.1 hregion (by decide)
  · exact (hlimits 721 _ (by decide)).2.2.2.2.2 (by decide)

/-- The largest number traps where every other one behind the disk is refused. -/
theorem largest_number_traps :
    ∃ image : Image, DiskPlan.image {} = .ok image ∧ image.data.size < Word.bound ∧
      image.readRun 1 (Word.bound - 1) = trap .overflow ∧
      image.readRun 0 (Word.bound - 1) = trap .overflow ∧
      image.header.region 720 (Word.bound - 1) = trap .overflow ∧
      image.readRun 1 (Word.bound - 2) = refuse (.sectorOutOfRange 721 1 720) := by
  obtain ⟨image, hplan, hheader, hsize⟩ := exists_single
  obtain ⟨hsound, _⟩ := Made.sound (.inr ⟨_, hplan⟩)
  refine ⟨image, hplan, hsize, ?_, ?_, ?_, ?_⟩
  · rw [hsound.readRun_eq hsize (by decide), hheader]
    rfl
  · rw [hsound.readRun_eq hsize (by decide), hheader]
    rfl
  · rw [Header.region_eq hsound.regular (hsound.imageSize_lt hsize), hheader]
    rfl
  · rw [hsound.readRun_eq hsize (by decide), hheader]
    rfl

end Image

end AtariDisk
