import AtariDisk.Catalog
import AtariDisk.Proofs.Image.Writes
import AtariDisk.Proofs.Volume.Load

/-!
# Looking for filesystems

The quick look at an image comes to the same verdict as mounting it. What is detected can therefore
be mounted, and an image on which nothing is found is handed back. Both verdicts rest on two things
only, the extent of the disk and the first byte of the map; whatever else is written on the disk,
it can be mounted.
-/

namespace AtariDisk

theorem Image.Roomy.sector_home {image : Image} (hroomy : image.Roomy) :
    ∃ code rest, image.sector SectorMap.home = code :: rest := by
  have hlength := hroomy.length_sector (show 3 < SectorMap.home by decide) (by decide)
  have hsize : image.header.sectorSize = 128 ∨ image.header.sectorSize = 256 :=
    hroomy.regular.size
  cases hsector : image.sector SectorMap.home with
  | nil =>
    rw [hsector, List.length_nil] at hlength
    omega
  | cons code rest => exact ⟨code, rest, rfl⟩

/-- The only known filesystem is found by its quick look. -/
theorem Catalog.detect_of_probe {image : Image} {found : Bool}
    (hprobe : Volume.probe image = .ok found) :
    detect image =
      .ok (if found then some ⟨Volume.filesystemName, Volume.probe, Volume.mount⟩ else none) := by
  unfold detect filesystems detectIn
  simp only [hprobe, Outcome.ok_bind]
  cases found with
  | true => rfl
  | false => rfl

/-! ### What the verdict rests on -/

section Mark

variable {image : Image} (hsound : image.Sound)

include hsound

/-- Mounting reads map, directory and chains, but only the code of the map can make it fail. -/
theorem Volume.exists_mount_iff :
    (∃ v, mount image = .ok v) ↔
      image.Roomy ∧ (image.sector SectorMap.home).headD 0 = SectorMap.dos2 := by
  constructor
  · rintro ⟨v, hmount⟩
    obtain ⟨hroomy, hcode, hload⟩ := (mount_eq_ok_iff hsound).1 hmount
    exact ⟨hroomy, (code_of_load hroomy hload).symm.trans hcode⟩
  · rintro ⟨hroomy, hcode⟩
    obtain ⟨v, hload, _⟩ := load_ok hroomy
    exact ⟨v, (mount_eq_ok_iff hsound).2 ⟨hroomy, (code_of_load hroomy hload).trans hcode, hload⟩⟩

theorem Volume.probe_eq_true_iff :
    probe image = .ok true ↔
      image.Roomy ∧ (image.sector SectorMap.home).headD 0 = SectorMap.dos2 := by
  rw [← checkExtent_eq_ok_iff hsound]
  unfold probe
  cases hcheck : checkExtent image with
  | error e =>
    cases e with
    | refused cause => simp
    | trapped cause => simp [trap]
  | ok done =>
    have hroomy := (checkExtent_eq_ok_iff hsound).1 hcheck
    have hhome := hroomy.linkable_of_le (show 1 ≤ SectorMap.home by decide) (by decide)
    obtain ⟨code, rest, hsector⟩ := hroomy.sector_home
    rw [hroomy.readSector_eq hhome, hsector]
    simp

theorem Catalog.mount_eq_ok_iff {v : Volume} :
    Catalog.mount image = .ok v ↔ Volume.mount image = .ok v := by
  unfold Catalog.mount
  constructor
  · intro hmount
    cases hprobe : Volume.probe image with
    | error e =>
      have hdetect : detect image = .error e := by
        unfold detect filesystems detectIn
        simp only [hprobe, Outcome.error_bind]
      simp [hdetect] at hmount
    | ok found =>
      rw [detect_of_probe hprobe] at hmount
      cases found with
      | false => simp at hmount
      | true =>
        simp only [if_true] at hmount
        cases hinner : Volume.mount image with
        | error e => simp [hinner] at hmount
        | ok u => simpa [hinner] using hmount
  · intro hmount
    have hprobe := (Volume.probe_eq_true_iff hsound).2
      ((Volume.exists_mount_iff hsound).1 ⟨v, hmount⟩)
    rw [detect_of_probe hprobe, if_pos rfl]
    simp only [hmount]

end Mark

theorem Catalog.image_of_mount_error {image handed : Image} {e : Failure}
    (hmount : Catalog.mount image = .error (e, handed)) : handed = image := by
  unfold Catalog.mount at hmount
  split at hmount
  · simp_all
  · simp_all
  · split at hmount
    · simp at hmount
    · simp_all

/-! ### Verdicts -/

section Verdict

variable {image : Image} (hsound : image.Sound)
  (hcountable : image.header.sectorCount + 1 < Word.bound)

include hsound hcountable

/-- The quick look finds a volume exactly if it can be mounted. -/
theorem Volume.mount_and_probe :
    (∃ v, mount image = .ok v ∧ probe image = .ok true) ∨
      ∃ cause, mount image = refuse cause ∧ probe image = .ok false := by
  cases hcheck : checkExtent image with
  | error e =>
    obtain ⟨cause, rfl, _⟩ := refusesOnly_checkExtent hsound hcountable e hcheck
    refine .inr ⟨cause, ?_, ?_⟩
    · unfold mount
      rw [hcheck]
      rfl
    · unfold probe
      rw [hcheck]
  | ok done =>
    have hroomy := (checkExtent_eq_ok_iff hsound).1 hcheck
    have hhome := hroomy.linkable_of_le (show 1 ≤ SectorMap.home by decide) (by decide)
    obtain ⟨code, rest, hsector⟩ := hroomy.sector_home
    obtain ⟨map, _, hmap, hraw⟩ := hroomy.readMap_eq
    obtain ⟨v, hload, _⟩ := load_ok hroomy
    have hcode : map.code = code := by
      rw [SectorMap.code, hraw, hsector]
      rfl
    have hprobe : probe image = .ok (decide (code = SectorMap.dos2)) := by
      unfold probe
      rw [hcheck, hroomy.readSector_eq hhome, hsector]
    have hmount : mount image =
        if code = SectorMap.dos2 then .ok v else refuse (.volumeForeign code.toNat) := by
      unfold mount
      rw [hcheck, Outcome.ok_bind, hmap, Outcome.ok_bind, hload, hcode]
    by_cases hdos : code = SectorMap.dos2
    · rw [if_pos hdos] at hmount
      exact .inl ⟨v, hmount, by rw [hprobe, decide_eq_true hdos]⟩
    · rw [if_neg hdos] at hmount
      exact .inr ⟨_, hmount, by rw [hprobe, decide_eq_false hdos]⟩

/-- The catalog mounts what there is to mount, and hands any other image back. -/
theorem Catalog.mount_eq :
    Catalog.mount image = match Volume.mount image with
      | .ok v => .ok v
      | .error _ => .error (.refused .filesystemUnknown, image) := by
  unfold Catalog.mount
  rcases Volume.mount_and_probe hsound hcountable with ⟨v, hmount, hprobe⟩ | ⟨cause, hmount, hprobe⟩
  · rw [detect_of_probe hprobe, if_pos rfl]
    simp only [hmount]
  · rw [detect_of_probe hprobe, hmount]
    rfl

end Verdict

open Image in
/-- **Probing, mounting and the catalog agree.** On an image that was read or made, whatever was
written to its sectors, the quick look finds a volume exactly if mounting succeeds, and then the
catalog mounts the same volume. That is the case exactly if the disk reaches sector 368 and sector
360 starts with a 2. An image that the catalog does not mount is handed back as it is. The quick
look answers whenever the bytes of the file can be counted. -/
theorem Catalog.verdicts_agree {image : Image} (hmade : image.Made) {writes : List SectorWrite}
    {written : Image} (hwritten : image.afterAll writes = written) :
    (Volume.probe written = .ok true ↔ ∃ v, Volume.mount written = .ok v) ∧
      (∀ v, Catalog.mount written = .ok v ↔ Volume.mount written = .ok v) ∧
      ((∃ v, Volume.mount written = .ok v) ↔
        (∃ last, written.header.lastSector = .ok last ∧ 368 ≤ last) ∧
          ∃ rest, written.readSector 360 = .ok (2 :: rest)) ∧
      (∀ e handed, Catalog.mount written = .error (e, handed) → handed = written) ∧
      (written.data.size < Word.bound → ∃ found, Volume.probe written = .ok found) := by
  have hsound : written.Sound := hmade.sound.1.of_alike (hwritten ▸ alike_afterAll image writes)
  refine ⟨?_, fun v => mount_eq_ok_iff hsound, ?_, fun e handed => image_of_mount_error, ?_⟩
  · rw [Volume.probe_eq_true_iff hsound, Volume.exists_mount_iff hsound]
  · rw [Volume.exists_mount_iff hsound, ← show Volume.lastSystemSector = 368 from rfl,
      ← hsound.roomy_iff]
    refine and_congr_right fun hroomy => ?_
    obtain ⟨code, rest, hsector⟩ := hroomy.sector_home
    have hread := hroomy.readSector_eq
      (hroomy.linkable_of_le (show 1 ≤ SectorMap.home by decide) (by decide))
    rw [hsector] at hread ⊢
    rw [show written.readSector 360 = .ok (code :: rest) from hread]
    simp [SectorMap.dos2]
  · intro hsize
    rcases Volume.mount_and_probe hsound (hsound.countable hsize) with
      ⟨_, _, hprobe⟩ | ⟨_, _, hprobe⟩
    · exact ⟨true, hprobe⟩
    · exact ⟨false, hprobe⟩

/-- A map on which every sector is free, and files whose chains lead off the disk. -/
def Catalog.scrawl : List SectorWrite :=
  [.one 360 (2 :: List.replicate 127 0xFF), .one 361 (List.replicate 128 0x42)]

open Image in
/-- A blank disk is handed back. With such a map and such a directory it is mounted. -/
theorem Catalog.verdicts_agree_scrawl :
    zeroDisk.Made ∧ (∃ e, Catalog.mount zeroDisk = .error (e, zeroDisk)) ∧
      Volume.probe (zeroDisk.afterAll scrawl) = .ok true ∧
      ∃ v, Catalog.mount (zeroDisk.afterAll scrawl) = .ok v := by
  have hroomy := roomy_zeroDisk
  have hmap := hroomy.linkable_of_le (show 1 ≤ 360 by decide) (by decide)
  have hblank : ¬∃ v, Volume.mount zeroDisk = .ok v := by
    rw [Volume.exists_mount_iff hroomy.toSound, zeroDisk, sector_plain, Bytes.zeros,
      List.drop_replicate, List.take_replicate]
    rintro ⟨_, hcode⟩
    rw [List.headD_eq_head?_getD, List.head?_replicate] at hcode
    split at hcode
    · exact absurd hcode (by decide)
    · exact absurd hcode (by decide)
  have hmid := hroomy.of_alike (alike_put zeroDisk 360 (2 :: List.replicate 127 0xFF))
  have hdirectory := hmid.linkable_of_le (show 1 ≤ 361 by decide) (by decide)
  have hsized : (List.replicate 128 (0x42 : UInt8)).length =
      ((zeroDisk.put 360 (2 :: List.replicate 127 0xFF)).header.place 361).length := by
    rw [List.length_replicate, hmid.length_place (by decide)]
    rfl
  have hsector : (zeroDisk.afterAll scrawl).sector 360 = 2 :: List.replicate 127 0xFF := by
    rw [scrawl, afterAll_cons, Call.after_of_ok (hroomy.edit_one hmap rfl), afterAll_cons,
      Call.after_of_ok (hmid.edit_one hdirectory hsized), afterAll, List.foldl_nil,
      hmid.toSound.sector_put_of_ne hdirectory.1 hmap.1 (by decide) hsized,
      hroomy.toSound.sector_put_self hmap.1 hmap.2.1 rfl]
  have hagain := hroomy.of_alike (alike_afterAll zeroDisk scrawl)
  obtain ⟨_, hcatalog, _, hhanded, _⟩ :=
    verdicts_agree made_zeroDisk (show zeroDisk.afterAll [] = zeroDisk from rfl)
  obtain ⟨hprobe, hmounted, hiff, _⟩ :=
    verdicts_agree made_zeroDisk (show zeroDisk.afterAll scrawl = zeroDisk.afterAll scrawl from rfl)
  have hmount := hiff.2 ⟨⟨_, hagain.lastSector_eq, hagain.reaches⟩, _,
    (hagain.readSector_eq (hagain.linkable_of_le (by decide) (by decide))).trans (by rw [hsector])⟩
  refine ⟨made_zeroDisk, ?_, hprobe.2 hmount, ?_⟩
  · cases hfailed : Catalog.mount zeroDisk with
    | ok v => exact absurd ⟨v, (hcatalog v).1 hfailed⟩ hblank
    | error failure =>
      obtain ⟨e, handed⟩ := failure
      rw [hhanded e handed hfailed]
      exact ⟨e, rfl⟩
  · obtain ⟨v, hv⟩ := hmount
    exact ⟨v, (hmounted v).2 hv⟩

end AtariDisk
