import AtariDisk.Proofs.DiskPlan
import AtariDisk.Proofs.Image.Origin
import AtariDisk.Proofs.Image.Writes

/-!
# Reopening a saved image

An ATR file carries its header, out of reach of all writes to sectors, and so is opened again as the
image it was. An XFD file has nothing but sectors: it is taken for an ATR file if the first sector
starts like one, and for a disk of single density unless its size says otherwise.
-/

namespace AtariDisk

namespace Image

/-! ### What is read from a file -/

theorem detect_slice {data : Buffer} (hlong : 16 ≤ data.size) :
    Container.detect (Buffer.slice data 0 16) = .xfd ↔
      Buffer.slice data 0 2 ≠ [0x96, 0x02] := by
  have hsignature : Container.atr.signature = [0x96, 0x02] := rfl
  have hlead : Container.atr.headerLength ≤ (Buffer.slice data 0 16).length := by
    rw [Buffer.length_slice (by omega)]
    exact Nat.le_refl _
  unfold Container.detect
  rw [Buffer.take_slice data 0 (by decide), hsignature]
  by_cases hatr : Buffer.slice data 0 2 = [0x96, 0x02]
  · simp [hlead, hatr]
  · simp [hatr]

/-- A header is found again in front of the bytes that it was written for. -/
theorem headerIn_of_encode {data : Buffer} {header : Header} (hatr : header.container = .atr)
    (hfitted : header.toGeometry.Fitted) (hwhole : header.imageSize % Header.paragraph = 0)
    (hsmall : header.imageSize < 2 ^ 28) (hlead : Buffer.slice data 0 16 = header.encode)
    (hsize : 16 + header.imageSize = data.size) : headerIn data = .ok header := by
  unfold headerIn
  rw [hlead, Header.detect_encode hatr]
  simp only [Header.decode_encode hatr hfitted hwhole hsmall, Outcome.ok_bind]
  rw [if_pos (by omega)]

theorem headerIn_eq_ok_iff {data : Buffer} {header : Header} (hxfd : header.container = .xfd) :
    headerIn data = .ok header ↔ Container.detect (Buffer.slice data 0 16) = .xfd ∧
      data.size ≠ 0 ∧ Header.ofSize .xfd data.size Geometry.singleDensitySize = .ok header := by
  constructor
  · intro hheader
    have hdetect := (fitted_of_headerIn hheader).2.2.symm.trans hxfd
    unfold headerIn at hheader
    rw [hdetect] at hheader
    simp only at hheader
    split at hheader
    · exact absurd hheader (Outcome.refuse_ne_ok _ _)
    · rename_i hfilled
      exact ⟨hdetect, hfilled, hheader⟩
  · rintro ⟨hdetect, hfilled, hsized⟩
    unfold headerIn
    rw [hdetect]
    simp only
    rw [if_neg hfilled, hsized]

theorem exists_ofBuffer_iff {data : Buffer} {header : Header} :
    (∃ again, Image.ofBuffer data = .ok again ∧ again.header = header) ↔
      headerIn data = .ok header := by
  constructor
  · rintro ⟨again, hread, rfl⟩
    obtain ⟨header, hheader, rfl⟩ := ofBuffer_eq_ok_iff.1 hread
    exact hheader
  · intro hheader
    exact ⟨_, ofBuffer_eq_ok_iff.2 ⟨header, hheader, rfl⟩, rfl⟩

/-! ### What a new disk is like -/

/-- What can be told of an image that was made after a plan, however its sectors were written to. -/
structure Planned (image : Image) : Prop where
  fitted : image.header.toGeometry.Fitted
  plain : image.header = ⟨image.header.toGeometry, image.header.container, 0, 0, 0⟩
  whole : image.header.imageSize % 128 = 0
  covered : image.header.length + image.header.imageSize = image.data.size
  lead : Buffer.slice image.data 0 image.header.length = image.header.encode

theorem planned_of_plan {plan : DiskPlan} {image : Image} (hplan : plan.image = .ok image) :
    image.Planned := by
  have hcovered := (Made.sound (.inr ⟨plan, hplan⟩)).1.covered
  obtain ⟨size, header, hlength, hsized, _, rfl⟩ := plan_image_eq_ok_iff.1 hplan
  obtain ⟨hfitted, himage, _⟩ := Header.fitted_of_ofSize hsized
  obtain ⟨hsector, g, _, hheader⟩ := Header.ofSize_eq_ok_iff.1 hsized
  have hbytes : header.encode.toArray ++ Array.replicate header.imageSize 0 =
      (header.encode ++ List.replicate header.imageSize 0).toArray := by simp
  refine ⟨hfitted, by rw [hheader], ?_, hcovered, ?_⟩
  · rw [himage]
    exact DiskPlan.dataLength_mod hsector hlength
  · simp only
    rw [hbytes, Buffer.slice_toArray, List.drop_zero, List.take_left' (Header.length_encode header)]

theorem Planned.afterAll {image : Image} (hplanned : image.Planned) (writes : List SectorWrite) :
    (image.afterAll writes).Planned := by
  have halike := alike_afterAll image writes
  have hlead := lead_afterAll image writes (Nat.le_refl image.header.length)
  constructor
  · rw [halike.header]
    exact hplanned.fitted
  · rw [halike.header]
    exact hplanned.plain
  · rw [halike.header]
    exact hplanned.whole
  · rw [halike.header, halike.size]
    exact hplanned.covered
  · rw [halike.header, hlead]
    exact hplanned.lead

theorem Planned.headerIn_of_atr {image : Image} (hplanned : image.Planned)
    (hatr : image.header.container = .atr) (hsmall : image.header.imageSize < 2 ^ 28) :
    headerIn image.data = .ok image.header := by
  have hlength : image.header.length = 16 := by
    rw [Header.length, hatr]
    rfl
  have hwhole : image.header.imageSize % Header.paragraph = 0 := by
    have hsectors := hplanned.whole
    rw [Header.paragraph]
    omega
  have hlead := hplanned.lead
  have hcovered := hplanned.covered
  rw [hlength] at hlead hcovered
  exact headerIn_of_encode hatr hplanned.fitted hwhole hsmall hlead hcovered

theorem Planned.headerIn_iff_of_xfd {image : Image} (hplanned : image.Planned)
    (hxfd : image.header.container = .xfd) :
    headerIn image.data = .ok image.header ↔
      image.data.size ≠ 0 ∧ Buffer.slice image.data 0 2 ≠ [0x96, 0x02] ∧
        (image.header.sectorSize = 128 ∨ image.data.size = 183936 ∨ image.data.size = 184320) := by
  have hsize : image.data.size = image.header.imageSize := by
    rw [← hplanned.covered, Header.length, hxfd]
    exact Nat.zero_add _
  have hheader : image.header = ⟨image.header.toGeometry, .xfd, 0, 0, 0⟩ := by
    rw [← hxfd]
    exact hplanned.plain
  have hguess := Header.ofSize_single_iff hplanned.fitted .xfd
  rw [← hheader, ← hsize] at hguess
  rw [headerIn_eq_ok_iff hxfd, hguess]
  have hwhole := hplanned.whole
  -- A disk that has a sector at all is long enough for a signature to be looked for.
  by_cases hfilled : image.data.size = 0
  · simp [hfilled]
  · rw [detect_slice (by omega)]
    exact and_left_comm

/-- **Saved images reopen as themselves, exactly if the format can tell.** A new image, after any
writes to its sectors, is opened again with the same header: as an ATR file if its size can be put
into the header; as an XFD file just if it has sectors, does not start like an ATR file, and has
sectors of single density or the size of a common disk of double density. -/
theorem reopens_exactly {plan : DiskPlan} {fresh : Image} (hplan : plan.image = .ok fresh)
    (writes : List SectorWrite) {image : Image} (hwritten : image = fresh.afterAll writes) :
    (image.header.container = .atr → image.header.imageSize < 2 ^ 28 →
      ∃ again, Image.ofBuffer image.data = .ok again ∧ again.header = image.header ∧
        again.data = image.data) ∧
    (image.header.container = .xfd →
      ((∃ again, Image.ofBuffer image.data = .ok again ∧ again.header = image.header) ↔
        image.data.size ≠ 0 ∧ Buffer.slice image.data 0 2 ≠ [0x96, 0x02] ∧
          (image.header.sectorSize = 128 ∨ image.data.size = 183936 ∨
            image.data.size = 184320))) := by
  have hplanned : image.Planned := by
    rw [hwritten]
    exact (planned_of_plan hplan).afterAll writes
  constructor
  · intro hatr hsmall
    obtain ⟨again, hread, hheader⟩ :=
      exists_ofBuffer_iff.2 (hplanned.headerIn_of_atr hatr hsmall)
    exact ⟨again, hread, hheader, data_of_ofBuffer hread⟩
  · intro hxfd
    rw [exists_ofBuffer_iff]
    exact hplanned.headerIn_iff_of_xfd hxfd

/-- A first sector that starts like an ATR file. -/
def forged : SectorWrite :=
  .one 1 (Bytes.resize 128 0 [0x96, 0x02])

theorem lead_forged {image : Image} (hroomy : image.Roomy) (hheader : image.header = plainHeader) :
    Buffer.slice (image.afterAll [forged]).data 0 2 = [0x96, 0x02] := by
  have hplace : image.header.place 1 = ⟨0, 128⟩ := by
    rw [hheader]
    rfl
  have hone := hroomy.linkable_of_le (Nat.le_refl 1) (by decide)
  have hafter : image.afterAll [forged] = image.put 1 (Bytes.resize 128 0 [0x96, 0x02]) := by
    apply Call.after_of_ok
    exact hroomy.edit_one hone (by rw [hplace]; rfl)
  have hsector : (image.afterAll [forged]).sector 1 = Bytes.resize 128 0 [0x96, 0x02] := by
    rw [hafter]
    exact hroomy.sector_put_self hone.1 hone.2.1 (by rw [hplace]; rfl)
  have hslice : (image.afterAll [forged]).sector 1 =
      Buffer.slice (image.afterAll [forged]).data 0 128 := by
    rw [sector, (alike_afterAll image _).header, hplace]
  rw [← Buffer.take_slice _ 0 (show 2 ≤ 128 by decide), ← hslice, hsector]
  rfl

/-- The same write does no harm to an ATR file, and makes another file of an XFD file. -/
theorem reopens_exactly_forged :
    (∃ fresh again : Image, DiskPlan.image {} = .ok fresh ∧
      Image.ofBuffer (fresh.afterAll [forged]).data = .ok again ∧
      again.header = (fresh.afterAll [forged]).header) ∧
    ∃ fresh again : Image, DiskPlan.image { container := .xfd } = .ok fresh ∧
      Image.ofBuffer fresh.data = .ok again ∧ again.header = fresh.header ∧
      ¬∃ other, Image.ofBuffer (fresh.afterAll [forged]).data = .ok other ∧
        other.header = (fresh.afterAll [forged]).header := by
  constructor
  · obtain ⟨fresh, hplan, hheader⟩ : ∃ fresh : Image, DiskPlan.image {} = .ok fresh ∧
        fresh.header = { plainHeader with container := .atr } :=
      ⟨_, plan_image_eq_ok_iff.2 ⟨92160, _, rfl, rfl, by decide, rfl⟩, rfl⟩
    have hkept := (alike_afterAll fresh [forged]).header.trans hheader
    obtain ⟨again, hread, hagain, _⟩ := (reopens_exactly hplan [forged] rfl).1
      (by rw [hkept]) (by rw [hkept]; decide)
    exact ⟨fresh, again, hplan, hread, hagain⟩
  · obtain ⟨fresh, hplan, hheader, hdata⟩ : ∃ fresh : Image,
        DiskPlan.image { container := .xfd } = .ok fresh ∧ fresh.header = plainHeader ∧
          fresh.data = #[] ++ Array.replicate 92160 0 :=
      ⟨_, plan_image_eq_ok_iff.2 ⟨92160, plainHeader, rfl, rfl, by decide, rfl⟩, rfl, rfl⟩
    have hsize : fresh.data.size = 92160 := by simp [hdata]
    have hlead : Buffer.slice fresh.data 0 2 = [0, 0] := by
      simp [hdata, Buffer.slice]
    have hnone : fresh = fresh.afterAll [] := rfl
    have hroomy : fresh.Roomy := by
      refine ⟨(Made.sound (.inr ⟨_, hplan⟩)).1, ?_, ?_⟩
      · rw [hheader]
        decide
      · rw [hheader]
        decide
    obtain ⟨again, hread, hagain⟩ := ((reopens_exactly hplan [] hnone).2 (by rw [hheader]; rfl)).2
      ⟨by rw [hsize]; decide, by rw [hlead]; decide, .inl (by rw [hheader]; rfl)⟩
    refine ⟨fresh, again, hplan, hread, hagain, ?_⟩
    have hkept := (alike_afterAll fresh [forged]).header.trans hheader
    rw [(reopens_exactly hplan [forged] rfl).2 (by rw [hkept]; rfl)]
    exact fun hopens => hopens.2.1 (lead_forged hroomy hheader)

end Image

end AtariDisk
