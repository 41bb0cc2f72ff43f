import AtariDisk.DiskPlan
import AtariDisk.Proofs.Image.Sectors

/-!
# Where images come from

An image is read from the bytes of a file or made after a plan. Either way its header fits the file
and no transaction is open on it.
-/

namespace AtariDisk

namespace Image

/-- The image was read from the bytes of a file, or made after a plan. -/
def Made (image : Image) : Prop :=
  (∃ data, Image.ofBuffer data = .ok image) ∨ ∃ plan : DiskPlan, plan.image = .ok image

theorem size_of_detect_atr {data : Buffer}
    (hatr : Container.detect (Buffer.slice data 0 Container.atr.headerLength) = .atr) :
    16 ≤ data.size := by
  unfold Container.detect at hatr
  split at hatr
  · rename_i hlead
    have hslice : (Buffer.slice data 0 16).length ≤ data.size := by
      unfold Buffer.slice
      rw [Array.length_toList, Array.size_extract]
      omega
    exact Nat.le_trans hlead.1 hslice
  · simp at hatr

/-- The header that the bytes of a file are given. -/
def headerIn (data : Buffer) : Outcome Header :=
  match Container.detect (Buffer.slice data 0 16) with
  | .atr => do
    let declared ← Header.decode (Buffer.slice data 0 16)
    if data.size - 16 = declared.imageSize then .ok declared else declared.fit (data.size - 16)
  | .xfd =>
    if data.size = 0 then refuse .imageEmpty
    else Header.ofSize .xfd data.size Geometry.singleDensitySize

/-- An image is read if its header can be. -/
theorem ofBuffer_eq (data : Buffer) :
    Image.ofBuffer data =
      (headerIn data).map fun header => ⟨data, header, false, none, .idle⟩ := by
  have hlead : Container.atr.headerLength = 16 := rfl
  unfold ofBuffer headerIn
  simp only [hlead]
  cases Container.detect (Buffer.slice data 0 16) with
  | atr =>
    cases hdecode : Header.decode (Buffer.slice data 0 16) with
    | error e => rfl
    | ok declared =>
      have hlength : declared.length = 16 := by
        rw [Header.length, (Header.fitted_of_decode hdecode).2, hlead]
      simp only [Outcome.ok_bind, hlength]
      split
      · rfl
      · cases declared.fit (data.size - 16) with
        | error e => rfl
        | ok header => rfl
  | xfd =>
    simp only [Array.isEmpty_iff_size_eq_zero]
    split
    · rfl
    · cases Header.ofSize .xfd data.size Geometry.singleDensitySize with
      | error e => rfl
      | ok header => rfl

theorem ofBuffer_eq_ok_iff {data : Buffer} {image : Image} :
    Image.ofBuffer data = .ok image ↔
      ∃ header, headerIn data = .ok header ∧ image = ⟨data, header, false, none, .idle⟩ := by
  rw [ofBuffer_eq]
  cases headerIn data with
  | error e => simp [Except.map]
  | ok header => simp [Except.map, eq_comm]

/-- The header of a file is fitted to the bytes behind it. -/
theorem fitted_of_headerIn {data : Buffer} {header : Header}
    (hheader : headerIn data = .ok header) :
    header.toGeometry.Fitted ∧ header.length + header.imageSize = data.size ∧
      header.container = Container.detect (Buffer.slice data 0 16) := by
  have hlead : ∀ {h : Header}, h.container = .atr → h.length = 16 := by
    intro h hatr
    rw [Header.length, hatr]
    rfl
  unfold headerIn at hheader
  cases hdetect : Container.detect (Buffer.slice data 0 16) with
  | atr =>
    have hlong := size_of_detect_atr hdetect
    rw [hdetect] at hheader
    obtain ⟨declared, hdecode, hrest⟩ := Outcome.bind_eq_ok_iff.1 hheader
    obtain ⟨hfitted, hatr⟩ := Header.fitted_of_decode hdecode
    split at hrest
    · rename_i hsame
      obtain rfl := Except.ok.inj hrest
      have hlength := hlead hatr
      exact ⟨hfitted, by omega, hatr⟩
    · obtain ⟨hagain, hsize, hcontainer⟩ := Header.fitted_of_fit hfitted.regular hrest
      have hlength := hlead (hcontainer.trans hatr)
      exact ⟨hagain, by omega, hcontainer.trans hatr⟩
  | xfd =>
    rw [hdetect] at hheader
    simp only at hheader
    split at hheader
    · exact absurd hheader (Outcome.refuse_ne_ok _ _)
    · obtain ⟨hfitted, hsize, hxfd⟩ := Header.fitted_of_ofSize hheader
      refine ⟨hfitted, ?_, hxfd⟩
      rw [Header.length, hxfd, hsize]
      exact Nat.zero_add _

theorem sound_of_ofBuffer {data : Buffer} {image : Image}
    (hread : Image.ofBuffer data = .ok image) : image.Sound ∧ image.phase = .idle := by
  obtain ⟨header, hheader, rfl⟩ := ofBuffer_eq_ok_iff.1 hread
  obtain ⟨hfitted, hcovered, _⟩ := fitted_of_headerIn hheader
  exact ⟨⟨hfitted.regular, hcovered⟩, rfl⟩

theorem data_of_ofBuffer {data : Buffer} {image : Image} (hread : Image.ofBuffer data = .ok image) :
    image.data = data := by
  obtain ⟨header, _, rfl⟩ := ofBuffer_eq_ok_iff.1 hread
  rfl

/-- What making an image after a plan comes to. -/
theorem plan_image_eq_ok_iff {plan : DiskPlan} {image : Image} :
    plan.image = .ok image ↔
      ∃ size header, plan.dataLength = .ok size ∧
        Header.ofSize plan.container size plan.sectorSize = .ok header ∧
        header.length + header.imageSize < Word.memoryBound ∧
        image = ⟨header.encode.toArray ++ Array.replicate header.imageSize 0, header, true, none,
          .idle⟩ := by
  have hblank : ∀ {header : Header}, Image.blank header = .ok image ↔
      header.length + header.imageSize < Word.memoryBound ∧
        image = ⟨header.encode.toArray ++ Array.replicate header.imageSize 0, header, true, none,
          .idle⟩ := by
    intro header
    unfold blank Word.add Word.allocate
    by_cases hsmall : header.length + header.imageSize < Word.memoryBound
    · have hword : header.length + header.imageSize < Word.bound :=
        Nat.lt_trans hsmall (by decide)
      rw [if_pos hword, Outcome.ok_bind, if_pos hsmall, Outcome.ok_bind]
      simp [hsmall, eq_comm]
    · split
      · rw [Outcome.ok_bind, if_neg hsmall]
        simp [hsmall, trap]
      · simp [hsmall, trap]
  unfold DiskPlan.image DiskPlan.header
  simp only [Outcome.bind_eq_ok_iff, hblank]
  constructor
  · rintro ⟨header, ⟨size, hlength, hsized⟩, hsmall, himage⟩
    exact ⟨size, header, hlength, hsized, hsmall, himage⟩
  · rintro ⟨size, header, hlength, hsized, hsmall, himage⟩
    exact ⟨header, ⟨size, hlength, hsized⟩, hsmall, himage⟩

theorem Made.fitted {image : Image} (hmade : image.Made) : image.header.toGeometry.Fitted := by
  rcases hmade with ⟨data, hread⟩ | ⟨plan, hplan⟩
  · obtain ⟨header, hheader, rfl⟩ := ofBuffer_eq_ok_iff.1 hread
    exact (fitted_of_headerIn hheader).1
  · obtain ⟨size, header, _, hsized, _, rfl⟩ := plan_image_eq_ok_iff.1 hplan
    exact (Header.fitted_of_ofSize hsized).1

theorem Made.sound {image : Image} (hmade : image.Made) : image.Sound ∧ image.phase = .idle := by
  have hregular := hmade.fitted.regular
  rcases hmade with ⟨data, hread⟩ | ⟨plan, hplan⟩
  · exact sound_of_ofBuffer hread
  · obtain ⟨size, header, _, _, _, rfl⟩ := plan_image_eq_ok_iff.1 hplan
    refine ⟨⟨hregular, ?_⟩, rfl⟩
    simp only [Array.size_append, List.size_toArray, Array.size_replicate, Header.length_encode]

/-! ### Bytes that are no image -/

theorem refusesOnly_ofBuffer (data : Buffer) : (Image.ofBuffer data).RefusesOnly .format := by
  unfold ofBuffer
  simp only
  split
  · refine (Header.refusesOnly_decode _).bind fun declared _ => ?_
    split
    · exact Outcome.refusesOnly_ok _
    · refine Outcome.RefusesOnly.bind ?_ fun _ _ => Outcome.refusesOnly_ok _
      exact (Geometry.refusesOnly_fit _ _).bind fun _ _ => Outcome.refusesOnly_ok _
  · split
    · exact Outcome.refusesOnly_refuse rfl
    · exact (Header.refusesOnly_ofSize _ _ _).bind fun _ _ => Outcome.refusesOnly_ok _

/-- The sectors of a file can be counted if its bytes can. -/
theorem Sound.countable {image : Image} (hsound : image.Sound)
    (hsize : image.data.size < Word.bound) : image.header.sectorCount + 1 < Word.bound := by
  have hcovered := hsound.covered
  exact hsound.regular.countable (show image.header.imageSize < Word.bound by omega)

/-! ### Plain disks of single density -/

/-- 720 sectors of 128 bytes and nothing else. -/
def plainHeader : Header :=
  ⟨⟨92160, 128, 0, 0, 1, 720, 18⟩, .xfd, 0, 0, 0⟩

def plain (data : Buffer) : Image :=
  { data, header := plainHeader, changed := false, fileName := none, phase := .idle }

theorem ofBuffer_plain {data : Buffer} (hsize : data.size = 92160)
    (hdetect : Container.detect (Buffer.slice data 0 16) = .xfd) :
    Image.ofBuffer data = .ok (plain data) := by
  have hheader : Header.ofSize .xfd 92160 Geometry.singleDensitySize = .ok plainHeader := rfl
  have hfilled : data.isEmpty = false := by
    rw [Bool.eq_false_iff, ne_eq, Array.isEmpty_iff_size_eq_zero]
    omega
  unfold ofBuffer
  simp only [show Container.atr.headerLength = 16 from rfl, hdetect, hfilled, hsize]
  rw [if_neg Bool.false_ne_true, hheader]
  rfl

theorem roomy_plain {data : Buffer} (hread : Image.ofBuffer data = .ok (plain data)) :
    (plain data).Roomy := by
  refine ⟨(sound_of_ofBuffer hread).1, ?_, ?_⟩
  · change 368 ≤ plainHeader.sectorCount
    decide
  · change plainHeader.sectorCount + 1 < Word.bound
    decide

theorem sector_plain (bytes : Bytes) (n : Nat) :
    (plain bytes.toArray).sector n = (bytes.drop ((n - 1) * 128)).take 128 := by
  have hplace : (plain bytes.toArray).header.place n = ⟨(n - 1) * 128, 128⟩ := by
    simp [Header.place, Geometry.place, plain, plainHeader, Header.length, Container.headerLength]
  rw [sector, hplace, plain, Buffer.slice_toArray]

/-- The sectors of a disk that is zero but for the bytes at the start of some sectors. -/
def sketch (parts : List (Nat × Bytes)) (n : Nat) : Bytes :=
  Bytes.resize 128 0 ((parts.lookup n).getD [])

def sketchBytes (parts : List (Nat × Bytes)) : Bytes :=
  ((List.range 720).map fun i => sketch parts (i + 1)).flatten

/-- The plain disk with these sectors. -/
def sketched (parts : List (Nat × Bytes)) : Image :=
  plain (sketchBytes parts).toArray

theorem length_of_mem_sketch {parts : List (Nat × Bytes)} :
    ∀ piece ∈ (List.range 720).map fun i => sketch parts (i + 1), piece.length = 128 := by
  intro piece hpiece
  obtain ⟨i, _, rfl⟩ := List.mem_map.1 hpiece
  exact Bytes.length_resize ..

theorem size_sketchBytes (parts : List (Nat × Bytes)) :
    (sketchBytes parts).toArray.size = 92160 := by
  rw [List.size_toArray, sketchBytes, length_flatten_of_forall length_of_mem_sketch,
    List.length_map, List.length_range]

theorem sector_sketched (parts : List (Nat × Bytes)) {n : Nat} (hfirst : 1 ≤ n) (hlast : n ≤ 720) :
    (sketched parts).sector n = sketch parts n := by
  have hpiece : ((List.range 720).map fun i => sketch parts (i + 1))[n - 1]? =
      some (sketch parts n) := by
    rw [List.getElem?_map, List.getElem?_range (by omega), Option.map_some,
      Nat.sub_add_cancel hfirst]
  rw [sketched, sector_plain, Nat.mul_comm]
  exact take_drop_flatten length_of_mem_sketch hpiece

theorem ofBuffer_sketched {parts : List (Nat × Bytes)}
    (hlead : (sketch parts 1).take 2 ≠ Container.atr.signature) :
    Image.ofBuffer (sketchBytes parts).toArray = .ok (sketched parts) := by
  apply ofBuffer_plain (size_sketchBytes parts)
  · have hfirst := sector_sketched parts (Nat.le_refl 1) (by decide)
    rw [sketched, sector_plain] at hfirst
    have hslice : (Buffer.slice (sketchBytes parts).toArray 0 16).take 2 =
        (sketch parts 1).take 2 := by
      rw [Buffer.slice_toArray, ← hfirst, List.take_take, List.take_take]
      rfl
    unfold Container.detect
    rw [hslice, if_neg fun hatr => hlead hatr.2]

theorem roomy_sketched {parts : List (Nat × Bytes)}
    (hlead : (sketch parts 1).take 2 ≠ Container.atr.signature) : (sketched parts).Roomy :=
  roomy_plain (ofBuffer_sketched hlead)

/-- A disk on which all bytes are zero. -/
def zeroDisk : Image :=
  plain (Bytes.zeros 92160).toArray

theorem ofBuffer_zeroDisk : Image.ofBuffer (Bytes.zeros 92160).toArray = .ok zeroDisk := by
  refine ofBuffer_plain (by rw [List.size_toArray, Bytes.length_zeros]) ?_
  rw [Buffer.slice_toArray, Bytes.zeros, List.drop_zero, List.take_replicate]
  decide

theorem made_zeroDisk : zeroDisk.Made :=
  .inl ⟨_, ofBuffer_zeroDisk⟩

theorem roomy_zeroDisk : zeroDisk.Roomy :=
  roomy_plain ofBuffer_zeroDisk

/-- The disk that is made without any wishes. -/
def freshDisk : Image :=
  let header := { plainHeader with container := .atr }
  ⟨header.encode.toArray ++ Array.replicate header.imageSize 0, header, true, none, .idle⟩

theorem plan_freshDisk : DiskPlan.image {} = .ok freshDisk :=
  plan_image_eq_ok_iff.2 ⟨92160, _, rfl, rfl, by decide, rfl⟩

theorem made_freshDisk : freshDisk.Made :=
  .inr ⟨_, plan_freshDisk⟩

theorem roomy_freshDisk : freshDisk.Roomy :=
  ⟨made_freshDisk.sound.1, by decide, by decide⟩

end Image

end AtariDisk
