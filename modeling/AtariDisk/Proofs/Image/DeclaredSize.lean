import AtariDisk.Proofs.Header.Codec
import AtariDisk.Proofs.Image.Origin

/-!
# Declared sizes

An ATR header declares a size and a sector size. If the file has another size, its disk is fitted
anew, and the sector size that counts then is the one that the declared size has led to. Declaring
the size of a common disk of the other density therefore changes the geometry of a file, although
its own size should decide.
-/

namespace AtariDisk

namespace Geometry

theorem Layout.ofSize_of_telling {size : Nat} (htelling : size ∈ tellingSizes) (a b : Nat) :
    ofSize a size = ofSize b size := by
  simp only [tellingSizes, List.mem_cons, List.not_mem_nil, or_false] at htelling
  rcases htelling with rfl | rfl | rfl
  · rfl
  · rfl
  · rfl

/-- The hint shows in the geometry unless the size says everything. -/
theorem fit_hint_iff {a b size : Nat} {g f : Geometry} (hg : (empty a).fit size = .ok g)
    (hf : (empty b).fit size = .ok f) : f = g ↔ b = a ∨ size ∈ tellingSizes := by
  constructor
  · intro hsame
    by_cases htelling : size ∈ tellingSizes
    · exact .inr htelling
    · have ha : g.sectorSize = a :=
        (sectorSize_of_fit hg).trans (Layout.sectorSize_of_not_telling htelling a)
      have hb : f.sectorSize = b :=
        (sectorSize_of_fit hf).trans (Layout.sectorSize_of_not_telling htelling b)
      exact .inl (by rw [← ha, ← hb, hsame])
  · intro hcause
    have hlayout : Layout.ofSize b size = Layout.ofSize a size := by
      rcases hcause with rfl | htelling
      · rfl
      · exact Layout.ofSize_of_telling htelling b a
    have hfit : (empty b).fit size = (empty a).fit size := fit_congr rfl hlayout
    rw [hf, hg] at hfit
    exact Except.ok.inj hfit

end Geometry

namespace Header

/-- The sector size that is left of a declaration. -/
def hintFrom (lead : Bytes) : Nat :=
  (Geometry.Layout.ofSize (declaredSectorSize lead) (declaredSize lead)).sectorSize

end Header

namespace Image

/-- The bytes in front of the first sector of an ATR file. -/
def leadOf (data : Buffer) : Bytes :=
  Buffer.slice data 0 16

/-- The file has one geometry whatever its header declares: that of its size and of the sector size
that is left of the declaration. -/
theorem fit_of_ofBuffer {data : Buffer} {image : Image} (hread : Image.ofBuffer data = .ok image)
    (hatr : image.header.container = .atr) :
    (Header.declaredSectorSize (leadOf data) = 128 ∨
      Header.declaredSectorSize (leadOf data) = 256) ∧
      (Geometry.empty (Header.hintFrom (leadOf data))).fit (data.size - 16) =
        .ok image.header.toGeometry := by
  obtain ⟨header, hheader, rfl⟩ := ofBuffer_eq_ok_iff.1 hread
  have hdetect : Container.detect (leadOf data) = .atr :=
    (fitted_of_headerIn hheader).2.2.symm.trans hatr
  rw [headerIn, ← leadOf] at hheader
  rw [hdetect] at hheader
  obtain ⟨declared, hdecode, hrest⟩ := Outcome.bind_eq_ok_iff.1 hheader
  obtain ⟨hknown, hfit⟩ := Header.geometry_of_decode hdecode
  have hfitted := (Header.fitted_of_decode hdecode).1
  have hhint : declared.sectorSize = Header.hintFrom (leadOf data) := by
    rw [Header.hintFrom, Geometry.sectorSize_of_fit hfit, Geometry.empty]
  refine ⟨hknown, ?_⟩
  split at hrest
  · rename_i hsame
    rw [← Except.ok.inj hrest, hsame]
    exact hfitted.refit rfl hhint.symm
  · obtain ⟨g, hagain, hgeometry⟩ := Outcome.bind_eq_ok_iff.1 hrest
    rw [← Except.ok.inj hgeometry, ← hagain]
    apply Geometry.fit_congr hfitted.regular.first.symm
    exact congrArg (Geometry.Layout.ofSize · (data.size - 16)) hhint.symm

/-- The files differ at most in the bytes that declare the size. -/
structure AgreeButSize (data other : Buffer) : Prop where
  size : other.size = data.size
  bytes : ∀ i, i ≠ 2 → i ≠ 3 → i ≠ 6 → other[i]? = data[i]?

theorem AgreeButSize.declaredSectorSize_eq {data other : Buffer}
    (hagree : AgreeButSize data other) :
    Header.declaredSectorSize (leadOf other) = Header.declaredSectorSize (leadOf data) := by
  unfold Header.declaredSectorSize leadOf
  congr 1
  apply List.ext_getElem?
  intro i
  by_cases hi : i < 2
  · rw [List.getElem?_take_of_lt hi, List.getElem?_take_of_lt hi, List.getElem?_drop,
      List.getElem?_drop, Buffer.getElem?_slice, Buffer.getElem?_slice,
      hagree.bytes _ (by omega) (by omega) (by omega)]
  · rw [List.getElem?_take_eq_none (by omega), List.getElem?_take_eq_none (by omega)]

/-- The declaration of a file misleads. -/
def Misled (data : Buffer) : Prop :=
  Geometry.Misleads (Header.declaredSectorSize (leadOf data)) (Header.declaredSize (leadOf data))

instance (data : Buffer) : Decidable (Misled data) :=
  inferInstanceAs (Decidable (Geometry.Misleads _ _))

/-- **The size that a header declares does not matter, unless it misleads.** The geometry of an ATR
file is that of its own size and of the declared sector size exactly if the declaration does not
mislead or the file has a telling size. Two files that differ in the declared size only have the
same geometry exactly if both declarations mislead, or none does, or the files have a telling
size. -/
theorem geometry_of_declaration_iff {data other : Buffer} {image twin : Image}
    (hread : Image.ofBuffer data = .ok image) (htwin : Image.ofBuffer other = .ok twin)
    (hatr : image.header.container = .atr) (htwinAtr : twin.header.container = .atr)
    (hagree : AgreeButSize data other) :
    ((Geometry.empty (Header.declaredSectorSize (leadOf data))).fit (data.size - 16) =
        .ok image.header.toGeometry ↔
      ¬Misled data ∨ data.size - 16 ∈ Geometry.tellingSizes) ∧
    (twin.header.toGeometry = image.header.toGeometry ↔
      (Misled data ↔ Misled other) ∨ data.size - 16 ∈ Geometry.tellingSizes) := by
  obtain ⟨hknown, hfit⟩ := fit_of_ofBuffer hread hatr
  obtain ⟨_, htwinFit⟩ := fit_of_ofBuffer htwin htwinAtr
  have hdeclared := hagree.declaredSectorSize_eq
  rw [hagree.size] at htwinFit
  have hhint : Header.hintFrom (leadOf data) = Header.declaredSectorSize (leadOf data) ↔
      ¬Misled data := Geometry.Layout.sectorSize_eq_iff hknown _
  have htwinHint : Header.hintFrom (leadOf other) = Header.declaredSectorSize (leadOf data) ↔
      ¬Misled other := by
    rw [← hdeclared] at hknown ⊢
    exact Geometry.Layout.sectorSize_eq_iff hknown _
  constructor
  · obtain ⟨plain, hplain⟩ := Geometry.exists_fit
      (g := .empty (Header.declaredSectorSize (leadOf data))) hknown (data.size - 16)
    rw [hplain, Except.ok.injEq, Geometry.fit_hint_iff hfit hplain, ← hhint, eq_comm]
  · rw [Geometry.fit_hint_iff hfit htwinFit]
    -- There are two sector sizes only, so two hints that are both misled are the same.
    have hcases : Header.hintFrom (leadOf data) = 128 ∨ Header.hintFrom (leadOf data) = 256 :=
      Geometry.Layout.sectorSize_cases hknown _
    have htwinCases : Header.hintFrom (leadOf other) = 128 ∨
        Header.hintFrom (leadOf other) = 256 :=
      Geometry.Layout.sectorSize_cases (hdeclared ▸ hknown) _
    have hsame : Header.hintFrom (leadOf other) = Header.hintFrom (leadOf data) ↔
        (Misled data ↔ Misled other) := by
      rw [← Decidable.not_iff_not (a := Misled data), ← hhint, ← htwinHint]
      omega
    rw [hsame]

/-! ### A misleading declaration -/

/-- A file with 1024 bytes of sectors, whose header declares sectors of 256 bytes and so many
paragraphs. -/
def declaring (paragraphs : Nat) : Buffer :=
  (Container.atr.signature ++ Bytes.little 2 paragraphs ++ Bytes.little 2 256 ++
    Bytes.little 1 (paragraphs / 65536) ++ Bytes.zeros (9 + 1024)).toArray

theorem size_declaring (paragraphs : Nat) : (declaring paragraphs).size = 1040 := by
  simp [declaring, Container.signature]

theorem leadOf_declaring (paragraphs : Nat) :
    leadOf (declaring paragraphs) =
      Container.atr.signature ++ Bytes.little 2 paragraphs ++ Bytes.little 2 256 ++
        Bytes.little 1 (paragraphs / 65536) ++ Bytes.zeros 9 := by
  rw [leadOf, declaring, Buffer.slice_toArray]
  rfl

theorem agreeButSize_declaring (a b : Nat) : AgreeButSize (declaring a) (declaring b) := by
  have hsize := (size_declaring b).trans (size_declaring a).symm
  refine ⟨hsize, ?_⟩
  intro i h2 h3 h6
  match i with
  | 0 => rfl
  | 1 => rfl
  | 4 => rfl
  | 5 => rfl
  | _ + 7 => rfl

/-- 1024 bytes in sectors of one size. -/
def kilobyteHeader (sectorSize : Nat) : Header :=
  ⟨⟨1024, sectorSize, 0, 0, 1, 1024 / sectorSize, 18⟩, .atr, 0, 0, 0⟩

theorem exists_declaring {paragraphs : Nat} {header : Header}
    (hheader : headerIn (declaring paragraphs) = .ok header) :
    ∃ image, Image.ofBuffer (declaring paragraphs) = .ok image ∧ image.header = header :=
  ⟨_, ofBuffer_eq_ok_iff.2 ⟨header, hheader, rfl⟩, rfl⟩

theorem headerIn_declaring_actual : headerIn (declaring 64) = .ok (kilobyteHeader 256) := by
  have hlead := leadOf_declaring 64
  rw [leadOf] at hlead
  rw [headerIn, hlead, size_declaring]
  rfl

/-- The header declares 92160 bytes, as on a disk with sectors of 128 bytes. -/
theorem headerIn_declaring_single : headerIn (declaring 5760) = .ok (kilobyteHeader 128) := by
  have hlead := leadOf_declaring 5760
  rw [leadOf] at hlead
  rw [headerIn, hlead, size_declaring]
  rfl

/-- Two files that differ in the declared size only have sectors of different size. -/
theorem declared_size_changes_geometry :
    ∃ image twin : Image, Image.ofBuffer (declaring 64) = .ok image ∧
      Image.ofBuffer (declaring 5760) = .ok twin ∧ image.header.container = .atr ∧
      twin.header.container = .atr ∧ AgreeButSize (declaring 64) (declaring 5760) ∧
      image.header.sectorSize = 256 ∧ image.header.sectorCount = 4 ∧
      twin.header.sectorSize = 128 ∧ twin.header.sectorCount = 8 := by
  obtain ⟨image, hread, hheader⟩ := exists_declaring headerIn_declaring_actual
  obtain ⟨twin, htwin, htwinHeader⟩ := exists_declaring headerIn_declaring_single
  refine ⟨image, twin, hread, htwin, ?_, ?_, agreeButSize_declaring 64 5760, ?_⟩
  · rw [hheader]
    rfl
  · rw [htwinHeader]
    rfl
  · rw [hheader, htwinHeader]
    exact ⟨rfl, rfl, rfl, rfl⟩

/-- Only the second of these declarations misleads, and the geometry tells. -/
theorem geometry_of_declaration_iff_mixed :
    ∃ image twin : Image, Image.ofBuffer (declaring 64) = .ok image ∧
      Image.ofBuffer (declaring 5760) = .ok twin ∧ ¬Misled (declaring 64) ∧
      Misled (declaring 5760) ∧ (Geometry.empty 256).fit 1024 = .ok image.header.toGeometry ∧
      twin.header.toGeometry ≠ image.header.toGeometry := by
  obtain ⟨image, hread, hheader⟩ := exists_declaring headerIn_declaring_actual
  obtain ⟨twin, htwin, htwinHeader⟩ := exists_declaring headerIn_declaring_single
  have hfair : ¬Misled (declaring 64) := by
    rw [Misled, leadOf_declaring]
    decide
  have hmisled : Misled (declaring 5760) := by
    rw [Misled, leadOf_declaring]
    decide
  have hsector : Header.declaredSectorSize (leadOf (declaring 64)) = 256 := by
    rw [leadOf_declaring]
    rfl
  obtain ⟨hown, hpair⟩ := geometry_of_declaration_iff hread htwin (by rw [hheader]; rfl)
    (by rw [htwinHeader]; rfl) (agreeButSize_declaring 64 5760)
  simp only [size_declaring, hsector, Nat.reduceSub] at hown hpair
  refine ⟨image, twin, hread, htwin, hfair, hmisled, hown.2 (.inl hfair), ?_⟩
  rw [ne_eq, hpair, not_or]
  exact ⟨fun hsame => hfair (hsame.2 hmisled), by decide⟩

end Image

end AtariDisk
