import AtariDisk.Proofs.Header

/-!
# Headers and their bytes

An ATR header declares a size and a sector size. Both come back from the header that is written, but
for the sector size where the declared size is known from disks of the other density: there the
header is read with the sectors of that density, and written with them. The other bytes are written
as they were read.
-/

namespace AtariDisk

namespace Geometry

/-- Sizes that say by themselves what the sectors are like. -/
def tellingSizes : List Nat :=
  [singleDensityBytes, shortBootDensityBytes, doubleDensityBytes]

theorem Layout.sectorSize_of_not_telling {size : Nat} (hsilent : size ∉ tellingSizes)
    (hint : Nat) : (ofSize hint size).sectorSize = hint := by
  simp only [tellingSizes, List.mem_cons, List.not_mem_nil, or_false, not_or] at hsilent
  obtain ⟨hsingle, hshort, hdouble⟩ := hsilent
  rcases ofSize_inv hint size with ⟨h, _⟩ | ⟨h, _⟩ | ⟨h, _⟩ | ⟨rfl, _, _, h⟩ | h
  · exact absurd h hsingle
  · exact absurd h hdouble
  · exact absurd h hshort
  · exact congrArg sectorSize h
  · exact congrArg sectorSize h

/-- A size is declared that is known from disks with sectors of another size than declared. -/
def Misleads (sectorSize size : Nat) : Prop :=
  sectorSize = 256 ∧ size = 92160 ∨ sectorSize = 128 ∧ (size = 183936 ∨ size = 184320)

instance (sectorSize size : Nat) : Decidable (Misleads sectorSize size) :=
  inferInstanceAs (Decidable (_ ∨ _))

theorem Layout.sectorSize_eq_iff {hint : Nat} (hhint : hint = 128 ∨ hint = 256) (size : Nat) :
    (ofSize hint size).sectorSize = hint ↔ ¬Misleads hint size := by
  unfold Misleads
  by_cases htelling : size ∈ tellingSizes
  · simp only [tellingSizes, List.mem_cons, List.not_mem_nil, or_false] at htelling
    rcases htelling with rfl | rfl | rfl
    · have hsector : (ofSize hint singleDensityBytes).sectorSize = 128 := rfl
      rw [hsector, singleDensityBytes]
      omega
    · have hsector : (ofSize hint shortBootDensityBytes).sectorSize = 256 := rfl
      rw [hsector, shortBootDensityBytes]
      omega
    · have hsector : (ofSize hint doubleDensityBytes).sectorSize = 256 := rfl
      rw [hsector, doubleDensityBytes]
      omega
  · have hsize := sectorSize_of_not_telling htelling hint
    simp only [tellingSizes, singleDensityBytes, shortBootDensityBytes, doubleDensityBytes,
      List.mem_cons, List.not_mem_nil, or_false, not_or] at htelling
    omega

end Geometry

namespace Header

/-- The sector size in the bytes of a header. -/
def declaredSectorSize (lead : Bytes) : Nat :=
  Bytes.littleValue ((lead.drop 4).take 2)

/-- The size in the bytes of a header. -/
def declaredSize (lead : Bytes) : Nat :=
  Bytes.littleValue ((lead.drop 2).take 2 ++ (lead.drop 6).take 1) * paragraph

theorem geometry_of_decode {lead : Bytes} {h : Header} (hdecode : decode lead = .ok h) :
    (declaredSectorSize lead = 128 ∨ declaredSectorSize lead = 256) ∧
      (Geometry.empty (declaredSectorSize lead)).fit (declaredSize lead) = .ok h.toGeometry := by
  unfold decode at hdecode
  split at hdecode
  · simp only at hdecode
    split at hdecode
    · exact absurd hdecode (Outcome.refuse_ne_ok _ _)
    · obtain ⟨plain, hsized, hheader⟩ := Outcome.bind_eq_ok_iff.1 hdecode
      obtain ⟨hknown, g, hfit, rfl⟩ := ofSize_eq_ok_iff.1 hsized
      rw [← Except.ok.inj hheader]
      exact ⟨hknown, hfit⟩
  · exact absurd hdecode (Outcome.refuse_ne_ok _ _)

/-! ### Writing what was read -/

/-- A field of 32 bits is written as it was read. -/
theorem little_ofNat_littleValue {field : Bytes} (hlength : field.length = 4) :
    Bytes.little 4 (UInt32.ofNat (Bytes.littleValue field)).toNat = field := by
  have hshort := Bytes.littleValue_lt field
  rw [hlength] at hshort
  rw [UInt32.toNat_ofNat_of_lt' hshort, ← hlength, Bytes.little_littleValue]

/-- The number of paragraphs is written as it was read, its high byte apart from the others. -/
theorem little_paragraphs (p₀ p₁ p₂ : UInt8) :
    Bytes.little 2 (Bytes.littleValue [p₀, p₁, p₂]) = [p₀, p₁] ∧
      UInt8.ofNat (Bytes.littleValue [p₀, p₁, p₂] / 0x10000) = p₂ := by
  have hback : Bytes.little 3 (Bytes.littleValue [p₀, p₁, p₂]) = [p₀, p₁, p₂] :=
    Bytes.little_littleValue [p₀, p₁, p₂]
  simp only [Bytes.little, List.cons.injEq, and_true, Nat.div_div_eq_div_mul] at hback ⊢
  exact ⟨⟨hback.1, hback.2.1⟩, hback.2.2⟩

section Reread

variable {bytes : Bytes} {h : Header} (hlength : bytes.length = 16) (hdecode : decode bytes = .ok h)

include hlength hdecode

/-- A header that was read is written with the bytes it was read from, but for the sector size. -/
theorem encode_of_decode : h.encode = bytes.splice 4 (Bytes.little 2 h.sectorSize) := by
  match bytes, hlength with
  | [s₀, s₁, p₀, p₁, z₀, z₁, p₂, c₀, c₁, c₂, c₃, u₀, u₁, u₂, u₃, flags], _ =>
    simp only [decode] at hdecode
    split at hdecode
    · exact absurd hdecode (Outcome.refuse_ne_ok _ _)
    · rename_i hfound
      obtain ⟨plain, hsized, hheader⟩ := Outcome.bind_eq_ok_iff.1 hdecode
      obtain ⟨_, hsize, hatr⟩ := fitted_of_ofSize hsized
      obtain rfl := Except.ok.inj hheader
      have hsignature : Container.atr.signature = [s₀, s₁] := by
        rw [Container.signature, ← Decidable.of_not_not hfound]
        exact Bytes.little_littleValue [s₀, s₁]
      have hparagraphs : plain.imageSize / paragraph = Bytes.littleValue [p₀, p₁, p₂] := by
        rw [hsize]
        exact Nat.mul_div_cancel _ (by decide)
      obtain ⟨hlow, hhigh⟩ := little_paragraphs p₀ p₁ p₂
      have hcrc := little_ofNat_littleValue (show [c₀, c₁, c₂, c₃].length = 4 from rfl)
      have hunused := little_ofNat_littleValue (show [u₀, u₁, u₂, u₃].length = 4 from rfl)
      simp only [encode, hatr, hparagraphs, hsignature, hlow, hhigh, hcrc, hunused]
      rfl

/-- The bytes come out as they were unless they declare a size known from other sectors. -/
theorem encode_eq_iff :
    h.encode = bytes ↔ ¬Geometry.Misleads (declaredSectorSize bytes) (declaredSize bytes) := by
  obtain ⟨hknown, hfit⟩ := geometry_of_decode hdecode
  have hwindow : ((bytes.drop 4).take 2).length = 2 := by
    rw [List.length_take, List.length_drop, hlength]
    rfl
  have hfits : 4 + (Bytes.little 2 h.sectorSize).length ≤ bytes.length := by
    rw [Bytes.length_little, hlength]
    decide
  have hsector : h.sectorSize =
      (Geometry.Layout.ofSize (declaredSectorSize bytes) (declaredSize bytes)).sectorSize :=
    Geometry.sectorSize_of_fit hfit
  rw [encode_of_decode hlength hdecode, Bytes.splice_eq_self_iff hfits, Bytes.length_little,
    ← Geometry.Layout.sectorSize_eq_iff hknown, ← hsector]
  constructor
  · intro hsame
    have hsmall := (fitted_of_decode hdecode).1.regular.size
    rw [declaredSectorSize, hsame, Bytes.littleValue_little_of_lt (by omega)]
  · intro hsame
    have hback := Bytes.little_littleValue ((bytes.drop 4).take 2)
    rw [hwindow] at hback
    rw [hsame, declaredSectorSize, hback]

end Reread

/-- **Headers and their bytes.** A header for any number of whole paragraphs below `2 ^ 28` bytes,
whatever its other fields hold, is read back from its bytes. Any 16 bytes that are read as a header
are written again, the sector size apart; they are exactly the same unless they declare one of the
three sizes known from common disks together with the sector size of the other density. -/
theorem reads_back_and_restores :
    (∀ size sectorSize crc unused flags, size % 16 = 0 → size < 2 ^ 28 →
        sectorSize = 128 ∨ sectorSize = 256 →
        ∃ plain, ofSize .atr size sectorSize = .ok plain ∧
          decode { plain with crc, unused, flags }.encode =
            .ok { plain with crc, unused, flags }) ∧
      ∀ bytes h, bytes.length = 16 → decode bytes = .ok h →
        h.encode.length = 16 ∧ (∀ i, i ≠ 4 → i ≠ 5 → h.encode[i]? = bytes[i]?) ∧
          (h.encode = bytes ↔
            ¬(declaredSize bytes = 92160 ∧ declaredSectorSize bytes = 256) ∧
              ¬((declaredSize bytes = 183936 ∨ declaredSize bytes = 184320) ∧
                declaredSectorSize bytes = 128)) := by
  constructor
  · intro size sectorSize crc unused flags hwhole hsmall hsector
    obtain ⟨g, hfit⟩ := Geometry.exists_fit (g := .empty sectorSize) hsector size
    have hsized : ofSize .atr size sectorSize = .ok ⟨g, .atr, 0, 0, 0⟩ :=
      ofSize_eq_ok_iff.2 ⟨hsector, g, hfit, rfl⟩
    obtain ⟨hfitted, rfl, _⟩ := fitted_of_ofSize hsized
    exact ⟨_, hsized, decode_encode rfl hfitted hwhole hsmall⟩
  · intro bytes h hlength hdecode
    have hencode := encode_of_decode hlength hdecode
    have hfits : 4 + (Bytes.little 2 h.sectorSize).length ≤ bytes.length := by
      rw [Bytes.length_little, hlength]
      decide
    refine ⟨?_, ?_, ?_⟩
    · rw [hencode, Bytes.length_splice hfits, hlength]
    · intro i hfour hfive
      rw [hencode, Bytes.getElem?_splice hfits, if_neg]
      rw [Bytes.length_little]
      omega
    · rw [encode_eq_iff hlength hdecode, Geometry.Misleads]
      omega

/-- A header that declares 720 sectors of 128 bytes and sectors of 256 bytes. -/
def misleading : Bytes :=
  [0x96, 0x02, 0x80, 0x16, 0x00, 0x01, 0x00, 1, 2, 3, 4, 5, 6, 7, 8, 9]

/-- The bytes are read as a header with sectors of 128 bytes, and only those of the sector size
change when it is written. -/
theorem reads_back_and_restores_misleading :
    ∃ plain h, ofSize .atr 92160 256 = .ok plain ∧
      h = { plain with crc := 0x04030201, unused := 0x08070605, flags := 9 } ∧
      decode misleading = .ok h ∧ h.encode ≠ misleading ∧ h.encode[4]? = some 0x80 ∧
      h.encode[6]? = misleading[6]? ∧ decode h.encode = .ok h := by
  obtain ⟨hback, hrestored⟩ := reads_back_and_restores
  obtain ⟨plain, hsized, hread⟩ :=
    hback 92160 256 0x04030201 0x08070605 9 (by decide) (by decide) (.inr rfl)
  have hdecode : decode misleading =
      .ok { plain with crc := 0x04030201, unused := 0x08070605, flags := 9 } := by
    obtain rfl := Except.ok.inj hsized
    rfl
  obtain ⟨_, hagree, hsame⟩ := hrestored misleading _ rfl hdecode
  refine ⟨plain, _, hsized, rfl, hdecode, ?_, ?_, hagree 6 (by decide) (by decide), hread⟩
  · rw [ne_eq, hsame]
    decide
  · obtain rfl := Except.ok.inj hsized
    rfl

end Header

end AtariDisk
