import AtariDisk.Header
import AtariDisk.Proofs.Bytes
import AtariDisk.Proofs.Geometry

/-!
# Headers

The geometry in a header is what fitting a disk to its bytes comes to, wherever the header is from.
An ATR header that says how many bytes there are is read back as it was written.
-/

namespace AtariDisk

theorem Geometry.refusesOnly_fit (g : Geometry) (size : Nat) :
    (g.fit size).RefusesOnly .format := by
  unfold Geometry.fit
  simp only
  split
  · exact Outcome.refusesOnly_refuse rfl
  · exact Outcome.refusesOnly_ok _

namespace Header

theorem length_le (h : Header) : h.length ≤ 16 := by
  unfold length
  cases h.container with
  | atr => exact Nat.le_refl _
  | xfd => exact Nat.zero_le _

theorem length_encode (h : Header) : h.encode.length = h.length := by
  unfold encode length Container.headerLength
  cases h.container with
  | atr => simp [Container.signature]
  | xfd => rfl

theorem ofSize_eq_ok_iff {container : Container} {size sectorSize : Nat} {h : Header} :
    ofSize container size sectorSize = .ok h ↔
      (sectorSize = 128 ∨ sectorSize = 256) ∧
        ∃ g, (Geometry.empty sectorSize).fit size = .ok g ∧ h = ⟨g, container, 0, 0, 0⟩ := by
  unfold ofSize
  by_cases hknown : sectorSize = 128 ∨ sectorSize = 256
  · rw [if_neg (by simp only [Geometry.singleDensitySize, Geometry.doubleDensitySize]; omega),
      Outcome.bind_eq_ok_iff]
    simp only [hknown, true_and, Outcome.pure_eq_ok, Except.ok.injEq, eq_comm]
  · rw [if_pos (by simp only [Geometry.singleDensitySize, Geometry.doubleDensitySize]; omega)]
    simp [hknown]

theorem refusesOnly_ofSize (container : Container) (size sectorSize : Nat) :
    (ofSize container size sectorSize).RefusesOnly .format := by
  unfold ofSize
  split
  · exact Outcome.refusesOnly_refuse rfl
  · exact (Geometry.refusesOnly_fit _ _).bind fun _ _ => Outcome.refusesOnly_ok _

theorem refusesOnly_decode (bytes : Bytes) : (decode bytes).RefusesOnly .format := by
  unfold decode
  split
  · simp only
    split
    · exact Outcome.refusesOnly_refuse rfl
    · exact (refusesOnly_ofSize _ _ _).bind fun _ _ => Outcome.refusesOnly_ok _
  · exact Outcome.refusesOnly_refuse rfl

/-! ### Geometries of headers -/

theorem fitted_of_ofSize {container : Container} {size sectorSize : Nat} {h : Header}
    (hsized : ofSize container size sectorSize = .ok h) :
    h.toGeometry.Fitted ∧ h.imageSize = size ∧ h.container = container := by
  obtain ⟨hknown, g, hfit, rfl⟩ := ofSize_eq_ok_iff.1 hsized
  obtain ⟨hfitted, hsize⟩ := Geometry.Fitted.of_fit rfl hknown hfit
  exact ⟨hfitted, hsize, rfl⟩

theorem fitted_of_fit {h fitted : Header} {size : Nat} (hregular : h.toGeometry.Regular)
    (hfit : h.fit size = .ok fitted) :
    fitted.toGeometry.Fitted ∧ fitted.imageSize = size ∧ fitted.container = h.container := by
  unfold fit at hfit
  obtain ⟨g, hgeometry, hheader⟩ := Outcome.bind_eq_ok_iff.1 hfit
  simp only [Outcome.pure_eq_ok, Except.ok.injEq] at hheader
  subst hheader
  obtain ⟨hfitted, hsize⟩ := Geometry.Fitted.of_fit hregular.first hregular.size hgeometry
  exact ⟨hfitted, hsize, rfl⟩

theorem fitted_of_decode {bytes : Bytes} {h : Header} (hdecode : decode bytes = .ok h) :
    h.toGeometry.Fitted ∧ h.container = .atr := by
  unfold decode at hdecode
  split at hdecode
  · simp only at hdecode
    split at hdecode
    · simp at hdecode
    · obtain ⟨plain, hsized, hheader⟩ := Outcome.bind_eq_ok_iff.1 hdecode
      obtain ⟨hfitted, _, hatr⟩ := fitted_of_ofSize hsized
      simp only [Outcome.pure_eq_ok, Except.ok.injEq] at hheader
      subst hheader
      exact ⟨hfitted, hatr⟩
  · simp at hdecode

/-- The size and the sector size of a disk are enough to make its header again. -/
theorem ofSize_of_fitted {g : Geometry} (hfitted : g.Fitted) (container : Container) :
    ofSize container g.imageSize g.sectorSize = .ok ⟨g, container, 0, 0, 0⟩ :=
  ofSize_eq_ok_iff.2 ⟨hfitted.regular.size, g, hfitted.refit rfl rfl, rfl⟩

/-- The size alone is enough if sectors are of single density, or if it is the size of a common disk
of double density. -/
theorem ofSize_single_iff {g : Geometry} (hfitted : g.Fitted) (container : Container) :
    ofSize container g.imageSize Geometry.singleDensitySize = .ok ⟨g, container, 0, 0, 0⟩ ↔
      g.sectorSize = 128 ∨ g.imageSize = 183936 ∨ g.imageSize = 184320 := by
  have hguess : ofSize container g.imageSize Geometry.singleDensitySize =
      .ok ⟨g, container, 0, 0, 0⟩ ↔ (Geometry.empty 128).fit g.imageSize = .ok g := by
    rw [ofSize_eq_ok_iff]
    constructor
    · rintro ⟨_, found, hfit, hsame⟩
      obtain rfl : g = found := congrArg Header.toGeometry hsame
      exact hfit
    · intro hfit
      exact ⟨.inl rfl, g, hfit, rfl⟩
  rw [hguess]
  constructor
  · intro hfit
    have hsector := Geometry.sectorSize_of_fit hfit
    rcases Geometry.Layout.ofSize_inv 128 g.imageSize with
      ⟨_, h⟩ | ⟨hsize, _⟩ | ⟨hsize, _⟩ | ⟨hhint, _⟩ | h
    · exact .inl (hsector.trans (congrArg Geometry.Layout.sectorSize h))
    · exact .inr (.inr hsize)
    · exact .inr (.inl hsize)
    · exact absurd hhint (by decide)
    · exact .inl (hsector.trans (congrArg Geometry.Layout.sectorSize h))
  · -- The sizes of common disks leave no choice to the hint that the disk was fitted with.
    have hcommon : ∀ size, (∀ hint, Geometry.Layout.ofSize hint size =
        Geometry.Layout.ofSize 128 size) → g.imageSize = size →
          (Geometry.empty 128).fit g.imageSize = .ok g := by
      intro size hlayout hsize
      obtain ⟨blank, hfirst, _, hfit⟩ := hfitted
      rw [← hfit]
      apply Geometry.fit_congr hfirst.symm
      rw [hsize]
      exact (hlayout _).symm
    rintro (hsingle | hsize | hsize)
    · exact hfitted.refit rfl hsingle.symm
    · exact hcommon 183936 (fun _ => rfl) hsize
    · exact hcommon 184320 (fun _ => rfl) hsize

/-! ### Reading a header back -/

theorem detect_encode {h : Header} (hatr : h.container = .atr) :
    Container.detect h.encode = .atr := by
  have hlength : h.encode.length = 16 := by
    rw [length_encode, length, hatr]
    rfl
  have hsignature : h.encode.take 2 = Container.atr.signature := by
    unfold encode
    rw [hatr]
    rfl
  unfold Container.detect
  rw [hsignature, hlength]
  rfl

/-- A field of 32 bits is read back as it was written. -/
theorem ofNat_littleValue_little (field : UInt32) :
    UInt32.ofNat (Bytes.littleValue (Bytes.little 4 field.toNat)) = field := by
  have hshort : field.toNat < 256 ^ 4 := field.toNat_lt
  rw [Bytes.littleValue_little, Nat.mod_eq_of_lt hshort, UInt32.ofNat_toNat]

/-- A header is read back as it was written if its size is a number of paragraphs that takes up at
most three bytes. -/
theorem decode_encode {h : Header} (hatr : h.container = .atr) (hfitted : h.toGeometry.Fitted)
    (hwhole : h.imageSize % paragraph = 0) (hsmall : h.imageSize < 2 ^ 28) :
    decode h.encode = .ok h := by
  obtain ⟨g, container, crc, unused, flags⟩ := h
  simp only at hatr hfitted hwhole hsmall
  subst hatr
  have hparagraph : paragraph = 16 := rfl
  have hsector : Bytes.littleValue (Bytes.little 2 g.sectorSize) = g.sectorSize := by
    have hcases := hfitted.regular.size
    exact Bytes.littleValue_little_of_lt (by omega)
  have hsize : Bytes.littleValue (Bytes.little 3 (g.imageSize / paragraph)) * paragraph =
      g.imageSize := by
    rw [Bytes.littleValue_little]
    rw [hparagraph] at hwhole ⊢
    omega
  have hhigh : g.imageSize / paragraph / 256 / 256 = g.imageSize / paragraph / 0x10000 :=
    Nat.div_div_eq_div_mul ..
  have hcrc := ofNat_littleValue_little crc
  have hunused := ofNat_littleValue_little unused
  simp only [Bytes.little, hhigh] at hsector hsize hcrc hunused
  unfold encode decode
  simp only [Container.signature, Bytes.little, List.cons_append, List.nil_append, hsector, hsize,
    hcrc, hunused, ofSize_of_fitted hfitted, Outcome.ok_bind]
  rfl

end Header

end AtariDisk
