import AtariDisk.DataSector
import AtariDisk.Proofs.Bytes
import AtariDisk.Proofs.Outcome
import Mathlib.Data.List.GetD

/-!
# Data sectors and their bytes

A piece of a file is written to any sector that has room for it and for the link, as long as its
numbers fit into the link. It is read back exactly if its length fits into the link as well. A
sector that can be read is written again with the same payload and the same link; the bytes between
them, which no file uses, become zero.
-/

namespace AtariDisk

/-- What the last three bytes of a sector say. -/
structure SectorLink where
  owner : Nat
  next : Nat
  used : Nat
deriving DecidableEq, Repr

/-- Six bits of owner and ten bits of next sector, then the number of bytes that are used. -/
def SectorLink.ofBytes (raw : Bytes) : SectorLink where
  owner := (raw.getD (raw.length - 3) 0).toNat / 4
  next := (raw.getD (raw.length - 3) 0).toNat % 4 * 256 + (raw.getD (raw.length - 2) 0).toNat
  used := (raw.getD (raw.length - 1) 0).toNat

theorem drop_link {raw : Bytes} (hlong : 3 ≤ raw.length) :
    raw.drop (raw.length - 3) =
      [raw.getD (raw.length - 3) 0, raw.getD (raw.length - 2) 0, raw.getD (raw.length - 1) 0] := by
  rw [List.getD_eq_getElem raw 0 (show raw.length - 3 < raw.length by omega),
    List.getD_eq_getElem raw 0 (show raw.length - 2 < raw.length by omega),
    List.getD_eq_getElem raw 0 (show raw.length - 1 < raw.length by omega)]
  apply List.ext_getElem
  · simp only [List.length_drop, List.length_cons, List.length_nil]
    omega
  · intro i hi _
    rw [List.length_drop] at hi
    rw [List.getElem_drop]
    match i, hi with
    | 0, _ => rfl
    | 1, _ => exact getElem_congr_idx (by omega)
    | 2, _ => exact getElem_congr_idx (by omega)
    | i + 3, hi => omega

theorem SectorLink.ofBytes_eq {raw : Bytes} {high low used : UInt8} (hlong : 3 ≤ raw.length)
    (hlink : raw.drop (raw.length - 3) = [high, low, used]) :
    ofBytes raw = ⟨high.toNat / 4, high.toNat % 4 * 256 + low.toNat, used.toNat⟩ := by
  rw [drop_link hlong] at hlink
  simp only [List.cons.injEq, and_true] at hlink
  obtain ⟨hhigh, hlow, hused⟩ := hlink
  rw [ofBytes, hhigh, hlow, hused]

namespace DataSector

variable {s : DataSector} {size : Nat}

/-! ### Writing -/

/-- What a sector of `size` bytes can hold. -/
structure Fits (s : DataSector) (size : Nat) : Prop where
  payload : s.payload.length + linkSize ≤ size
  owner : s.owner ≤ maxOwner
  next : s.next ≤ maxNext

theorem fits_iff (hsize : linkSize ≤ size) :
    s.Fits size ↔ s.payload.length ≤ size - 3 ∧ s.owner ≤ 63 ∧ s.next ≤ 1023 := by
  simp only [linkSize] at hsize
  constructor
  · rintro ⟨hpayload, howner, hnext⟩
    simp only [linkSize] at hpayload
    exact ⟨by omega, howner, hnext⟩
  · rintro ⟨hpayload, howner, hnext⟩
    exact ⟨by simp only [linkSize]; omega, howner, hnext⟩

/-- Nothing but the memory can still stand against a sector that holds what it should. -/
theorem check_eq (hfits : s.Fits size) : s.check size = Word.allocate size := by
  obtain ⟨hpayload, howner, hnext⟩ := hfits
  unfold check
  rw [Word.sub_eq_ok_iff.2 ⟨by omega, rfl⟩, Outcome.ok_bind, if_neg (by omega), if_neg (by omega)]

theorem fits_of_check (hcheck : s.check size = .ok ()) : s.Fits size := by
  unfold check at hcheck
  obtain ⟨capacity, hsub, hrest⟩ := Outcome.bind_eq_ok_iff.1 hcheck
  obtain ⟨hlink, hcapacity⟩ := Word.sub_eq_ok_iff.1 hsub
  split at hrest
  · exact absurd hrest (Outcome.refuse_ne_ok _ _)
  · split at hrest
    · exact absurd hrest (Outcome.refuse_ne_ok _ _)
    · exact ⟨by omega, by omega, by omega⟩

theorem check_eq_ok (hfits : s.Fits size) (hsize : size ≤ 256) : s.check size = .ok () := by
  rw [check_eq hfits, Word.allocate_of_le hsize]

theorem settles_check (s : DataSector) (hsize : size ≤ 256) (hlink : linkSize ≤ size) :
    (s.check size).Settles := by
  unfold check
  rw [Word.sub_eq_ok_iff.2 ⟨hlink, rfl⟩, Outcome.ok_bind, Word.allocate_of_le hsize]
  split
  · exact Outcome.settles_refuse _
  · split
    · exact Outcome.settles_refuse _
    · exact Outcome.settles_ok _

/-- All that writing a sector can answer. -/
theorem encode_eq_ok_iff {raw : Bytes} :
    s.encode size = .ok raw ↔
      s.Fits size ∧ size < Word.memoryBound ∧ raw = s.bytes size := by
  unfold encode
  constructor
  · intro hencode
    obtain ⟨⟨⟩, hcheck, hraw⟩ := Outcome.bind_eq_ok_iff.1 hencode
    have hfits := fits_of_check hcheck
    rw [check_eq hfits, Word.allocate] at hcheck
    split at hcheck
    · rename_i hsmall
      exact ⟨hfits, hsmall, (Except.ok.inj hraw).symm⟩
    · simp [trap] at hcheck
  · rintro ⟨hfits, hsmall, rfl⟩
    rw [check_eq hfits, Word.allocate, if_pos hsmall]
    rfl

theorem encode_eq_trap (hfits : s.Fits size) (hlarge : Word.memoryBound ≤ size) :
    s.encode size = trap .tooLarge := by
  unfold encode
  rw [check_eq hfits, Word.allocate, if_neg (Nat.not_lt.2 hlarge)]
  rfl

/-! ### Reading -/

section Decode

variable {number : Nat} {raw : Bytes}

/-- A sector is read exactly if its link does not claim more bytes than there are. -/
theorem decode_eq_ok_iff (hlong : linkSize < raw.length) :
    decode number raw = .ok s ↔
      (SectorLink.ofBytes raw).used + linkSize ≤ raw.length ∧
        s = ⟨number, (SectorLink.ofBytes raw).owner, (SectorLink.ofBytes raw).next,
          raw.take (SectorLink.ofBytes raw).used⟩ := by
  simp only [linkSize] at hlong
  have hlink : raw.drop (raw.length - linkSize) = _ := drop_link (by omega)
  unfold decode
  simp only
  rw [if_neg (by simp only [linkSize]; omega), hlink]
  simp only
  by_cases hused : raw.length - linkSize < (raw.getD (raw.length - 1) 0).toNat
  · rw [if_pos hused]
    simp only [Outcome.refuse_ne_ok, false_iff, not_and, SectorLink.ofBytes]
    simp only [linkSize] at hused ⊢
    omega
  · rw [if_neg hused, Except.ok.injEq]
    simp only [linkSize] at hused ⊢
    constructor
    · rintro rfl
      refine ⟨?_, rfl⟩
      simp only [SectorLink.ofBytes]
      omega
    · rintro ⟨_, rfl⟩
      rfl

theorem refusesOnly_decode (number : Nat) (raw : Bytes) :
    (decode number raw).RefusesOnly .damaged := by
  unfold decode
  simp only
  split
  · exact Outcome.refusesOnly_refuse rfl
  · split
    · split
      · exact Outcome.refusesOnly_refuse rfl
      · exact Outcome.refusesOnly_ok _
    · exact Outcome.refusesOnly_refuse rfl

variable (hdecode : decode number raw = .ok s)

include hdecode

theorem linkSize_lt_of_decode : linkSize < raw.length := by
  apply Nat.lt_of_not_le
  intro hshort
  unfold decode at hdecode
  rw [if_pos (by omega)] at hdecode
  exact Outcome.refuse_ne_ok _ _ hdecode

theorem of_decode : s.number = number ∧ s.next ≤ maxNext := by
  obtain ⟨_, rfl⟩ := (decode_eq_ok_iff (linkSize_lt_of_decode hdecode)).1 hdecode
  have hlow := (raw.getD (raw.length - 2) 0).toNat_lt
  refine ⟨rfl, ?_⟩
  simp only [SectorLink.ofBytes, maxNext]
  omega

theorem owner_le_of_decode : s.owner ≤ maxOwner := by
  obtain ⟨_, rfl⟩ := (decode_eq_ok_iff (linkSize_lt_of_decode hdecode)).1 hdecode
  have hhigh := (raw.getD (raw.length - 3) 0).toNat_lt
  simp only [SectorLink.ofBytes, maxOwner]
  omega

/-- The payload is as long as the link says, so that a byte can say it. -/
theorem length_payload_of_decode :
    s.payload.length = (SectorLink.ofBytes raw).used ∧ s.payload.length < 256 ∧
      s.payload.length + linkSize ≤ raw.length ∧ s.payload = raw.take s.payload.length := by
  obtain ⟨hused, rfl⟩ := (decode_eq_ok_iff (linkSize_lt_of_decode hdecode)).1 hdecode
  have hlength : (raw.take (SectorLink.ofBytes raw).used).length = (SectorLink.ofBytes raw).used :=
    List.length_take_of_le (by omega)
  have hbyte : (SectorLink.ofBytes raw).used < 256 := UInt8.toNat_lt _
  refine ⟨hlength, ?_, ?_, ?_⟩
  · rwa [hlength]
  · rwa [hlength]
  · rw [hlength]

/-- The link of a sector that was read is what stands at its end. -/
theorem link_of_decode : s.link = raw.drop (raw.length - linkSize) := by
  have hlong := linkSize_lt_of_decode hdecode
  obtain ⟨hlength, _⟩ := length_payload_of_decode hdecode
  obtain ⟨_, rfl⟩ := (decode_eq_ok_iff hlong).1 hdecode
  simp only [linkSize] at hlong hlength ⊢
  rw [drop_link (by omega), link, hlength]
  simp only [SectorLink.ofBytes]
  generalize raw.getD (raw.length - 3) 0 = high
  generalize raw.getD (raw.length - 2) 0 = low
  have hlow := low.toNat_lt
  have hfirst : high.toNat / 4 * 4 + (high.toNat % 4 * 256 + low.toNat) / 256 = high.toNat := by
    omega
  have hsecond : UInt8.ofNat (high.toNat % 4 * 256 + low.toNat) = low := by
    apply UInt8.toNat.inj
    rw [UInt8.toNat_ofNat']
    omega
  rw [hfirst, hsecond, UInt8.ofNat_toNat, UInt8.ofNat_toNat]

theorem fits_of_decode : s.Fits raw.length :=
  ⟨(length_payload_of_decode hdecode).2.2.1, owner_le_of_decode hdecode, (of_decode hdecode).2⟩

/-- A sector that was read is written as it was, with zeros between payload and link. -/
theorem bytes_of_decode :
    s.bytes raw.length = raw.take s.payload.length ++
      Bytes.zeros (raw.length - linkSize - s.payload.length) ++
        raw.drop (raw.length - linkSize) := by
  unfold bytes
  rw [link_of_decode hdecode, ← (length_payload_of_decode hdecode).2.2.2]

end Decode

/-- The link says what the sector was written with. -/
theorem link_bytes (hfits : s.Fits size) (hshort : s.payload.length < 256) :
    SectorLink.ofBytes (s.bytes size) = ⟨s.owner, s.next, s.payload.length⟩ := by
  obtain ⟨hpayload, howner, hnext⟩ := hfits
  have hlength : (s.bytes size).length = size := length_bytes hpayload
  simp only [linkSize, maxOwner, maxNext] at hpayload howner hnext
  have hcapacity : (s.payload ++ Bytes.zeros (size - linkSize - s.payload.length)).length =
      size - 3 := by
    simp only [linkSize, List.length_append, Bytes.length_zeros]
    omega
  have hlink : (s.bytes size).drop ((s.bytes size).length - 3) = s.link := by
    rw [hlength]
    exact List.drop_left' hcapacity
  rw [SectorLink.ofBytes_eq (by omega) hlink, SectorLink.mk.injEq, UInt8.toNat_ofNat',
    UInt8.toNat_ofNat', UInt8.toNat_ofNat']
  omega

/-- A sector is read back as it was written. -/
theorem decode_bytes (hfits : s.Fits size) (hshort : s.payload.length < 256)
    (hlong : linkSize < size) : decode s.number (s.bytes size) = .ok s := by
  have hlength : (s.bytes size).length = size := length_bytes hfits.payload
  have htake : (s.bytes size).take s.payload.length = s.payload := by
    unfold bytes
    rw [List.append_assoc, List.take_left]
  rw [decode_eq_ok_iff (by rwa [hlength]), link_bytes hfits hshort, hlength, htake]
  exact ⟨hfits.payload, rfl⟩

/-- A sector that holds nothing but its link is not read, and neither is a payload whose length does
not fit into the link. -/
theorem decode_bytes_iff (hfits : s.Fits size) :
    decode s.number (s.bytes size) = .ok s ↔ 4 ≤ size ∧ s.payload.length ≤ 255 := by
  constructor
  · intro hdecode
    have hlong := linkSize_lt_of_decode hdecode
    have hshort := (length_payload_of_decode hdecode).2.1
    rw [length_bytes hfits.payload, linkSize] at hlong
    exact ⟨hlong, Nat.le_of_lt_succ hshort⟩
  · rintro ⟨hlong, hshort⟩
    exact decode_bytes hfits (Nat.lt_succ_of_le hshort) hlong

/-- **Data sectors and their bytes.** In a sector of at least three bytes, a piece of a file is
written exactly if it leaves room for the link and its numbers fit into the link, as long as a
sector of that size can be held in memory at all; else it traps. What is written fills the sector,
and is read back exactly if there is room for more than the link and the length of the piece fits
into a byte. Any bytes that are read as a data sector are written again with the payload and the
link they had, and zeros between. -/
theorem written_and_read_exactly :
    (∀ (s : DataSector) size, 3 ≤ size →
        (size < Word.memoryBound →
          ((∃ raw, s.encode size = .ok raw) ↔
            s.payload.length ≤ size - 3 ∧ s.owner ≤ 63 ∧ s.next ≤ 1023)) ∧
        (Word.memoryBound ≤ size →
          s.payload.length ≤ size - 3 ∧ s.owner ≤ 63 ∧ s.next ≤ 1023 →
            s.encode size = trap .tooLarge) ∧
        ∀ raw, s.encode size = .ok raw →
          raw.length = size ∧
            (decode s.number raw = .ok s ↔ 4 ≤ size ∧ s.payload.length ≤ 255)) ∧
      ∀ number (raw : Bytes) (s : DataSector), raw.length < Word.memoryBound →
        decode number raw = .ok s →
        s.encode raw.length = .ok (raw.take s.payload.length ++
          List.replicate (raw.length - 3 - s.payload.length) 0 ++ raw.drop (raw.length - 3)) := by
  constructor
  · intro s size hsize
    refine ⟨fun hsmall => ?_, fun hlarge hheld => ?_, fun raw hencode => ?_⟩
    · rw [← fits_iff hsize]
      constructor
      · rintro ⟨raw, hencode⟩
        exact (encode_eq_ok_iff.1 hencode).1
      · intro hfits
        exact ⟨_, encode_eq_ok_iff.2 ⟨hfits, hsmall, rfl⟩⟩
    · exact encode_eq_trap ((fits_iff hsize).2 hheld) hlarge
    · obtain ⟨hfits, _, rfl⟩ := encode_eq_ok_iff.1 hencode
      exact ⟨length_bytes hfits.payload, decode_bytes_iff hfits⟩
  · intro number raw s hsmall hdecode
    exact encode_eq_ok_iff.2 ⟨fits_of_decode hdecode, hsmall, (bytes_of_decode hdecode).symm⟩

/-- A payload of 256 bytes, whose length is written as zero. -/
def overlong : DataSector :=
  ⟨4, 5, 0x1FE, List.replicate 256 0xAA⟩

/-- A sector of seven bytes, of which the third and the fourth are not used. -/
def scribbled : Bytes :=
  [1, 2, 3, 9, 0x15, 0xFE, 2]

/-- The long payload is written but not read back. The bytes that are not used become zero. -/
theorem written_and_read_exactly_extremes :
    (∃ raw, overlong.encode 259 = .ok raw ∧ raw.length = 259 ∧
        decode 4 raw ≠ .ok overlong) ∧
      (∃ s, decode 4 scribbled = .ok s ∧ s.owner = 5 ∧ s.next = 0x1FE ∧
        s.encode 7 = .ok [1, 2, 0, 0, 0x15, 0xFE, 2]) ∧
      overlong.encode Word.memoryBound = trap .tooLarge := by
  obtain ⟨hwritten, hread⟩ := written_and_read_exactly
  have hheld : overlong.payload.length = 256 := List.length_replicate
  refine ⟨?_, ?_, ?_⟩
  · obtain ⟨hiff, _, hback⟩ := hwritten overlong 259 (by decide)
    obtain ⟨raw, hencode⟩ := (hiff (by decide)).2 ⟨Nat.le_of_eq hheld, by decide, by decide⟩
    obtain ⟨hlength, hsame⟩ := hback raw hencode
    refine ⟨raw, hencode, hlength, fun hdecode => ?_⟩
    have hshort := (hsame.1 hdecode).2
    omega
  · have hdecode : decode 4 scribbled = .ok ⟨4, 5, 0x1FE, [1, 2]⟩ := rfl
    exact ⟨_, hdecode, rfl, rfl, hread 4 scribbled _ (by decide) hdecode⟩
  · refine (hwritten overlong Word.memoryBound (by decide)).2.1 (Nat.le_refl _) ⟨?_, ?_, ?_⟩
    · rw [hheld]
      decide
    · decide
    · decide

/-- No sector has `2 ^ 63` bytes: an empty piece cannot be written to one, though it leaves room
for the link and its numbers fit. -/
theorem oversized_sector_traps :
    3 ≤ Word.memoryBound ∧ Word.memoryBound < Word.bound ∧
      (unplaced []).payload.length ≤ Word.memoryBound - 3 ∧
      (unplaced []).owner ≤ 63 ∧ (unplaced []).next ≤ 1023 ∧
      (∀ raw, (unplaced []).encode Word.memoryBound ≠ .ok raw) ∧
      (unplaced []).encode Word.memoryBound = trap .tooLarge := by
  have htrap : (unplaced []).encode Word.memoryBound = trap .tooLarge := rfl
  refine ⟨by decide, by decide, Nat.zero_le _, Nat.zero_le _, Nat.zero_le _, ?_, htrap⟩
  intro raw
  rw [htrap]
  simp [trap]

end DataSector

end AtariDisk
