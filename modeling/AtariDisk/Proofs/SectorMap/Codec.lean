import AtariDisk.Proofs.SectorMap
import Mathlib.Algebra.BigOperators.Fin

/-!
# The sector that holds the map

A map that is read from its sector and packed again gives the same bytes, but for the number of free
sectors: that is counted anew, as the number of set bits. A map that was packed is read back with
the same sectors free, and packing it once more changes nothing.
-/

namespace AtariDisk.SectorMap

variable {map : SectorMap} {raw : Bytes}

/-- Number of set bits of a byte. -/
def weight (b : UInt8) : Nat :=
  (List.range 8).countP b.toNat.testBit

/-- Number of set bits in the 90 bytes that have a bit for each sector. -/
def setBits (raw : Bytes) : Nat :=
  (((raw.drop bitmapOffset).take 90).map weight).sum

theorem byteOfBits_eq {bit : Nat → Bool} {b : UInt8}
    (hbits : ∀ k < 8, bit k = b.toNat.testBit (7 - k)) : byteOfBits bit = b := by
  apply UInt8.toNat.inj
  apply Nat.eq_of_testBit_eq
  intro i
  by_cases hi : i < 8
  · have hk : 7 - i < 8 := by omega
    have hback : 7 - (7 - i) = i := by omega
    have hbit := testBit_byteOfBits bit hk
    rwa [hbits (7 - i) hk, hback] at hbit
  · have hhigh : ∀ c : UInt8, c.toNat.testBit i = false := by
      intro c
      have hsmall : 2 ^ 8 ≤ 2 ^ i := Nat.pow_le_pow_right (by decide) (by omega)
      exact Nat.testBit_lt_two_pow (Nat.lt_of_lt_of_le c.toNat_lt hsmall)
    rw [hhigh, hhigh]

/-- The bits of a byte can be counted from either end. -/
theorem countP_testBit_rev (b : UInt8) :
    (List.range 8).countP (fun k => b.toNat.testBit (7 - k)) = weight b := by
  have hrev : (List.range 8).map (7 - ·) = (List.range 8).reverse := by decide
  calc (List.range 8).countP (fun k => b.toNat.testBit (7 - k))
      = ((List.range 8).map (7 - ·)).countP b.toNat.testBit := by
        rw [List.countP_map]
        rfl
    _ = weight b := by rw [hrev, List.countP_reverse, weight]

/-! ### Packing what was read -/

section Unpack

variable (hunpack : unpack raw = .ok map)

include hunpack

theorem le_length_of_unpack : 100 ≤ raw.length := by
  unfold unpack at hunpack
  split at hunpack
  · assumption
  · exact absurd hunpack (Outcome.refuse_ne_ok _ _)

theorem raw_of_unpack : map.raw = raw := by
  obtain ⟨again, hagain, hraw, _⟩ := unpack_of_le (le_length_of_unpack hunpack)
  rw [hunpack, Except.ok.injEq] at hagain
  exact hagain ▸ hraw

theorem exists_byte_of_unpack {j : Nat} (hj : j < 90) : ∃ b, raw[bitmapOffset + j]? = some b := by
  have hlong := le_length_of_unpack hunpack
  exact ⟨_, List.getElem?_eq_getElem (by simp only [bitmapOffset]; omega)⟩

/-- Bit `k` of byte `j` of the bits tells whether sector `8 * j + k` is free. -/
theorem isFree_of_unpack {j k : Nat} {b : UInt8} (hbyte : raw[bitmapOffset + j]? = some b)
    (hj : j < 90) (hk : k < 8) : map.isFree (8 * j + k) = b.toNat.testBit (7 - k) := by
  obtain ⟨again, hagain, _, _, hfree⟩ := unpack_of_le (le_length_of_unpack hunpack)
  rw [hunpack, Except.ok.injEq] at hagain
  subst hagain
  have hdiv : (8 * j + k) / 8 = j := by omega
  have hmod : (8 * j + k) % 8 = k := by omega
  rw [hfree _ (by omega), hdiv, hmod, hbyte, Option.getD_some]

theorem getElem?_pack_of_unpack {j : Nat} (hfirst : j ≠ 3) (hsecond : j ≠ 4) :
    map.pack[j]? = raw[j]? := by
  by_cases hbits : bitmapOffset ≤ j ∧ j < 100
  · obtain ⟨i, rfl⟩ := Nat.exists_eq_add_of_le hbits.1
    have hi : i < 90 := by
      have hlast := hbits.2
      simp only [bitmapOffset] at hlast
      omega
    obtain ⟨b, hbyte⟩ := exists_byte_of_unpack hunpack hi
    rw [getElem?_pack_bitmap _ hi, hbyte]
    exact congrArg some (byteOfBits_eq fun k hk => isFree_of_unpack hunpack hbyte hi hk)
  · simp only [bitmapOffset] at hbits
    rw [getElem?_pack_outside _ (by omega), raw_of_unpack hunpack]

/-- The free sectors of a map are the set bits of the bytes it was read from. -/
theorem bitCount_of_unpack : map.bitCount = setBits raw := by
  have hbytes : (raw.drop bitmapOffset).take 90 =
      (List.range 90).map fun j => (raw[bitmapOffset + j]?).getD 0 := by
    apply List.ext_getElem?
    intro j
    by_cases hj : j < 90
    · obtain ⟨b, hbyte⟩ := exists_byte_of_unpack hunpack hj
      rw [List.getElem?_take_of_lt hj, List.getElem?_drop, List.getElem?_map,
        List.getElem?_range hj, Option.map_some, hbyte, Option.getD_some]
    · rw [List.getElem?_take_eq_none (by omega), List.getElem?_eq_none (by simpa using hj)]
  have hblock : ∀ j ∈ List.range 90,
      ((List.range 8).map (8 * j + ·)).countP map.isFree =
        weight ((raw[bitmapOffset + j]?).getD 0) := by
    intro j hj
    have hj := List.mem_range.1 hj
    obtain ⟨b, hbyte⟩ := exists_byte_of_unpack hunpack hj
    rw [List.countP_map, hbyte, Option.getD_some, ← countP_testBit_rev]
    refine List.countP_congr fun k hk => ?_
    rw [Function.comp_apply, isFree_of_unpack hunpack hbyte hj (List.mem_range.1 hk)]
  calc map.bitCount
      = (List.range (8 * 90)).countP map.isFree := by
        rw [bitCount_eq, List.countP_eq_length_filter]
    _ = ((List.range 90).map fun j => ((List.range 8).map (8 * j + ·)).countP map.isFree).sum := by
        rw [range_mul, List.countP_flatMap]
        rfl
    _ = setBits raw := by
        rw [List.map_congr_left hblock, setBits, hbytes, List.map_map]
        rfl

theorem pack_eq_iff :
    map.pack = raw ↔ Bytes.littleValue ((raw.drop 3).take 2) = setBits raw := by
  have hlong := le_length_of_unpack hunpack
  have hfew : setBits raw < 65536 := by
    rw [← bitCount_of_unpack hunpack]
    exact Nat.lt_of_le_of_lt map.bitCount_le (by decide)
  have hcount : (map.pack.drop 3).take 2 = Bytes.little 2 (setBits raw) := by
    rw [map.window_pack_count, bitCount_of_unpack hunpack]
  constructor
  · intro hsame
    rw [← hsame, hcount, hsame, Bytes.littleValue_little_of_lt hfew]
  · intro hrecorded
    have hwindow : (map.pack.drop 3).take 2 = (raw.drop 3).take 2 := by
      have hlength : ((raw.drop 3).take 2).length = 2 := by
        rw [List.length_take, List.length_drop]
        omega
      have hback := Bytes.little_littleValue ((raw.drop 3).take 2)
      rwa [hlength, hrecorded, ← hcount] at hback
    apply List.ext_getElem?
    intro j
    by_cases hj : j = 3 ∨ j = 4
    · obtain ⟨i, rfl⟩ : ∃ i, j = 3 + i := ⟨j - 3, by omega⟩
      have hbyte : ((map.pack.drop 3).take 2)[i]? = ((raw.drop 3).take 2)[i]? := by rw [hwindow]
      rwa [List.getElem?_take_of_lt (by omega), List.getElem?_take_of_lt (by omega),
        List.getElem?_drop, List.getElem?_drop] at hbyte
    · exact getElem?_pack_of_unpack hunpack (fun h => hj (.inl h)) fun h => hj (.inr h)

end Unpack

theorem unpack_of_short (hshort : raw.length < 100) :
    unpack raw = refuse (.mapTooShort raw.length) := by
  unfold unpack
  rw [dif_neg (by omega)]

/-- A packed map counts its own bits, so that packing it again changes nothing. -/
theorem repack (map : SectorMap) :
    ∃ again, unpack map.pack = .ok again ∧ again.free = map.free ∧ again.pack = map.pack := by
  obtain ⟨again, hunpack, _, _, hfree⟩ := map.unpack_pack
  have hcount := map.bitCount_le
  refine ⟨again, hunpack, free_eq_of_isFree hfree, (pack_eq_iff hunpack).2 ?_⟩
  calc Bytes.littleValue ((map.pack.drop 3).take 2)
      = map.bitCount := by
        rw [map.window_pack_count, Bytes.littleValue_little_of_lt (by omega)]
    _ = again.bitCount := (bitCount_congr hfree).symm
    _ = setBits map.pack := bitCount_of_unpack hunpack

/-- **The map and its sector.** A map can be read from any 100 bytes or more, and from nothing
shorter. Packed again, it gives the bytes it was read from, except that bytes 3 and 4 hold the
number of set bits; so it gives exactly these bytes if that number was recorded there. Every map,
whatever was done to it, is read back from its packed form with the same sectors free, and packs to
the same bytes again. -/
theorem packs_what_it_reads :
    (∀ raw, (∃ map, unpack raw = .ok map) ↔ 100 ≤ raw.length) ∧
      (∀ raw, raw.length < 100 → unpack raw = refuse (.mapTooShort raw.length)) ∧
      (∀ raw map, unpack raw = .ok map →
        map.pack.length = raw.length ∧ (∀ j, j ≠ 3 → j ≠ 4 → map.pack[j]? = raw[j]?) ∧
          (map.pack.drop 3).take 2 = Bytes.little 2 (setBits raw) ∧
          (map.pack = raw ↔ Bytes.littleValue ((raw.drop 3).take 2) = setBits raw)) ∧
      ∀ map, ∃ again, unpack (pack map) = .ok again ∧ again.free = map.free ∧
        again.pack = map.pack := by
  refine ⟨fun raw => ⟨?_, fun hlong => ?_⟩, fun raw => unpack_of_short, fun raw map hunpack => ?_,
    repack⟩
  · rintro ⟨map, hunpack⟩
    exact le_length_of_unpack hunpack
  · obtain ⟨map, hunpack, _⟩ := unpack_of_le hlong
    exact ⟨map, hunpack⟩
  · refine ⟨?_, fun j => getElem?_pack_of_unpack hunpack, ?_, pack_eq_iff hunpack⟩
    · rw [map.length_pack, raw_of_unpack hunpack]
    · rw [map.window_pack_count, bitCount_of_unpack hunpack]

/-- A map that calls three sectors free, among them sector 0, but records five. -/
def miscounted : Bytes :=
  Bytes.splice (Bytes.splice (Bytes.zeros 128) 3 [5]) bitmapOffset [0x81, 0x40]

/-- Packing the map puts the count right and leaves the other bytes. -/
theorem packs_what_it_reads_miscounted :
    ∃ map, unpack miscounted = .ok map ∧ map.pack ≠ miscounted ∧
      (map.pack.drop 3).take 2 = [3, 0] ∧ map.pack[10]? = some 0x81 ∧
      unpack (miscounted.take 99) = refuse (.mapTooShort 99) := by
  have hlength : miscounted.length = 128 := by decide +kernel
  have hbits : setBits miscounted = 3 := by decide +kernel
  obtain ⟨hreadable, hshort, hpacked, _⟩ := packs_what_it_reads
  obtain ⟨map, hunpack⟩ := (hreadable miscounted).2 (by omega)
  obtain ⟨_, hsame, hcount, hiff⟩ := hpacked miscounted map hunpack
  refine ⟨map, hunpack, fun heq => ?_, ?_, ?_, ?_⟩
  · rw [hbits] at hiff
    exact absurd (hiff.1 heq) (by decide +kernel)
  · rw [hcount, hbits]
    rfl
  · rw [hsame 10 (by decide) (by decide)]
    decide +kernel
  · have htake : (miscounted.take 99).length = 99 := List.length_take_of_le (by omega)
    have hrefused := hshort (miscounted.take 99) (by omega)
    rwa [htake] at hrefused

end AtariDisk.SectorMap
