import AtariDisk.SectorMap
import AtariDisk.Proofs.Bytes
import AtariDisk.Proofs.Outcome
import Mathlib.Data.List.Perm.Basic
import Mathlib.Data.List.Nodup

/-!
# The sector map as a set of free sectors

`isFree` is the view of a map. Packing and reading back keeps it, `reserve` takes away the lowest
free sectors and `release` adds sectors. What a packed map records is its number of set bits.
-/

namespace AtariDisk.SectorMap

variable {map : SectorMap}

theorem isFree_of_lt {s : Nat} (hs : s < 720) (map : SectorMap) : map.isFree s = map.free[s] := by
  unfold isFree
  rw [dif_pos hs]
  rfl

theorem isFree_of_le {s : Nat} (hs : 720 ≤ s) (map : SectorMap) : map.isFree s = false := by
  unfold isFree
  rw [dif_neg (by omega)]

theorem isFree_congr {a b : SectorMap} (hfree : a.free = b.free) (s : Nat) :
    a.isFree s = b.isFree s := by
  unfold isFree
  rw [hfree]

theorem free_eq_of_isFree {a b : SectorMap} (hfree : ∀ s, a.isFree s = b.isFree s) :
    a.free = b.free := by
  apply Vector.ext
  intro s hs
  rw [← isFree_of_lt hs a, ← isFree_of_lt hs b, hfree]

theorem freeSectors_congr {a b : SectorMap} (hlimit : a.limit = b.limit)
    (hfree : ∀ s, a.isFree s = b.isFree s) : a.freeSectors = b.freeSectors := by
  rw [freeSectors, freeSectors, hlimit, funext hfree]

theorem mem_freeSectors {s : Nat} :
    s ∈ map.freeSectors ↔ 1 ≤ s ∧ s < map.limit ∧ map.isFree s = true := by
  unfold freeSectors
  rw [List.mem_filter, List.mem_range'_1]
  constructor
  · rintro ⟨hrange, hfree⟩
    exact ⟨hrange.1, by omega, hfree⟩
  · rintro ⟨hfirst, hlast, hfree⟩
    exact ⟨⟨hfirst, by omega⟩, hfree⟩

theorem freeSectors_ordered (map : SectorMap) : map.freeSectors.Pairwise (· < ·) :=
  List.Pairwise.filter _ List.pairwise_lt_range'

theorem freeSectors_nodup (map : SectorMap) : map.freeSectors.Nodup :=
  map.freeSectors_ordered.imp fun h => Nat.ne_of_lt h

theorem freeCount_lt (map : SectorMap) : map.freeCount < 720 := by
  have hlimit := map.limit_le
  have hfew := List.length_filter_le map.isFree (List.range' 1 (map.limit - 1))
  rw [List.length_range'] at hfew
  unfold freeCount freeSectors
  omega

/-! ### Marking -/

@[simp]
theorem raw_mark (map : SectorMap) (sectors : List Nat) (b : Bool) :
    (map.mark sectors b).raw = map.raw := rfl

@[simp]
theorem limit_mark (map : SectorMap) (sectors : List Nat) (b : Bool) :
    (map.mark sectors b).limit = map.limit := rfl

theorem getElem_foldl_set {bits : Vector Bool 720} {sectors : List Nat} {b : Bool} {s : Nat}
    (hs : s < 720) :
    (sectors.foldl (fun bits s => bits.setIfInBounds s b) bits)[s] =
      if s ∈ sectors then b else bits[s] := by
  induction sectors generalizing bits with
  | nil => simp
  | cons n rest ih =>
    rw [List.foldl_cons, ih, Vector.getElem_setIfInBounds hs]
    by_cases hrest : s ∈ rest
    · rw [if_pos hrest, if_pos (List.mem_cons_of_mem n hrest)]
    · by_cases hhere : n = s
      · rw [if_neg hrest, if_pos hhere, if_pos (hhere ▸ List.mem_cons_self)]
      · have hnone : s ∉ n :: rest := by
          intro hmem
          rcases List.mem_cons.1 hmem with heq | hmem
          · exact hhere heq.symm
          · exact hrest hmem
        rw [if_neg hrest, if_neg hhere, if_neg hnone]

theorem isFree_mark (map : SectorMap) (sectors : List Nat) (b : Bool) (s : Nat) :
    (map.mark sectors b).isFree s =
      if s ∈ sectors ∧ s < 720 then b else map.isFree s := by
  by_cases hs : s < 720
  · rw [isFree_of_lt hs, isFree_of_lt hs]
    simp only [hs, and_true]
    exact getElem_foldl_set hs
  · rw [isFree_of_le (by omega), isFree_of_le (by omega), if_neg (by omega)]

theorem isFree_release (map : SectorMap) (sectors : List Nat) (s : Nat) :
    (map.release sectors).isFree s = if s ∈ sectors ∧ s < 720 then true else map.isFree s := by
  rw [release, isFree_mark]

/-- Sectors that are given back leave the map as it was before they were taken. -/
theorem isFree_release_of_mark {taken : SectorMap} {order : List Nat}
    (htaken : ∀ s, taken.isFree s = (map.mark order false).isFree s)
    (hfree : ∀ s ∈ order, map.isFree s = true) (s : Nat) :
    (taken.release order).isFree s = map.isFree s := by
  rw [isFree_release, htaken, isFree_mark]
  by_cases hs : s ∈ order ∧ s < 720
  · rw [if_pos hs, hfree s hs.1]
  · rw [if_neg hs, if_neg hs]

/-! ### Reserving -/

/-- Too few free sectors are all there are to count, and nothing was marked when that is found. -/
theorem reserve_of_lt {count : Nat} (hfew : map.freeCount < count) :
    map.reserve count = .error (.refused (.notEnoughSpace count map.freeCount)) map := by
  have hall : map.freeSectors.take count = map.freeSectors := List.take_of_length_le hfew.le
  rw [reserve, Call.get_bind, hall, if_pos (show map.freeSectors.length < count from hfew)]
  rfl

theorem reserve_of_le {count : Nat} (henough : count ≤ map.freeCount) :
    map.reserve count =
      .ok (map.freeSectors.take count) (map.mark (map.freeSectors.take count) false) := by
  have hlength : (map.freeSectors.take count).length = count := List.length_take_of_le henough
  rw [reserve, Call.get_bind, hlength, if_neg (lt_irrefl count),
    Call.bind_of_ok (Call.modify_apply _ map)]
  rfl

/-- All that a request for sectors can do. -/
theorem reserve_eq_ok_iff {count : Nat} {order : List Nat} {left : SectorMap} :
    map.reserve count = .ok order left ↔
      count ≤ map.freeCount ∧ order = map.freeSectors.take count ∧
        left = map.mark (map.freeSectors.take count) false := by
  by_cases henough : count ≤ map.freeCount
  · rw [reserve_of_le henough, EStateM.Result.ok.injEq]
    constructor
    · rintro ⟨rfl, rfl⟩
      exact ⟨henough, rfl, rfl⟩
    · rintro ⟨_, rfl, rfl⟩
      exact ⟨rfl, rfl⟩
  · rw [reserve_of_lt (Nat.not_le.1 henough)]
    simp [henough]

/-! ### Packing -/

/-- The bits of a byte, the highest first, are those it was made of. -/
theorem testBit_byteOfBits (bit : Nat → Bool) {k : Nat} (hk : k < 8) :
    (byteOfBits bit).toNat.testBit (7 - k) = bit k := by
  have hall : ∀ b₀ b₁ b₂ b₃ b₄ b₅ b₆ b₇ : Bool, ∀ k : Fin 8,
      (UInt8.ofNat ([b₀, b₁, b₂, b₃, b₄, b₅, b₆, b₇].foldl
        (fun n b => 2 * n + b.toNat) 0)).toNat.testBit (7 - k) =
      [b₀, b₁, b₂, b₃, b₄, b₅, b₆, b₇].get k := by decide +kernel
  have hbyte := hall (bit 0) (bit 1) (bit 2) (bit 3) (bit 4) (bit 5) (bit 6) (bit 7) ⟨k, hk⟩
  have hlist : ∀ k : Fin 8,
      [bit 0, bit 1, bit 2, bit 3, bit 4, bit 5, bit 6, bit 7].get k = bit k := by
    intro k
    match k with
    | 0 | 1 | 2 | 3 | 4 | 5 | 6 | 7 => rfl
  rw [hlist] at hbyte
  exact hbyte

theorem length_bitmap (map : SectorMap) : map.bitmap.length = 90 := by
  simp [bitmap]

theorem length_counted (map : SectorMap) :
    (Bytes.splice map.raw 3 (Bytes.little 2 map.bitCount)).length = map.raw.length := by
  have hlong := map.raw_long
  exact Bytes.length_splice (by rw [Bytes.length_little]; omega)

theorem getElem?_pack_bitmap (map : SectorMap) {j : Nat} (hj : j < 90) :
    map.pack[bitmapOffset + j]? = some (byteOfBits fun k => map.isFree (8 * j + k)) := by
  have hlong := map.raw_long
  have hbitmap := map.length_bitmap
  have hlength := map.length_counted
  unfold pack
  rw [Bytes.getElem?_splice (by simp only [bitmapOffset]; omega), if_pos (by omega),
    Nat.add_sub_cancel_left, bitmap, List.getElem?_map, List.getElem?_range hj]
  rfl

theorem unpack_of_le {raw : Bytes} (hlong : 100 ≤ raw.length) :
    ∃ map, unpack raw = .ok map ∧ map.raw = raw ∧ map.limit = 720 ∧
      ∀ s, s < 720 → map.isFree s =
        ((raw[bitmapOffset + s / 8]?).getD 0).toNat.testBit (7 - s % 8) := by
  unfold unpack
  rw [dif_pos hlong]
  refine ⟨_, rfl, rfl, rfl, ?_⟩
  intro s hs
  rw [isFree_of_lt hs, Vector.getElem_ofFn]
  simp only [Array.getD_eq_getD_getElem?, List.getElem?_toArray, List.getElem?_drop]

/-- A packed map is read back with the same sectors free. -/
theorem unpack_pack (map : SectorMap) :
    ∃ again, unpack map.pack = .ok again ∧ again.raw = map.pack ∧ again.limit = 720 ∧
      ∀ s, again.isFree s = map.isFree s := by
  have hlong : 100 ≤ map.pack.length := by
    rw [map.length_pack]
    exact map.raw_long
  obtain ⟨again, hunpack, hraw, hlimit, hfree⟩ := unpack_of_le hlong
  refine ⟨again, hunpack, hraw, hlimit, ?_⟩
  intro s
  by_cases hs : s < 720
  · rw [hfree s hs, map.getElem?_pack_bitmap (by omega), Option.getD_some,
      testBit_byteOfBits _ (Nat.mod_lt s (by decide)), Nat.div_add_mod]
  · rw [isFree_of_le (by omega), isFree_of_le (by omega)]

theorem window_pack (map : SectorMap) {start length : Nat} (hbefore : start + length ≤ 3) :
    (map.pack.drop start).take length = (map.raw.drop start).take length := by
  have hlong := map.raw_long
  have hbitmap := map.length_bitmap
  have hlength := map.length_counted
  unfold pack
  rw [Bytes.take_drop_splice (by simp only [bitmapOffset]; omega)
      (.inl (by simp only [bitmapOffset]; omega)),
    Bytes.take_drop_splice (by rw [Bytes.length_little]; omega) (.inl hbefore)]

/-- Besides the bits only the number of free sectors is packed. -/
theorem getElem?_pack_outside (map : SectorMap) {j : Nat}
    (hj : j ≤ 2 ∨ 5 ≤ j ∧ j ≤ 9 ∨ 100 ≤ j) : map.pack[j]? = map.raw[j]? := by
  have hlong := map.raw_long
  have hbitmap := map.length_bitmap
  have hlength := map.length_counted
  have hcount : (Bytes.little 2 map.bitCount).length = 2 := Bytes.length_little ..
  unfold pack
  rw [Bytes.getElem?_splice (by simp only [bitmapOffset]; omega),
    if_neg (by simp only [bitmapOffset]; omega), Bytes.getElem?_splice (by omega),
    if_neg (by omega)]

theorem total_of_raw_eq_pack {again : SectorMap} (hraw : again.raw = map.pack) :
    again.total = map.total := by
  unfold total
  rw [hraw, map.window_pack (by decide)]

theorem code_of_raw_eq_pack {again : SectorMap} (hraw : again.raw = map.pack) :
    again.code = map.code := by
  have hfirst : ∀ bytes : Bytes, bytes.headD 0 = ((bytes.drop 0).take 1).headD 0 := by
    intro bytes
    cases bytes <;> rfl
  unfold code
  rw [hfirst, hfirst map.raw, hraw, map.window_pack (by decide)]

/-- The bits are those of the sectors from 0 on. -/
theorem toList_free (map : SectorMap) : map.free.toList = (List.range 720).map map.isFree := by
  apply List.ext_getElem
  · simp
  · intro s hleft _
    have hs : s < 720 := by simpa using hleft
    rw [List.getElem_map, List.getElem_range, isFree_of_lt hs, Vector.getElem_toList]

theorem bitCount_eq (map : SectorMap) :
    map.bitCount = ((List.range 720).filter map.isFree).length := by
  unfold bitCount
  rw [← Vector.count_toList, map.toList_free, List.count_eq_countP, List.countP_map,
    List.countP_eq_length_filter]
  congr 2
  funext s
  simp

theorem bitCount_le (map : SectorMap) : map.bitCount ≤ 720 := by
  rw [bitCount_eq]
  simpa using List.length_filter_le map.isFree (List.range 720)

theorem bitCount_congr {a b : SectorMap} (hfree : ∀ s, a.isFree s = b.isFree s) :
    a.bitCount = b.bitCount := by
  rw [bitCount_eq, bitCount_eq, funext hfree]

/-- Bytes 3 and 4 of a packed map count its set bits. -/
theorem window_pack_count (map : SectorMap) :
    (map.pack.drop 3).take 2 = Bytes.little 2 map.bitCount := by
  have hlong := map.raw_long
  have hbitmap := map.length_bitmap
  have hlength := map.length_counted
  unfold pack
  rw [Bytes.take_drop_splice (by simp only [bitmapOffset]; omega) (.inl (by decide))]
  exact Bytes.take_drop_splice_little (by omega) map.bitCount

/-- A packed map records how many of its bits are set. -/
theorem recorded_of_raw_eq_pack {again : SectorMap} (hraw : again.raw = map.pack) :
    again.recorded = map.bitCount := by
  have hcount := map.bitCount_le
  unfold recorded
  rw [hraw, map.window_pack_count, Bytes.littleValue_little_of_lt (by omega)]

/-- Where no bit outside of the disk is set, the set bits are the free sectors. -/
theorem bitCount_eq_freeCount (hinside : ∀ s, map.isFree s = true → 1 ≤ s ∧ s < map.limit) :
    map.bitCount = map.freeCount := by
  have hlimit := map.limit_le
  have hmem : ∀ s, s ∈ (List.range 720).filter map.isFree ↔ s ∈ map.freeSectors := by
    intro s
    rw [List.mem_filter, List.mem_range, mem_freeSectors]
    constructor
    · rintro ⟨_, hfree⟩
      exact ⟨(hinside s hfree).1, (hinside s hfree).2, hfree⟩
    · rintro ⟨_, hlt, hfree⟩
      exact ⟨by omega, hfree⟩
  have hperm := (List.perm_ext_iff_of_nodup (List.nodup_range.filter _)
    map.freeSectors_nodup).2 hmem
  rw [bitCount_eq, freeCount, hperm.length_eq]

/-! ### Maps of new disks -/

theorem restrict_eq {last : Nat} (hlast : last + 1 < Word.bound) (map : SectorMap) :
    map.restrict last =
      .ok { map with limit := min (last + 1) 720, limit_le := Nat.min_le_right _ _ } := by
  unfold restrict
  rw [Word.add_eq_ok_iff.2 ⟨hlast, rfl⟩]
  rfl

/-- Sectors that no file may use: the boot sectors, the map and the directory. -/
def isReserved (sector : Nat) : Bool :=
  (1 ≤ sector && sector ≤ bootSectors) || isSystem sector

/-- Sectors for files on a disk that ends before `limit`. -/
def Usable (limit sector : Nat) : Prop :=
  1 ≤ sector ∧ sector < limit ∧ isReserved sector = false

instance (limit sector : Nat) : Decidable (Usable limit sector) :=
  inferInstanceAs (Decidable (_ ∧ _ ∧ _))

theorem isReserved_eq_true_iff {s : Nat} :
    isReserved s = true ↔ (1 ≤ s ∧ s ≤ 3) ∨ (360 ≤ s ∧ s ≤ 368) := by
  simp only [isReserved, isSystem, Bool.or_eq_true, Bool.and_eq_true, decide_eq_true_eq]
  unfold bootSectors home
  omega

theorem usable_iff {limit s : Nat} :
    Usable limit s ↔ 3 < s ∧ s < limit ∧ ¬(360 ≤ s ∧ s ≤ 368) := by
  unfold Usable
  rw [Bool.eq_false_iff, ne_eq, isReserved_eq_true_iff]
  omega

/-- The sectors for files, in ascending order. -/
def usableSectors (limit : Nat) : List Nat :=
  (List.range' 1 (limit - 1)).filter fun s => !isReserved s

theorem mem_usableSectors {limit s : Nat} : s ∈ usableSectors limit ↔ Usable limit s := by
  unfold usableSectors Usable
  rw [List.mem_filter, List.mem_range'_1, Bool.not_eq_true']
  constructor
  · rintro ⟨hrange, hreserved⟩
    exact ⟨hrange.1, by omega, hreserved⟩
  · rintro ⟨hfirst, hlast, hreserved⟩
    exact ⟨⟨hfirst, by omega⟩, hreserved⟩

theorem usableSectors_nodup (limit : Nat) : (usableSectors limit).Nodup :=
  List.Nodup.filter _ List.nodup_range'

theorem length_usableSectors_lt {limit : Nat} (hlimit : limit ≤ 720) :
    (usableSectors limit).length < 65536 := by
  have hfew := List.length_filter_le (fun s => !isReserved s) (List.range' 1 (limit - 1))
  rw [List.length_range'] at hfew
  unfold usableSectors
  omega

/-- The free sectors of a map on which the usable sectors are free but for those in `taken`. -/
theorem freeCount_add_length {taken : List Nat} (hnodup : taken.Nodup)
    (htaken : ∀ s ∈ taken, Usable map.limit s)
    (hfree : ∀ s, map.isFree s = true ↔ Usable map.limit s ∧ s ∉ taken) :
    map.freeCount + taken.length = (usableSectors map.limit).length := by
  have hperm : (map.freeSectors ++ taken).Perm (usableSectors map.limit) := by
    refine (List.perm_ext_iff_of_nodup ?_ (usableSectors_nodup _)).2 ?_
    · refine List.nodup_append.2 ⟨map.freeSectors_nodup, hnodup, ?_⟩
      intro s hs t ht heq
      exact ((hfree s).1 (mem_freeSectors.1 hs).2.2).2 (heq ▸ ht)
    · intro s
      rw [List.mem_append, mem_freeSectors, mem_usableSectors]
      constructor
      · rintro (⟨_, _, hs⟩ | hs)
        · exact ((hfree s).1 hs).1
        · exact htaken s hs
      · intro husable
        by_cases hs : s ∈ taken
        · exact .inr hs
        · exact .inl ⟨husable.1, husable.2.1, (hfree s).2 ⟨husable, hs⟩⟩
  calc map.freeCount + taken.length
      = (map.freeSectors ++ taken).length := (List.length_append ..).symm
    _ = (usableSectors map.limit).length := hperm.length_eq

theorem freeCount_of_usable (hfree : ∀ s, map.isFree s = true ↔ Usable map.limit s) :
    map.freeCount = (usableSectors map.limit).length := by
  have hnone : map.freeCount + ([] : List Nat).length = (usableSectors map.limit).length :=
    freeCount_add_length List.nodup_nil (by simp) (by simpa using hfree)
  exact hnone

theorem code_withTotal (map : SectorMap) (total : Nat) : (map.withTotal total).code = map.code := by
  have hlong := map.raw_long
  have hfirst : ∀ bytes : Bytes, bytes.headD 0 = ((bytes.drop 0).take 1).headD 0 := by
    intro bytes
    cases bytes <;> rfl
  unfold code withTotal
  rw [hfirst, hfirst map.raw]
  simp only
  rw [Bytes.take_drop_splice (by rw [Bytes.length_little]; omega) (.inl (by decide))]

theorem total_withTotal (map : SectorMap) {total : Nat} (htotal : total < 65536) :
    (map.withTotal total).total = total := by
  have hlong := map.raw_long
  unfold withTotal SectorMap.total
  simp only
  rw [Bytes.take_drop_splice_little (by omega), Bytes.littleValue_little_of_lt htotal]

/-- On a new disk exactly the usable sectors are free, and they are all there are. -/
theorem formatted_spec {sectorSize last : Nat} (hsize : sectorSize ≤ 256)
    (hlast : last + 1 < Word.bound) :
    ∃ map, formatted sectorSize last = .ok map ∧ map.raw.length = max sectorSize 128 ∧
      map.limit = min (last + 1) 720 ∧ map.code = dos2 ∧
      map.total = (usableSectors map.limit).length ∧
      ∀ s, map.isFree s = true ↔ Usable map.limit s := by
  have hcreate : create sectorSize = .ok (full sectorSize) := by
    unfold create rawLength
    rw [Word.allocate_of_le (by omega)]
    rfl
  unfold formatted
  rw [hcreate, Outcome.ok_bind, restrict_eq hlast, Outcome.ok_bind]
  refine ⟨_, rfl, ?_⟩
  generalize hblank : ({ full sectorSize with
    free := Vector.ofFn fun s : Fin 720 => decide (bootSectors < s.val) &&
      decide (s.val < min (last + 1) 720) && !isSystem s.val
    limit := min (last + 1) 720
    limit_le := Nat.min_le_right _ _ } : SectorMap) = blank
  have hlimit : blank.limit = min (last + 1) 720 := by rw [← hblank]
  have hraw : blank.raw = (full sectorSize).raw := by rw [← hblank]
  have hfree : ∀ s, blank.isFree s = true ↔ Usable blank.limit s := by
    intro s
    rw [usable_iff, hlimit]
    by_cases hs : s < 720
    · rw [isFree_of_lt hs, ← hblank]
      simp only [Vector.getElem_ofFn, isSystem, Bool.and_eq_true, Bool.not_eq_true',
        Bool.and_eq_false_iff, decide_eq_true_eq, decide_eq_false_iff_not]
      unfold bootSectors home
      omega
    · rw [isFree_of_le (by omega)]
      constructor
      · intro hfalse
        exact absurd hfalse Bool.false_ne_true
      · omega
  have hcount := freeCount_of_usable hfree
  have hfew := length_usableSectors_lt blank.limit_le
  change ((blank.withTotal blank.freeCount).settle).raw.length = _ ∧ _ = _ ∧
    ((blank.withTotal blank.freeCount).settle).code = _ ∧
    ((blank.withTotal blank.freeCount).settle).total = _ ∧ _
  have hpack : ((blank.withTotal blank.freeCount).settle).raw =
      (blank.withTotal blank.freeCount).pack := rfl
  refine ⟨?_, hlimit, ?_, ?_, ?_⟩
  · have hlong := blank.raw_long
    rw [hpack, length_pack]
    change (Bytes.splice blank.raw 1 _).length = _
    rw [Bytes.length_splice (by rw [Bytes.length_little]; omega), hraw]
    have hpos : 1 ≤ rawLength sectorSize := by
      have hrawLength := le_rawLength sectorSize
      omega
    simp only [full]
    rw [Bytes.length_splice (by simpa using hpos), Bytes.length_zeros, rawLength]
  · rw [code_of_raw_eq_pack hpack, code_withTotal]
    unfold code
    rw [hraw]
    rfl
  · rw [total_of_raw_eq_pack hpack, total_withTotal _ (by omega)]
    exact hcount
  · intro s
    exact hfree s

end AtariDisk.SectorMap
