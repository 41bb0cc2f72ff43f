import AtariDisk.Bytes
import Mathlib.Algebra.Order.Floor.Div

/-!
# Reading what was written

Numbers written byte by byte and patches laid over byte strings are read back where they lie and
nowhere else. The lemmas on buffers are all that later modules need to know about the array behind
an image.
-/

namespace AtariDisk

section Chunks

variable {α : Type} {n : Nat}

theorem flatten_chunks (n : Nat) (xs : List α) : (chunks n xs).flatten = xs := by
  fun_induction chunks n xs with
  | case1 => rfl
  | case2 x rest ih =>
    rw [List.flatten_cons, ih, List.cons_append, List.take_append_drop]

theorem length_chunks (hn : 0 < n) (xs : List α) :
    (chunks n xs).length = xs.length / n + if xs.length % n = 0 then 0 else 1 := by
  fun_induction chunks n xs with
  | case1 => simp
  | case2 x rest ih =>
    rw [List.length_cons, ih, List.length_drop, List.length_cons]
    by_cases hlong : n - 1 ≤ rest.length
    · have hmore : rest.length + 1 = rest.length - (n - 1) + n := by omega
      rw [hmore, Nat.add_div_right _ hn, Nat.add_mod_right]
      omega
    · have hnone : rest.length - (n - 1) = 0 := by omega
      rw [hnone, Nat.zero_div, Nat.zero_mod, Nat.div_eq_of_lt (by omega),
        Nat.mod_eq_of_lt (by omega)]
      simp

theorem length_pos_of_mem_chunks {xs piece : List α} (hpiece : piece ∈ chunks n xs) :
    0 < piece.length := by
  fun_induction chunks n xs with
  | case1 => simp at hpiece
  | case2 x rest ih =>
    rcases List.mem_cons.1 hpiece with rfl | hlater
    · exact Nat.zero_lt_succ _
    · exact ih hlater

/-- What has another piece behind it is not the rest. -/
theorem length_of_mem_dropLast_chunks (hn : 0 < n) {xs piece : List α}
    (hpiece : piece ∈ (chunks n xs).dropLast) : piece.length = n := by
  fun_induction chunks n xs with
  | case1 => simp at hpiece
  | case2 x rest ih =>
    by_cases hend : chunks n (rest.drop (n - 1)) = []
    · simp [hend] at hpiece
    · rw [List.dropLast_cons_of_ne_nil hend] at hpiece
      rcases List.mem_cons.1 hpiece with rfl | hlater
      · have hmore : rest.drop (n - 1) ≠ [] := fun hnone => hend (by rw [hnone, chunks])
        rw [ne_eq, List.drop_eq_nil_iff, Nat.not_le] at hmore
        rw [List.length_cons, List.length_take_of_le (Nat.le_of_lt hmore)]
        omega
      · exact ih hlater

/-- A quotient, and one more if something is left over. -/
theorem div_add_eq_ceilDiv (hn : 0 < n) (length : Nat) :
    (length / n + if length % n = 0 then 0 else 1) = length ⌈/⌉ n := by
  have hrest := Nat.mod_lt length hn
  obtain ⟨whole, hwhole⟩ : ∃ whole, whole = length / n := ⟨_, rfl⟩
  obtain ⟨rest, hmod⟩ : ∃ rest, rest = length % n := ⟨_, rfl⟩
  have hlength : length = n * whole + rest := by
    rw [hwhole, hmod, Nat.div_add_mod]
  have hextra : (if rest = 0 then 0 else 1) = (rest + n - 1) / n := by
    split
    · rw [Nat.div_eq_of_lt (by omega)]
    · symm
      apply Nat.div_eq_of_lt_le
      · omega
      · omega
  calc (length / n + if length % n = 0 then 0 else 1)
      = (n * whole + (rest + n - 1)) / n := by
        rw [← hwhole, ← hmod, hextra, Nat.mul_add_div hn]
    _ = (length + n - 1) / n := by
      rw [hlength, Nat.add_assoc, ← Nat.add_sub_assoc (by omega)]
    _ = length ⌈/⌉ n := (Nat.ceilDiv_eq_add_pred_div ..).symm

/-- Cutting a list into pieces of length `n` that come out even. -/
theorem chunks_eq_map_range (hn : 0 < n) {k : Nat} {xs : List α} (hlength : xs.length = n * k) :
    chunks n xs = (List.range k).map fun j => (xs.drop (n * j)).take n := by
  induction k generalizing xs with
  | zero =>
    have hnil : xs = [] := List.eq_nil_of_length_eq_zero (by simpa using hlength)
    simp [hnil, chunks]
  | succ k ih =>
    have hlong : n ≤ xs.length := by
      rw [hlength, Nat.mul_succ]
      omega
    have hfirst : (xs.take n).length = n := by
      rw [List.length_take]
      omega
    have hrest : (xs.drop n).length = n * k := by
      rw [List.length_drop, hlength, Nat.mul_succ]
      omega
    have hcut : chunks n xs = xs.take n :: chunks n (xs.drop n) := by
      conv => lhs; rw [← List.take_append_drop n xs]
      exact chunks_append _ hfirst hn
    rw [hcut, ih hrest, List.range_succ_eq_map, List.map_cons, List.map_map]
    congr 1
    apply List.map_congr_left
    intro j _
    simp only [Function.comp_apply, List.drop_drop, Nat.mul_succ]
    congr 2
    omega

theorem getElem?_chunks (hn : 0 < n) (xs : List α) (i : Nat) :
    (chunks n xs)[i]? = if n * i < xs.length then some ((xs.drop (n * i)).take n) else none := by
  fun_induction chunks n xs generalizing i with
  | case1 => simp
  | case2 x rest ih =>
    have hcut : rest.drop (n - 1) = (x :: rest).drop n := by
      conv => rhs; rw [show n = n - 1 + 1 by omega]
      rfl
    cases i with
    | zero =>
      have htake : x :: rest.take (n - 1) = (x :: rest).take n := by
        conv => rhs; rw [show n = n - 1 + 1 by omega]
        rfl
      rw [List.getElem?_cons_zero, if_pos (by simp), htake, Nat.mul_zero, List.drop_zero]
    | succ i =>
      rw [List.getElem?_cons_succ, ih, hcut, List.length_drop, List.drop_drop, Nat.mul_succ,
        Nat.add_comm n]
      by_cases hi : n * i + n < (x :: rest).length
      · rw [if_pos (by omega), if_pos hi]
      · rw [if_neg (by omega), if_neg hi]

/-- A piece is found where the pieces before it end. -/
theorem take_drop_flatten {pieces : List (List α)} (hsized : ∀ piece ∈ pieces, piece.length = n)
    {k : Nat} {piece : List α} (hpiece : pieces[k]? = some piece) :
    (pieces.flatten.drop (n * k)).take n = piece := by
  induction pieces generalizing k with
  | nil => simp at hpiece
  | cons first rest ih =>
    have hfirst := hsized first List.mem_cons_self
    cases k with
    | zero =>
      simp only [List.getElem?_cons_zero, Option.some.injEq] at hpiece
      subst hpiece
      rw [Nat.mul_zero, List.drop_zero, List.flatten_cons, List.take_left' hfirst]
    | succ k =>
      rw [List.getElem?_cons_succ] at hpiece
      calc ((first :: rest).flatten.drop (n * (k + 1))).take n
          = (((first ++ rest.flatten).drop n).drop (n * k)).take n := by
            rw [List.flatten_cons, List.drop_drop, Nat.mul_succ, Nat.add_comm]
        _ = (rest.flatten.drop (n * k)).take n := by rw [List.drop_left' hfirst]
        _ = piece := ih (fun p hp => hsized p (List.mem_cons_of_mem first hp)) hpiece

/-- The numbers below `n * k`, `n` at a time. -/
theorem range_mul (n k : Nat) :
    List.range (n * k) = (List.range k).flatMap fun j => (List.range n).map fun i => n * j + i := by
  induction k with
  | zero => rfl
  | succ k ih =>
    rw [Nat.mul_succ, List.range_add, ih, List.range_succ, List.flatMap_append,
      List.flatMap_singleton]

end Chunks

namespace Bytes

theorem littleValue_little (width n : Nat) : littleValue (little width n) = n % 256 ^ width := by
  induction width generalizing n with
  | zero => simp [little, littleValue, Nat.mod_one]
  | succ width ih =>
    have hpow : 256 ^ (width + 1) = 256 * 256 ^ width := by rw [Nat.pow_succ, Nat.mul_comm]
    calc littleValue (little (width + 1) n)
        = n % 256 + 256 * (n / 256 % 256 ^ width) := by
          rw [little, littleValue, ih, UInt8.toNat_ofNat']
      _ = n % 256 ^ (width + 1) := by rw [hpow, Nat.mod_mul]

theorem little_littleValue (bytes : Bytes) : little bytes.length (littleValue bytes) = bytes := by
  induction bytes with
  | nil => rfl
  | cons b rest ih =>
    have hb := b.toNat_lt
    have hfirst : UInt8.ofNat (b.toNat + 256 * littleValue rest) = b := by
      apply UInt8.toNat.inj
      rw [UInt8.toNat_ofNat']
      omega
    have hrest : (b.toNat + 256 * littleValue rest) / 256 = littleValue rest := by omega
    rw [List.length_cons, littleValue, little, hfirst, hrest, ih]

theorem littleValue_little_of_lt {n : Nat} (hn : n < 65536) : littleValue (little 2 n) = n := by
  rw [littleValue_little]
  omega

theorem littleValue_lt (bytes : Bytes) : littleValue bytes < 256 ^ bytes.length := by
  induction bytes with
  | nil => simp [littleValue]
  | cons b rest ih =>
    have hb := b.toNat_lt
    rw [littleValue, List.length_cons, Nat.pow_succ]
    omega

theorem getElem?_splice {bytes patch : Bytes} {position : Nat}
    (hfits : position + patch.length ≤ bytes.length) (i : Nat) :
    (splice bytes position patch)[i]? =
      if position ≤ i ∧ i < position + patch.length then patch[i - position]? else bytes[i]? := by
  have hlead : (bytes.take position).length = position := by
    rw [List.length_take]
    omega
  unfold splice
  by_cases hbefore : i < position
  · rw [List.append_assoc, List.getElem?_append_left (by omega), List.getElem?_take_of_lt hbefore,
      if_neg (by omega)]
  · by_cases hinside : i < position + patch.length
    · rw [List.getElem?_append_left (by rw [List.length_append]; omega),
        List.getElem?_append_right (by omega), hlead, if_pos (by omega)]
    · rw [List.getElem?_append_right (by rw [List.length_append]; omega), List.length_append, hlead,
        List.getElem?_drop, if_neg (by omega)]
      congr 1
      omega

/-- A window of a spliced string that the patch misses. -/
theorem take_drop_splice {bytes patch : Bytes} {position : Nat}
    (hfits : position + patch.length ≤ bytes.length) {start length : Nat}
    (hmiss : start + length ≤ position ∨ position + patch.length ≤ start) :
    ((splice bytes position patch).drop start).take length = (bytes.drop start).take length := by
  apply List.ext_getElem?
  intro i
  by_cases hi : i < length
  · rw [List.getElem?_take_of_lt hi, List.getElem?_take_of_lt hi, List.getElem?_drop,
      List.getElem?_drop, getElem?_splice hfits, if_neg (by omega)]
  · rw [List.getElem?_take_eq_none (by omega), List.getElem?_take_eq_none (by omega)]

theorem take_drop_splice_self {bytes patch : Bytes} {position : Nat}
    (hfits : position + patch.length ≤ bytes.length) :
    ((splice bytes position patch).drop position).take patch.length = patch := by
  apply List.ext_getElem?
  intro i
  by_cases hi : i < patch.length
  · rw [List.getElem?_take_of_lt hi, List.getElem?_drop, getElem?_splice hfits, if_pos (by omega),
      Nat.add_sub_cancel_left]
  · rw [List.getElem?_take_eq_none (by omega), List.getElem?_eq_none (by omega)]

/-- Writing over a string what stands there already is the only patch that does not show. -/
theorem splice_eq_self_iff {bytes patch : Bytes} {position : Nat}
    (hfits : position + patch.length ≤ bytes.length) :
    splice bytes position patch = bytes ↔ (bytes.drop position).take patch.length = patch := by
  constructor
  · intro hsame
    have hself := take_drop_splice_self hfits
    rwa [hsame] at hself
  · intro hwindow
    calc splice bytes position patch
        = bytes.take position ++ (bytes.drop position).take patch.length ++
            (bytes.drop position).drop patch.length := by rw [splice, hwindow, List.drop_drop]
      _ = bytes := by rw [List.append_assoc, List.take_append_drop, List.take_append_drop]

/-- A number of two bytes is found where it was written. -/
theorem take_drop_splice_little {bytes : Bytes} {position : Nat}
    (hfits : position + 2 ≤ bytes.length) (n : Nat) :
    ((splice bytes position (little 2 n)).drop position).take 2 = little 2 n := by
  have hwindow : (little 2 n).length = 2 := length_little 2 n
  have hself : ((splice bytes position (little 2 n)).drop position).take (little 2 n).length =
      little 2 n := take_drop_splice_self (by omega)
  rwa [hwindow] at hself

end Bytes

namespace Buffer

theorem getElem?_slice (buffer : Buffer) (position length i : Nat) :
    (slice buffer position length)[i]? =
      if i < length then buffer[position + i]? else none := by
  unfold slice
  rw [Array.getElem?_toList, Array.getElem?_extract]
  by_cases hi : i < length
  · by_cases hend : position + i < buffer.size
    · rw [if_pos (by omega), if_pos hi]
    · rw [if_neg (by omega), if_pos hi, Array.getElem?_eq_none (by omega)]
  · rw [if_neg (by omega), if_neg hi]

theorem slice_toArray (bytes : Bytes) (position length : Nat) :
    slice bytes.toArray position length = (bytes.drop position).take length := by
  unfold slice
  rw [List.extract_toArray, List.extract_eq_take_drop]
  simp

theorem length_slice {buffer : Buffer} {position length : Nat}
    (hfits : position + length ≤ buffer.size) : (slice buffer position length).length = length := by
  unfold slice
  rw [Array.length_toList, Array.size_extract]
  omega

theorem take_slice (buffer : Buffer) (position : Nat) {count length : Nat}
    (hcount : count ≤ length) :
    (slice buffer position length).take count = slice buffer position count := by
  apply List.ext_getElem?
  intro i
  rw [getElem?_slice]
  by_cases hi : i < count
  · rw [List.getElem?_take_of_lt hi, getElem?_slice, if_pos (by omega), if_pos hi]
  · rw [List.getElem?_take_eq_none (by omega), if_neg hi]

theorem slice_append (buffer : Buffer) (position first second : Nat) :
    slice buffer position (first + second) =
      slice buffer position first ++ slice buffer (position + first) second := by
  unfold slice
  rw [← Array.toList_append, Array.extract_append_extract]
  congr 2
  · omega
  · omega

theorem getElem?_overlay (buffer : Buffer) (position : Nat) (patch : Bytes) (i : Nat) :
    (overlay buffer position patch)[i]? =
      if position ≤ i ∧ i < position + patch.length ∧ i < buffer.size then patch[i - position]?
      else buffer[i]? := by
  induction patch generalizing buffer position with
  | nil =>
    rw [overlay, if_neg]
    simp only [List.length_nil]
    omega
  | cons b rest ih =>
    rw [overlay, ih, Array.size_setIfInBounds, List.length_cons]
    by_cases hhere : i = position
    · subst hhere
      rw [if_neg (by omega), Array.getElem?_setIfInBounds_self]
      by_cases hin : i < buffer.size
      · rw [if_pos hin, if_pos ⟨Nat.le_refl _, by omega, hin⟩, Nat.sub_self,
          List.getElem?_cons_zero]
      · rw [if_neg hin, if_neg (by omega), Array.getElem?_eq_none (by omega)]
    · rw [Array.getElem?_setIfInBounds_ne (Ne.symm hhere)]
      by_cases hin : position ≤ i ∧ i < position + (rest.length + 1) ∧ i < buffer.size
      · have hshift : i - position = i - (position + 1) + 1 := by omega
        rw [if_pos (by omega), if_pos hin, hshift, List.getElem?_cons_succ]
      · rw [if_neg (by omega), if_neg hin]

/-- Two patches one behind the other are one patch. -/
theorem overlay_append (buffer : Buffer) (position : Nat) (first second : Bytes) :
    overlay (overlay buffer position first) (position + first.length) second =
      overlay buffer position (first ++ second) := by
  induction first generalizing buffer position with
  | nil => rfl
  | cons b rest ih =>
    have hnext : position + (b :: rest).length = position + 1 + rest.length := by
      rw [List.length_cons]
      omega
    rw [List.cons_append, overlay, overlay, hnext, ih]

theorem slice_overlay_self {buffer : Buffer} {position : Nat} {patch : Bytes}
    (hfits : position + patch.length ≤ buffer.size) :
    slice (overlay buffer position patch) position patch.length = patch := by
  apply List.ext_getElem?
  intro i
  rw [getElem?_slice, getElem?_overlay]
  by_cases hi : i < patch.length
  · rw [if_pos hi, if_pos ⟨by omega, by omega, by omega⟩, Nat.add_sub_cancel_left]
  · rw [if_neg hi, List.getElem?_eq_none (by omega)]

/-- Writing what is there already changes nothing. -/
theorem overlay_slice (buffer : Buffer) (position length : Nat) :
    overlay buffer position (slice buffer position length) = buffer := by
  have hshort : (slice buffer position length).length ≤ length := by
    unfold slice
    rw [Array.length_toList, Array.size_extract]
    omega
  apply Array.ext_getElem?
  intro i
  rw [getElem?_overlay]
  split
  · rename_i hinside
    rw [getElem?_slice, if_pos (by omega), Nat.add_sub_cancel' hinside.1]
  · rfl

/-- A patch does not show in a stretch that it misses. -/
theorem slice_overlay_of_disjoint {buffer : Buffer} {position start length : Nat} {patch : Bytes}
    (hmiss : start + length ≤ position ∨ position + patch.length ≤ start) :
    slice (overlay buffer position patch) start length = slice buffer start length := by
  apply List.ext_getElem?
  intro i
  rw [getElem?_slice, getElem?_slice]
  by_cases hi : i < length
  · rw [if_pos hi, if_pos hi, getElem?_overlay, if_neg (by omega)]
  · rw [if_neg hi, if_neg hi]

end Buffer

end AtariDisk
