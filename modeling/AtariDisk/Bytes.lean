/-!
# Byte strings

Short byte strings (sectors, records, payloads) are lists. The bytes of a whole image are held in
an array, so that a sector can be replaced in place.
-/

namespace AtariDisk

abbrev Bytes := List UInt8

/-- The bytes of a whole image. -/
abbrev Buffer := Array UInt8

/-- Consecutive pieces of length `n` (of length one for `n = 0`); only the last may be shorter. -/
def chunks {α : Type} (n : Nat) : List α → List (List α)
  | [] => []
  | x :: rest => (x :: rest.take (n - 1)) :: chunks n (rest.drop (n - 1))
termination_by xs => xs.length
decreasing_by
  simp only [List.length_drop, List.length_cons]
  omega

theorem chunks_append {α : Type} {n : Nat} {first : List α} (rest : List α)
    (sized : first.length = n) (positive : 0 < n) :
    chunks n (first ++ rest) = first :: chunks n rest := by
  cases first with
  | nil =>
    simp only [List.length_nil] at sized
    omega
  | cons x tail =>
    have same : tail.length = n - 1 := by
      simp only [List.length_cons] at sized
      omega
    rw [List.cons_append, chunks, List.take_left' same, List.drop_left' same]

theorem chunks_flatten {α : Type} {n : Nat} {pieces : List (List α)}
    (sized : ∀ piece ∈ pieces, piece.length = n) (positive : 0 < n) :
    chunks n pieces.flatten = pieces := by
  induction pieces with
  | nil => simp [chunks]
  | cons piece rest ih =>
    rw [List.flatten_cons, chunks_append _ (sized piece (by simp)) positive,
      ih fun p member => sized p (List.mem_cons_of_mem piece member)]

theorem length_le_of_mem_chunks {α : Type} {n : Nat} (positive : 0 < n) {xs piece : List α}
    (member : piece ∈ chunks n xs) : piece.length ≤ n := by
  fun_induction chunks n xs with
  | case1 => simp at member
  | case2 x rest ih =>
    rcases List.mem_cons.1 member with rfl | later
    · simp only [List.length_cons, List.length_take]
      omega
    · exact ih later

theorem mem_of_mem_chunks {α : Type} {n : Nat} {xs piece : List α} {x : α}
    (member : piece ∈ chunks n xs) (inside : x ∈ piece) : x ∈ xs := by
  fun_induction chunks n xs with
  | case1 => simp at member
  | case2 y rest ih =>
    rcases List.mem_cons.1 member with rfl | later
    · rcases List.mem_cons.1 inside with rfl | tail
      · exact List.mem_cons_self
      · exact List.mem_cons_of_mem y (List.mem_of_mem_take tail)
    · exact List.mem_cons_of_mem y (List.mem_of_mem_drop (ih later))

theorem length_flatten_of_forall {α : Type} {n : Nat} {pieces : List (List α)}
    (sized : ∀ piece ∈ pieces, piece.length = n) : pieces.flatten.length = n * pieces.length := by
  induction pieces with
  | nil => simp
  | cons piece rest ih =>
    rw [List.flatten_cons, List.length_append, sized piece (by simp),
      ih fun p member => sized p (List.mem_cons_of_mem piece member), List.length_cons,
      Nat.mul_succ, Nat.add_comm]

namespace Bytes

def zeros (n : Nat) : Bytes :=
  List.replicate n 0

/-- `bytes` cut or filled up to exactly `n` bytes. -/
def resize (n : Nat) (fill : UInt8) (bytes : Bytes) : Bytes :=
  bytes.take n ++ List.replicate (n - bytes.length) fill

/-- The lowest `width` bytes of `n`, least significant first. -/
def little : (width n : Nat) → Bytes
  | 0, _ => []
  | width + 1, n => UInt8.ofNat n :: little width (n / 256)

/-- The number written least significant byte first. -/
def littleValue : Bytes → Nat
  | [] => 0
  | b :: rest => b.toNat + 256 * littleValue rest

/-- `bytes` with `patch` written over the bytes from `position` on. -/
def splice (bytes : Bytes) (position : Nat) (patch : Bytes) : Bytes :=
  bytes.take position ++ patch ++ bytes.drop (position + patch.length)

@[simp]
theorem length_zeros (n : Nat) : (zeros n).length = n := by
  simp [zeros]

@[simp]
theorem length_resize (n : Nat) (fill : UInt8) (bytes : Bytes) :
    (resize n fill bytes).length = n := by
  simp [resize]
  omega

theorem take_resize {short long : Nat} (le : short ≤ long) {bytes : Bytes}
    (fits : bytes.length ≤ short) (fill : UInt8) :
    (resize long fill bytes).take short = resize short fill bytes := by
  have whole : bytes.take long = bytes := List.take_of_length_le (by omega)
  rw [resize, resize, whole, List.take_append, List.take_replicate]
  congr 2
  omega

@[simp]
theorem length_little (width n : Nat) : (little width n).length = width := by
  induction width generalizing n with
  | zero => rfl
  | succ width ih => simp [little, ih]

theorem length_splice {bytes patch : Bytes} {position : Nat}
    (fits : position + patch.length ≤ bytes.length) :
    (splice bytes position patch).length = bytes.length := by
  simp [splice]
  omega

end Bytes

namespace Buffer

/-- The `length` bytes from `position` on, fewer where the buffer ends before. -/
def slice (buffer : Buffer) (position length : Nat) : Bytes :=
  (buffer.extract position (position + length)).toList

/-- `buffer` with `patch` written over the bytes from `position` on; it never grows. -/
def overlay (buffer : Buffer) (position : Nat) : Bytes → Buffer
  | [] => buffer
  | b :: rest => overlay (buffer.setIfInBounds position b) (position + 1) rest

@[simp]
theorem size_overlay (buffer : Buffer) (position : Nat) (patch : Bytes) :
    (overlay buffer position patch).size = buffer.size := by
  induction patch generalizing buffer position with
  | nil => rfl
  | cons b rest ih => simp [overlay, ih]

end Buffer

end AtariDisk
