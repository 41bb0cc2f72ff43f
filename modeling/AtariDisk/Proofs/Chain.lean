import AtariDisk.Chain
import AtariDisk.Proofs.DataSector

/-!
# Chains survive the disk

The pieces of a file, placed on sectors, are linked in order and hold the file.
-/

namespace AtariDisk

namespace Chain

theorem fileLength_eq (chain : Chain) : chain.fileLength = chain.contents.length := by
  induction chain with
  | nil => rfl
  | cons s rest ih => simp [fileLength, contents, ih]

theorem effective_pos (capacity : Nat) : 0 < effective capacity := by
  unfold effective
  omega

theorem length_split (capacity : Nat) (contents : Bytes) :
    (split capacity contents).length = sectorsNeeded capacity contents.length := by
  unfold split sectorsNeeded
  rw [List.length_map, length_chunks (effective_pos capacity)]

theorem sectorsNeeded_eq_ceilDiv {capacity : Nat} (hcapacity : 0 < capacity) (length : Nat) :
    sectorsNeeded capacity length = length ⌈/⌉ capacity := by
  have heffective : effective capacity = capacity := Nat.max_eq_left hcapacity
  rw [sectorsNeeded, heffective, div_add_eq_ceilDiv hcapacity]

theorem contents_split (capacity : Nat) (data : Bytes) : (split capacity data).contents = data := by
  unfold split contents
  rw [List.flatMap_map]
  have hpayload : (fun piece => (DataSector.unplaced piece).payload) = id := rfl
  rw [hpayload, List.flatMap_id, flatten_chunks]

theorem length_payload_of_mem_split {capacity : Nat} {data : Bytes} {s : DataSector}
    (hs : s ∈ split capacity data) : s.payload.length ≤ effective capacity := by
  obtain ⟨piece, hpiece, rfl⟩ := List.mem_map.1 hs
  exact length_le_of_mem_chunks (effective_pos capacity) hpiece

theorem length_payload_le_of_mem_split {capacity : Nat} {data : Bytes} {s : DataSector}
    (hs : s ∈ split capacity data) : s.payload.length ≤ data.length := by
  obtain ⟨piece, hpiece, rfl⟩ := List.mem_map.1 hs
  have hwhole := flatten_chunks (effective capacity) data
  have hpart := (List.sublist_flatten_of_mem hpiece).length_le
  rw [hwhole] at hpart
  exact hpart

theorem length_payload_pos_of_mem_split {capacity : Nat} {data : Bytes} {s : DataSector}
    (hs : s ∈ split capacity data) : 0 < s.payload.length := by
  obtain ⟨piece, hpiece, rfl⟩ := List.mem_map.1 hs
  exact length_pos_of_mem_chunks hpiece

/-- Only the last piece may be short. -/
theorem length_payload_of_mem_dropLast_split {capacity : Nat} {data : Bytes} {s : DataSector}
    (hs : s ∈ (split capacity data).dropLast) : s.payload.length = effective capacity := by
  rw [split, ← List.map_dropLast] at hs
  obtain ⟨piece, hpiece, rfl⟩ := List.mem_map.1 hs
  exact length_of_mem_dropLast_chunks (effective_pos capacity) hpiece

/-- The pieces make up the file, in as many as it needs, and all are full but for the last. -/
structure Cuts (pieces : Chain) (capacity : Nat) (data : Bytes) : Prop where
  count : pieces.length = sectorsNeeded capacity data.length
  full : ∀ s ∈ pieces.dropLast, s.payload.length = capacity
  bounds : ∀ s ∈ pieces, 0 < s.payload.length ∧ s.payload.length ≤ capacity
  contents : pieces.contents = data

theorem cuts_split {capacity : Nat} (hcapacity : 0 < capacity) (data : Bytes) :
    (split capacity data).Cuts capacity data := by
  have heffective : effective capacity = capacity := Nat.max_eq_left hcapacity
  refine ⟨length_split capacity data, fun s hs => ?_, fun s hs => ⟨?_, ?_⟩,
    contents_split capacity data⟩
  · rw [length_payload_of_mem_dropLast_split hs, heffective]
  · exact length_payload_pos_of_mem_split hs
  · exact heffective ▸ length_payload_of_mem_split hs

/-- Each sector belongs to `owner` and names the one behind it. -/
def Linked (owner : Nat) : Chain → Prop
  | [] => True
  | s :: rest => s.owner = owner ∧ s.next = firstSector rest ∧ Linked owner rest

section Assign

variable {owner : Nat} {chain : Chain} {order : List Nat}

theorem numbers_assign (hlength : order.length = chain.length) :
    (assign owner chain order).numbers = order := by
  induction chain generalizing order with
  | nil =>
    have hnil : order = [] := List.eq_nil_of_length_eq_zero hlength
    simp [hnil, assign, numbers]
  | cons s rest ih =>
    cases order with
    | nil => simp at hlength
    | cons n order =>
      have htail := ih (Nat.succ.inj hlength)
      simp only [assign, numbers, List.map_cons] at htail ⊢
      rw [htail]

theorem contents_assign (hlength : order.length = chain.length) :
    (assign owner chain order).contents = chain.contents := by
  induction chain generalizing order with
  | nil =>
    simp [assign]
  | cons s rest ih =>
    cases order with
    | nil => simp at hlength
    | cons n order =>
      have htail := ih (Nat.succ.inj hlength)
      simp only [assign, contents, List.flatMap_cons] at htail ⊢
      rw [htail]

theorem linked_assign (hlength : order.length = chain.length) :
    Linked owner (assign owner chain order) := by
  induction chain generalizing order with
  | nil => cases order <;> exact trivial
  | cons s rest ih =>
    cases order with
    | nil => exact trivial
    | cons n order =>
      have htail := Nat.succ.inj hlength
      refine ⟨rfl, ?_, ih htail⟩
      rw [firstSector, numbers_assign htail]

theorem mem_assign {s : DataSector} (hs : s ∈ assign owner chain order) :
    s.owner = owner ∧ s.number ∈ order ∧ (s.next = 0 ∨ s.next ∈ order) ∧
      ∃ piece ∈ chain, s.payload = piece.payload := by
  induction chain generalizing order with
  | nil => cases order <;> simp [assign] at hs
  | cons first rest ih =>
    cases order with
    | nil => simp [assign] at hs
    | cons n order =>
      rcases List.mem_cons.1 hs with rfl | hlater
      · refine ⟨rfl, List.mem_cons_self, ?_, first, List.mem_cons_self, rfl⟩
        cases order with
        | nil => exact .inl rfl
        | cons next order => exact .inr (List.mem_cons_of_mem n List.mem_cons_self)
      · obtain ⟨howner, hnumber, hnext, piece, hpiece, hpayload⟩ := ih hlater
        exact ⟨howner, List.mem_cons_of_mem n hnumber, hnext.imp_right (List.mem_cons_of_mem n),
          piece, List.mem_cons_of_mem first hpiece, hpayload⟩

/-- A placed piece fits its sector if its payload does, since a link has room for all numbers. -/
theorem fits_of_mem_assign {s : DataSector} (hs : s ∈ assign owner chain order)
    (howner : owner ≤ DataSector.maxOwner) (hnamed : ∀ n ∈ order, n ≤ DataSector.maxNext)
    {size : Nat} (hpayload : s.payload.length + DataSector.linkSize ≤ size) : s.Fits size := by
  obtain ⟨rfl, _, hnext, _⟩ := mem_assign hs
  refine ⟨hpayload, howner, ?_⟩
  rcases hnext with hzero | hmem
  · rw [hzero]
    exact Nat.zero_le _
  · exact hnamed _ hmem

theorem link_eq_ok (hlength : order.length = chain.length) :
    link order owner chain = .ok () (assign owner chain order) := by
  rw [link, Call.get_bind, place, if_pos hlength]
  rfl

theorem link_eq_refused (hlength : order.length ≠ chain.length) :
    link order owner chain =
      .error (.refused (.notEnoughSpace chain.length order.length)) chain := by
  rw [link, Call.get_bind, place, if_neg hlength]
  rfl

end Assign

end Chain

end AtariDisk
