import AtariDisk.Proofs.Image.Runs
import AtariDisk.Proofs.Volume.Trail

/-!
# Chains are found where they were put

A file can be put on any sectors of a disk, in any order, as long as they are different, have full
size and have numbers that fit into a link. No sector is written twice, so that each link stays as
it was written, following the links finds the file, and no other sector changes. The disk need not
hold a volume, nor be large enough for one.
-/

namespace AtariDisk

namespace Image

/-- Bytes of a file that go into a sector of full size. -/
def capacity (image : Image) : Nat :=
  image.header.sectorSize - 3

/-- The file cut for sectors of full size. -/
def pieces (image : Image) (data : Bytes) : Chain :=
  Chain.split image.capacity data

/-- The disk has the sector, in full size, and a link has room for its number. -/
structure Hosts (image : Image) (n : Nat) : Prop where
  valid : image.header.hasSector n = .ok true
  named : n ≤ 1023
  full : ∃ span, image.header.locate n = .ok span ∧ span.length = image.header.sectorSize

section Sound

variable {image : Image} (hsound : image.Sound)

include hsound

theorem Sound.capacity_pos : 0 < image.capacity := by
  have hcases : image.header.sectorSize = 128 ∨ image.header.sectorSize = 256 :=
    hsound.regular.size
  unfold capacity
  omega

theorem Sound.cuts_pieces (data : Bytes) : (image.pieces data).Cuts image.capacity data :=
  Chain.cuts_split hsound.capacity_pos data

variable (hsize : image.data.size < Word.bound) {n : Nat}

include hsize

theorem Sound.linkable_of_hosts (hn : image.Hosts n) : image.Linkable n := by
  obtain ⟨hfirst, hlast⟩ := (hsound.hasSector_iff hsize).1 hn.valid
  have hnamed := hn.named
  exact ⟨hfirst, hlast, by omega⟩

theorem Sound.length_place_of_hosts (hn : image.Hosts n) :
    (image.header.place n).length = image.header.sectorSize := by
  obtain ⟨span, hlocate, hfull⟩ := hn.full
  obtain ⟨_, rfl⟩ :=
    (Header.locate_eq_ok_iff hsound.regular (hsound.imageSize_lt hsize)).1 hlocate
  exact hfull

/-- The pieces of a file fit the sectors that they are placed on. -/
theorem Sound.fits_of_mem_placed {data : Bytes} {numbers : List Nat} {owner : Nat}
    (howner : owner ≤ 63) (hhosts : ∀ n ∈ numbers, image.Hosts n) {s : DataSector}
    (hs : s ∈ (image.pieces data).assign owner numbers) :
    image.Linkable s.number ∧ s.Fits (image.header.place s.number).length := by
  obtain ⟨_, hnumber, _, piece, hpiece, hpayload⟩ := Chain.mem_assign hs
  have hhost := hhosts s.number hnumber
  have hshort := ((hsound.cuts_pieces data).bounds piece hpiece).2
  have hroom := hsound.capacity_pos
  refine ⟨hsound.linkable_of_hosts hsize hhost, ?_⟩
  refine Chain.fits_of_mem_assign hs howner (fun n hn => (hhosts n hn).named) ?_
  rw [hsound.length_place_of_hosts hsize hhost, hpayload]
  simp only [capacity, DataSector.linkSize] at hshort hroom ⊢
  omega

end Sound

end Image

namespace Volume

open Image

/-- **Chains are found where they were put.** Cut for the sectors of a disk, a file is in as many
pieces as it needs, all of them full but for the last. Linked over as many different sectors, in any
order, the pieces can be written. An entry with the number of the file, its first sector and their
count finds them again in that order, and all other sectors are read as before. With any other
number of sectors the pieces are not linked, and stay as they are. -/
theorem chain_found_where_placed {image : Image} (hmade : image.Made)
    (hsize : image.data.size < Word.bound) (data : Bytes) :
    (image.pieces data).Cuts image.capacity data ∧
    Chain.sectorsNeeded image.capacity data.length = data.length ⌈/⌉ image.capacity ∧
    ∀ (numbers : List Nat) (owner : Nat),
      (numbers.length = data.length ⌈/⌉ image.capacity → owner ≤ 63 → numbers.Nodup →
        (∀ n ∈ numbers, image.Hosts n) →
          ∃ chain after, Chain.link numbers owner (image.pieces data) = .ok () chain ∧
            storeChain chain image = .ok () after ∧
            (∀ e : Entry, e.slot = owner → e.firstSector = numbers.headD 0 →
              e.sectorCount = numbers.length → after.follow e = .ok chain) ∧
            chain.numbers = numbers ∧ chain.contents = data ∧
            ∀ n, n ∉ numbers → after.readSector n = image.readSector n) ∧
      (numbers.length ≠ data.length ⌈/⌉ image.capacity →
        Chain.link numbers owner (image.pieces data) =
          .error (.refused (.notEnoughSpace (image.pieces data).length numbers.length))
            (image.pieces data)) := by
  obtain ⟨hsound, _⟩ := hmade.sound
  have hcounted : image.Counted := ⟨hsound, hsound.countable hsize⟩
  have hcuts := hsound.cuts_pieces data
  have hneeded := Chain.sectorsNeeded_eq_ceilDiv hsound.capacity_pos data.length
  have hpieces : (image.pieces data).length = data.length ⌈/⌉ image.capacity :=
    hcuts.count.trans hneeded
  refine ⟨hcuts, hneeded, fun numbers owner => ⟨?_, ?_⟩⟩
  · intro hcount howner hnodup hhosts
    have hplaced : numbers.length = (image.pieces data).length := hcount.trans hpieces.symm
    obtain ⟨chain, hchain⟩ : ∃ chain, chain = (image.pieces data).assign owner numbers := ⟨_, rfl⟩
    have hnumbers : chain.numbers = numbers := hchain ▸ Chain.numbers_assign hplaced
    have hlinked : chain.Linked owner := hchain ▸ Chain.linked_assign hplaced
    have hcontents : chain.contents = data :=
      hchain ▸ (Chain.contents_assign hplaced).trans hcuts.contents
    have hfits : ∀ s ∈ chain, image.Linkable s.number ∧
        s.Fits (image.header.place s.number).length := fun s hs =>
      hsound.fits_of_mem_placed hsize howner hhosts (hchain ▸ hs)
    have hlinkable := fun s hs => (hfits s hs).1
    have hroom := fun s hs => (hfits s hs).2
    -- The numbers are different, so that no piece is written over the link of another.
    have hcarries := carries_putAll hcounted hlinkable hroom (hnumbers ▸ hnodup) hlinked
    refine ⟨chain, image.putAll (chainWrites image chain), ?_,
      storeChain_eq hcounted hlinkable hroom, ?_, hnumbers, hcontents, fun n hn => ?_⟩
    · rw [hchain, Chain.link_eq_ok hplaced]
    · intro e hslot hfirst hlength
      refine hcarries.follow_eq (hcounted.of_alike (alike_putAll ..)) hslot ?_ ?_
      · rw [hfirst, Chain.firstSector, hnumbers]
      · rw [hlength, ← hnumbers, Chain.numbers, List.length_map]
    · refine hsound.readSector_putAll_of_not_mem hsize (fitting_chainWrites hlinkable hroom) ?_
      rwa [fst_chainWrites, hnumbers]
  · intro hother
    exact Chain.link_eq_refused (hpieces ▸ hother)

/-- Five empty sectors, too few for a volume. -/
def fiveSectors : Image :=
  ⟨(Bytes.zeros 640).toArray, ⟨⟨640, 128, 0, 0, 1, 5, 18⟩, .xfd, 0, 0, 0⟩, false, none, .idle⟩

theorem ofBuffer_fiveSectors :
    Image.ofBuffer (Bytes.zeros 640).toArray = .ok fiveSectors := by
  have hdetect : Container.detect (Buffer.slice (Bytes.zeros 640).toArray 0 16) = .xfd := by
    rw [Buffer.slice_toArray, Bytes.zeros, List.drop_zero, List.take_replicate]
    decide
  refine ofBuffer_eq_ok_iff.2 ⟨fiveSectors.header, ?_, rfl⟩
  rw [headerIn, hdetect, List.size_toArray, Bytes.length_zeros]
  rfl

/-- A file on the fifth, the first and the third sector of a small disk, as the last file that a
link has room for. On two of them it is not put. -/
theorem chain_found_where_placed_scattered :
    Image.ofBuffer (Bytes.zeros 640).toArray = .ok fiveSectors ∧
      (∃ chain after,
        Chain.link [5, 1, 3] 63 (fiveSectors.pieces (List.replicate 300 0x55)) = .ok () chain ∧
        storeChain chain fiveSectors = .ok () after ∧
        after.follow ⟨63, .ofKind .normal, 3, 5, ⟨"A", ""⟩, 0⟩ = .ok chain ∧
        chain.numbers = [5, 1, 3] ∧ chain.contents = List.replicate 300 0x55 ∧
        after.readSector 2 = fiveSectors.readSector 2) ∧
      Chain.link [5, 1] 63 (fiveSectors.pieces (List.replicate 300 0x55)) =
        .error (.refused (.notEnoughSpace 3 2))
          (fiveSectors.pieces (List.replicate 300 0x55)) := by
  have hread := ofBuffer_fiveSectors
  have hsize : fiveSectors.data.size < Word.bound := by
    rw [data_of_ofBuffer hread, List.size_toArray, Bytes.length_zeros]
    decide
  obtain ⟨hcuts, hneeded, hplace⟩ :=
    chain_found_where_placed (.inl ⟨_, hread⟩) hsize (List.replicate 300 0x55)
  have hcount : (List.replicate 300 (0x55 : UInt8)).length ⌈/⌉ fiveSectors.capacity = 3 := by
    rw [List.length_replicate]
    rfl
  have hpieces := hcuts.count.trans (hneeded.trans hcount)
  have hhosts : ∀ n ∈ [5, 1, 3], fiveSectors.Hosts n := by
    intro n hn
    simp only [List.mem_cons, List.not_mem_nil, or_false] at hn
    rcases hn with rfl | rfl | rfl
    all_goals exact ⟨rfl, by decide, _, rfl, rfl⟩
  rw [hcount] at hplace
  refine ⟨hread, ?_, ?_⟩
  · obtain ⟨chain, after, hlink, hstore, hfollow, hnumbers, hcontents, hothers⟩ :=
      (hplace [5, 1, 3] 63).1 rfl (by decide) (by decide) hhosts
    exact ⟨chain, after, hlink, hstore, hfollow _ rfl rfl rfl, hnumbers, hcontents,
      hothers 2 (by decide)⟩
  · rw [(hplace [5, 1] 63).2 (by decide), hpieces]
    rfl

end Volume

end AtariDisk
