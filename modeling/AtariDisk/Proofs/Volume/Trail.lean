import AtariDisk.Proofs.Volume.Operations
import Mathlib.Data.List.Perm.Subperm

/-!
# Chains are trails of links

A walk along a chain has no memory of the sectors it has passed. That it never comes to a sector
twice follows from the count in the entry and from each sector having one link only, and that two
files never share a sector from the owner in the link.
-/

namespace AtariDisk

namespace Image

/-! ### One link, one chain -/

section Carries

variable {image : Image} {slot : Nat} {chain : Chain}

theorem Carries.suffix {front back : Chain} (hcarries : image.Carries slot (front ++ back)) :
    image.Carries slot back := by
  induction front with
  | nil => exact hcarries
  | cons s rest ih =>
    apply ih
    exact (carries_cons.1 hcarries).2.2.2.2

/-- From a sector on there is one chain only, since each sector has one link. -/
theorem Carries.unique {other : Chain} (hchain : image.Carries slot chain)
    (hother : image.Carries slot other) (hfirst : chain.firstSector = other.firstSector) :
    chain = other := by
  induction chain generalizing other with
  | nil =>
    cases other with
    | nil => rfl
    | cons t rest =>
      have hzero : t.number = 0 := hfirst.symm
      have hpositive := (carries_cons.1 hother).1.1
      omega
  | cons s rest ih =>
    obtain ⟨hlinkable, hstored, _, hnext, hrest⟩ := carries_cons.1 hchain
    cases other with
    | nil =>
      have hzero : s.number = 0 := hfirst
      have hpositive := hlinkable.1
      omega
    | cons t tail =>
      obtain ⟨_, hstored', _, hnext', htail⟩ := carries_cons.1 hother
      have hnumber : s.number = t.number := hfirst
      rw [hnumber, hstored', Except.ok.injEq] at hstored
      subst hstored
      rw [ih hrest htail (hnext.symm.trans hnext')]

/-- A chain that came to a sector twice would be longer than itself. -/
theorem Carries.nodup_numbers (hcarries : image.Carries slot chain) : chain.numbers.Nodup := by
  induction chain with
  | nil => exact List.nodup_nil
  | cons s rest ih =>
    have hrest := (carries_cons.1 hcarries).2.2.2.2
    change (s.number :: rest.map (·.number)).Nodup
    rw [List.nodup_cons]
    refine ⟨fun hagain => ?_, ih hrest⟩
    obtain ⟨t, ht, hnumber⟩ := List.mem_map.1 hagain
    obtain ⟨front, back, rfl⟩ := List.append_of_mem ht
    have hsame := hcarries.unique hrest.suffix hnumber.symm
    have hlength := congrArg List.length hsame
    simp only [List.length_cons, List.length_append] at hlength
    omega

theorem Carries.owner_eq (hcarries : image.Carries slot chain) {s : DataSector} (hs : s ∈ chain) :
    s.owner = slot := by
  obtain ⟨front, back, rfl⟩ := List.append_of_mem hs
  exact (carries_cons.1 hcarries.suffix).2.2.1

/-- A sector belongs to the file that its link names. -/
theorem Carries.disjoint {other : Nat} {chain' : Chain} (hcarries : image.Carries slot chain)
    (hcarries' : image.Carries other chain') (hne : slot ≠ other) :
    chain.numbers.Disjoint chain'.numbers := by
  intro n hn hn'
  obtain ⟨s, hs, rfl⟩ := List.mem_map.1 hn
  obtain ⟨t, ht, hnumber⟩ := List.mem_map.1 hn'
  have hstored := hcarries.stored s hs
  have hstored' := hcarries'.stored t ht
  rw [hnumber, hstored, Except.ok.injEq] at hstored'
  apply hne
  rw [← hcarries.owner_eq hs, ← hcarries'.owner_eq ht, hstored']

/-- Sectors behind the first are named by links. -/
theorem Carries.le_of_mem_tail {s : DataSector} {rest : Chain}
    (hcarries : image.Carries slot (s :: rest)) {n : Nat} (hn : n ∈ rest.numbers) :
    1 ≤ n ∧ n ≤ DataSector.maxNext := by
  induction rest generalizing s with
  | nil => simp [Chain.numbers] at hn
  | cons t tail ih =>
    obtain ⟨_, hstored, _, hnext, hrest⟩ := carries_cons.1 hcarries
    rcases List.mem_cons.1 hn with rfl | hlater
    · have hbound := (DataSector.of_decode hstored).2
      rw [hnext] at hbound
      exact ⟨(carries_cons.1 hrest).1.1, hbound⟩
    · exact ih hrest hlater

/-- No disk has a longer chain: all but the first of its sectors are different numbers in a link. -/
theorem Carries.length_le (hcarries : image.Carries slot chain) :
    chain.length ≤ longestChain := by
  cases chain with
  | nil => exact Nat.zero_le _
  | cons s rest =>
    have hnodup : (Chain.numbers rest).Nodup := (List.nodup_cons.1 hcarries.nodup_numbers).2
    have hsubset : Chain.numbers rest ⊆ List.range' 1 DataSector.maxNext := by
      intro n hn
      obtain ⟨hfirst, hlast⟩ := hcarries.le_of_mem_tail hn
      exact List.mem_range'_1.2 ⟨hfirst, by omega⟩
    have hfew := (hnodup.subperm hsubset).length_le
    simp only [Chain.numbers, List.length_map, List.length_range'] at hfew
    simp only [List.length_cons, longestChain]
    omega

/-- An entry that says where a chain starts and how long it is finds the chain. -/
theorem Carries.follow_eq (hcarries : image.Carries slot chain) (hcounted : image.Counted)
    {e : Entry} (hslot : e.slot = slot) (hfirst : e.firstSector = chain.firstSector)
    (hcount : e.sectorCount = chain.length) : image.follow e = .ok chain := by
  have hsmall : chain.firstSector < 65536 := by
    cases chain with
    | nil => exact Nat.zero_lt_succ _
    | cons s rest => exact (carries_cons.1 hcarries).1.2.2
  subst hslot
  rw [hcounted.follow_eq_ok_iff (hfirst ▸ hsmall), hcount]
  exact ⟨hcarries.length_le, rfl, hfirst.symm, hcarries⟩

end Carries

/-! ### Trails -/

/-- Sector `n` is on the disk, and its link says that it belongs to file `slot`, has room for the
bytes it uses, and is followed by sector `next`. -/
def Points (image : Image) (slot n next : Nat) : Prop :=
  image.header.hasSector n = .ok true ∧ ∃ raw, image.readSector n = .ok raw ∧
    (SectorLink.ofBytes raw).owner = slot ∧ (SectorLink.ofBytes raw).used + 3 ≤ raw.length ∧
    (SectorLink.ofBytes raw).next = next

/-- The path has as many sectors as the entry says, starts where the entry says, and each of its
sectors points at the one behind it, the last at none. -/
structure Trail (image : Image) (e : Entry) (path : List Nat) : Prop where
  length : path.length = e.sectorCount
  first : path.headD 0 = e.firstSector
  points : ∀ i n, path[i]? = some n → image.Points e.slot n (path.getD (i + 1) 0)

section Trail

variable {image : Image} (hroomy : image.Roomy)

include hroomy

theorem Roomy.points_iff {slot n next : Nat} (hn : n < 65536) :
    image.Points slot n next ↔
      image.Linkable n ∧ ∃ s, DataSector.decode n (image.sector n) = .ok s ∧ s.owner = slot ∧
        s.next = next := by
  have hhas : image.header.hasSector n = .ok true ↔ image.Linkable n := by
    rw [hroomy.regular.hasSector_eq hroomy.countable, Except.ok.injEq, decide_eq_true_iff]
    constructor
    · exact fun hinside => ⟨hinside.1, hinside.2, hn⟩
    · exact fun hlinkable => ⟨hlinkable.1, hlinkable.2.1⟩
  unfold Points
  rw [hhas]
  apply and_congr_right
  intro hlinkable
  have hlength := hroomy.length_place_cases n
  rw [← hroomy.toSound.length_sector hlinkable.1 hlinkable.2.1] at hlength
  have hlong : DataSector.linkSize < (image.sector n).length := by
    simp only [DataSector.linkSize]
    omega
  rw [hroomy.readSector_eq hlinkable]
  constructor
  · rintro ⟨raw, hraw, howner, hused, hnext⟩
    rw [Except.ok.injEq] at hraw
    subst hraw
    exact ⟨_, (DataSector.decode_eq_ok_iff hlong).2 ⟨hused, rfl⟩, howner, hnext⟩
  · rintro ⟨s, hs, howner, hnext⟩
    obtain ⟨hused, rfl⟩ := (DataSector.decode_eq_ok_iff hlong).1 hs
    exact ⟨_, rfl, howner, hused, hnext⟩

/-- The paths along which every sector points at the next one are those of the chains on the
disk. -/
theorem Roomy.carries_iff_points {slot : Nat} {path : List Nat} (hfirst : path.headD 0 < 65536) :
    (∃ chain, chain.numbers = path ∧ image.Carries slot chain) ↔
      ∀ i n, path[i]? = some n → image.Points slot n (path.getD (i + 1) 0) := by
  induction path with
  | nil =>
    constructor
    · intro _ i n hi
      simp at hi
    · intro _
      exact ⟨[], rfl, image.carries_nil slot⟩
  | cons n rest ih =>
    have hn : n < 65536 := hfirst
    constructor
    · rintro ⟨chain, hnumbers, hcarries⟩
      cases chain with
      | nil => simp [Chain.numbers] at hnumbers
      | cons s tail =>
        obtain ⟨rfl, rfl⟩ := List.cons.inj hnumbers
        obtain ⟨hlinkable, hstored, howner, hnext, htail⟩ := carries_cons.1 hcarries
        have hbound := (DataSector.of_decode hstored).2
        simp only [DataSector.maxNext] at hbound
        have hlater := (ih (by rw [hnext] at hbound; exact Nat.lt_of_le_of_lt hbound (by decide))).1
          ⟨tail, rfl, htail⟩
        intro i m hi
        cases i with
        | zero =>
          rw [List.getElem?_cons_zero, Option.some.injEq] at hi
          subst hi
          apply (hroomy.points_iff hn).2
          refine ⟨hlinkable, s, hstored, howner, hnext.trans ?_⟩
          cases tail <;> rfl
        | succ i => exact hlater i m hi
    · intro hpoints
      obtain ⟨hlinkable, s, hstored, howner, hnext⟩ := (hroomy.points_iff hn).1 (hpoints 0 n rfl)
      obtain ⟨hnumber, hbound⟩ := DataSector.of_decode hstored
      simp only [DataSector.maxNext] at hbound
      have hhead : rest.headD 0 = s.next := by
        rw [hnext]
        cases rest <;> rfl
      obtain ⟨tail, hnumbers, htail⟩ :=
        (ih (by omega)).2 fun i m hi => hpoints (i + 1) m hi
      refine ⟨s :: tail, ?_, carries_cons.2 ⟨?_, ?_, howner, ?_, htail⟩⟩
      · change s.number :: tail.numbers = n :: rest
        rw [hnumber, hnumbers]
      · rw [hnumber]
        exact hlinkable
      · rw [hnumber]
        exact hstored
      · rw [Chain.firstSector, hnumbers, hhead]

/-- Following a chain finds exactly the trail of the entry. -/
theorem Roomy.follow_iff_trail {e : Entry} (hfirst : e.firstSector < 65536) {path : List Nat} :
    (∃ chain, image.follow e = .ok chain ∧ chain.numbers = path) ↔ image.Trail e path := by
  constructor
  · rintro ⟨chain, hfollow, rfl⟩
    obtain ⟨_, hlength, hstart, hcarries⟩ := (hroomy.follow_eq_ok_iff hfirst).1 hfollow
    refine ⟨by rw [Chain.numbers, List.length_map, hlength], hstart, ?_⟩
    apply (hroomy.carries_iff_points (by rw [← hstart] at hfirst; exact hfirst)).1
    exact ⟨chain, rfl, hcarries⟩
  · rintro ⟨hlength, hstart, hpoints⟩
    obtain ⟨chain, rfl, hcarries⟩ :=
      (hroomy.carries_iff_points (by rw [hstart]; exact hfirst)).2 hpoints
    rw [Chain.numbers, List.length_map] at hlength
    refine ⟨chain, (hroomy.follow_eq_ok_iff hfirst).2 ?_, rfl⟩
    exact ⟨hlength ▸ hcarries.length_le, hlength, hstart, hcarries⟩

end Trail

end Image

namespace Volume

open Image

section Files

variable {v u : Volume} (hloaded : v.Loaded) {e f : Entry} {a b : Chain}

include hloaded

theorem Loaded.carries_of_follow (he : e ∈ v.directory.entries)
    (hfollow : v.image.follow e = .ok a) : v.image.Carries e.slot a :=
  ((hloaded.roomy.follow_eq_ok_iff (hloaded.storable he).first).1 hfollow).2.2.2

theorem Loaded.disjoint_of_follow (he : e ∈ v.directory.entries) (hf : f ∈ v.directory.entries)
    (hne : e.slot ≠ f.slot) (ha : v.image.follow e = .ok a) (hb : v.image.follow f = .ok b) :
    a.numbers.Disjoint b.numbers :=
  (hloaded.carries_of_follow he ha).disjoint (hloaded.carries_of_follow hf hb) hne

theorem Loaded.isFree_of_delete_other {typed : String} (hok : v.deleteFile typed = .ok () u)
    (hfind : v.directory.find typed = .ok e) (hf : f ∈ v.directory.entries)
    (hne : f.slot ≠ e.slot) (hb : v.image.follow f = .ok b) {n : Nat} (hn : n ∈ b.numbers) :
    u.map.isFree n = v.map.isFree n := by
  obtain ⟨_, chain, hfollow⟩ := follow_of_delete hok hfind
  have he := (List.mem_filter.1 (Directory.mem_files_of_find hfind)).1
  rw [hloaded.isFree_of_delete hok hfind hfollow, if_neg]
  rintro ⟨hmem, _⟩
  exact hloaded.disjoint_of_follow hf he hne hb hfollow hn hmem

end Files

/-- **Walks are trails.** On a mounted disk the chain of an entry is found exactly if it is a trail
of links of the length that the entry gives. It then has no sector twice, chains of different slots
have no sector in common, and deleting one file gives no sector of another one free. -/
theorem walks_are_trails {image : Image} (hsound : image.Sound) (hidle : image.phase = .idle)
    {v : Volume} (hmount : mount image = .ok v) :
    (∀ e ∈ v.directory.entries, ∀ path,
      (∃ chain, v.image.follow e = .ok chain ∧ chain.numbers = path) ↔ v.image.Trail e path) ∧
    (∀ e ∈ v.directory.entries, ∀ chain, v.image.follow e = .ok chain → chain.numbers.Nodup) ∧
    (∀ e ∈ v.directory.entries, ∀ f ∈ v.directory.entries, e.slot ≠ f.slot →
      ∀ a b, v.image.follow e = .ok a → v.image.follow f = .ok b →
        a.numbers.Disjoint b.numbers) ∧
    (∀ typed u e, v.deleteFile typed = .ok () u → v.directory.find typed = .ok e →
      ∀ f ∈ v.directory.entries, f.slot ≠ e.slot → ∀ chain, v.image.follow f = .ok chain →
        ∀ n ∈ chain.numbers, u.map.isFree n = v.map.isFree n) := by
  have hloaded := loaded_of_mount hsound hidle hmount
  refine ⟨?_, ?_, ?_, ?_⟩
  · intro e he path
    exact hloaded.roomy.follow_iff_trail (hloaded.storable he).first
  · intro e he chain hfollow
    exact (hloaded.carries_of_follow he hfollow).nodup_numbers
  · intro e he f hf hne a b ha hb
    exact hloaded.disjoint_of_follow he hf hne ha hb
  · intro typed u e hok hfind f hf hne chain hfollow n hn
    exact hloaded.isFree_of_delete_other hok hfind hf hne hfollow hn

/-! ### A disk with two files -/

def pairFiles : List Entry :=
  [⟨0, .ofKind .normal, 2, 4, ⟨"A", ""⟩, 0⟩, ⟨1, .ofKind .normal, 1, 6, ⟨"B", ""⟩, 0⟩]

def pairChain : Nat → Chain
  | 0 => [⟨4, 0, 5, [0x41]⟩, ⟨5, 0, 0, [0x42]⟩]
  | _ => [⟨6, 1, 0, [0x43]⟩]

def pairParts : List (Nat × Bytes) :=
  (pairChain 0 ++ pairChain 1).map (fun s => (s.number, s.bytes 128)) ++
    [(SectorMap.home, [SectorMap.dos2]), (Directory.home, pairFiles.flatMap Entry.encode)]

def pairDisk : Image :=
  sketched pairParts

theorem roomy_pairDisk : pairDisk.Roomy :=
  roomy_sketched (by decide +kernel)

theorem entryAt_pairDisk (slot : Nat) : pairDisk.entryAt slot = pairFiles[slot]? := by
  by_cases hslot : slot < Directory.capacity
  · have hrecords : ∀ slot < 64, Entry.parse slot (sketchRecord pairParts slot) =
        pairFiles[slot]? := by decide +kernel
    rw [entryAt_of_lt _ hslot, pairDisk, record_sketched _ hslot]
    exact hrecords slot hslot
  · rw [entryAt, if_neg hslot, List.getElem?_eq_none]
    simp only [Directory.capacity] at hslot
    simp only [pairFiles, List.length_cons, List.length_nil]
    omega

theorem carries_pairDisk {slot : Nat} (hslot : slot < 2) :
    pairDisk.Carries slot (pairChain slot) := by
  have hinside : ∀ s ∈ pairChain slot, 1 ≤ s.number ∧ s.number ≤ 368 := by
    revert slot
    decide
  refine ⟨?_, ?_, ?_⟩
  · rcases (show slot = 0 ∨ slot = 1 by omega) with rfl | rfl
    · exact ⟨rfl, rfl, rfl, rfl, trivial⟩
    · exact ⟨rfl, rfl, trivial⟩
  · intro s hs
    exact roomy_pairDisk.linkable_of_le (hinside s hs).1 (hinside s hs).2
  · intro s hs
    have hread : ∀ slot < 2, ∀ s ∈ pairChain slot,
        DataSector.decode s.number (sketch pairParts s.number) = .ok s := by decide +kernel
    have hlast := (hinside s hs).2
    rw [pairDisk, sector_sketched _ (hinside s hs).1 (by omega)]
    exact hread slot hslot s hs

theorem follow_pairDisk {slot : Nat} {e : Entry} (he : pairFiles[slot]? = some e) :
    pairDisk.follow e = .ok (pairChain slot) := by
  have hslot : slot < 2 := (List.getElem?_eq_some_iff.1 he).1
  have hentry : ∀ slot < 2, ∀ e, pairFiles[slot]? = some e → e.slot = slot ∧
      e.firstSector = (pairChain slot).firstSector ∧ e.sectorCount = (pairChain slot).length := by
    intro slot hslot e he
    rcases (show slot = 0 ∨ slot = 1 by omega) with rfl | rfl
    · cases he
      decide
    · cases he
      decide
  obtain ⟨hsame, hfirst, hcount⟩ := hentry slot hslot e he
  exact (carries_pairDisk hslot).follow_eq roomy_pairDisk.toCounted hsame hfirst hcount

section PairDisk

variable {v : Volume} (hloaded : v.Loaded) (himage : v.image = pairDisk)

include hloaded himage

theorem Loaded.get?_pairDisk (slot : Nat) :
    v.directory.get? slot = pairFiles[slot]?.map pairDisk.measured := by
  rw [hloaded.reads.get?_directory, himage, entryAt_pairDisk]

theorem Loaded.file_pairDisk {slot : Nat} (hslot : slot < pairFiles.length) :
    pairDisk.measured pairFiles[slot] ∈ v.directory.files ∧
      v.image.follow (pairDisk.measured pairFiles[slot]) = .ok (pairChain slot) := by
  have hplain : ∀ slot (hslot : slot < pairFiles.length),
      pairFiles[slot].slot = slot ∧ pairFiles[slot].isInUse = true := by decide
  obtain ⟨hsame, huse⟩ := hplain slot hslot
  refine ⟨Directory.mem_files.2 ⟨?_, huse⟩, ?_⟩
  · change v.directory.get? pairFiles[slot].slot = _
    rw [hloaded.get?_pairDisk himage, hsame, List.getElem?_eq_getElem hslot]
    rfl
  · rw [himage, measured, follow_length]
    exact follow_pairDisk (List.getElem?_eq_getElem hslot)

theorem Loaded.find_pairDisk : v.directory.find "A" = .ok (pairDisk.measured pairFiles[0]) := by
  have hfile := (hloaded.file_pairDisk himage (show 0 < pairFiles.length by decide)).1
  refine Directory.find_of_unique (by decide +kernel) hfile fun f hf hname => ?_
  have hslot := (Directory.mem_files.1 hf).1
  rw [hloaded.get?_pairDisk himage, Option.map_eq_some_iff] at hslot
  obtain ⟨stored, hstored, rfl⟩ := hslot
  have hnamed : ∀ g ∈ pairFiles, g.name = ⟨"A", ""⟩ → g = pairFiles[0] := by decide
  rw [hnamed stored (List.mem_of_getElem? hstored) hname]

end PairDisk

/-- On this disk the chain of each file is found, and deleting one leaves the other alone. -/
theorem walks_are_trails_pairDisk :
    ∃ v a b u, pairDisk.Made ∧ mount pairDisk = .ok v ∧ a ∈ v.directory.files ∧
      b ∈ v.directory.files ∧ v.image.Trail a [4, 5] ∧ v.image.Trail b [6] ∧
      v.deleteFile "A" = .ok () u ∧ u.map.isFree 6 = v.map.isFree 6 := by
  have hmade : pairDisk.Made := .inl ⟨_, ofBuffer_sketched (by decide +kernel)⟩
  obtain ⟨v, hmount, hloaded, himage⟩ : ∃ v, mount pairDisk = .ok v ∧ v.Loaded ∧
      v.image = pairDisk := mount_sketched (by decide +kernel) (by decide +kernel)
  obtain ⟨ha, hfollowA⟩ := hloaded.file_pairDisk himage (show 0 < pairFiles.length by decide)
  obtain ⟨hb, hfollowB⟩ := hloaded.file_pairDisk himage (show 1 < pairFiles.length by decide)
  have hfind := hloaded.find_pairDisk himage
  obtain ⟨u, hdelete, _⟩ := hloaded.deleteFile_of_follow hfind (by decide) hfollowA
  obtain ⟨htrails, _, _, hkept⟩ := walks_are_trails hmade.sound.1 hmade.sound.2 hmount
  have haEntry := (List.mem_filter.1 ha).1
  have hbEntry := (List.mem_filter.1 hb).1
  refine ⟨v, _, _, u, hmade, hmount, ha, hb, ?_, ?_, hdelete, ?_⟩
  · exact (htrails _ haEntry _).1 ⟨_, hfollowA, rfl⟩
  · exact (htrails _ hbEntry _).1 ⟨_, hfollowB, rfl⟩
  · exact hkept "A" u _ hdelete hfind _ hbEntry (by decide) _ hfollowB 6 (by decide)

end Volume

end AtariDisk
