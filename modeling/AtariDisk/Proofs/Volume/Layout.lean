import AtariDisk.Proofs.Volume.FileStore
import AtariDisk.Proofs.Volume.Operations

/-!
# Where the files of a volume lie

A layout says for each slot which file it holds and on which sectors the file lies. On a volume that
was formatted and then used there is always one (`Volume.Lays`): the files have sectors of their
own, and the sectors of no file are free. Writing fills a slot of the layout and deleting empties
one.
-/

namespace AtariDisk

/-- A file and the sectors on which it lies. -/
structure Placed where
  file : StoredFile
  order : List Nat

namespace Placed

/-- The entry in the record of the file. -/
def entry (p : Placed) (slot : Nat) : Entry :=
  { slot, flags := .ofKind p.file.kind, sectorCount := p.order.length
    firstSector := p.order.headD 0, name := p.file.name, length := 0 }

/-- The entry after the chain was followed. -/
def listed (p : Placed) (slot : Nat) : Entry :=
  { p.entry slot with length := p.file.contents.length }

def chain (p : Placed) (capacity slot : Nat) : Chain :=
  (Chain.split capacity p.file.contents).assign slot p.order

theorem isInUse_listed (p : Placed) (slot : Nat) : (p.listed slot).isInUse = true :=
  EntryFlags.isInUse_ofKind p.file.kind

/-- There are as many sectors as the file needs. -/
def Sized (p : Placed) (capacity : Nat) : Prop :=
  p.order.length = Chain.sectorsNeeded capacity p.file.contents.length

section Sized

variable {p : Placed} {capacity : Nat} (hsized : p.Sized capacity)

include hsized

theorem Sized.length_order :
    p.order.length = (Chain.split capacity p.file.contents).length := by
  rw [Chain.length_split]
  exact hsized

theorem Sized.numbers_chain (slot : Nat) : (p.chain capacity slot).numbers = p.order :=
  Chain.numbers_assign hsized.length_order

theorem Sized.contents_chain (slot : Nat) : (p.chain capacity slot).contents = p.file.contents := by
  rw [chain, Chain.contents_assign hsized.length_order, Chain.contents_split]

theorem Sized.length_chain (slot : Nat) : (p.chain capacity slot).length = p.order.length := by
  rw [← hsized.numbers_chain slot, Chain.numbers, List.length_map]

end Sized

end Placed

/-- The files in the slots of a directory. -/
abbrev Layout := Fin Directory.capacity → Option Placed

namespace Layout

variable {layout : Layout}

/-- The sectors of the file in a slot. -/
def order (layout : Layout) (slot : Fin Directory.capacity) : List Nat :=
  (layout slot).elim [] Placed.order

/-- The sectors of all files. -/
def taken (layout : Layout) : List Nat :=
  (List.finRange Directory.capacity).flatMap layout.order

theorem order_of_some {slot : Fin Directory.capacity} {p : Placed} (hp : layout slot = some p) :
    layout.order slot = p.order := by
  rw [order, hp]
  rfl

theorem mem_taken {s : Nat} : s ∈ layout.taken ↔ ∃ slot, s ∈ layout.order slot := by
  simp [taken]

theorem mem_taken_of_some {slot : Fin Directory.capacity} {p : Placed} (hp : layout slot = some p)
    {s : Nat} (hs : s ∈ p.order) : s ∈ layout.taken :=
  mem_taken.2 ⟨slot, by rwa [order_of_some hp]⟩

theorem order_update (layout : Layout) (slot : Fin Directory.capacity) (p : Option Placed) :
    order (Function.update layout slot p) =
      Function.update layout.order slot (p.elim [] Placed.order) := by
  funext candidate
  by_cases heq : candidate = slot <;> simp [order, heq]

/-- Files do not share sectors. -/
structure Apart (layout : Layout) : Prop where
  nodup : ∀ slot, (layout.order slot).Nodup
  disjoint : ∀ i j, i ≠ j → (layout.order i).Disjoint (layout.order j)

theorem Apart.nodup_taken (hapart : layout.Apart) : layout.taken.Nodup := by
  unfold taken
  rw [List.nodup_flatMap]
  refine ⟨fun slot _ => hapart.nodup slot, ?_⟩
  exact (List.nodup_finRange _).imp fun hne => hapart.disjoint _ _ hne

theorem Apart.update_none (hapart : layout.Apart) (slot : Fin Directory.capacity) :
    Apart (Function.update layout slot none) := by
  constructor
  · intro i
    rw [order_update]
    by_cases hi : i = slot
    · simp [hi]
    · simpa [hi] using hapart.nodup i
  · intro i j hij
    rw [order_update]
    by_cases hi : i = slot
    · simp [hi]
    · by_cases hj : j = slot
      · simp [hj]
      · simpa [hi, hj] using hapart.disjoint i j hij

theorem Apart.update_some (hapart : layout.Apart) (slot : Fin Directory.capacity) {p : Placed}
    (hnodup : p.order.Nodup) (hfresh : ∀ s ∈ p.order, s ∉ layout.taken) :
    Apart (Function.update layout slot (some p)) := by
  have hother : ∀ i, p.order.Disjoint (layout.order i) := fun i s hs hi =>
    hfresh s hs (mem_taken.2 ⟨i, hi⟩)
  constructor
  · intro i
    rw [order_update]
    by_cases hi : i = slot
    · simpa [hi] using hnodup
    · simpa [hi] using hapart.nodup i
  · intro i j hij
    rw [order_update]
    by_cases hi : i = slot
    · subst hi
      simpa [Ne.symm hij] using hother j
    · by_cases hj : j = slot
      · subst hj
        simpa [hij] using (hother i).symm
      · simpa [hi, hj] using hapart.disjoint i j hij

theorem length_taken (layout : Layout) :
    layout.taken.length = ∑ slot, (layout.order slot).length := by
  rw [taken, List.length_flatMap, Fin.sum_univ_def]

/-- A file that goes into an empty slot adds its sectors to those that are taken. -/
theorem mem_taken_update_some {slot : Fin Directory.capacity} (hempty : layout slot = none)
    {p : Placed} {s : Nat} :
    s ∈ taken (Function.update layout slot (some p)) ↔ s ∈ p.order ∨ s ∈ layout.taken := by
  rw [mem_taken, mem_taken, order_update]
  constructor
  · rintro ⟨i, hi⟩
    by_cases heq : i = slot
    · subst heq
      exact .inl (by simpa using hi)
    · exact .inr ⟨i, by simpa [heq] using hi⟩
  · rintro (hs | ⟨i, hi⟩)
    · exact ⟨slot, by simpa using hs⟩
    · have hne : i ≠ slot := by
        rintro rfl
        simp [order, hempty] at hi
      exact ⟨i, by simpa [hne] using hi⟩

/-- An emptied slot gives back the sectors of its file and no others. -/
theorem Apart.mem_taken_update_none (hapart : layout.Apart) {slot : Fin Directory.capacity}
    {s : Nat} :
    s ∈ taken (Function.update layout slot none) ↔ s ∈ layout.taken ∧ s ∉ layout.order slot := by
  rw [mem_taken, mem_taken, order_update]
  constructor
  · rintro ⟨i, hi⟩
    by_cases heq : i = slot
    · simp [heq] at hi
    · have hs : s ∈ layout.order i := by simpa [heq] using hi
      exact ⟨⟨i, hs⟩, fun hslot => hapart.disjoint i slot heq hs hslot⟩
  · rintro ⟨⟨i, hi⟩, hnot⟩
    have hne : i ≠ slot := by
      rintro rfl
      exact hnot hi
    exact ⟨i, by simpa [hne] using hi⟩

/-- No two files have the same name. -/
def Distinct (layout : Layout) : Prop :=
  ∀ i j p q, layout i = some p → layout j = some q → p.file.name = q.file.name → i = j

theorem Distinct.update_none (hdistinct : layout.Distinct) (slot : Fin Directory.capacity) :
    Distinct (Function.update layout slot none) := by
  intro i j p q hp hq hname
  by_cases hi : i = slot
  · simp [hi] at hp
  · by_cases hj : j = slot
    · simp [hj] at hq
    · rw [Function.update_of_ne hi] at hp
      rw [Function.update_of_ne hj] at hq
      exact hdistinct i j p q hp hq hname

theorem Distinct.update_some (hdistinct : layout.Distinct) (slot : Fin Directory.capacity)
    {new : Placed} (hnew : ∀ j q, layout j = some q → q.file.name ≠ new.file.name) :
    Distinct (Function.update layout slot (some new)) := by
  intro i j p q hp hq hname
  by_cases hi : i = slot
  · by_cases hj : j = slot
    · exact hi.trans hj.symm
    · rw [hi, Function.update_self, Option.some.injEq] at hp
      rw [Function.update_of_ne hj] at hq
      exact absurd (hp ▸ hname.symm) (hnew j q hq)
  · rw [Function.update_of_ne hi] at hp
    by_cases hj : j = slot
    · rw [hj, Function.update_self, Option.some.injEq] at hq
      exact absurd (hq ▸ hname) (hnew i p hp)
    · rw [Function.update_of_ne hj] at hq
      exact hdistinct i j p q hp hq hname

/-- The files lie on usable sectors, and those they leave are free. -/
structure Leaves (layout : Layout) (map : SectorMap) : Prop where
  usable : ∀ s ∈ layout.taken, SectorMap.Usable map.limit s
  free : ∀ s, map.isFree s = true ↔ SectorMap.Usable map.limit s ∧ s ∉ layout.taken
  total : map.total = (SectorMap.usableSectors map.limit).length

section Leaves

variable {map again : SectorMap} (hleaves : layout.Leaves map)

include hleaves

theorem Leaves.congr (hlimit : again.limit = map.limit)
    (hfree : ∀ s, again.isFree s = map.isFree s) (htotal : again.total = map.total) :
    layout.Leaves again := by
  refine ⟨?_, ?_, ?_⟩
  · rw [hlimit]
    exact hleaves.usable
  · intro s
    rw [hlimit, hfree]
    exact hleaves.free s
  · rw [hlimit, htotal]
    exact hleaves.total

theorem Leaves.mark {slot : Fin Directory.capacity} (hempty : layout slot = none) {p : Placed}
    (hfresh : ∀ s ∈ p.order, SectorMap.Usable map.limit s ∧ s ∉ layout.taken) :
    Leaves (Function.update layout slot (some p)) (map.mark p.order false) := by
  refine ⟨?_, ?_, hleaves.total⟩
  · intro s hs
    rcases (mem_taken_update_some hempty).1 hs with hnew | hold
    · exact (hfresh s hnew).1
    · exact hleaves.usable s hold
  · intro s
    rw [SectorMap.isFree_mark, SectorMap.limit_mark, mem_taken_update_some hempty]
    by_cases hnew : s ∈ p.order
    · have hlimit := map.limit_le
      have hs := (hfresh s hnew).1.2.1
      rw [if_pos ⟨hnew, by omega⟩]
      simp [hnew]
    · rw [if_neg (fun h => hnew h.1), hleaves.free]
      simp [hnew]

theorem Leaves.release (hapart : layout.Apart) {slot : Fin Directory.capacity} {p : Placed}
    (hp : layout slot = some p) :
    Leaves (Function.update layout slot none) (map.release p.order) := by
  refine ⟨?_, ?_, hleaves.total⟩
  · intro s hs
    exact hleaves.usable s (hapart.mem_taken_update_none.1 hs).1
  · intro s
    rw [SectorMap.isFree_release, show (map.release p.order).limit = map.limit from rfl,
      hapart.mem_taken_update_none, order_of_some hp]
    by_cases hold : s ∈ p.order
    · have hlimit := map.limit_le
      have husable := hleaves.usable s (mem_taken_of_some hp hold)
      have hs := husable.2.1
      rw [if_pos ⟨hold, by omega⟩]
      simp [hold, husable]
    · rw [if_neg (fun h => hold h.1), hleaves.free]
      simp [hold]

theorem Leaves.freeCount_add (hapart : layout.Apart) :
    map.freeCount + ∑ slot, (layout.order slot).length =
      (SectorMap.usableSectors map.limit).length := by
  rw [← layout.length_taken]
  exact SectorMap.freeCount_add_length hapart.nodup_taken hleaves.usable hleaves.free

end Leaves

end Layout

/-- The file of a plan, on the sectors it is given. -/
def Volume.Plan.placed (p : Volume.Plan) (kind : FileKind) (contents : Bytes) : Placed :=
  ⟨⟨p.entry.name, kind, contents⟩, p.chain.numbers⟩

namespace Volume

open Image

/-- The file lies in its slot and on its sectors. -/
structure Holds (v : Volume) (slot : Nat) (p : Placed) : Prop where
  entry : v.image.entryAt slot = some (p.entry slot)
  name : p.file.name.Valid
  sized : p.Sized v.payload
  short : p.order.length ≤ longestChain
  carries : v.image.Carries slot (p.chain v.payload slot)

/-- The volume holds the files of the layout, and what they leave is free. -/
structure Lays (v : Volume) (layout : Layout) : Prop where
  loaded : v.Loaded
  holds : ∀ slot p, layout slot = some p → v.Holds slot p
  vacant : ∀ slot e, layout slot = none → v.image.entryAt slot = some e → e.isInUse = false
  distinct : layout.Distinct
  apart : layout.Apart
  leaves : layout.Leaves v.map
  recorded : v.map.recorded = v.map.bitCount

section Holds

variable {v : Volume} {slot : Nat} {p : Placed}

theorem Holds.follow (hholds : v.Holds slot p) (hloaded : v.Loaded) :
    v.image.follow (p.entry slot) = .ok (p.chain v.payload slot) := by
  have hfirst := (storable_of_entryAt hholds.entry).1.first
  rw [hloaded.roomy.follow_eq_ok_iff hfirst]
  refine ⟨hholds.short, hholds.sized.length_chain slot, ?_, hholds.carries⟩
  rw [Chain.firstSector, hholds.sized.numbers_chain]
  rfl

theorem Holds.finding (hholds : v.Holds slot p) (hloaded : v.Loaded) :
    v.image.finding (p.entry slot) = .ok p.file.contents.length := by
  rw [finding_of_follow (hholds.follow hloaded), Chain.fileLength_eq, hholds.sized.contents_chain]

theorem Holds.get?_directory (hholds : v.Holds slot p) (hloaded : v.Loaded) :
    v.directory.get? slot = some (p.listed slot) := by
  have hmeasured : v.image.measured (p.entry slot) = p.listed slot := by
    unfold measured
    rw [if_pos (show (p.entry slot).isInUse = true from p.isInUse_listed slot),
      hholds.finding hloaded]
    rfl
  rw [hloaded.reads.get?_directory, hholds.entry, Option.map_some, hmeasured]

/-- The entry comes back from its record without the length of the file. -/
theorem Holds.parse_encode (hholds : v.Holds slot p) :
    Entry.parse slot (p.listed slot).encode = some (p.entry slot) := by
  obtain ⟨hused, hcount, hfirst⟩ := (storable_of_entryAt hholds.entry).1
  exact Entry.parse_encode_of_valid (e := p.listed slot) ⟨hused, hcount, hfirst⟩ hholds.name

/-- A file stays where it is as long as its entry and its sectors do. -/
theorem Holds.of_image {u : Volume} (hholds : v.Holds slot p)
    (hheader : u.image.header = v.image.header)
    (hentry : u.image.entryAt slot = some (p.entry slot))
    (hsectors : ∀ n ∈ p.order, u.image.sector n = v.image.sector n) : u.Holds slot p := by
  have hpayload := payload_congr hheader
  refine ⟨hentry, hholds.name, hpayload ▸ hholds.sized, hholds.short, ?_⟩
  rw [hpayload]
  refine hholds.carries.of_sectors hheader ?_
  rw [hholds.sized.numbers_chain]
  exact hsectors

end Holds

/-! ### The file of a plan -/

section Planned

variable {v : Volume} (hloaded : v.Loaded) {typed : String} {kind : FileKind} {contents : Bytes}
  {p : Plan} (hplan : v.plan typed kind contents = .ok p)
  (hclear : ∀ n ∈ p.chain.numbers, SectorMap.isReserved n = false)

include hloaded hplan hclear

theorem Loaded.fits_plan {s : DataSector} (hs : s ∈ p.chain) :
    s.Fits v.image.header.sectorSize := by
  have hmem : s.number ∈ p.chain.numbers := List.mem_map_of_mem hs
  have hfirst := (hloaded.mem_numbers_plan hplan hmem).1
  have hnot := hclear s.number hmem
  rw [Bool.eq_false_iff, ne_eq, SectorMap.isReserved_eq_true_iff] at hnot
  have hlength := hloaded.roomy.length_place (show 3 < s.number by omega)
  rw [← hlength]
  refine fits_of_mem_plan hplan hs ?_
  rw [hlength]
  exact hloaded.payload_of_mem_plan hplan hs

theorem Loaded.decode_plan {s : DataSector} (hs : s ∈ p.chain) :
    DataSector.decode s.number (s.bytes v.image.header.sectorSize) = .ok s := by
  have hsize := hloaded.sectorSize_cases
  have hshort := hloaded.payload_of_mem_plan hplan hs
  simp only [DataSector.linkSize] at hshort
  refine DataSector.decode_bytes (hloaded.fits_plan hplan hclear hs) (by omega) ?_
  simp only [DataSector.linkSize]
  omega

/-- The file of a plan lies on the disk once its entry and its sectors are written. -/
theorem Loaded.holds_plan {u : Volume} (hheader : u.image.header = v.image.header)
    (hentry : u.image.entryAt p.entry.slot = Entry.parse p.entry.slot p.entry.encode)
    (hsectors : ∀ s ∈ p.chain, u.image.sector s.number = s.bytes v.image.header.sectorSize) :
    u.Holds p.entry.slot (p.placed kind contents) := by
  have hpayload := payload_congr hheader
  have hlinkable : ∀ s ∈ p.chain, u.image.Linkable s.number := fun s hs =>
    (hloaded.mem_numbers_plan hplan (List.mem_map_of_mem hs)).2.2.2.of_header hheader
  have hstored : ∀ s ∈ p.chain,
      DataSector.decode s.number (u.image.sector s.number) = .ok s := by
    intro s hs
    rw [hsectors s hs, hloaded.decode_plan hplan hclear hs]
  have hstorable := hloaded.storable_plan hplan
  have hshort := length_chain_plan_lt hplan
  obtain ⟨_, hnumbers, hlength, _⟩ := chain_of_plan hplan
  obtain ⟨name, slot, hname, _, _, _, rfl⟩ := planFile_eq_ok_iff.1 hplan
  obtain ⟨chain, hchain⟩ : ∃ chain, chain = newChain v.map v.payload slot contents := ⟨_, rfl⟩
  simp only [newPlan, ← hchain] at hnumbers hlength hshort hstorable hlinkable hstored hentry
  suffices hholds : u.Holds slot ⟨⟨name, kind, contents⟩, chain.numbers⟩ by
    rw [hchain] at hholds
    exact hholds
  have hcount : chain.numbers.length = chain.length := List.length_map ..
  refine ⟨?_, (FileName.parse_eq_ok_iff.1 hname).2, ?_, ?_, ?_⟩
  · rw [Placed.entry, hcount]
    exact hentry.trans (Entry.parse_encode_of_valid hstorable (FileName.parse_eq_ok_iff.1 hname).2)
  · rw [Placed.Sized, hpayload, hcount, hlength]
  · simp only [longestChain, DataSector.maxNext]
    omega
  · have hplaced : (Chain.split v.payload contents).assign slot chain.numbers = chain := by
      rw [hnumbers, hchain]
      rfl
    change u.image.Carries slot ((Chain.split u.payload contents).assign slot chain.numbers)
    rw [hpayload]
    refine ⟨Chain.linked_assign ?_, ?_, ?_⟩
    · rw [hcount, hlength, Chain.length_split]
    · rw [hplaced]
      exact hlinkable
    · rw [hplaced]
      exact hstored

end Planned

section Lays

variable {v : Volume} {layout : Layout} (hlays : v.Lays layout)

include hlays

theorem Lays.get?_of_some {slot : Fin Directory.capacity} {p : Placed}
    (hp : layout slot = some p) : v.directory.get? slot = some (p.listed slot) :=
  (hlays.holds slot p hp).get?_directory hlays.loaded

theorem Lays.isInUse_of_none {slot : Fin Directory.capacity} (hempty : layout slot = none)
    {e : Entry} (hget : v.directory.get? slot = some e) : e.isInUse = false := by
  rw [hlays.loaded.reads.get?_directory, Option.map_eq_some_iff] at hget
  obtain ⟨stored, hstored, rfl⟩ := hget
  exact hlays.vacant slot stored hempty hstored

theorem Lays.isTaken_eq (slot : Fin Directory.capacity) :
    v.directory.isTaken slot = (layout slot).isSome := by
  cases hp : layout slot with
  | some p =>
    exact Directory.isTaken_eq_true_iff.2 ⟨_, hlays.get?_of_some hp, p.isInUse_listed slot⟩
  | none =>
    refine Bool.eq_false_iff.2 fun htaken => ?_
    obtain ⟨e, hget, huse⟩ := Directory.isTaken_eq_true_iff.1 htaken
    rw [hlays.isInUse_of_none hp hget] at huse
    exact Bool.false_ne_true huse

/-- The files that exist are those of the layout. -/
theorem Lays.mem_files {e : Entry} :
    e ∈ v.directory.files ↔ ∃ slot p, layout slot = some p ∧ e = p.listed slot := by
  rw [Directory.mem_files]
  constructor
  · rintro ⟨hget, huse⟩
    have hslot := hlays.loaded.slot_lt (Directory.get?_eq_some_iff.1 hget).1
    obtain ⟨slot, hval⟩ : ∃ slot : Fin Directory.capacity, slot.val = e.slot :=
      ⟨⟨e.slot, hslot⟩, rfl⟩
    rw [← hval] at hget
    cases hp : layout slot with
    | some p =>
      rw [hlays.get?_of_some hp, Option.some.injEq] at hget
      exact ⟨slot, p, hp, hget.symm⟩
    | none =>
      rw [hlays.isInUse_of_none hp hget] at huse
      exact absurd huse Bool.false_ne_true
  · rintro ⟨slot, p, hp, rfl⟩
    exact ⟨hlays.get?_of_some hp, p.isInUse_listed slot⟩

theorem Lays.follow_listed {slot : Fin Directory.capacity} {p : Placed}
    (hp : layout slot = some p) :
    v.image.follow (p.listed slot) = .ok (p.chain v.payload slot) := by
  rw [Placed.listed, follow_length]
  exact (hlays.holds slot p hp).follow hlays.loaded

section Others

variable {u : Volume} {d : Directory} {slot : Fin Directory.capacity}
  (hentries : ∀ slot, u.image.entryAt slot = (d.get? slot).bind fun e => Entry.parse slot e.encode)
  (hsame : d.get? slot = v.directory.get? slot)

include hentries hsame

/-- A file whose entry and sectors are left alone. -/
theorem Lays.holds_other (hheader : u.image.header = v.image.header) {p : Placed}
    (hp : layout slot = some p) (hsectors : ∀ n ∈ p.order, u.image.sector n = v.image.sector n) :
    u.Holds slot p := by
  have hholds := hlays.holds slot p hp
  refine hholds.of_image hheader ?_ hsectors
  rw [hentries, hsame, hlays.get?_of_some hp, Option.bind_some, hholds.parse_encode]

/-- A slot without file whose entry is left alone. -/
theorem Lays.vacant_other (hempty : layout slot = none) {e : Entry}
    (hentry : u.image.entryAt slot = some e) : e.isInUse = false := by
  rw [hentries, hsame, Option.bind_eq_some_iff] at hentry
  obtain ⟨old, hget, hparse⟩ := hentry
  have hslot := Directory.slot_of_get? hget
  rw [← hslot, Entry.parse_encode (hlays.loaded.storable (Directory.get?_eq_some_iff.1 hget).1),
    Option.some.injEq] at hparse
  have hflags : e.flags = old.flags := by rw [← hparse]
  rw [Entry.isInUse, hflags]
  exact hlays.isInUse_of_none hempty hget

end Others

/-! ### Writing -/

section Writing

variable {typed : String} {kind : FileKind} {contents : Bytes} {p : Plan}
  (hplan : v.plan typed kind contents = .ok p)

include hplan

/-- A new file gets sectors that no other file has. -/
theorem Lays.mem_numbers_plan {n : Nat} (hn : n ∈ p.chain.numbers) :
    SectorMap.Usable v.map.limit n ∧ n ∉ layout.taken :=
  (hlays.leaves.free n).1 (hlays.loaded.mem_numbers_plan hplan hn).2.2.1

/-- Writing a file fills the lowest empty slot. -/
theorem Lays.writeFile :
    ∃ u slot, v.writeFile typed kind contents = .ok p.entry u ∧
      u.image.header = v.image.header ∧ slot.val = p.entry.slot ∧ layout slot = none ∧
      (∀ j < slot, layout j ≠ none) ∧
      u.Lays (Function.update layout slot (some (p.placed kind contents))) := by
  obtain ⟨name, free, hname, hnew, hfree, henough, hp⟩ := planFile_eq_ok_iff.1 hplan
  have hentrySlot : p.entry.slot = free := by
    rw [hp]
    rfl
  have hentryName : p.entry.name = name := by
    rw [hp]
    rfl
  obtain ⟨hlt, huntaken, hbefore⟩ := Directory.freeSlot_eq_ok_iff.1 hfree
  obtain ⟨slot, hslot⟩ : ∃ slot : Fin Directory.capacity, slot.val = free := ⟨⟨free, hlt⟩, rfl⟩
  have hempty : layout slot = none := by
    rw [← hslot, hlays.isTaken_eq] at huntaken
    simpa using huntaken
  have hclear : ∀ n ∈ p.chain.numbers, SectorMap.isReserved n = false := fun n hn =>
    (hlays.mem_numbers_plan hplan hn).1.2.2
  obtain ⟨u, hok, hrewritten, hentries, hsectors, hothers⟩ :=
    hlays.loaded.writeFile_of_plan hplan hclear
  refine ⟨u, slot, hok, hrewritten.header, hslot.trans hentrySlot.symm, hempty, ?_, ?_⟩
  · intro j hj
    have htaken := hbefore j (by omega)
    rw [hlays.isTaken_eq] at htaken
    exact Option.isSome_iff_ne_none.1 htaken
  have hmap : p.map = v.map.mark p.chain.numbers false := by
    rw [hp]
    rfl
  obtain ⟨hisFree, htotal, _, hrecorded⟩ := hrewritten.loaded.map_of_packed hrewritten.packed
  rw [hmap] at hisFree htotal
  have hother : ∀ j, j ≠ slot → p.directory.get? j = v.directory.get? j := by
    intro j hj
    rw [get?_plan hplan, if_neg]
    omega
  refine ⟨hrewritten.loaded, ?_, ?_, ?_, ?_, ?_, hrecorded⟩
  · intro j q hq
    by_cases hj : j = slot
    · rw [hj, Function.update_self, Option.some.injEq] at hq
      have hentry : u.image.entryAt p.entry.slot = Entry.parse p.entry.slot p.entry.encode := by
        rw [hentries, get?_plan hplan, if_pos rfl, Option.bind_some]
      have hholds := hlays.loaded.holds_plan hplan hclear hrewritten.header hentry hsectors
      rw [hentrySlot, ← hslot] at hholds
      rw [hj, ← hq]
      exact hholds
    · rw [Function.update_of_ne hj] at hq
      refine hlays.holds_other hentries (hother j hj) hrewritten.header hq fun n hn => ?_
      have htaken := Layout.mem_taken_of_some hq hn
      have husable := SectorMap.usable_iff.1 (hlays.leaves.usable n htaken)
      refine hothers n (by omega) ?_ fun hnew => (hlays.mem_numbers_plan hplan hnew).2 htaken
      rw [isSystem_eq_false_iff]
      omega
  · intro j e hj hentry
    have hne : j ≠ slot := by
      rintro rfl
      simp at hj
    rw [Function.update_of_ne hne] at hj
    exact hlays.vacant_other hentries (hother j hne) hj hentry
  · refine hlays.distinct.update_some slot fun j q hq => ?_
    change q.file.name ≠ p.entry.name
    rw [hentryName]
    exact hnew _ (hlays.mem_files.2 ⟨j, q, hq, rfl⟩)
  · exact hlays.apart.update_some slot (nodup_numbers_plan hplan) fun n hn =>
      (hlays.mem_numbers_plan hplan hn).2
  · have hfresh : ∀ n ∈ (p.placed kind contents).order,
        SectorMap.Usable v.map.limit n ∧ n ∉ layout.taken :=
      fun n hn => hlays.mem_numbers_plan hplan hn
    have hleaves := hlays.leaves.mark hempty hfresh
    exact hleaves.congr (hrewritten.limit_map hlays.loaded) hisFree htotal

end Writing

/-! ### Deleting -/

/-- Deleting a file empties its slot. -/
theorem Lays.deleteFile {typed : String} {slot : Fin Directory.capacity} {p : Placed}
    (hp : layout slot = some p) (hfind : v.directory.find typed = .ok (p.listed slot))
    (hunlocked : (p.listed slot).flags.isLocked = false) :
    ∃ u, v.deleteFile typed = .ok () u ∧ u.image.header = v.image.header ∧
      u.Lays (Function.update layout slot none) := by
  obtain ⟨u, hok, hrewritten, hentries, hothers⟩ :=
    hlays.loaded.deleteFile_of_follow hfind hunlocked (hlays.follow_listed hp)
  rw [(hlays.holds slot p hp).sized.numbers_chain] at hrewritten
  obtain ⟨hisFree, htotal, _, hrecorded⟩ := hrewritten.loaded.map_of_packed hrewritten.packed
  have hother : ∀ j, j ≠ slot →
      (v.directory.set (p.listed slot).markDeleted).get? j = v.directory.get? j := by
    intro j hj
    rw [Directory.get?_set, if_neg]
    exact fun hsame => hj (Fin.ext hsame)
  refine ⟨u, hok, hrewritten.header, hrewritten.loaded, ?_, ?_, ?_, ?_, ?_, hrecorded⟩
  · intro j q hq
    have hj : j ≠ slot := by
      rintro rfl
      simp at hq
    rw [Function.update_of_ne hj] at hq
    refine hlays.holds_other hentries (hother j hj) hrewritten.header hq fun n hn => ?_
    have husable := SectorMap.usable_iff.1
      (hlays.leaves.usable n (Layout.mem_taken_of_some hq hn))
    refine hothers n (by omega) ?_
    rw [isSystem_eq_false_iff]
    omega
  · intro j e hj hentry
    by_cases hne : j = slot
    · have hstorable := (hlays.loaded.storable
        (Directory.get?_eq_some_iff.1 (hlays.get?_of_some hp)).1).markDeleted
      have hslot : slot.val = (p.listed slot).markDeleted.slot := rfl
      rw [hne, hentries, Directory.get?_set, if_pos hslot, Option.bind_some] at hentry
      have hparse := (Entry.parse_encode hstorable).symm.trans hentry
      have hflags : e.flags = .deleted := by
        rw [← Option.some.inj hparse]
        rfl
      rw [Entry.isInUse, hflags]
      decide
    · rw [Function.update_of_ne hne] at hj
      exact hlays.vacant_other hentries (hother j hne) hj hentry
  · exact hlays.distinct.update_none slot
  · exact hlays.apart.update_none slot
  · have hleaves := hlays.leaves.release hlays.apart hp
    exact hleaves.congr (hrewritten.limit_map hlays.loaded) hisFree htotal

end Lays

/-! ### Runs -/

/-- On a volume that was just formatted all slots are empty. -/
theorem lays_of_format {image : Image} (hmade : image.Made) {v : Volume}
    (hformat : format image = .ok v) :
    (v.Lays fun _ => none) ∧ v.image.header = image.header := by
  obtain ⟨hsound, hidle⟩ := hmade.sound
  obtain ⟨again, hagain, hloaded, hheader, hempty, htotal, hrecorded, hfree⟩ :=
    format_ok (roomy_of_format hsound hformat) hidle
  rw [hformat, Except.ok.injEq] at hagain
  subst hagain
  have hnone : ∀ s, s ∉ Layout.taken fun _ => none := by
    intro s hs
    obtain ⟨slot, hslot⟩ := Layout.mem_taken.1 hs
    simp [Layout.order] at hslot
  refine ⟨⟨hloaded, ?_, ?_, ?_, ?_, ⟨?_, ?_, htotal⟩, hrecorded⟩, hheader⟩
  · intro slot p hp
    simp at hp
  · intro slot e _ hentry
    rw [hloaded.entryAt_eq_none (hempty slot)] at hentry
    simp at hentry
  · intro i j p q hp
    simp at hp
  · constructor
    · intro slot
      simp [Layout.order]
    · intro i j _
      simp [Layout.order]
  · intro s hs
    exact absurd hs (hnone s)
  · intro s
    rw [hfree]
    simp [hnone]

theorem Lays.perform {v : Volume} {layout : Layout} (hlays : v.Lays layout) (action : Action) :
    ∃ next, (v.perform action).2.Lays next ∧
      (v.perform action).2.image.header = v.image.header := by
  rcases hlays.loaded.ready.perform_cases action with ⟨e, hfailed⟩ | ⟨u, hdone, _⟩
  · rw [hfailed]
    exact ⟨layout, hlays, rfl⟩
  · rw [hdone]
    cases action with
    | write typed kind contents =>
      obtain ⟨e, hwrite⟩ := writeFile_of_perform hdone
      obtain ⟨p, hplan, _, _⟩ := hlays.loaded.writeFile_inv hwrite
      obtain ⟨w, slot, hagain, hheader, _, _, _, hnext⟩ := hlays.writeFile hplan
      rw [hwrite, EStateM.Result.ok.injEq] at hagain
      rw [hagain.2]
      exact ⟨_, hnext, hheader⟩
    | delete typed =>
      have hdelete := deleteFile_of_perform hdone
      obtain ⟨e, chain, hfind, hunlocked, _⟩ := deleteFile_inv hdelete
      obtain ⟨slot, p, hp, rfl⟩ := hlays.mem_files.1 (Directory.mem_files_of_find hfind)
      obtain ⟨w, hagain, hheader, hnext⟩ := hlays.deleteFile hp hfind hunlocked
      rw [hdelete, EStateM.Result.ok.injEq] at hagain
      rw [hagain.2]
      exact ⟨_, hnext, hheader⟩

/-- Whatever is done to a volume, its files have a layout. -/
theorem Lays.performAll {v : Volume} {layout : Layout} (hlays : v.Lays layout)
    (actions : List Action) :
    ∃ next, (v.performAll actions).2.Lays next ∧
      (v.performAll actions).2.image.header = v.image.header := by
  induction actions generalizing v layout with
  | nil => exact ⟨layout, hlays, rfl⟩
  | cons action rest ih =>
    obtain ⟨mid, hmid, hheader⟩ := hlays.perform action
    obtain ⟨next, hnext, hrest⟩ := ih hmid
    rw [performAll_cons]
    exact ⟨next, hnext, hrest.trans hheader⟩

end Volume

end AtariDisk
