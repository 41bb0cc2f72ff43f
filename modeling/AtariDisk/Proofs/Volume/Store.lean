import AtariDisk.Volume.Files
import AtariDisk.Proofs.Image.Transaction
import AtariDisk.Proofs.Volume.Load

/-!
# What storing a file does to the disk

Writing a file is a plan, made without looking at the disk, and three rounds of writes: the chain,
the map, and the directory. Each round is told by the sectors it changes.
-/

namespace AtariDisk.Volume

open Image

/-! ### Edits that only write sectors -/

theorem keeps_storeChain (chain : Chain) : (storeChain chain).Keeps := by
  induction chain with
  | nil => exact Edit.keeps_pure ()
  | cons s rest ih =>
    refine Edit.Keeps.get_bind fun image => ?_
    refine (Edit.keeps_ofOutcome _).bind fun span => ?_
    refine (Edit.keeps_ofOutcome _).bind fun _ => ?_
    exact (Edit.keeps_writeSized _ _ _).bind fun _ => ih

theorem keeps_storeGroups (d : Directory) (sector : Nat) (groups : List Bytes) :
    (storeGroups d sector groups).Keeps := by
  induction groups generalizing sector with
  | nil => exact Edit.keeps_pure ()
  | cons group rest ih => exact (Edit.keeps_writeSized _ _ _).bind fun _ => ih (sector + 1)

theorem keeps_storeSystem (map : SectorMap) (d : Directory) : (storeSystem map d).Keeps := by
  refine (Edit.keeps_writeSector _ _).bind fun _ => ?_
  exact (Edit.keeps_ofOutcome _).bind fun _ => keeps_storeGroups _ _ _

theorem keeps_dropFile (map : SectorMap) (d : Directory) (slot : Nat) (chain : Chain) :
    (dropFile map d slot chain).Keeps :=
  (Edit.keeps_ofOutcome _).bind fun _ => keeps_storeSystem _ _

/-- All that is done when a file is dropped. -/
theorem dropFile_eq_ok_iff {map : SectorMap} {d : Directory} {slot : Nat} {chain : Chain}
    {image after : Image} :
    dropFile map d slot chain image = .ok () after ↔
      ∃ e, d.get? slot = some e ∧ e.isInUse = true ∧
        storeSystem (map.release chain.numbers) (d.set e.markDeleted) image = .ok () after := by
  unfold dropFile
  rw [Call.ofOutcome_bind_eq_ok_iff]
  constructor
  · rintro ⟨⟨_, left⟩, hcopy, hsystem⟩
    obtain ⟨e, hget, huse, rfl⟩ := Directory.remove_eq_ok_iff.1 (Call.onCopy_eq_ok_iff.1 hcopy)
    exact ⟨e, hget, huse, hsystem⟩
  · rintro ⟨e, hget, huse, hsystem⟩
    exact ⟨_, Call.onCopy_of_ok (Directory.remove_of_taken hget huse), hsystem⟩

/-! ### The plan of a new file -/

/-- What is decided before a new file is written: its entry, the sectors it is put on, and the map
and the directory with the file. -/
structure Plan where
  entry : Entry
  chain : Chain
  map : SectorMap
  directory : Directory

def planFile (map : SectorMap) (directory : Directory) (capacity : Nat) (typed : String)
    (kind : FileKind) (contents : Bytes) : Outcome Plan := do
  let (e, directory) ← Call.onCopy directory (Directory.add typed kind)
  let pieces := Chain.split capacity contents
  let (order, map) ← Call.onCopy map (SectorMap.reserve pieces.length)
  let chain ← pieces.place order e.slot
  let e := e.withChain chain
  return ⟨e, chain, map, directory.set e⟩

theorem storeFile_eq (map : SectorMap) (d : Directory) (capacity : Nat) (typed : String)
    (kind : FileKind) (contents : Bytes) :
    storeFile map d capacity typed kind contents = (do
      let plan ← Call.ofOutcome (planFile map d capacity typed kind contents)
      storeChain plan.chain
      storeSystem plan.map plan.directory
      return plan.entry) := by
  funext image
  unfold storeFile planFile
  cases Call.onCopy d (Directory.add typed kind) with
  | error e => rfl
  | ok added =>
    rw [Call.bind_of_ok (Call.ofOutcome_ok added image), Outcome.ok_bind]
    simp only
    cases Call.onCopy map (SectorMap.reserve (Chain.split capacity contents).length) with
    | error e => rfl
    | ok reserved =>
      rw [Call.bind_of_ok (Call.ofOutcome_ok reserved image), Outcome.ok_bind]
      cases (Chain.split capacity contents).place reserved.1 added.1.slot with
      | error e => rfl
      | ok chain => rfl

/-- All that is done when a file is stored. -/
theorem storeFile_eq_ok_iff {map : SectorMap} {d : Directory} {capacity : Nat} {typed : String}
    {kind : FileKind} {contents : Bytes} {image after : Image} {e : Entry} :
    storeFile map d capacity typed kind contents image = .ok e after ↔
      ∃ p mid, planFile map d capacity typed kind contents = .ok p ∧
        storeChain p.chain image = .ok () mid ∧
        storeSystem p.map p.directory mid = .ok () after ∧ e = p.entry := by
  rw [storeFile_eq, Call.ofOutcome_bind_eq_ok_iff]
  constructor
  · rintro ⟨p, hplan, hstore⟩
    obtain ⟨_, mid, hchain, hrest⟩ := Call.bind_eq_ok_iff.1 hstore
    obtain ⟨_, _, hsystem, hdone⟩ := Call.bind_eq_ok_iff.1 hrest
    rw [Call.pure_apply, EStateM.Result.ok.injEq] at hdone
    obtain ⟨rfl, rfl⟩ := hdone
    exact ⟨p, mid, hplan, hchain, hsystem, rfl⟩
  · rintro ⟨p, mid, hplan, hchain, hsystem, rfl⟩
    refine ⟨p, hplan, ?_⟩
    rw [Call.bind_of_ok hchain, Call.bind_of_ok hsystem]
    rfl

theorem keeps_storeFile (map : SectorMap) (d : Directory) (capacity : Nat) (typed : String)
    (kind : FileKind) (contents : Bytes) :
    (storeFile map d capacity typed kind contents).Keeps := by
  rw [storeFile_eq]
  refine (Edit.keeps_ofOutcome _).bind fun plan => ?_
  refine (keeps_storeChain _).bind fun _ => ?_
  exact (keeps_storeSystem _ _).bind fun _ => Edit.keeps_pure _

/-- The chain of a new file in `slot`, on the lowest free sectors. -/
def newChain (map : SectorMap) (capacity slot : Nat) (contents : Bytes) : Chain :=
  (Chain.split capacity contents).assign slot
    (map.freeSectors.take (Chain.sectorsNeeded capacity contents.length))

section Chain

variable {map : SectorMap} {capacity slot : Nat} {contents : Bytes}
  (henough : Chain.sectorsNeeded capacity contents.length ≤ map.freeCount)

include henough

theorem length_take_freeSectors :
    (map.freeSectors.take (Chain.sectorsNeeded capacity contents.length)).length =
      (Chain.split capacity contents).length := by
  rw [List.length_take, Chain.length_split]
  exact Nat.min_eq_left henough

theorem numbers_newChain :
    (newChain map capacity slot contents).numbers =
      map.freeSectors.take (Chain.sectorsNeeded capacity contents.length) :=
  Chain.numbers_assign (length_take_freeSectors henough)

theorem contents_newChain : (newChain map capacity slot contents).contents = contents := by
  rw [newChain, Chain.contents_assign (length_take_freeSectors henough), Chain.contents_split]

end Chain

/-- The plan of a file that can be written. -/
def newPlan (map : SectorMap) (d : Directory) (capacity slot : Nat) (name : FileName)
    (kind : FileKind) (contents : Bytes) : Plan :=
  let chain := newChain map capacity slot contents
  let e := (Directory.fresh slot name kind).withChain chain
  ⟨e, chain, map.mark chain.numbers false, (d.set (Directory.fresh slot name kind)).set e⟩

/-- What a plan comes to: once there is room for the file, placing it on the reserved sectors cannot
fail. -/
theorem planFile_eq (map : SectorMap) (d : Directory) (capacity : Nat) (typed : String)
    (kind : FileKind) (contents : Bytes) :
    planFile map d capacity typed kind contents = (do
      let name ← FileName.parse typed
      if d.files.any (·.name = name) then refuse (.nameTaken typed)
      else
        let slot ← d.freeSlot
        if map.freeCount < Chain.sectorsNeeded capacity contents.length then
          refuse (.notEnoughSpace (Chain.sectorsNeeded capacity contents.length) map.freeCount)
        else return newPlan map d capacity slot name kind contents) := by
  unfold planFile
  rw [Directory.onCopy_add, Directory.newEntry]
  cases hname : FileName.parse typed with
  | error e => rfl
  | ok name =>
    simp only [Outcome.ok_bind]
    by_cases htaken : d.files.any (·.name = name)
    · rw [if_pos htaken, if_pos htaken]
      rfl
    · rw [if_neg htaken, if_neg htaken]
      cases d.freeSlot with
      | error e => rfl
      | ok slot =>
        simp only [Outcome.ok_bind, Outcome.pure_eq_ok]
        rw [Chain.length_split]
        by_cases hfew : map.freeCount < Chain.sectorsNeeded capacity contents.length
        · rw [Call.onCopy_of_error (SectorMap.reserve_of_lt hfew), if_pos hfew]
          rfl
        · have henough : Chain.sectorsNeeded capacity contents.length ≤ map.freeCount := by omega
          rw [Call.onCopy_of_ok (SectorMap.reserve_of_le henough), if_neg hfew, Outcome.ok_bind]
          simp only
          rw [Chain.place, if_pos (length_take_freeSectors henough), Outcome.ok_bind, newPlan,
            numbers_newChain henough]
          rfl

theorem planFile_eq_ok_iff {map : SectorMap} {d : Directory} {capacity : Nat} {typed : String}
    {kind : FileKind} {contents : Bytes} {p : Plan} :
    planFile map d capacity typed kind contents = .ok p ↔
      ∃ name slot, FileName.parse typed = .ok name ∧ (∀ f ∈ d.files, f.name ≠ name) ∧
        d.freeSlot = .ok slot ∧ Chain.sectorsNeeded capacity contents.length ≤ map.freeCount ∧
        p = newPlan map d capacity slot name kind contents := by
  have hany : ∀ name, ¬(d.files.any fun f => decide (f.name = name)) = true ↔
      ∀ f ∈ d.files, f.name ≠ name := by
    intro name
    simp
  rw [planFile_eq, Outcome.bind_eq_ok_iff]
  constructor
  · rintro ⟨name, hname, hrest⟩
    split at hrest
    · exact absurd hrest (Outcome.refuse_ne_ok _ _)
    · rename_i hnew
      obtain ⟨slot, hslot, hplan⟩ := Outcome.bind_eq_ok_iff.1 hrest
      split at hplan
      · exact absurd hplan (Outcome.refuse_ne_ok _ _)
      · rename_i henough
        exact ⟨name, slot, hname, (hany name).1 hnew, hslot, by omega, (Except.ok.inj hplan).symm⟩
  · rintro ⟨name, slot, hname, hnew, hslot, henough, rfl⟩
    refine ⟨name, hname, ?_⟩
    rw [if_neg ((hany name).2 hnew), hslot, Outcome.ok_bind, if_neg (by omega)]
    rfl

/-- Making a plan never traps. -/
theorem settles_planFile (map : SectorMap) (d : Directory) (capacity : Nat) (typed : String)
    (kind : FileKind) (contents : Bytes) :
    (planFile map d capacity typed kind contents).Settles := by
  have hslot : d.freeSlot.Settles := by
    unfold Directory.freeSlot
    split
    · exact Outcome.settles_ok _
    · exact Outcome.settles_refuse _
  rw [planFile_eq]
  refine (FileName.settles_parse typed).bind fun name _ => ?_
  split
  · exact Outcome.settles_refuse _
  · refine hslot.bind fun slot _ => ?_
    split
    · exact Outcome.settles_refuse _
    · exact Outcome.settles_ok _

/-! ### Writing the chain -/

/-- The bytes that a chain puts into its sectors. -/
def chainWrites (image : Image) (chain : Chain) : List (Nat × Bytes) :=
  chain.map fun s => (s.number, s.bytes (image.header.place s.number).length)

theorem fst_chainWrites (image : Image) (chain : Chain) :
    (chainWrites image chain).map Prod.fst = chain.numbers := by
  rw [chainWrites, List.map_map]
  rfl

theorem fitting_chainWrites {image : Image} {chain : Chain}
    (hlinkable : ∀ s ∈ chain, image.Linkable s.number)
    (hfits : ∀ s ∈ chain, s.Fits (image.header.place s.number).length) :
    image.Fitting (chainWrites image chain) := by
  intro write hwrite
  obtain ⟨s, hs, rfl⟩ := List.mem_map.1 hwrite
  exact ⟨hlinkable s hs, DataSector.length_bytes (hfits s hs).payload⟩

theorem storeChain_eq {image : Image} (hcounted : image.Counted) {chain : Chain}
    (hlinkable : ∀ s ∈ chain, image.Linkable s.number)
    (hfits : ∀ s ∈ chain, s.Fits (image.header.place s.number).length) :
    storeChain chain image = .ok () (image.putAll (chainWrites image chain)) := by
  induction chain generalizing image with
  | nil => rfl
  | cons s rest ih =>
    have hs := hlinkable s List.mem_cons_self
    have hsize := hcounted.length_place_cases s.number
    have hcheck := DataSector.check_eq_ok (hfits s List.mem_cons_self) (by omega)
    have hput := hcounted.of_alike
      (alike_put image s.number (s.bytes (image.header.place s.number).length))
    have hrest := ih hput (fun t ht => hlinkable t (List.mem_cons_of_mem s ht))
      (fun t ht => hfits t (List.mem_cons_of_mem s ht))
    rw [storeChain, Call.get_bind, hcounted.locate_eq hs,
      Call.bind_of_ok (Call.ofOutcome_ok _ image), hcheck,
      Call.bind_of_ok (Call.ofOutcome_ok _ image),
      Call.bind_of_ok ((hcounted.writeSized_eq hs _).trans (if_pos rfl)), hrest]
    rfl

section Stored

variable {image : Image} (hcounted : image.Counted) {chain : Chain}
  (hlinkable : ∀ s ∈ chain, image.Linkable s.number)
  (hfits : ∀ s ∈ chain, s.Fits (image.header.place s.number).length)
  (hnodup : chain.numbers.Nodup)

include hcounted hlinkable hfits hnodup

/-- Each piece is read back from its sector, since no other piece is put there. -/
theorem decode_putAll {s : DataSector} (hs : s ∈ chain) :
    DataSector.decode s.number ((image.putAll (chainWrites image chain)).sector s.number) =
      .ok s := by
  have hwritten := hcounted.toSound.sector_putAll_of_mem (fitting_chainWrites hlinkable hfits)
    (by rwa [fst_chainWrites]) (List.mem_map_of_mem hs)
  have hsize := hcounted.length_place_cases s.number
  have hpayload := (hfits s hs).payload
  simp only [DataSector.linkSize] at hpayload
  rw [hwritten]
  refine DataSector.decode_bytes (hfits s hs) (by omega) ?_
  simp only [DataSector.linkSize]
  omega

theorem carries_putAll {owner : Nat} (hlinked : chain.Linked owner) :
    (image.putAll (chainWrites image chain)).Carries owner chain := by
  refine ⟨hlinked, fun s hs => (hlinkable s hs).of_header (header_putAll ..), fun s hs => ?_⟩
  exact decode_putAll hcounted hlinkable hfits hnodup hs

end Stored

/-- A chain that was written had a place for each of its pieces. -/
theorem fits_of_storeChain {image mid : Image} (hcounted : image.Counted) {chain : Chain}
    (hlinkable : ∀ s ∈ chain, image.Linkable s.number)
    (hok : storeChain chain image = .ok () mid) :
    ∀ s ∈ chain, s.Fits (image.header.place s.number).length := by
  induction chain generalizing image with
  | nil => simp
  | cons s rest ih =>
    have hs := hlinkable s List.mem_cons_self
    rw [storeChain, Call.get_bind, hcounted.locate_eq hs,
      Call.bind_of_ok (Call.ofOutcome_ok _ image)] at hok
    obtain ⟨_, hcheck, hok⟩ := Call.ofOutcome_bind_eq_ok_iff.1 hok
    rw [Call.bind_of_ok ((hcounted.writeSized_eq hs _).trans (if_pos rfl))] at hok
    intro t ht
    rcases List.mem_cons.1 ht with rfl | hlater
    · exact DataSector.fits_of_check hcheck
    · exact ih (hcounted.of_alike (alike_put ..))
        (fun r hr => hlinkable r (List.mem_cons_of_mem s hr)) hok t hlater

/-- Writing a chain to sectors of the disk is refused or succeeds. -/
theorem storeChain_cases {image : Image} (hcounted : image.Counted) {chain : Chain}
    (hlinkable : ∀ s ∈ chain, image.Linkable s.number) :
    (∃ mid, storeChain chain image = .ok () mid) ∨
      ∃ cause mid, storeChain chain image = .error (.refused cause) mid := by
  induction chain generalizing image with
  | nil => exact .inl ⟨image, rfl⟩
  | cons s rest ih =>
    have hs := hlinkable s List.mem_cons_self
    have hsize := hcounted.length_place_cases s.number
    have hsettles : (s.check (image.header.place s.number).length).Settles :=
      s.settles_check (by omega) (by simp only [DataSector.linkSize]; omega)
    rw [storeChain, Call.get_bind, hcounted.locate_eq hs,
      Call.bind_of_ok (Call.ofOutcome_ok _ image)]
    cases hcheck : s.check (image.header.place s.number).length with
    | error e =>
      obtain ⟨cause, rfl⟩ := hsettles.exists_refused hcheck
      exact .inr ⟨cause, image, Call.bind_of_error (Call.ofOutcome_error _ image) _⟩
    | ok _ =>
      rw [Call.bind_of_ok (Call.ofOutcome_ok _ image),
        Call.bind_of_ok ((hcounted.writeSized_eq hs _).trans (if_pos rfl))]
      exact ih (hcounted.of_alike (alike_put ..)) fun t ht =>
        hlinkable t (List.mem_cons_of_mem s ht)

/-! ### Writing map and directory -/

section Map

variable {image : Image} (hroomy : image.Roomy) {map : SectorMap}
  (hraw : map.raw.length = image.header.sectorSize)

include hroomy hraw

theorem length_pack_eq : map.pack.length = (image.header.place SectorMap.home).length := by
  rw [hroomy.length_place (by decide), map.length_pack, hraw]

theorem writeMap_eq :
    Image.writeSector SectorMap.home map.pack image =
      .ok () (image.put SectorMap.home map.pack) := by
  have hhome := hroomy.linkable_of_le (show 1 ≤ SectorMap.home by decide) (by decide)
  exact (hroomy.writeSector_eq hhome _).trans (if_pos (length_pack_eq hroomy hraw).symm)

end Map

def groupWrites (d : Directory) (sector : Nat) : List Bytes → List (Nat × Bytes)
  | [] => []
  | group :: rest => (sector, d.fill group) :: groupWrites d (sector + 1) rest

theorem mem_groupWrites {d : Directory} {sector : Nat} {groups : List Bytes}
    {write : Nat × Bytes} :
    write ∈ groupWrites d sector groups ↔
      ∃ i group, groups[i]? = some group ∧ write = (sector + i, d.fill group) := by
  induction groups generalizing sector with
  | nil => simp [groupWrites]
  | cons group rest ih =>
    rw [groupWrites, List.mem_cons, ih]
    constructor
    · rintro (rfl | ⟨i, g, hg, rfl⟩)
      · exact ⟨0, group, rfl, rfl⟩
      · exact ⟨i + 1, g, hg, by rw [Nat.add_right_comm, Nat.add_assoc]⟩
    · rintro ⟨i, g, hg, rfl⟩
      cases i with
      | zero =>
        rw [List.getElem?_cons_zero, Option.some.injEq] at hg
        exact .inl (by rw [hg, Nat.add_zero])
      | succ i => exact .inr ⟨i, g, hg, by rw [Nat.add_right_comm, Nat.add_assoc]⟩

theorem nodup_groupWrites (d : Directory) (sector : Nat) (groups : List Bytes) :
    ((groupWrites d sector groups).map Prod.fst).Nodup := by
  induction groups generalizing sector with
  | nil => exact List.nodup_nil
  | cons group rest ih =>
    rw [groupWrites, List.map_cons, List.nodup_cons]
    refine ⟨?_, ih (sector + 1)⟩
    intro hmem
    obtain ⟨write, hwrite, hsector⟩ := List.mem_map.1 hmem
    obtain ⟨i, g, _, rfl⟩ := mem_groupWrites.1 hwrite
    simp only at hsector
    omega

theorem fitting_groupWrites {image : Image} (hroomy : image.Roomy) {d : Directory}
    (hsize : d.sectorLength = image.header.sectorSize) {sector : Nat} (hfirst : 3 < sector)
    {groups : List Bytes} (hlast : sector + groups.length ≤ 369) :
    image.Fitting (groupWrites d sector groups) := by
  intro write hwrite
  obtain ⟨i, group, hgroup, rfl⟩ := mem_groupWrites.1 hwrite
  obtain ⟨hi, _⟩ := List.getElem?_eq_some_iff.1 hgroup
  refine ⟨hroomy.linkable_of_le (by omega) (by omega), ?_⟩
  rw [hroomy.length_place (by omega)]
  exact (Bytes.length_resize ..).trans hsize

theorem not_mem_groupWrites {d : Directory} {sector : Nat} {groups : List Bytes} {n : Nat}
    (hn : n < sector ∨ sector + groups.length ≤ n) :
    n ∉ (groupWrites d sector groups).map Prod.fst := by
  intro hmem
  obtain ⟨write, hwrite, rfl⟩ := List.mem_map.1 hmem
  obtain ⟨i, group, hgroup, rfl⟩ := mem_groupWrites.1 hwrite
  obtain ⟨hi, _⟩ := List.getElem?_eq_some_iff.1 hgroup
  simp only at hn
  omega

theorem storeGroups_eq {image : Image} (hroomy : image.Roomy) {d : Directory}
    (hsize : d.sectorLength = image.header.sectorSize) {sector : Nat} (hfirst : 3 < sector)
    {groups : List Bytes} (hlast : sector + groups.length ≤ 369) :
    storeGroups d sector groups image = .ok () (image.putAll (groupWrites d sector groups)) := by
  induction groups generalizing image sector with
  | nil => rfl
  | cons group rest ih =>
    rw [List.length_cons] at hlast
    have hlinkable := hroomy.linkable_of_le (show 1 ≤ sector by omega) (by omega)
    have hput := hroomy.of_alike (alike_put image sector (d.fill group))
    rw [storeGroups, Call.bind_of_ok ((hroomy.writeSized_eq hlinkable _).trans
      (if_pos ((hroomy.length_place hfirst).trans hsize.symm))),
      ih hput hsize (by omega) (by omega)]
    rfl

/-- `after` is `before` with map and directory written. -/
structure SystemStored (before after : Image) (map : SectorMap) (d : Directory) : Prop where
  alike : Alike before after
  map : after.sector SectorMap.home = map.pack
  others : ∀ n, 1 ≤ n → SectorMap.isSystem n = false → after.sector n = before.sector n
  outside : ∀ i, (∀ n, SectorMap.isSystem n = true → ¬(before.header.place n).Covers i) →
    after.data[i]? = before.data[i]?
  present : ∀ slot e, d.get? slot = some e → after.record slot = e.encode
  absent : ∀ slot, slot < Directory.capacity → d.get? slot = none →
    after.record slot =
      if slot / 8 < d.groups.length then Entry.unusedRecord else before.record slot

theorem isSystem_eq_false_iff {n : Nat} : SectorMap.isSystem n = false ↔ ¬(360 ≤ n ∧ n ≤ 368) := by
  simp only [SectorMap.isSystem, Bool.and_eq_false_iff, decide_eq_false_iff_not]
  unfold SectorMap.home
  omega

theorem storeSystem_ok {image : Image} (hroomy : image.Roomy) {map : SectorMap} {d : Directory}
    (hraw : map.raw.length = image.header.sectorSize)
    (hsize : d.sectorSize = image.header.sectorSize)
    (hslots : ∀ e ∈ d.entries, e.slot < Directory.capacity) :
    ∃ after, storeSystem map d image = .ok () after ∧ SystemStored image after map d := by
  have hcases : image.header.sectorSize = 128 ∨ image.header.sectorSize = 256 :=
    hroomy.regular.size
  have hlength : d.sectorLength = image.header.sectorSize := by
    unfold Directory.sectorLength Directory.recordArea
    omega
  have hhome := hroomy.linkable_of_le (show 1 ≤ SectorMap.home by decide) (by decide)
  have hplace := length_pack_eq hroomy hraw
  have hmid := hroomy.of_alike (alike_put image SectorMap.home map.pack)
  have hlast : Directory.home + d.groups.length ≤ 369 := by
    have hgroups := Directory.length_groups_le hslots
    simp only [Directory.home, Directory.sectorCount] at hgroups ⊢
    omega
  have hfits := fitting_groupWrites hmid hlength (show 3 < Directory.home by decide) hlast
  have hrecord : ∀ slot, slot / 8 < d.groups.length →
      ((image.put SectorMap.home map.pack).putAll
        (groupWrites d Directory.home d.groups)).record slot = d.record slot := by
    intro slot hslot
    have hgroup := List.getElem?_eq_getElem hslot
    have hsector := hmid.toSound.sector_putAll_of_mem hfits (nodup_groupWrites ..)
      (mem_groupWrites.2 ⟨slot / 8, _, hgroup, rfl⟩)
    rw [Image.record, hsector, Directory.record_of_fill hgroup]
  -- Besides the map only the sectors of the groups are written.
  have hkept : ∀ n, 1 ≤ n → n ≠ SectorMap.home →
      n < Directory.home ∨ Directory.home + d.groups.length ≤ n →
      ((image.put SectorMap.home map.pack).putAll
        (groupWrites d Directory.home d.groups)).sector n = image.sector n := by
    intro n hn hne houtside
    rw [hmid.toSound.sector_putAll_of_not_mem hfits hn (not_mem_groupWrites houtside),
      hroomy.toSound.sector_put_of_ne hhome.1 hn hne hplace]
  refine ⟨(image.put SectorMap.home map.pack).putAll (groupWrites d Directory.home d.groups),
    ?_, ?_, ?_, ?_, ?_, ?_, ?_⟩
  · rw [storeSystem, Call.bind_of_ok (writeMap_eq hroomy hraw), Word.allocate_of_le (by omega),
      Call.bind_of_ok (Call.ofOutcome_ok _ _)]
    exact storeGroups_eq hmid hlength (by decide) hlast
  · exact (alike_put ..).trans (alike_putAll ..)
  · rw [hmid.toSound.sector_putAll_of_not_mem hfits (by decide)
        (not_mem_groupWrites (.inl (by decide))),
      hroomy.toSound.sector_put_self hhome.1 hhome.2.1 hplace]
  · intro n hn hsystem
    rw [isSystem_eq_false_iff] at hsystem
    simp only [Directory.home] at hlast
    refine hkept n hn ?_ ?_
    · simp only [SectorMap.home]
      omega
    · simp only [Directory.home]
      omega
  · intro i hmiss
    have hgroups : ∀ n ∈ (groupWrites d Directory.home d.groups).map Prod.fst,
        ¬(image.header.place n).Covers i := by
      intro n hn
      refine hmiss n (by_contra fun hnot => ?_)
      rw [Bool.not_eq_true, isSystem_eq_false_iff] at hnot
      refine not_mem_groupWrites ?_ hn
      simp only [Directory.home] at hlast ⊢
      omega
    rw [getElem?_putAll hfits hgroups, getElem?_put hplace (hmiss _ (by decide))]
  · intro slot e hget
    obtain ⟨hmem, rfl⟩ := Directory.get?_eq_some_iff.1 hget
    have hextent := Directory.slot_lt_extent hmem
    have hall := d.extent_le_length_groups
    rw [hrecord e.slot (by omega), Directory.record, hget]
  · intro slot hslot hget
    by_cases hwritten : slot / 8 < d.groups.length
    · rw [if_pos hwritten, hrecord slot hwritten, Directory.record, hget]
    · rw [if_neg hwritten, Image.record, Image.record, hkept]
      · simp only [Directory.home]
        omega
      · simp only [Directory.home, SectorMap.home]
        omega
      · exact .inr (by omega)

end AtariDisk.Volume
