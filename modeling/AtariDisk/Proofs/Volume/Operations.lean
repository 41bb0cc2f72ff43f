import AtariDisk.Volume.Listing
import AtariDisk.Proofs.Volume.Atomicity

/-!
# What writing and deleting do to a volume

The operations on a volume that agrees with its image, told by the sectors and the entries that they
leave behind. The other files are of no concern here: they may be damaged or share sectors.
-/

namespace AtariDisk

namespace Volume

open Image

theorem payload_congr {v u : Volume} (hheader : u.image.header = v.image.header) :
    u.payload = v.payload := by
  unfold payload
  rw [hheader]

theorem Loaded.limit_congr {v u : Volume} (hv : v.Loaded) (hu : u.Loaded)
    (hheader : u.image.header = v.image.header) : u.map.limit = v.map.limit := by
  rw [hu.reads.limit_map, hv.reads.limit_map, hheader]

theorem Loaded.payload_add {v : Volume} (hloaded : v.Loaded) :
    v.payload + DataSector.linkSize = v.image.header.sectorSize := by
  have hsize := hloaded.sectorSize_cases
  simp only [payload, DataSector.linkSize]
  omega

theorem Loaded.payload_pos {v : Volume} (hloaded : v.Loaded) : 0 < v.payload := by
  have hsize := hloaded.sectorSize_cases
  simp only [payload, DataSector.linkSize]
  omega

theorem Loaded.summary_eq {v : Volume} (hloaded : v.Loaded) :
    v.summary = .ok ⟨filesystemName, v.map.total, v.map.freeCount, v.image.header.sectorSize,
      v.payload, v.directory.files.length, Directory.capacity⟩ := by
  unfold summary
  rw [hloaded.ready.payloadCapacity_eq]
  rfl

theorem Loaded.freeBytes_eq {v : Volume} (hloaded : v.Loaded) {summary : VolumeSummary}
    (hsummary : v.summary = .ok summary) :
    summary.freeBytes = .ok (v.map.freeCount * v.payload) := by
  have hfree := v.map.freeCount_lt
  have hsize := hloaded.sectorSize_cases
  have hpayload : v.payload ≤ 256 := by
    simp only [payload]
    omega
  have hbytes : v.map.freeCount * v.payload ≤ 720 * 256 := Nat.mul_le_mul (by omega) hpayload
  have hbound : Word.bound = 18446744073709551616 := rfl
  rw [hloaded.summary_eq, Except.ok.injEq] at hsummary
  subst hsummary
  exact Word.mul_eq_ok_iff.2 ⟨by simp only; omega, rfl⟩

/-- The plan of a new file on a volume. -/
def plan (v : Volume) (typed : String) (kind : FileKind) (contents : Bytes) : Outcome Plan :=
  planFile v.map v.directory v.payload typed kind contents

theorem plan_of_room {v : Volume} {typed : String} {name : FileName} {slot : Nat} {contents : Bytes}
    (kind : FileKind) (hname : FileName.parse typed = .ok name)
    (hnew : ∀ f ∈ v.directory.files, f.name ≠ name) (hslot : v.directory.freeSlot = .ok slot)
    (henough : Chain.sectorsNeeded v.payload contents.length ≤ v.map.freeCount) :
    v.plan typed kind contents =
      .ok (newPlan v.map v.directory v.payload slot name kind contents) :=
  planFile_eq_ok_iff.2 ⟨name, slot, hname, hnew, hslot, henough, rfl⟩

/-- What a successful operation leaves behind: `map` is written to the image of `v`, and `u` is
read from it. -/
structure Rewritten (v u : Volume) (map : SectorMap) : Prop where
  loaded : u.Loaded
  header : u.image.header = v.image.header
  packed : u.image.sector SectorMap.home = map.pack

theorem Rewritten.limit_map {v u : Volume} {map : SectorMap} (hrewritten : Rewritten v u map)
    (hloaded : v.Loaded) : u.map.limit = v.map.limit :=
  hloaded.limit_congr hrewritten.loaded hrewritten.header

theorem Loaded.entryAt_eq_none {v : Volume} (hloaded : v.Loaded) {slot : Nat}
    (hget : v.directory.get? slot = none) : v.image.entryAt slot = none := by
  rw [hloaded.reads.get?_directory, Option.map_eq_none_iff] at hget
  exact hget

/-- The entries that are read back from a directory that was written. -/
theorem SystemStored.entryAt {before after : Image} {map : SectorMap} {d : Directory}
    (hstored : SystemStored before after map d)
    (hslots : ∀ e ∈ d.entries, e.slot < Directory.capacity)
    (hvacant : ∀ slot, d.get? slot = none → before.entryAt slot = none) (slot : Nat) :
    after.entryAt slot = (d.get? slot).bind fun e => Entry.parse slot e.encode := by
  cases hget : d.get? slot with
  | some e =>
    obtain ⟨hmem, rfl⟩ := Directory.get?_eq_some_iff.1 hget
    rw [entryAt_of_lt after (hslots e hmem), hstored.present e.slot e hget, Option.bind_some]
  | none =>
    have hbefore := hvacant slot hget
    by_cases hslot : slot < Directory.capacity
    · rw [entryAt_of_lt before hslot] at hbefore
      rw [entryAt_of_lt after hslot]
      rw [hstored.absent slot hslot hget]
      split
      · exact Entry.parse_unusedRecord slot
      · exact hbefore
    · rw [Image.entryAt, if_neg hslot]
      rfl

/-! ### Entries that are written again -/

section Rewriting

variable {v u : Volume} (hv : v.Loaded) (hu : u.Loaded) {slot : Nat}
  (hentry : u.image.entryAt slot =
    (v.directory.get? slot).bind fun e => Entry.parse slot e.encode)

include hv hu hentry

/-- What is read back of an entry whose record was written again. -/
theorem Loaded.get?_rewritten {f : Entry} (hget : u.directory.get? slot = some f) :
    ∃ e, v.directory.get? slot = some e ∧ f.flags = e.flags ∧
      f.name = ⟨Entry.readText (Entry.writeText 8 e.name.base),
        Entry.readText (Entry.writeText 3 e.name.ext)⟩ := by
  rw [hu.reads.get?_directory, hentry] at hget
  cases hold : v.directory.get? slot with
  | none => simp [hold] at hget
  | some e =>
    obtain ⟨hmem, rfl⟩ := Directory.get?_eq_some_iff.1 hold
    rw [hold, Option.bind_some, Entry.parse_encode (hv.storable hmem), Option.map_some,
      Option.some.injEq] at hget
    subst hget
    exact ⟨e, rfl, flags_measured .., name_measured ..⟩

theorem Loaded.isTaken_rewritten : u.directory.isTaken slot = v.directory.isTaken slot := by
  unfold Directory.isTaken
  rw [hu.reads.get?_directory, hentry]
  cases hold : v.directory.get? slot with
  | none => rfl
  | some e =>
    obtain ⟨hmem, rfl⟩ := Directory.get?_eq_some_iff.1 hold
    rw [Option.bind_some, Entry.parse_encode (hv.storable hmem), Option.map_some, Option.any_some,
      Option.any_some, isInUse_measured, Entry.isInUse, Entry.isInUse]

end Rewriting

/-- Deleting a file marks its slot, and the others are taken if they were. -/
theorem Loaded.slots_of_delete {v u : Volume} (hv : v.Loaded) (hu : u.Loaded) {e : Entry}
    (he : e ∈ v.directory.entries)
    (hentries : ∀ slot, u.image.entryAt slot =
      ((v.directory.set e.markDeleted).get? slot).bind fun e => Entry.parse slot e.encode) :
    (∃ gone, u.directory.get? e.slot = some gone ∧ gone.flags = .deleted) ∧
      u.directory.isTaken e.slot = false ∧
      ∀ slot, slot ≠ e.slot → u.directory.isTaken slot = v.directory.isTaken slot := by
  have hentry := hentries e.slot
  have hslot : e.slot = e.markDeleted.slot := rfl
  rw [Directory.get?_set, if_pos hslot, Option.bind_some, hslot,
    Entry.parse_encode (hv.storable he).markDeleted] at hentry
  have hget := hu.reads.get?_directory e.slot
  rw [hslot, hentry, Option.map_some] at hget
  refine ⟨⟨_, hget, rfl⟩, ?_, fun slot hne => ?_⟩
  · rw [Directory.isTaken, hslot, hget]
    exact Entry.isInUse_markDeleted e
  · apply hv.isTaken_rewritten hu
    rw [hentries, Directory.get?_set, if_neg (show slot ≠ e.markDeleted.slot from hne)]

section Writing

variable {v u : Volume} (hloaded : v.Loaded) {typed : String} {kind : FileKind} {contents : Bytes}
  {p : Plan}

include hloaded

/-- The sectors that are given to a new file are free. -/
theorem Loaded.mem_numbers_plan (hplan : v.plan typed kind contents = .ok p) {n : Nat}
    (hn : n ∈ p.chain.numbers) :
    1 ≤ n ∧ n < v.map.limit ∧ v.map.isFree n = true ∧ v.image.Linkable n := by
  obtain ⟨name, slot, _, _, _, henough, rfl⟩ := planFile_eq_ok_iff.1 hplan
  have hlimit := hloaded.reads.limit_map
  rw [newPlan, numbers_newChain henough] at hn
  obtain ⟨hfirst, hlast, hfree⟩ := SectorMap.mem_freeSectors.1 (List.mem_of_mem_take hn)
  exact ⟨hfirst, hlast, hfree, hfirst, by omega, by omega⟩

omit hloaded in
/-- The chain of a plan has as many sectors as the file needs, the lowest that are free. -/
theorem chain_of_plan (hplan : v.plan typed kind contents = .ok p) :
    p.chain = newChain v.map v.payload p.entry.slot contents ∧
      p.chain.numbers =
        v.map.freeSectors.take (Chain.sectorsNeeded v.payload contents.length) ∧
      p.chain.length = Chain.sectorsNeeded v.payload contents.length ∧
      p.entry.sectorCount = p.chain.length ∧ p.entry.firstSector = p.chain.firstSector := by
  obtain ⟨name, slot, _, _, _, henough, rfl⟩ := planFile_eq_ok_iff.1 hplan
  have hnumbers : (newChain v.map v.payload slot contents).numbers =
      v.map.freeSectors.take (Chain.sectorsNeeded v.payload contents.length) :=
    numbers_newChain henough
  refine ⟨rfl, hnumbers, ?_, rfl, rfl⟩
  calc (newChain v.map v.payload slot contents).length
      = (newChain v.map v.payload slot contents).numbers.length := (List.length_map _).symm
    _ = (Chain.split v.payload contents).length := by
      rw [hnumbers, length_take_freeSectors henough]
    _ = Chain.sectorsNeeded v.payload contents.length := Chain.length_split ..

omit hloaded in
theorem length_chain_plan_lt (hplan : v.plan typed kind contents = .ok p) :
    p.chain.length < 720 := by
  calc p.chain.length = p.chain.numbers.length := (List.length_map _).symm
    _ ≤ v.map.freeCount := by
      rw [(chain_of_plan hplan).2.1]
      exact List.length_take_le' ..
    _ < 720 := v.map.freeCount_lt

/-- There is room for the entry of a plan in a record. -/
theorem Loaded.storable_plan (hplan : v.plan typed kind contents = .ok p) : p.entry.Storable := by
  obtain ⟨_, _, _, hcount, hfirst⟩ := chain_of_plan hplan
  have hshort := length_chain_plan_lt hplan
  refine ⟨?_, by omega, ?_⟩
  · obtain ⟨name, slot, _, _, _, _, rfl⟩ := planFile_eq_ok_iff.1 hplan
    exact EntryFlags.byte_ofKind kind
  · rw [hfirst]
    cases hchain : p.chain with
    | nil => exact Nat.zero_lt_succ _
    | cons s rest =>
      have hmem : s.number ∈ p.chain.numbers := List.mem_map_of_mem (hchain ▸ List.mem_cons_self)
      exact (hloaded.mem_numbers_plan hplan hmem).2.2.2.2.2

omit hloaded in
theorem nodup_numbers_plan (hplan : v.plan typed kind contents = .ok p) :
    p.chain.numbers.Nodup := by
  rw [(chain_of_plan hplan).2.1]
  exact v.map.freeSectors_nodup.sublist (List.take_sublist _ _)

omit hloaded in
theorem fits_of_mem_plan (hplan : v.plan typed kind contents = .ok p) {s : DataSector}
    (hs : s ∈ p.chain)
    (hpayload : s.payload.length + DataSector.linkSize ≤ (v.image.header.place s.number).length) :
    s.Fits (v.image.header.place s.number).length := by
  obtain ⟨name, slot, _, _, hslot, henough, rfl⟩ := planFile_eq_ok_iff.1 hplan
  have hlimit := v.map.limit_le
  have hslotLt := (Directory.freeSlot_eq_ok_iff.1 hslot).1
  refine Chain.fits_of_mem_assign hs ?_ (fun n hn => ?_) hpayload
  · simp only [Directory.capacity, DataSector.maxOwner] at hslotLt ⊢
    omega
  · have hbound := (SectorMap.mem_freeSectors.1 (List.mem_of_mem_take hn)).2.1
    simp only [DataSector.maxNext]
    omega

theorem Loaded.payload_of_mem_plan (hplan : v.plan typed kind contents = .ok p) {s : DataSector}
    (hs : s ∈ p.chain) : s.payload.length + DataSector.linkSize ≤ v.image.header.sectorSize := by
  obtain ⟨name, slot, _, _, _, _, rfl⟩ := planFile_eq_ok_iff.1 hplan
  obtain ⟨_, _, _, piece, hpiece, hpayload⟩ := Chain.mem_assign hs
  have hshort := Chain.length_payload_of_mem_split hpiece
  rw [Chain.effective, Nat.max_eq_left hloaded.payload_pos] at hshort
  rw [hpayload, ← hloaded.payload_add]
  omega

omit hloaded in
theorem get?_plan (hplan : v.plan typed kind contents = .ok p) (slot : Nat) :
    p.directory.get? slot =
      if slot = p.entry.slot then some p.entry else v.directory.get? slot := by
  obtain ⟨name, taken, _, _, _, _, hp⟩ := planFile_eq_ok_iff.1 hplan
  have hdirectory : p.directory =
      (v.directory.set (Directory.fresh taken name kind)).set p.entry := by
    rw [hp]
    rfl
  rw [hdirectory, Directory.get?_set_set]
  rw [hp]
  rfl

theorem Loaded.slot_lt_plan (hplan : v.plan typed kind contents = .ok p) {e : Entry}
    (hmem : e ∈ p.directory.entries) : e.slot < Directory.capacity := by
  have hget := get?_plan hplan e.slot
  rw [Directory.get?_eq_some_iff.2 ⟨hmem, rfl⟩] at hget
  split at hget
  · rename_i hslot
    obtain ⟨name, taken, _, _, hfree, _, rfl⟩ := planFile_eq_ok_iff.1 hplan
    rw [hslot]
    exact (Directory.freeSlot_eq_ok_iff.1 hfree).1
  · exact hloaded.slot_lt (Directory.get?_eq_some_iff.1 hget.symm).1

theorem Loaded.storeSystem_plan (hplan : v.plan typed kind contents = .ok p) {mid : Image}
    (halike : Alike v.image.opened mid) :
    ∃ after, storeSystem p.map p.directory mid = .ok () after ∧
      SystemStored mid after p.map p.directory := by
  have hheader : mid.header = v.image.header := halike.header
  refine storeSystem_ok (hloaded.roomy.opened.of_alike halike) ?_ ?_ ?_
  · obtain ⟨name, slot, _, _, _, _, rfl⟩ := planFile_eq_ok_iff.1 hplan
    rw [hheader]
    exact hloaded.length_raw_map
  · obtain ⟨name, slot, _, _, _, _, rfl⟩ := planFile_eq_ok_iff.1 hplan
    rw [hheader]
    exact hloaded.reads.sectorSize_directory
  · intro e hmem
    exact hloaded.slot_lt_plan hplan hmem

/-- What is on the disk once a file was written. -/
theorem Loaded.writeFile_stored {e : Entry} (hok : v.writeFile typed kind contents = .ok e u) :
    ∃ p after, v.plan typed kind contents = .ok p ∧ e = p.entry ∧
      (∀ s ∈ p.chain, s.Fits (v.image.header.place s.number).length) ∧ u.Loaded ∧
      u.image = after.closed ∧
      SystemStored (v.image.opened.putAll (chainWrites v.image p.chain)) after p.map
        p.directory := by
  rw [hloaded.ready.writeFile_eq] at hok
  obtain ⟨mid, hstore, hu, himage⟩ :=
    update_eq_ok (keeps_storeFile _ _ _ _ _ _) hloaded.roomy hloaded.idle hok
  obtain ⟨p, laid, hplan, hchain, hsystem, rfl⟩ := storeFile_eq_ok_iff.1 hstore
  have hlinkable : ∀ s ∈ p.chain, v.image.Linkable s.number := fun s hs =>
    (hloaded.mem_numbers_plan hplan (List.mem_map_of_mem hs)).2.2.2
  have hfits := fits_of_storeChain hloaded.roomy.opened.toCounted hlinkable hchain
  rw [storeChain_eq hloaded.roomy.opened.toCounted hlinkable hfits,
    EStateM.Result.ok.injEq] at hchain
  obtain ⟨_, rfl⟩ := hchain
  obtain ⟨again, hagain, hstored⟩ := hloaded.storeSystem_plan hplan (alike_putAll ..)
  rw [hsystem, EStateM.Result.ok.injEq] at hagain
  obtain ⟨_, rfl⟩ := hagain
  exact ⟨p, mid, hplan, rfl, hfits, hu, himage, hstored⟩

/-- A file that was written had a plan, and its map is now on the disk. -/
theorem Loaded.writeFile_inv {e : Entry} (hok : v.writeFile typed kind contents = .ok e u) :
    ∃ p, v.plan typed kind contents = .ok p ∧ e = p.entry ∧ Rewritten v u p.map := by
  obtain ⟨p, after, hplan, he, _, hu, himage, hstored⟩ := hloaded.writeFile_stored hok
  refine ⟨p, hplan, he, hu, ?_, ?_⟩
  · rw [himage]
    exact ((alike_putAll v.image.opened _).trans hstored.alike).header
  · rw [himage]
    exact hstored.map

/-- Without a plan nothing is written. -/
theorem Loaded.writeFile_of_plan_error {e : Failure}
    (hplan : v.plan typed kind contents = .error e) :
    v.writeFile typed kind contents = .error e v := by
  have hstore : storeFile v.map v.directory v.payload typed kind contents v.image.opened =
      .error e v.image.opened := by
    rw [storeFile_eq]
    refine Call.bind_of_error ?_ _
    unfold plan at hplan
    rw [hplan, Call.ofOutcome_error]
  rw [hloaded.ready.writeFile_eq]
  exact update_of_error (keeps_storeFile _ _ _ _ _ _) hloaded.idle hstore

/-- A plan whose pieces fit into their sectors is carried out. -/
theorem Loaded.storeFile_of_plan (hplan : v.plan typed kind contents = .ok p)
    (hpayload : ∀ s ∈ p.chain,
      s.payload.length + DataSector.linkSize ≤ (v.image.header.place s.number).length) :
    ∃ u after, v.writeFile typed kind contents = .ok p.entry u ∧ u.Loaded ∧
      u.image = after.closed ∧
      SystemStored (v.image.opened.putAll (chainWrites v.image p.chain)) after p.map
        p.directory := by
  have hlinkable : ∀ s ∈ p.chain, v.image.Linkable s.number := fun s hs =>
    (hloaded.mem_numbers_plan hplan (List.mem_map_of_mem hs)).2.2.2
  have hfits : ∀ s ∈ p.chain, s.Fits (v.image.header.place s.number).length := fun s hs =>
    fits_of_mem_plan hplan hs (hpayload s hs)
  have hchain := storeChain_eq hloaded.roomy.opened.toCounted hlinkable hfits
  obtain ⟨after, hsystem, hstored⟩ := hloaded.storeSystem_plan hplan (alike_putAll ..)
  have hstore : storeFile v.map v.directory v.payload typed kind contents v.image.opened =
      .ok p.entry after := storeFile_eq_ok_iff.2 ⟨p, _, hplan, hchain, hsystem, rfl⟩
  obtain ⟨u, hok, hu, himage⟩ :=
    update_of_ok (keeps_storeFile _ _ _ _ _ _) hloaded.roomy hloaded.idle hstore
  exact ⟨u, after, (hloaded.ready.writeFile_eq ..).trans hok, hu, himage, hstored⟩

/-- A file that keeps clear of the reserved sectors is written, and nothing else is touched but the
map and the directory. -/
theorem Loaded.writeFile_of_plan (hplan : v.plan typed kind contents = .ok p)
    (hclear : ∀ n ∈ p.chain.numbers, SectorMap.isReserved n = false) :
    ∃ u, v.writeFile typed kind contents = .ok p.entry u ∧ Rewritten v u p.map ∧
      (∀ slot, u.image.entryAt slot =
        (p.directory.get? slot).bind fun e => Entry.parse slot e.encode) ∧
      (∀ s ∈ p.chain, u.image.sector s.number = s.bytes v.image.header.sectorSize) ∧
      ∀ n, 1 ≤ n → SectorMap.isSystem n = false → n ∉ p.chain.numbers →
        u.image.sector n = v.image.sector n := by
  have hbehind : ∀ s ∈ p.chain, 3 < s.number ∧ SectorMap.isSystem s.number = false := by
    intro s hs
    have hmem : s.number ∈ p.chain.numbers := List.mem_map_of_mem hs
    have hfirst := (hloaded.mem_numbers_plan hplan hmem).1
    have hnot := hclear s.number hmem
    rw [Bool.eq_false_iff, ne_eq, SectorMap.isReserved_eq_true_iff] at hnot
    rw [isSystem_eq_false_iff]
    omega
  have hlength : ∀ s ∈ p.chain,
      (v.image.header.place s.number).length = v.image.header.sectorSize := fun s hs =>
    hloaded.roomy.length_place (hbehind s hs).1
  have hpayload : ∀ s ∈ p.chain,
      s.payload.length + DataSector.linkSize ≤ (v.image.header.place s.number).length := by
    intro s hs
    rw [hlength s hs]
    exact hloaded.payload_of_mem_plan hplan hs
  have hlinkable : ∀ s ∈ p.chain, v.image.Linkable s.number := fun s hs =>
    (hloaded.mem_numbers_plan hplan (List.mem_map_of_mem hs)).2.2.2
  have hfitting : v.image.opened.Fitting (chainWrites v.image p.chain) :=
    fitting_chainWrites hlinkable fun s hs => fits_of_mem_plan hplan hs (hpayload s hs)
  have hsound := hloaded.roomy.opened.toSound
  obtain ⟨u, after, hok, hu, himage, hstored⟩ := hloaded.storeFile_of_plan hplan hpayload
  have hmiss : ∀ n, 1 ≤ n → n ∉ p.chain.numbers →
      (v.image.opened.putAll (chainWrites v.image p.chain)).sector n = v.image.sector n := by
    intro n hn hnot
    exact hsound.sector_putAll_of_not_mem hfitting hn (by rwa [fst_chainWrites])
  have hheader : after.header = v.image.header := by
    rw [hstored.alike.header]
    exact header_putAll ..
  refine ⟨u, hok, ⟨hu, ?_, ?_⟩, ?_, ?_, ?_⟩
  · rw [himage]
    exact hheader
  · rw [himage]
    exact hstored.map
  · intro slot
    rw [himage]
    refine hstored.entryAt (fun e hmem => hloaded.slot_lt_plan hplan hmem)
      (fun free hfree => ?_) slot
    -- The chain keeps clear of the directory, so that free slots stay free.
    have hget : v.directory.get? free = none := by
      rw [get?_plan hplan] at hfree
      split at hfree
      · simp at hfree
      · exact hfree
    rw [entryAt_congr fun n hfirst hlast => hmiss n (by omega) fun hmem => ?_]
    · exact hloaded.entryAt_eq_none hget
    · obtain ⟨s, hs, rfl⟩ := List.mem_map.1 hmem
      have hsystem := isSystem_eq_false_iff.1 (hbehind s hs).2
      omega
  · intro s hs
    have hnodup : ((chainWrites v.image p.chain).map Prod.fst).Nodup := by
      rw [fst_chainWrites]
      exact nodup_numbers_plan hplan
    have hsector := hsound.sector_putAll_of_mem hfitting hnodup (List.mem_map_of_mem hs)
    rw [himage, sector_closed, hstored.others s.number (hlinkable s hs).1 (hbehind s hs).2, hsector,
      hlength s hs]
  · intro n hn hsystem hnot
    rw [himage, sector_closed, hstored.others n hn hsystem, hmiss n hn hnot]

end Writing

section Deleting

variable {v u : Volume} (hloaded : v.Loaded) {typed : String} {e : Entry} {chain : Chain}

include hloaded

theorem Loaded.slot_lt_markDeleted (hfind : v.directory.find typed = .ok e) {f : Entry}
    (hf : f ∈ (v.directory.set e.markDeleted).entries) : f.slot < Directory.capacity := by
  rcases Directory.mem_insertEntry hf with rfl | hold
  · have hget := (Directory.mem_files.1 (Directory.mem_files_of_find hfind)).1
    have hslot := hloaded.slot_lt (Directory.get?_eq_some_iff.1 hget).1
    exact hslot
  · exact hloaded.slot_lt hold

/-- A file that can be followed and is not locked is deleted, and map and directory say so. -/
theorem Loaded.deleteFile_stored (hfind : v.directory.find typed = .ok e)
    (hunlocked : e.flags.isLocked = false) (hfollow : v.image.follow e = .ok chain) :
    ∃ u after, v.deleteFile typed = .ok () u ∧ u.Loaded ∧ u.image = after.closed ∧
      SystemStored v.image.opened after (v.map.release chain.numbers)
        (v.directory.set e.markDeleted) := by
  obtain ⟨hget, huse⟩ := Directory.mem_files.1 (Directory.mem_files_of_find hfind)
  have hprepare : v.prepareDelete typed = .ok (e, chain) := by
    unfold prepareDelete
    rw [hfind, Outcome.ok_bind, if_neg (by simp [hunlocked]), hfollow]
    rfl
  obtain ⟨after, hsystem, hstored⟩ :
      ∃ after, storeSystem (v.map.release chain.numbers) (v.directory.set e.markDeleted)
        v.image.opened = .ok () after ∧ SystemStored v.image.opened after
          (v.map.release chain.numbers) (v.directory.set e.markDeleted) :=
    storeSystem_ok hloaded.roomy.opened hloaded.length_raw_map
      hloaded.reads.sectorSize_directory fun f hf => hloaded.slot_lt_markDeleted hfind hf
  have hdrop : dropFile v.map v.directory e.slot chain v.image.opened = .ok () after :=
    dropFile_eq_ok_iff.2 ⟨e, hget, huse, hsystem⟩
  obtain ⟨u, hok, hu, himage⟩ :=
    update_of_ok (keeps_dropFile _ _ _ _) hloaded.roomy hloaded.idle hdrop
  refine ⟨u, after, ?_, hu, himage, hstored⟩
  unfold deleteFile
  rw [hprepare]
  exact hok

/-- A file that can be followed and is not locked is deleted, and nothing is touched but the map and
the directory. -/
theorem Loaded.deleteFile_of_follow (hfind : v.directory.find typed = .ok e)
    (hunlocked : e.flags.isLocked = false) (hfollow : v.image.follow e = .ok chain) :
    ∃ u, v.deleteFile typed = .ok () u ∧ Rewritten v u (v.map.release chain.numbers) ∧
      (∀ slot, u.image.entryAt slot =
        ((v.directory.set e.markDeleted).get? slot).bind fun e => Entry.parse slot e.encode) ∧
      ∀ n, 1 ≤ n → SectorMap.isSystem n = false → u.image.sector n = v.image.sector n := by
  obtain ⟨u, after, hok, hu, himage, hstored⟩ := hloaded.deleteFile_stored hfind hunlocked hfollow
  refine ⟨u, hok, ⟨hu, ?_, ?_⟩, ?_, ?_⟩
  · rw [himage]
    exact hstored.alike.header
  · rw [himage]
    exact hstored.map
  · intro slot
    rw [himage]
    refine hstored.entryAt (fun f hf => hloaded.slot_lt_markDeleted hfind hf)
      (fun free hfree => hloaded.entryAt_eq_none ?_) slot
    rw [Directory.get?_set] at hfree
    split at hfree
    · simp at hfree
    · exact hfree
  · intro n hn hsystem
    rw [himage, sector_closed, hstored.others n hn hsystem, sector_opened]

omit hloaded in
theorem deleteFile_of_not_found {cause : DiskError}
    (hfind : v.directory.find typed = refuse cause) :
    v.deleteFile typed = .error (.refused cause) v := by
  unfold deleteFile prepareDelete
  rw [hfind, Outcome.refuse_bind]
  rfl

omit hloaded in
theorem deleteFile_of_locked (hfind : v.directory.find typed = .ok e)
    (hlocked : e.flags.isLocked = true) :
    v.deleteFile typed = .error (.refused (.fileLocked e.fileName)) v := by
  unfold deleteFile prepareDelete
  rw [hfind, Outcome.ok_bind, if_pos hlocked]
  rfl

omit hloaded in
theorem deleteFile_of_damaged {cause : DiskError} (hfind : v.directory.find typed = .ok e)
    (hunlocked : e.flags.isLocked = false) (hfollow : v.image.follow e = refuse cause) :
    v.deleteFile typed = .error (.refused cause) v := by
  unfold deleteFile prepareDelete
  rw [hfind, Outcome.ok_bind, if_neg (by simp [hunlocked]), hfollow, Outcome.refuse_bind]
  rfl

omit hloaded in
theorem deleteFile_inv (hok : v.deleteFile typed = .ok () u) :
    ∃ e chain, v.directory.find typed = .ok e ∧ e.flags.isLocked = false ∧
      v.image.follow e = .ok chain := by
  unfold deleteFile at hok
  split at hok
  · simp at hok
  · rename_i e chain hprepare
    unfold prepareDelete at hprepare
    obtain ⟨found, hfind, hrest⟩ := Outcome.bind_eq_ok_iff.1 hprepare
    split at hrest
    · simp at hrest
    · rename_i hunlocked
      obtain ⟨again, hfollow, hpair⟩ := Outcome.bind_eq_ok_iff.1 hrest
      exact ⟨found, again, hfind, by simpa using hunlocked, hfollow⟩

omit hloaded in
theorem follow_of_delete (hok : v.deleteFile typed = .ok () u)
    (hfind : v.directory.find typed = .ok e) :
    e.flags.isLocked = false ∧ ∃ chain, v.image.follow e = .ok chain := by
  obtain ⟨found, chain, hfound, hunlocked, hfollow⟩ := deleteFile_inv hok
  rw [hfind, Except.ok.injEq] at hfound
  subst hfound
  exact ⟨hunlocked, chain, hfollow⟩

/-- Deleting a file gives the sectors of its chain free, and no others. -/
theorem Loaded.isFree_of_delete (hok : v.deleteFile typed = .ok () u)
    (hfind : v.directory.find typed = .ok e) (hfollow : v.image.follow e = .ok chain) (s : Nat) :
    u.map.isFree s = if s ∈ chain.numbers ∧ s < 720 then true else v.map.isFree s := by
  obtain ⟨hunlocked, _⟩ := follow_of_delete hok hfind
  obtain ⟨w, hw, hrewritten, _⟩ := hloaded.deleteFile_of_follow hfind hunlocked hfollow
  rw [hok, EStateM.Result.ok.injEq] at hw
  obtain ⟨_, rfl⟩ := hw
  rw [(hrewritten.loaded.map_of_packed hrewritten.packed).1 s, SectorMap.isFree_release]

end Deleting

/-! ### Writing to a sketched disk -/

/-- A file of one byte goes to the first slot that is seen to be free, if a sector is seen to be
free and the reserved sectors are not. -/
theorem writeFile_sketched {parts : List (Nat × Bytes)} {typed : String} {name : FileName}
    {slot first : Nat} (hlead : (sketch parts 1).take 2 ≠ Container.atr.signature)
    (hcode : (sketch parts SectorMap.home).headD 0 = SectorMap.dos2)
    (hname : FileName.parse typed = .ok name)
    (hnew : ∀ taken < 64, ∀ e ∈ Entry.parse taken (sketchRecord parts taken), e.name ≠ name)
    (hslot : slot < 64)
    (hvacant : (Entry.parse slot (sketchRecord parts slot)).any (·.isInUse) = false)
    (htaken : ∀ j < slot, (Entry.parse j (sketchRecord parts j)).any (·.isInUse) = true)
    (hfirst : 1 ≤ first ∧ first ≤ 368 ∧ sketchFree parts first = true)
    (hkept : ∀ s ≤ 368, SectorMap.isReserved s = true → sketchFree parts s = false)
    (kind : FileKind) (byte : UInt8) :
    ∃ v e u, mount (sketched parts) = .ok v ∧ v.Loaded ∧ v.image = sketched parts ∧
      v.writeFile typed kind [byte] = .ok e u ∧ e.slot = slot := by
  obtain ⟨v, hmount, hloaded, himage⟩ := mount_sketched hlead hcode
  have hfresh : ∀ f ∈ v.directory.files, f.name ≠ name := by
    intro f hf
    obtain ⟨taken, hlt, stored, hstored, _, rfl⟩ := hloaded.mem_files_sketched himage hf
    exact hnew taken hlt stored hstored
  have hfreeSlot : v.directory.freeSlot = .ok slot := by
    refine Directory.freeSlot_eq_ok_iff.2 ⟨hslot, ?_, fun j hj => ?_⟩
    · rw [hloaded.isTaken_sketched himage hslot, hvacant]
    · rw [hloaded.isTaken_sketched himage (by omega), htaken j hj]
  have henough : Chain.sectorsNeeded v.payload [byte].length ≤ v.map.freeCount := by
    have hneeded : Chain.sectorsNeeded v.payload [byte].length = 1 := by
      rw [payload, himage]
      change Chain.sectorsNeeded 125 1 = 1
      decide
    have hmem : first ∈ v.map.freeSectors := by
      have hlimit := hloaded.reads.limit_map
      have hreaches := hloaded.roomy.reaches
      refine SectorMap.mem_freeSectors.2 ⟨hfirst.1, by omega, ?_⟩
      rw [hloaded.isFree_sketched himage (by omega), hfirst.2.2]
    rw [hneeded]
    exact List.length_pos_of_mem hmem
  have hplan := plan_of_room kind hname hfresh hfreeSlot henough
  have hclear : ∀ n ∈ (newPlan v.map v.directory v.payload slot name kind [byte]).chain.numbers,
      SectorMap.isReserved n = false := by
    intro n hn
    have hfree := (hloaded.mem_numbers_plan hplan hn).2.2.1
    by_contra hnot
    rw [Bool.not_eq_false] at hnot
    have hlast : n ≤ 368 := by
      rw [SectorMap.isReserved_eq_true_iff] at hnot
      omega
    rw [hloaded.isFree_sketched himage (by omega), hkept n hlast hnot] at hfree
    exact Bool.false_ne_true hfree
  obtain ⟨u, hok, _⟩ := hloaded.writeFile_of_plan hplan hclear
  exact ⟨v, _, u, hmount, hloaded, himage, hok, rfl⟩

end Volume

end AtariDisk
