import AtariDisk.Proofs.Volume.Trail
import AtariDisk.Proofs.Volume.WriteBack

/-!
# Which bytes an operation changes

A new file is written to the lowest free sectors, as many as it needs, and deleting a file writes to
no sector of files at all. Besides, both write the map and the directory, and of the map only the
bits and the number of free sectors. Every other byte of the file stays, those in front of the first
sector and behind the last included. Nothing is asked of the disk: the map may be wrong, chains may
be damaged, and the sectors that are given out may be boot sectors.
-/

namespace AtariDisk

namespace Image

/-- The byte lies in the sector. -/
def Occupies (image : Image) (n i : Nat) : Prop :=
  ∃ span, image.header.locate n = .ok span ∧ span.Covers i

theorem Occupies.length_le {image : Image} {n i : Nat} (hoccupies : image.Occupies n i) :
    image.header.length ≤ i := by
  obtain ⟨span, hlocate, hcovers⟩ := hoccupies
  obtain ⟨inner, _, hrest⟩ := Outcome.bind_eq_ok_iff.1 hlocate
  obtain ⟨offset, hoffset, hspan⟩ := Outcome.bind_eq_ok_iff.1 hrest
  obtain ⟨_, rfl⟩ := Word.add_eq_ok_iff.1 hoffset
  obtain rfl := Except.ok.inj hspan
  have hfirst := hcovers.1
  simp only at hfirst
  omega

theorem Roomy.not_covers {image : Image} (hroomy : image.Roomy) {n i : Nat} (hn : image.Linkable n)
    (hmiss : ¬image.Occupies n i) : ¬(image.header.place n).Covers i :=
  fun hcovers => hmiss ⟨_, hroomy.locate_eq hn, hcovers⟩

/-- The images differ in the sectors `written`, in the directory and in parts of the map only. -/
structure Confined (before after : Image) (written : List Nat) : Prop where
  header : after.header = before.header
  size : after.data.size = before.data.size
  bytes : ∀ i, (∀ n, n ∈ written ∨ 360 ≤ n ∧ n ≤ 368 → ¬before.Occupies n i) →
    after.data[i]? = before.data[i]?
  lead : ∀ i < before.header.length, after.data[i]? = before.data[i]?
  others : ∀ n < 65536, n ∉ written → ¬(360 ≤ n ∧ n ≤ 368) →
    after.readSector n = before.readSector n
  map : ∃ old new, before.readSector 360 = .ok old ∧ after.readSector 360 = .ok new ∧
    new.length = old.length ∧ ∀ j, j ≤ 2 ∨ 5 ≤ j ∧ j ≤ 9 ∨ 100 ≤ j → new[j]? = old[j]?

end Image

namespace Volume

open Image

/-- The file lies on the sectors of the chain. A sector that belongs to the map or to the directory
does not keep its piece of the file: map and directory are written last. -/
structure LiesOn (v : Volume) (e : Entry) (contents : Bytes) (chain : Chain) : Prop where
  pieces : (Chain.split v.payload contents).place chain.numbers e.slot = .ok chain
  sectorCount : e.sectorCount = chain.length
  firstSector : e.firstSector = chain.firstSector
  stored : ∀ s ∈ chain, SectorMap.isSystem s.number = false →
    ∃ raw, v.image.readSector s.number = .ok raw ∧ DataSector.decode s.number raw = .ok s
  followed : (∀ s ∈ chain, SectorMap.isSystem s.number = false) → v.image.follow e = .ok chain

section Stored

variable {v u : Volume} (hv : v.Loaded) (hu : u.Loaded) {after : Image}
  (himage : u.image = after.closed) {writes : List (Nat × Bytes)}
  (hfitting : v.image.opened.Fitting writes) {map : SectorMap} {d : Directory}
  (hstored : SystemStored (v.image.opened.putAll writes) after map d)

include hv hu himage hfitting hstored

/-- What is known of the bytes after some sectors were written, and then map and directory. -/
theorem Loaded.confined_of_stored (hraw : map.raw = v.map.raw) :
    v.image.Confined u.image (writes.map Prod.fst) := by
  have halike : Alike v.image.opened after := (alike_putAll ..).trans hstored.alike
  have hhome := hv.roomy.linkable_of_le (show 1 ≤ SectorMap.home by decide) (by decide)
  have hold : map.raw = v.image.sector 360 := hraw.trans hv.reads.raw_map
  have hpacked : u.image.sector 360 = map.pack := by
    rw [himage]
    exact hstored.map
  have hheader : u.image.header = v.image.header := by
    rw [himage]
    exact halike.header
  have hbytes : ∀ i, (∀ n, n ∈ writes.map Prod.fst ∨ 360 ≤ n ∧ n ≤ 368 →
      ¬v.image.Occupies n i) → u.image.data[i]? = v.image.data[i]? := by
    intro i hmiss
    have hsystem : ∀ n, SectorMap.isSystem n = true → ¬(v.image.header.place n).Covers i := by
      intro n hn
      have hrange : 360 ≤ n ∧ n ≤ 368 := by
        by_contra hnot
        rw [isSystem_eq_false_iff.2 hnot] at hn
        exact Bool.false_ne_true hn
      exact hv.roomy.not_covers (hv.roomy.linkable_of_le (by omega) hrange.2)
        (hmiss n (.inr hrange))
    have hwrites : ∀ n ∈ writes.map Prod.fst, ¬(v.image.header.place n).Covers i := by
      intro n hn
      obtain ⟨write, hwrite, rfl⟩ := List.mem_map.1 hn
      exact hv.roomy.not_covers (hfitting write hwrite).1 (hmiss _ (.inl hn))
    have hmid := header_putAll v.image.opened writes
    calc u.image.data[i]? = after.data[i]? := by rw [himage, closed]
      _ = (v.image.opened.putAll writes).data[i]? :=
        hstored.outside i (by rw [hmid]; exact hsystem)
      _ = v.image.data[i]? := getElem?_putAll hfitting hwrites
  refine ⟨hheader, ?_, hbytes, fun i hi => ?_, fun n hn hmiss hsystem => ?_, ?_⟩
  · rw [himage]
    exact halike.size
  · exact hbytes i fun n _ hoccupies => Nat.not_le.2 hi hoccupies.length_le
  · by_cases hinside : 1 ≤ n ∧ n ≤ v.image.header.sectorCount
    · have hlinkable : v.image.Linkable n := ⟨hinside.1, hinside.2, hn⟩
      rw [hu.roomy.readSector_eq (hlinkable.of_header hheader),
        hv.roomy.readSector_eq hlinkable, himage, sector_closed,
        hstored.others n hinside.1 (isSystem_eq_false_iff.2 hsystem),
        hv.roomy.opened.toSound.sector_putAll_of_not_mem hfitting hinside.1 hmiss, sector_opened]
    · rw [readSector_of_refused (hv.roomy.locate_outside hinside)]
      rw [← hheader] at hinside
      rw [readSector_of_refused (hu.roomy.locate_outside hinside), hheader]
  · refine ⟨_, _, hv.roomy.readSector_eq hhome,
      hu.roomy.readSector_eq (hu.roomy.linkable_of_le (by decide) (by decide)), ?_, fun j hj => ?_⟩
    · rw [hpacked, map.length_pack, hold]
    · rw [hpacked, map.getElem?_pack_outside hj, hold]

end Stored

section Writing

variable {v u : Volume} (hloaded : v.Loaded) {typed : String} {kind : FileKind} {contents : Bytes}

include hloaded

/-- A piece of a new file can be read back from its sector, unless map or directory were written
over it. -/
theorem Loaded.decode_of_stored {p : Plan} (hplan : v.plan typed kind contents = .ok p)
    (hfits : ∀ s ∈ p.chain, s.Fits (v.image.header.place s.number).length) {after : Image}
    (hstored : SystemStored (v.image.opened.putAll (chainWrites v.image p.chain)) after p.map
      p.directory) {s : DataSector} (hs : s ∈ p.chain)
    (hsystem : SectorMap.isSystem s.number = false) :
    DataSector.decode s.number (after.sector s.number) = .ok s := by
  have hlinkable : ∀ s ∈ p.chain, v.image.Linkable s.number := fun s hs =>
    (hloaded.mem_numbers_plan hplan (List.mem_map_of_mem hs)).2.2.2
  rw [hstored.others s.number (hlinkable s hs).1 hsystem]
  exact decode_putAll hloaded.roomy.opened.toCounted hlinkable hfits (nodup_numbers_plan hplan) hs

/-- A new file lies on the lowest free sectors, and only these, map and directory are written. -/
theorem Loaded.footprint_of_write {e : Entry} (hok : v.writeFile typed kind contents = .ok e u) :
    ∃ chain, u.LiesOn e contents chain ∧
      chain.numbers = v.map.freeSectors.take (Chain.sectorsNeeded v.payload contents.length) ∧
      chain.length = Chain.sectorsNeeded v.payload contents.length ∧
      v.image.Confined u.image chain.numbers := by
  obtain ⟨p, after, hplan, rfl, hfits, hu, himage, hstored⟩ := hloaded.writeFile_stored hok
  obtain ⟨hchain, hnumbers, hlength, hcount, hfirst⟩ := chain_of_plan hplan
  have hlinkable : ∀ s ∈ p.chain, v.image.Linkable s.number := fun s hs =>
    (hloaded.mem_numbers_plan hplan (List.mem_map_of_mem hs)).2.2.2
  have hraw : p.map.raw = v.map.raw := by rw [map_of_plan hplan, SectorMap.raw_mark]
  have hfitting : v.image.opened.Fitting (chainWrites v.image p.chain) :=
    fitting_chainWrites hlinkable hfits
  have hconfined := hloaded.confined_of_stored hu himage hfitting hstored hraw
  rw [fst_chainWrites] at hconfined
  have hagain : ∀ s ∈ p.chain, u.image.Linkable s.number := fun s hs =>
    (hlinkable s hs).of_header hconfined.header
  have hread : ∀ s ∈ p.chain, SectorMap.isSystem s.number = false →
      DataSector.decode s.number (u.image.sector s.number) = .ok s := by
    intro s hs hsystem
    rw [himage]
    exact hloaded.decode_of_stored hplan hfits hstored hs hsystem
  have hsame : p.chain.numbers.length = (Chain.split v.payload contents).length := by
    rw [Chain.length_split, ← hlength, Chain.numbers, List.length_map]
  have hassign : (Chain.split v.payload contents).assign p.entry.slot p.chain.numbers =
      p.chain := by
    rw [hnumbers]
    exact hchain.symm
  refine ⟨p.chain, ⟨?_, hcount, hfirst, ?_, ?_⟩, hnumbers, hlength, hconfined⟩
  · rw [payload_congr hconfined.header, Chain.place, if_pos hsame, hassign]
  · intro s hs hsystem
    exact ⟨_, hu.roomy.readSector_eq (hagain s hs), hread s hs hsystem⟩
  · intro hclear
    have hlinked : p.chain.Linked p.entry.slot := hassign ▸ Chain.linked_assign hsame
    have hcarries : u.image.Carries p.entry.slot p.chain :=
      ⟨hlinked, hagain, fun s hs => hread s hs (hclear s hs)⟩
    exact hcarries.follow_eq hu.roomy.toCounted rfl hfirst hcount

end Writing

/-- Deleting a file gives the sectors of its chain free, and nothing is written but map and
directory. -/
theorem Loaded.footprint_of_delete {v u : Volume} (hloaded : v.Loaded) {typed : String}
    (hok : v.deleteFile typed = .ok () u) :
    ∃ e chain, v.directory.find typed = .ok e ∧ v.image.follow e = .ok chain ∧
      (∀ s < 720, u.map.isFree s = (v.map.isFree s || decide (s ∈ chain.numbers))) ∧
      v.image.Confined u.image [] := by
  obtain ⟨e, chain, hfind, hunlocked, hfollow⟩ := deleteFile_inv hok
  obtain ⟨w, after, hw, hu, himage, hstored⟩ := hloaded.deleteFile_stored hfind hunlocked hfollow
  rw [hok, EStateM.Result.ok.injEq] at hw
  obtain ⟨_, rfl⟩ := hw
  have hfitting : v.image.opened.Fitting [] := by
    intro write hwrite
    simp at hwrite
  refine ⟨e, chain, hfind, hfollow, fun s hs => ?_,
    hloaded.confined_of_stored hu himage hfitting hstored (SectorMap.raw_mark ..)⟩
  rw [hloaded.isFree_of_delete hok hfind hfollow]
  by_cases hmem : s ∈ chain.numbers
  · simp [hmem, hs]
  · simp [hmem]

/-- **Exactly which bytes an operation changes.** On any mounted disk, a file that is written lies
on the lowest free sectors in ascending order, one for each payload of its contents, and besides
these only map and directory are written. Deleting a file writes to map and directory only, and
afterwards the sectors of its chain are free in addition to those that were. Either way the first
three bytes of the map, those between the number of free sectors and the bits, and those behind the
bits stay, and so does the size of the image. -/
theorem operations_are_confined {image : Image} (hsound : image.Sound)
    (hidle : image.phase = .idle) {v : Volume} (hmount : mount image = .ok v) :
    (∀ typed kind contents e u, v.writeFile typed kind contents = .ok e u →
      ∃ chain, u.LiesOn e contents chain ∧
        chain.numbers = v.map.freeSectors.take
          (contents.length ⌈/⌉ (v.image.header.sectorSize - 3)) ∧
        chain.length = contents.length ⌈/⌉ (v.image.header.sectorSize - 3) ∧
        chain.numbers.Pairwise (· < ·) ∧ v.image.Confined u.image chain.numbers) ∧
      ∀ typed u, v.deleteFile typed = .ok () u →
        ∃ e chain, v.directory.find typed = .ok e ∧ v.image.follow e = .ok chain ∧
          (∀ s < 720, u.map.isFree s = (v.map.isFree s || decide (s ∈ chain.numbers))) ∧
          v.image.Confined u.image [] := by
  have hloaded := loaded_of_mount hsound hidle hmount
  refine ⟨fun typed kind contents e u hok => ?_, fun typed u hok => hloaded.footprint_of_delete hok⟩
  obtain ⟨chain, hlies, hnumbers, hlength, hconfined⟩ := hloaded.footprint_of_write hok
  rw [Chain.sectorsNeeded_eq_ceilDiv hloaded.payload_pos] at hnumbers hlength
  refine ⟨chain, hlies, hnumbers, hlength, ?_, hconfined⟩
  rw [hnumbers]
  exact v.map.freeSectors_ordered.sublist (List.take_sublist _ _)

/-- A file of one byte goes to sector 4 of the one disk, and on the other deleting the file on
sectors 4 and 5 gives these free. -/
theorem operations_are_confined_oddDisk :
    ∃ v e u chain w x, (sketched oddParts).Made ∧ mount (sketched oddParts) = .ok v ∧
      v.writeFile "A" .normal [0x41] = .ok e u ∧ u.LiesOn e [0x41] chain ∧ chain.numbers = [4] ∧
      v.image.Confined u.image [4] ∧ pairDisk.Made ∧ mount pairDisk = .ok w ∧
      w.deleteFile "A" = .ok () x ∧ x.map.isFree 4 = true ∧ x.map.isFree 5 = true ∧
      w.image.Confined x.image [] := by
  have hlead : (sketch oddParts 1).take 2 ≠ Container.atr.signature := by decide +kernel
  have hmade : (sketched oddParts).Made := .inl ⟨_, ofBuffer_sketched hlead⟩
  obtain ⟨v, e, u, hmount, hloaded, himage, hwrite, _⟩ := writeFile_sketched hlead
    (by decide +kernel) (show FileName.parse "A" = .ok ⟨"A", ""⟩ by decide +kernel)
    (by decide +kernel) (show 1 < 64 by decide) (by decide +kernel) (by decide +kernel)
    (show 1 ≤ 4 ∧ 4 ≤ 368 ∧ _ by decide +kernel) (by decide +kernel) .normal 0x41
  obtain ⟨chain, hlies, hnumbers, _, _, hconfined⟩ :=
    (operations_are_confined hmade.sound.1 hmade.sound.2 hmount).1 _ _ _ _ _ hwrite
  have hfour : chain.numbers = [4] := by
    have hsectors : ((List.range' 1 719).filter (sketchFree oddParts)).take 1 = [4] := by
      decide +kernel
    rw [hnumbers, hloaded.freeSectors_sketched himage, himage]
    exact hsectors
  have hpair : pairDisk.Made := .inl ⟨_, ofBuffer_sketched (by decide +kernel)⟩
  obtain ⟨w, hagain, hother, hsame⟩ : ∃ w, mount pairDisk = .ok w ∧ w.Loaded ∧
      w.image = pairDisk := mount_sketched (by decide +kernel) (by decide +kernel)
  have hget : ∀ slot, w.directory.get? slot = pairFiles[slot]?.map pairDisk.measured := by
    intro slot
    rw [hother.reads.get?_directory, hsame, entryAt_pairDisk]
  have hfind : w.directory.find "A" = .ok (pairDisk.measured pairFiles[0]) := by
    refine Directory.find_of_unique (by decide +kernel)
      (Directory.mem_files.2 ⟨hget 0, by decide⟩) fun f hf hname => ?_
    have hslot := (Directory.mem_files.1 hf).1
    rw [hget, Option.map_eq_some_iff] at hslot
    obtain ⟨stored, hstored, rfl⟩ := hslot
    have hnamed : ∀ g ∈ pairFiles, g.name = ⟨"A", ""⟩ → g = pairFiles[0] := by decide
    rw [hnamed stored (List.mem_of_getElem? hstored) hname]
  have hfollow : w.image.follow (pairDisk.measured pairFiles[0]) = .ok (pairChain 0) := by
    rw [hsame, measured, follow_length]
    exact follow_pairDisk rfl
  obtain ⟨x, hdelete, _⟩ := hother.deleteFile_of_follow hfind (by decide) hfollow
  obtain ⟨found, freed, hfound, hfreed, hmap, hclean⟩ :=
    (operations_are_confined hpair.sound.1 hpair.sound.2 hagain).2 _ _ hdelete
  rw [hfind, Except.ok.injEq] at hfound
  subst hfound
  rw [hfollow, Except.ok.injEq] at hfreed
  subst hfreed
  refine ⟨v, e, u, chain, w, x, hmade, hmount, hwrite, hlies, hfour, hfour ▸ hconfined, hpair,
    hagain, hdelete, ?_, ?_, hclean⟩
  · rw [hmap 4 (by decide), show decide (4 ∈ (pairChain 0).numbers) = true by decide, Bool.or_true]
  · rw [hmap 5 (by decide), show decide (5 ∈ (pairChain 0).numbers) = true by decide, Bool.or_true]

end Volume

end AtariDisk
