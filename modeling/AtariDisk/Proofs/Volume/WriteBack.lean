import AtariDisk.Proofs.Directory.Record
import AtariDisk.Proofs.Volume.Allocation
import AtariDisk.Proofs.Volume.Layout

/-!
# Writing a file and deleting it again

On any disk whose map keeps the reserved sectors back, a file that was written is read back, can be
deleted, and leaves map and slots as they were. Nothing is asked of the other files: their chains
may be damaged, their names illegible, and the map wrong about their sectors.
-/

namespace AtariDisk.Volume

open Image

section Rewriting

variable {v u : Volume} (hv : v.Loaded) (hu : u.Loaded) {slot : Nat}
  (hentry : u.image.entryAt slot =
    (v.directory.get? slot).bind fun e => Entry.parse slot e.encode)

include hv hu hentry

/-- No entry takes on a name that a user can type by being written again. -/
theorem Loaded.name_rewritten {f : Entry} (hget : u.directory.get? slot = some f)
    (huse : f.isInUse = true) {name : FileName} (hvalid : name.Valid) (hname : f.name = name) :
    ∃ e ∈ v.directory.files, e.name = name := by
  obtain ⟨e, hold, hflags, hagain⟩ := hv.get?_rewritten hu hentry hget
  have hstored := hold
  rw [hv.reads.get?_directory, Option.map_eq_some_iff] at hstored
  obtain ⟨stored, hstored, rfl⟩ := hstored
  obtain ⟨hslot, hsame⟩ := slot_of_entryAt hstored
  rw [entryAt_of_lt v.image hslot] at hstored
  have hnamed := Entry.name_of_rewritten hstored hvalid (hagain.symm.trans hname)
  refine ⟨v.image.measured stored, Directory.mem_files.2 ⟨?_, ?_⟩, hnamed⟩
  · change v.directory.get? stored.slot = _
    rw [hsame, hold]
  · rw [Entry.isInUse, ← hflags]
    exact huse

end Rewriting

section WriteBack

variable {v : Volume} (hloaded : v.Loaded) {typed : String} {contents : Bytes} {kind : FileKind}
  {p : Plan} (hplan : v.plan typed kind contents = .ok p)

include hloaded hplan

omit hloaded in
theorem freeSlot_of_plan : v.directory.freeSlot = .ok p.entry.slot := by
  obtain ⟨name, slot, _, _, hslot, _, rfl⟩ := planFile_eq_ok_iff.1 hplan
  exact hslot

omit hloaded in
theorem map_of_plan : p.map = v.map.mark p.chain.numbers false := by
  obtain ⟨name, slot, _, _, _, _, rfl⟩ := planFile_eq_ok_iff.1 hplan
  rfl

omit hloaded in
theorem entryAt_other {u : Volume}
    (hentries : ∀ slot, u.image.entryAt slot =
      (p.directory.get? slot).bind fun e => Entry.parse slot e.encode)
    {slot : Nat} (hne : slot ≠ p.entry.slot) :
    u.image.entryAt slot =
      (v.directory.get? slot).bind fun e => Entry.parse slot e.encode := by
  rw [hentries, get?_plan hplan, if_neg hne]

/-- A file that keeps clear of the reserved sectors is written, lies on its sectors, and is found
under its name. -/
theorem Loaded.writeFile_holds (hclear : ∀ n ∈ p.chain.numbers, SectorMap.isReserved n = false) :
    ∃ u, v.writeFile typed kind contents = .ok p.entry u ∧ Rewritten v u p.map ∧
      u.Holds p.entry.slot (p.placed kind contents) ∧
      u.directory.find typed = .ok ((p.placed kind contents).listed p.entry.slot) ∧
      ∀ slot, slot ≠ p.entry.slot → u.image.entryAt slot =
        (v.directory.get? slot).bind fun e => Entry.parse slot e.encode := by
  obtain ⟨u, hok, hrewritten, hentries, hsectors, _⟩ := hloaded.writeFile_of_plan hplan hclear
  have hentry : u.image.entryAt p.entry.slot = Entry.parse p.entry.slot p.entry.encode := by
    rw [hentries, get?_plan hplan, if_pos rfl, Option.bind_some]
  have hholds := hloaded.holds_plan hplan hclear hrewritten.header hentry hsectors
  have hget := hholds.get?_directory hrewritten.loaded
  have hothers : ∀ slot, slot ≠ p.entry.slot → u.image.entryAt slot =
      (v.directory.get? slot).bind fun e => Entry.parse slot e.encode := fun slot hne =>
    entryAt_other hplan hentries hne
  obtain ⟨name, taken, hname, hnew, _, _, hp⟩ := planFile_eq_ok_iff.1 hplan
  have hentryName : (p.placed kind contents).file.name = name := by
    rw [hp]
    rfl
  refine ⟨u, hok, hrewritten, hholds, ?_, hothers⟩
  apply Directory.find_of_unique
  · change FileName.parse typed = .ok (p.placed kind contents).file.name
    rw [hentryName, hname]
  · exact Directory.mem_files.2 ⟨hget, Placed.isInUse_listed _ _⟩
  · intro f hf hsame
    obtain ⟨hgetF, huse⟩ := Directory.mem_files.1 hf
    by_cases hslot : f.slot = p.entry.slot
    · rw [hslot, hget, Option.some.injEq] at hgetF
      exact hgetF.symm
    · obtain ⟨old, hold, hnamed⟩ := hloaded.name_rewritten hrewritten.loaded (hothers _ hslot)
        hgetF huse (FileName.parse_eq_ok_iff.1 hname).2 (hsame.trans hentryName)
      exact absurd hnamed (hnew old hold)

end WriteBack

/-- **Writing, reading back and deleting.** On a mounted disk whose map marks no reserved sector as
free, a file that was written is read back as it was given, and deleting it succeeds. The map is
then what it was before, and the slot of the file is marked as deleted and the next to be taken
again. -/
theorem write_then_delete_restores {image : Image} (hsound : image.Sound)
    (hidle : image.phase = .idle) {v : Volume} (hmount : mount image = .ok v)
    (hguarded : v.Guarded) {typed : String} {contents : Bytes} {e : Entry} {u : Volume}
    (hwrite : v.writeFile typed .normal contents = .ok e u) :
    u.contentsOf typed = .ok contents ∧
      ∃ w, u.deleteFile typed = .ok () w ∧ w.map.free = v.map.free ∧
        w.map.freeSectors = v.map.freeSectors ∧
        (∃ gone, w.directory.get? e.slot = some gone ∧ gone.flags = .deleted) ∧
        v.directory.freeSlot = .ok e.slot ∧ w.directory.freeSlot = .ok e.slot := by
  have hloaded := loaded_of_mount hsound hidle hmount
  obtain ⟨p, hplan, rfl, _⟩ := hloaded.writeFile_inv hwrite
  obtain ⟨again, hagain, hrewritten, hholds, hfind, hothers⟩ :=
    hloaded.writeFile_holds hplan fun n hn => hloaded.clear_of_guarded hplan hguarded hn
  rw [hwrite, EStateM.Result.ok.injEq] at hagain
  obtain ⟨_, rfl⟩ := hagain
  have hu := hrewritten.loaded
  have hget := hholds.get?_directory hu
  obtain ⟨chain, hchain⟩ : ∃ chain, chain = (p.placed .normal contents).chain u.payload
      p.entry.slot := ⟨_, rfl⟩
  have hfollow : u.image.follow ((p.placed .normal contents).listed p.entry.slot) = .ok chain := by
    rw [Placed.listed, follow_length, hchain]
    exact hholds.follow hu
  have hnumbers : chain.numbers = p.chain.numbers := by
    rw [hchain, hholds.sized.numbers_chain]
    rfl
  obtain ⟨w, hdelete, hdropped, hentries, _⟩ := hu.deleteFile_of_follow hfind
    (EntryFlags.isLocked_ofKind .normal) hfollow
  obtain ⟨hgone, hvacant, hkept⟩ :=
    hu.slots_of_delete hdropped.loaded (Directory.get?_eq_some_iff.1 hget).1 hentries
  have hfree : ∀ s, w.map.isFree s = v.map.isFree s := by
    intro s
    rw [(hdropped.loaded.map_of_packed hdropped.packed).1, hnumbers]
    apply SectorMap.isFree_release_of_mark
    · intro n
      rw [(hu.map_of_packed hrewritten.packed).1, map_of_plan hplan]
    · intro n hn
      exact (hloaded.mem_numbers_plan hplan hn).2.2.1
  have hlimit : w.map.limit = v.map.limit :=
    (hdropped.limit_map hu).trans (hrewritten.limit_map hloaded)
  have hslot := freeSlot_of_plan hplan
  refine ⟨?_, w, hdelete, SectorMap.free_eq_of_isFree hfree,
    SectorMap.freeSectors_congr hlimit hfree, hgone, hslot, ?_⟩
  · unfold contentsOf
    rw [hfind, Outcome.ok_bind, hfollow, Outcome.ok_bind, hchain, hholds.sized.contents_chain]
    rfl
  · obtain ⟨hlt, _, hbefore⟩ := Directory.freeSlot_eq_ok_iff.1 hslot
    refine Directory.freeSlot_eq_ok_iff.2 ⟨hlt, hvacant, fun j hj => ?_⟩
    have hne : j ≠ p.entry.slot := by omega
    rw [hkept j hne, hloaded.isTaken_rewritten hu (hothers j hne)]
    exact hbefore j hj

/-! ### A disk with a file that cannot be read -/

/-- A file whose chain leaves the disk and whose name is no text. -/
def oddRecord : Bytes :=
  [0x42, 1, 0, 0x0F, 0x27] ++ List.replicate 8 0xC1 ++ List.replicate 3 0x20

/-- Sectors 4 and 5 are free. -/
def oddParts : List (Nat × Bytes) :=
  [(SectorMap.home, SectorMap.dos2 :: Bytes.zeros 9 ++ [0x0C]), (Directory.home, oddRecord)]

/-- A file is written to the disk, read back and deleted, next to one that cannot be read. -/
theorem write_then_delete_restores_oddDisk :
    ∃ v e u w, (sketched oddParts).Made ∧ mount (sketched oddParts) = .ok v ∧ v.Guarded ∧
      v.writeFile "A" .normal [0x41] = .ok e u ∧ e.slot = 1 ∧ u.contentsOf "A" = .ok [0x41] ∧
      u.deleteFile "A" = .ok () w ∧ w.map.free = v.map.free ∧ w.directory.freeSlot = .ok 1 := by
  have hlead : (sketch oddParts 1).take 2 ≠ Container.atr.signature := by decide +kernel
  have hkept : ∀ s ≤ 368, SectorMap.isReserved s = true → sketchFree oddParts s = false := by
    decide +kernel
  obtain ⟨v, e, u, hmount, hloaded, himage, hwrite, hslot⟩ := writeFile_sketched hlead
    (by decide +kernel) (show FileName.parse "A" = .ok ⟨"A", ""⟩ by decide +kernel)
    (by decide +kernel) (show 1 < 64 by decide) (by decide +kernel) (by decide +kernel)
    (show 1 ≤ 4 ∧ 4 ≤ 368 ∧ _ by decide +kernel) hkept .normal 0x41
  have hmade : (sketched oddParts).Made := .inl ⟨_, ofBuffer_sketched hlead⟩
  have hguarded := hloaded.guarded_sketched himage hkept
  obtain ⟨hread, w, hdelete, hmap, _, _, _, hlast⟩ :=
    write_then_delete_restores hmade.sound.1 hmade.sound.2 hmount hguarded hwrite
  rw [hslot] at hlast
  exact ⟨v, e, u, w, hmade, hmount, hguarded, hwrite, hslot, hread, hdelete, hmap, hlast⟩

end AtariDisk.Volume
