import AtariDisk.Proofs.Volume.WriteBack

/-!
# When a file cannot be written

Writing a file is refused for one of four reasons, which are looked for in a fixed order. On a disk
whose map keeps the reserved sectors back there is no fifth: the new chain can be linked, its pieces
fit into their sectors, and map and directory can be stored, on disks of every size.
-/

namespace AtariDisk.Volume

open Image

instance (v : Volume) : Decidable v.Full :=
  inferInstanceAs (Decidable (∀ slot < Directory.capacity, v.directory.isTaken slot = true))

/-- Why a file cannot be written: the first of the reasons that apply. -/
def refusal (v : Volume) (typed : String) (contents : Bytes) : Option DiskError :=
  let needed := contents.length ⌈/⌉ (v.image.header.sectorSize - 3)
  match FileName.parse typed with
  | .error _ => some (.nameInvalid typed)
  | .ok name =>
    if ∃ f ∈ v.directory.files, f.name = name then some (.nameTaken typed)
    else if v.Full then some (.directoryFull 64)
    else if v.map.freeCount < needed then some (.notEnoughSpace needed v.map.freeCount)
    else none

section Plan

variable {v : Volume} (hloaded : v.Loaded) {typed : String} {kind : FileKind} {contents : Bytes}

include hloaded

theorem Loaded.sectorsNeeded_eq (length : Nat) :
    Chain.sectorsNeeded v.payload length = length ⌈/⌉ (v.image.header.sectorSize - 3) :=
  Chain.sectorsNeeded_eq_ceilDiv hloaded.payload_pos length

/-- A plan is made exactly if there is no reason against it. -/
theorem Loaded.plan_eq_refusal (typed : String) (kind : FileKind) (contents : Bytes) :
    (∃ cause, v.refusal typed contents = some cause ∧ v.plan typed kind contents = refuse cause) ∨
      ∃ p, v.refusal typed contents = none ∧ v.plan typed kind contents = .ok p := by
  have hany : ∀ name, (v.directory.files.any fun f => decide (f.name = name)) = true ↔
      ∃ f ∈ v.directory.files, f.name = name := by
    simp
  rw [plan, planFile_eq, refusal]
  simp only [hloaded.sectorsNeeded_eq]
  cases hname : FileName.parse typed with
  | error e =>
    have hbad : FileName.parse typed = refuse (.nameInvalid typed) :=
      FileName.parse_eq_error (by simp [hname])
    rw [hname] at hbad
    exact .inl ⟨_, rfl, by rw [hbad]; rfl⟩
  | ok name =>
    simp only [Outcome.ok_bind]
    by_cases htaken : ∃ f ∈ v.directory.files, f.name = name
    · exact .inl ⟨_, if_pos htaken, if_pos ((hany name).2 htaken)⟩
    rw [if_neg htaken, if_neg fun h => htaken ((hany name).1 h)]
    by_cases hfull : v.Full
    · exact .inl ⟨_, if_pos hfull, by rw [Directory.freeSlot_eq_refuse hfull]; rfl⟩
    obtain ⟨slot, hslot⟩ : ∃ slot, v.directory.freeSlot = .ok slot :=
      Directory.exists_freeSlot (by simpa [Full] using hfull)
    rw [if_neg hfull, hslot, Outcome.ok_bind]
    by_cases hfew : v.map.freeCount < contents.length ⌈/⌉ (v.image.header.sectorSize - 3)
    · exact .inl ⟨_, if_pos hfew, if_pos hfew⟩
    · exact .inr ⟨_, if_neg hfew, if_neg hfew⟩

omit hloaded in
/-- The entry that is answered tells all there is to know of the new file. -/
theorem entry_of_plan {p : Plan} (hplan : v.plan typed kind contents = .ok p) :
    p.entry = (p.placed kind contents).listed p.entry.slot := by
  obtain ⟨name, slot, _, _, _, henough, rfl⟩ := planFile_eq_ok_iff.1 hplan
  have hcount : (newChain v.map v.payload slot contents).length =
      (newChain v.map v.payload slot contents).numbers.length := (List.length_map ..).symm
  simp only [newPlan, Entry.withChain, Plan.placed, Placed.listed, Placed.entry,
    Directory.fresh, Chain.fileLength_eq, contents_newChain henough, hcount, Chain.firstSector]

end Plan

section Write

variable {v : Volume} (hloaded : v.Loaded) {typed : String} {contents : Bytes}

include hloaded

theorem Loaded.writeFile_of_refusal (kind : FileKind) {cause : DiskError}
    (hcause : v.refusal typed contents = some cause) :
    v.writeFile typed kind contents = .error (.refused cause) v := by
  rcases hloaded.plan_eq_refusal typed kind contents with ⟨_, hagain, hplan⟩ | ⟨_, hnone, _⟩
  · rw [hcause, Option.some.injEq] at hagain
    subst hagain
    exact hloaded.writeFile_of_plan_error hplan
  · simp [hcause] at hnone

theorem Loaded.exists_writeFile (kind : FileKind) (hguarded : v.Guarded)
    (hnone : v.refusal typed contents = none) :
    ∃ e u, v.writeFile typed kind contents = .ok e u := by
  rcases hloaded.plan_eq_refusal typed kind contents with ⟨_, hsome, _⟩ | ⟨p, _, hplan⟩
  · simp [hnone] at hsome
  · obtain ⟨u, hok, _⟩ := hloaded.writeFile_holds hplan fun n hn =>
      hloaded.clear_of_guarded hplan hguarded hn
    exact ⟨p.entry, u, hok⟩

theorem Loaded.get?_of_writeFile {kind : FileKind} (hguarded : v.Guarded) {e : Entry} {u : Volume}
    (hok : v.writeFile typed kind contents = .ok e u) :
    u.directory.get? e.slot = some e ∧ e.length = contents.length := by
  obtain ⟨p, hplan, rfl, _⟩ := hloaded.writeFile_inv hok
  obtain ⟨w, hagain, hrewritten, hholds, _⟩ := hloaded.writeFile_holds hplan fun n hn =>
    hloaded.clear_of_guarded hplan hguarded hn
  rw [hok, EStateM.Result.ok.injEq] at hagain
  obtain ⟨_, rfl⟩ := hagain
  have hentry := entry_of_plan hplan
  refine ⟨?_, by rw [hentry]; rfl⟩
  rw [hholds.get?_directory hrewritten.loaded, ← hentry]

/-- Only the room on the disk can still stand against a new name and a free slot. -/
theorem Loaded.refusal_eq_none_iff {name : FileName} (hname : FileName.parse typed = .ok name)
    (hnew : ∀ f ∈ v.directory.files, f.name ≠ name) (hnotFull : ¬v.Full) :
    v.refusal typed contents = none ↔ contents.length ≤ v.map.freeCount * v.payload := by
  have htaken : ¬∃ f ∈ v.directory.files, f.name = name := fun ⟨f, hf, hsame⟩ => hnew f hf hsame
  have hceil : contents.length ⌈/⌉ (v.image.header.sectorSize - 3) ≤ v.map.freeCount ↔
      contents.length ≤ v.payload * v.map.freeCount :=
    ceilDiv_le_iff_le_mul hloaded.payload_pos
  rw [Nat.mul_comm, ← hceil, refusal, hname]
  simp [htaken, hnotFull]

end Write

/-- **When writing a file succeeds.** On a mounted disk whose map marks no reserved sector as free,
writing a file is refused for the first of the four reasons that applies, and the volume stays as it
was. If none applies, the file is written, and the entry that is answered is the one in the
directory from then on, with the length of the file. With a name that is new and a slot that is
free, writing succeeds exactly if the file is no longer than the room that the volume says it
has. -/
theorem writeFile_decided {image : Image} (hsound : image.Sound) (hidle : image.phase = .idle)
    {v : Volume} (hmount : mount image = .ok v) (hguarded : v.Guarded) (typed : String)
    (kind : FileKind) (contents : Bytes) :
    (∀ cause, v.refusal typed contents = some cause →
        v.writeFile typed kind contents = .error (.refused cause) v) ∧
      (v.refusal typed contents = none → ∃ e u, v.writeFile typed kind contents = .ok e u) ∧
      (∀ e u, v.writeFile typed kind contents = .ok e u →
        u.directory.get? e.slot = some e ∧ e.length = contents.length) ∧
      ∃ summary room, v.summary = .ok summary ∧ summary.freeBytes = .ok room ∧
        ∀ name, FileName.parse typed = .ok name → (∀ f ∈ v.directory.files, f.name ≠ name) →
          ¬v.Full →
            ((∃ e u, v.writeFile typed kind contents = .ok e u) ↔ contents.length ≤ room) := by
  have hloaded := loaded_of_mount hsound hidle hmount
  refine ⟨fun cause => hloaded.writeFile_of_refusal kind, hloaded.exists_writeFile kind hguarded,
    fun e u => hloaded.get?_of_writeFile hguarded, _, _, hloaded.summary_eq,
    hloaded.freeBytes_eq hloaded.summary_eq, fun name hname hnew hnotFull => ?_⟩
  rw [← hloaded.refusal_eq_none_iff hname hnew hnotFull]
  refine ⟨fun ⟨e, u, hok⟩ => ?_, hloaded.exists_writeFile kind hguarded⟩
  cases hcause : v.refusal typed contents with
  | none => rfl
  | some cause =>
    rw [hloaded.writeFile_of_refusal kind hcause] at hok
    simp at hok

/-- Two sectors are free on the disk. A file that needs both is written, one that needs a third is
refused. -/
theorem writeFile_decided_oddDisk :
    ∃ v e u, (sketched oddParts).Made ∧ mount (sketched oddParts) = .ok v ∧ v.Guarded ∧
      v.writeFile "A" .normal (Bytes.zeros 251) = .error (.refused (.notEnoughSpace 3 2)) v ∧
      v.writeFile "A" .normal (Bytes.zeros 250) = .ok e u ∧ u.directory.get? e.slot = some e ∧
      e.length = 250 := by
  have hlead : (sketch oddParts 1).take 2 ≠ Container.atr.signature := by decide +kernel
  have hmade : (sketched oddParts).Made := .inl ⟨_, ofBuffer_sketched hlead⟩
  obtain ⟨v, hmount, hloaded, himage⟩ := mount_sketched hlead (by decide +kernel)
  have hguarded := hloaded.guarded_sketched himage (by decide +kernel)
  have hname : FileName.parse "A" = .ok ⟨"A", ""⟩ := by decide +kernel
  have hnew : ¬∃ f ∈ v.directory.files, f.name = ⟨"A", ""⟩ := by
    rintro ⟨f, hf, hsame⟩
    have hothers : ∀ slot < 64, ∀ e ∈ Entry.parse slot (sketchRecord oddParts slot),
        e.name ≠ ⟨"A", ""⟩ := by decide +kernel
    obtain ⟨slot, hslot, stored, hstored, _, rfl⟩ := hloaded.mem_files_sketched himage hf
    exact hothers slot hslot stored hstored hsame
  have hnotFull : ¬v.Full := by
    intro hfull
    have htaken := hfull 1 (by decide)
    rw [hloaded.isTaken_sketched himage (by decide)] at htaken
    exact absurd htaken (by decide +kernel)
  have hfree : v.map.freeCount = 2 := by
    have hsectors : (List.range' 1 719).filter (sketchFree oddParts) = [4, 5] := by decide +kernel
    rw [SectorMap.freeCount, hloaded.freeSectors_sketched himage, hsectors]
    rfl
  have hsize : v.image.header.sectorSize = 128 := by
    rw [himage]
    rfl
  have hreasons : ∀ contents : Bytes, v.refusal "A" contents =
      if 2 < contents.length ⌈/⌉ 125 then some (.notEnoughSpace (contents.length ⌈/⌉ 125) 2)
      else none := by
    intro contents
    simp only [refusal, hname, hsize, hfree]
    rw [if_neg hnew, if_neg hnotFull]
  have hlong := hreasons (Bytes.zeros 251)
  have hshort := hreasons (Bytes.zeros 250)
  rw [Bytes.length_zeros] at hlong hshort
  obtain ⟨hsound, hidle⟩ := hmade.sound
  obtain ⟨hrefused, _⟩ :=
    writeFile_decided hsound hidle hmount hguarded "A" .normal (Bytes.zeros 251)
  obtain ⟨_, hwritten, hlisted, _⟩ :=
    writeFile_decided hsound hidle hmount hguarded "A" .normal (Bytes.zeros 250)
  obtain ⟨e, u, hok⟩ := hwritten (hshort.trans (if_neg (by decide)))
  obtain ⟨hget, hlength⟩ := hlisted e u hok
  rw [Bytes.length_zeros] at hlength
  exact ⟨v, e, u, hmade, hmount, hguarded, hrefused _ (hlong.trans (if_pos (by decide))), hok, hget,
    hlength⟩

end AtariDisk.Volume
