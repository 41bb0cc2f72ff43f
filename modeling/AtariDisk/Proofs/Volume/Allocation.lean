import AtariDisk.Proofs.Volume.Operations
import Mathlib.Data.List.Perm.Subperm

/-!
# Which sectors new files are put on

New files go to the lowest free sectors, and the map on the disk alone says which sectors are free:
nothing keeps boot sectors, map and directory from being given out if their bits are set. The main
result says exactly when that never happens. The bits have to be clear when the disk is mounted, and
no file may ever be deleted whose chain runs through a reserved sector.
-/

namespace AtariDisk.Volume

open Image SectorMap

/-- No reserved sector is marked as free. -/
def Guarded (v : Volume) : Prop :=
  ∀ s, isReserved s = true → v.map.isFree s = false

/-- Writing the file succeeds, and puts a part of it on a reserved sector. -/
def Clobbers (v : Volume) (typed : String) (kind : FileKind) (contents : Bytes) : Prop :=
  ∃ e u p, v.writeFile typed kind contents = .ok e u ∧ v.plan typed kind contents = .ok p ∧
    ∃ n ∈ p.chain.numbers, isReserved n = true

/-- Deleting the file succeeds, and gives a reserved sector free. -/
def Exposes (v : Volume) (typed : String) : Prop :=
  ∃ u e chain, v.deleteFile typed = .ok () u ∧ v.directory.find typed = .ok e ∧
    v.image.follow e = .ok chain ∧ ∃ n ∈ chain.numbers, isReserved n = true

/-- All slots belong to files. -/
def Full (v : Volume) : Prop :=
  ∀ slot < Directory.capacity, v.directory.isTaken slot = true

/-- There is no slot for a new file, and none of the files can be deleted. -/
def Stuck (v : Volume) : Prop :=
  v.Full ∧ ∀ typed u, v.deleteFile typed ≠ .ok () u

theorem lt_of_isReserved {s : Nat} (hs : isReserved s = true) : 1 ≤ s ∧ s ≤ 368 := by
  rw [isReserved_eq_true_iff] at hs
  omega

theorem Loaded.guarded_sketched {v : Volume} (hloaded : v.Loaded) {parts : List (Nat × Bytes)}
    (himage : v.image = sketched parts)
    (hkept : ∀ s ≤ 368, isReserved s = true → sketchFree parts s = false) : v.Guarded := by
  intro s hs
  have hrange := lt_of_isReserved hs
  rw [hloaded.isFree_sketched himage (by omega), hkept s hrange.2 hs]

/-! ### Steps -/

section Step

variable {v u : Volume} (hloaded : v.Loaded)

include hloaded

/-- A new file leaves the bits of the reserved sectors clear. -/
theorem Loaded.guarded_of_write {typed : String} {kind : FileKind} {contents : Bytes} {e : Entry}
    (hok : v.writeFile typed kind contents = .ok e u) (hguarded : v.Guarded) : u.Guarded := by
  obtain ⟨p, hplan, _, hrewritten⟩ := hloaded.writeFile_inv hok
  obtain ⟨name, slot, _, _, _, _, rfl⟩ := planFile_eq_ok_iff.1 hplan
  intro s hs
  rw [(hrewritten.loaded.map_of_packed hrewritten.packed).1 s, newPlan, isFree_mark]
  split
  · rfl
  · exact hguarded s hs

theorem Loaded.clear_of_guarded {typed : String} {kind : FileKind} {contents : Bytes} {p : Plan}
    (hplan : v.plan typed kind contents = .ok p) (hguarded : v.Guarded) {n : Nat}
    (hn : n ∈ p.chain.numbers) : isReserved n = false := by
  have hfree := (hloaded.mem_numbers_plan hplan hn).2.2.1
  by_contra hnot
  rw [Bool.not_eq_false] at hnot
  rw [hguarded n hnot] at hfree
  exact Bool.false_ne_true hfree

theorem Loaded.not_clobbers_of_guarded (hguarded : v.Guarded) (typed : String) (kind : FileKind)
    (contents : Bytes) : ¬v.Clobbers typed kind contents := by
  rintro ⟨e, u, p, _, hplan, n, hn, hreserved⟩
  rw [hloaded.clear_of_guarded hplan hguarded hn] at hreserved
  exact Bool.false_ne_true hreserved

/-- Deleting a file leaves the bits of the reserved sectors clear exactly if they were clear and its
chain runs through none of these sectors. -/
theorem Loaded.guarded_of_delete {typed : String} {e : Entry} {chain : Chain}
    (hok : v.deleteFile typed = .ok () u) (hfind : v.directory.find typed = .ok e)
    (hfollow : v.image.follow e = .ok chain) :
    u.Guarded ↔ v.Guarded ∧ ∀ n ∈ chain.numbers, isReserved n = false := by
  have hbits := hloaded.isFree_of_delete hok hfind hfollow
  constructor
  · intro hguarded
    refine ⟨fun s hs => ?_, fun n hn => ?_⟩
    · have hbit := hbits s
      rw [hguarded s hs] at hbit
      split at hbit
      · simp at hbit
      · exact hbit.symm
    · by_contra hnot
      have hreserved : isReserved n = true := by simpa using hnot
      have hbit := hbits n
      have hbound := (lt_of_isReserved hreserved).2
      rw [hguarded n hreserved, if_pos ⟨hn, by omega⟩] at hbit
      exact Bool.false_ne_true hbit
  · rintro ⟨hguarded, hclear⟩ s hs
    rw [hbits, if_neg]
    · exact hguarded s hs
    · rintro ⟨hmem, _⟩
      rw [hclear s hmem] at hs
      exact Bool.false_ne_true hs

/-- Deleting a file leaves a slot for a new one. -/
theorem Loaded.not_full_of_delete {typed : String} (hok : v.deleteFile typed = .ok () u) :
    ¬u.Full := by
  obtain ⟨e, chain, hfind, hunlocked, hfollow⟩ := deleteFile_inv hok
  obtain ⟨w, hw, hrewritten, hentries, _⟩ := hloaded.deleteFile_of_follow hfind hunlocked hfollow
  rw [hok, EStateM.Result.ok.injEq] at hw
  obtain ⟨_, rfl⟩ := hw
  have hmem := (List.mem_filter.1 (Directory.mem_files_of_find hfind)).1
  intro hfull
  have hvacant := (hloaded.slots_of_delete hrewritten.loaded hmem hentries).2.1
  rw [hfull e.slot (hloaded.slot_lt hmem)] at hvacant
  exact Bool.false_ne_true hvacant.symm

end Step

/-! ### A file that is put on a reserved sector -/

/-- More names than a directory has slots. -/
def spareName (i : Nat) : String :=
  String.ofList [Char.ofNat (65 + i / 26), Char.ofNat (65 + i % 26)]

theorem parse_spareName : ∀ i < 65, FileName.parse (spareName i) = .ok ⟨spareName i, ""⟩ := by
  decide +kernel

/-- Which of the names it is. -/
def spareIndex (name : FileName) : Nat :=
  match name.base.toList with
  | [a, b] => (a.toNat - 65) * 26 + (b.toNat - 65)
  | _ => 0

theorem spareIndex_spareName : ∀ i < 65, spareIndex ⟨spareName i, ""⟩ = i := by
  decide +kernel

theorem spareNames_nodup : ((List.range 65).map fun i => (⟨spareName i, ""⟩ : FileName)).Nodup := by
  apply List.Nodup.of_map spareIndex
  have hindex : ∀ i ∈ List.range 65, (spareIndex ∘ fun i => ⟨spareName i, ""⟩) i = id i := by
    intro i hi
    exact spareIndex_spareName i (List.mem_range.1 hi)
  rw [List.map_map, List.map_congr_left hindex, List.map_id]
  exact List.nodup_range

theorem Loaded.length_files_le {v : Volume} (hloaded : v.Loaded) :
    v.directory.files.length ≤ 64 := by
  rw [Directory.files_eq fun e hmem => hloaded.slot_lt hmem]
  exact (List.length_filterMap_le _ _).trans_eq List.length_range

/-- There is always a name that no file has. -/
theorem Loaded.exists_new_name {v : Volume} (hloaded : v.Loaded) :
    ∃ typed name, FileName.parse typed = .ok name ∧ ∀ f ∈ v.directory.files, f.name ≠ name := by
  by_contra hnone
  have hsubset : ((List.range 65).map fun i => (⟨spareName i, ""⟩ : FileName)) ⊆
      v.directory.files.map (·.name) := by
    intro name hname
    obtain ⟨i, hi, rfl⟩ := List.mem_map.1 hname
    by_contra hnew
    refine hnone ⟨_, _, parse_spareName i (List.mem_range.1 hi), fun f hf hsame => hnew ?_⟩
    exact hsame ▸ List.mem_map_of_mem hf
  have hmany := (spareNames_nodup.subperm hsubset).length_le
  have hfew := hloaded.length_files_le
  simp only [List.length_map, List.length_range] at hmany
  omega

section Clobber

variable {v : Volume} (hloaded : v.Loaded) {typed : String}

include hloaded

theorem Loaded.clobbers_of_plan {kind : FileKind} {contents : Bytes} {p : Plan}
    (hplan : v.plan typed kind contents = .ok p)
    (hpayload : ∀ s ∈ p.chain,
      s.payload.length + DataSector.linkSize ≤ (v.image.header.place s.number).length)
    {n : Nat} (hn : n ∈ p.chain.numbers) (hreserved : isReserved n = true) :
    v.Clobbers typed kind contents := by
  obtain ⟨u, _, hok, _⟩ := hloaded.storeFile_of_plan hplan hpayload
  exact ⟨p.entry, u, p, hok, hplan, n, hn, hreserved⟩

/-- A single byte is put on a boot sector if the lowest free sector is one. -/
theorem Loaded.clobbers_boot {name : FileName} {slot : Nat} (kind : FileKind)
    (hname : FileName.parse typed = .ok name) (hnew : ∀ f ∈ v.directory.files, f.name ≠ name)
    (hslot : v.directory.freeSlot = .ok slot) {n : Nat}
    (hlowest : v.map.freeSectors.head? = some n) (hboot : n ≤ 3) (b : UInt8) :
    v.Clobbers typed kind [b] := by
  obtain ⟨rest, hfree⟩ := List.head?_eq_some_iff.1 hlowest
  have hfirst : 1 ≤ n := (mem_freeSectors.1 (hfree ▸ List.mem_cons_self)).1
  have hneeded : Chain.sectorsNeeded v.payload [b].length = 1 := by
    rcases hloaded.sectorSize_cases with hsingle | hdouble
    · rw [payload, hsingle]
      simp [Chain.sectorsNeeded, Chain.effective, DataSector.linkSize]
    · rw [payload, hdouble]
      simp [Chain.sectorsNeeded, Chain.effective, DataSector.linkSize]
  have henough : Chain.sectorsNeeded v.payload [b].length ≤ v.map.freeCount := by
    rw [hneeded, freeCount, hfree]
    simp
  have hplan := plan_of_room kind hname hnew hslot henough
  refine hloaded.clobbers_of_plan hplan ?_ (n := n) ?_ ?_
  · intro s hs
    obtain ⟨_, _, _, piece, hpiece, hpayload⟩ := Chain.mem_assign hs
    have hshort := Chain.length_payload_le_of_mem_split hpiece
    have hlength := hloaded.roomy.length_place_cases s.number
    rw [List.length_singleton] at hshort
    rw [hpayload]
    simp only [DataSector.linkSize]
    omega
  · rw [newPlan, numbers_newChain henough, hneeded, hfree]
    simp
  · exact isReserved_eq_true_iff.2 (.inl ⟨hfirst, hboot⟩)

/-- Filling the disk puts a part of a file on each free sector. -/
theorem Loaded.clobbers_system {name : FileName} {slot : Nat} (kind : FileKind)
    (hname : FileName.parse typed = .ok name) (hnew : ∀ f ∈ v.directory.files, f.name ≠ name)
    (hslot : v.directory.freeSlot = .ok slot) (hbehind : ∀ s ∈ v.map.freeSectors, 3 < s) {n : Nat}
    (hn : n ∈ v.map.freeSectors) (hreserved : isReserved n = true) :
    ∃ contents, v.Clobbers typed kind contents := by
  have hpositive := hloaded.payload_pos
  have hneeded : Chain.sectorsNeeded v.payload (Bytes.zeros (v.map.freeCount * v.payload)).length =
      v.map.freeCount := by
    rw [Bytes.length_zeros, Chain.sectorsNeeded, Chain.effective, Nat.max_eq_left hpositive,
      Nat.mul_div_cancel _ hpositive, Nat.mul_mod_left]
    rfl
  have henough := Nat.le_of_eq hneeded
  have hplan := plan_of_room kind hname hnew hslot henough
  refine ⟨_, hloaded.clobbers_of_plan hplan ?_ (n := n) ?_ hreserved⟩
  · intro s hs
    obtain ⟨_, hnumber, _⟩ := Chain.mem_assign hs
    rw [hloaded.roomy.length_place (hbehind _ (List.mem_of_mem_take hnumber))]
    exact hloaded.payload_of_mem_plan hplan hs
  · rw [newPlan, numbers_newChain henough, hneeded, freeCount, List.take_length]
    exact hn

/-- A volume with a slot for a file and with a reserved sector marked as free puts some file on a
reserved sector. -/
theorem Loaded.exists_clobbers (hnotFull : ¬v.Full) (hnotGuarded : ¬v.Guarded) :
    ∃ typed kind contents, v.Clobbers typed kind contents := by
  obtain ⟨typed, name, hname, hnew⟩ := hloaded.exists_new_name
  obtain ⟨slot, hslot⟩ : ∃ slot, v.directory.freeSlot = .ok slot := by
    refine Directory.exists_freeSlot ?_
    unfold Full at hnotFull
    push Not at hnotFull
    simpa using hnotFull
  obtain ⟨s, hs, hsFree⟩ : ∃ s, isReserved s = true ∧ v.map.isFree s = true := by
    unfold Guarded at hnotGuarded
    push Not at hnotGuarded
    simpa using hnotGuarded
  have hmem : s ∈ v.map.freeSectors := by
    have hrange := lt_of_isReserved hs
    have hlimit := hloaded.limit_gt
    exact mem_freeSectors.2 ⟨hrange.1, by omega, hsFree⟩
  by_cases hbehind : ∀ n ∈ v.map.freeSectors, 3 < n
  · obtain ⟨contents, hclobbers⟩ :=
      hloaded.clobbers_system .normal hname hnew hslot hbehind hmem hs
    exact ⟨typed, .normal, contents, hclobbers⟩
  · push Not at hbehind
    obtain ⟨n, hn, hboot⟩ := hbehind
    obtain ⟨first, rest, hfree⟩ := List.exists_cons_of_ne_nil (List.ne_nil_of_mem hn)
    -- The free sectors ascend, so that the lowest is a boot sector as well.
    have hlowest : first ≤ n := by
      have hordered := v.map.freeSectors_ordered
      rw [hfree] at hn hordered
      rcases List.mem_cons.1 hn with rfl | hlater
      · exact Nat.le_refl _
      · exact Nat.le_of_lt ((List.pairwise_cons.1 hordered).1 n hlater)
    exact ⟨typed, .normal, [0], hloaded.clobbers_boot .normal hname hnew hslot
      (by rw [hfree]; rfl) (by omega) 0⟩

end Clobber

/-! ### Runs -/

/-- No run of operations ever puts a file on a reserved sector. -/
def KeepsClear (v : Volume) : Prop :=
  ∀ actions typed kind contents, ¬(v.performAll actions).2.Clobbers typed kind contents

theorem KeepsClear.performAll {v : Volume} (hclear : v.KeepsClear) (actions : List Action) :
    (v.performAll actions).2.KeepsClear := by
  induction actions generalizing v with
  | nil => exact hclear
  | cons action rest ih =>
    rw [performAll_cons]
    refine ih fun later typed kind contents => ?_
    rw [← performAll_cons]
    exact hclear (action :: later) typed kind contents

section Run

variable {v : Volume} (hloaded : v.Loaded)

include hloaded

theorem Loaded.writeFile_ne_ok_of_full (hfull : v.Full) (typed : String) (kind : FileKind)
    (contents : Bytes) (e : Entry) (u : Volume) : v.writeFile typed kind contents ≠ .ok e u := by
  intro hok
  obtain ⟨p, hplan, _⟩ := hloaded.writeFile_inv hok
  obtain ⟨name, slot, _, _, hslot, _⟩ := planFile_eq_ok_iff.1 hplan
  obtain ⟨hlt, hfree, _⟩ := Directory.freeSlot_eq_ok_iff.1 hslot
  rw [hfull slot hlt] at hfree
  exact Bool.false_ne_true hfree.symm

/-- A volume without slots and without files to delete stays as it is. -/
theorem Loaded.performAll_of_stuck (hstuck : v.Stuck) (actions : List Action) :
    (v.performAll actions).2 = v := by
  induction actions with
  | nil => rfl
  | cons action rest ih =>
    have hstep : (v.perform action).2 = v := by
      rcases hloaded.ready.perform_cases action with ⟨e, hfailed⟩ | ⟨u, hdone, _⟩
      · rw [hfailed]
      · cases action with
        | write typed kind contents =>
          obtain ⟨e, hwrite⟩ := writeFile_of_perform hdone
          exact absurd hwrite (hloaded.writeFile_ne_ok_of_full hstuck.1 typed kind contents e u)
        | delete typed => exact absurd (deleteFile_of_perform hdone) (hstuck.2 typed u)
    rw [performAll_cons, hstep]
    exact ih

/-- As long as no reserved sector is given free, their bits stay clear. -/
theorem Loaded.guarded_perform (hguarded : v.Guarded) (hexposes : ∀ typed, ¬v.Exposes typed)
    (action : Action) : (v.perform action).2.Guarded := by
  rcases hloaded.ready.perform_cases action with ⟨e, hfailed⟩ | ⟨u, hdone, _⟩
  · rw [hfailed]
    exact hguarded
  · rw [hdone]
    cases action with
    | write typed kind contents =>
      obtain ⟨e, hwrite⟩ := writeFile_of_perform hdone
      exact hloaded.guarded_of_write hwrite hguarded
    | delete typed =>
      have hdelete := deleteFile_of_perform hdone
      obtain ⟨e, chain, hfind, _, hfollow⟩ := deleteFile_inv hdelete
      refine (hloaded.guarded_of_delete hdelete hfind hfollow).2 ⟨hguarded, fun n hn => ?_⟩
      by_contra hreserved
      exact hexposes typed ⟨u, e, chain, hdelete, hfind, hfollow, n, hn, by simpa using hreserved⟩

theorem Loaded.guarded_performAll (hguarded : v.Guarded)
    (hexposes : ∀ actions typed, ¬(v.performAll actions).2.Exposes typed) (actions : List Action) :
    (v.performAll actions).2.Guarded := by
  induction actions generalizing v with
  | nil => exact hguarded
  | cons action rest ih =>
    rw [performAll_cons]
    refine ih (hloaded.perform action) (hloaded.guarded_perform hguarded (hexposes []) action) ?_
    intro later typed
    rw [← performAll_cons]
    exact hexposes (action :: later) typed

/-- Deleting a file makes room for another, so that from then on the bits of the reserved sectors
have to be clear. -/
theorem Loaded.guarded_of_keepsClear (hclear : v.KeepsClear) {typed : String} {u : Volume}
    (hdelete : v.deleteFile typed = .ok () u) : u.Guarded := by
  have hu := hloaded.ready.deleteFile_ok hdelete
  by_contra hnotGuarded
  obtain ⟨again, kind, contents, hclobbers⟩ :=
    hu.exists_clobbers (hloaded.not_full_of_delete hdelete) hnotGuarded
  have hafter : (v.performAll [.delete typed]).2 = u := by
    rw [performAll_cons, Volume.perform, hdelete]
    rfl
  refine hclear [.delete typed] again kind contents ?_
  rw [hafter]
  exact hclobbers

theorem Loaded.not_exposes_of_keepsClear (hclear : v.KeepsClear) (typed : String) :
    ¬v.Exposes typed := by
  rintro ⟨u, e, chain, hdelete, hfind, hfollow, n, hn, hreserved⟩
  have hguarded := hloaded.guarded_of_keepsClear hclear hdelete
  have hnot := ((hloaded.guarded_of_delete hdelete hfind hfollow).1 hguarded).2 n hn
  rw [hreserved] at hnot
  exact Bool.false_ne_true hnot.symm

end Run

/-- **When files keep clear of the reserved sectors.** On a mounted disk, no run of operations ever
puts a part of a file on a boot sector, on the map or on the directory exactly if nothing can change
any more, or the map marks none of these sectors as free and no run ever deletes a file whose chain
runs through one of them. -/
theorem keepsClear_iff {image : Image} (hmade : image.Made) {v : Volume}
    (hmount : mount image = .ok v) :
    v.KeepsClear ↔
      v.Stuck ∨ v.Guarded ∧ ∀ actions typed, ¬(v.performAll actions).2.Exposes typed := by
  obtain ⟨hsound, hidle⟩ := hmade.sound
  have hloaded := loaded_of_mount hsound hidle hmount
  constructor
  · intro hclear
    by_cases hguarded : v.Guarded
    · refine .inr ⟨hguarded, fun actions typed => ?_⟩
      exact (hloaded.performAll actions).not_exposes_of_keepsClear (hclear.performAll actions) typed
    · refine .inl ⟨?_, fun typed u hdelete => ?_⟩
      · by_contra hnotFull
        obtain ⟨typed, kind, contents, hclobbers⟩ := hloaded.exists_clobbers hnotFull hguarded
        exact hclear [] typed kind contents hclobbers
      · obtain ⟨e, chain, hfind, _, hfollow⟩ := deleteFile_inv hdelete
        have hafter := hloaded.guarded_of_keepsClear hclear hdelete
        exact hguarded ((hloaded.guarded_of_delete hdelete hfind hfollow).1 hafter).1
  · rintro (hstuck | ⟨hguarded, hexposes⟩) actions typed kind contents
    · rw [hloaded.performAll_of_stuck hstuck]
      rintro ⟨e, u, _, hok, _⟩
      exact hloaded.writeFile_ne_ok_of_full hstuck.1 typed kind contents e u hok
    · exact (hloaded.performAll actions).not_clobbers_of_guarded
        (hloaded.guarded_performAll hguarded hexposes actions) typed kind contents

/-! ### A disk that gives a boot sector away -/

/-- The start of a map on which sector 1 is the only free one. -/
def exposedMap : Bytes :=
  [2, 0, 0, 0, 0, 0, 0, 0, 0, 0, 0x40]

/-- A disk without files that has this map. -/
def exposedDisk : Bytes :=
  Bytes.zeros 45952 ++ (exposedMap ++ Bytes.zeros 46197)

theorem ofBuffer_exposedDisk :
    Image.ofBuffer exposedDisk.toArray = .ok (Image.plain exposedDisk.toArray) := by
  refine Image.ofBuffer_plain ?_ ?_
  · have hmap : exposedMap.length = 11 := rfl
    rw [List.size_toArray, exposedDisk, List.length_append, List.length_append, hmap,
      Bytes.length_zeros, Bytes.length_zeros]
  · have hlead : exposedDisk.take 16 = Bytes.zeros 16 := by
      rw [exposedDisk, List.take_append_of_le_length (by simp), Bytes.zeros, List.take_replicate]
      rfl
    rw [Buffer.slice_toArray, List.drop_zero, hlead]
    decide

theorem sector_exposedDisk :
    (Image.plain exposedDisk.toArray).sector home = exposedMap ++ Bytes.zeros 117 := by
  rw [sector_plain, exposedDisk, show (home - 1) * 128 = 45952 from rfl,
    List.drop_left' (Bytes.length_zeros 45952), List.take_append, Bytes.zeros, List.take_replicate]
  rfl

theorem entryAt_exposedDisk (slot : Nat) :
    (Image.plain exposedDisk.toArray).entryAt slot = none := by
  unfold entryAt
  split
  · rename_i hslot
    simp only [Directory.capacity] at hslot
    have hbehind : (Directory.home + slot / 8 - 1) * 128 =
        45952 + (11 + (117 + slot / 8 * 128)) := by
      simp only [Directory.home]
      omega
    have hmap : exposedMap.length = 11 := rfl
    have hrecord : (Image.plain exposedDisk.toArray).record slot = Entry.unusedRecord := by
      have htail : exposedDisk.drop (45952 + (11 + (117 + slot / 8 * 128))) =
          (Bytes.zeros 46197).drop (117 + slot / 8 * 128) := by
        rw [exposedDisk, ← List.drop_drop, List.drop_left' (Bytes.length_zeros 45952),
          ← List.drop_drop, List.drop_left' hmap]
      calc (Image.plain exposedDisk.toArray).record slot
          = ((((Bytes.zeros 46197).drop (117 + slot / 8 * 128)).take 128).drop
              (16 * (slot % 8))).take 16 := by rw [Image.record, sector_plain, hbehind, htail]
        _ = Entry.unusedRecord := by
          rw [Entry.unusedRecord, Bytes.zeros, List.drop_replicate, List.take_replicate,
            List.drop_replicate, List.take_replicate, Bytes.zeros, Entry.size]
          congr 1
          omega
    rw [hrecord, Entry.parse_unusedRecord]
  · rfl

/-- What is known of the disk once it is mounted. -/
theorem mount_exposedDisk :
    ∃ v, mount (Image.plain exposedDisk.toArray) = .ok v ∧ v.Loaded ∧
      v.image = Image.plain exposedDisk.toArray ∧ v.directory.files = [] ∧
      v.directory.freeSlot = .ok 0 ∧ ∃ rest, v.map.freeSectors = 1 :: rest := by
  have hroomy := Image.roomy_plain ofBuffer_exposedDisk
  obtain ⟨v, hload, _⟩ := load_ok hroomy
  obtain ⟨hloaded, himage⟩ := Loaded.of_load hroomy rfl hload
  have hget : ∀ slot, v.directory.get? slot = none := by
    intro slot
    rw [hloaded.reads.get?_directory, himage, entryAt_exposedDisk]
    rfl
  refine ⟨v, ?_, hloaded, himage, ?_, ?_, ?_⟩
  · refine (mount_eq_ok_iff hroomy.toSound).2 ⟨hroomy, ?_, hload⟩
    rw [code_of_load hroomy hload, sector_exposedDisk]
    rfl
  · rw [List.eq_nil_iff_forall_not_mem]
    intro e he
    have hsome := (Directory.mem_files.1 he).1
    rw [hget] at hsome
    simp at hsome
  · refine Directory.freeSlot_eq_ok_iff.2 ⟨by decide, ?_, by simp⟩
    rw [Directory.isTaken, hget]
    rfl
  · have hlimit : v.map.limit = 720 := by
      rw [hloaded.reads.limit_map, himage]
      rfl
    have hfree : v.map.isFree 1 = true := by
      obtain ⟨map, hunpack, _, _, hbits⟩ := unpack_of_le
        (show 100 ≤ ((Image.plain exposedDisk.toArray).sector home).length by
          rw [sector_exposedDisk]
          simp [exposedMap])
      rw [hloaded.reads.isFree_map map (himage ▸ hunpack), hbits 1 (by decide), sector_exposedDisk]
      decide
    rw [freeSectors, hlimit, show List.range' 1 (720 - 1) = 1 :: List.range' 2 718 from rfl,
      List.filter_cons_of_pos hfree]
    exact ⟨_, rfl⟩

theorem clobbers_exposedDisk {v : Volume}
    (hmount : mount (Image.plain exposedDisk.toArray) = .ok v) :
    v.Clobbers "A" .normal [0x41] := by
  obtain ⟨again, hagain, hloaded, _, hfiles, hslot, rest, hfree⟩ := mount_exposedDisk
  rw [hmount, Except.ok.injEq] at hagain
  subst hagain
  have hname : FileName.parse "A" = .ok ⟨"A", ""⟩ := by decide +kernel
  exact hloaded.clobbers_boot .normal hname (by simp [hfiles]) hslot (by rw [hfree]; rfl)
    (by decide) 0x41

/-- The plan of a file of one byte on the disk puts the byte on sector 1. -/
theorem plan_exposedDisk {v : Volume} (hmount : mount (Image.plain exposedDisk.toArray) = .ok v) :
    ∃ p, v.plan "A" .normal [0x41] = .ok p ∧ p.chain = [⟨1, 0, 0, [0x41]⟩] ∧
      p.entry.firstSector = 1 ∧ p.entry.sectorCount = 1 := by
  obtain ⟨again, hagain, hloaded, himage, hfiles, hslot, rest, hfree⟩ := mount_exposedDisk
  rw [hmount, Except.ok.injEq] at hagain
  subst hagain
  have hname : FileName.parse "A" = .ok ⟨"A", ""⟩ := by decide +kernel
  have hpayload : v.payload = 125 := by
    rw [payload, himage]
    rfl
  have hneeded : Chain.sectorsNeeded v.payload [(0x41 : UInt8)].length = 1 := by
    rw [hpayload]
    decide
  have henough : Chain.sectorsNeeded v.payload [(0x41 : UInt8)].length ≤ v.map.freeCount := by
    rw [hneeded, freeCount, hfree]
    simp
  have hchain : newChain v.map v.payload 0 [0x41] = [⟨1, 0, 0, [0x41]⟩] := by
    rw [newChain, hneeded, hfree, hpayload, List.take_succ_cons, List.take_zero]
    decide +kernel
  refine ⟨_, plan_of_room .normal hname (by simp [hfiles]) hslot henough, hchain, ?_, ?_⟩
  · change Chain.firstSector (newChain ..) = 1
    rw [hchain]
    rfl
  · change List.length (newChain ..) = 1
    rw [hchain]
    rfl

/-- Writing a file of one byte to the disk succeeds and puts the byte on boot sector 1. -/
theorem exposedDisk_clobbers :
    ∃ image v e u, Image.ofBuffer exposedDisk.toArray = .ok image ∧ mount image = .ok v ∧
      v.writeFile "A" .normal [0x41] = .ok e u ∧ e.firstSector = 1 ∧ e.sectorCount = 1 ∧
      (u.image.sector 1).head? = some 0x41 ∧ v.Clobbers "A" .normal [0x41] ∧ ¬v.KeepsClear := by
  obtain ⟨v, hmount, hloaded, himage, _⟩ := mount_exposedDisk
  obtain ⟨p, hplan, hchain, hfirst, hcount⟩ := plan_exposedDisk hmount
  have hboot := clobbers_exposedDisk hmount
  have hplace : (v.image.header.place 1).length = 128 := by
    rw [himage]
    rfl
  have hpayload : ∀ s ∈ p.chain,
      s.payload.length + DataSector.linkSize ≤ (v.image.header.place s.number).length := by
    rw [hchain]
    simp [hplace, DataSector.linkSize]
  have hlinkable : ∀ s ∈ p.chain, v.image.Linkable s.number := by
    rw [hchain]
    simpa using hloaded.roomy.linkable_of_le (show 1 ≤ 1 by decide) (by decide)
  have hfitting : v.image.opened.Fitting (chainWrites v.image p.chain) :=
    fitting_chainWrites hlinkable fun s hs => fits_of_mem_plan hplan hs (hpayload s hs)
  obtain ⟨u, after, hok, _, hu, hstored⟩ := hloaded.storeFile_of_plan hplan hpayload
  refine ⟨_, v, _, u, ofBuffer_exposedDisk, hmount, hok, hfirst, hcount, ?_, hboot, ?_⟩
  · have hwrite : (1, DataSector.bytes ⟨1, 0, 0, [0x41]⟩ (v.image.header.place 1).length) ∈
        chainWrites v.image p.chain := by
      rw [hchain, chainWrites, List.map_singleton, List.mem_singleton]
    have hsector := hloaded.roomy.opened.toSound.sector_putAll_of_mem hfitting
      (by rw [fst_chainWrites, hchain]; simp [Chain.numbers]) hwrite
    rw [hu, sector_closed, hstored.others 1 (by decide) (by decide), hsector]
    rfl
  · intro hclear
    exact hclear [] "A" .normal [0x41] hboot

/-- The disk is no accident of the condition: nothing is stuck on it, and its map is the cause. -/
theorem exposedDisk_not_guarded :
    ∃ image v, image.Made ∧ mount image = .ok v ∧
      ¬(v.Stuck ∨ v.Guarded ∧ ∀ actions typed, ¬(v.performAll actions).2.Exposes typed) := by
  obtain ⟨v, hmount, _⟩ := mount_exposedDisk
  have hmade : (Image.plain exposedDisk.toArray).Made := .inl ⟨_, ofBuffer_exposedDisk⟩
  refine ⟨_, v, hmade, hmount, fun hholds => ?_⟩
  exact (keepsClear_iff hmade hmount).2 hholds [] "A" .normal [0x41] (clobbers_exposedDisk hmount)

end AtariDisk.Volume
