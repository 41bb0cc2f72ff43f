import AtariDisk.Proofs.Volume.Space

/-!
# A volume is a store for files

Step by step, a volume that was formatted answers as the ideal store does, and what it lists and
reads is what the store holds.
-/

namespace AtariDisk.Volume

open Image

/-- What the volume is to its users, if its files lie as `layout` says. -/
def storeOf (v : Volume) (layout : Layout) : FileStore :=
  ⟨v.payload, (SectorMap.usableSectors v.map.limit).length, fun slot =>
    (layout slot).map Placed.file⟩

theorem table_storeOf {v : Volume} {layout : Layout} {slot : Fin Directory.capacity} {p : Placed}
    (hp : layout slot = some p) : (v.storeOf layout).table slot = some p.file := by
  change (layout slot).map Placed.file = _
  rw [hp]
  rfl

theorem storeOf_update {v u : Volume} (hv : v.Loaded) (hu : u.Loaded)
    (hheader : u.image.header = v.image.header) (layout : Layout) (slot : Fin Directory.capacity)
    (p : Option Placed) :
    u.storeOf (Function.update layout slot p) =
      (v.storeOf layout).put slot (p.map Placed.file) := by
  have htable : (fun i => (Function.update layout slot p i).map Placed.file) =
      Function.update (fun i => (layout i).map Placed.file) slot (p.map Placed.file) := by
    funext i
    by_cases hi : i = slot <;> simp [hi]
  unfold storeOf FileStore.put
  rw [hv.limit_congr hu hheader, payload_congr hheader, htable]

section Lays

variable {v : Volume} {layout : Layout} (hlays : v.Lays layout)

include hlays

/-! ### Counting -/

theorem Lays.sectorsFor_eq (contents : Bytes) :
    (v.storeOf layout).sectorsFor contents =
      Chain.sectorsNeeded v.payload contents.length :=
  (Chain.sectorsNeeded_eq_ceilDiv hlays.loaded.payload_pos _).symm

theorem Lays.used_eq : (v.storeOf layout).used = ∑ slot, (layout.order slot).length := by
  unfold FileStore.used
  apply Finset.sum_congr rfl
  intro slot _
  cases hp : layout slot with
  | none => simp [storeOf, Layout.order, hp]
  | some p =>
    rw [table_storeOf hp, Layout.order_of_some hp, (hlays.holds slot p hp).sized]
    exact hlays.sectorsFor_eq p.file.contents

theorem Lays.freeCount_add_used :
    v.map.freeCount + (v.storeOf layout).used =
      (SectorMap.usableSectors v.map.limit).length := by
  rw [hlays.used_eq]
  exact hlays.leaves.freeCount_add hlays.apart

theorem Lays.free_eq : (v.storeOf layout).free = v.map.freeCount := by
  have hsum := hlays.freeCount_add_used
  change (SectorMap.usableSectors v.map.limit).length - (v.storeOf layout).used = _
  omega

/-! ### Names and slots -/

theorem Lays.hasName_eq (name : FileName) :
    (v.storeOf layout).hasName name = v.directory.files.any (·.name = name) := by
  rw [Bool.eq_iff_iff, List.any_eq_true, FileStore.hasName, decide_eq_true_eq]
  constructor
  · rintro ⟨slot, hslot⟩
    obtain ⟨f, hf, hname⟩ := Option.any_eq_true _ _ |>.1 hslot
    obtain ⟨p, hp, rfl⟩ := Option.map_eq_some_iff.1 hf
    exact ⟨p.listed slot, hlays.mem_files.2 ⟨slot, p, hp, rfl⟩, hname⟩
  · rintro ⟨e, he, hname⟩
    obtain ⟨slot, p, hp, rfl⟩ := hlays.mem_files.1 he
    refine ⟨slot, ?_⟩
    rw [table_storeOf hp]
    exact hname

theorem Lays.freeSlot_eq :
    v.directory.freeSlot = (v.storeOf layout).emptySlot >>= fun slot => .ok slot.val := by
  have hisNone : ∀ slot, ((v.storeOf layout).table slot).isNone = !v.directory.isTaken slot := by
    intro slot
    rw [hlays.isTaken_eq]
    cases hp : layout slot <;> simp [storeOf, hp]
  unfold FileStore.emptySlot
  cases hfind : Fin.find? fun slot => ((v.storeOf layout).table slot).isNone with
  | some slot =>
    obtain ⟨hempty, hbefore⟩ := Fin.find?_eq_some_iff.1 hfind
    refine Directory.freeSlot_eq_ok_iff.2 ⟨slot.isLt, ?_, fun j hj => ?_⟩
    · simpa [hisNone] using hempty
    · have htaken := hbefore ⟨j, Nat.lt_trans hj slot.isLt⟩ hj
      simpa [hisNone] using htaken
  | none =>
    refine Directory.freeSlot_eq_refuse fun j hj => ?_
    have htaken := Fin.find?_eq_none_iff.1 hfind ⟨j, hj⟩
    simpa [hisNone] using htaken

theorem Lays.find_of_named {typed : String} {slot : Fin Directory.capacity} {p : Placed}
    (hp : layout slot = some p) (hname : FileName.parse typed = .ok p.file.name) :
    v.directory.find typed = .ok (p.listed slot) := by
  refine Directory.find_of_unique hname (hlays.mem_files.2 ⟨slot, p, hp, rfl⟩) fun e he hsame => ?_
  obtain ⟨j, q, hq, rfl⟩ := hlays.mem_files.1 he
  have hslot := hlays.distinct j slot q p hq hp hsame
  subst hslot
  rw [hp, Option.some.injEq] at hq
  rw [hq]

theorem Lays.find_of_unnamed {typed : String}
    (hnone : ∀ slot p, layout slot = some p → FileName.parse typed ≠ .ok p.file.name) :
    v.directory.find typed = refuse (.fileNotFound typed) := by
  unfold Directory.find
  cases hname : FileName.parse typed with
  | ok name =>
    have hfound : v.directory.files.find? (·.name = name) = none := by
      refine List.find?_eq_none.2 fun e he hsame => ?_
      obtain ⟨slot, p, hp, rfl⟩ := hlays.mem_files.1 he
      have hsame : p.file.name = name := of_decide_eq_true hsame
      exact hnone slot p hp (hsame ▸ hname)
    simp only [hfound]
  | error e =>
    -- A file that is spelled like this could have been named like this.
    have hfound : v.directory.files.find?
        (·.fileName = String.ofList (FileName.normalize typed)) = none := by
      refine List.find?_eq_none.2 fun e he hsame => ?_
      obtain ⟨slot, p, hp, rfl⟩ := hlays.mem_files.1 he
      have hsame : p.file.name.text = String.ofList (FileName.normalize typed) :=
        of_decide_eq_true hsame
      exact hnone slot p hp
        (FileName.parse_of_normalize_eq (hlays.holds slot p hp).name hsame.symm)
    simp only [hfound]

theorem Lays.distinct_storeOf (i j : Fin Directory.capacity) (f g : StoredFile)
    (hf : (v.storeOf layout).table i = some f) (hg : (v.storeOf layout).table j = some g)
    (hname : f.name = g.name) : i = j := by
  obtain ⟨p, hp, rfl⟩ := Option.map_eq_some_iff.1 hf
  obtain ⟨q, hq, rfl⟩ := Option.map_eq_some_iff.1 hg
  exact hlays.distinct i j p q hp hq hname

/-! ### Operations -/

/-- The plan of a file is made as the store would choose. -/
theorem Lays.plan_eq (typed : String) (kind : FileKind) (contents : Bytes) :
    v.plan typed kind contents = (do
      let (name, slot) ← (v.storeOf layout).choose typed contents
      return newPlan v.map v.directory v.payload slot name kind contents) := by
  unfold plan FileStore.choose
  rw [planFile_eq, hlays.freeSlot_eq, hlays.free_eq, hlays.sectorsFor_eq]
  simp only [hlays.hasName_eq]
  cases FileName.parse typed with
  | error e => rfl
  | ok name =>
    simp only [Outcome.ok_bind]
    by_cases htaken : v.directory.files.any (·.name = name)
    · rw [if_pos htaken, if_pos htaken]
      rfl
    · rw [if_neg htaken, if_neg htaken]
      cases (v.storeOf layout).emptySlot with
      | error e => rfl
      | ok slot =>
        simp only [Outcome.ok_bind]
        by_cases hfew : v.map.freeCount < Chain.sectorsNeeded v.payload contents.length
        · rw [if_pos hfew, if_pos hfew]
          rfl
        · rw [if_neg hfew, if_neg hfew]
          rfl

/-- Writing to the volume is writing to the store. -/
theorem Lays.perform_write (typed : String) (kind : FileKind) (contents : Bytes) :
    ∃ next answer u, v.perform (.write typed kind contents) = (answer, u) ∧ u.Lays next ∧
      (v.storeOf layout).perform (.write typed kind contents) = (answer, u.storeOf next) := by
  have hplan := hlays.plan_eq typed kind contents
  cases hchoose : (v.storeOf layout).choose typed contents with
  | error e =>
    rw [hchoose, Outcome.error_bind] at hplan
    have hstore : (v.storeOf layout).attempt (.write typed kind contents) = .error e := by
      rw [FileStore.attempt, FileStore.write, hchoose, Outcome.error_bind]
    refine ⟨layout, some e, v, ?_, hlays, FileStore.perform_of_error hstore⟩
    rw [Volume.perform, hlays.loaded.writeFile_of_plan_error hplan]
    rfl
  | ok chosen =>
    obtain ⟨name, slot⟩ := chosen
    have hstore : (v.storeOf layout).attempt (.write typed kind contents) =
        .ok ((v.storeOf layout).put slot (some ⟨name, kind, contents⟩)) := by
      rw [FileStore.attempt, FileStore.write, hchoose]
      rfl
    obtain ⟨p, hp⟩ : ∃ p, p = newPlan v.map v.directory v.payload slot name kind contents :=
      ⟨_, rfl⟩
    have hplaced : (p.placed kind contents).file = ⟨name, kind, contents⟩ := by
      rw [hp]
      rfl
    have hentry : p.entry.slot = slot := by
      rw [hp]
      rfl
    have hready : v.plan typed kind contents = .ok p := by
      rw [hplan, hchoose, hp]
      rfl
    obtain ⟨u, again, hok, hheader, hslot, _, _, hnext⟩ := hlays.writeFile hready
    have hsame : again = slot := Fin.ext (hslot.trans hentry)
    rw [hsame] at hnext
    refine ⟨_, none, u, ?_, hnext, ?_⟩
    · rw [Volume.perform, hok]
      rfl
    · rw [FileStore.perform_of_ok hstore, storeOf_update hlays.loaded hnext.loaded hheader,
        Option.map_some, hplaced]

/-- Deleting from the volume is deleting from the store. -/
theorem Lays.perform_delete (typed : String) :
    ∃ next answer u, v.perform (.delete typed) = (answer, u) ∧ u.Lays next ∧
      (v.storeOf layout).perform (.delete typed) = (answer, u.storeOf next) := by
  by_cases hnamed : ∃ slot p, layout slot = some p ∧ FileName.parse typed = .ok p.file.name
  · obtain ⟨slot, p, hp, hname⟩ := hnamed
    have hfind := hlays.find_of_named hp hname
    have hfindStore := FileStore.find_of_named hlays.distinct_storeOf
      (table_storeOf hp) hname
    have hlocked : (p.listed slot).flags.isLocked = decide (p.file.kind = .locked) :=
      EntryFlags.isLocked_ofKind p.file.kind
    by_cases hkind : p.file.kind = .locked
    · have hstore : (v.storeOf layout).attempt (.delete typed) =
          .error (.refused (.fileLocked p.file.name.text)) := by
        rw [FileStore.attempt, FileStore.delete, hfindStore, Outcome.ok_bind]
        exact if_pos hkind
      refine ⟨layout, _, v, ?_, hlays, FileStore.perform_of_error hstore⟩
      rw [Volume.perform, deleteFile_of_locked hfind (by rw [hlocked, decide_eq_true hkind])]
      rfl
    · have hstore : (v.storeOf layout).attempt (.delete typed) =
          .ok ((v.storeOf layout).put slot none) := by
        rw [FileStore.attempt, FileStore.delete, hfindStore, Outcome.ok_bind]
        exact if_neg hkind
      obtain ⟨u, hok, hheader, hnext⟩ :=
        hlays.deleteFile hp hfind (by rw [hlocked, decide_eq_false hkind])
      refine ⟨_, none, u, ?_, hnext, ?_⟩
      · rw [Volume.perform, hok]
        rfl
      · rw [FileStore.perform_of_ok hstore, storeOf_update hlays.loaded hnext.loaded hheader]
        rfl
  · have hnone : ∀ slot p, layout slot = some p → FileName.parse typed ≠ .ok p.file.name :=
      fun slot p hp hname => hnamed ⟨slot, p, hp, hname⟩
    have hstore : (v.storeOf layout).attempt (.delete typed) =
        .error (.refused (.fileNotFound typed)) := by
      rw [FileStore.attempt, FileStore.delete, FileStore.find_of_unnamed]
      · rfl
      · intro slot f hf
        obtain ⟨p, hp, rfl⟩ := Option.map_eq_some_iff.1 hf
        exact hnone slot p hp
    refine ⟨layout, _, v, ?_, hlays, FileStore.perform_of_error hstore⟩
    rw [Volume.perform, deleteFile_of_not_found (hlays.find_of_unnamed hnone)]
    rfl

/-- One action on the volume is one action on the store. -/
theorem Lays.perform_store (action : Action) :
    ∃ next answer u, v.perform action = (answer, u) ∧ u.Lays next ∧
      (v.storeOf layout).perform action = (answer, u.storeOf next) := by
  cases action with
  | write typed kind contents => exact hlays.perform_write typed kind contents
  | delete typed => exact hlays.perform_delete typed

omit hlays in
/-- The store runs along with the volume. -/
theorem Lays.performAll_store {v : Volume} {layout : Layout} (hlays : v.Lays layout)
    (actions : List Action) :
    ∃ next answers u, v.performAll actions = (answers, u) ∧ u.Lays next ∧
      (v.storeOf layout).performAll actions = (answers, u.storeOf next) := by
  induction actions generalizing v layout with
  | nil => exact ⟨layout, [], v, rfl, hlays, rfl⟩
  | cons action rest ih =>
    obtain ⟨mid, answer, w, hvolume, hmid, hstore⟩ := hlays.perform_store action
    obtain ⟨next, answers, u, hrest, hnext, hstores⟩ := ih hmid
    refine ⟨next, answer :: answers, u, ?_, hnext, ?_⟩
    · rw [Volume.performAll, hvolume]
      simp only [hrest]
    · rw [FileStore.performAll, hstore]
      simp only [hstores]

/-! ### What is listed and read -/

theorem Lays.damage_eq : v.damage = [] := by
  rw [hlays.loaded.reads.damage_eq, damageIn, List.filterMap_eq_nil_iff]
  intro pair hpair
  obtain ⟨e, he, rfl⟩ := List.mem_map.1 hpair
  obtain ⟨slot, p, hp, rfl⟩ := hlays.mem_files.1 he
  simp only [finding_of_follow (hlays.follow_listed hp)]

theorem Lays.list_eq :
    v.list.map (fun line => { line with firstSector := 0 }) = (v.storeOf layout).list := by
  unfold Volume.list FileStore.list
  rw [hlays.files_eq, hlays.damage_eq, List.map_filterMap, List.map_filterMap]
  apply List.filterMap_congr
  intro slot _
  cases hp : layout slot with
  | none => simp [storeOf, hp]
  | some p =>
    have hsectors : p.order.length = (v.storeOf layout).sectorsFor p.file.contents := by
      rw [hlays.sectorsFor_eq]
      exact (hlays.holds slot p hp).sized
    rw [table_storeOf hp, Option.map_some, Option.map_some, Option.map_some, Option.map_some,
      ← hsectors, ← EntryFlags.isLocked_ofKind, ← EntryFlags.isDos2_ofKind p.file.kind,
      ← EntryFlags.isOpen_ofKind p.file.kind]
    rfl

theorem Lays.contentsOf_named {typed : String} {slot : Fin Directory.capacity} {p : Placed}
    (hp : layout slot = some p) (hname : FileName.parse typed = .ok p.file.name) :
    v.contentsOf typed = .ok p.file.contents := by
  rw [contentsOf, hlays.find_of_named hp hname, Outcome.ok_bind, hlays.follow_listed hp,
    Outcome.ok_bind, (hlays.holds slot p hp).sized.contents_chain]
  rfl

end Lays

/-! ### The whole life of a volume -/

theorem format_eq_ok_iff {image : Image} (hmade : image.Made) :
    (∃ v, format image = .ok v) ↔ ∃ last, image.header.lastSector = .ok last ∧ 368 ≤ last := by
  obtain ⟨hsound, hidle⟩ := hmade.sound
  have hroomy : image.Roomy ↔ ∃ last, image.header.lastSector = .ok last ∧ 368 ≤ last :=
    hsound.roomy_iff
  rw [← hroomy]
  constructor
  · rintro ⟨v, hformat⟩
    exact roomy_of_format hsound hformat
  · intro hroomy
    obtain ⟨v, hformat, _⟩ := format_ok hroomy hidle
    exact ⟨v, hformat⟩

theorem used_storeOf_none (v : Volume) : (v.storeOf fun _ => none).used = 0 := by
  simp [FileStore.used, storeOf]

theorem storeOf_formatted {image : Image} (hmade : image.Made) {v : Volume}
    (hformat : format image = .ok v) :
    v.storeOf (fun _ => none) =
      FileStore.empty (image.header.sectorSize - DataSector.linkSize) v.map.freeCount := by
  obtain ⟨hlays, hheader⟩ := lays_of_format hmade hformat
  have hsum := hlays.freeCount_add_used
  rw [used_storeOf_none, Nat.add_zero] at hsum
  rw [storeOf, payload, hheader, ← hsum]
  rfl

/-- **A volume that was formatted is a store for files.** It can be made on every disk with a sector
368. From then on it answers to every action as the store does, lists the files of the store, reads
back their contents under every spelling of their names and under no other, has no damaged files,
and the free sectors are those that the files leave. -/
theorem refines_fileStore {image : Image} (hmade : image.Made) :
    ((∃ v, format image = .ok v) ↔ ∃ last, image.header.lastSector = .ok last ∧ 368 ≤ last) ∧
    ∀ v, format image = .ok v → ∀ actions, ∃ answers u s,
      v.performAll actions = (answers, u) ∧
      (FileStore.empty (image.header.sectorSize - DataSector.linkSize) v.map.freeCount).performAll
        actions = (answers, s) ∧
      u.list.map (fun line => { line with firstSector := 0 }) = s.list ∧
      (∀ typed slot f, s.table slot = some f → FileName.parse typed = .ok f.name →
        u.contentsOf typed = .ok f.contents) ∧
      (∀ typed, (∀ slot f, s.table slot = some f → FileName.parse typed ≠ .ok f.name) →
        u.contentsOf typed = refuse (.fileNotFound typed)) ∧
      u.isSound = true ∧
      u.map.freeCount + s.used = v.map.freeCount := by
  refine ⟨format_eq_ok_iff hmade, fun v hformat actions => ?_⟩
  obtain ⟨hempty, hheader⟩ := lays_of_format hmade hformat
  obtain ⟨layout, answers, u, hvolume, hlays, hstore⟩ := hempty.performAll_store actions
  rw [storeOf_formatted hmade hformat] at hstore
  refine ⟨answers, u, u.storeOf layout, hvolume, hstore, hlays.list_eq, ?_, ?_, ?_, ?_⟩
  · intro typed slot f hf hname
    obtain ⟨p, hp, rfl⟩ := Option.map_eq_some_iff.1 hf
    exact hlays.contentsOf_named hp hname
  · intro typed hnone
    rw [contentsOf, hlays.find_of_unnamed, Outcome.refuse_bind]
    intro slot p hp
    exact hnone slot p.file (table_storeOf hp)
  · rw [isSound, hlays.damage_eq]
    rfl
  · have hbegin := hempty.freeCount_add_used
    have hend := hlays.freeCount_add_used
    obtain ⟨_, _, hsame⟩ := hempty.performAll actions
    rw [hvolume] at hsame
    rw [used_storeOf_none, Nat.add_zero] at hbegin
    calc u.map.freeCount + (u.storeOf layout).used
        = (SectorMap.usableSectors u.map.limit).length := hend
      _ = (SectorMap.usableSectors v.map.limit).length := by
        rw [hempty.loaded.limit_congr hlays.loaded hsame]
      _ = v.map.freeCount := hbegin.symm

/-- Two files and a name that is taken, and then the first file is deleted. -/
def shortLife : List Action :=
  [.write "A" .normal [0x41], .write "a" .locked [], .write "B.C" .locked [0x42, 0x43], .delete "a"]

/-- On a new disk with 707 sectors for files the second file is left after this, and is read back
under a name in small letters. -/
theorem refines_fileStore_zeroDisk :
    ∃ v u, format zeroDisk = .ok v ∧
      v.performAll shortLife = ([none, some (.refused (.nameTaken "a")), none, none], u) ∧
      u.list.map (·.name) = ["B.C"] ∧ u.contentsOf "b.c" = .ok [0x42, 0x43] ∧
      u.contentsOf "A" = refuse (.fileNotFound "A") ∧ v.map.freeCount = 707 ∧
      u.map.freeCount = 706 := by
  obtain ⟨haccepts, hruns⟩ := refines_fileStore made_zeroDisk
  obtain ⟨v, hformat⟩ := haccepts.2 ⟨_, roomy_zeroDisk.lastSector_eq, roomy_zeroDisk.reaches⟩
  have hroom : v.map.freeCount = 707 := by
    obtain ⟨hlays, hheader⟩ := lays_of_format made_zeroDisk hformat
    have hsum := hlays.freeCount_add_used
    rw [used_storeOf_none, Nat.add_zero, hlays.loaded.reads.limit_map, hheader] at hsum
    exact hsum.trans (by decide +kernel)
  obtain ⟨answers, u, s, hvolume, hstore, hlist, hread, hmissing, _, hfree⟩ :=
    hruns v hformat shortLife
  -- The store is small enough to be run.
  rw [hroom, show zeroDisk.header.sectorSize - DataSector.linkSize = 125 from rfl] at hstore
  have hanswers : answers = [none, some (.refused (.nameTaken "a")), none, none] :=
    (congrArg Prod.fst hstore).symm.trans (by decide +kernel)
  obtain rfl : ((FileStore.empty 125 707).performAll shortLife).2 = s := congrArg Prod.snd hstore
  have htable : ∀ slot, ((FileStore.empty 125 707).performAll shortLife).2.table slot =
      if slot.val = 1 then some ⟨⟨"B", "C"⟩, .locked, [0x42, 0x43]⟩ else none := by
    decide +kernel
  have hused : ((FileStore.empty 125 707).performAll shortLife).2.used = 1 := by decide +kernel
  refine ⟨v, u, hformat, hanswers ▸ hvolume, ?_, ?_, ?_, hroom, by omega⟩
  · have hnames := congrArg (List.map ListedFile.name) hlist
    rw [List.map_map] at hnames
    exact hnames.trans (by decide +kernel)
  · exact hread "b.c" ⟨1, by decide⟩ _ (htable _) (by decide +kernel)
  · refine hmissing "A" fun slot f hf => ?_
    rw [htable] at hf
    split at hf
    · obtain rfl := Option.some.inj hf
      decide +kernel
    · simp at hf

end AtariDisk.Volume
