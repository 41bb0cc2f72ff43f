import AtariDisk.Proofs.Volume.Operations

/-!
# What a volume knows is what its image holds

Operations on files trust what the volume knows, even if somebody has written to the sectors of its
image since. An operation that succeeds writes the map and the directory it knows, with the code of
the format in front, and reads all of it again: from then on mounting the image finds just what the
volume knows, until sectors are written to behind its back.
-/

namespace AtariDisk

namespace Image

/-! ### Reading an image that was saved -/

theorem followFrom_saved (image : Image) (e : Entry) (found remaining n : Nat) :
    image.saved.followFrom e found remaining n = image.followFrom e found remaining n := by
  induction remaining generalizing found n with
  | zero => rfl
  | succ remaining ih =>
    unfold followFrom
    simp only [ih]
    rfl

theorem follow_saved (image : Image) (e : Entry) : image.saved.follow e = image.follow e := by
  unfold follow
  simp only [followFrom_saved]

end Image

namespace Volume

open Image

theorem survey_saved (image : Image) (entries : List Entry) :
    survey image.saved entries = survey image entries := by
  induction entries with
  | nil => rfl
  | cons e rest ih => rw [survey, survey, follow_saved, ih]

/-- What reading a volume comes to, on any image. -/
theorem load_eq_ok_iff {image : Image} {v : Volume} :
    load image = .ok v ↔ ∃ map last limited directory findings,
      readMap image = .ok map ∧ image.header.lastSector = .ok last ∧
      map.restrict last = .ok limited ∧ readDirectory image = .ok directory ∧
      survey image directory.files = .ok findings ∧
      v = ⟨image, limited, measure directory findings, damageIn findings⟩ := by
  unfold load
  simp only [Outcome.bind_eq_ok_iff, Outcome.pure_eq_ok, Except.ok.injEq]
  constructor
  · rintro ⟨map, hmap, last, hlast, limited, hlimited, directory, hdirectory, findings, hfindings,
      hv⟩
    exact ⟨map, last, limited, directory, findings, hmap, hlast, hlimited, hdirectory, hfindings,
      hv.symm⟩
  · rintro ⟨map, last, limited, directory, findings, hmap, hlast, hlimited, hdirectory, hfindings,
      hv⟩
    exact ⟨map, hmap, last, hlast, limited, hlimited, directory, hdirectory, findings, hfindings,
      hv.symm⟩

theorem mount_iff_load {image : Image} {v : Volume} :
    mount image = .ok v ↔ checkExtent image = .ok () ∧
      ∃ map, readMap image = .ok map ∧ map.code = SectorMap.dos2 ∧ load image = .ok v := by
  unfold mount
  simp only [Outcome.bind_eq_ok_iff]
  constructor
  · rintro ⟨_, hextent, map, hmap, hmount⟩
    split at hmount
    · rename_i hcode
      exact ⟨hextent, map, hmap, hcode, hmount⟩
    · exact absurd hmount (Outcome.refuse_ne_ok _ _)
  · rintro ⟨hextent, map, hmap, hcode, hload⟩
    refine ⟨(), hextent, map, hmap, ?_⟩
    rw [if_pos hcode, hload]

theorem mount_saved {image : Image} {v : Volume} (hmount : mount image = .ok v) :
    mount image.saved = .ok { v with image := v.image.saved } := by
  obtain ⟨hextent, map, hmap, hcode, hload⟩ := mount_iff_load.1 hmount
  obtain ⟨again, last, limited, directory, findings, hagain, hlast, hlimited, hdirectory, hfindings,
    rfl⟩ := load_eq_ok_iff.1 hload
  rw [← survey_saved] at hfindings
  refine mount_iff_load.2 ⟨hextent, map, hmap, hcode, load_eq_ok_iff.2 ?_⟩
  exact ⟨again, last, limited, directory, findings, hagain, hlast, hlimited, hdirectory, hfindings,
    rfl⟩

/-- Only volumes with the code of the format are mounted. -/
theorem code_of_mount {image : Image} {v : Volume} (hmount : mount image = .ok v) :
    v.map.code = SectorMap.dos2 := by
  obtain ⟨_, map, hmap, hcode, hload⟩ := mount_iff_load.1 hmount
  obtain ⟨again, last, limited, _, _, hagain, _, hlimited, _, _, rfl⟩ := load_eq_ok_iff.1 hload
  obtain ⟨_, _, hlimit⟩ := Outcome.bind_eq_ok_iff.1 hlimited
  rw [hmap, Except.ok.injEq] at hagain
  rw [← Except.ok.inj hlimit, ← hagain]
  exact hcode

/-! ### Operations that go by memory -/

/-- Mounting the image finds what the volume knows. -/
def Current (v : Volume) : Prop :=
  mount v.image = .ok v

/-- The map and the directory that the volume knows were read by `source`, before somebody wrote to
sectors. -/
structure Recalls (v source : Volume) : Prop where
  loaded : source.Loaded
  code : source.map.code = SectorMap.dos2
  alike : Alike source.image v.image
  map : v.map = source.map
  directory : v.directory = source.directory

theorem Loaded.recalls {v : Volume} (hloaded : v.Loaded) (hcode : v.map.code = SectorMap.dos2) :
    v.Recalls v :=
  ⟨hloaded, hcode, Alike.refl v.image, rfl, rfl⟩

theorem Loaded.mount_image {v : Volume} (hloaded : v.Loaded)
    (hcode : v.map.code = SectorMap.dos2) : v.Current :=
  (mount_eq_ok_iff hloaded.roomy.toSound).2 ⟨hloaded.roomy, hcode, hloaded.current⟩

section Recalls

variable {v source u : Volume} (hrecalls : v.Recalls source)

include hrecalls

theorem Recalls.ready : v.Ready :=
  ⟨hrecalls.loaded.roomy.of_alike hrecalls.alike,
    hrecalls.alike.phase.trans hrecalls.loaded.idle⟩

theorem Recalls.alike_opened : Alike source.image.opened v.image.opened :=
  ⟨hrecalls.alike.header, hrecalls.alike.size, hrecalls.alike.fileName, rfl⟩

theorem Recalls.storeFile_eq (typed : String) (kind : FileKind) (contents : Bytes) :
    storeFile v.map v.directory v.payload typed kind contents =
      storeFile source.map source.directory source.payload typed kind contents := by
  rw [hrecalls.map, hrecalls.directory, payload_congr hrecalls.alike.header]

/-- A file that was written left a map that differs from the one recalled in its bits only. -/
theorem Recalls.writeFile_inv {typed : String} {kind : FileKind} {contents : Bytes} {e : Entry}
    (hok : v.writeFile typed kind contents = .ok e u) :
    ∃ map, Rewritten v u map ∧ map.raw = v.map.raw := by
  have hready := hrecalls.ready
  rw [hready.writeFile_eq] at hok
  obtain ⟨mid, hstore, hu, himage⟩ :=
    update_eq_ok (keeps_storeFile _ _ _ _ _ _) hready.roomy hready.idle hok
  rw [hrecalls.storeFile_eq] at hstore
  obtain ⟨p, laid, hplan, hchain, hsystem, _⟩ := storeFile_eq_ok_iff.1 hstore
  have hlaid := (keeps_storeChain p.chain).of_ok hchain
  obtain ⟨again, hagain, hstored⟩ :=
    hrecalls.loaded.storeSystem_plan hplan (hrecalls.alike_opened.trans hlaid)
  rw [hsystem, EStateM.Result.ok.injEq] at hagain
  obtain ⟨_, rfl⟩ := hagain
  refine ⟨p.map, ⟨hu, ?_, ?_⟩, ?_⟩
  · rw [himage]
    exact (hlaid.trans hstored.alike).header
  · rw [himage]
    exact hstored.map
  · obtain ⟨name, slot, _, _, _, _, rfl⟩ := planFile_eq_ok_iff.1 hplan
    rw [hrecalls.map]
    exact SectorMap.raw_mark ..

theorem Recalls.deleteFile_inv {typed : String} (hok : v.deleteFile typed = .ok () u) :
    ∃ map, Rewritten v u map ∧ map.raw = v.map.raw := by
  have hready := hrecalls.ready
  have hloaded := hrecalls.loaded
  unfold deleteFile at hok
  split at hok
  · cases hok
  · rename_i e chain _
    obtain ⟨mid, hdrop, hu, himage⟩ :=
      update_eq_ok (keeps_dropFile _ _ _ _) hready.roomy hready.idle hok
    rw [hrecalls.map, hrecalls.directory] at hdrop
    obtain ⟨f, hget, _, hsystem⟩ := dropFile_eq_ok_iff.1 hdrop
    have hf := (Directory.get?_eq_some_iff.1 hget).1
    have hheader : v.image.opened.header = source.image.header := hrecalls.alike.header
    have hraw : (source.map.release chain.numbers).raw.length =
        v.image.opened.header.sectorSize := by
      rw [hheader]
      exact hloaded.length_raw_map
    have hsize : (source.directory.set f.markDeleted).sectorSize =
        v.image.opened.header.sectorSize := by
      rw [hheader]
      exact hloaded.reads.sectorSize_directory
    obtain ⟨after, hafter, hstored⟩ := storeSystem_ok hready.roomy.opened hraw hsize fun g hg => by
      rcases Directory.mem_insertEntry hg with rfl | hold
      · exact show f.slot < Directory.capacity from hloaded.slot_lt hf
      · exact hloaded.slot_lt hold
    rw [hsystem, EStateM.Result.ok.injEq] at hafter
    obtain ⟨_, rfl⟩ := hafter
    refine ⟨source.map.release chain.numbers, ⟨hu, ?_, ?_⟩, ?_⟩
    · rw [himage]
      exact hstored.alike.header
    · rw [himage]
      exact hstored.map
    · rw [hrecalls.map]
      exact SectorMap.raw_mark ..

/-- An action fails and changes nothing, or mounting the image finds the volume that it leaves. -/
theorem Recalls.perform_cases (action : Action) :
    (∃ e, v.perform action = (some e, v)) ∨
      ∃ u, v.perform action = (none, u) ∧ u.Recalls u ∧ u.Current := by
  rcases hrecalls.ready.perform_cases action with hfailed | ⟨u, hdone, _⟩
  · exact .inl hfailed
  · have hinv : ∃ map, Rewritten v u map ∧ map.raw = v.map.raw := by
      cases action with
      | write typed kind contents =>
        obtain ⟨e, hok⟩ := writeFile_of_perform hdone
        exact hrecalls.writeFile_inv hok
      | delete typed => exact hrecalls.deleteFile_inv (deleteFile_of_perform hdone)
    obtain ⟨map, hrewritten, hraw⟩ := hinv
    have hloaded := hrewritten.loaded
    -- What is on the disk now is the code that was recalled, not the one that was overwritten.
    have hcode : u.map.code = SectorMap.dos2 := by
      calc u.map.code = map.code := (hloaded.map_of_packed hrewritten.packed).2.2.1
        _ = v.map.code := by rw [SectorMap.code, SectorMap.code, hraw]
        _ = source.map.code := by rw [hrecalls.map]
        _ = SectorMap.dos2 := hrecalls.code
    exact .inr ⟨u, hdone, hloaded.recalls hcode, hloaded.mount_image hcode⟩

theorem Recalls.of_image {image : Image} (halike : Alike v.image image) :
    Recalls { v with image } source :=
  ⟨hrecalls.loaded, hrecalls.code, hrecalls.alike.trans halike, hrecalls.map, hrecalls.directory⟩

theorem Recalls.undergo (event : Event) : ∃ last, (v.undergo event).Recalls last := by
  cases event with
  | act action =>
    rcases hrecalls.perform_cases action with ⟨e, hfailed⟩ | ⟨u, hdone, hu, _⟩
    · rw [Volume.undergo, hfailed]
      exact ⟨source, hrecalls⟩
    · rw [Volume.undergo, hdone]
      exact ⟨u, hu⟩
  | writeSector sector bytes =>
    exact ⟨source, hrecalls.of_image (Edit.keeps_writeSector sector bytes v.image)⟩
  | writeRun sector bytes =>
    exact ⟨source, hrecalls.of_image (Edit.keeps_writeRun sector bytes v.image)⟩
  | saved => exact ⟨source, hrecalls.of_image ⟨rfl, rfl, rfl, rfl⟩⟩

end Recalls

theorem Recalls.undergoAll {v source : Volume} (hrecalls : v.Recalls source)
    (events : List Event) : ∃ last, (v.undergoAll events).Recalls last := by
  induction events generalizing v source with
  | nil => exact ⟨source, hrecalls⟩
  | cons event rest ih =>
    obtain ⟨next, hnext⟩ := hrecalls.undergo event
    exact ih hnext

/-! ### Agreement -/

/-- Nobody writes to sectors behind the back of the volume. -/
def Event.isQuiet : Event → Bool
  | .act _ => true
  | .writeSector _ _ => false
  | .writeRun _ _ => false
  | .saved => true

theorem Current.undergo {v source : Volume} (hcurrent : v.Current) (hrecalls : v.Recalls source)
    {event : Event} (hquiet : event.isQuiet = true) : (v.undergo event).Current := by
  cases event with
  | act action =>
    rcases hrecalls.perform_cases action with ⟨e, hfailed⟩ | ⟨u, hdone, _, hu⟩
    · rw [Volume.undergo, hfailed]
      exact hcurrent
    · rw [Volume.undergo, hdone]
      exact hu
  | saved => exact mount_saved hcurrent
  | writeSector sector bytes => cases hquiet
  | writeRun sector bytes => cases hquiet

theorem Current.undergoAll {v source : Volume} (hcurrent : v.Current) (hrecalls : v.Recalls source)
    {events : List Event} (hquiet : ∀ event ∈ events, event.isQuiet = true) :
    (v.undergoAll events).Current := by
  induction events generalizing v source with
  | nil => exact hcurrent
  | cons event rest ih =>
    obtain ⟨next, hnext⟩ := hrecalls.undergo event
    have hfirst := hcurrent.undergo hrecalls (hquiet event List.mem_cons_self)
    exact ih hfirst hnext fun later hlater => hquiet later (List.mem_cons_of_mem event hlater)

theorem mount_of_format {image : Image} {v : Volume} (hformat : format image = .ok v) :
    ∃ after, mount after = .ok v := by
  unfold format at hformat
  simp only [Outcome.bind_eq_ok_iff] at hformat
  obtain ⟨_, _, _, _, _, _, _, _, _, _, _, _, hmount⟩ := hformat
  split at hmount
  · exact ⟨_, hmount⟩
  · cases hmount

theorem recalls_of_open {image : Image} (hmade : image.Made) {v : Volume}
    (hopen : mount image = .ok v ∨ format image = .ok v) : v.Recalls v ∧ v.Current := by
  obtain ⟨hsound, hidle⟩ := hmade.sound
  have hknown : v.Loaded ∧ v.map.code = SectorMap.dos2 := by
    rcases hopen with hmount | hformat
    · exact ⟨loaded_of_mount hsound hidle hmount, code_of_mount hmount⟩
    · obtain ⟨_, hmount⟩ := mount_of_format hformat
      exact ⟨loaded_of_format hsound hidle hformat, code_of_mount hmount⟩
  exact ⟨hknown.1.recalls hknown.2, hknown.1.mount_image hknown.2⟩

/-- **What a volume knows is what its image holds.** Whatever was done to a volume and behind its
back, after an operation that succeeds the image can be mounted and gives the very map, directory,
lengths and damage that the volume knows. So it does from the beginning, and it stays so, whether
operations fail or succeed, as long as nobody writes to sectors behind the back of the volume. -/
theorem knows_what_image_holds {image : Image} (hmade : image.Made) {v : Volume}
    (hopen : mount image = .ok v ∨ format image = .ok v) :
    (∀ quiet, (∀ event ∈ quiet, event.isQuiet = true) →
      mount (v.undergoAll quiet).image = .ok (v.undergoAll quiet)) ∧
    ∀ events action u, (v.undergoAll events).perform action = (none, u) →
      mount u.image = .ok u ∧
      ∀ quiet, (∀ event ∈ quiet, event.isQuiet = true) →
        mount (u.undergoAll quiet).image = .ok (u.undergoAll quiet) := by
  obtain ⟨hrecalls, hcurrent⟩ := recalls_of_open hmade hopen
  refine ⟨fun quiet hquiet => hcurrent.undergoAll hrecalls hquiet, ?_⟩
  intro events action u hdone
  obtain ⟨source, hstale⟩ := hrecalls.undergoAll events
  rcases hstale.perform_cases action with ⟨e, hfailed⟩ | ⟨w, hok, hknows, hfresh⟩
  · rw [hdone] at hfailed
    cases hfailed
  · obtain rfl : u = w := (Prod.mk.inj (hdone.symm.trans hok)).2
    exact ⟨hfresh, fun quiet hquiet => hfresh.undergoAll hknows hquiet⟩

/-- A file without bytes is written from memory, whatever the sectors of the disk hold. -/
theorem Recalls.perform_of_plan {v source : Volume} (hrecalls : v.Recalls source) {typed : String}
    {kind : FileKind} {contents : Bytes} {p : Plan}
    (hplan : source.plan typed kind contents = .ok p) (hchain : p.chain = []) :
    ∃ u, v.perform (.write typed kind contents) = (none, u) := by
  have hready := hrecalls.ready
  obtain ⟨after, hsystem, _⟩ := hrecalls.loaded.storeSystem_plan hplan hrecalls.alike_opened
  have hstore : storeFile v.map v.directory v.payload typed kind contents v.image.opened =
      .ok p.entry after := by
    rw [hrecalls.storeFile_eq]
    refine storeFile_eq_ok_iff.2 ⟨p, _, hplan, ?_, hsystem, rfl⟩
    rw [hchain]
    rfl
  obtain ⟨u, hok, _⟩ :=
    update_of_ok (keeps_storeFile _ _ _ _ _ _) hready.roomy hready.idle hstore
  refine ⟨u, ?_⟩
  rw [perform, hready.writeFile_eq, hok]
  rfl

/-- Once the map on the disk is wiped out the image cannot be mounted, until the volume writes what
it knows of the map. -/
theorem knows_what_image_holds_wiped :
    ∃ v u w, format zeroDisk = .ok v ∧
      u = v.undergoAll [.writeSector SectorMap.home (Bytes.zeros 128)] ∧
      (∀ again, mount u.image ≠ .ok again) ∧
      u.perform (.write "A" .normal []) = (none, w) ∧ mount w.image = .ok w := by
  obtain ⟨v, hformat, hloaded, hheader, hvacant, _⟩ := format_ok roomy_zeroDisk rfl
  obtain ⟨u, hu⟩ : ∃ u, u = v.undergoAll [.writeSector SectorMap.home (Bytes.zeros 128)] :=
    ⟨_, rfl⟩
  have hrecalls : u.Recalls v := by
    rw [hu]
    exact (recalls_of_open made_zeroDisk (.inr hformat)).1.of_image (Edit.keeps_writeSector _ _ _)
  have hwiped : (u.image.sector SectorMap.home).headD 0 = 0 := by
    have hhome := hloaded.roomy.linkable_of_le (show 1 ≤ SectorMap.home by decide) (by decide)
    have hplace : (v.image.header.place SectorMap.home).length = (Bytes.zeros 128).length := by
      rw [hheader]
      rfl
    have himage : u.image = v.image.put SectorMap.home (Bytes.zeros 128) := by
      rw [hu]
      exact Call.after_of_ok ((hloaded.roomy.writeSector_eq hhome _).trans (if_pos hplace))
    rw [himage, hloaded.roomy.sector_put_self hhome.1 hhome.2.1 hplace.symm]
    rfl
  have hplan : ∃ p, v.plan "A" .normal [] = .ok p ∧ p.chain = [] := by
    have hname : FileName.parse "A" = .ok ⟨"A", ""⟩ := by decide +kernel
    have hnew : ∀ f ∈ v.directory.files, f.name ≠ ⟨"A", ""⟩ := by
      intro f hf
      have hget := (Directory.mem_files.1 hf).1
      rw [hvacant] at hget
      cases hget
    have hslot : v.directory.freeSlot = .ok 0 := by
      refine Directory.freeSlot_eq_ok_iff.2 ⟨by decide, ?_, fun j hj => ?_⟩
      · rw [Directory.isTaken, hvacant]
        rfl
      · exact absurd hj (Nat.not_lt_zero j)
    have hnone : Chain.sectorsNeeded v.payload ([] : Bytes).length = 0 := by
      simp [Chain.sectorsNeeded]
    refine ⟨_, plan_of_room .normal hname hnew hslot (by omega), ?_⟩
    simp [newPlan, newChain, Chain.split, chunks, Chain.assign]
  obtain ⟨p, hplan, hchain⟩ := hplan
  obtain ⟨w, hdone⟩ := hrecalls.perform_of_plan hplan hchain
  refine ⟨v, u, w, hformat, hu, fun again hmount => ?_, hdone, ?_⟩
  · obtain ⟨hroomy, hcode, hload⟩ := (mount_eq_ok_iff hrecalls.ready.roomy.toSound).1 hmount
    rw [code_of_load hroomy hload, hwiped] at hcode
    exact absurd hcode (by decide)
  · rw [hu] at hdone
    exact ((knows_what_image_holds made_zeroDisk (.inr hformat)).2 _ _ w hdone).1

end Volume

end AtariDisk
