import AtariDisk.Proofs.Image.Origin
import AtariDisk.Proofs.Volume.Format

/-!
# Failed operations change nothing

Between operations anybody may write to the sectors of the image behind a volume, so that what the
volume knows of its image is out of date. Nevertheless, an operation that fails leaves the image and
all that the volume knows exactly as they were.
-/

namespace AtariDisk.Volume

open Image

/-- What can happen to a volume: operations on its files, and work on its image behind its back. -/
inductive Event where
  | act (action : Action)
  | writeSector (sector : Nat) (bytes : Bytes)
  | writeRun (sector : Nat) (bytes : Bytes)
  | saved
deriving DecidableEq, Repr

def undergo (v : Volume) : Event → Volume
  | .act action => (v.perform action).2
  | .writeSector sector bytes =>
    { v with image := Call.after (Image.writeSector sector bytes) v.image }
  | .writeRun sector bytes => { v with image := Call.after (Image.writeRun sector bytes) v.image }
  | .saved => { v with image := v.image.saved }

def undergoAll (v : Volume) (events : List Event) : Volume :=
  events.foldl undergo v

/-- Bytes of a file that go into one sector. -/
def payload (v : Volume) : Nat :=
  v.image.header.sectorSize - DataSector.linkSize

/-- The image of the volume is fit for operations, whatever the volume knows of it. -/
structure Ready (v : Volume) : Prop where
  roomy : v.image.Roomy
  idle : v.image.phase = .idle

theorem Loaded.ready {v : Volume} (hloaded : v.Loaded) : v.Ready :=
  ⟨hloaded.roomy, hloaded.idle⟩

theorem Ready.of_alike {v : Volume} (hready : v.Ready) {image : Image}
    (halike : Alike v.image image) : Ready { v with image } :=
  ⟨hready.roomy.of_alike halike, halike.phase.trans hready.idle⟩

section Operations

variable {v u : Volume} (hready : v.Ready)

include hready

theorem Ready.payloadCapacity_eq : v.payloadCapacity = .ok v.payload := by
  have hsize : v.image.header.sectorSize = 128 ∨ v.image.header.sectorSize = 256 :=
    hready.roomy.regular.size
  unfold payloadCapacity
  exact Word.sub_eq_ok_iff.2 ⟨by simp only [DataSector.linkSize]; omega, rfl⟩

theorem Ready.writeFile_eq (typed : String) (kind : FileKind) (contents : Bytes) :
    v.writeFile typed kind contents =
      update (storeFile v.map v.directory v.payload typed kind contents) v := by
  unfold writeFile
  rw [hready.payloadCapacity_eq]

theorem Ready.writeFile_error {typed : String} {kind : FileKind} {contents : Bytes} {e : Failure}
    (herror : v.writeFile typed kind contents = .error e u) : u = v := by
  rw [hready.writeFile_eq] at herror
  exact update_error_eq (keeps_storeFile _ _ _ _ _ _) hready.roomy hready.idle herror

theorem Ready.deleteFile_error {typed : String} {e : Failure}
    (herror : v.deleteFile typed = .error e u) : u = v := by
  unfold deleteFile at herror
  split at herror
  · simp only [EStateM.Result.error.injEq] at herror
    exact herror.2.symm
  · exact update_error_eq (keeps_dropFile _ _ _ _) hready.roomy hready.idle herror

theorem Ready.writeFile_ok {typed : String} {kind : FileKind} {contents : Bytes} {e : Entry}
    (hok : v.writeFile typed kind contents = .ok e u) : u.Loaded := by
  rw [hready.writeFile_eq] at hok
  obtain ⟨_, _, hloaded, _⟩ :=
    update_eq_ok (keeps_storeFile _ _ _ _ _ _) hready.roomy hready.idle hok
  exact hloaded

theorem Ready.deleteFile_ok {typed : String} (hok : v.deleteFile typed = .ok () u) :
    u.Loaded := by
  unfold deleteFile at hok
  split at hok
  · simp at hok
  · obtain ⟨_, _, hloaded, _⟩ :=
      update_eq_ok (keeps_dropFile _ _ _ _) hready.roomy hready.idle hok
    exact hloaded

/-- An action either fails and changes nothing, or leaves a volume that was read anew. -/
theorem Ready.perform_cases (action : Action) :
    (∃ e, v.perform action = (some e, v)) ∨
      ∃ u, v.perform action = (none, u) ∧ u.Loaded := by
  cases action with
  | write typed kind contents =>
    rw [perform]
    cases hwrite : v.writeFile typed kind contents with
    | ok e u => exact .inr ⟨u, rfl, hready.writeFile_ok hwrite⟩
    | error e u =>
      rw [hready.writeFile_error hwrite]
      exact .inl ⟨e, rfl⟩
  | delete typed =>
    rw [perform]
    cases hdelete : v.deleteFile typed with
    | ok _ u => exact .inr ⟨u, rfl, hready.deleteFile_ok hdelete⟩
    | error e u =>
      rw [hready.deleteFile_error hdelete]
      exact .inl ⟨e, rfl⟩

theorem Ready.undergo (event : Event) : (v.undergo event).Ready := by
  cases event with
  | act action =>
    rcases hready.perform_cases action with ⟨e, hfailed⟩ | ⟨u, hdone, hloaded⟩
    · rw [Volume.undergo, hfailed]
      exact hready
    · rw [Volume.undergo, hdone]
      exact hloaded.ready
  | writeSector sector bytes => exact hready.of_alike (Edit.keeps_writeSector sector bytes v.image)
  | writeRun sector bytes => exact hready.of_alike (Edit.keeps_writeRun sector bytes v.image)
  | saved =>
    exact ⟨⟨⟨hready.roomy.regular, hready.roomy.covered⟩, hready.roomy.reaches,
      hready.roomy.countable⟩, hready.idle⟩

end Operations

theorem Loaded.perform {v : Volume} (hloaded : v.Loaded) (action : Action) :
    (v.perform action).2.Loaded := by
  rcases hloaded.ready.perform_cases action with ⟨e, hfailed⟩ | ⟨u, hdone, hu⟩
  · rw [hfailed]
    exact hloaded
  · rw [hdone]
    exact hu

theorem Loaded.performAll {v : Volume} (hloaded : v.Loaded) (actions : List Action) :
    (v.performAll actions).2.Loaded := by
  induction actions generalizing v with
  | nil => exact hloaded
  | cons action rest ih => exact ih (hloaded.perform action)

theorem Ready.undergoAll {v : Volume} (hready : v.Ready) (events : List Event) :
    (v.undergoAll events).Ready := by
  induction events generalizing v with
  | nil => exact hready
  | cons event rest ih => exact ih (hready.undergo event)

/-- **Failures are atomic.** Whatever was done to a volume and behind its back, an operation that
fails changes nothing, no transaction stays open, and once an operation has committed its writes,
reading the volume again cannot fail. -/
theorem failed_operation_changes_nothing {image : Image} (hmade : image.Made) {v : Volume}
    (hopen : mount image = .ok v ∨ format image = .ok v) (events : List Event) {u : Volume}
    (hu : u = v.undergoAll events) :
    u.image.phase = .idle ∧
      (∀ typed kind contents e w, u.writeFile typed kind contents = .error e w → w = u) ∧
      (∀ typed e w, u.deleteFile typed = .error e w → w = u) ∧
      (∀ capacity typed kind contents e after,
        Transaction.run (storeFile u.map u.directory capacity typed kind contents) u.image =
          .ok e after → ∃ w, load after = .ok w) ∧
      (∀ slot chain after,
        Transaction.run (dropFile u.map u.directory slot chain) u.image = .ok () after →
          ∃ w, load after = .ok w) := by
  obtain ⟨hsound, hidle⟩ := hmade.sound
  have hloaded : v.Loaded := by
    rcases hopen with hmount | hformat
    · exact loaded_of_mount hsound hidle hmount
    · exact loaded_of_format hsound hidle hformat
  have hready : u.Ready := hu ▸ hloaded.ready.undergoAll events
  have hreload : ∀ {α : Type} {edit : Edit α}, edit.Keeps → ∀ a after,
      Transaction.run edit u.image = .ok a after → ∃ w, load after = .ok w := by
    intro α edit hkeeps a after hrun
    obtain ⟨mid, hedit, rfl⟩ := (Transaction.run_eq_ok_iff hready.idle).1 hrun
    obtain ⟨w, hload, _⟩ := load_ok (hready.roomy.opened.of_alike (hkeeps.of_ok hedit)).closed
    exact ⟨w, hload⟩
  refine ⟨hready.idle, ?_, ?_, ?_, ?_⟩
  · intro typed kind contents e w herror
    exact hready.writeFile_error herror
  · intro typed e w herror
    exact hready.deleteFile_error herror
  · intro capacity typed kind contents e after hrun
    exact hreload (keeps_storeFile _ _ _ _ _ _) e after hrun
  · intro slot chain after hrun
    exact hreload (keeps_dropFile _ _ _ _) () after hrun

/-- Writing a file without a name fails and changes nothing, on a disk whose map was overwritten
behind the back of the volume. -/
theorem nameless_write_changes_nothing :
    ∃ v u e, format zeroDisk = .ok v ∧
      u = v.undergoAll [.writeSector SectorMap.home (Bytes.zeros 128)] ∧
      u.writeFile "" .normal [] = .error e u := by
  obtain ⟨v, hformat, hloaded, _⟩ := format_ok roomy_zeroDisk rfl
  obtain ⟨u, hu⟩ : ∃ u, u = v.undergoAll [.writeSector SectorMap.home (Bytes.zeros 128)] :=
    ⟨_, rfl⟩
  have hready : u.Ready := hu ▸ hloaded.ready.undergoAll _
  cases hwrite : u.writeFile "" .normal [] with
  | ok e w =>
    rw [hready.writeFile_eq] at hwrite
    obtain ⟨_, hstore, _⟩ :=
      update_eq_ok (keeps_storeFile _ _ _ _ _ _) hready.roomy hready.idle hwrite
    obtain ⟨p, _, hplan, _⟩ := storeFile_eq_ok_iff.1 hstore
    obtain ⟨name, _, hname, _⟩ := planFile_eq_ok_iff.1 hplan
    have hrefused : FileName.parse "" = refuse (.nameInvalid "") := by decide +kernel
    rw [hrefused] at hname
    exact absurd hname (Outcome.refuse_ne_ok _ _)
  | error e w =>
    obtain ⟨_, hwrites, _⟩ := failed_operation_changes_nothing made_zeroDisk (.inr hformat) _ hu
    have hsame := hwrites "" .normal [] e w hwrite
    exact ⟨v, u, e, hformat, hu, hsame ▸ hwrite⟩

end AtariDisk.Volume
