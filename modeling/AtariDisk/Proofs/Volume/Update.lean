import AtariDisk.Proofs.Volume.Store

/-!
# Updates of a volume

An update that fails leaves the volume as it was, and one that goes through is read back from the
image it has written: after the commit nothing can fail any more.
-/

namespace AtariDisk

/-- The image while a transaction works on it. -/
def Image.opened (image : Image) : Image :=
  { image with phase := .mutating }

/-- The image after a transaction. -/
def Image.closed (image : Image) : Image :=
  { image with phase := .idle }

@[simp]
theorem Image.sector_opened (image : Image) (n : Nat) :
    image.opened.sector n = image.sector n := rfl

@[simp]
theorem Image.sector_closed (image : Image) (n : Nat) :
    image.closed.sector n = image.sector n := rfl

@[simp]
theorem Image.header_opened (image : Image) : image.opened.header = image.header := rfl

@[simp]
theorem Image.header_closed (image : Image) : image.closed.header = image.header := rfl

theorem Image.putAll_opened (image : Image) (writes : List (Nat × Bytes)) :
    image.opened.putAll writes = (image.putAll writes).opened := by
  induction writes generalizing image with
  | nil => rfl
  | cons write rest ih => exact ih (image.put write.1 write.2)

theorem Image.Roomy.opened {image : Image} (hroomy : image.Roomy) : image.opened.Roomy :=
  ⟨⟨hroomy.regular, hroomy.covered⟩, hroomy.reaches, hroomy.countable⟩

theorem Image.Roomy.closed {image : Image} (hroomy : image.Roomy) : image.closed.Roomy :=
  ⟨⟨hroomy.regular, hroomy.covered⟩, hroomy.reaches, hroomy.countable⟩

namespace Volume

open Image

section Update

variable {α : Type} {edit : Edit α} {v : Volume}

theorem update_of_ok (hkeeps : edit.Keeps) (hroomy : v.image.Roomy)
    (hidle : v.image.phase = .idle) {a : α} {mid : Image}
    (hedit : edit v.image.opened = .ok a mid) :
    ∃ u, update edit v = .ok a u ∧ u.Loaded ∧ u.image = mid.closed := by
  obtain ⟨image, map, directory, damage⟩ := v
  have hrun : Transaction.run edit image = .ok a mid.closed :=
    (Transaction.run_eq_ok_iff hidle).2 ⟨mid, hedit, rfl⟩
  have hmid : mid.closed.Roomy := (hroomy.opened.of_alike (hkeeps.of_ok hedit)).closed
  obtain ⟨u, hload, _⟩ := load_ok hmid
  obtain ⟨hloaded, himage⟩ := Loaded.of_load hmid rfl hload
  refine ⟨u, ?_, hloaded, himage⟩
  unfold update
  simp only [hrun, hload]

theorem update_of_error (hkeeps : edit.Keeps) (hidle : v.image.phase = .idle) {e : Failure}
    {mid : Image} (hedit : edit v.image.opened = .error e mid) : update edit v = .error e v := by
  obtain ⟨image, map, directory, damage⟩ := v
  obtain ⟨after, hrun⟩ : ∃ after, Transaction.run edit image = .error e after := by
    rw [Transaction.run_of_idle edit hidle]
    change edit { image with phase := .mutating } = .error e mid at hedit
    rw [hedit]
    cases e with
    | refused cause => exact ⟨_, rfl⟩
    | trapped cause => exact ⟨_, rfl⟩
  have hsame := Transaction.run_error_eq hkeeps hidle hrun
  unfold update
  simp only [hrun, hsame]

theorem update_eq_ok (hkeeps : edit.Keeps) (hroomy : v.image.Roomy)
    (hidle : v.image.phase = .idle) {a : α} {u : Volume} (hupdate : update edit v = .ok a u) :
    ∃ mid, edit v.image.opened = .ok a mid ∧ u.Loaded ∧ u.image = mid.closed := by
  cases hedit : edit v.image.opened with
  | error e mid =>
    rw [update_of_error hkeeps hidle hedit] at hupdate
    simp at hupdate
  | ok b mid =>
    obtain ⟨w, hok, hloaded, himage⟩ := update_of_ok hkeeps hroomy hidle hedit
    rw [hupdate, EStateM.Result.ok.injEq] at hok
    obtain ⟨rfl, rfl⟩ := hok
    exact ⟨mid, rfl, hloaded, himage⟩

theorem update_error_eq (hkeeps : edit.Keeps) (hroomy : v.image.Roomy)
    (hidle : v.image.phase = .idle) {e : Failure} {u : Volume}
    (hupdate : update edit v = .error e u) : u = v := by
  cases hedit : edit v.image.opened with
  | error e mid =>
    rw [update_of_error hkeeps hidle hedit, EStateM.Result.error.injEq] at hupdate
    exact hupdate.2.symm
  | ok b mid =>
    obtain ⟨w, hok, _⟩ := update_of_ok hkeeps hroomy hidle hedit
    rw [hok] at hupdate
    simp at hupdate

end Update

/-! ### Runs of operations -/

/-- What changes the files of a volume. -/
inductive Action where
  | write (typed : String) (kind : FileKind) (contents : Bytes)
  | delete (typed : String)
deriving DecidableEq, Repr

/-- The volume after an operation, and why the operation failed if it did. -/
def ending {α : Type} : EStateM.Result Failure Volume α → Option Failure × Volume
  | .ok _ u => (none, u)
  | .error e u => (some e, u)

def perform (v : Volume) : Action → Option Failure × Volume
  | .write typed kind contents => ending (v.writeFile typed kind contents)
  | .delete typed => ending (v.deleteFile typed)

theorem writeFile_of_perform {v u : Volume} {typed : String} {kind : FileKind} {contents : Bytes}
    (hdone : v.perform (.write typed kind contents) = (none, u)) :
    ∃ e, v.writeFile typed kind contents = .ok e u := by
  rw [perform] at hdone
  cases hwrite : v.writeFile typed kind contents with
  | ok e w =>
    rw [hwrite] at hdone
    exact ⟨e, by rw [(Prod.mk.inj hdone).2]⟩
  | error e w =>
    rw [hwrite] at hdone
    exact absurd (Prod.mk.inj hdone).1 (by simp)

theorem deleteFile_of_perform {v u : Volume} {typed : String}
    (hdone : v.perform (.delete typed) = (none, u)) : v.deleteFile typed = .ok () u := by
  rw [perform] at hdone
  cases hdelete : v.deleteFile typed with
  | ok _ w =>
    rw [hdelete] at hdone
    rw [(Prod.mk.inj hdone).2]
  | error e w =>
    rw [hdelete] at hdone
    exact absurd (Prod.mk.inj hdone).1 (by simp)

/-- The volume after some actions, and how each of them ended. -/
def performAll (v : Volume) : List Action → List (Option Failure) × Volume
  | [] => ([], v)
  | action :: rest =>
    let (answer, v) := v.perform action
    let (answers, v) := v.performAll rest
    (answer :: answers, v)

theorem performAll_cons (v : Volume) (action : Action) (rest : List Action) :
    (v.performAll (action :: rest)).2 = ((v.perform action).2.performAll rest).2 := rfl

end Volume

end AtariDisk
