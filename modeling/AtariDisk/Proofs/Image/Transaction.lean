import AtariDisk.Image.Transaction
import AtariDisk.Proofs.Image.Sectors

/-!
# Transactions are atomic

An edit that only writes sectors leaves the rest of the image alone, whichever way it ends
(`Edit.Keeps`). Such an edit, run inside a transaction on an idle image, either goes through as a
whole or changes nothing at all.
-/

namespace AtariDisk

namespace Edit

open Call

variable {α β : Type}

/-- The edit changes an image in its sectors only. -/
def Keeps (edit : Edit α) : Prop :=
  ∀ image, Image.Alike image (edit.after image)

theorem Keeps.of_ok {edit : Edit α} (hkeeps : edit.Keeps) {image mid : Image} {a : α}
    (hok : edit image = .ok a mid) : Image.Alike image mid :=
  after_of_ok hok ▸ hkeeps image

theorem Keeps.of_error {edit : Edit α} (hkeeps : edit.Keeps) {image mid : Image} {e : Failure}
    (herror : edit image = .error e mid) : Image.Alike image mid :=
  after_of_error herror ▸ hkeeps image

theorem keeps_pure (a : α) : Keeps (pure a) := fun image => Image.Alike.refl image

theorem keeps_ofOutcome (x : Outcome α) : Keeps (ofOutcome x : Edit α) := by
  intro image
  cases x with
  | ok a => exact Image.Alike.refl image
  | error e => exact Image.Alike.refl image

theorem Keeps.bind {x : Edit α} {f : α → Edit β} (hx : x.Keeps) (hf : ∀ a, (f a).Keeps) :
    Keeps (x >>= f) := by
  intro image
  cases hstep : x image with
  | ok a mid =>
    have hrest : (x >>= f).after image = (f a).after mid := by
      rw [after, after, bind_of_ok hstep]
    rw [hrest]
    exact (hx.of_ok hstep).trans (hf a mid)
  | error e mid =>
    rw [after_of_error (bind_of_error hstep f)]
    exact hx.of_error hstep

theorem Keeps.get_bind {f : Image → Edit β} (hf : ∀ image, (f image).Keeps) :
    Keeps ((get : Edit Image) >>= f) := fun image => hf image image

theorem keeps_writeCount (sector count : Nat) (bytes : Bytes) :
    Keeps (Image.writeCount sector count bytes) := by
  intro image
  unfold after Image.writeCount
  cases image.span sector count with
  | error e => exact Image.Alike.refl image
  | ok span =>
    by_cases hsized : span.length = bytes.length
    · simp only [hsized, if_true]
      exact Image.alike_patch image span.offset bytes
    · simp only [hsized, if_false]
      exact Image.Alike.refl image

theorem keeps_writeSector (sector : Nat) (bytes : Bytes) : Keeps (Image.writeSector sector bytes) :=
  keeps_writeCount sector 1 bytes

theorem keeps_writeRun (sector : Nat) (bytes : Bytes) : Keeps (Image.writeRun sector bytes) := by
  intro image
  unfold after Image.writeRun
  by_cases hempty : bytes.isEmpty
  · simp only [hempty, if_true]
    exact Image.Alike.refl image
  · simp only [hempty, Bool.false_eq_true, if_false]
    cases image.header.countCovering bytes.length sector 0 with
    | error e => exact Image.Alike.refl image
    | ok count => exact keeps_writeCount sector count bytes image

theorem keeps_writeSized (sector size : Nat) (make : Unit → Bytes) :
    Keeps (Image.writeSized sector size make) := by
  intro image
  unfold after Image.writeSized
  cases image.span sector 1 with
  | error e => exact Image.Alike.refl image
  | ok span =>
    by_cases hsized : span.length = size
    · simp only [hsized, if_true]
      exact Image.alike_patch image span.offset (make ())
    · simp only [hsized, if_false]
      exact Image.Alike.refl image

end Edit

namespace Transaction

variable {α : Type} {edit : Edit α} {image after : Image}

theorem run_of_idle (edit : Edit α) (hidle : image.phase = .idle) :
    run edit image =
      match edit { image with phase := .mutating } with
      | .ok a mid => .ok a { mid with phase := .idle }
      | .error (.refused cause) mid =>
        .error (.refused cause)
          { mid with data := image.data, changed := image.changed, phase := .idle }
      | .error (.trapped cause) mid =>
        .error (.trapped cause) (close ⟨mid, some ⟨image.data, image.changed⟩⟩) := by
  unfold run start
  rw [if_pos hidle]
  simp only [work]
  cases edit { image with phase := .mutating } with
  | ok a mid => simp [commit, close]
  | error e mid =>
    cases e with
    | refused cause => simp [rollback, restore, close]
    | trapped cause => rfl

theorem run_eq_ok_iff {a : α} (hidle : image.phase = .idle) :
    run edit image = .ok a after ↔
      ∃ mid, edit { image with phase := .mutating } = .ok a mid ∧
        after = { mid with phase := .idle } := by
  rw [run_of_idle edit hidle]
  cases edit { image with phase := .mutating } with
  | ok b mid =>
    simp only [EStateM.Result.ok.injEq]
    constructor
    · rintro ⟨rfl, rfl⟩
      exact ⟨mid, ⟨rfl, rfl⟩, rfl⟩
    · rintro ⟨_, ⟨rfl, rfl⟩, rfl⟩
      exact ⟨rfl, rfl⟩
  | error e mid =>
    cases e with
    | refused cause => simp
    | trapped cause => simp

/-- A failed transaction leaves the image exactly as it was. -/
theorem run_error_eq {e : Failure} (hkeeps : edit.Keeps) (hidle : image.phase = .idle)
    (herror : run edit image = .error e after) : after = image := by
  rw [run_of_idle edit hidle] at herror
  -- Either way the bytes and the changed flag come from the snapshot, the rest was never touched.
  have hrestored : ∀ mid : Image, Image.Alike { image with phase := .mutating } mid →
      { mid with data := image.data, changed := image.changed, phase := Phase.idle } = image := by
    intro mid halike
    have hheader : mid.header = image.header := halike.header
    have hname : mid.fileName = image.fileName := halike.fileName
    rw [hheader, hname, ← hidle]
  cases hedit : edit { image with phase := .mutating } with
  | ok a mid => simp [hedit] at herror
  | error failure mid =>
    have halike := hkeeps.of_error hedit
    cases failure with
    | refused cause =>
      simp only [hedit, EStateM.Result.error.injEq] at herror
      rw [← herror.2]
      exact hrestored mid halike
    | trapped cause =>
      have hopen : mid.phase = .mutating := halike.phase
      simp only [hedit, EStateM.Result.error.injEq] at herror
      rw [← herror.2]
      simp only [close, hopen, or_true, if_true, restore]
      exact hrestored mid halike

end Transaction

end AtariDisk
