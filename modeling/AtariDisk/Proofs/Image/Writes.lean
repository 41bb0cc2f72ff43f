import AtariDisk.Proofs.Image.Transaction

/-!
# Writes to sectors

A write is asked for by sectors and either refused, without a trace, or put over bytes behind the
header. Whether an image takes a write depends on its header and its size, which no write changes:
the answers to a row of writes can be told beforehand.
-/

namespace AtariDisk

/-- A call that writes to the sectors of an image. -/
inductive SectorWrite where
  | one (sector : Nat) (bytes : Bytes)
  | run (sector : Nat) (bytes : Bytes)
deriving DecidableEq, Repr

def SectorWrite.edit : SectorWrite → Edit Unit
  | one sector bytes => Image.writeSector sector bytes
  | run sector bytes => Image.writeRun sector bytes

namespace Image

/-- What the image says to a write. -/
def answer (image : Image) (write : SectorWrite) : Outcome Unit :=
  match write.edit image with
  | .ok _ _ => .ok ()
  | .error e _ => .error e

def accepts (image : Image) (write : SectorWrite) : Bool :=
  match image.answer write with
  | .ok _ => true
  | .error _ => false

/-- The image after some writes, whatever it says to them. -/
def afterAll (image : Image) (writes : List SectorWrite) : Image :=
  writes.foldl (fun image write => write.edit.after image) image

/-! ### Where writes land -/

theorem length_le_of_span {image : Image} {sector count : Nat} {span : Span}
    (hspan : image.span sector count = .ok span) : image.header.length ≤ span.offset := by
  obtain ⟨region, hregion, hrest⟩ := Outcome.bind_eq_ok_iff.1 hspan
  obtain ⟨stop, _, hinside⟩ := Outcome.bind_eq_ok_iff.1 hrest
  have hsame : region = span := by
    split at hinside
    · obtain ⟨last, _, hrefused⟩ := Outcome.bind_eq_ok_iff.1 hinside
      obtain ⟨_, _, hrefused⟩ := Outcome.bind_eq_ok_iff.1 hrefused
      exact absurd hrefused (Outcome.refuse_ne_ok _ _)
    · exact Except.ok.inj hinside
  obtain ⟨first, hfirst, hregion⟩ := Outcome.bind_eq_ok_iff.1 hregion
  obtain ⟨_, _, hregion⟩ := Outcome.bind_eq_ok_iff.1 hregion
  obtain ⟨total, _, hregion⟩ := Outcome.bind_eq_ok_iff.1 hregion
  obtain ⟨behind, _, hfirst⟩ := Outcome.bind_eq_ok_iff.1 hfirst
  obtain ⟨offset, hoffset, hfirst⟩ := Outcome.bind_eq_ok_iff.1 hfirst
  obtain ⟨_, rfl⟩ := Word.add_eq_ok_iff.1 hoffset
  rw [← hsame, ← Except.ok.inj hregion, ← Except.ok.inj hfirst]
  exact Nat.le_add_left _ _

theorem span_of_alike {a b : Image} (halike : Alike a b) (sector count : Nat) :
    b.span sector count = a.span sector count := by
  unfold Image.span
  rw [halike.header, halike.size]

/-- Where bytes that fill some sectors come to lie. -/
def fill (image : Image) (sector count : Nat) (bytes : Bytes) : Outcome (Option (Nat × Bytes)) := do
  let span ← image.span sector count
  if span.length = bytes.length then return some (span.offset, bytes)
  else refuse (.sizeMismatch sector span.length bytes.length)

/-- Where the bytes of a write come to lie; an empty run lies nowhere. -/
def landing (image : Image) : SectorWrite → Outcome (Option (Nat × Bytes))
  | .one sector bytes => image.fill sector 1 bytes
  | .run sector bytes =>
    if bytes.isEmpty then .ok none
    else do
      let count ← image.header.countCovering bytes.length sector 0
      image.fill sector count bytes

/-- The image with the bytes where they are to lie. -/
def land (image : Image) : Option (Nat × Bytes) → Image
  | none => image
  | some (position, bytes) => image.patch position bytes

theorem landing_of_alike {a b : Image} (halike : Alike a b) (write : SectorWrite) :
    b.landing write = a.landing write := by
  cases write with
  | one sector bytes => simp only [landing, fill, span_of_alike halike]
  | run sector bytes => simp only [landing, fill, span_of_alike halike, halike.header]

theorem length_le_of_landing {image : Image} {write : SectorWrite} {position : Nat} {bytes : Bytes}
    (hland : image.landing write = .ok (some (position, bytes))) :
    image.header.length ≤ position := by
  have hfill : ∀ {sector count contents},
      image.fill sector count contents = .ok (some (position, bytes)) →
        image.header.length ≤ position := by
    intro sector count contents hfill
    obtain ⟨span, hspan, hrest⟩ := Outcome.bind_eq_ok_iff.1 hfill
    split at hrest
    · cases hrest
      exact length_le_of_span hspan
    · exact absurd hrest (Outcome.refuse_ne_ok _ _)
  cases write with
  | one sector contents => exact hfill hland
  | run sector contents =>
    rw [landing] at hland
    split at hland
    · cases hland
    · obtain ⟨count, _, hland⟩ := Outcome.bind_eq_ok_iff.1 hland
      exact hfill hland

/-- All that a write can do. -/
theorem edit_eq (image : Image) (write : SectorWrite) :
    write.edit image = match image.landing write with
      | .ok place => .ok () (image.land place)
      | .error e => .error e image := by
  have hcount : ∀ sector count bytes, writeCount sector count bytes image =
      match image.fill sector count bytes with
      | .ok place => .ok () (image.land place)
      | .error e => .error e image := by
    intro sector count bytes
    unfold writeCount fill
    cases image.span sector count with
    | error e => rfl
    | ok span =>
      rw [Outcome.ok_bind]
      simp only
      split
      · rfl
      · rfl
  cases write with
  | one sector bytes => exact hcount sector 1 bytes
  | run sector bytes =>
    rw [SectorWrite.edit, writeRun, landing]
    split
    · rfl
    · cases image.header.countCovering bytes.length sector 0 with
      | error e => rfl
      | ok count => exact hcount sector count bytes

theorem answer_eq (image : Image) (write : SectorWrite) :
    image.answer write = (image.landing write).map fun _ => () := by
  rw [answer, edit_eq]
  cases image.landing write with
  | ok place => rfl
  | error e => rfl

theorem answer_of_alike {a b : Image} (halike : Alike a b) (write : SectorWrite) :
    b.answer write = a.answer write := by
  rw [answer_eq, answer_eq, landing_of_alike halike]

/-- A write takes no notice of a transaction. -/
theorem edit_phase (image : Image) (phase : Phase) (write : SectorWrite) :
    write.edit { image with phase } = match image.answer write with
      | .ok _ => .ok () { write.edit.after image with phase }
      | .error e => .error e { image with phase } := by
  have hsame : landing { image with phase } write = image.landing write := by
    cases write with
    | one sector bytes => rfl
    | run sector bytes => rfl
  rw [edit_eq, hsame, answer_eq, Call.after, edit_eq]
  cases image.landing write with
  | error e => rfl
  | ok place =>
    cases place with
    | none => rfl
    | some place => rfl

theorem Roomy.edit_one {image : Image} (hroomy : image.Roomy) {n : Nat} (hn : image.Linkable n)
    {bytes : Bytes} (hsized : bytes.length = (image.header.place n).length) :
    (SectorWrite.one n bytes).edit image = .ok () (image.put n bytes) := by
  rw [SectorWrite.edit, hroomy.writeSector_eq hn]
  exact if_pos hsized.symm

/-! ### Rows of writes -/

theorem afterAll_cons (image : Image) (write : SectorWrite) (rest : List SectorWrite) :
    image.afterAll (write :: rest) = (write.edit.after image).afterAll rest := rfl

theorem alike_after (image : Image) (write : SectorWrite) :
    Alike image (write.edit.after image) := by
  cases write with
  | one sector bytes => exact Edit.keeps_writeSector sector bytes image
  | run sector bytes => exact Edit.keeps_writeRun sector bytes image

theorem alike_afterAll (image : Image) (writes : List SectorWrite) :
    Alike image (image.afterAll writes) := by
  induction writes generalizing image with
  | nil => exact Alike.refl image
  | cons write rest ih => exact (alike_after image write).trans (ih _)

/-- No write reaches the bytes in front of the first sector. -/
theorem lead_afterAll (image : Image) (writes : List SectorWrite) {length : Nat}
    (hlength : length ≤ image.header.length) :
    Buffer.slice (image.afterAll writes).data 0 length = Buffer.slice image.data 0 length := by
  induction writes generalizing image with
  | nil => rfl
  | cons write rest ih =>
    have hheader := (alike_after image write).header
    rw [afterAll_cons, ih _ (by rw [hheader]; exact hlength), Call.after, edit_eq]
    cases hland : image.landing write with
    | error e => rfl
    | ok place =>
      cases place with
      | none => rfl
      | some place =>
        obtain ⟨position, bytes⟩ := place
        have hbehind := length_le_of_landing hland
        exact Buffer.slice_overlay_of_disjoint (.inl (by omega))

end Image

end AtariDisk
