import AtariDisk.Proofs.Header.Runs
import AtariDisk.Proofs.Image.Conversion

/-!
# Reading and writing runs

A run of sectors is read and written at once, but the answer is that of its sectors taken one by one
(`readEach`, `writeEach`). Bytes can be written over a run exactly if they end where a sector ends;
otherwise they reach behind the last sector or end inside of one, and the image says which.
-/

namespace AtariDisk

namespace Header

/-- The pieces are as long as the sectors from `sector` on. -/
def Fills (h : Header) : (sector : Nat) → List Bytes → Prop
  | _, [] => True
  | sector, piece :: rest =>
    piece.length = (h.place sector).length ∧ h.Fills (sector + 1) rest

theorem exists_fills (h : Header) {sector count : Nat} {bytes : Bytes}
    (hlength : bytes.length = h.runLength sector count) :
    ∃ pieces, pieces.length = count ∧ pieces.flatten = bytes ∧ h.Fills sector pieces := by
  induction count generalizing sector bytes with
  | zero =>
    obtain rfl : bytes = [] := List.eq_nil_of_length_eq_zero hlength
    exact ⟨[], rfl, rfl, trivial⟩
  | succ count ih =>
    rw [runLength] at hlength
    have hbehind :
        (bytes.drop (h.place sector).length).length = h.runLength (sector + 1) count := by
      rw [List.length_drop]
      omega
    obtain ⟨rest, hcount, hrest, hfills⟩ := ih hbehind
    refine ⟨bytes.take (h.place sector).length :: rest, ?_, ?_, ?_, hfills⟩
    · rw [List.length_cons, hcount]
    · rw [List.flatten_cons, hrest, List.take_append_drop]
    · rw [List.length_take]
      omega

theorem HasRun.tail {h : Header} {sector count : Nat} (hrun : h.HasRun sector (count + 1 + 1)) :
    h.HasRun (sector + 1) (count + 1) := by
  refine ⟨by omega, ?_⟩
  intro n hfirst hlast
  exact hrun.2 n (by omega) (by omega)

end Header

namespace Image

/-- The bytes of `count` sectors from `sector` on, read one by one. -/
def readEach (image : Image) : (sector count : Nat) → Outcome Bytes
  | _, 0 => .ok []
  | sector, count + 1 => do
    let first ← image.readSector sector
    let rest ← image.readEach (sector + 1) count
    return first ++ rest

/-- Writes the pieces over the sectors from `sector` on, one by one. -/
def writeEach : (sector : Nat) → List Bytes → Edit Unit
  | _, [] => pure ()
  | sector, piece :: rest => do
    writeSector sector piece
    writeEach (sector + 1) rest

theorem Sound.bytesFrom_le {image : Image} (hsound : image.Sound) {sector : Nat}
    (hfirst : 1 ≤ sector) (hlast : sector ≤ image.header.sectorCount + 1) :
    (image.header.place sector).offset + image.header.bytesFrom sector ≤ image.data.size := by
  rw [← hsound.covered]
  exact Header.bytesFrom_inside hsound.regular hfirst hlast

theorem patch_patch (image : Image) (position : Nat) (first second : Bytes) :
    (image.patch position first).patch (position + first.length) second =
      image.patch position (first ++ second) := by
  simp only [patch, Buffer.overlay_append]

section Sound

variable {image : Image} (hsound : image.Sound) (hsize : image.data.size < Word.bound)

include hsound hsize

theorem Sound.hasSector_iff {n : Nat} :
    image.header.hasSector n = .ok true ↔ 1 ≤ n ∧ n ≤ image.header.sectorCount :=
  Header.hasSector_iff hsound.regular (hsound.imageSize_lt hsize)

theorem Sound.hasRun_iff {sector count : Nat} :
    image.header.HasRun sector count ↔
      1 ≤ count ∧ 1 ≤ sector ∧ sector + count ≤ image.header.sectorCount + 1 :=
  Header.hasRun_iff hsound.regular (hsound.imageSize_lt hsize)

theorem Sound.hasRun_one_iff {n : Nat} :
    image.header.HasRun n 1 ↔ image.header.hasSector n = .ok true := by
  rw [hsound.hasRun_iff hsize, hsound.hasSector_iff hsize]
  omega

theorem Sound.runLength_le {sector count : Nat} (hrun : image.header.HasRun sector count) :
    (image.header.place sector).offset + image.header.runLength sector count ≤
      image.data.size := by
  obtain ⟨hcount, hfirst, hlast⟩ := (hsound.hasRun_iff hsize).1 hrun
  have hlength := Header.runLength_le_bytesFrom hsound.regular hlast
  have hinside := hsound.bytesFrom_le hfirst (by omega)
  omega

/-- The sectors of a disk are all in the file, so a run is refused by the header or not at all. -/
theorem Sound.span_eq (sector count : Nat) :
    image.span sector count = image.header.region sector count := by
  have hregion := Header.region_eq hsound.regular (hsound.imageSize_lt hsize) sector count
  unfold span
  rw [hregion]
  split
  · rename_i hon
    split
    · rfl
    · split
      · rename_i hlast
        have hlength := Header.runLength_le_bytesFrom hsound.regular hlast
        have hinside := hsound.bytesFrom_le hon.1 (by omega)
        rw [Outcome.ok_bind, Word.add_eq_ok_iff.2 ⟨by simp only; omega, rfl⟩, Outcome.ok_bind,
          if_neg (by simp only; omega)]
        rfl
      · rfl
  · rfl

theorem Sound.span_of_hasRun {sector count : Nat} (hrun : image.header.HasRun sector count) :
    image.span sector count =
      .ok ⟨(image.header.place sector).offset, image.header.runLength sector count⟩ := by
  have hcountable := hsound.countable hsize
  obtain ⟨hcount, hfirst, hlast⟩ := (hsound.hasRun_iff hsize).1 hrun
  rw [hsound.span_eq hsize, Header.region_eq hsound.regular (hsound.imageSize_lt hsize),
    if_pos (by omega), if_neg (by omega), if_pos hlast]

theorem Sound.fill_eq {sector count : Nat} (hrun : image.header.HasRun sector count)
    (bytes : Bytes) :
    image.fill sector count bytes =
      if image.header.runLength sector count = bytes.length then
        .ok (some ((image.header.place sector).offset, bytes))
      else refuse (.sizeMismatch sector (image.header.runLength sector count) bytes.length) := by
  rw [fill, hsound.span_of_hasRun hsize hrun, Outcome.ok_bind]
  rfl

/-! ### Reading -/

/-- What reading a run comes to. The largest number is one too large for the end of a run: counting
the sectors up to there, or going one sector further, leaves the range of a word. -/
theorem Sound.readRun_eq {start stop : Nat} (hstop : stop < Word.bound) :
    image.readRun start stop =
      if stop < start then refuse (.sectorOutOfRange stop 1 image.header.sectorCount)
      else if start ≤ image.header.sectorCount ∧ stop + 1 = Word.bound then trap .overflow
      else if 1 ≤ start ∧ start ≤ image.header.sectorCount then
        if stop ≤ image.header.sectorCount then
          .ok (Buffer.slice image.data (image.header.place start).offset
            (image.header.runLength start (stop + 1 - start)))
        else refuse (.sectorOutOfRange (image.header.sectorCount + 1) 1 image.header.sectorCount)
      else refuse (.sectorOutOfRange start 1 image.header.sectorCount) := by
  have hcountable := hsound.countable hsize
  unfold readRun
  by_cases hreversed : stop < start
  · rw [if_pos hreversed, if_pos hreversed]
    unfold Geometry.outOfRange
    rw [hsound.regular.lastSector_eq hcountable, hsound.regular.first]
    rfl
  · rw [if_neg hreversed, if_neg hreversed]
    by_cases hall : start = 0 ∧ stop + 1 = Word.bound
    · rw [if_pos (by omega), Word.add, if_neg (by omega)]
      rfl
    · have hcount : stop - start + 1 = stop + 1 - start := by omega
      have hend : start + (stop + 1 - start) = stop + 1 := by omega
      rw [Word.add_eq_ok_iff.2 ⟨by omega, rfl⟩, Outcome.ok_bind, hcount, hsound.span_eq hsize,
        Header.region_eq hsound.regular (hsound.imageSize_lt hsize), hend]
      by_cases hon : 1 ≤ start ∧ start ≤ image.header.sectorCount
      · rw [if_pos hon, if_pos hon]
        by_cases hlargest : stop + 1 = Word.bound
        · rw [if_pos (by omega), if_pos ⟨hon.2, hlargest⟩]
          rfl
        · rw [if_neg (show ¬Word.bound ≤ stop + 1 by omega),
            if_neg (show ¬(start ≤ image.header.sectorCount ∧ stop + 1 = Word.bound) by omega)]
          simp only [Nat.add_le_add_iff_right]
          split
          · rfl
          · rfl
      · rw [if_neg hon, if_neg (by omega), if_neg hon]
        rfl

theorem Sound.readRun_of_hasRun {sector count : Nat} (hrun : image.header.HasRun sector count) :
    image.readRun sector (sector + count - 1) =
      .ok (Buffer.slice image.data (image.header.place sector).offset
        (image.header.runLength sector count)) := by
  have hcountable := hsound.countable hsize
  obtain ⟨hcount, hfirst, hlast⟩ := (hsound.hasRun_iff hsize).1 hrun
  have hcounted : sector + count - 1 + 1 - sector = count := by omega
  rw [hsound.readRun_eq hsize (by omega), if_neg (by omega), if_neg (by omega), if_pos (by omega),
    if_pos (by omega), hcounted]

/-- A run that is read lies on the disk, and all of its bytes are there. -/
theorem Sound.length_of_readRun {start stop : Nat} {bytes : Bytes} (hstop : stop < Word.bound)
    (hread : image.readRun start stop = .ok bytes) :
    bytes.length = image.header.runLength start (stop + 1 - start) := by
  rw [hsound.readRun_eq hsize hstop] at hread
  split at hread
  · exact absurd hread (Outcome.refuse_ne_ok _ _)
  · split at hread
    · cases hread
    · split at hread
      · rename_i hon
        split at hread
        · have hrun : image.header.HasRun start (stop + 1 - start) :=
            (hsound.hasRun_iff hsize).2 (by omega)
          rw [← Except.ok.inj hread]
          exact Buffer.length_slice (hsound.runLength_le hsize hrun)
        · exact absurd hread (Outcome.refuse_ne_ok _ _)
      · exact absurd hread (Outcome.refuse_ne_ok _ _)

theorem Sound.readEach_eq {sector count : Nat} (hfirst : 1 ≤ sector)
    (hlast : sector + count ≤ image.header.sectorCount + 1) :
    image.readEach sector count =
      .ok (Buffer.slice image.data (image.header.place sector).offset
        (image.header.runLength sector count)) := by
  induction count generalizing sector with
  | zero => simp [readEach, Header.runLength, Buffer.slice]
  | succ count ih =>
    rw [readEach, hsound.readSector_eq hsize hfirst (by omega), Outcome.ok_bind,
      ih (by omega) (by omega), Outcome.ok_bind, Header.runLength, Buffer.slice_append,
      Header.place_succ hsound.regular hfirst]
    rfl

/-! ### Writing sector by sector -/

theorem Sound.writeSector_eq {sector : Nat} (hn : image.header.hasSector sector = .ok true)
    {bytes : Bytes} (hlength : bytes.length = (image.header.place sector).length) :
    writeSector sector bytes image = .ok () (image.put sector bytes) := by
  have hrun := (hsound.hasRun_one_iff hsize).2 hn
  have hone : image.header.runLength sector 1 = bytes.length := hlength.symm
  rw [← SectorWrite.edit, edit_eq, landing, hsound.fill_eq hsize hrun, if_pos hone]
  rfl

/-- Sectors written one behind the other leave the bytes of all of them in a row. -/
theorem Sound.writeEach_eq {sector : Nat} {piece : Bytes} {rest : List Bytes}
    (hrun : image.header.HasRun sector (rest.length + 1))
    (hfills : image.header.Fills sector (piece :: rest)) :
    writeEach sector (piece :: rest) image =
      .ok () (image.patch (image.header.place sector).offset (piece ++ rest.flatten)) := by
  have hn := hrun.2 sector (Nat.le_refl _) (by omega)
  induction rest generalizing image sector piece with
  | nil =>
    rw [writeEach, Call.bind_of_ok (hsound.writeSector_eq hsize hn hfills.1), List.flatten_nil,
      List.append_nil]
    rfl
  | cons next rest ih =>
    have halike := alike_put image sector piece
    have hnext := Header.place_succ hsound.regular ((hsound.hasSector_iff hsize).1 hn).1
    rw [← hfills.1] at hnext
    have hsize' : (image.put sector piece).data.size < Word.bound := by
      rw [halike.size]
      exact hsize
    have hrest := ih (hsound.of_alike halike) hsize' hrun.tail hfills.2
      (hrun.2 (sector + 1) (by omega) (by simp))
    rw [writeEach, Call.bind_of_ok (hsound.writeSector_eq hsize hn hfills.1), hrest, header_put,
      hnext, put, patch_patch, List.flatten_cons]

/-! ### Writing a run -/

/-- Bytes that end in the last sector of a run are written over that run, or not at all. -/
theorem Sound.landing_run {sector count : Nat} (hrun : image.header.HasRun sector (count + 1))
    {bytes : Bytes} (hmore : image.header.runLength sector count < bytes.length)
    (henough : bytes.length ≤ image.header.runLength sector (count + 1)) :
    image.landing (.run sector bytes) = image.fill sector (count + 1) bytes := by
  have hregular := hsound.regular
  have hinside := hsound.runLength_le hsize hrun
  obtain ⟨_, hfirst, hlast⟩ := (hsound.hasRun_iff hsize).1 hrun
  have hneeded : ∀ fewer < count + 1, 0 + image.header.runLength sector fewer < bytes.length := by
    intro fewer hfewer
    rcases Nat.lt_or_eq_of_le (Nat.le_of_lt_succ hfewer) with hless | rfl
    · have hshorter := Header.runLength_lt hregular hless sector
      omega
    · omega
  have hfilled : ¬bytes.isEmpty := by
    rw [List.isEmpty_iff_length_eq_zero]
    omega
  rw [landing, if_neg hfilled, Header.countCovering_eq hregular (hsound.imageSize_lt hsize) hfirst
    hlast (by omega) (by omega) hneeded, Outcome.ok_bind]

theorem Sound.landing_run_past {sector : Nat} (hn : image.header.hasSector sector = .ok true)
    {bytes : Bytes} (hpast : image.header.bytesFrom sector < bytes.length) :
    image.landing (.run sector bytes) = refuse (.sectorOutOfRange (image.header.sectorCount + 1) 1
      image.header.sectorCount) := by
  obtain ⟨hfirst, hlast⟩ := (hsound.hasSector_iff hsize).1 hn
  have hinside := hsound.bytesFrom_le hfirst (by omega)
  have hfilled : ¬bytes.isEmpty := by
    rw [List.isEmpty_iff_length_eq_zero]
    omega
  rw [landing, if_neg hfilled, Header.countCovering_past hsound.regular (hsound.imageSize_lt hsize)
    hfirst (by omega) (by omega) (by omega), Outcome.refuse_bind]

theorem Sound.landing_run_outside {sector : Nat} (hn : image.header.hasSector sector ≠ .ok true)
    {bytes : Bytes} (hbytes : bytes ≠ []) :
    image.landing (.run sector bytes) =
      refuse (.sectorOutOfRange sector 1 image.header.sectorCount) := by
  rw [ne_eq, hsound.hasSector_iff hsize] at hn
  have hsome := List.length_pos_iff.2 hbytes
  rw [landing, if_neg (by simpa using hbytes), Header.countCovering_outside hsound.regular
    (hsound.imageSize_lt hsize) hsome hn, Outcome.refuse_bind]

theorem Sound.writeRun_ok {sector count : Nat} (hrun : image.header.HasRun sector count)
    {bytes : Bytes} (hlength : bytes.length = image.header.runLength sector count) :
    writeRun sector bytes image =
      .ok () (image.patch (image.header.place sector).offset bytes) := by
  obtain ⟨before, rfl⟩ := Nat.exists_eq_add_of_le' hrun.1
  have hmore := Header.runLength_lt hsound.regular (Nat.lt_add_one before) sector
  rw [← SectorWrite.edit, edit_eq, hsound.landing_run hsize hrun (by omega) (by omega),
    hsound.fill_eq hsize hrun, if_pos hlength.symm]
  rfl

end Sound

theorem writeRun_of_refused {image : Image} {sector : Nat} {bytes : Bytes} {cause : DiskError}
    (hland : image.landing (.run sector bytes) = refuse cause) :
    writeRun sector bytes image = .error (.refused cause) image := by
  rw [← SectorWrite.edit, edit_eq, hland]
  rfl

/-- What a write over `count` sectors from `sector` on leaves behind. -/
structure RunWritten (image : Image) (sector count : Nat) (bytes : Bytes) (after : Image) :
    Prop where
  oneByOne : ∃ pieces, pieces.length = count ∧ pieces.flatten = bytes ∧
    writeEach sector pieces image = .ok () after
  readBack : after.readRun sector (sector + count - 1) = .ok bytes
  elsewhere : ∀ i, (∀ n, sector ≤ n → n < sector + count → ¬(image.header.place n).Covers i) →
    after.data[i]? = image.data[i]?

theorem Sound.runWritten {image : Image} (hsound : image.Sound)
    (hsize : image.data.size < Word.bound) {sector count : Nat}
    (hrun : image.header.HasRun sector count) {bytes : Bytes}
    (hlength : bytes.length = image.header.runLength sector count) :
    RunWritten image sector count bytes
      (image.patch (image.header.place sector).offset bytes) := by
  have halike := alike_patch image (image.header.place sector).offset bytes
  have hinside := hsound.runLength_le hsize hrun
  constructor
  · obtain ⟨pieces, hcount, hpieces, hfills⟩ := Header.exists_fills image.header hlength
    refine ⟨pieces, hcount, hpieces, ?_⟩
    cases pieces with
    | nil => exact absurd hrun.1 (by rw [← hcount]; decide)
    | cons piece rest =>
      rw [← hcount] at hrun
      rw [hsound.writeEach_eq hsize hrun hfills, ← hpieces, List.flatten_cons]
  · have hafter : (image.patch (image.header.place sector).offset bytes).Sound :=
      hsound.of_alike halike
    rw [hafter.readRun_of_hasRun (by rw [halike.size]; exact hsize) hrun, Except.ok.injEq,
      halike.header, ← hlength]
    exact Buffer.slice_overlay_self (by omega)
  · intro i hmiss
    refine (Buffer.getElem?_overlay ..).trans (if_neg ?_)
    rintro ⟨hstart, hend, _⟩
    rw [hlength] at hend
    obtain ⟨_, hfirst, _⟩ := (hsound.hasRun_iff hsize).1 hrun
    obtain ⟨n, hn, hlast, hcovers⟩ := Header.exists_covers hsound.regular hfirst hstart hend
    exact hmiss n hn hlast hcovers

theorem Sound.exists_writeRun_past {image : Image} (hsound : image.Sound)
    (hsize : image.data.size < Word.bound) {sector : Nat} {bytes : Bytes} (hbytes : bytes ≠ [])
    (hpast : image.header.hasSector sector ≠ .ok true ∨
      image.header.bytesFrom sector < bytes.length) :
    ∃ n, writeRun sector bytes image =
      .error (.refused (.sectorOutOfRange n 1 image.header.sectorCount)) image := by
  by_cases hn : image.header.hasSector sector = .ok true
  · have hmore := hpast.resolve_left (fun hnot => hnot hn)
    exact ⟨_, writeRun_of_refused (hsound.landing_run_past hsize hn hmore)⟩
  · exact ⟨_, writeRun_of_refused (hsound.landing_run_outside hsize hn hbytes)⟩

theorem Sound.exists_writeRun_inside {image : Image} (hsound : image.Sound)
    (hsize : image.data.size < Word.bound) {sector : Nat} {bytes : Bytes} (hbytes : bytes ≠ [])
    (hn : image.header.hasSector sector = .ok true)
    (hroom : bytes.length ≤ image.header.bytesFrom sector)
    (hodd : ∀ count, image.header.HasRun sector count →
      bytes.length ≠ image.header.runLength sector count) :
    ∃ count, image.header.HasRun sector (count + 1) ∧
      image.header.runLength sector count < bytes.length ∧
      bytes.length < image.header.runLength sector (count + 1) ∧
      writeRun sector bytes image = .error (.refused (.sizeMismatch sector
        (image.header.runLength sector (count + 1)) bytes.length)) image := by
  obtain ⟨hfirst, hlast⟩ := (hsound.hasSector_iff hsize).1 hn
  obtain ⟨count, hrun, hmore, henough⟩ := Header.exists_least_run hsound.regular
    (hsound.imageSize_lt hsize) hfirst hlast (List.length_pos_iff.2 hbytes) hroom
  have hne := hodd (count + 1) hrun
  refine ⟨count, hrun, hmore, by omega, writeRun_of_refused ?_⟩
  rw [hsound.landing_run hsize hrun hmore henough, hsound.fill_eq hsize hrun, if_neg hne.symm]

/-- **A run is its sectors in a row.** Reading a run answers what reading its sectors one by one
does. Bytes are written over the sectors from `start` on exactly if they are as long as a run that
starts there, and then with the same effect as sector by sector; the run reads back as the bytes,
and no other byte of the file changes. If the first sector is not on the disk, or the bytes are more
than it has from there on, a sector is out of range; if they end inside a sector, their number is
wrong. Either way the image stays as it was. -/
theorem runs_are_sectors_in_a_row {image : Image} (hmade : image.Made)
    (hsize : image.data.size < Word.bound) :
    (∀ start stop, start ≤ stop → image.header.hasSector start = .ok true →
      image.header.hasSector stop = .ok true →
        ∃ bytes, image.readRun start stop = .ok bytes ∧
          image.readEach start (stop + 1 - start) = .ok bytes) ∧
    ∀ start bytes, bytes ≠ [] →
      ((∃ after, writeRun start bytes image = .ok () after) ↔
        ∃ count, image.header.HasRun start count ∧
          bytes.length = image.header.runLength start count) ∧
      (∀ count, image.header.HasRun start count →
        bytes.length = image.header.runLength start count →
          ∃ after, writeRun start bytes image = .ok () after ∧
            RunWritten image start count bytes after) ∧
      (image.header.hasSector start ≠ .ok true ∨ image.header.bytesFrom start < bytes.length →
        ∃ n, writeRun start bytes image =
          .error (.refused (.sectorOutOfRange n 1 image.header.sectorCount)) image) ∧
      (image.header.hasSector start = .ok true → bytes.length ≤ image.header.bytesFrom start →
        (∀ count, image.header.HasRun start count →
          bytes.length ≠ image.header.runLength start count) →
            ∃ count, image.header.HasRun start (count + 1) ∧
              image.header.runLength start count < bytes.length ∧
              bytes.length < image.header.runLength start (count + 1) ∧
              writeRun start bytes image = .error (.refused (.sizeMismatch start
                (image.header.runLength start (count + 1)) bytes.length)) image) := by
  obtain ⟨hsound, _⟩ := hmade.sound
  constructor
  · intro start stop hle hstart hstop
    obtain ⟨hfirst, _⟩ := (hsound.hasSector_iff hsize).1 hstart
    obtain ⟨_, hlast⟩ := (hsound.hasSector_iff hsize).1 hstop
    have hrun : image.header.HasRun start (stop + 1 - start) :=
      (hsound.hasRun_iff hsize).2 (by omega)
    have hread := hsound.readRun_of_hasRun hsize hrun
    rw [show start + (stop + 1 - start) - 1 = stop by omega] at hread
    exact ⟨_, hread, hsound.readEach_eq hsize hfirst (by omega)⟩
  · intro start bytes hbytes
    refine ⟨⟨?_, ?_⟩, ?_, ?_, ?_⟩
    · rintro ⟨after, hok⟩
      by_contra hnone
      push Not at hnone
      by_cases hroom : image.header.hasSector start = .ok true ∧
          bytes.length ≤ image.header.bytesFrom start
      · obtain ⟨_, _, _, _, herror⟩ :=
          hsound.exists_writeRun_inside hsize hbytes hroom.1 hroom.2 hnone
        rw [herror] at hok
        cases hok
      · rw [not_and_or, Nat.not_le] at hroom
        obtain ⟨_, herror⟩ := hsound.exists_writeRun_past hsize hbytes hroom
        rw [herror] at hok
        cases hok
    · rintro ⟨count, hrun, hlength⟩
      exact ⟨_, hsound.writeRun_ok hsize hrun hlength⟩
    · intro count hrun hlength
      exact ⟨_, hsound.writeRun_ok hsize hrun hlength, hsound.runWritten hsize hrun hlength⟩
    · intro hpast
      exact hsound.exists_writeRun_past hsize hbytes hpast
    · intro hn hroom hodd
      exact hsound.exists_writeRun_inside hsize hbytes hn hroom hodd

/-- On a disk with short boot sectors, four sectors from the second on hold 768 bytes: so many are
written and read back. Half of the last sector cannot be written, and there is none behind it. -/
theorem runs_are_sectors_in_a_row_mixed :
    ∃ image : Image, DiskPlan.image (DiskPlan.doubleDensity {}) = .ok image ∧
      image.header.bootSectors = 3 ∧
      (∃ bytes, image.readRun 2 5 = .ok bytes ∧ image.readEach 2 4 = .ok bytes) ∧
      (∃ after, writeRun 2 (Bytes.zeros 768) image = .ok () after ∧
        RunWritten image 2 4 (Bytes.zeros 768) after) ∧
      (∃ expected, writeRun 720 (Bytes.zeros 128) image =
        .error (.refused (.sizeMismatch 720 expected 128)) image) ∧
      ∃ n, writeRun 720 (Bytes.zeros 512) image =
        .error (.refused (.sectorOutOfRange n 1 720)) image := by
  obtain ⟨image, hplan, hheader⟩ : ∃ image : Image,
      DiskPlan.image (DiskPlan.doubleDensity {}) = .ok image ∧ image.header = shortBootHeader :=
    ⟨_, plan_image_eq_ok_iff.2 ⟨183936, shortBootHeader, rfl, rfl, by decide, rfl⟩, rfl⟩
  have hmade : image.Made := .inr ⟨_, hplan⟩
  have hsize : image.data.size < Word.bound := by
    rw [← hmade.sound.1.covered, hheader]
    decide
  have hrun : ∀ {sector count}, shortBootHeader.HasRun sector count ↔
      1 ≤ count ∧ 1 ≤ sector ∧ sector + count ≤ 721 := by
    intro sector count
    rw [← hheader, hmade.sound.1.hasRun_iff hsize, hheader]
    rfl
  obtain ⟨hread, hwrite⟩ := runs_are_sectors_in_a_row hmade hsize
  rw [hheader] at hread hwrite
  have hfilled : ∀ {n}, 0 < n → Bytes.zeros n ≠ [] := by
    intro n hn
    apply List.ne_nil_of_length_pos
    rwa [Bytes.length_zeros]
  refine ⟨image, hplan, by rw [hheader]; rfl, hread 2 5 (by decide) rfl rfl, ?_, ?_, ?_⟩
  · exact (hwrite 2 _ (hfilled (by decide))).2.1 4 (hrun.2 (by decide))
      (by rw [Bytes.length_zeros]; rfl)
  · have hodd := (hwrite 720 _ (hfilled (n := 128) (by decide))).2.2.2
    rw [Bytes.length_zeros] at hodd
    obtain ⟨count, _, _, _, herror⟩ := hodd rfl (by decide) (by
      intro count hcount
      obtain rfl : count = 1 := by
        have hlast := hrun.1 hcount
        omega
      decide)
    exact ⟨_, herror⟩
  · apply (hwrite 720 _ (hfilled (by decide))).2.2.1
    rw [Bytes.length_zeros]
    exact .inr (by decide)

end Image

end AtariDisk
