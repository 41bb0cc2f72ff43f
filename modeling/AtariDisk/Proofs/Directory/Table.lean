import AtariDisk.Proofs.Directory.Slots
import Mathlib.Order.Bounds.Basic

/-!
# The directory as a table of files

An empty directory to which files are added, and from which they are removed, stays a table of at
most 64 files with different names. Files that were removed keep their slots and their names until
the slots are taken again, but nothing that looks for a file, a name or a free slot sees them.
-/

namespace AtariDisk.Directory

variable {d : Directory}

/-! ### Room in the table -/

theorem length_files_eq (hslots : ∀ e ∈ d.entries, e.slot < capacity) :
    d.files.length = (List.range capacity).countP d.isTaken := by
  rw [files_eq hslots, List.length_filterMap_eq_countP]
  congr 1
  funext slot
  exact Option.isSome_filter

/-- A slot is free exactly if there are fewer files than slots. -/
theorem exists_freeSlot_iff (hslots : ∀ e ∈ d.entries, e.slot < capacity) :
    (∃ slot, d.freeSlot = .ok slot) ↔ d.files.length < capacity := by
  have hlength : (List.range capacity).length = capacity := List.length_range
  have hle : (List.range capacity).countP d.isTaken ≤ capacity :=
    List.countP_le_length.trans_eq hlength
  rw [length_files_eq hslots]
  constructor
  · rintro ⟨slot, hslot⟩
    obtain ⟨hlt, hfree, _⟩ := freeSlot_eq_ok_iff.1 hslot
    refine lt_of_le_of_ne hle fun hfull => ?_
    have htaken := List.countP_eq_length.1 (hfull.trans hlength.symm) slot (List.mem_range.2 hlt)
    simp [hfree] at htaken
  · intro hless
    apply exists_freeSlot
    by_contra hnone
    have hfull : ∀ slot ∈ List.range capacity, d.isTaken slot = true := by
      intro slot hslot
      by_contra hfree
      exact hnone ⟨slot, List.mem_range.1 hslot, Bool.eq_false_iff.2 hfree⟩
    rw [List.countP_eq_length.2 hfull, hlength] at hless
    exact absurd hless (lt_irrefl _)

theorem files_any_eq_false_iff {name : FileName} :
    d.files.any (·.name = name) = false ↔ ∀ f ∈ d.files, f.name ≠ name := by
  simp [List.any_eq_false]

/-- The lowest free slot is the least of all numbers that no file has for its slot. -/
theorem isLeast_of_freeSlot {slot : Nat} (hslot : d.freeSlot = .ok slot) :
    IsLeast {slot | d.isTaken slot = false} slot := by
  obtain ⟨_, hfree, hbefore⟩ := freeSlot_eq_ok_iff.1 hslot
  refine ⟨hfree, fun other (hother : d.isTaken other = false) => ?_⟩
  by_contra hless
  have htaken := hbefore other (not_le.1 hless)
  exact absurd (htaken.symm.trans hother) (by decide)

/-! ### Changes -/

/-- A call that changes a directory. -/
inductive Change where
  | add (typed : String) (kind : FileKind)
  | remove (slot : Nat)
deriving DecidableEq, Repr

/-- The directory that a change leaves behind, whether it succeeds or fails. -/
def step (d : Directory) : Change → Directory
  | .add typed kind => (add typed kind).after d
  | .remove slot => (remove slot).after d

def steps (d : Directory) (changes : List Change) : Directory :=
  changes.foldl step d

/-- All that a change can do. -/
theorem step_cases (d : Directory) (change : Change) :
    d.step change = d ∨
      (∃ typed kind name slot, change = .add typed kind ∧ FileName.parse typed = .ok name ∧
        (∀ f ∈ d.files, f.name ≠ name) ∧ d.freeSlot = .ok slot ∧
          d.step change = d.set (fresh slot name kind)) ∨
      ∃ slot e, change = .remove slot ∧ d.get? slot = some e ∧ e.isInUse = true ∧
        d.step change = d.set e.markDeleted := by
  cases change with
  | add typed kind =>
    cases hadd : d.add typed kind with
    | error failure after =>
      have hsame := eq_of_add_error hadd
      exact .inl ((Call.after_of_error hadd).trans hsame)
    | ok e after =>
      obtain ⟨name, slot, hname, hnew, hslot, rfl, rfl⟩ := add_eq_ok_iff.1 hadd
      exact .inr (.inl ⟨typed, kind, name, slot, rfl, hname, files_any_eq_false_iff.1 hnew, hslot,
        Call.after_of_ok hadd⟩)
  | remove slot =>
    rcases d.remove_cases slot with ⟨e, hget, huse, hok⟩ | ⟨_, herror⟩
    · exact .inr (.inr ⟨slot, e, rfl, hget, huse, Call.after_of_ok hok⟩)
    · exact .inl (Call.after_of_error herror)

/-- Changes neither leave the disk with their slots nor the grammar with their names, and give no
name to two files. -/
structure Orderly (d : Directory) : Prop where
  slot_lt : ∀ e ∈ d.entries, e.slot < capacity
  named : ∀ e ∈ d.entries, e.name.Valid
  distinct : ∀ a ∈ d.files, ∀ b ∈ d.files, a.name = b.name → a = b

theorem orderly_empty (size : Nat) : Orderly (empty size) :=
  ⟨fun _ he => absurd he List.not_mem_nil, fun _ he => absurd he List.not_mem_nil,
    fun _ ha => absurd ha List.not_mem_nil⟩

theorem mem_files_set {e x : Entry} (hx : x ∈ (d.set e).files) :
    x = e ∧ e.isInUse = true ∨ x ∈ d.files := by
  obtain ⟨hmem, huse⟩ := List.mem_filter.1 hx
  rcases mem_insertEntry hmem with rfl | hold
  · exact .inl ⟨rfl, huse⟩
  · exact .inr (List.mem_filter.2 ⟨hold, huse⟩)

section Orderly

variable (hd : Orderly d)

include hd

theorem Orderly.set {e : Entry} (hslot : e.slot < capacity) (hname : e.name.Valid)
    (hnew : e.isInUse = true → ∀ f ∈ d.files, f.name ≠ e.name) : Orderly (d.set e) := by
  refine ⟨fun x hx => ?_, fun x hx => ?_, fun a ha b hb hsame => ?_⟩
  · rcases mem_insertEntry hx with rfl | hold
    · exact hslot
    · exact hd.slot_lt x hold
  · rcases mem_insertEntry hx with rfl | hold
    · exact hname
    · exact hd.named x hold
  · rcases mem_files_set ha with ⟨rfl, huse⟩ | hold
    · rcases mem_files_set hb with ⟨rfl, _⟩ | hother
      · rfl
      · exact absurd hsame.symm (hnew huse b hother)
    · rcases mem_files_set hb with ⟨rfl, huse⟩ | hother
      · exact absurd hsame (hnew huse a hold)
      · exact hd.distinct a hold b hother hsame

theorem Orderly.step (change : Change) : Orderly (d.step change) := by
  rcases d.step_cases change with hsame | ⟨_, kind, name, slot, _, hname, hnew, hslot, hafter⟩ |
      ⟨slot, e, _, hget, _, hafter⟩
  · rwa [hsame]
  · rw [hafter]
    exact hd.set (freeSlot_eq_ok_iff.1 hslot).1 (FileName.parse_eq_ok_iff.1 hname).2
      fun _ => hnew
  · -- A file that is removed is none any more, so it need not have a name of its own.
    obtain ⟨hmem, _⟩ := get?_eq_some_iff.1 hget
    rw [hafter]
    refine hd.set (hd.slot_lt e hmem) (hd.named e hmem) fun huse => ?_
    rw [Entry.isInUse_markDeleted] at huse
    exact absurd huse (by decide)

theorem Orderly.steps (changes : List Change) : Orderly (d.steps changes) := by
  induction changes generalizing d with
  | nil => exact hd
  | cons change rest ih => exact ih (hd.step change)

theorem Orderly.exists_add_iff (typed : String) (kind : FileKind) :
    (∃ e after, d.add typed kind = .ok e after) ↔
      ∃ name, FileName.parse typed = .ok name ∧ (∀ f ∈ d.files, f.name ≠ name) ∧
        d.files.length < capacity := by
  rw [← exists_freeSlot_iff hd.slot_lt]
  constructor
  · rintro ⟨e, after, hadd⟩
    obtain ⟨name, slot, hname, hnew, hslot, _⟩ := add_eq_ok_iff.1 hadd
    exact ⟨name, hname, files_any_eq_false_iff.1 hnew, slot, hslot⟩
  · rintro ⟨name, hname, hnew, slot, hslot⟩
    exact ⟨_, _,
      add_eq_ok_iff.2 ⟨name, slot, hname, files_any_eq_false_iff.2 hnew, hslot, rfl, rfl⟩⟩

/-- A name that cannot be read is not the name of any file, so spelling it out finds none. -/
theorem Orderly.find_eq_ok_iff {typed : String} {e : Entry} :
    d.find typed = .ok e ↔ e ∈ d.files ∧ FileName.parse typed = .ok e.name := by
  constructor
  · intro hfind
    have hmem := mem_files_of_find hfind
    have hanswers := answers_of_find hfind
    refine ⟨hmem, ?_⟩
    unfold Entry.answers at hanswers
    cases hparse : FileName.parse typed with
    | ok name =>
      rw [hparse, decide_eq_true_eq] at hanswers
      rw [hanswers]
    | error failure =>
      rw [hparse, decide_eq_true_eq] at hanswers
      have hvalid := hd.named e (List.mem_filter.1 hmem).1
      rw [FileName.parse_of_normalize_eq hvalid hanswers.symm] at hparse
      exact absurd hparse (by simp)
  · rintro ⟨hmem, hparse⟩
    exact find_of_unique hparse hmem fun f hf hsame => hd.distinct f hf e hmem hsame

end Orderly

/-- How a table of files answers. -/
structure FileTable (d : Directory) : Prop where
  placed : ∀ slot e, d.get? slot = some e → e.slot = slot ∧ slot < 64
  distinct : ∀ i j a b, d.get? i = some a → a.isInUse = true → d.get? j = some b →
    b.isInUse = true → a.name = b.name → i = j
  add_iff : ∀ typed kind, (∃ e after, d.add typed kind = .ok e after) ↔
    ∃ name, FileName.parse typed = .ok name ∧ (∀ f ∈ d.files, f.name ≠ name) ∧
      d.files.length < 64
  added : ∀ typed kind e after, d.add typed kind = .ok e after →
    d.step (.add typed kind) = after ∧ IsLeast {slot | d.isTaken slot = false} e.slot ∧
      FileName.parse typed = .ok e.name ∧ e.flags = .ofKind kind ∧
      after.get? e.slot = some e ∧ ∀ slot, slot ≠ e.slot → after.get? slot = d.get? slot
  not_added : ∀ typed kind failure after, d.add typed kind = .error failure after →
    d.step (.add typed kind) = after ∧ after = d
  find_iff : ∀ typed e, d.find typed = .ok e ↔
    ∃ name, FileName.parse typed = .ok name ∧ e ∈ d.files ∧ e.name = name
  found : ∀ typed e, d.find typed = .ok e → ∀ f ∈ d.files, f.name = e.name → f = e
  remove_iff : ∀ slot, (∃ after, d.remove slot = .ok () after) ↔
    ∃ e, d.get? slot = some e ∧ e.isInUse = true
  removed : ∀ slot after, d.remove slot = .ok () after → d.step (.remove slot) = after ∧
    ∃ e, d.get? slot = some e ∧ after.get? slot = some { e with flags := .deleted } ∧
      ∀ other, other ≠ slot → after.get? other = d.get? other
  not_removed : ∀ slot failure after, d.remove slot = .error failure after →
    d.step (.remove slot) = after ∧ after = d
  lasting : ∀ change slot e, d.get? slot = some e → ∃ f, (d.step change).get? slot = some f

theorem Orderly.fileTable (hd : Orderly d) : FileTable d where
  placed slot e hget := by
    obtain ⟨hmem, rfl⟩ := get?_eq_some_iff.1 hget
    exact ⟨rfl, hd.slot_lt e hmem⟩
  distinct i j a b ha haUse hb hbUse hsame := by
    have hmem : ∀ {slot e}, d.get? slot = some e → e.isInUse = true → e ∈ d.files :=
      fun hget huse => List.mem_filter.2 ⟨(get?_eq_some_iff.1 hget).1, huse⟩
    rw [← slot_of_get? ha, ← slot_of_get? hb,
      hd.distinct a (hmem ha haUse) b (hmem hb hbUse) hsame]
  add_iff := hd.exists_add_iff
  added typed kind e after hadd := by
    obtain ⟨name, slot, hname, _, hslot, rfl, rfl⟩ := add_eq_ok_iff.1 hadd
    refine ⟨Call.after_of_ok hadd, isLeast_of_freeSlot hslot, hname, rfl, ?_, ?_⟩
    · rw [get?_set, if_pos rfl]
    · intro other hother
      rw [get?_set, if_neg hother]
  not_added _ _ _ _ herror := ⟨Call.after_of_error herror, eq_of_add_error herror⟩
  find_iff typed e := by
    rw [hd.find_eq_ok_iff]
    constructor
    · rintro ⟨hmem, hname⟩
      exact ⟨e.name, hname, hmem, rfl⟩
    · rintro ⟨_, hname, hmem, rfl⟩
      exact ⟨hmem, hname⟩
  found typed e hfind f hf := hd.distinct f hf e (mem_files_of_find hfind)
  remove_iff slot := by
    constructor
    · rintro ⟨after, hremove⟩
      obtain ⟨e, hget, huse, _⟩ := remove_eq_ok_iff.1 hremove
      exact ⟨e, hget, huse⟩
    · rintro ⟨e, hget, huse⟩
      exact ⟨_, remove_eq_ok_iff.2 ⟨e, hget, huse, rfl⟩⟩
  removed slot after hremove := by
    obtain ⟨e, hget, _, rfl⟩ := remove_eq_ok_iff.1 hremove
    have hslot : slot = e.markDeleted.slot := (slot_of_get? hget).symm
    refine ⟨Call.after_of_ok hremove, e, hget, ?_, ?_⟩
    · rw [get?_set, if_pos hslot]
      rfl
    · intro other hother
      rw [get?_set, if_neg (hslot ▸ hother)]
  not_removed _ _ _ herror := ⟨Call.after_of_error herror, eq_of_remove_error herror⟩
  lasting change slot e hget := by
    have hset : ∀ f, ∃ kept, (d.set f).get? slot = some kept := by
      intro f
      rw [get?_set]
      split
      · exact ⟨f, rfl⟩
      · exact ⟨e, hget⟩
    rcases d.step_cases change with hsame | ⟨_, _, _, _, _, _, _, _, hafter⟩ |
        ⟨_, _, _, _, _, hafter⟩
    · rw [hsame]
      exact ⟨e, hget⟩
    · rw [hafter]
      exact hset _
    · rw [hafter]
      exact hset _

/-- **A directory is a table of files.** Whatever files are added to an empty directory and removed
from it again, and whichever of these calls fail: each entry lies in its own slot below 64, and no
two files have the same name. A file is added exactly if its name can be read, no file has it and
there are fewer than 64 files; it takes the lowest slot without a file and leaves the others alone.
A file is found exactly under its own name, and there is one only. A file is removed exactly if
there is one in the slot; only its flags change, and no slot ever loses its entry. What fails
changes nothing. -/
theorem stays_a_table (size : Nat) (changes : List Change) :
    FileTable ((empty size).steps changes) :=
  ((orderly_empty size).steps changes).fileTable

/-- The slot of a file that was removed is taken again, and its name is free. -/
example : ((empty 128).steps [.add "a" .normal, .add "B.X" .locked, .remove 0, .add "b.y" .normal,
    .add "A" .normal, .add "b.x" .normal, .remove 7]).entries.map (fun e => (e.slot, e.fileName)) =
      [(0, "B.Y"), (1, "B.X"), (2, "A")] := by
  decide +kernel

end AtariDisk.Directory
