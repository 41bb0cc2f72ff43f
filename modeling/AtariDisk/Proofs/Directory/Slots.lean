import AtariDisk.Proofs.Directory.Entry
import AtariDisk.Directory.Basic
import Mathlib.Data.List.Sort

/-!
# The directory as a table of slots

`get?` is the view of a directory: the entry of each slot. Reading a directory, putting an entry
into it, looking for a free slot and naming a file are all told in terms of this view.
-/

namespace AtariDisk.Directory

variable {d : Directory}

theorem get?_eq_some_iff {slot : Nat} {e : Entry} :
    d.get? slot = some e ↔ e ∈ d.entries ∧ e.slot = slot := by
  constructor
  · intro hget
    exact ⟨List.mem_of_find?_eq_some hget, by simpa using List.find?_some hget⟩
  · rintro ⟨hmem, rfl⟩
    have hordered := d.ordered
    unfold get?
    generalize d.entries = entries at hmem hordered ⊢
    induction entries with
    | nil => simp at hmem
    | cons a rest ih =>
      obtain ⟨hfirst, htail⟩ := List.pairwise_cons.1 hordered
      rcases List.mem_cons.1 hmem with rfl | hlater
      · rw [List.find?_cons_of_pos (by simp)]
      · have hbefore := hfirst e hlater
        rw [List.find?_cons_of_neg (by simp only [decide_eq_true_eq]; omega)]
        exact ih hlater htail

theorem slot_of_get? {slot : Nat} {e : Entry} (hget : d.get? slot = some e) : e.slot = slot :=
  (get?_eq_some_iff.1 hget).2

theorem get?_eq_none_iff {slot : Nat} : d.get? slot = none ↔ ∀ e ∈ d.entries, e.slot ≠ slot := by
  unfold get?
  rw [List.find?_eq_none]
  simp

theorem entries_eq_nil_iff : d.entries = [] ↔ ∀ slot, d.get? slot = none := by
  simp only [get?_eq_none_iff, List.eq_nil_iff_forall_not_mem]
  constructor
  · intro hnone slot e he
    exact absurd he (hnone e)
  · intro hnone e he
    exact hnone e.slot e he rfl

theorem mem_insertEntry_iff {e x : Entry} {entries : List Entry}
    (hordered : entries.Pairwise fun a b => a.slot < b.slot) :
    x ∈ insertEntry e entries ↔ x = e ∨ (x ∈ entries ∧ x.slot ≠ e.slot) := by
  induction entries with
  | nil => simp [insertEntry]
  | cons a rest ih =>
    obtain ⟨hfirst, htail⟩ := List.pairwise_cons.1 hordered
    unfold insertEntry
    by_cases hbefore : e.slot < a.slot
    · rw [if_pos hbefore, List.mem_cons]
      constructor
      · rintro (heq | hmem)
        · exact .inl heq
        · refine .inr ⟨hmem, ?_⟩
          rcases List.mem_cons.1 hmem with rfl | hlater
          · omega
          · have hgap := hfirst x hlater
            omega
      · rintro (heq | ⟨hmem, _⟩)
        · exact .inl heq
        · exact .inr hmem
    · rw [if_neg hbefore]
      by_cases hsame : e.slot = a.slot
      · rw [if_pos hsame, List.mem_cons, List.mem_cons]
        constructor
        · rintro (heq | hlater)
          · exact .inl heq
          · have hgap := hfirst x hlater
            exact .inr ⟨.inr hlater, by omega⟩
        · rintro (heq | ⟨rfl | hlater, hne⟩)
          · exact .inl heq
          · exact absurd hsame.symm hne
          · exact .inr hlater
      · rw [if_neg hsame, List.mem_cons, ih htail, List.mem_cons]
        constructor
        · rintro (rfl | heq | ⟨hlater, hne⟩)
          · exact .inr ⟨.inl rfl, fun h => hsame h.symm⟩
          · exact .inl heq
          · exact .inr ⟨.inr hlater, hne⟩
        · rintro (heq | ⟨rfl | hlater, hne⟩)
          · exact .inr (.inl heq)
          · exact .inl rfl
          · exact .inr (.inr ⟨hlater, hne⟩)

/-- An entry goes into its own slot and leaves the others alone. -/
theorem get?_set (d : Directory) (e : Entry) (slot : Nat) :
    (d.set e).get? slot = if slot = e.slot then some e else d.get? slot := by
  by_cases hslot : slot = e.slot
  · rw [if_pos hslot]
    exact get?_eq_some_iff.2 ⟨(mem_insertEntry_iff d.ordered).2 (.inl rfl), hslot.symm⟩
  · rw [if_neg hslot]
    cases hget : d.get? slot with
    | none =>
      refine get?_eq_none_iff.2 fun x hx hx' => ?_
      rcases (mem_insertEntry_iff d.ordered).1 hx with rfl | ⟨hmem, _⟩
      · exact hslot hx'.symm
      · exact get?_eq_none_iff.1 hget x hmem hx'
    | some x =>
      obtain ⟨hmem, hx⟩ := get?_eq_some_iff.1 hget
      exact get?_eq_some_iff.2
        ⟨(mem_insertEntry_iff d.ordered).2 (.inr ⟨hmem, fun h => hslot (hx ▸ h)⟩), hx⟩

/-- Of two entries for one slot the later stays. -/
theorem get?_set_set (d : Directory) (a e : Entry) (hsame : a.slot = e.slot) (slot : Nat) :
    ((d.set a).set e).get? slot = if slot = e.slot then some e else d.get? slot := by
  rw [get?_set]
  by_cases hslot : slot = e.slot
  · rw [if_pos hslot, if_pos hslot]
  · rw [if_neg hslot, if_neg hslot, get?_set, if_neg (hsame ▸ hslot)]

theorem mem_files {e : Entry} : e ∈ d.files ↔ d.get? e.slot = some e ∧ e.isInUse = true := by
  unfold files
  rw [List.mem_filter, get?_eq_some_iff]
  simp

theorem isTaken_eq_true_iff {slot : Nat} :
    d.isTaken slot = true ↔ ∃ e, d.get? slot = some e ∧ e.isInUse = true := by
  unfold isTaken
  rw [Option.any_eq_true]

/-- The entries in the order of their slots. -/
theorem entries_eq (hslots : ∀ e ∈ d.entries, e.slot < capacity) :
    d.entries = (List.range capacity).filterMap d.get? := by
  have hright : ((List.range capacity).filterMap d.get?).Pairwise fun a b => a.slot < b.slot := by
    rw [List.pairwise_filterMap]
    refine List.pairwise_lt_range.imp ?_
    intro i j hij a ha b hb
    rw [slot_of_get? ha, slot_of_get? hb]
    exact hij
  have hirrefl : Std.Irrefl fun a b : Entry => a.slot < b.slot := ⟨fun a => Nat.lt_irrefl a.slot⟩
  have hasymm : Std.Antisymm fun a b : Entry => a.slot < b.slot :=
    ⟨fun a b hab hba => absurd hab (Nat.lt_asymm hba)⟩
  refine d.ordered.eq_of_mem_iff hright fun e => ?_
  rw [List.mem_filterMap]
  constructor
  · intro hmem
    exact ⟨e.slot, List.mem_range.2 (hslots e hmem), get?_eq_some_iff.2 ⟨hmem, rfl⟩⟩
  · rintro ⟨slot, _, hget⟩
    exact (get?_eq_some_iff.1 hget).1

theorem files_eq (hslots : ∀ e ∈ d.entries, e.slot < capacity) :
    d.files = (List.range capacity).filterMap fun slot => (d.get? slot).filter (·.isInUse) := by
  unfold files
  conv => lhs; rw [entries_eq hslots]
  rw [List.filter_filterMap]

/-! ### Taking a slot -/

theorem freeSlot_eq_ok_iff {slot : Nat} :
    d.freeSlot = .ok slot ↔
      slot < capacity ∧ d.isTaken slot = false ∧ ∀ j < slot, d.isTaken j = true := by
  unfold freeSlot
  cases hfind : (List.range capacity).find? fun slot => !d.isTaken slot with
  | none =>
    rw [List.find?_range_eq_none] at hfind
    simp only [Outcome.refuse_ne_ok, false_iff]
    rintro ⟨hlt, hfree, _⟩
    have htaken := hfind slot hlt
    simp [hfree] at htaken
  | some found =>
    rw [List.find?_range_eq_some] at hfind
    obtain ⟨hfree, hmem, hbefore⟩ := hfind
    have hlt := List.mem_range.1 hmem
    simp only [Except.ok.injEq]
    constructor
    · rintro rfl
      refine ⟨hlt, by simpa using hfree, fun j hj => ?_⟩
      simpa using hbefore j hj
    · rintro ⟨hslot, hslotFree, hslotBefore⟩
      rcases Nat.lt_trichotomy found slot with hless | heq | hmore
      · have htaken := hslotBefore found hless
        simp [htaken] at hfree
      · exact heq
      · have htaken := hbefore slot hmore
        simp [hslotFree] at htaken

theorem freeSlot_eq_refuse (hfull : ∀ slot < capacity, d.isTaken slot = true) :
    d.freeSlot = refuse (.directoryFull capacity) := by
  have hnone : ((List.range capacity).find? fun slot => !d.isTaken slot) = none := by
    rw [List.find?_range_eq_none]
    intro slot hslot
    simp [hfull slot hslot]
  unfold freeSlot
  rw [hnone]

theorem exists_freeSlot (hfree : ∃ slot < capacity, d.isTaken slot = false) :
    ∃ slot, d.freeSlot = .ok slot := by
  obtain ⟨hlt, hspec⟩ := Nat.find_spec hfree
  refine ⟨Nat.find hfree, freeSlot_eq_ok_iff.2 ⟨hlt, hspec, fun j hj => ?_⟩⟩
  have hbefore := Nat.find_min hfree hj
  rw [not_and, Bool.not_eq_false] at hbefore
  exact hbefore (by omega)

/-- The entry that a new file starts with. -/
def fresh (slot : Nat) (name : FileName) (kind : FileKind) : Entry :=
  { slot, flags := .ofKind kind, sectorCount := 0, firstSector := 0, name, length := 0 }

theorem create_eq_ok_iff {slot : Nat} {typed : String} {kind : FileKind} {e : Entry} :
    Entry.create slot typed kind = .ok e ↔
      ∃ name, FileName.parse typed = .ok name ∧ e = fresh slot name kind := by
  unfold Entry.create
  rw [Outcome.bind_eq_ok_iff]
  simp only [Outcome.pure_eq_ok, Except.ok.injEq, eq_comm, fresh]

/-- The entry that a new file gets. -/
def newEntry (d : Directory) (typed : String) (kind : FileKind) : Outcome Entry := do
  let name ← FileName.parse typed
  if d.files.any (·.name = name) then refuse (.nameTaken typed)
  else return fresh (← d.freeSlot) name kind

theorem newEntry_eq_ok_iff {e : Entry} {typed : String} {kind : FileKind} :
    d.newEntry typed kind = .ok e ↔
      ∃ name slot, FileName.parse typed = .ok name ∧ d.files.any (·.name = name) = false ∧
        d.freeSlot = .ok slot ∧ e = fresh slot name kind := by
  unfold newEntry
  constructor
  · intro hnew
    obtain ⟨name, hname, hrest⟩ := Outcome.bind_eq_ok_iff.1 hnew
    split at hrest
    · exact absurd hrest (Outcome.refuse_ne_ok _ _)
    · rename_i huntaken
      obtain ⟨slot, hslot, hrest⟩ := Outcome.bind_eq_ok_iff.1 hrest
      exact ⟨name, slot, hname, Bool.eq_false_iff.2 huntaken, hslot, (Except.ok.inj hrest).symm⟩
  · rintro ⟨name, slot, hname, huntaken, hslot, rfl⟩
    rw [hname, Outcome.ok_bind, if_neg (Bool.eq_false_iff.1 huntaken), hslot]
    rfl

/-- A new file is only entered once nothing can fail any more. -/
theorem add_eq (d : Directory) (typed : String) (kind : FileKind) :
    d.add typed kind = match d.newEntry typed kind with
      | .ok e => .ok e (d.set e)
      | .error failure => .error failure d := by
  unfold add newEntry
  cases hname : FileName.parse typed with
  | error failure => rfl
  | ok name =>
    rw [Call.bind_of_ok (Call.ofOutcome_ok name d), Call.get_bind, Outcome.ok_bind]
    by_cases htaken : d.files.any (·.name = name)
    · rw [if_pos htaken, if_pos htaken]
      rfl
    · rw [if_neg htaken, if_neg htaken, Call.get_bind]
      cases d.freeSlot with
      | error failure => rfl
      | ok slot =>
        have hcreate : Entry.create slot typed kind = .ok (fresh slot name kind) :=
          create_eq_ok_iff.2 ⟨_, hname, rfl⟩
        rw [Call.bind_of_ok (Call.ofOutcome_ok slot d), hcreate]
        rfl

theorem onCopy_add (d : Directory) (typed : String) (kind : FileKind) :
    Call.onCopy d (add typed kind) = (do
      let e ← d.newEntry typed kind
      return (e, d.set e)) := by
  rw [Call.onCopy, add_eq]
  cases d.newEntry typed kind with
  | ok e => rfl
  | error failure => rfl

/-- All that taking a slot can do. -/
theorem add_eq_ok_iff {after : Directory} {e : Entry} {typed : String} {kind : FileKind} :
    d.add typed kind = .ok e after ↔
      ∃ name slot, FileName.parse typed = .ok name ∧ d.files.any (·.name = name) = false ∧
        d.freeSlot = .ok slot ∧ e = fresh slot name kind ∧ after = d.set e := by
  have hok : d.add typed kind = .ok e after ↔ d.newEntry typed kind = .ok e ∧ after = d.set e := by
    rw [add_eq]
    cases d.newEntry typed kind with
    | error failure => simp
    | ok f =>
      simp only [EStateM.Result.ok.injEq, Except.ok.injEq]
      constructor
      · rintro ⟨rfl, rfl⟩
        exact ⟨rfl, rfl⟩
      · rintro ⟨rfl, rfl⟩
        exact ⟨rfl, rfl⟩
  rw [hok, newEntry_eq_ok_iff]
  constructor
  · rintro ⟨⟨name, slot, hname, hnew, hslot, he⟩, hafter⟩
    exact ⟨name, slot, hname, hnew, hslot, he, hafter⟩
  · rintro ⟨name, slot, hname, hnew, hslot, he, hafter⟩
    exact ⟨⟨name, slot, hname, hnew, hslot, he⟩, hafter⟩

theorem eq_of_add_error {after : Directory} {failure : Failure} {typed : String} {kind : FileKind}
    (herror : d.add typed kind = .error failure after) : after = d := by
  rw [add_eq] at herror
  split at herror
  · exact absurd herror (by simp)
  · exact (EStateM.Result.error.inj herror).2.symm

theorem remove_of_taken {slot : Nat} {e : Entry} (hget : d.get? slot = some e)
    (huse : e.isInUse = true) : d.remove slot = .ok () (d.set e.markDeleted) := by
  rw [remove, Call.get_bind, hget]
  simp only
  rw [if_pos huse]
  rfl

theorem remove_of_not_taken {slot : Nat} (hfree : ∀ e, d.get? slot = some e → e.isInUse = false) :
    d.remove slot = .error (.refused (.fileNotFound s!"#{slot}")) d := by
  rw [remove, Call.get_bind]
  cases hget : d.get? slot with
  | none => rfl
  | some e =>
    simp only
    rw [if_neg (Bool.eq_false_iff.1 (hfree e hget))]
    rfl

/-- All that giving a slot back can do. -/
theorem remove_cases (d : Directory) (slot : Nat) :
    (∃ e, d.get? slot = some e ∧ e.isInUse = true ∧
        d.remove slot = .ok () (d.set e.markDeleted)) ∨
      (∀ e, d.get? slot = some e → e.isInUse = false) ∧
        d.remove slot = .error (.refused (.fileNotFound s!"#{slot}")) d := by
  by_cases htaken : ∃ e, d.get? slot = some e ∧ e.isInUse = true
  · obtain ⟨e, hget, huse⟩ := htaken
    exact .inl ⟨e, hget, huse, remove_of_taken hget huse⟩
  · have hfree : ∀ e, d.get? slot = some e → e.isInUse = false := fun e hget =>
      Bool.eq_false_iff.2 fun huse => htaken ⟨e, hget, huse⟩
    exact .inr ⟨hfree, remove_of_not_taken hfree⟩

theorem remove_eq_ok_iff {after : Directory} {slot : Nat} :
    d.remove slot = .ok () after ↔
      ∃ e, d.get? slot = some e ∧ e.isInUse = true ∧ after = d.set e.markDeleted := by
  constructor
  · intro hremove
    rcases d.remove_cases slot with ⟨e, hget, huse, hok⟩ | ⟨_, herror⟩
    · rw [hok, EStateM.Result.ok.injEq] at hremove
      exact ⟨e, hget, huse, hremove.2.symm⟩
    · rw [herror] at hremove
      exact absurd hremove (by simp)
  · rintro ⟨e, hget, huse, rfl⟩
    exact remove_of_taken hget huse

theorem eq_of_remove_error {after : Directory} {failure : Failure} {slot : Nat}
    (herror : d.remove slot = .error failure after) : after = d := by
  rcases d.remove_cases slot with ⟨_, _, _, hok⟩ | ⟨_, hsame⟩
  · rw [hok] at herror
    exact absurd herror (by simp)
  · rw [hsame] at herror
    exact (EStateM.Result.error.inj herror).2.symm

/-! ### Naming a file -/

theorem find_eq (d : Directory) (typed : String) :
    d.find typed = match d.files.find? (·.answers typed) with
      | some e => .ok e
      | none => refuse (.fileNotFound typed) := by
  unfold find Entry.answers
  cases FileName.parse typed with
  | ok name => rfl
  | error e => rfl

theorem answers_of_find {typed : String} {f : Entry}
    (hfind : d.find typed = .ok f) : f.answers typed = true := by
  rw [find_eq] at hfind
  split at hfind
  · rename_i hfound
    obtain rfl := Except.ok.inj hfind
    have hanswers := List.find?_some hfound
    exact hanswers
  · exact absurd hfind (Outcome.refuse_ne_ok _ _)

theorem exists_find {typed : String} {f : Entry} (hf : f ∈ d.files)
    (hanswers : f.answers typed = true) : ∃ found, d.find typed = .ok found := by
  rw [find_eq]
  cases hfound : d.files.find? (·.answers typed) with
  | none => exact absurd hanswers (List.find?_eq_none.1 hfound f hf)
  | some found => exact ⟨found, rfl⟩

theorem mem_files_of_find {typed : String} {e : Entry} (hfind : d.find typed = .ok e) :
    e ∈ d.files := by
  rw [find_eq] at hfind
  split at hfind
  · rename_i hfound
    obtain rfl := Except.ok.inj hfind
    exact List.mem_of_find?_eq_some hfound
  · exact absurd hfind (Outcome.refuse_ne_ok _ _)

/-- A file is found under its name if no other file has that name. -/
theorem find_of_unique {typed : String} {e : Entry}
    (hname : FileName.parse typed = .ok e.name) (he : e ∈ d.files)
    (hunique : ∀ f ∈ d.files, f.name = e.name → f = e) : d.find typed = .ok e := by
  have hfound : d.files.find? (·.name = e.name) = some e := by
    cases hfind : d.files.find? (·.name = e.name) with
    | none =>
      have hnot := List.find?_eq_none.1 hfind e he
      exact absurd (decide_eq_true rfl) hnot
    | some f =>
      have hnamed := List.find?_some hfind
      rw [hunique f (List.mem_of_find?_eq_some hfind) (of_decide_eq_true hnamed)]
  unfold find
  simp only [hname, hfound]

/-! ### Records -/

theorem find?_entriesFrom (first : Nat) (records : List Bytes) (slot : Nat) :
    (entriesFrom first records).find? (fun e => e.slot = slot) =
      if first ≤ slot then (records[slot - first]?).bind (Entry.parse slot) else none := by
  induction records generalizing first with
  | nil => simp [entriesFrom]
  | cons record rest ih =>
    rw [entriesFrom, List.find?_append, ih]
    rcases Nat.lt_trichotomy slot first with hless | heq | hmore
    · have hnone : (Entry.parse first record).toList.find? (fun e => e.slot = slot) = none := by
        rw [List.find?_eq_none]
        intro e he
        have hslot := slot_of_parse (Option.mem_toList.1 he)
        simp only [decide_eq_true_eq]
        omega
      rw [hnone, if_neg (by omega), if_neg (by omega)]
      rfl
    · subst heq
      rw [if_neg (by omega), if_pos (Nat.le_refl _), Nat.sub_self, List.getElem?_cons_zero,
        Option.or_none, Option.bind_some]
      cases hparse : Entry.parse slot record with
      | none => rfl
      | some e =>
        have hslot := slot_of_parse hparse
        simp [hslot]
    · have hnone : (Entry.parse first record).toList.find? (fun e => e.slot = slot) = none := by
        rw [List.find?_eq_none]
        intro e he
        have hslot := slot_of_parse (Option.mem_toList.1 he)
        simp only [decide_eq_true_eq]
        omega
      have hshift : slot - first = slot - (first + 1) + 1 := by omega
      rw [hnone, Option.none_or, if_pos (by omega), if_pos (by omega), hshift,
        List.getElem?_cons_succ]

/-- What is read from the sectors of a directory: in each slot the entry of its record. -/
theorem decode_ok {size : Nat} (hsize : 0 < size) (raw : Bytes) :
    ∃ d, decode size raw = .ok d ∧ d.sectorSize = size ∧
      ∀ slot, d.get? slot = ((records size raw)[slot]?).bind (Entry.parse slot) := by
  unfold decode
  rw [if_neg (by omega)]
  refine ⟨_, rfl, rfl, fun slot => ?_⟩
  change (entriesFrom 0 _).find? (fun e => decide (e.slot = slot)) = _
  rw [find?_entriesFrom, if_pos (Nat.zero_le slot), Nat.sub_zero]

/-- The records in eight sectors of at least 128 bytes. -/
theorem records_of_sectors {size : Nat} (hsize : recordArea ≤ size) {sectors : Nat → Bytes}
    (hsectors : ∀ j < 8, (sectors j).length = size) :
    records size ((List.range 8).map sectors).flatten =
      (List.range 64).map fun i => ((sectors (i / 8)).drop (16 * (i % 8))).take 16 := by
  have hpieces : ∀ piece ∈ (List.range 8).map sectors, piece.length = size := by
    intro piece hpiece
    obtain ⟨j, hj, rfl⟩ := List.mem_map.1 hpiece
    exact hsectors j (List.mem_range.1 hj)
  have hpositive : 0 < size := Nat.lt_of_lt_of_le (by decide) hsize
  have hcut : ∀ j ∈ List.range 8, chunks Entry.size ((sectors j).take recordArea) =
      (List.range 8).map fun k => ((sectors j).drop (16 * k)).take 16 := by
    intro j hj
    have hlength : ((sectors j).take recordArea).length = 16 * 8 := by
      rw [List.length_take, hsectors j (List.mem_range.1 hj), Nat.min_eq_left hsize]
      rfl
    rw [show Entry.size = 16 from rfl, chunks_eq_map_range (by decide) hlength]
    apply List.map_congr_left
    intro k hk
    have hk := List.mem_range.1 hk
    rw [List.drop_take, List.take_take]
    congr 1
    simp only [recordArea]
    omega
  have hall : ((List.range 8).map sectors).take sectorCount = (List.range 8).map sectors := by
    rw [List.take_of_length_le (by simp [sectorCount])]
  unfold records
  rw [chunks_flatten hpieces hpositive, hall, List.flatMap_map, List.flatMap_def,
    List.map_congr_left hcut]
  rfl

theorem slot_lt_extent {e : Entry} (hmem : e ∈ d.entries) : e.slot < d.extent := by
  unfold extent
  cases hlast : d.entries.getLast? with
  | none =>
    rw [List.getLast?_eq_none_iff] at hlast
    simp [hlast] at hmem
  | some last =>
    obtain ⟨before, hentries⟩ := List.getLast?_eq_some_iff.1 hlast
    have hordered := d.ordered
    rw [hentries, List.pairwise_append] at hordered
    rw [hentries, List.mem_append, List.mem_singleton] at hmem
    rcases hmem with hbefore | rfl
    · have hless := hordered.2.2 e hbefore last (List.mem_singleton.2 rfl)
      simp only
      omega
    · exact Nat.lt_succ_self e.slot

theorem extent_le (hslots : ∀ e ∈ d.entries, e.slot < capacity) : d.extent ≤ capacity := by
  unfold extent
  cases hlast : d.entries.getLast? with
  | none => exact Nat.zero_le _
  | some last => exact hslots last (List.mem_of_getLast? hlast)

theorem record_of_extent_le {slot : Nat} (hslot : d.extent ≤ slot) :
    d.record slot = Entry.unusedRecord := by
  have hnone : d.get? slot = none := by
    refine get?_eq_none_iff.2 fun e hmem he => ?_
    have hless := slot_lt_extent hmem
    omega
  rw [record, hnone]

@[simp]
theorem length_record (d : Directory) (slot : Nat) : (d.record slot).length = Entry.size := by
  unfold record
  split <;> simp [Entry.unusedRecord]

theorem length_le_of_mem_groups {group : Bytes} (hgroup : group ∈ d.groups) :
    group.length ≤ recordArea := by
  obtain ⟨records, hinside, rfl⟩ := List.mem_map.1 hgroup
  have hfew := length_le_of_mem_chunks (by decide) hinside
  have hsized : ∀ record ∈ records, record.length = Entry.size := by
    intro record hrecord
    obtain ⟨slot, _, rfl⟩ := List.mem_map.1 (mem_of_mem_chunks hinside hrecord)
    exact d.length_record slot
  rw [length_flatten_of_forall hsized]
  simp only [recordsPerSector, recordArea, Entry.size] at hfew ⊢
  omega

theorem getElem?_groups (d : Directory) (i : Nat) :
    d.groups[i]? =
      if 8 * i < d.extent then
        some ((((List.range d.extent).map d.record).drop (8 * i)).take 8).flatten
      else none := by
  unfold groups
  rw [List.getElem?_map, show recordsPerSector = 8 from rfl, getElem?_chunks (by decide),
    List.length_map, List.length_range]
  by_cases hi : 8 * i < d.extent
  · rw [if_pos hi, if_pos hi]
    rfl
  · rw [if_neg hi, if_neg hi]
    rfl

theorem lt_length_groups {i : Nat} : i < d.groups.length ↔ 8 * i < d.extent := by
  rw [← not_iff_not, Nat.not_lt, ← List.getElem?_eq_none_iff, getElem?_groups]
  split
  · rename_i hless
    simp [hless]
  · rename_i hmore
    simp [hmore]

theorem length_groups_le (hslots : ∀ e ∈ d.entries, e.slot < capacity) :
    d.groups.length ≤ sectorCount := by
  have hextent := extent_le hslots
  simp only [capacity] at hextent
  by_contra hmany
  have hlast : 8 * sectorCount < d.extent := lt_length_groups.1 (Nat.lt_of_not_le hmany)
  simp only [sectorCount] at hlast
  omega

theorem extent_le_length_groups (d : Directory) : d.extent ≤ 8 * d.groups.length := by
  apply Nat.le_of_not_lt
  rw [← lt_length_groups]
  exact Nat.lt_irrefl _

/-- The directory is written up to the sector of its last entry. -/
theorem lt_length_groups_iff {i : Nat} :
    i < d.groups.length ↔ ∃ e ∈ d.entries, i ≤ e.slot / 8 := by
  rw [lt_length_groups]
  constructor
  · intro hless
    unfold extent at hless
    split at hless
    · rename_i last hlast
      exact ⟨last, List.mem_of_getLast? hlast, by omega⟩
    · omega
  · rintro ⟨e, hmem, hless⟩
    have hextent := slot_lt_extent hmem
    omega

/-- Zeros fill a sector up to eight records, since a record without entry is zero. -/
theorem take_fill {i : Nat} {group : Bytes} (hgroup : d.groups[i]? = some group) :
    (d.fill group).take recordArea =
      ((List.range 8).map fun k => d.record (8 * i + k)).flatten := by
  have hshort : group.length ≤ recordArea :=
    length_le_of_mem_groups (List.mem_of_getElem? hgroup)
  rw [getElem?_groups] at hgroup
  split at hgroup
  · rename_i hi
    obtain ⟨used, hused⟩ : ∃ used, used = min 8 (d.extent - 8 * i) := ⟨_, rfl⟩
    have hrecords : (((List.range d.extent).map d.record).drop (8 * i)).take 8 =
        (List.range used).map fun k => d.record (8 * i + k) := by
      rw [← List.map_drop, ← List.map_take, List.range_eq_range', List.drop_range',
        List.range'_eq_map_range, ← List.map_take, List.take_range, ← hused, List.map_map]
      simp [Function.comp_def]
    have hlength : group.length = 16 * used := by
      rw [← Option.some.inj hgroup, hrecords, length_flatten_of_forall]
      · rw [List.length_map, List.length_range]
      · intro record hrecord
        obtain ⟨k, _, rfl⟩ := List.mem_map.1 hrecord
        exact d.length_record _
    have hblank : (List.range (8 - used)).map (fun k => d.record (8 * i + (used + k))) =
        List.replicate (8 - used) Entry.unusedRecord := by
      rw [List.eq_replicate_iff]
      refine ⟨by simp, fun record hrecord => ?_⟩
      obtain ⟨k, hk, rfl⟩ := List.mem_map.1 hrecord
      have hk := List.mem_range.1 hk
      exact record_of_extent_le (by omega)
    have hsplit : List.range 8 = List.range used ++ (List.range (8 - used)).map (used + ·) := by
      rw [← List.range_add]
      congr 1
      omega
    have hzeros : List.replicate (recordArea - group.length) 0 =
        ((List.range (8 - used)).map fun k => d.record (8 * i + (used + k))).flatten := by
      rw [hblank, hlength]
      simp only [Entry.unusedRecord, Bytes.zeros, Entry.size, List.flatten_replicate_replicate,
        recordArea]
      congr 1
      omega
    calc (d.fill group).take recordArea
        = group ++ List.replicate (recordArea - group.length) 0 := by
          unfold fill sectorLength
          rw [Bytes.take_resize (Nat.le_max_right _ _) hshort, Bytes.resize,
            List.take_of_length_le hshort]
      _ = ((List.range used).map fun k => d.record (8 * i + k)).flatten ++
          ((List.range (8 - used)).map fun k => d.record (8 * i + (used + k))).flatten := by
        rw [hzeros, ← Option.some.inj hgroup, hrecords]
      _ = ((List.range 8).map fun k => d.record (8 * i + k)).flatten := by
        rw [hsplit, List.map_append, List.flatten_append, List.map_map]
        rfl
  · simp at hgroup

/-- Every record of a sector is found in its place. -/
theorem record_of_fill {slot : Nat} {group : Bytes} (hgroup : d.groups[slot / 8]? = some group) :
    ((d.fill group).drop (16 * (slot % 8))).take 16 = d.record slot := by
  have hslot : slot % 8 < 8 := Nat.mod_lt slot (by decide)
  have hsized : ∀ record ∈ (List.range 8).map (fun k => d.record (8 * (slot / 8) + k)),
      record.length = 16 := by
    intro record hrecord
    obtain ⟨k, _, rfl⟩ := List.mem_map.1 hrecord
    exact d.length_record _
  have hpiece : ((List.range 8).map fun k => d.record (8 * (slot / 8) + k))[slot % 8]? =
      some (d.record slot) := by
    rw [List.getElem?_map, List.getElem?_range hslot, Option.map_some, Nat.div_add_mod]
  have hwindow : ((d.fill group).drop (16 * (slot % 8))).take 16 =
      (((d.fill group).take recordArea).drop (16 * (slot % 8))).take 16 := by
    rw [List.drop_take, List.take_take, Nat.min_eq_left]
    simp only [recordArea]
    omega
  rw [hwindow, take_fill hgroup, take_drop_flatten hsized hpiece]

end AtariDisk.Directory
