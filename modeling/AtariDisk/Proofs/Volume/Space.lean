import AtariDisk.Proofs.Volume.Layout

/-!
# The space on a volume

Every sector of a volume that was formatted belongs to the system, to exactly one file, or is free,
whatever files are written and deleted.
-/

namespace AtariDisk.Volume

open Image

/-- Each sector up to `last` is accounted for, as far as the map reaches. -/
structure Accounted (v : Volume) (last : Nat) : Prop where
  readable : ∀ e ∈ v.directory.files, ∃ chain, v.image.follow e = .ok chain
  nodup : ∀ e ∈ v.directory.files, ∀ chain, v.image.follow e = .ok chain → chain.numbers.Nodup
  disjoint : ∀ e ∈ v.directory.files, ∀ f ∈ v.directory.files, e.slot ≠ f.slot →
    ∀ chain other, v.image.follow e = .ok chain → v.image.follow f = .ok other →
      chain.numbers.Disjoint other.numbers
  /-- No chain passes through the boot sectors, the map, the directory or the end of the disk. -/
  clear : ∀ e ∈ v.directory.files, ∀ chain, v.image.follow e = .ok chain →
    ∀ s ∈ chain.numbers, s ∉ [1, 2, 3] ∧ s ∉ List.range' 360 9 ∧ s < min (last + 1) 720
  /-- A sector is free exactly if nothing lies on it. -/
  free : ∀ s, 1 ≤ s → s < min (last + 1) 720 →
    (v.map.isFree s = true ↔ s ∉ [1, 2, 3] ∧ s ∉ List.range' 360 9 ∧
      ∀ e ∈ v.directory.files, ∀ chain, v.image.follow e = .ok chain → s ∉ chain.numbers)
  /-- The disk tells the number of free sectors. -/
  recorded : ∃ raw, v.image.readSector SectorMap.home = .ok raw ∧
    Bytes.littleValue ((raw.drop 3).take 2) = v.map.freeCount
  total : v.map.total = v.map.freeCount + (v.directory.files.map (·.sectorCount)).sum
  distinct : v.directory.files.Pairwise fun e f => e.name ≠ f.name

theorem usable_iff_not_mem {limit s : Nat} :
    SectorMap.Usable limit s ↔
      1 ≤ s ∧ s ∉ [1, 2, 3] ∧ s ∉ List.range' 360 9 ∧ s < limit := by
  rw [SectorMap.usable_iff, List.mem_range'_1]
  simp only [List.mem_cons, List.not_mem_nil, or_false]
  omega

section Lays

variable {v : Volume} {layout : Layout} (hlays : v.Lays layout)

include hlays

/-- The chain of a file is the one the layout gives it. -/
theorem Lays.numbers_of_follow {slot : Fin Directory.capacity} {p : Placed}
    (hp : layout slot = some p) {chain : Chain}
    (hfollow : v.image.follow (p.listed slot) = .ok chain) :
    chain.numbers = layout.order slot := by
  rw [hlays.follow_listed hp, Except.ok.injEq] at hfollow
  rw [← hfollow, (hlays.holds slot p hp).sized.numbers_chain, Layout.order_of_some hp]

theorem Lays.mem_taken_iff {s : Nat} :
    s ∈ layout.taken ↔ ∃ e ∈ v.directory.files, ∃ chain, v.image.follow e = .ok chain ∧
      s ∈ chain.numbers := by
  rw [Layout.mem_taken]
  constructor
  · rintro ⟨slot, hs⟩
    cases hp : layout slot with
    | none => simp [Layout.order, hp] at hs
    | some p =>
      have hfollow := hlays.follow_listed hp
      refine ⟨p.listed slot, hlays.mem_files.2 ⟨slot, p, hp, rfl⟩, _, hfollow, ?_⟩
      rw [hlays.numbers_of_follow hp hfollow]
      exact hs
  · rintro ⟨e, he, chain, hfollow, hs⟩
    obtain ⟨slot, p, hp, rfl⟩ := hlays.mem_files.1 he
    exact ⟨slot, by rwa [← hlays.numbers_of_follow hp hfollow]⟩

/-- The files in the order of their slots. -/
theorem Lays.files_eq : v.directory.files =
    (List.finRange Directory.capacity).filterMap fun slot => (layout slot).map (·.listed slot) := by
  have hslots : ∀ e ∈ v.directory.entries, e.slot < Directory.capacity := fun e he =>
    hlays.loaded.slot_lt he
  rw [Directory.files_eq hslots, ← List.map_coe_finRange_eq_range, List.filterMap_map]
  apply List.filterMap_congr
  intro slot _
  cases hp : layout slot with
  | some p =>
    rw [Function.comp_apply, hlays.get?_of_some hp, Option.filter_some,
      if_pos (p.isInUse_listed slot)]
    rfl
  | none =>
    cases hget : v.directory.get? slot with
    | none => simp [hget]
    | some e => simp [hget, hlays.isInUse_of_none hp hget]

theorem Lays.sum_sectorCount :
    (v.directory.files.map (·.sectorCount)).sum = ∑ slot, (layout.order slot).length := by
  rw [hlays.files_eq, Fin.sum_univ_def]
  induction List.finRange Directory.capacity with
  | nil => rfl
  | cons slot rest ih =>
    cases hp : layout slot with
    | none =>
      have hcount : (layout.order slot).length = 0 := by simp [Layout.order, hp]
      simp [hp, hcount, ih]
    | some p =>
      have hcount : (p.listed slot).sectorCount = (layout.order slot).length := by
        rw [Layout.order_of_some hp]
        rfl
      simp [hp, hcount, ih]

theorem Lays.recorded_eq :
    ∃ raw, v.image.readSector SectorMap.home = .ok raw ∧
      Bytes.littleValue ((raw.drop 3).take 2) = v.map.freeCount := by
  have hinside : ∀ s, v.map.isFree s = true → 1 ≤ s ∧ s < v.map.limit := by
    intro s hs
    have husable := ((hlays.leaves.free s).1 hs).1
    exact ⟨husable.1, husable.2.1⟩
  refine ⟨_, hlays.loaded.roomy.readSector_eq (hlays.loaded.roomy.linkable_of_le (by decide)
    (by decide)), ?_⟩
  rw [← SectorMap.bitCount_eq_freeCount hinside, ← hlays.recorded, SectorMap.recorded,
    hlays.loaded.reads.raw_map]

/-- A volume with a layout is accounted for. -/
theorem Lays.accounted : v.Accounted v.image.header.sectorCount := by
  have hlimit := hlays.loaded.reads.limit_map
  have hchain : ∀ e ∈ v.directory.files, ∀ chain, v.image.follow e = .ok chain →
      ∃ slot, slot.val = e.slot ∧ chain.numbers = layout.order slot := by
    intro e he chain hfollow
    obtain ⟨slot, p, hp, rfl⟩ := hlays.mem_files.1 he
    exact ⟨slot, rfl, hlays.numbers_of_follow hp hfollow⟩
  refine ⟨?_, ?_, ?_, ?_, ?_, hlays.recorded_eq, ?_, ?_⟩
  · intro e he
    obtain ⟨slot, p, hp, rfl⟩ := hlays.mem_files.1 he
    exact ⟨_, hlays.follow_listed hp⟩
  · intro e he chain hfollow
    obtain ⟨slot, _, hnumbers⟩ := hchain e he chain hfollow
    rw [hnumbers]
    exact hlays.apart.nodup slot
  · intro e he f hf hne chain other hfollow hother
    obtain ⟨i, hi, hnumbers⟩ := hchain e he chain hfollow
    obtain ⟨j, hj, hothers⟩ := hchain f hf other hother
    rw [hnumbers, hothers]
    refine hlays.apart.disjoint i j ?_
    rintro rfl
    exact hne (hi.symm.trans hj)
  · intro e he chain hfollow s hs
    have husable := hlays.leaves.usable s (hlays.mem_taken_iff.2 ⟨e, he, chain, hfollow, hs⟩)
    rw [hlimit] at husable
    exact (usable_iff_not_mem.1 husable).2
  · intro s hfirst hlast
    rw [hlays.leaves.free, usable_iff_not_mem, hlimit, hlays.mem_taken_iff]
    constructor
    · rintro ⟨⟨_, hboot, hsystem, _⟩, hfree⟩
      exact ⟨hboot, hsystem, fun e he chain hfollow hs => hfree ⟨e, he, chain, hfollow, hs⟩⟩
    · rintro ⟨hboot, hsystem, hfree⟩
      refine ⟨⟨hfirst, hboot, hsystem, hlast⟩, ?_⟩
      rintro ⟨e, he, chain, hfollow, hs⟩
      exact hfree e he chain hfollow hs
  · calc v.map.total
        = (SectorMap.usableSectors v.map.limit).length := hlays.leaves.total
      _ = v.map.freeCount + ∑ slot, (layout.order slot).length :=
        (hlays.leaves.freeCount_add hlays.apart).symm
      _ = v.map.freeCount + (v.directory.files.map (·.sectorCount)).sum := by
        rw [hlays.sum_sectorCount]
  · refine List.Pairwise.imp_of_mem ?_ (v.directory.ordered.filter _)
    intro e f he hf hless hname
    obtain ⟨i, p, hp, rfl⟩ := hlays.mem_files.1 he
    obtain ⟨j, q, hq, rfl⟩ := hlays.mem_files.1 hf
    have hsame := hlays.distinct i j p q hp hq hname
    subst hsame
    exact Nat.lt_irrefl _ hless

end Lays

/-- **No sector is lost, shared or misplaced.** Whatever is written to and deleted from a volume
that was formatted, its sectors stay accounted for. -/
theorem space_accounted {image : Image} (hmade : image.Made) {v : Volume}
    (hformat : format image = .ok v) (actions : List Action) {u : Volume}
    (hu : u = (v.performAll actions).2) :
    ∃ last, u.image.header.lastSector = .ok last ∧ u.image.header = image.header ∧
      u.Accounted last := by
  obtain ⟨hempty, hformatted⟩ := lays_of_format hmade hformat
  obtain ⟨layout, hlays, hheader⟩ := hempty.performAll actions
  rw [← hu] at hlays hheader
  exact ⟨_, hlays.loaded.roomy.lastSector_eq, hheader.trans hformatted, hlays.accounted⟩

theorem space_accounted_zeroDisk :
    ∃ v u last, format zeroDisk = .ok v ∧
      u = (v.performAll [.write "A" .normal [0x41], .write "B" .locked [], .delete "A"]).2 ∧
      u.image.header.lastSector = .ok last ∧ u.Accounted last := by
  obtain ⟨v, hformat, _⟩ := format_ok roomy_zeroDisk rfl
  obtain ⟨last, hlast, _, haccounted⟩ := space_accounted made_zeroDisk hformat
    [.write "A" .normal [0x41], .write "B" .locked [], .delete "A"] rfl
  exact ⟨v, _, last, hformat, rfl, hlast, haccounted⟩

end AtariDisk.Volume
