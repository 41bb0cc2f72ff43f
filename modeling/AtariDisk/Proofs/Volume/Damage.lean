import AtariDisk.Volume.Listing
import AtariDisk.Proofs.Image.Writes
import AtariDisk.Proofs.Volume.Trail

/-!
# Damage to one file

A sector that is read on the way of one chain names that chain's file as its owner, so a chain that
can be followed passes through no sector of another one. Whatever is written over the sectors of one
file, the others are listed and read as before.
-/

namespace AtariDisk

namespace Image

/-- Writes of the right size to single sectors are taken. -/
theorem Roomy.afterAll_ones {image : Image} (hroomy : image.Roomy) {writes : List (Nat × Bytes)}
    (hfitting : image.Fitting writes) :
    image.afterAll (writes.map fun write => .one write.1 write.2) = image.putAll writes := by
  induction writes generalizing image with
  | nil => rfl
  | cons write rest ih =>
    obtain ⟨hlinkable, hsized⟩ := hfitting write List.mem_cons_self
    have hput := Call.after_of_ok (hroomy.edit_one hlinkable hsized)
    rw [List.map_cons, afterAll_cons, hput, putAll]
    exact ih (hroomy.of_alike (alike_put ..)) hfitting.tail

/-- The line of a file in the listing. -/
def lineOf (image : Image) (e : Entry) : ListedFile :=
  match image.finding e with
  | .ok _ => .ofEntry e
  | .error cause => .unreadable e cause.message

theorem lineOf_of_follow {image : Image} {e : Entry} {chain : Chain}
    (hfollow : image.follow e = .ok chain) : image.lineOf e = .ofEntry e := by
  rw [lineOf, finding_of_follow hfollow]

theorem slot_lineOf (image : Image) (e : Entry) : (image.lineOf e).slot = e.slot := by
  unfold lineOf
  split
  · rfl
  · rfl

/-- A file keeps its length as long as its chain is found. -/
theorem measured_of_follow {a b : Image} {e : Entry} {chain : Chain}
    (ha : a.follow e = .ok chain) (hb : b.follow e = .ok chain) : b.measured e = a.measured e := by
  rw [measured, measured, finding_of_follow ha, finding_of_follow hb]

end Image

theorem Directory.find?_files (d : Directory) (slot : Nat) :
    (d.files.find? fun e => e.slot = slot) = (d.get? slot).filter (·.isInUse) := by
  apply Option.ext
  intro e
  -- The files alone make up a directory.
  have hfiles : (d.files.find? fun e => e.slot = slot) = some e ↔ e ∈ d.files ∧ e.slot = slot :=
    get?_eq_some_iff (d := ⟨d.files, d.sectorSize, d.ordered.filter _⟩)
  rw [hfiles, Option.filter_eq_some_iff, get?_eq_some_iff, files, List.mem_filter, and_right_comm]

namespace Volume

open Image

/-! ### Listings -/

theorem mem_of_mem_damageIn {findings : List (Nat × Except DiskError Nat)} {slot : Nat}
    {cause : DiskError} (hmem : (slot, cause) ∈ damageIn findings) :
    (slot, .error cause) ∈ findings := by
  obtain ⟨⟨found, finding⟩, hfound, hpair⟩ := List.mem_filterMap.1 hmem
  cases finding with
  | ok length => simp at hpair
  | error why =>
    simp only [Option.some.injEq, Prod.mk.injEq] at hpair
    rw [← hpair.1, ← hpair.2]
    exact hfound

theorem lookup_damageIn {entries : List Entry} {e : Entry} (finding : Entry → Except DiskError Nat)
    (hordered : entries.Pairwise fun a b => a.slot < b.slot) (hmem : e ∈ entries) :
    (damageIn (entries.map fun e => (e.slot, finding e))).lookup e.slot =
      match finding e with
      | .ok _ => none
      | .error cause => some cause := by
  induction entries with
  | nil => simp at hmem
  | cons a rest ih =>
    obtain ⟨hfirst, htail⟩ := List.pairwise_cons.1 hordered
    rw [List.map_cons, damageIn, List.filterMap_cons]
    rcases List.mem_cons.1 hmem with rfl | hlater
    · cases finding e with
      | error cause => simp
      | ok length =>
        -- A file that comes later has a higher slot.
        rw [List.lookup_eq_none_iff]
        rintro ⟨slot, cause⟩ hpair
        obtain ⟨f, hf, hpair⟩ := List.mem_map.1 (mem_of_mem_damageIn hpair)
        have hafter := hfirst f hf
        have hslot : f.slot = slot := (Prod.mk.inj hpair).1
        simp only [bne_iff_ne]
        omega
    · have hbefore := hfirst e hlater
      have hother : (e.slot == a.slot) = false := by
        simp only [beq_eq_false_iff_ne]
        omega
      have hrest := ih htail hlater
      cases finding a with
      | ok length => exact hrest
      | error cause =>
        simp only [List.lookup_cons, hother]
        exact hrest

section Listing

variable {v : Volume} (hreads : v.Reads)

include hreads

theorem Reads.list_eq : v.list = v.directory.files.map v.image.lineOf := by
  unfold Volume.list
  apply List.map_congr_left
  intro e he
  have hordered : v.directory.files.Pairwise fun a b => a.slot < b.slot :=
    v.directory.ordered.filter _
  rw [hreads.damage_eq, lookup_damageIn v.image.finding hordered he, lineOf]
  cases v.image.finding e with
  | ok length => rfl
  | error cause => rfl

/-- The listing has one line for each file, in the order of the slots. -/
theorem Reads.slots_list :
    v.list.map (·.slot) = (List.range Directory.capacity).filter v.directory.isTaken := by
  rw [hreads.list_eq, List.map_map, Directory.files_eq fun e he => hreads.slot_lt he,
    List.map_filterMap, ← List.filterMap_eq_filter]
  apply List.filterMap_congr
  intro slot _
  rw [Option.guard, Directory.isTaken]
  cases hget : v.directory.get? slot with
  | none => rfl
  | some e =>
    have hslot := Directory.slot_of_get? hget
    rw [Option.any_some, Option.filter_some]
    split
    · rw [Option.map_some, Function.comp_apply, slot_lineOf, hslot]
    · rfl

/-- The line of a slot is that of its file. -/
theorem Reads.find?_list (slot : Nat) :
    (v.list.find? fun line => line.slot = slot) =
      ((v.directory.get? slot).filter (·.isInUse)).map v.image.lineOf := by
  have hslot : ((fun line : ListedFile => decide (line.slot = slot)) ∘ v.image.lineOf) =
      fun e => decide (e.slot = slot) := by
    funext e
    rw [Function.comp_apply, slot_lineOf]
  rw [hreads.list_eq, List.find?_map, hslot, Directory.find?_files]

end Listing

/-! ### Writing over files -/

/-- A volume stays mountable, with the same entries, as long as its map and its directory keep
their sectors. -/
theorem mount_of_system {a b : Image} {v : Volume} (hsound : a.Sound) (hmount : mount a = .ok v)
    (halike : Alike a b) (hsystem : ∀ n, 360 ≤ n → n ≤ 368 → b.sector n = a.sector n) :
    ∃ u, mount b = .ok u ∧ u.image = b ∧ u.Reads ∧ ∀ slot, b.entryAt slot = a.entryAt slot := by
  obtain ⟨hroomy, hcode, hload⟩ := (mount_eq_ok_iff hsound).1 hmount
  have hroomy' := hroomy.of_alike halike
  obtain ⟨u, hu, himage, hreads⟩ := load_ok hroomy'
  refine ⟨u, (mount_eq_ok_iff hroomy'.toSound).2 ⟨hroomy', ?_, hu⟩, himage, hreads, ?_⟩
  · rw [code_of_load hroomy' hu, hsystem SectorMap.home (by decide) (by decide),
      ← code_of_load hroomy hload, hcode]
  · exact entryAt_congr fun n hfirst hlast => hsystem n (by omega) hlast

/-- A chain that keeps its sectors is found again. -/
theorem follow_of_sectors {a b : Image} (ha : a.Roomy) (halike : Alike a b) {e : Entry}
    (hfirst : e.firstSector < 65536) {chain : Chain} (hfollow : a.follow e = .ok chain)
    (hsectors : ∀ n ∈ chain.numbers, b.sector n = a.sector n) : b.follow e = .ok chain := by
  obtain ⟨hcount, hlength, hstart, hcarries⟩ := (ha.follow_eq_ok_iff hfirst).1 hfollow
  apply ((ha.of_alike halike).follow_eq_ok_iff hfirst).2
  exact ⟨hcount, hlength, hstart, hcarries.of_sectors halike.header hsectors⟩

section Others

variable {image damaged : Image} {v u : Volume} (hv : v.Reads) (hu : u.Reads)
  (hroomy : image.Roomy) (halike : Alike image damaged) (hvimage : v.image = image)
  (huimage : u.image = damaged) {f : Entry} (hf : f ∈ v.directory.entries) {chain : Chain}
  (hfollow : image.follow f = .ok chain)
  (hsectors : ∀ n ∈ chain.numbers, damaged.sector n = image.sector n)

include hv hu hroomy halike hvimage huimage hf hfollow hsectors

/-- A file whose sectors are not touched keeps its entry, its line and its chain. -/
theorem Reads.unharmed (hentries : ∀ slot, damaged.entryAt slot = image.entryAt slot) :
    u.directory.get? f.slot = some f ∧
      (u.list.find? fun line => line.slot = f.slot) =
        (v.list.find? fun line => line.slot = f.slot) ∧
      damaged.follow f = .ok chain := by
  have hagain := follow_of_sectors hroomy halike (hv.storable hf).first hfollow hsectors
  obtain ⟨stored, hstored, hmeasured⟩ := hv.stored hf
  rw [hvimage] at hstored hmeasured
  have hlength : ∀ a : Image, a.follow stored = a.follow f := by
    intro a
    rw [← hmeasured]
    exact (follow_length a stored _).symm
  have hget : u.directory.get? f.slot = some f := by
    rw [hu.get?_directory, huimage, hentries, hstored, Option.map_some,
      measured_of_follow ((hlength image).trans hfollow) ((hlength damaged).trans hagain),
      hmeasured]
  have hget' : v.directory.get? f.slot = some f := Directory.get?_eq_some_iff.2 ⟨hf, rfl⟩
  have hline : damaged.lineOf f = image.lineOf f := by
    rw [lineOf_of_follow hagain, lineOf_of_follow hfollow]
  refine ⟨hget, ?_, hagain⟩
  rw [hu.find?_list, hv.find?_list, hget, hget', huimage, hvimage, Option.filter_some]
  split
  · rw [Option.map_some, Option.map_some, hline]
  · rw [Option.map_none, Option.map_none]

end Others

/-- **Damage to one file cannot reach another.** Whatever is written over the sectors of a file that
can be read, the disk is mounted, and its listing has one line for each file, in the order of the
slots. A chain of another slot that could be followed is found as before, and the entry and the line
of that slot are the same. The header of an image that was opened or made always fits
(`Made.sound`), and writes keep it (`Sound.of_alike`). -/
theorem damage_is_contained {image : Image} (hsound : image.Sound) {v : Volume}
    (hmount : mount image = .ok v) {e : Entry} (he : e ∈ v.directory.files) {chain : Chain}
    (hfollow : v.image.follow e = .ok chain) {writes : List (Nat × Bytes)}
    (hwrites : ∀ write ∈ writes, write.1 ∈ chain.numbers ∧ (write.1 < 360 ∨ 368 < write.1) ∧
      write.2.length = (image.sector write.1).length)
    {damaged : Image}
    (hdamaged : damaged = image.afterAll (writes.map fun write => .one write.1 write.2)) :
    ∃ u, mount damaged = .ok u ∧ u.image = damaged ∧
      (∀ slot, u.directory.isTaken slot = v.directory.isTaken slot) ∧
      u.list.map (·.slot) = (List.range Directory.capacity).filter v.directory.isTaken ∧
      ∀ f ∈ v.directory.entries, f.slot ≠ e.slot → ∀ other, v.image.follow f = .ok other →
        u.directory.get? f.slot = some f ∧
          (u.list.find? fun line => line.slot = f.slot) =
            (v.list.find? fun line => line.slot = f.slot) ∧
          u.image.follow f = .ok other := by
  obtain ⟨hroomy, hvimage, hv⟩ := reads_of_mount hsound hmount
  rw [hvimage] at hfollow
  have hcarries : ∀ {f : Entry} {other : Chain}, f ∈ v.directory.entries →
      image.follow f = .ok other → image.Carries f.slot other := fun hf hother =>
    ((hroomy.follow_eq_ok_iff (hv.storable hf).first).1 hother).2.2.2
  have hown := hcarries (List.mem_filter.1 he).1 hfollow
  have hfitting : image.Fitting writes := by
    intro write hwrite
    obtain ⟨hmem, _, hsized⟩ := hwrites write hwrite
    obtain ⟨s, hs, hnumber⟩ := List.mem_map.1 hmem
    have hlinkable := hown.linkable s hs
    rw [hnumber] at hlinkable
    exact ⟨hlinkable, hsized.trans (hsound.length_sector hlinkable.1 hlinkable.2.1)⟩
  rw [hroomy.afterAll_ones hfitting] at hdamaged
  have halike : Alike image damaged := hdamaged ▸ alike_putAll image writes
  -- A sector is touched only if it is on the chain, and neither with the map nor the directory.
  have hkept : ∀ n, 1 ≤ n → (n ∉ chain.numbers ∨ (360 ≤ n ∧ n ≤ 368)) →
      damaged.sector n = image.sector n := by
    intro n hn hmiss
    rw [hdamaged]
    apply hsound.sector_putAll_of_not_mem hfitting hn
    intro hhit
    obtain ⟨write, hwrite, rfl⟩ := List.mem_map.1 hhit
    obtain ⟨hmem, hrange, _⟩ := hwrites write hwrite
    rcases hmiss with hmiss | hsystem
    · exact hmiss hmem
    · omega
  obtain ⟨u, hu, huimage, hreads, hentries⟩ := mount_of_system hsound hmount halike
    fun n hfirst hlast => hkept n (by omega) (.inr ⟨hfirst, hlast⟩)
  have htaken : ∀ slot, u.directory.isTaken slot = v.directory.isTaken slot := by
    intro slot
    rw [Directory.isTaken, Directory.isTaken, hreads.get?_directory, hv.get?_directory, huimage,
      hvimage, hentries]
    cases image.entryAt slot with
    | none => rw [Option.map_none, Option.map_none]
    | some stored => simp only [Option.map_some, Option.any_some, isInUse_measured]
  refine ⟨u, hu, huimage, htaken, ?_, ?_⟩
  · rw [hreads.slots_list, funext htaken]
  · intro f hf hne other hother
    rw [hvimage] at hother
    have hcarried := hcarries hf hother
    have hapart := hcarried.disjoint hown hne
    rw [huimage]
    refine hv.unharmed hreads hroomy halike hvimage huimage hf hother ?_ hentries
    intro n hn
    obtain ⟨s, hs, hnumber⟩ := List.mem_map.1 hn
    have hfirst := (hcarried.linkable s hs).1
    rw [hnumber] at hfirst
    exact hkept n hfirst (.inl fun hmem => hapart hn hmem)

/-- Contents for the first sector of the first file, which pass the sector off as one of the second
file and lead into that file. -/
def intruder : Bytes :=
  DataSector.bytes ⟨4, 1, 6, [0x58]⟩ 128

/-- The second file of this disk is read as before, whatever the first one says. -/
theorem damage_is_contained_pairDisk :
    ∃ v u b, mount pairDisk = .ok v ∧ mount (pairDisk.afterAll [.one 4 intruder]) = .ok u ∧
      b ∈ v.directory.files ∧ u.directory.get? 1 = some b ∧ u.image.follow b = .ok (pairChain 1) ∧
      u.list.map (·.slot) = [0, 1] := by
  obtain ⟨v, hmount, hloaded, himage⟩ : ∃ v, mount pairDisk = .ok v ∧ v.Loaded ∧
      v.image = pairDisk := mount_sketched (by decide +kernel) (by decide +kernel)
  have hget : ∀ slot, v.directory.get? slot = pairFiles[slot]?.map pairDisk.measured := by
    intro slot
    rw [hloaded.reads.get?_directory, himage, entryAt_pairDisk]
  have hfile : ∀ slot e, pairFiles[slot]? = some e → e.slot = slot → e.isInUse = true →
      pairDisk.measured e ∈ v.directory.files ∧
        v.image.follow (pairDisk.measured e) = .ok (pairChain slot) := by
    intro slot e he hslot huse
    refine ⟨Directory.mem_files.2 ⟨?_, huse⟩, ?_⟩
    · change v.directory.get? e.slot = _
      rw [hget, hslot, he, Option.map_some]
    · rw [himage, measured, follow_length]
      exact follow_pairDisk he
  obtain ⟨ha, hfollowA⟩ := hfile 0 _ rfl rfl (by decide)
  obtain ⟨hb, hfollowB⟩ := hfile 1 _ rfl rfl (by decide)
  have hwrites : ∀ write ∈ [(4, intruder)], write.1 ∈ (pairChain 0).numbers ∧
      (write.1 < 360 ∨ 368 < write.1) ∧
      write.2.length = (pairDisk.sector write.1).length := by
    intro write hwrite
    rw [List.mem_singleton.1 hwrite]
    refine ⟨by decide, by decide, ?_⟩
    calc intruder.length = 128 := DataSector.length_bytes (by decide)
      _ = (pairDisk.sector 4).length :=
        (roomy_pairDisk.length_sector (by decide) (by decide)).symm
  obtain ⟨u, hu, _, _, hslots, hothers⟩ :=
    damage_is_contained roomy_pairDisk.toSound hmount ha hfollowA hwrites rfl
  obtain ⟨hkept, _, hagain⟩ := hothers _ (List.mem_filter.1 hb).1 (by decide) _ hfollowB
  refine ⟨v, u, _, hmount, hu, hb, hkept, hagain, ?_⟩
  have htaken : v.directory.isTaken = fun slot => pairFiles[slot]?.any (·.isInUse) := by
    funext slot
    rw [Directory.isTaken, hget, Option.any_map]
    rfl
  rw [hslots, htaken]
  decide

end Volume

end AtariDisk
