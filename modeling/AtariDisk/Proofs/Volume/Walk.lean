import AtariDisk.Volume.Walk
import AtariDisk.Proofs.Chain
import AtariDisk.Proofs.Image.Sectors
import AtariDisk.Proofs.Directory.Entry

/-!
# What following a chain finds

Following a chain answers exactly the chain that lies on the disk (`Image.Carries`), if there is one
of the right length from the right sector on, and it never traps.
-/

namespace AtariDisk

namespace Image

/-- The chain lies on the disk, its sectors linked in order and owned by `slot`. -/
structure Carries (image : Image) (slot : Nat) (chain : Chain) : Prop where
  linked : chain.Linked slot
  linkable : ∀ s ∈ chain, image.Linkable s.number
  stored : ∀ s ∈ chain, DataSector.decode s.number (image.sector s.number) = .ok s

theorem carries_nil (image : Image) (slot : Nat) : image.Carries slot [] :=
  ⟨trivial, fun _ hs => absurd hs List.not_mem_nil, fun _ hs => absurd hs List.not_mem_nil⟩

theorem carries_cons {image : Image} {slot : Nat} {s : DataSector} {rest : Chain} :
    image.Carries slot (s :: rest) ↔
      image.Linkable s.number ∧ DataSector.decode s.number (image.sector s.number) = .ok s ∧
        s.owner = slot ∧ s.next = Chain.firstSector rest ∧ image.Carries slot rest := by
  constructor
  · rintro ⟨⟨howner, hnext, hlinked⟩, hlinkable, hstored⟩
    refine ⟨hlinkable s List.mem_cons_self, hstored s List.mem_cons_self, howner, hnext, hlinked,
      ?_, ?_⟩
    · exact fun t ht => hlinkable t (List.mem_cons_of_mem s ht)
    · exact fun t ht => hstored t (List.mem_cons_of_mem s ht)
  · rintro ⟨hlinkable, hstored, howner, hnext, hrest⟩
    refine ⟨⟨howner, hnext, hrest.linked⟩, ?_, ?_⟩
    · intro t ht
      rcases List.mem_cons.1 ht with rfl | hlater
      · exact hlinkable
      · exact hrest.linkable t hlater
    · intro t ht
      rcases List.mem_cons.1 ht with rfl | hlater
      · exact hstored
      · exact hrest.stored t hlater

/-- The chain stays on the disk as long as its sectors keep their bytes. -/
theorem Carries.of_sectors {a b : Image} {slot : Nat} {chain : Chain} (ha : a.Carries slot chain)
    (hheader : b.header = a.header)
    (hsectors : ∀ n ∈ chain.numbers, b.sector n = a.sector n) : b.Carries slot chain := by
  refine ⟨ha.linked, ?_, ?_⟩
  · exact fun s hs => (ha.linkable s hs).of_header hheader
  · intro s hs
    rw [hsectors s.number (List.mem_map_of_mem hs)]
    exact ha.stored s hs

theorem followFrom_length (image : Image) (e : Entry) (length found remaining n : Nat) :
    image.followFrom { e with length } found remaining n =
      image.followFrom e found remaining n := by
  induction remaining generalizing found n with
  | zero => rfl
  | succ remaining ih =>
    unfold followFrom
    simp only [ih]
    rfl

/-- Following a chain does not ask how long the file is said to be. -/
theorem follow_length (image : Image) (e : Entry) (length : Nat) :
    image.follow { e with length } = image.follow e := by
  unfold follow
  simp only [followFrom_length]
  rfl

section Follow

variable {image : Image} (hcounted : image.Counted) {e : Entry}

include hcounted

theorem Counted.followFrom_succ {found remaining n : Nat} (hn : image.Linkable n) :
    image.followFrom e found (remaining + 1) n = (do
      let s ← DataSector.decode n (image.sector n)
      if s.owner = e.slot then
        return s :: (← image.followFrom e (found + 1) remaining s.next)
      else refuse (.chainForeign e.fileName n s.owner e.slot)) := by
  obtain ⟨hfirst, hlast, hshort⟩ := id hn
  rw [followFrom, if_neg (by omega), hcounted.regular.hasSector_eq hcounted.countable,
    Outcome.ok_bind, if_pos (by simp [hfirst, hlast]), readSector_of_span (hcounted.span_one hn),
    Outcome.ok_bind]

theorem Counted.followFrom_outside {found remaining n : Nat} (hn : n ≠ 0)
    (houtside : image.header.sectorCount < n) :
    image.followFrom e found (remaining + 1) n = refuse (.chainLeavesDisk e.fileName n) := by
  rw [followFrom, if_neg hn, hcounted.regular.hasSector_eq hcounted.countable, Outcome.ok_bind,
    if_neg (by simp; omega)]

/-- Following a chain never traps, and is refused only because of the chain: from the second sector
on, sectors are named by links. -/
theorem Counted.refusesOnly_followFrom {found remaining n : Nat} (hn : n < 65536) :
    (image.followFrom e found remaining n).RefusesOnly .damaged := by
  induction remaining generalizing found n with
  | zero =>
    rw [followFrom]
    split
    · exact Outcome.refusesOnly_ok _
    · exact Outcome.refusesOnly_refuse rfl
  | succ remaining ih =>
    by_cases hzero : n = 0
    · rw [followFrom, if_pos hzero]
      exact Outcome.refusesOnly_refuse rfl
    · by_cases hlast : n ≤ image.header.sectorCount
      · rw [hcounted.followFrom_succ ⟨by omega, hlast, hn⟩]
        refine (DataSector.refusesOnly_decode n _).bind fun s hdecode => ?_
        have hnext := (DataSector.of_decode hdecode).2
        simp only [DataSector.maxNext] at hnext
        split
        · exact (ih (by omega)).bind fun rest _ => Outcome.refusesOnly_ok _
        · exact Outcome.refusesOnly_refuse rfl
      · rw [hcounted.followFrom_outside hzero (by omega)]
        exact Outcome.refusesOnly_refuse rfl

theorem Counted.followFrom_eq_ok_iff {found remaining n : Nat} (hn : n < 65536) {chain : Chain} :
    image.followFrom e found remaining n = .ok chain ↔
      chain.length = remaining ∧ chain.firstSector = n ∧ image.Carries e.slot chain := by
  induction remaining generalizing found n chain with
  | zero =>
    rw [followFrom]
    constructor
    · intro hend
      split at hend
      · rename_i hzero
        cases hend
        exact ⟨rfl, hzero.symm, image.carries_nil e.slot⟩
      · simp at hend
    · rintro ⟨hlength, hfirst, _⟩
      have hnil : chain = [] := List.eq_nil_of_length_eq_zero hlength
      subst hnil
      have hzero : n = 0 := hfirst.symm
      rw [if_pos hzero]
  | succ remaining ih =>
    by_cases hlinkable : image.Linkable n
    · rw [hcounted.followFrom_succ hlinkable, Outcome.bind_eq_ok_iff]
      constructor
      · rintro ⟨s, hdecode, hrest⟩
        obtain ⟨hnumber, hnext⟩ := DataSector.of_decode hdecode
        simp only [DataSector.maxNext] at hnext
        split at hrest
        · rename_i howner
          obtain ⟨rest, hfollow, hchain⟩ := Outcome.bind_eq_ok_iff.1 hrest
          obtain ⟨hlength, hfirst, hcarries⟩ := (ih (by omega)).1 hfollow
          simp only [Outcome.pure_eq_ok, Except.ok.injEq] at hchain
          subst hchain
          refine ⟨by simp [hlength], hnumber, carries_cons.2 ?_⟩
          exact ⟨hnumber ▸ hlinkable, hnumber ▸ hdecode, howner, hfirst.symm, hcarries⟩
        · simp at hrest
      · rintro ⟨hlength, hfirst, hcarries⟩
        cases chain with
        | nil => simp at hlength
        | cons s rest =>
          have hnumber : s.number = n := hfirst
          obtain ⟨_, hdecode, howner, hnext, hrest⟩ := carries_cons.1 hcarries
          have hbound := (DataSector.of_decode hdecode).2
          simp only [DataSector.maxNext] at hbound
          have hfollow : image.followFrom e (found + 1) remaining s.next = .ok rest :=
            (ih (by omega)).2 ⟨Nat.succ.inj hlength, hnext.symm, hrest⟩
          rw [hnumber] at hdecode
          refine ⟨s, hdecode, ?_⟩
          rw [if_pos howner, hfollow]
          rfl
    · constructor
      · intro hfollow
        by_cases hzero : n = 0
        · rw [followFrom, if_pos hzero] at hfollow
          simp at hfollow
        · have hlast : image.header.sectorCount < n :=
            Nat.lt_of_not_le fun hinside => hlinkable ⟨by omega, hinside, hn⟩
          rw [hcounted.followFrom_outside hzero hlast] at hfollow
          simp at hfollow
      · rintro ⟨hlength, hfirst, hcarries⟩
        cases chain with
        | nil => simp at hlength
        | cons s rest =>
          have hnumber : s.number = n := hfirst
          exact absurd (hnumber ▸ (carries_cons.1 hcarries).1) hlinkable

theorem Counted.refusesOnly_follow (hfirst : e.firstSector < 65536) :
    (image.follow e).RefusesOnly .damaged := by
  unfold follow
  split
  · exact hcounted.refusesOnly_followFrom hfirst
  · exact (hcounted.refusesOnly_followFrom hfirst).bind fun _ _ => Outcome.refusesOnly_refuse rfl

theorem Counted.settles_follow (hfirst : e.firstSector < 65536) : (image.follow e).Settles :=
  (hcounted.refusesOnly_follow hfirst).settles

/-- The chain of a file is found exactly if it lies on the disk as the entry says. -/
theorem Counted.follow_eq_ok_iff (hfirst : e.firstSector < 65536) {chain : Chain} :
    image.follow e = .ok chain ↔
      e.sectorCount ≤ longestChain ∧ chain.length = e.sectorCount ∧
        chain.firstSector = e.firstSector ∧ image.Carries e.slot chain := by
  unfold follow
  by_cases hcount : e.sectorCount ≤ longestChain
  · rw [if_pos hcount, hcounted.followFrom_eq_ok_iff hfirst]
    simp [hcount]
  · rw [if_neg hcount, Outcome.bind_eq_ok_iff]
    simp [hcount]

end Follow

end Image

end AtariDisk
