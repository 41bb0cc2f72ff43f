import AtariDisk.Volume.Listing
import AtariDisk.Proofs.Volume.Operations

/-!
# No disk is hostile enough

Whatever the bytes of a file are, they are refused as an image or give a volume on which nothing
traps: every request is answered or refused, in every state that requests can lead to, and a walk
along a chain looks at no more sectors than the entry says the chain has.
-/

namespace AtariDisk

namespace Image

/-! ### Sectors that a walk looks at -/

/-- What the walk along the chain of an entry comes to depends on no sectors but these. -/
def WalkReads (image : Image) (e : Entry) (read : List Nat) : Prop :=
  ∀ other : Image, other.header = image.header → other.data.size = image.data.size →
    (∀ n ∈ read, other.sector n = image.sector n) → other.follow e = image.follow e

/-- The same of a walk that is under way. -/
def WalkReadsFrom (image : Image) (e : Entry) (found remaining n : Nat) (read : List Nat) : Prop :=
  ∀ other : Image, other.Roomy → other.header = image.header →
    (∀ m ∈ read, other.sector m = image.sector m) →
      other.followFrom e found remaining n = image.followFrom e found remaining n

theorem Roomy.congr {image other : Image} (hroomy : image.Roomy)
    (hheader : other.header = image.header) (hsize : other.data.size = image.data.size) :
    other.Roomy := by
  refine ⟨⟨?_, ?_⟩, ?_, ?_⟩
  · rw [hheader]
    exact hroomy.regular
  · rw [hheader, hsize]
    exact hroomy.covered
  · rw [hheader]
    exact hroomy.reaches
  · rw [hheader]
    exact hroomy.countable

section Walk

variable {image : Image} (hroomy : image.Roomy) {e : Entry}

include hroomy

/-- A step looks at one sector, and the walk goes on where its link says. -/
theorem Roomy.walkReadsFrom_succ {found remaining n : Nat} (hn : image.Linkable n)
    {later : List Nat}
    (hlater : ∀ s, DataSector.decode n (image.sector n) = .ok s →
      image.WalkReadsFrom e (found + 1) remaining s.next later) :
    image.WalkReadsFrom e found (remaining + 1) n (n :: later) := by
  intro other hother hheader hsame
  rw [hother.followFrom_succ (hn.of_header hheader), hroomy.followFrom_succ hn,
    hsame n List.mem_cons_self]
  cases hdecode : DataSector.decode n (image.sector n) with
  | error failure => rfl
  | ok s =>
    have hrest := hlater s hdecode other hother hheader fun m hm =>
      hsame m (List.mem_cons_of_mem n hm)
    rw [Outcome.ok_bind, Outcome.ok_bind, hrest]

theorem Roomy.exists_walkReadsFrom (found remaining : Nat) {n : Nat} (hn : n < 65536) :
    ∃ read : List Nat, read.length ≤ remaining ∧
      image.WalkReadsFrom e found remaining n read := by
  induction remaining generalizing found n with
  | zero => exact ⟨[], Nat.le_refl 0, fun other _ _ _ => rfl⟩
  | succ remaining ih =>
    by_cases hzero : n = 0
    · refine ⟨[], Nat.zero_le _, fun other _ _ _ => ?_⟩
      rw [followFrom, followFrom, if_pos hzero, if_pos hzero]
    · by_cases hlast : n ≤ image.header.sectorCount
      · have hlinkable : image.Linkable n := ⟨by omega, hlast, hn⟩
        obtain ⟨later, hlength, hlater⟩ : ∃ later : List Nat, later.length ≤ remaining ∧
            ∀ s, DataSector.decode n (image.sector n) = .ok s →
              image.WalkReadsFrom e (found + 1) remaining s.next later := by
          cases hdecode : DataSector.decode n (image.sector n) with
          | error failure => exact ⟨[], Nat.zero_le _, fun s hs => by simp at hs⟩
          | ok s =>
            have hnext := (DataSector.of_decode hdecode).2
            simp only [DataSector.maxNext] at hnext
            obtain ⟨later, hlength, hlater⟩ := ih (found + 1) (show s.next < 65536 by omega)
            refine ⟨later, hlength, fun t ht => ?_⟩
            rw [← Except.ok.inj ht]
            exact hlater
        exact ⟨n :: later, Nat.succ_le_succ hlength, hroomy.walkReadsFrom_succ hlinkable hlater⟩
      · refine ⟨[], Nat.zero_le _, fun other hother hheader _ => ?_⟩
        rw [hroomy.followFrom_outside hzero (by omega),
          hother.followFrom_outside hzero (by rw [hheader]; omega)]

/-- A walk looks at no more sectors than the entry says the chain has. -/
theorem Roomy.exists_walkReads (hfirst : e.firstSector < 65536) :
    ∃ read : List Nat, read.length ≤ e.sectorCount ∧ image.WalkReads e read := by
  unfold WalkReads follow
  by_cases hshort : e.sectorCount ≤ longestChain
  · obtain ⟨read, hlength, hreads⟩ := hroomy.exists_walkReadsFrom 0 e.sectorCount hfirst
    refine ⟨read, hlength, fun other hheader hsize hsame => ?_⟩
    rw [if_pos hshort, if_pos hshort, hreads other (hroomy.congr hheader hsize) hheader hsame]
  · obtain ⟨read, hlength, hreads⟩ := hroomy.exists_walkReadsFrom 0 (longestChain + 1) hfirst
    refine ⟨read, by omega, fun other hheader hsize hsame => ?_⟩
    rw [if_neg hshort, if_neg hshort, hreads other (hroomy.congr hheader hsize) hheader hsame]

end Walk

end Image

theorem Directory.settles_find (d : Directory) (typed : String) : (d.find typed).Settles := by
  unfold find
  simp only
  split
  · exact Outcome.settles_ok _
  · exact Outcome.settles_refuse _

namespace Volume

open Image

/-! ### Operations that do not trap -/

section Operations

variable {v : Volume} (hloaded : v.Loaded)

include hloaded

theorem Loaded.settles_contentsOf (typed : String) : (v.contentsOf typed).Settles := by
  unfold contentsOf
  refine (v.directory.settles_find typed).bind fun e hfind => ?_
  have he := (List.mem_filter.1 (Directory.mem_files_of_find hfind)).1
  refine (hloaded.roomy.settles_follow (hloaded.storable he).first).bind fun chain _ => ?_
  exact Outcome.settles_ok _

theorem Loaded.writeFile_refused {typed : String} {kind : FileKind} {contents : Bytes}
    {failure : Failure} {u : Volume} (herror : v.writeFile typed kind contents = .error failure u) :
    ∃ cause, failure = .refused cause := by
  cases hplan : v.plan typed kind contents with
  | error e =>
    rw [hloaded.writeFile_of_plan_error hplan, EStateM.Result.error.injEq] at herror
    obtain ⟨rfl, _⟩ := herror
    exact (settles_planFile _ _ _ _ _ _).exists_refused hplan
  | ok p =>
    have hlinkable : ∀ s ∈ p.chain, v.image.Linkable s.number := fun s hs =>
      (hloaded.mem_numbers_plan hplan (List.mem_map_of_mem hs)).2.2.2
    have hstore := storeFile_eq v.map v.directory v.payload typed kind contents
    unfold plan at hplan
    rw [hplan] at hstore
    rw [hloaded.ready.writeFile_eq] at herror
    rcases storeChain_cases hloaded.roomy.opened.toCounted hlinkable with
      ⟨mid, hchain⟩ | ⟨cause, mid, hchain⟩
    · -- Once the chain is on the disk, map and directory follow.
      obtain ⟨after, hsystem, _⟩ :=
        hloaded.storeSystem_plan hplan ((keeps_storeChain p.chain).of_ok hchain)
      have hdone : storeFile v.map v.directory v.payload typed kind contents v.image.opened =
          .ok p.entry after := storeFile_eq_ok_iff.2 ⟨p, mid, hplan, hchain, hsystem, rfl⟩
      obtain ⟨w, hok, _⟩ :=
        update_of_ok (keeps_storeFile _ _ _ _ _ _) hloaded.roomy hloaded.idle hdone
      rw [hok] at herror
      simp at herror
    · have hfailed : storeFile v.map v.directory v.payload typed kind contents v.image.opened =
          .error (.refused cause) mid := by
        rw [hstore, Call.bind_of_ok (Call.ofOutcome_ok p _)]
        exact Call.bind_of_error hchain _
      rw [update_of_error (keeps_storeFile _ _ _ _ _ _) hloaded.idle hfailed,
        EStateM.Result.error.injEq] at herror
      exact ⟨cause, herror.1.symm⟩

theorem Loaded.deleteFile_refused {typed : String} {failure : Failure} {u : Volume}
    (herror : v.deleteFile typed = .error failure u) : ∃ cause, failure = .refused cause := by
  cases hfind : v.directory.find typed with
  | error e =>
    obtain ⟨cause, rfl⟩ := (v.directory.settles_find typed).exists_refused hfind
    rw [deleteFile_of_not_found hfind, EStateM.Result.error.injEq] at herror
    exact ⟨cause, herror.1.symm⟩
  | ok e =>
    have he := (List.mem_filter.1 (Directory.mem_files_of_find hfind)).1
    cases hlocked : e.flags.isLocked with
    | true =>
      rw [deleteFile_of_locked hfind hlocked, EStateM.Result.error.injEq] at herror
      exact ⟨_, herror.1.symm⟩
    | false =>
      cases hfollow : v.image.follow e with
      | error e' =>
        obtain ⟨cause, rfl⟩ :=
          (hloaded.roomy.settles_follow (hloaded.storable he).first).exists_refused hfollow
        rw [deleteFile_of_damaged hfind hlocked hfollow, EStateM.Result.error.injEq] at herror
        exact ⟨cause, herror.1.symm⟩
      | ok chain =>
        obtain ⟨w, hok, _⟩ := hloaded.deleteFile_of_follow hfind hlocked hfollow
        rw [hok] at herror
        simp at herror

theorem Loaded.perform_refused {action : Action} {failure : Failure} {u : Volume}
    (hfailed : v.perform action = (some failure, u)) : ∃ cause, failure = .refused cause := by
  cases action with
  | write typed kind contents =>
    cases hwrite : v.writeFile typed kind contents with
    | ok e w => simp [Volume.perform, hwrite, ending] at hfailed
    | error e w =>
      simp only [Volume.perform, hwrite, ending, Prod.mk.injEq, Option.some.injEq] at hfailed
      exact hfailed.1 ▸ hloaded.writeFile_refused hwrite
  | delete typed =>
    cases hdelete : v.deleteFile typed with
    | ok _ w => simp [Volume.perform, hdelete, ending] at hfailed
    | error e w =>
      simp only [Volume.perform, hdelete, ending, Prod.mk.injEq, Option.some.injEq] at hfailed
      exact hfailed.1 ▸ hloaded.deleteFile_refused hdelete

end Operations

/-! ### Runs of requests -/

/-- What a volume can be asked for. A chain is asked for by an entry, be it of the directory as it
is or as it was; its numbers are such as a record can hold. -/
inductive Request where
  | list
  | read (typed : String)
  | chain (e : Entry) (recorded : e.sectorCount < 65536 ∧ e.firstSector < 65536)
  | act (action : Action)

/-- What a volume answers. -/
inductive Reply where
  | files (lines : List ListedFile)
  | contents (bytes : Bytes)
  | chain (sectors : Chain)
  | done

def serve (v : Volume) : Request → Outcome Reply × Volume
  | .list => (.ok (.files v.list), v)
  | .read typed => ((v.contentsOf typed).map .contents, v)
  | .chain e _ => ((v.image.follow e).map .chain, v)
  | .act action =>
    match v.perform action with
    | (none, u) => (.ok .done, u)
    | (some failure, u) => (.error failure, u)

def serveAll (v : Volume) : List Request → List (Outcome Reply) × Volume
  | [] => ([], v)
  | request :: rest =>
    let (reply, v) := v.serve request
    let (replies, v) := v.serveAll rest
    (reply :: replies, v)

theorem Loaded.serve {v : Volume} (hloaded : v.Loaded) (request : Request) :
    (v.serve request).1.Settles ∧ (v.serve request).2.Loaded := by
  cases request with
  | list => exact ⟨Outcome.settles_ok _, hloaded⟩
  | read typed =>
    have hcontents := hloaded.settles_contentsOf typed
    simp only [Volume.serve]
    exact ⟨hcontents.map Reply.contents, hloaded⟩
  | chain e recorded =>
    have hfollow := hloaded.roomy.settles_follow recorded.2
    simp only [Volume.serve]
    exact ⟨hfollow.map Reply.chain, hloaded⟩
  | act action =>
    rcases hloaded.ready.perform_cases action with ⟨failure, hfailed⟩ | ⟨u, hdone, hu⟩
    · obtain ⟨cause, rfl⟩ := hloaded.perform_refused hfailed
      simp only [Volume.serve, hfailed]
      exact ⟨Outcome.settles_refuse cause, hloaded⟩
    · simp only [Volume.serve, hdone]
      exact ⟨Outcome.settles_ok _, hu⟩

theorem Loaded.serveAll {v : Volume} (hloaded : v.Loaded) (requests : List Request) :
    (∀ reply ∈ (v.serveAll requests).1, reply.Settles) ∧ (v.serveAll requests).2.Loaded := by
  induction requests generalizing v with
  | nil => exact ⟨fun _ hreply => absurd hreply List.not_mem_nil, hloaded⟩
  | cons request rest ih =>
    obtain ⟨hsettles, hnext⟩ := hloaded.serve request
    obtain ⟨hreplies, hlast⟩ := ih hnext
    refine ⟨fun reply hreply => ?_, hlast⟩
    rcases List.mem_cons.1 hreply with rfl | hlater
    · exact hsettles
    · exact hreplies reply hlater

/-- **Robustness.** The bytes of any file are refused as being no disk, or they give a volume on
which every run of requests is answered without a trap. In each state that is reached, the entries
of the directory are such as chains can be asked for, and no walk looks at more sectors than its
entry says. -/
theorem ofBuffer_robust (data : Buffer) (hsize : data.size < Word.bound) :
    (∃ cause, ofBuffer data = refuse cause ∧ cause.kind = .format) ∨
      ∃ v, ofBuffer data = .ok v ∧ ∀ requests u, u = (v.serveAll requests).2 →
        (∀ reply ∈ (v.serveAll requests).1, reply.Settles) ∧
        (∀ e ∈ u.directory.entries, e.sectorCount < 65536 ∧ e.firstSector < 65536) ∧
        ∀ e : Entry, e.firstSector < 65536 →
          ∃ read : List Nat, read.length ≤ e.sectorCount ∧ u.image.WalkReads e read := by
  have hrefused : (ofBuffer data).RefusesOnly .format := by
    refine (refusesOnly_ofBuffer data).bind fun image hread => ?_
    have hsound := (sound_of_ofBuffer hread).1
    exact refusesOnly_mount hsound (hsound.countable (by rw [data_of_ofBuffer hread]; exact hsize))
  cases hopen : ofBuffer data with
  | error e =>
    obtain ⟨cause, rfl, hkind⟩ := hrefused e hopen
    exact .inl ⟨cause, rfl, hkind⟩
  | ok v =>
    obtain ⟨image, hread, hmount⟩ := Outcome.bind_eq_ok_iff.1 hopen
    obtain ⟨hsound, hidle⟩ := sound_of_ofBuffer hread
    have hloaded := loaded_of_mount hsound hidle hmount
    refine .inr ⟨v, rfl, fun requests u hu => ?_⟩
    obtain ⟨hsettles, hlast⟩ := hloaded.serveAll requests
    rw [← hu] at hlast
    refine ⟨hsettles, fun e he => ?_, fun e hfirst => hlast.roomy.exists_walkReads hfirst⟩
    exact ⟨(hlast.storable he).count, (hlast.storable he).first⟩

/-- A file that claims more sectors than there are. -/
def loopFile : Entry :=
  ⟨0, .ofKind .normal, 65535, 4, ⟨"LOOP", ""⟩, 0⟩

/-- The first sector of the file, which links to itself. -/
def loopSector : DataSector :=
  ⟨4, 0, 4, [0x41]⟩

def loopParts : List (Nat × Bytes) :=
  [(4, loopSector.bytes 128), (SectorMap.home, [SectorMap.dos2]),
    (Directory.home, loopFile.encode)]

/-- A chain without end, of a file that claims as many sectors as a record can, does no harm. -/
theorem ofBuffer_robust_loop :
    ∃ v, (sketchBytes loopParts).toArray.size < Word.bound ∧
      ofBuffer (sketchBytes loopParts).toArray = .ok v ∧
      (∃ e ∈ v.directory.entries, e.firstSector = 4 ∧ e.sectorCount = 65535) ∧
      DataSector.decode 4 (v.image.sector 4) = .ok loopSector ∧
      ∀ requests, ∀ reply ∈ (v.serveAll requests).1, reply.Settles := by
  have hlead : (sketch loopParts 1).take 2 ≠ Container.atr.signature := by decide +kernel
  obtain ⟨v, hmount, hloaded, himage⟩ := mount_sketched hlead (by decide +kernel)
  have hopen : ofBuffer (sketchBytes loopParts).toArray = .ok v :=
    Outcome.bind_eq_ok_iff.2 ⟨_, ofBuffer_sketched hlead, hmount⟩
  have hsize : (sketchBytes loopParts).toArray.size < Word.bound := by
    rw [size_sketchBytes]
    decide
  refine ⟨v, hsize, hopen, ⟨(sketched loopParts).measured loopFile, ?_, rfl, rfl⟩, ?_, ?_⟩
  · have hentry : (sketched loopParts).entryAt 0 = some loopFile := by
      rw [entryAt_of_lt _ (by decide), record_sketched _ (by decide)]
      decide +kernel
    have hget := hloaded.reads.get?_directory 0
    rw [himage, hentry] at hget
    exact List.mem_of_find?_eq_some hget
  · rw [himage, sector_sketched _ (by decide) (by decide)]
    decide +kernel
  · rcases ofBuffer_robust _ hsize with ⟨cause, hrefused, _⟩ | ⟨w, hw, hrobust⟩
    · rw [hopen] at hrefused
      cases hrefused
    · rw [hopen] at hw
      cases hw
      exact fun requests => (hrobust requests _ rfl).1

end Volume

end AtariDisk
