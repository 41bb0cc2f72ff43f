import AtariDisk.Proofs.Console.Sessions
import AtariDisk.Proofs.SectorMap.Drawing
import AtariDisk.Proofs.Volume.Trail

/-!
# The number of free sectors

A volume counts the free sectors of its disk. The map that is drawn on demand is read afresh and
counts the bits of all sectors up to 719, also of those that the disk does not have. On a disk that
ends before sector 719 the two numbers differ by the bits behind its end. Importing and deleting
files leaves these bits alone, so that the numbers agree all the time or never.
-/

namespace AtariDisk

/-! ### Sectors behind the end -/

namespace SectorMap

variable {map : SectorMap}

/-- The sectors that are marked as free but never given out. -/
def beyond (map : SectorMap) : List Nat :=
  (List.range' map.limit (720 - map.limit)).filter map.isFree

theorem beyond_congr {a b : SectorMap} (hlimit : a.limit = b.limit)
    (hfree : ∀ s, b.limit ≤ s → a.isFree s = b.isFree s) : a.beyond = b.beyond := by
  rw [beyond, beyond, hlimit]
  apply List.filter_congr
  intro s hs
  exact hfree s (List.mem_range'_1.1 hs).1

theorem beyond_eq_nil_iff :
    map.beyond = [] ↔ ∀ s, map.limit ≤ s → s < 720 → map.isFree s = false := by
  have hlimit := map.limit_le
  rw [beyond, List.filter_eq_nil_iff]
  constructor
  · intro hclear s hfirst hlast
    have hs := hclear s (List.mem_range'_1.2 ⟨hfirst, by omega⟩)
    exact Bool.eq_false_iff.2 hs
  · intro hclear s hs
    have hrange := List.mem_range'_1.1 hs
    exact Bool.eq_false_iff.1 (hclear s hrange.1 (by omega))

theorem limit_of_unpack {raw : Bytes} (hunpack : unpack raw = .ok map) : map.limit = 720 := by
  unfold unpack at hunpack
  split at hunpack
  · cases hunpack
    rfl
  · exact absurd hunpack (Outcome.refuse_ne_ok _ _)

/-- A map that gives out all sectors counts those behind the end as well. -/
theorem freeCount_of_limit {whole : SectorMap} (hwhole : whole.limit = 720)
    (hfree : ∀ s, whole.isFree s = map.isFree s) (hpos : 1 ≤ map.limit) :
    whole.freeCount = map.freeCount + map.beyond.length := by
  have hlimit := map.limit_le
  have hrange : List.range' 1 719 =
      List.range' 1 (map.limit - 1) ++ List.range' map.limit (720 - map.limit) := by
    rw [show 719 = (map.limit - 1) + (720 - map.limit) by omega, ← List.range'_append_1,
      Nat.add_sub_cancel' hpos]
  calc whole.freeCount
      = ((List.range' 1 719).filter map.isFree).length := by
        rw [freeCount, freeSectors, hwhole, funext hfree]
    _ = map.freeCount + map.beyond.length := by
        rw [hrange, List.filter_append, List.length_append]
        rfl

end SectorMap

namespace Volume

open Image

/-- The disks end at the same sector, and the bits behind it are the same. -/
structure SameBeyond (v u : Volume) : Prop where
  loaded : u.Loaded
  limit : u.map.limit = v.map.limit
  isFree : ∀ s, v.map.limit ≤ s → u.map.isFree s = v.map.isFree s

theorem SameBeyond.trans {v u w : Volume} (hvu : v.SameBeyond u) (huw : u.SameBeyond w) :
    v.SameBeyond w := by
  refine ⟨huw.loaded, huw.limit.trans hvu.limit, fun s hs => ?_⟩
  rw [huw.isFree s (hvu.limit.symm ▸ hs), hvu.isFree s hs]

section Step

variable {v u : Volume} (hloaded : v.Loaded)

include hloaded

theorem Loaded.sameBeyond_of_mark {sectors : List Nat} {free : Bool}
    (hrewritten : Rewritten v u (v.map.mark sectors free))
    (hsectors : ∀ n ∈ sectors, n < 720 → n < v.map.limit) : v.SameBeyond u := by
  refine ⟨hrewritten.loaded, hrewritten.limit_map hloaded, fun s hs => ?_⟩
  rw [(hrewritten.loaded.map_of_packed hrewritten.packed).1 s, SectorMap.isFree_mark, if_neg]
  rintro ⟨hmem, hsmall⟩
  have hbefore := hsectors s hmem hsmall
  omega

theorem Loaded.sameBeyond_of_write {typed : String} {kind : FileKind} {contents : Bytes}
    {e : Entry} (hok : v.writeFile typed kind contents = .ok e u) : v.SameBeyond u := by
  obtain ⟨p, hplan, _, hrewritten⟩ := hloaded.writeFile_inv hok
  obtain ⟨name, slot, _, _, _, _, rfl⟩ := planFile_eq_ok_iff.1 hplan
  apply hloaded.sameBeyond_of_mark hrewritten
  intro n hn _
  exact (hloaded.mem_numbers_plan hplan hn).2.1

theorem Loaded.sameBeyond_of_delete {typed : String} (hok : v.deleteFile typed = .ok () u) :
    v.SameBeyond u := by
  obtain ⟨e, chain, hfind, hunlocked, hfollow⟩ := deleteFile_inv hok
  obtain ⟨w, hw, hrewritten, _⟩ := hloaded.deleteFile_of_follow hfind hunlocked hfollow
  rw [hok, EStateM.Result.ok.injEq] at hw
  obtain ⟨_, rfl⟩ := hw
  apply hloaded.sameBeyond_of_mark hrewritten
  -- A chain that can be followed does not leave the disk.
  intro n hn hsmall
  obtain ⟨s, hs, rfl⟩ := List.mem_map.1 hn
  have he := (List.mem_filter.1 (Directory.mem_files_of_find hfind)).1
  have hlast := ((hloaded.carries_of_follow he hfollow).linkable s hs).2.1
  have hlimit := hloaded.reads.limit_map
  omega

theorem Loaded.sameBeyond_perform (action : Action) : v.SameBeyond (v.perform action).2 := by
  obtain ⟨e, hfailed⟩ | ⟨u, hdone, _⟩ := hloaded.ready.perform_cases action
  · rw [hfailed]
    exact ⟨hloaded, rfl, fun _ _ => rfl⟩
  · rw [hdone]
    cases action with
    | write typed kind contents =>
      obtain ⟨e, hok⟩ := writeFile_of_perform hdone
      exact hloaded.sameBeyond_of_write hok
    | delete typed => exact hloaded.sameBeyond_of_delete (deleteFile_of_perform hdone)

end Step

end Volume

namespace Console

open Volume

/-! ### Numbers that are printed -/

/-- What is said to be free, in the title of the map and in what is told of the volume. A volume
without files is listed without a number. -/
structure Reports (session : Option Session) (title told : Nat) : Prop where
  map : ∃ rest, execute session .map =
    .done (.say session (s!"=== VTOC Map ({title} free) ===" :: rest))
  info : ∃ (before : List String) (bytes : Nat), execute session .info =
    .done (.say session (before ++ [s!"Free:         {told} sectors ({bytes} bytes)"]))
  list : execute session .list = .done (.say session ["No files"]) ∨
    ∃ before, execute session .list =
      .done (.say session (before ++ [s!"{told} free sectors"]))

theorem exists_volumeLines {v : Volume} (hloaded : v.Loaded) :
    ∃ (before : List String) (bytes : Nat), volumeLines v =
      .ok (before ++ [s!"Free:         {v.map.freeCount} sectors ({bytes} bytes)"]) := by
  rw [volumeLines, hloaded.summary_eq, Outcome.ok_bind,
    hloaded.freeBytes_eq hloaded.summary_eq, Outcome.ok_bind]
  exact ⟨[_, _, _, _], _, rfl⟩

theorem reports_of_loaded {v : Volume} (hloaded : v.Loaded) :
    Reports (some (.mounted v)) (v.map.freeCount + v.map.beyond.length) v.map.freeCount where
  map := by
    obtain ⟨whole, hunpack, hread, _⟩ := hloaded.roomy.readMap_eq
    have hlimit := hloaded.limit_gt
    have hcount := SectorMap.freeCount_of_limit (SectorMap.limit_of_unpack hunpack)
      (fun s => (hloaded.reads.isFree_map whole hunpack s).symm) (show 1 ≤ v.map.limit by omega)
    refine ⟨(whole.drawing v.image.header.sectorsPerTrack true).tail, ?_⟩
    rw [← hcount]
    simp only [execute, Reply.onSession, Session.image, mapText, hread, Outcome.ok_bind]
    rfl
  info := by
    obtain ⟨before, bytes, hlines⟩ := exists_volumeLines hloaded
    refine ⟨imageLines v.image ++ before, bytes, ?_⟩
    simp only [execute, Reply.onSession, infoLines, hlines, Outcome.ok_bind, List.append_assoc]
    rfl
  list := by
    simp only [execute, Reply.onVolume, Option.bind_some, Session.volume?, listLines]
    split
    · exact .inl rfl
    · simp only [hloaded.summary_eq, Outcome.ok_bind]
      exact .inr ⟨_, rfl⟩

/-! ### What the output tells -/

theorem toList_printed_append (before : List String) (line : String) :
    (printed (before ++ [line])).toList = (printed before).toList ++ line.toList ++ ['\n'] := by
  simp [printed]

/-- The last line is what stands behind the last line break but one. -/
theorem takeWhile_reverse_printed (before : List String) {line : List Char}
    (hline : '\n' ∉ line) :
    ((printed before).toList ++ line).reverse.takeWhile (· != '\n') = line.reverse := by
  have hbefore : (printed before).toList.reverse.takeWhile (· != '\n') = [] := by
    induction before using List.reverseRecOn with
    | nil => rfl
    | append_singleton earlier last _ =>
      rw [toList_printed_append, List.reverse_append]
      rfl
  rw [List.reverse_append, List.takeWhile_append_of_pos, hbefore, List.append_nil]
  intro c hc
  rw [bne_iff_ne]
  rintro rfl
  exact hline (List.mem_reverse.1 hc)

theorem eq_of_printed_append {before before' : List String} {line line' : String}
    (hprinted : printed (before ++ [line]) = printed (before' ++ [line']))
    (hline : '\n' ∉ line.toList) (hline' : '\n' ∉ line'.toList) : line = line' := by
  have hchars := congrArg String.toList hprinted
  rw [toList_printed_append, toList_printed_append, List.append_cancel_right_eq] at hchars
  have hlast := congrArg (fun chars => chars.reverse.takeWhile (· != '\n')) hchars
  simp only [takeWhile_reverse_printed _ hline, takeWhile_reverse_printed _ hline',
    List.reverse_inj] at hlast
  exact String.toList_inj.1 hlast

theorem takeWhile_toDigits (n : Nat) (rest : List Char) :
    (Nat.toDigits 10 n ++ ' ' :: rest).takeWhile Char.isDigit = Nat.toDigits 10 n := by
  rw [List.takeWhile_append_of_pos, List.takeWhile_cons_of_neg (by decide), List.append_nil]
  intro c hc
  exact Nat.isDigit_of_mem_toDigits (by omega) (by omega) hc

/-- A number in front of a blank is known from its digits. -/
theorem eq_of_toDigits_append {n m : Nat} {rest rest' : List Char}
    (hdigits : Nat.toDigits 10 n ++ ' ' :: rest = Nat.toDigits 10 m ++ ' ' :: rest') : n = m := by
  have hsame := congrArg (List.takeWhile Char.isDigit) hdigits
  rw [takeWhile_toDigits, takeWhile_toDigits] at hsame
  have hvalue := congrArg (Nat.ofDigitChars 10 · 0) hsame
  simpa using hvalue

theorem toList_freeLine (told bytes : Nat) :
    (s!"Free:         {told} sectors ({bytes} bytes)").toList =
      "Free:         ".toList ++ (Nat.toDigits 10 told ++
        ' ' :: ("sectors (".toList ++ (Nat.toDigits 10 bytes ++ " bytes)".toList))) := by
  change
    ("Free:         " ++ toString told ++ " sectors (" ++ toString bytes ++ " bytes)").toList = _
  simp

theorem newline_not_mem_freeLine (told bytes : Nat) :
    '\n' ∉ (s!"Free:         {told} sectors ({bytes} bytes)").toList := by
  rw [toList_freeLine]
  simp [SectorMap.newline_not_mem_toDigits]

theorem Reports.unique {session : Option Session} {title told title' told' : Nat}
    (hreports : Reports session title told) (hreports' : Reports session title' told') :
    title = title' ∧ told = told' := by
  constructor
  · obtain ⟨rest, hmap⟩ := hreports.map
    obtain ⟨rest', hmap'⟩ := hreports'.map
    rw [hmap, HostCall.done.injEq, Reply.say, Reply.say, Reply.mk.injEq] at hmap'
    have hchars := congrArg String.toList hmap'.1
    change (printed (("=== VTOC Map (" ++ toString title ++ " free) ===") :: rest)).toList =
      (printed (("=== VTOC Map (" ++ toString title' ++ " free) ===") :: rest')).toList at hchars
    exact eq_of_toDigits_append (by simpa [printed] using hchars)
  · obtain ⟨before, bytes, hinfo⟩ := hreports.info
    obtain ⟨before', bytes', hinfo'⟩ := hreports'.info
    rw [hinfo, HostCall.done.injEq, Reply.say, Reply.say, Reply.mk.injEq] at hinfo'
    have hline := eq_of_printed_append hinfo'.1 (newline_not_mem_freeLine told bytes)
      (newline_not_mem_freeLine told' bytes')
    have hchars := congrArg String.toList hline
    rw [toList_freeLine, toList_freeLine, List.append_cancel_left_eq] at hchars
    exact eq_of_toDigits_append hchars

theorem exists_reports_iff {v : Volume} (hloaded : v.Loaded) :
    (∃ n, Reports (some (.mounted v)) n n) ↔ v.map.beyond = [] := by
  have hreports := reports_of_loaded hloaded
  constructor
  · rintro ⟨n, hsame⟩
    obtain ⟨htitle, htold⟩ := hreports.unique hsame
    apply List.length_eq_zero_iff.1
    omega
  · intro hnone
    rw [hnone] at hreports
    exact ⟨_, hreports⟩

/-! ### Lines that import and delete -/

/-- The words of commands that change files. -/
def changingVerbs : List String :=
  ["import", "delete", "rm"]

/-- The session after some lines, each with what the host answers. -/
def sessionAfter (session : Option Session) (lines : List (String × HostAnswer)) : Option Session :=
  lines.foldl (fun session line => ((answer session line.1).answered line.2).session) session

theorem session_changeVolume {α : Type} (v : Volume) (change : Call Volume α)
    (line : String) :
    (changeVolume v change line).session = some (.mounted (ending (change v)).2) := by
  unfold changeVolume
  cases change v with
  | ok a u => rfl
  | error e u => cases e <;> rfl

theorem changing_of_calledBy {command : Command} {verb : String} (hcalled : command.CalledBy verb)
    (hverb : verb ∈ changingVerbs) :
    (∃ path name kind, command = .importFile path name kind) ∨ (∃ name, command = .delete name) ∨
      ∃ line, command = .rejected line := by
  simp only [changingVerbs, List.mem_cons, List.not_mem_nil, or_false] at hverb
  cases command
  case importFile path name kind => exact .inl ⟨path, name, kind, rfl⟩
  case delete name => exact .inr (.inl ⟨name, rfl⟩)
  case rejected line => exact .inr (.inr ⟨line, rfl⟩)
  all_goals
    obtain rfl | rfl | rfl := hverb
    all_goals simp [Command.CalledBy] at hcalled

theorem execute_changing {v : Volume} {host : HostAnswer} {command : Command} {verb : String}
    (hcalled : command.CalledBy verb) (hverb : verb ∈ changingVerbs) :
    ((execute (some (.mounted v)) command).answered host).session = some (.mounted v) ∨
      ∃ action, ((execute (some (.mounted v)) command).answered host).session =
        some (.mounted (v.perform action).2) := by
  obtain ⟨path, name, kind, rfl⟩ | ⟨name, rfl⟩ | ⟨line, rfl⟩ := changing_of_calledBy hcalled hverb
  · simp only [execute, HostCall.answered, importFile]
    cases host.read with
    | error cause => exact .inl rfl
    | ok data => exact .inr ⟨.write name kind data.toList, session_changeVolume v _ _⟩
  · refine .inr ⟨.delete name, ?_⟩
    simp only [execute, HostCall.answered, Reply.onVolume, Option.bind_some, Session.volume?,
      session_changeVolume]
    rfl
  · exact .inl rfl

theorem answer_changing {v : Volume} {host : HostAnswer} {text : String}
    (hverb : ∃ verb ∈ changingVerbs, verbOf text = some verb) (hloaded : v.Loaded) :
    ∃ u, ((answer (some (.mounted v)) text).answered host).session = some (.mounted u) ∧
      v.SameBeyond u := by
  have hkept : v.SameBeyond v := ⟨hloaded, rfl, fun _ _ => rfl⟩
  obtain ⟨verb, hchanging, hverb⟩ := hverb
  rw [answer_eq]
  cases hcommand : commandIn text with
  | none => exact ⟨v, rfl, hkept⟩
  | some command =>
    obtain ⟨called, hword, hcalled⟩ := calledBy_of_commandIn hcommand
    rw [hverb, Option.some.injEq] at hword
    subst hword
    obtain hsame | ⟨action, hdone⟩ := execute_changing hcalled hchanging
    · exact ⟨v, hsame, hkept⟩
    · exact ⟨_, hdone, hloaded.sameBeyond_perform action⟩

theorem sessionAfter_changing {v : Volume} (hloaded : v.Loaded) {lines : List (String × HostAnswer)}
    (hlines : ∀ line ∈ lines, ∃ verb ∈ changingVerbs, verbOf line.1 = some verb) :
    ∃ u, sessionAfter (some (.mounted v)) lines = some (.mounted u) ∧ v.SameBeyond u := by
  induction lines generalizing v with
  | nil => exact ⟨v, rfl, hloaded, rfl, fun _ _ => rfl⟩
  | cons line rest ih =>
    obtain ⟨u, hstep, hu⟩ := answer_changing (hlines line List.mem_cons_self) hloaded
    obtain ⟨w, hrest, hw⟩ := ih hu.loaded fun later hlater =>
      hlines later (List.mem_cons_of_mem line hlater)
    refine ⟨w, ?_, hu.trans hw⟩
    rw [sessionAfter, List.foldl_cons, hstep]
    exact hrest

theorem mount_of_enter {lines : List String} {image : Image} {v : Volume}
    (henter : (Reply.enter none lines image).session = some (.mounted v)) :
    Catalog.mount image = .ok v := by
  unfold Reply.enter Session.ofImage at henter
  cases hmount : Catalog.mount image with
  | ok u =>
    rw [hmount] at henter
    cases henter
    rfl
  | error failed =>
    obtain ⟨e, handed⟩ := failed
    rw [hmount] at henter
    cases e <;> cases henter

theorem loaded_of_open {path : String} {host : HostAnswer} {v : Volume}
    (hopen : ((execute none (.openImage path)).answered host).session = some (.mounted v)) :
    v.Loaded := by
  simp only [execute, HostCall.answered] at hopen
  cases hread : host.read with
  | error cause =>
    rw [hread] at hopen
    cases hopen
  | ok data =>
    rw [hread, openImage_ok] at hopen
    cases himage : Image.ofBuffer data with
    | error e =>
      rw [himage] at hopen
      cases e <;> cases hopen
    | ok image =>
      obtain ⟨hsound, hidle⟩ := Image.sound_of_ofBuffer himage
      have hnamed : Image.Sound { image with fileName := Text.fileNameOf path } :=
        ⟨hsound.regular, hsound.covered⟩
      rw [himage] at hopen
      apply loaded_of_mount hnamed hidle
      exact (Catalog.mount_eq_ok_iff hnamed).1 (mount_of_enter hopen)

/-! ### A disk that ends early -/

theorem sector_named (image : Image) (name : Option String) (n : Nat) :
    Image.sector { image with fileName := name } n = image.sector n :=
  rfl

theorem exists_open {data : Buffer} {image : Image} (hread : Image.ofBuffer data = .ok image)
    (hroomy : image.Roomy) (hcode : (image.sector SectorMap.home).headD 0 = SectorMap.dos2)
    (path : String) (write : Except HostError Unit) :
    ∃ v, ((execute none (.openImage path)).answered ⟨.ok data, write⟩).session =
        some (.mounted v) ∧ v.Loaded ∧
      v.image = { image with fileName := Text.fileNameOf path } := by
  have hnamed : Image.Roomy { image with fileName := Text.fileNameOf path } :=
    ⟨⟨hroomy.regular, hroomy.covered⟩, hroomy.reaches, hroomy.countable⟩
  obtain ⟨v, hmount, hloaded, himage⟩ :=
    exists_mount hnamed (Image.sound_of_ofBuffer hread).2 (by rw [sector_named, hcode])
  have hcatalog := (Catalog.mount_eq_ok_iff hnamed.toSound).2 hmount
  refine ⟨v, ?_, hloaded, himage⟩
  simp only [execute, HostCall.answered]
  rw [openImage_ok, hread]
  simp only [Reply.ofOutcome, Reply.enter, Session.ofImage, hcatalog]
  rfl

/-- The start of a map on which sector 4 is free, with a byte for the sectors from 368 to 375. -/
def shortMap (last : UInt8) : Bytes :=
  SectorMap.dos2 :: (Bytes.zeros 9 ++ 0x08 :: (Bytes.zeros 45 ++ [last]))

/-- A disk of 368 sectors without files that has this map. -/
def shortBytes (last : UInt8) : Bytes :=
  Bytes.zeros 45952 ++ (shortMap last ++ Bytes.zeros 1095)

def shortHeader : Header :=
  ⟨⟨47104, 128, 0, 0, 1, 368, 18⟩, .xfd, 0, 0, 0⟩

def shortImage (data : Buffer) : Image :=
  ⟨data, shortHeader, false, none, .idle⟩

theorem length_shortBytes (last : UInt8) : (shortBytes last).length = 47104 := by
  have hmap : (shortMap last).length = 57 := rfl
  rw [shortBytes, List.length_append, List.length_append, hmap, Bytes.length_zeros,
    Bytes.length_zeros]

theorem ofBuffer_shortBytes (last : UInt8) :
    Image.ofBuffer (shortBytes last).toArray = .ok (shortImage (shortBytes last).toArray) := by
  have hlead : (shortBytes last).take 16 = Bytes.zeros 16 := by
    rw [shortBytes, List.take_append_of_le_length (by simp), Bytes.zeros, List.take_replicate]
    rfl
  have hdetect : Container.detect (Buffer.slice (shortBytes last).toArray 0 16) = .xfd := by
    rw [Buffer.slice_toArray, List.drop_zero, hlead]
    decide
  refine Image.ofBuffer_eq_ok_iff.2 ⟨shortHeader, ?_, rfl⟩
  rw [Image.headerIn, hdetect, List.size_toArray, length_shortBytes]
  rfl

theorem roomy_shortImage {data : Buffer} (hread : Image.ofBuffer data = .ok (shortImage data)) :
    (shortImage data).Roomy := by
  refine ⟨(Image.sound_of_ofBuffer hread).1, ?_, ?_⟩
  · change 368 ≤ shortHeader.sectorCount
    decide
  · change shortHeader.sectorCount + 1 < Word.bound
    decide

theorem sector_shortImage (bytes : Bytes) :
    (shortImage bytes.toArray).sector SectorMap.home = (bytes.drop 45952).take 128 := by
  have hplace : (shortImage bytes.toArray).header.place SectorMap.home = ⟨45952, 128⟩ := by
    simp [Header.place, Geometry.place, shortImage, shortHeader, Header.length,
      Container.headerLength, SectorMap.home]
  rw [Image.sector, hplace, shortImage, Buffer.slice_toArray]

theorem sector_shortBytes (last : UInt8) :
    (shortImage (shortBytes last).toArray).sector SectorMap.home =
      shortMap last ++ Bytes.zeros 71 := by
  rw [sector_shortImage, shortBytes, List.drop_left' (Bytes.length_zeros 45952), List.take_append,
    Bytes.zeros, List.take_replicate]
  rfl

/-- Whether a sector is free on the disk. -/
def shortFree (last : UInt8) (s : Nat) : Bool :=
  (((shortMap last ++ Bytes.zeros 71)[SectorMap.bitmapOffset + s / 8]?).getD 0).toNat.testBit
    (7 - s % 8)

theorem open_shortBytes (path : String) (last : UInt8) :
    ∃ v, ((execute none (.openImage path)).answered
        ⟨.ok (shortBytes last).toArray, .ok ()⟩).session = some (.mounted v) ∧
      v.Loaded ∧ v.image.header = shortHeader ∧
      ∀ s < 720, v.map.isFree s = shortFree last s := by
  have hread := ofBuffer_shortBytes last
  have hsector := sector_shortBytes last
  have hcode : ((shortImage (shortBytes last).toArray).sector SectorMap.home).headD 0 =
      SectorMap.dos2 := by
    rw [hsector]
    rfl
  obtain ⟨v, hopen, hloaded, himage⟩ :=
    exists_open hread (roomy_shortImage hread) hcode path (.ok ())
  refine ⟨v, hopen, hloaded, by rw [himage, shortImage], fun s hs => ?_⟩
  rw [hloaded.isFree_eq hs, himage, sector_named, hsector, shortFree]

/-- A file is put on the disk and deleted again. -/
def mazeLines : List (String × HostAnswer) :=
  [("import games/maze.bas", ⟨.ok #[0x41], .ok ()⟩), ("rm maze.bas", ⟨.error .missing, .ok ()⟩)]

/-! ### The two numbers -/

/-- **The console counts the free sectors in two ways.** Once a disk is opened, files may be
imported and deleted at will: the number in the title of the map exceeds the one that is told of the
volume by the bits that were set behind the end of the disk when it was opened. -/
theorem free_counts_agree_iff {path : String} {host : HostAnswer} {v : Volume}
    (hopen : ((execute none (.openImage path)).answered host).session = some (.mounted v))
    {lines : List (String × HostAnswer)}
    (hlines : ∀ line ∈ lines, ∃ verb ∈ changingVerbs, verbOf line.1 = some verb) :
    ∃ u, sessionAfter (some (.mounted v)) lines = some (.mounted u) ∧
      Reports (some (.mounted u)) (u.map.freeCount + v.map.beyond.length) u.map.freeCount ∧
      ((∃ n, Reports (some (.mounted u)) n n) ↔
        ∀ s, v.image.header.sectorCount < s → s < 720 → v.map.isFree s = false) := by
  have hloaded := loaded_of_open hopen
  obtain ⟨u, hsession, hu⟩ := sessionAfter_changing hloaded hlines
  have hbeyond : u.map.beyond = v.map.beyond := SectorMap.beyond_congr hu.limit hu.isFree
  refine ⟨u, hsession, hbeyond ▸ reports_of_loaded hu.loaded, ?_⟩
  rw [exists_reports_iff hu.loaded, hbeyond, SectorMap.beyond_eq_nil_iff, hloaded.reads.limit_map]
  refine forall_congr' fun s => ?_
  constructor
  · intro hclear hbehind hlast
    exact hclear (by omega) hlast
  · intro hclear hbehind hlast
    exact hclear (by omega) hlast

/-- Without bits behind the end the numbers agree after a file was imported and deleted again, and
with the bit of sector 369 they do not. -/
theorem free_counts_agree_iff_short :
    ∃ v w, ((execute none (.openImage "short.xfd")).answered
        ⟨.ok (shortBytes 0x80).toArray, .ok ()⟩).session = some (.mounted v) ∧
      ((execute none (.openImage "short.xfd")).answered
        ⟨.ok (shortBytes 0x40).toArray, .ok ()⟩).session = some (.mounted w) ∧
      (∀ line ∈ mazeLines, ∃ verb ∈ changingVerbs, verbOf line.1 = some verb) ∧
      (∃ u n, sessionAfter (some (.mounted v)) mazeLines = some (.mounted u) ∧
        Reports (some (.mounted u)) n n) ∧
      ∃ u, sessionAfter (some (.mounted w)) mazeLines = some (.mounted u) ∧
        ¬∃ n, Reports (some (.mounted u)) n n := by
  have hlines : ∀ line ∈ mazeLines, ∃ verb ∈ changingVerbs, verbOf line.1 = some verb := by
    intro line hline
    simp only [mazeLines, List.mem_cons, List.not_mem_nil, or_false] at hline
    obtain rfl | rfl := hline
    · exact ⟨"import", by decide, by decide +kernel⟩
    · exact ⟨"rm", by decide, by decide +kernel⟩
  obtain ⟨v, hv, _, hheader, hfree⟩ := open_shortBytes "short.xfd" 0x80
  obtain ⟨w, hw, _, hheader', hfree'⟩ := open_shortBytes "short.xfd" 0x40
  obtain ⟨u, hafter, _, hagree⟩ := free_counts_agree_iff hv hlines
  obtain ⟨u', hafter', _, hagree'⟩ := free_counts_agree_iff hw hlines
  rw [hheader] at hagree
  rw [hheader'] at hagree'
  have hclear : ∀ s < 720, 368 < s → shortFree 0x80 s = false := by decide +kernel
  obtain ⟨n, hreports⟩ := hagree.2 fun s hfirst hlast => by
    rw [hfree s hlast, hclear s hlast hfirst]
  refine ⟨v, w, hv, hw, hlines, ⟨u, n, hafter, hreports⟩, u', hafter', fun hsame => ?_⟩
  have hbit := hagree'.1 hsame 369 (by decide) (by decide)
  rw [hfree' 369 (by decide)] at hbit
  exact absurd hbit (by decide +kernel)

/-- The bit of sector 369, which the disk does not have, is counted for the title only. -/
theorem short_disk_counted_twice :
    ∃ v, ((execute none (.openImage "short.xfd")).answered
        ⟨.ok (shortBytes 0x40).toArray, .ok ()⟩).session = some (.mounted v) ∧
      Reports (some (.mounted v)) 2 1 ∧ ¬∃ n, Reports (some (.mounted v)) n n := by
  obtain ⟨v, hopen, hloaded, hheader, hfree⟩ := open_shortBytes "short.xfd" 0x40
  have hlimit : v.map.limit = 369 := by
    rw [hloaded.reads.limit_map, hheader]
    rfl
  have hbits {first count : Nat} (hlast : first + count ≤ 720) :
      (List.range' first count).filter v.map.isFree =
        (List.range' first count).filter (shortFree 0x40) := by
    refine List.filter_congr fun s hs => hfree s ?_
    have hrange := List.mem_range'_1.1 hs
    omega
  have hcount : v.map.freeCount = 1 := by
    rw [SectorMap.freeCount, SectorMap.freeSectors, hlimit, hbits (by decide)]
    decide +kernel
  have hbeyond : v.map.beyond = [369] := by
    rw [SectorMap.beyond, hlimit, hbits (by decide)]
    decide +kernel
  have hreports := reports_of_loaded hloaded
  rw [hcount, hbeyond] at hreports
  refine ⟨v, hopen, hreports, ?_⟩
  rw [exists_reports_iff hloaded, hbeyond]
  exact List.cons_ne_nil _ _

end Console

end AtariDisk
