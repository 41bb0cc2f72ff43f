import AtariDisk.Proofs.Directory.Slots

/-!
# The grammar of file names

A name is a letter and up to seven letters and digits, and may go on with a dot and an extension of
up to three letters and digits. Blanks around it and the case of its letters do not count. The main
result says that this grammar is what `FileName.parse` accepts, and that the fixed fields of a
record lose nothing of the names it describes.
-/

namespace AtariDisk

namespace FileName

/-! ### Spelling -/

def IsLetter (c : Char) : Prop :=
  'A' ≤ c ∧ c ≤ 'Z'

def IsLetterOrDigit (c : Char) : Prop :=
  IsLetter c ∨ '0' ≤ c ∧ c ≤ '9'

def IsBase (chars : List Char) : Prop :=
  ∃ first rest, chars = first :: rest ∧ IsLetter first ∧ rest.length ≤ 7 ∧
    ∀ c ∈ rest, IsLetterOrDigit c

def IsExt (chars : List Char) : Prop :=
  chars.length ≤ 3 ∧ ∀ c ∈ chars, IsLetterOrDigit c

theorem isExt_nil : IsExt [] :=
  ⟨Nat.zero_le 3, fun _ hc => absurd hc List.not_mem_nil⟩

/-- How a name is spelled. A dot without an extension is as good as none. -/
inductive Spelled : List Char → FileName → Prop
  | plain {base : List Char} (hbase : IsBase base) : Spelled base ⟨String.ofList base, ""⟩
  | dotted {base ext : List Char} (hbase : IsBase base) (hext : IsExt ext) :
    Spelled (base ++ '.' :: ext) ⟨String.ofList base, String.ofList ext⟩

theorem isUpper_iff {c : Char} : c.isUpper = true ↔ IsLetter c :=
  decide_eq_true_iff (p := c.val ≥ 65 ∧ c.val ≤ 90)

theorem isNameChar_iff {c : Char} : isNameChar c = true ↔ IsLetterOrDigit c := by
  rw [isNameChar, Bool.or_eq_true, isUpper_iff]
  refine or_congr_right (Bool.and_eq_true_iff.trans ?_)
  rw [decide_eq_true_iff, decide_eq_true_iff]
  rfl

theorem isValid_iff {base ext : List Char} :
    isValid base ext = true ↔ IsBase base ∧ IsExt ext := by
  simp only [isValid, Bool.and_eq_true, decide_eq_true_eq, List.all_eq_true, isNameChar_iff,
    IsBase, IsExt]
  cases base with
  | nil => simp
  | cons first rest =>
    simp only [List.head?_cons, Option.any_some, isUpper_iff, List.length_cons,
      List.forall_mem_cons, List.cons.injEq]
    constructor
    · rintro ⟨⟨⟨⟨hbase, hext⟩, hfirst⟩, _, hrest⟩, hchars⟩
      exact ⟨⟨first, rest, ⟨rfl, rfl⟩, hfirst, by omega, hrest⟩, hext, hchars⟩
    · rintro ⟨⟨_, _, ⟨rfl, rfl⟩, hfirst, hbase, hrest⟩, hext, hchars⟩
      exact ⟨⟨⟨⟨by omega, hext⟩, hfirst⟩, .inl hfirst, hrest⟩, hchars⟩

theorem valid_ofList_iff {base ext : List Char} :
    Valid ⟨String.ofList base, String.ofList ext⟩ ↔ IsBase base ∧ IsExt ext := by
  simp only [Valid, String.toList_ofList, isValid_iff]

/-- The grammar describes what is read at the first dot. -/
theorem spelled_iff {chars : List Char} {name : FileName} :
    Spelled chars name ↔
      splitAtDot chars = (name.base.toList, name.ext.toList) ∧ name.Valid := by
  rw [splitAtDot_eq_iff]
  constructor
  · rintro (⟨hbase⟩ | ⟨hbase, hext⟩)
    · have hvalid := valid_ofList_iff.2 ⟨hbase, isExt_nil⟩
      exact ⟨⟨hvalid.plain.dot_not_mem_base, .inl ⟨String.toList_ofList.symm, rfl⟩⟩, hvalid⟩
    · have hvalid := valid_ofList_iff.2 ⟨hbase, hext⟩
      refine ⟨⟨hvalid.plain.dot_not_mem_base, .inr ?_⟩, hvalid⟩
      rw [String.toList_ofList, String.toList_ofList]
  · rintro ⟨⟨_, hchars⟩, hvalid⟩
    obtain ⟨hbase, hext⟩ := isValid_iff.1 hvalid
    have hname : name = ⟨String.ofList name.base.toList, String.ofList name.ext.toList⟩ := by
      rw [String.ofList_toList, String.ofList_toList]
    rw [hname]
    rcases hchars with ⟨rfl, hnil⟩ | rfl
    · rw [hnil]
      exact .plain hbase
    · exact .dotted hbase hext

theorem parse_eq_ok_iff_spelled {typed : String} {name : FileName} :
    parse typed = .ok name ↔ Spelled (normalize typed) name :=
  parse_eq_ok_iff.trans spelled_iff.symm

/-- There are no blanks and no small letters in a name of capitals and digits. -/
theorem Plain.normalize_text {name : FileName} (hplain : name.Plain) :
    normalize name.text = name.text.toList := by
  have hblank : ∀ c ∈ name.text.toList, Text.isBlank c = false := by
    intro c hc
    rcases hplain.mem_text hc with hname | rfl
    · exact isBlank_of_isNameChar hname
    · decide
  have htrim : Text.trim name.text.toList = name.text.toList := by
    refine Text.trim_eq_iff.2 ⟨[], [], by simp, by simp, ?_, ?_⟩
    · exact fun c hc => hblank c (List.mem_of_head? hc)
    · exact fun c hc => hblank c (List.mem_of_getLast? hc)
  rw [normalize, htrim, hplain.map_toUpper_text]

theorem Valid.parse_text {name : FileName} (hvalid : name.Valid) : parse name.text = .ok name := by
  apply parse_of_normalize_eq hvalid
  rw [hvalid.plain.normalize_text, String.ofList_toList]

end FileName

namespace Entry

/-! ### Names in a record -/

/-- The bytes of a record that hold the name. -/
def nameField (e : Entry) : Bytes :=
  e.encode.drop 5

theorem nameField_eq (e : Entry) :
    e.nameField = writeText 8 e.name.base ++ writeText 3 e.name.ext := by
  simp [nameField, encode, Bytes.little]

theorem length_nameField (e : Entry) : e.nameField.length = 11 := by
  simp [nameField_eq, writeText]

theorem name_of_nameField {e : Entry} (hname : e.name.Valid) :
    e.name = ⟨readText (e.nameField.take 8), readText (e.nameField.drop 8)⟩ := by
  have hlength : (writeText 8 e.name.base).length = 8 := by simp [writeText]
  obtain ⟨hbase, hext⟩ := readText_of_valid hname
  rw [nameField_eq, List.take_left' hlength, List.drop_left' hlength, hbase, hext]

theorem nameField_eq_iff {a b : Entry} (ha : a.name.Valid) (hb : b.name.Valid) :
    a.nameField = b.nameField ↔ a.name = b.name := by
  constructor
  · intro hsame
    rw [name_of_nameField ha, name_of_nameField hb, hsame]
  · intro hname
    rw [nameField_eq, nameField_eq, hname]

end Entry

namespace FileName

/-- **Names follow their grammar, and records keep them.** A text is read as a name exactly if, once
the blanks around it are gone and its letters are capitals, it spells that name. For each text that
is read, in each slot and for each kind of file, there is an entry; whatever chain it is given, its
record gives back flags, numbers and name, and its name as it is listed is read as the same name
again. Two such names have the same bytes in a record exactly if they are the same. -/
theorem spelled_and_stored_exactly (typed : String) (name : FileName) :
    (parse typed = .ok name ↔
      ∃ core, Text.IsCore typed.toList core ∧ Spelled (core.map Char.toUpper) name) ∧
    (parse typed = .ok name →
      (∀ slot kind, ∃ e, Entry.create slot typed kind = .ok e ∧ e.slot = slot ∧
        e.flags = .ofKind kind ∧ e.name = name ∧ parse e.fileName = .ok name ∧
        ∀ count first length, count < 65536 → first < 65536 →
          Entry.parse slot
              { e with sectorCount := count, firstSector := first, length }.encode =
            some { e with sectorCount := count, firstSector := first, length := 0 }) ∧
      ∀ other otherName, parse other = .ok otherName →
        ∀ a b : Entry, a.name = name → b.name = otherName →
          a.nameField.length = 11 ∧ (a.nameField = b.nameField ↔ name = otherName)) := by
  refine ⟨?_, fun hname => ⟨fun slot kind => ?_, ?_⟩⟩
  · rw [parse_eq_ok_iff_spelled, normalize]
    constructor
    · exact fun hspelled => ⟨_, Text.isCore_trim _, hspelled⟩
    · rintro ⟨core, hcore, hspelled⟩
      rwa [Text.trim_eq_iff.2 hcore]
  · have hvalid := (parse_eq_ok_iff.1 hname).2
    refine ⟨_, Directory.create_eq_ok_iff.2 ⟨name, hname, rfl⟩, rfl, rfl, rfl,
      hvalid.parse_text, ?_⟩
    intro count first length hcount hfirst
    exact Entry.parse_encode_of_valid ⟨EntryFlags.byte_ofKind kind, hcount, hfirst⟩ hvalid
  · rintro other otherName hother a b rfl rfl
    exact ⟨a.length_nameField,
      Entry.nameField_eq_iff (parse_eq_ok_iff.1 hname).2 (parse_eq_ok_iff.1 hother).2⟩

/-- A name that fills its field, with blanks of two kinds around it, beside a name that only its
extension tells apart. -/
theorem spelled_and_stored_exactly_full :
    parse "\u3000abcdefg8.x9\t" = .ok ⟨"ABCDEFG8", "X9"⟩ ∧
    parse "Abcdefg8." = .ok ⟨"ABCDEFG8", ""⟩ ∧
    (∃ e, Entry.create 63 "\u3000abcdefg8.x9\t" .locked = .ok e ∧
      parse e.fileName = .ok ⟨"ABCDEFG8", "X9"⟩ ∧
      Entry.parse 63 { e with sectorCount := 65535, firstSector := 4, length := 7 }.encode =
        some { e with sectorCount := 65535, firstSector := 4 }) ∧
    (⟨0, .deleted, 9, 4, ⟨"ABCDEFG8", "X9"⟩, 0⟩ : Entry).nameField ≠
      (⟨1, .deleted, 9, 4, ⟨"ABCDEFG8", ""⟩, 0⟩ : Entry).nameField := by
  have hname : parse "\u3000abcdefg8.x9\t" = .ok ⟨"ABCDEFG8", "X9"⟩ := by decide +kernel
  have hother : parse "Abcdefg8." = .ok ⟨"ABCDEFG8", ""⟩ := by decide +kernel
  obtain ⟨hstored, hfields⟩ := (spelled_and_stored_exactly _ _).2 hname
  refine ⟨hname, hother, ?_, ?_⟩
  · obtain ⟨e, hcreate, _, _, _, hlisted, hread⟩ := hstored 63 .locked
    obtain ⟨_, _, rfl⟩ := Directory.create_eq_ok_iff.1 hcreate
    exact ⟨_, hcreate, hlisted, hread 65535 4 7 (by decide) (by decide)⟩
  · intro hsame
    have hnames := (hfields _ _ hother _ _ rfl rfl).2.1 hsame
    exact absurd hnames (by decide)

end FileName

end AtariDisk
