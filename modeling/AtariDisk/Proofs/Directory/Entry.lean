import AtariDisk.Directory.Basic
import AtariDisk.Proofs.Bytes
import AtariDisk.Proofs.Outcome
import AtariDisk.Proofs.Text.Utf8

/-!
# Entries survive the disk

A name that a user can give to a file holds nothing but ASCII letters and digits, so that it comes
back from its record unchanged, and with it the whole entry.
-/

namespace AtariDisk

namespace FileName

/-- A name that a user can give to a file. -/
def Valid (name : FileName) : Prop :=
  isValid name.base.toList name.ext.toList = true

theorem toNat_of_isNameChar {c : Char} (hc : isNameChar c = true) :
    48 ≤ c.toNat ∧ c.toNat ≤ 90 := by
  change 48 ≤ c.val.toNat ∧ c.val.toNat ≤ 90
  rw [isNameChar, Bool.or_eq_true] at hc
  rcases hc with hupper | hdigit
  · have hrange : c.val ≥ 65 ∧ c.val ≤ 90 := of_decide_eq_true hupper
    have hge : 65 ≤ c.val.toNat := UInt32.le_iff_toNat_le.1 hrange.1
    exact ⟨by omega, UInt32.le_iff_toNat_le.1 hrange.2⟩
  · obtain ⟨hfirst, hlast⟩ := Bool.and_eq_true_iff.1 hdigit
    have hle : c.val.toNat ≤ 57 := UInt32.le_iff_toNat_le.1 (of_decide_eq_true hlast)
    exact ⟨UInt32.le_iff_toNat_le.1 (of_decide_eq_true hfirst), by omega⟩

theorem toNat_lt_of_isNameChar {c : Char} (hc : isNameChar c = true) : c.toNat < 128 :=
  Nat.lt_of_le_of_lt (toNat_of_isNameChar hc).2 (by decide)

theorem ne_of_isNameChar {c : Char} (hc : isNameChar c = true) :
    c ≠ ' ' ∧ c ≠ '\x00' ∧ c ≠ '.' := by
  refine ⟨?_, ?_, ?_⟩
  · rintro rfl
    exact absurd hc (by decide)
  · rintro rfl
    exact absurd hc (by decide)
  · rintro rfl
    exact absurd hc (by decide)

theorem toUpper_of_isNameChar {c : Char} (hc : isNameChar c = true) : c.toUpper = c := by
  have hfirst : 'a'.val.toNat = 97 := rfl
  have hcapital : c.val.toNat ≤ 90 := (toNat_of_isNameChar hc).2
  refine dif_neg fun hsmall => ?_
  have hge := UInt32.le_iff_toNat_le.1 hsmall.1
  omega

theorem isBlank_of_isNameChar {c : Char} (hc : isNameChar c = true) : Text.isBlank c = false := by
  have hrange := toNat_of_isNameChar hc
  simp only [Text.isBlank, Bool.or_eq_false_iff, Bool.and_eq_false_iff, decide_eq_false_iff_not]
  omega

theorem parse_eq_ok_iff {typed : String} {name : FileName} :
    parse typed = .ok name ↔
      splitAtDot (normalize typed) = (name.base.toList, name.ext.toList) ∧ name.Valid := by
  unfold parse Valid
  generalize splitAtDot (normalize typed) = parts
  obtain ⟨base, ext⟩ := parts
  obtain ⟨nameBase, nameExt⟩ := name
  simp only [Prod.mk.injEq]
  by_cases hvalid : isValid base ext = true
  · rw [if_pos hvalid]
    simp only [Except.ok.injEq, FileName.mk.injEq]
    constructor
    · rintro ⟨rfl, rfl⟩
      simp [String.toList_ofList, hvalid]
    · rintro ⟨⟨rfl, rfl⟩, _⟩
      simp [String.ofList_toList]
  · rw [if_neg hvalid]
    simp only [Outcome.refuse_ne_ok, false_iff, not_and]
    rintro ⟨rfl, rfl⟩
    exact hvalid

theorem parse_eq_error {typed : String} (hbad : ∀ name, parse typed ≠ .ok name) :
    parse typed = refuse (.nameInvalid typed) := by
  unfold parse at hbad ⊢
  generalize splitAtDot (normalize typed) = parts at hbad ⊢
  obtain ⟨base, ext⟩ := parts
  by_cases hvalid : isValid base ext = true
  · simp only [hvalid, if_true] at hbad
    exact absurd rfl (hbad _)
  · simp only [hvalid]
    rfl

theorem settles_parse (typed : String) : (parse typed).Settles := by
  by_cases hvalid : ∃ name, parse typed = .ok name
  · obtain ⟨name, hname⟩ := hvalid
    rw [hname]
    exact Outcome.settles_ok name
  · rw [parse_eq_error fun name hname => hvalid ⟨name, hname⟩]
    exact Outcome.settles_refuse _

theorem Valid.chars {name : FileName} (hvalid : name.Valid) :
    name.base.toList.length ≤ 8 ∧ name.ext.toList.length ≤ 3 ∧
      (∀ c ∈ name.base.toList, isNameChar c = true) ∧
        ∀ c ∈ name.ext.toList, isNameChar c = true := by
  unfold Valid isValid at hvalid
  simp only [Bool.and_eq_true, decide_eq_true_eq, List.all_eq_true] at hvalid
  obtain ⟨⟨⟨⟨hbase, hext⟩, _⟩, hbaseChars⟩, hextChars⟩ := hvalid
  exact ⟨hbase, hext, hbaseChars, hextChars⟩

/-- Nothing but capitals and digits is in the name, however long it is. -/
structure Plain (name : FileName) : Prop where
  base : ∀ c ∈ name.base.toList, isNameChar c = true
  ext : ∀ c ∈ name.ext.toList, isNameChar c = true

theorem Valid.plain {name : FileName} (hvalid : name.Valid) : name.Plain :=
  ⟨hvalid.chars.2.2.1, hvalid.chars.2.2.2⟩

theorem Plain.dot_not_mem_base {name : FileName} (hplain : name.Plain) :
    '.' ∉ name.base.toList :=
  fun hdot => (ne_of_isNameChar (hplain.base _ hdot)).2.2 rfl

theorem Plain.mem_text {name : FileName} (hplain : name.Plain) {c : Char}
    (hc : c ∈ name.text.toList) : isNameChar c = true ∨ c = '.' := by
  have hcases : c ∈ name.base.toList ∨ c = '.' ∨ c ∈ name.ext.toList := by
    unfold text at hc
    split at hc
    · exact .inl hc
    · simpa [String.toList_append] using hc
  rcases hcases with hmem | hdot | hmem
  · exact .inl (hplain.base c hmem)
  · exact .inr hdot
  · exact .inl (hplain.ext c hmem)

theorem Plain.map_toUpper_text {name : FileName} (hplain : name.Plain) :
    name.text.toList.map Char.toUpper = name.text.toList := by
  have hchars : ∀ c ∈ name.text.toList, c.toUpper = c := by
    intro c hc
    rcases hplain.mem_text hc with hname | rfl
    · exact toUpper_of_isNameChar hname
    · decide
  exact (List.map_congr_left hchars).trans (List.map_id _)

/-- The first part has no dot; the second is empty if there is no dot at all. -/
theorem splitAtDot_eq_iff {chars base ext : List Char} :
    splitAtDot chars = (base, ext) ↔
      '.' ∉ base ∧ (chars = base ∧ ext = [] ∨ chars = base ++ '.' :: ext) := by
  unfold splitAtDot
  rw [Prod.mk.injEq]
  constructor
  · rintro ⟨rfl, rfl⟩
    refine ⟨fun hdot => absurd (List.mem_takeWhile_imp hdot) (by decide), ?_⟩
    have hsplit := List.takeWhile_append_dropWhile (p := (· ≠ '.')) (l := chars)
    have hdot := List.head?_dropWhile_not (· ≠ '.') chars
    cases hrest : chars.dropWhile (· ≠ '.') with
    | nil =>
      rw [hrest, List.append_nil] at hsplit
      exact .inl ⟨hsplit.symm, rfl⟩
    | cons c rest =>
      rw [hrest] at hsplit hdot
      obtain rfl : c = '.' := by simpa using hdot
      exact .inr hsplit.symm
  · rintro ⟨hbase, hchars⟩
    have hnodot : ∀ c ∈ base, decide (c ≠ '.') = true := by
      intro c hc
      exact decide_eq_true fun hdot => hbase (hdot ▸ hc)
    rcases hchars with ⟨rfl, rfl⟩ | rfl
    · rw [List.takeWhile_eq_self_iff.2 hnodot, List.dropWhile_eq_nil_iff.2 hnodot]
      exact ⟨rfl, rfl⟩
    · rw [List.takeWhile_append_of_pos hnodot, List.dropWhile_append_of_pos hnodot]
      simp

/-- The text of a name without dots is cut into the name. -/
theorem Plain.splitAtDot_text {name : FileName} (hplain : name.Plain) :
    splitAtDot name.text.toList = (name.base.toList, name.ext.toList) := by
  refine splitAtDot_eq_iff.2 ⟨hplain.dot_not_mem_base, ?_⟩
  unfold text
  by_cases hempty : name.ext = ""
  · rw [if_pos hempty, hempty]
    exact .inl ⟨rfl, rfl⟩
  · rw [if_neg hempty]
    exact .inr (by simp [String.toList_append])

theorem parse_of_normalize_eq {typed : String} {name : FileName} (hvalid : name.Valid)
    (hspelled : String.ofList (normalize typed) = name.text) : parse typed = .ok name := by
  refine parse_eq_ok_iff.2 ⟨?_, hvalid⟩
  have hchars : normalize typed = name.text.toList := by
    rw [← hspelled, String.toList_ofList]
  rw [hchars, hvalid.plain.splitAtDot_text]

end FileName

namespace EntryFlags

theorem byte_ofKind (kind : FileKind) : (ofKind kind).byte ≠ 0 := by
  cases kind <;> decide

theorem isInUse_ofKind (kind : FileKind) : (ofKind kind).isInUse = true := by
  cases kind <;> decide

theorem isLocked_ofKind (kind : FileKind) : (ofKind kind).isLocked = decide (kind = .locked) := by
  cases kind <;> decide

theorem isDos2_ofKind (kind : FileKind) : (ofKind kind).isDos2 = true := by
  cases kind <;> decide

theorem isOpen_ofKind (kind : FileKind) : (ofKind kind).isOpen = false := by
  cases kind <;> decide

end EntryFlags

namespace Entry

/-- Characters that only fill up a name. -/
def isFiller (c : Char) : Bool :=
  c = ' ' || c = '\x00'

theorem toList_readText (bytes : Bytes) :
    (readText bytes).toList = Text.trimEndBy isFiller (Text.decode bytes) :=
  String.toList_ofList

theorem readText_eq_of_append {bytes : Bytes} {text : String} {fill : List Char}
    (htrimmed : Text.Trimmed isFiller text.toList) (hfill : ∀ c ∈ fill, isFiller c = true)
    (hdecode : Text.decode bytes = text.toList ++ fill) : readText bytes = text := by
  rw [← String.ofList_toList (s := readText bytes), toList_readText, hdecode,
    Text.trimEndBy_append htrimmed hfill, String.ofList_toList]

theorem decode_writeText {width : Nat} {text : String}
    (hfits : (Text.encode text.toList).length ≤ width) :
    Text.decode (writeText width text) =
      text.toList ++ List.replicate (width - (Text.encode text.toList).length) ' ' := by
  rw [writeText, Bytes.resize, List.take_of_length_le hfits, Text.decode_encode_append,
    Text.decode_replicate_space]

/-- A name that does not end in fillers is read back if there is room for it. -/
theorem readText_writeText {width : Nat} {text : String}
    (hfits : (Text.encode text.toList).length ≤ width)
    (htrimmed : Text.Trimmed isFiller text.toList) : readText (writeText width text) = text := by
  refine readText_eq_of_append htrimmed (fun c hc => ?_) (decode_writeText hfits)
  rw [List.eq_of_mem_replicate hc]
  rfl

section NameChars

variable {text : String} (hchars : ∀ c ∈ text.toList, FileName.isNameChar c = true)

include hchars

theorem trimmed_of_isNameChar : Text.Trimmed isFiller text.toList := by
  intro c hc
  obtain ⟨hspace, hnul, _⟩ := FileName.ne_of_isNameChar (hchars c (List.mem_of_getLast? hc))
  simp [isFiller, hspace, hnul]

theorem length_encode_of_isNameChar :
    (Text.encode text.toList).length = text.toList.length :=
  Text.length_encode_of_ascii fun c hc => FileName.toNat_lt_of_isNameChar (hchars c hc)

end NameChars

/-- The numbers of an entry fit into its record. -/
structure Storable (e : Entry) : Prop where
  used : e.flags.byte ≠ 0
  count : e.sectorCount < 65536
  first : e.firstSector < 65536

theorem parse_encode {e : Entry} (hstorable : e.Storable) :
    parse e.slot e.encode = some { e with
      name := ⟨readText (writeText 8 e.name.base), readText (writeText 3 e.name.ext)⟩
      length := 0 } := by
  have hcount := Bytes.littleValue_little_of_lt hstorable.count
  have hfirst := Bytes.littleValue_little_of_lt hstorable.first
  have hbase : (writeText 8 e.name.base).length = 8 := by simp [writeText]
  have hext : (writeText 3 e.name.ext).length = 3 := by simp [writeText]
  simp only [Bytes.little] at hcount hfirst
  simp only [encode, Bytes.little, List.cons_append, List.nil_append, parse]
  rw [if_neg (by simp [hbase, hext, hstorable.used]), List.take_left' hbase,
    List.drop_left' hbase, List.take_of_length_le (by omega), hcount, hfirst]

/-- Both parts of a name that a user gave come back from their fields. -/
theorem readText_of_valid {name : FileName} (hname : name.Valid) :
    readText (writeText 8 name.base) = name.base ∧ readText (writeText 3 name.ext) = name.ext := by
  obtain ⟨hbase, hext, hbaseChars, hextChars⟩ := hname.chars
  have hbaseFits := length_encode_of_isNameChar hbaseChars
  have hextFits := length_encode_of_isNameChar hextChars
  exact ⟨readText_writeText (by omega) (trimmed_of_isNameChar hbaseChars),
    readText_writeText (by omega) (trimmed_of_isNameChar hextChars)⟩

/-- The entry of a file that a user named is read back from its record. -/
theorem parse_encode_of_valid {e : Entry} (hstorable : e.Storable) (hname : e.name.Valid) :
    parse e.slot e.encode = some { e with length := 0 } := by
  obtain ⟨hbase, hext⟩ := readText_of_valid hname
  rw [parse_encode hstorable, hbase, hext]

theorem isInUse_markDeleted (e : Entry) : e.markDeleted.isInUse = false := by
  change EntryFlags.deleted.isInUse = false
  decide

theorem Storable.markDeleted {e : Entry} (hstorable : e.Storable) : e.markDeleted.Storable := by
  refine ⟨?_, hstorable.count, hstorable.first⟩
  change EntryFlags.deleted.byte ≠ 0
  decide

/-- Whether the text asks for this entry. -/
def answers (e : Entry) (typed : String) : Bool :=
  match FileName.parse typed with
  | .ok name => e.name = name
  | .error _ => e.fileName = String.ofList (FileName.normalize typed)

theorem parse_unusedRecord (slot : Nat) : parse slot unusedRecord = none := by
  simp [unusedRecord, Bytes.zeros, size, List.replicate_succ, parse]

theorem storable_of_parse {slot : Nat} {record : Bytes} {e : Entry}
    (hparse : parse slot record = some e) : e.Storable ∧ e.length = 0 := by
  unfold parse at hparse
  split at hparse
  · rename_i flags c₀ c₁ s₀ s₁ names
    have hcount : Bytes.littleValue [c₀, c₁] < 65536 := by
      simpa using Bytes.littleValue_lt [c₀, c₁]
    have hfirst : Bytes.littleValue [s₀, s₁] < 65536 := by
      simpa using Bytes.littleValue_lt [s₀, s₁]
    split at hparse
    · simp at hparse
    · rename_i hused
      cases hparse
      refine ⟨⟨?_, hcount, hfirst⟩, rfl⟩
      intro hzero
      exact hused (.inr hzero)
  · simp at hparse

end Entry

end AtariDisk
