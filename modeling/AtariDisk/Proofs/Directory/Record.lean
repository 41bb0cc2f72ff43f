import AtariDisk.Proofs.Directory.Entry

/-!
# Records that are read and written again

Whoever writes one entry writes the records of all entries. The numbers of a record survive this,
and so does each part of its name that is text filled up with blanks, as names are written. A part
of another form may change its bytes, but it never turns into a name that a user can give to a
file.
-/

namespace AtariDisk.Entry

variable {record : Bytes} {slot : Nat} {e : Entry}

/-- The part of a record that holds the name. -/
def baseField (record : Bytes) : Bytes :=
  (record.drop 5).take 8

/-- The part of a record that holds the extension. -/
def extField (record : Bytes) : Bytes :=
  record.drop 13

/-- What a field of a name becomes when its text is read and written again. -/
def rewritten (field : Bytes) : Bytes :=
  writeText field.length (readText field)

/-- The field of a name that is text, filled up with blanks. -/
def Padded (field : Bytes) : Prop :=
  ∃ text fill, Text.Trimmed isFiller text ∧ field = Text.encode text ++ List.replicate fill 0x20

@[simp]
theorem length_rewritten (field : Bytes) : (rewritten field).length = field.length :=
  Bytes.length_resize ..

theorem Padded.rewritten_eq {field : Bytes} (hpadded : Padded field) : rewritten field = field := by
  obtain ⟨text, fill, htrimmed, rfl⟩ := hpadded
  have hread : readText (Text.encode text ++ List.replicate fill 0x20) = String.ofList text := by
    have hdecode : Text.decode (Text.encode text ++ List.replicate fill 0x20) =
        (String.ofList text).toList ++ List.replicate fill ' ' := by
      rw [Text.decode_encode_append, Text.decode_replicate_space, String.toList_ofList]
    refine readText_eq_of_append ?_ (fun c hc => ?_) hdecode
    · rwa [String.toList_ofList]
    · rw [List.eq_of_mem_replicate hc]
      rfl
  have hfits : (Text.encode text).length ≤
      (Text.encode text ++ List.replicate fill (0x20 : UInt8)).length := by
    rw [List.length_append]
    omega
  rw [rewritten, hread, writeText, String.toList_ofList, Bytes.resize, List.take_of_length_le hfits,
    List.length_append, List.length_replicate, Nat.add_sub_cancel_left]

theorem parse_eq_none (hunused : record.headD 0 = 0) : parse slot record = none := by
  unfold parse
  split
  · exact if_pos (.inr hunused)
  · rfl

/-- What a record that was read looks like when it is written again. -/
theorem encode_parse (hlength : record.length = size) (hused : record.headD 0 ≠ 0) :
    ∃ e, parse slot record = some e ∧
      e.encode =
        record.take 5 ++ rewritten (baseField record) ++ rewritten (extField record) := by
  match record, hlength, hused with
  | flags :: c₀ :: c₁ :: s₀ :: s₁ :: names, hlength, hused =>
    have hnames : names.length = 11 := by simpa [size] using hlength
    have hflags : flags ≠ 0 := hused
    have hcount := Bytes.little_littleValue [c₀, c₁]
    have hfirst := Bytes.little_littleValue [s₀, s₁]
    have hext : (names.drop 8).take 3 = names.drop 8 :=
      List.take_of_length_le (by rw [List.length_drop]; omega)
    have hbaseLength : (names.take 8).length = 8 := by
      rw [List.length_take, hnames]
      rfl
    have hextLength : (names.drop 8).length = 3 := by rw [List.length_drop, hnames]
    refine ⟨_, if_neg (by simp [hnames, hflags]), ?_⟩
    rw [hext]
    change flags :: Bytes.little 2 _ ++ Bytes.little 2 _ ++ _ ++ _ =
      _ ++ writeText (names.take 8).length (readText (names.take 8)) ++
        writeText (names.drop 8).length (readText (names.drop 8))
    rw [hbaseLength, hextLength]
    rw [show Bytes.little 2 (Bytes.littleValue [c₀, c₁]) = _ from hcount,
      show Bytes.little 2 (Bytes.littleValue [s₀, s₁]) = _ from hfirst]
    rfl

theorem encode_of_parse (hlength : record.length = size) (hparse : parse slot record = some e) :
    e.encode = record.take 5 ++ rewritten (baseField record) ++ rewritten (extField record) := by
  have hused : record.headD 0 ≠ 0 := by
    intro hunused
    rw [parse_eq_none hunused] at hparse
    exact absurd hparse (by simp)
  obtain ⟨again, hagain, hencode⟩ := encode_parse hlength hused
  rw [hparse, Option.some.injEq] at hagain
  rw [hagain, hencode]

/-- Of a record that is written again the numbers are kept, and each field of the name becomes what
its own text says. -/
theorem fields_encode_of_parse (hlength : record.length = size)
    (hparse : parse slot record = some e) :
    e.encode.take 5 = record.take 5 ∧ baseField e.encode = rewritten (baseField record) ∧
      extField e.encode = rewritten (extField record) := by
  have hnumbers : (record.take 5).length = 5 := by
    rw [List.length_take, hlength]
    rfl
  have hbase : (rewritten (baseField record)).length = 8 := by
    rw [length_rewritten, baseField, List.length_take, List.length_drop, hlength]
    rfl
  have hboth : (record.take 5 ++ rewritten (baseField record)).length = 13 := by
    rw [List.length_append, hnumbers, hbase]
  rw [encode_of_parse hlength hparse]
  refine ⟨?_, ?_, ?_⟩
  · rw [List.append_assoc, List.take_left' hnumbers]
  · rw [baseField, List.append_assoc, List.drop_left' hnumbers, List.take_left' hbase]
  · rw [extField, List.drop_left' hboth]

/-- A record is its numbers and the two fields of its name. -/
theorem eq_of_fields {other : Bytes} (hnumbers : record.take 5 = other.take 5)
    (hbase : baseField record = baseField other) (hext : extField record = extField other) :
    record = other := by
  have hparts : ∀ bytes : Bytes, bytes.take 5 ++ (baseField bytes ++ extField bytes) = bytes := by
    intro bytes
    rw [baseField, extField, show bytes.drop 13 = (bytes.drop 5).drop 8 by rw [List.drop_drop],
      List.take_append_drop, List.take_append_drop]
  rw [← hparts record, hnumbers, hbase, hext, hparts]

/-! ### Names that change -/

theorem readText_filled {bytes : Bytes} {text : String}
    (hchars : ∀ c ∈ text.toList, FileName.isNameChar c = true) (hread : readText bytes = text) :
    ∀ b ∈ bytes, b.toNat < 0x80 := by
  obtain ⟨fill, hdecode, hfill⟩ := Text.trimEndBy_eq_append isFiller (Text.decode bytes)
  rw [← toList_readText, hread] at hdecode
  apply Text.ascii_of_decode
  intro c hc
  rw [hdecode, List.mem_append] at hc
  rcases hc with htext | hrest
  · exact FileName.toNat_lt_of_isNameChar (hchars c htext)
  · have hfiller := hfill c hrest
    simp only [isFiller, Bool.or_eq_true, decide_eq_true_eq] at hfiller
    rcases hfiller with rfl | rfl
    · decide
    · decide

/-- A field that turns into a name that a user can type was that name before. -/
theorem readText_of_rewritten {field : Bytes} {width : Nat} {text : String}
    (hwidth : field.length ≤ width) (hchars : ∀ c ∈ text.toList, FileName.isNameChar c = true)
    (hread : readText (writeText width (readText field)) = text) : readText field = text := by
  have hascii := readText_filled hchars hread
  have hshort : (readText field).toList.length ≤ width := by
    obtain ⟨fill, hdecode, _⟩ := Text.trimEndBy_eq_append isFiller (Text.decode field)
    have hlength := congrArg List.length hdecode
    rw [List.length_append, ← toList_readText] at hlength
    have hdecoded := Text.length_decode_le field
    omega
  have hplain : ∀ c ∈ (readText field).toList, c.toNat < 0x80 := by
    apply Text.ascii_of_take_encode hshort
    intro b hb
    exact hascii b (List.mem_append_left _ hb)
  have hfits : (Text.encode (readText field).toList).length ≤ width := by
    rw [Text.length_encode_of_ascii hplain]
    exact hshort
  have htrimmed : Text.Trimmed isFiller (readText field).toList := by
    rw [toList_readText]
    exact Text.trimmed_trimEndBy isFiller (Text.decode field)
  rw [← hread, readText_writeText hfits htrimmed]

theorem name_of_parse (hparse : parse slot record = some e) :
    ∃ base ext, base.length ≤ 8 ∧ ext.length ≤ 3 ∧ e.name = ⟨readText base, readText ext⟩ := by
  unfold parse at hparse
  split at hparse
  · rename_i names
    split at hparse
    · simp at hparse
    · cases hparse
      exact ⟨_, _, List.length_take_le .., List.length_take_le .., rfl⟩
  · simp at hparse

/-- Writing a record again gives no file the name of a new one. -/
theorem name_of_rewritten {name : FileName} (hparse : parse slot record = some e)
    (hvalid : name.Valid)
    (hsame : (⟨readText (writeText 8 e.name.base), readText (writeText 3 e.name.ext)⟩ : FileName) =
      name) : e.name = name := by
  obtain ⟨base, ext, hbase, hext, hname⟩ := name_of_parse hparse
  obtain ⟨_, _, hbaseChars, hextChars⟩ := hvalid.chars
  subst hsame
  rw [hname] at hbaseChars hextChars ⊢
  rw [FileName.mk.injEq]
  exact ⟨readText_of_rewritten hbase hbaseChars rfl, readText_of_rewritten hext hextChars rfl⟩

end AtariDisk.Entry
