import AtariDisk.Text.Blank
import AtariDisk.Text.Lossy
import Mathlib.Data.List.TakeWhile

/-!
# Text that was written is read back

Every text is read back from its bytes, whatever follows them. Bytes that are no text can never be
taken for ASCII: only ASCII bytes are read as ASCII characters.
-/

namespace AtariDisk.Text

theorem decodeFrom_eq (skip : Nat) (bytes : Bytes) :
    decodeFrom skip bytes = decode (bytes.drop skip) := by
  induction skip generalizing bytes with
  | zero => rfl
  | succ skip ih =>
    cases bytes with
    | nil => rfl
    | cons b rest => exact ih rest

theorem decode_cons (a : UInt8) (rest : Bytes) :
    decode (a :: rest) = (leading a rest).1 :: decode (rest.drop (leading a rest).2) := by
  rw [← decodeFrom_eq]
  rfl

/-! ### Classes of bytes -/

theorem isTail_iff {b : UInt8} : isTail b = true ↔ 0x80 ≤ b.toNat ∧ b.toNat ≤ 0xBF := by
  simp [isTail, UInt8.le_iff_toNat_le]

theorem isSecondOfThree_iff {a b : UInt8} :
    isSecondOfThree a b = true ↔ 0x80 ≤ b.toNat ∧ b.toNat ≤ 0xBF ∧
      (a.toNat = 0xE0 → 0xA0 ≤ b.toNat) ∧ (a.toNat = 0xED → b.toNat ≤ 0x9F) := by
  simp only [isSecondOfThree, isTail, ← UInt8.toNat_inj, UInt8.le_iff_toNat_le,
    UInt8.reduceToNat, apply_ite (· = true), Bool.and_eq_true, decide_eq_true_eq]
  split
  · omega
  · split <;> omega

theorem isSecondOfFour_iff {a b : UInt8} :
    isSecondOfFour a b = true ↔ 0x80 ≤ b.toNat ∧ b.toNat ≤ 0xBF ∧
      (a.toNat = 0xF0 → 0x90 ≤ b.toNat) ∧ (a.toNat = 0xF4 → b.toNat ≤ 0x8F) := by
  simp only [isSecondOfFour, isTail, ← UInt8.toNat_inj, UInt8.le_iff_toNat_le,
    UInt8.reduceToNat, apply_ite (· = true), Bool.and_eq_true, decide_eq_true_eq]
  split
  · omega
  · split <;> omega

/-! ### Characters of each length -/

section Leading

variable {a b c d : UInt8} (rest : Bytes)

theorem leading_one (ha : a.toNat < 0x80) : leading a rest = (Char.ofNat a.toNat, 0) := by
  unfold leading
  rw [if_pos (UInt8.lt_iff_toNat_lt.2 ha)]

theorem leading_two (ha : 0xC2 ≤ a.toNat ∧ a.toNat ≤ 0xDF) (hb : isTail b = true) :
    leading a (b :: rest) = (join (a.toNat % 32) [b], 1) := by
  simp only [leading, UInt8.lt_iff_toNat_lt, UInt8.le_iff_toNat_le, UInt8.reduceToNat,
    Bool.and_eq_true, decide_eq_true_eq]
  rw [if_neg (by omega), if_pos ha, if_pos hb]

theorem leading_three (ha : 0xE0 ≤ a.toNat ∧ a.toNat ≤ 0xEF) (hb : isSecondOfThree a b = true)
    (hc : isTail c = true) : leading a (b :: c :: rest) = (join (a.toNat % 16) [b, c], 2) := by
  simp only [leading, UInt8.lt_iff_toNat_lt, UInt8.le_iff_toNat_le, UInt8.reduceToNat,
    Bool.and_eq_true, decide_eq_true_eq]
  rw [if_neg (by omega), if_neg (by omega), if_pos ha, if_pos hb, if_pos hc]

theorem leading_four (ha : 0xF0 ≤ a.toNat ∧ a.toNat ≤ 0xF4) (hb : isSecondOfFour a b = true)
    (hc : isTail c = true) (hd : isTail d = true) :
    leading a (b :: c :: d :: rest) = (join (a.toNat % 8) [b, c, d], 3) := by
  simp only [leading, UInt8.lt_iff_toNat_lt, UInt8.le_iff_toNat_le, UInt8.reduceToNat,
    Bool.and_eq_true, decide_eq_true_eq]
  rw [if_neg (by omega), if_neg (by omega), if_neg (by omega), if_pos ha, if_pos hb, if_pos hc,
    if_pos hd]

end Leading

/-! ### Reading back -/

/-- The bytes of a character, told by its number. -/
theorem utf8EncodeChar_eq (c : Char) :
    String.utf8EncodeChar c =
      if c.toNat ≤ 0x7F then [UInt8.ofNat c.toNat]
      else if c.toNat ≤ 0x7FF then
        [UInt8.ofNat (c.toNat / 64 % 32 + 0xC0), UInt8.ofNat (c.toNat % 64 + 0x80)]
      else if c.toNat ≤ 0xFFFF then
        [UInt8.ofNat (c.toNat / 4096 % 16 + 0xE0), UInt8.ofNat (c.toNat / 64 % 64 + 0x80),
          UInt8.ofNat (c.toNat % 64 + 0x80)]
      else
        [UInt8.ofNat (c.toNat / 262144 % 8 + 0xF0), UInt8.ofNat (c.toNat / 4096 % 64 + 0x80),
          UInt8.ofNat (c.toNat / 64 % 64 + 0x80), UInt8.ofNat (c.toNat % 64 + 0x80)] := rfl

theorem toNat_valid (c : Char) : c.toNat < 0xD800 ∨ 0xDFFF < c.toNat ∧ c.toNat < 0x110000 :=
  c.valid

theorem toNat_ofNat_of_lt {n : Nat} (hn : n < 256) : (UInt8.ofNat n).toNat = n := by
  rw [UInt8.toNat_ofNat', Nat.mod_eq_of_lt hn]

theorem isTail_ofNat (n : Nat) : isTail (UInt8.ofNat (n % 64 + 0x80)) = true := by
  rw [isTail_iff, toNat_ofNat_of_lt (by omega)]
  omega

theorem join_eq {lead : Nat} {tails : Bytes} {c : Char}
    (hvalue : tails.foldl (fun n b => n * 64 + b.toNat % 64) lead = c.toNat) :
    join lead tails = c := by
  rw [join, hvalue, Char.ofNat_toNat]

/-- A character is read back from its bytes, whatever follows them. -/
theorem decode_utf8EncodeChar_append (c : Char) (rest : Bytes) :
    decode (String.utf8EncodeChar c ++ rest) = c :: decode rest := by
  have hvalid := toNat_valid c
  have hlow := toNat_ofNat_of_lt (show c.toNat % 64 + 0x80 < 256 by omega)
  have hmiddle := toNat_ofNat_of_lt (show c.toNat / 64 % 64 + 0x80 < 256 by omega)
  have hhigh := toNat_ofNat_of_lt (show c.toNat / 4096 % 64 + 0x80 < 256 by omega)
  rw [utf8EncodeChar_eq]
  split
  · have hlead := toNat_ofNat_of_lt (show c.toNat < 256 by omega)
    rw [List.singleton_append, decode_cons, leading_one rest (by omega), hlead, Char.ofNat_toNat]
    rfl
  · split
    · have hlead := toNat_ofNat_of_lt (show c.toNat / 64 % 32 + 0xC0 < 256 by omega)
      rw [List.cons_append, List.singleton_append, decode_cons,
        leading_two rest (by omega) (isTail_ofNat _), join_eq (c := c)]
      · rfl
      · simp only [List.foldl_cons, List.foldl_nil, hlead, hlow]
        omega
    · split
      · have hlead := toNat_ofNat_of_lt (show c.toNat / 4096 % 16 + 0xE0 < 256 by omega)
        have hsecond : isSecondOfThree (UInt8.ofNat (c.toNat / 4096 % 16 + 0xE0))
            (UInt8.ofNat (c.toNat / 64 % 64 + 0x80)) = true := by
          rw [isSecondOfThree_iff, hlead, hmiddle]
          omega
        rw [List.cons_append, List.cons_append, List.singleton_append, decode_cons,
          leading_three rest (by omega) hsecond (isTail_ofNat _), join_eq (c := c)]
        · rfl
        · simp only [List.foldl_cons, List.foldl_nil, hlead, hmiddle, hlow]
          omega
      · have hlead := toNat_ofNat_of_lt (show c.toNat / 262144 % 8 + 0xF0 < 256 by omega)
        have hsecond : isSecondOfFour (UInt8.ofNat (c.toNat / 262144 % 8 + 0xF0))
            (UInt8.ofNat (c.toNat / 4096 % 64 + 0x80)) = true := by
          rw [isSecondOfFour_iff, hlead, hhigh]
          omega
        rw [List.cons_append, List.cons_append, List.cons_append, List.singleton_append,
          decode_cons, leading_four rest (by omega) hsecond (isTail_ofNat _) (isTail_ofNat _),
          join_eq (c := c)]
        · rfl
        · simp only [List.foldl_cons, List.foldl_nil, hlead, hhigh, hmiddle, hlow]
          omega

theorem encode_cons (c : Char) (rest : List Char) :
    encode (c :: rest) = String.utf8EncodeChar c ++ encode rest := by
  rw [encode, encode, List.flatMap_cons]

/-- A text is read back from its bytes, whatever follows them. -/
theorem decode_encode_append (text : List Char) (tail : Bytes) :
    decode (encode text ++ tail) = text ++ decode tail := by
  induction text with
  | nil => rfl
  | cons c rest ih =>
    rw [encode_cons, List.append_assoc, decode_utf8EncodeChar_append, ih, List.cons_append]

/-! ### ASCII -/

theorem replacement_ge : 0x80 ≤ replacement.toNat := by decide

theorem join_ge {lead : Nat} {tails : Bytes}
    (hlarge : 0x80 ≤ tails.foldl (fun n b => n * 64 + b.toNat % 64) lead)
    (hvalid : (tails.foldl (fun n b => n * 64 + b.toNat % 64) lead).isValidChar) :
    0x80 ≤ (join lead tails).toNat := by
  unfold join Char.ofNat
  rw [dif_pos hvalid]
  exact hlarge

/-- What starts with another byte is no ASCII character. -/
theorem leading_ge {a : UInt8} (ha : 0x80 ≤ a.toNat) (rest : Bytes) :
    0x80 ≤ (leading a rest).1.toNat := by
  fun_cases leading a rest with
  | case1 _ hlow =>
    rw [UInt8.lt_iff_toNat_lt] at hlow
    exact absurd hlow (Nat.not_lt.2 ha)
  | case2 _ hlead b _ hb =>
    simp only [UInt8.le_iff_toNat_le, UInt8.reduceToNat, Bool.and_eq_true,
      decide_eq_true_eq] at hlead
    rw [isTail_iff] at hb
    apply join_ge
    · simp only [List.foldl_cons, List.foldl_nil]
      omega
    · simp only [List.foldl_cons, List.foldl_nil, Nat.isValidChar]
      omega
  | case5 _ _ hlead b c _ hb hc =>
    simp only [UInt8.le_iff_toNat_le, UInt8.reduceToNat, Bool.and_eq_true,
      decide_eq_true_eq] at hlead
    rw [isSecondOfThree_iff] at hb
    rw [isTail_iff] at hc
    apply join_ge
    · simp only [List.foldl_cons, List.foldl_nil]
      omega
    · simp only [List.foldl_cons, List.foldl_nil, Nat.isValidChar]
      omega
  | case10 _ _ _ hlead b c d _ hb hc hd =>
    simp only [UInt8.le_iff_toNat_le, UInt8.reduceToNat, Bool.and_eq_true,
      decide_eq_true_eq] at hlead
    rw [isSecondOfFour_iff] at hb
    rw [isTail_iff] at hc hd
    apply join_ge
    · simp only [List.foldl_cons, List.foldl_nil]
      omega
    · simp only [List.foldl_cons, List.foldl_nil, Nat.isValidChar]
      omega
  | _ => exact replacement_ge

theorem decode_cons_of_lt {b : UInt8} (hb : b.toNat < 0x80) (rest : Bytes) :
    decode (b :: rest) = Char.ofNat b.toNat :: decode rest := by
  rw [decode_cons, leading_one rest hb]
  rfl

/-- Only ASCII bytes are read as ASCII characters. -/
theorem ascii_of_decode {bytes : Bytes} (hascii : ∀ c ∈ decode bytes, c.toNat < 0x80) :
    ∀ b ∈ bytes, b.toNat < 0x80 := by
  induction bytes with
  | nil => simp
  | cons a rest ih =>
    have ha : a.toNat < 0x80 := by
      apply Nat.lt_of_not_le
      intro hlarge
      have hchar := hascii _ (by rw [decode_cons]; exact List.mem_cons_self)
      have hge := leading_ge hlarge rest
      omega
    rw [decode_cons_of_lt ha] at hascii
    intro b hb
    rcases List.mem_cons.1 hb with rfl | hlater
    · exact ha
    · exact ih (fun c hc => hascii c (List.mem_cons_of_mem _ hc)) b hlater

/-- Every character takes at least one byte. -/
theorem length_decode_le (bytes : Bytes) : (decode bytes).length ≤ bytes.length := by
  induction hlength : bytes.length using Nat.strongRecOn generalizing bytes with
  | ind n ih =>
    cases bytes with
    | nil => simp [decode, decodeFrom]
    | cons a rest =>
      rw [List.length_cons] at hlength
      have hdrop : (rest.drop (leading a rest).2).length ≤ rest.length := by
        rw [List.length_drop]
        omega
      have hrest := ih _ (by omega) (rest.drop (leading a rest).2) rfl
      rw [decode_cons, List.length_cons]
      omega

theorem decode_replicate_space (n : Nat) :
    decode (List.replicate n 0x20) = List.replicate n ' ' := by
  induction n with
  | zero => rfl
  | succ n ih =>
    rw [List.replicate_succ, decode_cons_of_lt (by decide), ih, List.replicate_succ]
    rfl

theorem encode_cons_of_ascii {c : Char} (hc : c.toNat < 0x80) (rest : List Char) :
    encode (c :: rest) = UInt8.ofNat c.toNat :: encode rest := by
  rw [encode_cons, utf8EncodeChar_eq, if_pos (by omega), List.singleton_append]

theorem length_encode_of_ascii {text : List Char} (hascii : ∀ c ∈ text, c.toNat < 0x80) :
    (encode text).length = text.length := by
  induction text with
  | nil => rfl
  | cons c rest ih =>
    rw [encode_cons_of_ascii (hascii c List.mem_cons_self), List.length_cons, List.length_cons,
      ih fun d hd => hascii d (List.mem_cons_of_mem c hd)]

theorem utf8EncodeChar_ge {c : Char} (hc : 0x80 ≤ c.toNat) :
    ∃ a tails, String.utf8EncodeChar c = a :: tails ∧ 0x80 ≤ a.toNat := by
  rw [utf8EncodeChar_eq, if_neg (by omega)]
  split
  · refine ⟨_, _, rfl, ?_⟩
    rw [toNat_ofNat_of_lt (by omega)]
    omega
  · split
    · refine ⟨_, _, rfl, ?_⟩
      rw [toNat_ofNat_of_lt (by omega)]
      omega
    · refine ⟨_, _, rfl, ?_⟩
      rw [toNat_ofNat_of_lt (by omega)]
      omega

/-- A text with no more characters than there is room for bytes is ASCII if the bytes that find room
are. -/
theorem ascii_of_take_encode {text : List Char} {width : Nat} (hfits : text.length ≤ width)
    (hascii : ∀ b ∈ (encode text).take width, b.toNat < 0x80) : ∀ c ∈ text, c.toNat < 0x80 := by
  induction text generalizing width with
  | nil => simp
  | cons c rest ih =>
    obtain ⟨room, rfl⟩ : ∃ room, width = room + 1 :=
      ⟨width - 1, by rw [List.length_cons] at hfits; omega⟩
    have hc : c.toNat < 0x80 := by
      apply Nat.lt_of_not_le
      intro hlarge
      obtain ⟨a, tails, hbytes, ha⟩ := utf8EncodeChar_ge hlarge
      have hfirst := hascii a (by
        rw [encode_cons, hbytes, List.cons_append, List.take_succ_cons]
        exact List.mem_cons_self)
      omega
    rw [encode_cons_of_ascii hc, List.take_succ_cons] at hascii
    have hrest := ih (Nat.le_of_succ_le_succ hfits)
      fun b hb => hascii b (List.mem_cons_of_mem _ hb)
    intro d hd
    rcases List.mem_cons.1 hd with rfl | hlater
    · exact hc
    · exact hrest d hlater

/-! ### Trimming -/

/-- The text does not end in a character that satisfies `drop`. -/
def Trimmed (drop : Char → Bool) (text : List Char) : Prop :=
  ∀ c, text.getLast? = some c → drop c = false

variable {drop : Char → Bool} {text : List Char}

theorem trimmed_trimEndBy (drop : Char → Bool) (text : List Char) :
    Trimmed drop (trimEndBy drop text) := by
  intro c hc
  rw [trimEndBy, List.getLast?_reverse] at hc
  have hfirst := List.head?_dropWhile_not drop text.reverse
  rwa [hc] at hfirst

theorem trimEndBy_append {tail : List Char} (htrimmed : Trimmed drop text)
    (hdrop : ∀ c ∈ tail, drop c = true) : trimEndBy drop (text ++ tail) = text := by
  have htail : ∀ c ∈ tail.reverse, drop c = true := fun c hc => hdrop c (List.mem_reverse.1 hc)
  have hhead : text.reverse.dropWhile drop = text.reverse := by
    cases hrev : text.reverse with
    | nil => rfl
    | cons c rest =>
      have hc := htrimmed c (by rw [← List.head?_reverse, hrev]; rfl)
      rw [List.dropWhile_cons_of_neg (by simp [hc])]
  unfold trimEndBy
  rw [List.reverse_append, List.dropWhile_append_of_pos htail, hhead, List.reverse_reverse]

theorem trimEndBy_eq_append (drop : Char → Bool) (text : List Char) :
    ∃ tail, text = trimEndBy drop text ++ tail ∧ ∀ c ∈ tail, drop c = true := by
  refine ⟨(text.reverse.takeWhile drop).reverse, ?_, ?_⟩
  · rw [trimEndBy, ← List.reverse_append, List.takeWhile_append_dropWhile, List.reverse_reverse]
  · intro c hc
    exact List.mem_takeWhile_imp (List.mem_reverse.1 hc)

/-- What is left of a text without the white space at its start and end. -/
def IsCore (text core : List Char) : Prop :=
  ∃ front back, text = front ++ core ++ back ∧ (∀ c ∈ front ++ back, isBlank c = true) ∧
    (∀ c, core.head? = some c → isBlank c = false) ∧ Trimmed isBlank core

theorem isCore_trim (text : List Char) : IsCore text (trim text) := by
  obtain ⟨back, hrest, hback⟩ := trimEndBy_eq_append isBlank (text.dropWhile isBlank)
  refine ⟨text.takeWhile isBlank, back, ?_, ?_, ?_, trimmed_trimEndBy _ _⟩
  · rw [List.append_assoc, trim, ← hrest, List.takeWhile_append_dropWhile]
  · intro c hc
    rcases List.mem_append.1 hc with hfront | hlast
    · exact List.mem_takeWhile_imp hfront
    · exact hback c hlast
  · intro c hc
    have hfirst := List.head?_dropWhile_not isBlank text
    rw [hrest, List.head?_append, ← trim, hc] at hfirst
    exact hfirst

/-- Trimming leaves the core of a text, and a text has one core only. -/
theorem trim_eq_iff {core : List Char} : trim text = core ↔ IsCore text core := by
  constructor
  · rintro rfl
    exact isCore_trim text
  · rintro ⟨front, back, rfl, hblank, hfirst, hlast⟩
    have hfront : ∀ c ∈ front, isBlank c = true :=
      fun c hc => hblank c (List.mem_append_left back hc)
    have hback : ∀ c ∈ back, isBlank c = true :=
      fun c hc => hblank c (List.mem_append_right front hc)
    rw [trim, List.append_assoc, List.dropWhile_append_of_pos hfront]
    cases core with
    | nil =>
      rw [List.nil_append, List.dropWhile_eq_nil_iff.2 hback]
      rfl
    | cons c rest =>
      rw [List.cons_append, List.dropWhile_cons_of_neg (by simp [hfirst c rfl]),
        ← List.cons_append, trimEndBy_append hlast hback]

end AtariDisk.Text
