import AtariDisk.Console.Words
import Mathlib.Data.List.Basic

/-!
# Words come back from the line they were typed in

A word can be typed between quotes, or as it is if it has no blanks and tabs in it. Words that are
typed with gaps between them are the words of the line, and no line has any other words than such
that can be typed.
-/

namespace AtariDisk.Console

/-- A word that can be typed: it has characters, and none of them is a quote. -/
def CanBeTyped (word : String) : Prop :=
  word ≠ "" ∧ '"' ∉ word.toList

/-- A run of blanks and tabs, perhaps an empty one. -/
def IsGap (gap : List Char) : Prop :=
  ∀ c ∈ gap, c = ' ' ∨ c = '\t'

/-- How a word is typed. -/
inductive TypedAs (word : String) : List Char → Prop
  | quoted : TypedAs word ('"' :: (word.toList ++ ['"']))
  | bare (hplain : ∀ c ∈ word.toList, c ≠ ' ' ∧ c ≠ '\t') : TypedAs word word.toList

/-- How words are typed in a row, with gaps between them. -/
inductive TypedInRow : List String → List Char → Prop
  | none : TypedInRow [] []
  | last {word : String} {typed : List Char} (htyped : TypedAs word typed) :
    TypedInRow [word] typed
  | next {word : String} {typed gap rest : List Char} {words : List String}
    (htyped : TypedAs word typed) (hgap : IsGap gap) (hapart : gap ≠ [])
    (hrest : TypedInRow words rest) : TypedInRow (word :: words) (typed ++ (gap ++ rest))

/-- The line consists of these words, and perhaps of gaps before and behind them. -/
def TypedInLine (words : List String) (line : String) : Prop :=
  ∃ before row behind, line.toList = before ++ (row ++ behind) ∧
    IsGap before ∧ TypedInRow words row ∧ IsGap behind

/-! ### Scanning -/

/-- The words of a line that has been scanned. -/
def collected (scanned : List Char × List String) : List String :=
  finish scanned.1 ++ scanned.2

theorem words_eq (line : String) : words line = collected (splitWords false line.toList) := rfl

theorem collected_nil (words : List String) : collected ([], words) = words := rfl

theorem splitWords_quote (quoted : Bool) (rest : List Char) :
    splitWords quoted ('"' :: rest) = splitWords (!quoted) rest := by
  rw [splitWords, if_pos rfl]

/-- Characters that mean nothing special go to the front of the word behind them. -/
theorem splitWords_append {quoted : Bool} {chars : List Char} (hquote : '"' ∉ chars)
    (hplain : ∀ c ∈ chars, (isSeparator c && !quoted) = false) (rest : List Char) :
    splitWords quoted (chars ++ rest) =
      (chars ++ (splitWords quoted rest).1, (splitWords quoted rest).2) := by
  induction chars with
  | nil => rfl
  | cons c chars ih =>
    have hc : c ≠ '"' := fun heq => hquote (heq ▸ List.mem_cons_self)
    have hsplit := ih (mt (List.mem_cons_of_mem c) hquote) fun d hd =>
      hplain d (List.mem_cons_of_mem c hd)
    rw [List.cons_append, splitWords, if_neg hc, hsplit]
    simp only [hplain c List.mem_cons_self]
    rfl

theorem isSeparator_iff {c : Char} : isSeparator c = true ↔ c = ' ' ∨ c = '\t' := by
  simp [isSeparator]

/-- A separator ends the word behind it. -/
theorem splitWords_separator {c : Char} (hc : isSeparator c = true) (rest : List Char) :
    splitWords false (c :: rest) = ([], collected (splitWords false rest)) := by
  have hquote : c ≠ '"' := by
    rintro rfl
    exact absurd hc (by decide)
  rw [splitWords, if_neg hquote]
  simp only [hc]
  rfl

theorem splitWords_gap {gap : List Char} (hgap : IsGap gap) (hapart : gap ≠ []) (rest : List Char) :
    splitWords false (gap ++ rest) = ([], collected (splitWords false rest)) := by
  induction gap with
  | nil => exact absurd rfl hapart
  | cons c gap ih =>
    have hc := isSeparator_iff.2 (hgap c List.mem_cons_self)
    rw [List.cons_append, splitWords_separator hc]
    by_cases hlast : gap = []
    · rw [hlast, List.nil_append]
    · rw [ih (fun d hd => hgap d (List.mem_cons_of_mem c hd)) hlast, collected_nil]

theorem collected_gap {gap : List Char} (hgap : IsGap gap) (rest : List Char) :
    collected (splitWords false (gap ++ rest)) = collected (splitWords false rest) := by
  by_cases hnone : gap = []
  · rw [hnone, List.nil_append]
  · rw [splitWords_gap hgap hnone, collected_nil]

theorem splitWords_of_gap {gap : List Char} (hgap : IsGap gap) :
    splitWords false gap = ([], []) := by
  by_cases hnone : gap = []
  · rw [hnone]
    rfl
  · rw [← List.append_nil gap, splitWords_gap hgap hnone]
    rfl

/-! ### Words that were typed -/

/-- However a word is typed, it is scanned as the start of the word it stands in. -/
theorem TypedAs.splitWords_append {word : String} {typed : List Char} (htyped : TypedAs word typed)
    (hword : CanBeTyped word) (rest : List Char) :
    splitWords false (typed ++ rest) =
      (word.toList ++ (splitWords false rest).1, (splitWords false rest).2) := by
  cases htyped with
  | bare hplain =>
    refine Console.splitWords_append hword.2 (fun c hc => ?_) rest
    have hsep : isSeparator c ≠ true := by
      rw [Ne, isSeparator_iff, not_or]
      exact hplain c hc
    rw [Bool.eq_false_iff.2 hsep, Bool.false_and]
  | quoted =>
    calc splitWords false ('"' :: (word.toList ++ ['"']) ++ rest)
        = splitWords true (word.toList ++ '"' :: rest) := by
          rw [List.cons_append, splitWords_quote, List.append_assoc]
          rfl
      _ = (word.toList ++ (splitWords true ('"' :: rest)).1, (splitWords true ('"' :: rest)).2) :=
          Console.splitWords_append hword.2 (fun c _ => Bool.and_false _) _
      _ = (word.toList ++ (splitWords false rest).1, (splitWords false rest).2) := by
          rw [splitWords_quote, Bool.not_true]

theorem finish_toList {word : String} (hword : CanBeTyped word) : finish word.toList = [word] := by
  have hnonempty : word.toList ≠ [] := fun hnil => hword.1 (String.toList_eq_nil_iff.1 hnil)
  rw [finish, if_neg (by simpa using hnonempty), String.ofList_toList]

theorem TypedInRow.collected_eq {words : List String} {row : List Char}
    (hrow : TypedInRow words row) (hwords : ∀ word ∈ words, CanBeTyped word) {behind : List Char}
    (hbehind : IsGap behind) : collected (splitWords false (row ++ behind)) = words := by
  induction hrow with
  | none =>
    rw [List.nil_append, splitWords_of_gap hbehind]
    rfl
  | last htyped =>
    have hword := hwords _ List.mem_cons_self
    rw [htyped.splitWords_append hword, splitWords_of_gap hbehind, List.append_nil, collected,
      finish_toList hword]
    rfl
  | next htyped hgap hapart _ ih =>
    have hword := hwords _ List.mem_cons_self
    have hrest := ih fun word hmem => hwords word (List.mem_cons_of_mem _ hmem)
    rw [List.append_assoc, htyped.splitWords_append hword, List.append_assoc,
      splitWords_gap hgap hapart, hrest, List.append_nil, collected, finish_toList hword]
    rfl

/-! ### Words of any line -/

theorem canBeTyped_of_mem_finish {chars : List Char} (hquote : '"' ∉ chars) {word : String}
    (hmem : word ∈ finish chars) : CanBeTyped word := by
  unfold finish at hmem
  split at hmem
  · cases hmem
  · rename_i hnonempty
    rw [List.mem_singleton] at hmem
    subst hmem
    refine ⟨fun hempty => hnonempty ?_, ?_⟩
    · rw [List.isEmpty_iff, ← String.toList_ofList (l := chars), hempty]
      rfl
    · rwa [String.toList_ofList]

/-- Neither the word that a scan goes on with nor the words behind it hold quotes. -/
theorem canBeTyped_splitWords (quoted : Bool) (chars : List Char) :
    '"' ∉ (splitWords quoted chars).1 ∧ ∀ word ∈ (splitWords quoted chars).2, CanBeTyped word := by
  induction chars generalizing quoted with
  | nil => exact ⟨List.not_mem_nil, fun _ hmem => absurd hmem List.not_mem_nil⟩
  | cons c rest ih =>
    rw [splitWords]
    by_cases hc : c = '"'
    · rw [if_pos hc]
      exact ih (!quoted)
    · obtain ⟨hpending, hwords⟩ := ih quoted
      rw [if_neg hc]
      simp only
      split
      · refine ⟨List.not_mem_nil, fun word hmem => ?_⟩
        rcases List.mem_append.1 hmem with hfirst | hlater
        · exact canBeTyped_of_mem_finish hpending hfirst
        · exact hwords word hlater
      · exact ⟨List.not_mem_cons_of_ne_of_not_mem (Ne.symm hc) hpending, hwords⟩

/-- **Lines split back into the words they were typed from.** However words are typed, and whatever
gaps stand between, before and behind them, they are the words of the line. The words of any line
have characters, and no quotes among them. -/
theorem words_come_back (line : String) :
    (∀ typed, (∀ word ∈ typed, CanBeTyped word) → TypedInLine typed line → words line = typed) ∧
      ∀ word ∈ words line, CanBeTyped word := by
  constructor
  · rintro typed htyped ⟨before, row, behind, hline, hbefore, hrow, hbehind⟩
    rw [words_eq, hline, collected_gap hbefore, hrow.collected_eq htyped hbehind]
  · intro word hmem
    obtain ⟨hpending, hwords⟩ := canBeTyped_splitWords false line.toList
    rw [words_eq, collected, List.mem_append] at hmem
    rcases hmem with hfirst | hlater
    · exact canBeTyped_of_mem_finish hpending hfirst
    · exact hwords word hlater

/-- A blank as a word, a word with a tab in it, and one in quotes that it does not need. -/
theorem words_come_back_quoted :
    TypedInLine [" ", "import", "a\tb", "c"] "\t \" \"  import \"a\tb\"\t\"c\"" ∧
      words "\t \" \"  import \"a\tb\"\t\"c\"" = [" ", "import", "a\tb", "c"] := by
  have hrow : TypedInRow [" ", "import", "a\tb", "c"]
      ('"' :: (" ".toList ++ ['"']) ++ ("  ".toList ++ ("import".toList ++ (" ".toList ++
        ('"' :: ("a\tb".toList ++ ['"']) ++ ("\t".toList ++ '"' :: ("c".toList ++ ['"']))))))) :=
    .next .quoted (by simp [IsGap]) (by simp)
      (.next (.bare (by simp)) (by simp [IsGap]) (by simp)
        (.next .quoted (by simp [IsGap]) (by simp) (.last .quoted)))
  have hline : TypedInLine [" ", "import", "a\tb", "c"] "\t \" \"  import \"a\tb\"\t\"c\"" :=
    ⟨['\t', ' '], _, [], by simp, by simp [IsGap], hrow, by simp [IsGap]⟩
  exact ⟨hline, (words_come_back _).1 _ (by simp [CanBeTyped]) hline⟩

end AtariDisk.Console
