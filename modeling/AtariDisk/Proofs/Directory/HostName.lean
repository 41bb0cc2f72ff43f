import AtariDisk.Directory.HostName
import AtariDisk.Proofs.Directory.Grammar

/-!
# Names that host files can be imported under

The name for a host file is made of ASCII letters and digits alone, so it is read back as it was
made, unless it lacks the letter that each name starts with. The main result says for which paths it
does.
-/

namespace AtariDisk.FileName

/-- The parts of a name before and behind its first dot. Without a dot nothing is behind it. -/
inductive CutAtDot : List Char → List Char → List Char → Prop
  | whole {stem : List Char} (hstem : '.' ∉ stem) : CutAtDot stem stem []
  | dotted {stem : List Char} (ext : List Char) (hstem : '.' ∉ stem) :
    CutAtDot (stem ++ '.' :: ext) stem ext

theorem CutAtDot.splitAtDot_eq {chars stem ext : List Char} (hcut : CutAtDot chars stem ext) :
    splitAtDot chars = (stem, ext) := by
  rw [splitAtDot_eq_iff]
  cases hcut with
  | whole hstem => exact ⟨hstem, .inl ⟨rfl, rfl⟩⟩
  | dotted ext hstem => exact ⟨hstem, .inr rfl⟩

theorem exists_cutAtDot (chars : List Char) : ∃ stem ext, CutAtDot chars stem ext := by
  by_cases hdot : '.' ∈ chars
  · obtain ⟨stem, ext, rfl, hstem⟩ := List.eq_append_cons_of_mem hdot
    exact ⟨stem, ext, .dotted ext hstem⟩
  · exact ⟨chars, [], .whole hdot⟩

theorem toList_clean (width : Nat) (chars : List Char) :
    (clean width chars).toList = ((chars.filter Char.isAlphanum).take width).map Char.toUpper :=
  String.toList_ofList

theorem isUpper_toUpper (c : Char) : c.toUpper.isUpper = c.isAlpha := by
  unfold Char.isAlpha Char.isUpper Char.isLower Char.toUpper
  split
  · grind [UInt32.toNat_add, UInt32.le_iff_toNat_le]
  · grind

theorem isNameChar_toUpper {c : Char} (hc : c.isAlphanum = true) : isNameChar c.toUpper = true := by
  by_cases halpha : c.isAlpha = true
  · rw [isNameChar, isUpper_toUpper, halpha, Bool.true_or]
  · have hdigit : c.isDigit = true := by simpa [Char.isAlphanum, halpha] using hc
    have hsame : isNameChar c = true := by rw [isNameChar, hdigit, Bool.or_true]
    rwa [toUpper_of_isNameChar hsame]

theorem isNameChar_of_mem_clean {width : Nat} {chars : List Char} {c : Char}
    (hc : c ∈ (clean width chars).toList) : isNameChar c = true := by
  rw [toList_clean] at hc
  obtain ⟨d, hd, rfl⟩ := List.mem_map.1 hc
  exact isNameChar_toUpper (List.mem_filter.1 (List.mem_of_mem_take hd)).2

theorem length_clean_le (width : Nat) (chars : List Char) :
    (clean width chars).toList.length ≤ width := by
  rw [toList_clean, List.length_map]
  exact List.length_take_le ..

theorem plain_clean (stem ext : List Char) : Plain ⟨clean 8 stem, clean 3 ext⟩ :=
  ⟨fun _ hc => isNameChar_of_mem_clean hc, fun _ hc => isNameChar_of_mem_clean hc⟩

/-- The first letter or digit of the stem decides whether the name can be given to a file. -/
theorem valid_clean_iff {stem ext : List Char} :
    Valid ⟨clean 8 stem, clean 3 ext⟩ ↔
      ∃ c, stem.find? Char.isAlphanum = some c ∧ c.isAlpha = true := by
  have hchars := plain_clean stem ext
  have hhead : (clean 8 stem).toList.head? = (stem.find? Char.isAlphanum).map Char.toUpper := by
    rw [toList_clean, List.head?_map, List.head?_take, if_neg (by decide), List.head?_filter]
  unfold Valid isValid
  simp only [Bool.and_eq_true, decide_eq_true_eq, List.all_eq_true, hhead]
  constructor
  · rintro ⟨⟨⟨_, hfirst⟩, _⟩, _⟩
    rw [Option.any_map, Option.any_eq_true] at hfirst
    obtain ⟨c, hc, hupper⟩ := hfirst
    exact ⟨c, hc, by rw [← isUpper_toUpper]; exact hupper⟩
  · rintro ⟨c, hc, halpha⟩
    refine ⟨⟨⟨⟨length_clean_le 8 stem, length_clean_le 3 ext⟩, ?_⟩, hchars.base⟩, hchars.ext⟩
    rw [hc, Option.map_some, Option.any_some, isUpper_toUpper, halpha]

/-- A name of capitals and digits is read as itself or not at all. -/
theorem Plain.parse_text_eq_ok_iff {name other : FileName} (hplain : name.Plain) :
    parse name.text = .ok other ↔ name.Valid ∧ other = name := by
  rw [parse_eq_ok_iff, hplain.normalize_text, hplain.splitAtDot_text, Prod.mk.injEq,
    String.toList_inj, String.toList_inj]
  constructor
  · rintro ⟨⟨hbase, hext⟩, hvalid⟩
    obtain rfl : other = name := by
      cases other
      cases name
      simp only at hbase hext
      rw [hbase, hext]
    exact ⟨hvalid, rfl⟩
  · rintro ⟨hvalid, rfl⟩
    exact ⟨⟨rfl, rfl⟩, hvalid⟩

/-- **Which host files get a name.** The name for a path is cut from the file name in it, or from
the whole path if there is no file name. It can be given to a file exactly if the first letter or
digit before the first dot is a letter, and is then made of the first eight letters and digits
before that dot and the first three behind it, in capitals. All other paths are refused. -/
theorem host_file_named_iff (path : String) :
    (∃ stem ext, CutAtDot ((Text.fileNameOf path).getD path).toList stem ext) ∧
    ∀ stem ext, CutAtDot ((Text.fileNameOf path).getD path).toList stem ext →
      (∀ name, parse (ofHostPath path).text = .ok name ↔
        (∃ c, stem.find? Char.isAlphanum = some c ∧ c.isAlpha = true) ∧
        name = ⟨String.ofList (((stem.filter Char.isAlphanum).take 8).map Char.toUpper),
          String.ofList (((ext.filter Char.isAlphanum).take 3).map Char.toUpper)⟩) ∧
      ((¬∃ c, stem.find? Char.isAlphanum = some c ∧ c.isAlpha = true) →
        parse (ofHostPath path).text = refuse (.nameInvalid (ofHostPath path).text)) := by
  refine ⟨exists_cutAtDot _, fun stem ext hcut => ?_⟩
  have hname : ofHostPath path = ⟨clean 8 stem, clean 3 ext⟩ := by
    rw [ofHostPath, hcut.splitAtDot_eq]
  have hread : ∀ name, parse (ofHostPath path).text = .ok name ↔
      (∃ c, stem.find? Char.isAlphanum = some c ∧ c.isAlpha = true) ∧
        name = ⟨clean 8 stem, clean 3 ext⟩ := by
    intro name
    rw [hname, (plain_clean stem ext).parse_text_eq_ok_iff, valid_clean_iff]
  refine ⟨hread, fun hnone => parse_eq_error fun name hok => ?_⟩
  exact hnone ((hread name).1 hok).1

/-- Of two dots the first counts, signs and letters that are not ASCII are passed over, and a name
whose first letter or digit is a digit is refused. -/
theorem host_file_named_iff_signs :
    parse (ofHostPath "disks/Ä-my game (v2).back-up.dat/").text = .ok ⟨"MYGAMEV2", "BAC"⟩ ∧
    parse (ofHostPath "disks/(2nd) game").text = refuse (.nameInvalid "2NDGAME") := by
  constructor
  · have hfile : ((Text.fileNameOf "disks/Ä-my game (v2).back-up.dat/").getD
          "disks/Ä-my game (v2).back-up.dat/").toList =
        "Ä-my game (v2)".toList ++ '.' :: "back-up.dat".toList := by decide +kernel
    have hcut := CutAtDot.dotted "back-up.dat".toList
      (show '.' ∉ "Ä-my game (v2)".toList by decide +kernel)
    rw [← hfile] at hcut
    obtain ⟨_, hnamed⟩ := host_file_named_iff "disks/Ä-my game (v2).back-up.dat/"
    exact ((hnamed _ _ hcut).1 _).2 ⟨⟨'m', by decide +kernel⟩, by decide +kernel⟩
  · have hfile : ((Text.fileNameOf "disks/(2nd) game").getD "disks/(2nd) game").toList =
        "(2nd) game".toList := by decide +kernel
    have hcut := CutAtDot.whole (show '.' ∉ "(2nd) game".toList by decide +kernel)
    have hfirst : "(2nd) game".toList.find? Char.isAlphanum = some '2' := by decide +kernel
    have htext : (ofHostPath "disks/(2nd) game").text = "2NDGAME" := by decide +kernel
    rw [← hfile] at hcut
    rw [← hfile] at hfirst
    have hrefused := ((host_file_named_iff _).2 _ _ hcut).2
    rw [htext] at hrefused ⊢
    apply hrefused
    rintro ⟨c, hc, halpha⟩
    rw [hfirst, Option.some.injEq] at hc
    subst hc
    exact absurd halpha (by decide)

end AtariDisk.FileName
