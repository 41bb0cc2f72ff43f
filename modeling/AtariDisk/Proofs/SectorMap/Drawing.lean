import AtariDisk.SectorMap.Drawing
import AtariDisk.Proofs.SectorMap

/-!
# What the drawing shows

The sectors from 1 to 719 are drawn track by track, each of them once, and a cell shows whether its
sector can still be used for a file. The numbers below the tracks start in every fifth column and
end with the last track.
-/

namespace AtariDisk.SectorMap

variable {map : SectorMap} {spt : Nat}

/-- What a drawing without colors shows of a sector: nothing behind the last one, a light shade if
it is free for files, a dark shade otherwise. -/
def shade (map : SectorMap) (sector : Nat) : Char :=
  if 719 < sector then ' '
  else if map.isFree sector && !isReserved sector then '\u2591'
  else '\u2593'

/-- What stands below a track: every fifth column starts with the number of its track, which goes on
in the columns behind it. -/
def trackMark (track : Nat) : Char :=
  (Nat.toDigits 10 (track - track % 5)).getD (track % 5) ' '

theorem shade_eq_light_iff {sector : Nat} :
    map.shade sector = '\u2591' ↔ sector ≤ 719 ∧ map.isFree sector = true ∧
      ¬(1 ≤ sector ∧ sector ≤ 3) ∧ ¬(360 ≤ sector ∧ sector ≤ 368) := by
  have hreserved := isReserved_eq_true_iff (s := sector)
  unfold shade
  by_cases hlast : 719 < sector
  · rw [if_pos hlast]
    exact iff_of_false (by decide) (by omega)
  · rw [if_neg hlast]
    by_cases hfree : (map.isFree sector && !isReserved sector) = true
    · rw [if_pos hfree]
      rw [Bool.and_eq_true, Bool.not_eq_true', Bool.eq_false_iff, Ne, hreserved] at hfree
      exact iff_of_true rfl ⟨by omega, hfree.1, by omega⟩
    · rw [if_neg hfree]
      rw [Bool.and_eq_true, Bool.not_eq_true', Bool.eq_false_iff, Ne, hreserved] at hfree
      refine iff_of_false (by decide) fun ⟨_, hbit, hboot, hsystem⟩ => hfree ⟨hbit, ?_⟩
      omega

theorem shade_eq_blank_iff {sector : Nat} : map.shade sector = ' ' ↔ 719 < sector := by
  unfold shade
  by_cases hlast : 719 < sector
  · exact iff_of_true (if_pos hlast) hlast
  · rw [if_neg hlast]
    refine iff_of_false ?_ hlast
    split
    · decide
    · decide

/-! ### Rows -/

/-- Tracks are numbered as long as there are sectors left for them. -/
theorem lt_ceilDiv_iff (hspt : 1 ≤ spt) {t : Nat} : t < 719 ⌈/⌉ spt ↔ spt * t < 719 := by
  rw [← not_le, ceilDiv_le_iff_le_mul hspt, not_le]

theorem drop_toList_free (map : SectorMap) :
    map.free.toList.drop 1 = (List.range' 1 719).map map.isFree := by
  rw [toList_free, ← List.map_drop, List.range_eq_range', List.drop_range']

theorem getElem?_trackRows (hspt : 1 ≤ spt) (map : SectorMap) (t : Nat) :
    (map.trackRows spt)[t]? =
      if t < 719 ⌈/⌉ spt then
        some ((((List.range' 1 719).map map.isFree).drop (spt * t)).take spt)
      else none := by
  have hlength : ((List.range' 1 719).map map.isFree).length = 719 := by simp
  rw [trackRows, Nat.max_eq_left hspt, drop_toList_free, getElem?_chunks hspt, hlength]
  simp only [lt_ceilDiv_iff hspt]

theorem length_trackRows (hspt : 1 ≤ spt) (map : SectorMap) :
    (map.trackRows spt).length = 719 ⌈/⌉ spt := by
  refine eq_of_forall_ge_iff fun t => ?_
  rw [← List.getElem?_eq_none_iff, getElem?_trackRows hspt, ← not_lt]
  split
  next ht => exact iff_of_false (by simp) (not_not_intro ht)
  next ht => exact iff_of_true rfl ht

/-- The bit at a place within a track. -/
theorem getElem?_track (map : SectorMap) {t p : Nat} (hp : p < spt) :
    ((((List.range' 1 719).map map.isFree).drop (spt * t)).take spt)[p]? =
      if t * spt + p + 1 ≤ 719 then some (map.isFree (t * spt + p + 1)) else none := by
  rw [List.getElem?_take, if_pos hp, List.getElem?_drop, List.getElem?_map, Nat.mul_comm spt t]
  by_cases hlast : t * spt + p + 1 ≤ 719
  · rw [if_pos hlast, List.getElem?_range' (by omega), Option.map_some]
    congr 2
    omega
  · rw [if_neg hlast, List.getElem?_eq_none (by rw [List.length_range']; omega)]
    rfl

theorem cell_classify (sector : Nat) (free : Bool) :
    cell (.classify sector free) false =
      String.singleton (if free && !isReserved sector then '\u2591' else '\u2593') := by
  unfold SectorUse.classify isReserved
  rw [← Bool.decide_and]
  by_cases hboot : 1 ≤ sector ∧ sector ≤ bootSectors
  · rw [if_pos hboot, decide_eq_true hboot, Bool.true_or, Bool.not_true, Bool.and_false]
    rfl
  · rw [if_neg hboot, decide_eq_false hboot, Bool.false_or]
    cases isSystem sector <;> cases free <;> rfl

theorem rowCells_eq (hspt : 1 ≤ spt) (map : SectorMap) {p : Nat} (hp : p < spt) :
    rowCells (map.trackRows spt) spt p false =
      (List.range (719 ⌈/⌉ spt)).map fun t => String.singleton (map.shade (t * spt + p + 1)) := by
  apply List.ext_getElem?
  intro t
  rw [rowCells, List.getElem?_mapIdx, getElem?_trackRows hspt, List.getElem?_map]
  by_cases ht : t < 719 ⌈/⌉ spt
  · rw [if_pos ht, List.getElem?_range ht, Option.map_some, Option.map_some,
      getElem?_track map hp, shade]
    by_cases hlast : t * spt + p + 1 ≤ 719
    · rw [if_pos hlast, if_neg (by omega)]
      simp only [cell_classify]
    · rw [if_neg hlast, if_pos (by omega)]
      rfl
  · rw [if_neg ht, List.getElem?_eq_none (by simpa using ht)]
    rfl

theorem join_singleton (chars : List Char) :
    String.join (chars.map String.singleton) = String.ofList chars := by
  rw [← String.toList_inj, String.toList_join, String.toList_ofList, List.flatMap_map]
  simp

/-! ### The axis -/

/-- What is left to be written of the number that started last. -/
def pendingAt (column : Nat) : List Char :=
  (Nat.toDigits 10 (column - column % 5)).drop (column % 5)

theorem headD_pendingAt (column : Nat) : (pendingAt column).headD ' ' = trackMark column := by
  rw [pendingAt, trackMark, List.headD_eq_head?_getD, List.head?_drop, List.getD_eq_getElem?_getD]

/-- A number of at most four digits is written out before the next one starts. -/
theorem tail_pendingAt {column : Nat} (hfew : column < 10000) :
    (pendingAt column).tail = if (column + 1) % 5 = 0 then [] else pendingAt (column + 1) := by
  rw [pendingAt, List.tail_drop]
  split
  next hnext =>
    have hdigits : (Nat.toDigits 10 (column - column % 5)).length ≤ 4 := by
      rw [Nat.length_toDigits_le_iff (by omega) (by omega)]
      omega
    exact List.drop_eq_nil_of_le (by omega)
  next hnext =>
    have hplace : (column + 1) % 5 = column % 5 + 1 := by omega
    rw [pendingAt, hplace, Nat.add_sub_add_right]

theorem axisFrom_eq {left column : Nat} (hfew : column + left ≤ 10000) :
    axisFrom (if column % 5 = 0 then [] else pendingAt column) left column =
      (List.range' column left).map trackMark := by
  induction left generalizing column with
  | zero => rfl
  | succ left ih =>
    -- In a fifth column the number before is written out, so the next one starts.
    have htext (pending : List Char)
        (hpending : pending = if column % 5 = 0 then [] else pendingAt column) :
        (if pending.isEmpty && column % 5 = 0 then Nat.toDigits 10 column else pending) =
          pendingAt column := by
      subst hpending
      by_cases hfifth : column % 5 = 0
      · simp [hfifth, pendingAt]
      · simp [hfifth]
    rw [axisFrom, htext _ rfl, headD_pendingAt, tail_pendingAt (by omega), ih (by omega),
      List.range'_succ, List.map_cons]

/-! ### Lines -/

/-- A row without colors: the number of its place, and a cell for each track. -/
def plainRow (map : SectorMap) (spt place : Nat) : String :=
  Text.padStart 2 (toString place) ++ " "
    ++ String.ofList ((List.range (719 ⌈/⌉ spt)).map fun t => map.shade (t * spt + place + 1))

/-- The numbers below the tracks. -/
def plainAxis (tracks : Nat) : String :=
  "   " ++ String.ofList ((List.range tracks).map trackMark)

theorem row_eq (hspt : 1 ≤ spt) (map : SectorMap) {p : Nat} (hp : p < spt) :
    row (map.trackRows spt) spt p false = map.plainRow spt p := by
  rw [row, rowCells_eq hspt map hp, plainRow, ← join_singleton, List.map_map]
  rfl

theorem axis_eq {tracks : Nat} (hfew : tracks ≤ 10000) : axis tracks = plainAxis tracks := by
  rw [axis, plainAxis, List.range_eq_range', ← axisFrom_eq (by omega)]
  rfl

theorem drawing_eq (hspt : 1 ≤ spt) (map : SectorMap) :
    map.drawing spt false =
      [s!"=== VTOC Map ({map.freeCount} free) ===", "Legend: \u2593 Used \u2591 Free", ""]
        ++ (List.range spt).reverse.map (map.plainRow spt) ++ [plainAxis (719 ⌈/⌉ spt)] := by
  have htracks : 719 ⌈/⌉ spt ≤ 719 := by
    rw [ceilDiv_le_iff_le_mul hspt]
    exact Nat.le_mul_of_pos_left 719 hspt
  have hrows : (List.range spt).reverse.map (row (map.trackRows spt) spt · false) =
      (List.range spt).reverse.map (map.plainRow spt) := by
    refine List.map_congr_left fun p hp => row_eq hspt map ?_
    simpa using hp
  rw [drawing, length_trackRows hspt, axis_eq (by omega), hrows]
  rfl

theorem newline_not_mem_toDigits (n : Nat) : '\n' ∉ Nat.toDigits 10 n := by
  intro hmem
  exact absurd (Nat.isDigit_of_mem_toDigits (by omega) (by omega) hmem) (by decide)

theorem shade_ne_newline (map : SectorMap) (sector : Nat) : map.shade sector ≠ '\n' := by
  unfold shade
  split
  · decide
  · split
    · decide
    · decide

theorem trackMark_ne_newline (track : Nat) : trackMark track ≠ '\n' := by
  rw [trackMark, List.getD_eq_getElem?_getD]
  cases hdigit : (Nat.toDigits 10 (track - track % 5))[track % 5]? with
  | none => decide
  | some c =>
    rintro rfl
    exact newline_not_mem_toDigits _ (List.mem_of_getElem? hdigit)

theorem newline_not_mem_drawing (hspt : 1 ≤ spt) (map : SectorMap) {line : String}
    (hline : line ∈ map.drawing spt false) : '\n' ∉ line.toList := by
  rw [drawing_eq hspt] at hline
  simp only [List.mem_append, List.mem_cons, List.not_mem_nil, or_false, List.mem_map] at hline
  obtain ((rfl | rfl | rfl) | ⟨p, -, rfl⟩) | rfl := hline
  · change '\n' ∉ ("=== VTOC Map (" ++ toString map.freeCount ++ " free) ===").toList
    simp [newline_not_mem_toDigits]
  · decide
  · decide
  · simp [plainRow, Text.padStart, newline_not_mem_toDigits, shade_ne_newline]
  · simp [plainAxis, trackMark_ne_newline]

/-- Counted track by track, every sector from 1 on has one track and one place in it. -/
theorem existsUnique_cell (hspt : 1 ≤ spt) {sector : Nat} (hfirst : 1 ≤ sector)
    (hlast : sector ≤ 719) :
    ∃! cell : Nat × Nat, cell.1 < 719 ⌈/⌉ spt ∧ cell.2 < spt ∧
      cell.1 * spt + cell.2 + 1 = sector := by
  have hplace (t p : Nat) :
      p < spt ∧ t * spt + p + 1 = sector ↔ (t, p) = ((sector - 1) / spt, (sector - 1) % spt) := by
    rw [Prod.mk.injEq, eq_comm (a := t), eq_comm (a := p), Nat.div_mod_unique hspt,
      Nat.mul_comm spt t]
    omega
  have htrack : (sector - 1) / spt < 719 ⌈/⌉ spt := by
    rw [lt_ceilDiv_iff hspt]
    have := Nat.mul_div_le (sector - 1) spt
    omega
  refine ⟨((sector - 1) / spt, (sector - 1) % spt), ⟨htrack, (hplace _ _).2 rfl⟩, ?_⟩
  rintro ⟨t, p⟩ ⟨-, hcell⟩
  exact (hplace t p).1 hcell

/-- **Every sector is drawn once.** A drawing is a title, a legend, an empty line, a row for each
place of a track and the axis. Each sector from 1 to 719 has one cell, which is light exactly if the
sector is free and not reserved; the cells behind the last sector are blank, and the axis ends with
the last track. -/
theorem draws_each_sector_once (hspt : 1 ≤ spt) (map : SectorMap) :
    ∃ lines tracks, map.draw spt false = String.join (lines.map (· ++ "\n")) ∧
      (∀ line ∈ lines, '\n' ∉ line.toList) ∧
      lines =
        [s!"=== VTOC Map ({map.freeCount} free) ===", "Legend: \u2593 Used \u2591 Free", ""]
          ++ (List.range spt).reverse.map (fun p =>
            Text.padStart 2 (toString p) ++ " "
              ++ String.ofList ((List.range tracks).map fun t => map.shade (t * spt + p + 1)))
          ++ ["   " ++ String.ofList ((List.range tracks).map trackMark)] ∧
      tracks = 719 ⌈/⌉ spt ∧
      (∀ sector, map.shade sector = ' ' ↔ 719 < sector) ∧
      (∀ sector, map.shade sector = '\u2591' ↔ sector ≤ 719 ∧ map.isFree sector = true ∧
        ¬(1 ≤ sector ∧ sector ≤ 3) ∧ ¬(360 ≤ sector ∧ sector ≤ 368)) ∧
      (∀ sector, 1 ≤ sector → sector ≤ 719 → ∃! cell : Nat × Nat,
        cell.1 < tracks ∧ cell.2 < spt ∧ cell.1 * spt + cell.2 + 1 = sector) ∧
      (∀ line ∈ lines.getLast?, line.length = 3 + tracks) := by
  refine ⟨map.drawing spt false, 719 ⌈/⌉ spt, rfl, fun _ => newline_not_mem_drawing hspt map,
    drawing_eq hspt map, rfl, fun _ => shade_eq_blank_iff, fun _ => shade_eq_light_iff,
    fun _ => existsUnique_cell hspt, ?_⟩
  intro line hline
  rw [drawing_eq hspt, List.getLast?_append_cons] at hline
  obtain rfl : plainAxis (719 ⌈/⌉ spt) = line := by simpa using hline
  have hgap : "   ".length = 3 := rfl
  simp [plainAxis, hgap]

/-- With 70 sectors a track the last number is cut off, the bit of boot sector 2 is not shown, and
the last track has no twentieth sector. -/
theorem draws_each_sector_once_cut : ∃ lines : List String,
    ((full 128).mark [2, 20, 719] true).draw 70 false = String.join (lines.map (· ++ "\n")) ∧
    lines.length = 74 ∧
    lines[53]? = some "19 \u2591\u2593\u2593\u2593\u2593\u2593\u2593\u2593\u2593\u2593 " ∧
    lines[54]? = some "18 \u2593\u2593\u2593\u2593\u2593\u2593\u2593\u2593\u2593\u2593\u2591" ∧
    lines[71]? = some " 1 \u2593\u2593\u2593\u2593\u2593\u2593\u2593\u2593\u2593\u2593\u2593" ∧
    lines[73]? = some "   0    5    1" := by
  obtain ⟨lines, tracks, hdraw, -, rfl, rfl, -⟩ :=
    draws_each_sector_once (show 1 ≤ 70 by decide) ((full 128).mark [2, 20, 719] true)
  exact ⟨_, hdraw, by decide +kernel⟩

end AtariDisk.SectorMap
