import AtariDisk.Proofs.SectorMap

/-!
# Giving out sectors

`reserve` takes the lowest free sectors off a map and `release` gives sectors back. Both are told by
`freeSectors`: what a request leaves of it is its rest, so that two requests in a row are one
request for the sum, and giving back what was taken restores the map.
-/

namespace AtariDisk.SectorMap

variable {map : SectorMap}

theorem eq_of_isFree {a b : SectorMap} (hraw : a.raw = b.raw) (hlimit : a.limit = b.limit)
    (hfree : ∀ s, a.isFree s = b.isFree s) : a = b := by
  have hbits := free_eq_of_isFree hfree
  cases a
  cases b
  simp only at hraw hlimit hbits
  subst hraw hlimit hbits
  rfl

theorem mark_append (map : SectorMap) (first second : List Nat) (b : Bool) :
    map.mark (first ++ second) b = (map.mark first b).mark second b := by
  unfold mark
  rw [List.foldl_append]

/-- The sectors that stay free when the lowest `n` are taken. -/
theorem freeSectors_mark_take (map : SectorMap) (n : Nat) :
    (map.mark (map.freeSectors.take n) false).freeSectors = map.freeSectors.drop n := by
  have hmark : ∀ s ∈ List.range' 1 (map.limit - 1),
      (map.mark (map.freeSectors.take n) false).isFree s =
        (decide (s ∉ map.freeSectors.take n) && map.isFree s) := by
    intro s hs
    have hlimit := map.limit_le
    have hrange := List.mem_range'_1.1 hs
    rw [isFree_mark]
    by_cases htaken : s ∈ map.freeSectors.take n
    · rw [if_pos ⟨htaken, by omega⟩, decide_eq_false (not_not.2 htaken), Bool.false_and]
    · rw [if_neg fun h => htaken h.1, decide_eq_true htaken, Bool.true_and]
  have hleft : (map.mark (map.freeSectors.take n) false).freeSectors =
      map.freeSectors.filter fun s => decide (s ∉ map.freeSectors.take n) := by
    rw [freeSectors, limit_mark, List.filter_congr hmark, ← List.filter_filter]
    rfl
  have hdisjoint := List.disjoint_take_drop map.freeSectors_nodup (Nat.le_refl n)
  calc (map.mark (map.freeSectors.take n) false).freeSectors
      = (map.freeSectors.take n ++ map.freeSectors.drop n).filter fun s =>
          decide (s ∉ map.freeSectors.take n) := by rw [hleft, List.take_append_drop]
    _ = [] ++ map.freeSectors.drop n := by
      rw [List.filter_append]
      congr 1
      · refine List.filter_eq_nil_iff.2 fun s hs => ?_
        simpa using hs
      · refine List.filter_eq_self.2 fun s hs => decide_eq_true fun htaken => ?_
        exact hdisjoint htaken hs
    _ = map.freeSectors.drop n := List.nil_append _

/-- `order` are the lowest `count` sectors that the map has to give, and `left` is the map without
them. -/
structure Takes (map : SectorMap) (count : Nat) (order : List Nat) (left : SectorMap) : Prop where
  length : order.length = count
  ascending : order.Pairwise (· < ·)
  offered : ∀ s ∈ order, s ∈ map.freeSectors
  inside : ∀ s ∈ order, 1 ≤ s ∧ s < map.limit
  lowest : ∀ s ∈ order, ∀ t ∈ map.freeSectors, t ∉ order → s < t
  isFree : ∀ s < 720, left.isFree s = (map.isFree s && decide (s ∉ order))
  raw : left.raw = map.raw
  limit : left.limit = map.limit

theorem takes_of_reserve {count : Nat} {order : List Nat} {left : SectorMap}
    (hreserve : map.reserve count = .ok order left) : map.Takes count order left := by
  obtain ⟨henough, rfl, rfl⟩ := reserve_eq_ok_iff.1 hreserve
  have hordered := map.freeSectors_ordered
  refine ⟨List.length_take_of_le henough, hordered.sublist (List.take_sublist _ _),
    fun s hs => List.mem_of_mem_take hs, fun s hs => ?_, fun s hs t ht hleft => ?_, fun s hs => ?_,
    rfl, rfl⟩
  · obtain ⟨hfirst, hlast, _⟩ := mem_freeSectors.1 (List.mem_of_mem_take hs)
    exact ⟨hfirst, hlast⟩
  · -- what is left over stands behind all that is taken, in a list that ascends
    rw [← List.take_append_drop count map.freeSectors, List.pairwise_append] at hordered
    rw [← List.take_append_drop count map.freeSectors, List.mem_append] at ht
    exact hordered.2.2 s hs t (ht.resolve_left hleft)
  · rw [isFree_mark]
    by_cases htaken : s ∈ map.freeSectors.take count
    · rw [if_pos ⟨htaken, hs⟩, decide_eq_false (not_not.2 htaken), Bool.and_false]
    · rw [if_neg fun h => htaken h.1, decide_eq_true htaken, Bool.and_true]

theorem release_of_reserve {count : Nat} {order : List Nat} {left : SectorMap}
    (hreserve : map.reserve count = .ok order left) : left.release order = map := by
  obtain ⟨_, rfl, rfl⟩ := reserve_eq_ok_iff.1 hreserve
  refine eq_of_isFree rfl rfl (isFree_release_of_mark (fun _ => rfl) fun s hs => ?_)
  exact (mem_freeSectors.1 (List.mem_of_mem_take hs)).2.2

theorem reserve_add_eq_ok_iff {a b : Nat} {order : List Nat} {left : SectorMap} :
    map.reserve (a + b) = .ok order left ↔
      ∃ first mid second, map.reserve a = .ok first mid ∧ mid.reserve b = .ok second left ∧
        order = first ++ second := by
  -- the second request finds what the first leaves of the free sectors
  have hsecond : ∀ {second : List Nat},
      (map.mark (map.freeSectors.take a) false).reserve b = .ok second left ↔
        b ≤ map.freeCount - a ∧ second = (map.freeSectors.drop a).take b ∧
          left = map.mark (map.freeSectors.take (a + b)) false := by
    intro second
    rw [reserve_eq_ok_iff, freeCount, freeSectors_mark_take, List.length_drop, ← mark_append,
      ← List.take_add]
    rfl
  rw [reserve_eq_ok_iff]
  constructor
  · rintro ⟨henough, rfl, rfl⟩
    exact ⟨_, _, _, reserve_eq_ok_iff.2 ⟨by omega, rfl, rfl⟩, hsecond.2 ⟨by omega, rfl, rfl⟩,
      List.take_add⟩
  · rintro ⟨first, mid, second, hfirst, hrest, rfl⟩
    obtain ⟨henough, rfl, rfl⟩ := reserve_eq_ok_iff.1 hfirst
    obtain ⟨hmore, rfl, rfl⟩ := hsecond.1 hrest
    exact ⟨by omega, List.take_add.symm, rfl⟩

/-- **Sectors are given out lowest first, all that are asked for or none.** Whatever was done to a
map before, a request for `n` sectors is granted exactly if so many are free. It then takes the `n`
lowest of them in ascending order off the map, which is restored when they are given back; otherwise
it is refused with the two numbers, and the map is left as it was. Asking for `a` and then for `b`
sectors is asking for `a + b`: the one is granted exactly if the other is, with the same sectors and
the same map in the end. -/
theorem reserve_lowest_first (map : SectorMap) :
    (∀ n, (∃ order left, map.reserve n = .ok order left) ↔ n ≤ map.freeCount) ∧
      (∀ n, map.freeCount < n →
        map.reserve n = .error (.refused (.notEnoughSpace n map.freeCount)) map) ∧
      (∀ n order left, map.reserve n = .ok order left →
        map.Takes n order left ∧ left.release order = map) ∧
      ∀ a b order left, map.reserve (a + b) = .ok order left ↔
        ∃ first mid second, map.reserve a = .ok first mid ∧
          mid.reserve b = .ok second left ∧ order = first ++ second := by
  refine ⟨fun n => ⟨?_, fun henough => ?_⟩, fun n => reserve_of_lt,
    fun n order left hreserve => ⟨takes_of_reserve hreserve, release_of_reserve hreserve⟩,
    fun a b order left => reserve_add_eq_ok_iff⟩
  · rintro ⟨order, left, hreserve⟩
    exact (reserve_eq_ok_iff.1 hreserve).1
  · exact ⟨_, _, reserve_eq_ok_iff.2 ⟨henough, rfl, rfl⟩⟩

/-- The sectors 0, 5, 6, 7 and 9 are given back to a map without free sectors, of which sector 0
does not exist. -/
def gappy : SectorMap :=
  (full 128).release [0, 5, 6, 7, 9]

theorem freeSectors_gappy : gappy.freeSectors = [5, 6, 7, 9] := by
  have hfree : ∀ s ∈ List.range' 1 719, gappy.isFree s = decide (s ∈ [0, 5, 6, 7, 9]) := by
    intro s hs
    have hlast : s < 720 := by
      have hrange := List.mem_range'_1.1 hs
      omega
    have hfull : (full 128).isFree s = false := by
      rw [isFree_of_lt hlast]
      exact Vector.getElem_replicate hlast
    rw [gappy, isFree_release, hfull]
    simp [hlast]
  calc gappy.freeSectors
      = (List.range' 1 719).filter fun s => decide (s ∈ [0, 5, 6, 7, 9]) := List.filter_congr hfree
    _ = [5, 6, 7, 9] := by decide +kernel

/-- Three sectors are taken and given back, the fourth is taken alone, and a request for ten is
refused and takes none. -/
theorem reserve_lowest_first_gappy :
    ∃ mid left, gappy.reserve 3 = .ok [5, 6, 7] mid ∧ gappy.Takes 3 [5, 6, 7] mid ∧
      mid.release [5, 6, 7] = gappy ∧ mid.reserve 1 = .ok [9] left ∧
      gappy.reserve (3 + 1) = .ok [5, 6, 7, 9] left ∧
      gappy.reserve 10 = .error (.refused (.notEnoughSpace 10 4)) gappy := by
  have hfree := freeSectors_gappy
  have hlaws := reserve_lowest_first gappy
  generalize gappy = map at hfree hlaws ⊢
  obtain ⟨hgranted, hrefused, htaken, hsum⟩ := hlaws
  have hcount : map.freeCount = 4 := congrArg List.length hfree
  obtain ⟨order, left, hall⟩ := (hgranted (3 + 1)).2 (by omega)
  obtain ⟨first, mid, second, hfirst, hsecond, rfl⟩ := (hsum 3 1 order left).1 hall
  have hlow : first = [5, 6, 7] := by
    rw [(reserve_eq_ok_iff.1 hfirst).2.1, hfree]
    rfl
  have hlast : [5, 6, 7] ++ second = [5, 6, 7, 9] := by
    rw [← hlow, (reserve_eq_ok_iff.1 hall).2.1, hfree]
    rfl
  obtain rfl : second = [9] := List.append_cancel_left hlast
  subst hlow
  obtain ⟨htakes, hback⟩ := htaken 3 _ _ hfirst
  exact ⟨mid, left, hfirst, htakes, hback, hsecond, hall, hcount ▸ hrefused 10 (by omega)⟩

end AtariDisk.SectorMap
