import IndexingPipeline.Chunk.Split

/-!
# The windows of a text

A window is cut after the best position of its second half, and of several equally good ones after
the last. A window that starts later is searched further on, so the best position never moves back:
what was left aside in the earlier search was worse, and is so in the later one. Hence the ends of
windows follow their starts, and what lies between the start of a window and the end of the text is
covered by that window and those after it.
-/

namespace IndexingPipeline

theorem lastIn?_eq_some {holds : Nat → Bool} {low high i : Nat}
    (h : lastIn? holds low high = some i) :
    holds i = true ∧ ∀ j, i < j → j < high → holds j = false := by
  induction high with
  | zero => cases h
  | succ high ih =>
    unfold lastIn? at h
    split at h
    · cases h
    · split at h <;> rename_i last
      · obtain rfl := Option.some.inj h
        exact ⟨last, fun j after before => by omega⟩
      · obtain ⟨here, none_after⟩ := ih h
        refine ⟨here, fun j after before => ?_⟩
        by_cases at_last : j = high
        · exact at_last ▸ Bool.eq_false_iff.mpr last
        · exact none_after j after (by omega)

theorem lastIn?_eq_none {holds : Nat → Bool} {low high : Nat}
    (h : lastIn? holds low high = none) : ∀ j, low ≤ j → j < high → holds j = false := by
  induction high with
  | zero => exact fun j _ before => absurd before (Nat.not_lt_zero j)
  | succ high ih =>
    unfold lastIn? at h
    split at h
    · exact fun j after before => by omega
    · split at h <;> rename_i last
      · cases h
      · intro j after before
        by_cases at_last : j = high
        · exact at_last ▸ Bool.eq_false_iff.mpr last
        · exact ih h j after (by omega)

/-- How good it is to cut a text after a position: best where a line is empty, then where a line
ends, then at a space. Elsewhere a text is not cut if it can be helped. -/
def breakRank (text : Array Char) (i : Nat) : Nat :=
  if standsAt text '\n' i then if standsAt text '\n' (i - 1) then 3 else 2
  else if standsAt text ' ' i then 1 else 0

/-- The position of a stretch after which it is best to cut, the last one if there are several. -/
structure IsBest (text : Array Char) (low high i : Nat) : Prop where
  low_le : low ≤ i
  lt_high : i < high
  ranked : 0 < breakRank text i
  best : ∀ j, low ≤ j → j < high →
    breakRank text j < breakRank text i ∨ breakRank text j = breakRank text i ∧ j ≤ i

/-- In a stretch that starts and ends no earlier, the best position is no earlier. -/
theorem IsBest.mono {text : Array Char} {low high low' high' i i' : Nat}
    (h : IsBest text low high i) (h' : IsBest text low' high' i') (lows : low ≤ low')
    (highs : high ≤ high') : i ≤ i' := by
  -- otherwise both positions are in both stretches, and each would be better than the other
  refine Nat.le_of_not_lt fun earlier => ?_
  have := h.lt_high
  have := h'.low_le
  have first := h.best i' (by omega) (by omega)
  have second := h'.best i (by omega) (by omega)
  omega

section Boundary

variable {text : Array Char} {low high i : Nat}

theorem breakRank_le (text : Array Char) (i : Nat) : breakRank text i ≤ 3 := by
  unfold breakRank
  split <;> split <;> omega

theorem three_le_breakRank : (standsAt text '\n' i && standsAt text '\n' (i - 1)) = true ↔
    3 ≤ breakRank text i := by
  unfold breakRank
  cases standsAt text '\n' i <;> cases standsAt text '\n' (i - 1) <;>
    cases standsAt text ' ' i <;> simp

theorem two_le_breakRank : standsAt text '\n' i = true ↔ 2 ≤ breakRank text i := by
  unfold breakRank
  cases standsAt text '\n' i <;> cases standsAt text '\n' (i - 1) <;>
    cases standsAt text ' ' i <;> simp

theorem one_le_breakRank (noLineEnd : breakRank text i ≤ 1) :
    standsAt text ' ' i = true ↔ 1 ≤ breakRank text i := by
  revert noLineEnd
  unfold breakRank
  cases standsAt text '\n' i <;> cases standsAt text '\n' (i - 1) <;>
    cases standsAt text ' ' i <;> simp

/-- The last position of a rank is the best one where there is none of a higher rank. -/
theorem isBest_of_last {holds : Nat → Bool} {rank : Nat}
    (found : lastIn? holds low high = some i) (ranked : 0 < rank)
    (level : ∀ j, breakRank text j ≤ rank → (holds j = true ↔ rank ≤ breakRank text j))
    (top : ∀ j, low ≤ j → j < high → breakRank text j ≤ rank) : IsBest text low high i := by
  obtain ⟨above, below⟩ := le_of_lastIn? found
  obtain ⟨here, after⟩ := lastIn?_eq_some found
  have rank_here := (level i (top i above below)).mp here
  refine ⟨above, below, by omega, fun j inside before => ?_⟩
  have rank_there := top j inside before
  by_cases later : i < j
  · left
    have worse : ¬ rank ≤ breakRank text j := by
      rw [← level j rank_there, after j later before]
      exact Bool.false_ne_true
    omega
  · omega

theorem boundary?_best {stop : Nat} (h : boundary? text low high = some stop) :
    ∃ i, stop = i + 1 ∧ IsBest text (max low 1) high i := by
  unfold boundary? at h
  simp only [Option.map_eq_some_iff, Option.or_eq_some_iff] at h
  obtain ⟨i, found, rfl⟩ := h
  refine ⟨i, rfl, ?_⟩
  rcases found with emptyLine | ⟨noEmptyLine, lineEnd | ⟨noLineEnd, space⟩⟩
  · exact isBest_of_last emptyLine (Nat.succ_pos 2) (fun _ _ => three_le_breakRank)
      fun j _ _ => breakRank_le text j
  · refine isBest_of_last lineEnd (Nat.succ_pos 1) (fun _ _ => two_le_breakRank) ?_
    intro j inside before
    have none_there := lastIn?_eq_none noEmptyLine j inside before
    rw [← Bool.not_eq_true, three_le_breakRank] at none_there
    omega
  · refine isBest_of_last space Nat.one_pos (fun _ low => one_le_breakRank low) ?_
    intro j inside before
    have none_there := lastIn?_eq_none noLineEnd j inside before
    rw [← Bool.not_eq_true, two_le_breakRank] at none_there
    omega

theorem boundary?_eq_none (h : boundary? text low high = none) :
    ∀ j, max low 1 ≤ j → j < high → breakRank text j = 0 := by
  unfold boundary? at h
  simp only [Option.map_eq_none_iff, Option.or_eq_none_iff] at h
  obtain ⟨_, noLineEnd, noSpace⟩ := h
  intro j inside before
  have no_line_end := lastIn?_eq_none noLineEnd j inside before
  have no_space := lastIn?_eq_none noSpace j inside before
  rw [← Bool.not_eq_true, two_le_breakRank] at no_line_end
  rw [← Bool.not_eq_true, one_le_breakRank (by omega)] at no_space
  omega

end Boundary

namespace Window

theorem size_pos (w : Window) : 0 < w.size := by
  unfold size
  omega

theorem shared_lt (w : Window) : w.shared < w.size := by
  have := w.size_pos
  unfold shared
  omega

theorem size_of_valid {w : Window} (valid : w.overlap < w.maxChars) : w.size = w.maxChars := by
  unfold size
  omega

theorem shared_of_valid {w : Window} (valid : w.overlap < w.maxChars) : w.shared = w.overlap := by
  unfold shared
  rw [size_of_valid valid]
  omega

end Window

/-- The ways in which a window comes to its end: with the text, where it is full because it has no
place to be cut at in its second half, or behind the best of them. -/
inductive IsCut (text : Array Char) (w : Window) (start : Nat) : Nat → Prop
  | last : text.size ≤ start + w.size → IsCut text w start text.size
  | full : start + w.size < text.size →
      (∀ j, max (start + w.size / 2) 1 ≤ j → j < start + w.size → breakRank text j = 0) →
      IsCut text w start (start + w.size)
  | best (i : Nat) : start + w.size < text.size →
      IsBest text (max (start + w.size / 2) 1) (start + w.size) i → IsCut text w start (i + 1)

theorem cut_isCut (text : Array Char) (w : Window) (start : Nat) :
    IsCut text w start (cut text w start) := by
  unfold cut
  simp only
  split <;> rename_i inside
  · cases found : boundary? text (start + w.size / 2) (start + w.size) with
    | none => exact .full inside (boundary?_eq_none found)
    | some stop =>
      obtain ⟨i, rfl, best⟩ := boundary?_best found
      exact .best i inside best
  · exact .last (Nat.le_of_not_lt inside)

namespace IsCut

variable {text : Array Char} {w : Window} {start start' stop stop' : Nat}

theorem le_size (h : IsCut text w start stop) : stop ≤ text.size := by
  cases h with
  | last => exact Nat.le_refl _
  | full inside => omega
  | best i inside best =>
    have := best.lt_high
    omega

theorem le_full (h : IsCut text w start stop) : stop ≤ start + w.size := by
  cases h with
  | last atEnd => exact atEnd
  | full => exact Nat.le_refl _
  | best i _ best => exact best.lt_high

theorem mono (h : IsCut text w start stop) (h' : IsCut text w start' stop')
    (later : start ≤ start') : stop ≤ stop' := by
  cases h' with
  | last => exact h.le_size
  | full => exact Nat.le_trans h.le_full (Nat.add_le_add_right later _)
  | best i' inside best' =>
    have := best'.low_le
    cases h with
    | last atEnd => omega
    | full _ unranked =>
      -- a place that the earlier window had within its reach would have been found there
      refine Nat.le_of_not_lt fun back => ?_
      have := best'.ranked
      have := unranked i' (by omega) (by omega)
      omega
    | best i _ best => exact Nat.succ_le_succ (best.mono best' (by omega) (by omega))

end IsCut

section Course

variable {text : Array Char} {w : Window} {start stop : Nat}

/-- The next window starts where this one ends, when it is too short to be shared in part. -/
theorem nextStart_of_short (short : stop ≤ start + w.shared) : nextStart w start stop = stop := by
  rw [nextStart, if_neg (by omega)]

theorem nextStart_of_long (long : start + w.shared < stop) :
    nextStart w start stop = stop - w.shared := by
  rw [nextStart, if_pos (by omega)]

/-- The next window starts where this one ends, or further back by no more than is shared. -/
theorem nextStart_within (w : Window) (start stop : Nat) :
    nextStart w start stop ≤ stop ∧ stop ≤ nextStart w start stop + w.shared := by
  by_cases short : stop ≤ start + w.shared
  · rw [nextStart_of_short short]
    omega
  · rw [nextStart_of_long (Nat.lt_of_not_le short)]
    omega

theorem windows_last (inside : start < text.size) (last : text.size ≤ cut text w start) :
    windows text w start = [(start, cut text w start)] := by
  rw [windows, dif_pos inside]
  exact if_pos last

theorem windows_going (inside : start < text.size) (going : ¬ text.size ≤ cut text w start) :
    windows text w start =
      (start, cut text w start) ::
        windows text w (nextStart w start (cut text w start)) := by
  rw [windows, dif_pos inside]
  exact if_neg going

/-- A window of the text from `start` on ends where it is cut. -/
theorem mem_windows {window : Nat × Nat} (member : window ∈ windows text w start) :
    start ≤ window.1 ∧ window.1 < text.size ∧ window.2 = cut text w window.1 := by
  induction start using windows.induct text w with
  | case1 start inside _ last =>
    rw [windows_last inside last, List.mem_singleton] at member
    subst member
    exact ⟨Nat.le_refl _, inside, rfl⟩
  | case2 start inside _ going ih =>
    rw [windows_going inside going] at member
    rcases List.mem_cons.mp member with rfl | later
    · exact ⟨Nat.le_refl _, inside, rfl⟩
    · have on := lt_nextStart (w := w) (lt_cut (w := w) inside)
      obtain ⟨after, rest⟩ := ih later
      exact ⟨Nat.le_trans (Nat.le_of_lt on) after, rest⟩
  | case3 start outside =>
    rw [windows, dif_neg outside] at member
    cases member

theorem windows_stop {window : Nat × Nat} (member : window ∈ windows text w start) :
    window.2 ≤ text.size ∧ window.2 ≤ window.1 + w.size := by
  obtain ⟨_, _, ends⟩ := mem_windows member
  have cuts := cut_isCut text w window.1
  rw [← ends] at cuts
  exact ⟨cuts.le_size, cuts.le_full⟩

/-- Windows do not start before the place where the one before them says that the next starts. -/
theorem windows_pairwise (text : Array Char) (w : Window) (start : Nat) :
    (windows text w start).Pairwise fun p q => nextStart w p.1 p.2 ≤ q.1 := by
  induction start using windows.induct text w with
  | case1 start inside _ last =>
    rw [windows_last inside last]
    exact List.pairwise_singleton _ _
  | case2 start inside _ going ih =>
    rw [windows_going inside going]
    exact List.pairwise_cons.mpr ⟨fun q later => (mem_windows later).1, ih⟩
  | case3 start outside =>
    rw [windows, dif_neg outside]
    exact List.Pairwise.nil

/-- A window that is not the first is smaller than the text. -/
theorem windows_small {window : Nat × Nat} (member : window ∈ windows text w start) :
    window.1 = start ∨ w.size < text.size := by
  induction start using windows.induct text w with
  | case1 start inside _ last =>
    rw [windows_last inside last, List.mem_singleton] at member
    exact .inl (congrArg Prod.fst member)
  | case2 start inside _ going ih =>
    rw [windows_going inside going] at member
    rcases List.mem_cons.mp member with rfl | later
    · exact .inl rfl
    · right
      have going : ¬ text.size ≤ cut text w start := going
      have ends := cut_isCut text w start
      generalize cut text w start = stop at going ends
      cases ends with
      | last => exact absurd (Nat.le_refl _) going
      | full inside => omega
      | best _ inside => omega
  | case3 start outside =>
    rw [windows, dif_neg outside] at member
    cases member

theorem windows_cover {i : Nat} (after : start ≤ i) (within : i < text.size) :
    ∃ window ∈ windows text w start, window.1 ≤ i ∧ i < window.2 := by
  induction start using windows.induct text w with
  | case1 start inside _ last =>
    rw [windows_last inside last]
    exact ⟨_, List.mem_singleton_self _, after, Nat.lt_of_lt_of_le within last⟩
  | case2 start inside _ going ih =>
    rw [windows_going inside going]
    by_cases here : i < cut text w start
    · exact ⟨_, List.mem_cons_self, after, here⟩
    · have back := (nextStart_within w start (cut text w start)).1
      obtain ⟨window, later, covers⟩ := ih (Nat.le_trans back (Nat.le_of_not_lt here))
      exact ⟨window, List.mem_cons_of_mem _ later, covers⟩
  | case3 start outside => omega

/-- A stretch that is no longer than what windows share is within one of them, or across the end of
one that is no longer than that itself. -/
theorem windows_hold {a b : Nat} (after : start ≤ a) (order : a < b) (within : b ≤ text.size)
    (short : b ≤ a + w.shared) :
    (∃ window ∈ windows text w start, window.1 ≤ a ∧ b ≤ window.2) ∨
      ∃ window ∈ windows text w start,
        window.2 ≤ window.1 + w.shared ∧ a < window.2 ∧ window.2 < b := by
  induction start using windows.induct text w with
  | case1 start inside _ last =>
    rw [windows_last inside last]
    exact .inl ⟨_, List.mem_singleton_self _, after, Nat.le_trans within last⟩
  | case2 start inside stop going ih =>
    rw [windows_going inside going]
    by_cases here : b ≤ stop
    · exact .inl ⟨_, List.mem_cons_self, after, here⟩
    · by_cases next : nextStart w start stop ≤ a
      · rcases ih next with ⟨window, later, holds⟩ | ⟨window, later, across⟩
        · exact .inl ⟨window, List.mem_cons_of_mem _ later, holds⟩
        · exact .inr ⟨window, List.mem_cons_of_mem _ later, across⟩
      · -- the next window would start early enough if it shared anything with this one
        have isShort : stop ≤ start + w.shared := by
          refine Nat.le_of_not_lt fun long => next ?_
          rw [nextStart_of_long long]
          omega
        rw [nextStart_of_short isShort] at next
        exact .inr ⟨_, List.mem_cons_self, isShort, by omega, by omega⟩
  | case3 start outside => omega

/-- Of two windows the one that starts later starts where the other says that the next may start, or
further on. -/
theorem windows_next {p q : Nat × Nat} (memberP : p ∈ windows text w start)
    (memberQ : q ∈ windows text w start) (later : p.1 < q.1) : nextStart w p.1 p.2 ≤ q.1 := by
  have pairwise := List.pairwise_iff_getElem.mp (windows_pairwise text w start)
  obtain ⟨i, inP, rfl⟩ := List.mem_iff_getElem.mp memberP
  obtain ⟨j, inQ, rfl⟩ := List.mem_iff_getElem.mp memberQ
  by_cases order : i < j
  · exact pairwise i j inP inQ order
  · by_cases back : j < i
    · obtain ⟨_, inside, ends⟩ := mem_windows memberQ
      have on := lt_nextStart (w := w) (lt_cut (w := w) inside)
      rw [← ends] at on
      have := pairwise j i inQ inP back
      omega
    · obtain rfl : i = j := by omega
      omega

/-- Windows start one after another, and none ends before one that starts earlier. -/
theorem windows_sorted (text : Array Char) (w : Window) (start : Nat) :
    (windows text w start).Pairwise fun p q => p.1 < q.1 ∧ p.2 ≤ q.2 := by
  refine (windows_pairwise text w start).imp_of_mem fun {p q} memberP memberQ next => ?_
  obtain ⟨_, inside, cutP⟩ := mem_windows memberP
  obtain ⟨_, _, cutQ⟩ := mem_windows memberQ
  have on := lt_nextStart (w := w) (lt_cut (w := w) inside)
  rw [← cutP] at on
  have later : p.1 < q.1 := Nat.lt_of_lt_of_le on next
  refine ⟨later, ?_⟩
  rw [cutP, cutQ]
  exact (cut_isCut text w p.1).mono (cut_isCut text w q.1) (Nat.le_of_lt later)

/-- Windows that share at most half of themselves are longer than what they share, wherever they are
cut; only the one that ends with the text may be shorter. -/
theorem windows_long (half : 2 * w.shared ≤ w.size) {window : Nat × Nat}
    (member : window ∈ windows text w start) :
    window.2 = text.size ∨ window.1 + w.shared < window.2 := by
  obtain ⟨_, _, ends⟩ := mem_windows member
  have cuts := cut_isCut text w window.1
  rw [← ends] at cuts
  generalize window.2 = stop at cuts
  cases cuts with
  | last => exact .inl rfl
  | full => exact .inr (Nat.add_lt_add_left w.shared_lt _)
  | best i _ best =>
    have := best.low_le
    omega

/-- What lies across the end of a window that is too short to be shared is within no window. -/
theorem windows_part {a b : Nat} {window : Nat × Nat} (member : window ∈ windows text w start)
    (short : window.2 ≤ window.1 + w.shared) (before : a < window.2) (behind : window.2 < b)
    {other : Nat × Nat} (member' : other ∈ windows text w start) :
    ¬ (other.1 ≤ a ∧ b ≤ other.2) := by
  rintro ⟨starts, ends⟩
  obtain ⟨_, _, cutHere⟩ := mem_windows member
  obtain ⟨_, _, cutThere⟩ := mem_windows member'
  by_cases later : window.1 < other.1
  · have next := windows_next member member' later
    rw [nextStart_of_short short] at next
    omega
  · have := (cut_isCut text w other.1).mono (cut_isCut text w window.1) (Nat.le_of_not_lt later)
    omega

end Course

end IndexingPipeline
