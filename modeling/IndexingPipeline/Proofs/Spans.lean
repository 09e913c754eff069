import IndexingPipeline.Proofs.Windows

/-!
# The spans of a text

A span is what is left of a window when the blanks at its ends are taken off, so every character
that is not blank is in some span, and the spans stand in the order of their windows. A stretch of
the text is within a span when it is within a window. The windows share enough for any stretch that
is no longer than their overlap, but where a window is no longer than that itself: the next one
starts only where it ends.
-/

namespace IndexingPipeline

/-- Whether a character that is not blank stands at a position. -/
def isInked (chars : List Char) (i : Nat) : Bool := chars[i]?.any fun c => !Text.isBlank c

theorem lt_of_isInked {chars : List Char} {i : Nat} (inked : isInked chars i = true) :
    i < chars.length := by
  refine Nat.lt_of_not_le fun outside => ?_
  unfold isInked at inked
  rw [List.getElem?_eq_none outside] at inked
  cases inked

namespace Text

theorem blank_of_takeWhile {s : List Char} : ∀ c ∈ s.takeWhile isBlank, isBlank c = true :=
  List.all_eq_true.mp List.all_takeWhile

theorem head?_trimStart {s : List Char} {c : Char} (h : (trimStart s).head? = some c) :
    isBlank c = false := by
  have first := List.head?_dropWhile_not isBlank s
  unfold trimStart at h
  rw [h] at first
  exact first

theorem trimEnd_append (s : List Char) :
    trimEnd s ++ (s.reverse.takeWhile isBlank).reverse = s := by
  unfold trimEnd
  rw [← List.reverse_append, List.takeWhile_append_dropWhile, List.reverse_reverse]

theorem getLast?_trimEnd {s : List Char} {c : Char} (h : (trimEnd s).getLast? = some c) :
    isBlank c = false := by
  unfold trimEnd at h
  rw [List.getLast?_reverse] at h
  exact head?_trimStart h

/-- What is cut off the end is no part of the beginning. -/
theorem head?_trimEnd {s : List Char} {c : Char} (h : (trimEnd s).head? = some c) :
    s.head? = some c := by
  rw [← trimEnd_append s, List.head?_append, h]
  rfl

/-- Blanks are taken off both ends of a text, and nothing else is. -/
theorem trim_cases (part : List Char) :
    ∃ front back, part = front ++ (trimEnd (trimStart part) ++ back) ∧
      part.length - (trimStart part).length = front.length ∧
      (∀ c ∈ front, isBlank c = true) ∧ ∀ c ∈ back, isBlank c = true := by
  refine ⟨part.takeWhile isBlank, ((trimStart part).reverse.takeWhile isBlank).reverse, ?_, ?_,
    blank_of_takeWhile, ?_⟩
  · rw [trimEnd_append]
    exact List.takeWhile_append_dropWhile.symm
  · have lengths := congrArg List.length
      (List.takeWhile_append_dropWhile (p := isBlank) (l := part))
    rw [List.length_append] at lengths
    unfold trimStart
    omega
  · intro c member
    exact blank_of_takeWhile c (List.mem_reverse.mp member)

/-- Between two parts that are blank stands every character that is not. -/
theorem inside_of_inked {front core back : List Char} (blankFront : ∀ c ∈ front, isBlank c = true)
    (blankBack : ∀ c ∈ back, isBlank c = true) {k : Nat} {c : Char}
    (stands : (front ++ (core ++ back))[k]? = some c) (inked : isBlank c = false) :
    front.length ≤ k ∧ k < front.length + core.length := by
  constructor
  · refine Nat.le_of_not_lt fun early => ?_
    rw [List.getElem?_append_left early] at stands
    rw [blankFront c (List.mem_of_getElem? stands)] at inked
    cases inked
  · refine Nat.lt_of_not_le fun late => ?_
    rw [List.getElem?_append_right (by omega), List.getElem?_append_right (by omega)] at stands
    rw [blankBack c (List.mem_of_getElem? stands)] at inked
    cases inked

end Text

/-- What is left of a window of a text when the blanks at its ends are taken off. -/
structure Span.Trims (chars : List Char) (window : Nat × Nat) (s : Span) : Prop where
  start_le : window.1 ≤ s.start
  nonempty : s.start < s.stop
  le_stop : s.stop ≤ window.2
  text : s.text = (chars.drop s.start).take (s.stop - s.start)
  first : isInked chars s.start = true
  last : isInked chars (s.stop - 1) = true
  all : ∀ i, window.1 ≤ i → i < window.2 → isInked chars i = true → s.start ≤ i ∧ i < s.stop

section Window

variable {chars : List Char} {window : Nat × Nat}

/-- What stands in a window, between two parts that are blank. -/
theorem spanIn?_parts (chars : List Char) (window : Nat × Nat) :
    ∃ front core back, (chars.drop window.1).take (window.2 - window.1) = front ++ (core ++ back) ∧
      (∀ c ∈ front, Text.isBlank c = true) ∧ (∀ c ∈ back, Text.isBlank c = true) ∧
      (∀ c, core.head? = some c → Text.isBlank c = false) ∧
      (∀ c, core.getLast? = some c → Text.isBlank c = false) ∧
      spanIn? chars.toArray window = if core.isEmpty then none else
        some ⟨window.1 + front.length, window.1 + front.length + core.length, core⟩ := by
  have same : (chars.toArray.extract window.1 window.2).toList =
      (chars.drop window.1).take (window.2 - window.1) := by
    rw [Array.toList_extract, List.extract_eq_take_drop]
  obtain ⟨front, back, whole, length, blankFront, blankBack⟩ :=
    Text.trim_cases ((chars.drop window.1).take (window.2 - window.1))
  refine ⟨front, _, back, whole, blankFront, blankBack, ?_, ?_, ?_⟩
  · exact fun c h => Text.head?_trimStart (Text.head?_trimEnd h)
  · exact fun c h => Text.getLast?_trimEnd h
  · unfold spanIn?
    simp only [same, length]

theorem isInked_part {part : List Char}
    (same : (chars.drop window.1).take (window.2 - window.1) = part) {i : Nat}
    (after : window.1 ≤ i) (before : i < window.2) :
    isInked chars i = part[i - window.1]?.any fun c => !Text.isBlank c := by
  unfold isInked
  rw [← same, List.getElem?_take_of_lt (by omega), List.getElem?_drop,
    Nat.add_sub_of_le after]

theorem spanIn?_none (h : spanIn? chars.toArray window = none) {i : Nat}
    (after : window.1 ≤ i) (before : i < window.2) : isInked chars i = false := by
  obtain ⟨front, core, back, whole, blankFront, blankBack, _, _, span⟩ := spanIn?_parts chars window
  rw [h] at span
  cases core with
  | cons c rest => cases span
  | nil =>
    rw [isInked_part whole after before, Option.any_eq_false]
    intro c stands
    rcases List.mem_append.mp (List.mem_of_getElem? stands) with inFront | inBack
    · simp [blankFront c inFront]
    · simp [blankBack c inBack]

theorem spanIn?_some (within : window.2 ≤ chars.length) {s : Span}
    (h : spanIn? chars.toArray window = some s) : s.Trims chars window := by
  obtain ⟨front, core, back, whole, blankFront, blankBack, first, last, span⟩ :=
    spanIn?_parts chars window
  have ink := @isInked_part chars window _ whole
  have lengths := congrArg List.length whole
  simp only [List.length_take, List.length_drop, List.length_append] at lengths
  rw [h] at span
  cases core with
  | nil => cases span
  | cons c rest =>
    obtain rfl := Option.some.inj span
    simp only [List.length_cons] at lengths ⊢
    constructor
    · exact Nat.le_add_right _ _
    · simp only
      omega
    · simp only
      omega
    · have cut := congrArg (fun part => (part.drop front.length).take (rest.length + 1)) whole
      have fits : min (rest.length + 1) (window.2 - window.1 - front.length) = rest.length + 1 := by
        omega
      simp only [List.drop_take, List.drop_drop, List.drop_left, List.take_take, fits] at cut
      simp only [Nat.add_sub_cancel_left, cut]
      exact (List.take_left' rfl).symm
    · rw [ink (by simp only; omega) (by simp only; omega)]
      simp [first c rfl]
    · rw [ink (by simp only; omega) (by simp only; omega)]
      have place : window.1 + front.length + (rest.length + 1) - 1 - window.1 =
          front.length + rest.length := by omega
      have stands : (front ++ (c :: rest ++ back))[front.length + rest.length]? =
          (c :: rest).getLast? := by
        rw [List.getElem?_append_right (by omega), Nat.add_sub_cancel_left,
          List.getElem?_append_left (by simp), List.getLast?_eq_getElem?]
        rfl
      have ends := List.getLast?_eq_some_getLast (List.cons_ne_nil c rest)
      simp only [place, stands, ends, Option.any_some, last _ ends, Bool.not_false]
    · intro i after before inked
      rw [ink after before] at inked
      obtain ⟨d, stands, inkedHere⟩ := (Option.any_eq_true _ _).mp inked
      have inside := Text.inside_of_inked blankFront blankBack stands (by simpa using inkedHere)
      simp only [List.length_cons] at inside ⊢
      omega

end Window

/-- The spans of two windows stand in the order of the windows. -/
theorem Span.Trims.sorted {chars : List Char} {p q : Nat × Nat} {s t : Span}
    (hs : s.Trims chars p) (ht : t.Trims chars q) (starts : p.1 ≤ q.1) (stops : p.2 ≤ q.2) :
    s.start ≤ t.start ∧ s.stop ≤ t.stop := by
  have := hs.start_le
  have := hs.nonempty
  have := hs.le_stop
  have := ht.start_le
  have := ht.nonempty
  have := ht.le_stop
  constructor
  · -- the first character of the later span is in the earlier window, or behind it
    by_cases within : t.start < p.2
    · exact (hs.all t.start (by omega) within ht.first).1
    · omega
  · by_cases within : q.1 ≤ s.stop - 1
    · have := (ht.all (s.stop - 1) within (by omega) hs.last).2
      omega
    · omega

section Split

variable {text : String} {w : Window}

theorem mem_split {s : Span} (member : s ∈ split text w) :
    ∃ window ∈ windows text.toList.toArray w 0, s.Trims text.toList window := by
  obtain ⟨window, inside, span⟩ := List.mem_filterMap.mp member
  exact ⟨window, inside, spanIn?_some (windows_stop inside).1 span⟩

/-- A stretch that starts and ends with a character that is not blank is within a span when it is
within a window. -/
theorem within_split_iff {a b : Nat} (order : a < b) (first : isInked text.toList a = true)
    (last : isInked text.toList (b - 1) = true) :
    (∃ s ∈ split text w, s.start ≤ a ∧ b ≤ s.stop) ↔
      ∃ window ∈ windows text.toList.toArray w 0, window.1 ≤ a ∧ b ≤ window.2 := by
  constructor
  · rintro ⟨s, member, starts, ends⟩
    obtain ⟨window, inside, trims⟩ := mem_split member
    exact ⟨window, inside, Nat.le_trans trims.start_le starts, Nat.le_trans ends trims.le_stop⟩
  · rintro ⟨window, inside, starts, ends⟩
    have within : window.2 ≤ text.toList.length := (windows_stop inside).1
    cases span : spanIn? text.toList.toArray window with
    | none =>
      rw [spanIn?_none span starts (by omega)] at first
      cases first
    | some s =>
      have trims := spanIn?_some within span
      have atFirst := trims.all a starts (by omega) first
      have atLast := trims.all (b - 1) (by omega) (by omega) last
      exact ⟨s, List.mem_filterMap.mpr ⟨window, inside, span⟩, atFirst.1, by omega⟩

end Split

/-! ## Looking only at positions of the text

The same search, which comes to nothing as soon as it looks at a position that is not there. -/

section Within

/-- The last position from `low` on and below `high` at which something holds. -/
def lastWithin? (holds : Nat → Option Bool) (low : Nat) : Nat → Option (Option Nat)
  | 0 => some none
  | high + 1 =>
    if high < low then some none
    else (holds high).bind fun found =>
      if found then some (some high) else lastWithin? holds low high

def standsWithin? (text : Array Char) (c : Char) (i : Nat) : Option Bool := text[i]?.map (· == c)

def emptyLineWithin? (text : Array Char) (i : Nat) : Option Bool :=
  (standsWithin? text '\n' i).bind fun here =>
    if !here then some false else if i = 0 then none else standsWithin? text '\n' (i - 1)

def boundaryWithin? (text : Array Char) (low high : Nat) : Option (Option Nat) := do
  let low := max low 1
  let emptyLine ← lastWithin? (emptyLineWithin? text) low high
  if emptyLine.isSome then return emptyLine.map (· + 1)
  let lineEnd ← lastWithin? (standsWithin? text '\n') low high
  if lineEnd.isSome then return lineEnd.map (· + 1)
  let space ← lastWithin? (standsWithin? text ' ') low high
  return space.map (· + 1)

def cutWithin? (text : Array Char) (w : Window) (start : Nat) : Option Nat :=
  let full := start + w.size
  if full < text.size then (boundaryWithin? text (start + w.size / 2) full).map (·.getD full)
  else some text.size

def spanWithin? (text : Array Char) (window : Nat × Nat) : Option (Option Span) :=
  if window.1 ≤ window.2 ∧ window.2 ≤ text.size then some (spanIn? text window) else none

variable {text : Array Char} {w : Window} {start low high : Nat}

theorem lastWithin?_eq {seen : Nat → Option Bool} {holds : Nat → Bool}
    (sees : ∀ i, low ≤ i → i < high → seen i = some (holds i)) :
    lastWithin? seen low high = some (lastIn? holds low high) := by
  induction high with
  | zero => rfl
  | succ high ih =>
    unfold lastWithin? lastIn?
    split
    · rfl
    · rw [sees high (by omega) (by omega), Option.bind_some,
        ih fun i above below => sees i above (by omega)]
      split <;> rfl

theorem standsWithin?_eq {i : Nat} (inside : i < text.size) (c : Char) :
    standsWithin? text c i = some (standsAt text c i) := by
  unfold standsWithin? standsAt
  rw [Array.getElem?_eq_getElem inside]
  rfl

theorem emptyLineWithin?_eq {i : Nat} (pos : 1 ≤ i) (inside : i < text.size) :
    emptyLineWithin? text i = some (standsAt text '\n' i && standsAt text '\n' (i - 1)) := by
  unfold emptyLineWithin?
  rw [standsWithin?_eq inside, standsWithin?_eq (by omega), Option.bind_some,
    if_neg (show ¬ i = 0 by omega)]
  cases standsAt text '\n' i <;> rfl

theorem boundaryWithin?_eq (inside : high < text.size) :
    boundaryWithin? text low high = some (boundary? text low high) := by
  unfold boundaryWithin? boundary?
  simp only
  rw [lastWithin?_eq fun i above below => emptyLineWithin?_eq (by omega) (by omega),
    lastWithin?_eq fun i _ below => standsWithin?_eq (by omega) '\n',
    lastWithin?_eq fun i _ below => standsWithin?_eq (by omega) ' ']
  cases lastIn? (fun i => standsAt text '\n' i && standsAt text '\n' (i - 1)) (max low 1) high with
  | some i => rfl
  | none => cases lastIn? (standsAt text '\n') (max low 1) high <;> rfl

theorem cutWithin?_eq (text : Array Char) (w : Window) (start : Nat) :
    cutWithin? text w start = some (cut text w start) := by
  unfold cutWithin? cut
  simp only
  split
  · rename_i inside
    rw [boundaryWithin?_eq inside]
    rfl
  · rfl

/-- The spans from `start` on, as long as every index is within the text. -/
def spansWithin? (text : Array Char) (w : Window) (start : Nat) : Option (List Span) :=
  if _ : start < text.size then
    match _ : cutWithin? text w start with
    | none => none
    | some stop =>
      (spanWithin? text (start, stop)).bind fun span =>
        if text.size ≤ stop then some span.toList
        else (spansWithin? text w (nextStart w start stop)).map (span.toList ++ ·)
  else some []
termination_by text.size - start
decreasing_by
  have cuts := (cutWithin?_eq text w start).symm.trans ‹cutWithin? text w start = some stop›
  have := lt_nextStart (w := w) (Option.some.inj cuts ▸ lt_cut (w := w) ‹start < text.size›)
  omega

theorem spansWithin?_step (inside : start < text.size) :
    spansWithin? text w start =
      if text.size ≤ cut text w start then some (spanIn? text (start, cut text w start)).toList
      else (spansWithin? text w (nextStart w start (cut text w start))).map
        ((spanIn? text (start, cut text w start)).toList ++ ·) := by
  have span : spanWithin? text (start, cut text w start) =
      some (spanIn? text (start, cut text w start)) :=
    if_pos ⟨Nat.le_of_lt (lt_cut inside), (cut_isCut text w start).le_size⟩
  rw [spansWithin?, dif_pos inside]
  split <;> rename_i found <;> rw [cutWithin?_eq] at found
  · cases found
  · obtain rfl := Option.some.inj found
    rw [span, Option.bind_some]

/-- Splitting looks at no position that the text does not have. -/
theorem spansWithin?_eq (text : Array Char) (w : Window) (start : Nat) :
    spansWithin? text w start = some ((windows text w start).filterMap (spanIn? text)) := by
  induction start using windows.induct text w with
  | case1 start inside _ last =>
    rw [windows_last inside last, spansWithin?_step inside, if_pos last, List.filterMap_cons,
      List.filterMap_nil]
    cases spanIn? text (start, cut text w start) <;> rfl
  | case2 start inside _ going ih =>
    rw [windows_going inside going, spansWithin?_step inside, if_neg going, ih,
      List.filterMap_cons, Option.map_some]
    cases spanIn? text (start, cut text w start) <;> rfl
  | case3 start outside =>
    rw [windows, dif_neg outside, spansWithin?, dif_neg outside]
    rfl

end Within

/-- For every text and window, also one of no characters or one whose overlap is as large as itself:
splitting looks only at positions of the text, and a window that does not start where the text does
is smaller than the text. Each span is what stands from its start to its stop, has at least one
character and no more than fit into a window, and starts and stops with one that is not blank.
Neither starts nor stops ever go back from a span to those after it, and every character that is
not blank is in some span. -/
theorem split_lossless (text : String) (w : Window) :
    let chars := text.toList
    let spans := split text w
    spansWithin? chars.toArray w 0 = some spans ∧
    (∀ window ∈ windows chars.toArray w 0, window.1 = 0 ∨ w.size < chars.length) ∧
    (∀ s ∈ spans, s.text = (chars.drop s.start).take (s.stop - s.start) ∧
      s.start < s.stop ∧ s.stop ≤ chars.length ∧ s.stop - s.start ≤ max w.maxChars 1 ∧
      isInked chars s.start = true ∧ isInked chars (s.stop - 1) = true) ∧
    spans.Pairwise (fun s t => s.start ≤ t.start ∧ s.stop ≤ t.stop) ∧
    ∀ i, isInked chars i = true → ∃ s ∈ spans, s.start ≤ i ∧ i < s.stop := by
  intro chars spans
  refine ⟨spansWithin?_eq chars.toArray w 0, fun _ => windows_small, ?_, ?_, ?_⟩
  · intro s member
    obtain ⟨window, inside, trims⟩ := mem_split member
    obtain ⟨within, full⟩ := windows_stop inside
    have starts := trims.start_le
    have stops := trims.le_stop
    have size : s.stop - s.start ≤ w.size := by omega
    exact ⟨trims.text, trims.nonempty, Nat.le_trans stops within, size, trims.first, trims.last⟩
  · refine List.pairwise_filterMap.mpr ?_
    refine (windows_sorted chars.toArray w 0).imp_of_mem fun {p q} inP inQ sorted => ?_
    intro s spanP t spanQ
    have trimsP := spanIn?_some (windows_stop inP).1 spanP
    have trimsQ := spanIn?_some (windows_stop inQ).1 spanQ
    exact trimsP.sorted trimsQ (Nat.le_of_lt sorted.1) sorted.2
  · intro i inked
    have within : i < chars.toArray.size := lt_of_isInked inked
    obtain ⟨window, member, covers⟩ := windows_cover (w := w) (Nat.zero_le i) within
    exact (within_split_iff (Nat.lt_succ_self i) inked inked).mpr ⟨window, member, covers⟩

-- a window of blanks leaves no span
example : (split "ab      cd" ⟨3, 0⟩).map (fun s => (s.start, s.stop)) = [(0, 2), (8, 10)] := by
  decide +kernel

/-- With an overlap that is smaller than a window, as settings demand: a stretch of a text that is
no longer than the overlap, and starts and ends with a character that is not blank, is within a span
just when no window ends in the midst of it that is itself no longer than the overlap. There is no
such window when the overlap is at most half a window. -/
theorem overlap_kept (text : String) (w : Window) (valid : w.overlap < w.maxChars) (a b : Nat)
    (order : a < b) (short : b - a ≤ w.overlap) (first : isInked text.toList a = true)
    (last : isInked text.toList (b - 1) = true) :
    ((∃ s ∈ split text w, s.start ≤ a ∧ b ≤ s.stop) ↔
      ∀ window ∈ windows text.toList.toArray w 0, a < window.2 → window.2 < b →
        window.1 + w.overlap < window.2) ∧
    (2 * w.overlap ≤ w.maxChars → ∃ s ∈ split text w, s.start ≤ a ∧ b ≤ s.stop) := by
  have shared : w.shared = w.overlap := Window.shared_of_valid valid
  have within : b ≤ text.toList.toArray.size := by
    have : b - 1 < text.toList.toArray.size := lt_of_isInked last
    omega
  have held : (∃ s ∈ split text w, s.start ≤ a ∧ b ≤ s.stop) ↔
      ∀ window ∈ windows text.toList.toArray w 0, a < window.2 → window.2 < b →
        window.1 + w.overlap < window.2 := by
    rw [within_split_iff order first last]
    constructor
    · rintro ⟨holder, inside, holds⟩ window member before behind
      refine Nat.lt_of_not_le fun isShort => ?_
      exact windows_part member (shared ▸ isShort) before behind inside holds
    · intro long
      rcases windows_hold (w := w) (Nat.zero_le a) order within (by omega) with
        holds | ⟨window, member, isShort, before, behind⟩
      · exact holds
      · have := long window member before behind
        omega
  refine ⟨held, fun half => held.mpr fun window member before behind => ?_⟩
  have size : w.size = w.maxChars := by
    unfold Window.size
    omega
  rcases windows_long (by omega) member with atEnd | long
  · omega
  · exact shared ▸ long

/-- With an overlap of half a window nothing so short is cut apart: the first window is cut at the
second space, and what lies across that cut is within the next one. -/
theorem overlap_kept_sample :
    let text := "one two three four"
    let w : Window := ⟨10, 5⟩
    w.overlap < w.maxChars ∧ 9 - 4 ≤ w.overlap ∧ isInked text.toList 4 = true ∧
      isInked text.toList 8 = true ∧ ∃ s ∈ split text w, s.start ≤ 4 ∧ 9 ≤ s.stop := by
  intro text w
  have first : isInked text.toList 4 = true := by decide +kernel
  have last : isInked text.toList 8 = true := by decide +kernel
  exact ⟨by decide, by decide, first, last,
    (overlap_kept text w (by decide) 4 9 (by decide) (by decide) first last).2 (by decide)⟩

/-- With a larger overlap three characters of two words are in no span, when the first window is cut
after the first word and is no longer than the overlap. -/
theorem overlap_lost :
    let text := "aaaaa bbbbbbbbbb"
    let w : Window := ⟨10, 8⟩
    w.overlap < w.maxChars ∧ 7 - 4 ≤ w.overlap ∧ isInked text.toList 4 = true ∧
      isInked text.toList 6 = true ∧ ¬ ∃ s ∈ split text w, s.start ≤ 4 ∧ 7 ≤ s.stop := by
  decide +kernel

end IndexingPipeline
