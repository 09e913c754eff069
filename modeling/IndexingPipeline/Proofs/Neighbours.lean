import IndexingPipeline.Proofs.Spans

/-!
# Neighbouring spans

A window always starts further on than the one before it. Whether its span does, and whether it also
ends further on, is told by what is written between the starts of the two windows and between their
ends. Where nothing but blanks stands between the ends, the later span says nothing that the earlier
one did not say; and where a window of which more than half is shared is cut where the one before it
was, nothing stands there at all.
-/

namespace IndexingPipeline

/-- A character that is not blank stands between two places of a text. -/
def InkBetween (chars : List Char) (low high : Nat) : Prop :=
  ∃ i, low ≤ i ∧ i < high ∧ isInked chars i = true

/-- Behind every blank of a text stands a character that is not: blanks stand alone, and none at the
end. -/
def IsSpaced (chars : List Char) : Prop :=
  ∀ i, i < chars.length → isInked chars i = true ∨ isInked chars (i + 1) = true

instance (chars : List Char) : Decidable (IsSpaced chars) := Nat.decidableBallLT _ _

namespace Span.Trims

variable {chars : List Char} {p q : Nat × Nat} {s t : Span}

/-- The later span starts further on when it has lost something of the earlier window. -/
theorem start_lt_iff (hs : s.Trims chars p) (ht : t.Trims chars q) (stops : p.2 ≤ q.2) :
    s.start < t.start ↔ InkBetween chars p.1 q.1 := by
  have := hs.start_le
  have := hs.nonempty
  have := hs.le_stop
  have := ht.start_le
  constructor
  · intro further
    refine ⟨s.start, hs.start_le, ?_, hs.first⟩
    refine Nat.lt_of_not_le fun within => ?_
    have := ht.all s.start within (by omega) hs.first
    omega
  · rintro ⟨i, after, before, inked⟩
    by_cases within : i < p.2
    · have := hs.all i after within inked
      omega
    · omega

/-- The later span ends further on when it has gained something over the earlier window. -/
theorem stop_lt_iff (hs : s.Trims chars p) (ht : t.Trims chars q) (starts : p.1 ≤ q.1) :
    s.stop < t.stop ↔ InkBetween chars p.2 q.2 := by
  have := hs.le_stop
  have := ht.start_le
  have := ht.nonempty
  have := ht.le_stop
  constructor
  · intro further
    refine ⟨t.stop - 1, ?_, by omega, ht.last⟩
    refine Nat.le_of_not_lt fun within => ?_
    have := hs.all (t.stop - 1) (by omega) within ht.last
    omega
  · rintro ⟨i, after, before, inked⟩
    by_cases within : q.1 ≤ i
    · have := ht.all i within before inked
      omega
    · omega

end Span.Trims

section Course

variable {text : Array Char} {w : Window} {start : Nat}

/-- A window that another follows ends before the text does. -/
theorem windows_going_on (text : Array Char) (w : Window) (start : Nat) :
    (windows text w start).Pairwise fun p _ => p.2 < text.size := by
  induction start using windows.induct text w with
  | case1 start inside _ last =>
    rw [windows_last inside last]
    exact List.pairwise_singleton _ _
  | case2 start inside _ going ih =>
    rw [windows_going inside going]
    exact List.pairwise_cons.mpr ⟨fun _ _ => Nat.lt_of_not_le going, ih⟩
  | case3 start outside =>
    rw [windows, dif_neg outside]
    exact List.Pairwise.nil

/-- A window is cut in its second half, or it ends with the text. -/
theorem windows_half {window : Nat × Nat} (member : window ∈ windows text w start) :
    window.2 = text.size ∨ window.1 + w.size / 2 < window.2 := by
  obtain ⟨_, _, ends⟩ := mem_windows member
  have cuts := cut_isCut text w window.1
  rw [← ends] at cuts
  have := w.size_pos
  generalize window.2 = stop at cuts
  cases cuts with
  | last => exact .inl rfl
  | full => exact .inr (by omega)
  | best i _ best =>
    have := best.low_le
    exact .inr (by omega)

structure Apart (text : Array Char) (w : Window) (p q : Nat × Nat) : Prop where
  inside : p.1 < text.size
  starts : p.1 < q.1
  stops : p.2 ≤ q.2
  going : p.2 < text.size
  shared : p.2 ≤ q.1 + w.shared
  earlier : p.1 + w.size / 2 < p.2
  later : q.2 = text.size ∨ q.1 + w.size / 2 < q.2

theorem windows_apart (text : Array Char) (w : Window) (start : Nat) :
    (windows text w start).Pairwise (Apart text w) := by
  have sorted := windows_sorted text w start
  have going := windows_going_on text w start
  have next := windows_pairwise text w start
  refine ((sorted.and going).and next).imp_of_mem fun {p q} inP inQ both => ?_
  obtain ⟨⟨⟨starts, stops⟩, going⟩, next⟩ := both
  have shared := (nextStart_within w p.1 p.2).2
  exact {
    inside := (mem_windows inP).2.1
    starts, stops, going
    shared := by omega
    earlier := (windows_half inP).resolve_left (Nat.ne_of_lt going)
    later := windows_half inQ }

namespace Apart

variable {chars : List Char} {p q : Nat × Nat}

theorem advances_iff (apart : Apart text w p q) {s t : Span} (hs : s.Trims chars p)
    (ht : t.Trims chars q) :
    (s.start < t.start ↔ InkBetween chars p.1 q.1) ∧
      (s.stop < t.stop ↔ InkBetween chars p.2 q.2) :=
  ⟨hs.start_lt_iff ht apart.stops, hs.stop_lt_iff ht (Nat.le_of_lt apart.starts)⟩

/-- Windows that share at most half of themselves are not cut at the same place. -/
theorem stop_lt (apart : Apart text w p q) (half : 2 * w.shared ≤ w.size) : p.2 < q.2 := by
  have := apart.going
  have := apart.shared
  rcases apart.later with atEnd | further <;> omega

/-- Windows that share less than half of themselves start and end at least two characters apart,
and one of two characters is not blank. -/
theorem written (apart : Apart chars.toArray w p q) (less : 2 * w.shared + 2 ≤ w.size)
    (spaced : IsSpaced chars) : InkBetween chars p.1 q.1 ∧ InkBetween chars p.2 q.2 := by
  have := apart.shared
  have := apart.earlier
  have advance := apart.stop_lt (by omega)
  constructor
  · rcases spaced p.1 apart.inside with here | next
    · exact ⟨p.1, Nat.le_refl _, apart.starts, here⟩
    · exact ⟨p.1 + 1, Nat.le_succ _, by omega, next⟩
  · rcases spaced p.2 apart.going with here | next
    · exact ⟨p.2, Nat.le_refl _, advance, here⟩
    · have inside : p.2 + 1 < chars.toArray.size := lt_of_isInked next
      refine ⟨p.2 + 1, Nat.le_succ _, ?_, next⟩
      rcases apart.later with atEnd | further <;> omega

end Apart

end Course

/-- With an overlap that is smaller than a window, as settings demand: of the spans of two windows
the later one starts further on just when something is written between the starts of the windows,
and it ends further on, and is no part of the earlier one, just when something is written between
their ends. No two windows end at the same place when the overlap is at most half a window. Both the
starts and the ends of spans go on from each span to the next when nothing is shared, and also when
less than half a window is and blanks stand alone. -/
theorem split_advances (text : String) (w : Window) (valid : w.overlap < w.maxChars) :
    let chars := text.toList
    (windows chars.toArray w 0).Pairwise (fun p q =>
      (∀ s t, spanIn? chars.toArray p = some s → spanIn? chars.toArray q = some t →
        (s.start < t.start ↔ InkBetween chars p.1 q.1) ∧
        (s.stop < t.stop ↔ InkBetween chars p.2 q.2)) ∧
      (2 * w.overlap ≤ w.maxChars → p.2 < q.2)) ∧
    (w.overlap = 0 ∨ 2 * w.overlap + 2 ≤ w.maxChars ∧ IsSpaced chars →
      (split text w).Pairwise fun s t => s.start < t.start ∧ s.stop < t.stop) := by
  intro chars
  have shared : w.shared = w.overlap := Window.shared_of_valid valid
  have size : w.size = w.maxChars := Window.size_of_valid valid
  have apart := windows_apart chars.toArray w 0
  constructor
  · refine apart.imp_of_mem fun {p q} inP inQ apart => ⟨fun s t spanP spanQ => ?_, fun half => ?_⟩
    · have trimsP := spanIn?_some (windows_stop inP).1 spanP
      have trimsQ := spanIn?_some (windows_stop inQ).1 spanQ
      exact apart.advances_iff trimsP trimsQ
    · exact apart.stop_lt (by omega)
  · intro enough
    refine List.pairwise_filterMap.mpr (apart.imp_of_mem fun {p q} inP inQ apart => ?_)
    intro s spanP t spanQ
    have trimsP := spanIn?_some (windows_stop inP).1 spanP
    have trimsQ := spanIn?_some (windows_stop inQ).1 spanQ
    rcases enough with nothing | ⟨less, spaced⟩
    · have := trimsP.nonempty
      have := trimsP.le_stop
      have := trimsQ.start_le
      have := trimsQ.nonempty
      have := apart.shared
      omega
    · obtain ⟨lost, gained⟩ := apart.written (by omega) spaced
      obtain ⟨starts, stops⟩ := apart.advances_iff trimsP trimsQ
      exact ⟨starts.mpr lost, stops.mpr gained⟩

/-- Words with one space between them, and windows that share three of ten characters. -/
theorem split_advances_sample :
    let text := "one two three four"
    let w : Window := ⟨10, 3⟩
    w.overlap < w.maxChars ∧ 2 * w.overlap + 2 ≤ w.maxChars ∧ IsSpaced text.toList ∧
      (split text w).Pairwise fun s t => s.start < t.start ∧ s.stop < t.stop := by
  intro text w
  have spaced : IsSpaced text.toList := by decide +kernel
  exact ⟨by decide, by decide, spaced,
    (split_advances text w (by decide)).2 (.inr ⟨by decide, spaced⟩)⟩

/-- Two windows that share six of ten characters are cut after the same empty line, and what is left
of the second is what was left of the first: one span comes twice. With an overlap of one character
a span comes again in part: its last character stands alone in a window of blanks. -/
theorem split_repeats :
    let places (text : String) (w : Window) := (split text w).map fun s => (s.start, s.stop)
    let wide : Window := ⟨10, 6⟩
    let narrow : Window := ⟨10, 1⟩
    wide.overlap < wide.maxChars ∧ narrow.overlap < narrow.maxChars ∧
    places " aaaa\n\nbbbbbbbb" wide = [(1, 5), (1, 5), (7, 15)] ∧
    places "aaaaaaaaaa          bbbb" narrow = [(0, 10), (9, 10), (20, 24)] := by
  decide +kernel

end IndexingPipeline
