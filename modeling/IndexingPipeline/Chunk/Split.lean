import IndexingPipeline.Text.Blank

/-!
# Splitting a text

A text is covered by windows that overlap. Each window is cut at the best place in its second
half: after an empty line, else after a line end, else after a space, else where it is full.
The next window starts a little before the cut, so that neighbours share what stands there;
it always starts further on, which is why splitting ends. Blanks at both ends of a window are
no part of its span.
-/

namespace IndexingPipeline

/-- How long a window may be and how much of it the next one repeats. -/
structure Window where
  maxChars : Nat
  overlap : Nat
  deriving DecidableEq, Repr

/-- A part of a text that starts and ends with a character that is not blank. -/
structure Span where
  start : Nat
  stop : Nat
  text : List Char
  deriving DecidableEq, Repr

namespace Window

/-- At least one character fits. -/
def size (w : Window) : Nat := max w.maxChars 1

/-- The overlap is smaller than the window. -/
def shared (w : Window) : Nat := min w.overlap (w.size - 1)

end Window

/-- The last position from `low` on and below `high` at which something holds. -/
def lastIn? (holds : Nat → Bool) (low : Nat) : Nat → Option Nat
  | 0 => none
  | high + 1 =>
    if high < low then none
    else if holds high then some high
    else lastIn? holds low high

theorem le_of_lastIn? {holds : Nat → Bool} {low high i : Nat}
    (h : lastIn? holds low high = some i) : low ≤ i ∧ i < high := by
  induction high with
  | zero => simp [lastIn?] at h
  | succ high ih =>
    unfold lastIn? at h
    split at h
    · simp at h
    · split at h
      · simp only [Option.some.injEq] at h
        omega
      · have := ih h
        omega

/-- Whether that character stands at a position. -/
def standsAt (text : Array Char) (c : Char) (i : Nat) : Bool := text[i]? == some c

/-- The best place for a cut after `low` and not after `high`: after an empty line, after a
line end, after a space. -/
def boundary? (text : Array Char) (low high : Nat) : Option Nat :=
  let low := max low 1
  let found := (lastIn? (fun i => standsAt text '\n' i && standsAt text '\n' (i - 1)) low high).or
    ((lastIn? (standsAt text '\n') low high).or (lastIn? (standsAt text ' ') low high))
  found.map (· + 1)

theorem lt_of_boundary? {text : Array Char} {low high i : Nat}
    (h : boundary? text low high = some i) : low < i ∧ i ≤ high := by
  unfold boundary? at h
  simp only [Option.map_eq_some_iff, Option.or_eq_some_iff] at h
  obtain ⟨j, found, rfl⟩ := h
  have : max low 1 ≤ j ∧ j < high := by
    rcases found with h | ⟨-, h | ⟨-, h⟩⟩ <;> exact le_of_lastIn? h
  omega

/-- Where the window that starts at `start` ends. -/
def cut (text : Array Char) (w : Window) (start : Nat) : Nat :=
  let full := start + w.size
  if full < text.size then (boundary? text (start + w.size / 2) full).getD full
  else text.size

theorem lt_cut {text : Array Char} {w : Window} {start : Nat} (h : start < text.size) :
    start < cut text w start := by
  have size_pos : 0 < w.size := by
    unfold Window.size
    omega
  unfold cut
  simp only
  split
  · cases found : boundary? text (start + w.size / 2) (start + w.size) with
    | none => simp only [Option.getD_none]; omega
    | some i =>
      have := lt_of_boundary? found
      simp only [Option.getD_some]
      omega
  · exact h

/-- Where the window after the one from `start` to `stop` starts. -/
def nextStart (w : Window) (start stop : Nat) : Nat :=
  if start < stop - w.shared then stop - w.shared else stop

theorem lt_nextStart {w : Window} {start stop : Nat} (h : start < stop) :
    start < nextStart w start stop := by
  unfold nextStart
  split <;> assumption

/-- The windows of a text from `start` on. -/
def windows (text : Array Char) (w : Window) (start : Nat) : List (Nat × Nat) :=
  if _ : start < text.size then
    let stop := cut text w start
    if text.size ≤ stop then [(start, stop)]
    else (start, stop) :: windows text w (nextStart w start stop)
  else []
termination_by text.size - start
decreasing_by
  have := lt_nextStart (w := w) (lt_cut (w := w) ‹start < text.size›)
  omega

/-- The span of a window; none when everything in it is blank. -/
def spanIn? (text : Array Char) (window : Nat × Nat) : Option Span :=
  let part := (text.extract window.1 window.2).toList
  let core := Text.trimStart part
  let start := window.1 + (part.length - core.length)
  let core := Text.trimEnd core
  if core.isEmpty then none else some ⟨start, start + core.length, core⟩

def split (text : String) (w : Window) : List Span :=
  let chars := text.toList.toArray
  (windows chars w 0).filterMap (spanIn? chars)

end IndexingPipeline
