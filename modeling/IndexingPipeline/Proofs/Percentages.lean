import IndexingPipeline.Action.Progress
import IndexingPipeline.Proofs.Rounding

/-!
# The percentage of an action

A percentage is rounded three times: the quotient and its hundredfold to a double, the result to
a whole number. Each rounding keeps the order, so what is calculated for any counts lies between
what is calculated for two quotients around theirs, and it suffices to look at the halves. At four
of the hundred halves the hundredfold comes out below the half and is rounded down. Everywhere else
the percentage is the exact one, as long as the quotient is no nearer to a half than one part in
`twoTo 45` of it allows.
-/

namespace IndexingPipeline

open Number
open Number.Format (double)

/-- The percentage calculated for a quotient of naturals. -/
def percentAt (num den : Nat) : Nat :=
  roundHalfUp (hundredfold (Double.ofRatio false num den))

/-- A hundred times a quotient, rounded exactly, a half going up. -/
def exactPercent (part whole : Nat) : Nat := (200 * part + whole) / (2 * whole)

/-- The whole percents whose next half is rounded down. -/
def lowHalves : List Nat := [14, 28, 56, 57]

/-- Two hundred parts are no nearer to a half that they are not on than the whole over
`twoTo 45`. -/
def AwayFromHalves (part whole : Nat) : Prop :=
  ∀ m < 100,
    (200 * part < (2 * m + 1) * whole → whole ≤ twoTo 45 * ((2 * m + 1) * whole - 200 * part)) ∧
    ((2 * m + 1) * whole < 200 * part → whole ≤ twoTo 45 * (200 * part - (2 * m + 1) * whole))

theorem away_of_le {part whole : Nat} (small : whole ≤ twoTo 45) : AwayFromHalves part whole := by
  intro m _
  constructor
  · intro below
    exact Nat.le_trans small (Nat.le_mul_of_pos_right _ (by omega))
  · intro above
    exact Nat.le_trans small (Nat.le_mul_of_pos_right _ (by omega))

/-! ## The order is kept -/

theorem roundHalfUp_ofRatio (num den : Nat) :
    roundHalfUp (Double.ofRatio false num den) =
      (2 * double.rounded num den + twoTo double.least) / (2 * twoTo double.least) := by
  unfold roundHalfUp
  rw [Double.ratio_ofRatio]

theorem percentAt_eq_rounded (num den : Nat) :
    percentAt num den =
      (2 * double.rounded (100 * double.rounded num den) (twoTo double.least) +
        twoTo double.least) / (2 * twoTo double.least) := by
  unfold percentAt hundredfold
  rw [Double.ratio_ofRatio]
  exact roundHalfUp_ofRatio _ _

/-- No greater percentage is calculated for a smaller quotient. -/
theorem percentAt_mono {a b c d : Nat} (hb : 0 < b) (hd : 0 < d) (h : a * d ≤ c * b) :
    percentAt a b ≤ percentAt c d := by
  have sharp : 0 < double.precision := by decide
  have quotients := Format.rounded_mono sharp hb hd h
  have hundredfolds : double.rounded (100 * double.rounded a b) (twoTo double.least) ≤
      double.rounded (100 * double.rounded c d) (twoTo double.least) := by
    apply Format.rounded_mono sharp (twoTo_pos _) (twoTo_pos _)
    exact Nat.mul_le_mul_right _ (Nat.mul_le_mul_left 100 quotients)
  rw [percentAt_eq_rounded, percentAt_eq_rounded]
  exact Nat.div_le_div_right (by omega)

theorem percentAt_congr {a b c d : Nat} (hb : 0 < b) (hd : 0 < d) (h : a * d = c * b) :
    percentAt a b = percentAt c d :=
  Nat.le_antisymm (percentAt_mono hb hd (Nat.le_of_eq h))
    (percentAt_mono hd hb (Nat.le_of_eq h.symm))

/-- Counts that fit into the digits of a double lose nothing when they become doubles. -/
theorem ratio_ofInt {n : Nat} (fits : n < twoTo 53) :
    (Double.ofInt n).ratio = (n * twoTo double.least, twoTo double.least) := by
  have natural : Double.ofInt (n : Int) = Double.ofRatio false n 1 := by
    have : ¬ (n : Int) < 0 := by omega
    simp only [Double.ofInt, this, decide_false, Int.natAbs_natCast]
  rw [natural, Double.ratio_ofRatio, Double.rounded_natural fits]

theorem percentAt_whole {n : Nat} (positive : 0 < n) : percentAt n n = 100 := by
  have one : percentAt 1 1 = 100 := by decide +kernel
  rw [← one]
  exact percentAt_congr positive Nat.one_pos (by omega)

theorem percentAt_le {part whole : Nat} (positive : 0 < whole) (within : part ≤ whole) :
    percentAt part whole ≤ 100 := by
  rw [← percentAt_whole positive]
  exact percentAt_mono positive positive (Nat.mul_le_mul_right whole within)

/-- The percentage of counts is that of their quotient. -/
theorem percentOf_eq {part whole : Nat} (positive : 0 < whole) (within : part ≤ whole)
    (fits : whole < twoTo 53) : percentOf part whole = percentAt part whole := by
  have unit : 0 < twoTo double.least := twoTo_pos _
  have same : roundHalfUp (hundredfold (quotient part whole)) = percentAt part whole := by
    unfold quotient
    rw [ratio_ofInt (Nat.lt_of_le_of_lt within fits), ratio_ofInt fits]
    refine percentAt_congr (Nat.mul_pos unit (Nat.mul_pos positive unit)) positive ?_
    rw [Nat.mul_assoc part, Nat.mul_assoc part, Nat.mul_comm whole, Nat.mul_assoc]
  have bounded := percentAt_le positive within
  unfold percentOf
  rw [if_neg (by omega), same]
  omega

/-! ## The halves -/

theorem percentAt_half {m : Nat} (hm : m < 100) :
    percentAt (2 * m + 1) 200 = if m ∈ lowHalves then m else m + 1 := by
  have table : ∀ m < 100, percentAt (2 * m + 1) 200 = if m ∈ lowHalves then m else m + 1 := by
    decide +kernel
  exact table m hm

/-- Just below a half the percentage is rounded down, just above it is rounded up. -/
theorem percentAt_beside {m : Nat} (hm : m < 100) :
    percentAt ((2 * m + 1) * twoTo 45 - 1) (200 * twoTo 45) = m ∧
      percentAt ((2 * m + 1) * twoTo 45 + 1) (200 * twoTo 45) = m + 1 := by
  have table : ∀ m < 100,
      percentAt ((2 * m + 1) * twoTo 45 - 1) (200 * twoTo 45) = m ∧
        percentAt ((2 * m + 1) * twoTo 45 + 1) (200 * twoTo 45) = m + 1 := by
    decide +kernel
  exact table m hm

theorem percentAt_of_half {part whole m : Nat} (positive : 0 < whole) (hm : m < 100)
    (half : 200 * part = (2 * m + 1) * whole) :
    percentAt part whole = if m ∈ lowHalves then m else m + 1 := by
  rw [← percentAt_half hm]
  exact percentAt_congr positive (by decide) (by omega)

theorem percentAt_below {part whole m : Nat} (positive : 0 < whole) (hm : m < 100)
    (below : 200 * part < (2 * m + 1) * whole) : percentAt part whole ≤ m + 1 := by
  have half := percentAt_half hm
  have order : percentAt part whole ≤ percentAt (2 * m + 1) 200 :=
    percentAt_mono positive (by decide) (by omega)
  split at half <;> omega

theorem percentAt_above {part whole m : Nat} (positive : 0 < whole) (hm : m < 100)
    (above : (2 * m + 1) * whole ≤ 200 * part) : m ≤ percentAt part whole := by
  have half := percentAt_half hm
  have order : percentAt (2 * m + 1) 200 ≤ percentAt part whole :=
    percentAt_mono (by decide) positive (by omega)
  split at half <;> omega

/-- A quotient and a half are compared in any unit as they are in one. -/
theorem scaled (part whole m unit : Nat) :
    part * (200 * unit) = unit * (200 * part) ∧
      (2 * m + 1) * unit * whole = unit * ((2 * m + 1) * whole) := by
  constructor
  · rw [Nat.mul_comm part, Nat.mul_comm 200, Nat.mul_assoc]
  · rw [Nat.mul_comm _ unit, Nat.mul_assoc]

theorem percentAt_far_below {part whole m : Nat} (positive : 0 < whole) (hm : m < 100)
    (below : 200 * part < (2 * m + 1) * whole) (away : AwayFromHalves part whole) :
    percentAt part whole ≤ m := by
  have gap := (away m hm).1 below
  rw [← (percentAt_beside hm).1]
  apply percentAt_mono positive (Nat.mul_pos (by decide) (twoTo_pos _))
  generalize twoTo 45 = unit at *
  rw [Nat.mul_sub] at gap
  rw [Nat.sub_mul, Nat.one_mul]
  obtain ⟨left, right⟩ := scaled part whole m unit
  have := Nat.mul_le_mul_left unit (Nat.le_of_lt below)
  omega

theorem percentAt_far_above {part whole m : Nat} (positive : 0 < whole) (hm : m < 100)
    (above : (2 * m + 1) * whole < 200 * part) (away : AwayFromHalves part whole) :
    m + 1 ≤ percentAt part whole := by
  have gap := (away m hm).2 above
  rw [← (percentAt_beside hm).2]
  apply percentAt_mono (Nat.mul_pos (by decide) (twoTo_pos _)) positive
  generalize twoTo 45 = unit at *
  rw [Nat.mul_sub] at gap
  rw [Nat.add_mul, Nat.one_mul]
  obtain ⟨left, right⟩ := scaled part whole m unit
  have := Nat.mul_le_mul_left unit (Nat.le_of_lt above)
  omega

/-! ## The exact percentage -/

/-- A percentage is the exact one if and only if the quotient is between the halves around it. -/
theorem exactPercent_eq_iff {part whole e : Nat} (positive : 0 < whole) :
    exactPercent part whole = e ↔
      2 * e * whole ≤ 200 * part + whole ∧ 200 * part < (2 * e + 1) * whole := by
  unfold exactPercent
  rw [Nat.div_eq_iff (by omega)]
  have left : e * (2 * whole) = 2 * e * whole := by
    rw [← Nat.mul_assoc, Nat.mul_comm e]
  have right : (2 * e + 1) * whole = 2 * e * whole + whole := Nat.succ_mul _ _
  omega

theorem exactPercent_le {part whole : Nat} (positive : 0 < whole) (within : part ≤ whole) :
    exactPercent part whole ≤ 100 := by
  unfold exactPercent
  rw [← Nat.lt_succ_iff, Nat.div_lt_iff_lt_mul (by omega)]
  omega

theorem exactPercent_of_half {part whole m : Nat} (positive : 0 < whole)
    (half : 200 * part = (2 * m + 1) * whole) : exactPercent part whole = m + 1 := by
  rw [exactPercent_eq_iff positive, half]
  have low : 2 * (m + 1) * whole = (2 * m + 1) * whole + whole := Nat.succ_mul _ _
  have high : (2 * (m + 1) + 1) * whole = 2 * (m + 1) * whole + whole := Nat.succ_mul _ _
  omega

/-- The percentage is never further from the exact one than one. -/
theorem percentAt_near {part whole : Nat} (positive : 0 < whole) (within : part ≤ whole) :
    percentAt part whole ≤ exactPercent part whole + 1 ∧
      exactPercent part whole ≤ percentAt part whole + 1 := by
  have bounded := exactPercent_le positive within
  obtain ⟨low, high⟩ := (exactPercent_eq_iff positive).mp rfl
  generalize exactPercent part whole = e at *
  constructor
  · rcases Nat.lt_or_eq_of_le bounded with lower | rfl
    · exact percentAt_below positive lower high
    · have := percentAt_le positive within
      omega
  · cases e with
    | zero => exact Nat.zero_le _
    | succ k =>
      have : 2 * (k + 1) * whole = (2 * k + 1) * whole + whole := Nat.succ_mul _ _
      exact Nat.succ_le_succ (percentAt_above positive (by omega) (by omega))

/-- The percentage is the exact one, unless the quotient is a half that is rounded down or is too
near to one. -/
theorem percentAt_exact {part whole : Nat} (positive : 0 < whole) (within : part ≤ whole)
    (away : AwayFromHalves part whole) (off : ∀ m ∈ lowHalves, 200 * part ≠ (2 * m + 1) * whole) :
    percentAt part whole = exactPercent part whole := by
  have bounded := exactPercent_le positive within
  obtain ⟨low, high⟩ := (exactPercent_eq_iff positive).mp rfl
  generalize exactPercent part whole = e at *
  apply Nat.le_antisymm
  · rcases Nat.lt_or_eq_of_le bounded with lower | rfl
    · exact percentAt_far_below positive lower high away
    · exact percentAt_le positive within
  · cases e with
    | zero => exact Nat.zero_le _
    | succ k =>
      have : 2 * (k + 1) * whole = (2 * k + 1) * whole + whole := Nat.succ_mul _ _
      have hk : k < 100 := by omega
      have reached : (2 * k + 1) * whole ≤ 200 * part := by omega
      rcases Nat.lt_or_eq_of_le reached with above | half
      · exact percentAt_far_above positive hk above away
      · have up : k ∉ lowHalves := fun low => off k low half.symm
        refine Nat.le_of_eq ?_
        rw [percentAt_of_half positive hk half.symm, if_neg up]

/-- For counts that fit into the digits of a double, the percentage is that of the quotient rounded
with a half going up, at most a hundred, a hundred for the whole, and no smaller for a larger part
of the same whole. Of the halves, the four after 14, 28, 56 and 57 are rounded down instead. Where
the whole is more than `twoTo 45` and the quotient is nearly a half, it may be off by one, and it
is never off by more. -/
theorem percent_rounded {c : JobCounts} (positive : 0 < c.total) (within : c.completed ≤ c.total)
    (fits : c.total < twoTo 53) :
    (∀ m ∈ lowHalves, 200 * c.completed = (2 * m + 1) * c.total →
      exactPercent c.completed c.total = m + 1 ∧ (Progress.ofCounts c).percent = m) ∧
    ((∀ m ∈ lowHalves, 200 * c.completed ≠ (2 * m + 1) * c.total) →
      c.total ≤ twoTo 45 ∨ AwayFromHalves c.completed c.total →
      (Progress.ofCounts c).percent = exactPercent c.completed c.total) ∧
    (Progress.ofCounts c).percent ≤ exactPercent c.completed c.total + 1 ∧
    exactPercent c.completed c.total ≤ (Progress.ofCounts c).percent + 1 ∧
    (Progress.ofCounts c).percent ≤ 100 ∧
    (c.completed = c.total → (Progress.ofCounts c).percent = 100) ∧
    (∀ d : JobCounts, d.total = c.total → c.completed ≤ d.completed → d.completed ≤ d.total →
      (Progress.ofCounts c).percent ≤ (Progress.ofCounts d).percent) := by
  have calculated : (Progress.ofCounts c).percent = percentAt c.completed c.total :=
    percentOf_eq positive within fits
  obtain ⟨notAbove, notBelow⟩ := percentAt_near positive within
  rw [calculated]
  refine ⟨?halves, ?exact, notAbove, notBelow, percentAt_le positive within, ?whole, ?grows⟩
  case halves =>
    intro m low half
    have hm : m < 100 := by
      have : ∀ m ∈ lowHalves, m < 100 := by decide
      exact this m low
    rw [percentAt_of_half positive hm half, if_pos low]
    exact ⟨exactPercent_of_half positive half, rfl⟩
  case exact =>
    intro off away
    exact percentAt_exact positive within (away.elim away_of_le id) off
  case whole =>
    intro all
    rw [all]
    exact percentAt_whole positive
  case grows =>
    intro d same more all
    have later : (Progress.ofCounts d).percent = percentAt d.completed d.total :=
      percentOf_eq (by omega) all (by omega)
    rw [later, same]
    exact percentAt_mono positive positive (Nat.mul_le_mul_right _ more)

/-- Twenty-three of forty jobs, and one job more. -/
theorem percent_rounded_sample :
    (Progress.ofCounts ⟨17, 0, 23, 0⟩).percent = 57 ∧
      (Progress.ofCounts ⟨16, 0, 24, 0⟩).percent = exactPercent 24 40 ∧
      (Progress.ofCounts ⟨17, 0, 23, 0⟩).percent ≤ (Progress.ofCounts ⟨16, 0, 24, 0⟩).percent := by
  have first := percent_rounded (c := ⟨17, 0, 23, 0⟩) (by decide) (by decide) (by decide)
  have second := percent_rounded (c := ⟨16, 0, 24, 0⟩) (by decide) (by decide) (by decide)
  refine ⟨?_, ?_, ?_⟩
  · exact (first.1 57 (by decide) (by decide)).2
  · exact second.2.1 (by decide) (.inl (by decide))
  · exact first.2.2.2.2.2.2 _ (by decide) (by decide) (by decide)

/-- Fifty-seven and a half percent are rounded down; and a quotient that is no half, but nearly
one, is rounded to the wrong side. -/
theorem percent_misrounded :
    ((Progress.ofCounts ⟨17, 0, 23, 0⟩).percent = 57 ∧ exactPercent 23 40 = 58) ∧
      (Progress.ofCounts ⟨20055092090447, 0, 50313652086560, 0⟩).percent = 72 ∧
      exactPercent 50313652086560 70368744177007 = 71 := by
  decide +kernel

end IndexingPipeline
