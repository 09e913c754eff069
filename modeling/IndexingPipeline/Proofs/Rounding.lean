import IndexingPipeline.Number.Shortest

/-!
# Rounding keeps the order

The patterns of a binary format are numbered in the order of the numbers that they stand for.
Main statements: a greater quotient is rounded to no smaller pattern (`nearest_mono`), a greater
pattern stands for no smaller number (`value_mono`), and a natural that fits into the digits of a
double is its own rounding (`rounded_natural`). What a double is rounded to therefore depends on
the quotient alone, not on how it is written.
-/

namespace IndexingPipeline.Number

theorem twoTo_pos (n : Nat) : 0 < twoTo n := Nat.two_pow_pos n

theorem twoTo_add (m n : Nat) : twoTo (m + n) = twoTo m * twoTo n := Nat.pow_add 2 m n

theorem twoTo_le {m n : Nat} (h : m ≤ n) : twoTo m ≤ twoTo n :=
  Nat.pow_le_pow_right (by decide) h

theorem twoTo_lt_iff {m n : Nat} : twoTo m < twoTo n ↔ m < n :=
  Nat.pow_lt_pow_iff_right (by decide)

/-! ## Quotients -/

theorem roundDiv_bounds (num den : Nat) :
    num / den ≤ roundDiv num den ∧ roundDiv num den ≤ num / den + 1 := by
  unfold roundDiv
  simp only
  split
  · omega
  · split
    · omega
    · split <;> omega

theorem div_mono {a b c d : Nat} (hb : 0 < b) (hd : 0 < d) (h : a * d ≤ c * b) :
    a / b ≤ c / d := by
  rw [Nat.le_div_iff_mul_le hd]
  apply Nat.le_of_mul_le_mul_right _ hb
  calc a / b * d * b = a / b * b * d := Nat.mul_right_comm _ _ _
    _ ≤ a * d := Nat.mul_le_mul_right d (Nat.div_mul_le_self a b)
    _ ≤ c * b := h

/-- A greater quotient with the same floor has no smaller rest. -/
theorem mod_mono {a b c d : Nat} (h : a * d ≤ c * b) (same : a / b = c / d) :
    a % b * d ≤ c % d * b := by
  have left : a * d = c / d * (b * d) + a % b * d := by
    conv => lhs; rw [← Nat.div_add_mod a b, same, Nat.add_mul]
    rw [Nat.mul_comm b, Nat.mul_assoc]
  have right : c * b = c / d * (b * d) + c % d * b := by
    conv => lhs; rw [← Nat.div_add_mod c d, Nat.add_mul]
    rw [Nat.mul_comm d, Nat.mul_assoc, Nat.mul_comm d b]
  omega

theorem roundDiv_mul_self (n : Nat) {den : Nat} (hd : 0 < den) : roundDiv (n * den) den = n := by
  unfold roundDiv
  simp only [Nat.mul_div_cancel n hd, Nat.mul_mod_left, Nat.mul_zero, if_pos hd]

/-- A greater quotient is rounded to no smaller natural. -/
theorem roundDiv_mono {a b c d : Nat} (hb : 0 < b) (hd : 0 < d) (h : a * d ≤ c * b) :
    roundDiv a b ≤ roundDiv c d := by
  have floors := div_mono hb hd h
  have first := roundDiv_bounds a b
  have second := roundDiv_bounds c d
  rcases Nat.lt_or_eq_of_le floors with lower | same
  · omega
  have rests := mod_mono h same
  -- Twice a rest is compared with its divisor as the quotients are.
  have above : b < 2 * (a % b) → d < 2 * (c % d) := by
    intro up
    apply Nat.lt_of_mul_lt_mul_right (a := b)
    have := Nat.mul_lt_mul_of_pos_right up hd
    rw [Nat.mul_assoc] at this ⊢
    rw [Nat.mul_comm d b]
    omega
  have level : b ≤ 2 * (a % b) → d ≤ 2 * (c % d) := by
    intro up
    apply Nat.le_of_mul_le_mul_right _ hb
    have := Nat.mul_le_mul_right d up
    rw [Nat.mul_assoc] at this ⊢
    rw [Nat.mul_comm d b]
    omega
  unfold roundDiv
  simp only [same]
  by_cases down : 2 * (a % b) < b
  · rw [if_pos down]
    split
    · omega
    · split
      · omega
      · split <;> omega
  · have tied := level (by omega)
    rw [if_neg down, if_neg (by omega : ¬ 2 * (c % d) < d)]
    by_cases up : b < 2 * (a % b)
    · refine Nat.le_of_eq ?_
      rw [if_pos up, if_pos (above up)]
    · rw [if_neg up]
      by_cases higher : d < 2 * (c % d)
      · rw [if_pos higher]
        split <;> omega
      · refine Nat.le_of_eq ?_
        rw [if_neg higher]

/-! ## Patterns -/

namespace Format

variable (f : Format)

/-- The digits of the number nearest to a quotient, at its place. -/
def digits (num den : Nat) : Nat :=
  roundDiv (num * twoTo f.least) (den * twoTo (f.place num den))

/-- What a pattern stands for, in units of the smallest number. -/
def value (pattern : Nat) : Nat := (f.parts pattern).1 * twoTo (f.parts pattern).2

/-- What the number nearest to a quotient is, in units of the smallest number. -/
def rounded (num den : Nat) : Nat := f.value (f.nearest num den)

variable {f}

/-- The digits of a quotient at its place are as many as the format has, unless the place is the
last one. -/
theorem place_spec (sharp : 0 < f.precision) {num den : Nat} (hn : 0 < num) (hd : 0 < den) :
    num * twoTo f.least < den * twoTo (f.place num den + f.precision) ∧
      (f.place num den = 0 ∨
        den * twoTo (f.place num den + (f.precision - 1)) ≤ num * twoTo f.least) := by
  have numLow : twoTo num.log2 ≤ num := Nat.log2_self_le (by omega)
  have numHigh : num < twoTo (num.log2 + 1) := Nat.lt_log2_self
  have denLow : twoTo den.log2 ≤ den := Nat.log2_self_le (by omega)
  have denHigh : den < twoTo (den.log2 + 1) := Nat.lt_log2_self
  unfold place
  simp only
  generalize num.log2 = a at *
  generalize den.log2 = b at *
  -- The guess is the place of the first digit, or one more.
  have high : num * twoTo f.least < den * twoTo (a + f.least - b + 1) := by
    calc num * twoTo f.least < twoTo (a + 1) * twoTo f.least :=
          Nat.mul_lt_mul_of_pos_right numHigh (twoTo_pos _)
      _ = twoTo (a + 1 + f.least) := (twoTo_add _ _).symm
      _ ≤ twoTo (b + (a + f.least - b + 1)) := twoTo_le (by omega)
      _ = twoTo b * twoTo (a + f.least - b + 1) := twoTo_add _ _
      _ ≤ den * twoTo (a + f.least - b + 1) := Nat.mul_le_mul_right _ denLow
  have low : 0 < a + f.least - b →
      den * twoTo (a + f.least - b - 1) ≤ num * twoTo f.least := by
    intro positive
    calc den * twoTo (a + f.least - b - 1) ≤ twoTo (b + 1) * twoTo (a + f.least - b - 1) :=
          Nat.mul_le_mul_right _ (Nat.le_of_lt denHigh)
      _ = twoTo (b + 1 + (a + f.least - b - 1)) := (twoTo_add _ _).symm
      _ = twoTo (a + f.least) := by congr 1; omega
      _ = twoTo a * twoTo f.least := twoTo_add _ _
      _ ≤ num * twoTo f.least := Nat.mul_le_mul_right _ numLow
  generalize a + f.least - b = guess at *
  split
  · rename_i short
    constructor
    · exact Nat.lt_of_lt_of_le short (Nat.mul_le_mul_left _ (twoTo_le (by omega)))
    · by_cases last : guess - 1 - (f.precision - 1) = 0
      · exact .inl last
      · have lower : guess - 1 - (f.precision - 1) + (f.precision - 1) = guess - 1 := by omega
        rw [lower]
        exact .inr (low (by omega))
  · rename_i reached
    constructor
    · exact Nat.lt_of_lt_of_le high (Nat.mul_le_mul_left _ (twoTo_le (by omega)))
    · by_cases last : guess - (f.precision - 1) = 0
      · exact .inl last
      · have lower : guess - (f.precision - 1) + (f.precision - 1) = guess := by omega
        rw [lower]
        exact .inr (Nat.le_of_not_lt reached)

/-- There are no more digits than the format has, and no fewer unless the place is the last. -/
theorem digits_bounds (sharp : 0 < f.precision) {num den : Nat} (hn : 0 < num) (hd : 0 < den) :
    f.digits num den ≤ twoTo f.precision ∧
      (f.place num den = 0 ∨ twoTo (f.precision - 1) ≤ f.digits num den) := by
  obtain ⟨high, low⟩ := place_spec sharp hn hd
  have unit : 0 < den * twoTo (f.place num den) := Nat.mul_pos hd (twoTo_pos _)
  have bounds := roundDiv_bounds (num * twoTo f.least) (den * twoTo (f.place num den))
  change _ ≤ f.digits num den ∧ f.digits num den ≤ _ at bounds
  constructor
  · have below : num * twoTo f.least / (den * twoTo (f.place num den)) < twoTo f.precision := by
      rw [Nat.div_lt_iff_lt_mul unit, Nat.mul_comm (twoTo _), Nat.mul_assoc, ← twoTo_add]
      exact high
    omega
  · refine low.imp_right ?_
    intro low
    refine Nat.le_trans ?_ bounds.1
    rw [Nat.le_div_iff_mul_le unit, Nat.mul_comm, Nat.mul_assoc, ← twoTo_add]
    exact low

theorem place_mono (sharp : 0 < f.precision) {a b c d : Nat} (ha : 0 < a) (hb : 0 < b)
    (hc : 0 < c) (hd : 0 < d) (h : a * d ≤ c * b) : f.place a b ≤ f.place c d := by
  obtain ⟨_, low⟩ := place_spec sharp ha hb
  obtain ⟨high, _⟩ := place_spec sharp hc hd
  rcases low with last | low
  · omega
  have both : b * d * twoTo (f.place a b + (f.precision - 1)) <
      b * d * twoTo (f.place c d + f.precision) := by
    calc b * d * twoTo (f.place a b + (f.precision - 1))
        = b * twoTo (f.place a b + (f.precision - 1)) * d := Nat.mul_right_comm _ _ _
      _ ≤ a * twoTo f.least * d := Nat.mul_le_mul_right d low
      _ = a * d * twoTo f.least := Nat.mul_right_comm _ _ _
      _ ≤ c * b * twoTo f.least := Nat.mul_le_mul_right _ h
      _ = c * twoTo f.least * b := Nat.mul_right_comm _ _ _
      _ < d * twoTo (f.place c d + f.precision) * b := Nat.mul_lt_mul_of_pos_right high hb
      _ = b * d * twoTo (f.place c d + f.precision) := by
          rw [Nat.mul_right_comm, Nat.mul_comm d b]
  have := twoTo_lt_iff.mp (Nat.lt_of_mul_lt_mul_left both)
  omega

theorem twoTo_precision (sharp : 0 < f.precision) :
    twoTo f.precision = 2 * twoTo (f.precision - 1) := by
  have : f.precision = 1 + (f.precision - 1) := by omega
  conv => lhs; rw [this, twoTo_add]

theorem nearest_eq {num : Nat} (hn : 0 < num) (den : Nat) :
    f.nearest num den =
      min (f.place num den * twoTo (f.precision - 1) + f.digits num den) f.infinity := by
  have : (num == 0) = false := by simp; omega
  simp only [nearest, this, Bool.false_eq_true, if_false]
  rfl

/-- A greater quotient is rounded to no smaller pattern. -/
theorem nearest_mono (sharp : 0 < f.precision) {a b c d : Nat} (hb : 0 < b) (hd : 0 < d)
    (h : a * d ≤ c * b) : f.nearest a b ≤ f.nearest c d := by
  rcases Nat.eq_zero_or_pos a with rfl | ha
  · exact Nat.zero_le _
  have hc : 0 < c := by
    have := Nat.mul_pos ha hd
    exact Nat.pos_of_mul_pos_right (Nat.lt_of_lt_of_le this h)
  rw [nearest_eq ha, nearest_eq hc]
  have places := place_mono sharp ha hb hc hd h
  obtain ⟨few, _⟩ := digits_bounds sharp ha hb
  obtain ⟨_, many⟩ := digits_bounds sharp hc hd
  have patterns : f.place a b * twoTo (f.precision - 1) + f.digits a b ≤
      f.place c d * twoTo (f.precision - 1) + f.digits c d := by
    rcases Nat.lt_or_eq_of_le places with lower | same
    · have next := Nat.mul_le_mul_right (twoTo (f.precision - 1)) lower
      rw [Nat.succ_mul] at next
      rw [twoTo_precision sharp] at few
      omega
    · have digits : f.digits a b ≤ f.digits c d := by
        unfold Format.digits
        rw [same]
        refine roundDiv_mono (Nat.mul_pos hb (twoTo_pos _)) (Nat.mul_pos hd (twoTo_pos _)) ?_
        calc a * twoTo f.least * (d * twoTo (f.place c d))
            = a * d * (twoTo f.least * twoTo (f.place c d)) := Nat.mul_mul_mul_comm _ _ _ _
          _ ≤ c * b * (twoTo f.least * twoTo (f.place c d)) := Nat.mul_le_mul_right _ h
          _ = c * twoTo f.least * (b * twoTo (f.place c d)) := Nat.mul_mul_mul_comm _ _ _ _
      rw [same]
      omega
  omega

/-- A pattern whose number has its digits at the last place. -/
theorem value_small {pattern : Nat} (small : pattern < twoTo (f.precision - 1)) :
    f.value pattern = pattern := by
  have field : pattern / twoTo (f.precision - 1) = 0 := Nat.div_eq_of_lt small
  have low : pattern % twoTo (f.precision - 1) = pattern := Nat.mod_eq_of_lt small
  simp only [value, parts, field, low, beq_self_eq_true, if_true]
  exact Nat.mul_one _

theorem value_full (place rest : Nat) (few : rest < twoTo (f.precision - 1)) :
    f.value ((place + 1) * twoTo (f.precision - 1) + rest) =
      (rest + twoTo (f.precision - 1)) * twoTo place := by
  have field : ((place + 1) * twoTo (f.precision - 1) + rest) / twoTo (f.precision - 1) =
      place + 1 := by
    rw [Nat.add_comm, Nat.add_mul_div_right _ _ (twoTo_pos _), Nat.div_eq_of_lt few, Nat.zero_add]
  have low : ((place + 1) * twoTo (f.precision - 1) + rest) % twoTo (f.precision - 1) = rest := by
    rw [Nat.add_comm, Nat.add_mul_mod_self_right, Nat.mod_eq_of_lt few]
  have later : (place + 1 == 0) = false := rfl
  simp only [value, parts, field, low, later, Bool.false_eq_true, if_false,
    Nat.add_sub_cancel]

/-- A pattern that is not one of the first has a place and the rest of its digits. -/
theorem exists_full {pattern : Nat} (large : twoTo (f.precision - 1) ≤ pattern) :
    ∃ place rest, rest < twoTo (f.precision - 1) ∧
      pattern = (place + 1) * twoTo (f.precision - 1) + rest := by
  have field : 0 < pattern / twoTo (f.precision - 1) :=
    Nat.div_pos large (twoTo_pos _)
  refine ⟨pattern / twoTo (f.precision - 1) - 1, pattern % twoTo (f.precision - 1),
    Nat.mod_lt _ (twoTo_pos _), ?_⟩
  rw [Nat.sub_add_cancel field, Nat.mul_comm]
  exact (Nat.div_add_mod _ _).symm

/-- What a pattern stands for that is made of a place and digits. -/
theorem value_packed (sharp : 0 < f.precision) {place digits : Nat}
    (few : digits < twoTo f.precision) (many : place = 0 ∨ twoTo (f.precision - 1) ≤ digits) :
    f.value (place * twoTo (f.precision - 1) + digits) = digits * twoTo place := by
  by_cases small : digits < twoTo (f.precision - 1)
  · obtain rfl : place = 0 := by omega
    rw [Nat.zero_mul, Nat.zero_add, value_small small]
    simp
  · rw [twoTo_precision sharp] at few
    obtain ⟨rest, rfl⟩ := Nat.exists_eq_add_of_le (Nat.le_of_not_lt small)
    rw [← Nat.add_assoc, ← Nat.succ_mul, value_full place rest (by omega), Nat.add_comm rest]

theorem value_mono {m n : Nat} (h : m ≤ n) : f.value m ≤ f.value n := by
  by_cases small : n < twoTo (f.precision - 1)
  · rw [value_small small, value_small (by omega)]
    exact h
  obtain ⟨place, rest, few, rfl⟩ := exists_full (f := f) (Nat.le_of_not_lt small)
  rw [value_full place rest few]
  by_cases first : m < twoTo (f.precision - 1)
  · rw [value_small first]
    calc m ≤ rest + twoTo (f.precision - 1) := by omega
      _ ≤ (rest + twoTo (f.precision - 1)) * twoTo place :=
          Nat.le_mul_of_pos_right _ (twoTo_pos _)
  obtain ⟨lower, rest', few', rfl⟩ := exists_full (f := f) (Nat.le_of_not_lt first)
  rw [value_full lower rest' few']
  generalize twoTo (f.precision - 1) = unit at *
  have places : lower ≤ place := by
    apply Nat.le_of_not_lt
    intro higher
    have : (place + 1 + 1) * unit ≤ (lower + 1) * unit := Nat.mul_le_mul_right unit (by omega)
    rw [Nat.succ_mul (place + 1)] at this
    omega
  rcases Nat.lt_or_eq_of_le places with below | rfl
  · calc (rest' + unit) * twoTo lower ≤ unit * 2 * twoTo lower :=
          Nat.mul_le_mul_right _ (by omega)
      _ = unit * twoTo (1 + lower) := by rw [twoTo_add, Nat.mul_assoc]
      _ ≤ unit * twoTo place := Nat.mul_le_mul_left _ (twoTo_le (by omega))
      _ ≤ (rest + unit) * twoTo place := Nat.mul_le_mul_right _ (by omega)
  · exact Nat.mul_le_mul_right _ (by omega)

theorem rounded_mono (sharp : 0 < f.precision) {a b c d : Nat} (hb : 0 < b) (hd : 0 < d)
    (h : a * d ≤ c * b) : f.rounded a b ≤ f.rounded c d :=
  value_mono (nearest_mono sharp hb hd h)

end Format

/-! ## Doubles -/

namespace Double

open Format (double)

/-- A natural that fits into the digits of a double is its own rounding. -/
theorem rounded_natural {n : Nat} (fits : n < twoTo 53) :
    double.rounded n 1 = n * twoTo double.least := by
  have sharp : 0 < double.precision := by decide
  rcases Nat.eq_zero_or_pos n with rfl | hn
  · rw [Nat.zero_mul]
    rfl
  obtain ⟨high, low⟩ := Format.place_spec sharp hn Nat.one_pos
  obtain ⟨_, many⟩ := Format.digits_bounds sharp hn Nat.one_pos
  rw [Nat.one_mul] at high low
  -- Its last digit is worth one at most, so that nothing is lost.
  have place : double.place n 1 ≤ double.least := by
    rcases low with last | low
    · omega
    have : twoTo (double.place n 1 + 52) < twoTo (53 + double.least) := by
      calc twoTo (double.place n 1 + 52) ≤ n * twoTo double.least := low
        _ < twoTo 53 * twoTo double.least := Nat.mul_lt_mul_of_pos_right fits (twoTo_pos _)
        _ = twoTo (53 + double.least) := (twoTo_add _ _).symm
    have := twoTo_lt_iff.mp this
    omega
  have scaled : n * twoTo double.least =
      n * twoTo (double.least - double.place n 1) * twoTo (double.place n 1) := by
    rw [Nat.mul_assoc, ← twoTo_add, Nat.sub_add_cancel place]
  have digits : double.digits n 1 * twoTo (double.place n 1) = n * twoTo double.least := by
    unfold Format.digits
    rw [Nat.one_mul, scaled, roundDiv_mul_self _ (twoTo_pos _)]
  have few : double.digits n 1 < twoTo 53 := by
    apply Nat.lt_of_mul_lt_mul_right (a := twoTo (double.place n 1))
    rw [digits, ← twoTo_add, Nat.add_comm]
    exact high
  have finite : double.place n 1 * twoTo (double.precision - 1) + double.digits n 1 ≤
      double.infinity := by
    have bits : twoTo 53 = 2 * twoTo (double.precision - 1) := rfl
    have ceiling := Nat.mul_le_mul_right (twoTo (double.precision - 1)) place
    rw [bits] at few
    calc double.place n 1 * twoTo (double.precision - 1) + double.digits n 1
        ≤ double.least * twoTo (double.precision - 1) + 2 * twoTo (double.precision - 1) := by omega
      _ = 1076 * twoTo (double.precision - 1) := (Nat.add_mul _ _ _).symm
      _ ≤ double.infinity := by decide
  unfold Format.rounded
  rw [Format.nearest_eq hn, Nat.min_eq_left finite]
  exact (Format.value_packed sharp few many).trans digits

theorem ratio_ofRatio (num den : Nat) :
    (ofRatio false num den).ratio = (double.rounded num den, twoTo double.least) := by
  have finite : double.nearest num den ≤ double.infinity := by
    unfold Format.nearest
    split
    · exact Nat.zero_le _
    · exact Nat.min_le_right _ _
  have range : double.infinity < twoTo 63 := by decide
  have magnitude : (ofRatio false num den).magnitude = double.nearest num den := by
    have bits : double.nearest num den < twoTo 63 := Nat.lt_of_le_of_lt finite range
    have word : double.nearest num den < twoTo 64 :=
      Nat.lt_trans bits (twoTo_lt_iff.mpr (by decide))
    simp only [ofRatio, Bool.false_eq_true, if_false, Double.magnitude, UInt64.toNat_ofNat']
    rw [Nat.mod_eq_of_lt word, Nat.mod_eq_of_lt bits]
  unfold ratio
  rw [magnitude]
  rfl

end Double

end IndexingPipeline.Number
