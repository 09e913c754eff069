import IndexingPipeline.Identifier

/-!
# The supply of identifiers

No identifier is drawn twice: the digits behind the stem can be read back to the number drawn.
An identifier is ahead of a count when it is still to be drawn from that count on; what is kept
in a database has been drawn before and is never ahead.
-/

namespace IndexingPipeline.Identifier

def digitValue (c : Char) : Nat := if c.isDigit then c.toNat - 48 else c.toNat - 87

/-- The number that hexadecimal digits spell, read behind those that spell `n`. -/
def readHex (n : Nat) (digits : List Char) : Nat :=
  digits.foldl (fun n c => 16 * n + digitValue c) n

theorem readHex_append (n : Nat) (a b : List Char) :
    readHex n (a ++ b) = readHex (readHex n a) b := by
  simp [readHex]

theorem readHex_zeros (k : Nat) : readHex 0 (List.replicate k '0') = 0 := by
  induction k with
  | zero => rfl
  | succ k ih => simpa [readHex, List.replicate_succ, digitValue] using ih

theorem digitValue_digitChar (d : Nat) (h : d < 16) : digitValue d.digitChar = d := by
  have all : ∀ d : Fin 16, digitValue (Nat.digitChar d) = d := by decide
  exact all ⟨d, h⟩

theorem readHex_toDigits (n : Nat) : readHex 0 (Nat.toDigits 16 n) = n := by
  induction n using Nat.strongRecOn with
  | ind n ih =>
    rw [Nat.toDigits_eq_if (by decide)]
    split
    · rename_i small
      simp [readHex, digitValue_digitChar n small]
    · rw [readHex_append, ih (n / 16) (by omega)]
      have digit := digitValue_digitChar (n % 16) (Nat.mod_lt _ (by decide))
      simp only [readHex, List.foldl_cons, List.foldl_nil, digit]
      omega

theorem readHex_hex (width n : Nat) : readHex 0 (hex width n) = n := by
  unfold hex
  rw [readHex_append, readHex_zeros, readHex_toDigits]

theorem ofNat_inj {i j : Nat} : ofNat i = ofNat j ↔ i = j := by
  constructor
  · intro h
    have lists := congrArg String.toList h
    simp only [ofNat, String.toList_append, String.toList_ofList] at lists
    have digits := List.append_cancel_left lists
    rw [← readHex_hex 12 i, digits, readHex_hex]
  · rintro rfl
    rfl

/-- Whether an identifier is still to be drawn from a count on. -/
def Ahead (drawn : Nat) (id : String) : Prop := ∃ n, drawn ≤ n ∧ id = ofNat n

theorem ahead_ofNat {drawn n : Nat} : Ahead drawn (ofNat n) ↔ drawn ≤ n := by
  constructor
  · rintro ⟨m, hm, same⟩
    rw [ofNat_inj] at same
    omega
  · intro h
    exact ⟨n, h, rfl⟩

theorem Ahead.mono {earlier later : Nat} {id : String} (h : Ahead later id)
    (order : earlier ≤ later) : Ahead earlier id := by
  obtain ⟨n, hn, rfl⟩ := h
  exact ⟨n, by omega, rfl⟩

end IndexingPipeline.Identifier
