import IndexingPipeline.Proofs.Spelling

/-!
# Records are read back

The parts of a record that were written under their names are found again, each as what it was,
and a part that was left out is missing. What a part is read as has the range of its kind.
-/

namespace IndexingPipeline

namespace Json

def membersNamed (named : List (String × Tree)) : List (List Char × Tree) :=
  named.map fun m => member m.1 m.2

/-- A member that is written only when there is something to write. -/
def given (name : String) (t? : Option Tree) : List (String × Tree) :=
  (t?.map fun t => (name, t)).toList

theorem lookup_given (name other : String) (t? : Option Tree) :
    (given name t?).lookup other = if other = name then t? else none := by
  cases t? with
  | none => simp [given]
  | some t =>
    by_cases same : other = name
    · simp [given, same]
    · simp [given, List.lookup_cons, beq_false_of_ne same, same]

theorem sublist_given (name : String) (t? : Option Tree) :
    ((given name t?).map (·.1)).Sublist [name] := by
  cases t? <;> simp [given]

theorem written_given {name : String} {t? : Option Tree} (h : ∀ t ∈ t?, t.Written) :
    ∀ m ∈ given name t?, m.2.Written := by
  cases t? with
  | none => simp [given]
  | some t => simpa [given] using h t rfl

/-- Members of known names in their order are all read, and nothing else. -/
theorem knownMembers_named {names : List String} (once : names.Nodup)
    {named : List (String × Tree)} (known : (named.map (·.1)).Sublist names) :
    knownMembers names (membersNamed named) = some named := by
  have unique := once.sublist known
  replace known := known.subset
  induction named with
  | nil => rfl
  | cons m rest ih =>
    obtain ⟨other, unique⟩ := List.nodup_cons.mp unique
    obtain ⟨here, known⟩ := List.cons_subset.mp known
    have others := ih unique known
    have single : ∀ t, (m.1, t) ∉ rest := fun t later =>
      other (List.mem_map.mpr ⟨_, later, rfl⟩)
    simp only [membersNamed, member] at others ⊢
    simp [knownMembers, decode_encode, others, here, single]

theorem need_of_lookup {fields : List (String × Tree)} {name : String} {t : Tree}
    (there : fields.lookup name = some t) (read : Tree → Option α) :
    need fields name read = read t := by
  simp [need, there]

theorem part_of_lookup {fields : List (String × Tree)} {name : String} {t : Tree}
    (there : fields.lookup name = some t) (fallback : α) (read : Tree → Option α) :
    part fields name fallback read = read t := by
  simp [part, there]

/-- A part that was written unless it is missing is read back. -/
theorem maybe_of_lookup {fields : List (String × Tree)} {name : String} {write : α → Tree}
    {read : Tree → Option α} {x : Option α} (there : fields.lookup name = x.map write)
    (value : ∀ a, write a ≠ .null) (reads : ∀ a ∈ x, read (write a) = some a) :
    maybe fields name read = some x := by
  cases x with
  | none =>
    rw [Option.map_none] at there
    simp [maybe, there]
  | some a =>
    rw [Option.map_some] at there
    unfold maybe
    rw [there]
    split
    · rename_i none
      cases none
    · rename_i null
      exact absurd (Option.some.inj null) (value a)
    · rename_i t _ same
      cases same
      rw [reads a rfl, Option.map_some]

namespace Tree

theorem Written.named {named : List (String × Tree)} (h : ∀ m ∈ named, m.2.Written) :
    (Tree.object (membersNamed named)).Written := by
  refine .object ?_ ?_
  · intro m member
    obtain ⟨n, _, rfl⟩ := List.mem_map.mp member
    exact ⟨_, rfl⟩
  · intro m member
    obtain ⟨n, there, rfl⟩ := List.mem_map.mp member
    exact h n there

@[simp] theorem text?_ofString (s : String) : (ofString s).text? = some s := by
  simp [text?, ofString, decode_encode]

theorem integer?_ofInt {n : Int} (low : -(Number.twoTo 63 : Int) ≤ n)
    (high : n < Number.twoTo 63) : (ofInt n).integer? = some n := by
  have larger : (Number.twoTo 63 : Int) ≤ Number.twoTo 64 := by decide
  rw [ofInt, integer?, wholeOf?_toString low (by omega), Option.filter_some, if_pos (by simpa)]

theorem natural?_ofInt {bound n : Nat} (inside : n < bound) (word : bound ≤ Number.twoTo 64) :
    (ofInt n).natural? bound = some n := by
  have whole : wholeOf? (toString (n : Int)).toList = some (Int.ofNat n) :=
    wholeOf?_toString (by omega) (by omega)
  rw [ofInt, natural?, whole]
  exact if_pos inside

theorem items?_map {item : Tree → Option α} {write : α → Tree} {xs : List α}
    (reads : ∀ x ∈ xs, item (write x) = some x) : (list (xs.map write)).items? item = some xs := by
  rw [items?]
  induction xs with
  | nil => rfl
  | cons x rest ih =>
    have others := ih fun y later => reads y (List.mem_cons_of_mem x later)
    simp [reads x (by simp), others]

/-- Whole numbers are read from 64 bits, with or without a sign. -/
theorem wholeOf?_range {spelling : List Char} {n : Int} (h : wholeOf? spelling = some n) :
    -(Number.twoTo 63 : Int) ≤ n ∧ n < Number.twoTo 64 := by
  unfold wholeOf? at h
  have larger : (Number.twoTo 63 : Int) ≤ Number.twoTo 64 := by decide
  split at h
  · split at h
    · simp only at h
      split at h
      · cases h; omega
      · cases h
    · cases h
  · split at h
    · simp only at h
      split at h
      · cases h; omega
      · cases h
    · cases h

theorem integer?_range {t : Tree} {n : Int} (h : t.integer? = some n) :
    -(Number.twoTo 63 : Int) ≤ n ∧ n < Number.twoTo 63 := by
  cases t with
  | number s =>
    obtain ⟨whole, high⟩ := Option.filter_eq_some_iff.mp h
    exact ⟨(wholeOf?_range whole).1, by simpa using high⟩
  | _ => cases h

theorem natural?_lt {bound n : Nat} {t : Tree} (h : t.natural? bound = some n) : n < bound := by
  cases t with
  | number s =>
    simp only [natural?] at h
    split at h
    · split at h
      · cases h; assumption
      · cases h
    · cases h
  | _ => cases h

theorem mem_items? {item : Tree → Option α} {t : Tree} {xs : List α}
    (h : t.items? item = some xs) {x : α} (member : x ∈ xs) : ∃ u, item u = some x := by
  cases t with
  | list items =>
    rw [items?] at h
    induction items generalizing xs with
    | nil => cases h; cases member
    | cons u rest ih =>
      simp only [List.mapM_cons, Option.bind_eq_bind, Option.bind_eq_some_iff] at h
      obtain ⟨y, first, ys, others, same⟩ := h
      cases same
      rcases List.mem_cons.mp member with rfl | later
      · exact ⟨u, first⟩
      · exact ih later others
  | _ => cases h

end Tree

theorem part_holds {P : α → Prop} {fields : List (String × Tree)} {name : String} {fallback : α}
    {read : Tree → Option α} {x : α} (h : part fields name fallback read = some x)
    (missing : P fallback) (given : ∀ t, read t = some x → P x) : P x := by
  unfold part at h
  split at h
  · cases h; exact missing
  · exact given _ h

theorem maybe_holds {P : α → Prop} {fields : List (String × Tree)} {name : String}
    {read : Tree → Option α} {x : Option α} (h : maybe fields name read = some x)
    (given : ∀ t y, read t = some y → P y) : ∀ y ∈ x, P y := by
  unfold maybe at h
  split at h
  · cases h; rintro _ ⟨⟩
  · cases h; rintro _ ⟨⟩
  · obtain ⟨z, read, rfl⟩ := Option.map_eq_some_iff.mp h
    rintro _ ⟨⟩
    exact given _ _ read

end Json

end IndexingPipeline
