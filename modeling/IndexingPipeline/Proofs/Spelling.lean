import Mathlib.Data.List.Basic
import IndexingPipeline.Json.Record
import IndexingPipeline.Json.Value

/-!
# Written values are read back

The compact form of a tree whose texts are encoded and whose numbers are whole is read as that
tree, and as nothing more when something else follows. So no two such trees have the same compact
form, whatever quotes, backslashes or brackets stand in their texts.
-/

namespace IndexingPipeline.Json

/-- What may follow a number without going on with it. -/
def Stops (rest : List Char) : Prop :=
  ∀ c ∈ rest.head?, c.isDigit = false ∧ c ≠ '.' ∧ c ≠ 'e' ∧ c ≠ 'E'

theorem stops_cons {close c : Char} (closes : close = ']' ∨ close = '}')
    (follows : c = ',' ∨ c = close) (rest : List Char) : Stops (c :: rest) := by
  rintro _ ⟨⟩
  rcases follows with rfl | rfl
  · decide
  · rcases closes with rfl | rfl <;> decide

theorem head?_toDigits {n : Nat} (h : (Nat.toDigits 10 n).head? = some '0') : n = 0 := by
  induction n using Nat.strongRecOn with
  | ind n ih =>
    rw [Nat.toDigits_eq_if (by decide)] at h
    split at h
    · simpa using h
    · have shorter : (Nat.toDigits 10 (n / 10)).head? = some '0' := by
        rwa [List.head?_append_of_ne_nil _ Nat.toDigits_ne_nil] at h
      have zero := ih (n / 10) (by omega) shorter
      omega

theorem digits_append {ds rest : List Char} (all : ∀ c ∈ ds, c.isDigit = true)
    (stops : Stops rest) : digits (ds ++ rest) = (ds, rest) := by
  have none : rest.takeWhile Char.isDigit = [] ∧ rest.dropWhile Char.isDigit = rest := by
    cases rest with
    | nil => exact ⟨rfl, rfl⟩
    | cons c cs =>
      have other := (stops c rfl).1
      simp [other]
  simp only [digits, List.takeWhile_append_of_pos all, List.dropWhile_append_of_pos all, none,
    List.append_nil]

theorem isDigit_toDigits (n : Nat) : ∀ c ∈ Nat.toDigits 10 n, c.isDigit = true :=
  fun _ => Nat.isDigit_of_mem_toDigits (by decide) (by decide)

theorem readWhole_toDigits (n : Nat) {rest : List Char} (stops : Stops rest) :
    readWhole (Nat.toDigits 10 n ++ rest) = some (Nat.toDigits 10 n, rest) := by
  unfold readWhole
  rw [digits_append (isDigit_toDigits n) stops]
  cases spelled : Nat.toDigits 10 n with
  | nil => exact absurd spelled Nat.toDigits_ne_nil
  | cons c cs =>
    split
    · rename_i same
      cases same
    · rename_i same
      cases same
      have zero := @head?_toDigits n (by rw [spelled]; rfl)
      subst zero
      cases spelled
    · rename_i same
      cases same
      rfl

theorem readFraction_stops {rest : List Char} (stops : Stops rest) :
    readFraction rest = some ([], rest) := by
  unfold readFraction
  split
  · exact absurd rfl (stops _ rfl).2.1
  · rfl

theorem readExponent_stops {rest : List Char} (stops : Stops rest) :
    readExponent rest = some ([], rest) := by
  unfold readExponent
  split
  · obtain ⟨_, _, lower, upper⟩ := stops _ rfl
    rw [if_neg (by simp [lower, upper])]
  · rfl

theorem toString_toList (n : Int) : (toString n).toList =
    if 0 ≤ n then Nat.toDigits 10 n.toNat else '-' :: Nat.toDigits 10 (-n).toNat := by
  rw [Int.toString_eq_repr, Int.repr_eq_if]
  split <;> simp [Nat.repr_eq_ofList_toDigits]

theorem readNumber_toString (n : Int) {rest : List Char} (stops : Stops rest) :
    readNumber ((toString n).toList ++ rest) = some ((toString n).toList, rest) := by
  have unsigned : ∀ (sign : List Char) (m : Nat),
      ((readWhole (Nat.toDigits 10 m ++ rest)).bind fun whole =>
        (readFraction whole.2).bind fun fraction =>
        (readExponent fraction.2).bind fun exponent =>
        some (sign ++ whole.1 ++ fraction.1 ++ exponent.1, exponent.2)) =
      some (sign ++ Nat.toDigits 10 m, rest) := by
    intro sign m
    simp [readWhole_toDigits m stops, readFraction_stops stops, readExponent_stops stops]
  rw [toString_toList]
  by_cases sign : 0 ≤ n
  · rw [if_pos sign]
    cases spelled : Nat.toDigits 10 n.toNat with
    | nil => exact absurd spelled Nat.toDigits_ne_nil
    | cons c cs =>
      have plain : c ≠ '-' := by
        rintro rfl
        have digit := isDigit_toDigits n.toNat '-' (by simp [spelled])
        cases digit
      have read := unsigned [] n.toNat
      rw [spelled] at read
      unfold readNumber
      split
      rename_i pair
      split at pair
      · rename_i minus
        exact absurd (List.cons.inj minus).1 plain
      · cases pair
        exact read
  · rw [if_neg sign]
    exact unsigned ['-'] (-n).toNat

/-- The natural that decimal digits spell is the one that was written. -/
theorem naturalOf_toDigits (n : Nat) : naturalOf (Nat.toDigits 10 n) = n := by
  have read : Nat.ofDigitChars 10 (Nat.toDigits 10 n) 0 = n := Nat.ofDigitChars_ten_toDigits
  rw [Nat.ofDigitChars_eq_foldl] at read
  simpa only [naturalOf, Nat.mul_comm 10] using read

theorem wholeOf?_toString {n : Int} (low : -(Number.twoTo 63 : Int) ≤ n)
    (high : n < Number.twoTo 64) : wholeOf? (toString n).toList = some n := by
  rw [toString_toList]
  by_cases sign : 0 ≤ n
  · rw [if_pos sign]
    have all : (Nat.toDigits 10 n.toNat).all Char.isDigit = true :=
      List.all_eq_true.mpr (isDigit_toDigits _)
    unfold wholeOf?
    split
    · rename_i ds minus
      have digit := isDigit_toDigits n.toNat '-' (by simp [minus])
      cases digit
    · rw [if_pos all, naturalOf_toDigits]
      simp only
      rw [if_pos (by omega), Int.toNat_of_nonneg sign]
  · have all : (Nat.toDigits 10 (-n).toNat).all Char.isDigit = true :=
      List.all_eq_true.mpr (isDigit_toDigits _)
    rw [if_neg sign]
    simp only [wholeOf?, all, if_true, naturalOf_toDigits]
    rw [if_pos (by omega)]
    congr 1
    omega

/-- A text or name that stands encoded, and numbers that are whole. -/
inductive Tree.Written : Tree → Prop
  | null : Written .null
  | bool (value : Bool) : Written (.bool value)
  | ofInt (n : Int) : Written (.ofInt n)
  | ofString (s : String) : Written (.ofString s)
  | list {items : List Tree} : (∀ t ∈ items, Written t) → Written (.list items)
  | object {members : List (List Char × Tree)} :
      (∀ m ∈ members, ∃ name, m.1 = encode name) → (∀ m ∈ members, Written m.2) →
      Written (.object members)

def renderMember (m : List Char × Tree) : List Char := '"' :: m.1 ++ '"' :: ':' :: m.2.render

def renderSequence (write : α → List Char) (close : Char) : List α → List Char
  | [] => [close]
  | [x] => write x ++ [close]
  | x :: y :: rest => write x ++ ',' :: renderSequence write close (y :: rest)

theorem renderItems_eq (items : List Tree) :
    renderItems items = renderSequence Tree.render ']' items := by
  fun_induction renderSequence Tree.render ']' items <;> simp_all [renderItems]

theorem renderMembers_eq (members : List (List Char × Tree)) :
    renderMembers members = renderSequence renderMember '}' members := by
  fun_induction renderSequence renderMember '}' members <;>
    simp_all [renderMembers, renderMember]

theorem length_renderSequence (write : α → List Char) (close : Char) {xs : List α} {x : α}
    (member : x ∈ xs) : (write x).length < (renderSequence write close xs).length := by
  fun_induction renderSequence write close xs with
  | case1 => cases member
  | case2 y =>
    obtain rfl := List.mem_singleton.mp member
    simp
  | case3 y z rest ih =>
    rw [List.length_append, List.length_cons]
    rcases List.mem_cons.mp member with rfl | later
    · omega
    · have := ih later
      omega

theorem length_le_renderSequence (write : α → List Char) (close : Char) (xs : List α) :
    xs.length ≤ (renderSequence write close xs).length := by
  fun_induction renderSequence write close xs with
  | case1 => simp
  | case2 y => simp
  | case3 y z rest ih => simp only [List.length_cons, List.length_append] at ih ⊢; omega

theorem skipSpace_of_head {s : List Char} (h : ∀ c ∈ s.head?, isSpace c = false) :
    skipSpace s = s := by
  cases s with
  | nil => rfl
  | cons c cs => simp [skipSpace, h c rfl]

section Sequences

variable {item : List Char → Option (α × List Char)} {write : α → List Char} {close : Char}

/-- What is written for each item is read as that item when a comma or the closing bracket
follows. -/
def ReadsBack (item : List Char → Option (α × List Char)) (write : α → List Char) (close : Char)
    (x : α) : Prop :=
  ∀ c rest, c = ',' ∨ c = close → item (write x ++ c :: rest) = some (x, c :: rest)

theorem readItems_renderSequence (closes : close = ']' ∨ close = '}') {xs : List α}
    (some_item : xs ≠ []) (reads : ∀ x ∈ xs, ReadsBack item write close x) {bound : Nat}
    (enough : xs.length ≤ bound) (rest : List Char) :
    readItems item close bound (renderSequence write close xs ++ rest) = some (xs, rest) := by
  have comma : close ≠ ',' := by rcases closes with rfl | rfl <;> decide
  fun_induction renderSequence write close xs generalizing bound with
  | case1 => exact absurd rfl some_item
  | case2 x =>
    obtain ⟨bound, rfl⟩ : ∃ b, bound = b + 1 := ⟨bound - 1, by simp at enough; omega⟩
    have first := reads x (by simp) close rest (.inr rfl)
    have skipped : skipSpace (close :: rest) = close :: rest := by
      refine skipSpace_of_head ?_
      rintro _ ⟨⟩
      rcases closes with rfl | rfl <;> rfl
    simp [readItems, first, skipped]
  | case3 x y more ih =>
    obtain ⟨bound, rfl⟩ : ∃ b, bound = b + 1 := ⟨bound - 1, by simp at enough; omega⟩
    have first := reads x (by simp) ',' (renderSequence write close (y :: more) ++ rest)
      (.inl rfl)
    have others := ih (by simp) (fun z member => reads z (List.mem_cons_of_mem x member))
      (by simpa using enough)
    have skipped : ∀ s, skipSpace (',' :: s) = ',' :: s :=
      fun s => skipSpace_of_head (by simp [isSpace])
    simp [readItems, first, skipped, comma.symm, others]

theorem readSequence_renderSequence (closes : close = ']' ∨ close = '}') {xs : List α}
    (heads : ∀ x ∈ xs, ∃ c cs, write x = c :: cs ∧ isSpace c = false ∧ c ≠ close)
    (reads : ∀ x ∈ xs, ReadsBack item write close x) (rest : List Char) :
    readSequence item close (renderSequence write close xs ++ rest) = some (xs, rest) := by
  cases xs with
  | nil =>
    have skipped : skipSpace (close :: rest) = close :: rest := by
      refine skipSpace_of_head ?_
      rintro _ ⟨⟩
      rcases closes with rfl | rfl <;> rfl
    simp [readSequence, renderSequence, skipped]
  | cons x more =>
    obtain ⟨c, cs, first, visible, other⟩ := heads x (by simp)
    obtain ⟨tail, starts⟩ : ∃ tail, renderSequence write close (x :: more) = c :: tail := by
      cases more <;> simp [renderSequence, first]
    have whole := readItems_renderSequence closes (by simp) reads (Nat.le_trans
      (length_le_renderSequence write close (x :: more)) (Nat.le_add_right _ rest.length)) rest
    rw [← List.length_append, starts] at whole
    have skipped : skipSpace (c :: tail ++ rest) = c :: tail ++ rest :=
      skipSpace_of_head (by simp [visible])
    rw [starts, readSequence, skipped]
    simp only [List.cons_append, other, if_false]
    exact whole

end Sequences

theorem head_toString (n : Int) :
    ∃ c cs, (toString n).toList = c :: cs ∧ (c.isDigit = true ∨ c = '-') := by
  rw [toString_toList]
  split
  · cases spelled : Nat.toDigits 10 n.toNat with
    | nil => exact absurd spelled Nat.toDigits_ne_nil
    | cons c cs =>
      exact ⟨c, cs, rfl, .inl (isDigit_toDigits n.toNat c (by simp [spelled]))⟩
  · exact ⟨'-', _, rfl, .inr rfl⟩

/-- Nothing but a number starts with a digit or a minus. -/
theorem ne_of_sign {c d : Char} (sign : c.isDigit = true ∨ c = '-') (letter : d.isDigit = false)
    (plain : d ≠ '-') : c ≠ d := by
  rintro rfl
  rcases sign with digit | minus
  · exact absurd (digit.symm.trans letter) (by decide)
  · exact plain minus

theorem isSpace_of_sign {c : Char} (sign : c.isDigit = true ∨ c = '-') : isSpace c = false := by
  simp only [isSpace, Bool.or_eq_false_iff, beq_eq_false_iff_ne]
  exact ⟨⟨⟨ne_of_sign sign rfl (by decide), ne_of_sign sign rfl (by decide)⟩,
    ne_of_sign sign rfl (by decide)⟩, ne_of_sign sign rfl (by decide)⟩

theorem readPart_number {s : List Char} {c : Char} (starts : s.head? = some c)
    (sign : c.isDigit = true ∨ c = '-') (depth : Nat) :
    Tree.readPart depth s = (readNumber s).map fun (n, rest) => (.number n, rest) := by
  have skipped : skipSpace s = s := skipSpace_of_head (by simp [starts, isSpace_of_sign sign])
  unfold Tree.readPart
  rw [skipped]
  split <;> first
    | (cases starts; exact absurd rfl (ne_of_sign sign rfl (by decide)))
    | rfl

namespace Tree

theorem Written.head {t : Tree} (h : t.Written) :
    ∃ c cs, t.render = c :: cs ∧ isSpace c = false ∧ c ≠ ']' := by
  cases h with
  | bool value => cases value <;> exact ⟨_, _, rfl, rfl, by decide⟩
  | ofInt n =>
    obtain ⟨c, cs, starts, sign⟩ := head_toString n
    exact ⟨c, cs, starts, isSpace_of_sign sign, ne_of_sign sign rfl (by decide)⟩
  | _ => exact ⟨_, _, rfl, rfl, by decide⟩

/-- Whatever stops a number may follow a written tree. -/
theorem Written.readPart_render {t : Tree} (h : t.Written) {depth : Nat}
    (enough : t.render.length ≤ depth) {rest : List Char} (stops : Stops rest) :
    Tree.readPart depth (t.render ++ rest) = some (t, rest) := by
  induction h generalizing depth rest with
  | null => simp [Tree.render, Tree.readPart, skipSpace, isSpace]
  | bool value => cases value <;> simp [Tree.render, Tree.readPart, skipSpace, isSpace]
  | ofInt n =>
    obtain ⟨c, cs, starts, sign⟩ := head_toString n
    have read := readNumber_toString n stops
    rw [Tree.ofInt, Tree.render, readPart_number (by rw [starts]; rfl) sign, read]
    rfl
  | ofString s =>
    have read := spelled_encode s.toList rest
    simp [Tree.ofString, Tree.render, Tree.readPart, skipSpace, isSpace, read]
  | @list items written ih =>
    rw [Tree.render, renderItems_eq] at enough ⊢
    obtain ⟨depth, rfl⟩ : ∃ d, depth = d + 1 := ⟨depth - 1, by simp at enough; omega⟩
    have reads : ∀ t ∈ items, ReadsBack (Tree.readPart depth) Tree.render ']' t := by
      intro t member c rest follows
      refine ih t member ?_ (stops_cons (.inl rfl) follows rest)
      have shorter := length_renderSequence Tree.render ']' member
      rw [List.length_cons] at enough
      omega
    have read := readSequence_renderSequence (.inl rfl) (fun t member => (written t member).head)
      reads rest
    simp [Tree.readPart, skipSpace, isSpace, read]
  | @object members names written ih =>
    rw [Tree.render, renderMembers_eq] at enough ⊢
    obtain ⟨depth, rfl⟩ : ∃ d, depth = d + 1 := ⟨depth - 1, by simp at enough; omega⟩
    have reads : ∀ m ∈ members,
        ReadsBack (readMember (Tree.readPart depth)) renderMember '}' m := by
      rintro ⟨name, t⟩ member c rest follows
      have value : Tree.readPart depth (t.render ++ c :: rest) = some (t, c :: rest) := by
        refine ih _ member ?_ (stops_cons (.inr rfl) follows rest)
        have shorter := length_renderSequence renderMember '}' member
        simp only [renderMember, List.cons_append, List.length_cons, List.length_append]
          at shorter enough
        show t.render.length ≤ depth
        omega
      obtain ⟨name, rfl⟩ := names _ member
      have spelling := spelled_encode name (':' :: t.render ++ c :: rest)
      simp only [List.cons_append] at spelling
      simp [readMember, renderMember, skipSpace, isSpace, spelling, value]
    have starts : ∀ m ∈ members,
        ∃ c cs, renderMember m = c :: cs ∧ isSpace c = false ∧ c ≠ '}' :=
      fun m _ => ⟨'"', _, rfl, rfl, by decide⟩
    have read := readSequence_renderSequence (.inr rfl) starts reads rest
    simp [Tree.readPart, skipSpace, isSpace, read]

theorem Written.readDeep?_render {t : Tree} (h : t.Written) :
    Tree.readDeep? t.render = some t := by
  have read : Tree.readPart t.render.length (t.render ++ []) = some (t, []) :=
    h.readPart_render (Nat.le_refl _) (by rintro _ ⟨⟩)
  rw [List.append_nil] at read
  rw [Tree.readDeep?, Tree.read?, read]
  rfl

theorem Written.compact_inj {t u : Tree} (ht : t.Written) (hu : u.Written) :
    t.compact = u.compact ↔ t = u := by
  constructor
  · intro same
    have rendered : t.render = u.render := by
      simpa [Tree.compact] using congrArg String.toList same
    have read := ht.readDeep?_render
    rw [rendered, hu.readDeep?_render] at read
    exact (Option.some.inj read).symm
  · rintro rfl
    rfl

end Tree

end IndexingPipeline.Json
