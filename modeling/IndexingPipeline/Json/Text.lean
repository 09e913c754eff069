/-!
# Texts inside quotes

A text is written between quotes with the quote, the backslash and the controls below the space
escaped, and every other character as it is. Reading takes the written form apart in two steps:
`spelled` finds the closing quote and checks the shape of every escape, `decode` gives the
characters. `decode_encode` says that reading undoes writing.
-/

namespace IndexingPipeline.Json

def hexDigit? (c : Char) : Option Nat :=
  if '0' ≤ c ∧ c ≤ '9' then some (c.toNat - '0'.toNat)
  else if 'a' ≤ c ∧ c ≤ 'f' then some (c.toNat - 'a'.toNat + 10)
  else if 'A' ≤ c ∧ c ≤ 'F' then some (c.toNat - 'A'.toNat + 10)
  else none

/-- The number that four hexadecimal digits spell. -/
def hexQuad? (a b c d : Char) : Option Nat := do
  let a ← hexDigit? a
  let b ← hexDigit? b
  let c ← hexDigit? c
  let d ← hexDigit? d
  return ((a * 16 + b) * 16 + c) * 16 + d

/-- What a backslash and one character stand for. -/
def shortEscape? : Char → Option Char
  | '"' => some '"'
  | '\\' => some '\\'
  | '/' => some '/'
  | 'b' => some '\x08'
  | 'f' => some '\x0c'
  | 'n' => some '\n'
  | 'r' => some '\r'
  | 't' => some '\t'
  | _ => none

def hexChar (n : Nat) : Char := Nat.digitChar (n % 16)

def escape (c : Char) : List Char :=
  if c = '"' then ['\\', '"']
  else if c = '\\' then ['\\', '\\']
  else if c = '\x08' then ['\\', 'b']
  else if c = '\x0c' then ['\\', 'f']
  else if c = '\n' then ['\\', 'n']
  else if c = '\r' then ['\\', 'r']
  else if c = '\t' then ['\\', 't']
  else if c.toNat < 32 then ['\\', 'u', '0', '0', hexChar (c.toNat / 16), hexChar c.toNat]
  else [c]

/-- The characters between the quotes of a written text. -/
def encode (s : List Char) : List Char := s.flatMap escape

/-- Split at the closing quote: the characters before it as written, and what follows it.
Controls must be escaped, and every escape must have its shape. -/
def spelled : List Char → Option (List Char × List Char)
  | [] => none
  | '"' :: rest => some ([], rest)
  | '\\' :: 'u' :: a :: b :: c :: d :: rest =>
    if (hexQuad? a b c d).isSome then
      (spelled rest).map fun (s, rest) => ('\\' :: 'u' :: a :: b :: c :: d :: s, rest)
    else none
  | '\\' :: c :: rest =>
    if (shortEscape? c).isSome then
      (spelled rest).map fun (s, rest) => ('\\' :: c :: s, rest)
    else none
  | c :: rest =>
    if c.toNat < 32 ∨ c = '\\' then none
    else (spelled rest).map fun (s, rest) => (c :: s, rest)

/-- The characters that a written text stands for. A pair of surrogates makes one character,
and a surrogate on its own makes none. -/
def decode : List Char → Option (List Char)
  | [] => some []
  | '\\' :: 'u' :: a :: b :: c :: d :: rest => do
    let high ← hexQuad? a b c d
    if 0xD800 ≤ high ∧ high < 0xDC00 then
      match rest with
      | '\\' :: 'u' :: a :: b :: c :: d :: rest => do
        let low ← hexQuad? a b c d
        if 0xDC00 ≤ low ∧ low < 0xE000 then
          let s ← decode rest
          return Char.ofNat (0x10000 + (high - 0xD800) * 0x400 + (low - 0xDC00)) :: s
        else none
      | _ => none
    else if 0xDC00 ≤ high ∧ high < 0xE000 then none
    else do
      let s ← decode rest
      return Char.ofNat high :: s
  | '\\' :: c :: rest => do
    let c ← shortEscape? c
    let s ← decode rest
    return c :: s
  | c :: rest => do
    if c = '\\' then none
    else
      let s ← decode rest
      return c :: s

theorem hexQuad_control (n : Nat) (h : n < 32) :
    hexQuad? '0' '0' (hexChar (n / 16)) (hexChar n) = some n := by
  have all : ∀ m : Fin 32, hexQuad? '0' '0' (hexChar (m.val / 16)) (hexChar m.val) = some m.val := by
    decide
  exact all ⟨n, h⟩

theorem decode_escape (c : Char) (s : List Char) :
    decode (escape c ++ s) = (decode s).map (c :: ·) := by
  unfold escape
  repeat' split
  all_goals first
    | (next h => subst h; cases hs : decode s <;> simp [decode, shortEscape?, hs])
    | skip
  · next h =>
    have quad := hexQuad_control c.toNat h
    have low : ¬ (0xD800 ≤ c.toNat ∧ c.toNat < 0xDC00) := by omega
    have high : ¬ (0xDC00 ≤ c.toNat ∧ c.toNat < 0xE000) := by omega
    cases hs : decode s <;> simp [decode, quad, hs, low, high]
  · next h =>
    cases hs : decode s <;> simp_all [decode]

theorem decode_encode (s : List Char) : decode (encode s) = some s := by
  induction s with
  | nil => rfl
  | cons c s ih =>
    have step := decode_escape c (encode s)
    rw [ih] at step
    exact step

theorem spelled_escape (c : Char) (s : List Char) :
    spelled (escape c ++ s) = (spelled s).map fun (t, rest) => (escape c ++ t, rest) := by
  unfold escape
  repeat' split
  all_goals first
    | (next h => subst h; cases hs : spelled s <;> simp [spelled, shortEscape?, hs])
    | skip
  · next h =>
    have quad := hexQuad_control c.toNat h
    cases hs : spelled s <;> simp [spelled, quad, hs]
  · next h =>
    cases hs : spelled s <;> simp_all [spelled]

theorem spelled_encode (s rest : List Char) :
    spelled (encode s ++ '"' :: rest) = some (encode s, rest) := by
  induction s with
  | nil => rfl
  | cons c s ih =>
    have step := spelled_escape c (encode s ++ '"' :: rest)
    rw [ih] at step
    simpa [encode] using step

end IndexingPipeline.Json
