import Folio.Json.Written

/-!
# Folio.Json.Token

The tokens of a JSON text. `Token.scan?` takes one token off the front of a text and
`Token.ofChars?` cuts a whole text into tokens. Blanks separate tokens and are dropped.
-/

namespace Folio
namespace Json

/-- A token: a mark of punctuation, or a value without parts. -/
inductive Token where
  | openArray | closeArray | openObject | closeObject | comma | colon
  | null
  | bool (b : Bool)
  | number (n : NumberText)
  | string (s : StringText)
deriving Repr

namespace Token

open Text (digit? hexDigit? ofDigits)

def isBlank (c : Char) : Bool :=
  c == ' ' || c == '\n' || c == '\t' || c == '\r'

/-- The digits at the front of a text, and what follows them. -/
def spanDigits : List Char → List Nat × List Char
  | [] => ([], [])
  | c :: rest =>
    match digit? c with
    | some d => let (ds, tail) := spanDigits rest; (d :: ds, tail)
    | none => ([], c :: rest)

theorem length_spanDigits (s : List Char) :
    (spanDigits s).1.length + (spanDigits s).2.length = s.length := by
  induction s with
  | nil => simp [spanDigits]
  | cons c rest ih =>
    unfold spanDigits
    split
    · simp only [List.length_cons]; omega
    · simp

theorem length_spanDigits_le (s : List Char) : (spanDigits s).2.length ≤ s.length := by
  have := length_spanDigits s
  omega

/-- A point and at least one digit, or nothing. -/
def scanFraction? : List Char → Option (List Nat × List Char)
  | '.' :: rest =>
    let (ds, tail) := spanDigits rest
    if ds.isEmpty then none else some (ds, tail)
  | s => some ([], s)

/-- A sign, or nothing. -/
def scanSign : List Char → Bool × List Char
  | '-' :: rest => (true, rest)
  | '+' :: rest => (false, rest)
  | s => (false, s)

/-- An exponent of at least one digit, or nothing. -/
def scanExponent? : List Char → Option (Option Int × List Char)
  | [] => some (none, [])
  | c :: rest =>
    if c = 'e' || c = 'E' then
      let (negative, tail) := scanSign rest
      let (ds, tail) := spanDigits tail
      if ds.isEmpty then none
      else
        let n : Int := ofDigits 10 ds
        some (some (if negative then -n else n), tail)
    else some (none, c :: rest)

/-- The whole part: a zero, or digits that do not start with one. -/
def scanWhole? : List Char → Option (List Nat × List Char)
  | [] => none
  | '0' :: rest => some ([0], rest)
  | s =>
    let (ds, tail) := spanDigits s
    if ds.isEmpty then none else some (ds, tail)

/-- A number without its sign. -/
def scanUnsigned? (negative : Bool) (s : List Char) : Option (Token × List Char) := do
  let (whole, s) ← scanWhole? s
  let (fraction, s) ← scanFraction? s
  let (exponent, s) ← scanExponent? s
  some (number ⟨negative, whole, fraction, exponent⟩, s)

def escape? : Char → Option Char
  | '"' => some '"'
  | '\\' => some '\\'
  | '/' => some '/'
  | 'b' => some '\x08'
  | 'f' => some '\x0c'
  | 'n' => some '\n'
  | 'r' => some '\r'
  | 't' => some '\t'
  | _ => none

/-- The unit of four hexadecimal digits. -/
def unit? (a b c d : Char) : Option Nat :=
  ([a, b, c, d].mapM hexDigit?).map (ofDigits 16)

/-- A string up to its closing quote, after the pieces found so far, the last first. Control
characters have to be escaped. -/
def scanString? (found : List Piece) : List Char → Option (StringText × List Char)
  | [] => none
  | '"' :: rest => some (found.reverse, rest)
  | '\\' :: 'u' :: a :: b :: c :: d :: rest =>
    match unit? a b c d with
    | some u => scanString? (.unit u :: found) rest
    | none => none
  | '\\' :: e :: rest =>
    match escape? e with
    | some c => scanString? (.char c :: found) rest
    | none => none
  | c :: rest =>
    if c = '\\' || c.toNat < 32 then none else scanString? (.char c :: found) rest

/-- A token that is one fixed word. -/
def words : List (List Char × Token) :=
  [("[".toList, openArray), ("]".toList, closeArray), ("\x7b".toList, openObject),
   ("\x7d".toList, closeObject), (",".toList, comma), (":".toList, colon),
   ("null".toList, null), ("true".toList, bool true), ("false".toList, bool false)]

/-- The first of the given words that a text starts with. -/
def scanWord? (s : List Char) : List (List Char × Token) → Option (Token × List Char)
  | [] => none
  | (word, token) :: rest =>
    if word.isPrefixOf s then some (token, s.drop word.length) else scanWord? s rest

def scan? : List Char → Option (Token × List Char)
  | '"' :: rest => (scanString? [] rest).map fun (s, tail) => (string s, tail)
  | '-' :: rest => scanUnsigned? true rest
  | s => (scanWord? s words).orElse fun _ => scanUnsigned? false s

/-! ## Every token takes something off the text -/

theorem length_scanFraction?_le {s tail : List Char} {ds : List Nat}
    (h : scanFraction? s = some (ds, tail)) : tail.length ≤ s.length := by
  unfold scanFraction? at h
  split at h
  · rename_i rest
    have fits := length_spanDigits_le rest
    split at h
    rename_i found
    rw [found] at fits
    obtain ⟨_, _, rfl⟩ : _ ∧ _ ∧ _ = tail := by simpa using h
    exact Nat.le_succ_of_le fits
  · simp_all

theorem length_scanSign_le (s : List Char) : (scanSign s).2.length ≤ s.length := by
  unfold scanSign
  split <;> simp

theorem length_scanExponent?_le {s tail : List Char} {e : Option Int}
    (h : scanExponent? s = some (e, tail)) : tail.length ≤ s.length := by
  unfold scanExponent? at h
  split at h
  · simp_all
  · rename_i c rest
    have h1 := length_scanSign_le rest
    have h2 := length_spanDigits_le (scanSign rest).2
    split at h
    · dsimp only at h
      split at h
      · simp at h
      · simp only [Option.some.injEq, Prod.mk.injEq] at h
        rw [← h.2, List.length_cons]
        omega
    · simp_all

theorem length_scanWhole?_lt {s tail : List Char} {ds : List Nat}
    (h : scanWhole? s = some (ds, tail)) : tail.length < s.length := by
  unfold scanWhole? at h
  split at h
  · simp at h
  · simp_all
  · have := length_spanDigits s
    dsimp only at h
    split at h
    · simp at h
    · rename_i hne
      simp only [Option.some.injEq, Prod.mk.injEq] at h
      rw [List.isEmpty_iff, ← List.length_eq_zero_iff] at hne
      rw [← h.2]
      omega

theorem length_scanUnsigned?_lt {s tail : List Char} {negative : Bool} {t : Token}
    (h : scanUnsigned? negative s = some (t, tail)) : tail.length < s.length := by
  simp only [scanUnsigned?, Option.bind_eq_bind, Option.bind_eq_some_iff] at h
  obtain ⟨⟨_, s1⟩, h1, ⟨_, s2⟩, h2, ⟨_, s3⟩, h3, h4⟩ := h
  have := length_scanWhole?_lt h1
  have := length_scanFraction?_le h2
  have := length_scanExponent?_le h3
  simp_all
  omega

theorem length_scanString?_lt {s tail : List Char} {found : List Piece} {t : StringText}
    (h : scanString? found s = some (t, tail)) : tail.length < s.length := by
  fun_induction scanString? found s <;> simp_all <;> omega

theorem length_scanWord?_lt {s tail : List Char} {t : Token} {table : List (List Char × Token)}
    (nonempty : ∀ entry ∈ table, entry.1 ≠ []) (h : scanWord? s table = some (t, tail)) :
    tail.length < s.length := by
  induction table with
  | nil => simp [scanWord?] at h
  | cons entry rest ih =>
    obtain ⟨word, token⟩ := entry
    simp only [scanWord?] at h
    split at h
    · rename_i isPre
      have hw : word ≠ [] := nonempty (word, token) List.mem_cons_self
      have := (List.isPrefixOf_iff_prefix.mp isPre).length_le
      have := List.length_pos_iff.mpr hw
      simp only [Option.some.injEq, Prod.mk.injEq] at h
      rw [← h.2, List.length_drop]
      omega
    · exact ih (fun e he => nonempty e (List.mem_cons_of_mem _ he)) h

/-- A token is at least one character long. -/
theorem length_scan?_lt {s tail : List Char} {t : Token} (h : scan? s = some (t, tail)) :
    tail.length < s.length := by
  unfold scan? at h
  split at h
  · simp only [Option.map_eq_some_iff, Prod.exists, Prod.mk.injEq] at h
    obtain ⟨_, _, h1, _, rfl⟩ := h
    have := length_scanString?_lt h1
    simp only [List.length_cons]
    omega
  · have := length_scanUnsigned?_lt h
    simp only [List.length_cons]
    omega
  · rw [Option.orElse_eq_or, Option.or_eq_some_iff] at h
    rcases h with h | ⟨_, h⟩
    · exact length_scanWord?_lt (by decide) h
    · exact length_scanUnsigned?_lt h

/-- The tokens of a text, after those found so far, the last first. -/
def collect? (found : List Token) (s : List Char) : Option (List Token) :=
  if (s.dropWhile isBlank).isEmpty then some found.reverse
  else match _h : scan? (s.dropWhile isBlank) with
    | some (token, rest) => collect? (token :: found) rest
    | none => none
termination_by s.length
decreasing_by
  have := length_scan?_lt _h
  have := (List.dropWhile_suffix (l := s) isBlank).length_le
  omega

def ofChars? (s : List Char) : Option (List Token) :=
  collect? [] s

end Token
end Json
end Folio
