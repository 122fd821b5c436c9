import Folio.Text.Alphanumeric

/-!
# Folio.Config.Expansion

References to variables of the environment in configuration texts. A text without `${` is taken as
it stands. In any other text

* `${NAME}` stands for the value of a variable, and `${NAME:-default}` for the default if the
  variable is not set;
* `$NAME` stands for the value too, its name going as far as letters, numbers and underscores do;
* `$$` stands for one `$`, and any other `$` for itself.

Values and defaults are not looked through again.

* `Expansion.pieces`: a text as literal parts and references.
* `Expansion.expand`: the text with all references replaced, or the first variable that is not set.
-/

namespace Folio
namespace Expansion

inductive Piece where
  | literal (s : List Char)
  | reference (name : List Char) (default : Option (List Char))
deriving DecidableEq, Repr

/-- The characters of names without braces. -/
def isNameChar (c : Char) : Bool :=
  Text.isAlphanumeric c || c == '_'

/-- The parts before and after the first `:-`. -/
def splitDefault : List Char → Option (List Char × List Char)
  | [] => none
  | ':' :: '-' :: rest => some ([], rest)
  | c :: rest => (splitDefault rest).map fun (name, default) => (c :: name, default)

/-- The reference of what stands between braces. A name of no characters has no default. -/
def braced (body : List Char) : Piece :=
  match splitDefault body with
  | some ([], _) => .reference body none
  | some (name, default) => .reference name (some default)
  | none => .reference body none

/-- A text as literal parts and references. -/
def pieces : List Char → List Piece
  | [] => []
  | '$' :: '\x7b' :: rest =>
    match _h : rest.dropWhile (· != '\x7d') with
    | [] => .literal ['$', '\x7b'] :: pieces rest
    | _ :: tail => braced (rest.takeWhile (· != '\x7d')) :: pieces tail
  | '$' :: '$' :: rest => .literal ['$'] :: pieces rest
  | '$' :: c :: rest =>
    if isNameChar c then
      .reference (c :: rest.takeWhile isNameChar) none :: pieces (rest.dropWhile isNameChar)
    else .literal ['$'] :: pieces (c :: rest)
  | c :: rest => .literal [c] :: pieces rest
termination_by s => s.length
decreasing_by
  · simp only [List.length_cons]; omega
  · have := (List.dropWhile_suffix (l := rest) (· != '\x7d')).length_le
    rw [_h, List.length_cons] at this
    simp only [List.length_cons]; omega
  · simp only [List.length_cons]; omega
  · have := (List.dropWhile_suffix (l := rest) isNameChar).length_le
    simp only [List.length_cons]; omega
  · simp
  · simp

section

variable {c : Char} {s rest : List Char}

theorem splitDefault_cons (h : ¬ [':', '-'] <+: c :: s) :
    splitDefault (c :: s) = (splitDefault s).map fun (name, default) => (c :: name, default) := by
  rw [splitDefault]
  rintro rest rfl rfl
  exact h ⟨rest, rfl⟩

theorem isNameChar_mark (hmark : c ∈ ['$', '\x7b', '/']) : isNameChar c = false := by
  have hmarks : ['$', '\x7b', '/'].all (fun c => !isNameChar c) = true := by decide +kernel
  simpa using List.all_eq_true.mp hmarks c hmark

theorem ne_of_isNameChar {mark : Char} (hmark : mark ∈ ['$', '\x7b', '/'])
    (h : isNameChar c = true) : c ≠ mark := by
  rintro rfl
  rw [isNameChar_mark hmark] at h
  cases h

theorem pieces_nil : pieces [] = [] := by
  rw [pieces]

theorem pieces_cons_of_ne (h : c ≠ '$') : pieces (c :: rest) = .literal [c] :: pieces rest := by
  rw [pieces]
  all_goals simp [h]

theorem pieces_dollar (hbrace : c ≠ '\x7b') :
    pieces ('$' :: c :: rest) =
      if c = '$' then .literal ['$'] :: pieces rest
      else if isNameChar c then
        .reference (c :: rest.takeWhile isNameChar) none :: pieces (rest.dropWhile isNameChar)
      else .literal ['$'] :: pieces (c :: rest) := by
  by_cases hdollar : c = '$'
  · subst hdollar
    rw [pieces, if_pos rfl]
  · rw [pieces, if_neg hdollar]
    all_goals simp [hdollar, hbrace]

theorem pieces_dollar_name (h : isNameChar c = true) :
    pieces ('$' :: c :: rest) =
      .reference (c :: rest.takeWhile isNameChar) none :: pieces (rest.dropWhile isNameChar) := by
  have hdollar : c ≠ '$' := ne_of_isNameChar (by simp) h
  have hbrace : c ≠ '\x7b' := ne_of_isNameChar (by simp) h
  rw [pieces_dollar hbrace, if_neg hdollar, if_pos h]

theorem pieces_dollar_other (hdollar : c ≠ '$') (hbrace : c ≠ '\x7b')
    (h : isNameChar c = false) :
    pieces ('$' :: c :: rest) = .literal ['$'] :: pieces (c :: rest) := by
  rw [pieces_dollar hbrace, if_neg hdollar, if_neg (by simp [h])]

theorem pieces_braced {content : List Char} (h : '\x7d' ∉ content) (rest : List Char) :
    pieces ('$' :: '\x7b' :: (content ++ '\x7d' :: rest)) = braced content :: pieces rest := by
  have hcontent : ∀ c ∈ content, (c != '\x7d') = true := by
    intro c hc
    rw [bne_iff_ne]
    rintro rfl
    exact h hc
  have hdrop : (content ++ '\x7d' :: rest).dropWhile (· != '\x7d') = '\x7d' :: rest := by
    rw [List.dropWhile_append_of_pos hcontent]
    rfl
  have htake : (content ++ '\x7d' :: rest).takeWhile (· != '\x7d') = content := by
    rw [List.takeWhile_append_of_pos hcontent]
    simp
  rw [pieces]
  split
  · rename_i hnil
    rw [hdrop] at hnil
    cases hnil
  · rename_i hcons
    rw [hdrop] at hcons
    obtain ⟨-, rfl⟩ := List.cons.inj hcons
    rw [htake]

end

/-- The text that a part stands for, or the name of a variable that is not set. -/
def Piece.value (lookup : String → Option String) : Piece → Except String (List Char)
  | literal s => .ok s
  | reference name default =>
    match lookup (String.ofList name), default with
    | some v, _ => .ok v.toList
    | none, some d => .ok d
    | none, none => .error (String.ofList name)

/-- The text that parts stand for. -/
def substitute (lookup : String → Option String) : List Piece → Except String (List Char)
  | [] => .ok []
  | piece :: rest =>
    match piece.value lookup with
    | .error name => .error name
    | .ok s =>
      match substitute lookup rest with
      | .error name => .error name
      | .ok tail => .ok (s ++ tail)

/-- Whether a text has a reference in braces. -/
def hasReference : List Char → Bool
  | [] => false
  | c :: rest => (c == '$' && rest.head? == some '\x7b') || hasReference rest

/-- The parts of a text, one if it has no reference in braces. -/
def parse (s : String) : List Piece :=
  if hasReference s.toList then pieces s.toList else [.literal s.toList]

def variableNames (s : String) : List String :=
  (parse s).filterMap fun
    | .literal _ => none
    | .reference name _ => some (String.ofList name)

/-- The text with all references replaced, or the first variable that is not set. -/
def expand (lookup : String → Option String) (s : String) : Except String String :=
  match substitute lookup (parse s) with
  | .ok cs => .ok (String.ofList cs)
  | .error name => .error name

end Expansion
end Folio
