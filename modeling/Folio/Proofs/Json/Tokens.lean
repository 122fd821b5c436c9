import Folio.Json.Token

/-!
# Folio.Proofs.Json.Tokens

Tokens of a text that goes on. What is taken off the front of a text is taken off as well when more
text follows, as long as no number can go on into it.

* `Apart`: a text that no number goes on into.
* `scan?_append`: one token.
* `ofChars?_append`: all tokens.
* `collectWithin_eq_collect?`: the same tokens in a bounded number of rounds.
-/

namespace Folio
namespace Json
namespace Token

open Text (digit?)

/-- No number goes on into the text. -/
def Apart : List Char → Prop
  | [] => True
  | c :: _ => digit? c = none ∧ c ≠ '.' ∧ c ≠ 'e' ∧ c ≠ 'E'

variable {s u tail : List Char}

/-! ## Numbers -/

theorem spanDigits_of_apart (hu : Apart u) : spanDigits u = ([], u) := by
  cases u with
  | nil => rfl
  | cons c rest =>
    obtain ⟨hdigit, -⟩ := hu
    rw [spanDigits, hdigit]

theorem spanDigits_append (hu : Apart u) :
    spanDigits (s ++ u) = ((spanDigits s).1, (spanDigits s).2 ++ u) := by
  induction s with
  | nil => exact spanDigits_of_apart hu
  | cons c rest ih =>
    rw [List.cons_append, spanDigits, spanDigits]
    cases digit? c with
    | none => rfl
    | some d => simp only [ih]

/-- At least one digit. -/
def digits? (s : List Char) : Option (List Nat × List Char) :=
  if (spanDigits s).1.isEmpty then none else some (spanDigits s)

theorem digits?_append {ds : List Nat} (hu : Apart u) (h : digits? s = some (ds, tail)) :
    digits? (s ++ u) = some (ds, tail ++ u) := by
  unfold digits? at h ⊢
  rw [spanDigits_append hu]
  split at h
  · cases h
  · rename_i hsome
    rw [if_neg hsome, Option.some.inj h]

theorem scanWhole?_of_ne_zero {c : Char} (hc : c ≠ '0') (rest : List Char) :
    scanWhole? (c :: rest) = digits? (c :: rest) := by
  unfold scanWhole?
  split
  · rename_i heq
    cases heq
  · rename_i heq
    cases heq
    exact absurd rfl hc
  · rfl

theorem scanWhole?_append {ds : List Nat} (hu : Apart u) (h : scanWhole? s = some (ds, tail)) :
    scanWhole? (s ++ u) = some (ds, tail ++ u) := by
  cases s with
  | nil => cases h
  | cons c rest =>
    by_cases hc : c = '0'
    · subst hc
      cases h
      rfl
    · rw [scanWhole?_of_ne_zero hc] at h
      rw [List.cons_append, scanWhole?_of_ne_zero hc, ← List.cons_append]
      exact digits?_append hu h

theorem scanFraction?_of_ne_point {c : Char} (hc : c ≠ '.') (rest : List Char) :
    scanFraction? (c :: rest) = some ([], c :: rest) := by
  unfold scanFraction?
  split
  · rename_i heq
    cases heq
    exact absurd rfl hc
  · rfl

theorem scanFraction?_append {ds : List Nat} (hu : Apart u)
    (h : scanFraction? s = some (ds, tail)) : scanFraction? (s ++ u) = some (ds, tail ++ u) := by
  cases s with
  | nil =>
    cases h
    cases u with
    | nil => rfl
    | cons c rest =>
      obtain ⟨-, hpoint, -⟩ := hu
      exact scanFraction?_of_ne_point hpoint rest
  | cons c rest =>
    by_cases hc : c = '.'
    · subst hc
      exact digits?_append hu h
    · rw [scanFraction?_of_ne_point hc] at h
      cases h
      exact scanFraction?_of_ne_point hc _

theorem scanSign_append (h : s ≠ []) :
    scanSign (s ++ u) = ((scanSign s).1, (scanSign s).2 ++ u) := by
  cases s with
  | nil => exact absurd rfl h
  | cons c rest =>
    by_cases hminus : c = '-'
    · subst hminus
      rfl
    · by_cases hplus : c = '+'
      · subst hplus
        rfl
      · simp [scanSign, hminus, hplus]

theorem scanExponent?_mark {c : Char} (hc : c = 'e' ∨ c = 'E') (rest : List Char) :
    scanExponent? (c :: rest) = (digits? (scanSign rest).2).map fun (ds, tail) =>
      let n : Int := Text.ofDigits 10 ds
      (some (if (scanSign rest).1 then -n else n), tail) := by
  rw [scanExponent?, if_pos (by simpa using hc), digits?]
  dsimp only
  split <;> rfl

theorem scanExponent?_of_ne_mark {c : Char} (hc : ¬ (c = 'e' ∨ c = 'E')) (rest : List Char) :
    scanExponent? (c :: rest) = some (none, c :: rest) := by
  rw [scanExponent?, if_neg (by simpa using hc)]

theorem scanExponent?_append {e : Option Int} (hu : Apart u)
    (h : scanExponent? s = some (e, tail)) : scanExponent? (s ++ u) = some (e, tail ++ u) := by
  cases s with
  | nil =>
    cases h
    cases u with
    | nil => rfl
    | cons c rest =>
      obtain ⟨-, -, hlower, hupper⟩ := hu
      exact scanExponent?_of_ne_mark (by simp [hlower, hupper]) rest
  | cons c rest =>
    by_cases hc : c = 'e' ∨ c = 'E'
    · rw [scanExponent?_mark hc, Option.map_eq_some_iff] at h
      obtain ⟨⟨ds, tail'⟩, hdigits, heq⟩ := h
      cases heq
      have hrest : rest ≠ [] := by
        rintro rfl
        cases hdigits
      rw [List.cons_append, scanExponent?_mark hc, scanSign_append hrest,
        digits?_append hu hdigits]
      rfl
    · rw [scanExponent?_of_ne_mark hc] at h
      cases h
      exact scanExponent?_of_ne_mark hc _

theorem scanUnsigned?_append {negative : Bool} {t : Token} (hu : Apart u)
    (h : scanUnsigned? negative s = some (t, tail)) :
    scanUnsigned? negative (s ++ u) = some (t, tail ++ u) := by
  simp only [scanUnsigned?, Option.bind_eq_bind, Option.bind_eq_some_iff] at h
  obtain ⟨⟨whole, s₁⟩, hwhole, ⟨fraction, s₂⟩, hfraction, ⟨e, s₃⟩, hexponent, hnumber⟩ := h
  cases hnumber
  simp only [scanUnsigned?, scanWhole?_append hu hwhole, scanFraction?_append hu hfraction,
    scanExponent?_append hu hexponent, Option.bind_eq_bind, Option.bind_some]

theorem digit?_of_scanUnsigned? {negative : Bool} {c : Char} {rest : List Char} {t : Token}
    (h : scanUnsigned? negative (c :: rest) = some (t, tail)) : digit? c ≠ none := by
  intro hdigit
  simp only [scanUnsigned?, Option.bind_eq_bind, Option.bind_eq_some_iff] at h
  obtain ⟨⟨whole, s₁⟩, hwhole, -⟩ := h
  unfold scanWhole? at hwhole
  split at hwhole
  · cases hwhole
  · rename_i heq
    cases heq
    cases hdigit
  · rw [spanDigits, hdigit] at hwhole
    cases hwhole

/-! ## Strings and words -/

theorem scanString?_append {found : List Piece} {t : StringText} (u : List Char)
    (h : scanString? found s = some (t, tail)) :
    scanString? found (s ++ u) = some (t, tail ++ u) := by
  fun_induction scanString? found s with
  | case1 => cases h
  | case2 found rest =>
    cases h
    rfl
  | case3 found a b c d rest unit hunit ih =>
    simp only [List.cons_append, scanString?, hunit]
    exact ih h
  | case4 => cases h
  | case5 found e rest hshort c hescape ih =>
    -- with more text behind it, a short escape must not turn into one of four digits
    have hmark : e ≠ 'u' := by
      rintro rfl
      cases hescape
    rw [List.cons_append, List.cons_append, scanString?, hescape]
    · exact ih h
    · rintro a b c d more heq -
      exact hmark heq
  | case6 => cases h
  | case7 => cases h
  | case8 found c rest hquote _ _ hplain ih =>
    have hescape : c ≠ '\\' := by
      rintro rfl
      exact hplain rfl
    rw [List.cons_append, scanString?, if_neg hplain]
    · exact ih h
    · exact hquote
    · exact fun _ _ _ _ _ heq => absurd heq hescape
    · exact fun _ _ heq => absurd heq hescape

theorem scanWord?_mem {t : Token} {table : List (List Char × Token)}
    (h : scanWord? s table = some (t, tail)) : ∃ entry ∈ table, entry.1 <+: s := by
  induction table with
  | nil => cases h
  | cons entry rest ih =>
    obtain ⟨word, token⟩ := entry
    rw [scanWord?] at h
    split at h
    · rename_i hword
      exact ⟨(word, token), List.mem_cons_self, List.isPrefixOf_iff_prefix.mp hword⟩
    · obtain ⟨entry, hentry, hword⟩ := ih h
      exact ⟨entry, List.mem_cons_of_mem _ hentry, hword⟩

/-- More text does not turn a word into another one, as no word begins with another. -/
theorem scanWord?_append {t : Token} {table : List (List Char × Token)} (u : List Char)
    (hwords : table.Pairwise fun x y => ¬ x.1 <+: y.1 ∧ ¬ y.1 <+: x.1)
    (h : scanWord? s table = some (t, tail)) :
    scanWord? (s ++ u) table = some (t, tail ++ u) := by
  induction table with
  | nil => cases h
  | cons entry rest ih =>
    obtain ⟨word, token⟩ := entry
    obtain ⟨hother, hrest⟩ := List.pairwise_cons.mp hwords
    rw [scanWord?] at h ⊢
    split at h
    · rename_i hword
      have hpre := List.isPrefixOf_iff_prefix.mp hword
      have hpre' : word <+: s ++ u := hpre.trans (List.prefix_append s u)
      cases h
      rw [if_pos (List.isPrefixOf_iff_prefix.mpr hpre'), List.drop_append_of_le_length hpre.length_le]
    · obtain ⟨entry, hentry, hword⟩ := scanWord?_mem h
      have hnone : ¬ word <+: s ++ u := by
        intro hpre
        obtain ⟨hne, hne'⟩ := hother entry hentry
        rcases List.prefix_or_prefix_of_prefix hpre (hword.trans (List.prefix_append s u)) with
          hle | hle
        · exact hne hle
        · exact hne' hle
      rw [if_neg (mt List.isPrefixOf_iff_prefix.mp hnone)]
      exact ih hrest h

theorem scanWord?_of_digit {c : Char} (hc : digit? c ≠ none) (rest : List Char) :
    scanWord? (c :: rest) words = none := by
  cases h : scanWord? (c :: rest) words with
  | none => rfl
  | some r =>
    obtain ⟨entry, hentry, hword⟩ := scanWord?_mem h
    have hwords : ∀ entry ∈ words, entry.1.head?.any (digit? · = none) := by decide
    have hhead := hwords entry hentry
    cases hw : entry.1 with
    | nil =>
      rw [hw] at hhead
      cases hhead
    | cons x more =>
      rw [hw] at hword hhead
      obtain rfl : x = c := (List.cons_prefix_cons.mp hword).1
      exact absurd (of_decide_eq_true hhead) hc

/-! ## One token -/

theorem scan?_of_other {c : Char} (hquote : c ≠ '"') (hminus : c ≠ '-') (rest : List Char) :
    scan? (c :: rest) =
      (scanWord? (c :: rest) words).orElse fun _ => scanUnsigned? false (c :: rest) := by
  unfold scan?
  split
  · rename_i heq
    cases heq
    exact absurd rfl hquote
  · rename_i heq
    cases heq
    exact absurd rfl hminus
  · rfl

theorem scan?_append {t : Token} (hu : Apart u) (h : scan? s = some (t, tail)) :
    scan? (s ++ u) = some (t, tail ++ u) := by
  cases s with
  | nil => cases h
  | cons c rest =>
    rw [List.cons_append]
    by_cases hquote : c = '"'
    · subst hquote
      rw [scan?, Option.map_eq_some_iff] at h ⊢
      obtain ⟨⟨text, left⟩, hstring, heq⟩ := h
      cases heq
      exact ⟨(text, tail ++ u), scanString?_append u hstring, rfl⟩
    · by_cases hminus : c = '-'
      · subst hminus
        exact scanUnsigned?_append hu h
      · rw [scan?_of_other hquote hminus, Option.orElse_eq_or, Option.or_eq_some_iff] at h ⊢
        rcases h with h | ⟨-, h⟩
        · have hwords : words.Pairwise fun x y => ¬ x.1 <+: y.1 ∧ ¬ y.1 <+: x.1 := by decide
          exact .inl (scanWord?_append u hwords h)
        · exact .inr ⟨scanWord?_of_digit (digit?_of_scanUnsigned? h) _,
            scanUnsigned?_append hu h⟩

/-! ## All tokens -/

variable {found ts : List Token}

theorem collect?_of_blank (h : s.dropWhile isBlank = []) : collect? found s = some found.reverse := by
  rw [collect?, if_pos (by simp [h])]

theorem collect?_of_scan? {t : Token} (h : scan? (s.dropWhile isBlank) = some (t, tail)) :
    collect? found s = collect? (t :: found) tail := by
  have hne : s.dropWhile isBlank ≠ [] := by
    intro hnil
    rw [hnil] at h
    cases h
  rw [collect?, if_neg (by simpa using hne)]
  split
  · rename_i hscan
    rw [h] at hscan
    cases hscan
    rfl
  · rename_i hscan
    rw [h] at hscan
    cases hscan

theorem collect?_of_none (hne : s.dropWhile isBlank ≠ [])
    (h : scan? (s.dropWhile isBlank) = none) : collect? found s = none := by
  rw [collect?, if_neg (by simpa using hne)]
  split
  · rename_i hscan
    rw [h] at hscan
    cases hscan
  · rfl

/-- Blanks in front do not matter. -/
theorem collect?_congr {s' : List Char} (h : s.dropWhile isBlank = s'.dropWhile isBlank) :
    collect? found s = collect? found s' := by
  by_cases hnil : s'.dropWhile isBlank = []
  · rw [collect?_of_blank hnil, collect?_of_blank (h.trans hnil)]
  · cases hscan : scan? (s'.dropWhile isBlank) with
    | none => rw [collect?_of_none hnil hscan, collect?_of_none (h ▸ hnil) (h ▸ hscan)]
    | some r => rw [collect?_of_scan? hscan, collect?_of_scan? (h ▸ hscan)]

theorem collect?_append (hu : Apart u) (h : collect? found s = some ts) :
    collect? found (s ++ u) = collect? ts.reverse u := by
  induction found, s using collect?.induct with
  | case1 found s hblank =>
    have hnil : s.dropWhile isBlank = [] := by simpa using hblank
    rw [collect?_of_blank hnil] at h
    rw [← Option.some.inj h, List.reverse_reverse]
    refine collect?_congr ?_
    rw [List.dropWhile_append, if_pos hblank]
  | case2 found s hne token rest hscan ih =>
    rw [collect?_of_scan? hscan] at h
    rw [← ih h]
    refine collect?_of_scan? ?_
    rw [List.dropWhile_append, if_neg hne]
    exact scan?_append hu hscan
  | case3 found s hne hscan =>
    rw [collect?_of_none (by simpa using hne) hscan] at h
    cases h

theorem collect?_eq_map (found : List Token) (s : List Char) :
    collect? found s = (ofChars? s).map (found.reverse ++ ·) := by
  suffices h : ∀ more, collect? (more ++ found) s =
      (collect? more s).map (found.reverse ++ ·) from h []
  intro more
  induction more, s using collect?.induct with
  | case1 more s hblank =>
    have hnil : s.dropWhile isBlank = [] := by simpa using hblank
    rw [collect?_of_blank hnil, collect?_of_blank hnil, List.reverse_append]
    rfl
  | case2 more s hne token rest hscan ih =>
    rw [collect?_of_scan? hscan, collect?_of_scan? hscan]
    exact ih
  | case3 more s hne hscan =>
    have hne' : s.dropWhile isBlank ≠ [] := by simpa using hne
    rw [collect?_of_none hne' hscan, collect?_of_none hne' hscan]
    rfl

/-- The tokens of two texts in a row are those of the first and then those of the second. -/
theorem ofChars?_append (hu : Apart u) (h : ofChars? s = some ts) :
    ofChars? (s ++ u) = (ofChars? u).map (ts ++ ·) := by
  rw [ofChars?, collect?_append hu h, collect?_eq_map, List.reverse_reverse]

/-! ## In a bounded number of rounds -/

/-- The tokens of a text in at most so many rounds, after those found so far, the last first. -/
def collectWithin : Nat → List Token → List Char → Option (List Token)
  | 0, _, _ => none
  | rounds + 1, found, s =>
    if (s.dropWhile isBlank).isEmpty then some found.reverse
    else match scan? (s.dropWhile isBlank) with
      | some (token, rest) => collectWithin rounds (token :: found) rest
      | none => none

theorem collectWithin_eq_collect? {rounds : Nat} (h : s.length < rounds) :
    collectWithin rounds found s = collect? found s := by
  induction rounds generalizing found s with
  | zero => omega
  | succ rounds ih =>
    rw [collectWithin]
    split
    · rename_i hblank
      rw [collect?_of_blank (by simpa using hblank)]
    · rename_i hne
      split
      · rename_i token rest hscan
        have hshort := length_scan?_lt hscan
        have hdrop := (List.dropWhile_suffix (l := s) isBlank).length_le
        rw [collect?_of_scan? hscan]
        exact ih (by omega)
      · rename_i hscan
        rw [collect?_of_none (by simpa using hne) hscan]

end Token
end Json
end Folio
