import Folio.Proofs.Html.WellFormed

/-!
# Folio.Proofs.Html.Tokenizer

Markup as a browser reads it: characters, tags with their attributes, and comments. The states and
steps are those of the HTML standard. Character references are left as they are written, document
types are read like comments, and `script` is read like `style`.

* `Tokenizer.step`, `Tokenizer.read`: one character, and characters in a row.
* `Tokenizer.Whole`: a text after which the tokenizer is where it was before.
* `Tokenizer.read_write`: sound markup is read as the tree it was written from.
-/

namespace Folio
namespace Tokenizer

/-- A tag. The first of two attributes of one name counts. -/
structure Tag where
  isEnd : Bool
  name : List Char
  attributes : List (List Char × List Char)
  selfClosing : Bool
deriving DecidableEq, Repr

namespace Tag

def named (isEnd : Bool) (name : List Char) : Tag :=
  ⟨isEnd, name, [], false⟩

def add (t : Tag) (a : List Char × List Char) : Tag :=
  if a.1 ∈ t.attributes.map Prod.fst then t else { t with attributes := t.attributes ++ [a] }

end Tag

/-- What a text is read as. -/
inductive Token where
  | char (c : Char)
  | tag (t : Tag)
  | comment (text : List Char)
deriving DecidableEq, Repr

/-- Where in a text the tokenizer is, with what it has read of the token there. -/
inductive State where
  | data
  /-- The content of an element whose content is text. -/
  | raw (element : List Char)
  | rawOpen (element : List Char)
  | rawEnd (element seen : List Char)
  | plaintext
  | tagOpen
  | endTagOpen
  | tagName (t : Tag)
  | beforeName (t : Tag)
  | name (t : Tag) (name : List Char)
  | afterName (t : Tag) (name : List Char)
  | beforeValue (t : Tag) (name : List Char)
  | doubleQuoted (t : Tag) (name value : List Char)
  | singleQuoted (t : Tag) (name value : List Char)
  | unquoted (t : Tag) (name value : List Char)
  | selfClosing (t : Tag)
  | declaration
  | declarationDash
  | bogusComment (text : List Char)
  | commentStart
  | commentStartDash
  | comment (text : List Char)
  | commentEndDash (text : List Char)
  | commentEnd (text : List Char)
  | commentEndBang (text : List Char)
deriving DecidableEq, Repr

def isBlank (c : Char) : Bool :=
  c == ' ' || c == '\n' || c == '\t' || c == '\r' || c == '\x0c'

/-- Where the tokenizer is behind a tag. -/
def behind (t : Tag) : State :=
  if t.isEnd then .data
  else if String.ofList t.name = "plaintext" then .plaintext
  else if String.ofList t.name ∈ Markup.rawTags then .raw t.name
  else .data

def close (t : Tag) : State × List Token :=
  (behind t, [.tag t])

/-- A character between tags. -/
def inData (c : Char) : State × List Token :=
  if c = '<' then (.tagOpen, []) else (.data, [.char c])

/-- A character in the content of an element whose content is text. -/
def inRaw (element : List Char) (c : Char) : State × List Token :=
  if c = '<' then (.rawOpen element, []) else (.raw element, [.char c])

/-- A character of a tag where a name of an attribute may start. -/
def inTag (t : Tag) (c : Char) : State × List Token :=
  if isBlank c then (.beforeName t, [])
  else if c = '/' then (.selfClosing t, [])
  else if c = '>' then close t
  else (.name t [c.toLower], [])

/-- A character inside a comment. -/
def inComment (text : List Char) (c : Char) : State × List Token :=
  if c = '-' then (.commentEndDash text, []) else (.comment (text ++ [c]), [])

/-- A character inside a comment that ends at the first `>`. -/
def inBogusComment (text : List Char) (c : Char) : State × List Token :=
  if c = '>' then (.data, [.comment text]) else (.bogusComment (text ++ [c]), [])

/-- One character. -/
def step : State → Char → State × List Token
  | .data, c => inData c
  | .raw element, c => inRaw element c
  | .rawOpen element, c =>
    if c = '/' then (.rawEnd element [], [])
    else
      let (next, tokens) := inRaw element c
      (next, .char '<' :: tokens)
  | .rawEnd element seen, c =>
    if c.isAlpha then (.rawEnd element (seen ++ [c]), [])
    else if seen.map Char.toLower = element && (isBlank c || c == '/' || c == '>') then
      inTag (.named true element) c
    else
      let (next, tokens) := inRaw element c
      (next, ('<' :: '/' :: seen).map .char ++ tokens)
  | .plaintext, c => (.plaintext, [.char c])
  | .tagOpen, c =>
    if c.isAlpha then (.tagName (.named false [c.toLower]), [])
    else if c = '/' then (.endTagOpen, [])
    else if c = '!' then (.declaration, [])
    else if c = '?' then (.bogusComment ['?'], [])
    else
      let (next, tokens) := inData c
      (next, .char '<' :: tokens)
  | .endTagOpen, c =>
    if c.isAlpha then (.tagName (.named true [c.toLower]), [])
    else if c = '>' then (.data, [])
    else (.bogusComment [c], [])
  | .tagName t, c =>
    if isBlank c then (.beforeName t, [])
    else if c = '/' then (.selfClosing t, [])
    else if c = '>' then close t
    else (.tagName { t with name := t.name ++ [c.toLower] }, [])
  | .beforeName t, c => inTag t c
  | .name t n, c =>
    if isBlank c then (.afterName t n, [])
    else if c = '/' then (.selfClosing (t.add (n, [])), [])
    else if c = '>' then close (t.add (n, []))
    else if c = '=' then (.beforeValue t n, [])
    else (.name t (n ++ [c.toLower]), [])
  | .afterName t n, c =>
    if isBlank c then (.afterName t n, [])
    else if c = '=' then (.beforeValue t n, [])
    else inTag (t.add (n, [])) c
  | .beforeValue t n, c =>
    if isBlank c then (.beforeValue t n, [])
    else if c = '"' then (.doubleQuoted t n [], [])
    else if c = '\'' then (.singleQuoted t n [], [])
    else if c = '>' then close (t.add (n, []))
    else (.unquoted t n [c], [])
  | .doubleQuoted t n v, c =>
    if c = '"' then (.beforeName (t.add (n, v)), []) else (.doubleQuoted t n (v ++ [c]), [])
  | .singleQuoted t n v, c =>
    if c = '\'' then (.beforeName (t.add (n, v)), []) else (.singleQuoted t n (v ++ [c]), [])
  | .unquoted t n v, c =>
    if isBlank c then (.beforeName (t.add (n, v)), [])
    else if c = '>' then close (t.add (n, v))
    else (.unquoted t n (v ++ [c]), [])
  | .selfClosing t, c => if c = '>' then close { t with selfClosing := true } else inTag t c
  | .declaration, c => if c = '-' then (.declarationDash, []) else inBogusComment [] c
  | .declarationDash, c => if c = '-' then (.commentStart, []) else inBogusComment ['-'] c
  | .bogusComment text, c => inBogusComment text c
  | .commentStart, c =>
    if c = '-' then (.commentStartDash, [])
    else if c = '>' then (.data, [.comment []])
    else inComment [] c
  | .commentStartDash, c =>
    if c = '-' then (.commentEnd [], [])
    else if c = '>' then (.data, [.comment []])
    else inComment ['-'] c
  | .comment text, c => inComment text c
  | .commentEndDash text, c =>
    if c = '-' then (.commentEnd text, []) else inComment (text ++ ['-']) c
  | .commentEnd text, c =>
    if c = '>' then (.data, [.comment text])
    else if c = '!' then (.commentEndBang text, [])
    else if c = '-' then (.commentEnd (text ++ ['-']), [])
    else inComment (text ++ ['-', '-']) c
  | .commentEndBang text, c =>
    if c = '>' then (.data, [.comment text])
    else if c = '-' then (.commentEndDash (text ++ ['-', '-', '!']), [])
    else inComment (text ++ ['-', '-', '!']) c

/-- Characters in a row. -/
def read (st : State) : List Char → State × List Token
  | [] => (st, [])
  | c :: rest =>
    let (next, tokens) := step st c
    let (last, more) := read next rest
    (last, tokens ++ more)

/-- The end of a text. A tag that is not closed is dropped, a comment is not. -/
def finish : State → List Token
  | .rawOpen _ => [.char '<']
  | .rawEnd _ seen => ('<' :: '/' :: seen).map .char
  | .tagOpen => [.char '<']
  | .endTagOpen => [.char '<', .char '/']
  | .declaration => [.comment []]
  | .declarationDash => [.comment ['-']]
  | .bogusComment text => [.comment text]
  | .commentStart => [.comment []]
  | .commentStartDash => [.comment []]
  | .comment text => [.comment text]
  | .commentEndDash text => [.comment text]
  | .commentEnd text => [.comment text]
  | .commentEndBang text => [.comment text]
  | _ => []

def tokens (s : String) : List Token :=
  let (last, ts) := read .data s.toList
  ts ++ finish last

/-- Behind the text the tokenizer looks for tags, as it did before. -/
def Whole (s : String) : Prop :=
  (read .data s.toList).1 = .data

/-! ## Reading in parts -/

theorem read_append (st : State) (cs ds : List Char) :
    read st (cs ++ ds) =
      ((read (read st cs).1 ds).1, (read st cs).2 ++ (read (read st cs).1 ds).2) := by
  induction cs generalizing st with
  | nil => rfl
  | cons c rest ih =>
    simp only [List.cons_append, read]
    rw [ih]
    simp

theorem read_append_of {a b d : State} {cs ds : List Char} {ts us : List Token}
    (hcs : read a cs = (b, ts)) (hds : read b ds = (d, us)) :
    read a (cs ++ ds) = (d, ts ++ us) := by
  rw [read_append, hcs, hds]

theorem read_cons_of {a b d : State} {c : Char} {cs : List Char} {ts us : List Token}
    (hc : step a c = (b, ts)) (hcs : read b cs = (d, us)) :
    read a (c :: cs) = (d, ts ++ us) := by
  simp only [read, hc, hcs]

theorem tokens_of_read {s : String} {ts : List Token} (h : read .data s.toList = (.data, ts)) :
    tokens s = ts := by
  simp [tokens, h, finish]

theorem exists_read {a b : State} {cs : List Char} (h : (read a cs).1 = b) :
    ∃ ts, read a cs = (b, ts) :=
  ⟨(read a cs).2, Prod.ext h rfl⟩

theorem read_of_whole {s : String} (h : Whole s) : read .data s.toList = (.data, tokens s) := by
  obtain ⟨ts, hts⟩ := exists_read h
  rw [tokens_of_read hts]
  exact hts

theorem read_chars {st : State} (hstep : ∀ c, c ≠ '<' → step st c = (st, [.char c]))
    {cs : List Char} (h : '<' ∉ cs) : read st cs = (st, cs.map .char) := by
  induction cs with
  | nil => rfl
  | cons c rest ih =>
    obtain ⟨hc, hrest⟩ : c ≠ '<' ∧ '<' ∉ rest := by simpa [eq_comm] using h
    exact read_cons_of (hstep c hc) (ih hrest)

/-- Text without `<` is read as its characters. -/
theorem read_data {cs : List Char} (h : '<' ∉ cs) : read .data cs = (.data, cs.map .char) :=
  read_chars (fun c hc => by simp [step, inData, hc]) h

theorem read_raw {element cs : List Char} (h : '<' ∉ cs) :
    read (.raw element) cs = (.raw element, cs.map .char) :=
  read_chars (fun c hc => by simp [step, inRaw, hc]) h

/-! ## Names and values -/

/-- A character of a plain name. -/
def isNameChar (c : Char) : Bool := isLetter c || c.isDigit

/-- A character that does nothing in a tag but to stand in a name. -/
structure Plain (c : Char) : Prop where
  blank : isBlank c = false
  lower : c.toLower = c
  slash : c ≠ '/'
  close : c ≠ '>'
  equals : c ≠ '='

theorem plain_of_isNameChar {c : Char} (h : isNameChar c = true) : Plain c := by
  have hne (d : Char) (hd : isNameChar d = false) : c ≠ d := by
    rintro rfl
    rw [h] at hd
    cases hd
  have hupper : ¬ (c.val ≥ 'A'.val ∧ c.val ≤ 'Z'.val) := by
    simp only [isNameChar, isLetter, Char.isDigit, Bool.or_eq_true, Bool.and_eq_true,
      decide_eq_true_eq, Char.le_def, ge_iff_le, UInt32.le_iff_toNat_le] at h ⊢
    have hvals : 'A'.val.toNat = 65 ∧ 'Z'.val.toNat = 90 ∧ 'a'.val.toNat = 97 ∧
        '9'.val.toNat = 57 := by decide
    omega
  refine ⟨?_, ?_, hne '/' (by decide), hne '>' (by decide), hne '=' (by decide)⟩
  · simp [isBlank, hne ' ' (by decide), hne '\n' (by decide), hne '\t' (by decide),
      hne '\r' (by decide), hne '\x0c' (by decide)]
  · unfold Char.toLower
    rw [dif_neg hupper]

theorem isAlpha_of_isLetter {c : Char} (h : isLetter c = true) : c.isAlpha = true := by
  have hlower : c.isLower = true := h
  change (c.isUpper || c.isLower) = true
  rw [hlower, Bool.or_true]

theorem exists_of_isName {s : String} (h : isName s = true) :
    ∃ c rest, s.toList = c :: rest ∧ isLetter c = true ∧ ∀ d ∈ rest, isNameChar d = true := by
  unfold isName at h
  split at h
  · cases h
  · rename_i c rest hs
    obtain ⟨hc, hrest⟩ := Bool.and_eq_true_iff.mp h
    exact ⟨c, rest, hs, hc, List.all_eq_true.mp hrest⟩

theorem plain_of_isLetter {c : Char} (h : isLetter c = true) : Plain c :=
  plain_of_isNameChar (by simp [isNameChar, h])

/-- Characters that are only collected. -/
theorem read_collect {s : List Char → State} {p : Char → Prop}
    (hstep : ∀ seen c, p c → step (s seen) c = (s (seen ++ [c]), [])) {cs : List Char}
    (h : ∀ c ∈ cs, p c) (seen : List Char) : read (s seen) cs = (s (seen ++ cs), []) := by
  induction cs generalizing seen with
  | nil => simp [read]
  | cons c rest ih =>
    have hc := hstep seen c (h c List.mem_cons_self)
    have hrest := ih (fun d hd => h d (List.mem_cons_of_mem c hd)) (seen ++ [c])
    rw [read_cons_of hc hrest]
    simp

theorem read_tagName {cs : List Char} (h : ∀ c ∈ cs, isNameChar c = true) (isEnd : Bool)
    (seen : List Char) :
    read (.tagName (.named isEnd seen)) cs = (.tagName (.named isEnd (seen ++ cs)), []) := by
  refine read_collect (s := fun n => .tagName (.named isEnd n)) (fun seen c hc => ?_) h seen
  have hplain := plain_of_isNameChar hc
  simp [step, Tag.named, hplain.blank, hplain.lower, hplain.slash, hplain.close]

theorem read_name {cs : List Char} (h : ∀ c ∈ cs, isNameChar c = true) (t : Tag)
    (seen : List Char) : read (.name t seen) cs = (.name t (seen ++ cs), []) := by
  refine read_collect (fun seen c hc => ?_) h seen
  have hplain := plain_of_isNameChar hc
  simp [step, hplain.blank, hplain.lower, hplain.slash, hplain.close, hplain.equals]

theorem read_doubleQuoted {v : List Char} (h : '"' ∉ v) (t : Tag) (n : List Char) :
    read (.doubleQuoted t n []) (v ++ ['"']) = (.beforeName (t.add (n, v)), []) := by
  have hvalue : read (.doubleQuoted t n []) v = (.doubleQuoted t n v, []) := by
    refine read_collect (p := (· ≠ '"')) (fun seen c hc => ?_) (fun c hc => ?_) []
    · simp [step, hc]
    · exact fun hquote => h (hquote ▸ hc)
  exact read_append_of hvalue rfl

/-! ## Tags -/

/-- The tokenizer is in a tag that would be `t` if it ended here, and a blank would start another
attribute. -/
inductive Ready (t : Tag) : State → Prop where
  | tagName : Ready t (.tagName t)
  | beforeName : Ready t (.beforeName t)
  | name {u : Tag} {n : List Char} : u.add (n, []) = t → Ready t (.name u n)

def Tag.attributeOf : Attribute → List Char × List Char
  | .flag name => (name.toList, [])
  | .value name v => (name.toList, (Escape.attr v).toList)
  | .verbatim name v => (name.toList, v.toList)

def Tag.start (tag : String) (attributes : List Attribute) : Tag :=
  (attributes.map attributeOf).foldl add (named false tag.toList)

def Tag.stop (tag : String) : Tag :=
  named true tag.toList

theorem Ready.read_close {t : Tag} {st : State} (h : Ready t st) :
    read st ['>'] = (behind t, [.tag t]) := by
  cases h with
  | tagName => rfl
  | beforeName => rfl
  | name ht =>
    rw [← ht]
    rfl

/-- The start of a name of an attribute. -/
theorem Ready.read_attributeName {t : Tag} {st : State} (h : Ready t st) {name : String}
    (hname : isName name = true) : read st (' ' :: name.toList) = (.name t name.toList, []) := by
  obtain ⟨c, rest, hs, hc, hrest⟩ := exists_of_isName hname
  have hplain := plain_of_isLetter hc
  have hstart : step (.beforeName t) c = (.name t [c], []) := by
    simp [step, inTag, hplain.blank, hplain.lower, hplain.slash, hplain.close]
  have hletters : read (.name t [c]) rest = (.name t (c :: rest), []) := read_name hrest t [c]
  rw [hs]
  cases h with
  | tagName => exact read_cons_of rfl (read_cons_of hstart hletters)
  | beforeName => exact read_cons_of rfl (read_cons_of hstart hletters)
  | @name u n ht =>
    have hafter : step (.afterName u n) c = (.name t [c], []) := by
      rw [← hstart]
      simp [step, hplain.blank, hplain.equals, ht]
    exact read_cons_of rfl (read_cons_of hafter hletters)

theorem read_attribute {a : Attribute} (ha : a.Sound) {t : Tag} {st : State} (h : Ready t st) :
    ∃ st', read st a.write.toList = (st', []) ∧ Ready (t.add (Tag.attributeOf a)) st' := by
  have hvalued {name : String} (hname : isName name = true) {v : List Char} (hv : '"' ∉ v) :
      read st (' ' :: name.toList ++ '=' :: '"' :: (v ++ ['"'])) =
        (.beforeName (t.add (name.toList, v)), []) := by
    have hvalue := read_doubleQuoted hv t name.toList
    exact read_append_of (h.read_attributeName hname) (read_cons_of rfl (read_cons_of rfl hvalue))
  cases a with
  | flag name =>
    refine ⟨.name t name.toList, ?_, .name rfl⟩
    simpa [Attribute.write] using h.read_attributeName ha
  | value name v =>
    refine ⟨_, ?_, .beforeName⟩
    simpa [Attribute.write, Tag.attributeOf] using hvalued ha (quote_notMem_attr v)
  | verbatim name v =>
    refine ⟨_, ?_, .beforeName⟩
    simpa [Attribute.write, Tag.attributeOf] using hvalued ha.1 ha.2

theorem read_attributes {attributes : List Attribute} (h : ∀ a ∈ attributes, a.Sound) {t : Tag}
    {st : State} (ht : Ready t st) :
    ∃ st', read st (attributes.flatMap fun a => a.write.toList) = (st', []) ∧
      Ready ((attributes.map Tag.attributeOf).foldl Tag.add t) st' := by
  induction attributes generalizing t st with
  | nil => exact ⟨st, rfl, ht⟩
  | cons a rest ih =>
    obtain ⟨st₁, ha, hready₁⟩ := read_attribute (h a List.mem_cons_self) ht
    obtain ⟨st₂, hrest, hready₂⟩ := ih (fun b hb => h b (List.mem_cons_of_mem a hb)) hready₁
    refine ⟨st₂, ?_, hready₂⟩
    rw [List.flatMap_cons]
    exact read_append_of ha hrest

/-- A tag from its name on. -/
theorem read_named {tag : String} (htag : isName tag = true) {st : State} {isEnd : Bool}
    (hst : ∀ c, c.isAlpha = true → step st c = (.tagName (.named isEnd [c.toLower]), [])) :
    read st tag.toList = (.tagName (.named isEnd tag.toList), []) := by
  obtain ⟨c, rest, hs, hc, hrest⟩ := exists_of_isName htag
  have hstart : step st c = (.tagName (.named isEnd [c]), []) := by
    rw [hst c (isAlpha_of_isLetter hc), (plain_of_isLetter hc).lower]
  rw [hs]
  exact read_cons_of hstart (read_tagName hrest isEnd [c])

theorem read_startTag {tag : String} (htag : isName tag = true) {attributes : List Attribute}
    (h : ∀ a ∈ attributes, a.Sound) :
    read .data (Markup.startTag tag attributes).toList =
      (behind (.start tag attributes), [.tag (.start tag attributes)]) := by
  have hname : read .tagOpen tag.toList = (.tagName (.named false tag.toList), []) :=
    read_named htag fun c hc => by simp [step, hc]
  obtain ⟨st, hattributes, hready⟩ := read_attributes h .tagName
  rw [toList_startTag]
  exact read_cons_of rfl (read_append_of (read_append_of hname hattributes) hready.read_close)

theorem read_endTag {tag : String} (htag : isName tag = true) :
    read .data (Markup.endTag tag).toList = (.data, [.tag (.stop tag)]) := by
  have hname : read .endTagOpen tag.toList = (.tagName (.named true tag.toList), []) :=
    read_named htag fun c hc => by simp [step, hc]
  rw [toList_endTag]
  exact read_cons_of rfl (read_cons_of rfl (read_append_of hname (Ready.read_close .tagName)))

@[simp] theorem name_start (tag : String) (attributes : List Attribute) :
    (Tag.start tag attributes).name = tag.toList ∧ (Tag.start tag attributes).isEnd = false := by
  have hfold (as : List (List Char × List Char)) (t : Tag) :
      (as.foldl Tag.add t).name = t.name ∧ (as.foldl Tag.add t).isEnd = t.isEnd := by
    induction as generalizing t with
    | nil => exact ⟨rfl, rfl⟩
    | cons a rest ih =>
      have hadd : (t.add a).name = t.name ∧ (t.add a).isEnd = t.isEnd := by
        unfold Tag.add
        split <;> exact ⟨rfl, rfl⟩
      rw [List.foldl_cons, (ih _).1, (ih _).2]
      exact hadd
  exact hfold _ _

theorem behind_start {tag : String} (htag : tag ∉ Markup.rawTags) (attributes : List Attribute) :
    behind (.start tag attributes) = .data := by
  have hplaintext : tag ≠ "plaintext" := by
    rintro rfl
    exact htag (by decide)
  simp only [behind, name_start, String.ofList_toList, if_neg hplaintext, if_neg htag,
    Bool.false_eq_true, if_false]

end Tokenizer

/-! ## Markup -/

namespace Markup

open Tokenizer (Token)

mutual

def tokens : Markup → List Token
  | text s => (Escape.text s).toList.map .char
  | verbatim s => Tokenizer.tokens s
  | void tag attributes => [.tag (.start tag attributes)]
  | element tag attributes content =>
    .tag (.start tag attributes) :: (tokensAll content ++ [.tag (.stop tag)])

def tokensAll : List Markup → List Token
  | [] => []
  | m :: rest => m.tokens ++ tokensAll rest

end

end Markup

namespace Tokenizer

theorem read_writeAll {content : List Markup}
    (h : ∀ m ∈ content, read .data m.write.toList = (.data, m.tokens)) :
    read .data (Markup.writeAll content).toList = (.data, Markup.tokensAll content) := by
  induction content with
  | nil => rfl
  | cons m rest ih =>
    rw [Markup.writeAll, String.toList_append, Markup.tokensAll]
    exact read_append_of (h m List.mem_cons_self) (ih fun x hx => h x (List.mem_cons_of_mem m hx))

/-- Sound markup is read as the tree it was written from. -/
theorem read_write {m : Markup} (hm : m.Sound Whole) :
    read .data m.write.toList = (.data, m.tokens) := by
  induction hm with
  | text s =>
    rw [Markup.write, Markup.tokens]
    exact read_data (lt_notMem_text s)
  | verbatim hs =>
    rw [Markup.write, Markup.tokens]
    exact read_of_whole hs
  | @void tag attributes htag hattributes =>
    have hplain : isName tag = true ∧ tag ∉ Markup.rawTags := by
      revert tag
      decide
    have hstart := read_startTag hplain.1 hattributes
    rw [behind_start hplain.2] at hstart
    rw [Markup.write, Markup.tokens]
    exact hstart
  | @frame attributes hattributes =>
    have hname : isName "iframe" = true := by
      decide
    have hstart := read_startTag hname hattributes
    have hbehind : behind (.start "iframe" attributes) = .raw "iframe".toList := by
      simp +decide [behind]
    -- in a frame only its end tag is looked for
    have hstop : read (.raw "iframe".toList) (Markup.endTag "iframe").toList =
        (.data, [.tag (.stop "iframe")]) := by
      decide
    rw [hbehind] at hstart
    rw [Markup.write, Markup.writeAll, Markup.tokens, Markup.tokensAll]
    simpa using read_append_of hstart hstop
  | @element tag attributes content htag hattributes _ ih =>
    obtain ⟨hname, -, hraw⟩ := Markup.isContainer_iff.mp htag
    have hstart := read_startTag hname hattributes
    rw [behind_start hraw] at hstart
    rw [Markup.write, Markup.tokens, String.toList_append, String.toList_append]
    have hinner := read_append_of hstart (read_writeAll ih)
    simpa using read_append_of hinner (read_endTag hname)

end Tokenizer
end Folio
