import Folio.Proofs.Html.Entities
import Folio.Proofs.Html.Sound

/-!
# Folio.Proofs.Html.WellFormed

The grammar of well-formed markup, and that pages are in it.

* `AttributesText`, `ContentText`: the text of attributes and of content, character by character.
* `contentText_text`, `quote_notMem_attr`, `lt_notMem_text`: what escaping leaves of a text and of a
  value.
* `contentText_write`: the text of sound markup is well-formed, whatever stands behind it.
* `wellFormed_render`: a page is well-formed.
-/

namespace Folio

/-- The entities that stand for active characters. -/
def Escape.entities : List String :=
  ["&lt;", "&gt;", "&amp;", "&quot;", "&#x27;", "&#x2F;"]

/-- What may stand between the name of an element and the end of its tag: names alone, and names
with a value in double quotes. -/
inductive AttributesText : List Char → Prop where
  | nil : AttributesText []
  | flag {name : String} {rest : List Char} :
      isName name = true → AttributesText rest → AttributesText (' ' :: (name.toList ++ rest))
  | value {name : String} {v rest : List Char} :
      isName name = true → '"' ∉ v → AttributesText rest →
      AttributesText (' ' :: (name.toList ++ '=' :: '"' :: (v ++ '"' :: rest)))

/-- Characters and entities, elements without content, and elements around well-formed content with
an end tag of the same name. -/
inductive ContentText : List Char → Prop where
  | nil : ContentText []
  | char {c : Char} {rest : List Char} :
      c ≠ '<' → c ≠ '>' → c ≠ '"' → c ≠ '&' → ContentText rest → ContentText (c :: rest)
  | entity {e : String} {rest : List Char} :
      e ∈ Escape.entities → ContentText rest → ContentText (e.toList ++ rest)
  | void {tag : String} {attributes rest : List Char} :
      tag ∈ Markup.voidTags → AttributesText attributes → ContentText rest →
      ContentText ('<' :: (tag.toList ++ attributes ++ '>' :: rest))
  | element {tag : String} {attributes content rest : List Char} :
      isName tag = true → tag ∉ Markup.voidTags → AttributesText attributes →
      ContentText content → ContentText rest →
      ContentText ('<' :: (tag.toList ++ attributes ++ '>' ::
        (content ++ '<' :: '/' :: (tag.toList ++ '>' :: rest))))

/-- A text that is well-formed markup from its start to its end. -/
def WellFormed (s : String) : Prop := ContentText s.toList

/-! ## Escaped text -/

theorem contentText_textChar (c : Char) {rest : List Char} (h : ContentText rest) :
    ContentText (Escape.textChar c ++ rest) := by
  unfold Escape.textChar
  split
  · exact .entity (e := "&#x2F;") (by decide) h
  · unfold Escape.attrChar
    split
    · exact .entity (e := "&lt;") (by decide) h
    · exact .entity (e := "&gt;") (by decide) h
    · exact .entity (e := "&amp;") (by decide) h
    · exact .entity (e := "&quot;") (by decide) h
    · exact .entity (e := "&#x27;") (by decide) h
    · rename_i hlt hgt hamp hquot _
      exact .char hlt hgt hquot hamp h

theorem contentText_text (s : String) {rest : List Char} (h : ContentText rest) :
    ContentText ((Escape.text s).toList ++ rest) := by
  rw [Escape.text, String.toList_ofList]
  induction s.toList with
  | nil => exact h
  | cons c cs ih =>
    rw [List.flatMap_cons, List.append_assoc]
    exact contentText_textChar c ih

theorem quote_notMem_attr (v : String) : '"' ∉ (Escape.attr v).toList :=
  Escape.faithful_attr.inert v '"' (by simp)

theorem lt_notMem_text (s : String) : '<' ∉ (Escape.text s).toList :=
  Escape.faithful_text.inert s '<' (by simp)

/-! ## Tags -/

theorem attributesText_write {a : Attribute} (ha : a.Sound) {rest : List Char}
    (h : AttributesText rest) : AttributesText (a.write.toList ++ rest) := by
  cases a with
  | flag name =>
    have hname := AttributesText.flag ha h
    simpa [Attribute.write] using hname
  | value name v =>
    have hvalue := AttributesText.value ha (quote_notMem_attr v) h
    simpa [Attribute.write] using hvalue
  | verbatim name v =>
    have hvalue := AttributesText.value ha.1 ha.2 h
    simpa [Attribute.write] using hvalue

theorem attributesText_flatMap {attributes : List Attribute} (h : ∀ a ∈ attributes, a.Sound) :
    AttributesText (attributes.flatMap fun a => a.write.toList) := by
  induction attributes with
  | nil => exact .nil
  | cons a rest ih =>
    have hrest := ih fun b hb => h b (List.mem_cons_of_mem a hb)
    exact attributesText_write (h a List.mem_cons_self) hrest

theorem toList_startTag (tag : String) (attributes : List Attribute) :
    (Markup.startTag tag attributes).toList =
      '<' :: (tag.toList ++ (attributes.flatMap fun a => a.write.toList) ++ ['>']) := by
  simp [Markup.startTag, String.toList_join, List.flatMap_map]

theorem toList_endTag (tag : String) :
    (Markup.endTag tag).toList = '<' :: '/' :: (tag.toList ++ ['>']) := by
  simp [Markup.endTag]

/-! ## Markup -/

theorem ContentText.append {cs rest : List Char} (hcs : ContentText cs) (h : ContentText rest) :
    ContentText (cs ++ rest) := by
  induction hcs with
  | nil => exact h
  | char hlt hgt hquot hamp _ ih => exact .char hlt hgt hquot hamp ih
  | entity he _ ih =>
    rw [List.append_assoc]
    exact .entity he ih
  | void htag hattributes _ ih =>
    have hvoid := ContentText.void htag hattributes ih
    simpa using hvoid
  | element htag hcontent hattributes hinner _ _ ih =>
    have helement := ContentText.element htag hcontent hattributes hinner ih
    simpa using helement

theorem contentText_writeAll {content : List Markup}
    (hcontent : ∀ m ∈ content, ∀ {rest : List Char}, ContentText rest →
      ContentText ((Markup.write m).toList ++ rest)) {rest : List Char} (h : ContentText rest) :
    ContentText ((Markup.writeAll content).toList ++ rest) := by
  induction content with
  | nil => exact h
  | cons m ms ih =>
    have hms := ih fun x hx => hcontent x (List.mem_cons_of_mem m hx)
    rw [Markup.writeAll, String.toList_append, List.append_assoc]
    exact hcontent m List.mem_cons_self hms

theorem contentText_write {m : Markup} (hm : m.Sound WellFormed) {rest : List Char}
    (h : ContentText rest) : ContentText ((Markup.write m).toList ++ rest) := by
  induction hm generalizing rest with
  | text s =>
    rw [Markup.write]
    exact contentText_text s h
  | verbatim hs =>
    rw [Markup.write]
    exact ContentText.append hs h
  | @void tag attributes htag hattributes =>
    have hvoid := ContentText.void htag (attributesText_flatMap hattributes) h
    rw [Markup.write, toList_startTag]
    simpa using hvoid
  | frame hattributes =>
    have hframe := @ContentText.element "iframe" _ _ _ (by decide) (by decide)
      (attributesText_flatMap hattributes) .nil h
    rw [Markup.write, String.toList_append, String.toList_append, toList_startTag, toList_endTag]
    simpa [Markup.writeAll] using hframe
  | @element tag attributes content htag hattributes _ ih =>
    obtain ⟨hname, hvoid, -⟩ := Markup.isContainer_iff.mp htag
    -- the content is well-formed with nothing behind it, because the end tag is not part of it
    have hinner := contentText_writeAll ih ContentText.nil
    rw [List.append_nil] at hinner
    have helement := ContentText.element hname hvoid (attributesText_flatMap hattributes) hinner h
    rw [Markup.write, String.toList_append, String.toList_append, toList_startTag, toList_endTag]
    simpa using helement

/-! ## Pages -/

/-- The page of a tree is well-formed unless it is a whole document, whatever kinds of nodes it has,
how they are nested, and what their texts, addresses, markers and colors say, as long as no block id
has a double quote. A highlighter, if there is one, has to return well-formed markup. -/
theorem wellFormed_render (r : Renderer)
    (hcode : ∀ highlight, r.highlighter = some highlight →
      ∀ code name, WellFormed (highlight code name))
    (hfragment : r.standalone = false) (n : Node) (hids : n.QuoteFreeIds) :
    WellFormed (r.render n).html := by
  have hsound : (r.root n).Sound WellFormed := Renderer.sound_root hcode n hids
  have hpage : ContentText ((Markup.writeAll (r.root n).markup).toList ++ []) :=
    contentText_writeAll (fun m hm => contentText_write (hsound m hm)) .nil
  rw [List.append_nil] at hpage
  have hbody : (r.render n).html = Markup.writeAll (r.root n).markup := by
    simp [Renderer.render, hfragment, Rendered.html]
  rw [hbody]
  exact hpage

/-- A quote with active characters in its id, its texts and markers, over a picture with some in its
address. -/
def hostile : Node :=
  { id := some "<a>&'"
    kind := .quote [⟨"</i>", [.link "\" x=", .italic]⟩, ⟨"&", [.userMention "</b>", .code]⟩]
    color := some (.other "\"><")
    createdTime := none
    lastEditedTime := none
    children := [.synthetic (.image { source := some "\"><script>" }) []] }

theorem wellFormed_hostile :
    hostile.QuoteFreeIds ∧ WellFormed (({} : Renderer).render hostile).html := by
  have hids : hostile.QuoteFreeIds := by
    refine Node.quoteFreeIds_iff.mpr ⟨fun id hid => ?_, fun c hc => ?_⟩
    · obtain rfl := Option.some.inj hid
      decide
    · obtain rfl := List.mem_singleton.mp hc
      refine Node.quoteFreeIds_iff.mpr ⟨fun id hid => ?_, fun c hc => ?_⟩
      · cases hid
      · cases hc
  refine ⟨hids, wellFormed_render {} (fun _ hnone => ?_) rfl hostile hids⟩
  cases hnone

end Folio
