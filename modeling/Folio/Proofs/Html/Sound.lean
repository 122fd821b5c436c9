import Folio.Html.Page
import Folio.Proofs.Node.Within

/-!
# Folio.Proofs.Html.Sound

Markup that can be written without being taken for anything else: names of elements and attributes
are plain, elements stand without end tag just if they have no content, and a value that is written
as it is holds no quote. Of markup that someone else wrote a property `p` is asked.

* `Markup.Sound`, `Rendered.Sound`: the condition on trees of markup.
* `Inline.sound_run`: text with any markers is sound.
* `Renderer.sound_root`: a page is sound if its block ids hold no quote and the highlighter keeps
  to `p`.
-/

namespace Folio

def isLetter (c : Char) : Bool := 'a' ≤ c && c ≤ 'z'

/-- A lower-case letter, then such letters and digits. -/
def isName (s : String) : Bool :=
  match s.toList with
  | [] => false
  | c :: rest => isLetter c && rest.all fun d => isLetter d || d.isDigit

/-- An attribute that ends where it should once it is written. -/
def Attribute.Sound : Attribute → Prop
  | flag name => isName name = true
  | value name _ => isName name = true
  | verbatim name v => isName name = true ∧ '"' ∉ v.toList

namespace Attribute

@[simp] theorem sound_flag {name : String} : (flag name).Sound ↔ isName name = true := Iff.rfl

@[simp] theorem sound_value {name v : String} : (value name v).Sound ↔ isName name = true := Iff.rfl

@[simp] theorem sound_className (names : String) : (className names).Sound := by
  change isName "class" = true
  decide

@[simp] theorem sound_id {s : String} : (Attribute.id s).Sound ↔ '"' ∉ s.toList := by
  change isName "id" = true ∧ '"' ∉ s.toList ↔ _
  simp +decide

end Attribute

namespace Markup

/-- The elements without content and end tag. -/
def voidTags : List String := ["img", "hr", "input"]

/-- The elements whose content is text, in which tags of other elements are not looked for. -/
def rawTags : List String :=
  ["title", "textarea", "style", "script", "xmp", "iframe", "noembed", "noframes", "plaintext"]

/-- An element around markup. -/
def isContainer (tag : String) : Bool :=
  isName tag && !voidTags.contains tag && !rawTags.contains tag

theorem isContainer_iff {tag : String} :
    isContainer tag = true ↔ isName tag = true ∧ tag ∉ voidTags ∧ tag ∉ rawTags := by
  simp [isContainer, and_assoc]

/-- Markup with plain names, of which parts that are written as they are have a property. Of the
elements whose content is text there are empty frames only. -/
inductive Sound (p : String → Prop) : Markup → Prop where
  | text (s : String) : Sound p (.text s)
  | verbatim {s : String} : p s → Sound p (.verbatim s)
  | void {tag : String} {attributes : List Attribute} :
      tag ∈ voidTags → (∀ a ∈ attributes, a.Sound) → Sound p (.void tag attributes)
  | frame {attributes : List Attribute} :
      (∀ a ∈ attributes, a.Sound) → Sound p (.element "iframe" attributes [])
  | element {tag : String} {attributes : List Attribute} {content : List Markup} :
      isContainer tag = true → (∀ a ∈ attributes, a.Sound) →
      (∀ m ∈ content, Sound p m) → Sound p (.element tag attributes content)

end Markup

namespace Rendered

def Sound (p : String → Prop) (r : Rendered) : Prop := ∀ m ∈ r.markup, m.Sound p

variable {p : String → Prop}

@[simp] theorem sound_empty : empty.Sound p := fun _ hm => nomatch hm

@[simp] theorem sound_only {m : Markup} : (only m).Sound p ↔ m.Sound p := by
  simp [Sound, only]

@[simp] theorem sound_text (s : String) : (text s).Sound p :=
  sound_only.mpr (.text s)

@[simp] theorem sound_append {a b : Rendered} : (a ++ b).Sound p ↔ a.Sound p ∧ b.Sound p := by
  change (∀ m ∈ a.markup ++ b.markup, m.Sound p) ↔ _
  simp only [List.mem_append, or_imp, forall_and, Sound]

@[simp] theorem sound_join {rs : List Rendered} : (join rs).Sound p ↔ ∀ r ∈ rs, r.Sound p := by
  induction rs with
  | nil => simp [join]
  | cons r rest ih => simp [join, ih]

@[simp] theorem sound_ofOption {f : α → Rendered} {o : Option α} :
    (ofOption f o).Sound p ↔ ∀ x, o = some x → (f x).Sound p := by
  cases o <;> simp [ofOption]

theorem sound_void {tag : String} {attributes : List Attribute} (htag : tag ∈ Markup.voidTags)
    (hattributes : ∀ a ∈ attributes, a.Sound) : (void tag attributes).Sound p :=
  sound_only.mpr (.void htag hattributes)

theorem sound_element {tag : String} {attributes : List Attribute} {content : Rendered}
    (htag : Markup.isContainer tag = true) (hattributes : ∀ a ∈ attributes, a.Sound)
    (hcontent : content.Sound p) : (element tag attributes content).Sound p := by
  intro m hm
  obtain rfl := List.mem_singleton.mp hm
  exact .element htag hattributes hcontent

end Rendered

/-! ## Text -/

namespace Inline

open Rendered

variable {p : String → Prop}

theorem sound_mention (label : String) : (only (mention label)).Sound p := by
  have hspan : (element "span" [.className "color-mention"] (text label)).Sound p :=
    sound_element (by decide) (by simp) (sound_text label)
  exact hspan

theorem sound_applyStyle (style : Style) {inner : Rendered} (h : inner.Sound p) :
    (applyStyle style inner).Sound p := by
  cases style with
  | bold => exact sound_element (by decide) (by simp) h
  | italic => exact sound_element (by decide) (by simp) h
  | strike => exact sound_element (by decide) (by simp) h
  | underline => exact sound_element (by decide) (by simp) h
  | code => exact sound_element (by decide) (by simp) h
  | link target => exact sound_element (by decide) (by simp +decide) h
  | color token =>
    exact sound_element (by decide) (by simp) h
  | userMention id => exact sound_mention _
  | pageMention id => exact sound_mention _
  | date d => exact sound_mention _
  | comment id =>
    exact sound_element (by decide) (by simp) h
  | unknown code => exact h

theorem sound_applyStyles (styles : List Style) {inner : Rendered} (h : inner.Sound p) :
    (applyStyles inner styles).Sound p := by
  induction styles with
  | nil => exact h
  | cons style rest ih => exact sound_applyStyle style ih

@[simp] theorem sound_runs (rs : List TextRun) : (runs rs).Sound p := by
  refine sound_join.mpr fun r hr => ?_
  obtain ⟨run, -, rfl⟩ := List.mem_map.mp hr
  exact sound_applyStyles run.styles (sound_text run.text)

@[simp] theorem sound_title (rs : List TextRun) : (title rs).Sound p :=
  sound_element (by decide) (by simp) (sound_runs rs)

theorem sound_code {highlighter : Option Highlighter} {language : Option String}
    (hcode : ∀ highlight, highlighter = some highlight → ∀ code name, p (highlight code name))
    (rs : List TextRun) : (code highlighter language rs).Sound p := by
  refine sound_element (by decide) (by simp) (sound_join.mpr fun r hr => ?_)
  obtain ⟨run, -, rfl⟩ := List.mem_map.mp hr
  refine sound_applyStyles run.styles ?_
  unfold codeText
  split
  · rename_i highlight name
    exact sound_only.mpr (.verbatim (hcode highlight rfl run.text name))
  · exact sound_text run.text

end Inline

/-! ## Blocks -/

namespace Node

/-- No block of a tree has a double quote in its id. -/
def QuoteFreeIds (n : Node) : Prop :=
  ∀ m, Within m n → ∀ id, m.id = some id → '"' ∉ id.toList

theorem QuoteFreeIds.of_mem {n c : Node} (h : n.QuoteFreeIds) (hc : c ∈ n.children) :
    c.QuoteFreeIds :=
  fun m hm => h m (.child hc hm)

theorem quoteFreeIds_iff {n : Node} :
    n.QuoteFreeIds ↔
      (∀ id, n.id = some id → '"' ∉ id.toList) ∧ ∀ c ∈ n.children, c.QuoteFreeIds := by
  constructor
  · intro h
    exact ⟨h n (.self n), fun c hc => h.of_mem hc⟩
  · rintro ⟨hid, hchildren⟩ m hm
    rcases hm.eq_or_below with rfl | ⟨c, hc, hmc⟩
    · exact hid
    · exact hchildren c hc m hmc

end Node

namespace Renderer

open Rendered

variable {p : String → Prop}

theorem quote_notMem_elementId {n : Node} (h : n.QuoteFreeIds) :
    '"' ∉ (elementId n.id).toList := by
  unfold elementId
  split
  · rename_i id hid
    have hquote := h n (.self n) id hid
    simp [BlockId.undashed, hquote]
  · simp

@[simp] theorem sound_picture (className source : String) : (picture className source).Sound p :=
  sound_void (by decide) (by simp +decide)

@[simp] theorem sound_icon (className s : String) : (icon className s).Sound p := by
  unfold icon
  split
  · exact sound_picture className s
  · exact sound_element (by decide) (by simp) (sound_text s)

@[simp] theorem sound_frame (source : String) : (frame source).Sound p := by
  intro m hm
  obtain rfl := List.mem_singleton.mp hm
  exact .frame (by simp +decide)

theorem sound_player {tag : String} (htag : Markup.isContainer tag = true)
    (source : String) : (player tag source).Sound p :=
  sound_element htag (by simp +decide) sound_empty

@[simp] theorem sound_video (source : String) : (video source).Sound p := by
  unfold video
  split
  · exact sound_player (by decide) source
  · exact sound_frame source

@[simp] theorem sound_image (m : Media) (source : String) : (image m source).Sound p := by
  refine sound_void (by decide) ?_
  cases m.width <;> simp +decide

@[simp] theorem sound_caption (m : Media) : (caption m).Sound p := by
  unfold caption
  split
  · exact sound_empty
  · exact sound_element (by decide) (by simp) (Inline.sound_title m.caption)

@[simp] theorem sound_checkbox (checked : Bool) : (checkbox checked).Sound p := by
  cases checked <;> exact sound_void (by decide) (by simp +decide)

theorem sound_listing {r : Renderer}
    (hcode : ∀ highlight, r.highlighter = some highlight → ∀ code name, p (highlight code name))
    (text : List TextRun) (language : Option String) (wrap : Bool) :
    (r.listing text language wrap).Sound p := by
  refine sound_element (by decide) ?_
    (sound_element (by decide) (by simp) (Inline.sound_code hcode text))
  split <;> simp

@[simp] theorem sound_pageLink (id : Option String) (title : List TextRun)
    (pageIcon : Option String) : (pageLink id title pageIcon).Sound p :=
  sound_element (by decide) (by simp +decide) (by simp)

@[simp] theorem sound_fileLink (title : List TextRun) (source size : Option String) :
    (fileLink title source size).Sound p := by
  refine sound_append.mpr ⟨sound_element (by decide) (by simp +decide) (by simp), ?_⟩
  exact sound_ofOption.mpr fun s _ => sound_element (by decide) (by simp) (sound_text s)

@[simp] theorem sound_bookmark (link : Option String) (title description : List TextRun)
    (icon cover : Option String) : (bookmark link title description icon cover).Sound p := by
  have htitle : ∀ s : String,
      (if title.isEmpty then text s else Inline.runs title).Sound p := by
    intro s
    split <;> simp
  have hdescription : (if description.isEmpty then empty else
      element "div" [.className "bookmark__description"] (Inline.runs description)).Sound p := by
    split
    · exact sound_empty
    · exact sound_element (by decide) (by simp) (Inline.sound_runs description)
  refine sound_element (by decide) (by simp +decide) ?_
  refine sound_append.mpr ⟨sound_append.mpr ⟨?_, by simp⟩, by simp⟩
  refine sound_element (by decide) (by simp) ?_
  refine sound_append.mpr ⟨sound_append.mpr ⟨?_, hdescription⟩, ?_⟩
  · exact sound_element (by decide) (by simp) (htitle _)
  · exact sound_element (by decide) (by simp) (sound_text _)

@[simp] theorem sound_aliasLink (target : String) (title : List TextRun) :
    (aliasLink target title).Sound p := by
  refine sound_element (by decide) (by simp +decide) ?_
  split <;> simp

@[simp] theorem sound_looseCells (cells : List (String × List TextRun)) :
    (looseCells cells).Sound p := by
  refine sound_join.mpr fun r hr => ?_
  obtain ⟨cell, -, rfl⟩ := List.mem_map.mp hr
  exact sound_element (by decide) (by simp) (Inline.sound_runs cell.2)

theorem sound_cell (header : Bool) (text : Option (List TextRun)) : (cell header text).Sound p := by
  have htext : (ofOption Inline.runs text).Sound p := by simp
  cases header <;> exact sound_element (by decide) (by simp) htext

@[simp] theorem sound_rowCells (columnHeader rowHeader : Bool) (row : Nat)
    (cells : List (String × List TextRun)) (column : Nat) (keys : List String) :
    (rowCells columnHeader rowHeader row cells column keys).Sound p := by
  induction keys generalizing column with
  | nil => exact sound_empty
  | cons key rest ih => exact sound_append.mpr ⟨sound_cell _ _, ih (column + 1)⟩

theorem sound_tableRows (order : List String) (columnHeader rowHeader : Bool) (child : Nat)
    {children : List Node} (hids : ∀ n ∈ children, n.QuoteFreeIds) :
    (tableRows order columnHeader rowHeader child children).Sound p := by
  induction children generalizing child with
  | nil => exact sound_empty
  | cons n rest ih =>
    refine sound_append.mpr ⟨?_, ih (child + 1) fun m hm => hids m (List.mem_cons_of_mem n hm)⟩
    have hid := quote_notMem_elementId (hids n List.mem_cons_self)
    split
    · exact sound_element (by decide) (by simpa using hid) (by simp)
    · exact sound_empty

theorem sound_block {r : Renderer} {tag typeName : String} {color : Option ThemeColor}
    {attributes : List Attribute} {content : Rendered}
    (htag : Markup.isContainer tag = true) (hattributes : ∀ a ∈ attributes, a.Sound)
    (hcontent : content.Sound p) : (r.block tag typeName color attributes content).Sound p := by
  refine sound_element htag (fun a ha => ?_) hcontent
  rcases List.mem_cons.mp ha with rfl | ha
  · exact Attribute.sound_className _
  · exact hattributes a ha

/-- A block whose only attribute is its class. -/
theorem sound_plain {r : Renderer} {tag typeName : String} {color : Option ThemeColor}
    {content : Rendered} (htag : Markup.isContainer tag = true) (hcontent : content.Sound p) :
    (r.block tag typeName color [] content).Sound p :=
  sound_block htag (fun _ ha => nomatch ha) hcontent

theorem sound_nested {children : List Node} {content : Rendered} (h : content.Sound p) :
    (nested children content).Sound p := by
  unfold nested
  split
  · exact sound_empty
  · exact sound_element (by decide) (by simp) h

theorem sound_nodes {r : Renderer} {tag : String} (htag : Markup.isContainer tag = true)
    {children : List Node} (hids : ∀ n ∈ children, n.QuoteFreeIds)
    (h : ∀ n ∈ children, (r.node n).Sound p) : (r.nodes tag children).Sound p := by
  induction children with
  | nil =>
    rw [nodes]
    exact sound_empty
  | cons n rest ih =>
    have hid := quote_notMem_elementId (hids n List.mem_cons_self)
    have hrest := ih (fun m hm => hids m (List.mem_cons_of_mem n hm))
      fun m hm => h m (List.mem_cons_of_mem n hm)
    rw [nodes]
    refine sound_append.mpr ⟨?_, hrest⟩
    exact sound_element htag (by simpa using hid) (h n List.mem_cons_self)

theorem sound_node {r : Renderer}
    (hcode : ∀ highlight, r.highlighter = some highlight → ∀ code name, p (highlight code name))
    (n : Node) (hids : n.QuoteFreeIds) : (r.node n).Sound p := by
  induction n using Node.induction with
  | step n ih =>
    obtain ⟨id, kind, color, created, edited, children⟩ := n
    have hbelow : ∀ c ∈ children, c.QuoteFreeIds := fun c hc => hids.of_mem hc
    have hnodes {tag : String} (htag : Markup.isContainer tag = true) :
        (r.nodes tag children).Sound p :=
      sound_nodes htag hbelow fun c hc => ih c hc (hbelow c hc)
    have hnested : (nested children (r.nodes "div" children)).Sound p :=
      sound_nested (hnodes (by decide))
    have htitle (t : List TextRun) :
        (Inline.title t ++ nested children (r.nodes "div" children)).Sound p :=
      sound_append.mpr ⟨Inline.sound_title t, hnested⟩
    cases kind with rw [node]
    | page title icon cover fullWidth => exact sound_plain (by decide) (sound_pageLink id title icon)
    | text t => exact sound_plain (by decide) (htitle t)
    | heading depth t =>
      refine sound_append.mpr ⟨sound_plain ?_ (Inline.sound_title t), hnested⟩
      unfold headingTag
      split
      · decide
      · split <;> decide
    | toDo t checked =>
      refine sound_plain (by decide) (sound_append.mpr ⟨?_, hnested⟩)
      exact sound_append.mpr ⟨sound_checkbox checked, Inline.sound_title t⟩
    | listItem list t => exact sound_plain (by decide) (htitle t)
    | list list => cases list <;> exact sound_plain (by decide) (hnodes (by decide))
    | toggle t =>
      refine sound_plain (by decide) (sound_append.mpr ⟨?_, hnodes (by decide)⟩)
      exact sound_element (by decide) (by simp) (Inline.sound_title t)
    | quote t => exact sound_plain (by decide) (htitle t)
    | callout t icon =>
      refine sound_plain (by decide) (sound_append.mpr ⟨by simp, ?_⟩)
      exact sound_element (by decide) (by simp) (htitle t)
    | divider => exact sound_plain (by decide) (sound_void (by decide) (by simp))
    | code t language wrap => exact sound_plain (by decide) (sound_listing hcode t language wrap)
    | equation expression =>
      refine sound_plain (by decide) ?_
      exact sound_element (by decide) (by simp) (sound_text expression)
    | image m => exact sound_plain (by decide) (by simp)
    | video m => exact sound_plain (by decide) (by simp)
    | audio m =>
      refine sound_plain (by decide) (sound_append.mpr ⟨?_, sound_caption m⟩)
      exact sound_ofOption.mpr fun source _ => sound_player (by decide) source
    | embed m => exact sound_plain (by decide) (by simp)
    | file title source size => exact sound_plain (by decide) (sound_fileLink title source size)
    | bookmark link title description icon cover =>
      exact sound_plain (by decide) (sound_bookmark link title description icon cover)
    | columnList => exact sound_plain (by decide) (hnodes (by decide))
    | column ratio =>
      -- the one block with an attribute beside its class
      refine sound_block (by decide) ?_ (hnodes (by decide))
      unfold columnWidth
      split
      · split <;> simp +decide
      · simp
    | table order columnHeader rowHeader =>
      refine sound_plain (by decide) (sound_element (by decide) (by simp) ?_)
      exact sound_tableRows order columnHeader rowHeader 0 hbelow
    | tableRow cells => exact sound_plain (by decide) (sound_looseCells cells)
    | aliasOf target title => exact sound_plain (by decide) (sound_aliasLink target title)
    | unsupported blockType => exact sound_plain (by decide) hnested

theorem sound_root {r : Renderer}
    (hcode : ∀ highlight, r.highlighter = some highlight → ∀ code name, p (highlight code name))
    (n : Node) (hids : n.QuoteFreeIds) : (r.root n).Sound p := by
  have hnodes {children : List Node} (h : ∀ c ∈ children, c.QuoteFreeIds) :
      (r.nodes "div" children).Sound p :=
    sound_nodes (by decide) h fun c hc => sound_node hcode c (h c hc)
  unfold root
  split
  · rename_i title icon cover fullWidth _
    have hid := quote_notMem_elementId hids
    have hheader : (element "header" [.className "page__header"]
        (ofOption (Renderer.icon "page__icon") icon ++
          element "h1" [.className "page__title"] (Inline.title title))).Sound p := by
      refine sound_element (by decide) (by simp) (sound_append.mpr ⟨by simp, ?_⟩)
      exact sound_element (by decide) (by simp) (Inline.sound_title title)
    refine sound_element (by decide) (by simpa using hid) ?_
    refine sound_append.mpr ⟨sound_append.mpr ⟨by simp, hheader⟩, ?_⟩
    exact hnodes fun c hc => hids.of_mem hc
  · refine hnodes fun c hc => ?_
    rw [List.mem_singleton.mp hc]
    exact hids

end Renderer
end Folio
