import Folio.Proofs.Html.Ids

/-!
# Folio.Proofs.Html.Anchors

The element ids of a page. What a tokenizer reads as the values of `id` attributes are the ids of
the nodes that are shown, in document order; no text, address or marker adds one or hides one.

* `Tokenizer.values`, `Rendered.values`: the values of the attributes of one name, as they are read
  from a text and as they stand in markup.
* `Node.shownBelow`, `Node.shown`: the nodes of a tree that get an element id, in document order.
* `Renderer.ids_node`, `Renderer.ids_render`: the ids in a block and in a page.
* `element_ids_are_shown_nodes`: the ids that are read from a page.
-/

namespace Folio

/-! ## Values of attributes -/

namespace Tokenizer

/-- The value of the attribute of a name, as it is written in a tag. -/
def Token.value? (name : String) : Token → Option String
  | .tag t => (t.attributes.lookup name.toList).map String.ofList
  | _ => none

/-- The values of the attributes of a name in the tags of a text. -/
def values (name : String) (s : String) : List String :=
  (tokens s).filterMap (Token.value? name)

theorem lookup_eq_none_iff_notMem {as : List (List Char × List Char)} {name : List Char} :
    as.lookup name = none ↔ name ∉ as.map Prod.fst := by
  rw [List.lookup_eq_none_iff, List.mem_map, not_exists]
  exact forall_congr' fun a => by rw [bne_iff_ne, not_and, ne_comm]

theorem IdFree.filterMap_eq_nil {ts : List Token} (h : IdFree ts) :
    ts.filterMap (Token.value? "id") = [] := by
  refine List.filterMap_eq_nil_iff.mpr fun token htoken => ?_
  cases token with
  | tag t =>
    have hnames : "id".toList ∉ t.attributes.map Prod.fst :=
      h _ (List.mem_filterMap.mpr ⟨.tag t, htoken, rfl⟩)
    rw [Token.value?, lookup_eq_none_iff_notMem.mpr hnames]
    rfl
  | _ => rfl

theorem lookup_add (t : Tag) (a : List Char × List Char) (name : List Char) :
    (t.add a).attributes.lookup name = (t.attributes ++ [a]).lookup name := by
  unfold Tag.add
  split
  · rename_i hmem
    rw [List.lookup_append, List.lookup_singleton]
    by_cases hname : name = a.1
    · have hfound : t.attributes.lookup name ≠ none := fun hnone =>
        lookup_eq_none_iff_notMem.mp hnone (hname ▸ hmem)
      obtain ⟨v, hv⟩ := Option.ne_none_iff_exists'.mp hfound
      rw [hv, Option.some_or]
    · rw [if_neg (by simpa using hname), Option.or_none]
  · rfl

/-- Of the attributes of a start tag the first one of a name is read. -/
theorem lookup_start (tag : String) (attributes : List Attribute) (name : List Char) :
    (Tag.start tag attributes).attributes.lookup name =
      (attributes.map Tag.attributeOf).lookup name := by
  have hfold (as : List (List Char × List Char)) (t : Tag) :
      (as.foldl Tag.add t).attributes.lookup name = (t.attributes ++ as).lookup name := by
    induction as generalizing t with
    | nil => simp
    | cons a rest ih =>
      rw [List.foldl_cons, ih, List.lookup_append, lookup_add, ← List.lookup_append,
        List.append_assoc, List.singleton_append]
  exact hfold _ _

end Tokenizer

namespace Attribute

/-- The value of the attribute of a name, as it is written. -/
def value? (name : String) (attributes : List Attribute) : Option String :=
  ((attributes.map Tokenizer.Tag.attributeOf).lookup name.toList).map String.ofList

variable {name : String} {rest : List Attribute}

@[simp] theorem value?_nil : value? name [] = none := rfl

theorem value?_cons {a : Attribute} {key : String} {v : List Char}
    (ha : Tokenizer.Tag.attributeOf a = (key.toList, v)) :
    value? name (a :: rest) = if name = key then some (String.ofList v) else value? name rest := by
  unfold value?
  rw [List.map_cons, ha, List.lookup_cons]
  by_cases h : name = key
  · simp [h]
  · have htoList : name.toList ≠ key.toList := fun heq => h (String.toList_inj.mp heq)
    rw [beq_false_of_ne htoList, if_neg h]

@[simp] theorem value?_flag_cons {key : String} :
    value? name (.flag key :: rest) = if name = key then some "" else value? name rest :=
  value?_cons rfl

@[simp] theorem value?_value_cons {key v : String} : value? name (.value key v :: rest) =
    if name = key then some (Escape.attr v) else value? name rest := by
  rw [value?_cons rfl, String.ofList_toList]

@[simp] theorem value?_className_cons {v : String} : value? name (.className v :: rest) =
    if name = "class" then some (Escape.attr v) else value? name rest :=
  value?_value_cons

@[simp] theorem value?_id_cons {v : String} : value? name (.id v :: rest) =
    if name = "id" then some v else value? name rest := by
  rw [value?_cons rfl, String.ofList_toList]

end Attribute

namespace Rendered

open Tokenizer

def values (name : String) (r : Rendered) : List String :=
  (Markup.tokensAll r.markup).filterMap (Token.value? name)

variable {name : String}

theorem value?_start (tag : String) (attributes : List Attribute) :
    Token.value? name (.tag (.start tag attributes)) = Attribute.value? name attributes := by
  rw [Token.value?, lookup_start]
  rfl

@[simp] theorem values_empty : empty.values name = [] := rfl

@[simp] theorem values_append (a b : Rendered) :
    (a ++ b).values name = a.values name ++ b.values name := by
  change (Markup.tokensAll (a.markup ++ b.markup)).filterMap _ = _
  rw [tokensAll_append, List.filterMap_append]
  rfl

@[simp] theorem values_text (s : String) : (text s).values name = [] := by
  simp [values, text, only, Markup.tokensAll, Markup.tokens, Token.value?]

@[simp] theorem values_verbatim (s : String) :
    (only (.verbatim s)).values name = Tokenizer.values name s := by
  simp only [values, only, Markup.tokensAll, Markup.tokens, List.append_nil]
  rfl

@[simp] theorem values_void (tag : String) (attributes : List Attribute) :
    (void tag attributes).values name = (Attribute.value? name attributes).toList := by
  simp only [values, void, only, Markup.tokensAll, Markup.tokens, List.append_nil,
    List.filterMap_cons, value?_start, List.filterMap_nil]
  cases Attribute.value? name attributes <;> rfl

@[simp] theorem values_element (tag : String) (attributes : List Attribute) (r : Rendered) :
    (element tag attributes r).values name =
      (Attribute.value? name attributes).toList ++ r.values name := by
  have hstop : Token.value? name (.tag (.stop tag)) = none := rfl
  simp only [values, element, Markup.tokensAll, Markup.tokens, List.append_nil, List.filterMap_cons,
    value?_start, List.filterMap_append, hstop, List.filterMap_nil]
  cases Attribute.value? name attributes <;> rfl

@[simp] theorem values_join (rs : List Rendered) :
    (join rs).values name = rs.flatMap (values name) := by
  induction rs with
  | nil => rfl
  | cons r rest ih => rw [join, values_append, ih, List.flatMap_cons]

@[simp] theorem values_ofOption (f : α → Rendered) (o : Option α) :
    (ofOption f o).values name = o.toList.flatMap fun x => (f x).values name := by
  cases o <;> simp [ofOption]

/-- The text of sound markup is read with the values that stand in it. -/
theorem values_html {r : Rendered} (h : r.Sound Whole) :
    Tokenizer.values name r.html = r.values name := by
  rw [Tokenizer.values, tokens_of_read (read_html h)]
  rfl

end Rendered

/-! ## Parts without ids -/

namespace Inline

open Rendered

@[simp] theorem values_mention {name : String} (inner : Rendered) (label : String) :
    (inner.replace (mention label)).values name =
      (Attribute.value? name [.className "color-mention"]).toList := by
  have hspan := @values_element name "span" [.className "color-mention"] (text label)
  rw [values_text, List.append_nil] at hspan
  exact hspan

theorem ids_applyStyle (style : Style) {inner : Rendered} (h : inner.values "id" = []) :
    (applyStyle style inner).values "id" = [] := by
  cases style with
  | unknown code => exact h
  | _ => simp [applyStyle, h]

theorem ids_applyStyles (styles : List Style) {inner : Rendered} (h : inner.values "id" = []) :
    (applyStyles inner styles).values "id" = [] := by
  induction styles with
  | nil => exact h
  | cons style rest ih => exact ids_applyStyle style ih

@[simp] theorem ids_runs (rs : List TextRun) : (runs rs).values "id" = [] := by
  simp [runs, run, ids_applyStyles]

@[simp] theorem ids_title (rs : List TextRun) : (title rs).values "id" = [] := by
  simp [title]

theorem ids_code {highlighter : Option Highlighter} {language : Option String}
    (hcode : ∀ highlight, highlighter = some highlight → ∀ code name,
      Tokenizer.values "id" (highlight code name) = [])
    (rs : List TextRun) : (code highlighter language rs).values "id" = [] := by
  have htext (s : String) : (codeText highlighter language s).values "id" = [] := by
    unfold codeText
    split
    · rename_i highlight name
      rw [values_verbatim]
      exact hcode highlight rfl s name
    · exact values_text s
  simp [code, ids_applyStyles, htext, List.flatMap_map]

end Inline

namespace Renderer

open Rendered

/-- The highlighter, if there is one, leaves no tag open and writes no ids. -/
def KeepsIds (r : Renderer) : Prop :=
  ∀ highlight, r.highlighter = some highlight → ∀ code name,
    Tokenizer.Whole (highlight code name) ∧ Tokenizer.values "id" (highlight code name) = []

theorem keepsIds_of_eq_none {r : Renderer} (h : r.highlighter = none) : r.KeepsIds := by
  intro highlight hsome
  rw [h] at hsome
  cases hsome

@[simp] theorem ids_picture (className source : String) :
    (picture className source).values "id" = [] := by
  simp [picture]

@[simp] theorem ids_icon (className s : String) : (icon className s).values "id" = [] := by
  unfold icon
  split <;> simp

@[simp] theorem ids_frame (source : String) : (frame source).values "id" = [] := by
  simp [frame]

@[simp] theorem ids_player (tag source : String) : (player tag source).values "id" = [] := by
  simp [player]

@[simp] theorem ids_video (source : String) : (video source).values "id" = [] := by
  unfold video
  split <;> simp

@[simp] theorem ids_image (m : Media) (source : String) : (image m source).values "id" = [] := by
  cases hwidth : m.width <;> simp [image, hwidth]

@[simp] theorem ids_caption (m : Media) : (caption m).values "id" = [] := by
  unfold caption
  split <;> simp

@[simp] theorem ids_checkbox (checked : Bool) : (checkbox checked).values "id" = [] := by
  cases checked <;> simp [checkbox]

@[simp] theorem ids_pageLink (id : Option String) (title : List TextRun)
    (pageIcon : Option String) : (pageLink id title pageIcon).values "id" = [] := by
  simp [pageLink]

@[simp] theorem ids_fileLink (title : List TextRun) (source size : Option String) :
    (fileLink title source size).values "id" = [] := by
  simp [fileLink]

@[simp] theorem ids_bookmark (link : Option String) (title description : List TextRun)
    (icon cover : Option String) :
    (bookmark link title description icon cover).values "id" = [] := by
  simp [bookmark, apply_ite (values "id")]

@[simp] theorem ids_aliasLink (target : String) (title : List TextRun) :
    (aliasLink target title).values "id" = [] := by
  simp [aliasLink, apply_ite (values "id")]

@[simp] theorem ids_looseCells (cells : List (String × List TextRun)) :
    (looseCells cells).values "id" = [] := by
  simp [looseCells, List.flatMap_map]

@[simp] theorem ids_cell (header : Bool) (text : Option (List TextRun)) :
    (cell header text).values "id" = [] := by
  simp [cell]

@[simp] theorem ids_rowCells (columnHeader rowHeader : Bool) (row : Nat)
    (cells : List (String × List TextRun)) (column : Nat) (keys : List String) :
    (rowCells columnHeader rowHeader row cells column keys).values "id" = [] := by
  induction keys generalizing column with
  | nil => rfl
  | cons key rest ih => simp [rowCells, ih]

theorem ids_listing {r : Renderer} (hr : r.KeepsIds) (text : List TextRun)
    (language : Option String) (wrap : Bool) :
    (r.listing text language wrap).values "id" = [] := by
  have hcode : ∀ highlight, r.highlighter = some highlight → ∀ code name,
      Tokenizer.values "id" (highlight code name) = [] :=
    fun highlight hsome code name => (hr highlight hsome code name).2
  simp only [listing, values_element, Inline.ids_code hcode]
  split <;> simp

end Renderer

/-! ## Shown nodes -/

namespace Node

def isRow (n : Node) : Bool :=
  match n.kind with
  | .tableRow _ => true
  | _ => false

mutual

/-- The nodes inside the element of a node that have an element of their own, in document order. Of
the children of a table only the rows are shown, and nothing is shown below them. -/
def shownBelow : Node → List Node
  | ⟨_, kind, _, _, _, children⟩ =>
    match kind with
    | .text _ | .heading .. | .toDo .. | .listItem .. | .list _ | .toggle _ | .quote _
    | .callout .. | .columnList | .column _ | .unsupported _ => shownAll children
    | .table .. => children.filter isRow
    | _ => []

def shownAll : List Node → List Node
  | [] => []
  | n :: rest => n :: (shownBelow n ++ shownAll rest)

end

/-- The nodes of a tree that have an element on its page, in document order. -/
def shown (n : Node) : List Node :=
  match n.kind with
  | .page .. => n :: shownAll n.children
  | _ => shownAll [n]

end Node

/-! ## Ids of pages -/

namespace Renderer

open Rendered Node

def elementIds (ns : List Node) : List String :=
  ns.map fun n => elementId n.id

@[simp] theorem elementIds_nil : elementIds [] = [] := rfl

@[simp] theorem elementIds_cons (n : Node) (ns : List Node) :
    elementIds (n :: ns) = elementId n.id :: elementIds ns := rfl

@[simp] theorem elementIds_append (ns ms : List Node) :
    elementIds (ns ++ ms) = elementIds ns ++ elementIds ms :=
  List.map_append

@[simp] theorem ids_block (r : Renderer) (tag typeName : String) (color : Option ThemeColor)
    (attributes : List Attribute) (content : Rendered) :
    (r.block tag typeName color attributes content).values "id" =
      (Attribute.value? "id" attributes).toList ++ content.values "id" := by
  simp [block]

theorem ids_nodes {r : Renderer} (tag : String) {children : List Node}
    (h : ∀ c ∈ children, (r.node c).values "id" = elementIds (shownBelow c)) :
    (r.nodes tag children).values "id" = elementIds (shownAll children) := by
  induction children with
  | nil => rfl
  | cons c rest ih =>
    have hrest := ih fun d hd => h d (List.mem_cons_of_mem c hd)
    rw [nodes, values_append, hrest, shownAll]
    simp [h c List.mem_cons_self]

theorem ids_nested {children : List Node} {content : Rendered}
    (h : content.values "id" = elementIds (shownAll children)) :
    (nested children content).values "id" = elementIds (shownAll children) := by
  cases children with
  | nil => rfl
  | cons c rest => simp [nested, h]

theorem ids_tableRows (order : List String) (columnHeader rowHeader : Bool) (child : Nat)
    (children : List Node) :
    (tableRows order columnHeader rowHeader child children).values "id" =
      elementIds (children.filter isRow) := by
  induction children generalizing child with
  | nil => rfl
  | cons c rest ih =>
    rw [tableRows, values_append, ih]
    obtain ⟨id, kind, color, created, edited, below⟩ := c
    cases kind <;> simp [List.filter_cons, isRow]

/-- The ids in a block are those of the nodes that are shown below it. -/
theorem ids_node {r : Renderer} (hr : r.KeepsIds) (n : Node) :
    (r.node n).values "id" = elementIds (shownBelow n) := by
  induction n using Node.induction with
  | step n ih =>
    obtain ⟨id, kind, color, created, edited, children⟩ := n
    have hnodes (tag : String) :
        (r.nodes tag children).values "id" = elementIds (shownAll children) :=
      ids_nodes tag ih
    have hnested : (nested children (r.nodes "div" children)).values "id" =
        elementIds (shownAll children) :=
      ids_nested (hnodes "div")
    have hwidth (ratio : Option Float) : Attribute.value? "id" (columnWidth ratio) = none := by
      unfold columnWidth
      split
      · split <;> simp
      · simp
    cases kind <;> simp [node, shownBelow, hnodes, hnested, hwidth, ids_listing hr, ids_tableRows]

theorem ids_root {r : Renderer} (hr : r.KeepsIds) (n : Node) :
    (r.root n).values "id" = elementIds (shown n) := by
  have hnodes (children : List Node) :
      (r.nodes "div" children).values "id" = elementIds (shownAll children) :=
    ids_nodes "div" fun c _ => ids_node hr c
  obtain ⟨id, kind, color, created, edited, children⟩ := n
  cases kind with
  | page title icon cover fullWidth =>
    cases icon <;> cases cover <;> simp [root, shown, rootPage, hnodes]
  | _ => exact hnodes [_]

/-- The ids that are read from a page are those of the nodes that are shown. -/
theorem ids_render {r : Renderer} (hr : r.KeepsIds) {n : Node} (hids : n.QuoteFreeIds) :
    Tokenizer.values "id" (r.render n).html = elementIds (shown n) := by
  have hsound : (r.root n).Sound Tokenizer.Whole :=
    sound_root (fun highlight hsome code name => (hr highlight hsome code name).1) n hids
  rw [← ids_root hr]
  simp only [render]
  split
  · obtain ⟨front, back, hfree, hdocument⟩ := tokens_document ((titleOf n).getD "")
    obtain ⟨hfront, hback⟩ : front.filterMap (Tokenizer.Token.value? "id") = [] ∧
        back.filterMap (Tokenizer.Token.value? "id") = [] := by
      have hparts := hfree.filterMap_eq_nil
      rwa [List.filterMap_append, List.append_eq_nil_iff] at hparts
    rw [Tokenizer.values, hdocument _ _ (read_html hsound), List.filterMap_append,
      List.filterMap_append, hfront, hback, List.nil_append, List.append_nil]
    rfl
  · exact values_html hsound

end Renderer

/-- The ids of elements that are read from a page are those of the nodes that are shown, in document
order: the id without dashes, and an empty one for a node without an id. No id may hold a double
quote, and a highlighter, if there is one, may neither leave a tag open nor write ids. -/
theorem element_ids_are_shown_nodes (r : Renderer) (hr : r.KeepsIds) (n : Node)
    (hids : n.QuoteFreeIds) :
    Tokenizer.values "id" (r.render n).html = n.shown.map fun m => Renderer.elementId m.id := by
  rw [Renderer.ids_render hr hids]
  rfl

/-- A block with nothing but an id. -/
def identified (id : String) (kind : NodeKind) (children : List Node) : Node :=
  { Node.synthetic kind children with id := some id }

/-- A page with a list, with a table of a row and a text that is no row, and with another page that
has a text. -/
def mixedPage : Node :=
  identified "1-a" (.page [] none none false) [
    .synthetic (.list .bulleted) [identified "2-b" (.listItem .bulleted []) []],
    identified "3-c" (.table [] false false)
      [identified "4-d" (.tableRow []) [], identified "5-e" (.text []) []],
    identified "6-f" (.page [] none none false) [identified "7-<" (.text []) []]]

theorem quoteFreeIds_identified {id : String} {kind : NodeKind} {children : List Node}
    (hid : '"' ∉ id.toList) (hchildren : ∀ c ∈ children, c.QuoteFreeIds) :
    (identified id kind children).QuoteFreeIds := by
  refine Node.quoteFreeIds_iff.mpr ⟨fun s hs => ?_, hchildren⟩
  obtain rfl := Option.some.inj hs
  exact hid

theorem element_ids_mixedPage :
    mixedPage.QuoteFreeIds ∧ Tokenizer.values "id" (({} : Renderer).render mixedPage).html =
      ["1a", "", "2b", "3c", "4d", "6f"] := by
  have hleaf {id : String} {kind : NodeKind} (hid : '"' ∉ id.toList) :
      (identified id kind []).QuoteFreeIds :=
    quoteFreeIds_identified hid fun c hc => nomatch hc
  have hids : mixedPage.QuoteFreeIds := by
    refine quoteFreeIds_identified (by decide) ?_
    refine List.forall_mem_cons.mpr ⟨?_, List.forall_mem_cons.mpr ⟨?_,
      List.forall_mem_singleton.mpr ?_⟩⟩
    · refine Node.quoteFreeIds_iff.mpr ⟨fun id hid => (nomatch hid), ?_⟩
      exact List.forall_mem_singleton.mpr (hleaf (by decide))
    · refine quoteFreeIds_identified (by decide) (List.forall_mem_cons.mpr ⟨?_, ?_⟩)
      · exact hleaf (by decide)
      · exact List.forall_mem_singleton.mpr (hleaf (by decide))
    · refine quoteFreeIds_identified (by decide) ?_
      exact List.forall_mem_singleton.mpr (hleaf (by decide))
  refine ⟨hids, ?_⟩
  rw [element_ids_are_shown_nodes {} (Renderer.keepsIds_of_eq_none rfl) mixedPage hids]
  rfl

end Folio
