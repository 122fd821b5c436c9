import Folio.Proofs.Html.Tokenizer

/-!
# Folio.Proofs.Html.Ids

How far the ids of blocks reach into a page. Two trees that differ in their ids only are compared by
what a tokenizer reads from their pages.

* `Node.anonymous`: a tree without its ids.
* `Tokenizer.outline`, `Tokenizer.tagSequence`: what is read, without ids and addresses, and the
  names of it alone.
* `Renderer.outline_node`: a block has the outline of the block without ids.
* `render_ignores_ids`: pages of trees that are the same without ids have the same outline, as long
  as no id holds a quote.
* `quote_in_id_adds_tag`: with a quote in an id they need not have.
-/

namespace Folio

/-! ## Trees without ids -/

namespace Node

mutual

/-- The tree without the ids of its blocks. -/
def anonymous : Node → Node
  | ⟨_, kind, color, created, edited, children⟩ =>
    ⟨none, kind, color, created, edited, anonymousAll children⟩

def anonymousAll : List Node → List Node
  | [] => []
  | n :: rest => anonymous n :: anonymousAll rest

end

theorem anonymous_eq (n : Node) :
    n.anonymous = { n with id := none, children := anonymousAll n.children } := by
  cases n
  rw [anonymous]

@[simp] theorem kind_anonymous (n : Node) : n.anonymous.kind = n.kind := by
  rw [anonymous_eq]

@[simp] theorem isEmpty_anonymousAll (ns : List Node) :
    (anonymousAll ns).isEmpty = ns.isEmpty := by
  cases ns <;> rfl

end Node

/-! ## Outlines -/

namespace Tokenizer

/-- An attribute without its value if that is an id or an address. -/
def blankAttribute (a : List Char × List Char) : List Char × List Char :=
  if a.1 = "id".toList ∨ a.1 = "href".toList then (a.1, []) else a

/-- A tag without the values of ids and addresses. -/
def Tag.blank (t : Tag) : Tag :=
  { t with attributes := t.attributes.map blankAttribute }

def Token.blank : Token → Token
  | .tag t => .tag t.blank
  | token => token

/-- Whether a tag is an end tag, its name, and the names of its attributes. -/
def Token.shape? : Token → Option (Bool × List Char × List (List Char))
  | .tag t => some (t.isEnd, t.name, t.attributes.map Prod.fst)
  | _ => none

/-- The tokens of a text without the values of ids and addresses. -/
def outline (s : String) : List Token :=
  (tokens s).map Token.blank

/-- The tags of a text with the names of their attributes. -/
def tagSequence (s : String) : List (Bool × List Char × List (List Char)) :=
  (tokens s).filterMap Token.shape?

@[simp] theorem fst_blankAttribute (a : List Char × List Char) : (blankAttribute a).1 = a.1 := by
  unfold blankAttribute
  split <;> rfl

theorem names_blank (t : Tag) :
    t.blank.attributes.map Prod.fst = t.attributes.map Prod.fst := by
  simp [Tag.blank, Function.comp_def]

@[simp] theorem shape?_blank (token : Token) : token.blank.shape? = token.shape? := by
  cases token with
  | char c => rfl
  | comment text => rfl
  | tag t =>
    simp only [Token.blank, Token.shape?, names_blank]
    rfl

/-- The names of tags and attributes are part of the outline. -/
theorem tagSequence_eq (s : String) : tagSequence s = (outline s).filterMap Token.shape? := by
  have hshape : Token.shape? ∘ Token.blank = Token.shape? := funext shape?_blank
  rw [outline, List.filterMap_map, hshape]
  rfl

/-- No tag among the tokens has an id. -/
def IdFree (ts : List Token) : Prop :=
  ∀ shape ∈ ts.filterMap Token.shape?, "id".toList ∉ shape.2.2

instance (ts : List Token) : Decidable (IdFree ts) :=
  inferInstanceAs (Decidable (∀ shape ∈ ts.filterMap Token.shape?, "id".toList ∉ shape.2.2))

theorem IdFree.append {ts us : List Token} (hts : IdFree ts) (hus : IdFree us) :
    IdFree (ts ++ us) := by
  intro shape hshape
  rw [List.filterMap_append, List.mem_append] at hshape
  exact hshape.elim (hts shape) (hus shape)

theorem blank_add (t : Tag) (a : List Char × List Char) :
    (t.add a).blank = t.blank.add (blankAttribute a) := by
  simp only [Tag.add, names_blank, fst_blankAttribute]
  split
  · rfl
  · simp [Tag.blank]

/-- The outline of a start tag depends on the outlines of its attributes only. -/
theorem blank_start (tag : String) (attributes : List Attribute) :
    (Tag.start tag attributes).blank =
      (attributes.map fun a => blankAttribute (Tag.attributeOf a)).foldl Tag.add
        (.named false tag.toList) := by
  have hfold (as : List (List Char × List Char)) (t : Tag) :
      (as.foldl Tag.add t).blank = (as.map blankAttribute).foldl Tag.add t.blank := by
    induction as generalizing t with
    | nil => rfl
    | cons a rest ih =>
      rw [List.foldl_cons, ih, blank_add]
      rfl
  rw [Tag.start, hfold, List.map_map]
  rfl

end Tokenizer

namespace Rendered

open Tokenizer

def outline (r : Rendered) : List Token :=
  (Markup.tokensAll r.markup).map Token.blank

theorem tokensAll_append (ms ns : List Markup) :
    Markup.tokensAll (ms ++ ns) = Markup.tokensAll ms ++ Markup.tokensAll ns := by
  induction ms with
  | nil => rfl
  | cons m rest ih =>
    simp only [List.cons_append, Markup.tokensAll, ih, List.append_assoc]

@[simp] theorem outline_append (a b : Rendered) : (a ++ b).outline = a.outline ++ b.outline := by
  change (Markup.tokensAll (a.markup ++ b.markup)).map Token.blank = _
  rw [tokensAll_append, List.map_append]
  rfl

theorem outline_append_congr {first a b : Rendered} (h : a.outline = b.outline) :
    (first ++ a).outline = (first ++ b).outline := by
  rw [outline_append, outline_append, h]

/-- Elements of one name have one outline if their attributes and contents do. -/
theorem outline_element_congr (tag : String) {as bs : List Attribute} {a b : Rendered}
    (hattributes : as.map (fun x => blankAttribute (Tag.attributeOf x)) =
      bs.map (fun x => blankAttribute (Tag.attributeOf x)))
    (hcontent : a.outline = b.outline) : (element tag as a).outline = (element tag bs b).outline := by
  have helement (xs : List Attribute) (r : Rendered) :
      (element tag xs r).outline =
        .tag (Tag.start tag xs).blank :: (r.outline ++ [Token.blank (.tag (.stop tag))]) := by
    simp [outline, element, Markup.tokensAll, Markup.tokens, Token.blank]
  rw [helement, helement, blank_start, blank_start, hattributes, hcontent]

/-- The text of sound markup is read as the markup. -/
theorem read_html {r : Rendered} (h : r.Sound Whole) :
    read .data r.html.toList = (.data, Markup.tokensAll r.markup) :=
  read_writeAll fun m hm => read_write (h m hm)

end Rendered

/-! ## Pages -/

namespace Renderer

open Rendered Tokenizer

theorem blankAttribute_id (s : String) :
    blankAttribute (Tag.attributeOf (.id s)) = ("id".toList, []) := by
  rfl

theorem blankAttribute_href (s : String) :
    blankAttribute (Tag.attributeOf (.value "href" s)) = ("href".toList, []) := by
  rfl

theorem outline_block_congr {r : Renderer} {tag typeName : String} {color : Option ThemeColor}
    {attributes : List Attribute} {a b : Rendered} (h : a.outline = b.outline) :
    (r.block tag typeName color attributes a).outline =
      (r.block tag typeName color attributes b).outline :=
  outline_element_congr tag rfl h

theorem outline_nodes {r : Renderer} (tag : String) {children : List Node}
    (h : ∀ c ∈ children, (r.node c).outline = (r.node c.anonymous).outline) :
    (r.nodes tag children).outline = (r.nodes tag (Node.anonymousAll children)).outline := by
  induction children with
  | nil => rfl
  | cons c rest ih =>
    have hrest := ih fun d hd => h d (List.mem_cons_of_mem c hd)
    rw [Node.anonymousAll, nodes, nodes, outline_append, outline_append, hrest]
    congr 1
    exact outline_element_congr tag (by simp [blankAttribute_id]) (h c List.mem_cons_self)

theorem outline_nested {children : List Node} {a b : Rendered} (h : a.outline = b.outline) :
    (nested children a).outline = (nested (Node.anonymousAll children) b).outline := by
  simp only [nested, Node.isEmpty_anonymousAll]
  split
  · rfl
  · exact outline_element_congr "div" rfl h

theorem outline_tableRows (order : List String) (columnHeader rowHeader : Bool) (child : Nat)
    (children : List Node) :
    (tableRows order columnHeader rowHeader child children).outline =
      (tableRows order columnHeader rowHeader child (Node.anonymousAll children)).outline := by
  induction children generalizing child with
  | nil => rfl
  | cons c rest ih =>
    rw [Node.anonymousAll, tableRows, tableRows, outline_append, outline_append, ih,
      Node.kind_anonymous]
    congr 1
    split
    · exact outline_element_congr "tr" (by simp [blankAttribute_id]) rfl
    · rfl

theorem outline_node (r : Renderer) (n : Node) :
    (r.node n).outline = (r.node n.anonymous).outline := by
  induction n using Node.induction with
  | step n ih =>
    obtain ⟨id, kind, color, created, edited, children⟩ := n
    have hnodes (tag : String) :
        (r.nodes tag children).outline = (r.nodes tag (Node.anonymousAll children)).outline :=
      outline_nodes tag ih
    have hnested : (nested children (r.nodes "div" children)).outline =
        (nested (Node.anonymousAll children)
          (r.nodes "div" (Node.anonymousAll children))).outline :=
      outline_nested (hnodes "div")
    rw [Node.anonymous]
    -- a kind that shows neither ids nor children is done with the rewriting
    cases kind with rw [node, node]
    | page title icon cover fullWidth =>
      refine outline_block_congr ?_
      exact outline_element_congr "a" (by simp [blankAttribute_href]) rfl
    | text t => exact outline_block_congr (outline_append_congr hnested)
    | heading depth t => exact outline_append_congr hnested
    | toDo t checked => exact outline_block_congr (outline_append_congr hnested)
    | listItem list t => exact outline_block_congr (outline_append_congr hnested)
    | list list => exact outline_block_congr (hnodes "li")
    | toggle t => exact outline_block_congr (outline_append_congr (hnodes "div"))
    | quote t => exact outline_block_congr (outline_append_congr hnested)
    | callout t icon =>
      refine outline_block_congr (outline_append_congr ?_)
      exact outline_element_congr "div" rfl (outline_append_congr hnested)
    | columnList => exact outline_block_congr (hnodes "div")
    | column ratio => exact outline_block_congr (hnodes "div")
    | table order columnHeader rowHeader =>
      refine outline_block_congr ?_
      exact outline_element_congr "tbody" rfl (outline_tableRows order _ _ 0 children)
    | unsupported blockType => exact outline_block_congr hnested

theorem outline_root (r : Renderer) (n : Node) :
    (r.root n).outline = (r.root n.anonymous).outline := by
  have hnodes (children : List Node) :
      (r.nodes "div" children).outline = (r.nodes "div" (Node.anonymousAll children)).outline :=
    outline_nodes "div" fun c _ => outline_node r c
  have hkind := n.kind_anonymous
  unfold root
  rw [hkind]
  split
  · rw [Node.anonymous_eq]
    refine outline_element_congr "article" (by simp [blankAttribute_id]) ?_
    exact outline_append_congr (hnodes n.children)
  · exact hnodes [n]

/-- The body of a document is read between two parts that do not depend on it and have no ids. -/
theorem tokens_document (title : String) :
    ∃ front back, IdFree (front ++ back) ∧
      ∀ (body : String) (ts : List Token), read .data body.toList = (.data, ts) →
        tokens (document title body) = front ++ ts ++ back := by
  -- the three texts around the title and the body are fixed
  have hhead : (read .data
      "<!DOCTYPE html>\n<html>\n<head>\n<meta charset=\"utf-8\">\n<title>".toList).1 =
        .raw "title".toList ∧ IdFree (read .data
      "<!DOCTYPE html>\n<html>\n<head>\n<meta charset=\"utf-8\">\n<title>".toList).2 := by
    decide +kernel
  have hstart : (read (.raw "title".toList) "</title>\n</head>\n<body>\n".toList).1 = .data ∧
      IdFree (read (.raw "title".toList) "</title>\n</head>\n<body>\n".toList).2 := by
    decide +kernel
  have hstop : (read .data "\n</body>\n</html>\n".toList).1 = .data ∧
      IdFree (read .data "\n</body>\n</html>\n".toList).2 := by
    decide +kernel
  have hpart {a b : State} {cs : List Char} (h : (read a cs).1 = b ∧ IdFree (read a cs).2) :
      ∃ ts, IdFree ts ∧ read a cs = (b, ts) :=
    ⟨(read a cs).2, h.2, Prod.ext h.1 rfl⟩
  obtain ⟨head, hfree, hhead⟩ := hpart hhead
  obtain ⟨start, hfree', hstart⟩ := hpart hstart
  obtain ⟨stop, hfree'', hstop⟩ := hpart hstop
  have htitle : read (.raw "title".toList) (Escape.text title).toList =
      (.raw "title".toList, (Escape.text title).toList.map .char) :=
    read_raw (lt_notMem_text title)
  have hchars : IdFree ((Escape.text title).toList.map .char) := by
    simp [IdFree, Token.shape?, List.filterMap_map, Function.comp_def]
  refine ⟨head ++ (Escape.text title).toList.map .char ++ start, stop, ?_⟩
  constructor
  · exact ((hfree.append hchars).append hfree').append hfree''
  intro body ts hbody
  apply tokens_of_read
  unfold document
  rw [String.toList_append, String.toList_append, String.toList_append, String.toList_append]
  exact read_append_of (read_append_of (read_append_of (read_append_of hhead htitle) hstart) hbody)
    hstop

theorem outline_render {r : Renderer} {n n' : Node} (hn : (r.root n).Sound Whole)
    (hn' : (r.root n').Sound Whole) (hroot : (r.root n).outline = (r.root n').outline)
    (htitle : titleOf n = titleOf n') :
    Tokenizer.outline (r.render n).html = Tokenizer.outline (r.render n').html := by
  have hread := read_html hn
  have hread' := read_html hn'
  obtain ⟨front, back, -, hdocument⟩ := tokens_document ((titleOf n').getD "")
  simp only [render, htitle, Tokenizer.outline]
  split
  · rw [hdocument _ _ hread, hdocument _ _ hread']
    simp only [List.map_append]
    congr 2
  · rw [tokens_of_read hread, tokens_of_read hread']
    exact hroot

end Renderer

open Tokenizer

/-- The pages of two trees that differ in the ids of blocks only are read as the same tags with the
same attributes. Beside the values of `id` and `href` all of what is read is the same. No id may
hold a double quote, and a highlighter may not leave a tag open. -/
theorem render_ignores_ids (r : Renderer)
    (hcode : ∀ highlight, r.highlighter = some highlight →
      ∀ code name, Whole (highlight code name))
    (n n' : Node) (hids : n.QuoteFreeIds) (hids' : n'.QuoteFreeIds)
    (h : n.anonymous = n'.anonymous) :
    tagSequence (r.render n).html = tagSequence (r.render n').html ∧
      outline (r.render n).html = outline (r.render n').html := by
  have hroot : (r.root n).outline = (r.root n').outline := by
    rw [Renderer.outline_root, h, ← Renderer.outline_root]
  have htitle : Renderer.titleOf n = Renderer.titleOf n' := by
    unfold Renderer.titleOf
    rw [← n.kind_anonymous, h, n'.kind_anonymous]
  have houtline := Renderer.outline_render (Renderer.sound_root hcode n hids)
    (Renderer.sound_root hcode n' hids') hroot htitle
  refine ⟨?_, houtline⟩
  rw [tagSequence_eq, tagSequence_eq, houtline]

/-- A page with a list of one item, and two ids. -/
def listed (page item : Option String) : Node :=
  { id := page
    kind := .page [⟨"Plan", []⟩] none none false
    color := none
    createdTime := none
    lastEditedTime := none
    children := [.synthetic (.list .bulleted)
      [{ Node.synthetic (.listItem .bulleted [⟨"first", []⟩]) [] with id := item }]] }

/-- Documents with a highlighter that does no more than to escape the code. -/
def escapesCode : Renderer :=
  { highlighter := some fun code _ => Escape.text code, standalone := true }

theorem listed_ignores_ids :
    listed (some "a-1") none ≠ listed (some "<hr>") (some "x' y=&") ∧
      tagSequence (escapesCode.render (listed (some "a-1") none)).html =
        tagSequence (escapesCode.render (listed (some "<hr>") (some "x' y=&"))).html ∧
      outline (escapesCode.render (listed (some "a-1") none)).html =
        outline (escapesCode.render (listed (some "<hr>") (some "x' y=&"))).html := by
  have hcode : ∀ highlight, escapesCode.highlighter = some highlight →
      ∀ code name, Whole (highlight code name) := by
    rintro _ ⟨rfl⟩ code name
    unfold Whole
    rw [read_data (lt_notMem_text code)]
  have hids {page item : Option String} (hpage : ∀ id, page = some id → '"' ∉ id.toList)
      (hitem : ∀ id, item = some id → '"' ∉ id.toList) : (listed page item).QuoteFreeIds := by
    refine Node.quoteFreeIds_iff.mpr ⟨hpage, fun list hlist => ?_⟩
    obtain rfl := List.mem_singleton.mp hlist
    refine Node.quoteFreeIds_iff.mpr ⟨fun id hid => (nomatch hid), fun entry hentry => ?_⟩
    obtain rfl := List.mem_singleton.mp hentry
    exact Node.quoteFreeIds_iff.mpr ⟨hitem, fun c hc => nomatch hc⟩
  have hdiffer : listed (some "a-1") none ≠ listed (some "<hr>") (some "x' y=&") := by
    simp [listed]
  have hfirst : (listed (some "a-1") none).QuoteFreeIds :=
    hids (by simp +decide) (by simp)
  have hsecond : (listed (some "<hr>") (some "x' y=&")).QuoteFreeIds :=
    hids (by simp +decide) (by simp +decide)
  exact ⟨hdiffer, render_ignores_ids escapesCode hcode _ _ hfirst hsecond rfl⟩

/-- A rule with an id. -/
def ruled (id : String) : Node :=
  { Node.synthetic .divider [] with id := some id }

/-- With a double quote in it, an id adds a tag to the page. -/
theorem quote_in_id_adds_tag :
    ¬ ∀ (r : Renderer) (n n' : Node), n.anonymous = n'.anonymous →
      tagSequence (r.render n).html = tagSequence (r.render n').html := by
  intro h
  have hsame := h {} (ruled "a") (ruled "\"><hr x=\"") rfl
  revert hsame
  decide +kernel

end Folio
