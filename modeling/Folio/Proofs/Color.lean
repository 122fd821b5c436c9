import Folio.Proofs.Assembly.Tree
import Folio.Proofs.Html.Nesting
import Folio.Proofs.Html.Tables

/-!
# Folio.Proofs.Color

One palette for blocks and markers. The class of a marker is looked up by its token, that of a block
by the color which the token was read as.

* `ThemeColor.palette_agrees`: every entry is found again by its color, whose class and token are
  those of one entry, be it the first of two for one color.
* `resolveClass_parse?`, `ThemeColor.parse?_token`: both ways through the palette come to one class,
  and a color is read back from its canonical token.
* `Renderer.exists_html_node`: the text of any block starts with its classes.
* `block_and_marker_colors_agree`: blocks of a color token and markers of it have one class.
-/

namespace Folio

/-! ## The palette -/

namespace ThemeColor

/-- What a look-up by color finds is of the same class as the entry, and its token is read as the
same color. -/
theorem palette_agrees : ∀ s ∈ palette, s.color.className = s.className ∧
    parse? s.color.token = some s.color ∧ s.className ≠ "" := by
  decide

variable {token : String} {color : ThemeColor}

theorem parse?_eq_some_iff : parse? token = some color ↔
    token ≠ "" ∧ ((∃ s ∈ palette, swatchOf? token = some s ∧ color = s.color) ∨
      swatchOf? token = none ∧ color = .other token) := by
  unfold parse?
  by_cases hempty : token = ""
  · simp [hempty]
  · rw [if_neg (by simpa using hempty)]
    cases hs : swatchOf? token with
    | none => simp [hempty, eq_comm]
    | some s =>
      have hmem : s ∈ palette := List.mem_of_find?_eq_some hs
      simp [hempty, hmem, eq_comm]

/-- A color is read back from its canonical token. -/
theorem parse?_token (h : parse? token = some color) : parse? color.token = some color := by
  obtain ⟨-, ⟨s, hs, -, rfl⟩ | ⟨-, rfl⟩⟩ := parse?_eq_some_iff.mp h
  · exact (palette_agrees s hs).2.1
  · exact h

theorem exists_parse? (h : token ≠ "") : ∃ color, parse? token = some color := by
  cases hs : swatchOf? token with
  | none => exact ⟨.other token, parse?_eq_some_iff.mpr ⟨h, .inr ⟨hs, rfl⟩⟩⟩
  | some s =>
    have hmem : s ∈ palette := List.mem_of_find?_eq_some hs
    exact ⟨s.color, parse?_eq_some_iff.mpr ⟨h, .inl ⟨s, hmem, hs, rfl⟩⟩⟩

theorem className_ne_empty (h : parse? token = some color) : color.className ≠ "" := by
  obtain ⟨hne, ⟨s, hs, -, rfl⟩ | ⟨-, rfl⟩⟩ := parse?_eq_some_iff.mp h
  · obtain ⟨hclass, -, hclassNe⟩ := palette_agrees s hs
    rw [hclass]
    exact hclassNe
  · exact hne

end ThemeColor

open ThemeColor

/-- The class of the color of a token is the class of the token. -/
theorem resolveClass_parse? (token default : String) :
    resolveClass (parse? token) default = resolve (some token) default := by
  unfold resolve
  by_cases hempty : token = ""
  · simp [parse?, resolveClass, hempty]
  · simp only [parse?, String.isEmpty_iff, if_neg hempty]
    cases hs : swatchOf? token with
    | none => rfl
    | some s => exact (palette_agrees s (List.mem_of_find?_eq_some hs)).1

theorem resolve_of_ne_empty {token : String} (h : token ≠ "") (default default' : String) :
    resolve (some token) default = resolve (some token) default' := by
  simp only [resolve, String.isEmpty_iff, if_neg h]

/-! ## Blocks -/

def NodeKind.typeNames : List String :=
  ["page", "text", "heading", "to_do", "bulleted_list_item", "numbered_list_item", "bulleted_list",
   "numbered_list", "toggle", "quote", "callout", "divider", "code", "equation", "image", "video",
   "audio", "embed", "file", "bookmark", "column_list", "column", "table", "table_row", "alias",
   "unsupported"]

theorem NodeKind.typeName_mem (k : NodeKind) : k.typeName ∈ typeNames := by
  cases k with
  | listItem kind => cases kind <;> simp [typeName, typeNames]
  | list kind => cases kind <;> simp [typeName, typeNames]
  | _ => simp [typeName, typeNames]

theorem Escape.attr_append (s t : String) : attr (s ++ t) = attr s ++ attr t :=
  Escaping.ofAttr.escape_append s t

namespace Renderer

/-- The tag of the element of a block. -/
def blockTag : NodeKind → String
  | .heading depth _ => headingTag depth
  | .list kind => listTag kind
  | .toggle _ => "details"
  | .quote _ => "blockquote"
  | .image _ | .video _ | .audio _ | .embed _ => "figure"
  | .table .. => "table"
  | _ => "div"

/-- The classes that all blocks of a kind have. -/
def kindClasses (k : NodeKind) : String :=
  "block block--" ++ k.typeName

theorem attr_kindClasses (k : NodeKind) : Escape.attr (kindClasses k) = kindClasses k := by
  have hfront : Escape.attr "block block--" = "block block--" := by decide +kernel
  have hnames : ∀ name ∈ NodeKind.typeNames, Escape.attr name = name := by decide +kernel
  rw [kindClasses, Escape.attr_append, hfront, hnames k.typeName k.typeName_mem]

/-- Every block is one element, with its children behind it if it is a heading. -/
theorem exists_html_node_eq_block (r : Renderer) (n : Node) : ∃ attributes content more,
    (r.node n).html =
      (r.block (blockTag n.kind) n.kind.typeName n.color attributes content).html ++ more := by
  obtain ⟨id, kind, color, created, edited, children⟩ := n
  cases kind with
  | heading depth t =>
    rw [node]
    exact ⟨_, _, _, Rendered.html_append _ _⟩
  | _ =>
    rw [node]
    exact ⟨_, _, "", String.append_empty.symm⟩

theorem exists_html_block (r : Renderer) (n : Node) (tag : String) (attributes : List Attribute)
    (content : Rendered) : ∃ rest,
    (r.block tag n.kind.typeName n.color attributes content).html =
      "<" ++ tag ++ " class=\"" ++ Escape.attr (r.blockClasses n) ++ "\"" ++ rest := by
  have hblock : r.block tag n.kind.typeName n.color attributes content =
      .element tag (.className (r.blockClasses n) :: attributes) content := rfl
  rw [hblock, Rendered.html_element]
  refine ⟨String.join (attributes.map Attribute.write) ++ ">" ++ content.html ++
    Markup.endTag tag, String.toList_inj.mp ?_⟩
  simp [Markup.startTag, Attribute.className, Attribute.write]

/-- Whatever the kind of a block, its text starts with its tag and its classes. -/
theorem exists_html_node (r : Renderer) (n : Node) : ∃ rest, (r.node n).html =
    "<" ++ blockTag n.kind ++ " class=\"" ++ Escape.attr (r.blockClasses n) ++ "\"" ++ rest := by
  obtain ⟨attributes, content, more, hnode⟩ := r.exists_html_node_eq_block n
  obtain ⟨rest, hblock⟩ := r.exists_html_block n (blockTag n.kind) attributes content
  exact ⟨rest ++ more, by rw [hnode, hblock, String.append_assoc]⟩

theorem blockClasses_of_color (r : Renderer) {n : Node} {token : String}
    (hcolor : n.color = parse? token) (hne : token ≠ "") :
    r.blockClasses n = kindClasses n.kind ++ " " ++ resolve (some token) "" := by
  have hclass : resolveClass n.color r.defaultColor = resolve (some token) "" := by
    rw [hcolor, resolveClass_parse?, resolve_of_ne_empty hne _ ""]
  have hshown : resolve (some token) "" ≠ "" := by
    obtain ⟨color, hparse⟩ := exists_parse? hne
    rw [← resolveClass_parse?, hparse]
    exact className_ne_empty hparse
  unfold blockClasses
  simp only [hclass, String.isEmpty_iff, if_neg hshown]
  simp only [kindClasses, String.append_assoc]

/-- A block has the class that a color marker of a token writes around any markup, behind the
classes of its kind. -/
def ColoredAs (r : Renderer) (n : Node) (token : String) : Prop :=
  ∃ cls rest,
    (r.node n).html =
      "<" ++ blockTag n.kind ++ " class=\"" ++ kindClasses n.kind ++ " " ++ cls ++ "\"" ++ rest ∧
    ∀ inner, (Inline.applyStyle (.color token) inner).html =
      "<span class=\"" ++ cls ++ "\">" ++ inner.html ++ "</span>"

theorem coloredAs_of_color (r : Renderer) {n : Node} {token : String}
    (hcolor : n.color = parse? token) (hne : token ≠ "") : r.ColoredAs n token := by
  obtain ⟨rest, hnode⟩ := r.exists_html_node n
  refine ⟨Escape.attr (resolve (some token) ""), rest, ?_, fun inner => ?_⟩
  · have hspace : Escape.attr " " = " " := rfl
    rw [hnode, r.blockClasses_of_color hcolor hne, Escape.attr_append, Escape.attr_append,
      attr_kindClasses, hspace]
    simp only [String.append_assoc]
  · exact Inline.html_applyStyle rfl inner

end Renderer

/-! ## Records -/

theorem Registry.OfTransformers.color_transform {reg : Registry} (h : reg.OfTransformers) (b : Block)
    (children : List Node) :
    (reg.transform b children).1.color = b.colorToken?.bind parse? := by
  obtain ⟨t, ht⟩ := h.exists_transform b children
  rw [ht]
  rfl

theorem Assembler.color_of_build {a : Assembler} (hreg : a.registry.OfTransformers)
    {path : List String} {b : Block} {hb : b ∈ a.records.blocks} {isRoot : Bool} {n : Node}
    {ws : List Warning} (h : a.build path b hb isRoot = .ok (n, ws)) :
    n.color = b.colorToken?.bind parse? := by
  obtain ⟨-, nodes, -, -, rfl, -⟩ := build_eq_ok_iff.mp h
  obtain ⟨kind, hkind⟩ := a.fillAlias_eq (a.registry.transform b nodes).1
  rw [hkind]
  exact hreg.color_transform b nodes

/-- Blocks and markers are colored by one palette:
* the class of the color that a token is read as is the class of the token, with any class for the
  empty token;
* a color that was read from a token is read again from its canonical one;
* whatever transformers are registered, the node of a block with a color token is shown, as a block
  of any kind and with any default color, in the class that a color marker of the token writes;
* the same holds of every node in the tree of a root. -/
theorem block_and_marker_colors_agree :
    (∀ token default, resolveClass (parse? token) default = resolve (some token) default) ∧
    (∀ token color, parse? token = some color → parse? color.token = some color) ∧
    (∀ reg : Registry, reg.OfTransformers → ∀ b children token,
      b.colorToken? = some token → token ≠ "" →
      ∀ r : Renderer, r.ColoredAs (reg.transform b children).1 token) ∧
    ∀ a : Assembler, a.registry.OfTransformers → ∀ rootId t, a.assemble rootId = .ok t →
      ∀ n x b token, Node.Within n t.root → n.id = some x → a.records.get? x = some b →
        b.colorToken? = some token → token ≠ "" → ∀ r : Renderer, r.ColoredAs n token := by
  refine ⟨resolveClass_parse?, fun token color => parse?_token,
    fun reg hreg b children token htoken hne r => ?_,
    fun a hreg rootId t h n x b token hn hid hget htoken hne r => ?_⟩
  · refine r.coloredAs_of_color ?_ hne
    rw [hreg.color_transform, htoken]
    rfl
  · obtain ⟨path, c, hc, isRoot, ws, -, hget', -, hbuild⟩ :=
      Assembler.build_of_within hreg h hn hid
    obtain rfl : b = c := Option.some.inj (hget.symm.trans hget')
    refine r.coloredAs_of_color ?_ hne
    rw [Assembler.color_of_build hreg hbuild, htoken]
    rfl

/-- A page with a quote in the older name of a color. -/
def tinted : Assembler where
  records := .ofList
    [{ id := "root", blockType := "page" },
     { id := "line", blockType := "quote", format := some [("block_color", .string "green")] }]
  children := ChildIndex.empty.set "root" ["line"]

theorem tinted_colors_agree :
    resolveClass (parse? "green") "plain" = "color-green" ∧
    parse? "green" = some (.ink .teal) ∧ parse? (ThemeColor.ink .teal).token = some (.ink .teal) ∧
    (∀ r : Renderer, r.ColoredAs (Registry.builtin.transform
      { blockType := "callout", format := some [("block_color", .string "sunset")] } []).1
      "sunset") ∧
    ∃ t, tinted.assemble "root" = .ok t ∧ ∃ n ∈ t.root.children, n.id = some "line" ∧
      ∀ r : Renderer, r.ColoredAs n "green" := by
  obtain ⟨hclass, htoken, hblock, htree⟩ := block_and_marker_colors_agree
  have hgreen : parse? "green" = some (.ink .teal) := by decide
  refine ⟨?_, hgreen, htoken "green" _ hgreen,
    hblock .builtin .builtin _ [] "sunset" (by decide) (by decide), ?_⟩
  · rw [hclass]
    decide
  · have hrun : (tinted.assembleWithin 3 "root").map (·.toOption.map (·.root.children.map (·.id))) =
        some (some [some "line"]) := by
      decide +kernel
    rw [Assembler.assembleWithin_eq_assemble tinted (by decide)] at hrun
    cases h : tinted.assemble "root" with
    | error e =>
      rw [h] at hrun
      cases hrun
    | ok t =>
      rw [h] at hrun
      have hids : t.root.children.map (·.id) = [some "line"] :=
        Option.some.inj (Option.some.inj hrun)
      have hline : some "line" ∈ t.root.children.map (·.id) := hids ▸ List.mem_singleton_self _
      obtain ⟨n, hn, hid⟩ := List.mem_map.mp hline
      exact ⟨t, rfl, n, hn, hid, htree tinted .builtin "root" t h n "line" _ "green"
        (.child hn (.self n)) hid rfl rfl (by decide)⟩

end Folio
