import Folio.Block.Transformer
import Folio.Proofs.BlockId
import Folio.Proofs.Html.Anchors
import Folio.Proofs.RecordMap.Lookup
import Folio.Proofs.Url.Anchor

/-!
# Folio.Proofs.Html.LocalLinks

Links to blocks lead to the elements of the blocks. The id in a link and the id of a block may be
spelled in different ways; both come down to the id without dashes.

* `Anchor.localAnchor_of_dashed_eq`: the local form of a link, in whatever spelling it has the id.
* `Inline.hrefs_applyStyles`: the addresses of the links around a text.
* `local_links_reach_elements`: links and aliases have the address of the element of the block.
-/

namespace Folio

/-! ## Links to blocks -/

namespace Anchor

def idChars : List Char := "0123456789abcdef-".toList

theorem idChars_plain : ∀ c ∈ idChars, isIdChar c = true ∧ Escape.attrChar c = [c] := by
  have hall : (idChars.all fun c => isIdChar c && Escape.attrChar c == [c]) = true := by
    decide
  intro c hc
  simpa using List.all_eq_true.mp hall c hc

/-- The local form of a link goes by the id without dashes, in whatever spelling the link has it. -/
theorem localAnchor_of_dashed_eq {i j path : String} (hi : ∀ c ∈ i.toList, c ∈ idChars)
    (hdigit : ∃ c ∈ i.toList, c ≠ '-') (hj : BlockId.dashed j = BlockId.dashed i)
    (hpath : path ≠ "") (hline : '\n' ∉ path.toList) :
    localAnchor (linkTo path j) = "#" ++ BlockId.undashed i := by
  have hundashed : BlockId.undashed j = BlockId.undashed i := BlockId.undashed_congr hj
  have hne : j ≠ "" := by
    rintro rfl
    obtain ⟨c, hc, hdash⟩ := hdigit
    have hmem := BlockId.mem_undashed.mpr ⟨hc, hdash⟩
    rw [← hundashed] at hmem
    exact List.not_mem_nil (BlockId.mem_undashed.mp hmem).1
  -- but for dashes the link has no other characters than the id
  have hchars : ∀ c ∈ j.toList, c ∈ idChars := by
    intro c hc
    by_cases hdash : c = '-'
    · subst hdash
      decide
    · have hmem := BlockId.mem_undashed.mpr ⟨hc, hdash⟩
      rw [hundashed] at hmem
      exact hi c (BlockId.mem_undashed.mp hmem).1
  have hlink : LeadsTo (linkTo path j) path j :=
    ⟨rfl, hpath, hline, hne, fun c hc => isIdChar_iff.mp (idChars_plain c (hchars c hc)).1⟩
  rw [hlink.localAnchor_eq, hundashed]

/-- The local address of an id has no characters to escape. -/
theorem attr_undashed {i : String} (hi : ∀ c ∈ i.toList, c ∈ idChars) :
    Escape.attr ("#" ++ BlockId.undashed i) = "#" ++ BlockId.undashed i := by
  have hflat {cs : List Char} (hcs : ∀ c ∈ cs, Escape.attrChar c = [c]) :
      cs.flatMap Escape.attrChar = cs := by
    rw [List.flatMap_congr hcs, List.flatMap_singleton']
  have hplain : ∀ c ∈ ("#" ++ BlockId.undashed i).toList, Escape.attrChar c = [c] := by
    rw [String.toList_append]
    refine List.forall_mem_cons.mpr ⟨rfl, fun c hc => ?_⟩
    exact (idChars_plain c (hi c (BlockId.mem_undashed.mp hc).1)).2
  rw [Escape.attr, hflat hplain, String.ofList_toList]

end Anchor

/-! ## Addresses -/

namespace Style

/-- Whether the marker shows what it mentions in place of the text. -/
def isMention : Style → Bool
  | userMention _ | pageMention _ | date _ => true
  | _ => false

/-- The address that a marker adds, as it is written. -/
def href? : Style → Option String
  | link target => some (Escape.attr (Anchor.localAnchor target))
  | _ => none

end Style

namespace Inline

open Rendered

theorem hrefs_applyStyle {style : Style} (h : style.isMention = false) (inner : Rendered) :
    (applyStyle style inner).values "href" = style.href?.toList ++ inner.values "href" := by
  cases style with
  | unknown code => rfl
  | _ => simp_all [applyStyle, Style.isMention, Style.href?]

/-- Without mentions the addresses of the links around a text are read from the outermost to the
innermost. -/
theorem hrefs_applyStyles {styles : List Style} (h : ∀ style ∈ styles, style.isMention = false)
    (inner : Rendered) :
    (applyStyles inner styles).values "href" =
      styles.filterMap Style.href? ++ inner.values "href" := by
  induction styles with
  | nil => rfl
  | cons style rest ih =>
    obtain ⟨hstyle, hrest⟩ := List.forall_mem_cons.mp h
    have houter : (applyStyles inner (style :: rest)).values "href" =
        style.href?.toList ++ (applyStyles inner rest).values "href" :=
      hrefs_applyStyle hstyle _
    rw [houter, ih hrest, List.filterMap_cons]
    cases style.href? <;> rfl

/-- The addresses that are read from the markup of a run. -/
theorem hrefs_run {styles : List Style} (h : ∀ style ∈ styles, style.isMention = false)
    (text : String) :
    Tokenizer.values "href" (run ⟨text, styles⟩).html = styles.filterMap Style.href? := by
  have hsound : (run ⟨text, styles⟩).Sound Tokenizer.Whole :=
    sound_applyStyles styles (sound_text text)
  rw [values_html hsound, run, hrefs_applyStyles h, values_text, List.append_nil]

end Inline

namespace Renderer

open Rendered

theorem hrefs_node_alias {r : Renderer} {n : Node} {target : String} {title : List TextRun}
    (h : n.kind = .aliasOf target title) :
    Tokenizer.values "href" (r.node n).html =
      Escape.attr ("#" ++ BlockId.undashed target) ::
        Tokenizer.values "href" (Inline.runs title).html := by
  obtain ⟨id, kind, color, created, edited, children⟩ := n
  obtain rfl : kind = .aliasOf target title := h
  have hsound : (r.node ⟨id, .aliasOf target title, color, created, edited, children⟩).Sound
      Tokenizer.Whole := by
    rw [node]
    exact sound_plain (by decide) (sound_aliasLink target title)
  rw [values_html hsound, values_html (Inline.sound_runs title), node]
  cases title <;> simp [block, aliasLink, Inline.runs]

end Renderer

/-- Links to a block have the address of its element, in whatever spelling they name the block. Take
an id of hexadecimal digits and dashes, not of dashes alone, and another spelling of it.

* A link with this spelling behind a path, at any place among the markers of a run, is read as the
  local address, between the links outside of it and those inside.
* So is an alias that points at this spelling.
* The record map finds a block of the id under this spelling, and its node has the dashed id.
* On the page of any tree the node with the dashed id has the element with this address. -/
theorem local_links_reach_elements (i j p : String) (hi : ∀ c ∈ i.toList, c ∈ Anchor.idChars)
    (hdigit : ∃ c ∈ i.toList, c ≠ '-') (hj : BlockId.dashed j = BlockId.dashed i) (hp : p ≠ "")
    (hline : '\n' ∉ p.toList) :
    (∀ (text : String) (before after : List Style),
        (∀ style ∈ before ++ after, style.isMention = false) →
        Tokenizer.values "href"
            (Inline.run ⟨text, before ++ .link (Anchor.linkTo p j) :: after⟩).html =
          Tokenizer.values "href" (Inline.run ⟨text, before⟩).html ++
            ("#" ++ BlockId.undashed i) ::
              Tokenizer.values "href" (Inline.run ⟨text, after⟩).html) ∧
      (∀ (r : Renderer) (b : Block) (n : Node) (title : List TextRun),
        ((b.format? "alias_pointer").bind (·.member? "id")).bind Json.string? = some j →
        n.kind = .aliasOf b.aliasTarget title →
        Tokenizer.values "href" (r.node n).html =
          ("#" ++ BlockId.undashed i) :: Tokenizer.values "href" (Inline.runs title).html) ∧
      (∀ (m : RecordMap) (b : Block), BlockId.dashed b.id = BlockId.dashed i →
        ∃ stored, (m.insert b).get? j = some stored ∧
          ∀ (t : Transformer) (children : List Node),
            (t.node stored children).id = some (BlockId.dashed i)) ∧
      ∀ (r : Renderer) (n : Node), r.KeepsIds → n.QuoteFreeIds →
        ∀ (k : Nat) (c : Node), n.shown[k]? = some c → c.id = some (BlockId.dashed i) →
          (Tokenizer.values "id" (r.render n).html)[k]? = some (BlockId.undashed i) := by
  have hlink : (Style.link (Anchor.linkTo p j)).href? = some ("#" ++ BlockId.undashed i) := by
    rw [Style.href?, Anchor.localAnchor_of_dashed_eq hi hdigit hj hp hline, Anchor.attr_undashed hi]
  refine ⟨?_, ?_, ?_, ?_⟩
  · intro text before after hmarkers
    obtain ⟨hbefore, hafter⟩ := List.forall_mem_append.mp hmarkers
    have hall : ∀ style ∈ before ++ .link (Anchor.linkTo p j) :: after,
        style.isMention = false :=
      List.forall_mem_append.mpr ⟨hbefore, List.forall_mem_cons.mpr ⟨rfl, hafter⟩⟩
    rw [Inline.hrefs_run hall, Inline.hrefs_run hbefore, Inline.hrefs_run hafter,
      List.filterMap_append, List.filterMap_cons, hlink]
  · intro r b n title hpointer hkind
    have htarget : b.aliasTarget = BlockId.dashed j := by
      rw [Block.aliasTarget, hpointer]
    rw [Renderer.hrefs_node_alias hkind, htarget, BlockId.undashed_dashed,
      BlockId.undashed_congr hj, Anchor.attr_undashed hi]
  · intro m b hb
    have hfound : BlockId.dashed b.id = BlockId.dashed j := hb.trans hj.symm
    exact ⟨b.stored, m.get?_insert_self hfound, fun t children => congrArg some hb⟩
  · intro r n hr hids k c hc hid
    rw [Renderer.ids_render hr hids, Renderer.elementIds, List.getElem?_map, hc, Option.map_some,
      hid]
    exact congrArg some (BlockId.undashed_dashed i)

/-- An alias that points at an id in a spelling of its own. -/
def pointingAt (id : String) : Block :=
  { id := "e1", blockType := "alias",
    format := some [("alias_pointer", .object [("id", .string id)])] }

theorem local_link_reaches_heading :
    let linked := "0eeee000-cccc-bbbb-aaaa-123450000000"
    let spelled := "0eeee000cccc-bbbb-aaaa1234-50000000"
    let reference := ({ id := linked, blockType := "header" } : Block)
    Tokenizer.values "href"
        (Inline.run ⟨"see", [.bold, .link (Anchor.linkTo "Plan#2" spelled), .link "#top"]⟩).html =
        ["#0eeee000ccccbbbbaaaa123450000000", "#top"] ∧
      Tokenizer.values "href"
        (({} : Renderer).node (Transformer.aliasOf.node (pointingAt spelled) [])).html =
        ["#0eeee000ccccbbbbaaaa123450000000"] ∧
      ∃ stored, (RecordMap.empty.insert reference).get? spelled = some stored ∧
        let page := identified "a-1" (.page [] none none false) [Transformer.header.node stored []]
        (Tokenizer.values "id" (({ standalone := true } : Renderer).render page).html)[1]? =
          some "0eeee000ccccbbbbaaaa123450000000" := by
  intro linked spelled reference
  have hundashed : BlockId.undashed linked = "0eeee000ccccbbbbaaaa123450000000" := by
    decide +kernel
  have hchars : linked.toList.all Anchor.idChars.contains = true := by
    decide
  obtain ⟨hlinks, haliases, hrecords, hids⟩ := local_links_reach_elements linked spelled "Plan#2"
    (by simpa using List.all_eq_true.mp hchars) ⟨'0', by decide, by decide⟩ (by decide) (by decide)
    (by decide)
  rw [hundashed] at hlinks haliases hids
  refine ⟨?_, ?_, ?_⟩
  · have hrun := hlinks "see" [.bold] [.link "#top"] (by decide)
    have hbefore : Tokenizer.values "href" (Inline.run ⟨"see", [.bold]⟩).html = [] :=
      Inline.hrefs_run (by decide) "see"
    have hafter : Tokenizer.values "href" (Inline.run ⟨"see", [.link "#top"]⟩).html = ["#top"] := by
      rw [Inline.hrefs_run (by decide) "see"]
      decide
    rw [hbefore, hafter] at hrun
    exact hrun
  · exact haliases {} (pointingAt spelled) (Transformer.aliasOf.node (pointingAt spelled) []) [] rfl
      rfl
  · obtain ⟨stored, hfound, hnode⟩ := hrecords RecordMap.empty reference rfl
    have hheader : (Transformer.header.node stored []).QuoteFreeIds := by
      refine Node.quoteFreeIds_iff.mpr ⟨fun id hid => ?_, fun c hc => nomatch hc⟩
      obtain rfl := Option.some.inj ((hnode .header []).symm.trans hid)
      decide
    refine ⟨stored, hfound, hids _ _ (Renderer.keepsIds_of_eq_none rfl) ?_ 1 _ rfl
      (hnode .header [])⟩
    exact quoteFreeIds_identified (by decide) (List.forall_mem_singleton.mpr hheader)

end Folio
