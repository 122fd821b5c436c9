import Folio.Proofs.Html.Anchors
import Folio.Proofs.Html.Nesting

/-!
# Folio.Proofs.Html.Highlighting

What a highlighter has to do with a page. It writes the text of code in a language with a known
grammar, and nothing else depends on it.

* `Node.codeRuns`: the runs of the listings that are shown, where their language has a grammar.
* `Inline.writtenCode`: what stands for code, with a highlighter or without one.
* `codeRuns_eq`: a page shows no other runs as code with a grammar.
* `highlighters_only_write_code`: pages with different highlighters.
-/

namespace Folio

/-! ## Changes to nothing -/

theorem NodeKind.mapRuns_self (kind : NodeKind) : kind.mapRuns (fun t => t) = kind := by
  cases kind <;> simp [mapRuns]

theorem Node.mapRuns_self (n : Node) : n.mapRuns (fun t => t) = n := by
  induction n using Node.induction with
  | step n ih =>
    have hall : ∀ ns : List Node, (∀ c ∈ ns, c.mapRuns (fun t => t) = c) →
        mapRunsAll (fun t => t) ns = ns := by
      intro ns hns
      induction ns with
      | nil => rfl
      | cons c rest ihrest =>
        obtain ⟨hc, hrest⟩ := List.forall_mem_cons.mp hns
        rw [mapRunsAll, hc, ihrest hrest]
    obtain ⟨id, kind, color, created, edited, children⟩ := n
    rw [mapRuns, NodeKind.mapRuns_self, hall children ih]

/-! ## Runs of code -/

/-- The runs of a listing in a language with a grammar, with the name of that. -/
def NodeKind.codeRuns : NodeKind → List (TextRun × String)
  | .code t language _ =>
    match language.bind CodeLanguage.grammar? with
    | some grammar => t.map (·, grammar)
    | none => []
  | _ => []

/-- The runs of the listings that are shown, in document order. -/
def Node.codeRuns (n : Node) : List (TextRun × String) :=
  n.shown.flatMap (·.kind.codeRuns)

/-- A run that is shown as code with a grammar. -/
def ShownRun.code? (s : ShownRun) : Option (TextRun × String) :=
  s.grammar.map (s.run, ·)

namespace Node

open ShownRun

theorem filterMap_plain (rs : List TextRun) : (plain rs).filterMap code? = [] := by
  simp [plain, code?]

theorem codeRuns_all {children : List Node}
    (h : ∀ c ∈ children, (runsWithin c).filterMap code? =
      c.kind.codeRuns ++ (shownBelow c).flatMap (·.kind.codeRuns)) :
    (runsWithinAll children).filterMap code? =
      (shownAll children).flatMap (·.kind.codeRuns) := by
  induction children with
  | nil => rfl
  | cons c rest ih =>
    obtain ⟨hc, hrest⟩ := List.forall_mem_cons.mp h
    rw [runsWithinAll, shownAll, List.filterMap_append, hc, ih hrest, List.flatMap_cons,
      List.flatMap_append, List.append_assoc]

theorem codeRuns_rows (children : List Node) :
    (children.filter isRow).flatMap (·.kind.codeRuns) = [] := by
  rw [List.flatMap_eq_nil_iff]
  intro n hn
  obtain ⟨-, hrow⟩ := List.mem_filter.mp hn
  unfold isRow at hrow
  split at hrow
  · rename_i hkind
    simp [hkind, NodeKind.codeRuns]
  · cases hrow

theorem codeRuns_within (n : Node) :
    (runsWithin n).filterMap code? =
      n.kind.codeRuns ++ (shownBelow n).flatMap (·.kind.codeRuns) := by
  induction n using Node.induction with
  | step n ih =>
    have hall := codeRuns_all ih
    obtain ⟨id, kind, color, created, edited, children⟩ := n
    cases kind with
    | code t language wrap =>
      simp only [runsWithin, shownBelow, NodeKind.codeRuns, List.flatMap_nil, List.append_nil]
      cases language.bind CodeLanguage.grammar? with
      | none => simp [code?]
      | some grammar => simp [code?, Function.comp_def]
    | table order columnHeader rowHeader =>
      simp only [runsWithin, shownBelow, filterMap_plain, codeRuns_rows]
      simp [NodeKind.codeRuns]
    | _ => simp [runsWithin, shownBelow, NodeKind.codeRuns, filterMap_plain, hall]

theorem codeRuns_eq (n : Node) : n.renderedRuns.filterMap code? = n.codeRuns := by
  have hall (children : List Node) := codeRuns_all fun (c : Node) (_ : c ∈ children) =>
    codeRuns_within c
  have hsingle : (runsWithin n).filterMap code? = (shownAll [n]).flatMap (·.kind.codeRuns) := by
    simpa [runsWithinAll] using hall [n]
  obtain ⟨id, kind, color, created, edited, children⟩ := n
  cases kind with
  | page title icon cover fullWidth =>
    simp [renderedRuns, codeRuns, shown, filterMap_plain, hall, NodeKind.codeRuns]
  | _ => exact hsingle

end Node

/-! ## Pages with different highlighters -/

/-- What stands for code: what the highlighter gives, or the escaped code without one. -/
def Inline.writtenCode (h : Option Highlighter) (code language : String) : String :=
  match h with
  | some highlight => highlight code language
  | none => Escape.text code

/-- Whether something else is shown in place of the text. -/
def TextRun.mentions (r : TextRun) : Bool :=
  r.styles.any fun style => style.mention?.isSome

/-- Parts of texts in order stand in order. -/
theorem OccurInOrder.filterMap {α : Type} {whole : α → String} {part : α → Option String}
    {xs : List α} {s : String} (h : OccurInOrder (xs.map whole) s)
    (hpart : ∀ x q, part x = some q → ∃ front back, whole x = front ++ q ++ back) :
    OccurInOrder (xs.filterMap part) s := by
  induction xs generalizing s with
  | nil => trivial
  | cons x rest ih =>
    obtain ⟨front, back, rfl, hback⟩ := h
    rw [List.filterMap_cons]
    cases hx : part x with
    | none => exact (ih hback).behind _
    | some q =>
      obtain ⟨before, after, hwhole⟩ := hpart x q hx
      refine ⟨front ++ before, after ++ back, ?_, (ih hback).behind after⟩
      simp only [hwhole, String.append_assoc]

namespace Renderer

open Inline Rendered

/-- The renderer with another highlighter, or without one. -/
def highlighting (r : Renderer) (h : Option Highlighter) : Renderer := { r with highlighter := h }

variable (r : Renderer) (h : Option Highlighter)

theorem title_render (n : Node) : (r.render n).title = titleOf n := rfl

theorem html_render_congr {r r' : Renderer} {n : Node} (hform : r.standalone = r'.standalone)
    (hbody : (r.root n).html = (r'.root n).html) : (r.render n).html = (r'.render n).html := by
  unfold render
  dsimp only
  rw [hform, hbody]

theorem html_codeText (grammar : Option String) (code : String) :
    (codeText h grammar code).html =
      (grammar.map (writtenCode h code)).getD (Escape.text code) := by
  have htext : (Rendered.text code).html = Escape.text code := html_only _
  cases grammar with
  | none => cases h <;> exact htext
  | some name =>
    cases h with
    | none => exact htext
    | some highlight => exact html_only _

theorem html_showRun_congr {h h' : Option Highlighter} {s : ShownRun}
    (hwritten : ∀ p ∈ s.code?, writtenCode h p.1.text p.2 = writtenCode h' p.1.text p.2) :
    ((r.highlighting h).showRun s).html = ((r.highlighting h').showRun s).html := by
  refine html_applyStyles_congr ?_ s.run.styles
  change (codeText h s.grammar s.run.text).html = (codeText h' s.grammar s.run.text).html
  rw [html_codeText, html_codeText]
  obtain ⟨run, grammar⟩ := s
  cases grammar with
  | none => rfl
  | some name => exact hwritten (run, name) rfl

/-- Pages with different highlighters are the same but for the runs that they show. -/
theorem alike_highlighting (h h' : Option Highlighter) (n : Node) :
    Alike (n.renderedRuns.map fun s =>
      ((r.highlighting h).showRun s, (r.highlighting h').showRun s))
      ((r.highlighting h).root n) ((r.highlighting h').root n) := by
  have hcolor : (r.highlighting h').defaultColor = (r.highlighting h).defaultColor := rfl
  have halike := alike_root_of_color (f := fun t => t) hcolor n
  rwa [Node.mapRuns_self] at halike

theorem warnings_highlighting (n : Node) :
    ((r.highlighting h).root n).warnings = n.renderedRuns.flatMap (·.run.reports) := by
  have hwarnings := (r.alike_highlighting h h n).warnings.1
  simpa [List.flatMap_map] using hwarnings

theorem html_highlighting_congr {h h' : Option Highlighter} {n : Node}
    (hwritten : ∀ p ∈ n.codeRuns, writtenCode h p.1.text p.2 = writtenCode h' p.1.text p.2) :
    ((r.highlighting h).root n).html = ((r.highlighting h').root n).html := by
  refine (r.alike_highlighting h h' n).html_eq fun p hp => ?_
  obtain ⟨s, hs, rfl⟩ := List.mem_map.mp hp
  refine r.html_showRun_congr fun p hp => hwritten p ?_
  rw [← Node.codeRuns_eq]
  exact List.mem_filterMap.mpr ⟨s, hs, hp⟩

/-- Code without mentions stands between the tags of its markers. -/
theorem exists_html_showRun {s : ShownRun} {p : TextRun × String} (hp : s.code? = some p)
    (hplain : p.1.mentions = false) : ∃ front back,
      ((r.highlighting h).showRun s).html = front ++ writtenCode h p.1.text p.2 ++ back := by
  obtain ⟨run, grammar⟩ := s
  obtain ⟨name, rfl, rfl⟩ := Option.map_eq_some_iff.mp hp
  have hstyles : ∀ style ∈ run.styles, style.mention? = none := by
    simpa [TextRun.mentions] using hplain
  refine ⟨Style.startTags run.styles, Style.endTags run.styles, ?_⟩
  have hcode : (codeText h (some name) run.text).html = writtenCode h run.text name :=
    html_codeText h (some name) run.text
  rw [← hcode]
  exact html_applyStyles hstyles _

theorem occurInOrder_highlighting (n : Node) :
    OccurInOrder
      ((n.codeRuns.filter fun p => !p.1.mentions).map fun p => writtenCode h p.1.text p.2)
      ((r.highlighting h).root n).html := by
  have hruns := (r.alike_highlighting h h n).occurInOrder
  rw [List.map_map] at hruns
  rw [← Node.codeRuns_eq, List.filter_filterMap, List.map_filterMap]
  refine hruns.filterMap fun s q hq => ?_
  obtain ⟨p, hp, rfl⟩ := Option.map_eq_some_iff.mp hq
  obtain ⟨hcode, hplain⟩ := Option.filter_eq_some_iff.mp hp
  exact r.exists_html_showRun h hcode (by simpa using hplain)

end Renderer

open Inline in
/-- The title and the reports of a page do not depend on a highlighter, and the markup depends on
what it gives for the runs of the listings that are shown in a language with a grammar, and on
nothing else. A highlighter that only escapes is as good as none. What it gives for runs without
mentions stands on the page in document order. -/
theorem highlighters_only_write_code (r : Renderer) (n : Node) :
    let page (h : Option Highlighter) : Page := (r.highlighting h).render n
    (∀ h h', (page h).title = (page h').title ∧ (page h).warnings = (page h').warnings) ∧
      (page (some fun code _ => Escape.text code)).html = (page none).html ∧
      (∀ h h', (∀ p ∈ n.codeRuns, writtenCode h p.1.text p.2 = writtenCode h' p.1.text p.2) →
        (page h).html = (page h').html) ∧
      (n.codeRuns = [] → ∀ h h', (page h).html = (page h').html) ∧
      ∀ h, OccurInOrder
        ((n.codeRuns.filter fun p => !p.1.mentions).map fun p => writtenCode h p.1.text p.2)
        (page h).html := by
  intro page
  have hcongr (h h' : Option Highlighter)
      (hwritten : ∀ p ∈ n.codeRuns, writtenCode h p.1.text p.2 = writtenCode h' p.1.text p.2) :
      (page h).html = (page h').html :=
    Renderer.html_render_congr rfl (r.html_highlighting_congr hwritten)
  refine ⟨fun h h' => ⟨?_, ?_⟩, hcongr _ _ fun _ _ => rfl, hcongr, ?_, ?_⟩
  · rw [Renderer.title_render, Renderer.title_render]
  · exact (r.warnings_highlighting h n).trans (r.warnings_highlighting h' n).symm
  · intro hnone h h'
    refine hcongr h h' fun p hp => ?_
    rw [hnone] at hp
    exact absurd hp List.not_mem_nil
  · intro h
    have hbody := r.occurInOrder_highlighting h n
    simp only [page, Renderer.render]
    split
    · exact hbody.document _
    · exact hbody

/-- A listing with one run in a language. -/
def comparison (language : String) : Node :=
  .synthetic (.code [⟨"a < b", []⟩] (some language) false) []

/-- A highlighter that makes all code bold. -/
def emboldens : Highlighter := fun code _ => "<b>" ++ Escape.text code ++ "</b>"

/-- A highlighter that makes code in one language bold. -/
def emboldensOnly (grammar : String) : Highlighter := fun code name =>
  if name = grammar then emboldens code name else Escape.text code

theorem comparison_in_rust_or_plain :
    emboldensOnly "rust" "a" "c" ≠ emboldens "a" "c" ∧
      ((Renderer.highlighting {} (some (emboldensOnly "rust"))).render (comparison "Rust")).html =
        ((Renderer.highlighting {} (some emboldens)).render (comparison "Rust")).html ∧
      ((Renderer.highlighting {} (some emboldens)).render (comparison "Plain Text")).html =
        ((Renderer.highlighting {} none).render (comparison "Plain Text")).html := by
  have hrust : (comparison "Rust").codeRuns = [(⟨"a < b", []⟩, "rust")] := by decide
  have hplain : (comparison "Plain Text").codeRuns = [] := by decide
  obtain ⟨-, -, hcongr, -⟩ := highlighters_only_write_code {} (comparison "Rust")
  obtain ⟨-, -, -, hnone, -⟩ := highlighters_only_write_code {} (comparison "Plain Text")
  refine ⟨by decide, hcongr _ _ ?_, hnone hplain _ _⟩
  intro p hp
  rw [hrust, List.mem_singleton] at hp
  subst hp
  decide

end Folio
