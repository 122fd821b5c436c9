import Folio.Proofs.Html.Sound

/-!
# Folio.Proofs.Html.Reports

Which markers are reported while a page is made. The page of a tree is put together from parts that
report nothing and from the runs that are rendered; each of these brings its own reports.

* `Node.mapRuns`: a tree with a change to every run in it.
* `Node.renderedRuns`: the runs that a page shows, in document order.
* `Rendered.Alike`: two renderings that are the same but for pieces.
* `Renderer.alike_root_of_color`, `Renderer.alike_root`: the pages of a tree and of the changed tree
  are the same but for the runs that they show, whatever writes the code in them.
* `unknown_markers_are_only_reported`: markers without a rendering are reported in the order of the
  runs, and leave no other trace.
-/

namespace Folio

/-! ## Changes to runs -/

namespace NodeKind

def mapRuns (f : TextRun → TextRun) : NodeKind → NodeKind
  | .page title icon cover fullWidth => .page (title.map f) icon cover fullWidth
  | .text t => .text (t.map f)
  | .heading depth t => .heading depth (t.map f)
  | .toDo t checked => .toDo (t.map f) checked
  | .listItem kind t => .listItem kind (t.map f)
  | .list kind => .list kind
  | .toggle t => .toggle (t.map f)
  | .quote t => .quote (t.map f)
  | .callout t icon => .callout (t.map f) icon
  | .divider => .divider
  | .code t language wrap => .code (t.map f) language wrap
  | .equation expression => .equation expression
  | .image m => .image { m with caption := m.caption.map f }
  | .video m => .video { m with caption := m.caption.map f }
  | .audio m => .audio { m with caption := m.caption.map f }
  | .embed m => .embed { m with caption := m.caption.map f }
  | .file title source size => .file (title.map f) source size
  | .bookmark link title description icon cover =>
    .bookmark link (title.map f) (description.map f) icon cover
  | .columnList => .columnList
  | .column ratio => .column ratio
  | .table order columnHeader rowHeader => .table order columnHeader rowHeader
  | .tableRow cells => .tableRow (cells.map fun cell => (cell.1, cell.2.map f))
  | .aliasOf target title => .aliasOf target (title.map f)
  | .unsupported blockType => .unsupported blockType

@[simp] theorem typeName_mapRuns (f : TextRun → TextRun) (kind : NodeKind) :
    (kind.mapRuns f).typeName = kind.typeName := by
  cases kind with
  | listItem kind t => cases kind <;> rfl
  | list kind => cases kind <;> rfl
  | _ => rfl

end NodeKind

namespace Node

mutual

def mapRuns (f : TextRun → TextRun) : Node → Node
  | ⟨id, kind, color, created, edited, children⟩ =>
    ⟨id, kind.mapRuns f, color, created, edited, mapRunsAll f children⟩

def mapRunsAll (f : TextRun → TextRun) : List Node → List Node
  | [] => []
  | n :: rest => mapRuns f n :: mapRunsAll f rest

end

theorem mapRuns_eq (f : TextRun → TextRun) (n : Node) :
    n.mapRuns f = { n with kind := n.kind.mapRuns f, children := mapRunsAll f n.children } := by
  cases n
  rw [mapRuns]

end Node

/-! ## Rendered runs -/

/-- A run where it is rendered: as it is, or as code in a language with a known grammar. -/
structure ShownRun where
  run : TextRun
  grammar : Option String := none

namespace ShownRun

def map (f : TextRun → TextRun) (s : ShownRun) : ShownRun := { s with run := f s.run }

/-- Runs that are rendered as they are. -/
def plain (rs : List TextRun) : List ShownRun := rs.map fun r => { run := r }

end ShownRun

/-- The markup of a run where it is rendered. -/
def Renderer.showRun (r : Renderer) (s : ShownRun) : Rendered :=
  Inline.applyStyles (Inline.codeText r.highlighter s.grammar s.run.text) s.run.styles

namespace Node

open ShownRun

/-- The runs of the cells of a table: for each row the cells of the columns, in the order of the
columns. A column that is listed twice is shown twice, and children that are no rows are not. -/
def tableRuns (order : List String) (children : List Node) : List TextRun :=
  children.flatMap fun n =>
    match n.kind with
    | .tableRow cells => order.flatMap fun key => (cells.lookup key).getD []
    | _ => []

mutual

/-- The runs in the element of a node, in document order. -/
def runsWithin : Node → List ShownRun
  | ⟨_, kind, _, _, _, children⟩ =>
    match kind with
    | .text t | .heading _ t | .toDo t _ | .listItem _ t | .toggle t | .quote t | .callout t _ =>
      plain t ++ runsWithinAll children
    | .list _ | .columnList | .column _ | .unsupported _ => runsWithinAll children
    | .page title .. | .file title .. | .aliasOf _ title => plain title
    | .code t language _ => t.map fun r => ⟨r, language.bind CodeLanguage.grammar?⟩
    | .image m | .video m | .audio m | .embed m => plain m.caption
    | .bookmark _ title description .. => plain title ++ plain description
    | .table order .. => plain (tableRuns order children)
    | .tableRow cells => plain (cells.flatMap (·.2))
    | .divider | .equation _ => []

/-- The runs in the elements of nodes, in document order. -/
def runsWithinAll : List Node → List ShownRun
  | [] => []
  | n :: rest => runsWithin n ++ runsWithinAll rest

end

/-- The runs that the page of a tree shows, in document order. -/
def renderedRuns (n : Node) : List ShownRun :=
  match n.kind with
  | .page title .. => plain title ++ runsWithinAll n.children
  | _ => runsWithin n

end Node

/-! ## Pieces of a rendering -/

/-- Texts stand in a text one after another, without overlapping. -/
def OccurInOrder : List String → String → Prop
  | [], _ => True
  | p :: ps, s => ∃ front back, s = front ++ p ++ back ∧ OccurInOrder ps back

namespace OccurInOrder

variable {ps qs : List String} {s t : String}

theorem behind (h : OccurInOrder qs t) (s : String) : OccurInOrder qs (s ++ t) := by
  cases qs with
  | nil => trivial
  | cons q qs =>
    obtain ⟨front, back, rfl, hback⟩ := h
    exact ⟨s ++ front, back, by simp only [String.append_assoc], hback⟩

theorem append (hs : OccurInOrder ps s) (ht : OccurInOrder qs t) :
    OccurInOrder (ps ++ qs) (s ++ t) := by
  induction ps generalizing s with
  | nil => exact ht.behind s
  | cons p ps ih =>
    obtain ⟨front, back, rfl, hback⟩ := hs
    exact ⟨front, back ++ t, by simp only [String.append_assoc], ih hback⟩

end OccurInOrder

namespace Rendered

/-- `Alike ps a b`: the renderings `a` and `b` are the same but for the pieces `ps`, which stand in
both at the same places and in this order, and nothing but the pieces brings reports. -/
inductive Alike : List (Rendered × Rendered) → Rendered → Rendered → Prop where
  | fixed {r : Rendered} : r.warnings = [] → Alike [] r r
  | piece (a b : Rendered) : Alike [(a, b)] a b
  | append {ps qs : List (Rendered × Rendered)} {a b c d : Rendered} :
      Alike ps a b → Alike qs c d → Alike (ps ++ qs) (a ++ c) (b ++ d)
  | element {ps : List (Rendered × Rendered)} {a b : Rendered} (tag : String)
      (attributes : List Attribute) :
      Alike ps a b → Alike ps (a.element tag attributes) (b.element tag attributes)

namespace Alike

variable {ps : List (Rendered × Rendered)} {a b : Rendered}

theorem warnings (h : Alike ps a b) :
    a.warnings = ps.flatMap (·.1.warnings) ∧ b.warnings = ps.flatMap (·.2.warnings) := by
  induction h with
  | fixed hr => exact ⟨hr, hr⟩
  | piece a b => simp
  | @append ps qs a b c d _ _ ihab ihcd =>
    have hleft : (a ++ c).warnings = a.warnings ++ c.warnings := rfl
    have hright : (b ++ d).warnings = b.warnings ++ d.warnings := rfl
    rw [List.flatMap_append, List.flatMap_append, hleft, hright, ihab.1, ihab.2, ihcd.1, ihcd.2]
    exact ⟨rfl, rfl⟩
  | element tag attributes _ ih => exact ih

theorem html_eq (h : Alike ps a b) (hps : ∀ p ∈ ps, p.1.html = p.2.html) : a.html = b.html := by
  induction h with
  | fixed hr => rfl
  | piece a b => exact hps _ List.mem_cons_self
  | append _ _ ihab ihcd =>
    obtain ⟨hleft, hright⟩ := List.forall_mem_append.mp hps
    rw [html_append, html_append, ihab hleft, ihcd hright]
  | element tag attributes _ ih => rw [html_element, html_element, ih hps]

theorem occurInOrder (h : Alike ps a b) : OccurInOrder (ps.map (·.1.html)) a.html := by
  induction h with
  | fixed hr => trivial
  | piece a b => exact ⟨"", "", by simp, trivial⟩
  | append _ _ ihab ihcd =>
    rw [List.map_append, html_append]
    exact ihab.append ihcd
  | @element ps a b tag attributes _ ih =>
    have hend : OccurInOrder [] (Markup.endTag tag) := trivial
    rw [html_element]
    simpa using (ih.behind _).append hend

/-- Something that reports nothing in front. -/
theorem behind {r : Rendered} (hr : r.warnings = []) (h : Alike ps a b) :
    Alike ps (r ++ a) (r ++ b) :=
  (fixed hr).append h

/-- Something that reports nothing at the end. -/
theorem before {r : Rendered} (hr : r.warnings = []) (h : Alike ps a b) :
    Alike ps (a ++ r) (b ++ r) := by
  have hboth := h.append (fixed hr)
  rwa [List.append_nil] at hboth

end Alike

@[simp] theorem warnings_element (tag : String) (attributes : List Attribute) (r : Rendered) :
    (element tag attributes r).warnings = r.warnings := rfl

theorem warnings_ofOption {f : α → Rendered} (h : ∀ x, (f x).warnings = []) (o : Option α) :
    (ofOption f o).warnings = [] := by
  cases o with
  | none => rfl
  | some x => exact h x

end Rendered

/-! ## Pages and their runs -/

namespace Renderer

open Rendered ShownRun Node

variable (r r' : Renderer) (f : TextRun → TextRun)

/-- The markup of runs, beside that of the changed runs from another renderer. -/
def pairs (ss : List ShownRun) : List (Rendered × Rendered) :=
  ss.map fun s => (r.showRun s, r'.showRun (s.map f))

@[simp] theorem pairs_append (ss ts : List ShownRun) :
    r.pairs r' f (ss ++ ts) = r.pairs r' f ss ++ r.pairs r' f ts :=
  List.map_append

@[simp] theorem showRun_plain (t : TextRun) : r.showRun { run := t } = Inline.run t := by
  have htext : Inline.codeText r.highlighter none t.text = .text t.text := by
    cases r.highlighter <;> rfl
  rw [showRun, htext, Inline.run]

theorem alike_join (ss : List ShownRun) :
    Alike (r.pairs r' f ss) (.join (ss.map r.showRun))
      (.join (ss.map fun s => r'.showRun (s.map f))) := by
  induction ss with
  | nil => exact .fixed rfl
  | cons s rest ih => exact (Alike.piece _ _).append ih

theorem alike_runs (rs : List TextRun) :
    Alike (r.pairs r' f (plain rs)) (Inline.runs rs) (Inline.runs (rs.map f)) := by
  have hjoin := r.alike_join r' f (plain rs)
  simpa [plain, Inline.runs, ShownRun.map, Function.comp_def] using hjoin

theorem alike_title (rs : List TextRun) :
    Alike (r.pairs r' f (plain rs)) (Inline.title rs) (Inline.title (rs.map f)) :=
  (r.alike_runs r' f rs).element "span" []

theorem alike_code (rs : List TextRun) (grammar : Option String) :
    Alike (r.pairs r' f (rs.map fun t => ⟨t, grammar⟩)) (Inline.code r.highlighter grammar rs)
      (Inline.code r'.highlighter grammar (rs.map f)) := by
  have hjoin := r.alike_join r' f (rs.map fun t => ⟨t, grammar⟩)
  rw [List.map_map, List.map_map] at hjoin
  rw [Inline.code, Inline.code, List.map_map]
  exact hjoin.element "span" []

theorem alike_caption (m : Media) :
    Alike (r.pairs r' f (plain m.caption)) (caption m)
      (caption { m with caption := m.caption.map f }) := by
  unfold caption
  cases m.caption with
  | nil => exact .fixed rfl
  | cons t rest => exact (r.alike_title r' f (t :: rest)).element "figcaption" []

/-- A text that stands in for a title without runs. -/
theorem alike_titleOr (s : String) (rs : List TextRun) :
    Alike (r.pairs r' f (plain rs)) (if rs.isEmpty then .text s else Inline.runs rs)
      (if (rs.map f).isEmpty then .text s else Inline.runs (rs.map f)) := by
  cases rs with
  | nil => exact .fixed rfl
  | cons t rest => exact r.alike_runs r' f (t :: rest)

theorem warnings_icon (className icon : String) : (Renderer.icon className icon).warnings = [] := by
  unfold Renderer.icon
  split <;> rfl

theorem warnings_video (source : String) : (video source).warnings = [] := by
  unfold video
  split <;> rfl

theorem alike_bookmark (link : Option String) (title description : List TextRun)
    (icon cover : Option String) :
    Alike (r.pairs r' f (plain title ++ plain description))
      (bookmark link title description icon cover)
      (bookmark link (title.map f) (description.map f) icon cover) := by
  have hdescription : Alike (r.pairs r' f (plain description))
      (if description.isEmpty then .empty
        else .element "div" [.className "bookmark__description"] (Inline.runs description))
      (if (description.map f).isEmpty then .empty
        else .element "div" [.className "bookmark__description"]
          (Inline.runs (description.map f))) := by
    cases description with
    | nil => exact .fixed rfl
    | cons t rest => exact (r.alike_runs r' f (t :: rest)).element "div" _
  have hpicture (className : String) (source : Option String) :
      (ofOption (picture className) source).warnings = [] :=
    warnings_ofOption (fun _ => rfl) source
  rw [pairs_append]
  refine .element "a" _ (.before (hpicture _ cover) (.before (hpicture _ icon) ?_))
  refine .element "div" _ (.before rfl (.append ?_ hdescription))
  exact (r.alike_titleOr r' f _ title).element "div" _

theorem alike_looseCells (cells : List (String × List TextRun)) :
    Alike (r.pairs r' f (plain (cells.flatMap (·.2)))) (looseCells cells)
      (looseCells (cells.map fun cell => (cell.1, cell.2.map f))) := by
  induction cells with
  | nil => exact .fixed rfl
  | cons cell rest ih =>
    rw [List.flatMap_cons, plain, List.map_append, pairs_append]
    exact ((r.alike_runs r' f cell.2).element "span" []).append ih

theorem lookup_map_runs (cells : List (String × List TextRun)) (key : String) :
    (cells.map fun cell => (cell.1, cell.2.map f)).lookup key =
      (cells.lookup key).map (List.map f) := by
  induction cells with
  | nil => rfl
  | cons cell rest ih =>
    rw [List.map_cons, List.lookup_cons, List.lookup_cons, ih]
    cases key == cell.1 <;> rfl

theorem alike_rowCells (columnHeader rowHeader : Bool) (row : Nat)
    (cells : List (String × List TextRun)) (column : Nat) (keys : List String) :
    Alike (r.pairs r' f (plain (keys.flatMap fun key => (cells.lookup key).getD [])))
      (rowCells columnHeader rowHeader row cells column keys)
      (rowCells columnHeader rowHeader row (cells.map fun cell => (cell.1, cell.2.map f)) column
        keys) := by
  induction keys generalizing column with
  | nil => exact .fixed rfl
  | cons key rest ih =>
    rw [List.flatMap_cons, plain, List.map_append, pairs_append, rowCells, rowCells,
      lookup_map_runs]
    refine .append (.element _ _ ?_) (ih (column + 1))
    cases cells.lookup key with
    | none => exact .fixed rfl
    | some t => exact r.alike_runs r' f t

theorem alike_tableRows (order : List String) (columnHeader rowHeader : Bool) (child : Nat)
    (children : List Node) :
    Alike (r.pairs r' f (plain (tableRuns order children)))
      (tableRows order columnHeader rowHeader child children)
      (tableRows order columnHeader rowHeader child (mapRunsAll f children)) := by
  induction children generalizing child with
  | nil => exact .fixed rfl
  | cons n rest ih =>
    rw [tableRuns, List.flatMap_cons, plain, List.map_append, pairs_append, mapRunsAll, tableRows,
      tableRows]
    refine .append ?_ (ih (child + 1))
    obtain ⟨id, kind, color, created, edited, below⟩ := n
    cases kind with
    | tableRow cells => exact (r.alike_rowCells r' f _ _ child cells 0 order).element "tr" _
    | _ => exact .fixed rfl

variable {r r' f}

theorem alike_block (f : TextRun → TextRun) (hcolor : r'.defaultColor = r.defaultColor)
    {ps : List (Rendered × Rendered)} {a b : Rendered} {kind : NodeKind} (tag : String)
    (color : Option ThemeColor) (attributes : List Attribute) (h : Alike ps a b) :
    Alike ps (r.block tag kind.typeName color attributes a)
      (r'.block tag (kind.mapRuns f).typeName color attributes b) := by
  rw [NodeKind.typeName_mapRuns, block, block, hcolor]
  exact h.element tag _

theorem alike_nodes (tag : String) {children : List Node}
    (h : ∀ c ∈ children, Alike (r.pairs r' f (runsWithin c)) (r.node c) (r'.node (c.mapRuns f))) :
    Alike (r.pairs r' f (runsWithinAll children)) (r.nodes tag children)
      (r'.nodes tag (mapRunsAll f children)) := by
  induction children with
  | nil => exact .fixed rfl
  | cons c rest ih =>
    have hid : (c.mapRuns f).id = c.id := by rw [mapRuns_eq]
    rw [runsWithinAll, pairs_append, mapRunsAll, nodes, nodes, hid]
    refine .append ?_ (ih fun d hd => h d (List.mem_cons_of_mem c hd))
    exact (h c List.mem_cons_self).element tag _

theorem alike_nested {children : List Node} {a b : Rendered}
    (h : Alike (r.pairs r' f (runsWithinAll children)) a b) :
    Alike (r.pairs r' f (runsWithinAll children)) (nested children a)
      (nested (mapRunsAll f children) b) := by
  cases children with
  | nil => exact .fixed rfl
  | cons c rest => exact h.element "div" _

/-- A figure: what stands above a caption brings no runs. -/
theorem alike_figure (hcolor : r'.defaultColor = r.defaultColor) {kind : NodeKind}
    (color : Option ThemeColor) {above : Rendered} (habove : above.warnings = []) (m : Media) :
    Alike (r.pairs r' f (plain m.caption))
      (r.block "figure" kind.typeName color [] (above ++ caption m))
      (r'.block "figure" (kind.mapRuns f).typeName color []
        (above ++ caption { m with caption := m.caption.map f })) :=
  alike_block f hcolor "figure" color [] (.behind habove (r.alike_caption r' f m))

/-- A block is the same after a change to the runs, but for the runs that it shows. -/
theorem alike_node (hcolor : r'.defaultColor = r.defaultColor) (n : Node) :
    Alike (r.pairs r' f (runsWithin n)) (r.node n) (r'.node (n.mapRuns f)) := by
  induction n using Node.induction with
  | step n ih =>
    obtain ⟨id, kind, color, created, edited, children⟩ := n
    have hnodes (tag : String) :
        Alike (r.pairs r' f (runsWithinAll children)) (r.nodes tag children)
          (r'.nodes tag (mapRunsAll f children)) :=
      alike_nodes tag ih
    have hnested :
        Alike (r.pairs r' f (runsWithinAll children)) (nested children (r.nodes "div" children))
          (nested (mapRunsAll f children) (r'.nodes "div" (mapRunsAll f children))) :=
      alike_nested (hnodes "div")
    have hicon (className : String) (icon : Option String) :
        (ofOption (Renderer.icon className) icon).warnings = [] :=
      warnings_ofOption (warnings_icon className) icon
    have htext (t : List TextRun) :
        Alike (r.pairs r' f (plain t ++ runsWithinAll children))
          (Inline.title t ++ nested children (r.nodes "div" children))
          (Inline.title (t.map f) ++
            nested (mapRunsAll f children) (r'.nodes "div" (mapRunsAll f children))) := by
      rw [pairs_append]
      exact (r.alike_title r' f t).append hnested
    rw [mapRuns]
    cases kind with rw [NodeKind.mapRuns, node, node, runsWithin]
    | page title icon cover fullWidth =>
      refine alike_block f hcolor "div" color [] (.element "a" _ ?_)
      exact .behind (hicon _ icon) (r.alike_title r' f title)
    | text t => exact alike_block f hcolor "div" color [] (htext t)
    | heading depth t =>
      -- the children stand behind a heading, not in it
      rw [pairs_append]
      exact (alike_block f hcolor _ color [] (r.alike_title r' f t)).append hnested
    | toDo t checked =>
      refine alike_block f hcolor "div" color [] ?_
      rw [Rendered.append_assoc, Rendered.append_assoc]
      exact .behind rfl (htext t)
    | listItem kind t => exact alike_block f hcolor "div" color [] (htext t)
    | list kind => exact alike_block f hcolor (listTag kind) color [] (hnodes "li")
    | toggle t =>
      rw [pairs_append]
      exact alike_block f hcolor "details" color []
        (((r.alike_title r' f t).element "summary" []).append (hnodes "div"))
    | quote t => exact alike_block f hcolor "blockquote" color [] (htext t)
    | callout t icon =>
      refine alike_block f hcolor "div" color [] (.behind (hicon _ icon) ?_)
      exact (htext t).element "div" _
    | divider => exact alike_block f hcolor "div" color [] (.fixed rfl)
    | code t language wrap =>
      refine alike_block f hcolor "div" color [] (.element "pre" _ (.element "code" _ ?_))
      exact r.alike_code r' f t _
    | equation expression => exact alike_block f hcolor "div" color [] (.fixed rfl)
    | image m => exact alike_figure hcolor color (warnings_ofOption (fun _ => rfl) m.source) m
    | video m => exact alike_figure hcolor color (warnings_ofOption warnings_video m.source) m
    | audio m => exact alike_figure hcolor color (warnings_ofOption (fun _ => rfl) m.source) m
    | embed m => exact alike_figure hcolor color (warnings_ofOption (fun _ => rfl) m.source) m
    | file title source size =>
      refine alike_block f hcolor "div" color [] (.before ?_ ?_)
      · exact warnings_ofOption (fun _ => rfl) size
      · exact (r.alike_title r' f title).element "a" _
    | bookmark link title description icon cover =>
      exact alike_block f hcolor "div" color [] (r.alike_bookmark r' f link title description icon cover)
    | columnList => exact alike_block f hcolor "div" color [] (hnodes "div")
    | column ratio => exact alike_block f hcolor "div" color _ (hnodes "div")
    | table order columnHeader rowHeader =>
      refine alike_block f hcolor "table" color [] (.element "tbody" [] ?_)
      exact r.alike_tableRows r' f order columnHeader rowHeader 0 children
    | tableRow cells => exact alike_block f hcolor "div" color [] (r.alike_looseCells r' f cells)
    | aliasOf target title =>
      exact alike_block f hcolor "div" color [] ((r.alike_titleOr r' f _ title).element "a" _)
    | unsupported blockType => exact alike_block f hcolor "div" color [] hnested

/-- The page of a tree is the same after a change to the runs and to what writes code, but for the
runs that it shows. -/
theorem alike_root_of_color (hcolor : r'.defaultColor = r.defaultColor) (n : Node) :
    Alike (r.pairs r' f n.renderedRuns) (r.root n) (r'.root (n.mapRuns f)) := by
  have hnodes (children : List Node) :
      Alike (r.pairs r' f (runsWithinAll children)) (r.nodes "div" children)
        (r'.nodes "div" (mapRunsAll f children)) :=
    alike_nodes "div" fun c _ => alike_node hcolor c
  have hsingle : Alike (r.pairs r' f (runsWithin n)) (r.nodes "div" [n])
      (r'.nodes "div" [n.mapRuns f]) := by
    simpa [runsWithinAll, mapRunsAll] using hnodes [n]
  obtain ⟨id, kind, color, created, edited, children⟩ := n
  cases kind with
  | page title icon cover fullWidth =>
    have hpicture : (ofOption (picture "page__cover") cover).warnings = [] :=
      warnings_ofOption (fun _ => rfl) cover
    have hicon : (ofOption (Renderer.icon "page__icon") icon).warnings = [] :=
      warnings_ofOption (warnings_icon _) icon
    have hheader : Alike (r.pairs r' f (plain title))
        (.element "header" [.className "page__header"]
          (.ofOption (Renderer.icon "page__icon") icon ++
            .element "h1" [.className "page__title"] (Inline.title title)))
        (.element "header" [.className "page__header"]
          (.ofOption (Renderer.icon "page__icon") icon ++
            .element "h1" [.className "page__title"] (Inline.title (title.map f)))) :=
      .element _ _ (.behind hicon (.element _ _ (r.alike_title r' f title)))
    rw [mapRuns, NodeKind.mapRuns, renderedRuns, pairs_append]
    exact .element "article" _ (.append (.behind hpicture hheader) (hnodes children))
  | _ => exact hsingle

def pieces (r : Renderer) (f : TextRun → TextRun) (ss : List ShownRun) :
    List (Rendered × Rendered) :=
  ss.map fun s => (r.showRun s, r.showRun (s.map f))

/-- The page of a tree is the same after a change to the runs, but for the runs that it shows. -/
theorem alike_root (n : Node) :
    Alike (r.pieces f n.renderedRuns) (r.root n) (r.root (n.mapRuns f)) :=
  alike_root_of_color rfl n

end Renderer

/-! ## Unknown markers -/

/-- The report of a marker, if it is one without a rendering. -/
def Style.report? : Style → Option Warning
  | .unknown c => some (.unsupportedStyle c)
  | _ => none

namespace TextRun

/-- The run without the markers that have no rendering. -/
def known (t : TextRun) : TextRun :=
  { t with styles := t.styles.filter fun style => style.report?.isNone }

/-- The reports of the markers of a run, from the last one to the first. -/
def reports (t : TextRun) : List Warning :=
  t.styles.reverse.filterMap Style.report?

@[simp] theorem reports_known (t : TextRun) : t.known.reports = [] := by
  refine List.filterMap_eq_nil_iff.mpr fun style hstyle => ?_
  simpa [known] using (List.mem_filter.mp (List.mem_reverse.mp hstyle)).2

end TextRun

/-- The tree without the markers that have no rendering. -/
def Node.known (n : Node) : Node := n.mapRuns TextRun.known

namespace Inline

theorem warnings_applyStyle (style : Style) (inner : Rendered) :
    (applyStyle style inner).warnings = inner.warnings ++ style.report?.toList := by
  cases style <;> simp [applyStyle, Rendered.replace, Rendered.warn, Style.report?]

theorem markup_applyStyle_congr (style : Style) {a b : Rendered} (h : a.markup = b.markup) :
    (applyStyle style a).markup = (applyStyle style b).markup := by
  cases style <;> simp [applyStyle, Rendered.element, Rendered.replace, Rendered.warn, h]

theorem warnings_applyStyles (inner : Rendered) (styles : List Style) :
    (applyStyles inner styles).warnings =
      inner.warnings ++ styles.reverse.filterMap Style.report? := by
  induction styles with
  | nil => simp [applyStyles]
  | cons style rest ih =>
    have hfirst := warnings_applyStyle style (applyStyles inner rest)
    rw [ih] at hfirst
    rw [List.reverse_cons, List.filterMap_append, ← List.append_assoc]
    exact hfirst

/-- Markers that have no rendering do nothing to the markup. -/
theorem markup_applyStyles_known (inner : Rendered) (styles : List Style) :
    (applyStyles inner (styles.filter fun style => style.report?.isNone)).markup =
      (applyStyles inner styles).markup := by
  induction styles with
  | nil => rfl
  | cons style rest ih =>
    have hfirst := markup_applyStyle_congr style ih
    cases style with
    | unknown code => exact ih
    | _ => exact hfirst

end Inline

namespace Renderer

open ShownRun Rendered

@[simp] theorem warnings_showRun (r : Renderer) (s : ShownRun) :
    (r.showRun s).warnings = s.run.reports := by
  have htext : (Inline.codeText r.highlighter s.grammar s.run.text).warnings = [] := by
    unfold Inline.codeText
    split <;> rfl
  rw [showRun, Inline.warnings_applyStyles, htext, List.nil_append, TextRun.reports]

theorem html_showRun_known (r : Renderer) (s : ShownRun) :
    (r.showRun (s.map TextRun.known)).html = (r.showRun s).html :=
  congrArg Markup.writeAll (Inline.markup_applyStyles_known _ s.run.styles)

end Renderer

theorem plainText_known (rs : List TextRun) : plainText (rs.map TextRun.known) = plainText rs := by
  simp [plainText, TextRun.known, Function.comp_def]

theorem Renderer.titleOf_known (n : Node) : titleOf n.known = titleOf n := by
  rw [Node.known, Node.mapRuns_eq]
  obtain ⟨id, kind, color, created, edited, children⟩ := n
  cases kind with
  | page title icon cover fullWidth => exact congrArg some (plainText_known title)
  | _ => rfl

theorem OccurInOrder.document {ps : List String} {body : String} (h : OccurInOrder ps body)
    (title : String) : OccurInOrder ps (Renderer.document title body) := by
  have hend : OccurInOrder [] "\n</body>\n</html>\n" := trivial
  have hwhole : OccurInOrder (ps ++ []) (Renderer.document title body) := (h.behind _).append hend
  rwa [List.append_nil] at hwhole

/-- Markers without a rendering are reported and leave no other trace on the page of a tree,
whatever its highlighter, default color and form are. There is one report for each of them in each
run that is shown, in the order in which the runs stand on the page, and from the last marker of a
run to its first. -/
theorem unknown_markers_are_only_reported (r : Renderer) (n : Node) :
    (r.render n.known).html = (r.render n).html ∧
      (r.render n.known).title = (r.render n).title ∧
      (r.render n.known).warnings = [] ∧
      (r.render n).warnings = n.renderedRuns.flatMap (·.run.reports) ∧
      OccurInOrder (n.renderedRuns.map fun s => (r.showRun s).html) (r.render n).html := by
  have halike := Renderer.alike_root (r := r) (f := TextRun.known) n
  have hbody : (r.root n.known).html = (r.root n).html := by
    refine (halike.html_eq fun p hp => ?_).symm
    obtain ⟨s, -, rfl⟩ := List.mem_map.mp hp
    exact (r.html_showRun_known s).symm
  have htitle := Renderer.titleOf_known n
  have hwarnings := halike.warnings
  have horder := halike.occurInOrder
  simp only [Renderer.pieces, List.flatMap_map, List.map_map, Renderer.warnings_showRun,
    Function.comp_def] at hwarnings horder
  obtain ⟨hreported, hknown⟩ := hwarnings
  refine ⟨?_, htitle, ?_, hreported, ?_⟩
  · simp only [Renderer.render, hbody, htitle]
  · have hnone : n.renderedRuns.flatMap (fun s => (s.map TextRun.known).run.reports) = [] :=
      List.flatMap_eq_nil_iff.mpr fun s _ => s.run.reports_known
    exact hknown.trans hnone
  · simp only [Renderer.render]
    split
    · exact horder.document _
    · exact horder

end Folio
