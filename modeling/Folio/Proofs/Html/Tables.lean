import Folio.Proofs.Html.Anchors

/-!
# Folio.Proofs.Html.Tables

Tables as grids. Of the children of a table only the rows are shown, each with one cell for every
column, in the order of the columns.

* `Renderer.cellText`, `Renderer.rowText`, `Renderer.gridText`: the text of a grid.
* `Renderer.html_tableRows`: the rows of a table are a grid.
* `tables_are_grids_iff`: the text of a table, and when the first row that is shown is its header.
* `divider_takes_the_header`: a child that is no row takes the place of the header if it is first.
-/

namespace Folio

/-- The text of a row in a column, if it has any. -/
def Node.cell? (row : Node) (key : String) : Option (List TextRun) :=
  match row.kind with
  | .tableRow cells => cells.lookup key
  | _ => none

namespace Renderer

/-! ## Grids -/

def cellText (header : Bool) (content : Option (List TextRun)) : String :=
  let text := match content with
    | some runs => (Inline.runs runs).html
    | none => ""
  if header then "<th>" ++ text ++ "</th>" else "<td>" ++ text ++ "</td>"

/-- The text of the cells of a row, one for each column. -/
def cellsText (header : Nat → Bool) (order : List String) (row : Node) : String :=
  String.join (order.mapIdx fun column key => cellText (header column) (row.cell? key))

def rowText (header : Nat → Bool) (order : List String) (row : Node) : String :=
  "<tr id=\"" ++ elementId row.id ++ "\">" ++ cellsText header order row ++ "</tr>"

/-- The text of rows. For each row and column, both counted from zero, `header` tells whether the
cell is a header. -/
def gridText (header : Nat → Nat → Bool) (order : List String) (rows : List Node) : String :=
  String.join (rows.mapIdx fun row n => rowText (header row) order n)

theorem cellsText_cons (header : Nat → Bool) (key : String) (rest : List String) (row : Node) :
    cellsText header (key :: rest) row =
      cellText (header 0) (row.cell? key) ++
        cellsText (fun column => header (column + 1)) rest row := by
  rw [cellsText, List.mapIdx_cons, String.join_cons]
  rfl

theorem gridText_cons (header : Nat → Nat → Bool) (order : List String) (n : Node)
    (rest : List Node) :
    gridText header order (n :: rest) =
      rowText (header 0) order n ++ gridText (fun row => header (row + 1)) order rest := by
  rw [gridText, List.mapIdx_cons, String.join_cons]
  rfl

theorem html_cell (header : Bool) (content : Option (List TextRun)) :
    (cell header content).html = cellText header content := by
  rw [cell, Rendered.html_element]
  cases header <;> cases content <;> rfl

theorem html_rowCells (columnHeader rowHeader : Bool) (place : Nat) {row : Node}
    {cells : List (String × List TextRun)} (h : row.kind = .tableRow cells) (column : Nat)
    (order : List String) :
    (rowCells columnHeader rowHeader place cells column order).html =
      cellsText (fun j => isHeader columnHeader rowHeader place (column + j)) order row := by
  induction order generalizing column with
  | nil => rfl
  | cons key rest ih =>
    have hcell : row.cell? key = cells.lookup key := by rw [Node.cell?, h]
    rw [rowCells, Rendered.html_append, html_cell, ih, cellsText_cons, hcell]
    simp [Nat.add_assoc, Nat.add_comm 1]

/-! ## Rows of a table -/

variable {order : List String} {columnHeader rowHeader : Bool}

theorem isHeader_succ (columnHeader rowHeader : Bool) (row : Nat) :
    isHeader columnHeader rowHeader (row + 1) = isHeader false rowHeader row := by
  funext column
  simp [isHeader]

/-- A child is shown if it is a row, with the headers of its place among all children. -/
theorem html_tableRows_cons (child : Nat) (n : Node) (rest : List Node) :
    (tableRows order columnHeader rowHeader child (n :: rest)).html =
      (if n.isRow then rowText (isHeader columnHeader rowHeader child) order n else "") ++
        (tableRows order columnHeader rowHeader (child + 1) rest).html := by
  rw [tableRows, Rendered.html_append]
  congr 1
  cases hkind : n.kind with
  | tableRow cells =>
    have hcells := html_rowCells columnHeader rowHeader child hkind 0 order
    simp only [Nat.zero_add] at hcells
    have hstart : Markup.startTag "tr" [.id (elementId n.id)] =
        "<tr id=\"" ++ elementId n.id ++ "\">" := by
      refine String.toList_inj.mp ?_
      simp [Markup.startTag, Attribute.id, Attribute.write]
    rw [Rendered.html_element, hcells, hstart, Node.isRow, hkind]
    rfl
  | _ =>
    rw [Node.isRow, hkind]
    rfl

/-- Behind the first child no row is the first one. -/
theorem html_tableRows_succ (child : Nat) (children : List Node) :
    (tableRows order columnHeader rowHeader (child + 1) children).html =
      gridText (isHeader false rowHeader) order (children.filter Node.isRow) := by
  induction children generalizing child with
  | nil => rfl
  | cons n rest ih =>
    rw [html_tableRows_cons, ih, isHeader_succ]
    cases hrow : n.isRow with
    | true =>
      rw [List.filter_cons_of_pos hrow, gridText_cons, if_pos rfl]
      rfl
    | false =>
      rw [List.filter_cons_of_neg (by simp [hrow]), if_neg Bool.false_ne_true, String.empty_append]

/-- The rows of a table are a grid. The first row is the header only if it is the first child. -/
theorem html_tableRows (children : List Node) :
    (tableRows order columnHeader rowHeader 0 children).html =
      gridText (isHeader (columnHeader && children.head?.any Node.isRow) rowHeader) order
        (children.filter Node.isRow) := by
  cases children with
  | nil => rfl
  | cons n rest =>
    rw [html_tableRows_cons, html_tableRows_succ, List.head?_cons, Option.any_some]
    cases hrow : n.isRow with
    | true =>
      rw [List.filter_cons_of_pos hrow, gridText_cons, if_pos rfl, Bool.and_true]
      simp only [isHeader_succ]
    | false =>
      rw [List.filter_cons_of_neg (by simp [hrow]), if_neg Bool.false_ne_true, String.empty_append,
        Bool.and_false]

/-! ## Grids that are the same -/

/-- Cells of one row are told apart from others in the first column where only one of them is a
header, whatever stands behind them. -/
theorem cellsText_ne {header header' : Nat → Bool} {column : Nat} (row : Node)
    (hcolumn : column < order.length) (hbefore : ∀ j < column, header j = header' j)
    (hcell : header column = false) (hcell' : header' column = true) (behind behind' : String) :
    cellsText header order row ++ behind ≠ cellsText header' order row ++ behind' := by
  induction order generalizing header header' column with
  | nil => exact absurd hcolumn (Nat.not_lt_zero column)
  | cons key rest ih =>
    rw [cellsText_cons, cellsText_cons, String.append_assoc, String.append_assoc]
    cases column with
    | zero =>
      rw [hcell, hcell']
      intro heq
      simpa [cellText] using congrArg String.toList heq
    | succ column =>
      rw [hbefore 0 (Nat.succ_pos column), Ne, String.append_right_inj]
      exact ih (Nat.lt_of_succ_lt_succ hcolumn)
        (fun j hj => hbefore (j + 1) (Nat.succ_lt_succ hj)) hcell hcell'

theorem gridText_congr {header header' : Nat → Nat → Bool}
    (h : ∀ row, ∀ column < order.length, header row column = header' row column)
    (rows : List Node) : gridText header order rows = gridText header' order rows := by
  have hcells (row : Nat) (n : Node) :
      cellsText (header row) order n = cellsText (header' row) order n := by
    rw [cellsText, cellsText]
    refine congrArg String.join (List.mapIdx_eq_mapIdx_iff.mpr fun column hcolumn => ?_)
    rw [h row column hcolumn]
  rw [gridText, gridText]
  simp only [rowText, hcells]

/-! ## Tables -/

/-- The classes of the element of a block. -/
def blockClasses (r : Renderer) (n : Node) : String :=
  let colorClass := resolveClass n.color r.defaultColor
  "block block--" ++ n.kind.typeName ++ if colorClass.isEmpty then "" else " " ++ colorClass

/-- The text of a table with the rows among its children as a grid. -/
def tableText (r : Renderer) (t : Node) (header : Nat → Nat → Bool) (order : List String) :
    String :=
  String.join ["<table class=\"", Escape.attr (r.blockClasses t), "\"><tbody>",
    gridText header order (t.children.filter Node.isRow), "</tbody></table>"]

variable {r : Renderer} {t : Node}

theorem html_block (r : Renderer) (n : Node) (tag : String) (content : Rendered) :
    (r.block tag n.kind.typeName n.color [] content).html =
      "<" ++ tag ++ " class=\"" ++ Escape.attr (r.blockClasses n) ++ "\">" ++ content.html ++
        "</" ++ tag ++ ">" := by
  have hblock : r.block tag n.kind.typeName n.color [] content =
      .element tag [.className (r.blockClasses n)] content := rfl
  rw [hblock, Rendered.html_element]
  refine String.toList_inj.mp ?_
  simp [Markup.startTag, Markup.endTag, Attribute.className, Attribute.write]

theorem html_table (h : t.kind = .table order columnHeader rowHeader) :
    (r.node t).html =
      r.tableText t (isHeader (columnHeader && t.children.head?.any Node.isRow) rowHeader)
        order := by
  have hnode : r.node t = r.block "table" t.kind.typeName t.color []
      (.element "tbody" [] (tableRows order columnHeader rowHeader 0 t.children)) := by
    obtain ⟨id, kind, color, created, edited, children⟩ := t
    obtain rfl : kind = .table order columnHeader rowHeader := h
    rw [node]
  rw [hnode, html_block, Rendered.html_element, html_tableRows, tableText]
  refine String.toList_inj.mp ?_
  simp [Markup.startTag, Markup.endTag]

/-- Where a header row would show, and the first row is not the first child, the text is another one
than that of the grid with a header row. -/
theorem tableText_ne (hrows : t.children.filter Node.isRow ≠ [])
    (horder : (if rowHeader then 1 else 0) < order.length) :
    r.tableText t (isHeader false rowHeader) order ≠
      r.tableText t (isHeader true rowHeader) order := by
  obtain ⟨row, rest, hcons⟩ := List.exists_cons_of_ne_nil hrows
  simp only [tableText, String.join_cons, hcons, gridText_cons, rowText, String.append_assoc, Ne,
    String.append_right_inj]
  refine cellsText_ne row horder (fun j hj => ?_) ?_ ?_ _ _
  · cases rowHeader with
    | false => exact absurd hj (Nat.not_lt_zero j)
    | true =>
      obtain rfl : j = 0 := Nat.lt_one_iff.mp hj
      rfl
  · cases rowHeader <;> rfl
  · cases rowHeader <;> rfl

end Renderer

/-- A table is a grid of the rows among its children and its columns, both in order: each row has
its element id and one cell for every column, with the text that it has there, if any. The cells of
the first column are headers if the table says so of it. The cells of the first row are headers if
the table says so of it and the first row is the first child.

So the grid that is shown decides on the headers just if the first row is the first child wherever
it is to be a header, or has no cell that would be a header for this reason alone. -/
theorem tables_are_grids_iff (r : Renderer) {t : Node} {order : List String}
    {columnHeader rowHeader : Bool} (h : t.kind = .table order columnHeader rowHeader) :
    (r.node t).html =
        r.tableText t (fun row column =>
          columnHeader && t.children.head?.any Node.isRow && row == 0 || rowHeader && column == 0)
          order ∧
      ((r.node t).html =
          r.tableText t (fun row column => columnHeader && row == 0 || rowHeader && column == 0)
            order ↔
        (columnHeader = true → t.children.filter Node.isRow = [] ∨
          t.children.head?.any Node.isRow = true ∨ order.length ≤ if rowHeader then 1 else 0)) := by
  have htext := Renderer.html_table (r := r) h
  refine ⟨htext, ?_⟩
  rw [htext]
  constructor
  · intro heq hcolumn
    refine Classical.or_iff_not_imp_left.mpr fun hrows =>
      Classical.or_iff_not_imp_left.mpr fun hfirst => Nat.le_of_not_lt fun horder => ?_
    rw [hcolumn, eq_false_of_ne_true hfirst] at heq
    exact Renderer.tableText_ne hrows horder heq
  · intro hshown
    cases hcolumn : columnHeader with
    | false => rfl
    | true =>
      obtain hrows | hfirst | horder := hshown hcolumn
      · simp only [Renderer.tableText, hrows]
        rfl
      · rw [hfirst]
        rfl
      · refine congrArg (fun grid => String.join [_, _, _, grid, _]) (Renderer.gridText_congr ?_ _)
        intro row column hlt
        -- the one column there can be is a header for the sake of the first column
        cases rowHeader with
        | false => exact absurd (Nat.lt_of_lt_of_le hlt horder) (Nat.not_lt_zero column)
        | true =>
          obtain rfl : column = 0 := Nat.lt_one_iff.mp (Nat.lt_of_lt_of_le hlt horder)
          simp [Renderer.isHeader]

/-- A row with the text of the column `a`. -/
def oneCell (id text : String) : Node :=
  { Node.synthetic (.tableRow [("a", [{ text }])]) [] with id := some id }

/-- A divider between rows leaves the header to the first row. -/
theorem rows_around_divider_are_grid :
    let t := Node.synthetic (.table ["a", "b"] true false)
      [oneCell "r1" "A", .synthetic .divider [], oneCell "r2" "C"]
    let grid := ({} : Renderer).tableText t
      (fun row column => true && row == 0 || false && column == 0) ["a", "b"]
    (({} : Renderer).node t).html = grid ∧
      grid = "<table class=\"block block--table\"><tbody><tr id=\"r1\"><th>A</th><th></th></tr>" ++
        "<tr id=\"r2\"><td>C</td><td></td></tr></tbody></table>" := by
  intro t grid
  constructor
  · exact (tables_are_grids_iff {} rfl).2.mpr fun _ => .inr (.inl rfl)
  · decide +kernel

/-- With a divider before it, the first row of a table with a header row has no headers. -/
theorem divider_takes_the_header :
    let t := Node.synthetic (.table ["a"] true false) [.synthetic .divider [], oneCell "r1" "A"]
    (({} : Renderer).node t).html =
        "<table class=\"block block--table\"><tbody><tr id=\"r1\"><td>A</td></tr></tbody></table>" ∧
      (({} : Renderer).node t).html ≠ ({} : Renderer).tableText t
        (fun row column => true && row == 0 || false && column == 0) ["a"] := by
  intro t
  constructor
  · decide +kernel
  · decide +kernel

end Folio
