import Folio.Proofs.Registry
import Folio.RecordMap

/-!
# Folio.Proofs.Block.Spelling

The ids that a block holds may be spelled with or without dashes.

* `Block.dashedIds`: a block with every id that it holds in the dashed spelling.
* `Block.format?_dashedIds`, `Block.aliasTarget_dashedIds`: all that is read from it is the same.
* `Block.kindOf_dashedIds`, `Block.transform_dashedIds`: so is the node that is made of it.
-/

namespace Folio

namespace Json

/-- Members with the value of one key changed. -/
def mapAt (key : String) (f : Json → Json) (members : List (String × Json)) :
    List (String × Json) :=
  members.map fun e => (e.1, if e.1 = key then f e.2 else e.2)

/-- A string that is an id in the dashed spelling, and any other value as it is. -/
def dashedString : Json → Json
  | string s => string (BlockId.dashed s)
  | v => v

/-- An object with its id in the dashed spelling. -/
def dashedPointer : Json → Json
  | object members => object (mapAt "id" dashedString members)
  | v => v

end Json

/-- A block with every id that it holds in the dashed spelling: its own, those of its content and
of its parent, and the one that an alias points at. -/
def Block.dashedIds (b : Block) : Block :=
  { b with
    id := BlockId.dashed b.id
    content := b.content.map (·.map BlockId.dashed)
    parentId := b.parentId.map BlockId.dashed
    format := b.format.map (Json.mapAt "alias_pointer" Json.dashedPointer) }

/-! ## Reading a block -/

namespace Json

theorem lookup_mapAt (key : String) (f : Json → Json) (members : List (String × Json)) :
    (mapAt key f members).lookup key = (members.lookup key).map f := by
  induction members with
  | nil => rfl
  | cons e rest ih =>
    obtain ⟨k, v⟩ := e
    rw [mapAt, List.map_cons, List.lookup_cons, List.lookup_cons]
    by_cases h : k = key
    · subst h
      simp
    · rw [beq_false_of_ne (Ne.symm h)]
      exact ih

theorem lookup_mapAt_of_ne {key other : String} (h : other ≠ key) (f : Json → Json)
    (members : List (String × Json)) :
    (mapAt key f members).lookup other = members.lookup other := by
  induction members with
  | nil => rfl
  | cons e rest ih =>
    obtain ⟨k, v⟩ := e
    rw [mapAt, List.map_cons, List.lookup_cons, List.lookup_cons]
    by_cases hk : other = k
    · subst hk
      simp [h]
    · rw [beq_false_of_ne hk]
      exact ih

theorem lastOf?_mapAt (key : String) (f : Json → Json) (members : List (String × Json)) :
    lastOf? key (mapAt key f members) = (lastOf? key members).map f := by
  induction members with
  | nil => rfl
  | cons e rest ih =>
    obtain ⟨k, v⟩ := e
    rw [mapAt, List.map_cons, ← mapAt, lastOf?, lastOf?, ih]
    cases lastOf? key rest with
    | some found => rfl
    | none => by_cases h : k = key <;> simp [h]

theorem member?_dashedPointer (v : Json) :
    v.dashedPointer.member? "id" = (v.member? "id").map dashedString := by
  cases v with
  | object members => exact lastOf?_mapAt "id" dashedString members
  | _ => rfl

theorem string?_dashedString (v : Json) :
    v.dashedString.string? = v.string?.map BlockId.dashed := by
  cases v <;> rfl

end Json

namespace Block

variable (b : Block)

theorem format?_dashedIds_pointer :
    b.dashedIds.format? "alias_pointer" = (b.format? "alias_pointer").map Json.dashedPointer := by
  unfold format? dashedIds
  cases b.format with
  | none => rfl
  | some hints => exact Json.lookup_mapAt "alias_pointer" Json.dashedPointer hints

/-- Nothing but the pointer of an alias holds an id among the format hints. -/
theorem format?_dashedIds {key : String} (h : key ≠ "alias_pointer") :
    b.dashedIds.format? key = b.format? key := by
  unfold format? dashedIds
  cases b.format with
  | none => rfl
  | some hints => exact Json.lookup_mapAt_of_ne h Json.dashedPointer hints

theorem aliasTarget_dashedIds : b.dashedIds.aliasTarget = b.aliasTarget := by
  unfold aliasTarget
  rw [format?_dashedIds_pointer]
  cases b.format? "alias_pointer" with
  | none => rfl
  | some v =>
    simp only [Option.map_some, Option.bind_some, Json.member?_dashedPointer]
    cases v.member? "id" with
    | none => rfl
    | some target =>
      simp only [Option.map_some, Option.bind_some, Json.string?_dashedString]
      cases target.string? with
      | none => rfl
      | some s => exact BlockId.dashed_dashed s

theorem id_dashedIds : b.dashedIds.id = BlockId.dashed b.id := rfl

@[simp] theorem runs_dashedIds (name : String) : b.dashedIds.runs name = b.runs name := rfl
@[simp] theorem blockType_dashedIds : b.dashedIds.blockType = b.blockType := rfl
@[simp] theorem isAlias_dashedIds : b.dashedIds.isAlias = b.isAlias := rfl
@[simp] theorem firstText?_dashedIds (name : String) :
    b.dashedIds.firstText? name = b.firstText? name := rfl

section Hints

variable {key : String} (h : key ≠ "alias_pointer")

include h

theorem formatString?_dashedIds : b.dashedIds.formatString? key = b.formatString? key := by
  rw [formatString?, formatString?, format?_dashedIds b h]

theorem formatFloat?_dashedIds : b.dashedIds.formatFloat? key = b.formatFloat? key := by
  rw [formatFloat?, formatFloat?, format?_dashedIds b h]

theorem formatFlag_dashedIds : b.dashedIds.formatFlag key = b.formatFlag key := by
  rw [formatFlag, formatFlag, formatBool?, formatBool?, format?_dashedIds b h]

end Hints

theorem source?_dashedIds : b.dashedIds.source? = b.source? := by
  rw [source?, source?, formatString?_dashedIds b (by decide), firstText?_dashedIds]

theorem media_dashedIds (source : Option String) : b.dashedIds.media source = b.media source := by
  rw [media, media, width?, width?, formatFloat?_dashedIds b (by decide),
    formatFlag_dashedIds b (by decide), runs_dashedIds]

theorem columnOrder_dashedIds : b.dashedIds.columnOrder = b.columnOrder := by
  rw [columnOrder, columnOrder, format?_dashedIds b (by decide)]

section Stored

-- as a map holds it, a block has its own id in the dashed spelling already
variable {b} (hid : b.dashedIds.id = b.id)

include hid

theorem publicIcon?_dashedIds : b.dashedIds.publicIcon? = b.publicIcon? := by
  rw [publicIcon?, publicIcon?, icon?, icon?, formatString?_dashedIds b (by decide), hid,
    isAlias_dashedIds]

theorem fileSource?_dashedIds : b.dashedIds.fileSource? = b.fileSource? := by
  rw [fileSource?, fileSource?, source?_dashedIds, hid]

theorem imageSource?_dashedIds : b.dashedIds.imageSource? = b.imageSource? := by
  rw [imageSource?, imageSource?, source?_dashedIds, width?, width?,
    formatFloat?_dashedIds b (by decide), hid]

theorem kindOf_dashedIds (t : Transformer) : t.kindOf b.dashedIds = t.kindOf b := by
  cases t with
  | tableRow => rfl
  | _ =>
    simp [Transformer.kindOf, title, publicIcon?_dashedIds hid, fileSource?_dashedIds hid,
      imageSource?_dashedIds hid, media_dashedIds, columnOrder_dashedIds, aliasTarget_dashedIds,
      formatString?_dashedIds, formatFloat?_dashedIds, formatFlag_dashedIds, hid]

theorem node_dashedIds (t : Transformer) (children : List Node) :
    t.node b.dashedIds children = t.node b children := by
  have hcolor : b.dashedIds.colorToken? = b.colorToken? := by
    rw [colorToken?, colorToken?, formatString?_dashedIds b (by decide), isAlias_dashedIds]
  unfold Transformer.node
  rw [kindOf_dashedIds hid, hcolor, hid]
  rfl

theorem transform_dashedIds {r : Registry} (hr : r.OfTransformers) (children : List Node) :
    r.transform b.dashedIds children = r.transform b children := by
  unfold Registry.transform
  rw [blockType_dashedIds]
  cases hfind : r.find? b.blockType with
  | none => simp only [node_dashedIds hid, hid]
  | some make =>
    obtain ⟨t, rfl⟩ := hr.exists_of_find? hfind
    simp only [node_dashedIds hid]

end Stored

end Block
end Folio
