import Folio.Node
import Folio.TextRun.Json

/-!
# Folio.Node.Json

The document tree as JSON. A node is one object: its id, its type with the fields of that type, its
color and times, and its children. What is absent is left out, except for optional fields of a
type, which are `null`.
-/

namespace Folio

namespace ListKind

def token : ListKind → String
  | bulleted => "bulleted"
  | numbered => "numbered"

end ListKind

namespace NodeKind

def optionalText : Option String → Json
  | some s => .string s
  | none => .null

def optionalFloat : Option Float → Json
  | some x => .number (.float x)
  | none => .null

def mediaMembers (m : Media) : List (String × Json) :=
  ("source", optionalText m.source) ::
    ((m.width.map fun w => ("width", Json.number (.float w))).toList ++
      ("full_width", .bool m.fullWidth) ::
        if m.caption.isEmpty then [] else [("caption", TextRun.listToJson m.caption)])

/-- The type of a node and the fields of that type. -/
def members : NodeKind → List (String × Json)
  | page title icon cover fullWidth =>
    [("type", .string "page"), ("title", TextRun.listToJson title), ("icon", optionalText icon),
     ("cover", optionalText cover), ("full_width", .bool fullWidth)]
  | text t => [("type", .string "text"), ("text", TextRun.listToJson t)]
  | heading depth t =>
    [("type", .string "heading"), ("depth", .number (.int depth)), ("text", TextRun.listToJson t)]
  | toDo t checked =>
    [("type", .string "to_do"), ("text", TextRun.listToJson t), ("checked", .bool checked)]
  | listItem kind t =>
    [("type", .string "list_item"), ("list", .string kind.token), ("text", TextRun.listToJson t)]
  | list kind => [("type", .string "list"), ("list", .string kind.token)]
  | toggle t => [("type", .string "toggle"), ("text", TextRun.listToJson t)]
  | quote t => [("type", .string "quote"), ("text", TextRun.listToJson t)]
  | callout t icon =>
    [("type", .string "callout"), ("text", TextRun.listToJson t), ("icon", optionalText icon)]
  | divider => [("type", .string "divider")]
  | code t language wrap =>
    [("type", .string "code"), ("text", TextRun.listToJson t), ("language", optionalText language),
     ("wrap", .bool wrap)]
  | equation expression => [("type", .string "equation"), ("expression", .string expression)]
  | image m => ("type", .string "image") :: mediaMembers m
  | video m => ("type", .string "video") :: mediaMembers m
  | audio m => ("type", .string "audio") :: mediaMembers m
  | embed m => ("type", .string "embed") :: mediaMembers m
  | file title source size =>
    [("type", .string "file"), ("title", TextRun.listToJson title), ("source", optionalText source),
     ("size", optionalText size)]
  | bookmark link title description icon cover =>
    [("type", .string "bookmark"), ("link", optionalText link),
     ("title", TextRun.listToJson title), ("description", TextRun.listToJson description),
     ("icon", optionalText icon), ("cover", optionalText cover)]
  | columnList => [("type", .string "column_list")]
  | column ratio => [("type", .string "column"), ("ratio", optionalFloat ratio)]
  | table order columnHeader rowHeader =>
    [("type", .string "table"), ("column_order", .array (order.map .string)),
     ("column_header", .bool columnHeader), ("row_header", .bool rowHeader)]
  | tableRow cells =>
    [("type", .string "table_row"),
     ("cells", .object (cells.map fun (key, t) => (key, TextRun.listToJson t)))]
  | aliasOf target title =>
    [("type", .string "alias"), ("target", .string target), ("title", TextRun.listToJson title)]
  | unsupported blockType =>
    [("type", .string "unsupported"), ("block_type", .string blockType)]

end NodeKind

namespace Node

/-- A time under its name, if there is one. -/
def timeMember (name : String) (time : Option Int) : List (String × Json) :=
  (time.map fun t => (name, Json.number (.int t))).toList

mutual

def toJson : Node → Json
  | ⟨id, kind, color, createdTime, lastEditedTime, children⟩ =>
    .object ((id.map fun s => ("id", Json.string s)).toList ++ kind.members ++
      (color.map fun c => ("color", Json.string c.token)).toList ++
      timeMember "created_time" createdTime ++ timeMember "last_edited_time" lastEditedTime ++
      if children.isEmpty then [] else [("children", .array (toJsonAll children))])

def toJsonAll : List Node → List Json
  | [] => []
  | n :: rest => toJson n :: toJsonAll rest

end

end Node
end Folio
