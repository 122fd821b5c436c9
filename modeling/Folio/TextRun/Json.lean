import Folio.Json.Fields
import Folio.Json.Writer
import Folio.TextRun

/-!
# Folio.TextRun.Json

Styled text in records. A run is an array `[text]` or `[text, markers]`, a marker an array `[code]`
or `[code, payload]`.

* `TextRun.listOfJson?`: any array of arrays is a list of runs. What is malformed inside a run
  costs its markers or their payload, never the text.
* `TextRun.toJson`: the written form.
-/

namespace Folio

namespace DateMention

def fieldNames : List String :=
  ["type", "start_date", "start_time", "end_date", "end_time", "date_format", "time_zone"]

def ofJson? (payload : Json) : Option DateMention := do
  let fields ← payload.fields? fieldNames
  let text (name : String) := Json.optional? Json.string? (fields.lookup name)
  some {
    kind := ← text "type"
    startDate := ← Json.defaulted? "" Json.string? (fields.lookup "start_date")
    startTime := ← text "start_time"
    endDate := ← text "end_date"
    endTime := ← text "end_time"
    dateFormat := ← text "date_format"
    timeZone := ← text "time_zone" }

/-- A member for a field that is set. -/
def member (name : String) : Option String → List (String × Json)
  | some s => [(name, .string s)]
  | none => []

/-- The payload of a date, its members sorted by key. -/
def toJson (d : DateMention) : Json :=
  .object (member "date_format" d.dateFormat ++ member "end_date" d.endDate ++
    member "end_time" d.endTime ++ [("start_date", .string d.startDate)] ++
    member "start_time" d.startTime ++ member "time_zone" d.timeZone ++ member "type" d.kind)

end DateMention

namespace Style

/-- The text of a payload; anything but a string counts as empty. -/
def payloadText (payload : Option Json) : String :=
  (payload.bind Json.string?).getD ""

/-- The marker of a code and its payload. -/
def ofCode (shortCode : String) (payload : Option Json) : Style :=
  match shortCode with
  | "b" => bold
  | "i" => italic
  | "s" => strike
  | "_" => underline
  | "c" => code
  | "a" => link (payloadText payload)
  | "h" => color (payloadText payload)
  | "u" => userMention (payloadText payload)
  | "p" => pageMention (payloadText payload)
  | "m" => comment (payloadText payload)
  | "d" => date ((payload.bind DateMention.ofJson?).getD {})
  | other => unknown other

/-- The code that stands at the head of a marker. Other values than strings count as their text. -/
def codeOfJson : Json → String
  | .string s => s
  | other => other.compact

/-- The marker of a value. Only an array can be a known one. -/
def ofJson : Json → Style
  | .array [] => ofCode "" none
  | .array (head :: rest) => ofCode (codeOfJson head) rest.head?
  | other => unknown (codeOfJson other)

/-- The payload of a marker that carries one. -/
def payload? : Style → Option Json
  | link s | color s | userMention s | pageMention s | comment s => some (.string s)
  | date d => some d.toJson
  | _ => none

def toJson (style : Style) : Json :=
  .array (.string style.shortCode :: style.payload?.toList)

/-- The markers of a run. Anything but an array leaves the run without. -/
def listOfJson : Json → List Style
  | .array markers => markers.map ofJson
  | _ => []

end Style

namespace TextRun

/-- The run of an array: its text and its markers come first, the rest is ignored. -/
def ofElements : List Json → TextRun
  | [] => {}
  | [text] => { text := text.string?.getD "" }
  | text :: markers :: _ => { text := text.string?.getD "", styles := Style.listOfJson markers }

def ofJson? (v : Json) : Option TextRun :=
  v.elements?.map ofElements

def listOfJson? (v : Json) : Option (List TextRun) :=
  v.list? ofJson?

def toJson (run : TextRun) : Json :=
  match run.styles with
  | [] => .array [.string run.text]
  | styles => .array [.string run.text, .array (styles.map Style.toJson)]

def listToJson (runs : List TextRun) : Json :=
  .array (runs.map toJson)

end TextRun
end Folio
