import Folio.Json.Token

/-!
# Folio.Json.Reader

Documents from tokens. The reader holds the arrays and objects that are still open, innermost
first, and what may come next; each token takes it one step further.

* `Written.ofText?`: the document of a text.
* `Json.ofText?`: its value, if it has one.
-/

namespace Folio
namespace Json

/-- An array or object that is still open, with the parts it has so far, the last first. -/
inductive Frame where
  | array (elements : List Written)
  | object (members : List (StringText × Written)) (key : StringText)

/-- What may come next, inside the open frames. -/
inductive Reader where
  /-- A value has to come. -/
  | value (frames : List Frame)
  /-- An array was just opened. -/
  | element (frames : List Frame)
  /-- An object was just opened. -/
  | member (frames : List Frame)
  /-- Another key has to come. -/
  | key (members : List (StringText × Written)) (frames : List Frame)
  /-- The colon after a key has to come. -/
  | colon (members : List (StringText × Written)) (key : StringText) (frames : List Frame)
  /-- A value is complete. -/
  | done (value : Written) (frames : List Frame)

namespace Reader

/-- A token where a value has to come. -/
def stepValue? (frames : List Frame) : Token → Option Reader
  | .null => some (.done .null frames)
  | .bool b => some (.done (.bool b) frames)
  | .number n => some (.done (.number n) frames)
  | .string s => some (.done (.string s) frames)
  | .openArray => some (.element frames)
  | .openObject => some (.member frames)
  | _ => none

/-- The state after one more token. -/
def step? : Reader → Token → Option Reader
  | .value frames, token => stepValue? frames token
  | .element frames, .closeArray => some (.done (.array []) frames)
  | .element frames, token => stepValue? (.array [] :: frames) token
  | .member frames, .closeObject => some (.done (.object []) frames)
  | .member frames, .string k => some (.colon [] k frames)
  | .key members frames, .string k => some (.colon members k frames)
  | .colon members k frames, .colon => some (.value (.object members k :: frames))
  | .done v (.array elements :: frames), .comma => some (.value (.array (v :: elements) :: frames))
  | .done v (.array elements :: frames), .closeArray =>
    some (.done (.array (v :: elements).reverse) frames)
  | .done v (.object members k :: frames), .comma => some (.key ((k, v) :: members) frames)
  | .done v (.object members k :: frames), .closeObject =>
    some (.done (.object ((k, v) :: members).reverse) frames)
  | _, _ => none

end Reader

def Written.ofTokens? (tokens : List Token) : Option Written :=
  match tokens.foldlM Reader.step? (Reader.value []) with
  | some (.done v []) => some v
  | _ => none

def Written.ofText? (text : String) : Option Written := do
  Written.ofTokens? (← Token.ofChars? text.toList)

def ofText? (text : String) : Option Json := do
  (← Written.ofText? text).read? Written.maxDepth

end Json
end Folio
