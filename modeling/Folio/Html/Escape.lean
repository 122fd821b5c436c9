/-!
# Folio.Html.Escape

Escaping of text and of double-quoted attribute values. Each active character is written as one
entity and everything else stands for itself. Attribute values keep their slashes, so that
addresses stay readable.
-/

namespace Folio
namespace Escape

def attrChar : Char → List Char
  | '<' => "&lt;".toList
  | '>' => "&gt;".toList
  | '&' => "&amp;".toList
  | '"' => "&quot;".toList
  | '\'' => "&#x27;".toList
  | c => [c]

def textChar (c : Char) : List Char :=
  if c = '/' then "&#x2F;".toList else attrChar c

def text (s : String) : String :=
  String.ofList (s.toList.flatMap textChar)

def attr (s : String) : String :=
  String.ofList (s.toList.flatMap attrChar)

end Escape
end Folio
