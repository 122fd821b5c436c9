/-!
# Folio.TextRun

Styled text. A text is a list of runs, each with the markers that apply to all of it. A marker is
known by a short code; one with an unlisted code is kept as `Style.unknown`.
-/

namespace Folio

structure DateMention where
  kind : Option String := none
  startDate : String := ""
  startTime : Option String := none
  endDate : Option String := none
  endTime : Option String := none
  dateFormat : Option String := none
  timeZone : Option String := none
deriving DecidableEq, Repr

inductive Style where
  | bold
  | italic
  | strike
  | underline
  | code
  | link (target : String)
  | color (token : String)
  | userMention (id : String)
  | pageMention (id : String)
  | date (date : DateMention)
  | comment (id : String)
  | unknown (code : String)
deriving DecidableEq, Repr

/-- A piece of text and its markers. The first marker becomes the outermost wrapper. -/
structure TextRun where
  text : String := ""
  styles : List Style := []
deriving DecidableEq, Repr

def Style.shortCode : Style → String
  | bold => "b"
  | italic => "i"
  | strike => "s"
  | underline => "_"
  | code => "c"
  | link _ => "a"
  | color _ => "h"
  | userMention _ => "u"
  | pageMention _ => "p"
  | date _ => "d"
  | comment _ => "m"
  | unknown c => c

/-- The text of runs without their markers. -/
def plainText (runs : List TextRun) : String :=
  String.join (runs.map (·.text))

end Folio
