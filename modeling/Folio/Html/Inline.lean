import Folio.Color
import Folio.Html.Rendered
import Folio.TextRun
import Folio.Url.Anchor

/-!
# Folio.Html.Inline

Styled text as inline markup. The markers of a run are applied from the last to the first, so that
the first one ends up outside. A mention shows what it mentions in place of the text and of the
markers inside. An unknown marker leaves the markup alone and is reported.

* `Inline.applyStyles`: markers around markup that is there already.
* `Inline.runs`, `Inline.title`: a text, as it is and inside a `span`.
* `Inline.code`: the text of a code block, which a highlighter may take over.
-/

namespace Folio

/-- Turns code in a language into markup. It has to escape the code itself. -/
abbrev Highlighter := (code language : String) → String

namespace Inline

/-- What a mention shows. -/
def mention (label : String) : Markup :=
  .element "span" [.className "color-mention"] [.text label]

def applyStyle (style : Style) (inner : Rendered) : Rendered :=
  match style with
  | .bold => inner.element "strong" []
  | .italic => inner.element "em" []
  | .strike => inner.element "del" []
  | .underline => inner.element "u" []
  | .code => inner.element "code" []
  | .link target => inner.element "a" [.value "href" (Anchor.localAnchor target)]
  | .color token => inner.element "span" [.className (resolve (some token) "")]
  | .userMention id => inner.replace (mention ("@user_id:" ++ id))
  | .pageMention id => inner.replace (mention ("@page_id:" ++ id))
  | .date d => inner.replace (mention ("@" ++ d.startDate))
  | .comment _ => inner.element "span" [.className "color-comment"]
  | .unknown code => inner.warn (.unsupportedStyle code)

/-- Markers around markup, the first one outermost. -/
def applyStyles (inner : Rendered) (styles : List Style) : Rendered :=
  styles.foldr applyStyle inner

def run (r : TextRun) : Rendered :=
  applyStyles (.text r.text) r.styles

def runs (rs : List TextRun) : Rendered :=
  .join (rs.map run)

def title (rs : List TextRun) : Rendered :=
  (runs rs).element "span" []

/-- The text of a run as code. -/
def codeText (highlighter : Option Highlighter) (language : Option String) (text : String) :
    Rendered :=
  match highlighter, language with
  | some highlight, some name => .only (.verbatim (highlight text name))
  | _, _ => .text text

/-- A text of code inside a `span`. With a highlighter and a known language the highlighter writes
the text of each run; the markers go around it as usual. -/
def code (highlighter : Option Highlighter) (language : Option String) (rs : List TextRun) :
    Rendered :=
  let styled (r : TextRun) := applyStyles (codeText highlighter language r.text) r.styles
  (Rendered.join (rs.map styled)).element "span" []

end Inline
end Folio
