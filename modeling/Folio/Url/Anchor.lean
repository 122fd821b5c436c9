import Folio.BlockId
import Folio.Text.DecimalDigit
import Folio.Url.Asset

/-!
# Folio.Url.Anchor

Links to a block of a page. Such a link is the host, a path on one line, `#` and a block id; in
rendered pages it becomes the local anchor of the block. Any other link stays as it is.
-/

namespace Folio
namespace Anchor

/-- The parts before and after the last occurrence of a character. -/
def splitAtLast (sep : Char) : List Char → Option (List Char × List Char)
  | [] => none
  | c :: rest =>
    match splitAtLast sep rest with
    | some (front, back) => some (c :: front, back)
    | none => if c = sep then some ([], rest) else none

/-- The characters of a block id in a link: decimal digits, the letters `a` to `f`, dashes. -/
def isIdChar (c : Char) : Bool :=
  c == '-' || ('a' ≤ c && c ≤ 'f') || Text.isDecimalDigit c

/-- The block id that a link to a block ends in. -/
def blockRef? (url : String) : Option (List Char) := do
  let rest ← Asset.after? (BlockId.host ++ "/").toList url.toList
  let (path, ref) ← splitAtLast '#' rest
  if !path.isEmpty && !path.contains '\n' && !ref.isEmpty && ref.all isIdChar then some ref
  else none

/-- The local form of a link to a block. -/
def localAnchor (url : String) : String :=
  match blockRef? url with
  | some ref => "#" ++ BlockId.undashed (String.ofList ref)
  | none => url

end Anchor
end Folio
