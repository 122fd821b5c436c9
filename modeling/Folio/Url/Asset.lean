import Folio.BlockId
import Folio.Decimal.Text
import Folio.Url.Percent

/-!
# Folio.Url.Asset

Addresses of images and files. An upload lives in signed storage and is reachable only through the
`signed` route of the host, with the owning block as a parameter. A path of the host gets the host
in front. Every other address is public already.

* `isSecure`, `isRelative`: the two classes that need another address.
* `imageUrl`, `fileUrl`: the public address, for images with the width as a hint.
-/

namespace Folio
namespace Asset

/-- Whether `marker` comes after a gap of at least one character, none of them a line feed. -/
def followsGap (marker : List Char) : List Char → Bool
  | [] => false
  | c :: rest => c != '\n' && (marker.isPrefixOf rest || followsGap marker rest)

/-- The text after `start`, if the text begins with it. -/
def after? (start s : List Char) : Option (List Char) :=
  if start.isPrefixOf s then some (s.drop start.length) else none

/-- An upload in signed storage: `https://s3`, some host name, and the storage path. -/
def isSecure (url : String) : Bool :=
  match after? "https://s3".toList url.toList with
  | some rest => followsGap ".amazonaws.com/secure.notion-static.com/".toList rest
  | none => false

/-- A path below `/image/` or `/images/`. -/
def isRelative (url : String) : Bool :=
  "/image/".toList.isPrefixOf url.toList || "/images/".toList.isPrefixOf url.toList

/-- The first occurrence of `old` replaced by `new`. -/
def replaceFirst (old new : List Char) : List Char → List Char
  | [] => []
  | c :: rest =>
    if old.isPrefixOf (c :: rest) then new ++ (c :: rest).drop old.length
    else c :: replaceFirst old new rest

/-- An address without its query, the dotted name of a regional store written with a dash. -/
def clean (url : String) : List Char :=
  replaceFirst "s3.us-west".toList "s3-us-west".toList (url.toList.takeWhile (· != '?'))

/-- The signed route to an upload, without parameters. -/
def signedBase (url : String) : String :=
  BlockId.host ++ "/signed/" ++ String.ofList (Percent.encode (clean url))

/-- The distance from one to the next double, `2 ^ (-52)`. -/
def spacingAtOne : Float := Float.ofBits 0x3CB0000000000000

/-- Only a finite width that is not as good as zero is passed on. -/
def usableWidth (width : Float) : Bool :=
  width.isFinite && spacingAtOne < width.abs

def signedQuery (blockId : String) (width : Option Float) : String :=
  let owner := "table=block&id=" ++ blockId
  match width.filter usableWidth with
  | some w => "width=" ++ FloatStyle.plain.write w ++ "&" ++ owner
  | none => owner

def imageUrl (blockId url : String) (width : Option Float) : String :=
  if isSecure url then signedBase url ++ "?" ++ signedQuery blockId width
  else if isRelative url then BlockId.host ++ url
  else url

/-- The public address of a file, a video, a sound or an embedded page: as for images, without
a width. -/
def fileUrl (blockId url : String) : String :=
  imageUrl blockId url none

end Asset
end Folio
