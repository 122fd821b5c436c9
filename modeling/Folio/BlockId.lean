/-!
# Folio.BlockId

Identifiers of blocks. A block is named by 32 characters, written either in one piece or in five
groups joined by dashes (`8-4-4-4-12`). Both spellings name the same block.

* `dashed`: the grouped spelling, which records are keyed by.
* `undashed`: the spelling without dashes, which element ids and addresses use.
* `uri`: the canonical address of a block.

Nothing asks for hexadecimal digits: only lengths and dashes count.
-/

namespace Folio
namespace BlockId

/-- The site that documents and uploads live on. -/
def host : String := "https://www.notion.so"

def undashed (s : String) : String :=
  String.ofList (s.toList.filter (· != '-'))

/-- Thirty-six characters with at least one dash pass for the grouped spelling. -/
def isDashed (s : String) : Bool :=
  s.toList.length == 36 && s.toList.contains '-'

/-- Whether the characters that are left without dashes are 32, all of them ASCII. -/
def isBare (cs : List Char) : Bool :=
  cs.length == 32 && cs.all (·.toNat < 128)

/-- Cuts after 8, 12, 16 and 20 characters, with a dash at each cut. -/
def group (cs : List Char) : List Char :=
  cs.take 8 ++ '-' :: ((cs.drop 8).take 4 ++ '-' :: ((cs.drop 12).take 4 ++ '-' ::
    ((cs.drop 16).take 4 ++ '-' :: cs.drop 20)))

/-- The grouped spelling. A text that already is one, or does not come down to 32 ASCII
characters, stays as it is. -/
def dashed (s : String) : String :=
  if isDashed s then s
  else if isBare (undashed s).toList then String.ofList (group (undashed s).toList)
  else s

/-- The address of a block or page. -/
def uri (id : String) : String :=
  host ++ "/" ++ undashed id

end BlockId
end Folio
