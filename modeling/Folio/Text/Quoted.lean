import Folio.Text.Hidden

/-!
# Folio.Text.Quoted

Text in double quotes for people to read. Quotes, backslashes and some controls have a short
escape, other hidden characters are given by their code point, and the rest stands for itself.
-/

namespace Folio
namespace Text

/-- A hidden character by its code point. -/
def codePoint (c : Char) : List Char :=
  '\\' :: 'u' :: '\x7b' :: (Nat.toDigits 16 c.toNat ++ ['\x7d'])

def quotedChar : Char → List Char
  | '\x00' => ['\\', '0']
  | '\t' => ['\\', 't']
  | '\r' => ['\\', 'r']
  | '\n' => ['\\', 'n']
  | '\\' => ['\\', '\\']
  | '"' => ['\\', '"']
  | c => if isHidden c then codePoint c else [c]

def quoted (s : String) : String :=
  String.ofList ('"' :: (s.toList.flatMap quotedChar ++ ['"']))

end Text
end Folio
