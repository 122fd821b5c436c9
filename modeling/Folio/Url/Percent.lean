/-!
# Folio.Url.Percent

Percent encoding of a text as one component of an address. Unreserved characters stand for
themselves; every byte of the UTF-8 form of any other character is written `%` and two upper-case
hexadecimal digits.
-/

namespace Folio
namespace Percent

/-- ASCII letters and digits, and the marks that a component may hold as they are. -/
def isUnreserved (c : Char) : Bool :=
  c.isAlphanum || "-_.!~*'()".toList.contains c

def hexDigit (n : Nat) : Char :=
  Char.ofNat (if n < 10 then 48 + n else 55 + n)

/-- A byte as `%` and two digits. -/
def encodeByte (b : UInt8) : List Char :=
  ['%', hexDigit (b.toNat / 16), hexDigit (b.toNat % 16)]

/-- A character as it stands in a component. -/
def encodeChar (c : Char) : List Char :=
  if isUnreserved c then [c] else (String.utf8EncodeChar c).flatMap encodeByte

def encode (s : List Char) : List Char :=
  s.flatMap encodeChar

end Percent
end Folio
