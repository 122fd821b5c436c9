/-!
# Folio.Color

Theme colors. Blocks and inline markers name a color by a token: nine hues (`red`) and the same
hues as a background (`red_background`). Each has a class in the output, `color-red` or
`background-red`. `teal` carries the class of green, and `green` is an older token for it. A token
outside the palette passes through as its own class.

* `ThemeColor.parse?`, `ThemeColor.token`: reading a token and writing the canonical one.
* `ThemeColor.className`, `resolveClass`: the class of a color that was read before.
* `resolve`: the class of a token, straight from the palette.
-/

namespace Folio

inductive Hue where
  | gray | brown | orange | yellow | teal | blue | purple | pink | red
deriving DecidableEq, Repr

/-- A color of text or of its background, or a token that the palette does not know. -/
inductive ThemeColor where
  | ink (hue : Hue)
  | background (hue : Hue)
  | other (token : String)
deriving DecidableEq, Repr

structure Swatch where
  token : String
  color : ThemeColor
  className : String

/-- All known tokens. Of two entries for one color the first holds the canonical token. -/
def palette : List Swatch :=
  [⟨"gray", .ink .gray, "color-gray"⟩,
   ⟨"brown", .ink .brown, "color-brown"⟩,
   ⟨"orange", .ink .orange, "color-orange"⟩,
   ⟨"yellow", .ink .yellow, "color-yellow"⟩,
   ⟨"teal", .ink .teal, "color-green"⟩,
   ⟨"green", .ink .teal, "color-green"⟩,
   ⟨"blue", .ink .blue, "color-blue"⟩,
   ⟨"purple", .ink .purple, "color-purple"⟩,
   ⟨"pink", .ink .pink, "color-pink"⟩,
   ⟨"red", .ink .red, "color-red"⟩,
   ⟨"gray_background", .background .gray, "background-gray"⟩,
   ⟨"brown_background", .background .brown, "background-brown"⟩,
   ⟨"orange_background", .background .orange, "background-orange"⟩,
   ⟨"yellow_background", .background .yellow, "background-yellow"⟩,
   ⟨"teal_background", .background .teal, "background-green"⟩,
   ⟨"green_background", .background .teal, "background-green"⟩,
   ⟨"blue_background", .background .blue, "background-blue"⟩,
   ⟨"purple_background", .background .purple, "background-purple"⟩,
   ⟨"pink_background", .background .pink, "background-pink"⟩,
   ⟨"red_background", .background .red, "background-red"⟩]

def swatchOf? (token : String) : Option Swatch :=
  palette.find? (·.token == token)

namespace ThemeColor

/-- The color of a token. The empty token means no color. -/
def parse? (token : String) : Option ThemeColor :=
  if token.isEmpty then none
  else match swatchOf? token with
    | some s => some s.color
    | none => some (.other token)

def swatch? (color : ThemeColor) : Option Swatch :=
  palette.find? (·.color == color)

/-- The canonical token. -/
def token : ThemeColor → String
  | other t => t
  | known => match known.swatch? with
    | some s => s.token
    | none => ""

def className : ThemeColor → String
  | other t => t
  | known => match known.swatch? with
    | some s => s.className
    | none => ""

end ThemeColor

/-- The class of a token, or `default` where there is none. -/
def resolve (token : Option String) (default : String) : String :=
  match token with
  | none => default
  | some t =>
    if t.isEmpty then default
    else match swatchOf? t with
      | some s => s.className
      | none => t

/-- The class of a color, or `default` where there is none. -/
def resolveClass (color : Option ThemeColor) (default : String) : String :=
  match color with
  | none => default
  | some c => c.className

end Folio
