import MailTemplate.Theme.Color

/-!
# Theme palettes

A palette is derived from one seed colour: a ramp of eight levels from light to dark with the seed
at the fifth, slots named for their use, and a pair of gradients that depend on the family of the
seed's hue.  A seed that is no colour counts as the default seed.
-/

namespace MailTemplate

/-- The coarse families of hues. -/
inductive ColorFamily where
  | red
  | green
  | blue
  | yellow
  | orange
  | pink
  | teal
  | indigo
  | purple
  | gray
  deriving DecidableEq, Repr

/-- A gradient between two colours. -/
structure Gradient where
  start : Color
  stop : Color
  deriving DecidableEq, Repr

namespace Gradient

/-- The gradient in a style declaration, running diagonally. -/
def css (g : Gradient) : String :=
  "linear-gradient(135deg, " ++ g.start.hex ++ " 0%, " ++ g.stop.hex ++ " 100%)"

end Gradient

namespace ColorFamily

/-- The name of a family. -/
def name : ColorFamily → String
  | red => "red"
  | green => "green"
  | blue => "blue"
  | yellow => "yellow"
  | orange => "orange"
  | pink => "pink"
  | teal => "teal"
  | indigo => "indigo"
  | purple => "purple"
  | gray => "gray"

/-- The light gradient of a family. -/
def lightGradient : ColorFamily → Gradient
  | red => ⟨⟨0xFE, 0xE2, 0xE2⟩, ⟨0xFF, 0xE4, 0xE6⟩⟩
  | green => ⟨⟨0xDC, 0xFC, 0xE7⟩, ⟨0xD1, 0xFA, 0xE5⟩⟩
  | blue => ⟨⟨0xDB, 0xEA, 0xFE⟩, ⟨0xE0, 0xF2, 0xFE⟩⟩
  | yellow => ⟨⟨0xFE, 0xF9, 0xC3⟩, ⟨0xFE, 0xF3, 0xC7⟩⟩
  | orange => ⟨⟨0xFF, 0xED, 0xD5⟩, ⟨0xFE, 0xF3, 0xC7⟩⟩
  | pink => ⟨⟨0xFC, 0xE7, 0xF3⟩, ⟨0xFA, 0xE8, 0xFF⟩⟩
  | teal => ⟨⟨0xCC, 0xFB, 0xF1⟩, ⟨0xCF, 0xFA, 0xFE⟩⟩
  | indigo => ⟨⟨0xE0, 0xE7, 0xFF⟩, ⟨0xED, 0xE9, 0xFE⟩⟩
  | purple => ⟨⟨0xF3, 0xE8, 0xFF⟩, ⟨0xFC, 0xE7, 0xF3⟩⟩
  | gray => ⟨⟨0xF4, 0xF4, 0xF5⟩, ⟨0xE4, 0xE4, 0xE7⟩⟩

/-- The dark gradient of a family. -/
def darkGradient : ColorFamily → Gradient
  | red => ⟨⟨0xFC, 0xA5, 0xA5⟩, ⟨0xFD, 0xA4, 0xAF⟩⟩
  | green => ⟨⟨0x86, 0xEF, 0xAC⟩, ⟨0x6E, 0xE7, 0xB7⟩⟩
  | blue => ⟨⟨0x93, 0xC5, 0xFD⟩, ⟨0x7D, 0xD3, 0xFC⟩⟩
  | yellow => ⟨⟨0xFD, 0xE0, 0x47⟩, ⟨0xFC, 0xD3, 0x4D⟩⟩
  | orange => ⟨⟨0xFD, 0xBA, 0x74⟩, ⟨0xFC, 0xD3, 0x4D⟩⟩
  | pink => ⟨⟨0xF9, 0xA8, 0xD4⟩, ⟨0xF0, 0xAB, 0xFC⟩⟩
  | teal => ⟨⟨0x5E, 0xEA, 0xD4⟩, ⟨0x67, 0xE8, 0xF9⟩⟩
  | indigo => ⟨⟨0xA5, 0xB4, 0xFC⟩, ⟨0xC4, 0xB5, 0xFD⟩⟩
  | purple => ⟨⟨0xD8, 0xB4, 0xFE⟩, ⟨0xF9, 0xA8, 0xD4⟩⟩
  | gray => ⟨⟨0xD4, 0xD4, 0xD8⟩, ⟨0xA1, 0xA1, 0xAA⟩⟩

end ColorFamily

namespace Color

/-- The seed in use when none is given or the given one is no colour. -/
def defaultSeed : Color := ⟨0x8E, 0x6F, 0xF7⟩

/-- The family of a colour: the first rule of channel dominance that holds.  The default seed, which
the rules would call blue, is purple. -/
def family (c : Color) : ColorFamily :=
  let r := c.red.toNat
  let g := c.green.toNat
  let b := c.blue.toNat
  let highest := max (max r g) b
  let lowest := min (min r g) b
  if c = defaultSeed then .purple
  else if highest < lowest + 30 then .gray
  else if 200 < r ∧ 180 < g ∧ b < 120 then .yellow
  else if 200 < r ∧ 100 ≤ g ∧ g ≤ 180 ∧ b < 100 then .orange
  else if 180 < r ∧ 120 < b ∧ g < b then .pink
  else if 3 * max r g < 2 * b then .blue
  else if 3 * max r b < 2 * g then .green
  else if 3 * max g b < 2 * r then .red
  else if 120 < g ∧ 120 < b ∧ 10 * r < 7 * min g b then .teal
  else if r < b ∧ g < b ∧ r < g + 40 ∧ g < r + 40 then .indigo
  else if 13 * g < 10 * r ∧ 13 * g < 10 * b then .purple
  else if highest = r then .red
  else if highest = g then .green
  else .blue

end Color

/-- The eight levels of a palette, from light to dark. -/
structure Ramp where
  level0 : Color
  level1 : Color
  level2 : Color
  level3 : Color
  level4 : Color
  level5 : Color
  level6 : Color
  level7 : Color
  deriving DecidableEq, Repr

namespace Ramp

/-- The levels in order. -/
def toList (r : Ramp) : List Color :=
  [r.level0, r.level1, r.level2, r.level3, r.level4, r.level5, r.level6, r.level7]

/-- The ramp of black. -/
def ofBlack : Ramp :=
  ⟨⟨0xF4, 0xF4, 0xF5⟩, ⟨0xE4, 0xE4, 0xE7⟩, ⟨0xD4, 0xD4, 0xD8⟩, ⟨0xA1, 0xA1, 0xAA⟩,
   ⟨0x00, 0x00, 0x00⟩, ⟨0x18, 0x18, 0x1B⟩, ⟨0x27, 0x27, 0x2A⟩, ⟨0x3F, 0x3F, 0x46⟩⟩

/-- The ramp of white. -/
def ofWhite : Ramp :=
  ⟨⟨0xFF, 0xFF, 0xFF⟩, ⟨0xFA, 0xFA, 0xFA⟩, ⟨0xF4, 0xF4, 0xF5⟩, ⟨0xE4, 0xE4, 0xE7⟩,
   ⟨0xFF, 0xFF, 0xFF⟩, ⟨0xD4, 0xD4, 0xD8⟩, ⟨0xA1, 0xA1, 0xAA⟩, ⟨0x71, 0x71, 0x7A⟩⟩

/-- The ramp of a colour: four lighter levels, the colour, and three darker ones. -/
def ofColor (c : Color) : Ramp :=
  let hundredths (n : Nat) := Binary64.ofDecimal false n (-2)
  if c = Color.black then ofBlack
  else if c = Color.white then ofWhite
  else
    ⟨c.lighten (hundredths 95), c.lighten (hundredths 85), c.lighten (hundredths 70),
     c.lighten (hundredths 40), c, c.darken (hundredths 20), c.darken (hundredths 40),
     c.darken (hundredths 60)⟩

end Ramp

/-- The colours that a theme brings to a document. -/
structure Palette where
  seed : Color
  family : ColorFamily
  light : Color
  base : Color
  action : Color
  textColor : Color
  gradientLight : Gradient
  gradientDark : Gradient
  levels : Ramp
  deriving DecidableEq, Repr

namespace Palette

/-- The palette of a colour. -/
def ofColor (c : Color) : Palette :=
  let levels := Ramp.ofColor c
  { seed := c
    family := c.family
    light := levels.level1
    base := levels.level4
    action := levels.level5
    textColor := c.readableOn
    gradientLight := c.family.lightGradient
    gradientDark := c.family.darkGradient
    levels }

/-- The palette of a seed. -/
def ofSeed (seed : String) : Palette := ofColor ((Color.parse? seed).getD Color.defaultSeed)

/-- The JSON form of a gradient. -/
def gradientJson (g : Gradient) : Json :=
  .object [("start", .text g.start.hex), ("end", .text g.stop.hex)]

/-- The JSON form of a palette. -/
def toJson (p : Palette) : Json :=
  .object
    [("seed", .text p.seed.hex), ("family", .text p.family.name), ("light", .text p.light.hex),
     ("base", .text p.base.hex), ("action", .text p.action.hex),
     ("textColor", .text p.textColor.hex), ("gradientLight", gradientJson p.gradientLight),
     ("gradientDark", gradientJson p.gradientDark),
     ("levels", .array (p.levels.toList.map fun c => .text c.hex))]

end Palette

end MailTemplate
