import MailTemplate.Keyed
import MailTemplate.Text.Affix

/-!
# Drawings and formulas

Markup may hold drawings (SVG) and formulas (MathML).  Their elements are foreign: they have names
of their own, some with capitals, which no tag keeps, and attributes with prefixes.  `Space` says to
which language an element belongs.

Elements are told apart by their qualified names.  The name of a tag holds no blank, so no element
of plain markup has the qualified name of a foreign one.
-/

namespace MailTemplate.Markup

/-- The language of an element. -/
inductive Space where
  | html
  | svg
  | math
  deriving DecidableEq, Repr

/-- The elements of drawings whose names have capitals. -/
def drawingNames : List String :=
  ["altGlyph", "altGlyphDef", "altGlyphItem", "animateColor", "animateMotion", "animateTransform",
   "clipPath", "feBlend", "feColorMatrix", "feComponentTransfer", "feComposite",
   "feConvolveMatrix", "feDiffuseLighting", "feDisplacementMap", "feDistantLight",
   "feDropShadow", "feFlood", "feFuncA", "feFuncB", "feFuncG", "feFuncR", "feGaussianBlur",
   "feImage", "feMerge", "feMergeNode", "feMorphology", "feOffset", "fePointLight",
   "feSpecularLighting", "feSpotLight", "feTile", "feTurbulence", "foreignObject", "glyphRef",
   "linearGradient", "radialGradient", "textPath"]

/-- The attributes of drawings whose names have capitals. -/
def drawingAttributes : List String :=
  ["attributeName", "attributeType", "baseFrequency", "baseProfile", "calcMode", "clipPathUnits",
   "diffuseConstant", "edgeMode", "filterUnits", "glyphRef", "gradientTransform",
   "gradientUnits", "kernelMatrix", "kernelUnitLength", "keyPoints", "keySplines", "keyTimes",
   "lengthAdjust", "limitingConeAngle", "markerHeight", "markerUnits", "markerWidth",
   "maskContentUnits", "maskUnits", "numOctaves", "pathLength", "patternContentUnits",
   "patternTransform", "patternUnits", "pointsAtX", "pointsAtY", "pointsAtZ", "preserveAlpha",
   "preserveAspectRatio", "primitiveUnits", "refX", "refY", "repeatCount", "repeatDur",
   "requiredExtensions", "requiredFeatures", "specularConstant", "specularExponent",
   "spreadMethod", "startOffset", "stdDeviation", "stitchTiles", "surfaceScale",
   "systemLanguage", "tableValues", "targetX", "targetY", "textLength", "viewBox", "viewTarget",
   "xChannelSelector", "yChannelSelector", "zoomAndPan"]

/-- The attributes of formulas whose names have capitals. -/
def formulaAttributes : List String := ["definitionURL"]

/-- The attributes of foreign elements that are written behind all others, in this order. -/
def prefixedAttributes : List String :=
  ["xmlns", "xlink:actuate", "xlink:arcrole", "xlink:href", "xlink:role", "xlink:show",
   "xlink:title", "xlink:type", "xml:base", "xml:lang", "xml:space", "xmlns:xlink"]

/-- A name in the spelling of `spellings`, which may have capitals where it has none. -/
def respelled (spellings : List String) (name : String) : String :=
  (spellings.find? fun s => Text.lowerAscii s.toList == name.toList).getD name

namespace Space

/-- The name by which an element is told apart from those of other languages. -/
def qualified : Space → String → String
  | html, name => name
  | svg, name => "svg " ++ name
  | math, name => "math " ++ name

/-- The name of an element as its language spells it. -/
def elementName : Space → String → String
  | svg, name => respelled drawingNames name
  | _, name => name

/-- The name of an attribute as the language of its element spells it. -/
def attributeName : Space → String → String
  | html, name => name
  | svg, name => respelled drawingAttributes name
  | math, name => respelled formulaAttributes name

/-- Attributes in the order in which they are written. -/
def inOrder (space : Space) (attributes : List (String × String)) : List (String × String) :=
  let sorted := Keyed.ofList attributes
  match space with
  | html => sorted
  | _ =>
    let isPrefixed (named : String × String) : Bool := prefixedAttributes.contains named.1
    sorted.filter (fun named => !isPrefixed named) ++
      prefixedAttributes.filterMap fun name => sorted.find? fun named => named.1 == name

end Space

end MailTemplate.Markup
