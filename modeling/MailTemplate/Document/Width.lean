import MailTemplate.Attribute.Value
import MailTemplate.Document.Basic

/-!
# Widths in grid units and in percent

Twelve units are the whole width.  A percentage stands for the nearest whole number of units, at
least one and at most twelve.
-/

namespace MailTemplate

/-- One hundred. -/
def hundred : Binary64 := Binary64.ofNat 100

/-- The share of the whole width that a number of units takes, in percent. -/
def unitsToPercent (units : Nat) : Binary64 :=
  Binary64.ofNat units / Binary64.ofNat gridUnits * hundred

/-- The whole number of units nearest to a percentage, before any bound. -/
def nearestUnits (percent : Binary64) : Binary64 :=
  (percent / hundred * Binary64.ofNat gridUnits).round

/-- The units nearest to a percentage, from one to twelve; none (zero) if it has no value. -/
def percentToUnits (percent : Binary64) : Nat :=
  ((nearestUnits percent).clamp (Binary64.ofNat 1) (Binary64.ofNat gridUnits)).toByte

/-- A percentage with at most two places. -/
def percentText (percent : Binary64) : String :=
  numberText ((percent * hundred).round / hundred) ++ "%"

/-- The width of a column in percent. -/
def Column.widthText (column : Column) : String := percentText (unitsToPercent column.units)

end MailTemplate
