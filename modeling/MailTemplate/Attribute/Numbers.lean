import MailTemplate.Binary64.Reader
import MailTemplate.Text.Blank

/-!
# Lists of numbers

The lists that box shorthands take: numbers separated by commas or blanks, each with or without the
unit of pixels.
-/

namespace MailTemplate

/-- The numbers of a list; none if a part of it is no number. -/
def numberList? (raw : String) : Option (List Binary64) :=
  let parts := (Text.splitOn (fun c => c == ',' || Text.isBlank c) raw.toList).filter
    fun part => !part.isEmpty
  parts.mapM fun part => Binary64.read? (Text.dropTails ['p', 'x'] part)

end MailTemplate
