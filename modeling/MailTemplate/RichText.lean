import MailTemplate.Markup.Construction
import MailTemplate.Markup.Escape
import MailTemplate.Text.Blank

/-!
# Rich text

The content of a block is markup.  `normalize` writes it so that no tag of it is left open and none
closes what stands around it: it reads the text as nodes and writes these.  Text without a less-than
sign and without an ampersand is escaped as it stands.
-/

namespace MailTemplate.RichText

/-- The text may hold a tag or a reference. -/
def hasMarkup (cs : List Char) : Bool := cs.contains '<' || cs.contains '&'

/-- The text as well-formed markup. -/
def normalize (s : String) : String :=
  let cs := s.toList
  if hasMarkup cs then String.ofList (Markup.writeNodes none (Markup.readNodes cs))
  else String.ofList (Markup.escapeText cs)

/-- The words of a text, blanks between them left out. -/
def words (cs : List Char) : List (List Char) :=
  (Text.splitOn Text.isBlank cs).filter fun word => !word.isEmpty

/-- The words that the markup shows, with one blank between two. -/
def plain (s : String) : String :=
  let texts := Markup.textsOf (Markup.readNodes s.toList)
  String.ofList ([' '].intercalate (words ([' '].intercalate texts)))

/-- Text for a place between tags.  Text in which nothing has to be escaped is left as it is. -/
def escaped (s : String) : String :=
  if s.toList.any ('&' :: Markup.marks).contains then String.ofList (Markup.escapeText s.toList)
  else s

/-- The text with every occurrence of a character replaced. -/
def replaceChar (c : Char) (replacement cs : List Char) : List Char :=
  cs.flatMap fun d => if d = c then replacement else [d]

/-- Text for a quoted attribute.  Line ends are replaced after everything else. -/
def escapedValue (s : String) : String :=
  let cs := replaceChar '\n' "&#10;".toList (escaped s).toList
  String.ofList (replaceChar '\r' "&#13;".toList cs)

end MailTemplate.RichText
