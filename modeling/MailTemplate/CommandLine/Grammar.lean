/-!
# The script language at a glance

The text that explains the two forms of a script, its elements and its values.
-/

namespace MailTemplate.CommandLine

/-- The lines of the explanation. -/
def grammarLines : List String :=
  ["EMAIL TEMPLATE SCRIPT",
   "=====================",
   "",
   "BRACE FORM",
   "----------",
   "EMAIL name=\"Launch\" styleVariant=outline theme=#3B82F6 \x7b",
   "  ROW type=hero padding=32,24 \x7b",
   "    COLUMN width=50% \x7b",
   "      HEADING level=h1 content=\"Big news\"",
   "      TEXT content=<p>Rich <b>text</b></p>",
   "    \x7d",
   "    COLUMN \x7b IMAGE src=logo alt=\"Logo\" \x7d",
   "  \x7d",
   "\x7d",
   "",
   "The EMAIL wrapper is optional; bare ROWs are accepted.",
   "",
   "TAG FORM",
   "--------",
   "<EMAIL name=\"Launch\">",
   "  <ROW type=footer>",
   "    <COLUMN><TEXT><p>Bye</p></TEXT></COLUMN>",
   "    <COLUMN><DIVIDER padding=8,0 /></COLUMN>",
   "  </ROW>",
   "</EMAIL>",
   "",
   "One document uses one form; mixing them is an error.",
   "",
   "ELEMENTS",
   "--------",
   "EMAIL ROW COLUMN",
   "TEXT HEADING IMAGE BUTTON LINK DIVIDER SOCIALS SURVEY TABLE LIST SPACER ICON",
   "",
   "VALUES",
   "------",
   "key=value         Literal; true/false and numbers are typed",
   "key=\"a b\"         Quoted, supports \\\" and \\\\",
   "padding=8,16      Box shorthand (padding, margin), CSS 1-4 value rules",
   "rows=[[\"A\",\"B\"]]  Embedded JSON",
   "content=<p>..</p> Inline HTML up to the matching closing tag",
   "",
   "ROWS AND COLUMNS",
   "----------------",
   "ROW type=header|footer|hero|gallery|cart|discount|cta",
   "ROW containerAlign=center containerBackgroundColor=#111",
   "COLUMN width=50%  or  COLUMN width=6 (of 12 grid units)",
   "Unsized columns share the remaining width."]

/-- The explanation. -/
def grammarText : String := "\n".intercalate grammarLines

end MailTemplate.CommandLine
