import MailTemplate.Page.Document
import MailTemplate.Script.Compile

/-!
# From script to page

A script is compiled, resolved for a view and written as a page.  Errors of several scripts are
reported together.
-/

namespace MailTemplate

/-- The errors that kept scripts from being rendered. -/
structure RenderError where
  errors : List Script.Error

/-- The text of all errors. -/
def RenderError.message (e : RenderError) : String :=
  "parse errors: " ++ "; ".intercalate (e.errors.map Script.Error.message)

/-- The page that a script describes, in a view. -/
def render (view : View) (source : String) : Except RenderError String :=
  match Script.compile source with
  | .ok d => .ok (Page.ofDocument view d)
  | .error e => .error ⟨[e]⟩

end MailTemplate
