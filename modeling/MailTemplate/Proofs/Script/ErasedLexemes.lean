import MailTemplate.Proofs.Script.ErasedPlaces

/-!
# Places have no part in reading tokens

The spans of tokens are for errors only, like the places in a tree: the reader of nodes reads the
same nodes from tokens without spans, up to places, or stops for the same cause at the same token
(`takeNodes_erase`), and brackets are out of balance for the same cause (`balanceFault?_erase`).

Main result: what a source compiles to, or the cause of its error, is told by its form and its
tokens (`mapError_compileWith`).
-/

namespace MailTemplate.Script

/-- A token without its place. -/
def Lexeme.erase (l : Lexeme) : Lexeme := ⟨l.token, default⟩

/-- The attributes taken from tokens are the same without places, and so is what is left. -/
lemma takeAttributes_erase (lexemes : List Lexeme) : takeAttributes (lexemes.map Lexeme.erase) =
    ((takeAttributes lexemes).1.map Attribute.erase,
      (takeAttributes lexemes).2.map Lexeme.erase) := by
  induction lexemes with
  | nil => rfl
  | cons l lexemes ih =>
    obtain ⟨token, span⟩ := l
    cases token with
    | attr a =>
      rw [List.map_cons, Lexeme.erase, takeAttributes, takeAttributes, ih]
      rfl
    | _ => rfl

/-- Attributes without places end at the start of a source. -/
lemma endOfAttributes_erase (attributes : List Attribute) :
    endOfAttributes 0 (attributes.map Attribute.erase) = 0 := by
  unfold endOfAttributes
  rw [List.getLast?_map]
  cases attributes.getLast? with
  | none => rfl
  | some a => rfl

/-- What the reader of nodes finds, without places. -/
def eraseFound : Except Stop (List Node × List Lexeme) → Except Stop (List Node × List Lexeme)
  | .ok (nodes, rest) => .ok (nodes.map Node.erase, rest.map Lexeme.erase)
  | .error stop => .error ⟨stop.cause, stop.rest.map Lexeme.erase⟩

/-- A sequence finds the same without places if its parts do. -/
lemma eraseFound_bind {x : Except Stop (List Node × List Lexeme)}
    {f g : List Node × List Lexeme → Except Stop (List Node × List Lexeme)}
    (h : ∀ nodes rest, g (nodes.map Node.erase, rest.map Lexeme.erase) =
      eraseFound (f (nodes, rest))) : (eraseFound x >>= g) = eraseFound (x >>= f) := by
  cases x with
  | error stop => rfl
  | ok found => exact h found.1 found.2

section Rounds

variable {fuel : ℕ} (ih : ∀ lexemes, takeNodes fuel (lexemes.map Lexeme.erase) =
  eraseFound (takeNodes fuel lexemes)) (element : Element) (span : Span) (behind : List Lexeme)

include ih

/-- A round that starts with a keyword finds the same without places, if later ones do. -/
lemma takeNodes_erase_keyword : takeNodes (fuel + 1)
    ((⟨.keyword element, span⟩ :: behind : List Lexeme).map Lexeme.erase) =
      eraseFound (takeNodes (fuel + 1) (⟨.keyword element, span⟩ :: behind)) := by
  rw [List.map_cons, Lexeme.erase, takeNodes, takeNodes, takeAttributes_erase]
  obtain ⟨attributes, left⟩ := takeAttributes behind
  simp only
  -- the node without a body, and those behind it
  have hbare : ∀ left : List Lexeme,
      (takeNodes fuel (left.map Lexeme.erase) >>= fun found => pure
        (Node.mk element (attributes.map Attribute.erase) .empty
          ⟨0, endOfAttributes 0 (attributes.map Attribute.erase)⟩ :: found.1, found.2)) =
      eraseFound (takeNodes fuel left >>= fun found => pure
        (Node.mk element attributes .empty
          ⟨span.start, endOfAttributes span.stop attributes⟩ :: found.1, found.2)) := by
    intro left
    rw [ih, endOfAttributes_erase]
    exact eraseFound_bind fun nodes rest => rfl
  rcases left with _ | ⟨⟨token, place⟩, inside⟩
  · exact hbare []
  cases token with
  | openBrace =>
    simp only [List.map_cons, Lexeme.erase]
    rw [ih]
    refine eraseFound_bind fun children rest => ?_
    rcases rest with _ | ⟨⟨token, last⟩, after⟩
    · rfl
    cases token with
    | closeBrace =>
      simp only [List.map_cons, Lexeme.erase]
      rw [ih]
      refine eraseFound_bind fun nodes rest => ?_
      simp only [eraseFound, pure, Except.pure, List.map_cons, Node.erase, Body.erase,
        eraseAll_eq_map]
    | _ => rfl
  | _ => exact hbare (⟨_, place⟩ :: inside)

/-- A round that starts with an opening tag finds the same without places, if later ones do. -/
lemma takeNodes_erase_openTag : takeNodes (fuel + 1)
    ((⟨.openTag element, span⟩ :: behind : List Lexeme).map Lexeme.erase) =
      eraseFound (takeNodes (fuel + 1) (⟨.openTag element, span⟩ :: behind)) := by
  rw [List.map_cons, Lexeme.erase, takeNodes, takeNodes, takeAttributes_erase]
  obtain ⟨attributes, left⟩ := takeAttributes behind
  simp only
  rcases left with _ | ⟨⟨token, place⟩, inside⟩
  · rfl
  cases token with
  | selfClose =>
    simp only [List.map_cons, Lexeme.erase]
    rw [ih]
    exact eraseFound_bind fun nodes rest => rfl
  | tagEnd =>
    simp only [List.map_cons, Lexeme.erase]
    by_cases hcontent : ∃ text textPlace left, inside = ⟨.content text, textPlace⟩ :: left
    case' pos => obtain ⟨text, textPlace, rest, rfl⟩ := hcontent
    case' neg =>
      split
      case h_1 text textPlace left heq =>
        obtain ⟨⟨token, place'⟩, left, rfl, htoken, -⟩ := List.map_eq_cons_iff.mp heq
        obtain rfl : token = .content text := congrArg Lexeme.token htoken
        exact absurd ⟨text, place', left, rfl⟩ hcontent
      split
      case h_1 => exact absurd ⟨_, _, _, rfl⟩ hcontent
      rw [ih]
      refine eraseFound_bind fun children rest => ?_
      rw [← eraseAll_eq_map]
    -- after a text and after children come the closing tag and the nodes behind it
    all_goals
      rcases rest with _ | ⟨⟨token, last⟩, after⟩
      · rfl
      cases token with
      | closeTag closing =>
        simp only [List.map_cons, Lexeme.erase, pure_bind]
        split
        · rw [ih]
          exact eraseFound_bind fun nodes rest => rfl
        · rfl
      | _ => rfl
  | _ => rfl

end Rounds

/-- The reader of nodes finds the same without places. -/
theorem takeNodes_erase (fuel : ℕ) (lexemes : List Lexeme) :
    takeNodes fuel (lexemes.map Lexeme.erase) = eraseFound (takeNodes fuel lexemes) := by
  induction fuel generalizing lexemes with
  | zero => rfl
  | succ fuel ih =>
    rcases lexemes with _ | ⟨⟨token, span⟩, behind⟩
    · rfl
    cases token with
    | keyword element => exact takeNodes_erase_keyword ih element span behind
    | openTag element => exact takeNodes_erase_openTag ih element span behind
    | _ => rfl

/-- Tokens hold the same nodes without places, or stop the reader for the same cause. -/
theorem nodesOf_erase (lexemes : List Lexeme) : nodesOf (lexemes.map Lexeme.erase) =
    match nodesOf lexemes with
    | .ok nodes => .ok (nodes.map Node.erase)
    | .error stop => .error ⟨stop.cause, stop.rest.map Lexeme.erase⟩ := by
  unfold nodesOf
  rw [takeNodes_erase, List.length_map]
  cases takeNodes (lexemes.length + 1) lexemes with
  | error stop => rfl
  | ok found =>
    obtain ⟨nodes, rest⟩ := found
    cases rest with
    | nil => rfl
    | cons l rest => rfl

/-! ### Balance -/

/-- An opening bracket without its place. -/
def eraseOpener (bracket : Opener × Span) : Opener × Span := (bracket.1, default)

/-- A fault of balance without its place. -/
def BalanceFault.erase (fault : BalanceFault) : BalanceFault := ⟨fault.cause, default, fault.runsOn⟩

/-- Brackets are out of balance for the same cause without places. -/
theorem balanceFault?_erase (stack : List (Opener × Span)) (keyword : ℕ) (lexemes : List Lexeme) :
    balanceFault? (stack.map eraseOpener) 0 (lexemes.map Lexeme.erase) =
      (balanceFault? stack keyword lexemes).map BalanceFault.erase := by
  induction lexemes generalizing stack keyword with
  | nil =>
    rcases stack with _ | ⟨⟨opener, place⟩, stack⟩
    · rfl
    cases opener with
    | brace => rfl
    | tag element => rfl
  | cons l lexemes ih =>
    obtain ⟨token, span⟩ := l
    cases token with
    | keyword element => exact ih stack span.start
    | attr a => exact ih stack keyword
    | openBrace => exact ih ((.brace, ⟨keyword, span.stop⟩) :: stack) keyword
    | closeBrace =>
      rcases stack with _ | ⟨⟨opener, place⟩, stack⟩
      · rfl
      cases opener with
      | brace => exact ih stack keyword
      | tag element => rfl
    | openTag element => exact ih ((.tag element, span) :: stack) keyword
    | tagEnd => exact ih stack keyword
    | selfClose =>
      have hmore := ih stack.tail keyword
      rw [List.map_tail] at hmore
      exact hmore
    | closeTag element =>
      rcases stack with _ | ⟨⟨opener, place⟩, stack⟩
      · rfl
      cases opener with
      | brace => rfl
      | tag opened =>
        simp only [List.map_cons, Lexeme.erase, eraseOpener, balanceFault?]
        split
        · exact ih stack keyword
        · rfl
    | content text => exact ih stack keyword

/-! ### Whole sources -/

/-- What tokens of a form compile to, wherever they stand. -/
def compileTokens (form : Form) (defaults : Defaults) (tokens : List Token) :
    Except Cause Document :=
  let lexemes : List Lexeme := tokens.map fun token => ⟨token, default⟩
  match balanceFault? [] 0 lexemes with
  | some fault => .error fault.cause
  | none =>
    match nodesOf lexemes with
    | .ok nodes => placeless (Tree.compile [] defaults ⟨form, nodes⟩)
    | .error stop => .error stop.cause

/-- What a source compiles to, or the cause of its error, is told by its form and its tokens. -/
theorem mapError_compileWith {source : String} {lexemes : List Lexeme}
    (h : lex source.toList = .ok lexemes) (defaults : Defaults) :
    (compileWith defaults source).mapError Error.cause =
      compileTokens (formOf source.toList) defaults (lexemes.map Lexeme.token) := by
  have herase : ((lexemes.map Lexeme.token).map fun token => (⟨token, default⟩ : Lexeme)) =
      lexemes.map Lexeme.erase := by
    rw [List.map_map]
    rfl
  have hbalance : balanceFault? [] 0 (lexemes.map Lexeme.erase) =
      (balanceFault? [] 0 lexemes).map BalanceFault.erase := balanceFault?_erase [] 0 lexemes
  unfold compileWith compileTokens Tree.ofSource
  simp only [h, ok_bind, herase, hbalance, nodesOf_erase]
  cases balanceFault? [] 0 lexemes with
  | some fault => rfl
  | none =>
    cases nodesOf lexemes with
    | error stop => rfl
    | ok nodes =>
      simp only [Option.map_none, pure, Except.pure, ok_bind]
      rw [placeless_compileTree_erase [] source.toList]
      cases Tree.compile source.toList defaults ⟨formOf source.toList, nodes⟩ with
      | error fault => rfl
      | ok d => rfl

end MailTemplate.Script
