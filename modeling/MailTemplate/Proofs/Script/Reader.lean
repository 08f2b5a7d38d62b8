import Mathlib.Tactic
import MailTemplate.Proofs.Success
import MailTemplate.Script.Tree

/-!
# One round of the reader of nodes

With some fuel, the reader of nodes finds no node at the front of a list of tokens, or it reads the
first node (`ReadsFirst`) and goes on behind it, or it stops in the first node, which has been
opened (`Opens`).

Main result: these are all the rounds that there are (`takeNodes_round`).
-/

namespace MailTemplate.Script

/-- The first node of a list of tokens is read with its body; `after` stands behind it. -/
inductive ReadsFirst (fuel : ℕ) : List Lexeme → Node → (after : List Lexeme) → Prop
  | bare {element : Element} {span : Span} {behind : List Lexeme} :
      ReadsFirst fuel (⟨.keyword element, span⟩ :: behind)
        (.mk element (takeAttributes behind).1 .empty
          ⟨span.start, endOfAttributes span.stop (takeAttributes behind).1⟩)
        (takeAttributes behind).2
  | braces {element : Element} {span place last : Span} {behind inside after : List Lexeme}
      {children : List Node} (hbody : (takeAttributes behind).2 = ⟨.openBrace, place⟩ :: inside)
      (hinside : takeNodes fuel inside = .ok (children, ⟨.closeBrace, last⟩ :: after)) :
      ReadsFirst fuel (⟨.keyword element, span⟩ :: behind)
        (.mk element (takeAttributes behind).1 (.children children) ⟨span.start, last.stop⟩) after
  | selfClosed {element : Element} {span last : Span} {behind after : List Lexeme}
      (hbody : (takeAttributes behind).2 = ⟨.selfClose, last⟩ :: after) :
      ReadsFirst fuel (⟨.openTag element, span⟩ :: behind)
        (.mk element (takeAttributes behind).1 .empty ⟨span.start, last.stop⟩) after
  | content {element : Element} {span place textPlace last : Span} {text : String}
      {behind after : List Lexeme} (hbody : (takeAttributes behind).2 =
        ⟨.tagEnd, place⟩ :: ⟨.content text, textPlace⟩ :: ⟨.closeTag element, last⟩ :: after) :
      ReadsFirst fuel (⟨.openTag element, span⟩ :: behind)
        (.mk element (takeAttributes behind).1 (.content text) ⟨span.start, last.stop⟩) after
  | tags {element : Element} {span place last : Span} {behind inside after : List Lexeme}
      {children : List Node} (hbody : (takeAttributes behind).2 = ⟨.tagEnd, place⟩ :: inside)
      (hplain : ∀ text textPlace left, inside ≠ ⟨.content text, textPlace⟩ :: left)
      (hinside : takeNodes fuel inside = .ok (children, ⟨.closeTag element, last⟩ :: after)) :
      ReadsFirst fuel (⟨.openTag element, span⟩ :: behind)
        (.mk element (takeAttributes behind).1 (.children children) ⟨span.start, last.stop⟩) after

/-- The tokens open an element, and `inside` is what follows: the rest of its opening tag, or what
stands in it. -/
inductive Opens : List Lexeme → (inside : List Lexeme) → Prop
  | braces {element : Element} {span place : Span} {behind inside : List Lexeme}
      (hbody : (takeAttributes behind).2 = ⟨.openBrace, place⟩ :: inside) :
      Opens (⟨.keyword element, span⟩ :: behind) inside
  | tag {element : Element} {span : Span} {behind : List Lexeme} :
      Opens (⟨.openTag element, span⟩ :: behind) (takeAttributes behind).2
  | content {element : Element} {span place textPlace : Span} {text : String}
      {behind inside : List Lexeme} (hbody : (takeAttributes behind).2 =
        ⟨.tagEnd, place⟩ :: ⟨.content text, textPlace⟩ :: inside) :
      Opens (⟨.openTag element, span⟩ :: behind) inside
  | tags {element : Element} {span place : Span} {behind inside : List Lexeme}
      (hbody : (takeAttributes behind).2 = ⟨.tagEnd, place⟩ :: inside)
      (hplain : ∀ text textPlace left, inside ≠ ⟨.content text, textPlace⟩ :: left) :
      Opens (⟨.openTag element, span⟩ :: behind) inside

/-- The reader of nodes stops in what an element holds, or behind it. -/
def StopsInside (fuel : ℕ) (inside : List Lexeme) (stop : Stop) : Prop :=
  takeNodes fuel inside = .error stop ∨ (∃ nodes, takeNodes fuel inside = .ok (nodes, stop.rest)) ∨
    stop.rest = inside

/-- One round of the reader of nodes: no node, a first node and those behind it, or a stop in the
first node. -/
inductive Round (fuel : ℕ) (lexemes : List Lexeme) : Except Stop (List Node × List Lexeme) → Prop
  | none : Round fuel lexemes (.ok ([], lexemes))
  | first {node : Node} {after : List Lexeme} (hfirst : ReadsFirst fuel lexemes node after) :
      Round fuel lexemes (do
        let (nodes, rest) ← takeNodes fuel after
        return (node :: nodes, rest))
  | stop {inside : List Lexeme} {stop : Stop} (hopens : Opens lexemes inside)
      (hstop : StopsInside fuel inside stop) : Round fuel lexemes (.error stop)

/-- A round that starts with a keyword. -/
lemma round_keyword (fuel : ℕ) (element : Element) (span : Span) (behind : List Lexeme) :
    Round fuel (⟨.keyword element, span⟩ :: behind)
      (takeNodes (fuel + 1) (⟨.keyword element, span⟩ :: behind)) := by
  rw [takeNodes]
  simp only
  -- the token behind the attributes tells whether braces follow
  split
  · next place inside hbody =>
    cases hinside : takeNodes fuel inside with
    | error stop => exact .stop (.braces hbody) (.inl hinside)
    | ok found =>
      obtain ⟨children, left⟩ := found
      rw [ok_bind]
      simp only
      split
      · exact .first (.braces hbody hinside)
      · exact .stop (.braces hbody) (.inr (.inl ⟨children, hinside⟩))
  · exact .first .bare

/-- A round that starts with an opening tag. -/
lemma round_openTag (fuel : ℕ) (element : Element) (span : Span) (behind : List Lexeme) :
    Round fuel (⟨.openTag element, span⟩ :: behind)
      (takeNodes (fuel + 1) (⟨.openTag element, span⟩ :: behind)) := by
  rw [takeNodes]
  simp only
  -- the tag closes itself, or holds a text or nodes up to its closing tag
  split
  · next hbody => exact .first (.selfClosed hbody)
  · next place inside hbody =>
    split
    · next text textPlace left =>
      rw [pure_bind]
      simp only
      split
      · split
        · next hclosing =>
          subst hclosing
          exact .first (.content hbody)
        · exact .stop (.content hbody) (.inr (.inr rfl))
      · exact .stop (.content hbody) (.inr (.inr rfl))
    · next hplain =>
      cases hinside : takeNodes fuel inside with
      | error stop => exact .stop (.tags hbody hplain) (.inl hinside)
      | ok found =>
        obtain ⟨children, left⟩ := found
        simp only [ok_bind, pure_bind]
        split
        · split
          · next hclosing =>
            subst hclosing
            exact .first (.tags hbody hplain hinside)
          · exact .stop (.tags hbody hplain) (.inr (.inl ⟨children, hinside⟩))
        · exact .stop (.tags hbody hplain) (.inr (.inl ⟨children, hinside⟩))
  · exact .stop .tag (.inr (.inr rfl))

/-- What the reader of nodes does with some fuel is one round. -/
theorem takeNodes_round (fuel : ℕ) (lexemes : List Lexeme) :
    Round fuel lexemes (takeNodes (fuel + 1) lexemes) := by
  rcases lexemes with _ | ⟨⟨token, span⟩, behind⟩
  · exact .none
  cases token with
  | keyword element => exact round_keyword fuel element span behind
  | openTag element => exact round_openTag fuel element span behind
  | _ => exact .none

/-- Nodes that are read are none, or a first one and those behind it. -/
lemma takeNodes_eq_ok {fuel : ℕ} {lexemes rest : List Lexeme} {nodes : List Node}
    (h : takeNodes (fuel + 1) lexemes = .ok (nodes, rest)) :
    nodes = [] ∧ rest = lexemes ∨ ∃ node after more, ReadsFirst fuel lexemes node after ∧
      takeNodes fuel after = .ok (more, rest) ∧ nodes = node :: more := by
  have hround := takeNodes_round fuel lexemes
  generalize hresult : takeNodes (fuel + 1) lexemes = result at hround
  rw [h] at hresult
  cases hround with
  | none =>
    obtain ⟨rfl, rfl⟩ := Prod.mk.inj (Except.ok.inj hresult)
    exact .inl ⟨rfl, rfl⟩
  | first hfirst =>
    obtain ⟨⟨more, last⟩, hmore, heq⟩ := bind_eq_ok.mp hresult.symm
    obtain ⟨rfl, rfl⟩ := Prod.mk.inj (pure_eq_ok.mp heq)
    exact .inr ⟨_, _, more, hfirst, hmore, rfl⟩
  | stop hopens hstop => cases hresult

/-- The reader of nodes stops behind a first node, or in it. -/
lemma takeNodes_eq_error {fuel : ℕ} {lexemes : List Lexeme} {stop : Stop}
    (h : takeNodes (fuel + 1) lexemes = .error stop) :
    (∃ node after, ReadsFirst fuel lexemes node after ∧ takeNodes fuel after = .error stop) ∨
      ∃ inside, Opens lexemes inside ∧ StopsInside fuel inside stop := by
  have hround := takeNodes_round fuel lexemes
  generalize hresult : takeNodes (fuel + 1) lexemes = result at hround
  rw [h] at hresult
  cases hround with
  | none => cases hresult
  | first hfirst =>
    rcases bind_eq_error.mp hresult.symm with hmore | ⟨found, -, hpure⟩
    · exact .inl ⟨_, _, hfirst, hmore⟩
    · cases hpure
  | stop hopens hstop =>
    obtain rfl := Except.error.inj hresult
    exact .inr ⟨_, hopens, hstop⟩

end MailTemplate.Script
