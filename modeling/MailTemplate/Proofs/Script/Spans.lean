import MailTemplate.Proofs.Script.Accepted
import MailTemplate.Proofs.Script.Pieces

/-!
# Where spans point

A span points at text of a source if it starts at a character that is no layout and ends behind it,
at a boundary of characters (`Points`).  The tokens of a source that are no content point at text,
one behind the other (`laid_lex`).

Main results: the nodes that are read from such tokens point at text, with all in them
(`points_takeNodes`); if the brackets are balanced, so does the token at which the grammar stops
(`exists_points_of_nodesOf`); and if they are not, so does the bracket at fault, unless it is a
brace that no keyword precedes, which is counted from the start of the source
(`points_balanceFault?`).
-/

namespace MailTemplate

/-- Only the empty text takes no byte. -/
lemma Text.utf8Size_eq_zero {cs : List Char} : Text.utf8Size cs = 0 ↔ cs = [] := by
  cases cs with
  | nil => simp
  | cons c cs => simp [c.utf8Size_pos.ne']

namespace Script

/-- The position is one between characters of the source, or at an end of it. -/
def Boundary (source : List Char) (position : ℕ) : Prop :=
  ∃ before after, source = before ++ after ∧ Text.utf8Size before = position

/-- The position is one in front of a text that shows. -/
def ShowsAt (source : List Char) (position : ℕ) : Prop :=
  ∃ before after, source = before ++ after ∧ Text.utf8Size before = position ∧ Shows after

/-- The span points at text of the source that shows. -/
structure Points (source : List Char) (span : Span) : Prop where
  start : ShowsAt source span.start
  stop : Boundary source span.stop
  lt : span.start < span.stop

/-! ### Tokens -/

/-- The tokens that are no content point at text of the source, one behind the other. -/
structure Laid (source : List Char) (lexemes : List Lexeme) : Prop where
  points : ∀ l ∈ lexemes, (∀ s, l.token ≠ .content s) → Points source l.span
  order : lexemes.Pairwise fun l l' => l.span.stop ≤ l'.span.start

/-- Content stands only right behind the end of a tag. -/
def Orderly : List Lexeme → Prop
  | [] => True
  | ⟨.content _, _⟩ :: _ => False
  | ⟨.tagEnd, _⟩ :: ⟨.content _, _⟩ :: rest => Orderly rest
  | _ :: rest => Orderly rest

section Tokens

variable {source cs : List Char} {lexemes rest : List Lexeme} {l : Lexeme}

/-- What is laid out is so from any token on. -/
lemma Laid.of_suffix (h : Laid source lexemes) (hrest : rest <:+ lexemes) : Laid source rest :=
  ⟨fun l hl => h.points l (hrest.subset hl), h.order.sublist hrest.sublist⟩

/-- A token in front keeps content where it belongs, if it is none itself. -/
lemma Orderly.cons (hplain : ∀ s, l.token ≠ .content s) (h : Orderly rest) :
    Orderly (l :: rest) := by
  obtain ⟨token, span⟩ := l
  cases token with
  | content s => exact absurd rfl (hplain s)
  | tagEnd =>
    rcases rest with _ | ⟨⟨token, place⟩, rest⟩
    · exact h
    cases token with
    | content s => exact h.elim
    | _ => exact h
  | _ => exact h

/-- Behind a token that is no end of a tag, content stands where it belongs. -/
lemma Orderly.of_cons (h : Orderly (l :: rest)) (hend : l.token ≠ .tagEnd) : Orderly rest := by
  obtain ⟨token, span⟩ := l
  cases token with
  | content s => exact h.elim
  | tagEnd => exact absurd rfl hend
  | _ => exact h

/-- Behind the end of a tag, content stands where it belongs, if there is none. -/
lemma Orderly.of_tagEnd {span : Span} (h : Orderly (⟨.tagEnd, span⟩ :: rest))
    (hplain : ∀ text place left, rest ≠ ⟨.content text, place⟩ :: left) : Orderly rest := by
  rcases rest with _ | ⟨⟨token, place⟩, rest⟩
  · exact h
  cases token with
  | content s => exact absurd rfl (hplain s place rest)
  | _ => exact h

/-- A token in front of what is laid out is so with it, if it stands there. -/
lemma Laid.cons (h : Laid source lexemes)
    (hpoints : (∀ s, l.token ≠ .content s) → Points source l.span)
    (hbefore : ∀ l' ∈ lexemes, l.span.stop ≤ l'.span.start) : Laid source (l :: lexemes) :=
  ⟨List.forall_mem_cons.mpr ⟨hpoints, h.points⟩, .cons hbefore h.order⟩

/-- A text of the source that shows is pointed at. -/
lemma Points.of_shows {before text after : List Char} (hsource : source = before ++ (text ++ after))
    (hshows : Shows text) :
    Points source ⟨Text.utf8Size before, Text.utf8Size before + Text.utf8Size text⟩ := by
  obtain ⟨c, more, rfl, hc⟩ := hshows
  refine ⟨⟨before, c :: more ++ after, hsource, rfl, c, more ++ after, rfl, hc⟩,
    ⟨before ++ c :: more, after, by rw [hsource, List.append_assoc], Text.utf8Size_append _ _⟩, ?_⟩
  have hpos := c.utf8Size_pos
  simp only [Text.utf8Size_cons]
  omega

/-- Where content belongs, it is not the first token. -/
lemma Orderly.head_plain (h : Orderly (l :: rest)) : ∀ s, l.token ≠ .content s := by
  obtain ⟨token, span⟩ := l
  rintro s rfl
  exact h

/-- The tokens of pieces that make up a text point at it, behind what stands in front of the
text. -/
lemma Covers.laid {ps : List Piece} (h : Covers cs ps) (before : List Char)
    (hsource : source = before ++ cs) :
    Laid source (lexemesFrom (Text.utf8Size before) ps) ∧
      Orderly (lexemesFrom (Text.utf8Size before) ps) ∧
        ∀ l ∈ lexemesFrom (Text.utf8Size before) ps, Text.utf8Size before ≤ l.span.start := by
  induction h generalizing before with
  | nil => exact ⟨⟨List.forall_mem_nil _, .nil⟩, trivial, List.forall_mem_nil _⟩
  | @gap text after ps hmore ih =>
    obtain ⟨hlaid, horderly, hbehind⟩ := ih (before ++ text) (by simp [hsource])
    rw [lexemesFrom, ← Text.utf8Size_append]
    refine ⟨hlaid, horderly, fun l hl => ?_⟩
    have hle := hbehind l hl
    rw [Text.utf8Size_append] at hle
    omega
  | @token token text after ps hshows hplain hmore ih =>
    obtain ⟨hlaid, horderly, hbehind⟩ := ih (before ++ text) (by simp [hsource])
    have hpoints := Points.of_shows hsource hshows
    rw [lexemesFrom]
    rw [Text.utf8Size_append] at hlaid horderly hbehind
    refine ⟨hlaid.cons (fun _ => hpoints) hbehind, horderly.cons hplain,
      List.forall_mem_cons.mpr ⟨le_rfl, fun l hl => ?_⟩⟩
    exact hpoints.lt.le.trans (hbehind l hl)
  | @content text content inside after ps hshows hmore ih =>
    obtain ⟨hlaid, horderly, hbehind⟩ := ih (before ++ text ++ inside) (by simp [hsource])
    have hpoints := Points.of_shows hsource hshows
    rw [lexemesFrom, lexemesFrom]
    rw [Text.utf8Size_append, Text.utf8Size_append] at hlaid horderly hbehind
    -- what follows the content stands behind the end of the tag, too
    have hbehind' : ∀ l ∈ lexemesFrom (Text.utf8Size before + Text.utf8Size text +
        Text.utf8Size inside) ps, Text.utf8Size before + Text.utf8Size text ≤ l.span.start :=
      fun l hl => (Nat.le_add_right _ _).trans (hbehind l hl)
    refine ⟨(hlaid.cons (fun hplain => absurd rfl (hplain content)) hbehind).cons
      (fun _ => hpoints) (List.forall_mem_cons.mpr ⟨le_rfl, hbehind'⟩), horderly,
      List.forall_mem_cons.mpr ⟨le_rfl, List.forall_mem_cons.mpr ⟨hpoints.lt.le, fun l hl => ?_⟩⟩⟩
    exact hpoints.lt.le.trans (hbehind' l hl)

end Tokens

/-- The tokens of a source point at it, one behind the other. -/
theorem laid_lex {source : List Char} {lexemes : List Lexeme} (h : lex source = .ok lexemes) :
    Laid source lexemes ∧ Orderly lexemes := by
  unfold lex at h
  split at h
  · next ps hps =>
    obtain rfl := Except.ok.inj h
    obtain ⟨hlaid, horderly, -⟩ := (covers_pieces hps).laid [] rfl
    exact ⟨hlaid, horderly⟩
  · cases h

/-! ### Nodes -/

mutual

/-- The spans of a node, of its attributes, and of all nodes in it. -/
def Node.spans : Node → List Span
  | .mk _ attributes body span => span :: (attributes.map Attribute.span ++ body.spans)

/-- The spans of all nodes in a body, and of their attributes. -/
def Body.spans : Body → List Span
  | .empty => []
  | .children nodes => spansOf nodes
  | .content _ => []

/-- The spans of nodes, of their attributes, and of all nodes in them. -/
def spansOf : List Node → List Span
  | [] => []
  | node :: nodes => node.spans ++ spansOf nodes

end

section Nodes

variable {source : List Char} {fuel : ℕ} {lexemes rest after inside : List Lexeme}
  {first last : Lexeme} {nodes : List Node}

/-- What stands from a token to a later one is pointed at. -/
lemma Laid.points_to (h : Laid source (first :: rest)) (hlast : last ∈ rest)
    (hfirst : ∀ s, first.token ≠ .content s) (hplain : ∀ s, last.token ≠ .content s) :
    Points source ⟨first.span.start, last.span.stop⟩ := by
  have hstart := h.points first List.mem_cons_self hfirst
  have hstop := h.points last (List.mem_cons_of_mem first hlast) hplain
  have horder : first.span.stop ≤ last.span.start := (List.pairwise_cons.mp h.order).1 last hlast
  refine ⟨hstart.start, hstop.stop, ?_⟩
  exact hstart.lt.trans (horder.trans_lt hstop.lt)

/-- The attributes taken from tokens have the places of tokens that are no content. -/
lemma exists_lexeme_of_attribute {a : Attribute} (ha : a ∈ (takeAttributes lexemes).1) :
    ∃ l ∈ lexemes, l.span = a.span ∧ ∀ s, l.token ≠ .content s := by
  induction lexemes with
  | nil => cases ha
  | cons l lexemes ih =>
    obtain ⟨token, span⟩ := l
    cases token with
    | attr raw =>
      rcases List.mem_cons.mp ha with rfl | ha
      · exact ⟨_, List.mem_cons_self, rfl, by simp⟩
      · obtain ⟨l, hl, hspan, hplain⟩ := ih ha
        exact ⟨l, List.mem_cons_of_mem _ hl, hspan, hplain⟩
    | _ => cases ha

/-- Behind attributes, content stands where it belongs. -/
lemma orderly_takeAttributes (h : Orderly lexemes) :
    (takeAttributes lexemes).2 <:+ lexemes ∧ Orderly (takeAttributes lexemes).2 := by
  induction lexemes with
  | nil => exact ⟨List.suffix_refl _, h⟩
  | cons l lexemes ih =>
    obtain ⟨token, span⟩ := l
    cases token with
    | attr a =>
      obtain ⟨hsuffix, horderly⟩ := ih (h.of_cons (by simp))
      exact ⟨hsuffix.trans (List.suffix_cons _ _), horderly⟩
    | _ => exact ⟨List.suffix_refl _, h⟩

/-- The attributes behind a token point at text. -/
lemma Laid.points_attributes (h : Laid source (first :: rest)) :
    ∀ s ∈ (takeAttributes rest).1.map Attribute.span, Points source s := by
  intro s hs
  obtain ⟨a, ha, rfl⟩ := List.mem_map.mp hs
  obtain ⟨l, hl, hspan, hplain⟩ := exists_lexeme_of_attribute ha
  exact hspan ▸ h.points l (List.mem_cons_of_mem first hl) hplain

/-- A keyword with its attributes points at text. -/
lemma Laid.points_bare (h : Laid source (first :: rest)) (hfirst : ∀ s, first.token ≠ .content s) :
    Points source ⟨first.span.start, endOfAttributes first.span.stop (takeAttributes rest).1⟩ := by
  unfold endOfAttributes
  cases hlast : (takeAttributes rest).1.getLast? with
  | none => exact h.points first List.mem_cons_self hfirst
  | some a =>
    obtain ⟨l, hl, hspan, hplain⟩ := exists_lexeme_of_attribute (List.mem_of_getLast? hlast)
    have hpoints := h.points_to hl hfirst hplain
    rwa [hspan] at hpoints

/-- What follows the opening of an element is an end of the tokens behind the first, and content
stands where it belongs in it. -/
lemma Opens.orderly (h : Opens lexemes inside) (horderly : Orderly lexemes) :
    inside <:+ lexemes.tail ∧ Orderly inside := by
  cases h with
  | braces hbody =>
    obtain ⟨hsuffix, hopened⟩ := orderly_takeAttributes (horderly.of_cons (by simp))
    rw [hbody] at hsuffix hopened
    exact ⟨(List.suffix_cons _ _).trans hsuffix, hopened.of_cons (by simp)⟩
  | tag => exact orderly_takeAttributes (horderly.of_cons (by simp))
  | content hbody =>
    obtain ⟨hsuffix, hopened⟩ := orderly_takeAttributes (horderly.of_cons (by simp))
    rw [hbody] at hsuffix hopened
    exact ⟨(List.suffix_cons _ _).trans ((List.suffix_cons _ _).trans hsuffix), hopened⟩
  | tags hbody hplain =>
    obtain ⟨hsuffix, hopened⟩ := orderly_takeAttributes (horderly.of_cons (by simp))
    rw [hbody] at hsuffix hopened
    exact ⟨(List.suffix_cons _ _).trans hsuffix, hopened.of_tagEnd hplain⟩

/-- An element that is closed points at text, from its first token to the last, and behind it
content stands where it belongs. -/
lemma Laid.points_closed (h : Laid source (first :: rest)) (horderly : Orderly (first :: rest))
    (hleft : last :: after <:+ rest) (hclosed : Orderly (last :: after))
    (hend : last.token ≠ .tagEnd) :
    (after <:+ first :: rest ∧ Orderly after) ∧
      Points source ⟨first.span.start, last.span.stop⟩ :=
  ⟨⟨(List.suffix_cons last after).trans (hleft.trans (List.suffix_cons first rest)),
    hclosed.of_cons hend⟩,
    h.points_to (hleft.mem List.mem_cons_self) horderly.head_plain hclosed.head_plain⟩

/-- The spans of a node are its own, those of its attributes, and those in its body. -/
lemma forall_mem_spans {p : Span → Prop} {element : Element} {attributes : List Attribute}
    {body : Body} {span : Span} :
    (∀ s ∈ (Node.mk element attributes body span).spans, p s) ↔
      p span ∧ (∀ s ∈ attributes.map Attribute.span, p s) ∧ ∀ s ∈ body.spans, p s := by
  rw [Node.spans, List.forall_mem_cons, List.forall_mem_append]

/-- A node that is read points at text, and so does all in it, if the nodes in it do. -/
lemma ReadsFirst.points {node : Node} (h : ReadsFirst fuel lexemes node after)
    (hlaid : Laid source lexemes) (horderly : Orderly lexemes)
    (ih : ∀ {inside left nodes}, takeNodes fuel inside = .ok (nodes, left) →
      Laid source inside → Orderly inside →
        (left <:+ inside ∧ Orderly left) ∧ ∀ s ∈ spansOf nodes, Points source s) :
    (after <:+ lexemes ∧ Orderly after) ∧ ∀ s ∈ node.spans, Points source s := by
  cases h with
  | bare =>
    obtain ⟨hsuffix, hafter⟩ := orderly_takeAttributes (horderly.of_cons (by simp))
    exact ⟨⟨hsuffix.trans (List.suffix_cons _ _), hafter⟩, forall_mem_spans.mpr
      ⟨hlaid.points_bare (by simp), hlaid.points_attributes, List.forall_mem_nil _⟩⟩
  | braces hbody hinside =>
    obtain ⟨hbehind, hopened⟩ := (Opens.braces hbody).orderly horderly
    obtain ⟨⟨hleft, hclosed⟩, hchildren⟩ :=
      ih hinside (hlaid.of_suffix (hbehind.trans (List.tail_suffix _))) hopened
    obtain ⟨hafter, hspan⟩ :=
      hlaid.points_closed horderly (hleft.trans hbehind) hclosed (by simp)
    exact ⟨hafter, forall_mem_spans.mpr ⟨hspan, hlaid.points_attributes, hchildren⟩⟩
  | selfClosed hbody =>
    obtain ⟨hbehind, hopened⟩ := Opens.tag.orderly horderly
    rw [hbody] at hbehind hopened
    obtain ⟨hafter, hspan⟩ := hlaid.points_closed horderly hbehind hopened (by simp)
    exact ⟨hafter, forall_mem_spans.mpr
      ⟨hspan, hlaid.points_attributes, List.forall_mem_nil _⟩⟩
  | content hbody =>
    obtain ⟨hbehind, hopened⟩ := (Opens.content hbody).orderly horderly
    obtain ⟨hafter, hspan⟩ := hlaid.points_closed horderly hbehind hopened (by simp)
    exact ⟨hafter, forall_mem_spans.mpr
      ⟨hspan, hlaid.points_attributes, List.forall_mem_nil _⟩⟩
  | tags hbody hplain hinside =>
    obtain ⟨hbehind, hopened⟩ := (Opens.tags hbody hplain).orderly horderly
    obtain ⟨⟨hleft, hclosed⟩, hchildren⟩ :=
      ih hinside (hlaid.of_suffix (hbehind.trans (List.tail_suffix _))) hopened
    obtain ⟨hafter, hspan⟩ :=
      hlaid.points_closed horderly (hleft.trans hbehind) hclosed (by simp)
    exact ⟨hafter, forall_mem_spans.mpr ⟨hspan, hlaid.points_attributes, hchildren⟩⟩

/-- The nodes that are read from tokens point at text, and so does all in them. -/
theorem points_takeNodes (h : takeNodes fuel lexemes = .ok (nodes, rest))
    (hlaid : Laid source lexemes) (horderly : Orderly lexemes) :
    (rest <:+ lexemes ∧ Orderly rest) ∧ ∀ s ∈ spansOf nodes, Points source s := by
  induction fuel generalizing lexemes rest nodes with
  | zero =>
    obtain ⟨rfl, rfl⟩ := Prod.mk.inj (Except.ok.inj h)
    exact ⟨⟨List.suffix_refl _, horderly⟩, List.forall_mem_nil _⟩
  | succ fuel ih =>
    rcases takeNodes_eq_ok h with ⟨rfl, rfl⟩ | ⟨node, after, more, hfirst, hmore, rfl⟩
    · exact ⟨⟨List.suffix_refl _, horderly⟩, List.forall_mem_nil _⟩
    · obtain ⟨⟨hafter, hbehind⟩, hnode⟩ :=
        hfirst.points hlaid horderly fun h hlaid horderly => ih h hlaid horderly
      obtain ⟨⟨hrest, hleft⟩, hnodes⟩ := ih hmore (hlaid.of_suffix hafter) hbehind
      rw [spansOf, List.forall_mem_append]
      exact ⟨⟨hrest.trans hafter, hleft⟩, hnode, hnodes⟩

/-! ### Stops -/

/-- Attributes open and close nothing. -/
lemma balanceFault?_takeAttributes (stack : List (Opener × Span)) (keyword : ℕ)
    (lexemes : List Lexeme) :
    balanceFault? stack keyword lexemes =
      balanceFault? stack keyword (takeAttributes lexemes).2 := by
  induction lexemes with
  | nil => rfl
  | cons l lexemes ih =>
    obtain ⟨token, span⟩ := l
    cases token with
    | attr a => exact ih
    | _ => rfl

/-- The opening of an element leaves a bracket open. -/
lemma exists_balanceFault?_of_opens (h : Opens lexemes inside) (stack : List (Opener × Span))
    (keyword : ℕ) :
    ∃ bracket keyword', balanceFault? stack keyword lexemes =
      balanceFault? (bracket :: stack) keyword' inside := by
  cases h with
  | braces hbody =>
    rw [balanceFault?, balanceFault?_takeAttributes, hbody]
    exact ⟨_, _, rfl⟩
  | tag =>
    rw [balanceFault?, balanceFault?_takeAttributes]
    exact ⟨_, _, rfl⟩
  | content hbody =>
    rw [balanceFault?, balanceFault?_takeAttributes, hbody]
    exact ⟨_, _, rfl⟩
  | tags hbody _ =>
    rw [balanceFault?, balanceFault?_takeAttributes, hbody]
    exact ⟨_, _, rfl⟩

/-- What the grammar derives leaves the open brackets as they are. -/
lemma exists_balanceFault?_of_takes (h : Takes lexemes nodes rest) (stack : List (Opener × Span))
    (keyword : ℕ) :
    ∃ keyword', balanceFault? stack keyword lexemes = balanceFault? stack keyword' rest := by
  obtain ⟨taken, rfl, hderives⟩ := h
  obtain ⟨keyword', hbalance⟩ := hderives.balanceFault?_append rfl stack keyword
  exact ⟨keyword', hbalance rest⟩

/-- Where the reader of nodes stops, content stands where it belongs. -/
lemma orderly_of_takeNodes_eq_error {stop : Stop} (h : takeNodes fuel lexemes = .error stop)
    (hlaid : Laid source lexemes) (horderly : Orderly lexemes) :
    stop.rest <:+ lexemes ∧ Orderly stop.rest := by
  induction fuel generalizing lexemes with
  | zero => cases h
  | succ fuel ih =>
    rcases takeNodes_eq_error h with ⟨node, after, hfirst, hmore⟩ | ⟨inside, hopens, hstop⟩
    · obtain ⟨⟨hafter, hbehind⟩, -⟩ := hfirst.points hlaid horderly points_takeNodes
      obtain ⟨hrest, hleft⟩ := ih hmore (hlaid.of_suffix hafter) hbehind
      exact ⟨hrest.trans hafter, hleft⟩
    · obtain ⟨htail, hopened⟩ := hopens.orderly horderly
      have hinside := htail.trans (List.tail_suffix _)
      rcases hstop with hstop | ⟨nodes, hnodes⟩ | hrest
      · obtain ⟨hrest, hleft⟩ := ih hstop (hlaid.of_suffix hinside) hopened
        exact ⟨hrest.trans hinside, hleft⟩
      · obtain ⟨⟨hrest, hleft⟩, -⟩ :=
          points_takeNodes hnodes (hlaid.of_suffix hinside) hopened
        exact ⟨hrest.trans hinside, hleft⟩
      · exact hrest ▸ ⟨hinside, hopened⟩

/-- Where the reader of nodes stops, brackets are open that were not before. -/
lemma balanceFault?_of_takeNodes_eq_error {stop : Stop}
    (h : takeNodes fuel lexemes = .error stop) (stack : List (Opener × Span)) (keyword : ℕ) :
    ∃ opened keyword', opened ≠ [] ∧ balanceFault? stack keyword lexemes =
      balanceFault? (opened ++ stack) keyword' stop.rest := by
  induction fuel generalizing lexemes stack keyword with
  | zero => cases h
  | succ fuel ih =>
    rcases takeNodes_eq_error h with ⟨node, after, hfirst, hmore⟩ | ⟨inside, hopens, hstop⟩
    · obtain ⟨keyword₁, hfirst⟩ :=
        exists_balanceFault?_of_takes (hfirst.takes takes_of_takeNodes (Takes.refl after)) stack
          keyword
      rw [hfirst]
      exact ih hmore stack keyword₁
    · obtain ⟨bracket, keyword₁, hinside⟩ := exists_balanceFault?_of_opens hopens stack keyword
      rw [hinside]
      rcases hstop with hstop | ⟨nodes, hnodes⟩ | hrest
      · obtain ⟨opened, keyword₂, -, hrest⟩ := ih hstop (bracket :: stack) keyword₁
        exact ⟨opened ++ [bracket], keyword₂, by simp, by rw [hrest, List.append_assoc]; rfl⟩
      · obtain ⟨keyword₂, hrest⟩ :=
          exists_balanceFault?_of_takes (takes_of_takeNodes hnodes) (bracket :: stack) keyword₁
        exact ⟨[bracket], keyword₂, by simp, hrest⟩
      · exact ⟨[bracket], keyword₁, by simp, by rw [hrest]; rfl⟩

/-- The grammar stops in front of a token that points at text, if the brackets are balanced. -/
theorem exists_points_of_nodesOf {stop : Stop} (h : nodesOf lexemes = .error stop)
    (hbalance : balanceFault? [] 0 lexemes = none) (hlaid : Laid source lexemes)
    (horderly : Orderly lexemes) :
    ∃ l behind, stop.rest = l :: behind ∧ Points source l.span := by
  suffices hstop : (stop.rest <:+ lexemes ∧ Orderly stop.rest) ∧ stop.rest ≠ [] by
    obtain ⟨⟨hsuffix, hrest⟩, hne⟩ := hstop
    obtain ⟨l, behind, hcons⟩ := List.exists_cons_of_ne_nil hne
    rw [hcons] at hsuffix hrest
    refine ⟨l, behind, hcons, hlaid.points l (hsuffix.mem List.mem_cons_self) ?_⟩
    exact hrest.head_plain
  unfold nodesOf at h
  rcases bind_eq_error.mp h with hstop | ⟨⟨nodes, rest⟩, hnodes, hend⟩
  · refine ⟨orderly_of_takeNodes_eq_error hstop hlaid horderly, fun hnil => ?_⟩
    -- an open bracket is a fault at the end of the tokens
    obtain ⟨opened, keyword, hopened, hrest⟩ := balanceFault?_of_takeNodes_eq_error hstop [] 0
    obtain ⟨⟨opener, span⟩, more, rfl⟩ := List.exists_cons_of_ne_nil hopened
    rw [hnil, hbalance] at hrest
    cases opener with
    | brace => cases hrest
    | tag element => cases hrest
  · simp only at hend
    split at hend
    · cases hend
    · next hne =>
      obtain rfl := Except.error.inj hend
      exact ⟨(points_takeNodes hnodes hlaid horderly).1, hne⟩

end Nodes

/-! ### Balance -/

/-- The span starts where the source does, whatever stands there. -/
structure FromStart (source : List Char) (span : Span) : Prop where
  start : span.start = 0
  stop : Boundary source span.stop
  pos : 0 < span.stop

/-- An open bracket points at text, or it is a brace counted from the start of the source. -/
def Opened (source : List Char) (bracket : Opener × Span) : Prop :=
  Points source bracket.2 ∨ bracket.1 = .brace ∧ FromStart source bracket.2

/-- The last keyword stands in front of the tokens, or there is none, and the start of the source
stands for it. -/
def KeywordBefore (source : List Char) (keyword : ℕ) (lexemes : List Lexeme) : Prop :=
  keyword = 0 ∨ ShowsAt source keyword ∧ ∀ l ∈ lexemes, keyword ≤ l.span.start

section Balance

variable {source : List Char} {lexemes rest : List Lexeme} {l : Lexeme}
  {stack : List (Opener × Span)} {keyword : ℕ} {span : Span} {fault : BalanceFault}

/-- The last keyword stands in front of all later tokens. -/
lemma KeywordBefore.of_cons (h : KeywordBefore source keyword (l :: rest)) :
    KeywordBefore source keyword rest :=
  h.imp_right fun ⟨hshows, hbefore⟩ => ⟨hshows, (List.forall_mem_cons.mp hbefore).2⟩

/-- A keyword stands in front of the tokens behind it. -/
lemma KeywordBefore.of_laid (h : Laid source (l :: rest)) (hplain : ∀ s, l.token ≠ .content s) :
    KeywordBefore source l.span.start rest := by
  have hpoints := h.points l List.mem_cons_self hplain
  refine .inr ⟨hpoints.start, fun l' hl' => ?_⟩
  exact hpoints.lt.le.trans ((List.pairwise_cons.mp h.order).1 l' hl')

/-- A brace is counted from the last keyword on. -/
lemma KeywordBefore.opened (h : KeywordBefore source keyword (⟨.openBrace, span⟩ :: rest))
    (hpoints : Points source span) : Opened source (.brace, ⟨keyword, span.stop⟩) := by
  rcases h with rfl | ⟨hshows, hbefore⟩
  · exact .inr ⟨rfl, rfl, hpoints.stop, (Nat.zero_le _).trans_lt hpoints.lt⟩
  · have hle : keyword ≤ span.start := hbefore _ List.mem_cons_self
    exact .inl ⟨hshows, hpoints.stop, hle.trans_lt hpoints.lt⟩

/-- A fault of balance points at text, unless it is a brace that is left open and counted from the
start of the source. -/
theorem points_balanceFault? (h : balanceFault? stack keyword lexemes = some fault)
    (hlaid : Laid source lexemes) (hstack : ∀ bracket ∈ stack, Opened source bracket)
    (hkeyword : KeywordBefore source keyword lexemes) :
    Points source fault.span ∨
      fault.cause = .unclosedBrace ∧ fault.runsOn = true ∧ FromStart source fault.span := by
  induction lexemes generalizing stack keyword with
  | nil =>
    rcases stack with _ | ⟨⟨opener, place⟩, stack⟩
    · cases h
    -- the source ends, and the bracket that was opened last is still open
    have hopened := (List.forall_mem_cons.mp hstack).1
    cases opener with
    | brace =>
      obtain rfl := Option.some.inj h
      exact hopened.imp_right fun hbrace => ⟨rfl, rfl, hbrace.2⟩
    | tag element =>
      obtain rfl := Option.some.inj h
      exact .inl (hopened.resolve_right fun hbrace => by cases hbrace.1)
  | cons l lexemes ih =>
    have hrest := hlaid.of_suffix (List.suffix_cons l lexemes)
    have hpoints := hlaid.points l List.mem_cons_self
    obtain ⟨token, span⟩ := l
    cases token with
    | keyword element => exact ih h hrest hstack (.of_laid hlaid (by simp))
    | attr a => exact ih h hrest hstack hkeyword.of_cons
    | openBrace =>
      exact ih h hrest (List.forall_mem_cons.mpr ⟨hkeyword.opened (hpoints (by simp)), hstack⟩)
        hkeyword.of_cons
    | closeBrace =>
      unfold balanceFault? at h
      split at h
      · exact ih h hrest (List.forall_mem_cons.mp hstack).2 hkeyword.of_cons
      · obtain rfl := Option.some.inj h
        exact .inl (hpoints (by simp))
    | openTag element =>
      exact ih h hrest (List.forall_mem_cons.mpr ⟨.inl (hpoints (by simp)), hstack⟩)
        hkeyword.of_cons
    | tagEnd => exact ih h hrest hstack hkeyword.of_cons
    | selfClose =>
      exact ih h hrest (fun bracket hb => hstack bracket (List.mem_of_mem_tail hb))
        hkeyword.of_cons
    | closeTag element =>
      unfold balanceFault? at h
      split at h
      · split at h
        · exact ih h hrest (List.forall_mem_cons.mp hstack).2 hkeyword.of_cons
        · obtain rfl := Option.some.inj h
          exact .inl (hpoints (by simp))
      · obtain rfl := Option.some.inj h
        exact .inl (hpoints (by simp))
    | content text => exact ih h hrest hstack hkeyword.of_cons

end Balance

end Script

end MailTemplate
