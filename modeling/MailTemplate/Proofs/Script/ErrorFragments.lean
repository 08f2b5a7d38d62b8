import MailTemplate.Proofs.Affixes
import MailTemplate.Proofs.Script.FaultSpans

/-!
# Errors and the text that they show

An error of a script has a span of its source, with both ends at boundaries of characters and some
text between them.  Its fragment is the first line of the text from there on, cut after sixty
characters (`compileWith_error_fragment`).  It is empty in one case only: the error is a missing
root or a brace that no keyword precedes, both of which are counted from the start of the source,
and the source starts with an end of line (`exists_error_without_fragment`).
-/

namespace MailTemplate.Script

/-! ### Fragments -/

/-- A fragment is a front of the text, on one line and short, possibly with an ellipsis. -/
lemma exists_fragmentOf (text : List Char) :
    ∃ shown, shown <+: text ∧ shown.length ≤ fragmentLimit ∧ '\n' ∉ shown ∧
      (fragmentOf text = String.ofList shown ∨
        fragmentOf text = String.ofList (shown ++ ['…'])) := by
  have hline := Text.firstLine_prefix text
  unfold fragmentOf
  simp only
  split
  · have htake := List.take_prefix fragmentLimit (Text.firstLine text)
    exact ⟨_, htake.trans hline, List.length_take_le _ _,
      fun hmem => Text.not_mem_firstLine text (htake.mem hmem), .inr rfl⟩
  · next hle => exact ⟨_, hline, not_lt.mp hle, Text.not_mem_firstLine text, .inl rfl⟩

/-- A fragment is empty only if the first line of the text is. -/
lemma fragmentOf_eq_empty_iff {text : List Char} :
    fragmentOf text = "" ↔ Text.firstLine text = [] := by
  unfold fragmentOf
  simp only
  split
  · next hlt =>
    refine iff_of_false (fun h => ?_) (List.length_pos_iff.mp ((Nat.zero_le _).trans_lt hlt))
    have hnil := congrArg String.toList h
    rw [String.toList_ofList] at hnil
    exact List.append_ne_nil_of_right_ne_nil _ (List.cons_ne_nil _ _) hnil
  · constructor
    · intro h
      have hnil := congrArg String.toList h
      rwa [String.toList_ofList] at hnil
    · intro h
      rw [h]

/-- The first line of a text that shows is not empty. -/
lemma Shows.firstLine_ne_nil {text : List Char} (h : Shows text) : Text.firstLine text ≠ [] := by
  obtain ⟨c, more, rfl, hc⟩ := h
  rw [ne_eq, Text.firstLine_eq_nil_iff]
  rintro (hnil | ⟨rest, hfeed | hreturn⟩)
  · cases hnil
  · obtain ⟨rfl, -⟩ := List.cons.inj hfeed
    cases hc
  · obtain ⟨rfl, -⟩ := List.cons.inj hreturn
    cases hc

/-- The fragment under a span is that of the text between its ends. -/
lemma fragmentAt_append (before inside after : List Char) :
    fragmentAt (before ++ (inside ++ after))
      ⟨Text.utf8Size before, Text.utf8Size before + Text.utf8Size inside⟩ = fragmentOf inside := by
  have hsize : Text.utf8Size (before ++ (inside ++ after)) =
      Text.utf8Size before + Text.utf8Size inside + Text.utf8Size after := by
    rw [Text.utf8Size_append, Text.utf8Size_append, Nat.add_assoc]
  have hstart : min (Text.utf8Size before) (Text.utf8Size (before ++ (inside ++ after))) =
      Text.utf8Size before := by omega
  have hstop : max (Text.utf8Size before) (min (Text.utf8Size before + Text.utf8Size inside)
      (Text.utf8Size (before ++ (inside ++ after)))) =
        Text.utf8Size before + Text.utf8Size inside := by omega
  unfold fragmentAt
  simp only [hstart, hstop]
  unfold Text.slice?
  rw [Text.splitBytes?_append]
  simp [Text.splitBytes?_append]

/-! ### Places of errors -/

/-- Some text stands in front of a boundary that is further on. -/
lemma exists_inside (before : List Char) {behind : List Char} {stop : ℕ}
    (h : Boundary (before ++ behind) stop)
    (hlt : Text.utf8Size before < stop) :
    ∃ inside after, behind = inside ++ after ∧ inside ≠ [] ∧
      Text.utf8Size before + Text.utf8Size inside = stop := by
  obtain ⟨front, after, hsource, rfl⟩ := h
  have hbefore : before <+: front := by
    have hfronts := List.prefix_or_prefix_of_prefix ⟨behind, rfl⟩ ⟨after, hsource.symm⟩
    refine hfronts.resolve_right ?_
    rintro ⟨more, rfl⟩
    rw [Text.utf8Size_append] at hlt
    omega
  obtain ⟨inside, rfl⟩ := hbefore
  rw [List.append_assoc] at hsource
  refine ⟨inside, after, List.append_cancel_left hsource, ?_, (Text.utf8Size_append _ _).symm⟩
  rintro rfl
  rw [List.append_nil] at hlt
  exact lt_irrefl _ hlt

/-- An error points at text of the source, and its fragment starts there, whether or not it runs on
to the end of the source; or the error is counted from the start of the source, whatever stands
there. -/
inductive Placed (source : List Char) : Error → Prop
  | points {cause : Cause} {span : Span} (runsOn : Bool) (hspan : Points source span) :
      Placed source (Error.located source cause span
        (if runsOn then ⟨span.start, Text.utf8Size source⟩ else span))
  | fromStart {cause : Cause} {span : Span}
      (hcause : cause = .missingRoot ∨ cause = .unclosedBrace) (hspan : FromStart source span) :
      Placed source (Error.located source cause span ⟨0, Text.utf8Size source⟩)

section Placed

variable {source : List Char}

/-- A fault of reading points at text. -/
lemma LexFault.Stands.placed {fault : LexFault} (h : fault.Stands source) :
    Placed source (fault.toError source) := by
  obtain ⟨⟨before, hsource⟩, ⟨after, hrest⟩, hshows⟩ := h
  have hstart : Text.utf8Size source - Text.utf8Size fault.rest = Text.utf8Size before := by
    rw [← hsource, Text.utf8Size_append, Nat.add_sub_cancel]
  have hsplit : source = before ++ (fault.lexeme ++ after) := by rw [hrest, hsource]
  unfold LexFault.toError
  simp only [hstart]
  exact .points (showsRest fault.cause) (Points.of_shows hsplit hshows)

/-- A fault of balance points at text, or it is a brace that is counted from the start of the
source. -/
lemma placed_balanceFault? {lexemes : List Lexeme} {fault : BalanceFault}
    (hlaid : Laid source lexemes) (h : balanceFault? [] 0 lexemes = some fault) :
    Placed source (fault.toError source) := by
  rcases points_balanceFault? h hlaid (List.forall_mem_nil _) (.inl rfl) with
    hpoints | ⟨hcause, hruns, hstart⟩
  · exact .points fault.runsOn hpoints
  · unfold BalanceFault.toError
    simp only [hruns, if_true, hstart.start]
    exact .fromStart (.inr hcause) hstart

/-- An error of reading a source is placed in it. -/
lemma placed_lex {e : Error} (h : lex source = .error e) : Placed source e := by
  unfold lex at h
  split at h
  · cases h
  · next fault hfault =>
    obtain rfl := Except.error.inj h
    exact (stands_pieces hfault).placed

/-- An error of a source without a tree is placed in it. -/
lemma placed_ofSource {e : Error} (h : Tree.ofSource source = .error e) : Placed source e := by
  unfold Tree.ofSource at h
  rcases bind_eq_error.mp h with h | ⟨lexemes, hlex, h⟩
  · exact placed_lex h
  obtain ⟨hlaid, horderly⟩ := laid_lex hlex
  split at h
  · next fault hfault =>
    obtain rfl := Except.error.inj h
    exact placed_balanceFault? hlaid hfault
  · next hbalance =>
    split at h
    · cases h
    · next stop hstop =>
      obtain rfl := Except.error.inj h
      obtain ⟨l, behind, hcons, hpoints⟩ :=
        exists_points_of_nodesOf hstop hbalance hlaid horderly
      unfold Stop.toError
      simp only [hcons, List.head?_cons, Option.map_some, Option.getD_some]
      exact .points false hpoints

/-- The nodes of a source with a tree point at text, and so does all in them. -/
lemma points_ofSource {tree : Tree} (h : Tree.ofSource source = .ok tree) :
    tree.form = formOf source ∧ ∀ s ∈ spansOf tree.nodes, Points source s := by
  unfold Tree.ofSource at h
  obtain ⟨lexemes, hlex, h⟩ := bind_eq_ok.mp h
  obtain ⟨hlaid, horderly⟩ := laid_lex hlex
  split at h
  · cases h
  split at h
  · next nodes hnodes =>
    obtain rfl := pure_eq_ok.mp h
    obtain ⟨⟨found, rest⟩, htake, hend⟩ := bind_eq_ok.mp hnodes
    simp only at hend
    split at hend
    · obtain rfl := pure_eq_ok.mp hend
      exact ⟨rfl, (points_takeNodes htake hlaid horderly).2⟩
    · cases hend
  · cases h

/-- A source in the tag form is not empty, so its whole counts from its start. -/
lemma FromStart.of_formOf (h : formOf source = .tag) :
    FromStart source ⟨0, Text.utf8Size source⟩ := by
  refine ⟨rfl, ⟨source, [], (List.append_nil _).symm, rfl⟩, Nat.pos_of_ne_zero fun hzero => ?_⟩
  obtain rfl := Text.utf8Size_eq_zero.mp hzero
  cases h

/-- An error of a source is placed in it. -/
lemma placed_compileWith {defaults : Defaults} {source : String} {e : Error}
    (h : compileWith defaults source = .error e) : Placed source.toList e := by
  unfold compileWith at h
  rcases bind_eq_error.mp h with h | ⟨tree, htree, h⟩
  · exact placed_ofSource h
  obtain ⟨hform, hpoints⟩ := points_ofSource htree
  split at h
  · cases h
  · next fault hfault =>
    obtain rfl := Except.error.inj h
    rcases compile_eq_error hfault with hspan | ⟨htag, rfl⟩
    · exact .points false (hpoints _ hspan)
    · exact .fromStart (.inl rfl) (.of_formOf (hform ▸ htag))

end Placed

/-! ### What errors show -/

/-- The fragment of an error is that of a text which starts where its span does. -/
lemma exists_shown {before inside after : List Char} (cause : Cause) {span : Span} (runsOn : Bool)
    (hinside : inside ≠ []) (hstart : Text.utf8Size before = span.start)
    (hstop : Text.utf8Size before + Text.utf8Size inside = span.stop) :
    ∃ text, text <+: inside ++ after ∧ text ≠ [] ∧
      (Error.located (before ++ (inside ++ after)) cause span
        (if runsOn then ⟨span.start, Text.utf8Size (before ++ (inside ++ after))⟩
          else span)).fragment = fragmentOf text := by
  obtain ⟨start, stop⟩ := span
  obtain rfl : Text.utf8Size before = start := hstart
  obtain rfl : Text.utf8Size before + Text.utf8Size inside = stop := hstop
  cases runsOn with
  | false =>
    exact ⟨inside, List.prefix_append _ _, hinside, fragmentAt_append before inside after⟩
  | true =>
    refine ⟨inside ++ after, List.prefix_refl _, List.append_ne_nil_of_left_ne_nil hinside _, ?_⟩
    have hwhole := fragmentAt_append before (inside ++ after) []
    rwa [List.append_nil, ← Text.utf8Size_append] at hwhole

/-- Every error of a script points at text of its source: its span starts and ends at boundaries of
characters, with some text between them.  Its fragment is a front of the text from the start of the
span on, of sixty characters at most and without a line feed, possibly with an ellipsis.  It is
empty exactly if the error is a missing root or a brace left open that is counted from the start of
the source, and the source starts with an end of line. -/
theorem compileWith_error_fragment {defaults : Defaults} {source : String} {e : Error}
    (h : compileWith defaults source = .error e) :
    ∃ before inside after shown, source.toList = before ++ (inside ++ after) ∧ inside ≠ [] ∧
      Text.utf8Size before = e.span.start ∧
      Text.utf8Size before + Text.utf8Size inside = e.span.stop ∧
      shown <+: inside ++ after ∧ shown.length ≤ 60 ∧ '\n' ∉ shown ∧
      (e.fragment = String.ofList shown ∨ e.fragment = String.ofList (shown ++ ['…'])) ∧
      (e.fragment = "" ↔
        e.span.start = 0 ∧ (e.cause = .missingRoot ∨ e.cause = .unclosedBrace) ∧
          ∃ rest, source.toList = '\n' :: rest ∨ source.toList = '\r' :: '\n' :: rest) := by
  have hplaced := placed_compileWith h
  generalize source.toList = cs at hplaced ⊢
  cases hplaced with
  | @points cause span runsOn hspan =>
    obtain ⟨before, behind, rfl, hbefore, hshows⟩ := hspan.start
    obtain ⟨inside, after, rfl, hinside, hsize⟩ :=
      exists_inside before hspan.stop (hbefore ▸ hspan.lt)
    obtain ⟨text, htext, hne, hfragment⟩ := exists_shown cause runsOn hinside hbefore hsize
    obtain ⟨shown', hfront, hlength, hfeed, hshown⟩ := exists_fragmentOf text
    rw [← hfragment] at hshown
    refine ⟨before, inside, after, shown', rfl, hinside, hbefore, hsize, hfront.trans htext,
      hlength, hfeed, hshown, iff_of_false ?_ ?_⟩
    · rw [hfragment, fragmentOf_eq_empty_iff]
      exact (hshows.of_front htext hne).firstLine_ne_nil
    · -- what stands at the start of the source is no end of line
      rintro ⟨hzero, -, hline⟩
      obtain rfl : before = [] := Text.utf8Size_eq_zero.mp (hbefore.trans hzero)
      exact hshows.firstLine_ne_nil (Text.firstLine_eq_nil_iff.mpr (.inr hline))
  | @fromStart cause span hcause hspan =>
    obtain ⟨inside, after, rfl, hinside, hsize⟩ :=
      exists_inside [] hspan.stop hspan.pos
    have hwhole := fragmentAt_append [] (inside ++ after) []
    rw [List.append_nil, List.nil_append, Text.utf8Size_nil, Nat.zero_add] at hwhole
    obtain ⟨shown', hfront, hlength, hfeed, hshown⟩ := exists_fragmentOf (inside ++ after)
    rw [← hwhole] at hshown
    refine ⟨[], inside, after, shown', rfl, hinside, hspan.start.symm, hsize, hfront, hlength,
      hfeed, hshown, ?_⟩
    have hempty : fragmentAt (inside ++ after) ⟨0, Text.utf8Size (inside ++ after)⟩ = "" ↔
        ∃ rest, inside ++ after = '\n' :: rest ∨ inside ++ after = '\r' :: '\n' :: rest := by
      rw [hwhole, fragmentOf_eq_empty_iff, Text.firstLine_eq_nil_iff]
      exact or_iff_right (List.append_ne_nil_of_left_ne_nil hinside _)
    exact hempty.trans ⟨fun hline => ⟨hspan.start, hcause, hline⟩, fun hline => hline.2.2⟩

/-- A stray character of two bytes behind a line feed is shown as it stands there. -/
theorem compileWith_error_fragment_strayCharacter :
    compileWith {} "ROW \x7b\n é" = .error ⟨.strayCharacter, ⟨7, 9⟩, "é"⟩ ∧
      ∃ before inside after shown, "ROW \x7b\n é".toList = before ++ (inside ++ after) ∧
        inside ≠ [] ∧ Text.utf8Size before = 7 ∧
        Text.utf8Size before + Text.utf8Size inside = 9 ∧ shown <+: inside ++ after ∧
        shown.length ≤ 60 ∧ '\n' ∉ shown ∧
        ("é" = String.ofList shown ∨ "é" = String.ofList (shown ++ ['…'])) := by
  have h : compileWith {} "ROW \x7b\n é" = .error ⟨.strayCharacter, ⟨7, 9⟩, "é"⟩ := rfl
  obtain ⟨before, inside, after, shown, hsource, hinside, hstart, hstop, hfront, hlength, hfeed,
    hshown, -⟩ := compileWith_error_fragment h
  exact ⟨h, before, inside, after, shown, hsource, hinside, hstart, hstop, hfront, hlength, hfeed,
    hshown⟩

/-- A brace that is never closed and a missing root are reported from the start of the source on,
and nothing is shown of a source that starts with a blank line. -/
theorem exists_error_without_fragment :
    compileWith {} "\n\x7b" = .error ⟨.unclosedBrace, ⟨0, 2⟩, ""⟩ ∧
      compileWith {} "\n<!-- empty -->" = .error ⟨.missingRoot, ⟨0, 15⟩, ""⟩ :=
  ⟨rfl, rfl⟩

end MailTemplate.Script
