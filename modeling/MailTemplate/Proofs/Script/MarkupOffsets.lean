import MailTemplate.Proofs.Script.MarkupElements

/-!
# Inline markup by offsets

The length of inline markup can be found with positions alone: a search moves a byte offset over the
text and its copy in lower case, and counts the elements that are open.  Such a search is checked
here at every step, and has no value where an offset is not a character boundary of the text, where
the count would fall below zero, or where the steps that it may take do not suffice.

Main results: the search always has a value, and that is the size of what the scan takes
(`markupSize?_eq`), so inline markup delimits itself (`inlineMarkup_delimits_itself`).
-/

namespace MailTemplate.Script

/-! ### The checked search -/

/-- The byte offset of the first `mark` of a text. -/
def offsetOf? (mark : Char) (cs : List Char) : Option ℕ :=
  if mark ∈ cs then some (Text.utf8Size (cs.takeWhile (· != mark))) else none

/-- The text from a byte offset on; none unless that is a character boundary. -/
def from? (n : ℕ) (cs : List Char) : Option (List Char) :=
  (Text.splitBytes? n cs).map Prod.snd

/-- A text starts with `opener`, letter by letter, and a name ends there. -/
def opens (opener cs : List Char) : Bool :=
  (Text.dropHead? opener cs).any endsName

/-- The end of the closing tag that matches an element, searched for in the lower case of its text
from offset `i` on, where `depth` elements of the name are open; `some none` if the element is not
closed. -/
def closeOffset? (name lower : List Char) : (fuel depth i : ℕ) → Option (Option ℕ)
  | 0, _, _ => none
  | fuel + 1, depth, i => do
    let here ← from? i lower
    match offsetOf? '<' here with
    | none => some none
    | some offset => do
      let tail ← from? (i + offset) lower
      if opens ('<' :: '/' :: name) tail then
        match offsetOf? '>' tail with
        | none => some none
        | some width =>
          match depth with
          | 0 => none
          | 1 => some (some (i + offset + width + 1))
          | depth + 2 => closeOffset? name lower fuel (depth + 1) (i + offset + width + 1)
      else if opens ('<' :: name) tail then
        closeOffset? name lower fuel (depth + 1) (i + offset + Text.utf8Size ('<' :: name))
      else closeOffset? name lower fuel depth (i + offset + 1)

/-- The size of one element of inline markup. -/
def elementSize? (fuel : ℕ) (text : List Char) : Option (Except ScanFault ℕ) := do
  let behind ← from? 1 text
  let name := Text.lowerAscii (behind.takeWhile Char.isAlphanum)
  if name.isEmpty then some (.error .unexpected)
  else
    match offsetOf? '>' text with
    | none => some (.error (.unclosedHtml (String.ofList name)))
    | some width => do
      let (opening, _) ← Text.splitBytes? (width + 1) text
      if (Text.dropTail? ['/', '>'] opening).isSome || voidElements.contains name then
        some (.ok (width + 1))
      else
        match ← closeOffset? name (Text.lowerAscii text) fuel 1 (width + 1) with
        | none => some (.error (.unclosedHtml (String.ofList name)))
        | some stop => some (.ok stop)

/-- The size of one element of inline markup and all that follow it without a gap, where `stop` is
the end of what was measured before. -/
def markupSize? (text : List Char) : (fuel stop : ℕ) → Option (Except ScanFault ℕ)
  | 0, _ => none
  | fuel + 1, stop => do
    match ← elementSize? (fuel + 1) (← from? stop text) with
    | .error fault => some (.error fault)
    | .ok size =>
      let rest ← from? (stop + size) text
      if rest.head? = some '<' ∧ rest.tail.head? ≠ some '/' then
        markupSize? text fuel (stop + size)
      else some (.ok (stop + size))

/-! ### One search step -/

/-- Behind a text that was measured stands what follows it. -/
lemma from?_append (before cs : List Char) :
    from? (Text.utf8Size before) (before ++ cs) = some cs := by
  rw [from?, Text.splitBytes?_append]
  rfl

/-- In lower case, text is cut where it is cut as it stands. -/
lemma from?_lowerAscii (before cs : List Char) :
    from? (Text.utf8Size before) (Text.lowerAscii (before ++ cs)) = some (Text.lowerAscii cs) := by
  have happend : Text.lowerAscii (before ++ cs) = Text.lowerAscii before ++ Text.lowerAscii cs :=
    List.map_append
  rw [← Text.utf8Size_lowerAscii before, happend]
  exact from?_append _ _

/-- The lower case of a text starts a tag where the text does. -/
lemma opens_lowerAscii (opener cs : List Char) :
    opens opener (Text.lowerAscii cs) = startsTag opener cs := by
  induction opener generalizing cs with
  | nil =>
    cases cs with
    | nil => rfl
    | cons c cs =>
      show (!c.toLower.isAlphanum) = !c.isAlphanum
      rw [Text.isAlphanum_toLower]
  | cons h hs ih =>
    cases cs with
    | nil => rfl
    | cons c cs =>
      rw [startsTag_cons, ← ih]
      unfold opens
      rw [Text.lowerAscii, List.map_cons, Text.dropHead?]
      by_cases hc : h = c.toLower
      · rw [if_pos hc, hc, beq_self_eq_true, Bool.true_and]
        rfl
      · rw [if_neg hc, beq_eq_false_iff_ne.mpr hc, Bool.false_and]
        rfl

/-- The first mark of a text stands behind the text without it. -/
lemma offsetOf?_append {mark : Char} {plain : List Char} (hplain : mark ∉ plain) (t : List Char) :
    offsetOf? mark (plain ++ mark :: t) = some (Text.utf8Size plain) := by
  have hrun : ∀ c ∈ plain, (c != mark) = true := by
    intro c hc
    rw [bne_iff_ne]
    rintro rfl
    exact hplain hc
  have htake : (plain ++ mark :: t).takeWhile (· != mark) = plain :=
    takeWhile_run hrun (bne_self_eq_false mark)
  rw [offsetOf?, if_pos (by simp), htake]

/-- A mark that is no letter is found in the lower case of a text where it is in the text. -/
lemma offsetOf?_lowerAscii {mark : Char} (hmark : mark.isAlphanum = false) (cs : List Char) :
    offsetOf? mark (Text.lowerAscii cs) = offsetOf? mark cs := by
  by_cases hmem : mark ∈ cs
  · obtain ⟨plain, t, rfl, hplain⟩ := List.eq_append_cons_of_mem hmem
    have hlower : Text.lowerAscii (plain ++ mark :: t) =
        Text.lowerAscii plain ++ mark :: Text.lowerAscii t := by
      rw [Text.lowerAscii, List.map_append, List.map_cons, (Text.toLower_eq_iff hmark).mpr rfl]
      rfl
    rw [hlower, offsetOf?_append ((Text.mem_lowerAscii hmark).not.mpr hplain),
      offsetOf?_append hplain, Text.utf8Size_lowerAscii]
  · rw [offsetOf?, offsetOf?, if_neg ((Text.mem_lowerAscii hmark).not.mpr hmem), if_neg hmem]

/-- What is taken through the first greater-than sign ends one byte behind its offset. -/
lemma offsetOf?_close (cs : List Char) :
    (offsetOf? '>' cs).map (· + 1) = (throughClose cs).map fun p => Text.utf8Size p.1 := by
  by_cases hmem : '>' ∈ cs
  · obtain ⟨inside, rest, rfl, hinside⟩ := List.eq_append_cons_of_mem hmem
    have hthrough : throughClose (inside ++ '>' :: rest) = some (inside ++ ['>'], rest) :=
      throughClose_eq_some_iff.mpr ⟨by simp, inside, rfl, hinside⟩
    rw [offsetOf?_append hinside, hthrough, Option.map_some, Option.map_some,
      Text.utf8Size_append]
    rfl
  · have hthrough : throughClose cs = none := by
      cases h : throughClose cs with
      | none => rfl
      | some found =>
        obtain ⟨hcs, inside, hfound, -⟩ := throughClose_eq_some_iff.mp h
        exact absurd (by simp [hcs, hfound]) hmem
    rw [offsetOf?, if_neg hmem, hthrough]
    rfl

/-- The scan passes over text without a less-than sign. -/
lemma scanToClose_plain (name : List Char) {plain : List Char} (hplain : '<' ∉ plain)
    (depth : ℕ) (t : List Char) : scanToClose name depth false (plain ++ t) =
      (scanToClose name depth false t).map fun p => (plain ++ p.1, p.2) := by
  induction plain with
  | nil => simp
  | cons c plain ih =>
    rw [List.mem_cons, not_or] at hplain
    have hstarts : ∀ o, startsTag ('<' :: o) (c :: (plain ++ t)) = false := by
      intro o
      rw [Bool.eq_false_iff]
      intro h
      obtain ⟨rest, hrest⟩ := startsTag_head h
      exact hplain.1 (List.cons.inj hrest).1.symm
    rw [List.cons_append, scanToClose_outside, hstarts, hstarts, if_neg Bool.false_ne_true,
      if_neg Bool.false_ne_true, scanOn, ih hplain.2, Option.map_map]
    rfl

/-! ### The search for the closing tag -/

section Closing

variable {name : List Char} {fuel : ℕ} {plain rest : List Char}

/-- A step of the search goes to the next less-than sign and looks there for a tag of the name. -/
lemma closeOffset?_step (name : List Char) (hplain : '<' ∉ plain) (rest : List Char)
    (fuel depth : ℕ) (before : List Char) :
    closeOffset? name (Text.lowerAscii (before ++ (plain ++ '<' :: rest))) (fuel + 1) depth
        (Text.utf8Size before) =
      if startsTag ('<' :: '/' :: name) ('<' :: rest) then
        match offsetOf? '>' ('<' :: rest) with
        | none => some none
        | some width =>
          match depth with
          | 0 => none
          | 1 => some (some (Text.utf8Size before + Text.utf8Size plain + width + 1))
          | depth + 2 =>
            closeOffset? name (Text.lowerAscii (before ++ (plain ++ '<' :: rest))) fuel (depth + 1)
              (Text.utf8Size before + Text.utf8Size plain + width + 1)
      else if startsTag ('<' :: name) ('<' :: rest) then
        closeOffset? name (Text.lowerAscii (before ++ (plain ++ '<' :: rest))) fuel (depth + 1)
          (Text.utf8Size before + Text.utf8Size plain + Text.utf8Size ('<' :: name))
      else
        closeOffset? name (Text.lowerAscii (before ++ (plain ++ '<' :: rest))) fuel depth
          (Text.utf8Size before + Text.utf8Size plain + 1) := by
  have hhere : from? (Text.utf8Size before + Text.utf8Size plain)
      (Text.lowerAscii (before ++ (plain ++ '<' :: rest))) =
        some (Text.lowerAscii ('<' :: rest)) := by
    rw [← Text.utf8Size_append, ← List.append_assoc, from?_lowerAscii]
  rw [closeOffset?, from?_lowerAscii, Option.bind_eq_bind, Option.bind_some,
    offsetOf?_lowerAscii (by decide), offsetOf?_append hplain]
  simp only [hhere, Option.bind_some, opens_lowerAscii,
    offsetOf?_lowerAscii (show '>'.isAlphanum = false by decide)]

/-- The search from behind a text on has a value, and that is where the scan ends. -/
def EndsWithScan (name : List Char) (fuel depth : ℕ) (before cs : List Char) : Prop :=
  closeOffset? name (Text.lowerAscii (before ++ cs)) fuel (depth + 1) (Text.utf8Size before) =
    some ((scanToClose name depth false cs).map fun p => Text.utf8Size before + Text.utf8Size p.1)

/-- This many steps suffice for every text that has fewer characters. -/
def FindsClose (name : List Char) (fuel : ℕ) : Prop :=
  ∀ (depth : ℕ) (before cs : List Char), cs.length < fuel →
    EndsWithScan name fuel depth before cs

/-- Behind text that has been taken the search ends where the scan of the others does. -/
lemma FindsClose.behind (h : FindsClose name fuel) (depth : ℕ) (before : List Char)
    {taken : List Char} (htaken : taken ≠ []) (hfuel : (taken ++ rest).length < fuel + 1) :
    closeOffset? name (Text.lowerAscii (before ++ (taken ++ rest))) fuel (depth + 1)
        (Text.utf8Size before + Text.utf8Size taken) =
      some ((scanToClose name depth false rest).map fun p =>
        Text.utf8Size before + Text.utf8Size (taken ++ p.1)) := by
  have hpos := List.length_pos_iff.mpr htaken
  have hless : rest.length < fuel := by
    rw [List.length_append] at hfuel
    omega
  have hrest := h depth (before ++ taken) rest hless
  rw [EndsWithScan, List.append_assoc, Text.utf8Size_append] at hrest
  rw [hrest]
  simp only [Text.utf8Size_append, Nat.add_assoc]

/-- A closing tag of the name ends the search or one of the elements inside. -/
lemma FindsClose.closing (h : FindsClose name fuel) (hplain : '<' ∉ plain)
    (hclosing : startsTag ('<' :: '/' :: name) ('<' :: rest) = true) (depth : ℕ)
    (before : List Char) (hfuel : (plain ++ '<' :: rest).length < fuel + 1) :
    EndsWithScan name (fuel + 1) depth before (plain ++ '<' :: rest) := by
  unfold EndsWithScan
  rw [closeOffset?_step name hplain, if_pos hclosing, scanToClose_plain name hplain,
    scanToClose_outside, if_pos hclosing, scanOn]
  have hwidth := offsetOf?_close ('<' :: rest)
  rw [throughClose, if_neg (by decide)] at hwidth
  cases hthrough : throughClose rest with
  | none =>
    rw [hthrough, Option.map_none, Option.map_none, Option.map_eq_none_iff] at hwidth
    rw [hwidth]
    cases depth with
    | zero => rw [scanToClose_zero_inTag, hthrough]; rfl
    | succ d => rw [scanToClose_succ_inTag, hthrough]; rfl
  | some found =>
    obtain ⟨tag, after⟩ := found
    rw [hthrough, Option.map_some, Option.map_some, Option.map_eq_some_iff] at hwidth
    obtain ⟨width, hoffset, hend⟩ := hwidth
    have hstop : Text.utf8Size before + Text.utf8Size plain + width + 1 =
        Text.utf8Size before + Text.utf8Size (plain ++ '<' :: tag) := by
      rw [Text.utf8Size_append, ← hend]
      omega
    cases depth with
    | zero =>
      simp only [hoffset, hstop]
      rw [scanToClose_zero_inTag, hthrough]
      rfl
    | succ d =>
      have hrest : rest = tag ++ after := (throughClose_eq_some_iff.mp hthrough).1
      have htaken : plain ++ '<' :: rest = plain ++ '<' :: tag ++ after := by simp [hrest]
      rw [htaken] at hfuel ⊢
      simp only [hoffset, hstop]
      rw [h.behind d before (by simp) hfuel, scanToClose_succ_inTag, hthrough, Option.bind_some]
      simp [Function.comp_def]

/-- An opening tag of the name is one more element for the search, and it steps over the name. -/
lemma FindsClose.opening (h : FindsClose name fuel) (hname : IsName name) (hplain : '<' ∉ plain)
    (hclosing : ¬startsTag ('<' :: '/' :: name) ('<' :: rest) = true)
    (hopening : startsTag ('<' :: name) ('<' :: rest) = true) (depth : ℕ) (before : List Char)
    (hfuel : (plain ++ '<' :: rest).length < fuel + 1) :
    EndsWithScan name (fuel + 1) depth before (plain ++ '<' :: rest) := by
  unfold EndsWithScan
  rw [closeOffset?_step name hplain, if_neg hclosing, if_pos hopening,
    scanToClose_plain name hplain, scanToClose_outside, if_neg hclosing, if_pos hopening, scanOn]
  -- no letter of the name starts a tag, so the scan passes over them as well
  obtain ⟨letters, more, rfl, hletters⟩ : ∃ letters more, rest = letters ++ more ∧
      Text.lowerAscii letters = name :=
    ⟨_, _, List.takeWhile_append_dropWhile.symm, (startsTag_name_iff hname).mp hopening⟩
  have hnone : '<' ∉ letters := by
    rw [← Text.mem_lowerAscii (by decide), hletters]
    exact hname.not_mem (by decide)
  have hstop : Text.utf8Size before + Text.utf8Size plain + Text.utf8Size ('<' :: name) =
      Text.utf8Size before + Text.utf8Size (plain ++ '<' :: letters) := by
    rw [Text.utf8Size_append, Text.utf8Size_cons, Text.utf8Size_cons, ← hletters,
      Text.utf8Size_lowerAscii]
    omega
  have htaken : plain ++ '<' :: (letters ++ more) = plain ++ '<' :: letters ++ more := by simp
  rw [htaken] at hfuel ⊢
  rw [hstop, h.behind (depth + 1) before (by simp) hfuel, scanToClose_plain name hnone]
  simp [Function.comp_def]

/-- A less-than sign that starts no tag of the name is passed. -/
lemma FindsClose.other (h : FindsClose name fuel) (hplain : '<' ∉ plain)
    (hclosing : ¬startsTag ('<' :: '/' :: name) ('<' :: rest) = true)
    (hopening : ¬startsTag ('<' :: name) ('<' :: rest) = true) (depth : ℕ) (before : List Char)
    (hfuel : (plain ++ '<' :: rest).length < fuel + 1) :
    EndsWithScan name (fuel + 1) depth before (plain ++ '<' :: rest) := by
  unfold EndsWithScan
  rw [closeOffset?_step name hplain, if_neg hclosing, if_neg hopening,
    scanToClose_plain name hplain, scanToClose_outside, if_neg hclosing, if_neg hopening, scanOn]
  have hstop : Text.utf8Size before + Text.utf8Size plain + 1 =
      Text.utf8Size before + Text.utf8Size (plain ++ ['<']) := by
    rw [Text.utf8Size_append]
    rfl
  have htaken : plain ++ '<' :: rest = plain ++ ['<'] ++ rest := by simp
  rw [htaken] at hfuel ⊢
  rw [hstop, h.behind depth before (by simp) hfuel]
  simp [Function.comp_def]

/-- The search for the closing tag has a value, and that is where the scan ends. -/
lemma findsClose (hname : IsName name) (fuel : ℕ) : FindsClose name fuel := by
  induction fuel with
  | zero =>
    intro depth before cs hfuel
    exact absurd hfuel (Nat.not_lt_zero _)
  | succ fuel ih =>
    intro depth before cs hfuel
    by_cases hmem : '<' ∈ cs
    · obtain ⟨plain, rest, rfl, hplain⟩ := List.eq_append_cons_of_mem hmem
      by_cases hclosing : startsTag ('<' :: '/' :: name) ('<' :: rest) = true
      · exact ih.closing hplain hclosing depth before hfuel
      by_cases hopening : startsTag ('<' :: name) ('<' :: rest) = true
      · exact ih.opening hname hplain hclosing hopening depth before hfuel
      · exact ih.other hplain hclosing hopening depth before hfuel
    · have hscan := scanToClose_plain name hmem depth []
      rw [List.append_nil] at hscan
      rw [EndsWithScan, closeOffset?, from?_lowerAscii, Option.bind_eq_bind, Option.bind_some,
        offsetOf?_lowerAscii (by decide), offsetOf?, if_neg hmem, hscan]
      rfl

end Closing

/-! ### The search for the end of elements -/

/-- The size of an element has a value, and that is the size of what the scan takes. -/
lemma elementSize?_eq {fuel : ℕ} {cs : List Char} (hfuel : cs.length < fuel) :
    elementSize? fuel ('<' :: cs) =
      some ((scanElement cs).map fun p => Text.utf8Size p.1) := by
  have hbehind : from? 1 ('<' :: cs) = some cs := from?_append ['<'] cs
  unfold elementSize? scanElement
  rw [hbehind, Option.bind_eq_bind, Option.bind_some]
  simp only
  by_cases hempty : (Text.lowerAscii (cs.takeWhile Char.isAlphanum)).isEmpty = true
  · rw [if_pos hempty, if_pos hempty]
    rfl
  rw [if_neg hempty, if_neg hempty]
  have hname := isName_takeWhile (Bool.not_eq_true _ ▸ hempty)
  have hwidth := offsetOf?_close ('<' :: cs)
  cases hthrough : throughClose ('<' :: cs) with
  | none =>
    rw [hthrough, Option.map_none, Option.map_eq_none_iff] at hwidth
    rw [hwidth]
    rfl
  | some found =>
    obtain ⟨opening, rest⟩ := found
    rw [hthrough, Option.map_some, Option.map_eq_some_iff] at hwidth
    obtain ⟨width, hoffset, hend⟩ := hwidth
    obtain ⟨hcs, -⟩ := throughClose_eq_some_iff.mp hthrough
    have hsplit : Text.splitBytes? (width + 1) ('<' :: cs) = some (opening, rest) := by
      rw [hend, hcs]
      exact Text.splitBytes?_append opening rest
    simp only [hoffset, hsplit, Option.bind_eq_bind, Option.bind_some]
    split
    · rw [hend]
      rfl
    · have hrest : rest.length < fuel := by
        have hlength := congrArg List.length hcs
        have hpos : 0 < opening.length := by
          refine List.length_pos_iff.mpr ?_
          rintro rfl
          cases hend
        rw [List.length_cons, List.length_append] at hlength
        omega
      rw [hcs, hend, findsClose hname fuel 0 opening rest hrest, Option.bind_some]
      cases scanToClose (Text.lowerAscii (cs.takeWhile Char.isAlphanum)) 0 false rest with
      | none => rfl
      | some body =>
        rw [Option.map_some, ← Text.utf8Size_append]
        rfl

/-- The size of inline markup has a value, and that is the size of what the scan takes. -/
theorem markupSize?_eq {fuel : ℕ} (before : List Char) {cs : List Char} (hfuel : cs.length < fuel) :
    markupSize? (before ++ '<' :: cs) fuel (Text.utf8Size before) =
      some ((scanHtml (cs.length + 1) cs).map fun p =>
        Text.utf8Size before + Text.utf8Size p.1) := by
  induction fuel generalizing before cs with
  | zero => omega
  | succ fuel ih =>
    rw [markupSize?, from?_append]
    simp only [Option.bind_eq_bind, Option.bind_some, elementSize?_eq hfuel]
    cases helement : scanElement cs with
    | error fault =>
      rw [scanHtml, helement]
      rfl
    | ok found =>
      obtain ⟨e, rest⟩ := found
      obtain ⟨p, rfl, rfl, hmark, -⟩ := scanElement_spec helement
      have hpos := List.length_pos_of_mem hmark
      rw [List.length_append] at hfuel
      have hbefore : before ++ '<' :: (p ++ rest) = (before ++ '<' :: p) ++ rest := by simp
      have hrest : from? (Text.utf8Size before + Text.utf8Size ('<' :: p))
          (before ++ '<' :: (p ++ rest)) = some rest := by
        rw [hbefore, ← Text.utf8Size_append]
        exact from?_append _ _
      simp only [Except.map, hrest, Option.bind_some]
      rw [scanHtml_succ _ helement]
      by_cases hmore : rest.head? = some '<' ∧ rest.tail.head? ≠ some '/'
      · -- one more element, for which the steps left suffice since the first one is not empty
        rw [if_pos hmore, if_pos hmore]
        have hcons : rest = '<' :: rest.tail := List.eq_cons_of_mem_head? hmore.1
        have hlength := congrArg List.length hcons
        rw [List.length_cons] at hlength
        have hless : rest.tail.length < (p ++ rest).length := by
          rw [List.length_append]
          omega
        have hshorter : rest.tail.length < fuel := by omega
        have hsiblings := ih (before ++ '<' :: p) hshorter
        rw [← hcons, ← hbefore, Text.utf8Size_append,
          scanHtml_fuel (Nat.lt_succ_self _) hless] at hsiblings
        rw [hsiblings]
        cases scanHtml (p ++ rest).length rest.tail with
        | error fault => rfl
        | ok found =>
          rw [ok_bind]
          simp only [Except.map, pure, Except.pure, Text.utf8Size_append, Nat.add_assoc]
      · rw [if_neg hmore, if_neg hmore]

/-! ### Inline markup delimits itself -/

/-- A scan of inline markup ends on every text, and measured in bytes it never leaves the text, a
character or the elements that are open.  It takes exactly the elements that stand in a row up to a
text that starts no further one.  What it takes is a part of the text that ends with a greater-than
sign, is inline markup as a whole, and is taken again in front of any text that starts no further
element. -/
theorem inlineMarkup_delimits_itself (cs : List Char) :
    (∀ fuel, cs.length < fuel →
      scanHtml fuel cs = scanHtml (cs.length + 1) cs ∧
      markupSize? ('<' :: cs) fuel 0 =
        some ((scanHtml (cs.length + 1) cs).map fun p => Text.utf8Size p.1)) ∧
    ∀ s r,
      (scanHtml (cs.length + 1) cs = .ok (s, r) ↔
        IsElementRow s ∧ '<' :: cs = s ++ r ∧ StartsNone r) ∧
      (scanHtml (cs.length + 1) cs = .ok (s, r) →
        Text.utf8Size s ≤ Text.utf8Size ('<' :: cs) ∧
        Text.splitBytes? (Text.utf8Size s) ('<' :: cs) = some (s, r) ∧
        s.getLast? = some '>' ∧ isInlineHtml s = true ∧
        ∀ t, StartsNone t → scanHtml (s ++ t).length (s ++ t).tail = .ok (s, t)) := by
  have hlong : cs.length < cs.length + 1 := Nat.lt_succ_self _
  refine ⟨fun fuel hfuel => ⟨scanHtml_fuel hfuel hlong, ?_⟩, fun s r =>
    ⟨scanHtml_eq_ok_iff hlong, fun h => ?_⟩⟩
  · have hsize := markupSize?_eq [] hfuel
    simpa using hsize
  · obtain ⟨hrow, hcs, -⟩ := isElementRow_of_scanHtml h
    obtain ⟨p, rfl, -, hagain⟩ := scanHtml_again h
    have halone := hagain [] (fun more hmore => by cases hmore) ('<' :: p).length (by simp)
    rw [List.append_nil] at halone
    refine ⟨?_, ?_, hrow.getLast?, ?_, fun t ht => ?_⟩
    · rw [hcs, Text.utf8Size_append]
      omega
    · rw [hcs]
      exact Text.splitBytes?_append _ _
    · unfold isInlineHtml
      simp only [halone]
    · rw [List.cons_append, List.tail_cons]
      exact hagain t ht _ (Nat.lt_succ_self _)

/-- Nested elements of one name, a longer name, a void element and a sibling, before a closing
tag. -/
theorem inlineMarkup_delimits_itself_nested :
    scanHtml 46 "P>é<pre></pre><p a=1>x</P ></p><br><i/></div>".toList =
      .ok ("<P>é<pre></pre><p a=1>x</P ></p><br><i/>".toList, "</div>".toList) ∧
    isInlineHtml "<P>é<pre></pre><p a=1>x</P ></p><br><i/>".toList = true := by
  have hscan : scanHtml 46 "P>é<pre></pre><p a=1>x</P ></p><br><i/></div>".toList =
      .ok ("<P>é<pre></pre><p a=1>x</P ></p><br><i/>".toList, "</div>".toList) := by decide +kernel
  obtain ⟨-, -, -, hinline, -⟩ := ((inlineMarkup_delimits_itself _).2 _ _).2 hscan
  exact ⟨hscan, hinline⟩

end MailTemplate.Script
