import MailTemplate.Proofs.Script.InlineMarkup

/-!
# Elements of inline markup

The tags of a name are read off a text from left to right: an opening tag counts where it starts,
and a closing tag is taken up to its end.  An element is a single tag, or an opening tag with the
first closing tag at which its name has as many closing tags as opening ones.

Main results: one element is scanned exactly where such an element stands (`scanElement_eq_ok_iff`),
and inline markup is scanned exactly where elements stand in a row that no further element follows
(`scanHtml_eq_ok_iff`).
-/

namespace MailTemplate.Script

/-! ### Starts and ends of tags -/

/-- A tag starts where its opener stands, in letters of either case, and its name ends there. -/
lemma startsTag_iff {opener cs : List Char} : startsTag opener cs = true ↔
    ∃ written more, cs = written ++ more ∧ Text.lowerAscii written = opener ∧
      endsName more = true := by
  induction opener generalizing cs with
  | nil =>
    constructor
    · intro h
      exact ⟨[], cs, rfl, rfl, h⟩
    · rintro ⟨written, more, rfl, hwritten, hmore⟩
      obtain rfl := List.map_eq_nil_iff.mp hwritten
      exact hmore
  | cons h hs ih =>
    cases cs with
    | nil =>
      refine iff_of_false Bool.false_ne_true ?_
      rintro ⟨written, more, hcs, hwritten, -⟩
      obtain ⟨rfl, -⟩ := List.append_eq_nil_iff.mp hcs.symm
      cases hwritten
    | cons c cs =>
      rw [startsTag_cons, Bool.and_eq_true, beq_iff_eq, ih]
      constructor
      · rintro ⟨rfl, written, more, rfl, rfl, hmore⟩
        exact ⟨c :: written, more, rfl, rfl, hmore⟩
      · rintro ⟨written, more, hcs, hwritten, hmore⟩
        cases written with
        | nil => cases hwritten
        | cons w written =>
          obtain ⟨rfl, rfl⟩ := List.cons.inj hcs
          obtain ⟨rfl, rfl⟩ := List.cons.inj hwritten
          exact ⟨rfl, written, more, rfl, rfl, hmore⟩

/-- Whether a tag starts is seen before the next less-than sign. -/
lemma startsTag_append_mark {opener : List Char} (hopener : '<' ∉ opener) (cs t : List Char) :
    startsTag opener (cs ++ '<' :: t) = startsTag opener cs := by
  induction opener generalizing cs with
  | nil =>
    cases cs with
    | nil => rfl
    | cons c cs => rfl
  | cons h hs ih =>
    rw [List.mem_cons, not_or] at hopener
    cases cs with
    | nil =>
      have hlower : Char.toLower '<' = '<' := by decide
      have hne : (h == '<') = false := beq_eq_false_iff_ne.mpr (Ne.symm hopener.1)
      rw [List.nil_append, startsTag_cons, hlower, hne, Bool.false_and]
      rfl
    | cons c cs => rw [List.cons_append, startsTag_cons, startsTag_cons, ih hopener.2]

/-- A text up to its first greater-than sign. -/
def EndsTag (tag : List Char) : Prop := ∃ inside, tag = inside ++ ['>'] ∧ '>' ∉ inside

/-- What is taken through a greater-than sign ends at the first one. -/
lemma throughClose_eq_some_iff {cs tag r : List Char} :
    throughClose cs = some (tag, r) ↔ cs = tag ++ r ∧ EndsTag tag := by
  induction cs generalizing tag with
  | nil =>
    refine iff_of_false (fun h => by cases h) ?_
    rintro ⟨hcs, inside, rfl, -⟩
    simp at hcs
  | cons c cs ih =>
    rw [throughClose]
    by_cases hc : c = '>'
    · rw [if_pos hc, Option.some.injEq, Prod.mk.injEq]
      constructor
      · rintro ⟨rfl, rfl⟩
        exact ⟨rfl, [], by rw [hc]; rfl, List.not_mem_nil⟩
      · rintro ⟨hcs, inside, rfl, hinside⟩
        cases inside with
        | nil =>
          obtain ⟨rfl, rfl⟩ := List.cons.inj hcs
          exact ⟨rfl, rfl⟩
        | cons a inside =>
          obtain ⟨rfl, -⟩ := List.cons.inj hcs
          exact absurd (hc ▸ List.mem_cons_self) hinside
    · rw [if_neg hc, Option.map_eq_some_iff]
      constructor
      · rintro ⟨⟨tag', r'⟩, hrest, heq⟩
        obtain ⟨rfl, rfl⟩ := Prod.mk.inj heq
        obtain ⟨rfl, inside, rfl, hinside⟩ := ih.mp hrest
        exact ⟨rfl, c :: inside, rfl, by simp [hinside, Ne.symm hc]⟩
      · rintro ⟨hcs, inside, rfl, hinside⟩
        cases inside with
        | nil => exact absurd (List.cons.inj hcs).1 hc
        | cons a inside =>
          obtain ⟨rfl, hrest⟩ := List.cons.inj hcs
          have hmore : '>' ∉ inside := fun h => hinside (List.mem_cons_of_mem _ h)
          exact ⟨(inside ++ ['>'], r), ih.mpr ⟨hrest, inside, rfl, hmore⟩, rfl⟩

/-- A tag with a given opener, up to its end. -/
structure IsTag (opener tag : List Char) : Prop where
  starts : startsTag opener tag = true
  ends : EndsTag tag

/-- A tag starts with a less-than sign. -/
lemma startsTag_head {o cs : List Char} (h : startsTag ('<' :: o) cs = true) :
    ∃ rest, cs = '<' :: rest := by
  cases cs with
  | nil => cases h
  | cons c rest =>
    rw [startsTag_cons, Bool.and_eq_true, beq_iff_eq] at h
    exact ⟨rest, by rw [(Text.toLower_eq_iff (by decide)).mp h.1.symm]⟩

/-- A tag stands at the front of a text where it starts and is taken through its end. -/
lemma isTag_cons_iff {o : List Char} (ho : '>' ∉ o) {c : Char} {rest tag after : List Char} :
    IsTag ('<' :: o) (c :: tag) ∧ rest = tag ++ after ↔
      startsTag ('<' :: o) (c :: rest) = true ∧ throughClose rest = some (tag, after) := by
  have hopener : '>' ∉ '<' :: o := by simp [ho]
  constructor
  · rintro ⟨⟨hstarts, before, heq, hbefore⟩, rfl⟩
    have hmem : '>' ∈ c :: tag := by simp [heq]
    obtain ⟨more, hmore⟩ := startsTag_head hstarts
    obtain ⟨rfl, rfl⟩ := List.cons.inj hmore
    cases before with
    | nil => cases heq
    | cons b before =>
      obtain ⟨rfl, rfl⟩ := List.cons.inj heq
      have hnot : '>' ∉ before := fun h => hbefore (List.mem_cons_of_mem _ h)
      refine ⟨?_, throughClose_eq_some_iff.mpr ⟨rfl, before, rfl, hnot⟩⟩
      rw [← List.cons_append, startsTag_append hopener hmem, hstarts]
  · rintro ⟨hstarts, hthrough⟩
    obtain ⟨rfl, inside, rfl, hinside⟩ := throughClose_eq_some_iff.mp hthrough
    obtain ⟨more, hmore⟩ := startsTag_head hstarts
    obtain ⟨rfl, -⟩ := List.cons.inj hmore
    have hmem : '>' ∈ '<' :: (inside ++ ['>']) := by simp
    refine ⟨⟨?_, '<' :: inside, rfl, by simp [hinside]⟩, rfl⟩
    rw [← startsTag_append hopener hmem after, List.cons_append, hstarts]

/-! ### Tags of a name -/

/-- The name of an element: ASCII letters in lower case, and digits. -/
structure IsName (name : List Char) : Prop where
  nonempty : name ≠ []
  alphanum : ∀ c ∈ name, c.isAlphanum = true

/-- No mark is in a name. -/
lemma IsName.not_mem {name : List Char} (h : IsName name) {m : Char} (hm : m.isAlphanum = false) :
    m ∉ name := by
  intro hmem
  rw [h.alphanum m hmem] at hm
  cases hm

/-- What a tag does to the number of elements that are open. -/
inductive TagMark where
  | opening
  | closing
  deriving DecidableEq, Repr

/-- The tags of a name in a text, from left to right. -/
inductive HasTags (name : List Char) : List Char → List TagMark → Prop where
  | nil : HasTags name [] []
  /-- A character at which no tag of the name starts. -/
  | plain {c : Char} {cs : List Char} {tags : List TagMark}
      (hclosing : startsTag ('<' :: '/' :: name) (c :: cs) = false)
      (hopening : startsTag ('<' :: name) (c :: cs) = false) (hcs : HasTags name cs tags) :
      HasTags name (c :: cs) tags
  /-- An opening tag, inside of which the reading goes on. -/
  | opening {c : Char} {cs : List Char} {tags : List TagMark}
      (hclosing : startsTag ('<' :: '/' :: name) (c :: cs) = false)
      (hopening : startsTag ('<' :: name) (c :: cs) = true) (hcs : HasTags name cs tags) :
      HasTags name (c :: cs) (.opening :: tags)
  /-- A closing tag, behind which the reading goes on. -/
  | closing {tag cs : List Char} {tags : List TagMark}
      (htag : IsTag ('<' :: '/' :: name) tag) (hcs : HasTags name cs tags) :
      HasTags name (tag ++ cs) (.closing :: tags)

/-- Tags between those of an element that `depth` more elements are open in: they close these and
all that they open, and never more than is open. -/
structure Balanced (depth : ℕ) (tags : List TagMark) : Prop where
  closes : tags.count .closing = depth + tags.count .opening
  never_more : ∀ n, (tags.take n).count .closing ≤ depth + (tags.take n).count .opening

/-- No tags close nothing. -/
lemma balanced_nil {depth : ℕ} : Balanced depth [] ↔ depth = 0 := by
  constructor
  · intro h
    simpa using h.closes.symm
  · rintro rfl
    exact ⟨rfl, fun n => by simp⟩

/-- An opening tag is one more to close. -/
lemma balanced_opening {depth : ℕ} {tags : List TagMark} :
    Balanced depth (.opening :: tags) ↔ Balanced (depth + 1) tags := by
  constructor
  · rintro ⟨hcloses, hnever⟩
    refine ⟨by simp at hcloses; omega, fun n => ?_⟩
    have hn := hnever (n + 1)
    simp at hn
    omega
  · rintro ⟨hcloses, hnever⟩
    refine ⟨by simp; omega, fun n => ?_⟩
    cases n with
    | zero => simp
    | succ n =>
      have hn := hnever n
      simp
      omega

/-- A closing tag closes one of the elements that are open. -/
lemma balanced_closing {depth : ℕ} {tags : List TagMark} :
    Balanced depth (.closing :: tags) ↔ ∃ d, depth = d + 1 ∧ Balanced d tags := by
  constructor
  · rintro ⟨hcloses, hnever⟩
    have hfirst := hnever 1
    simp at hfirst
    obtain ⟨d, rfl⟩ : ∃ d, depth = d + 1 := ⟨depth - 1, by omega⟩
    refine ⟨d, rfl, by simp at hcloses; omega, fun n => ?_⟩
    have hn := hnever (n + 1)
    simp at hn
    omega
  · rintro ⟨d, rfl, hcloses, hnever⟩
    refine ⟨by simp; omega, fun n => ?_⟩
    cases n with
    | zero => simp
    | succ n =>
      have hn := hnever n
      simp
      omega

/-! ### The scan for the closing tag -/

/-- Inside the closing tag of the element itself, the scan goes on to its end. -/
lemma scanToClose_zero_inTag (name cs : List Char) :
    scanToClose name 0 true cs = throughClose cs := by
  induction cs with
  | nil => rfl
  | cons c cs ih =>
    rw [throughClose]
    by_cases hc : c = '>'
    · rw [if_pos hc, hc, scanToClose_end]
    · rw [if_neg hc, scanToClose_inTag _ _ _ hc, scanOn, ih]

/-- Inside the closing tag of an element inside, the scan goes on to its end and from there. -/
lemma scanToClose_succ_inTag (name : List Char) (depth : ℕ) (cs : List Char) :
    scanToClose name (depth + 1) true cs = (throughClose cs).bind fun found =>
      (scanToClose name depth false found.2).map fun p => (found.1 ++ p.1, p.2) := by
  induction cs with
  | nil => rfl
  | cons c cs ih =>
    rw [throughClose]
    by_cases hc : c = '>'
    · rw [if_pos hc, hc, scanToClose_end_inner]
      rfl
    · rw [if_neg hc, scanToClose_inTag _ _ _ hc, scanOn, ih]
      cases throughClose cs with
      | none => rfl
      | some found =>
        rw [Option.bind_some, Option.map_some, Option.bind_some, Option.map_map]
        rfl

/-- A body that a scan takes: tags that close all that is open inside, and the closing tag. -/
def ClosesAfter (name : List Char) (depth : ℕ) (body : List Char) : Prop :=
  ∃ inside closing tags, body = inside ++ closing ∧ HasTags name inside tags ∧
    Balanced depth tags ∧ IsTag ('<' :: '/' :: name) closing

section Closing

variable {name : List Char}

/-- The closing tag is not the end of a tag that starts before it. -/
lemma startsTag_before_closing {opener : List Char} (hopener : '<' ∉ opener) (h c : Char)
    (inside : List Char) {closing : List Char} (hclosing : IsTag ('<' :: '/' :: name) closing)
    (t : List Char) :
    startsTag (h :: opener) (c :: (inside ++ (closing ++ t))) =
      startsTag (h :: opener) (c :: inside) := by
  obtain ⟨written, more, rfl, hwritten, -⟩ := startsTag_iff.mp hclosing.starts
  cases written with
  | nil => cases hwritten
  | cons w written =>
    obtain rfl : w = '<' := (Text.toLower_eq_iff (by decide)).mp (List.cons.inj hwritten).1
    have happend := startsTag_append_mark hopener inside (written ++ more ++ t)
    rw [startsTag_cons, startsTag_cons]
    rw [← happend]
    rfl

variable (hname : IsName name)

include hname

/-- The scan ends at the closing tag before which all that is open inside is closed. -/
lemma scanToClose_of_closesAfter {depth : ℕ} {body : List Char}
    (h : ClosesAfter name depth body) (r : List Char) :
    scanToClose name depth false (body ++ r) = some (body, r) := by
  obtain ⟨inside, closing, tags, rfl, htags, hbalanced, hclosing⟩ := h
  have hslash : '<' ∉ '/' :: name := by simp [hname.not_mem (m := '<') (by decide)]
  have hplain : '<' ∉ name := hname.not_mem (by decide)
  have hcloser : '>' ∉ '/' :: name := by simp [hname.not_mem (m := '>') (by decide)]
  have hfirst : ∀ {tag}, IsTag ('<' :: '/' :: name) tag → ∀ t, ∃ c more, tag = c :: more ∧
      startsTag ('<' :: '/' :: name) (c :: (more ++ t)) = true ∧
      throughClose (more ++ t) = some (more, t) := by
    intro tag htag t
    obtain ⟨more, rfl⟩ := startsTag_head htag.starts
    exact ⟨'<', more, rfl, (isTag_cons_iff hcloser).mp ⟨htag, rfl⟩⟩
  induction htags generalizing depth with
  | nil =>
    obtain rfl := balanced_nil.mp hbalanced
    obtain ⟨c, more, rfl, hstarts, hthrough⟩ := hfirst hclosing r
    rw [List.nil_append, List.cons_append, scanToClose_outside, if_pos hstarts, scanOn,
      scanToClose_zero_inTag, hthrough]
    rfl
  | @plain c cs tags hnot hno hcs ih =>
    rw [List.cons_append, List.cons_append, List.append_assoc, scanToClose_outside,
      startsTag_before_closing hslash _ _ _ hclosing, hnot,
      startsTag_before_closing hplain _ _ _ hclosing, hno, if_neg Bool.false_ne_true,
      if_neg Bool.false_ne_true, scanOn, ← List.append_assoc, ih hbalanced]
    rfl
  | @opening c cs tags hnot hyes hcs ih =>
    rw [List.cons_append, List.cons_append, List.append_assoc, scanToClose_outside,
      startsTag_before_closing hslash _ _ _ hclosing, hnot,
      startsTag_before_closing hplain _ _ _ hclosing, hyes, if_neg Bool.false_ne_true,
      if_pos rfl, scanOn, ← List.append_assoc, ih (balanced_opening.mp hbalanced)]
    rfl
  | @closing tag cs tags htag hcs ih =>
    obtain ⟨d, rfl, hrest⟩ := balanced_closing.mp hbalanced
    obtain ⟨c, more, rfl, hstarts, hthrough⟩ := hfirst htag (cs ++ closing ++ r)
    rw [List.append_assoc, List.append_assoc, List.cons_append, ← List.append_assoc cs,
      scanToClose_outside, if_pos hstarts, scanOn, scanToClose_succ_inTag, hthrough,
      Option.bind_some, ih hrest]
    simp

/-- What a scan takes ends at the closing tag before which all that is open inside is closed. -/
lemma closesAfter_of_scanToClose {depth : ℕ} {cs body r : List Char}
    (h : scanToClose name depth false cs = some (body, r)) :
    ClosesAfter name depth body ∧ cs = body ++ r := by
  have hslash : '<' ∉ '/' :: name := by simp [hname.not_mem (m := '<') (by decide)]
  have hplain : '<' ∉ name := hname.not_mem (by decide)
  have hcloser : '>' ∉ '/' :: name := by simp [hname.not_mem (m := '>') (by decide)]
  induction hlength : cs.length using Nat.strong_induction_on generalizing cs depth body with
  | _ length ih =>
  cases cs with
  | nil => cases h
  | cons c rest =>
    rw [scanToClose_outside] at h
    -- one character that is no closing tag is taken, and the scan goes on behind it
    have hon : ∀ depth', scanOn name depth' false c rest = some (body, r) →
        ∃ body', body = c :: body' ∧ ClosesAfter name depth' body' ∧ rest = body' ++ r := by
      intro depth' h
      obtain ⟨⟨body', r'⟩, hrest, heq⟩ := Option.map_eq_some_iff.mp h
      obtain ⟨rfl, rfl⟩ := Prod.mk.inj heq
      exact ⟨body', rfl, ih rest.length (by rw [← hlength]; simp) hrest rfl⟩
    split at h
    · next hstarts =>
      cases depth with
      | zero =>
        rw [scanOn, scanToClose_zero_inTag] at h
        obtain ⟨⟨tag, after⟩, hthrough, heq⟩ := Option.map_eq_some_iff.mp h
        obtain ⟨rfl, rfl⟩ := Prod.mk.inj heq
        obtain ⟨hclosing, rfl⟩ := (isTag_cons_iff hcloser).mpr ⟨hstarts, hthrough⟩
        exact ⟨⟨[], c :: tag, [], rfl, .nil, balanced_nil.mpr rfl, hclosing⟩, rfl⟩
      | succ depth =>
        rw [scanOn, scanToClose_succ_inTag] at h
        obtain ⟨p, hp, heq⟩ := Option.map_eq_some_iff.mp h
        obtain ⟨⟨tag, after⟩, hthrough, hmap⟩ := Option.bind_eq_some_iff.mp hp
        obtain ⟨⟨body', r'⟩, hscan, rfl⟩ := Option.map_eq_some_iff.mp hmap
        obtain ⟨rfl, rfl⟩ := Prod.mk.inj heq
        obtain ⟨htag, rfl⟩ := (isTag_cons_iff hcloser).mpr ⟨hstarts, hthrough⟩
        have hless : after.length < length := by
          rw [← hlength]
          simp
        obtain ⟨⟨inside, closing, tags, rfl, htags, hbalanced, hclosing⟩, hafter⟩ :=
          ih after.length hless hscan rfl
        exact ⟨⟨(c :: tag) ++ inside, closing, .closing :: tags, by simp, .closing htag htags,
          balanced_closing.mpr ⟨depth, rfl, hbalanced⟩, hclosing⟩, by simpa using hafter⟩
    · next hstarts =>
      split at h
      · next hnested =>
        obtain ⟨body', rfl, ⟨inside, closing, tags, rfl, htags, hbalanced, hclosing⟩, rfl⟩ :=
          hon _ h
        rw [List.append_assoc, startsTag_before_closing hslash _ _ _ hclosing,
          Bool.not_eq_true] at hstarts
        rw [List.append_assoc, startsTag_before_closing hplain _ _ _ hclosing] at hnested
        exact ⟨⟨c :: inside, closing, .opening :: tags, rfl, .opening hstarts hnested htags,
          balanced_opening.mpr hbalanced, hclosing⟩, rfl⟩
      · next hnested =>
        obtain ⟨body', rfl, ⟨inside, closing, tags, rfl, htags, hbalanced, hclosing⟩, rfl⟩ :=
          hon _ h
        rw [List.append_assoc, startsTag_before_closing hslash _ _ _ hclosing,
          Bool.not_eq_true] at hstarts
        rw [List.append_assoc, startsTag_before_closing hplain _ _ _ hclosing,
          Bool.not_eq_true] at hnested
        exact ⟨⟨c :: inside, closing, tags, rfl, .plain hstarts hnested htags, hbalanced,
          hclosing⟩, rfl⟩

end Closing

/-! ### Elements -/

/-- The opening tag of an element of a given name. -/
structure IsOpeningTag (name tag : List Char) : Prop extends IsTag ('<' :: name) tag where
  isName : IsName name

/-- An opening tag that has no closing tag: it closes itself, or its element never has one. -/
def IsSingle (name tag : List Char) : Prop := ['/', '>'] <:+ tag ∨ name ∈ voidElements

/-- An element of inline markup. -/
inductive IsElement : List Char → Prop where
  /-- A tag that has no closing tag. -/
  | single {name tag : List Char} (htag : IsOpeningTag name tag) (hsingle : IsSingle name tag) :
      IsElement tag
  /-- An opening tag, and what follows up to the end of the first closing tag at which the name has
  as many closing tags as opening ones, that opening tag included. -/
  | enclosing {name opening inside closing : List Char} {tags : List TagMark}
      (hopening : IsOpeningTag name opening) (hsingle : ¬IsSingle name opening)
      (hinside : HasTags name inside tags) (hbalanced : Balanced 0 tags)
      (hclosing : IsTag ('<' :: '/' :: name) closing) : IsElement (opening ++ (inside ++ closing))

/-- The name of a tag is the run of letters and digits at its front, in lower case. -/
lemma startsTag_name_iff {name cs : List Char} (hname : IsName name) :
    startsTag ('<' :: name) ('<' :: cs) = true ↔
      Text.lowerAscii (cs.takeWhile Char.isAlphanum) = name := by
  have hlower : ('<' == Char.toLower '<') = true := by decide
  rw [startsTag_cons, hlower, Bool.true_and, startsTag_iff]
  constructor
  · rintro ⟨written, more, rfl, hwritten, hmore⟩
    have hall : ∀ c ∈ written, c.isAlphanum = true := by
      intro c hc
      rw [← Text.isAlphanum_toLower]
      exact hname.alphanum _ (hwritten ▸ List.mem_map_of_mem hc)
    rw [List.takeWhile_append_of_pos hall]
    cases more with
    | nil => rw [List.takeWhile_nil, List.append_nil, hwritten]
    | cons a more =>
      have ha : ¬a.isAlphanum = true := by simpa [endsName] using hmore
      rw [List.takeWhile_cons_of_neg ha, List.append_nil, hwritten]
  · intro h
    refine ⟨cs.takeWhile Char.isAlphanum, cs.dropWhile Char.isAlphanum,
      List.takeWhile_append_dropWhile.symm, h, ?_⟩
    cases hrest : cs.dropWhile Char.isAlphanum with
    | nil => rfl
    | cons a rest =>
      have hne : cs.dropWhile Char.isAlphanum ≠ [] := by rw [hrest]; exact List.cons_ne_nil a rest
      have ha := List.head_dropWhile_not Char.isAlphanum hne
      simp only [hrest, List.head_cons] at ha
      simp [endsName, ha]

/-- The letters and digits at the front of a text are a name in lower case, if there are any. -/
lemma isName_takeWhile {cs : List Char}
    (h : (Text.lowerAscii (cs.takeWhile Char.isAlphanum)).isEmpty = false) :
    IsName (Text.lowerAscii (cs.takeWhile Char.isAlphanum)) := by
  refine ⟨fun hnil => ?_, fun c hc => ?_⟩
  · rw [hnil] at h
    cases h
  obtain ⟨a, ha, rfl⟩ := List.mem_map.mp hc
  rw [Text.isAlphanum_toLower]
  exact List.mem_takeWhile_imp ha

/-- A scan tells tags that have no closing tag. -/
lemma isSingle_iff {name tag : List Char} :
    ((Text.dropTail? ['/', '>'] tag).isSome || voidElements.contains name) = true ↔
      IsSingle name tag := by
  rw [IsSingle, Bool.or_eq_true, List.contains_iff_mem, Option.isSome_iff_exists]
  refine or_congr_left ⟨?_, ?_⟩
  · rintro ⟨rest, hrest⟩
    exact ⟨rest, (Text.dropTail?_eq_some.mp hrest).symm⟩
  · rintro ⟨rest, hrest⟩
    exact ⟨rest, Text.dropTail?_eq_some.mpr hrest.symm⟩

/-- An opening tag at the front of a text gives the name there, and is what is taken first. -/
lemma IsOpeningTag.front {name opening cs rest : List Char} (hopening : IsOpeningTag name opening)
    (hcs : '<' :: cs = opening ++ rest) :
    Text.lowerAscii (cs.takeWhile Char.isAlphanum) = name ∧
      throughClose ('<' :: cs) = some (opening, rest) ∧ name.isEmpty = false := by
  have hplain := hopening.isName.not_mem (m := '>') (by decide)
  obtain ⟨more, rfl⟩ := startsTag_head hopening.starts
  obtain ⟨hstarts, -⟩ := (isTag_cons_iff hplain).mp ⟨hopening.toIsTag, (List.cons.inj hcs).2⟩
  exact ⟨(startsTag_name_iff hopening.isName).mp hstarts,
    throughClose_eq_some_iff.mpr ⟨hcs, hopening.ends⟩,
    List.isEmpty_eq_false_iff.mpr hopening.isName.nonempty⟩

/-- What is taken first behind a name is an opening tag of that name. -/
lemma isOpeningTag_of_throughClose {cs opening rest : List Char}
    (hname : IsName (Text.lowerAscii (cs.takeWhile Char.isAlphanum)))
    (hthrough : throughClose ('<' :: cs) = some (opening, rest)) :
    IsOpeningTag (Text.lowerAscii (cs.takeWhile Char.isAlphanum)) opening := by
  have hplain := hname.not_mem (m := '>') (by decide)
  obtain ⟨hcs, hends⟩ := throughClose_eq_some_iff.mp hthrough
  have hstarts := (startsTag_name_iff hname).mpr rfl
  refine ⟨⟨?_, hends⟩, hname⟩
  obtain ⟨inside, hopening, -⟩ := hends
  have hmem : '>' ∈ opening := by simp [hopening]
  rwa [hcs, startsTag_append (by simp [hplain]) hmem] at hstarts

/-- What is scanned as an element is one. -/
lemma isElement_of_scanElement {cs e r : List Char} (h : scanElement cs = .ok (e, r)) :
    IsElement e ∧ '<' :: cs = e ++ r := by
  unfold scanElement at h
  simp only at h
  split at h
  · cases h
  next hempty =>
  have hname := isName_takeWhile (Bool.not_eq_true _ ▸ hempty)
  cases hthrough : throughClose ('<' :: cs) with
  | none =>
    rw [hthrough] at h
    cases h
  | some found =>
    obtain ⟨opening, rest⟩ := found
    rw [hthrough] at h
    simp only at h
    obtain ⟨hcs, -⟩ := throughClose_eq_some_iff.mp hthrough
    have hopening := isOpeningTag_of_throughClose hname hthrough
    split at h
    · next hsingle =>
      obtain ⟨rfl, rfl⟩ := Prod.mk.inj (Except.ok.inj h)
      exact ⟨.single hopening (isSingle_iff.mp hsingle), hcs⟩
    · next hdouble =>
      split at h
      · cases h
      next body after hscan =>
      obtain ⟨rfl, rfl⟩ := Prod.mk.inj (Except.ok.inj h)
      obtain ⟨⟨inside, closing, tags, rfl, htags, hbalanced, hclosing⟩, rfl⟩ :=
        closesAfter_of_scanToClose hname hscan
      refine ⟨.enclosing hopening (fun hsingle => hdouble (isSingle_iff.mpr hsingle)) htags
        hbalanced hclosing, ?_⟩
      rw [hcs, List.append_assoc opening]

/-- An element at the front of a text is scanned. -/
lemma IsElement.scanElement_eq {cs e r : List Char} (h : IsElement e) (hcs : '<' :: cs = e ++ r) :
    scanElement cs = .ok (e, r) := by
  unfold scanElement
  cases h with
  | @single name _ htag hsingle =>
    obtain ⟨hname, hthrough, hempty⟩ := htag.front hcs
    simp only [hname, hthrough, hempty]
    rw [if_neg Bool.false_ne_true, if_pos (isSingle_iff.mpr hsingle)]
  | @enclosing name opening inside closing tags hopening hdouble htags hbalanced hclosing =>
    rw [List.append_assoc] at hcs
    obtain ⟨hname, hthrough, hempty⟩ := hopening.front hcs
    have hscan := scanToClose_of_closesAfter hopening.isName
      ⟨inside, closing, tags, rfl, htags, hbalanced, hclosing⟩ r
    simp only [hname, hthrough, hempty, hscan]
    rw [if_neg Bool.false_ne_true, if_neg fun hsingle => hdouble (isSingle_iff.mp hsingle)]

/-- An element is scanned exactly where one stands. -/
theorem scanElement_eq_ok_iff {cs e r : List Char} :
    scanElement cs = .ok (e, r) ↔ IsElement e ∧ '<' :: cs = e ++ r :=
  ⟨isElement_of_scanElement, fun h => h.1.scanElement_eq h.2⟩

/-! ### Elements in a row -/

/-- An element starts with a less-than sign and goes on with a letter or digit. -/
lemma IsElement.exists_cons {e : List Char} (h : IsElement e) :
    ∃ a p, e = '<' :: a :: p ∧ a ≠ '/' := by
  have hopening : ∀ {name tag}, IsOpeningTag name tag → ∃ a p, tag = '<' :: a :: p ∧ a ≠ '/' := by
    intro name tag htag
    obtain ⟨rest, rfl⟩ := startsTag_head htag.starts
    have hname := (startsTag_name_iff htag.isName).mp htag.starts
    cases rest with
    | nil => exact absurd hname.symm htag.isName.nonempty
    | cons a p =>
      refine ⟨a, p, rfl, fun ha => ?_⟩
      rw [ha, List.takeWhile_cons_of_neg (by decide)] at hname
      exact htag.isName.nonempty hname.symm
  cases h with
  | single htag _ => exact hopening htag
  | enclosing htag _ _ _ _ =>
    obtain ⟨a, p, rfl, ha⟩ := hopening htag
    exact ⟨a, _, rfl, ha⟩

/-- An element ends with a greater-than sign. -/
lemma IsElement.getLast? {e : List Char} (h : IsElement e) : e.getLast? = some '>' := by
  cases h with
  | single htag _ =>
    obtain ⟨inside, rfl, -⟩ := htag.ends
    exact List.getLast?_concat
  | enclosing _ _ _ _ hclosing =>
    obtain ⟨inside, rfl, -⟩ := hclosing.ends
    rw [← List.append_assoc, ← List.append_assoc]
    exact List.getLast?_concat

/-- A scan of more elements than the text has characters goes on no further. -/
lemma scanHtml_fuel {fuel fuel' : ℕ} {cs : List Char} (hfuel : cs.length < fuel)
    (hfuel' : cs.length < fuel') : scanHtml fuel cs = scanHtml fuel' cs := by
  induction fuel generalizing fuel' cs with
  | zero => omega
  | succ n ih =>
    obtain ⟨n', rfl⟩ : ∃ n', fuel' = n' + 1 := ⟨fuel' - 1, by omega⟩
    cases helement : scanElement cs with
    | error fault => rw [scanHtml, scanHtml, helement]; rfl
    | ok found =>
      obtain ⟨e, rest⟩ := found
      obtain ⟨p, -, rfl, hmark, -⟩ := scanElement_spec helement
      rw [scanHtml_succ n helement, scanHtml_succ n' helement]
      have hpos := List.length_pos_of_mem hmark
      rw [List.length_append] at hfuel hfuel'
      have htail := List.length_tail (l := rest)
      have hless : rest.tail.length < n := by omega
      have hless' : rest.tail.length < n' := by omega
      rw [ih hless hless']

/-- Inline markup is scanned again in front of any text that starts no further element. -/
lemma scanHtml_again {fuel : ℕ} {cs s r : List Char} (h : scanHtml fuel cs = .ok (s, r)) :
    ∃ p, s = '<' :: p ∧ cs = p ++ r ∧ ∀ t, StartsNone t → ∀ fuel', (p ++ t).length < fuel' →
      scanHtml fuel' (p ++ t) = .ok (s, t) := by
  obtain ⟨p, hs, hcs, -, htake⟩ := scanHtml_spec h
  refine ⟨p, hs, hcs, fun t ht fuel' hfuel => ?_⟩
  rw [← htake t ht (max fuel fuel') (le_max_left _ _)]
  exact scanHtml_fuel hfuel (hfuel.trans_le (le_max_right _ _))

/-- Elements in a row. -/
def IsElementRow (s : List Char) : Prop :=
  ∃ es : List (List Char), es ≠ [] ∧ (∀ e ∈ es, IsElement e) ∧ s = es.flatten

/-- Elements in a row end with a greater-than sign. -/
lemma IsElementRow.getLast? {s : List Char} (h : IsElementRow s) : s.getLast? = some '>' := by
  obtain ⟨es, hne, hes, rfl⟩ := h
  have hlast := (hes _ (List.getLast_mem hne)).getLast?
  rw [← List.dropLast_append_getLast hne, List.flatten_append, List.flatten_singleton,
    List.getLast?_append, hlast]
  rfl

/-- What is scanned of inline markup is elements in a row, up to a text that starts no further
element. -/
lemma isElementRow_of_scanHtml {fuel : ℕ} {cs s r : List Char} (h : scanHtml fuel cs = .ok (s, r)) :
    IsElementRow s ∧ '<' :: cs = s ++ r ∧ StartsNone r := by
  induction fuel generalizing cs s with
  | zero => cases h
  | succ fuel ih =>
    obtain ⟨e, rest, helement⟩ : ∃ e rest, scanElement cs = .ok (e, rest) := by
      rw [scanHtml] at h
      obtain ⟨⟨e, rest⟩, helement, -⟩ := bind_eq_ok.mp h
      exact ⟨e, rest, helement⟩
    rw [scanHtml_succ fuel helement] at h
    obtain ⟨he, hcs⟩ := scanElement_eq_ok_iff.mp helement
    split at h
    · next hmore =>
      obtain ⟨⟨siblings, after⟩, hsiblings, heq⟩ := bind_eq_ok.mp h
      obtain ⟨rfl, rfl⟩ := Prod.mk.inj (Except.ok.inj heq)
      obtain ⟨⟨es, -, hes, rfl⟩, hrest, hafter⟩ := ih hsiblings
      have hcons : rest = '<' :: rest.tail := List.eq_cons_of_mem_head? hmore.1
      refine ⟨⟨e :: es, List.cons_ne_nil _ _, List.forall_mem_cons.mpr ⟨he, hes⟩, rfl⟩, ?_, hafter⟩
      rw [hcs, hcons, hrest, List.append_assoc]
    · next hstop =>
      obtain ⟨rfl, rfl⟩ := Prod.mk.inj (Except.ok.inj h)
      exact ⟨⟨[e], List.cons_ne_nil _ _, by simpa using he, by simp⟩, hcs, startsNone_iff.mpr hstop⟩

/-- Elements in a row are scanned up to a text that starts no further element. -/
lemma scanHtml_of_elements {es : List (List Char)} (hne : es ≠ []) (hes : ∀ e ∈ es, IsElement e)
    {fuel : ℕ} {cs r : List Char} (hfuel : cs.length < fuel) (hcs : '<' :: cs = es.flatten ++ r)
    (hr : StartsNone r) : scanHtml fuel cs = .ok (es.flatten, r) := by
  induction es generalizing fuel cs with
  | nil => exact absurd rfl hne
  | cons e es ih =>
    obtain ⟨n, rfl⟩ : ∃ n, fuel = n + 1 := ⟨fuel - 1, by omega⟩
    obtain ⟨he, hmore⟩ := List.forall_mem_cons.mp hes
    rw [List.flatten_cons, List.append_assoc] at hcs
    have helement : scanElement cs = .ok (e, es.flatten ++ r) :=
      scanElement_eq_ok_iff.mpr ⟨he, hcs⟩
    rw [scanHtml_succ n helement]
    cases es with
    | nil =>
      rw [List.flatten_nil, List.nil_append, if_neg (startsNone_iff.mp hr), List.flatten_cons,
        List.flatten_nil, List.append_nil]
    | cons e' es =>
      obtain ⟨a, p, rfl, ha⟩ := (hmore e' List.mem_cons_self).exists_cons
      obtain ⟨b, q, rfl, -⟩ := he.exists_cons
      rw [if_pos ⟨rfl, fun hslash => ha (Option.some.inj hslash)⟩]
      have hlength := congrArg List.length hcs
      have hless : (a :: p ++ es.flatten ++ r).length < n := by
        simp at hlength ⊢
        omega
      have hsiblings := ih (List.cons_ne_nil _ _) hmore hless rfl
      rw [List.flatten_cons, List.cons_append, List.cons_append, List.tail_cons, hsiblings, ok_bind]
      rfl

/-- Inline markup is scanned exactly where elements stand in a row, up to a text that starts no
further element. -/
theorem scanHtml_eq_ok_iff {fuel : ℕ} {cs s r : List Char} (hfuel : cs.length < fuel) :
    scanHtml fuel cs = .ok (s, r) ↔ IsElementRow s ∧ '<' :: cs = s ++ r ∧ StartsNone r := by
  refine ⟨isElementRow_of_scanHtml, ?_⟩
  rintro ⟨⟨es, hne, hes, rfl⟩, hcs, hr⟩
  exact scanHtml_of_elements hne hes hfuel hcs hr

end MailTemplate.Script
