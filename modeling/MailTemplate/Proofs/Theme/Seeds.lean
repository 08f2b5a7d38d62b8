import MailTemplate.Cascade.Layers
import MailTemplate.Proofs.Affixes
import MailTemplate.Proofs.Bags
import MailTemplate.Proofs.Blanks

/-!
# Seeds of themes

A seed names a colour by three or six hexadecimal digits, in letters of either case, behind any
number of number signs and with blanks around (`Color.Spells`).  These are exactly the texts that
read as a colour (`Color.parse?_eq_some_iff`).  Among them is the text of the colour itself
(`Color.parse?_hex`), so that a palette is derived again from the text of its own seed.

Main result: a palette depends on the colour that its seed names and on nothing else, and all its
colours have texts that name them (`Palette.ofSeed_named`).
-/

namespace MailTemplate

open Json Text

namespace Color

/-! ### Digits -/

/-- The six digits of a colour. -/
def digits (c : Color) : List Char :=
  channelText c.red ++ channelText c.green ++ channelText c.blue

/-- What every character that is a hexadecimal digit has among the ASCII characters, every such
character has. -/
lemma of_hexValue? {p : Char → ℕ → Prop}
    (h : ∀ k < 128, ∀ n < 16, hexValue? (Char.ofNat k) = some n → p (Char.ofNat k) n)
    {ch : Char} {n : ℕ} (hch : hexValue? ch = some n) : p ch n := by
  have hascii : ch.toNat < 128 ∧ n < 16 := by
    unfold hexValue? at hch
    split_ifs at hch with hdigit hlower hupper
    · have hle : ch.toNat ≤ '9'.toNat := hdigit.2
      simp at hch hle
      omega
    · have hle : ch.toNat ≤ 'f'.toNat := hlower.2
      simp at hch hle
      omega
    · have hle : ch.toNat ≤ 'F'.toNat := hupper.2
      simp at hch hle
      omega
  rw [← Char.ofNat_toNat ch] at hch ⊢
  exact h ch.toNat hascii.1 n hascii.2 hch

/-- A digit has its value back. -/
lemma hexValue?_digit {n : ℕ} (hn : n < 16) : hexValue? (digit n) = some n := by
  have hall : ∀ n < 16, hexValue? (digit n) = some n := by decide
  exact hall n hn

/-- A character with a value is the digit of that value, in either case. -/
lemma digit_of_hexValue? {ch : Char} {n : ℕ} (h : hexValue? ch = some n) :
    n < 16 ∧ ch.toLower = (digit n).toLower :=
  of_hexValue? (p := fun ch n => n < 16 ∧ ch.toLower = (digit n).toLower) (by decide +kernel) h

/-- The case of a letter does not change its value. -/
lemma hexValue?_toLower (ch : Char) : hexValue? ch.toLower = hexValue? ch := by
  cases hupper : ch.isUpper with
  | false => rw [toLower_of_isUpper_eq_false hupper]
  | true => exact of_isUpper (p := fun ch => hexValue? ch.toLower = hexValue? ch) (by decide) hupper

/-- A digit is neither blank nor a number sign. -/
lemma not_blank_of_hexValue? {ch : Char} {n : ℕ} (h : hexValue? ch = some n) :
    isBlank ch = false ∧ ch ≠ '#' :=
  of_hexValue? (p := fun ch _ => isBlank ch = false ∧ ch ≠ '#') (by decide +kernel) h

/-- Two characters write a channel exactly if they are its digits, in letters of either case. -/
lemma channel?_eq_some_iff {high low : Char} {c : UInt8} :
    channel? high low = some c ↔ lowerAscii [high, low] = lowerAscii (channelText c) := by
  have hpair : lowerAscii [high, low] = lowerAscii (channelText c) ↔
      high.toLower = (digit (c.toNat / 16)).toLower ∧
        low.toLower = (digit (c.toNat % 16)).toLower := by
    unfold lowerAscii channelText
    simp
  rw [hpair]
  constructor
  · intro h
    obtain ⟨x, hx, h⟩ := Option.bind_eq_some_iff.mp h
    obtain ⟨y, hy, h⟩ := Option.bind_eq_some_iff.mp h
    obtain rfl : (x * 16 + y).toUInt8 = c := Option.some.inj h
    obtain ⟨hxlt, hhigh⟩ := digit_of_hexValue? hx
    obtain ⟨hylt, hlow⟩ := digit_of_hexValue? hy
    have hvalue : (x * 16 + y).toUInt8.toNat = x * 16 + y := by
      rw [Nat.toUInt8, UInt8.toNat_ofNat']
      omega
    have hdiv : (x * 16 + y) / 16 = x := by omega
    have hmod : (x * 16 + y) % 16 = y := by omega
    rw [hvalue, hdiv, hmod]
    exact ⟨hhigh, hlow⟩
  · rintro ⟨hhigh, hlow⟩
    -- characters that are the same in lower case have the same value
    have hsame : ∀ {a b : Char}, a.toLower = b.toLower → hexValue? a = hexValue? b := by
      intro a b hab
      rw [← hexValue?_toLower a, hab, hexValue?_toLower]
    rw [← channel?_channelText c]
    unfold channel?
    rw [hsame hhigh, hsame hlow]

/-- Three digits, each of them doubled; any other text as it is. -/
def doubled : List Char → List Char
  | [r, g, b] => [r, r, g, g, b, b]
  | cs => cs

/-- Three digits write the colour that they write doubled. -/
lemma ofDigits?_doubled (cs : List Char) : ofDigits? (doubled cs) = ofDigits? cs := by
  unfold doubled
  split
  · rfl
  · rfl

/-- Only six characters, or three that are doubled, write a colour. -/
lemma length_of_ofDigits? {cs : List Char} {c : Color} (h : ofDigits? cs = some c) :
    (doubled cs).length = 6 := by
  unfold ofDigits? at h
  split at h
  · rfl
  · rfl
  · cases h

/-- Six characters write a colour exactly if they are its digits, in letters of either case. -/
lemma ofDigits?_six_eq_some_iff {r r' g g' b b' : Char} {c : Color} :
    ofDigits? [r, r', g, g', b, b'] = some c ↔
      lowerAscii [r, r', g, g', b, b'] = lowerAscii c.digits := by
  have hparts : lowerAscii [r, r', g, g', b, b'] = lowerAscii c.digits ↔
      lowerAscii [r, r'] = lowerAscii (channelText c.red) ∧
        lowerAscii [g, g'] = lowerAscii (channelText c.green) ∧
        lowerAscii [b, b'] = lowerAscii (channelText c.blue) := by
    unfold digits lowerAscii channelText
    simp only [List.map_cons, List.map_nil, List.cons_append, List.nil_append, List.cons.injEq]
    tauto
  rw [hparts, ← channel?_eq_some_iff, ← channel?_eq_some_iff, ← channel?_eq_some_iff]
  simp only [ofDigits?, Option.bind_eq_bind, Option.bind_eq_some_iff, Option.pure_def,
    Option.some.injEq]
  constructor
  · rintro ⟨x, hx, y, hy, z, hz, rfl⟩
    exact ⟨hx, hy, hz⟩
  · rintro ⟨hred, hgreen, hblue⟩
    exact ⟨c.red, hred, c.green, hgreen, c.blue, hblue, rfl⟩

/-- A text writes a colour exactly if it has the digits of the colour, in letters of either case,
where three digits count as doubled. -/
lemma ofDigits?_eq_some_iff {cs : List Char} {c : Color} :
    ofDigits? cs = some c ↔ lowerAscii (doubled cs) = lowerAscii c.digits := by
  have hsix : (doubled cs).length = 6 →
      (ofDigits? (doubled cs) = some c ↔ lowerAscii (doubled cs) = lowerAscii c.digits) := by
    intro hlength
    match doubled cs, hlength with
    | [r, r', g, g', b, b'], _ => exact ofDigits?_six_eq_some_iff
  rw [ofDigits?_doubled] at hsix
  constructor
  · intro h
    exact (hsix (length_of_ofDigits? h)).mp h
  · intro h
    have hlength : (lowerAscii (doubled cs)).length = (lowerAscii c.digits).length := by rw [h]
    rw [lowerAscii, List.length_map] at hlength
    exact (hsix hlength).mpr h

/-- The digits of a colour have values. -/
lemma exists_hexValue?_of_mem_digits {c : Color} : ∀ ch ∈ c.digits, ∃ n, hexValue? ch = some n := by
  have hchannel : ∀ x : UInt8, ∀ ch ∈ channelText x, ∃ n, hexValue? ch = some n := by
    intro x
    have hlt := x.toNat_lt
    unfold channelText
    simp only [List.forall_mem_cons]
    exact ⟨⟨_, hexValue?_digit (by omega)⟩, ⟨_, hexValue?_digit (by omega)⟩, List.forall_mem_nil _⟩
  unfold digits
  simp only [List.forall_mem_append]
  exact ⟨⟨hchannel c.red, hchannel c.green⟩, hchannel c.blue⟩

/-- The digits that write a colour are neither blank nor number signs. -/
lemma not_blank_of_ofDigits? {cs : List Char} {c : Color} (h : ofDigits? cs = some c) :
    ∀ ch ∈ cs, isBlank ch = false ∧ ch ≠ '#' := by
  have hdoubled : ∀ ch ∈ cs, ch ∈ doubled cs := by
    unfold doubled
    split
    · simp
    · exact fun _ hch => hch
  intro ch hch
  have hlower : ch.toLower ∈ lowerAscii c.digits := by
    rw [← ofDigits?_eq_some_iff.mp h]
    exact List.mem_map_of_mem (hdoubled ch hch)
  obtain ⟨a, ha, hsame⟩ := List.mem_map.mp hlower
  obtain ⟨n, hn⟩ := exists_hexValue?_of_mem_digits a ha
  rw [← hexValue?_toLower, hsame, hexValue?_toLower] at hn
  exact not_blank_of_hexValue? hn

/-! ### Texts -/

/-- The text spells the colour: three or six of its digits, in letters of either case, behind any
number of number signs, with blanks around. -/
def Spells (text : List Char) (c : Color) : Prop :=
  ∃ (before after digits : List Char) (signs : ℕ),
    text = before ++ List.replicate signs '#' ++ digits ++ after ∧
      (∀ ch ∈ before ++ after, isBlank ch = true) ∧
      lowerAscii (doubled digits) = lowerAscii c.digits

/-- The texts that read as a colour are those that spell it. -/
theorem parse?_eq_some_iff {s : String} {c : Color} :
    parse? s = some c ↔ Spells s.toList c := by
  unfold parse?
  constructor
  · intro h
    obtain ⟨before, after, htext, hblank⟩ := exists_trim s.toList
    set signs := (trim s.toList).takeWhile (· == '#') with hsigns
    have hreplicate : signs = List.replicate signs.length '#' := by
      refine List.eq_replicate_iff.mpr ⟨rfl, ?_⟩
      intro ch hch
      simpa using List.mem_takeWhile_imp hch
    refine ⟨before, after, (trim s.toList).dropWhile (· == '#'), signs.length, ?_, hblank,
      ofDigits?_eq_some_iff.mp h⟩
    rw [← hreplicate, List.append_assoc before, hsigns, List.takeWhile_append_dropWhile]
    exact htext
  · rintro ⟨before, after, digits, signs, htext, hblank, hdigits⟩
    have hcolor : ofDigits? digits = some c := ofDigits?_eq_some_iff.mpr hdigits
    have hdigit := not_blank_of_ofDigits? hcolor
    obtain ⟨hbefore, hafter⟩ := List.forall_mem_append.mp hblank
    have hmiddle : ∀ ch ∈ List.replicate signs '#' ++ digits, isBlank ch = false := by
      refine List.forall_mem_append.mpr ⟨?_, fun ch hch => (hdigit ch hch).1⟩
      intro ch hch
      obtain rfl := List.eq_of_mem_replicate hch
      decide
    have htrim : trim s.toList = List.replicate signs '#' ++ digits := by
      rw [htext, trim_append_blanks hafter, List.append_assoc, trim_blanks_append hbefore]
      exact trim_eq_self (fun ch hch => hmiddle ch (List.mem_of_mem_head? hch))
        fun ch hch => hmiddle ch (List.mem_of_mem_getLast? hch)
    have hdrop : (List.replicate signs '#' ++ digits).dropWhile (· == '#') = digits := by
      rw [List.dropWhile_append_of_pos (by simp)]
      cases digits with
      | nil => rfl
      | cons ch digits =>
        have hne : ch ≠ '#' := (hdigit ch List.mem_cons_self).2
        exact List.dropWhile_cons_of_neg (by simpa using hne)
    rw [htrim, hdrop, hcolor]

/-- A colour reads back from its text. -/
theorem parse?_hex (c : Color) : parse? c.hex = some c := by
  refine parse?_eq_some_iff.mpr ⟨[], [], c.digits, 1, ?_, List.forall_mem_nil _, rfl⟩
  rw [hex, String.toList_ofList, List.append_nil]
  rfl

/-- The text of a colour is a number sign and six hexadecimal digits. -/
lemma exists_digits_hex (c : Color) :
    ∃ digits : List Char, c.hex.toList = '#' :: digits ∧ digits.length = 6 ∧
      ∀ ch ∈ digits, (hexValue? ch).isSome := by
  refine ⟨c.digits, String.toList_ofList, rfl, ?_⟩
  intro ch hch
  obtain ⟨n, hn⟩ := exists_hexValue?_of_mem_digits ch hch
  rw [hn]
  rfl

end Color

namespace Palette

/-- All colours of a palette. -/
def colors (p : Palette) : List Color :=
  p.levels.toList ++ [p.seed, p.light, p.base, p.action, p.textColor, p.gradientLight.start,
    p.gradientLight.stop, p.gradientDark.start, p.gradientDark.stop]

/-- A seed that reads as a colour gives the palette of that colour. -/
lemma ofSeed_of_parse? {seed : String} {c : Color} (h : Color.parse? seed = some c) :
    ofSeed seed = ofColor c := by
  unfold ofSeed
  rw [h, Option.getD_some]

/-- A seed that reads as no colour gives the palette of the default seed. -/
lemma ofSeed_of_parse?_eq_none {seed : String} (h : Color.parse? seed = none) :
    ofSeed seed = ofSeed "#8E6FF7" := by
  have hdefault : Color.parse? "#8E6FF7" = some Color.defaultSeed :=
    Color.parse?_hex Color.defaultSeed
  rw [ofSeed_of_parse? hdefault]
  unfold ofSeed
  rw [h, Option.getD_none]

/-- The palette of a colour is derived again from the text of the colour. -/
lemma ofSeed_hex (c : Color) : ofSeed c.hex = ofColor c := ofSeed_of_parse? (Color.parse?_hex c)

/-- The action colour of a palette can always be read back, so that text on it is readable. -/
lemma onAction_eq (p : Palette) : Cascade.onAction p = p.action.readableOn := by
  unfold Cascade.onAction
  rw [Color.parse?_hex, Option.map_some, Option.getD_some]

/-- A button in a theme has the text colour that is readable on the colour that its background
names. -/
lemma themeDefaults_button (scope : Cascade.Scope) (p : Palette) :
    ∃ text action,
      (Cascade.themeDefaults { scope with palette := some p } .button).text? "backgroundColor" =
        some text ∧
      Color.parse? text = some action ∧
      (Cascade.themeDefaults { scope with palette := some p } .button).text? "color" =
        some action.readableOn.hex := by
  have hlayer : Cascade.themeDefaults { scope with palette := some p } .button =
      Cascade.bag [("backgroundColor", Cascade.hue p.action),
        ("color", Cascade.hue p.action.readableOn)] := by
    unfold Cascade.themeDefaults Cascade.paletteEntries Cascade.isHeaderText
    simp [onAction_eq]
  have hget : ∀ key, (Cascade.themeDefaults { scope with palette := some p } .button).get? key =
      [("color", Cascade.hue p.action.readableOn),
        ("backgroundColor", Cascade.hue p.action)].lookup key := by
    intro key
    rw [hlayer, Cascade.bag, Attributes.get?_ofList]
    rfl
  unfold Attributes.text?
  rw [hget, hget]
  exact ⟨p.action.hex, p.action, rfl, Color.parse?_hex p.action, rfl⟩

/-- A palette depends on the colour that its seed names and on nothing else.

A seed reads as a colour exactly if it spells it.  Two seeds that read as the same colour give the
same palette, and one that reads as none gives that of the default seed, so that a palette is
derived again from the text of its own seed.  Every colour of a palette is written as a number sign
and six hexadecimal digits, and reads back from that.  In particular the background of a themed
button names a colour, on which its text is readable. -/
theorem ofSeed_named :
    (∀ seed c, Color.parse? seed = some c ↔ Color.Spells seed.toList c) ∧
      (∀ seed seed' c, Color.parse? seed = some c → Color.parse? seed' = some c →
        ofSeed seed = ofSeed seed') ∧
      (∀ seed, Color.parse? seed = none → ofSeed seed = ofSeed "#8E6FF7") ∧
      (∀ seed, ofSeed (ofSeed seed).seed.hex = ofSeed seed) ∧
      (∀ seed, ∀ c ∈ (ofSeed seed).colors,
        (∃ digits : List Char, c.hex.toList = '#' :: digits ∧ digits.length = 6 ∧
          ∀ ch ∈ digits, (hexValue? ch).isSome) ∧
        Color.parse? c.hex = some c) ∧
      ∀ (scope : Cascade.Scope) (seed : String), ∃ text action,
        let layer := Cascade.themeDefaults { scope with palette := some (ofSeed seed) } .button
        layer.text? "backgroundColor" = some text ∧ Color.parse? text = some action ∧
          layer.text? "color" = some action.readableOn.hex := by
  refine ⟨fun seed c => Color.parse?_eq_some_iff, ?_, fun seed => ofSeed_of_parse?_eq_none, ?_, ?_,
    fun scope seed => themeDefaults_button scope (ofSeed seed)⟩
  · intro seed seed' c hseed hseed'
    rw [ofSeed_of_parse? hseed, ofSeed_of_parse? hseed']
  · intro seed
    exact ofSeed_hex _
  · intro seed c _
    exact ⟨Color.exists_digits_hex c, Color.parse?_hex c⟩

/-- Two spellings of a blue give one palette, a text that is no colour gives the default one, and
the black texts of light seeds read back. -/
theorem ofSeed_named_blue :
    (Color.parse? " ##38f\n" = some ⟨0x33, 0x88, 0xFF⟩ ∧
      Color.parse? "3388Ff" = some ⟨0x33, 0x88, 0xFF⟩ ∧ ofSeed " ##38f\n" = ofSeed "3388Ff") ∧
    (Color.parse? "#38" = none ∧ ofSeed "#38" = ofSeed "#8E6FF7") ∧
    Color.black ∈ (ofSeed "#FFF").colors ∧ Color.parse? Color.black.hex = some Color.black := by
  obtain ⟨-, hsame, hnone, -, hcolors, -⟩ := ofSeed_named
  have hshort : Color.parse? " ##38f\n" = some ⟨0x33, 0x88, 0xFF⟩ := by decide +kernel
  have hlong : Color.parse? "3388Ff" = some ⟨0x33, 0x88, 0xFF⟩ := by decide +kernel
  have hfault : Color.parse? "#38" = none := by decide +kernel
  have hblack : Color.black ∈ (ofSeed "#FFF").colors := by decide +kernel
  exact ⟨⟨hshort, hlong, hsame _ _ _ hshort hlong⟩, ⟨hfault, hnone _ hfault⟩, hblack,
    (hcolors _ _ hblack).2⟩

end Palette

end MailTemplate
