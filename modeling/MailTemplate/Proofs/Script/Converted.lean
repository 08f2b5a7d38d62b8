import MailTemplate.Proofs.Affixes
import MailTemplate.Proofs.Bags
import MailTemplate.Proofs.Json.Parsed
import MailTemplate.Proofs.Script.Lexed

/-!
# Values as a script makes them

The value that a script gives an attribute can be written again as it is, unless it is a number
without a finite value, which only a box shorthand makes.  Embedded JSON comes from a text that was
read, and a value under the key of a box shorthand is never one that would be spread over four
sides, since such values are spread when they are made.

Main result: what an attribute is converted to is of this kind, and stands under the attribute's key
or under that of a side (`converted_of_convert`).
-/

namespace MailTemplate

/-! ### Characters of numbers -/

/-- A character that may stand in the text of a number. -/
def IsNumberChar (c : Char) : Prop :=
  c ≠ ',' ∧ c ≠ '<' ∧ c ≠ 'x' ∧ Text.isBlank c = false

instance : DecidablePred IsNumberChar := fun c => by
  unfold IsNumberChar
  infer_instance

/-- A digit may stand in the text of a number. -/
lemma isNumberChar_of_isDigit {c : Char} (h : c.isDigit = true) : IsNumberChar c := by
  obtain ⟨n, hn, rfl⟩ := Text.exists_digitChar h
  have hall : ∀ n < 10, IsNumberChar (Nat.digitChar n) := by decide
  exact hall n hn

/-- A letter in either case may stand in the text of a number if it may in lower case. -/
lemma isNumberChar_of_toLower {c : Char} (h : IsNumberChar c.toLower) : IsNumberChar c := by
  by_cases hupper : c.isUpper = true
  · have hall : ∀ n < 128, (Char.ofNat n).isUpper = true → Char.ofNat n ≠ 'X' →
        IsNumberChar (Char.ofNat n) := by decide
    have hlt := Text.toNat_lt_of_isUpper hupper
    have hne : c ≠ 'X' := by
      rintro rfl
      exact h.2.2.1 rfl
    rw [← Char.ofNat_toNat c] at hupper hne ⊢
    exact hall c.toNat hlt hupper hne
  · rwa [Text.toLower_of_isUpper_eq_false (Bool.not_eq_true _ ▸ hupper)] at h

namespace Binary64

/-- The characters of a text may stand in that of a number if those behind its digits may. -/
lemma isNumberChar_of_dropWhile {cs : List Char}
    (h : ∀ c ∈ cs.dropWhile Char.isDigit, IsNumberChar c) : ∀ c ∈ cs, IsNumberChar c := by
  rw [← List.takeWhile_append_dropWhile (p := Char.isDigit) (l := cs), List.forall_mem_append]
  exact ⟨fun c hc => isNumberChar_of_isDigit (List.mem_takeWhile_imp hc), h⟩

/-- The characters of an exponent may stand in the text of a number. -/
lemma isNumberChar_of_readExponent? {cs : List Char} {n : ℤ} (h : readExponent? cs = some n) :
    ∀ c ∈ cs, IsNumberChar c := by
  have hdigits : ∀ {ds : List Char} {negative : Bool},
      (if (ds.isEmpty || !ds.all Char.isDigit) = true then none
        else some (if negative = true then -(Text.digitsValue ds : ℤ)
          else (Text.digitsValue ds : ℤ))) = some n → ∀ c ∈ ds, IsNumberChar c := by
    intro ds negative hds
    split at hds
    · cases hds
    · next hall =>
      have hrun : ds ≠ [] ∧ ∀ c ∈ ds, c.isDigit = true := by simpa using hall
      exact fun c hc => isNumberChar_of_isDigit (hrun.2 c hc)
  unfold readExponent? at h
  split at h
  · exact List.forall_mem_nil _
  · next e ds =>
    split at h
    · next he =>
      have hmark : IsNumberChar e := by
        rcases he with rfl | rfl
        · decide
        · decide
      refine List.forall_mem_cons.mpr ⟨hmark, ?_⟩
      simp only at h
      split at h
      · exact List.forall_mem_cons.mpr ⟨by decide, hdigits h⟩
      · exact List.forall_mem_cons.mpr ⟨by decide, hdigits h⟩
      · exact hdigits h
    · cases h

/-- The characters of a number without sign may stand in the text of a number. -/
lemma isNumberChar_of_readUnsigned? {negative : Bool} {cs : List Char} {x : Binary64}
    (h : readUnsigned? negative cs = some x) : ∀ c ∈ cs, IsNumberChar c := by
  refine isNumberChar_of_dropWhile ?_
  unfold readUnsigned? at h
  simp only at h
  split at h
  · next r hpoint =>
    split_ifs at h
    obtain ⟨exponent, hexponent, -⟩ := Option.bind_eq_some_iff.mp h
    rw [hpoint]
    exact List.forall_mem_cons.mpr
      ⟨by decide, isNumberChar_of_dropWhile (isNumberChar_of_readExponent? hexponent)⟩
  · split_ifs at h
    obtain ⟨exponent, hexponent, -⟩ := Option.bind_eq_some_iff.mp h
    exact isNumberChar_of_readExponent? hexponent

/-- The characters of a text that is read as a number may stand in one. -/
lemma isNumberChar_of_read? {cs : List Char} {x : Binary64} (h : read? cs = some x) :
    ∀ c ∈ cs, IsNumberChar c := by
  have hbody : ∀ {negative : Bool} {body : List Char},
      (if Text.lowerAscii body = "inf".toList ∨ Text.lowerAscii body = "infinity".toList then
          some (infinite negative)
        else if Text.lowerAscii body = "nan".toList then some nan
        else readUnsigned? negative body) = some x → ∀ c ∈ body, IsNumberChar c := by
    intro negative body hread
    have hword : ∀ word : List Char, (∀ a ∈ word, IsNumberChar a) →
        Text.lowerAscii body = word → ∀ c ∈ body, IsNumberChar c := by
      intro word hall heq c hc
      refine isNumberChar_of_toLower (hall _ ?_)
      rw [← heq]
      exact List.mem_map_of_mem hc
    split at hread
    · next hinf =>
      rcases hinf with hinf | hinf
      · exact hword _ (forall_mem_of_all (by decide)) hinf
      · exact hword _ (forall_mem_of_all (by decide)) hinf
    · split at hread
      · next hnan => exact hword _ (forall_mem_of_all (by decide)) hnan
      · exact isNumberChar_of_readUnsigned? hread
  unfold read? at h
  dsimp only at h
  split at h
  · exact List.forall_mem_cons.mpr ⟨by decide, hbody h⟩
  · exact List.forall_mem_cons.mpr ⟨by decide, hbody h⟩
  · exact hbody h

end Binary64

/-! ### Lists of numbers -/

/-- A text that is read as a number is a list of that number. -/
lemma numberList?_of_read? {raw : String} {x : Binary64} (h : Binary64.read? raw.toList = some x) :
    numberList? raw = some [x] := by
  have hchars := Binary64.isNumberChar_of_read? h
  have hmarks : ∀ c ∈ raw.toList, (c == ',' || Text.isBlank c) = false := by
    intro c hc
    obtain ⟨hcomma, -, -, hblank⟩ := hchars c hc
    rw [hblank, Bool.or_false, beq_eq_false_iff_ne]
    exact hcomma
  have hunit : Text.dropTails ['p', 'x'] raw.toList = raw.toList :=
    Text.dropTails_of_not_mem ['p'] fun hx => (hchars 'x' hx).2.2.1 rfl
  have hne : raw.toList.isEmpty = false := by
    rw [List.isEmpty_eq_false_iff]
    intro hempty
    rw [hempty] at h
    cases h
  unfold numberList?
  simp only [Text.splitOn_eq_singleton hmarks, List.filter_singleton, hne, Bool.not_false,
    cond_true, List.mapM_cons, List.mapM_nil, hunit, h]
  rfl

/-- A text with a less-than sign in it is no list of numbers. -/
lemma numberList?_of_mem_less {raw : String} (h : '<' ∈ raw.toList) : numberList? raw = none := by
  obtain ⟨part, hpart, hmem⟩ := Text.exists_mem_splitOn
    (fun c => c == ',' || Text.isBlank c) (c := '<') (by decide) h
  have hne : part.isEmpty = false := by
    rw [List.isEmpty_eq_false_iff]
    exact List.ne_nil_of_mem hmem
  have hkept : part ∈ (Text.splitOn (fun c => c == ',' || Text.isBlank c) raw.toList).filter
      fun part => !part.isEmpty := List.mem_filter.mpr ⟨hpart, by rw [hne]; rfl⟩
  have hless : '<' ∈ Text.dropTails ['p', 'x'] part := Text.mem_dropTails (by decide) hmem
  cases hnumbers : numberList? raw with
  | none => rfl
  | some numbers =>
    exfalso
    unfold numberList? at hnumbers
    obtain ⟨x, hread⟩ := exists_of_mapM hnumbers part hkept
    exact (Binary64.isNumberChar_of_read? hread '<' hless).2.1 rfl

/-! ### Converted values -/

namespace Script

/-- An entry as a script makes it: embedded JSON can be read from its text, and any other value is
not one that is spread over the sides of a box. -/
structure Converted (e : String × AttributeValue) : Prop where
  json : ∀ v, e.2 = .json v → v.isContainer = true ∧ v.depth ≤ Json.maxDepth ∧ v.Proper
  box : e.2.json? = none → boxSides? e.1 e.2.css = none

/-- A text that is read as a number is spread under the key of a box shorthand. -/
lemma boxSides?_of_read? {key raw : String} {x : Binary64} (hkey : key ∈ boxKeys)
    (h : Binary64.read? raw.toList = some x) : boxSides? key raw ≠ none := by
  have hcontains : boxKeys.contains key = true := List.contains_iff_mem.mpr hkey
  unfold boxSides?
  rw [hcontains, if_pos rfl, numberList?_of_read? h]
  exact Option.some_ne_none _

/-- A bare word that is not spread is not a number under the key of a box shorthand, and its value
has the same text. -/
lemma css_bareValue {key raw : String} (hkey : key ∈ boxKeys) (h : boxSides? key raw = none) :
    (bareValue raw).css = raw := by
  unfold bareValue
  split
  · next heq => exact heq.symm
  · split
    · next heq => exact heq.symm
    · split
      · next x hx => exact absurd h (boxSides?_of_read? hkey hx)
      · rfl

/-- A bare word that is not spread has a value that is not spread. -/
lemma boxSides?_bareValue {key raw : String} (h : boxSides? key raw = none) :
    boxSides? key (bareValue raw).css = none := by
  by_cases hkey : key ∈ boxKeys
  · rw [css_bareValue hkey h]
    exact h
  · exact boxSides?_of_not_mem hkey _

/-- The sides of a box stand under the keys of sides, and are numbers. -/
lemma exists_of_boxSides? {key raw : String} {entries : List (String × AttributeValue)}
    (h : boxSides? key raw = some entries) :
    ∀ e ∈ entries, e.1 ∈ sideKeys ∧ ∃ x, e.2 = .number x := by
  have hkey : key ∈ boxKeys := by
    by_contra hnot
    rw [boxSides?_of_not_mem hnot] at h
    cases h
  have hcontains : boxKeys.contains key = true := List.contains_iff_mem.mpr hkey
  unfold boxSides? at h
  rw [hcontains, if_pos rfl] at h
  obtain ⟨numbers, -, h⟩ := Option.bind_eq_some_iff.mp h
  obtain ⟨sides, -, heq⟩ := Option.bind_eq_some_iff.mp h
  obtain rfl := Option.some.inj heq
  intro e he
  obtain ⟨⟨k, x⟩, hentry, rfl⟩ := List.mem_map.mp he
  exact ⟨Sides.mem_sideKeys hkey (k, x) hentry, x, rfl⟩

/-- An attribute of a script is converted to entries as a script makes them, under its key or under
those of sides. -/
theorem converted_of_convert {key : String} {value : RawValue} (hopens : value.Opens)
    {entries : List (String × AttributeValue)} (h : convert key value = .ok entries) :
    ∀ e ∈ entries, Converted e ∧ (e.1 = key ∨ e.1 ∈ sideKeys) := by
  have hsingle : ∀ {v : AttributeValue}, Converted (key, v) →
      ∀ e ∈ [(key, v)], Converted e ∧ (e.1 = key ∨ e.1 ∈ sideKeys) := by
    intro v hv e he
    obtain rfl := List.mem_singleton.mp he
    exact ⟨hv, .inl rfl⟩
  have hspread : ∀ {raw : String} {v : AttributeValue},
      (boxSides? key raw = none → Converted (key, v)) →
      ∀ e ∈ (boxSides? key raw).getD [(key, v)], Converted e ∧ (e.1 = key ∨ e.1 ∈ sideKeys) := by
    intro raw v hv
    cases hsides : boxSides? key raw with
    | none => exact hsingle (hv hsides)
    | some sides =>
      intro e he
      obtain ⟨hside, x, hx⟩ := exists_of_boxSides? hsides e he
      refine ⟨⟨fun v hjson => ?_, fun _ => ?_⟩, .inr hside⟩
      · rw [hx] at hjson
        cases hjson
      · exact boxSides?_of_not_mem (not_mem_boxKeys_of_sideKeys hside) _
  cases value with
  | structured raw =>
    obtain ⟨v, hparse, heq⟩ := bind_eq_ok.mp h
    obtain rfl := pure_eq_ok.mp heq
    obtain ⟨hproper, hdepth⟩ := Json.parse_proper hparse
    refine hsingle ⟨fun w hw => ?_, fun hjson => by cases hjson⟩
    obtain rfl := AttributeValue.json.inj hw
    exact ⟨Json.isContainer_of_parse hparse hopens, hdepth, hproper⟩
  | html raw =>
    obtain rfl := Except.ok.inj h
    refine hsingle ⟨fun w hw => (by cases hw), fun _ => ?_⟩
    by_cases hkey : key ∈ boxKeys
    · -- markup is no list of numbers
      have hless : '<' ∈ raw.toList := List.mem_of_mem_head? hopens
      have hnumbers := numberList?_of_mem_less hless
      change boxSides? key raw = none
      unfold boxSides?
      rw [List.contains_iff_mem.mpr hkey, if_pos rfl, hnumbers]
      rfl
    · exact boxSides?_of_not_mem hkey _
  | bare raw =>
    obtain rfl := Except.ok.inj h
    refine hspread fun hsides => ⟨fun w hw => ?_, fun _ => boxSides?_bareValue hsides⟩
    change bareValue raw = .json w at hw
    unfold bareValue at hw
    split_ifs at hw
    split at hw
    · split_ifs at hw
    · cases hw
  | quoted raw =>
    obtain rfl := Except.ok.inj h
    exact hspread fun hsides => ⟨fun w hw => (by cases hw), fun _ => hsides⟩

end Script

end MailTemplate
