import MailTemplate.Grid
import MailTemplate.Toml.Reader
import MailTemplate.View

/-!
# Settings

The settings of the column grid and of rendered output, and their TOML form: a section for each, all
parts of which may be missing.  A section may also be a list of its values in order.  Keys that are
not known are skipped.
-/

namespace MailTemplate

-- powers are those of the core library, whatever else is imported
attribute [local instance (high)] instPowNat

/-- All settings. -/
structure Settings where
  grid : GridSettings := {}
  render : RenderSettings := {}
  deriving DecidableEq, Repr

/-- Why a text gives no settings: the line and the column of the fault. -/
structure SettingsError where
  line : Nat
  column : Nat
  deriving DecidableEq, Repr

namespace Settings

/-- A natural number up to a limit; a fault is the place of the value. -/
def natural (limit : Nat) : Toml → Except Nat Nat
  | .integer left n => if 0 ≤ n ∧ n ≤ limit then .ok n.toNat else .error left
  | value => .error value.left

/-- A truth value. -/
def truth : Toml → Except Nat Bool
  | .bool _ b => .ok b
  | value => .error value.left

/-- A text. -/
def text : Toml → Except Nat String
  | .text _ s => .ok s
  | value => .error value.left

/-- How each key of a section sets its part of the settings, in the order of the parts. -/
abbrev Setters (σ : Type) := List (String × (σ → Toml → Except Nat σ))

/-- The keys of the grid section. -/
def gridSetters : Setters GridSettings :=
  [("min_column_units", fun s v => return { s with minColumnUnits := ← natural 255 v }),
   ("donor_min_units", fun s v => return { s with donorMinUnits := ← natural 255 v }),
   ("new_column_units", fun s v => return { s with newColumnUnits := ← natural 255 v }),
   ("max_columns", fun s v => return { s with maxColumns := ← natural (2 ^ (64 : Nat) - 1) v })]

/-- The keys of the render section. -/
def renderSetters : Setters RenderSettings :=
  [("mobile_width", fun s v => return { s with mobileWidth := ← natural (2 ^ (32 : Nat) - 1) v }),
   ("pretty_print", fun s v => return { s with prettyPrint := ← truth v }),
   ("indent", fun s v => return { s with indent := ← text v }),
   ("asset_base_url", fun s v => return { s with assetBaseUrl := some (← text v) })]

/-- A section on top of its defaults.  A date stands for an empty section. -/
def readSection {σ : Type} (setters : Setters σ) (defaults : σ) : Toml → Except Nat σ
  | .table _ _ entries =>
    entries.foldlM (fun s e =>
      match setters.lookup e.1 with
      | some set => set s e.2
      | none => .ok s) defaults
  | .array _ items => (setters.zip items).foldlM (fun s p => p.1.2 s p.2) defaults
  | .moment _ => .ok defaults
  | .tables left items => .error ((items.head?.map Prod.fst).getD left)
  | value => .error value.left

/-- The settings of a table; a fault is the place of the value that does not fit. -/
def ofEntries (entries : Toml.Entries) : Except Nat Settings :=
  entries.foldlM (fun s e =>
    match e.1 with
    | "grid" => return { s with grid := ← readSection gridSetters {} e.2 }
    | "render" => return { s with render := ← readSection renderSetters {} e.2 }
    | _ => .ok s) {}

/-- The settings that a text gives. -/
def ofText (source : String) : Except SettingsError Settings :=
  let cs := source.toList
  let located (left : Nat) : SettingsError :=
    let (line, column) := Toml.placeOf cs left
    ⟨line, column⟩
  match Toml.parse cs with
  | .error fault => .error (located fault.rest.length)
  | .ok entries => (ofEntries entries).mapError located

end Settings

/-- The place of the fault in words. -/
def SettingsError.message (e : SettingsError) : String :=
  "TOML parse error at line " ++ toString e.line ++ ", column " ++ toString e.column

end MailTemplate
