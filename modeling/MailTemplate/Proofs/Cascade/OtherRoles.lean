import MailTemplate.Proofs.Cascade.Locality

/-!
# Roles without styling of their own

A row may have any name for its role.  A name that is none of the known roles brings no styling: in
every layer that looks at the role, such a row counts as one without a role, and so do the nodes in
it.

Main result: a document from which any such roles are dropped resolves to the same attributes at
every node, in every view, variant and theme (`resolve_withoutOtherRoles`).
-/

namespace MailTemplate

/-- The row without its role. -/
def Row.withoutRole (r : Row) : Row := { r with role := none }

/-- The role of the row has no styling of its own. -/
def Row.hasOtherRole (r : Row) : Bool :=
  match r.role with
  | some (.other _) => true
  | _ => false

/-- The document without the roles that have no styling of their own, at some of its rows. -/
def Document.withoutOtherRoles (d : Document) (at? : ℕ → Bool) : Document :=
  { d with rows := d.rows.mapIdx fun i r => if at? i && r.hasOtherRole then r.withoutRole else r }

namespace Cascade

lemma exists_role_of_hasOtherRole {r : Row} (h : r.hasOtherRole = true) :
    ∃ name, r.role = some (.other name) := by
  unfold Row.hasOtherRole at h
  split at h
  · next name hrole => exact ⟨name, hrole⟩
  · cases h

/-! ### Layers -/

/-- The scope in a row without its role. -/
def Scope.withoutRole (scope : Scope) : Scope := { scope with row := scope.row.withoutRole }

section Layers

variable {scope : Scope} {name : String} (h : scope.row.role = some (.other name))

include h

/-- No column stands aside in a row of another role than a header. -/
lemma isHeaderAside_other : scope.withoutRole.isHeaderAside = scope.isHeaderAside := by
  unfold Scope.isHeaderAside
  rw [h]
  rfl

/-- A role without styling brings nothing to the blocks in the row. -/
lemma roleDefaults_other (kind : BlockKind) :
    roleDefaults scope.withoutRole kind = roleDefaults scope kind := by
  have hentries : roleEntries (.other name) kind = [] := by
    cases kind <;> rfl
  unfold roleDefaults
  rw [isHeaderAside_other h, h, Option.map_some, hentries]
  rfl

/-- A row whose role has no styling does not frame the document, so that its blocks get what a
variant brings. -/
lemma variantDefaults_other (kind : BlockKind) :
    variantDefaults scope.withoutRole kind = variantDefaults scope kind := by
  have hframe : isFrameRow scope.row = false := by
    unfold isFrameRow
    rw [h]
    rfl
  unfold variantDefaults
  rw [hframe]
  rfl

/-- Text in a row whose role has no styling stands on no coloured header. -/
lemma themeDefaults_other (kind : BlockKind) :
    themeDefaults scope.withoutRole kind = themeDefaults scope kind := by
  unfold themeDefaults
  rw [h]
  rfl

/-- A block has the same layers whether its row has a role without styling or none. -/
lemma blockLayers_other (b : Block) : blockLayers scope.withoutRole b = blockLayers scope b := by
  unfold blockLayers
  rw [roleDefaults_other h, variantDefaults_other h, themeDefaults_other h]
  rfl

/-- A column has the same base whether its row has a role without styling or none. -/
lemma columnBase_other : columnBase scope.withoutRole = columnBase scope := by
  unfold columnBase
  rw [isHeaderAside_other h]
  rfl

end Layers

/-! ### Rows and documents -/

section Rows

variable (view : View) (d : Document) (palette : Option Palette) {r : Row} {name : String}
  (h : r.role = some (.other name))

include h

/-- A row has the same layers with a role without styling as with none. -/
lemma rowLayers_other :
    rowLayers view d palette r.withoutRole = rowLayers view d palette r := by
  have hrole : rowRoleDefaults r = {} := by
    unfold rowRoleDefaults
    rw [h]
  have hvariant : rowVariantDefaults d r.withoutRole = rowVariantDefaults d r := by
    unfold rowVariantDefaults isFrameRow
    rw [h]
    rfl
  have htheme : rowThemeDefaults palette r = {} := by
    unfold rowThemeDefaults
    rw [h]
    cases palette with
    | none => rfl
    | some p => rfl
  have hnone : rowThemeDefaults palette r.withoutRole = {} := by
    cases palette with
    | none => rfl
    | some p => rfl
  unfold rowLayers
  rw [hrole, hvariant, htheme, hnone]
  rfl

/-- A column resolves with its blocks alike in a row with a role without styling and in one with
none. -/
lemma resolveColumn_other (place : ℕ) (c : Column) :
    resolveColumn view d palette r.withoutRole place c =
      resolveColumn view d palette r place c := by
  have hcolumn : column view d r.withoutRole c = column view d r c := by
    have hbase : columnBase (Scope.withoutRole ⟨d, r, r.columnIndex? c.id, none, view.mobile⟩) =
        columnBase ⟨d, r, r.columnIndex? c.id, none, view.mobile⟩ := columnBase_other h
    rw [column_eq, column_eq, ← hbase]
    rfl
  have hblocks : resolveBlock view (Scope.withoutRole ⟨d, r, some place, palette, view.mobile⟩) =
      resolveBlock view ⟨d, r, some place, palette, view.mobile⟩ := by
    funext b
    unfold resolveBlock blockIn
    rw [blockLayers_other h]
  unfold resolveColumn
  rw [hcolumn, ← hblocks]
  rfl

/-- A row without a role that has no styling resolves as with it, the role itself aside. -/
lemma resolveRow_other :
    resolveRow view d palette r.withoutRole =
      { resolveRow view d palette r with role := none } := by
  have hcolumns : resolveColumn view d palette r.withoutRole = resolveColumn view d palette r := by
    funext place c
    exact resolveColumn_other view d palette h place c
  unfold resolveRow rowIn
  rw [rowLayers_other view d palette h, hcolumns]
  rfl

end Rows

/-- Roles without styling of their own leave no trace but their names.  A document without any of
them, dropped at whichever rows, resolves in every view to what it resolves to with them, except
that the rows in question have no role: all attributes of rows, containers, columns and blocks are
the same. -/
theorem resolve_withoutOtherRoles (view : View) (d : Document) (at? : ℕ → Bool) :
    resolve view (d.withoutOtherRoles at?) =
      { resolve view d with
        rows := d.rows.mapIdx fun i r =>
          let resolved := resolveRow view d (paletteOf d) r
          if at? i && r.hasOtherRole then { resolved with role := none } else resolved } := by
  have hrow : ∀ i r, resolveRow view d (paletteOf d)
        (if at? i && r.hasOtherRole then r.withoutRole else r) =
      if at? i && r.hasOtherRole then { resolveRow view d (paletteOf d) r with role := none }
      else resolveRow view d (paletteOf d) r := by
    intro i r
    split_ifs with hdropped
    · rw [Bool.and_eq_true] at hdropped
      obtain ⟨name, hrole⟩ := exists_role_of_hasOtherRole hdropped.2
      exact resolveRow_other view d (paletteOf d) hrole
    · rfl
  have hrows : (d.rows.mapIdx fun i r =>
        if at? i && r.hasOtherRole then r.withoutRole else r).map
          (resolveRow view d (paletteOf d)) =
      d.rows.mapIdx fun i r =>
        if at? i && r.hasOtherRole then { resolveRow view d (paletteOf d) r with role := none }
        else resolveRow view d (paletteOf d) r := by
    refine List.ext_getElem? fun i => ?_
    rw [List.getElem?_map, List.getElem?_mapIdx, List.getElem?_mapIdx, Option.map_map]
    exact congrArg (fun f => Option.map f d.rows[i]?) (funext (hrow i))
  unfold resolve
  rw [← hrows]
  rfl

end Cascade

end MailTemplate
