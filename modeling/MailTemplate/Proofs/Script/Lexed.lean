import MailTemplate.Proofs.Script.LexicalGrammar
import MailTemplate.Proofs.Script.Reader
import MailTemplate.Script.Compile

/-!
# What the attributes of a script look like

Every attribute of a tree was scanned from a source, so its key is one that a script can hold, and
its value shows by its first character whether it is embedded JSON or inline markup.

Main result: every attribute of a tree is of this kind (`all_ofSource`).
-/

namespace MailTemplate.Script

/-! ### Tokens -/

/-- An attribute as it is scanned: under a key that a script can hold, with a value that starts as
its kind demands. -/
def IsScanned (key : String) (value : RawValue) : Prop :=
  isScriptKey key.toList = true ∧ value.Opens

/-- A token that is an attribute is one as it is scanned. -/
def Token.Scanned : Token → Prop
  | .attr a => IsScanned a.key a.value
  | _ => True

/-- The token of a piece, if it is one, is as it is scanned. -/
def Piece.Scanned : Piece → Prop
  | .gap _ => True
  | .token t _ => t.Scanned

/-- A piece that stands in front of a text is as it is scanned. -/
lemma Stands.scanned {form : Form} {p : Piece} {after : List Char} (h : Stands form p after) :
    p.Scanned := by
  cases h with
  | attr hkey hvalue =>
    refine ⟨?_, opens_scanValue hvalue⟩
    rw [String.toList_ofList]
    exact hkey
  | _ => trivial

/-- The tokens among the pieces of a text are as they are scanned. -/
lemma InPieces.scanned {form : Form} {leaf : Option Element} {ps : List Piece}
    (h : InPieces form leaf ps) : ∀ p ∈ ps, p.Scanned := by
  induction h with
  | nil => exact List.forall_mem_nil _
  | gap hgap _ ih => exact List.forall_mem_cons.mpr ⟨hgap.scanned, ih⟩
  | token htoken _ _ ih => exact List.forall_mem_cons.mpr ⟨htoken.scanned, ih⟩
  | content hend _ _ _ ih =>
    exact List.forall_mem_cons.mpr ⟨hend.scanned, List.forall_mem_cons.mpr ⟨trivial, ih⟩⟩

/-- The tokens of a source are as they are scanned. -/
lemma scanned_lex {source : List Char} {lexemes : List Lexeme} (h : lex source = .ok lexemes) :
    ∀ l ∈ lexemes, l.token.Scanned := by
  obtain ⟨ps, -, hpieces, rfl⟩ := lex_eq_ok_iff.mp h
  intro l hl
  obtain ⟨first, text, more, rfl, -⟩ := exists_of_mem_lexemesFrom hl
  exact hpieces.scanned (.token l.token text) (by simp)

/-! ### Trees -/

mutual

/-- Every attribute of a node and of the nodes in it has a property. -/
def Node.All (p : Attribute → Prop) : Node → Prop
  | .mk _ attributes body _ => (∀ a ∈ attributes, p a) ∧ body.All p

/-- Every attribute of the nodes in a body has a property. -/
def Body.All (p : Attribute → Prop) : Body → Prop
  | .empty => True
  | .children nodes => allNodes p nodes
  | .content _ => True

/-- Every attribute of nodes and of the nodes in them has a property. -/
def allNodes (p : Attribute → Prop) : List Node → Prop
  | [] => True
  | node :: nodes => node.All p ∧ allNodes p nodes

end

/-- The attributes taken from tokens are as they are scanned, and only such tokens are left. -/
lemma scanned_takeAttributes {lexemes : List Lexeme} (h : ∀ l ∈ lexemes, l.token.Scanned) :
    (∀ a ∈ (takeAttributes lexemes).1, IsScanned a.key a.value) ∧
      ∀ l ∈ (takeAttributes lexemes).2, l.token.Scanned := by
  induction lexemes with
  | nil => exact ⟨List.forall_mem_nil _, h⟩
  | cons l lexemes ih =>
    rw [List.forall_mem_cons] at h
    obtain ⟨hattributes, hleft⟩ := ih h.2
    obtain ⟨token, span⟩ := l
    cases token with
    | attr a => exact ⟨List.forall_mem_cons.mpr ⟨h.1, hattributes⟩, hleft⟩
    | _ => exact ⟨List.forall_mem_nil _, List.forall_mem_cons.mpr h⟩

/-- The attributes of a node that is read are as they are scanned, and only such tokens are left, if
this holds of the nodes in it. -/
lemma scanned_readsFirst {fuel : ℕ} {lexemes after : List Lexeme} {node : Node}
    (hlexemes : ∀ l ∈ lexemes, l.token.Scanned) (h : ReadsFirst fuel lexemes node after)
    (ih : ∀ {inside left nodes}, (∀ l ∈ inside, l.token.Scanned) →
      takeNodes fuel inside = .ok (nodes, left) →
        allNodes (fun a => IsScanned a.key a.value) nodes ∧ ∀ l ∈ left, l.token.Scanned) :
    node.All (fun a => IsScanned a.key a.value) ∧ ∀ l ∈ after, l.token.Scanned := by
  cases h with
  | bare =>
    obtain ⟨hattributes, hleft⟩ := scanned_takeAttributes (List.forall_mem_cons.mp hlexemes).2
    exact ⟨⟨hattributes, trivial⟩, hleft⟩
  | braces hbody hinside =>
    obtain ⟨hattributes, hleft⟩ := scanned_takeAttributes (List.forall_mem_cons.mp hlexemes).2
    rw [hbody, List.forall_mem_cons] at hleft
    obtain ⟨hnodes, hrest⟩ := ih hleft.2 hinside
    exact ⟨⟨hattributes, hnodes⟩, (List.forall_mem_cons.mp hrest).2⟩
  | selfClosed hbody =>
    obtain ⟨hattributes, hleft⟩ := scanned_takeAttributes (List.forall_mem_cons.mp hlexemes).2
    rw [hbody, List.forall_mem_cons] at hleft
    exact ⟨⟨hattributes, trivial⟩, hleft.2⟩
  | content hbody =>
    obtain ⟨hattributes, hleft⟩ := scanned_takeAttributes (List.forall_mem_cons.mp hlexemes).2
    rw [hbody] at hleft
    simp only [List.forall_mem_cons] at hleft
    exact ⟨⟨hattributes, trivial⟩, hleft.2.2.2⟩
  | tags hbody _ hinside =>
    obtain ⟨hattributes, hleft⟩ := scanned_takeAttributes (List.forall_mem_cons.mp hlexemes).2
    rw [hbody, List.forall_mem_cons] at hleft
    obtain ⟨hnodes, hrest⟩ := ih hleft.2 hinside
    exact ⟨⟨hattributes, hnodes⟩, (List.forall_mem_cons.mp hrest).2⟩

/-- The attributes of nodes taken from tokens are as they are scanned, and only such tokens are
left. -/
lemma scanned_takeNodes {fuel : ℕ} {lexemes rest : List Lexeme} {nodes : List Node}
    (hlexemes : ∀ l ∈ lexemes, l.token.Scanned) (h : takeNodes fuel lexemes = .ok (nodes, rest)) :
    allNodes (fun a => IsScanned a.key a.value) nodes ∧ ∀ l ∈ rest, l.token.Scanned := by
  induction fuel generalizing lexemes rest nodes with
  | zero =>
    obtain ⟨rfl, rfl⟩ := Prod.mk.inj (Except.ok.inj h)
    exact ⟨trivial, hlexemes⟩
  | succ fuel ih =>
    rcases takeNodes_eq_ok h with ⟨rfl, rfl⟩ | ⟨node, after, more, hfirst, hmore, rfl⟩
    · exact ⟨trivial, hlexemes⟩
    · obtain ⟨hnode, hafter⟩ := scanned_readsFirst hlexemes hfirst fun hl h => ih hl h
      obtain ⟨hnodes, hrest⟩ := ih hafter hmore
      exact ⟨⟨hnode, hnodes⟩, hrest⟩

/-- The attributes of the tree of a source are as they are scanned. -/
theorem all_ofSource {source : List Char} {tree : Tree} (h : Tree.ofSource source = .ok tree) :
    allNodes (fun a => IsScanned a.key a.value) tree.nodes := by
  unfold Tree.ofSource at h
  obtain ⟨lexemes, hlex, h⟩ := bind_eq_ok.mp h
  split at h
  · cases h
  · split at h
    · next nodes hnodes =>
      obtain rfl := pure_eq_ok.mp h
      unfold nodesOf at hnodes
      obtain ⟨⟨found, rest⟩, htake, hend⟩ := bind_eq_ok.mp hnodes
      simp only at hend
      split at hend
      · obtain rfl := pure_eq_ok.mp hend
        exact (scanned_takeNodes (scanned_lex hlex) htake).1
      · cases hend
    · cases h

/-- Nodes have a property in all their attributes exactly when each of them has. -/
lemma allNodes_iff {p : Attribute → Prop} {nodes : List Node} :
    allNodes p nodes ↔ ∀ node ∈ nodes, node.All p := by
  induction nodes with
  | nil => simp [allNodes]
  | cons node nodes ih => rw [allNodes, ih, List.forall_mem_cons]

/-- The attributes of a node have what all attributes of the node and in it have. -/
lemma Node.All.attributes {p : Attribute → Prop} {node : Node} (h : node.All p) :
    ∀ a ∈ node.attributes, p a := by
  cases node with
  | mk element attributes body span => exact h.1

/-- The attributes of the nodes in a node have what all attributes of it have. -/
lemma Node.All.members {p : Attribute → Prop} {node : Node} (h : node.All p) {nodes : List Node}
    (hmembers : node.members = .ok nodes) : ∀ member ∈ nodes, member.All p := by
  cases node with
  | mk element attributes body span =>
    cases body with
    | empty =>
      obtain rfl := Except.ok.inj hmembers
      exact fun member hmember => by cases hmember
    | children found =>
      obtain rfl := Except.ok.inj hmembers
      exact allNodes_iff.mp h.2
    | content text => cases hmembers

end MailTemplate.Script
