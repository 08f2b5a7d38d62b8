import MailTemplate.Proofs.Edit.Step

/-!
# Runs of edits

A run carries out edits one after the other, each under settings of its own.  A refused edit leaves
the document as it is.  What every successful step keeps, every run keeps (`run_induction`).
-/

namespace MailTemplate.Edit

/-- The document after a run of edits. -/
def run (d : Document) (steps : List (GridSettings × Edit)) : Document :=
  steps.foldl (fun d step => applyOrKeep step.1 d step.2) d

/-- A run begins with its first edit. -/
@[simp] lemma run_cons (d : Document) (step : GridSettings × Edit)
    (steps : List (GridSettings × Edit)) :
    run d (step :: steps) = run (applyOrKeep step.1 d step.2) steps := rfl

/-- An edit carried out or refused either makes a step or changes nothing. -/
lemma step_or_keep (settings : GridSettings) (d : Document) (e : Edit) :
    Step settings d e (applyOrKeep settings d e) ∨ applyOrKeep settings d e = d := by
  unfold applyOrKeep
  split
  · next d' h => exact .inl (step_of_apply h)
  · exact .inr rfl

/-- What a document has and every step of a run keeps, the document has after the run. -/
theorem run_induction {p : Document → Prop} {d : Document} {steps : List (GridSettings × Edit)}
    (hd : p d) (hstep : ∀ step ∈ steps, ∀ d d', p d → Step step.1 d step.2 d' → p d') :
    p (run d steps) := by
  induction steps generalizing d with
  | nil => exact hd
  | cons step steps ih =>
    rw [run_cons]
    refine ih ?_ fun next hnext => hstep next (List.mem_cons_of_mem step hnext)
    rcases step_or_keep step.1 d step.2 with h | h
    · exact hstep step List.mem_cons_self d _ hd h
    · rwa [h]

end MailTemplate.Edit
