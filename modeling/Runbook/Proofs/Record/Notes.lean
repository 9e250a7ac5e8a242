import Mathlib.Data.List.Chain
import Runbook.Proofs.Run.Checked

set_option autoImplicit false

/-!
What is noted on records. Whatever happens to a record, an exception is only noted together with an
error, and no error is noted twice in a row; so a record has failed exactly when it has an error. An
answer makes a record in order fail exactly when it is an error or has errors.
-/
namespace Runbook

/-- No error stands twice in a row, and there is one if there is an exception. -/
structure Record.Orderly (r : Record) : Prop where
  explained : r.exception.isSome = true → r.errors ≠ []
  distinct : r.errors.IsChain (· ≠ ·)

namespace Record

private theorem addError_ne_nil (r : Record) (error : String) : (r.addError error).errors ≠ [] :=
  List.ne_nil_of_mem (mem_errors_addError.2 (.inr rfl))

namespace Orderly

variable {r r' : Record}

theorem congr (h : Orderly r) (errors : r'.errors = r.errors)
    (exception : r'.exception = r.exception) : Orderly r' := by
  constructor
  · rw [errors, exception]
    exact h.explained
  · rw [errors]
    exact h.distinct

theorem of_clean (errors : r.errors = []) (exception : r.exception = none) : Orderly r := by
  constructor
  · rw [exception]
    exact nofun
  · rw [errors]
    exact .nil

private theorem addComment (h : Orderly r) (comment : String) : Orderly (r.addComment comment) :=
  h.congr rfl rfl

theorem addError (distinct : r.errors.IsChain (· ≠ ·)) (error : String) :
    Orderly (r.addError error) := by
  refine ⟨fun _ => r.addError_ne_nil error, ?_⟩
  unfold Record.addError
  split
  · exact distinct
  · next other =>
    refine List.isChain_append.2 ⟨distinct, .singleton error, ?_⟩
    intro last there new same
    rw [List.head?_cons, Option.mem_some_iff] at same
    rintro rfl
    subst same
    exact other there

private theorem foldl {note : Record → String → Record} (h : ∀ r s, Orderly r → Orderly (note r s))
    (notes : List String) (orderly : Orderly r) : Orderly (notes.foldl note r) := by
  induction notes generalizing r with
  | nil => exact orderly
  | cons s notes ih => exact ih (h r s orderly)

private theorem expandTokens (tokens : List (String × String)) (vars : Variables) (h : Orderly r) :
    Orderly (r.expandTokens vars tokens).1 := by
  induction tokens generalizing r vars with
  | nil => exact h
  | cons e tokens ih =>
    simp only [Record.expandTokens]
    split
    · exact ih _ (h.congr rfl rfl)
    · exact ih _ (addError h.distinct _)

private theorem readPolicy (h : Orderly r) : Orderly r.readPolicy := by
  unfold Record.readPolicy
  split
  · exact h.congr rfl rfl
  · exact (addError h.distinct _).congr rfl rfl

private theorem withBlob (syn : Params.Syntax) (vars : Variables) (h : Orderly r) :
    Orderly (r.withBlob syn vars) := by
  unfold Record.withBlob
  split
  · exact h.congr rfl rfl
  · exact (addError h.distinct _).congr rfl rfl

theorem resolve (syn : Params.Syntax) (vars : Variables) (h : Orderly r) :
    Orderly (r.resolve syn vars).1 := by
  rw [resolve_eq]
  exact ((h.withBlob syn vars).expandTokens _ vars).readPolicy

theorem applyAnswer (answer : Except Action.Error Action.Outcome) (h : Orderly r) :
    Orderly (Run.applyAnswer r answer).1 := by
  cases answer with
  | ok o =>
    have commented : Orderly (o.comments.foldl Record.addComment r) :=
      foldl (fun _ comment orderly => orderly.addComment comment) o.comments h
    exact foldl (fun _ error orderly => addError orderly.distinct error) o.errors commented
  | error e =>
    simp only [Run.applyAnswer]
    split
    · exact addError h.distinct _
    · exact addError (r := r.setException e.message) h.distinct _

theorem hasErrors_iff (h : Orderly r) : r.hasErrors = true ↔ r.errors ≠ [] := by
  rw [hasErrors, Bool.or_eq_true, Bool.not_eq_true', List.isEmpty_eq_false_iff]
  exact or_iff_left_of_imp h.explained

end Orderly

end Record

def Action.fails : Except Action.Error Action.Outcome → Bool
  | .ok o => !o.passed
  | .error _ => true

namespace Record

private theorem errors_foldl_addComment (comments : List String) (r : Record) :
    (comments.foldl addComment r).errors = r.errors := by
  induction comments generalizing r with
  | nil => rfl
  | cons comment comments ih => exact ih (r.addComment comment)

private theorem errors_foldl_addError_eq_nil_iff {errors : List String} {r : Record} :
    (errors.foldl addError r).errors = [] ↔ r.errors = [] ∧ errors = [] := by
  induction errors generalizing r with
  | nil => simp
  | cons error errors ih => simp [ih, addError_ne_nil]

theorem hasErrors_applyAnswer_of_clean {r : Record} (clean : r.hasErrors = false)
    (answer : Except Action.Error Action.Outcome) :
    (Run.applyAnswer r answer).1.hasErrors = Action.fails answer := by
  obtain ⟨errors, exception⟩ := (hasErrors_eq_false_iff r).1 clean
  have orderly := (Orderly.of_clean errors exception).applyAnswer answer
  cases answer with
  | ok o =>
    have noted : (Run.applyAnswer r (.ok o)).1.errors = [] ↔ o.errors = [] := by
      change (o.errors.foldl addError (o.comments.foldl addComment r)).errors = [] ↔ _
      rw [errors_foldl_addError_eq_nil_iff, errors_foldl_addComment]
      exact and_iff_right errors
    rw [Bool.eq_iff_iff, orderly.hasErrors_iff, ne_eq, noted]
    simp [Action.fails, Action.Outcome.passed]
  | error e =>
    simp only [Run.applyAnswer]
    split
    · exact hasErrors_addError _ _
    · exact hasErrors_addError _ _

end Record

end Runbook
