import RouterConfig.Edit
import RouterConfig.Proofs.Faults

/-!
# Edits that change a record in one step

An edit is *whole* if it changes the record in one step or leaves it as it is.  Reading first and
changing afterwards makes whole edits of whole edits; an edit that changes the record, and then
fails, is none.  A group whose commands are whole edits is read in place as it is read command by
command, since what a refused command leaves behind is what was there.
-/

namespace RouterConfig

namespace Edit

variable {ε δ ρ α σ : Type} {change : ρ → Except ε ρ} {r left : ρ} {e : ε}

/-- A setting that was read is put in, and a command without one is passed over. -/
def take (put : ρ → σ → Except ε ρ) (r : ρ) : Option σ → Except ε ρ
  | some s => put r s
  | none => .ok r

theorem modify_eq_whole (f : ρ → ρ) : (modify f : Edit ε ρ Unit) = whole fun r => .ok (f r) := rfl

/-- A check in front of a whole edit. -/
theorem check_bind_whole (fault? : ρ → Option ε) :
    (check fault? >>= fun _ => whole change) =
      whole fun r => (fault? r).elim (change r) .error := by
  funext r
  have hcheck : (check fault? : Edit ε ρ Unit) r =
      (match fault? r with
        | some e => throw e
        | none => pure () : Edit ε ρ Unit) r := rfl
  show EStateM.bind (check fault?) (fun _ => whole change) r = _
  cases hfault : fault? r with
  | some e =>
    rw [hfault] at hcheck
    simp only [EStateM.bind, hcheck, whole, hfault]
    rfl
  | none =>
    rw [hfault] at hcheck
    simp only [EStateM.bind, hcheck]
    simp only [whole, hfault]
    rfl

/-- A second change that cannot fail belongs to the first. -/
theorem whole_bind_modify (f : ρ → ρ) :
    (whole change >>= fun _ => modify f) = whole fun r => (change r).map f := by
  funext r
  show EStateM.bind (whole change) (fun _ => modify f) r = _
  cases hchange : change r with
  | error e => simp [EStateM.bind, whole, hchange, Except.map]
  | ok next =>
    simp only [EStateM.bind, whole, hchange, Except.map]
    rfl

/-- Failures may be called by other names. -/
theorem adaptExcept_whole (f : ε → δ) :
    EStateM.adaptExcept f (whole change) = whole fun r => (change r).mapError f := by
  funext r
  cases hchange : change r with
  | error e =>
    simp only [EStateM.adaptExcept, whole, hchange]
    rfl
  | ok next =>
    simp only [EStateM.adaptExcept, whole, hchange]
    rfl

/-- **A whole edit that fails** has changed nothing. -/
theorem whole_eq_error_iff :
    whole change r = .error e left ↔ change r = .error e ∧ left = r := by
  unfold whole
  cases change r with
  | error e' => simp [eq_comm (a := left)]
  | ok next => simp

end Edit

/-- **Commands that are whole edits** are put into a record in place as they are one by one. -/
theorem Selection.editLines_eq_applyLines {ρ : Type} {edit : String → Edit Refusal ρ Unit}
    {apply : ρ → String → Except Refusal ρ}
    (hedit : ∀ text, edit text = Edit.whole fun r => apply r text) (record : ρ)
    (lines : List Line) : editLines edit record lines = applyLines apply record lines := by
  induction lines generalizing record with
  | nil => rfl
  | cons line lines ih =>
    rw [editLines, applyLines, hedit, Edit.whole]
    cases apply record line.text with
    | ok next => exact ih next
    | error refusal =>
      cases refusal with
      | stop stop => rfl
      | fault fault => exact congrArg (Except.map _) (ih record)

end RouterConfig
