import RouterConfig.Proofs.Pp.Edit
import RouterConfig.Proofs.Tunnel.Edit

/-!
# Commands that are refused

A tunnel or a session is changed in place while its group is read, and a command that turns out
to be wrong has no way to take anything back.  It has no need to: what is refused has changed
nothing (`refused_command_changes_nothing`).  So the record never holds half of a value, and a
block of settings is there only if one of its commands was read to the end.
-/

namespace RouterConfig

/-- **A command that is refused** leaves the record as it was, whatever stands in there and wherever
in its words the command is given up.  It is refused in place for the reason for which it is
refused at all. -/
theorem refused_command_changes_nothing :
    (∀ (t left : Tunnel) (text : String) (refusal : Refusal),
      Tunnel.edit text t = .error refusal left ↔ t.apply text = .error refusal ∧ left = t) ∧
    ∀ (pp left : PpInterface) (text : String) (refusal : Refusal),
      PpInterface.edit text pp = .error refusal left ↔
        pp.apply text = .error refusal ∧ left = pp := by
  constructor
  · intro t left text refusal
    rw [Tunnel.edit_eq_whole, Edit.whole_eq_error_iff]
  · intro pp left text refusal
    rw [PpInterface.edit_eq_whole, Edit.whole_eq_error_iff]

-- the block is not made for a number of a router that cannot be read
example : Tunnel.edit "l2tp local router-id nowhere" { id := 1 } =
    .error (.fault (.invalid "router-id" "nowhere")) { id := 1 } := by rfl

/-- **Reading in place**, each command starting from what the one before left, comes to the same
record and the same refusals as putting in one command after the other. -/
theorem editLines_eq (lines : List Line) :
    (∀ t, Selection.editLines Tunnel.edit t lines = Selection.applyLines Tunnel.apply t lines) ∧
    ∀ pp, Selection.editLines PpInterface.edit pp lines =
      Selection.applyLines PpInterface.apply pp lines :=
  ⟨fun t => Selection.editLines_eq_applyLines Tunnel.edit_eq_whole t lines,
    fun pp => Selection.editLines_eq_applyLines PpInterface.edit_eq_whole pp lines⟩

end RouterConfig
