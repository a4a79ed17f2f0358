import RouterConfig.Proofs.Faults

/-!
# Reading a group command by command

As long as no command is refused, reading a group is putting its commands into a
record one after the other.  So a group either makes one record, which was reached
in this way, or it makes none.
-/

namespace RouterConfig.Selection

variable {ρ : Type} {apply : ρ → String → Except Refusal ρ}

section Command

variable {σ : Type} {result : Except Refusal (Option σ)} {change : σ → Except LineFault ρ}
  {go : Option σ → Except Refusal ρ} {r next : ρ}

/-- A setting that was read is put in, and a command without one is passed over. -/
theorem bind_put_ok_iff (hnone : go none = .ok r := by rfl)
    (hsome : ∀ s, go (some s) = refuse (change s) := by intro _; rfl) :
    (result >>= go) = .ok next ↔
      (result = .ok none ∧ next = r) ∨ ∃ s, result = .ok (some s) ∧ change s = .ok next := by
  rw [bind_eq_ok_iff]
  constructor
  · rintro ⟨setting?, hresult, h⟩
    cases setting? with
    | none => exact Or.inl ⟨hresult, (Except.ok.inj (hnone.symm.trans h)).symm⟩
    | some s => exact Or.inr ⟨s, hresult, refuse_eq_ok_iff.mp ((hsome s).symm.trans h)⟩
  · rintro (⟨hresult, rfl⟩ | ⟨s, hresult, h⟩)
    · exact ⟨none, hresult, hnone⟩
    · exact ⟨some s, hresult, (hsome s).trans (refuse_eq_ok_iff.mpr h)⟩

/-- Only what stops the reading of a command stops more than that command. -/
theorem bind_put_stop_iff (hnone : go none = .ok r := by rfl)
    (hsome : ∀ s, go (some s) = refuse (change s) := by intro _; rfl) :
    (∃ stop, (result >>= go) = .error (.stop stop)) ↔ ∃ stop, result = .error (.stop stop) := by
  cases result with
  | error refusal => simp [Bind.bind, Except.bind]
  | ok setting? =>
    cases setting? with
    | none => simp [hnone]
    | some s => simp [hsome, refuse_ne_stop]

end Command

/-- Commands none of which is refused. -/
theorem applyLines_of_ok {record out : ρ} {lines : List Line}
    (h : (lines.map Line.text).foldlM apply record = .ok out) :
    applyLines apply record lines = .ok (out, []) := by
  induction lines generalizing record with
  | nil =>
    cases h
    rfl
  | cons line lines ih =>
    rw [List.map_cons, List.foldlM_cons] at h
    rw [applyLines]
    cases happly : apply record line.text with
    | error refusal =>
      rw [happly] at h
      cases h
    | ok next =>
      rw [happly] at h
      exact ih h

/-- When nothing was refused, every command was put in. -/
theorem ok_of_applyLines {record out : ρ} {lines : List Line}
    (h : applyLines apply record lines = .ok (out, [])) :
    (lines.map Line.text).foldlM apply record = .ok out := by
  induction lines generalizing record with
  | nil =>
    cases h
    rfl
  | cons line lines ih =>
    rw [applyLines] at h
    rw [List.map_cons, List.foldlM_cons]
    cases happly : apply record line.text with
    | ok next =>
      rw [happly] at h
      exact ih h
    | error refusal =>
      rw [happly] at h
      cases refusal with
      | stop stop => cases h
      | fault fault =>
        -- the refused command would be among those given back
        cases hrest : applyLines apply record lines with
        | error stop =>
          rw [hrest] at h
          cases h
        | ok rest =>
          rw [hrest] at h
          cases h

/-- **A group is read to its end, unless a command in it stops the reading.**  Whether
one does is for the command to say, and not for the record. -/
theorem exists_applyLines_iff {P : String → Prop} {lines : List Line}
    (hstop : ∀ record, ∀ line ∈ lines,
      (∃ stop, apply record line.text = .error (.stop stop)) ↔ P line.text) (record : ρ) :
    (∃ out, applyLines apply record lines = .ok out) ↔ ∀ line ∈ lines, ¬ P line.text := by
  induction lines generalizing record with
  | nil => exact iff_of_true ⟨_, rfl⟩ (by simp)
  | cons line lines ih =>
    have hrest := ih fun r l hl => hstop r l (List.mem_cons_of_mem _ hl)
    have hfirst := hstop record line (List.mem_cons_self ..)
    rw [List.forall_mem_cons, applyLines]
    cases happly : apply record line.text with
    | ok next =>
      have hgoes : ¬ P line.text := by simp [← hfirst, happly]
      rw [and_iff_right hgoes, ← hrest next]
    | error refusal =>
      cases refusal with
      | stop stop =>
        have hstops : P line.text := hfirst.mp ⟨stop, happly⟩
        simp [hstops]
      | fault fault =>
        have hgoes : ¬ P line.text := by simp [← hfirst, happly]
        rw [and_iff_right hgoes, ← hrest record]
        constructor
        · rintro ⟨out, hout⟩
          obtain ⟨others, hothers, -⟩ := map_eq_ok_iff.mp hout
          exact ⟨others, hothers⟩
        · rintro ⟨out, hout⟩
          exact ⟨_, by rw [hout]; rfl⟩

section Steps

variable {ε σ α : Type} {step : σ → α → Except ε σ}

/-- **What every step keeps holds at the end.** -/
theorem holds_of_foldlM {P : σ → Prop} {xs : List α}
    (hstep : ∀ s, P s → ∀ x ∈ xs, ∀ next, step s x = .ok next → P next) {start out : σ}
    (hstart : P start) (h : xs.foldlM step start = .ok out) : P out := by
  induction xs generalizing start with
  | nil =>
    cases h
    exact hstart
  | cons x xs ih =>
    rw [List.foldlM_cons] at h
    obtain ⟨next, hnext, hrest⟩ := bind_eq_ok_iff.mp h
    have hfirst : P next := hstep start hstart x (List.mem_cons_self ..) next hnext
    exact ih (fun s hs y hy => hstep s hs y (List.mem_cons_of_mem _ hy)) hfirst hrest

/-- Steps that do the same. -/
theorem foldlM_map_congr {δ β : Type} {other : σ → β → Except δ σ} {f : α → β} {xs : List α}
    (h : ∀ x ∈ xs, ∀ s next, step s x = .ok next → other s (f x) = .ok next) {start out : σ}
    (hrun : xs.foldlM step start = .ok out) : (xs.map f).foldlM other start = .ok out := by
  induction xs generalizing start with
  | nil =>
    cases hrun
    rfl
  | cons x xs ih =>
    rw [List.foldlM_cons] at hrun
    obtain ⟨next, hnext, hrest⟩ := bind_eq_ok_iff.mp hrun
    rw [List.map_cons, List.foldlM_cons, h x (List.mem_cons_self ..) start next hnext]
    exact ih (fun y hy => h y (List.mem_cons_of_mem _ hy)) hrest

/-- **Saying one field** that may be absent sets this field of the record that is there, in which
it is absent, before the rest is said. -/
theorem foldlM_say {β : Type} {f : β → α} {start : σ} (set : σ → Option β → σ) {field : Option β}
    {rest : List α} (hnone : set start none = start := by rfl)
    (hsome : ∀ v, step start (f v) = .ok (set start (some v)) := by intro _; rfl) :
    (field.toList.map f ++ rest).foldlM step start = rest.foldlM step (set start field) := by
  cases field with
  | none => rw [Option.toList_none, List.map_nil, List.nil_append, hnone]
  | some v =>
    rw [Option.toList_some, List.map_singleton, List.singleton_append, List.foldlM_cons, hsome,
      ok_bind]

end Steps

variable {feature kind id : String} {checked : ρ → Decoded ρ}

/-- **A group of which no command is refused** makes the record it leads to. -/
theorem decode_of_ok {start out : ρ} {lines : List Line}
    (h : (lines.map Line.text).foldlM apply start = .ok out) :
    decode feature kind id apply checked start lines = .ok (checked out) := by
  rw [decode, applyLines_of_ok h]
  rfl

/-- **A group makes one record or none.** -/
theorem records_of_decode {start : ρ} {lines : List Line} {d : Decoded ρ}
    (h : decode feature kind id apply checked start lines = .ok d) :
    d.records = [] ∨
      ∃ out, (lines.map Line.text).foldlM apply start = .ok out ∧ d = checked out := by
  obtain ⟨⟨record, refused⟩, hlines, h⟩ := bind_eq_ok_iff.mp h
  cases refused with
  | nil =>
    cases h
    exact Or.inr ⟨record, ok_of_applyLines hlines, rfl⟩
  | cons first others =>
    cases h
    refine Or.inl (List.flatMap_eq_nil_iff.mpr fun part hpart => ?_)
    obtain ⟨_, -, rfl⟩ := List.mem_map.mp hpart
    rfl

section Checked

variable {validate : ρ → Option ValidationError} {blame : String → String} {start out : ρ}
  {lines : List Line}

/-- A group that leads to a record that breaks no rule. -/
theorem decode_checkedContext_of_ok (hrun : (lines.map Line.text).foldlM apply start = .ok out)
    (hvalid : validate out = none) :
    decode feature kind id apply (.checkedContext feature validate blame kind id lines) start
      lines = .ok (.single out) := by
  rw [decode_of_ok hrun, Decoded.checkedContext, hvalid]

/-- **The record of a group breaks no rule.** -/
theorem records_of_decode_checkedContext {part : Decoded ρ}
    (h : decode feature kind id apply (.checkedContext feature validate blame kind id lines) start
      lines = .ok part) :
    part.records = [] ∨ ∃ r, part.records = [r] ∧
      (lines.map Line.text).foldlM apply start = .ok r ∧ validate r = none := by
  rcases records_of_decode h with hnone | ⟨r, hrun, rfl⟩
  · exact Or.inl hnone
  · rw [Decoded.checkedContext]
    split
    · next hvalid => exact Or.inr ⟨r, rfl, hrun, hvalid⟩
    · exact Or.inl rfl

/-- **A group that makes no record** is not passed over in silence. -/
theorem errors_of_decode_checkedContext {part : Decoded ρ}
    (h : decode feature kind id apply (.checkedContext feature validate blame kind id lines) start
      lines = .ok part) (hnone : part.records = []) : part.errors ≠ [] := by
  obtain ⟨⟨record, refused⟩, -, h⟩ := bind_eq_ok_iff.mp h
  cases refused with
  | cons first others =>
    cases h
    exact List.cons_ne_nil _ _
  | nil =>
    cases h
    simp only [Decoded.checkedContext] at hnone ⊢
    split
    · next hvalid =>
      rw [hvalid] at hnone
      cases hnone
    · exact List.cons_ne_nil _ _

end Checked

/-- A group is decoded when its commands can be looked at. -/
theorem exists_decode_iff {start : ρ} {lines : List Line} :
    (∃ d, decode feature kind id apply checked start lines = .ok d) ↔
      ∃ out, applyLines apply start lines = .ok out := by
  constructor
  · rintro ⟨d, h⟩
    obtain ⟨out, hout, -⟩ := bind_eq_ok_iff.mp h
    exact ⟨out, hout⟩
  · rintro ⟨⟨record, refused⟩, hout⟩
    rw [decode, hout]
    cases refused with
    | nil => exact ⟨_, rfl⟩
    | cons first others => exact ⟨_, rfl⟩

/-! ## All groups -/

section Groups

variable {ι κ : Type} {decodeGroup : ι → Except ReadStop (Decoded ρ)}

/-- **What is read from groups** that make one record each or none has what every record
has, and the keys of its groups, in their order. -/
theorem records_of_mapM {P : ρ → Prop} {key : ρ → κ} {keyOf : ι → κ} {groups : List ι}
    {parts : List (Decoded ρ)} (hparts : groups.mapM decodeGroup = .ok parts)
    (h : ∀ g ∈ groups, ∀ part, decodeGroup g = .ok part →
      part.records = [] ∨ ∃ r, part.records = [r] ∧ key r = keyOf g ∧ P r) :
    (∀ r ∈ (Decoded.concat parts).records, P r) ∧
      ((Decoded.concat parts).records.map key).Sublist (groups.map keyOf) := by
  induction groups generalizing parts with
  | nil =>
    cases hparts
    exact ⟨by simp [Decoded.empty], List.Sublist.refl _⟩
  | cons g groups ih =>
    rw [List.mapM_cons] at hparts
    obtain ⟨part, hpart, hparts⟩ := bind_eq_ok_iff.mp hparts
    obtain ⟨others, hothers, hparts⟩ := bind_eq_ok_iff.mp hparts
    obtain rfl := pure_eq_ok_iff.mp hparts
    obtain ⟨hrecords, hkeys⟩ := ih hothers fun k hk => h k (List.mem_cons_of_mem _ hk)
    rw [Decoded.concat_cons, Decoded.records_append, List.map_cons]
    rcases h g (List.mem_cons_self ..) part hpart with hnone | ⟨r, hr, hkey, hfirst⟩
    · rw [hnone, List.nil_append]
      exact ⟨hrecords, hkeys.cons _⟩
    · rw [hr, List.singleton_append, List.forall_mem_cons, List.map_cons, hkey]
      exact ⟨⟨hfirst, hrecords⟩, hkeys.cons_cons _⟩

/-- Groups that make one record each. -/
theorem mapM_groups_single (content : ι → κ) (contentOf : ρ → κ) {groups : List ι} {rs : List ρ}
    (hcontent : groups.map content = rs.map contentOf)
    (h : ∀ g ∈ groups, ∀ r ∈ rs, content g = contentOf r → decodeGroup g = .ok (.single r)) :
    groups.mapM decodeGroup = .ok (rs.map .single) := by
  induction rs generalizing groups with
  | nil =>
    rw [List.map_nil, List.map_eq_nil_iff] at hcontent
    rw [hcontent]
    rfl
  | cons r rs ih =>
    obtain ⟨g, others, rfl, hg, hothers⟩ := List.map_eq_cons_iff.mp hcontent
    have hfirst := h g (List.mem_cons_self ..) r (List.mem_cons_self ..) hg
    have hrest := ih hothers fun k hk q hq =>
      h k (List.mem_cons_of_mem _ hk) q (List.mem_cons_of_mem _ hq)
    exact mapM_cons_of_ok hfirst hrest

end Groups

end RouterConfig.Selection
