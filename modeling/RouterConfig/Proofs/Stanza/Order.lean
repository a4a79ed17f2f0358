import RouterConfig.Proofs.Stanza.Selection

/-!
# Groups whose lines stand in another order

A command is looked at for its setting, and the setting is put into the record of the group.
Each setting has a *place* in the record, the field that it sets.  Two settings with different
places should go in either way, and then a group in which no place is taken twice makes the same
record whatever the order of its lines.

A setting may still depend on what was put in before it, as far as it is checked against that.
So it is asked only that two settings go in either way where both places are vacant: what
`Vacant` means is for the kind of group to say, and for most settings it says nothing.
-/

namespace RouterConfig

/-! ## Same outcomes -/

namespace Decoded

variable {ρ : Type} {first second : Except ReadStop (Decoded ρ)}

/-- Nothing that was decoded holds a record. -/
def NoRecord (outcome : Except ReadStop (Decoded ρ)) : Prop :=
  ∀ d, outcome = .ok d → d.records = []

/-- Two decodings with the same outcome: both come to an end or neither does, and they make the
same single record or make none. -/
structure SameOutcome (first second : Except ReadStop (Decoded ρ)) : Prop where
  ends : (∃ d, first = .ok d) ↔ ∃ d, second = .ok d
  record : (∃ r, first = .ok (.single r) ∧ second = .ok (.single r)) ∨
    (NoRecord first ∧ NoRecord second)

end Decoded

namespace Selection

variable {ρ σ κ : Type} {apply : ρ → String → Except Refusal ρ}
  {read : String → Except Refusal (Option σ)} {put : ρ → σ → Except LineFault ρ} {start out : ρ}

/-! ## From lines to settings -/

/-- The settings that the lines of a group say, in their order. -/
def settingsOf (read : String → Except Refusal (Option σ)) (lines : List Line) : List σ :=
  lines.filterMap fun line => (read line.text).toOption.join

/-- A command is read for its setting, whatever the record, and its setting is put in. -/
structure ReadsAndPuts (apply : ρ → String → Except Refusal ρ)
    (read : String → Except Refusal (Option σ)) (put : ρ → σ → Except LineFault ρ) : Prop where
  ok_iff : ∀ r text next, apply r text = .ok next ↔
    (read text = .ok none ∧ next = r) ∨ ∃ s, read text = .ok (some s) ∧ put r s = .ok next
  stop_iff : ∀ r text, (∃ stop, apply r text = .error (.stop stop)) ↔
    ∃ stop, read text = .error (.stop stop)

/-- **Reading a group is putting in its settings**, once each of its lines can be read. -/
theorem ReadsAndPuts.foldlM_iff (h : ReadsAndPuts apply read put) {lines : List Line} :
    (lines.map Line.text).foldlM apply start = .ok out ↔
      (∀ line ∈ lines, ∃ setting?, read line.text = .ok setting?) ∧
        (settingsOf read lines).foldlM put start = .ok out := by
  induction lines generalizing start with
  | nil => simp [settingsOf]
  | cons line lines ih =>
    rw [List.map_cons, List.foldlM_cons, bind_eq_ok_iff, List.forall_mem_cons]
    cases hread : read line.text with
    | error refusal => simp [h.ok_iff, hread]
    | ok setting? =>
      cases setting? with
      | none =>
        have hrest : settingsOf read (line :: lines) = settingsOf read lines := by
          simp [settingsOf, hread, Except.toOption]
        simp [h.ok_iff, hread, hrest, ih]
      | some s =>
        have hrest : settingsOf read (line :: lines) = s :: settingsOf read lines := by
          simp [settingsOf, hread, Except.toOption]
        rw [hrest, List.foldlM_cons, bind_eq_ok_iff]
        simp only [h.ok_iff, hread, ih]
        simp only [reduceCtorEq, false_and, Except.ok.injEq, Option.some.injEq, false_or,
          exists_eq_left', exists_eq', true_and]
        constructor
        · rintro ⟨next, hput, hlines, hrun⟩
          exact ⟨hlines, next, hput, hrun⟩
        · rintro ⟨hlines, next, hput, hrun⟩
          exact ⟨next, hput, hlines, hrun⟩

/-! ## Settings in another order -/

/-- Settings with different places go in either way, as long as both places are vacant. -/
structure Interchanges (put : ρ → σ → Except LineFault ρ) (place : σ → κ)
    (Vacant : ρ → σ → Prop) : Prop where
  stays_vacant : ∀ r next s x, place s ≠ place x → put r s = .ok next → Vacant r x → Vacant next x
  either_way : ∀ r next out s x, place s ≠ place x → Vacant r s → Vacant r x →
    put r s = .ok next → put next x = .ok out → ∃ other, put r x = .ok other ∧ put other s = .ok out

/-- **Settings for places of their own go in in any order.** -/
theorem Interchanges.foldlM_perm {place : σ → κ} {Vacant : ρ → σ → Prop}
    (h : Interchanges put place Vacant) {xs ys : List σ} (hperm : xs.Perm ys)
    (hplaces : (xs.map place).Nodup) (hvacant : ∀ s ∈ xs, Vacant start s)
    (hrun : xs.foldlM put start = .ok out) : ys.foldlM put start = .ok out := by
  induction hperm generalizing start with
  | nil => exact hrun
  | cons s hperm ih =>
    rw [List.map_cons, List.nodup_cons] at hplaces
    rw [List.foldlM_cons] at hrun ⊢
    obtain ⟨next, hput, hrest⟩ := bind_eq_ok_iff.mp hrun
    rw [hput, ok_bind]
    refine ih hplaces.2 (fun x hx => ?_) hrest
    have hne : place s ≠ place x := fun hsame =>
      hplaces.1 (hsame ▸ List.mem_map_of_mem hx)
    exact h.stays_vacant _ _ s x hne hput (hvacant x (List.mem_cons_of_mem _ hx))
  | swap x s rest =>
    rw [List.map_cons, List.map_cons, List.nodup_cons] at hplaces
    rw [List.foldlM_cons] at hrun
    obtain ⟨next, hs, hrun⟩ := bind_eq_ok_iff.mp hrun
    rw [List.foldlM_cons] at hrun
    obtain ⟨both, hx, hrest⟩ := bind_eq_ok_iff.mp hrun
    have hne : place s ≠ place x := fun hsame =>
      hplaces.1 (hsame ▸ List.mem_cons_self ..)
    obtain ⟨other, hother, hboth⟩ := h.either_way _ _ _ s x hne
      (hvacant s (List.mem_cons_self ..)) (hvacant x (by simp)) hs hx
    rw [List.foldlM_cons, hother, ok_bind, List.foldlM_cons, hboth, ok_bind]
    exact hrest
  | trans hfirst _ ihfirst ihsecond =>
    refine ihsecond ((hfirst.map place).nodup_iff.mp hplaces) (fun s hs => ?_)
      (ihfirst hplaces hvacant hrun)
    exact hvacant s (hfirst.mem_iff.mpr hs)

/-- What was put in was for the record, as `key` tells one record from another. -/
theorem isFor_of_foldlM {ι : Type} (key : ρ → ι) {isFor : ι → σ → Bool}
    (h : ∀ r s next, put r s = .ok next → isFor (key r) s = true ∧ key next = key r)
    {xs : List σ} (hrun : xs.foldlM put start = .ok out) :
    ∀ s ∈ xs, isFor (key start) s = true := by
  induction xs generalizing start with
  | nil => exact List.forall_mem_nil _
  | cons s xs ih =>
    rw [List.foldlM_cons] at hrun
    obtain ⟨next, hput, hrest⟩ := bind_eq_ok_iff.mp hrun
    obtain ⟨hs, hkey⟩ := h _ _ _ hput
    rw [List.forall_mem_cons, ← hkey]
    exact ⟨hkey ▸ hs, ih hrest⟩

/-! ## Lines in another order -/

/-- No place is taken twice by the settings of these lines, those apart that another record is
meant by. -/
def SetsOnce (read : String → Except Refusal (Option σ)) (isFor : σ → Bool) (place : σ → κ)
    (lines : List Line) : Prop :=
  (((settingsOf read lines).filter isFor).map place).Nodup

instance [DecidableEq κ] (isFor : σ → Bool) (place : σ → κ) (lines : List Line) :
    Decidable (SetsOnce read isFor place lines) :=
  inferInstanceAs (Decidable (List.Nodup _))

theorem settingsOf_perm {lines others : List Line} (hperm : lines.Perm others) :
    (settingsOf read lines).Perm (settingsOf read others) :=
  hperm.filterMap _

theorem SetsOnce.perm {isFor : σ → Bool} {place : σ → κ} {lines others : List Line}
    (h : SetsOnce read isFor place lines) (hperm : lines.Perm others) :
    SetsOnce read isFor place others :=
  (((settingsOf_perm hperm).filter _).map _).nodup_iff.mp h

section Reordered

variable {isFor : σ → Bool} {place : σ → κ} {Vacant : ρ → σ → Prop} {lines others : List Line}

/-- **Lines in another order** lead to the same record. -/
theorem foldlM_reordered (hreads : ReadsAndPuts apply read put)
    (hput : Interchanges put place Vacant) (hvacant : ∀ s, Vacant start s)
    (hfor : ∀ xs : List σ, ∀ out, xs.foldlM put start = .ok out → ∀ s ∈ xs, isFor s = true)
    (hperm : lines.Perm others) (honce : SetsOnce read isFor place lines)
    (h : (lines.map Line.text).foldlM apply start = .ok out) :
    (others.map Line.text).foldlM apply start = .ok out := by
  obtain ⟨hread, hrun⟩ := hreads.foldlM_iff.mp h
  refine hreads.foldlM_iff.mpr ⟨fun line hline => hread line (hperm.mem_iff.mpr hline), ?_⟩
  rw [SetsOnce, List.filter_eq_self.mpr (hfor _ _ hrun)] at honce
  exact hput.foldlM_perm (settingsOf_perm hperm) honce (fun s _ => hvacant s) hrun

/-- Whether a group is read to its end does not depend on the order of its lines. -/
theorem exists_applyLines_reordered (hreads : ReadsAndPuts apply read put)
    (hperm : lines.Perm others) :
    (∃ out, applyLines apply start lines = .ok out) ↔
      ∃ out, applyLines apply start others = .ok out := by
  have hends : ∀ ls : List Line, (∃ out, applyLines apply start ls = .ok out) ↔
      ∀ line ∈ ls, ¬ ∃ stop, read line.text = .error (.stop stop) :=
    fun _ => exists_applyLines_iff (P := fun text => ∃ stop, read text = .error (.stop stop))
      (fun r line _ => hreads.stop_iff r line.text) start
  rw [hends, hends]
  exact forall_congr' fun line => imp_congr_left hperm.mem_iff

/-- **A group with its lines in another order** has the same outcome. -/
theorem sameOutcome_reordered {feature kind id : String}
    {validate : ρ → Option ValidationError} {blame : String → String}
    (hreads : ReadsAndPuts apply read put) (hput : Interchanges put place Vacant)
    (hvacant : ∀ s, Vacant start s)
    (hfor : ∀ xs : List σ, ∀ out, xs.foldlM put start = .ok out → ∀ s ∈ xs, isFor s = true)
    (hperm : lines.Perm others) (honce : SetsOnce read isFor place lines) :
    Decoded.SameOutcome
      (decode feature kind id apply (.checkedContext feature validate blame kind id lines) start
        lines)
      (decode feature kind id apply (.checkedContext feature validate blame kind id others) start
        others) := by
  refine ⟨?_, ?_⟩
  · rw [exists_decode_iff, exists_decode_iff]
    exact exists_applyLines_reordered hreads hperm
  · have hrun : ∀ {out}, (lines.map Line.text).foldlM apply start = .ok out →
        (others.map Line.text).foldlM apply start = .ok out :=
      foldlM_reordered hreads hput hvacant hfor hperm honce
    have hback : ∀ {out}, (others.map Line.text).foldlM apply start = .ok out →
        (lines.map Line.text).foldlM apply start = .ok out :=
      foldlM_reordered hreads hput hvacant hfor hperm.symm (honce.perm hperm)
    by_cases hrecord : ∃ r, (lines.map Line.text).foldlM apply start = .ok r ∧ validate r = none
    · obtain ⟨r, hr, hvalid⟩ := hrecord
      exact Or.inl ⟨r, decode_checkedContext_of_ok hr hvalid,
        decode_checkedContext_of_ok (hrun hr) hvalid⟩
    · refine Or.inr ⟨fun d hd => ?_, fun d hd => ?_⟩
      · rcases records_of_decode_checkedContext hd with hnone | ⟨r, -, hr, hvalid⟩
        · exact hnone
        · exact absurd ⟨r, hr, hvalid⟩ hrecord
      · rcases records_of_decode_checkedContext hd with hnone | ⟨r, -, hr, hvalid⟩
        · exact hnone
        · exact absurd ⟨r, hback hr, hvalid⟩ hrecord

end Reordered

end Selection

end RouterConfig
