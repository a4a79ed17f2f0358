import RouterConfig.Dns
import RouterConfig.Proofs.Reconcile.Convergence

/-!
# Two spellings of a record type

A choice of name servers for the default record type can be spelled in two ways, with the type
and without it.  The device may answer in the other spelling than the one that was wanted, and
the difference should not look like drift.

It does not when the device says the type and the wish leaves it out.  The other way round it
does: a type that is wanted by name and left out by the device stays out (`LeavesOut`).  This
is the only difference that stays.

* `normalized_eq_desired_iff`: for a choice by itself, and among others in any order.
* `normalized_of_left_out`: the one spelling that is not taken back.
-/

namespace RouterConfig

open Reconcilable

section Partners

variable {ρ κ φ : Type} [DecidableEq κ] [DecidableEq φ] [Reconcilable ρ κ φ]

/-- The normalized records are those of the resolutions. -/
theorem normalized_reconcile (desired observed : List ρ) :
    (reconcile desired observed).normalized =
      (resolutions desired observed).filterMap Resolution.record? :=
  filterMap_slots_reconcile Resolution.record? desired observed

/-- **Each record is compared with its partner.**  Where records have distinct identities and
their partners are observed in any order, what was observed is given in desired order, each
record in the spelling of its own desired one. -/
theorem normalized_of_partners {desired observed echoed : List ρ}
    (hpartners : List.Forall₂ (fun r o => identity o = identity r) desired observed)
    (hidentities : (desired.map identity).Nodup) (hperm : observed.Perm echoed) :
    (reconcile desired echoed).normalized =
      List.zipWith Reconcilable.normalize desired observed := by
  obtain ⟨placed, rfl, hplaces⟩ := exists_places hperm
  rw [List.forall₂_map_right_iff] at hpartners
  have hkeys : (placed.map fun o => identity o.1) = desired.map identity := by
    have hsame : List.Forall₂ (fun k l : κ => k = l)
        (desired.map identity) (placed.map fun o => identity o.1) := by
      rw [List.forall₂_map_left_iff, List.forall₂_map_right_iff]
      exact hpartners.imp fun _ _ h => h.symm
    exact (List.forall₂_eq_eq_eq (α := κ) ▸ hsame).symm
  rw [normalized_reconcile, resolutions_of_partners hpartners hplaces (hkeys ▸ hidentities),
    ← List.map_uncurry_zip_eq_zipWith, ← List.map_uncurry_zip_eq_zipWith, List.filterMap_map,
    List.zip_map_right, List.map_map]
  exact congrFun (List.filterMap_eq_map (f := fun p => Reconcilable.normalize p.1 p.2.1))
    (desired.zip placed)

end Partners

namespace DnsServerSelect

/-- The two choices differ in nothing but the spelling of the record type. -/
structure SameChoice (desired observed : DnsServerSelect) : Prop where
  id : observed.id = desired.id
  servers : observed.servers = desired.servers
  type : observed.effectiveRecordType = desired.effectiveRecordType
  queryPattern : observed.queryPattern = desired.queryPattern
  originalSender : observed.originalSender = desired.originalSender
  restrictPp : observed.restrictPp = desired.restrictPp

/-- The default record type is wanted by name, and the device leaves it out. -/
def LeavesOut (desired observed : DnsServerSelect) : Prop :=
  desired.recordType = some defaultRecordType ∧ observed.recordType = none

instance (desired observed : DnsServerSelect) : Decidable (LeavesOut desired observed) :=
  inferInstanceAs (Decidable (_ ∧ _))

/-- Choices that say the record type alike are equal. -/
theorem SameChoice.eq {desired observed : DnsServerSelect} (h : SameChoice desired observed)
    (htype : observed.recordType = desired.recordType) : observed = desired := by
  obtain ⟨hid, hservers, -, hpattern, hsender, hrestrict⟩ := h
  cases desired
  cases observed
  simp_all

/-- The record type can be said in another way only if it is the default one. -/
theorem SameChoice.cases {desired observed : DnsServerSelect} (h : SameChoice desired observed) :
    observed.recordType = desired.recordType ∨
      (desired.recordType = none ∧ observed.recordType = some defaultRecordType) ∨
      LeavesOut desired observed := by
  have htype := h.type
  rw [effectiveRecordType, effectiveRecordType] at htype
  cases hdesired : desired.recordType with
  | none =>
    cases hobserved : observed.recordType with
    | none => exact Or.inl rfl
    | some type =>
      rw [hdesired, hobserved, Option.getD_some, Option.getD_none] at htype
      exact Or.inr (Or.inl ⟨rfl, congrArg some htype⟩)
  | some wanted =>
    cases hobserved : observed.recordType with
    | none =>
      rw [hdesired, hobserved, Option.getD_some, Option.getD_none] at htype
      exact Or.inr (Or.inr ⟨hdesired.trans (congrArg some htype.symm), hobserved⟩)
    | some type =>
      rw [hdesired, hobserved, Option.getD_some, Option.getD_some] at htype
      exact Or.inl (congrArg some htype)

/-- **The spelling of the device is taken back** unless the device leaves out the type. -/
theorem normalize_eq_iff {desired observed : DnsServerSelect} (h : SameChoice desired observed) :
    desired.normalize observed = desired ↔ ¬ LeavesOut desired observed := by
  constructor
  · rintro heq ⟨hdesired, hobserved⟩
    have hkept : desired.normalize observed = observed := by
      rw [normalize, if_neg]
      rintro ⟨hnone, -⟩
      rw [hdesired] at hnone
      cases hnone
    rw [← heq, hkept, hobserved] at hdesired
    cases hdesired
  · intro hnot
    rcases h.cases with hsame | ⟨hdesired, hobserved⟩ | hleft
    · rw [h.eq hsame, normalize_self]
    · have hbare : SameChoice desired { observed with recordType := none } :=
        ⟨h.id, h.servers, by rw [effectiveRecordType, effectiveRecordType, hdesired],
          h.queryPattern, h.originalSender, h.restrictPp⟩
      rw [normalize, if_pos ⟨hdesired, hobserved⟩]
      exact hbare.eq hdesired.symm
    · exact absurd hleft hnot

/-- Pairs of choices come back as wanted if each does. -/
theorem zipWith_normalize_eq_iff {desired observed : List DnsServerSelect}
    (h : List.Forall₂ SameChoice desired observed) :
    List.zipWith normalize desired observed = desired ↔
      List.Forall₂ (fun d o => ¬ LeavesOut d o) desired observed := by
  induction h with
  | nil => simp only [List.zipWith_nil_left, List.Forall₂.nil]
  | cons hchoice _ ih =>
    rw [List.zipWith_cons_cons, List.cons.injEq, List.forall₂_cons, normalize_eq_iff hchoice, ih]

/-- **Spelling is not drift, except for a type that is left out.**  A choice that differs from
the wanted one in the spelling of the record type only is taken back to the wanted spelling,
unless it leaves out the default type that was wanted by name.  So a reconciliation of it and
of other such choices, reported in any order, shows no difference exactly if none of them
leaves the type out. -/
theorem normalized_eq_desired_iff {desired observed : DnsServerSelect}
    (h : SameChoice desired observed) :
    (desired.normalize observed = desired ↔ ¬ LeavesOut desired observed) ∧
    ∀ wanted reported echoed : List DnsServerSelect,
      ((desired :: wanted).map identity).Nodup → List.Forall₂ SameChoice wanted reported →
      (observed :: reported).Perm echoed →
      ((reconcile (desired :: wanted) echoed).normalized = desired :: wanted ↔
        ¬ LeavesOut desired observed ∧
          List.Forall₂ (fun d o => ¬ LeavesOut d o) wanted reported) := by
  refine ⟨normalize_eq_iff h, ?_⟩
  intro wanted reported echoed hidentities hothers hperm
  have hsame : List.Forall₂ SameChoice (desired :: wanted) (observed :: reported) :=
    .cons h hothers
  have hpartners : List.Forall₂ (fun r o : DnsServerSelect => identity o = identity r)
      (desired :: wanted) (observed :: reported) := hsame.imp fun _ _ hchoice => hchoice.id
  rw [normalized_of_partners hpartners hidentities hperm]
  exact (zipWith_normalize_eq_iff hsame).trans List.forall₂_cons

/-- A choice for all names, with the record type spelled as given. -/
def spelled (id : UInt32) (recordType : Option String) : DnsServerSelect where
  id
  servers := [⟨"10.0.0.1", none⟩]
  recordType
  queryPattern := "."

/-- The other choices that are wanted. -/
def otherSpellings : List DnsServerSelect := [spelled 2 (some "a"), spelled 3 (some "aaaa")]

/-- A choice that is reported with its type comes back without it, as it was wanted, also when
other choices are reported before it. -/
theorem normalized_eq_desired_of_spelled :
    SameChoice (spelled 1 none) (spelled 1 (some "a")) ∧
      ((spelled 1 none :: otherSpellings).map identity).Nodup ∧
      List.Forall₂ SameChoice otherSpellings otherSpellings ∧
      (spelled 1 none).normalize (spelled 1 (some "a")) = spelled 1 none ∧
      (reconcile (spelled 1 none :: otherSpellings)
        (otherSpellings ++ [spelled 1 (some "a")])).normalized =
          spelled 1 none :: otherSpellings := by
  have hfirst : SameChoice (spelled 1 none) (spelled 1 (some "a")) := ⟨rfl, rfl, rfl, rfl, rfl, rfl⟩
  have hidentities : ((spelled 1 none :: otherSpellings).map identity).Nodup := by decide
  have hothers : List.Forall₂ SameChoice otherSpellings otherSpellings :=
    .cons ⟨rfl, rfl, rfl, rfl, rfl, rfl⟩ (.cons ⟨rfl, rfl, rfl, rfl, rfl, rfl⟩ .nil)
  have hsaid : List.Forall₂ (fun d o => ¬ LeavesOut d o) otherSpellings otherSpellings :=
    .cons (by decide) (.cons (by decide) .nil)
  obtain ⟨hnormalize, hreconcile⟩ := normalized_eq_desired_iff hfirst
  refine ⟨hfirst, hidentities, hothers, hnormalize.mpr (by decide), ?_⟩
  exact (hreconcile _ _ _ hidentities hothers
    (List.perm_append_singleton _ _).symm).mpr ⟨by decide, hsaid⟩

/-- The default type is wanted by name and left out by the device.  It is the same choice, and
does not come back as wanted. -/
theorem normalized_of_left_out :
    validate (spelled 1 (some "a")) = none ∧ validate (spelled 1 none) = none ∧
      SameChoice (spelled 1 (some "a")) (spelled 1 none) ∧
      (spelled 1 (some "a")).normalize (spelled 1 none) ≠ spelled 1 (some "a") ∧
      (reconcile [spelled 1 (some "a")] [spelled 1 none]).normalized ≠ [spelled 1 (some "a")] :=
  ⟨by decide, by decide, ⟨rfl, rfl, rfl, rfl, rfl, rfl⟩, by decide, by decide⟩

end DnsServerSelect

end RouterConfig
