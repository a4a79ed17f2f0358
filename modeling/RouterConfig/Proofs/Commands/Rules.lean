import RouterConfig.Feature
import RouterConfig.Proofs.Text.Words
import RouterConfig.Rule

/-!
# What the rules say

A record with no broken rule keeps each one.  The lemmas here say of a rule what it
means to be kept, so that the rules of a record become a list of facts about its
fields.
-/

namespace RouterConfig

open Text

namespace Rule

variable {feature field : String}

@[simp] theorem demand_eq_none_iff {condition : Bool} {fault : FieldFault} :
    demand feature field condition fault = none ↔ condition = true := by
  rw [demand]
  split <;> simp_all

/-- A field that is one word is a word. -/
@[simp] theorem oneWord_eq_none_iff_isWord {value : String} :
    oneWord feature field value = none ↔ IsWord value :=
  oneWord_eq_none_iff

/-- The rules for a field that may be absent bind it when it is there. -/
@[simp] theorem forall_mem_ifPresent {α : Type} {value : Option α} {rules : α → List Rule}
    {P : Rule → Prop} :
    (∀ rule ∈ ifPresent value rules, P rule) ↔ ∀ v ∈ value, ∀ rule ∈ rules v, P rule := by
  cases value with
  | none => simp [ifPresent]
  | some v => simp [ifPresent]

/-! ### The field of a rule -/

/-- The rule is about one of these fields. -/
def About (fields : List String) (rule : Rule) : Prop :=
  ∀ error ∈ rule, error.field ∈ fields

/-- Each rule is about one of these fields. -/
def AllAbout (fields : List String) (rules : List Rule) : Prop :=
  ∀ rule ∈ rules, About fields rule

section About

variable {fields : List String} {value : String} {rule : Rule} {rules others : List Rule}

@[simp] theorem allAbout_nil : AllAbout fields [] :=
  List.forall_mem_nil _

@[simp] theorem allAbout_cons :
    AllAbout fields (rule :: rules) ↔ About fields rule ∧ AllAbout fields rules :=
  List.forall_mem_cons

@[simp] theorem allAbout_append :
    AllAbout fields (rules ++ others) ↔ AllAbout fields rules ∧ AllAbout fields others :=
  List.forall_mem_append

@[simp] theorem allAbout_map {α : Type} {f : α → Rule} {l : List α} :
    AllAbout fields (l.map f) ↔ ∀ a ∈ l, About fields (f a) :=
  List.forall_mem_map

@[simp] theorem allAbout_ifPresent {α : Type} {value : Option α} {rules : α → List Rule} :
    AllAbout fields (ifPresent value rules) ↔ ∀ v ∈ value, AllAbout fields (rules v) :=
  forall_mem_ifPresent

theorem about_none : About fields none := by
  rintro _ ⟨⟩

theorem about_demand (h : field ∈ fields) {condition : Bool} {fault : FieldFault} :
    About fields (demand feature field condition fault) := by
  rw [demand]
  split
  · exact about_none
  · rintro _ ⟨⟩
    exact h

theorem about_inRange (h : field ∈ fields) {value min max : Nat} :
    About fields (inRange feature field value min max) :=
  about_demand h

theorem about_present (h : field ∈ fields) : About fields (present feature field value) :=
  about_demand h

theorem about_oneWord (h : field ∈ fields) : About fields (oneWord feature field value) := by
  rw [oneWord]
  split
  · rintro _ ⟨⟩
    exact h
  · exact about_demand h

theorem about_oneLine (h : field ∈ fields) : About fields (oneLine feature field value) :=
  about_demand h

theorem about_filterNumber (h : field ∈ fields) {n : UInt32} :
    About fields (filterNumber feature field n) :=
  about_inRange h

end About

end Rule

/-- A record breaks a rule that is about one of the fields. -/
theorem field_of_firstBroken {fields : List String} {rules : List Rule} {error : ValidationError}
    (hrules : Rule.AllAbout fields rules) (h : firstBroken rules = some error) :
    error.field ∈ fields := by
  obtain ⟨rule, hrule, hbroken⟩ := List.exists_of_findSome?_eq_some h
  exact hrules rule hrule error hbroken

namespace Decoded

variable {ρ : Type} {feature : String} {validate : ρ → Option ValidationError} {line : Line}
  {record : ρ}

/-- A record that breaks no rule is decoded. -/
theorem checked_of_none (h : validate record = none) :
    checked feature validate line record = single record := by
  rw [checked, h]

/-- A record that is decoded breaks no rule. -/
theorem mem_records_checked {r : ρ} :
    r ∈ (checked feature validate line record).records ↔ r = record ∧ validate record = none := by
  unfold checked
  split
  · next h => simp [single, h]
  · next h => simp [rejected, h]

/-- Nothing in front changes nothing. -/
theorem empty_append (d : Decoded ρ) : empty ++ d = d := rfl

/-- Nothing behind changes nothing. -/
theorem append_empty (d : Decoded ρ) : d ++ empty = d :=
  congrArg₂ mk (List.append_nil _) (List.append_nil _)

/-- Parts may be put together from the front or from behind. -/
theorem append_assoc (c d e : Decoded ρ) : c ++ d ++ e = c ++ (d ++ e) :=
  congrArg₂ mk (List.append_assoc _ _ _) (List.append_assoc _ _ _)

@[simp] theorem concat_singleton (part : Decoded ρ) : concat [part] = part := by
  simp [concat]

@[simp] theorem concat_map_single (rs : List ρ) : concat (rs.map .single) = ⟨rs, []⟩ := by
  induction rs with
  | nil => rfl
  | cons r rs ih =>
    rw [List.map_cons, concat_cons, ih]
    rfl

@[simp] theorem mem_records_concat {r : ρ} {parts : List (Decoded ρ)} :
    r ∈ (concat parts).records ↔ ∃ part ∈ parts, r ∈ part.records :=
  List.mem_flatMap

/-- Parts without records have none together. -/
theorem records_concat_eq_nil {parts : List (Decoded ρ)} (h : ∀ part ∈ parts, part.records = []) :
    (concat parts).records = [] :=
  List.flatMap_eq_nil_iff.mpr h

/-- Of records that are checked one by one, those are decoded that break no rule. -/
theorem records_concat_checked {α : Type} (lineOf : α → Line) (recordOf : α → ρ) (l : List α) :
    (concat (l.map fun a => checked feature validate (lineOf a) (recordOf a))).records =
      (l.map recordOf).filter fun r => (validate r).isNone := by
  induction l with
  | nil => rfl
  | cons a l ih =>
    rw [List.map_cons, concat_cons, records_append, ih, List.map_cons, List.filter_cons]
    unfold checked
    split
    · next hnone => simp [single, hnone]
    · next hsome => simp [rejected, hsome]

/-- Records that break no rule are all decoded, in order. -/
theorem concat_checked_of_none {α : Type} {lineOf : α → Line} {recordOf : α → ρ} {l : List α}
    {rs : List ρ} (hrecords : l.map recordOf = rs) (hvalid : ∀ r ∈ rs, validate r = none) :
    concat (l.map fun a => checked feature validate (lineOf a) (recordOf a)) = ⟨rs, []⟩ := by
  subst hrecords
  have hchecked : ∀ a ∈ l,
      checked feature validate (lineOf a) (recordOf a) = single (recordOf a) :=
    fun a ha => checked_of_none (hvalid _ (List.mem_map_of_mem ha))
  rw [List.map_congr_left hchecked, ← concat_map_single, List.map_map]
  rfl

end Decoded

/-- The commands of a record that breaks no rule. -/
theorem provided_of_none {ρ : Type} {validate : ρ → Option ValidationError} {record : ρ}
    (h : validate record = none) (commands : List String) :
    provided validate record commands = .ok commands := by
  rw [provided, h]

end RouterConfig
