import RouterConfig.Proofs.Commands.Rules

/-!
# The share of one matter in what was decoded

Lines about different matters stand mixed in a text, and what is decoded from them should not
mix.  Records are about a matter by themselves, and a rejected line is about it by its text.
`Decoded.about` takes what is about one matter.  Where each part of what was decoded is about
one matter as a whole, whole parts are taken (`about_concat_map`).

Several lines may make one record, which is known by the key of the lines.  For each key there
is then one record or none, and it is the one of the first line with that key
(`filter_records_firstOfEach`).
-/

namespace RouterConfig.Decoded

variable {ρ : Type}

/-- The records and the rejected lines that are about some matter. -/
def about (p : ρ → Bool) (q : String → Bool) (d : Decoded ρ) : Decoded ρ :=
  ⟨d.records.filter p, d.errors.filter fun e => q e.line⟩

variable {p : ρ → Bool} {q : String → Bool}

@[simp] theorem about_empty : (empty : Decoded ρ).about p q = empty := rfl

@[simp] theorem about_append (d e : Decoded ρ) :
    (d ++ e).about p q = d.about p q ++ e.about p q := by
  rw [about, records_append, errors_append, List.filter_append, List.filter_append]
  rfl

/-- A rejected line is about the matter or not. -/
theorem about_rejected (feature : String) (line : Line) (reason : RejectReason) :
    (rejected feature line reason : Decoded ρ).about p q =
      if q line.text then rejected feature line reason else empty := by
  by_cases h : q line.text = true
  · rw [if_pos h, about, rejected, List.filter_nil, List.filter_cons, if_pos h, List.filter_nil]
  · rw [if_neg h, about, rejected, List.filter_nil, List.filter_cons, if_neg h, List.filter_nil]
    rfl

/-- A checked record and its line are about the same matter. -/
theorem about_checked {feature : String} {validate : ρ → Option ValidationError} {line : Line}
    {record : ρ} (h : q line.text = p record) :
    (checked feature validate line record).about p q =
      if p record then checked feature validate line record else empty := by
  unfold checked
  split
  · rw [about, single, List.filter_nil, List.filter_cons, List.filter_nil]
    split <;> rfl
  · rw [about_rejected, h]

/-- Parts that are each about one matter are taken as a whole. -/
theorem about_concat_map {α : Type} {part : α → Decoded ρ} {s : α → Bool} {l : List α}
    (h : ∀ a ∈ l, (part a).about p q = if s a then part a else empty) :
    (concat (l.map part)).about p q = concat ((l.filter s).map part) := by
  induction l with
  | nil => rfl
  | cons a l ih =>
    obtain ⟨ha, hl⟩ := List.forall_mem_cons.mp h
    rw [List.map_cons, concat_cons, about_append, ha, ih hl, List.filter_cons]
    split
    · rw [List.map_cons, concat_cons]
    · rfl

/-- **The records of one key** among those of the first lines: none, if something spoils the key,
and otherwise that of the first line with it, if it breaks no rule. -/
theorem filter_records_firstOfEach {α κ : Type} [DecidableEq κ] [BEq κ] [LawfulBEq κ]
    {feature : String} {validate : ρ → Option ValidationError} {key : ρ → κ} {keyOf : α → κ}
    {lineOf : α → Line} {recordOf : α → ρ} (spoiled : List κ) {l : List α}
    (hkey : ∀ a ∈ l, key (recordOf a) = keyOf a) (k : κ) :
    (concat (((firstOfEach keyOf l).filter fun a => !spoiled.contains (keyOf a)).map fun a =>
        checked feature validate (lineOf a) (recordOf a))).records.filter (fun r => key r = k) =
      if k ∈ spoiled then []
      else ((l.find? fun a => keyOf a = k).map recordOf).toList.filter fun r =>
        (validate r).isNone := by
  have hown : ((firstOfEach keyOf l).filter fun a =>
        decide (key (recordOf a) = k) && !spoiled.contains (keyOf a)) =
      if k ∈ spoiled then [] else (l.find? fun a => keyOf a = k).toList := by
    rw [← filter_firstOfEach_eq]
    have hsame : ∀ a ∈ firstOfEach keyOf l,
        (decide (key (recordOf a) = k) && !spoiled.contains (keyOf a)) =
          (decide (keyOf a = k) && !spoiled.contains k) := by
      intro a ha
      rw [hkey a ((firstOfEach_sublist keyOf l).subset ha)]
      by_cases hk : keyOf a = k
      · rw [hk]
      · rw [decide_eq_false hk, Bool.false_and, Bool.false_and]
    rw [List.filter_congr hsame]
    split
    · next hspoiled => simp [hspoiled]
    · next hspoiled => simp [hspoiled]
  rw [records_concat_checked, List.filter_comm, List.filter_map, List.filter_filter]
  simp only [Function.comp_apply]
  rw [hown]
  split
  · rfl
  · cases l.find? fun a => keyOf a = k <;> rfl

end RouterConfig.Decoded
