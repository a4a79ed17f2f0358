import Mathlib.Data.List.DropRight
import RouterConfig.Text.Words

/-!
# Trimming

A text is *trimmed* when no blank stands at either of its ends, and this is a
property of its first and its last character alone (`trimStart_eq_self`,
`trimEnd_eq_self`).  So whether a command built from parts is trimmed can be read
off the outermost parts.
-/

namespace RouterConfig.Text

/-! ## The start -/

@[simp] theorem trimStart_nil : trimStart [] = [] := rfl

theorem trimStart_cons_of_isBlank {c : Char} (h : isBlank c = true) (cs : List Char) :
    trimStart (c :: cs) = trimStart cs := by
  rw [trimStart, List.dropWhile_cons_of_pos h, trimStart]

theorem trimStart_cons_of_not_isBlank {c : Char} (h : isBlank c = false) (cs : List Char) :
    trimStart (c :: cs) = c :: cs := by
  rw [trimStart, List.dropWhile_cons_of_neg (by simp [h])]

/-- A text that starts with no blank stays as it is. -/
theorem trimStart_eq_self {cs : List Char} :
    trimStart cs = cs ↔ ∀ c ∈ cs.head?, isBlank c = false := by
  cases cs with
  | nil => simp
  | cons c cs =>
    by_cases hc : isBlank c = true
    · rw [trimStart_cons_of_isBlank hc]
      refine ⟨fun h => ?_, fun h => absurd (h c rfl) (by simp [hc])⟩
      have hlength := congrArg List.length h
      have hle : (trimStart cs).length ≤ cs.length := (List.dropWhile_suffix _).length_le
      rw [List.length_cons] at hlength
      omega
    · have hc : isBlank c = false := by simpa using hc
      simp [trimStart_cons_of_not_isBlank hc, hc]

/-- What is left starts with no blank. -/
theorem head?_trimStart (cs : List Char) : ∀ c ∈ (trimStart cs).head?, isBlank c = false := by
  rw [← trimStart_eq_self]
  exact List.dropWhile_idempotent _ _

/-- Blanks in front are dropped. -/
theorem trimStart_append_of_isBlank {pre : List Char} (h : ∀ c ∈ pre, isBlank c = true)
    (cs : List Char) : trimStart (pre ++ cs) = trimStart cs := by
  induction pre with
  | nil => rfl
  | cons c pre ih =>
    rw [List.cons_append, trimStart_cons_of_isBlank (h c (List.mem_cons_self ..))]
    exact ih fun d hd => h d (List.mem_cons_of_mem _ hd)

theorem mem_of_mem_trimStart {c : Char} {cs : List Char} (h : c ∈ trimStart cs) : c ∈ cs :=
  (List.dropWhile_suffix _).subset h

/-! ## The end -/

@[simp] theorem trimEnd_nil : trimEnd [] = [] := rfl

/-- A text that ends with no blank stays as it is. -/
theorem trimEnd_eq_self {cs : List Char} :
    trimEnd cs = cs ↔ ∀ c ∈ cs.getLast?, isBlank c = false := by
  rw [trimEnd, List.reverse_eq_iff, ← trimStart, trimStart_eq_self, List.head?_reverse]

theorem trimEnd_concat_of_isBlank {c : Char} (h : isBlank c = true) (cs : List Char) :
    trimEnd (cs ++ [c]) = trimEnd cs :=
  List.rdropWhile_concat_pos isBlank cs c h

theorem trimEnd_concat_of_not_isBlank {c : Char} (h : isBlank c = false) (cs : List Char) :
    trimEnd (cs ++ [c]) = cs ++ [c] :=
  List.rdropWhile_concat_neg isBlank cs c (by simp [h])

/-- What is left ends with no blank. -/
theorem getLast?_trimEnd (cs : List Char) : ∀ c ∈ (trimEnd cs).getLast?, isBlank c = false := by
  rw [← trimEnd_eq_self]
  exact List.rdropWhile_idempotent isBlank cs

theorem trimEnd_prefix_self (cs : List Char) : trimEnd cs <+: cs :=
  List.rdropWhile_prefix isBlank cs

theorem mem_of_mem_trimEnd {c : Char} {cs : List Char} (h : c ∈ trimEnd cs) : c ∈ cs :=
  (trimEnd_prefix_self cs).subset h

/-- Trimming the end does not reach past a part that is not blank. -/
theorem trimEnd_append_of_exists {cs ds : List Char} (h : ∃ c ∈ ds, isBlank c = false) :
    trimEnd (cs ++ ds) = cs ++ trimEnd ds := by
  induction ds using List.reverseRecOn with
  | nil => simp at h
  | append_singleton ds d ih =>
    rw [← List.append_assoc]
    by_cases hd : isBlank d = true
    · rw [trimEnd_concat_of_isBlank hd, trimEnd_concat_of_isBlank hd]
      obtain ⟨c, hc, hblank⟩ := h
      rcases List.mem_append.mp hc with hc | hc
      · exact ih ⟨c, hc, hblank⟩
      · rw [List.mem_singleton.mp hc, hd] at hblank
        exact absurd hblank (by simp)
    · have hd : isBlank d = false := by simpa using hd
      rw [trimEnd_concat_of_not_isBlank hd, trimEnd_concat_of_not_isBlank hd, List.append_assoc]

/-- Trimming the end keeps a first character that is not blank. -/
theorem head?_trimEnd {c : Char} (h : isBlank c = false) (cs : List Char) :
    (trimEnd (c :: cs)).head? = some c := by
  cases hend : trimEnd (c :: cs) with
  | nil =>
    have hblank := List.rdropWhile_eq_nil_iff.mp hend c (List.mem_cons_self ..)
    exact absurd hblank (by simp [h])
  | cons d ds =>
    have hprefix := trimEnd_prefix_self (c :: cs)
    rw [hend] at hprefix
    rw [List.head?_cons, (List.cons_prefix_cons.mp hprefix).1]

/-! ## Both ends -/

/-- A text is trimmed when neither end is blank. -/
theorem trim_eq_self {cs : List Char} :
    trim cs = cs ↔
      (∀ c ∈ cs.head?, isBlank c = false) ∧ ∀ c ∈ cs.getLast?, isBlank c = false := by
  rw [← trimStart_eq_self, ← trimEnd_eq_self]
  refine ⟨fun h => ?_, fun h => by rw [trim, h.1, h.2]⟩
  have hsuffix : trimStart cs <:+ cs := List.dropWhile_suffix _
  have hle : (trim cs).length ≤ (trimStart cs).length := (trimEnd_prefix_self _).length_le
  rw [h] at hle
  have hstart : trimStart cs = cs := hsuffix.eq_of_length_le hle
  rw [trim, hstart] at h
  exact ⟨hstart, h⟩

theorem mem_of_mem_trim {c : Char} {cs : List Char} (h : c ∈ trim cs) : c ∈ cs :=
  mem_of_mem_trimStart (mem_of_mem_trimEnd h)

@[simp] theorem trim_trim (cs : List Char) : trim (trim cs) = trim cs := by
  refine trim_eq_self.mpr ⟨?_, getLast?_trimEnd _⟩
  have hhead := head?_trimStart cs
  rw [trim]
  cases hstart : trimStart cs with
  | nil => simp
  | cons c ds =>
    have hc : isBlank c = false := hhead c (by rw [hstart]; rfl)
    rw [head?_trimEnd hc ds]
    rintro d ⟨⟩
    exact hc

end RouterConfig.Text
