import RouterConfig.Text.Lines
import RouterConfig.Text.Phrase

/-!
# Lines and their text

Putting lines together with line feeds and taking the text apart again are
inverse to each other, as long as the lines are not empty and hold no line break
of either form (`physicalLines_joined`).  Conversely a physical line never holds
a line break (`breakFree_of_mem_physicalLines`).
-/

namespace RouterConfig.Text

/-- The text holds no line break, neither a line feed nor a carriage return. -/
def BreakFree (cs : List Char) : Prop :=
  '\n' ∉ cs ∧ '\r' ∉ cs

instance (cs : List Char) : Decidable (BreakFree cs) :=
  inferInstanceAs (Decidable ('\n' ∉ cs ∧ '\r' ∉ cs))

theorem breakFree_nil : BreakFree [] := by
  simp [BreakFree]

theorem breakFree_append {cs ds : List Char} :
    BreakFree (cs ++ ds) ↔ BreakFree cs ∧ BreakFree ds := by
  simp only [BreakFree, List.mem_append, not_or]
  exact ⟨fun h => ⟨⟨h.1.1, h.2.1⟩, h.1.2, h.2.2⟩, fun h => ⟨⟨h.1.1, h.2.1⟩, h.1.2, h.2.2⟩⟩

theorem BreakFree.of_subset {cs ds : List Char} (h : BreakFree ds) (hsub : cs ⊆ ds) :
    BreakFree cs :=
  ⟨fun hc => h.1 (hsub hc), fun hc => h.2 (hsub hc)⟩

/-- A line break is a blank, so a text without blanks holds none. -/
theorem breakFree_of_forall_not_isBlank {cs : List Char} (h : ∀ c ∈ cs, isBlank c = false) :
    BreakFree cs :=
  ⟨fun hc => absurd (h _ hc) (by decide), fun hc => absurd (h _ hc) (by decide)⟩

/-! ## Taking apart -/

/-- A line feed ends the line in front of it. -/
theorem linesOf_append_newline {l : List Char} (h : '\n' ∉ l) (cs : List Char) :
    linesOf (l ++ '\n' :: cs) = l :: linesOf cs := by
  induction l with
  | nil => rw [List.nil_append, linesOf, if_pos rfl]
  | cons c l ih =>
    have hc : c ≠ '\n' := fun he => h (he ▸ List.mem_cons_self ..)
    rw [List.cons_append, linesOf, if_neg hc, ih fun hmem => h (List.mem_cons_of_mem _ hmem)]
    rfl

/-- A text that is not empty and holds no line feed is one line. -/
theorem linesOf_of_not_mem {l : List Char} (hne : l ≠ []) (h : '\n' ∉ l) : linesOf l = [l] := by
  induction l with
  | nil => exact absurd rfl hne
  | cons c l ih =>
    have hc : c ≠ '\n' := fun he => h (he ▸ List.mem_cons_self ..)
    rw [linesOf, if_neg hc]
    cases l with
    | nil => rfl
    | cons d l =>
      rw [ih (List.cons_ne_nil _ _) fun hmem => h (List.mem_cons_of_mem _ hmem)]
      rfl

/-- Where there is no carriage return, no break has to be unified. -/
theorem unifyBreaks_of_not_mem {cs : List Char} (h : '\r' ∉ cs) : unifyBreaks cs = cs := by
  induction cs with
  | nil => rfl
  | cons c cs ih =>
    have hc : c ≠ '\r' := fun he => h (he ▸ List.mem_cons_self ..)
    have hcs : '\r' ∉ cs := fun hmem => h (List.mem_cons_of_mem _ hmem)
    rw [unifyBreaks, if_neg hc, ih hcs]
    exact fun ds hd => absurd hd hc

/-- Unified breaks are line feeds. -/
theorem return_not_mem_unifyBreaks (cs : List Char) : '\r' ∉ unifyBreaks cs := by
  fun_induction unifyBreaks cs with
  | case1 => simp
  | case2 cs ih => simpa using ih
  | case3 c cs _ ih =>
    rw [List.mem_cons, not_or]
    refine ⟨?_, ih⟩
    split
    · decide
    · next hc => exact fun he => hc he.symm

/-- Every character of a line is a character of the text, and no line feed. -/
theorem of_mem_of_mem_linesOf {cs l : List Char} {c : Char} (hl : l ∈ linesOf cs) (hc : c ∈ l) :
    c ∈ cs ∧ c ≠ '\n' := by
  induction cs generalizing l with
  | nil => simp [linesOf] at hl
  | cons d cs ih =>
    rw [linesOf] at hl
    split at hl
    · rcases List.mem_cons.mp hl with rfl | hl
      · simp at hc
      · exact (ih hl hc).imp_left (List.mem_cons_of_mem _)
    · next hd =>
      -- the character goes in front of the first line, if there is one
      cases hrest : linesOf cs with
      | nil =>
        rw [hrest, lengthenFirst, List.mem_singleton] at hl
        rw [hl, List.mem_singleton] at hc
        rw [hc]
        exact ⟨List.mem_cons_self .., hd⟩
      | cons m ms =>
        rw [hrest, lengthenFirst] at hl
        rw [hrest] at ih
        rcases List.mem_cons.mp hl with rfl | hl
        · rcases List.mem_cons.mp hc with rfl | hc
          · exact ⟨List.mem_cons_self .., hd⟩
          · exact (ih (List.mem_cons_self ..) hc).imp_left (List.mem_cons_of_mem _)
        · exact (ih (List.mem_cons_of_mem _ hl) hc).imp_left (List.mem_cons_of_mem _)

/-- **A physical line holds no line break.** -/
theorem breakFree_of_mem_physicalLines {raw l : List Char} (h : l ∈ physicalLines raw) :
    BreakFree l :=
  ⟨fun hc => (of_mem_of_mem_linesOf h hc).2 rfl,
    fun hc => return_not_mem_unifyBreaks raw (of_mem_of_mem_linesOf h hc).1⟩

/-! ## Putting together -/

/-- Lines put together with line feeds are taken apart again. -/
theorem linesOf_intercalate {ls : List (List Char)} (h : ∀ l ∈ ls, l ≠ [] ∧ '\n' ∉ l) :
    linesOf (['\n'].intercalate ls) = ls := by
  induction ls with
  | nil => rfl
  | cons l ls ih =>
    have hl := h l (List.mem_cons_self ..)
    cases ls with
    | nil => rw [List.intercalate_singleton, linesOf_of_not_mem hl.1 hl.2]
    | cons m ls =>
      rw [List.intercalate_cons_cons, List.append_assoc, List.singleton_append,
        linesOf_append_newline hl.2, ih fun k hk => h k (List.mem_cons_of_mem _ hk)]

/-- Every character is a mark or in a part. -/
theorem mem_intercalate {mark c : Char} {ls : List (List Char)}
    (h : c ∈ [mark].intercalate ls) : c = mark ∨ ∃ l ∈ ls, c ∈ l := by
  induction ls with
  | nil => simp at h
  | cons l ls ih =>
    cases ls with
    | nil =>
      rw [List.intercalate_singleton] at h
      exact Or.inr ⟨l, List.mem_cons_self .., h⟩
    | cons m ls =>
      rw [List.intercalate_cons_cons, List.append_assoc, List.mem_append, List.mem_append,
        List.mem_singleton] at h
      rcases h with h | h | h
      · exact Or.inr ⟨l, List.mem_cons_self .., h⟩
      · exact Or.inl h
      · rcases ih h with h | ⟨k, hk, hc⟩
        · exact Or.inl h
        · exact Or.inr ⟨k, List.mem_cons_of_mem _ hk, hc⟩

theorem toList_joined (between : String) (ss : List String) :
    (joined between ss).toList = between.toList.intercalate (ss.map String.toList) := by
  induction ss with
  | nil => rfl
  | cons s ss ih =>
    cases ss with
    | nil => rw [List.map_singleton, List.intercalate_singleton, joined]
    | cons t ss =>
      rw [joined, String.toList_append, String.toList_append, ih, List.map_cons, List.map_cons,
        List.map_cons, List.intercalate_cons_cons]

/-- **The physical lines of joined lines are the lines.** -/
theorem physicalLines_joined {ss : List String}
    (h : ∀ s ∈ ss, s.toList ≠ [] ∧ BreakFree s.toList) :
    physicalLines (joined "\n" ss).toList = ss.map String.toList := by
  have hlines : ∀ l ∈ ss.map String.toList, l ≠ [] ∧ BreakFree l := by
    intro l hl
    obtain ⟨s, hs, rfl⟩ := List.mem_map.mp hl
    exact h s hs
  have htext : (joined "\n" ss).toList = ['\n'].intercalate (ss.map String.toList) :=
    toList_joined "\n" ss
  rw [physicalLines, htext, unifyBreaks_of_not_mem,
    linesOf_intercalate fun l hl => ⟨(hlines l hl).1, (hlines l hl).2.1⟩]
  intro hreturn
  rcases mem_intercalate hreturn with hc | ⟨l, hl, hc⟩
  · exact absurd hc (by decide)
  · exact (hlines l hl).2.2 hc

end RouterConfig.Text
