import RouterConfig.Dialect.Rtx
import RouterConfig.Proofs.Text.Words

/-!
# Decisions at the wrap points of a configuration

What the reconstructor of the RTX dialect decides at a wrap point, in the four
situations that the rest of the development meets.  All four policies are in
force there, so `opinion?_eq` is the one place where their list is opened.

* `join_verdict_of_isCommandStart`: a line that starts a command is not put behind
  the one before it, unless that one ends with the marker.
* `verdict_of_marker`: a command that ends with the marker goes on.
* `verdict_of_digits` and `verdict_of_number`: what happens to a list of numbers.
-/

namespace RouterConfig.Rtx

open Text Wrap

/-- The character at the end of a line that says that its command goes on. -/
def marker : Char := '\\'

/-! ## The first word of a line -/

/-- A character with which no continuation of a command starts. -/
def opensCommand (c : Char) : Bool :=
  !isDigit c && c != '=' && !isBlank c

/-- No command starts like a number or an option that was cut off. -/
theorem head?_of_mem_commandStarts :
    ∀ w ∈ commandStarts, ∀ c ∈ w.toList.head?, opensCommand c = true ∧ c ≠ '#' := by
  have hall : ∀ w ∈ commandStarts,
      (w.toList.head?.all fun c => opensCommand c && c != '#') = true := by decide
  intro w hw c hc
  have hopens := hall w hw
  rw [Option.mem_def.mp hc] at hopens
  simpa using hopens

/-- So no line that starts a command does. -/
theorem head?_of_isCommandStart {line : List Char}
    (h : dialect.reconstructor.isCommandStart line = true) :
    ∃ c, (trimStart line).head? = some c ∧ opensCommand c = true := by
  rw [Reconstructor.isCommandStart, Bool.or_eq_true] at h
  rcases h with hcomment | hword
  · refine ⟨'#', ?_, by decide⟩
    simpa [Reconstructor.startsComment] using hcomment
  · cases hwords : words line with
    | nil => rw [hwords] at hword; exact absurd hword (by simp)
    | cons w ws =>
      rw [hwords] at hword
      have hmem : String.ofList w ∈ commandStarts := by
        simpa [dialect, Dialect.reconstructor] using hword
      obtain ⟨hhead, hne⟩ := head?_trimStart_of_words hwords
      obtain ⟨c, cs, rfl⟩ := List.exists_cons_of_ne_nil hne
      refine ⟨c, hhead, (head?_of_mem_commandStarts _ hmem c ?_).1⟩
      rw [String.toList_ofList]
      rfl

/-! ## The opinion of the policies -/

/-- All four policies are in force. -/
theorem policies_eq :
    dialect.reconstructor.policies =
      [.digitSplit, .equalsSplit, .continuationMarker "\\", .numericContinuation] := rfl

theorem toList_marker : "\\".toList = [marker] := rfl

/-- **The four policies, asked in order.** -/
theorem opinion?_eq (current next : List Char) :
    dialect.reconstructor.opinion? current next =
      if Policy.endsWithDigit current && Policy.startsWithDigit next then some .glued
      else if (trimStart next).head? = some '=' then some .glued
      else if [marker].isSuffixOf (trimEnd current) then some (.pastMarker 1)
      else if Policy.startsWithDigit (trimStart next) then some .spaced
      else none := by
  have hsize : byteSize [marker] = 1 := by decide
  rw [Reconstructor.opinion?, policies_eq]
  simp only [List.findSome?_cons, Policy.digitSplit, Policy.equalsSplit,
    Policy.continuationMarker, Policy.numericContinuation, List.findSome?_nil, toList_marker,
    List.isEmpty_cons, Bool.not_false, Bool.true_and, hsize]
  split_ifs <;> rfl

/-! ## Verdicts -/

/-- The text is a command in the making: neither blank nor a comment. -/
def IsUnderWay (current : List Char) : Prop :=
  ∃ c, (trimStart current).head? = some c ∧ c ≠ '#'

theorem isBlankText_eq_false {cs : List Char} {c : Char} (h : (trimStart cs).head? = some c) :
    isBlankText cs = false := by
  have hc : isBlank c = false := head?_trimStart cs c h
  have hmem : c ∈ cs := mem_of_mem_trimStart (List.mem_of_mem_head? h)
  rw [isBlankText, List.all_eq_false]
  exact ⟨c, hmem, by simp [hc]⟩

/-- A policy with an opinion decides. -/
theorem verdict_of_opinion {current next : List Char} {join : Join} {d : Char}
    (hcurrent : IsUnderWay current) (hnext : (trimStart next).head? = some d)
    (h : dialect.reconstructor.opinion? current next = some join) :
    dialect.reconstructor.verdict current next = ⟨join, true⟩ := by
  obtain ⟨c, hc, hcomment⟩ := hcurrent
  have hstart : Reconstructor.startsComment current = false := by
    simpa [Reconstructor.startsComment, hc] using hcomment
  rw [Reconstructor.verdict, isBlankText_eq_false hc, isBlankText_eq_false hnext, hstart, h]
  rfl

/-- Blanks in front of a digit stand in the way of gluing, and nothing else. -/
theorem startsWithDigit_trimStart {cs : List Char} (h : Policy.startsWithDigit cs = true) :
    Policy.startsWithDigit (trimStart cs) = true := by
  cases cs with
  | nil => exact h
  | cons c cs => rwa [trimStart_cons_of_not_isBlank (isBlank_eq_false_of_isDigit h)]

theorem isSuffixOf_singleton {c : Char} {cs : List Char} :
    [c].isSuffixOf cs = true ↔ cs.getLast? = some c := by
  rw [List.isSuffixOf_iff_suffix, List.singleton_suffix_iff_getLast?_eq_some]

/-- About a line that starts a command only the marker has an opinion. -/
theorem opinion?_of_isCommandStart (current : List Char) {next : List Char}
    (hnext : dialect.reconstructor.isCommandStart next = true) :
    dialect.reconstructor.opinion? current next =
      if (trimEnd current).getLast? = some marker then some (.pastMarker 1) else none := by
  obtain ⟨c, hhead, hopens⟩ := head?_of_isCommandStart hnext
  simp only [opensCommand, Bool.and_eq_true, Bool.not_eq_true', bne_iff_ne] at hopens
  have hequals : (trimStart next).head? ≠ some '=' := by
    rw [hhead]
    exact fun h => hopens.1.2 (Option.some.inj h)
  have hdigit : ¬ Policy.startsWithDigit (trimStart next) = true := by
    cases htrim : trimStart next with
    | nil => simp [Policy.startsWithDigit]
    | cons d ds =>
      rw [htrim, List.head?_cons, Option.some_inj] at hhead
      rw [hhead, Policy.startsWithDigit, hopens.1.1]
      decide
  have hglued : ¬ (Policy.endsWithDigit current && Policy.startsWithDigit next) = true := by
    rw [Bool.and_eq_true]
    exact fun h => hdigit (startsWithDigit_trimStart h.2)
  rw [opinion?_eq, if_neg hglued, if_neg hequals, if_neg hdigit]
  simp only [isSuffixOf_singleton]

/-- **A line that starts a command is one of its own**, unless the command before
it ends with the marker. -/
theorem join_verdict_of_isCommandStart {current next : List Char}
    (hnext : dialect.reconstructor.isCommandStart next = true)
    (hmarker : (trimEnd current).getLast? ≠ some marker) :
    (dialect.reconstructor.verdict current next).join = .apart := by
  rw [Reconstructor.verdict, opinion?_of_isCommandStart current hnext, if_neg hmarker, hnext]
  split <;> rfl

/-- **A command that ends with the marker goes on.** -/
theorem verdict_of_marker {current next : List Char} (hcurrent : IsUnderWay current)
    (hnext : dialect.reconstructor.isCommandStart next = true)
    (hmarker : (trimEnd current).getLast? = some marker) :
    dialect.reconstructor.verdict current next = ⟨.pastMarker 1, true⟩ := by
  obtain ⟨c, hhead, -⟩ := head?_of_isCommandStart hnext
  refine verdict_of_opinion hcurrent hhead ?_
  rw [opinion?_of_isCommandStart current hnext, if_pos hmarker]

/-- **A number that was cut is put together again.** -/
theorem verdict_of_digits {current next : List Char} (hcurrent : IsUnderWay current)
    (hend : Policy.endsWithDigit current = true) (hnext : Policy.startsWithDigit next = true) :
    dialect.reconstructor.verdict current next = ⟨.glued, true⟩ := by
  obtain ⟨d, ds, rfl⟩ : ∃ d ds, next = d :: ds := by
    cases next with
    | nil => exact absurd hnext (by decide)
    | cons d ds => exact ⟨d, ds, rfl⟩
  have hhead : (trimStart (d :: ds)).head? = some d := by
    rw [trimStart_cons_of_not_isBlank (isBlank_eq_false_of_isDigit hnext)]
    rfl
  refine verdict_of_opinion hcurrent hhead ?_
  rw [opinion?_eq, hend, hnext]
  rfl

/-- **A list of numbers that was cut between two of them is put together again**,
with a space. -/
theorem verdict_of_number {current next : List Char} (hcurrent : IsUnderWay current)
    (hapart : (Policy.endsWithDigit current && Policy.startsWithDigit next) = false)
    (hmarker : (trimEnd current).getLast? ≠ some marker)
    (hnext : Policy.startsWithDigit (trimStart next) = true) :
    dialect.reconstructor.verdict current next = ⟨.spaced, true⟩ := by
  obtain ⟨d, ds, htrim⟩ : ∃ d ds, trimStart next = d :: ds := by
    cases htrim : trimStart next with
    | nil => rw [htrim] at hnext; exact absurd hnext (by decide)
    | cons d ds => exact ⟨d, ds, rfl⟩
  have hhead : (trimStart next).head? = some d := by rw [htrim]; rfl
  have hdigit : isDigit d = true := by rw [htrim] at hnext; exact hnext
  have hequals : (trimStart next).head? ≠ some '=' := by
    rw [hhead]
    exact fun h => absurd (Option.some.inj h ▸ hdigit) (by decide)
  refine verdict_of_opinion hcurrent hhead ?_
  rw [opinion?_eq, hapart, if_neg (by decide), if_neg hequals,
    if_neg (isSuffixOf_singleton.not.mpr hmarker), if_pos hnext]

end RouterConfig.Rtx
