import Mathlib.Data.List.Forall2
import RouterConfig.Filter.Binding
import RouterConfig.Proofs.Faults
import RouterConfig.Proofs.Text.Numerals

/-!
# Filter bindings and their words

The words of a binding are numerals, apart from the one word that stands in front
of the dynamic filters.  No numeral is that word, so the words say where the static
filters end.

The reader is described by the words that it accepts.  They are the spellings of a
binding (`IsSpelling`): numerals of the static filters, and then, if there are dynamic
ones, the word and numerals of these.  What is written is the one spelling without
zeros or plus signs in front, so reading it back is one case of reading.
-/

namespace RouterConfig

open Text

/-- A direction is read from its own word only. -/
theorem Direction.read_eq_ok_iff {word : String} {d : Direction} :
    Direction.read word = .ok d ↔ word = d.word := by
  constructor
  · fun_cases Direction.read word
    all_goals rintro ⟨⟩
    all_goals assumption
  · rintro rfl
    exact Direction.read_word d

namespace FilterBinding

/-! ## Spellings -/

/-- The words are numerals of the numbers, in their order. -/
def AreNumerals (numbers : List UInt32) (ws : List String) : Prop :=
  List.Forall₂ (fun n w => IsNumeral n.toNat w.toList) numbers ws

/-- The words spell the binding. -/
inductive IsSpelling : FilterBinding → List String → Prop
  /-- Without dynamic filters, they are numerals of the static ones. -/
  | static {filters : List UInt32} {ws : List String} (hfilters : AreNumerals filters ws) :
    IsSpelling ⟨filters, []⟩ ws
  /-- With dynamic filters, the word `dynamic` stands between numerals of the static ones and
  numerals of these. -/
  | dynamic {filters numbers : List UInt32} {ws vs : List String}
    (hfilters : AreNumerals filters ws) (hnumbers : AreNumerals numbers vs) (hne : numbers ≠ []) :
    IsSpelling ⟨filters, numbers⟩ (ws ++ "dynamic" :: vs)

theorem areNumerals_map (numbers : List UInt32) : AreNumerals numbers (numbers.map numeral) := by
  rw [AreNumerals, List.forall₂_map_right_iff, List.forall₂_same]
  exact fun n _ => isNumeral_numeral n

/-- Writing chooses one of the spellings. -/
theorem isSpelling_words (b : FilterBinding) : IsSpelling b b.words := by
  obtain ⟨filters, dynamic⟩ := b
  cases dynamic with
  | nil =>
    rw [words, List.isEmpty_nil, if_pos rfl, List.append_nil]
    exact .static (areNumerals_map filters)
  | cons n numbers =>
    rw [words, List.isEmpty_cons, if_neg Bool.false_ne_true]
    exact .dynamic (areNumerals_map filters) (areNumerals_map _) (List.cons_ne_nil _ _)

/-! ## Reading the words -/

/-- No numeral is the word in front of the dynamic filters. -/
theorem ne_dynamic_of_isNumeral {n : Nat} {w : String} (h : IsNumeral n w.toList) :
    w ≠ "dynamic" := by
  rintro rfl
  have hletter : 'd' = '+' ∨ isDigit 'd' = true := h.of_mem (by decide)
  exact absurd hletter (by decide)

/-- **The numbers behind the word are read from their numerals**, and from nothing else. -/
theorem readDynamic_eq_ok_iff {ws : List String} {numbers : List UInt32} :
    readDynamic ws = .ok numbers ↔ AreNumerals numbers ws := by
  constructor
  · intro h
    induction ws generalizing numbers with
    | nil =>
      obtain rfl := Except.ok.inj h
      exact .nil
    | cons w ws ih =>
      rw [readDynamic] at h
      split at h
      · cases h
      · obtain ⟨n, hn, h⟩ := bind_eq_ok_iff.mp h
        obtain ⟨rest, hrest, h⟩ := bind_eq_ok_iff.mp h
        obtain rfl := Except.ok.inj h
        exact .cons (readNumber_eq_ok_iff.mp hn) (ih hrest)
  · intro h
    induction h with
    | nil => rfl
    | cons hn _ ih =>
      rw [readDynamic, if_neg (ne_dynamic_of_isNumeral hn), readNumber_eq_ok_iff.mpr hn, ih]
      rfl

/-- Behind the word there has to be a number. -/
theorem readWords_dynamic_eq_ok_iff {ws : List String} {b : FilterBinding} :
    readWords ("dynamic" :: ws) = .ok b ↔
      ∃ numbers, AreNumerals numbers ws ∧ numbers ≠ [] ∧ b = ⟨[], numbers⟩ := by
  rw [readWords, if_pos rfl, bind_eq_ok_iff]
  refine exists_congr fun numbers => and_congr readDynamic_eq_ok_iff ?_
  cases numbers with
  | nil => exact iff_of_false nofun fun h => h.1 rfl
  | cons n numbers =>
    show (.ok ⟨[], n :: numbers⟩ : Except LineFault FilterBinding) = .ok b ↔ _
    rw [Except.ok.injEq, and_iff_right (List.cons_ne_nil n numbers), eq_comm]

/-- Numerals in front are read as static filters in front. -/
theorem readWords_append {filters : List UInt32} {ws : List String} (h : AreNumerals filters ws)
    (back : List String) : readWords (ws ++ back) =
      (readWords back).map fun b => { b with filters := filters ++ b.filters } := by
  induction h with
  | nil =>
    rw [List.nil_append]
    cases readWords back <;> rfl
  | cons hn _ ih =>
    rw [List.cons_append, readWords, if_neg (ne_dynamic_of_isNumeral hn),
      readNumber_eq_ok_iff.mpr hn, ih]
    cases readWords back <;> rfl

/-- A binding is read from each of its spellings. -/
theorem IsSpelling.readWords_eq {b : FilterBinding} {ws : List String} (h : IsSpelling b ws) :
    readWords ws = .ok b := by
  cases h with
  | static hfilters =>
    have hread := readWords_append hfilters []
    rwa [List.append_nil, readWords, Except.map, empty, List.append_nil] at hread
  | dynamic hfilters hnumbers hne =>
    have hread := readWords_dynamic_eq_ok_iff.mpr ⟨_, hnumbers, hne, rfl⟩
    rw [readWords_append hfilters, hread, Except.map, List.append_nil]

/-- **A binding is read from the words that spell it**, and from no others. -/
theorem readWords_eq_ok_iff {ws : List String} {b : FilterBinding} :
    readWords ws = .ok b ↔ IsSpelling b ws := by
  refine ⟨fun h => ?_, IsSpelling.readWords_eq⟩
  induction ws generalizing b with
  | nil =>
    obtain rfl := Except.ok.inj h
    exact .static .nil
  | cons w ws ih =>
    by_cases hw : w = "dynamic"
    · subst hw
      obtain ⟨numbers, hnumbers, hne, rfl⟩ := readWords_dynamic_eq_ok_iff.mp h
      exact .dynamic .nil hnumbers hne
    · rw [readWords, if_neg hw] at h
      obtain ⟨n, hn, h⟩ := bind_eq_ok_iff.mp h
      obtain ⟨c, hc, h⟩ := bind_eq_ok_iff.mp h
      obtain rfl := Except.ok.inj h
      have hn := readNumber_eq_ok_iff.mp hn
      cases ih hc with
      | static hfilters => exact .static (.cons hn hfilters)
      | dynamic hfilters hnumbers hne => exact .dynamic (.cons hn hfilters) hnumbers hne

/-- A binding is read back from its words. -/
@[simp] theorem readWords_words (b : FilterBinding) : readWords b.words = .ok b :=
  b.isSpelling_words.readWords_eq

/-! ## Texts -/

/-- The words of a binding are numerals and the one in front of the dynamic filters. -/
theorem eq_of_mem_words {b : FilterBinding} {w : String} (h : w ∈ b.words) :
    w = "dynamic" ∨ ∃ n, w = numeral n := by
  have hnumber : ∀ numbers : List UInt32, w ∈ numbers.map numeral → ∃ n, w = numeral n := by
    intro numbers hw
    obtain ⟨n, -, rfl⟩ := List.mem_map.mp hw
    exact ⟨n, rfl⟩
  rw [words] at h
  rcases List.mem_append.mp h with h | h
  · exact Or.inr (hnumber _ h)
  · split at h
    · cases h
    · exact (List.mem_cons.mp h).imp_right (hnumber _)

/-- A binding is read from a text that is a row of words which spell it. -/
theorem read_eq_ok_iff {text : String} {b : FilterBinding} :
    read text = .ok b ↔ ∃ ws, IsRow text.toList (ws.map String.toList) ∧ IsSpelling b ws := by
  rw [read, readWords_eq_ok_iff]
  constructor
  · exact fun h => ⟨wordsOf text, wordsOf_eq_iff.mp rfl, h⟩
  · rintro ⟨ws, hrow, h⟩
    rwa [wordsOf_eq_iff.mpr hrow]

/-- **A binding is read back from its text.** -/
theorem read_render (b : FilterBinding) : read b.render = .ok b := by
  have hwords : wordsOf b.render = b.words := by
    refine wordsOf_phrase fun w hw => ?_
    rcases eq_of_mem_words hw with rfl | ⟨n, rfl⟩
    · decide
    · exact isWord_numeral n
  rw [read, hwords, readWords_words]

/-- The text of a binding is empty when it has no filters.  A text that was written for some
would be read back as these, and from the empty text none are read. -/
theorem render_eq_empty_iff {b : FilterBinding} : b.render = "" ↔ b = empty := by
  constructor
  · intro h
    have hread := b.read_render
    rw [h] at hread
    exact (Except.ok.inj hread).symm
  · rintro rfl
    rfl

/-- **The grammar of bindings is exact, and writing inverts reading.**  A binding is read from a
text exactly when the text is a row of words that spell it: numerals of its static filters,
followed by nothing if it has no dynamic filters, and else by the word `dynamic` and numerals of
these.  Every binding is read back from the text that is written for it, and this text is empty
for the empty binding only. -/
theorem read_exactly_spellings :
    (∀ (text : String) (b : FilterBinding), read text = .ok b ↔
      ∃ ws, IsRow text.toList (ws.map String.toList) ∧ IsSpelling b ws) ∧
      ∀ b : FilterBinding, read b.render = .ok b ∧ (b.render = "" ↔ b = empty) :=
  ⟨fun _ _ => read_eq_ok_iff, fun b => ⟨b.read_render, render_eq_empty_iff⟩⟩

example : read " +1\t007  dynamic 2 " = .ok ⟨[1, 7], [2]⟩ := by decide +kernel

end FilterBinding

end RouterConfig
