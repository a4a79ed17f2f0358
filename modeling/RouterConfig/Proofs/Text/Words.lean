import RouterConfig.Proofs.Text.Lines
import RouterConfig.Proofs.Text.Trim

/-!
# Words and what they start with

The reader looks at a line in two ways, as a text that starts with some fixed
text and as a list of words.  The lemmas here go from one to the other, and say
of which words a text is a row (`words_eq_iff`).
-/

namespace RouterConfig.Text

/-! ## Leads -/

/-- A text starts with `lead` when it is `lead` and something behind it. -/
theorem after?_eq_some_iff {lead cs rest : List Char} :
    after? lead cs = some rest ↔ cs = lead ++ rest := by
  induction lead generalizing cs with
  | nil => simp [after?, eq_comm]
  | cons l lead ih =>
    cases cs with
    | nil => simp [after?]
    | cons c cs =>
      rw [after?]
      by_cases h : l = c
      · rw [if_pos h, ih, h, List.cons_append, List.cons_inj_right]
      · rw [if_neg h, List.cons_append, List.cons_eq_cons]
        simp [Ne.symm h]

theorem after?_append (lead rest : List Char) : after? lead (lead ++ rest) = some rest :=
  after?_eq_some_iff.mpr rfl

/-! ## First words -/

/-- The first word starts with the first character that is not blank. -/
theorem head?_trimStart_of_words {cs w : List Char} {ws : List (List Char)}
    (h : words cs = w :: ws) : (trimStart cs).head? = w.head? ∧ w ≠ [] := by
  induction cs with
  | nil => simp at h
  | cons c cs ih =>
    by_cases hc : isBlank c = true
    · rw [words_cons_of_isBlank hc] at h
      rw [trimStart_cons_of_isBlank hc]
      exact ih h
    · have hc : isBlank c = false := by simpa using hc
      rw [trimStart_cons_of_not_isBlank hc]
      rw [words, if_neg (by simp [hc])] at h
      split at h
      · cases hrest : words cs with
        | nil =>
          rw [hrest, lengthenFirst, List.cons_eq_cons] at h
          rw [← h.1]
          exact ⟨rfl, List.cons_ne_nil _ _⟩
        | cons v vs =>
          rw [hrest, lengthenFirst, List.cons_eq_cons] at h
          rw [← h.1]
          exact ⟨rfl, List.cons_ne_nil _ _⟩
      · rw [List.cons_eq_cons] at h
        rw [← h.1]
        exact ⟨rfl, List.cons_ne_nil _ _⟩

/-- Blanks in front are in no word. -/
theorem words_append_of_isBlank {gap : List Char} (h : ∀ c ∈ gap, isBlank c = true)
    (cs : List Char) : words (gap ++ cs) = words cs := by
  induction gap with
  | nil => rfl
  | cons c gap ih =>
    obtain ⟨hc, hgap⟩ := List.forall_mem_cons.mp h
    rw [List.cons_append, words_cons_of_isBlank hc, ih hgap]

/-- A text that goes on with a blank, or not at all, has other words. -/
theorem words_append_of_not_startsWord {cs rest : List Char} (h : startsWord rest = false) :
    words (cs ++ rest) = words cs ++ words rest := by
  cases rest with
  | nil => rw [List.append_nil, words_nil, List.append_nil]
  | cons c rest =>
    have hc : isBlank c = true := by simpa [startsWord] using h
    rw [words_append_blank hc, words_cons_of_isBlank hc]

theorem words_ne_nil_of_startsWord {cs : List Char} (h : startsWord cs = true) : words cs ≠ [] := by
  cases cs with
  | nil => exact absurd h (by decide)
  | cons c cs =>
    have hc : isBlank c = false := by simpa [startsWord] using h
    rw [words, if_neg (by simp [hc])]
    split
    · cases words cs <;> simp [lengthenFirst]
    · exact List.cons_ne_nil _ _

/-- A text with a character that is not blank has words. -/
theorem words_ne_nil_of_mem {cs : List Char} {c : Char} (hmem : c ∈ cs) (hc : isBlank c = false) :
    words cs ≠ [] := by
  induction cs with
  | nil => cases hmem
  | cons d cs ih =>
    by_cases hd : isBlank d = true
    · rw [words_cons_of_isBlank hd]
      rcases List.mem_cons.mp hmem with rfl | hmem
      · rw [hc] at hd
        cases hd
      · exact ih hmem
    · exact words_ne_nil_of_startsWord (by simpa [startsWord] using hd)

/-- **A text up to its first word**: blanks, the word, and a rest that has the other words
and does not go on with the first. -/
theorem exists_split_of_words {cs w : List Char} {ws : List (List Char)} (h : words cs = w :: ws) :
    ∃ gap rest, cs = gap ++ w ++ rest ∧ (∀ c ∈ gap, isBlank c = true) ∧ words rest = ws ∧
      startsWord rest = false := by
  induction cs generalizing w ws with
  | nil => simp at h
  | cons c cs ih =>
    rw [words] at h
    split at h
    · next hc =>
      obtain ⟨gap, rest, rfl, hgap, hwords, hrest⟩ := ih h
      exact ⟨c :: gap, rest, rfl, List.forall_mem_cons.mpr ⟨hc, hgap⟩, hwords, hrest⟩
    · split at h
      · next hstart =>
        obtain ⟨v, vs, hv⟩ := List.exists_cons_of_ne_nil (words_ne_nil_of_startsWord hstart)
        obtain ⟨gap, rest, rfl, hgap, hwords, hrest⟩ := ih hv
        rw [hv, lengthenFirst, List.cons_eq_cons] at h
        obtain ⟨rfl, rfl⟩ := h
        -- the word goes on at once, so no blank is in front of it
        cases gap with
        | nil => exact ⟨[], rest, rfl, by simp, hwords, hrest⟩
        | cons d gap =>
          have hd := hgap d (List.mem_cons_self ..)
          simp [startsWord, hd] at hstart
      · next hstart =>
        rw [List.cons_eq_cons] at h
        obtain ⟨rfl, rfl⟩ := h
        exact ⟨[], cs, rfl, by simp, rfl, by simpa using hstart⟩

/-- A text that starts with no blank starts with its first word. -/
theorem exists_append_of_words {cs w : List Char} {ws : List (List Char)}
    (hhead : ∀ c ∈ cs.head?, isBlank c = false) (h : words cs = w :: ws) :
    ∃ rest, cs = w ++ rest ∧ words rest = ws ∧ startsWord rest = false := by
  obtain ⟨gap, rest, rfl, hgap, hwords, hrest⟩ := exists_split_of_words h
  cases gap with
  | nil => exact ⟨rest, rfl, hwords, hrest⟩
  | cons c gap =>
    have hblank := hgap c (List.mem_cons_self ..)
    rw [hhead c rfl] at hblank
    exact absurd hblank (by decide)

/-- The blanks at the ends are in no word. -/
@[simp] theorem words_trim (cs : List Char) : words (trim cs) = words cs := by
  have hstart : ∀ ds : List Char, words (trimStart ds) = words ds := by
    intro ds
    induction ds with
    | nil => rfl
    | cons d ds ih =>
      cases hd : isBlank d with
      | true => rw [trimStart_cons_of_isBlank hd, words_cons_of_isBlank hd, ih]
      | false => rw [trimStart_cons_of_not_isBlank hd]
  have hend : ∀ ds : List Char, words (trimEnd ds) = words ds := by
    intro ds
    induction ds using List.reverseRecOn with
    | nil => rfl
    | append_singleton ds d ih =>
      cases hd : isBlank d with
      | true => rw [trimEnd_concat_of_isBlank hd, ih, words_append_blank hd, words_nil,
          List.append_nil]
      | false => rw [trimEnd_concat_of_not_isBlank hd]
  rw [trim, hend, hstart]

/-- **The words of parts with spaces between them** are those of the parts. -/
theorem words_spaced_eq_flatMap (parts : List (List Char)) :
    words (spaced parts) = parts.flatMap words := by
  induction parts with
  | nil => rfl
  | cons part parts ih =>
    cases parts with
    | nil => simp [spaced]
    | cons next parts =>
      rw [spaced, words_append_blank isBlank_space, ih]
      rfl

/-! ## Bytes -/

/-- The text behind its first bytes. -/
theorem afterBytes?_append (front rest : List Char) :
    afterBytes? (byteSize front) (front ++ rest) = some rest := by
  induction front with
  | nil => simp [byteSize, afterBytes?]
  | cons c front ih =>
    obtain ⟨n, hn⟩ := Nat.exists_eq_succ_of_ne_zero (Char.utf8Size_pos c).ne'
    have hsize : byteSize (c :: front) = (n + byteSize front) + 1 := by
      rw [byteSize, hn]
      omega
    rw [hsize, List.cons_append, afterBytes?, if_pos (by omega)]
    have hleft : n + byteSize front + 1 - c.utf8Size = byteSize front := by omega
    rw [hleft, ih]

/-- So many bytes from the start of the text, a character begins, or the text ends. -/
def AtBoundary (count : Nat) (cs : List Char) : Prop :=
  ∃ front rest, cs = front ++ rest ∧ byteSize front = count

/-- What follows the first bytes. -/
theorem afterBytes?_eq_some_iff {count : Nat} {cs rest : List Char} :
    afterBytes? count cs = some rest ↔ ∃ front, cs = front ++ rest ∧ byteSize front = count := by
  constructor
  · intro h
    fun_induction afterBytes? count cs with
    | case1 cs => exact ⟨[], by simpa using h, rfl⟩
    | case2 count => cases h
    | case3 count c cs hle ih =>
      obtain ⟨front, rfl, hsize⟩ := ih h
      exact ⟨c :: front, rfl, by rw [byteSize, hsize]; omega⟩
    | case4 count c cs hle => cases h
  · rintro ⟨front, rfl, rfl⟩
    exact afterBytes?_append front rest

/-- **A text can be cut between characters, and nowhere else.** -/
theorem afterBytes?_eq_none_iff {count : Nat} {cs : List Char} :
    afterBytes? count cs = none ↔ ¬ AtBoundary count cs := by
  rw [Option.eq_none_iff_forall_ne_some, AtBoundary, exists_comm, not_exists]
  exact forall_congr' fun rest => not_congr afterBytes?_eq_some_iff

theorem byteSize_append (cs ds : List Char) : byteSize (cs ++ ds) = byteSize cs + byteSize ds := by
  induction cs with
  | nil => rw [List.nil_append, byteSize, Nat.zero_add]
  | cons c cs ih => rw [List.cons_append, byteSize, ih, byteSize, Nat.add_assoc]

theorem byteSize_le_of_prefix {cs ds : List Char} (h : cs <+: ds) : byteSize cs ≤ byteSize ds := by
  obtain ⟨rest, rfl⟩ := h
  rw [byteSize_append]
  exact Nat.le_add_right _ _

theorem byteSize_pos {cs : List Char} (h : cs ≠ []) : 0 < byteSize cs := by
  obtain ⟨c, ds, rfl⟩ := List.exists_cons_of_ne_nil h
  have hc := Char.utf8Size_pos c
  rw [byteSize]
  omega

/-- The indent of a text is the blanks in front of it. -/
theorem indentOf_append {gap cs : List Char} (hgap : ∀ c ∈ gap, isBlank c = true)
    (hcs : ∀ c ∈ cs.head?, isBlank c = false) : indentOf (gap ++ cs) = byteSize gap := by
  rw [indentOf, List.takeWhile_append_of_pos hgap]
  cases cs with
  | nil => rw [List.takeWhile_nil, List.append_nil]
  | cons c cs =>
    have hc : isBlank c = false := hcs c rfl
    rw [List.takeWhile_cons_of_neg (by simp [hc]), List.append_nil]

theorem byteSize_reverse (cs : List Char) : byteSize cs.reverse = byteSize cs := by
  induction cs with
  | nil => rfl
  | cons c cs ih =>
    rw [List.reverse_cons, byteSize_append, ih, byteSize, byteSize, byteSize]
    omega

/-- The text in front of its last bytes. -/
theorem dropBytesEnd_append (front rest : List Char) :
    dropBytesEnd (byteSize rest) (front ++ rest) = front := by
  have hgo : ∀ cs ds : List Char, dropBytesEnd.go (byteSize cs) (cs ++ ds) = ds := by
    intro cs ds
    induction cs with
    | nil => rw [byteSize, List.nil_append, dropBytesEnd.go]
    | cons c cs ih =>
      obtain ⟨n, hn⟩ := Nat.exists_eq_succ_of_ne_zero (Char.utf8Size_pos c).ne'
      have hsize : byteSize (c :: cs) = (n + byteSize cs) + 1 := by
        rw [byteSize, hn]
        omega
      have hleft : n + byteSize cs + 1 - c.utf8Size = byteSize cs := by omega
      rw [hsize, List.cons_append, dropBytesEnd.go, hleft, ih]
  rw [dropBytesEnd, List.reverse_append, ← byteSize_reverse, hgo, List.reverse_reverse]

end RouterConfig.Text

namespace RouterConfig

open Text

/-- A string starts with `lead` when it is `lead` and something behind it. -/
theorem startsWith_eq_true_iff {lead s : String} :
    startsWith lead s = true ↔ ∃ rest, s.toList = lead.toList ++ rest := by
  rw [startsWith, Option.isSome_iff_exists]
  simp only [after?_eq_some_iff]

/-! ## Words of a command -/

/-- A visible character of the narrow kind is not blank. -/
theorem isBlank_eq_false_of_le {c : Char} (hlow : 0x21 ≤ c.toNat) (hhigh : c.toNat ≤ 0x7E) :
    isBlank c = false := by
  simp only [isBlank, Bool.or_eq_false_iff, Bool.and_eq_false_iff, decide_eq_false_iff_not,
    beq_eq_false_iff_ne]
  omega

/-- The string is one word: it is not empty and holds no blank. -/
def IsWord (w : String) : Prop :=
  w ≠ "" ∧ hasBlank w = false

instance (w : String) : Decidable (IsWord w) :=
  inferInstanceAs (Decidable (w ≠ "" ∧ hasBlank w = false))

theorem isWord_iff {w : String} :
    IsWord w ↔ w.toList ≠ [] ∧ ∀ c ∈ w.toList, isBlank c = false := by
  have hne : w ≠ "" ↔ w.toList ≠ [] := by rw [ne_eq, ne_eq, ← String.toList_inj]; rfl
  rw [IsWord, hne, hasBlank, List.any_eq_false]
  simp

/-- Characters that are not blank make a word. -/
theorem isWord_ofList {cs : List Char} (hne : cs ≠ []) (h : ∀ c ∈ cs, isBlank c = false) :
    IsWord (String.ofList cs) := by
  rw [isWord_iff, String.toList_ofList]
  exact ⟨hne, h⟩

theorem IsWord.append {w v : String} (hw : IsWord w) (hv : hasBlank v = false) :
    IsWord (w ++ v) := by
  obtain ⟨hne, hblank⟩ := isWord_iff.mp hw
  rw [isWord_iff, String.toList_append]
  refine ⟨List.append_ne_nil_of_left_ne_nil hne _, ?_⟩
  intro c hc
  rcases List.mem_append.mp hc with hc | hc
  · exact hblank c hc
  · have hall := List.any_eq_false.mp hv c hc
    simpa using hall

theorem IsWord.breakFree {w : String} (h : IsWord w) : BreakFree w.toList :=
  breakFree_of_forall_not_isBlank (isWord_iff.mp h).2

/-- The words of a text are words. -/
theorem isWord_of_mem_words {cs w : List Char} (h : w ∈ words cs) :
    w ≠ [] ∧ ∀ c ∈ w, isBlank c = false := by
  induction cs generalizing w with
  | nil => simp at h
  | cons c cs ih =>
    rw [words] at h
    split at h
    · exact ih h
    · next hc =>
      have hc : isBlank c = false := by simpa using hc
      split at h
      · cases hrest : words cs with
        | nil =>
          rw [hrest, lengthenFirst, List.mem_singleton] at h
          rw [h]
          exact ⟨List.cons_ne_nil _ _, by simpa using hc⟩
        | cons v vs =>
          rw [hrest, lengthenFirst] at h
          rw [hrest] at ih
          rcases List.mem_cons.mp h with rfl | h
          · have hv := (ih (List.mem_cons_self ..)).2
            exact ⟨List.cons_ne_nil _ _, List.forall_mem_cons.mpr ⟨hc, hv⟩⟩
          · exact ih (List.mem_cons_of_mem _ h)
      · rcases List.mem_cons.mp h with rfl | h
        · exact ⟨List.cons_ne_nil _ _, by simpa using hc⟩
        · exact ih h

theorem isWord_of_mem_wordsOf {s w : String} (h : w ∈ wordsOf s) : IsWord w := by
  obtain ⟨cs, hcs, rfl⟩ := List.mem_map.mp h
  obtain ⟨hne, hblank⟩ := isWord_of_mem_words hcs
  exact isWord_ofList hne hblank

/-- The one word of a word is itself. -/
theorem wordsOf_of_isWord {w : String} (h : IsWord w) : wordsOf w = [w] := by
  obtain ⟨hne, hblank⟩ := isWord_iff.mp h
  rw [wordsOf, words_of_forall_not_isBlank hne hblank, List.map_singleton, String.ofList_toList]

/-- Nothing is trimmed from a word. -/
theorem trimmed_of_isWord {w : String} (h : IsWord w) : trimmed w = w := by
  have hblank := (isWord_iff.mp h).2
  have htrim : trim w.toList = w.toList := trim_eq_self.mpr
    ⟨fun c hc => hblank c (List.mem_of_mem_head? hc),
      fun c hc => hblank c (List.mem_of_mem_getLast? hc)⟩
  rw [trimmed, htrim, String.ofList_toList]

@[simp] theorem wordsOf_trimmed (s : String) : wordsOf (trimmed s) = wordsOf s := by
  rw [wordsOf, toList_trimmed, words_trim, wordsOf]

/-- A text that is not empty and has no blanks at its ends has words. -/
theorem wordsOf_ne_nil {s : String} (htrim : trim s.toList = s.toList) (hne : s ≠ "") :
    wordsOf s ≠ [] := by
  intro hnil
  rw [wordsOf, List.map_eq_nil_iff] at hnil
  refine words_ne_nil_of_startsWord ?_ hnil
  have hhead := (trim_eq_self.mp htrim).1
  cases hs : s.toList with
  | nil => exact absurd (String.toList_inj.mp (by rw [hs]; rfl)) hne
  | cons c cs =>
    rw [hs] at hhead
    rw [startsWord, hhead c rfl]
    rfl

/-- A text without blanks at its start can be cut behind its first word. -/
theorem afterByte?_of_wordsOf {text w : String} {ws : List String}
    (htrim : trim text.toList = text.toList) (h : wordsOf text = w :: ws) :
    ∃ value, text.toList = w.toList ++ value.toList ∧ wordsOf value = ws ∧
      startsWord value.toList = false ∧ afterByte? (byteSize w.toList) text = some value := by
  obtain ⟨cs, css, hcs, hw, hws⟩ := List.map_eq_cons_iff.mp h
  obtain ⟨rest, hsplit, hwords, hstart⟩ := exists_append_of_words (trim_eq_self.mp htrim).1 hcs
  have hcut : afterByte? (byteSize w.toList) text = some (String.ofList rest) := by
    rw [afterByte?, hsplit, ← hw, String.toList_ofList, afterBytes?_append, Option.map_some]
  refine ⟨String.ofList rest, ?_, ?_, ?_, hcut⟩
  · rw [hsplit, ← hw, String.toList_ofList, String.toList_ofList]
  · rw [wordsOf, String.toList_ofList, hwords, hws]
  · rwa [String.toList_ofList]

/-- **The words of a phrase** are those of its parts, whatever the parts are. -/
theorem wordsOf_phrase_eq_flatMap (parts : List String) :
    wordsOf (phrase parts) = parts.flatMap wordsOf := by
  rw [wordsOf, toList_phrase, words_spaced_eq_flatMap, List.flatMap_map, List.map_flatMap]
  rfl

/-- Strings with nothing between them. -/
theorem toList_joined_empty (ss : List String) :
    (joined "" ss).toList = (ss.map String.toList).flatten := by
  rw [toList_joined]
  induction ss with
  | nil => rfl
  | cons s ss ih =>
    cases ss with
    | nil => simp
    | cons t ss =>
      rw [List.map_cons, List.map_cons, List.intercalate_cons_cons, List.flatten_cons]
      rw [List.map_cons] at ih
      rw [ih]
      simp

/-! ## Rows of words -/

/-- The text is a row of the words: there are blanks between them, and there may be some around
them. -/
inductive IsRow : List Char → List (List Char) → Prop
  | blank {gap : List Char} (hgap : ∀ c ∈ gap, isBlank c = true) : IsRow gap []
  | word {gap w rest : List Char} {ws : List (List Char)} (hgap : ∀ c ∈ gap, isBlank c = true)
    (hne : w ≠ []) (hw : ∀ c ∈ w, isBlank c = false) (hend : ∀ c ∈ rest.head?, isBlank c = true)
    (hrest : IsRow rest ws) : IsRow (gap ++ w ++ rest) (w :: ws)

theorem startsWord_eq_false_iff {cs : List Char} :
    startsWord cs = false ↔ ∀ c ∈ cs.head?, isBlank c = true := by
  cases cs <;> simp [startsWord]

/-- **The words of a text** are those of which it is a row. -/
theorem words_eq_iff {cs : List Char} {ws : List (List Char)} : words cs = ws ↔ IsRow cs ws := by
  constructor
  · intro h
    induction ws generalizing cs with
    | nil =>
      refine .blank fun c hc => Bool.of_not_eq_false fun hblank => ?_
      exact words_ne_nil_of_mem hc hblank h
    | cons w ws ih =>
      obtain ⟨hne, hw⟩ := isWord_of_mem_words (h ▸ List.mem_cons_self .. : w ∈ words cs)
      obtain ⟨gap, rest, rfl, hgap, hrest, hend⟩ := exists_split_of_words h
      exact .word hgap hne hw (startsWord_eq_false_iff.mp hend) (ih hrest)
  · intro h
    induction h with
    | @blank gap hgap =>
      have hwords := words_append_of_isBlank hgap []
      rwa [List.append_nil] at hwords
    | word hgap hne hw hend _ ih =>
      rw [List.append_assoc, words_append_of_isBlank hgap,
        words_append_of_not_startsWord (startsWord_eq_false_iff.mpr hend),
        words_of_forall_not_isBlank hne hw, ih, List.singleton_append]

theorem wordsOf_eq_iff {s : String} {ws : List String} :
    wordsOf s = ws ↔ IsRow s.toList (ws.map String.toList) := by
  rw [← words_eq_iff, ← map_toList_wordsOf]
  exact (List.map_inj_right fun _ _ => String.toList_inj.mp).symm

end RouterConfig
