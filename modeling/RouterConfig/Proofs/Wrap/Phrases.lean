import RouterConfig.Proofs.Text.Numerals
import RouterConfig.Proofs.Wrap.Commands

/-!
# Words that make a line

Every command is written as a phrase, its words with one space between
neighbours.  Some of the words are values that a record brings along, and nothing
says that such a value is a single word.  A phrase of which the first word is known
is a line exactly when no word holds a line break and the last word ends like a
line (`isLine_phrase`).  So a value in the middle of a command can do harm by a line
break alone, and a value at its end also by its last character.

`seenOneForOne_phrases` says so for a whole list of commands.
-/

namespace RouterConfig.Rtx

open Text Wrap

/-! ## Values at the end of a command -/

/-- A value that may stand at the end of a line: it holds no line break, and its
last character is not blank. -/
def EndsLine (value : String) : Prop :=
  BreakFree value.toList ∧ ∃ c ∈ value.toList.getLast?, isBlank c = false

/-- A value that may stand at the end of a command with another one behind: its
last character is not the marker either. -/
def EndsCommand (value : String) : Prop :=
  EndsLine value ∧ value.toList.getLast? ≠ some marker

instance (value : String) : Decidable (EndsLine value) :=
  decidable_of_iff
    (BreakFree value.toList ∧ (value.toList.getLast?.any fun c => !isBlank c) = true)
    (by rw [EndsLine]; cases value.toList.getLast? <;> simp)

instance (value : String) : Decidable (EndsCommand value) :=
  inferInstanceAs (Decidable (EndsLine value ∧ value.toList.getLast? ≠ some marker))

theorem endsLine_of_isWord {w : String} (h : IsWord w) : EndsLine w := by
  obtain ⟨hne, hblank⟩ := isWord_iff.mp h
  refine ⟨h.breakFree, w.toList.getLast hne, List.getLast?_eq_some_getLast hne, ?_⟩
  exact hblank _ (List.getLast_mem hne)

/-- A line that is not empty ends like one. -/
theorem endsLine_of_isLine {value : String} (h : IsLine value.toList) (hne : value ≠ "") :
    EndsLine value := by
  have hlist : value.toList ≠ [] := by
    intro hnil
    exact hne (String.toList_inj.mp (by rw [hnil]; rfl))
  refine ⟨h.2, value.toList.getLast hlist, List.getLast?_eq_some_getLast hlist, ?_⟩
  exact (trim_eq_self.mp h.1).2 _ (List.getLast?_eq_some_getLast hlist)

/-- A word without the marker may stand anywhere. -/
theorem endsCommand_of_isWord {w : String} (h : IsWord w) (hmarker : marker ∉ w.toList) :
    EndsCommand w :=
  ⟨endsLine_of_isWord h, fun hlast => hmarker (List.mem_of_mem_getLast? hlast)⟩

theorem marker_not_mem_numeral (n : UInt32) : marker ∉ (numeral n).toList :=
  fun h => absurd (isDigit_of_mem_numeral h) (by decide)

theorem endsCommand_numeral (n : UInt32) : EndsCommand (numeral n) :=
  endsCommand_of_isWord (isWord_numeral n) (marker_not_mem_numeral n)

/-! ## Lists of words -/

/-- The words make a line, and the last one is as `last` says. -/
def LineOf (last : String → Prop) : List String → Prop
  | [] => False
  | [w] => last w
  | w :: v :: ws => BreakFree w.toList ∧ LineOf last (v :: ws)

section LineOf

variable {last : String → Prop}

@[simp] theorem lineOf_singleton {w : String} : LineOf last [w] ↔ last w := Iff.rfl

@[simp] theorem lineOf_cons_cons {w v : String} {ws : List String} :
    LineOf last (w :: v :: ws) ↔ BreakFree w.toList ∧ LineOf last (v :: ws) := Iff.rfl

/-- Words in front of a line must hold no line break. -/
theorem lineOf_append {lead ws : List String} (hne : ws ≠ []) :
    LineOf last (lead ++ ws) ↔ (∀ w ∈ lead, BreakFree w.toList) ∧ LineOf last ws := by
  induction lead with
  | nil => simp
  | cons w lead ih =>
    obtain ⟨v, vs, hv⟩ := List.exists_cons_of_ne_nil (List.append_ne_nil_of_right_ne_nil lead hne)
    rw [List.cons_append, hv, lineOf_cons_cons, ← hv, ih, List.forall_mem_cons, and_assoc]

theorem lineOf_concat {lead : List String} {w : String} :
    LineOf last (lead ++ [w]) ↔ (∀ v ∈ lead, BreakFree v.toList) ∧ last w :=
  lineOf_append (List.cons_ne_nil _ _)

/-- Words make a line when the last one is right. -/
theorem lineOf_of_isWord {ws : List String} (hne : ws ≠ []) (hws : ∀ w ∈ ws, IsWord w)
    (hlast : ∀ w ∈ ws, last w) : LineOf last ws := by
  have hsplit : ws.dropLast ++ [ws.getLast hne] = ws := List.dropLast_append_getLast hne
  rw [← hsplit, lineOf_concat]
  exact ⟨fun v hv => (hws v (List.dropLast_subset _ hv)).breakFree, hlast _ (List.getLast_mem hne)⟩

/-- Values that may all stand at the end make a line. -/
theorem lineOf_endsLine {ws : List String} (hne : ws ≠ []) (hws : ∀ w ∈ ws, EndsLine w) :
    LineOf EndsLine ws := by
  have hsplit : ws.dropLast ++ [ws.getLast hne] = ws := List.dropLast_append_getLast hne
  rw [← hsplit, lineOf_concat]
  exact ⟨fun v hv => (hws v (List.dropLast_subset _ hv)).1, hws _ (List.getLast_mem hne)⟩

end LineOf

/-! ## Phrases -/

/-- The words are at least two, and the first one is known. -/
def StartsWords (ws : List String) : Prop :=
  ∃ w v rest, ws = w :: v :: rest ∧ w ∈ commandStarts

theorem startsWords_cons {w v : String} {ws : List String} (h : w ∈ commandStarts) :
    StartsWords (w :: v :: ws) :=
  ⟨w, v, ws, rfl, h⟩

theorem isWord_of_mem_commandStarts : ∀ w ∈ commandStarts, IsWord w := by
  decide

theorem StartsWords.startsKnown {ws : List String} (h : StartsWords ws) :
    StartsKnown (phrase ws) := by
  obtain ⟨w, v, rest, rfl, hw⟩ := h
  obtain ⟨hne, hblank⟩ := isWord_iff.mp (isWord_of_mem_commandStarts w hw)
  refine ⟨w.toList, words (spaced ((v :: rest).map String.toList)), ?_, ?_⟩
  · rw [toList_phrase, List.map_cons, List.map_cons, spaced, words_append_blank isBlank_space,
      words_of_forall_not_isBlank hne hblank]
    rfl
  · rwa [String.ofList_toList]

/-- A phrase holds a line break exactly when one of its words does. -/
theorem breakFree_spaced {ws : List (List Char)} :
    BreakFree (spaced ws) ↔ ∀ w ∈ ws, BreakFree w := by
  induction ws with
  | nil => simp [spaced, breakFree_nil]
  | cons w ws ih =>
    cases ws with
    | nil => simp [spaced]
    | cons v ws =>
      have hspace : BreakFree [' '] := by decide
      rw [spaced, ← List.singleton_append, breakFree_append, breakFree_append, ih,
        List.forall_mem_cons]
      simp [hspace]

theorem spaced_concat {ws : List (List Char)} (hne : ws ≠ []) (u : List Char) :
    spaced (ws ++ [u]) = spaced ws ++ ' ' :: u := by
  induction ws with
  | nil => exact absurd rfl hne
  | cons w ws ih =>
    cases ws with
    | nil => rfl
    | cons v ws =>
      have hrest := ih (List.cons_ne_nil _ _)
      rw [List.cons_append] at hrest
      rw [List.cons_append, List.cons_append, spaced, hrest, spaced, List.append_assoc,
        List.cons_append]

/-- The last character of a phrase is that of its last word, or a space if that word
is empty. -/
theorem getLast?_phrase {ws : List String} (hne : ws ≠ []) (u : String) :
    (phrase (ws ++ [u])).toList.getLast? = (' ' :: u.toList).getLast? := by
  rw [toList_phrase, List.map_append, List.map_singleton, spaced_concat (by simpa using hne),
    List.getLast?_append_of_ne_nil _ (List.cons_ne_nil _ _)]

/-- Words make a value that may stand at the end of a line. -/
theorem endsLine_phrase {ws : List String} (hne : ws ≠ []) (hws : ∀ w ∈ ws, IsWord w) :
    EndsLine (phrase ws) := by
  refine ⟨?_, ?_⟩
  · rw [toList_phrase, breakFree_spaced, List.forall_mem_map]
    exact fun w hw => (hws w hw).breakFree
  · obtain ⟨init, u, rfl⟩ := (List.eq_nil_or_concat' ws).resolve_left hne
    have hu := (endsLine_of_isWord (hws u (by simp))).2
    rcases eq_or_ne init [] with rfl | hinit
    · simpa [spaced] using hu
    · obtain ⟨c, hc, hblank⟩ := hu
      obtain ⟨front, hfront⟩ := List.getLast?_eq_some_iff.mp hc
      refine ⟨c, ?_, hblank⟩
      rw [getLast?_phrase hinit, hfront, ← List.cons_append, List.getLast?_concat]
      rfl

/-- Of two words or more, some stand in front of the last. -/
theorem exists_lead (w v : String) (rest : List String) :
    ∃ lead u, lead ≠ [] ∧ w :: v :: rest = lead ++ [u] := by
  refine ⟨w :: (v :: rest).dropLast, (v :: rest).getLast (List.cons_ne_nil _ _),
    List.cons_ne_nil _ _, ?_⟩
  rw [List.cons_append, List.dropLast_append_getLast]

/-- **When a phrase is a line.** -/
theorem isLine_phrase {ws : List String} (h : StartsWords ws) :
    IsLine (phrase ws).toList ↔ LineOf EndsLine ws := by
  obtain ⟨w, v, rest, rfl, hw⟩ := h
  obtain ⟨hne, hblank⟩ := isWord_iff.mp (isWord_of_mem_commandStarts w hw)
  obtain ⟨c, cs, hc⟩ := List.exists_cons_of_ne_nil hne
  have hhead : ∀ d ∈ (phrase (w :: v :: rest)).toList.head?, isBlank d = false := by
    rw [toList_phrase, List.map_cons, List.map_cons, spaced, hc]
    rintro d ⟨⟩
    exact hblank c (by rw [hc]; exact List.mem_cons_self ..)
  have hbreak : BreakFree (phrase (w :: v :: rest)).toList ↔
      ∀ x ∈ w :: v :: rest, BreakFree x.toList := by
    rw [toList_phrase, breakFree_spaced, List.forall_mem_map]
  obtain ⟨lead, u, hlead, hsplit⟩ := exists_lead w v rest
  rw [IsLine, trim_eq_self, hbreak, hsplit, getLast?_phrase hlead, lineOf_concat, EndsLine]
  rw [hsplit] at hhead
  have hlast : (∀ d ∈ (' ' :: u.toList).getLast?, isBlank d = false) ↔
      ∃ d ∈ u.toList.getLast?, isBlank d = false := by
    rcases List.eq_nil_or_concat' u.toList with hu | ⟨init, d, hu⟩
    · rw [hu]
      simp
    · rw [hu, ← List.cons_append, List.getLast?_concat, List.getLast?_concat]
      simp
  rw [hlast]
  constructor
  · rintro ⟨⟨-, hend⟩, hwords⟩
    exact ⟨fun x hx => hwords x (List.mem_append_left _ hx), hwords u (by simp), hend⟩
  · rintro ⟨hwords, hu, hend⟩
    refine ⟨⟨hhead, hend⟩, fun x hx => ?_⟩
    rcases List.mem_append.mp hx with hx | hx
    · exact hwords x hx
    · rwa [List.mem_singleton.mp hx]

/-- **When a phrase is a line with another one behind.** -/
theorem isLine_phrase_and_not_marker {ws : List String} (h : StartsWords ws) :
    IsLine (phrase ws).toList ∧ ¬ EndsWithMarker (phrase ws) ↔ LineOf EndsCommand ws := by
  rw [isLine_phrase h]
  obtain ⟨w, v, rest, rfl, hw⟩ := h
  obtain ⟨lead, u, hlead, hsplit⟩ := exists_lead w v rest
  rw [hsplit, lineOf_concat, lineOf_concat, EndsWithMarker, getLast?_phrase hlead, EndsCommand,
    and_assoc]
  refine and_congr_right fun _ => and_congr_right fun hu => ?_
  obtain ⟨c, hc, -⟩ := hu.2
  obtain ⟨init, hinit⟩ := List.getLast?_eq_some_iff.mp hc
  rw [hinit, ← List.cons_append, List.getLast?_concat, List.getLast?_concat]

theorem StartsWords.isCommand {ws : List String} (h : StartsWords ws) (hline : LineOf EndsLine ws) :
    IsCommand (phrase ws) :=
  ⟨h.startsKnown, (isLine_phrase h).mpr hline⟩

theorem StartsWords.isCommand_of_endsCommand {ws : List String} (h : StartsWords ws)
    (hline : LineOf EndsCommand ws) : IsCommand (phrase ws) :=
  ⟨h.startsKnown, ((isLine_phrase_and_not_marker h).mpr hline).1⟩

/-! ## Lists of commands -/

/-- **Exactly when phrases are seen one for one.** -/
theorem seenOneForOne_phrases {init : List (List String)} {last : List String}
    (hinit : ∀ ws ∈ init, StartsWords ws) (hlast : StartsWords last) :
    SeenOneForOne (init.map phrase ++ [phrase last]) ↔
      (∀ ws ∈ init, LineOf EndsCommand ws) ∧ LineOf EndsLine last := by
  have hstarts : ∀ c ∈ init.map phrase ++ [phrase last], StartsKnown c := by
    intro c hc
    rcases List.mem_append.mp hc with hc | hc
    · obtain ⟨ws, hws, rfl⟩ := List.mem_map.mp hc
      exact (hinit ws hws).startsKnown
    · rw [List.mem_singleton.mp hc]
      exact hlast.startsKnown
  rw [seenOneForOne_iff hstarts, List.dropLast_concat, ← isLine_phrase hlast]
  constructor
  · rintro ⟨hlines, hmarker⟩
    refine ⟨fun ws hws => ?_, hlines _ (by simp)⟩
    have hmem : phrase ws ∈ init.map phrase := List.mem_map_of_mem hws
    exact (isLine_phrase_and_not_marker (hinit ws hws)).mp
      ⟨hlines _ (List.mem_append_left _ hmem), hmarker _ hmem⟩
  · rintro ⟨hcommands, hend⟩
    have hboth : ∀ c ∈ init.map phrase, IsLine c.toList ∧ ¬ EndsWithMarker c := by
      intro c hc
      obtain ⟨ws, hws, rfl⟩ := List.mem_map.mp hc
      exact (isLine_phrase_and_not_marker (hinit ws hws)).mpr (hcommands ws hws)
    refine ⟨fun c hc => ?_, fun c hc => (hboth c hc).2⟩
    rcases List.mem_append.mp hc with hc | hc
    · exact (hboth c hc).1
    · rwa [List.mem_singleton.mp hc]

/-- Commands of which each may stand in front of another are seen one for one. -/
theorem seenOneForOne_of_endsCommand {commands : List String}
    (h : ∀ c ∈ commands, ∃ ws, c = phrase ws ∧ StartsWords ws ∧ LineOf EndsCommand ws) :
    SeenOneForOne commands := by
  have hcommands : ∀ c ∈ commands, StartsKnown c ∧ IsLine c.toList ∧ ¬ EndsWithMarker c := by
    intro c hc
    obtain ⟨ws, rfl, hstarts, hline⟩ := h c hc
    exact ⟨hstarts.startsKnown, (isLine_phrase_and_not_marker hstarts).mpr hline⟩
  exact seenOneForOne_of_isLine (fun c hc => (hcommands c hc).1) (fun c hc => (hcommands c hc).2.1)
    fun c hc => (hcommands c (List.dropLast_subset _ hc)).2.2

/-- A single command all of whose words are words is seen one for one. -/
theorem seenOneForOne_phrase {ws : List String} (hstart : StartsWords ws)
    (hws : ∀ w ∈ ws, IsWord w) : SeenOneForOne [phrase ws] := by
  have hline : LineOf EndsLine ws := by
    refine lineOf_of_isWord ?_ hws fun w hw => endsLine_of_isWord (hws w hw)
    obtain ⟨w, v, rest, rfl, -⟩ := hstart
    exact List.cons_ne_nil _ _
  have hnothing : ∀ ws ∈ ([] : List (List String)), StartsWords ws := by simp
  have hseen := seenOneForOne_phrases hnothing hstart
  exact hseen.mpr ⟨by simp, hline⟩

end RouterConfig.Rtx
