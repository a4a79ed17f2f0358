import RouterConfig.Proofs.Text.Pieces
import RouterConfig.Proofs.Text.Words

/-!
# Phrases taken apart from the front

A command is a phrase, and the reader of a feature starts with its first words.  It
looks whether the text starts with some fixed words, cuts one word off, or cuts
the text at every space.  Each of these undoes the writing of a phrase, as long as the
words that are cut off are words.

A word may itself have parts with marks between them, and it is one as soon as its parts
hold no blanks.
-/

namespace RouterConfig

open Text

/-! ## Leads -/

/-- Two beginnings of which neither goes on as the other: a text cannot have both. -/
def Apart (s t : String) : Prop :=
  ¬ s.toList <+: t.toList ∧ ¬ t.toList <+: s.toList

instance (s t : String) : Decidable (Apart s t) :=
  inferInstanceAs (Decidable (_ ∧ _))

theorem after?_of_apart {lead front : String} (h : Apart lead front) (rest : List Char) :
    after? lead.toList (front.toList ++ rest) = none := by
  cases hafter : after? lead.toList (front.toList ++ rest) with
  | none => rfl
  | some behind =>
    have htext := after?_eq_some_iff.mp hafter
    have hlead : lead.toList <+: front.toList ++ rest := ⟨behind, htext.symm⟩
    rcases List.prefix_or_prefix_of_prefix hlead (List.prefix_append ..) with hpre | hpre
    · exact absurd hpre h.1
    · exact absurd hpre h.2

variable {lead front text : String} {rest : List Char}

theorem afterLead?_of_apart (h : Apart lead front) (htext : text.toList = front.toList ++ rest) :
    afterLead? lead text = none := by
  rw [afterLead?, htext, after?_of_apart h, Option.map_none]

/-- What follows the fixed text of a line. -/
theorem afterLead?_of_toList {behind : String}
    (htext : text.toList = lead.toList ++ behind.toList) : afterLead? lead text = some behind := by
  rw [afterLead?, htext, after?_append, Option.map_some, String.ofList_toList]

/-- A line is its fixed text and what follows it. -/
theorem toList_of_afterLead? {behind : String} (h : afterLead? lead text = some behind) :
    text.toList = lead.toList ++ behind.toList := by
  obtain ⟨rest, hrest, rfl⟩ := Option.map_eq_some_iff.mp h
  rw [String.toList_ofList]
  exact after?_eq_some_iff.mp hrest

/-! ## Fronts of phrases -/

/-- Behind the first word of a phrase stands a space. -/
theorem toList_phrase_cut (w v : String) (ws : List String) :
    (phrase (w :: v :: ws)).toList = w.toList ++ ' ' :: (phrase (v :: ws)).toList := by
  rw [toList_phrase, toList_phrase, List.map_cons, List.map_cons, spaced]

/-- A phrase starts with its first word. -/
theorem toList_phrase_cons (w v : String) (ws : List String) :
    (phrase (w :: v :: ws)).toList = (w ++ " ").toList ++ (phrase (v :: ws)).toList := by
  rw [toList_phrase_cut, String.toList_append, List.append_assoc]
  rfl

/-- A phrase starts with its first two words. -/
theorem toList_phrase_cons_cons (w v u : String) (ws : List String) :
    (phrase (w :: v :: u :: ws)).toList =
      (w ++ " " ++ v ++ " ").toList ++ (phrase (u :: ws)).toList := by
  rw [toList_phrase_cons, toList_phrase_cons, ← List.append_assoc, ← String.toList_append]
  simp [String.append_assoc]

@[simp] theorem phrase_singleton (w : String) : phrase [w] = w := by
  rw [phrase, List.map_singleton, spaced, String.ofList_toList]

/-- A phrase of three words is its last one behind the other two. -/
theorem toList_phrase_three (w v u : String) :
    (phrase [w, v, u]).toList = (w ++ " " ++ v ++ " ").toList ++ u.toList := by
  rw [toList_phrase_cons_cons, phrase_singleton]

/-- **A phrase in two parts**, with a space between them. -/
theorem toList_phrase_append {front ws : List String} (hfront : front ≠ []) (hws : ws ≠ []) :
    (phrase (front ++ ws)).toList = (phrase front ++ " ").toList ++ (phrase ws).toList := by
  obtain ⟨v, vs, rfl⟩ := List.exists_cons_of_ne_nil hws
  induction front with
  | nil => exact absurd rfl hfront
  | cons w front ih =>
    cases front with
    | nil => rw [phrase_singleton, List.singleton_append, toList_phrase_cons]
    | cons u front =>
      rw [List.cons_append, List.cons_append, toList_phrase_cut, ← List.cons_append,
        ih (List.cons_ne_nil _ _), String.toList_append, String.toList_append, toList_phrase_cut]
      simp

/-- The lead of a command is what its first words make. -/
theorem afterLead?_phrase {front ws : List String} (hfront : front ≠ []) (hws : ws ≠ [])
    (hlead : lead = phrase front ++ " ") :
    afterLead? lead (phrase (front ++ ws)) = some (phrase ws) :=
  afterLead?_of_toList (by rw [toList_phrase_append hfront hws, hlead])

/-! ## First words -/

/-- A text is split behind its first word, where a space stands. -/
theorem splitWord?_append {w rest : List Char} (hw : ∀ c ∈ w, isBlank c = false)
    (hrest : '\n' ∉ rest) : splitWord? (w ++ ' ' :: rest) = some (w, rest) := by
  have hpos : ∀ c ∈ w, (!isBlank c) = true := fun c hc => by rw [hw c hc]; rfl
  rw [splitWord?, List.dropWhile_append_of_pos hpos, List.takeWhile_append_of_pos hpos,
    List.dropWhile_cons_of_neg (by simp), List.takeWhile_cons_of_neg (by simp), List.append_nil]
  simp [hrest]

/-- A phrase is split behind its first word. -/
theorem firstWord?_phrase {w v : String} {ws : List String} (hw : IsWord w)
    (hrest : BreakFree (phrase (v :: ws)).toList) :
    firstWord? (phrase (w :: v :: ws)) = some (w, phrase (v :: ws)) := by
  rw [firstWord?, toList_phrase_cut, splitWord?_append (isWord_iff.mp hw).2 hrest.1,
    Option.map_some, String.ofList_toList, String.ofList_toList]

theorem space_not_mem_of_isWord {w : String} (h : IsWord w) : ' ' ∉ w.toList := by
  intro hmem
  have hblank := (isWord_iff.mp h).2 ' ' hmem
  rw [isBlank_space] at hblank
  cases hblank

/-- A phrase is split at its first space. -/
theorem splitOnce?_phrase {w v : String} {ws : List String} (hw : IsWord w) :
    splitOnce? ' ' (phrase (w :: v :: ws)) = some (w, phrase (v :: ws)) :=
  splitOnce?_of_toList (space_not_mem_of_isWord hw) (toList_phrase_cut w v ws)

/-- **The pieces of a phrase between spaces** are its words. -/
theorem piecesOf_phrase {ws : List String} (hne : ws ≠ []) (hws : ∀ w ∈ ws, IsWord w) :
    piecesOf ' ' (phrase ws) = ws := by
  induction ws with
  | nil => exact absurd rfl hne
  | cons w ws ih =>
    obtain ⟨hw, hrest⟩ := List.forall_mem_cons.mp hws
    have hspace := space_not_mem_of_isWord hw
    cases ws with
    | nil =>
      rw [phrase_singleton, piecesOf, pieces_of_not_mem hspace, List.map_singleton,
        String.ofList_toList]
    | cons v ws =>
      have htail := ih (List.cons_ne_nil _ _) hrest
      rw [piecesOf] at htail
      rw [piecesOf, toList_phrase_cut, pieces_append hspace, List.map_cons, String.ofList_toList,
        htail]

/-! ## Words with marks in them -/

/-- Two parts without blanks and the mark between them make a word. -/
theorem isWord_of_splitOnce? {mark : Char} {s before behind : String}
    (h : splitOnce? mark s = some (before, behind)) (hmark : isBlank mark = false)
    (hbefore : ∀ c ∈ before.toList, isBlank c = false)
    (hbehind : ∀ c ∈ behind.toList, isBlank c = false) : IsWord s := by
  rw [isWord_iff, eq_of_splitOnce? h, List.forall_mem_append, List.forall_mem_cons]
  exact ⟨List.append_ne_nil_of_right_ne_nil _ (List.cons_ne_nil _ _), hbefore, hmark, hbehind⟩

/-- Words with marks between them make a word. -/
theorem isWord_of_piecesOf {mark : Char} {s : String} (hmark : isBlank mark = false)
    (h : ∀ piece ∈ piecesOf mark s, IsWord piece) : IsWord s := by
  have hchars : ∀ c ∈ s.toList, isBlank c = false :=
    forall_mem_of_piecesOf mark hmark fun piece hpiece => (isWord_iff.mp (h piece hpiece)).2
  refine isWord_iff.mpr ⟨fun hnil => ?_, hchars⟩
  have hempty : "" ∈ piecesOf mark s := by
    rw [piecesOf, hnil]
    exact List.mem_singleton_self ""
  exact (h "" hempty).1 rfl

end RouterConfig
