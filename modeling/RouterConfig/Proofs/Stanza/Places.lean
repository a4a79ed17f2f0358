import Mathlib.Algebra.BigOperators.Group.List.Basic
import Mathlib.Algebra.GroupWithZero.Nat
import Mathlib.Data.List.Induction
import RouterConfig.Proofs.Stanza.Groups

/-!
# Where every line goes

The scanner carries from line to line which group is open.  That is a summary of
the lines before, and here it is spelled out: a group is open when the latest
header opened it and no line since has ended it (`IsOpen`).  The step is
`isOpen_concat_iff`, what one more line does to the open groups of a history, and
the run is `openedFrom_eq_some_iff`.

With this the place of a line is told by the lines before it, without the state of
the scanner (`Goes`), and each line goes to exactly one place (`goes_iff`).  The
main statement adds what the stanza holds: every line once, in the order of the
text, and one group for each key of a header (`scan_places_every_line`).
-/

namespace RouterConfig.Scanner

open Stanza

variable {π : Type} [LinePattern π]

/-! ## Lines by themselves -/

section Lines

variable (definitions : List (ContextDefinition π))

/-- The line is a header of the definition, and names the key. -/
def IsHeader (d : ContextDefinition π) (key : ContextKey) (line : Line) : Prop :=
  isSkipped line.text = false ∧ header? definitions line.text = some (d, key)

/-- The line is neither skipped nor a header. -/
def IsPlain (line : Line) : Prop :=
  isSkipped line.text = false ∧ header? definitions line.text = none

end Lines

/-- The line ends the open group of a definition: it leaves it, it is a trailer, or it is
neither indented nor a member.  A trailer that is not stored in the group leaves it or
stands outside, so it ends the group all the same. -/
def Ends (d : ContextDefinition π) (line : Line) : Prop :=
  d.isLeave line.text = true ∨ d.isTrailer line.text = true ∨
    (line.indent = 0 ∧ d.isMember line.text = false)

/-! ## Lines and the lines before them -/

section History

variable (definitions : List (ContextDefinition π)) (before : List Line)

/-- After the lines `before`, the group is open: the latest header opened it, and no
line since has ended it.  Blank lines and comments end nothing. -/
def IsOpen (d : ContextDefinition π) (key : ContextKey) : Prop :=
  ∃ earlier header since, before = earlier ++ header :: since ∧ IsHeader definitions d key header ∧
    ∀ line ∈ since, isSkipped line.text = true ∨ (IsPlain definitions line ∧ ¬ Ends d line)

variable (line : Line)

/-- The line leaves the group that is open, or, if none is, some group or other. -/
def IsLeft : Prop :=
  IsPlain definitions line ∧
    ((∃ d key, IsOpen definitions before d key ∧ d.isLeave line.text = true) ∨
      (∀ d key, ¬ IsOpen definitions before d key) ∧
        ∃ d ∈ definitions, d.isLeave line.text = true)

/-- The line is stored. -/
def IsStored : Prop :=
  IsPlain definitions line ∧ ¬ IsLeft definitions before line

/-- The group is open, and the line is indented or a member. -/
def BelongsTo (key : ContextKey) : Prop :=
  ∃ d, IsOpen definitions before d key ∧ (0 < line.indent ∨ d.isMember line.text = true)

/-- **Where a line goes**, told by the lines before it. -/
def Goes : Place → Prop
  | .skipped => isSkipped line.text = true
  | .header key => ∃ d, IsHeader definitions d key line
  | .leave => IsLeft definitions before line
  | .inside key => IsStored definitions before line ∧ BelongsTo definitions before line key
  | .top => IsStored definitions before line ∧ ∀ key, ¬ BelongsTo definitions before line key

end History

variable {definitions : List (ContextDefinition π)} {d : ContextDefinition π} {key : ContextKey}
  {before : List Line} {line : Line}

/-! ## The open group -/

theorem not_isOpen_nil : ¬ IsOpen definitions [] d key := by
  rintro ⟨earlier, header, since, hnil, -⟩
  simp at hnil

/-- **What one more line does**: a header opens its group, and any other line keeps the
group that was open, unless it ends it. -/
theorem isOpen_concat_iff :
    IsOpen definitions (before ++ [line]) d key ↔
      IsHeader definitions d key line ∨ (IsOpen definitions before d key ∧
        (isSkipped line.text = true ∨ (IsPlain definitions line ∧ ¬ Ends d line))) := by
  constructor
  · rintro ⟨earlier, header, since, hsplit, hheader, hsince⟩
    rcases List.eq_nil_or_concat' since with rfl | ⟨init, last, rfl⟩
    · obtain ⟨-, hline⟩ := List.append_inj' hsplit rfl
      rw [List.cons.inj hline |>.1]
      exact Or.inl hheader
    · rw [← List.cons_append, ← List.append_assoc] at hsplit
      obtain ⟨hbefore, hline⟩ := List.append_inj' hsplit rfl
      obtain rfl : line = last := (List.cons.inj hline).1
      rw [List.forall_mem_append, List.forall_mem_singleton] at hsince
      exact Or.inr ⟨⟨earlier, header, init, hbefore, hheader, hsince.1⟩, hsince.2⟩
  · rintro (hheader | ⟨⟨earlier, header, since, rfl, hheader, hsince⟩, hline⟩)
    · exact ⟨before, line, [], rfl, hheader, by simp⟩
    · refine ⟨earlier, header, since ++ [line], by simp, hheader, ?_⟩
      rw [List.forall_mem_append, List.forall_mem_singleton]
      exact ⟨hsince, hline⟩

/-! ## One step of the scanner -/

/-- Every line is skipped, a header, or plain. -/
theorem skipped_or_header_or_plain (definitions : List (ContextDefinition π)) (line : Line) :
    isSkipped line.text = true ∨ (∃ d key, IsHeader definitions d key line) ∨
      IsPlain definitions line := by
  cases hskip : isSkipped line.text with
  | true => exact Or.inl rfl
  | false =>
    right
    cases hheader : header? definitions line.text with
    | some opens => exact Or.inl ⟨opens.1, opens.2, hskip, hheader⟩
    | none => exact Or.inr ⟨hskip, hheader⟩

theorem IsPlain.not_isHeader (h : IsPlain definitions line) :
    ¬ IsHeader definitions d key line := by
  rintro ⟨-, hheader⟩
  rw [h.2] at hheader
  cases hheader

theorem place_of_isSkipped (h : isSkipped line.text = true) (opened : OpenContext π) :
    place definitions opened line = (.skipped, opened) := by
  unfold place
  rw [if_pos h]

theorem place_of_isHeader (h : IsHeader definitions d key line) (opened : OpenContext π) :
    place definitions opened line = (.header key, some (d, key)) := by
  unfold place
  rw [h.1, h.2]
  rfl

theorem place_of_isPlain_of_open (h : IsPlain definitions line) (d : ContextDefinition π)
    (key : ContextKey) :
    place definitions (some (d, key)) line =
      if d.isLeave line.text then (.leave, none)
      else if 0 < line.indent || d.isMember line.text then
        (.inside key, if d.isTrailer line.text then none else some (d, key))
      else (.top, none) := by
  unfold place
  rw [h.1, h.2]
  rfl

theorem place_of_isPlain_of_closed (h : IsPlain definitions line) :
    place definitions none line =
      if definitions.any (·.isLeave line.text) then (.leave, none) else (.top, none) := by
  unfold place
  rw [h.1, h.2]
  rfl

/-- A plain line that ends the open group leaves nothing open. -/
theorem place_snd_of_ends (h : IsPlain definitions line) (hends : Ends d line) (key : ContextKey) :
    (place definitions (some (d, key)) line).2 = none := by
  rw [place_of_isPlain_of_open h]
  rcases hends with hleave | htrailer | ⟨hindent, hmember⟩
  · rw [if_pos hleave]
  · split_ifs <;> rfl
  · rw [hindent, hmember]
    split_ifs <;> simp_all

/-- A plain line that does not end the open group is stored in it. -/
theorem place_of_not_ends (h : IsPlain definitions line) (hends : ¬ Ends d line)
    (key : ContextKey) :
    place definitions (some (d, key)) line = (.inside key, some (d, key)) := by
  simp only [Ends, not_or, not_and, Bool.not_eq_true, Bool.not_eq_false] at hends
  obtain ⟨hleave, htrailer, hinside⟩ := hends
  have hbelongs : (decide (0 < line.indent) || d.isMember line.text) = true := by
    rw [Bool.or_eq_true, decide_eq_true_eq]
    exact (Nat.eq_zero_or_pos line.indent).symm.imp_right hinside
  rw [place_of_isPlain_of_open h, hleave, htrailer, hbelongs]
  rfl

/-- A plain line opens nothing, and leaves open what it does not end. -/
theorem place_snd_of_isPlain (h : IsPlain definitions line) {opened : OpenContext π} :
    (place definitions opened line).2 = some (d, key) ↔
      opened = some (d, key) ∧ ¬ Ends d line := by
  cases opened with
  | none =>
    rw [place_of_isPlain_of_closed h]
    split <;> simp
  | some current =>
    obtain ⟨e, k⟩ := current
    by_cases hends : Ends e line
    · rw [place_snd_of_ends h hends]
      refine ⟨fun hnone => absurd hnone (by simp), ?_⟩
      rintro ⟨⟨⟩, hkeeps⟩
      exact absurd hends hkeeps
    · rw [place_of_not_ends h hends]
      refine ⟨?_, And.left⟩
      rintro ⟨⟩
      exact ⟨rfl, hends⟩

/-- **What one line leaves open** is what it opens, or what was open and is not ended. -/
theorem place_snd_eq_some_iff {opened : OpenContext π} :
    (place definitions opened line).2 = some (d, key) ↔
      IsHeader definitions d key line ∨ (opened = some (d, key) ∧
        (isSkipped line.text = true ∨ (IsPlain definitions line ∧ ¬ Ends d line))) := by
  rcases skipped_or_header_or_plain definitions line with hskip | ⟨e, k, hheader⟩ | hplain
  · rw [place_of_isSkipped hskip]
    simp [IsHeader, hskip]
  · have hsame : IsHeader definitions d key line ↔ some (e, k) = some (d, key) := by
      rw [IsHeader, hheader.2, and_iff_right hheader.1]
    have hnot : ¬ (isSkipped line.text = true ∨ (IsPlain definitions line ∧ ¬ Ends d line)) := by
      rintro (hskip | ⟨hplain, -⟩)
      · simp [hheader.1] at hskip
      · exact hplain.not_isHeader hheader
    rw [place_of_isHeader hheader, hsame]
    simp [hnot]
  · rw [place_snd_of_isPlain hplain]
    simp [hplain.not_isHeader, hplain, hplain.1]

/-! ## The run of the scanner -/

/-- What is open after some more lines. -/
def openedFrom (definitions : List (ContextDefinition π)) (opened : OpenContext π)
    (lines : List Line) : OpenContext π :=
  lines.foldl (fun opened line => (place definitions opened line).2) opened

theorem openedFrom_concat (opened : OpenContext π) (before : List Line) (line : Line) :
    openedFrom definitions opened (before ++ [line]) =
      (place definitions (openedFrom definitions opened before) line).2 := by
  simp [openedFrom]

/-- **The scanner has open what is open**, by the lines so far. -/
theorem openedFrom_eq_some_iff :
    openedFrom definitions none before = some (d, key) ↔ IsOpen definitions before d key := by
  induction before using List.reverseRecOn with
  | nil => simp [openedFrom, not_isOpen_nil]
  | append_singleton before line ih =>
    rw [openedFrom_concat, place_snd_eq_some_iff, ih, isOpen_concat_iff]

theorem openedFrom_eq_none_iff :
    openedFrom definitions none before = none ↔ ∀ d key, ¬ IsOpen definitions before d key := by
  simp only [← openedFrom_eq_some_iff, Option.eq_none_iff_forall_ne_some, Prod.forall, ne_eq]

/-- Lines are placed one part after the other. -/
theorem places_append (opened : OpenContext π) (xs ys : List Line) :
    places definitions opened (xs ++ ys) =
      places definitions opened xs ++ places definitions (openedFrom definitions opened xs) ys := by
  induction xs generalizing opened with
  | nil => rfl
  | cons x xs ih =>
    rw [List.cons_append, places, ih, places, List.cons_append]
    rfl

/-- A line is placed by what is open after the lines before it. -/
theorem getElem?_places (before : List Line) (line : Line) (rest : List Line) :
    (places definitions none (before ++ line :: rest))[before.length]? =
      some ((place definitions (openedFrom definitions none before) line).1, line) := by
  have hlength : (places definitions none before).length = before.length := by
    rw [← List.length_map (f := Prod.snd), map_snd_places]
  rw [places_append, ← hlength, List.getElem?_append_right (Nat.le_refl _), Nat.sub_self, places]
  rfl

/-! ## The place of a line -/

/-- Only one group is open at a time. -/
theorem eq_of_isOpen {e : ContextDefinition π} {k : ContextKey}
    (h : IsOpen definitions before d key) (hother : IsOpen definitions before e k) :
    e = d ∧ k = key := by
  rw [← openedFrom_eq_some_iff] at h hother
  rw [h] at hother
  cases hother
  exact ⟨rfl, rfl⟩

theorem isLeft_of_isOpen (hplain : IsPlain definitions line)
    (h : IsOpen definitions before d key) :
    IsLeft definitions before line ↔ d.isLeave line.text = true := by
  refine ⟨?_, fun hleave => ⟨hplain, Or.inl ⟨d, key, h, hleave⟩⟩⟩
  rintro ⟨-, ⟨e, k, hopen, hleave⟩ | ⟨hclosed, -⟩⟩
  · rwa [← (eq_of_isOpen h hopen).1]
  · exact absurd h (hclosed d key)

theorem isLeft_of_closed (hplain : IsPlain definitions line)
    (h : ∀ d key, ¬ IsOpen definitions before d key) :
    IsLeft definitions before line ↔ ∃ d ∈ definitions, d.isLeave line.text = true := by
  refine ⟨?_, fun hleave => ⟨hplain, Or.inr ⟨h, hleave⟩⟩⟩
  rintro ⟨-, ⟨e, k, hopen, -⟩ | ⟨-, hleave⟩⟩
  · exact absurd hopen (h e k)
  · exact hleave

theorem belongsTo_of_isOpen {k : ContextKey} (h : IsOpen definitions before d key) :
    BelongsTo definitions before line k ↔
      k = key ∧ (0 < line.indent ∨ d.isMember line.text = true) := by
  constructor
  · rintro ⟨e, hopen, hbelongs⟩
    obtain ⟨rfl, rfl⟩ := eq_of_isOpen h hopen
    exact ⟨rfl, hbelongs⟩
  · rintro ⟨rfl, hbelongs⟩
    exact ⟨d, h, hbelongs⟩

theorem goes_of_isSkipped {p : Place} (h : isSkipped line.text = true) :
    Goes definitions before line p ↔ p = .skipped := by
  have hplain : ¬ IsPlain definitions line := fun hplain => by simp [hplain.1] at h
  cases p <;> simp [Goes, IsHeader, IsLeft, IsStored, h, hplain]

theorem goes_of_isHeader {p : Place} (h : IsHeader definitions d key line) :
    Goes definitions before line p ↔ p = .header key := by
  have hplain : ¬ IsPlain definitions line := fun hplain => hplain.not_isHeader h
  cases p with
  | header k => simp [Goes, IsHeader, h.1, h.2, eq_comm]
  | _ => simp [Goes, IsLeft, IsStored, h.1, hplain]

theorem goes_of_isPlain {p : Place} (h : IsPlain definitions line) :
    Goes definitions before line p ↔
      p = (place definitions (openedFrom definitions none before) line).1 := by
  have hheader : ∀ d key, ¬ IsHeader definitions d key line := fun d key => h.not_isHeader
  cases hopened : openedFrom definitions none before with
  | none =>
    have hclosed := openedFrom_eq_none_iff.mp hopened
    have hleft := isLeft_of_closed h hclosed
    have hbelongs : ∀ key, ¬ BelongsTo definitions before line key :=
      fun key ⟨d, hopen, _⟩ => hclosed d key hopen
    rw [place_of_isPlain_of_closed h]
    by_cases hleave : ∃ d ∈ definitions, d.isLeave line.text = true
    · rw [if_pos (List.any_eq_true.mpr hleave)]
      cases p <;> simp [Goes, IsStored, h.1, hheader, hleft.mpr hleave]
    · rw [if_neg (by rwa [List.any_eq_true])]
      cases p <;> simp [Goes, IsStored, h, h.1, hheader, hleft.not.mpr hleave, hbelongs]
  | some current =>
    obtain ⟨d, key⟩ := current
    have hopen := openedFrom_eq_some_iff.mp hopened
    have hleft := isLeft_of_isOpen h hopen
    rw [place_of_isPlain_of_open h]
    by_cases hleave : d.isLeave line.text = true
    · rw [if_pos hleave]
      cases p <;> simp [Goes, IsStored, h.1, hheader, hleft.mpr hleave]
    · have hstored : IsStored definitions before line := ⟨h, hleft.not.mpr hleave⟩
      rw [if_neg hleave]
      by_cases hinside : 0 < line.indent ∨ d.isMember line.text = true
      · rw [if_pos (by simpa using hinside)]
        cases p <;>
          simp [Goes, h.1, hheader, hleft, hleave, hstored, belongsTo_of_isOpen hopen, hinside]
      · rw [if_neg (by simpa using hinside)]
        cases p <;>
          simp [Goes, h.1, hheader, hleft, hleave, hstored, belongsTo_of_isOpen hopen, hinside]

/-- **Each line goes to exactly one place**, the one where the scanner puts it. -/
theorem goes_iff {p : Place} :
    Goes definitions before line p ↔
      p = (place definitions (openedFrom definitions none before) line).1 := by
  rcases skipped_or_header_or_plain definitions line with hskip | ⟨d, key, hheader⟩ | hplain
  · rw [place_of_isSkipped hskip, goes_of_isSkipped hskip]
  · rw [place_of_isHeader hheader, goes_of_isHeader hheader]
  · exact goes_of_isPlain hplain

/-- **A line goes where it is placed**, and nowhere else. -/
theorem goes_iff_getElem? {p : Place} (rest : List Line) :
    Goes definitions before line p ↔
      ((places definitions none (before ++ line :: rest)).map Prod.fst)[before.length]? =
        some p := by
  rw [List.getElem?_map, getElem?_places, goes_iff, Option.map_some, Option.some_inj, eq_comm]

/-! ## Counting -/

/-- A header with the key stands in front of each line of a group. -/
theorem mem_openedKeys_of_inside {lines : List Line} {line : Line}
    (h : (Place.inside key, line) ∈ places definitions none lines) :
    key ∈ (places definitions none lines).filterMap openedKey? := by
  obtain ⟨front, behind, hsplit⟩ := List.append_of_mem h
  have hlines : lines = front.map Prod.snd ++ line :: behind.map Prod.snd := by
    have hplaced : (places definitions none lines).map Prod.snd = lines := map_snd_places none lines
    rw [← hplaced, hsplit, List.map_append, List.map_cons]
  have hgoes : Goes definitions (front.map Prod.snd) line (.inside key) := by
    refine (goes_iff_getElem? (behind.map Prod.snd)).mpr ?_
    rw [← hlines, hsplit]
    simp
  obtain ⟨-, d, ⟨earlier, header, since, hfront, hheader, -⟩, -⟩ := hgoes
  have hplaced : (Place.header key, header) ∈ places definitions none lines := by
    refine List.mem_of_getElem? (i := earlier.length) ?_
    rw [hlines, hfront, List.append_assoc, List.cons_append, getElem?_places,
      place_of_isHeader hheader]
  exact List.mem_filterMap.mpr ⟨_, hplaced, rfl⟩

/-- A group that no line was placed in has no lines. -/
theorem linesAt_inside_eq_nil {placed : List (Place × Line)}
    (h : ∀ line, (Place.inside key, line) ∉ placed) : linesAt (.inside key) placed = [] := by
  rw [linesAt, List.map_eq_nil_iff, List.filter_eq_nil_iff]
  rintro ⟨place, line⟩ hq hplace
  obtain rfl : place = .inside key := of_decide_eq_true hplace
  exact h line hq

theorem linesAt_cons (p : Place) (q : Place × Line) (placed : List (Place × Line)) :
    linesAt p (q :: placed) = if q.1 = p then q.2 :: linesAt p placed else linesAt p placed := by
  rw [linesAt, List.filter_cons]
  split_ifs <;> simp_all [linesAt]

/-- One more at one of the keys is one more in all. -/
theorem sum_map_length_cons {α κ : Type} [DecidableEq κ] {keys : List κ} (hnodup : keys.Nodup)
    {k : κ} (hk : k ∈ keys) (a : α) (f : κ → List α) :
    (keys.map fun j => (if k = j then a :: f j else f j).length).sum =
      (keys.map fun j => (f j).length).sum + 1 := by
  induction keys with
  | nil => simp at hk
  | cons j keys ih =>
    obtain ⟨hj, hnodup⟩ := List.nodup_cons.mp hnodup
    rw [List.map_cons, List.sum_cons, List.map_cons, List.sum_cons]
    rcases List.mem_cons.mp hk with rfl | hk
    · have hothers : (keys.map fun j => (if k = j then a :: f j else f j).length) =
          keys.map fun j => (f j).length :=
        List.map_congr_left fun i hi => by rw [if_neg fun he : k = i => hj (he ▸ hi)]
      rw [if_pos rfl, hothers, List.length_cons]
      omega
    · rw [if_neg fun he : k = j => hj (he ▸ hk), ih hnodup hk]
      omega

/-- **The places of lines, counted.** -/
theorem length_eq_sum_linesAt {keys : List ContextKey} (hnodup : keys.Nodup)
    {placed : List (Place × Line)}
    (hkeys : ∀ q ∈ placed, ∀ key, q.1 = .inside key → key ∈ keys) :
    placed.length = (linesAt .skipped placed).length + (placed.filterMap openedKey?).length +
      (linesAt .leave placed).length + (linesAt .top placed).length +
        (keys.map fun key => (linesAt (.inside key) placed).length).sum := by
  induction placed with
  | nil => simp [linesAt]
  | cons q placed ih =>
    have hrest := ih fun r hr => hkeys r (List.mem_cons_of_mem _ hr)
    obtain ⟨p, line⟩ := q
    cases p with
    | inside key =>
      have hsum := sum_map_length_cons hnodup (hkeys _ (List.mem_cons_self ..) key rfl) line
        fun key => linesAt (.inside key) placed
      simp only [linesAt_cons, Place.inside.injEq, reduceCtorEq, if_false, hsum, openedKey?,
        List.filterMap_cons, List.length_cons]
      omega
    | _ =>
      simp only [linesAt_cons, reduceCtorEq, if_true, if_false, openedKey?, List.filterMap_cons,
        List.length_cons]
      omega

/-! ## The stanza -/

/-- **Every line is placed exactly once**, in the place that the lines before it give.
The stanza holds the lines of each place in the order of the text, and a group for
each key of a header, in the order in which the keys come first.  So every line is
counted once, as skipped, a header, one that leaves a group, or stored. -/
theorem scan_places_every_line (definitions : List (ContextDefinition π))
    (lines : List Line) :
    ∃ placed : List (Place × Line),
      placed.map Prod.snd = lines ∧
      (∀ (i : Fin lines.length) (p : Place),
        Goes definitions (lines.take i) lines[i] p ↔ (placed.map Prod.fst)[i]? = some p) ∧
      (scan definitions lines).skipped = (linesAt .skipped placed).length ∧
      (scan definitions lines).topLevel = linesAt .top placed ∧
      (scan definitions lines).contexts =
        (distinct (placed.filterMap openedKey?)).map (fun key =>
          (key, linesAt (.inside key) placed)) ∧
      (scan definitions lines).topLevel.Sublist lines ∧
      (∀ c ∈ (scan definitions lines).contexts, c.2.Sublist lines) ∧
      lines.length = (scan definitions lines).skipped + (placed.filterMap openedKey?).length +
        (linesAt .leave placed).length + (scan definitions lines).topLevel.length +
          ((scan definitions lines).contexts.map fun c => c.2.length).sum := by
  have hlines : (places definitions none lines).map Prod.snd = lines := map_snd_places none lines
  have hsublist : ∀ p, (linesAt p (places definitions none lines)).Sublist lines := by
    intro p
    have hplaced := (List.filter_sublist (l := places definitions none lines)
      (p := fun q => decide (q.1 = p))).map Prod.snd
    rwa [hlines] at hplaced
  refine ⟨places definitions none lines, hlines, fun i p => ?_, rfl, rfl, rfl, hsublist .top, ?_,
    ?_⟩
  · have hsplit : lines.take i ++ lines[i] :: lines.drop (i + 1) = lines := by
      rw [Fin.getElem_fin, ← List.drop_eq_getElem_cons i.isLt, List.take_append_drop]
    have hlength : (lines.take i).length = i := List.length_take_of_le (Nat.le_of_lt i.isLt)
    have hgoes : Goes definitions (lines.take i) lines[i] p ↔ _ :=
      goes_iff_getElem? (lines.drop (i + 1))
    rwa [hsplit, hlength] at hgoes
  · intro c hc
    obtain ⟨key, -, rfl⟩ := List.mem_map.mp hc
    exact hsublist (.inside key)
  · have hkeys : ∀ q ∈ places definitions none lines, ∀ key, q.1 = .inside key →
        key ∈ distinct ((places definitions none lines).filterMap openedKey?) := by
      rintro ⟨p, line⟩ hq key rfl
      exact mem_distinct.mpr (mem_openedKeys_of_inside hq)
    have hcount := length_eq_sum_linesAt (nodup_distinct _) hkeys
    rw [← List.length_map (f := Prod.snd), hlines] at hcount
    rw [hcount]
    simp [scan, ofPlaces, Function.comp_def]

end RouterConfig.Scanner
