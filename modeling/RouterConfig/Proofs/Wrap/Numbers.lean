import Mathlib.Data.List.Chain
import RouterConfig.Proofs.Wrap.Commands

/-!
# A list of numbers that was cut

A device cuts a long list of numbers anywhere: inside a number, in front of a
space or behind one.  Putting the pieces together is decided from piece to piece,
each time from the command built so far and the next piece.

What is built so far ends with a digit, or with one space behind a digit.  The
second happens only in front of the second piece, since every later piece loses
the blanks at its end when it is put behind.  That loss is the one flaw of the
scheme: where a piece other than the first ends with the space between two
numbers, the next one starts with a digit, is taken for the rest of a number that
was cut, and is put behind without a space.

* `continueFrom_pieces`: what is put together in the end.
* `reconstruct_pieces_eq_iff`: it is the command exactly when this stood on one
  line and no piece but the first ends with a space.
-/

namespace RouterConfig.Rtx

open Text Wrap

/-! ## Pieces -/

/-- A character of a list of numbers. -/
def IsListChar (c : Char) : Prop :=
  isDigit c = true ∨ c = ' '

/-- A piece of a list of numbers.  It starts with a digit, or with a space and
then a digit. -/
structure IsPiece (piece : List Char) : Prop where
  listChars : ∀ c ∈ piece, IsListChar c
  start : Policy.startsWithDigit piece = true ∨
    ∃ rest, piece = ' ' :: rest ∧ Policy.startsWithDigit rest = true

/-- The end of a command that is being put together from pieces: a digit. -/
def EndsWithDigit (cs : List Char) : Prop :=
  ∃ init d, cs = init ++ [d] ∧ isDigit d = true

theorem EndsWithDigit.endsWithDigit {cs : List Char} (h : EndsWithDigit cs) :
    Policy.endsWithDigit cs = true := by
  obtain ⟨init, d, rfl, hd⟩ := h
  simpa [Policy.endsWithDigit, Policy.startsWithDigit] using hd

theorem EndsWithDigit.trimEnd_eq {cs : List Char} (h : EndsWithDigit cs) : trimEnd cs = cs := by
  obtain ⟨init, d, rfl, hd⟩ := h
  exact trimEnd_concat_of_not_isBlank (isBlank_eq_false_of_isDigit hd) init

theorem EndsWithDigit.getLast?_ne_marker {cs : List Char} (h : EndsWithDigit cs) :
    (trimEnd cs).getLast? ≠ some marker := by
  rw [h.trimEnd_eq]
  obtain ⟨init, d, rfl, hd⟩ := h
  rw [List.getLast?_concat]
  exact fun he => absurd (Option.some.inj he ▸ hd) (by decide)

theorem EndsWithDigit.append {cs ds : List Char} (h : EndsWithDigit ds) :
    EndsWithDigit (cs ++ ds) := by
  obtain ⟨init, d, rfl, hd⟩ := h
  exact ⟨cs ++ init, d, (List.append_assoc ..).symm, hd⟩

/-- A text that starts with a digit and consists of digits and spaces ends with a
digit when the blanks at its end are gone. -/
theorem endsWithDigit_trimEnd {cs : List Char} (hchars : ∀ c ∈ cs, IsListChar c)
    (hstart : Policy.startsWithDigit cs = true) : EndsWithDigit (trimEnd cs) := by
  cases cs with
  | nil => exact absurd hstart (by decide)
  | cons c cs =>
    have hc : isBlank c = false := isBlank_eq_false_of_isDigit hstart
    have hne : trimEnd (c :: cs) ≠ [] := by
      intro hnil
      have hhead := head?_trimEnd hc cs
      rw [hnil] at hhead
      exact absurd hhead (by simp)
    obtain ⟨init, d, hd⟩ : ∃ init d, trimEnd (c :: cs) = init ++ [d] :=
      ⟨_, _, (List.dropLast_append_getLast hne).symm⟩
    refine ⟨init, d, hd, ?_⟩
    have hmem : d ∈ trimEnd (c :: cs) := by rw [hd]; exact List.mem_append_right _ (by simp)
    rcases hchars d (mem_of_mem_trimEnd hmem) with hdigit | rfl
    · exact hdigit
    · have hblank := getLast?_trimEnd (c :: cs) ' ' (by rw [hd]; simp)
      exact absurd hblank (by decide)

theorem trim_eq_trimEnd {cs : List Char} (h : Policy.startsWithDigit cs = true) :
    trim cs = trimEnd cs := by
  cases cs with
  | nil => rfl
  | cons c cs => rw [trim, trimStart_cons_of_not_isBlank (isBlank_eq_false_of_isDigit h)]

/-- A piece without the blanks at its end is put behind. -/
theorem trimEnd_space_cons {cs : List Char} (h : Policy.startsWithDigit cs = true) :
    trimEnd (' ' :: cs) = ' ' :: trimEnd cs := by
  cases cs with
  | nil => exact absurd h (by decide)
  | cons c cs =>
    rw [← List.singleton_append, trimEnd_append_of_exists
      ⟨c, List.mem_cons_self .., isBlank_eq_false_of_isDigit h⟩, List.singleton_append]

theorem IsPiece.endsWithDigit {piece : List Char} (h : IsPiece piece) :
    EndsWithDigit (trimEnd piece) := by
  rcases h.start with hdigit | ⟨rest, rfl, hdigit⟩
  · exact endsWithDigit_trimEnd h.listChars hdigit
  · rw [trimEnd_space_cons hdigit, ← List.singleton_append]
    exact (endsWithDigit_trimEnd (fun c hc => h.listChars c (List.mem_cons_of_mem _ hc))
      hdigit).append

/-! ## One piece -/

/-- A piece can be put behind a command: the command ends with a digit, or it ends
with one space behind a digit and the piece starts with a digit. -/
def Fits (text piece : List Char) : Prop :=
  EndsWithDigit text ∨
    ∃ init, text = init ++ [' '] ∧ EndsWithDigit init ∧ Policy.startsWithDigit piece = true

/-- **One piece.**  The reconstructor puts a piece behind the command, without the
blanks at the end of the piece, and needs no guess for it. -/
theorem step_piece {text piece : List Char} (hway : IsUnderWay text) (hpiece : IsPiece piece)
    (hfits : Fits text piece) :
    ∃ join, dialect.reconstructor.verdict text piece = ⟨join, true⟩ ∧ join ≠ .apart ∧
      ∀ number indent, Pending.extend ⟨number, indent, text⟩ join piece =
        ⟨number, indent, text ++ trimEnd piece⟩ := by
  rcases hfits with hend | ⟨init, rfl, hend, hdigit⟩
  · rcases hpiece.start with hdigit | ⟨rest, rfl, hdigit⟩
    · -- cut inside a number, or behind a space that is gone
      refine ⟨.glued, verdict_of_digits hway hend.endsWithDigit hdigit, by decide, ?_⟩
      intro number indent
      rw [Pending.extend, hend.trimEnd_eq, trim_eq_trimEnd hdigit]
    · -- cut in front of a space
      have hspace : Policy.startsWithDigit (' ' :: rest) = false := by
        show isDigit ' ' = false
        decide
      have htrim : trimStart (' ' :: rest) = rest := by
        rw [trimStart_cons_of_isBlank isBlank_space, trimStart_eq_self]
        cases rest with
        | nil => simp
        | cons c rest =>
          rintro d ⟨⟩
          exact isBlank_eq_false_of_isDigit hdigit
      refine ⟨.spaced, ?_, by decide, ?_⟩
      · refine verdict_of_number hway ?_ hend.getLast?_ne_marker (by rw [htrim]; exact hdigit)
        rw [hspace, Bool.and_false]
      · intro number indent
        rw [Pending.extend, hend.trimEnd_eq, trim, htrim, trimEnd_space_cons hdigit]
  · -- cut behind a space that is still there
    have htext : trimEnd (init ++ [' ']) = init := by
      rw [trimEnd_concat_of_isBlank isBlank_space, hend.trimEnd_eq]
    have hnot : Policy.endsWithDigit (init ++ [' ']) = false := by
      simp [Policy.endsWithDigit, Policy.startsWithDigit]
      decide
    refine ⟨.spaced, ?_, by decide, ?_⟩
    · refine verdict_of_number hway (by rw [hnot, Bool.false_and]) ?_
        (startsWithDigit_trimStart hdigit)
      have hmarker := hend.getLast?_ne_marker
      rwa [htext, ← hend.trimEnd_eq]
    · intro number indent
      rw [Pending.extend, htext, trim_eq_trimEnd hdigit, List.append_assoc, List.singleton_append]

/-! ## All pieces -/

theorem IsUnderWay.append {text : List Char} (h : IsUnderWay text) (piece : List Char) :
    IsUnderWay (text ++ piece) := by
  obtain ⟨c, hc, hcomment⟩ := h
  refine ⟨c, ?_, hcomment⟩
  have hne : trimStart text ≠ [] := fun hnil => by rw [hnil] at hc; exact absurd hc (by simp)
  rw [trimStart, List.dropWhile_append, ← trimStart, if_neg (by simpa using hne),
    List.head?_append_of_ne_nil _ hne]
  exact hc

/-- **All pieces.**  Every piece is put behind without the blanks at its end.  The
invariant is that the command ends with a digit, which it does from the second
piece on. -/
theorem continueFrom_pieces {text : List Char} {pieces : List (List Char)}
    (hway : IsUnderWay text) (hpieces : ∀ piece ∈ pieces, IsPiece piece)
    (hfits : ∀ piece ∈ pieces.head?, Fits text piece) (p number indent : Nat) :
    dialect.reconstructor.continueFrom ⟨p, indent, text⟩ number pieces =
      ⟨[Pending.close ⟨p, indent, text ++ (pieces.map trimEnd).flatten⟩], []⟩ := by
  induction pieces generalizing text number with
  | nil => rw [Reconstructor.continueFrom, List.map_nil, List.flatten_nil, List.append_nil]
  | cons piece rest ih =>
    have hpiece := hpieces piece (List.mem_cons_self ..)
    obtain ⟨join, hverdict, happart, hextend⟩ := step_piece hway hpiece (hfits piece rfl)
    have hrest := ih (hway.append (trimEnd piece))
      (fun q hq => hpieces q (List.mem_cons_of_mem _ hq))
      (fun q _ => Or.inl hpiece.endsWithDigit.append) (number + 1)
    rw [Reconstructor.continueFrom]
    simp only [hverdict, if_neg happart, hextend, hrest, if_pos, List.map_cons, List.flatten_cons,
      List.append_assoc]

/-! ## Cuts -/

/-- No two spaces stand next to each other. -/
def SingleSpaced (cs : List Char) : Prop :=
  cs.IsChain fun c d => c ≠ ' ' ∨ d ≠ ' '

/-- The digits of a number. -/
def IsNumber (n : List Char) : Prop :=
  n ≠ [] ∧ ∀ c ∈ n, isDigit c = true

instance (n : List Char) : Decidable (IsNumber n) :=
  decidable_of_iff (n ≠ [] ∧ n.all isDigit = true) (by rw [IsNumber, List.all_eq_true])

theorem ne_space_of_isDigit {c : Char} (h : isDigit c = true) : c ≠ ' ' :=
  fun he => absurd (he ▸ h) (by decide)

/-- A list of numbers ends with a digit. -/
theorem endsWithDigit_spaced {numbers : List (List Char)} (h : ∀ n ∈ numbers, IsNumber n)
    (hne : numbers ≠ []) : EndsWithDigit (spaced numbers) := by
  induction numbers with
  | nil => exact absurd rfl hne
  | cons n ns ih =>
    cases ns with
    | nil =>
      obtain ⟨hn, hdigits⟩ := h n (List.mem_cons_self ..)
      exact ⟨_, _, (List.dropLast_append_getLast hn).symm, hdigits _ (List.getLast_mem hn)⟩
    | cons m ms =>
      rw [spaced, ← List.singleton_append, ← List.append_assoc]
      exact (ih (fun k hk => h k (List.mem_cons_of_mem _ hk)) (List.cons_ne_nil _ _)).append

/-- A list of numbers consists of digits and single spaces, and starts with a
digit. -/
theorem spaced_numbers {numbers : List (List Char)} (h : ∀ n ∈ numbers, IsNumber n) :
    (∀ c ∈ spaced numbers, IsListChar c) ∧ SingleSpaced (spaced numbers) ∧
      ∀ c ∈ (spaced numbers).head?, isDigit c = true := by
  have hnumber : ∀ n, IsNumber n → SingleSpaced n ∧ ∀ c ∈ n.head?, isDigit c = true := by
    intro n hn
    refine ⟨?_, fun c hc => hn.2 c (List.mem_of_mem_head? hc)⟩
    have hpairs : n.Pairwise fun c d => c ≠ ' ' ∨ d ≠ ' ' :=
      List.pairwise_of_forall_mem_list fun c hc d _ => Or.inl (ne_space_of_isDigit (hn.2 c hc))
    exact hpairs.isChain
  induction numbers with
  | nil => exact ⟨by simp [spaced], List.isChain_nil, by simp [spaced]⟩
  | cons n ns ih =>
    have hn := h n (List.mem_cons_self ..)
    obtain ⟨hsingle, hfirst⟩ := hnumber n hn
    have hchars : ∀ c ∈ n, IsListChar c := fun c hc => Or.inl (hn.2 c hc)
    cases ns with
    | nil => exact ⟨hchars, hsingle, hfirst⟩
    | cons m ms =>
      obtain ⟨ihchars, ihsingle, ihfirst⟩ := ih fun k hk => h k (List.mem_cons_of_mem _ hk)
      rw [spaced]
      refine ⟨?_, ?_, ?_⟩
      · intro c hc
        rcases List.mem_append.mp hc with hc | hc
        · exact hchars c hc
        · rcases List.mem_cons.mp hc with rfl | hc
          · exact Or.inr rfl
          · exact ihchars c hc
      · refine List.isChain_append.mpr ⟨hsingle, ?_, ?_⟩
        · refine List.isChain_cons.mpr ⟨fun d hd => Or.inr ?_, ihsingle⟩
          exact ne_space_of_isDigit (ihfirst d hd)
        · intro c hc d _
          exact Or.inl (ne_space_of_isDigit (hn.2 c (List.mem_of_mem_getLast? hc)))
      · rw [List.head?_append_of_ne_nil _ hn.1]
        exact hfirst

/-- What is cut out of a list of numbers and holds a digit is a piece. -/
theorem isPiece_of_infix {cs piece : List Char} (hchars : ∀ c ∈ cs, IsListChar c)
    (hsingle : SingleSpaced cs) (hpart : piece <:+: cs) (hdigit : ∃ c ∈ piece, isDigit c = true) :
    IsPiece piece := by
  have hpiece : ∀ c ∈ piece, IsListChar c := fun c hc => hchars c (hpart.subset hc)
  refine ⟨hpiece, ?_⟩
  have hchain : SingleSpaced piece := hsingle.infix hpart
  obtain ⟨d, hd, hdigit⟩ := hdigit
  cases piece with
  | nil => simp at hd
  | cons c rest =>
    rcases hpiece c (List.mem_cons_self ..) with hc | rfl
    · exact Or.inl hc
    · refine Or.inr ⟨rest, rfl, ?_⟩
      cases rest with
      | nil =>
        rw [List.mem_singleton.mp hd] at hdigit
        exact absurd hdigit (by decide)
      | cons e rest =>
        have hne : ' ' ≠ ' ' ∨ e ≠ ' ' := (List.isChain_cons_cons.mp hchain).1
        have he : e ≠ ' ' := hne.resolve_left fun h => h rfl
        exact (hpiece e (by simp)).resolve_right he

/-- The first cut of a list of numbers leaves pieces that fit together. -/
theorem fits_of_cut {cs x piece : List Char} {rest : List (List Char)}
    (hchars : ∀ c ∈ cs, IsListChar c) (hsingle : SingleSpaced cs)
    (hfirst : ∀ c ∈ cs.head?, isDigit c = true) (hcut : x ++ (piece :: rest).flatten = cs)
    (hx : x ≠ []) (hpiece : IsPiece piece) : Fits x piece := by
  have hx_chars : ∀ c ∈ x, IsListChar c := fun c hc => hchars c (hcut ▸ List.mem_append_left _ hc)
  obtain ⟨init, e, rfl⟩ : ∃ init e, x = init ++ [e] :=
    ⟨_, _, (List.dropLast_append_getLast hx).symm⟩
  rcases hx_chars e (by simp) with he | rfl
  · exact Or.inl ⟨init, e, rfl, he⟩
  · have hchain := hcut ▸ hsingle
    obtain ⟨hinit, -, hjoint⟩ := List.isChain_append.mp hchain
    refine Or.inr ⟨init, rfl, ?_, ?_⟩
    · -- the text starts with a digit, so something stands in front of its last space
      rcases List.eq_nil_or_concat' init with rfl | ⟨init, d, rfl⟩
      · have hspace := hfirst ' ' (by rw [← hcut]; rfl)
        exact absurd hspace (by decide)
      · refine ⟨init, d, rfl, ?_⟩
        have hd : d ≠ ' ' ∨ ' ' ≠ ' ' :=
          (List.isChain_append.mp hinit).2.2 d (by simp) ' ' (by simp)
        exact (hx_chars d (by simp)).resolve_right (hd.resolve_right fun h => h rfl)
    · rcases hpiece.start with hdigit | ⟨tail, rfl, -⟩
      · exact hdigit
      · have htwo : ' ' ≠ ' ' ∨ ' ' ≠ ' ' := hjoint ' ' (by simp) ' ' (by simp)
        exact absurd rfl (htwo.elim id id)

/-- A piece loses nothing when it does not end with a space. -/
theorem IsPiece.trimEnd_eq_iff {piece : List Char} (h : IsPiece piece) :
    trimEnd piece = piece ↔ piece.getLast? ≠ some ' ' := by
  rw [trimEnd_eq_self]
  constructor
  · intro hlast hspace
    exact absurd (hlast ' ' hspace) (by decide)
  · intro hspace c hc
    rcases h.listChars c (List.mem_of_mem_getLast? hc) with hdigit | rfl
    · exact isBlank_eq_false_of_isDigit hdigit
    · exact absurd hc hspace

theorem length_flatten_map_trimEnd_le (pieces : List (List Char)) :
    (pieces.map trimEnd).flatten.length ≤ pieces.flatten.length := by
  induction pieces with
  | nil => exact Nat.le_refl _
  | cons piece rest ih =>
    have hle := (trimEnd_prefix_self piece).length_le
    rw [List.map_cons, List.flatten_cons, List.flatten_cons, List.length_append,
      List.length_append]
    omega

/-- Nothing is lost exactly when no piece loses anything. -/
theorem flatten_map_trimEnd_eq_iff {pieces : List (List Char)} :
    (pieces.map trimEnd).flatten = pieces.flatten ↔ ∀ piece ∈ pieces, trimEnd piece = piece := by
  induction pieces with
  | nil => simp
  | cons piece rest ih =>
    rw [List.map_cons, List.flatten_cons, List.flatten_cons, List.forall_mem_cons, ← ih]
    constructor
    · intro h
      have hlength := congrArg List.length h
      rw [List.length_append, List.length_append] at hlength
      have hpiece := (trimEnd_prefix_self piece).length_le
      have hrest := length_flatten_map_trimEnd_le rest
      exact List.append_inj h (by omega)
    · rintro ⟨hpiece, hrest⟩
      rw [hpiece, hrest]

/-- A way to cut a command that ends with a list of numbers: no character is
dropped, the first cut is behind the first digit of the list, and there is a digit
in every piece. -/
structure IsCut (head : String) (numbers : List String) (first : String) (rest : List String) :
    Prop where
  whole : joined "" (first :: rest) = head ++ phrase numbers
  behind_digit : head.toList.length < first.toList.length
  digit : ∀ piece ∈ rest, ∃ c ∈ piece.toList, isDigit c = true

instance (head : String) (numbers : List String) (first : String) (rest : List String) :
    Decidable (IsCut head numbers first rest) :=
  decidable_of_iff
    (joined "" (first :: rest) = head ++ phrase numbers ∧
      head.toList.length < first.toList.length ∧ ∀ piece ∈ rest, piece.toList.any isDigit = true)
    ⟨fun h => ⟨h.1, h.2.1, fun piece hpiece => List.any_eq_true.mp (h.2.2 piece hpiece)⟩,
      fun h => ⟨h.whole, h.behind_digit, fun piece hpiece =>
        List.any_eq_true.mpr (h.digit piece hpiece)⟩⟩

/-- The start of a command, in front of its list of numbers: it starts with a known
word and stands on one line. -/
structure IsHead (head : String) : Prop where
  word : ∃ w ∈ commandStarts, startsWith w head = true
  breakFree : BreakFree head.toList

theorem toList_ne_nil_of_mem_commandStarts : ∀ w ∈ commandStarts, w.toList ≠ [] := by
  decide

/-- The first character of a command says that it is under way. -/
theorem IsHead.head? {head : String} (h : IsHead head) :
    ∃ c cs, head.toList = c :: cs ∧ opensCommand c = true ∧ c ≠ '#' := by
  obtain ⟨w, hw, hlead⟩ := h.word
  obtain ⟨rest, hrest⟩ := startsWith_eq_true_iff.mp hlead
  obtain ⟨c, cs, hc⟩ := List.exists_cons_of_ne_nil (toList_ne_nil_of_mem_commandStarts w hw)
  have hopens := head?_of_mem_commandStarts w hw c (by rw [hc]; rfl)
  refine ⟨c, cs ++ rest, ?_, hopens⟩
  rw [hrest, hc, List.cons_append]

/-- What a cut says about the pieces. -/
theorem IsCut.pieces {head first : String} {numbers rest : List String}
    (hcut : IsCut head numbers first rest) (hnumbers : ∀ n ∈ numbers, IsNumber n.toList) :
    ∃ x, first.toList = head.toList ++ x ∧
      x ++ (rest.map String.toList).flatten = spaced (numbers.map String.toList) ∧ x ≠ [] ∧
      (∀ piece ∈ rest.map String.toList, IsPiece piece) ∧
      ∀ piece ∈ (rest.map String.toList).head?, Fits (head.toList ++ x) piece := by
  have hnumbers' : ∀ n ∈ numbers.map String.toList, IsNumber n := by
    intro n hn
    obtain ⟨s, hs, rfl⟩ := List.mem_map.mp hn
    exact hnumbers s hs
  obtain ⟨hchars, hsingle, hfirst⟩ := spaced_numbers hnumbers'
  have hwhole : first.toList ++ (rest.map String.toList).flatten =
      head.toList ++ spaced (numbers.map String.toList) := by
    have h := congrArg String.toList hcut.whole
    rwa [toList_joined_empty, List.map_cons, List.flatten_cons, String.toList_append,
      toList_phrase] at h
  obtain ⟨x, hx, hlist⟩ : ∃ x, first.toList = head.toList ++ x ∧
      spaced (numbers.map String.toList) = x ++ (rest.map String.toList).flatten := by
    rcases List.append_eq_append_iff.mp hwhole with ⟨x, hhead, -⟩ | ⟨x, hx, hlist⟩
    · have hlength := congrArg List.length hhead
      have hbehind := hcut.behind_digit
      rw [List.length_append] at hlength
      omega
    · exact ⟨x, hx, hlist⟩
  have hne : x ≠ [] := by
    rintro rfl
    have hbehind := hcut.behind_digit
    rw [hx, List.append_nil] at hbehind
    omega
  have hpieces : ∀ piece ∈ rest.map String.toList, IsPiece piece := by
    intro piece hpiece
    refine isPiece_of_infix hchars hsingle ?_ ?_
    · rw [hlist]
      exact (List.infix_of_mem_flatten hpiece).trans (List.suffix_append _ _).isInfix
    · obtain ⟨s, hs, rfl⟩ := List.mem_map.mp hpiece
      exact hcut.digit s hs
  refine ⟨x, hx, hlist.symm, hne, hpieces, ?_⟩
  cases hrest : rest.map String.toList with
  | nil => simp
  | cons piece others =>
    rintro q ⟨⟩
    rw [hrest] at hlist hpieces
    have hfits := fits_of_cut hchars hsingle hfirst hlist.symm hne
      (hpieces piece (List.mem_cons_self ..))
    rcases hfits with hend | ⟨init, rfl, hend, hdigit⟩
    · exact Or.inl hend.append
    · exact Or.inr ⟨head.toList ++ init, (List.append_assoc ..).symm, hend.append, hdigit⟩

/-! ## The command -/

theorem isBlank_eq_false_of_opensCommand {c : Char} (h : opensCommand c = true) :
    isBlank c = false := by
  simp only [opensCommand, Bool.and_eq_true, Bool.not_eq_true'] at h
  exact h.2

/-- A text that starts like a command is under way, and has no blanks in front. -/
theorem IsHead.isUnderWay {head : String} (h : IsHead head) (x : List Char) :
    IsUnderWay (head.toList ++ x) ∧ indentOf (head.toList ++ x) = 0 ∧
      trimStart (head.toList ++ x) = head.toList ++ x := by
  obtain ⟨c, cs, hc, hopens, hcomment⟩ := h.head?
  have hblank := isBlank_eq_false_of_opensCommand hopens
  have htrim : trimStart (head.toList ++ x) = head.toList ++ x := by
    rw [hc, List.cons_append, trimStart_cons_of_not_isBlank hblank]
  refine ⟨⟨c, ?_, hcomment⟩, ?_, htrim⟩
  · rw [htrim, hc]
    rfl
  · rw [← List.nil_append (head.toList ++ x), indentOf_append (by simp), byteSize]
    rw [hc]
    rintro _ ⟨⟩
    exact hblank

/-- A list of numbers holds no line break, and neither does a part of it. -/
theorem breakFree_of_listChars {cs : List Char} (h : ∀ c ∈ cs, IsListChar c) : BreakFree cs := by
  refine ⟨fun hc => ?_, fun hc => ?_⟩
  · rcases h _ hc with hdigit | hspace
    · exact absurd hdigit (by decide)
    · exact absurd hspace (by decide)
  · rcases h _ hc with hdigit | hspace
    · exact absurd hdigit (by decide)
    · exact absurd hspace (by decide)

/-- What is put together from the pieces ends with a digit, so closing the command
takes nothing away. -/
theorem endsWithDigit_of_pieces {x : List Char} {pieces : List (List Char)}
    (hx : pieces = [] → EndsWithDigit x) (hpieces : ∀ piece ∈ pieces, IsPiece piece) :
    EndsWithDigit (x ++ (pieces.map trimEnd).flatten) := by
  rcases List.eq_nil_or_concat' pieces with rfl | ⟨init, last, rfl⟩
  · rw [List.map_nil, List.flatten_nil, List.append_nil]
    exact hx rfl
  · have hlast := (hpieces last (by simp)).endsWithDigit
    rw [List.map_append, List.flatten_append, List.map_singleton, List.flatten_singleton]
    exact hlast.append.append

/-- **The command that is put together from the pieces of a cut.** -/
theorem reconstruct_pieces {head first : String} {numbers rest : List String} (hhead : IsHead head)
    (hnumbers : ∀ n ∈ numbers, IsNumber n.toList) (hcut : IsCut head numbers first rest) :
    dialect.reconstructor.reconstruct (joined "\n" (first :: rest)) =
      ⟨[⟨1, 0, String.ofList
        (first.toList ++ ((rest.map String.toList).map trimEnd).flatten)⟩], []⟩ := by
  obtain ⟨x, hfirst, hlist, hx, hpieces, hfits⟩ := hcut.pieces hnumbers
  obtain ⟨hway, hindent, hstart⟩ := hhead.isUnderWay x
  have hnumbers' : ∀ n ∈ numbers.map String.toList, IsNumber n := by
    intro n hn
    obtain ⟨s, hs, rfl⟩ := List.mem_map.mp hn
    exact hnumbers s hs
  have hchars := (spaced_numbers hnumbers').1
  have hlines : physicalLines (joined "\n" (first :: rest)).toList =
      (first :: rest).map String.toList := by
    refine physicalLines_joined ?_
    intro s hs
    rcases List.mem_cons.mp hs with rfl | hs
    · rw [hfirst, breakFree_append]
      refine ⟨fun hnil => hx (List.append_eq_nil_iff.mp hnil).2, hhead.breakFree, ?_⟩
      exact breakFree_of_listChars fun c hc => hchars c (hlist ▸ List.mem_append_left _ hc)
    · have hmem := List.mem_map_of_mem (f := String.toList) hs
      refine ⟨?_, breakFree_of_listChars (hpieces _ hmem).listChars⟩
      obtain ⟨c, hc, -⟩ := hcut.digit s hs
      exact List.ne_nil_of_mem hc
  have hend : EndsWithDigit (first.toList ++ ((rest.map String.toList).map trimEnd).flatten) := by
    refine endsWithDigit_of_pieces ?_ hpieces
    intro hnil
    rw [hnil, List.flatten_nil, List.append_nil] at hlist
    rw [hfirst, hlist]
    refine (endsWithDigit_spaced hnumbers' ?_).append
    rintro hno
    rw [hno] at hlist
    exact hx hlist
  have hclosed : trim (first.toList ++ ((rest.map String.toList).map trimEnd).flatten) =
      first.toList ++ ((rest.map String.toList).map trimEnd).flatten := by
    rw [hfirst, List.append_assoc] at hend ⊢
    rw [trim, (hhead.isUnderWay _).2.2, hend.trimEnd_eq]
  rw [Reconstructor.reconstruct, hlines, List.map_cons, Reconstructor.ofPhysical, Pending.start,
    hfirst, hindent, hstart, continueFrom_pieces hway hpieces hfits, Pending.close, ← hfirst,
    hclosed]

/-- The command that was cut is put together exactly when no piece but the first
ends with a space. -/
theorem IsHead.reconstruct_eq_iff {head first : String} {numbers rest : List String}
    (hhead : IsHead head) (hnumbers : ∀ n ∈ numbers, IsNumber n.toList)
    (hcut : IsCut head numbers first rest) :
    dialect.reconstructor.reconstruct (joined "\n" (first :: rest)) =
        ⟨[⟨1, 0, head ++ phrase numbers⟩], []⟩ ↔
      ∀ piece ∈ rest, piece.toList.getLast? ≠ some ' ' := by
  obtain ⟨-, -, -, -, hpieces, -⟩ := hcut.pieces hnumbers
  have hwhole : head ++ phrase numbers =
      String.ofList (first.toList ++ (rest.map String.toList).flatten) := by
    rw [← hcut.whole, ← String.toList_inj, toList_joined_empty, String.toList_ofList,
      List.map_cons, List.flatten_cons]
  rw [reconstruct_pieces hhead hnumbers hcut, hwhole]
  constructor
  · intro h
    simp only [Reconstruction.mk.injEq, List.cons.injEq, Line.mk.injEq, true_and, and_true,
      String.ofList_inj, List.append_cancel_left_eq] at h
    intro piece hpiece
    have hmem := List.mem_map_of_mem (f := String.toList) hpiece
    exact (hpieces _ hmem).trimEnd_eq_iff.mp (flatten_map_trimEnd_eq_iff.mp h _ hmem)
  · intro h
    have hsame : ((rest.map String.toList).map trimEnd).flatten =
        (rest.map String.toList).flatten := by
      refine flatten_map_trimEnd_eq_iff.mpr fun piece hpiece => ?_
      obtain ⟨s, hs, rfl⟩ := List.mem_map.mp hpiece
      exact (hpieces _ hpiece).trimEnd_eq_iff.mpr (h s hs)
    rw [hsame]

/-- What is put together stands on one line. -/
theorem breakFree_of_reconstruct_eq {raw head tail : String} {number indent : Nat}
    (h : dialect.reconstructor.reconstruct raw = ⟨[⟨number, indent, head ++ tail⟩], []⟩) :
    BreakFree head.toList := by
  have hlines := isLine_of_mem_reconstruct dialect.reconstructor raw
  rw [h, List.forall_mem_singleton, String.toList_append] at hlines
  exact (breakFree_append.mp hlines.2).1

/-- **A cut list of numbers.**  The pieces of a command that stood on one line always
make one command and never need a guess.  The command is the one that was cut exactly
when it stood on one line and no piece but the first ends with the space between two
numbers. -/
theorem reconstruct_pieces_eq_iff {head first : String} {numbers rest : List String}
    (hword : ∃ w ∈ commandStarts, startsWith w head = true)
    (hnumbers : ∀ n ∈ numbers, IsNumber n.toList) (hcut : IsCut head numbers first rest) :
    (BreakFree head.toList →
        ∃ text, dialect.reconstructor.reconstruct (joined "\n" (first :: rest)) =
          ⟨[⟨1, 0, text⟩], []⟩) ∧
      (dialect.reconstructor.reconstruct (joined "\n" (first :: rest)) =
          ⟨[⟨1, 0, head ++ phrase numbers⟩], []⟩ ↔
        BreakFree head.toList ∧ ∀ piece ∈ rest, piece.toList.getLast? ≠ some ' ') := by
  refine ⟨fun hbreak => ⟨_, reconstruct_pieces ⟨hword, hbreak⟩ hnumbers hcut⟩, ?_⟩
  constructor
  · intro h
    have hhead : IsHead head := ⟨hword, breakFree_of_reconstruct_eq h⟩
    exact ⟨hhead.breakFree, (hhead.reconstruct_eq_iff hnumbers hcut).mp h⟩
  · rintro ⟨hbreak, hspace⟩
    have hhead : IsHead head := ⟨hword, hbreak⟩
    exact (hhead.reconstruct_eq_iff hnumbers hcut).mpr hspace

/-- A list that was cut inside a number, in front of a space and behind one. -/
theorem reconstruct_pieces_of_filter_list :
    (∃ w ∈ commandStarts, startsWith w "ip lan1 secure filter in " = true) ∧
      (∀ n ∈ ["1000", "2000", "3000"], IsNumber n.toList) ∧
      IsCut "ip lan1 secure filter in " ["1000", "2000", "3000"]
        "ip lan1 secure filter in 1000 " ["20", "00", " 3000"] ∧
      dialect.reconstructor.reconstruct
          (joined "\n" ["ip lan1 secure filter in 1000 ", "20", "00", " 3000"]) =
        ⟨[⟨1, 0, "ip lan1 secure filter in " ++ phrase ["1000", "2000", "3000"]⟩], []⟩ := by
  have hword : ∃ w ∈ commandStarts, startsWith w "ip lan1 secure filter in " = true :=
    ⟨"ip", by decide, by decide⟩
  have hnumbers : ∀ n ∈ ["1000", "2000", "3000"], IsNumber n.toList := by decide
  have hcut : IsCut "ip lan1 secure filter in " ["1000", "2000", "3000"]
      "ip lan1 secure filter in 1000 " ["20", "00", " 3000"] := by decide
  refine ⟨hword, hnumbers, hcut, ?_⟩
  exact (reconstruct_pieces_eq_iff hword hnumbers hcut).2.mpr ⟨by decide, by decide⟩

/-- A piece in the middle that ends with the space between two numbers.  The space
is lost, and two numbers are one. -/
theorem reconstruct_pieces_space_lost :
    IsHead "ip lan1 secure filter in " ∧ (∀ n ∈ ["100", "200", "300"], IsNumber n.toList) ∧
      IsCut "ip lan1 secure filter in " ["100", "200", "300"]
        "ip lan1 secure filter in 1" ["00 200 ", "300"] ∧
      dialect.reconstructor.reconstruct
          (joined "\n" ["ip lan1 secure filter in 1", "00 200 ", "300"]) ≠
        ⟨[⟨1, 0, "ip lan1 secure filter in " ++ phrase ["100", "200", "300"]⟩], []⟩ := by
  refine ⟨⟨⟨"ip", ?_, ?_⟩, ?_⟩, ?_, ?_, ?_⟩ <;> decide

end RouterConfig.Rtx
