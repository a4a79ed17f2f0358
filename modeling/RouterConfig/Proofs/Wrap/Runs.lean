import Mathlib.Data.List.Chain
import RouterConfig.Proofs.Text.Words
import RouterConfig.Wrap.Reconstruct

/-!
# Logical lines as runs of physical ones

Reconstruction cuts the physical lines of a text into runs and makes one logical
line of each.  What is in the line can be told from its run: every character of it
that is not blank, in order, except that a join past a continuation marker takes
the marker away.  Nothing else is lost, and nothing comes in.

`IsJoin` says what one join does, to the text built so far and to the characters
kept, and `IsRun` what a whole run does, join after join.  `IsJoin.solid_eq` is the
step and `IsRun.solid_eq` the run: the characters kept are those of the text.  The
main statement is that every reconstruction is made of runs, with every choice of
policies and of words that start a command (`reconstruct_eq_runs`).
-/

namespace RouterConfig.Text

/-! ## Characters that are not blank -/

/-- The characters of the text that are not blank. -/
def solid (cs : List Char) : List Char :=
  cs.filter fun c => !isBlank c

@[simp] theorem solid_append (cs ds : List Char) : solid (cs ++ ds) = solid cs ++ solid ds :=
  List.filter_append ..

@[simp] theorem solid_space_cons (cs : List Char) : solid (' ' :: cs) = solid cs :=
  List.filter_cons_of_neg (by decide)

@[simp] theorem solid_trimStart (cs : List Char) : solid (trimStart cs) = solid cs := by
  induction cs with
  | nil => rfl
  | cons c cs ih =>
    cases hc : isBlank c with
    | true =>
      rw [trimStart_cons_of_isBlank hc, ih, solid, solid, List.filter_cons_of_neg (by simp [hc])]
    | false => rw [trimStart_cons_of_not_isBlank hc]

@[simp] theorem solid_trimEnd (cs : List Char) : solid (trimEnd cs) = solid cs := by
  have hreverse : (trimEnd cs).reverse = trimStart cs.reverse := List.reverse_reverse _
  have hsolid : ∀ ds : List Char, solid ds.reverse = (solid ds).reverse := fun ds =>
    List.filter_reverse ..
  rw [← List.reverse_inj, ← hsolid, ← hsolid, hreverse, solid_trimStart]

@[simp] theorem solid_trim (cs : List Char) : solid (trim cs) = solid cs := by
  rw [trim, solid_trimEnd, solid_trimStart]

end RouterConfig.Text

namespace RouterConfig.Wrap

open Text

/-! ## Joins and runs -/

section Runs

variable (r : Reconstructor)

/-- The policy decides the wrap point: it has an opinion, and none that is asked before
it has. -/
def Decides (policy : Policy) (current next : List Char) (join : Join) : Prop :=
  ∃ before after, r.policies = before ++ policy :: after ∧
    (∀ p ∈ before, p.decide current next = none) ∧ policy.decide current next = some join

/-- Neither a blank line nor a comment stands in the way of a join. -/
structure MayJoin (current next : List Char) : Prop where
  underWay : isBlankText current = false
  noComment : Reconstructor.startsComment current = false
  goesOn : isBlankText next = false

/-- **What one join does.**  The physical line `next` of the number is put behind a text,
of which the characters `kept` count.  After it there is another text, other
characters count, and a guess has been reported or not. -/
inductive IsJoin (number : Nat) (next : List Char) :
    (text kept : List Char) → (text' kept' : List Char) → (guess : List Ambiguity) → Prop
  /-- A policy has the two put together. -/
  | glued {policy : Policy} {text kept : List Char} (h : Decides r policy text next .glued) :
    IsJoin number next text kept (trimEnd text ++ trim next) (kept ++ solid next) []
  /-- A policy has the two put together with a space. -/
  | spaced {policy : Policy} {text kept : List Char} (h : Decides r policy text next .spaced) :
    IsJoin number next text kept (trimEnd text ++ ' ' :: trim next) (kept ++ solid next) []
  /-- The text ends with the continuation marker, which is taken away. -/
  | pastMarker {marker : String} {join : Join} {text kept front : List Char}
    (h : Decides r (.continuationMarker marker) text next join)
    (hmarker : marker ≠ "") (htext : trimEnd text = front ++ marker.toList) :
    IsJoin number next text (kept ++ solid marker.toList)
      (trimEnd front ++ ' ' :: trim next) (kept ++ solid next) []
  /-- No policy decides.  The line starts no command, so it is put behind with a space,
  and this is reported. -/
  | guessed {text kept : List Char} (h : ∀ policy ∈ r.policies, policy.decide text next = none)
    (hstart : r.isCommandStart next = false) (hjoin : r.joinUnrecognized = true) :
    IsJoin number next text kept (trimEnd text ++ ' ' :: trim next) (kept ++ solid next)
      [⟨number, String.ofList (trim text), String.ofList (trim next)⟩]

/-- **What a run does**: it starts with the physical line `first` of the number and puts the
lines `more` behind it, one after the other. -/
inductive IsRun (number : Nat) (first : List Char) :
    (more : List (List Char)) → (text kept : List Char) → (guesses : List Ambiguity) → Prop
  | start : IsRun number first [] (trimStart first) (solid first) []
  | join {more : List (List Char)} {next text kept text' kept' : List Char}
    {guesses guess : List Ambiguity} (h : IsRun number first more text kept guesses)
    (hmay : MayJoin text next)
    (hjoin : IsJoin r (number + 1 + more.length) next text kept text' kept' guess) :
    IsRun number first (more ++ [next]) text' kept' (guesses ++ guess)

/-- A run of physical lines. -/
structure Run where
  /-- The number of its first line. -/
  number : Nat
  first : List Char
  more : List (List Char)
  /-- The text that is built of it. -/
  text : List Char
  /-- The characters of it that are neither blank nor in a marker taken away. -/
  kept : List Char
  guesses : List Ambiguity
  isRun : IsRun r number first more text kept guesses

namespace Run

variable {r}

/-- The physical lines of the run. -/
def lines (run : Run r) : List (List Char) :=
  run.first :: run.more

/-- The logical line that is made of it. -/
def line (run : Run r) : Line :=
  ⟨run.number, indentOf run.first, String.ofList (trim run.text)⟩

end Run

/-- Why a run ends where the next one starts: a blank line or a comment is in the way, or no
policy decides and a command starts, or undecided lines are left apart. -/
def EndsBefore (a b : Run r) : Prop :=
  MayJoin a.text b.first →
    (∀ policy ∈ r.policies, policy.decide a.text b.first = none) ∧
      (r.isCommandStart b.first = true ∨ r.joinUnrecognized = false)

variable {r}

/-- Each run has the number of its first line. -/
def NumberedFrom : (number : Nat) → List (Run r) → Prop
  | _, [] => True
  | number, run :: runs => run.number = number ∧ NumberedFrom (number + run.lines.length) runs

/-- The physical lines, numbered from the number, are cut into the runs, and the
reconstruction has a logical line for each of them. -/
structure IsMadeOf (out : Reconstruction) (number : Nat) (lines : List (List Char))
    (runs : List (Run r)) : Prop where
  physical : runs.flatMap Run.lines = lines
  numbered : NumberedFrom number runs
  apart : runs.IsChain (EndsBefore r)
  logical : out.lines = runs.map Run.line
  guesses : out.ambiguities = runs.flatMap Run.guesses

end Runs

variable {r : Reconstructor}

/-! ## What is kept -/

/-- **A join keeps what it says it keeps.** -/
theorem IsJoin.solid_eq {number : Nat} {next text kept text' kept' : List Char}
    {guess : List Ambiguity} (h : IsJoin r number next text kept text' kept' guess)
    (hkept : solid text = kept) : solid text' = kept' := by
  cases h with
  | glued h => rw [solid_append, solid_trimEnd, solid_trim, hkept]
  | spaced h => rw [solid_append, solid_trimEnd, solid_space_cons, solid_trim, hkept]
  | pastMarker h hmarker htext =>
    rw [← solid_trimEnd, htext, solid_append] at hkept
    rw [solid_append, solid_trimEnd, solid_space_cons, solid_trim, List.append_cancel_right hkept]
  | guessed h => rw [solid_append, solid_trimEnd, solid_space_cons, solid_trim, hkept]

/-- **A run keeps what it says it keeps**: its text has the characters that count, and no
others, apart from blanks. -/
theorem IsRun.solid_eq {number : Nat} {first text kept : List Char} {more : List (List Char)}
    {guesses : List Ambiguity} (h : IsRun r number first more text kept guesses) :
    solid text = kept := by
  induction h with
  | start => exact solid_trimStart first
  | join h hmay hjoin ih => exact hjoin.solid_eq ih

theorem IsRun.text_eq_of_nil {number : Nat} {first text kept : List Char}
    {more : List (List Char)} {guesses : List Ambiguity}
    (h : IsRun r number first more text kept guesses) (hmore : more = []) :
    text = trimStart first := by
  cases h with
  | start => rfl
  | join h hmay hjoin => simp at hmore

/-- Nothing is put behind a blank line. -/
theorem IsRun.first_not_blank {number : Nat} {first text kept : List Char}
    {more : List (List Char)} {guesses : List Ambiguity}
    (h : IsRun r number first more text kept guesses) (hmore : more ≠ []) :
    isBlankText first = false := by
  induction h with
  | start => exact absurd rfl hmore
  | @join more next text kept _ _ _ _ h hmay hjoin ih =>
    by_cases hnil : more = []
    · have htext := hmay.underWay
      rw [h.text_eq_of_nil hnil, isBlankText, List.all_eq_false] at htext
      obtain ⟨c, hc, hblank⟩ := htext
      rw [isBlankText, List.all_eq_false]
      exact ⟨c, mem_of_mem_trimStart hc, hblank⟩
    · exact ih hnil

/-- No blank line is put behind another line. -/
theorem IsRun.more_not_blank {number : Nat} {first text kept : List Char}
    {more : List (List Char)} {guesses : List Ambiguity}
    (h : IsRun r number first more text kept guesses) :
    ∀ line ∈ more, isBlankText line = false := by
  induction h with
  | start => simp
  | join h hmay hjoin ih =>
    rw [List.forall_mem_append, List.forall_mem_singleton]
    exact ⟨ih, hmay.goesOn⟩

namespace Run

/-- The logical line has the characters of the run that count. -/
theorem solid_line (run : Run r) : solid run.line.text.toList = run.kept := by
  rw [line, String.toList_ofList, solid_trim, run.isRun.solid_eq]

/-- The logical line is trimmed. -/
theorem trim_line (run : Run r) : trim run.line.text.toList = run.line.text.toList := by
  rw [line, String.toList_ofList, trim_trim]

/-- **A blank line is a run of its own.** -/
theorem eq_singleton_of_blank (run : Run r) {l : List Char} (hl : l ∈ run.lines)
    (hblank : isBlankText l = true) : run.lines = [l] := by
  rcases List.mem_cons.mp hl with rfl | hmore
  · by_cases hne : run.more = []
    · rw [lines, hne]
    · rw [run.isRun.first_not_blank hne] at hblank
      exact absurd hblank (by decide)
  · rw [run.isRun.more_not_blank l hmore] at hblank
    exact absurd hblank (by decide)

end Run

/-! ## Which policy decides -/

theorem opinion?_eq_some_iff {current next : List Char} {join : Join} :
    r.opinion? current next = some join ↔ ∃ policy, Decides r policy current next join := by
  rw [Reconstructor.opinion?, List.findSome?_eq_some_iff]
  constructor
  · rintro ⟨before, policy, after, hsplit, hdecide, hbefore⟩
    exact ⟨policy, before, after, hsplit, hbefore, hdecide⟩
  · rintro ⟨policy, before, after, hsplit, hbefore, hdecide⟩
    exact ⟨before, policy, after, hsplit, hdecide, hbefore⟩

theorem opinion?_eq_none_iff {current next : List Char} :
    r.opinion? current next = none ↔ ∀ policy ∈ r.policies, policy.decide current next = none := by
  rw [Reconstructor.opinion?, List.findSome?_eq_none_iff]

theorem verdict_of_not_mayJoin {current next : List Char} (h : ¬ MayJoin current next) :
    r.verdict current next = ⟨.apart, false⟩ := by
  rw [Reconstructor.verdict, if_pos]
  by_contra hnone
  simp only [Bool.or_eq_true, not_or, Bool.not_eq_true] at hnone
  exact h ⟨hnone.1.1, hnone.1.2, hnone.2⟩

theorem mayJoin_of_join {current next : List Char} (h : (r.verdict current next).join ≠ .apart) :
    MayJoin current next := by
  by_contra hmay
  rw [verdict_of_not_mayJoin hmay] at h
  exact h rfl

theorem verdict_of_mayJoin {current next : List Char} (h : MayJoin current next) :
    r.verdict current next = match r.opinion? current next with
      | some join => ⟨join, true⟩
      | none =>
        if r.isCommandStart next || !r.joinUnrecognized then ⟨.apart, false⟩
        else ⟨.spaced, false⟩ := by
  rw [Reconstructor.verdict, h.underWay, h.noComment, h.goesOn]
  rfl

/-- **What the policies decide.**  Two lines are put together, with a space or without,
and only the continuation marker takes something away: itself. -/
theorem Options.join_of_decide {o : Options} {policy : Policy} {current next : List Char}
    {join : Join} (hmem : policy ∈ o.policies) (h : policy.decide current next = some join) :
    join = .glued ∨ join = .spaced ∨ ∃ marker front, policy = .continuationMarker marker ∧
      marker ≠ "" ∧ trimEnd current = front ++ marker.toList ∧
        join = .pastMarker (byteSize marker.toList) := by
  simp only [Options.policies, List.mem_append] at hmem
  rcases hmem with ((hdigit | hequals) | hmarker) | hnumeric
  · split at hdigit <;> simp only [List.mem_singleton, List.not_mem_nil] at hdigit
    subst hdigit
    simp only [Policy.digitSplit, Option.ite_none_right_eq_some, Option.some_inj] at h
    exact Or.inl h.2.symm
  · split at hequals <;> simp only [List.mem_singleton, List.not_mem_nil] at hequals
    subst hequals
    simp only [Policy.equalsSplit, Option.ite_none_right_eq_some, Option.some_inj] at h
    exact Or.inl h.2.symm
  · split at hmarker <;> simp only [List.mem_singleton, List.not_mem_nil] at hmarker
    next marker hsome =>
    subst hmarker
    simp only [Policy.continuationMarker, Option.ite_none_right_eq_some, Option.some_inj,
      Bool.and_eq_true, Bool.not_eq_true', List.isEmpty_eq_false_iff,
      List.isSuffixOf_iff_suffix] at h
    obtain ⟨⟨hne, front, hfront⟩, rfl⟩ := h
    refine Or.inr (Or.inr ⟨marker, front, rfl, ?_, hfront.symm, rfl⟩)
    rintro rfl
    exact hne rfl
  · split at hnumeric <;> simp only [List.mem_singleton, List.not_mem_nil] at hnumeric
    subst hnumeric
    simp only [Policy.numericContinuation, Option.ite_none_right_eq_some, Option.some_inj] at h
    exact Or.inr (Or.inl h.2.symm)

variable {o : Options}

theorem Decides.mem {policy : Policy} {current next : List Char} {join : Join}
    (h : Decides r policy current next join) : policy ∈ r.policies := by
  obtain ⟨before, after, hsplit, -, -⟩ := h
  rw [hsplit]
  exact List.mem_append_right _ (List.mem_cons_self ..)

/-- **Where the reconstructor joins, there is a join.** -/
theorem exists_isJoin (hr : r.policies = o.policies) {p : Pending} {next : List Char}
    (hapart : (r.verdict p.text next).join ≠ .apart) (number : Nat) :
    ∃ kept', IsJoin r number next p.text (solid p.text)
      (p.extend (r.verdict p.text next).join next).text kept'
      (if (r.verdict p.text next).byPolicy then []
        else [⟨number, String.ofList (trim p.text), String.ofList (trim next)⟩]) := by
  have hmay := mayJoin_of_join hapart
  rw [verdict_of_mayJoin hmay] at hapart ⊢
  cases hopinion : r.opinion? p.text next with
  | some join =>
    obtain ⟨policy, hdecides⟩ := opinion?_eq_some_iff.mp hopinion
    obtain ⟨-, -, -, -, hdecide⟩ := id hdecides
    rcases Options.join_of_decide (hr ▸ hdecides.mem) hdecide with
      rfl | rfl | ⟨marker, front, rfl, hmarker, htext, rfl⟩
    · exact ⟨_, .glued hdecides⟩
    · exact ⟨_, .spaced hdecides⟩
    · have hsolid : solid p.text = solid front ++ solid marker.toList := by
        rw [← solid_trimEnd, htext, solid_append]
      refine ⟨solid front ++ solid next, ?_⟩
      simp only [Pending.extend, htext, dropBytesEnd_append, hsolid, if_true]
      exact .pastMarker hdecides hmarker htext
  | none =>
    rw [hopinion] at hapart
    have hundecided := opinion?_eq_none_iff.mp hopinion
    by_cases hstart : (r.isCommandStart next || !r.joinUnrecognized) = true
    · exact absurd (by simp only [hstart, if_true]) hapart
    · simp only [hstart]
      rw [Bool.or_eq_true, not_or, Bool.not_eq_true, Bool.not_eq_true', Bool.not_eq_false] at hstart
      exact ⟨_, .guessed hundecided hstart.1 hstart.2⟩

/-- Where it does not, one run ends before another. -/
theorem endsBefore_of_apart (hr : r.policies = o.policies) {a b : Run r}
    (hapart : (r.verdict a.text b.first).join = .apart) : EndsBefore r a b := by
  intro hmay
  rw [verdict_of_mayJoin hmay] at hapart
  cases hopinion : r.opinion? a.text b.first with
  | some join =>
    rw [hopinion] at hapart
    obtain rfl : join = .apart := hapart
    obtain ⟨policy, hdecides⟩ := opinion?_eq_some_iff.mp hopinion
    obtain ⟨-, -, -, -, hdecide⟩ := id hdecides
    -- no policy has lines stay apart
    rcases Options.join_of_decide (hr ▸ hdecides.mem) hdecide with
      hglued | hspaced | ⟨marker, front, -, -, -, hmarker⟩
    · cases hglued
    · cases hspaced
    · cases hmarker
  | none =>
    refine ⟨opinion?_eq_none_iff.mp hopinion, ?_⟩
    rw [hopinion] at hapart
    by_contra hjoins
    simp only [not_or, Bool.not_eq_true, Bool.not_eq_false] at hjoins
    simp [hjoins.1, hjoins.2] at hapart

/-! ## Runs of a text -/

theorem Pending.extend_eq (p : Pending) (join : Join) (next : List Char) :
    p.extend join next = ⟨p.number, p.indent, (p.extend join next).text⟩ := by
  cases join <;> rfl

theorem continueFrom_of_apart {p : Pending} {next : List Char}
    (h : (r.verdict p.text next).join = .apart) (number : Nat) (rest : List (List Char)) :
    r.continueFrom p number (next :: rest) =
      ⟨p.close :: (r.continueFrom (Pending.start number next) (number + 1) rest).lines,
        (r.continueFrom (Pending.start number next) (number + 1) rest).ambiguities⟩ := by
  rw [Reconstructor.continueFrom]
  simp only [h, if_true]

theorem continueFrom_of_join {p : Pending} {next : List Char}
    (h : (r.verdict p.text next).join ≠ .apart) (number : Nat) (rest : List (List Char)) :
    r.continueFrom p number (next :: rest) =
      ⟨(r.continueFrom (p.extend (r.verdict p.text next).join next) (number + 1) rest).lines,
        (if (r.verdict p.text next).byPolicy then []
          else [⟨number, String.ofList (trim p.text), String.ofList (trim next)⟩]) ++
        (r.continueFrom (p.extend (r.verdict p.text next).join next) (number + 1)
          rest).ambiguities⟩ := by
  rw [Reconstructor.continueFrom]
  simp only [h, if_false]
  split <;> rfl

/-- A run comes in front of others. -/
theorem IsMadeOf.cons {out : Reconstruction} {lines : List (List Char)} {run next : Run r}
    {runs : List (Run r)} (hends : EndsBefore r run next)
    (h : IsMadeOf out (run.number + run.lines.length) lines (next :: runs)) :
    IsMadeOf ⟨run.line :: out.lines, run.guesses ++ out.ambiguities⟩ run.number
      (run.lines ++ lines) (run :: next :: runs) where
  physical := by rw [List.flatMap_cons, h.physical]
  numbered := ⟨rfl, h.numbered⟩
  apart := List.isChain_cons_cons.mpr ⟨hends, h.apart⟩
  logical := by rw [List.map_cons, h.logical]
  guesses := by rw [List.flatMap_cons, h.guesses]


/-- **The run over physical lines.**  A run that is under way is finished, and others
follow. -/
theorem exists_runs_continueFrom (hr : r.policies = o.policies) {number after : Nat}
    {first text kept : List Char} {more : List (List Char)} {guesses : List Ambiguity}
    (h : IsRun r number first more text kept guesses) (hafter : after = number + 1 + more.length)
    (rest : List (List Char)) :
    ∃ (run : Run r) (runs : List (Run r)), run.first = first ∧
      IsMadeOf
        ⟨(r.continueFrom ⟨number, indentOf first, text⟩ after rest).lines,
          guesses ++ (r.continueFrom ⟨number, indentOf first, text⟩ after rest).ambiguities⟩
        number (first :: more ++ rest) (run :: runs) := by
  induction rest generalizing number after first text kept more guesses with
  | nil =>
    refine ⟨⟨number, first, more, text, kept, guesses, h⟩, [], rfl, ?_, ?_, ?_, ?_, ?_⟩
    · simp [Run.lines]
    · exact ⟨rfl, trivial⟩
    · exact List.isChain_singleton _
    · rfl
    · simp [Reconstructor.continueFrom]
  | cons next rest ih =>
    by_cases hapart : (r.verdict text next).join = .apart
    · -- the run ends here, and the line starts the next one
      have hstart : IsRun r after next [] (trimStart next) (solid next) [] := .start
      have hone : after + 1 = after + 1 + ([] : List (List Char)).length := rfl
      obtain ⟨run, runs, rfl, hmade⟩ := ih hstart hone
      let ended : Run r := ⟨number, first, more, text, kept, guesses, h⟩
      have hnext : after = ended.number + ended.lines.length := by
        simp only [ended, Run.lines, List.length_cons]
        omega
      rw [hnext] at hmade
      have hends : EndsBefore r ended run := endsBefore_of_apart hr hapart
      refine ⟨ended, run :: runs, rfl, ?_⟩
      rw [continueFrom_of_apart hapart, hnext]
      exact hmade.cons hends
    · -- the line is put behind the run
      obtain ⟨kept', hjoin⟩ := exists_isJoin hr (p := ⟨number, indentOf first, text⟩) hapart after
      rw [h.solid_eq, hafter] at hjoin
      have hrun := h.join (mayJoin_of_join hapart) hjoin
      have hnext : after + 1 = number + 1 + (more ++ [next]).length := by
        rw [hafter, List.length_append, List.length_singleton]
        omega
      obtain ⟨run, runs, hfirst, hmade⟩ := ih hrun hnext
      refine ⟨run, runs, hfirst, ?_⟩
      rw [continueFrom_of_join hapart, Pending.extend_eq]
      rw [List.append_assoc, ← hafter] at hmade
      simpa using hmade

/-- The reconstructor with the chosen policies and the words that start a command. -/
def Options.reconstructor (o : Options) (starts : List String) : Reconstructor :=
  { Reconstructor.ofOptions o with commandStarts := starts }

/-- **Reconstruction is made of runs.**  With every choice of policies, and whatever words
start a command, the physical lines of a text are cut into runs, and each run is one
logical line: it has the number and the indent of the first line of the run, it is
trimmed, and its characters that are not blank are those of the run, in order, less
the continuation markers it was joined past.  A blank line is a run of its own.  What
is reported is each join that no policy decided. -/
theorem reconstruct_eq_runs (o : Options) (starts : List String) (raw : String) :
    ∃ runs : List (Run (o.reconstructor starts)),
      IsMadeOf ((o.reconstructor starts).reconstruct raw) 1 (physicalLines raw.toList) runs ∧
      ∀ run ∈ runs, solid run.line.text.toList = run.kept ∧
        trim run.line.text.toList = run.line.text.toList ∧
        ∀ l ∈ run.lines, isBlankText l = true → run.lines = [l] := by
  have hruns : ∃ runs : List (Run (o.reconstructor starts)),
      IsMadeOf ((o.reconstructor starts).reconstruct raw) 1 (physicalLines raw.toList) runs := by
    rw [Reconstructor.reconstruct]
    cases physicalLines raw.toList with
    | nil => exact ⟨[], rfl, trivial, List.isChain_nil, rfl, rfl⟩
    | cons first rest =>
      have hstart : IsRun (o.reconstructor starts) 1 first [] (trimStart first) (solid first) [] :=
        .start
      have hpolicies : (o.reconstructor starts).policies = o.policies := rfl
      have hone : 2 = 1 + 1 + ([] : List (List Char)).length := rfl
      obtain ⟨run, runs, -, hmade⟩ := exists_runs_continueFrom hpolicies hstart hone rest
      exact ⟨run :: runs, hmade⟩
  obtain ⟨runs, hmade⟩ := hruns
  exact ⟨runs, hmade, fun run _ =>
    ⟨run.solid_line, run.trim_line, fun l => run.eq_singleton_of_blank⟩⟩

end RouterConfig.Wrap
