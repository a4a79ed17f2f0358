import RouterConfig.Proofs.Wrap.Decision

/-!
# Commands on lines of their own

A list of commands is handed to a device, and expected back from one, with one
command on each line.  It arrives unchanged under two conditions, and under no
weaker ones (`seenOneForOne_iff`).

* Each command is a line: it holds no line break and has no blank at either end.
* No command that another one follows ends with the marker.

`reconstruct_indented` is the run of the reconstructor under these conditions, with
any number of spaces in front of each command.  Comments may stand between the
commands, as they do in what a device prints (`reconstruct_unwrapped`).  For the
converse it is enough to look at two things that hold of every run.  Each line that
comes out is trimmed and holds no line break (`isLine_of_mem_reconstruct`).  And a run
that puts two physical lines together has fewer lines than it was given
(`length_continueFrom_le`).
-/

namespace RouterConfig.Rtx

open Text Wrap

/-! ## Commands -/

/-- The first word of the command is one that starts a command. -/
def StartsKnown (command : String) : Prop :=
  ∃ w ws, words command.toList = w :: ws ∧ String.ofList w ∈ commandStarts

/-- The text is one line: no blank stands at its ends, and it holds no line break. -/
def IsLine (text : List Char) : Prop :=
  trim text = text ∧ BreakFree text

instance (text : List Char) : Decidable (IsLine text) :=
  inferInstanceAs (Decidable (_ ∧ _))

/-- A command that stands on a line. -/
structure IsCommand (command : String) : Prop where
  starts : StartsKnown command
  isLine : IsLine command.toList

/-- A text that stands on a line of its own, wherever it is put: a command or a comment. -/
structure IsEntry (text : String) : Prop where
  starts : dialect.reconstructor.isCommandStart text.toList = true
  isLine : IsLine text.toList

/-- The last character of the command says that it goes on. -/
def EndsWithMarker (command : String) : Prop :=
  command.toList.getLast? = some marker

instance (command : String) : Decidable (StartsKnown command) :=
  decidable_of_iff (∃ w ∈ (words command.toList).head?, String.ofList w ∈ commandStarts) <| by
    simp only [StartsKnown, Option.mem_def, List.head?_eq_some_iff, exists_and_right]

instance (command : String) : Decidable (EndsWithMarker command) :=
  inferInstanceAs (Decidable (_ = _))

/-- Spaces in front of a text do not matter for where it starts. -/
theorem isCommandStart_append_of_isBlank {pre : List Char} (hpre : ∀ c ∈ pre, isBlank c = true)
    (cs : List Char) :
    dialect.reconstructor.isCommandStart (pre ++ cs) =
      dialect.reconstructor.isCommandStart cs := by
  rw [Reconstructor.isCommandStart, Reconstructor.isCommandStart, Reconstructor.startsComment,
    Reconstructor.startsComment, trimStart_append_of_isBlank hpre, words_append_of_isBlank hpre]

theorem StartsKnown.isCommandStart {command : String} (h : StartsKnown command) :
    dialect.reconstructor.isCommandStart command.toList = true := by
  obtain ⟨w, ws, hwords, hmem⟩ := h
  rw [Reconstructor.isCommandStart, hwords, Bool.or_eq_true]
  exact Or.inr (by simpa [dialect, Dialect.reconstructor] using hmem)

theorem IsCommand.isEntry {command : String} (h : IsCommand command) : IsEntry command :=
  ⟨h.starts.isCommandStart, h.isLine⟩

/-- A command is neither blank nor a comment. -/
theorem StartsKnown.isUnderWay {command : String} (h : StartsKnown command) :
    IsUnderWay command.toList := by
  obtain ⟨w, ws, hwords, hmem⟩ := h
  obtain ⟨hhead, hne⟩ := head?_trimStart_of_words hwords
  obtain ⟨c, cs, rfl⟩ := List.exists_cons_of_ne_nil hne
  refine ⟨c, hhead, (head?_of_mem_commandStarts _ hmem c ?_).2⟩
  rw [String.toList_ofList]
  rfl

/-- What is left of the end of a line is a line. -/
theorem IsLine.trimmed {text value : String} {front : List Char} (h : IsLine text.toList)
    (hvalue : text.toList = front ++ value.toList) : IsLine (trimmed value).toList := by
  rw [toList_trimmed]
  refine ⟨trim_trim _, h.2.of_subset fun c hc => ?_⟩
  rw [hvalue]
  exact List.mem_append_right _ (mem_of_mem_trim hc)

theorem IsLine.trimEnd_eq {text : List Char} (h : IsLine text) : trimEnd text = text :=
  trimEnd_eq_self.mpr (trim_eq_self.mp h.1).2

/-- What stands on a line of its own starts with its first character. -/
theorem IsEntry.head? {text : String} (h : IsEntry text) :
    ∃ c cs, text.toList = c :: cs ∧ isBlank c = false := by
  obtain ⟨c, hc, -⟩ := head?_of_isCommandStart h.starts
  rw [trimStart_eq_self.mpr (trim_eq_self.mp h.isLine.1).1] at hc
  obtain ⟨cs, hcs⟩ := List.head?_eq_some_iff.mp hc
  exact ⟨c, cs, hcs, (trim_eq_self.mp h.isLine.1).1 c hc⟩

/-! ## Commands and their indents -/

/-- The command with spaces in front. -/
def indented (p : Nat × String) : String :=
  String.ofList (List.replicate p.1 ' ' ++ p.2.toList)

@[simp] theorem toList_indented (p : Nat × String) :
    (indented p).toList = List.replicate p.1 ' ' ++ p.2.toList := by
  simp [indented]

@[simp] theorem indented_zero (command : String) : indented (0, command) = command := by
  simp [indented]

/-- The logical lines of commands with indents, each on a line of its own. -/
def printedFrom : (number : Nat) → List (Nat × String) → List Line
  | _, [] => []
  | number, p :: ps => ⟨number, p.1, p.2⟩ :: printedFrom (number + 1) ps

@[simp] theorem map_text_printedFrom (number : Nat) (ps : List (Nat × String)) :
    (printedFrom number ps).map Line.text = ps.map Prod.snd := by
  induction ps generalizing number with
  | nil => rfl
  | cons p ps ih => rw [printedFrom, List.map_cons, List.map_cons, ih]

theorem isBlank_of_mem_replicate {n : Nat} {c : Char} (h : c ∈ List.replicate n ' ') :
    isBlank c = true := by
  rw [(List.mem_replicate.mp h).2]
  exact isBlank_space

theorem byteSize_replicate_space (n : Nat) : byteSize (List.replicate n ' ') = n := by
  have hsize : ' '.utf8Size = 1 := by decide
  induction n with
  | zero => rfl
  | succ n ih =>
    rw [List.replicate_succ, byteSize, ih, hsize]
    omega

/-- What stands on a line of its own starts behind its indent. -/
theorem start_indented {p : Nat × String} (h : IsEntry p.2) (number : Nat) :
    Pending.start number (indented p).toList = ⟨number, p.1, p.2.toList⟩ := by
  have hstart := (trim_eq_self.mp h.isLine.1).1
  have hblanks : ∀ c ∈ List.replicate p.1 ' ', isBlank c = true :=
    fun _ => isBlank_of_mem_replicate
  rw [toList_indented, Pending.start, trimStart_append_of_isBlank hblanks,
    trimStart_eq_self.mpr hstart, indentOf_append hblanks hstart, byteSize_replicate_space]

theorem close_entry {number indent : Nat} {text : String} (h : IsEntry text) :
    Pending.close ⟨number, indent, text.toList⟩ = ⟨number, indent, text⟩ := by
  rw [Pending.close, h.isLine.1, String.ofList_toList]

/-! ## The run -/

/-- **The run over lines of their own.**  From a line that does not go on, each physical
line is a logical one. -/
theorem continueFrom_entries {ps : List (Nat × String)} (hps : ∀ q ∈ ps, IsEntry q.2)
    (p : Pending) (hmarker : ∀ text ∈ (trimEnd p.text :: ps.map (·.2.toList)).dropLast,
      text.getLast? ≠ some marker) (number : Nat) :
    dialect.reconstructor.continueFrom p number (ps.map fun q => (indented q).toList) =
      ⟨p.close :: printedFrom number ps, []⟩ := by
  induction ps generalizing p number with
  | nil => rw [List.map_nil, Reconstructor.continueFrom, printedFrom]
  | cons q qs ih =>
    have hq := hps q (List.mem_cons_self ..)
    rw [List.map_cons, List.dropLast_cons_cons] at hmarker
    have hstart : dialect.reconstructor.isCommandStart (indented q).toList = true := by
      rw [toList_indented, isCommandStart_append_of_isBlank fun _ => isBlank_of_mem_replicate]
      exact hq.starts
    have hjoin := join_verdict_of_isCommandStart hstart (hmarker _ (List.mem_cons_self ..))
    have hrest := ih (fun r hr => hps r (List.mem_cons_of_mem _ hr)) ⟨number, q.1, q.2.toList⟩
      (by rw [hq.isLine.trimEnd_eq]; exact fun text ht => hmarker text (List.mem_cons_of_mem _ ht))
      (number + 1)
    rw [List.map_cons, Reconstructor.continueFrom]
    simp only [hjoin, if_true, start_indented hq, hrest, close_entry hq, printedFrom]

/-- **Lines of their own come back one for one**, whatever their indents, when none that
another one follows ends with the marker. -/
theorem reconstruct_indented {ps : List (Nat × String)} (hps : ∀ p ∈ ps, IsEntry p.2)
    (hmarker : ∀ p ∈ ps.dropLast, ¬ EndsWithMarker p.2) :
    dialect.reconstructor.reconstruct (joined "\n" (ps.map indented)) =
      ⟨printedFrom 1 ps, []⟩ := by
  have hlines : physicalLines (joined "\n" (ps.map indented)).toList =
      ps.map fun p => (indented p).toList := by
    rw [physicalLines_joined, List.map_map]
    · rfl
    · intro s hs
      obtain ⟨p, hp, rfl⟩ := List.mem_map.mp hs
      obtain ⟨c, cs, hc, -⟩ := (hps p hp).head?
      rw [toList_indented, breakFree_append]
      refine ⟨?_, ?_, (hps p hp).isLine.2⟩
      · rw [hc]
        exact List.append_ne_nil_of_right_ne_nil _ (List.cons_ne_nil _ _)
      · refine ⟨fun h => ?_, fun h => ?_⟩
        · exact absurd (List.mem_replicate.mp h).2 (by decide)
        · exact absurd (List.mem_replicate.mp h).2 (by decide)
  rw [Reconstructor.reconstruct, hlines]
  cases ps with
  | nil => rfl
  | cons p ps =>
    have hp := hps p (List.mem_cons_self ..)
    rw [List.map_cons, Reconstructor.ofPhysical, start_indented hp, continueFrom_entries,
      close_entry hp, printedFrom]
    · exact fun q hq => hps q (List.mem_cons_of_mem _ hq)
    · have hmap : trimEnd p.2.toList :: ps.map (·.2.toList) = (p :: ps).map (·.2.toList) := by
        rw [hp.isLine.trimEnd_eq, List.map_cons]
      rw [hmap, ← List.map_dropLast]
      intro text htext
      obtain ⟨q, hq, rfl⟩ := List.mem_map.mp htext
      exact hmarker q hq

/-! ## Commands and comments -/

/-- A text that was never wrapped: a command or a comment on a line, which does not say that
it goes on.  It is not empty, since it starts with something. -/
structure IsUnwrapped (text : String) : Prop where
  starts : StartsKnown text ∨ text.toList.head? = some '#'
  isLine : IsLine text.toList
  ends : ¬ EndsWithMarker text

instance (text : String) : Decidable (IsUnwrapped text) :=
  decidable_of_iff ((StartsKnown text ∨ text.toList.head? = some '#') ∧ IsLine text.toList ∧
      ¬ EndsWithMarker text)
    ⟨fun h => ⟨h.1, h.2.1, h.2.2⟩, fun h => ⟨h.starts, h.isLine, h.ends⟩⟩

/-- A comment starts a line by its first character, a command by its first word. -/
theorem IsUnwrapped.isEntry {text : String} (h : IsUnwrapped text) : IsEntry text := by
  refine ⟨?_, h.isLine⟩
  rcases h.starts with hknown | hcomment
  · exact hknown.isCommandStart
  · have hstart : trimStart text.toList = text.toList :=
      trimStart_eq_self.mpr (trim_eq_self.mp h.isLine.1).1
    rw [Reconstructor.isCommandStart, Reconstructor.startsComment, hstart, hcomment]
    rfl

/-- **Texts that were never wrapped pass through untouched**, one on each line and in
order, numbered from one, each with the indent that it has, and without a guess. -/
theorem reconstruct_unwrapped {ps : List (Nat × String)} (hps : ∀ p ∈ ps, IsUnwrapped p.2) :
    dialect.reconstructor.reconstruct (joined "\n" (ps.map indented)) =
      ⟨printedFrom 1 ps, []⟩ :=
  reconstruct_indented (fun p hp => (hps p hp).isEntry) fun p hp =>
    (hps p (List.dropLast_subset _ hp)).ends

/-- A comment, and commands that end like a number, like an option in front of its sign, and
in another script. -/
def unwrappedTexts : List (Nat × String) :=
  [(0, "# RTX1210 Rev.14.01.38"), (0, "ip filter 1 pass * *"), (0, "tunnel select 1"),
    (1, "description tunnel ＝"), (3, "ip tunnel tcp mss limit auto ="),
    (0, "ip route 10.0.0.0/8 gateway pp 1")]

theorem reconstruct_unwrapped_texts :
    (∀ p ∈ unwrappedTexts, IsUnwrapped p.2) ∧
      dialect.reconstructor.reconstruct (joined "\n" (unwrappedTexts.map indented)) =
        ⟨[⟨1, 0, "# RTX1210 Rev.14.01.38"⟩, ⟨2, 0, "ip filter 1 pass * *"⟩,
          ⟨3, 0, "tunnel select 1"⟩, ⟨4, 1, "description tunnel ＝"⟩,
          ⟨5, 3, "ip tunnel tcp mss limit auto ="⟩,
          ⟨6, 0, "ip route 10.0.0.0/8 gateway pp 1"⟩], []⟩ := by
  have hps : ∀ p ∈ unwrappedTexts, IsUnwrapped p.2 := by decide +kernel
  exact ⟨hps, reconstruct_unwrapped hps⟩

/-! ## What holds of every run -/

theorem mem_dropBytesEnd_go {c : Char} {count : Nat} {cs : List Char}
    (h : c ∈ dropBytesEnd.go count cs) : c ∈ cs := by
  fun_induction dropBytesEnd.go count cs with
  | case1 cs => exact h
  | case2 count => exact h
  | case3 count d cs ih => exact List.mem_cons_of_mem _ (ih h)

theorem mem_of_mem_dropBytesEnd {c : Char} {count : Nat} {cs : List Char}
    (h : c ∈ dropBytesEnd count cs) : c ∈ cs := by
  rw [dropBytesEnd, List.mem_reverse] at h
  exact List.mem_reverse.mp (mem_dropBytesEnd_go h)

/-- Putting a line behind a command brings no line break in. -/
theorem breakFree_extend {p : Pending} {next : List Char} (hp : BreakFree p.text)
    (hnext : BreakFree next) (join : Join) : BreakFree (p.extend join next).text := by
  have hend : BreakFree (trimEnd p.text) := hp.of_subset fun _ => mem_of_mem_trimEnd
  have htrim : BreakFree (trim next) := hnext.of_subset fun _ => mem_of_mem_trim
  have hspace : BreakFree (' ' :: trim next) := by
    rw [← List.singleton_append, breakFree_append]
    exact ⟨by decide, htrim⟩
  cases join with
  | glued => exact breakFree_append.mpr ⟨hend, htrim⟩
  | spaced => exact breakFree_append.mpr ⟨hend, hspace⟩
  | pastMarker bytes =>
    refine breakFree_append.mpr ⟨hend.of_subset fun _ hc => ?_, hspace⟩
    exact mem_of_mem_dropBytesEnd (mem_of_mem_trimEnd hc)
  | apart => exact hp

theorem isLine_close {p : Pending} (h : BreakFree p.text) : IsLine p.close.text.toList := by
  rw [Pending.close, String.toList_ofList]
  exact ⟨trim_trim _, h.of_subset fun _ => mem_of_mem_trim⟩

/-- **Every logical line is a line.** -/
theorem isLine_of_mem_continueFrom (r : Reconstructor) {p : Pending}
    {rest : List (List Char)} (hp : BreakFree p.text) (hrest : ∀ l ∈ rest, BreakFree l)
    (number : Nat) : ∀ line ∈ (r.continueFrom p number rest).lines, IsLine line.text.toList := by
  induction rest generalizing p number with
  | nil =>
    intro line hline
    rw [Reconstructor.continueFrom, List.mem_singleton] at hline
    rw [hline]
    exact isLine_close hp
  | cons next rest ih =>
    have hnext := hrest next (List.mem_cons_self ..)
    have hrest' : ∀ l ∈ rest, BreakFree l := fun l hl => hrest l (List.mem_cons_of_mem _ hl)
    intro line hline
    rw [Reconstructor.continueFrom] at hline
    split at hline
    · rcases List.mem_cons.mp hline with rfl | hline
      · exact isLine_close hp
      · exact ih (hnext.of_subset fun _ => mem_of_mem_trimStart) hrest' _ line hline
    · exact ih (breakFree_extend hp hnext _) hrest' _ line hline

/-- **Every line of a text is a line**, whatever the text. -/
theorem isLine_of_mem_reconstruct (r : Reconstructor) (raw : String) :
    ∀ line ∈ (r.reconstruct raw).lines, IsLine line.text.toList := by
  intro line hline
  rw [Reconstructor.reconstruct] at hline
  have hphysical : ∀ l ∈ physicalLines raw.toList, BreakFree l :=
    fun l => breakFree_of_mem_physicalLines
  cases hraw : physicalLines raw.toList with
  | nil =>
    rw [hraw] at hline
    exact absurd hline (by simp [Reconstructor.ofPhysical])
  | cons first rest =>
    rw [hraw] at hline hphysical
    have hfirst := hphysical first (List.mem_cons_self ..)
    exact isLine_of_mem_continueFrom _ (hfirst.of_subset fun _ => mem_of_mem_trimStart)
      (fun l hl => hphysical l (List.mem_cons_of_mem _ hl)) _ line hline

/-- No line comes out of nowhere. -/
theorem length_continueFrom_le (r : Reconstructor) (p : Pending) (number : Nat)
    (rest : List (List Char)) :
    (r.continueFrom p number rest).lines.length ≤ rest.length + 1 := by
  induction rest generalizing p number with
  | nil => rw [Reconstructor.continueFrom, List.length_singleton, List.length_nil]
  | cons next rest ih =>
    rw [Reconstructor.continueFrom, List.length_cons]
    split
    · have hle := ih (Pending.start number next) (number + 1)
      rw [List.length_cons]
      omega
    · have hle := ih (p.extend (r.verdict p.text next).join next) (number + 1)
      exact Nat.le_succ_of_le hle

/-- When no line is missing, no command in front of another ends with the marker. -/
theorem not_marker_of_length {p : Pending} {cs : List String} (hway : IsUnderWay p.text)
    (hcs : ∀ c ∈ cs, IsCommand c) (number : Nat)
    (hlength : (dialect.reconstructor.continueFrom p number (cs.map String.toList)).lines.length =
      cs.length + 1) :
    ∀ text ∈ (trimEnd p.text :: cs.map String.toList).dropLast,
      text.getLast? ≠ some marker := by
  induction cs generalizing p number with
  | nil => simp
  | cons c cs ih =>
    have hc := hcs c (List.mem_cons_self ..)
    have hstart := hc.starts.isCommandStart
    rw [List.map_cons, List.dropLast_cons_cons]
    rw [List.map_cons, Reconstructor.continueFrom] at hlength
    by_cases hmarker : (trimEnd p.text).getLast? = some marker
    · -- the next command is put behind, and its line is missing
      rw [verdict_of_marker hway hstart hmarker, if_neg (by decide)] at hlength
      have hle := length_continueFrom_le dialect.reconstructor
        (p.extend (.pastMarker 1) c.toList) (number + 1) (cs.map String.toList)
      have hcount := hlength.symm.le.trans hle
      rw [List.length_map, List.length_cons] at hcount
      omega
    · have happart := join_verdict_of_isCommandStart hstart hmarker
      have hpending : Pending.start number c.toList = ⟨number, 0, c.toList⟩ := by
        simpa using start_indented (p := (0, c)) hc.isEntry number
      rw [if_pos happart, hpending, List.length_cons, List.length_cons, Nat.add_right_cancel_iff]
        at hlength
      have hrest := ih hc.starts.isUnderWay (fun d hd => hcs d (List.mem_cons_of_mem _ hd))
        (number + 1) hlength
      rw [hc.isLine.trimEnd_eq] at hrest
      exact List.forall_mem_cons.mpr ⟨hmarker, hrest⟩

/-! ## Exactly when -/

/-- The commands come back as they are, one line each, and without a guess. -/
def SeenOneForOne (commands : List String) : Prop :=
  (dialect.reconstructor.reconstruct (joined "\n" commands)).lines.map Line.text = commands ∧
    (dialect.reconstructor.reconstruct (joined "\n" commands)).ambiguities = []

instance (commands : List String) : Decidable (SeenOneForOne commands) :=
  inferInstanceAs (Decidable (_ ∧ _))

/-- Commands that are lines of their own are seen one for one. -/
theorem seenOneForOne_of_isLine {commands : List String} (hstarts : ∀ c ∈ commands, StartsKnown c)
    (hlines : ∀ c ∈ commands, IsLine c.toList)
    (hmarker : ∀ c ∈ commands.dropLast, ¬ EndsWithMarker c) : SeenOneForOne commands := by
  have hflat : (commands.map fun c => (0, c)).map indented = commands := by
    rw [List.map_map]
    exact (List.map_congr_left fun c _ => indented_zero c).trans (List.map_id _)
  have hrun := @reconstruct_indented (commands.map fun c => (0, c)) ?_ ?_
  · rw [hflat] at hrun
    rw [SeenOneForOne, hrun, map_text_printedFrom, List.map_map]
    exact ⟨List.map_id _, rfl⟩
  · intro p hp
    obtain ⟨c, hc, rfl⟩ := List.mem_map.mp hp
    exact IsCommand.isEntry ⟨hstarts c hc, hlines c hc⟩
  · intro p hp
    rw [← List.map_dropLast] at hp
    obtain ⟨c, hc, rfl⟩ := List.mem_map.mp hp
    exact hmarker c hc

/-- **Exactly when commands are seen one for one**: each is a line, and none that
another one follows ends with the marker. -/
theorem seenOneForOne_iff {commands : List String} (hstarts : ∀ c ∈ commands, StartsKnown c) :
    SeenOneForOne commands ↔
      (∀ c ∈ commands, IsLine c.toList) ∧ ∀ c ∈ commands.dropLast, ¬ EndsWithMarker c := by
  refine ⟨fun h => ?_, fun h => seenOneForOne_of_isLine hstarts h.1 h.2⟩
  have hlines : ∀ c ∈ commands, IsLine c.toList := by
    intro c hc
    rw [← h.1] at hc
    obtain ⟨line, hline, rfl⟩ := List.mem_map.mp hc
    exact isLine_of_mem_reconstruct _ _ line hline
  refine ⟨hlines, ?_⟩
  have hcommands : ∀ c ∈ commands, IsCommand c := fun c hc => ⟨hstarts c hc, hlines c hc⟩
  have hphysical : physicalLines (joined "\n" commands).toList = commands.map String.toList := by
    refine physicalLines_joined fun c hc => ⟨?_, (hlines c hc).2⟩
    obtain ⟨d, ds, hd, -⟩ := (hcommands c hc).isEntry.head?
    rw [hd]
    exact List.cons_ne_nil _ _
  have hlength := congrArg List.length h.1
  rw [List.length_map, Reconstructor.reconstruct, hphysical] at hlength
  cases commands with
  | nil => simp
  | cons c cs =>
    have hc := hcommands c (List.mem_cons_self ..)
    have hpending : Pending.start 1 c.toList = ⟨1, 0, c.toList⟩ := by
      simpa using start_indented (p := (0, c)) hc.isEntry 1
    rw [List.map_cons, Reconstructor.ofPhysical, hpending, List.length_cons] at hlength
    have hmarker := not_marker_of_length hc.starts.isUnderWay
      (fun d hd => hcommands d (List.mem_cons_of_mem _ hd)) 2 hlength
    rw [hc.isLine.trimEnd_eq, ← List.map_cons, ← List.map_dropLast] at hmarker
    intro d hd
    exact hmarker d.toList (List.mem_map_of_mem hd)

end RouterConfig.Rtx
