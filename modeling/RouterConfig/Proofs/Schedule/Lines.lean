import Mathlib.Data.List.Forall2
import RouterConfig.Proofs.Commands.Schedules
import RouterConfig.Proofs.Stanza.TopLevel

/-!
# What the lines of a schedule say

Each command of a schedule is a line that says one thing: that the schedule has a trigger
and a command, that it is not carried out, or that there is a schedule for a session.  The
trigger is told from free text.  A date holds a slash and a time does not, and neither is
the word `startup`.

A line says what was meant (`forall₂_isReadAs`) if the command in it `IsPlain`.  This is all
that reading has to do with single lines; how the lines of one schedule are put together
again is another matter.
-/

namespace RouterConfig.Schedule

open Text Rtx

/-- The command is written as it is read.  No blank stands at its ends, and it holds no
carriage return and does not end with the marker, which would change its line. -/
structure IsPlain (command : String) : Prop where
  trimmed : trimmed command = command
  noReturn : '\r' ∉ command.toList
  noMarker : command.toList.getLast? ≠ some marker

instance (command : String) : Decidable (IsPlain command) :=
  decidable_of_iff
    (RouterConfig.trimmed command = command ∧ '\r' ∉ command.toList ∧
      command.toList.getLast? ≠ some marker)
    ⟨fun h => ⟨h.1, h.2.1, h.2.2⟩, fun h => ⟨h.trimmed, h.noReturn, h.noMarker⟩⟩

/-- What the lines of a schedule say. -/
def statements (s : Schedule) : List Statement :=
  match s.trigger with
  | .session _ _ _ => [.session s]
  | _ => s.commands.map (.command s.id s.trigger) ++ if s.enabled then [] else [.disable s.id]

theorem IsNumbered.statements_eq {s : Schedule} (h : s.IsNumbered) :
    s.statements = s.commands.map (.command s.id s.trigger) ++
      if s.enabled then [] else [.disable s.id] := by
  unfold statements
  split
  · next htrigger => exact absurd htrigger (h _ _ _)
  · rfl

/-! ## Plain commands -/

/-- A plain command may stand in front of another one. -/
theorem IsPlain.endsCommand {command : String} (h : IsPlain command)
    (hblank : isBlankString command = false) (hnewline : '\n' ∉ command.toList) :
    EndsCommand command := by
  have hne : command ≠ "" := by
    rintro rfl
    cases hblank
  have htrim : trim command.toList = command.toList := by
    rw [← toList_trimmed, h.trimmed]
  exact ⟨endsLine_of_isLine ⟨htrim, hnewline, h.noReturn⟩ hne, h.noMarker⟩

theorem endsCommand_of_mem_commands {s : Schedule} (hnumbered : s.IsNumbered)
    (hvalid : validate s = none) (hplain : ∀ command ∈ s.commands, IsPlain command) :
    ∀ command ∈ s.commands, EndsCommand command := by
  intro command hcommand
  obtain ⟨hblank, hnewline⟩ := (hnumbered.commands_of_validate hvalid).2 command hcommand
  exact (hplain command hcommand).endsCommand hblank hnewline

/-! ## Reading a trigger -/

theorem nextWord_phrase {w v : String} {ws : List String} (hw : IsWord w)
    (hrest : BreakFree (phrase (v :: ws)).toList) :
    nextWord (phrase (w :: v :: ws)) = .ok (w, phrase (v :: ws)) := by
  rw [nextWord, firstWord?_phrase hw hrest]
  exact if_neg hw.1

/-- **A trigger is read in front of any command.** -/
theorem readTrigger_words {s : Schedule} (hnumbered : s.IsNumbered) (hvalid : validate s = none)
    {command : String} (hcommand : BreakFree command.toList) :
    ∃ word rest, nextWord (phrase (s.trigger.words ++ [command])) = .ok (word, rest) ∧
      readTrigger word rest = .ok (s.trigger, command) := by
  have hkept := triggerRules_of_validate hvalid
  cases htrigger : s.trigger with
  | startup =>
    refine ⟨"startup", phrase [command], nextWord_phrase (by decide) ?_, ?_⟩
    · rwa [phrase_singleton]
    · rw [readTrigger, if_pos rfl, phrase_singleton]
  | daily time =>
    rw [htrigger] at hkept
    have htime := isSome_timeParts?_of_isTime hkept
    have hstartup : time ≠ "startup" := by
      rintro rfl
      cases htime
    have hslash : holds '/' time = false := by
      rw [holds, List.contains_eq_mem, decide_eq_false_iff_not]
      intro hmem
      exact absurd ((mem_of_timeParts? htime).2 '/' hmem) (by decide)
    refine ⟨time, phrase [command], nextWord_phrase (isWord_of_isTime hkept) ?_, ?_⟩
    · rwa [phrase_singleton]
    · rw [readTrigger, if_neg hstartup, hslash, if_neg (by decide), if_pos htime, phrase_singleton]
  | dated date time =>
    rw [htrigger] at hkept
    have htime := isSome_timeParts?_of_isTime hkept.2
    have hstartup : date ≠ "startup" := by
      rintro rfl
      exact absurd (slash_mem_of_isDate hkept.1) (by decide)
    have hslash : holds '/' date = true := by
      rw [holds, List.contains_iff_mem]
      exact slash_mem_of_isDate hkept.1
    refine ⟨date, phrase [time, command], nextWord_phrase (isWord_of_isDate hkept.1) ?_, ?_⟩
    · rw [toList_phrase, breakFree_spaced]
      simpa using ⟨(isWord_of_isTime hkept.2).breakFree, hcommand⟩
    · rw [readTrigger, if_neg hstartup, if_pos hslash,
        splitOnce?_phrase (isWord_of_isTime hkept.2), phrase_singleton]
      exact if_pos htime
  | session days time action => exact absurd htrigger (hnumbered _ _ _)

/-! ## Reading a line -/

/-- Every line with this text is read as this statement. -/
def IsReadAs (text : String) (statement : Statement) : Prop :=
  ∀ line : Line, line.text = text → ∃ r, readLine? line = some r ∧ r.content = .ok statement

section Leads

variable {line : Line} {w : String} {ws : List String}

theorem readLine?_command (htext : line.text = phrase ("schedule" :: "at" :: w :: ws)) :
    readLine? line = some ⟨line, readCommand (phrase (w :: ws)), namedId? line.text⟩ := by
  have hlist : line.text.toList = "schedule at ".toList ++ (phrase (w :: ws)).toList := by
    rw [htext]
    exact toList_phrase_cons_cons "schedule" "at" w ws
  rw [readLine?, afterLead?_of_apart (by decide) hlist, afterLead?_of_apart (by decide) hlist,
    afterLead?_of_toList hlist]
  rfl

theorem readLine?_session (htext : line.text = phrase ("schedule" :: "pp" :: w :: ws)) :
    readLine? line = some ⟨line, readSession (phrase (w :: ws)), none⟩ := by
  have hlist : line.text.toList = "schedule pp ".toList ++ (phrase (w :: ws)).toList := by
    rw [htext]
    exact toList_phrase_cons_cons "schedule" "pp" w ws
  rw [readLine?, afterLead?_of_apart (by decide) hlist, afterLead?_of_toList hlist]

theorem readLine?_disable (htext : line.text = phrase ["no", "schedule", "at", w]) :
    readLine? line =
      some ⟨line, (readNumber "schedule id" (trimmed w)).map .disable, none⟩ := by
  have hlead : afterLead? "no schedule at " line.text = some (phrase [w]) := by
    rw [htext]
    exact @afterLead?_phrase _ ["no", "schedule", "at"] _ (by decide) (List.cons_ne_nil _ _) rfl
  rw [readLine?, hlead, phrase_singleton]

end Leads

theorem isReadAs_command {s : Schedule} (hnumbered : s.IsNumbered) (hvalid : validate s = none)
    {command : String} (hmem : command ∈ s.commands) (hplain : IsPlain command) :
    IsReadAs (phrase (s.commandWords command)) (.command s.id s.trigger command) := by
  intro line htext
  obtain ⟨hblank, hnewline⟩ := (hnumbered.commands_of_validate hvalid).2 command hmem
  have hbreak : BreakFree command.toList := ⟨hnewline, hplain.noReturn⟩
  obtain ⟨word, rest, hword, htrigger⟩ := readTrigger_words hnumbered hvalid hbreak
  obtain ⟨v, vs, htail⟩ := List.exists_cons_of_ne_nil
    (List.append_ne_nil_of_right_ne_nil s.trigger.words (List.cons_ne_nil command []))
  have hrest : BreakFree (phrase (v :: vs)).toList := by
    rw [← htail, toList_phrase, breakFree_spaced, List.forall_mem_map, List.forall_mem_append,
      List.forall_mem_singleton]
    exact ⟨fun w hw => (isWord_of_mem_triggerWords hvalid w hw).breakFree, hbreak⟩
  have hid : nextWord (phrase (numeral s.id :: v :: vs)) = .ok (numeral s.id, phrase (v :: vs)) :=
    nextWord_phrase (isWord_numeral s.id) hrest
  rw [htail] at hword
  have hread : readCommand (phrase (numeral s.id :: v :: vs)) =
      .ok (.command s.id s.trigger command) := by
    simp only [readCommand, hid, hword, htrigger, ok_bind, readNumber_numeral, hblank,
      hplain.trimmed]
    rfl
  rw [commandWords, hnumbered.leadWords_eq, List.append_assoc, htail] at htext
  have hline := @readLine?_command line (numeral s.id) (v :: vs) htext
  rw [hread] at hline
  exact ⟨_, hline, rfl⟩

theorem isReadAs_disable {s : Schedule} (hnumbered : s.IsNumbered) :
    IsReadAs (phrase ("no" :: s.leadWords)) (.disable s.id) := by
  intro line htext
  rw [hnumbered.leadWords_eq] at htext
  refine ⟨_, readLine?_disable htext, ?_⟩
  rw [trimmed_of_isWord (isWord_numeral s.id), readNumber_numeral]
  rfl

theorem read_ppAction (action : PpAction) : PpAction.read action.word = .ok action := by
  cases action <;> rfl

/-- **A schedule for a session is read back.** -/
theorem readSession_phrase {pp : UInt32} {days time : String} {action : PpAction}
    (hdays : areDays days = true) (htime : isTime time = true) :
    readSession (phrase [numeral pp, days, time, action.word]) =
      .ok (.session (ofSession pp days time action)) := by
  have hwords : ∀ w ∈ [numeral pp, days, time, action.word], IsWord w := by
    simpa [isWord_numeral, isWord_ppAction] using ⟨isWord_of_areDays hdays, isWord_of_isTime htime⟩
  have hall : ([numeral pp, days, time, action.word].all fun w => w != "" && !hasBlank w) =
      true := by
    refine List.all_eq_true.mpr fun w hw => ?_
    rw [Bool.and_eq_true, bne_iff_ne, Bool.not_eq_true']
    exact hwords w hw
  rw [readSession, piecesOf_phrase (List.cons_ne_nil _ _) hwords]
  simp only
  rw [if_pos hall, readNumber_numeral, ok_bind, read_ppAction,
    Option.isNone_eq_false_iff.mpr (isSome_timeParts?_of_isTime htime)]
  rfl

theorem isReadAs_session {s : Schedule} {days time : String} {action : PpAction}
    (htrigger : s.trigger = .session days time action) (hvalid : validate s = none) :
    IsReadAs (phrase (s.leadWords ++ s.trigger.words)) (.session s) := by
  intro line htext
  have hkept := triggerRules_of_validate hvalid
  obtain ⟨hcommands, henabled⟩ := of_validate_session hvalid htrigger
  have hself : ofSession s.id days time action = s := by
    obtain ⟨id, trigger, commands, enabled⟩ := s
    cases htrigger
    cases hcommands
    cases henabled
    rfl
  have hlead : s.leadWords = ["schedule", "pp", numeral s.id] := by
    rw [leadWords, htrigger]
  rw [htrigger] at hkept
  have hread := @readSession_phrase s.id days time action hkept.1 hkept.2
  rw [hself] at hread
  simp only [hlead, htrigger, Trigger.words, List.cons_append, List.nil_append] at htext
  have hline := readLine?_session htext
  rw [hread] at hline
  exact ⟨_, hline, rfl⟩

/-- **The commands of a schedule say what was meant**, one after the other. -/
theorem forall₂_isReadAs {s : Schedule} (hvalid : validate s = none)
    (hplain : ∀ command ∈ s.commands, IsPlain command) :
    List.Forall₂ IsReadAs s.setCommands s.statements := by
  rcases s.isNumbered_or with hnumbered | ⟨days, time, action, htrigger⟩
  · rw [hnumbered.setCommands_eq, hnumbered.statements_eq]
    refine List.rel_append ?_ ?_
    · rw [List.forall₂_map_left_iff, List.forall₂_map_right_iff, List.forall₂_same]
      exact fun command hmem => isReadAs_command hnumbered hvalid hmem (hplain command hmem)
    · split
      · exact List.Forall₂.nil
      · exact List.Forall₂.cons (isReadAs_disable hnumbered) List.Forall₂.nil
  · have hread := isReadAs_session htrigger hvalid
    unfold setCommands statements
    rw [htrigger] at hread ⊢
    exact List.Forall₂.cons hread List.Forall₂.nil

/-! ## Reading the lines of many schedules -/

/-- What was read, without the line that it was read from. -/
def Reading.bare (r : Reading) : Reading where
  line := ⟨0, 0, ""⟩
  content := r.content

/-- The statement as it is read, without a line. -/
def Statement.reading (statement : Statement) : Reading where
  line := ⟨0, 0, ""⟩
  content := .ok statement

/-- Lines of which each is read as a statement are read as the list of these. -/
theorem map_bare_readings {texts : List String} {said : List Statement}
    (h : List.Forall₂ IsReadAs texts said) {lines : List Line}
    (htexts : lines.map Line.text = texts) :
    (lines.filterMap readLine?).map Reading.bare = said.map Statement.reading := by
  induction h generalizing lines with
  | nil => rw [List.map_eq_nil_iff.mp htexts]; rfl
  | cons hread _ ih =>
    obtain ⟨line, rest, rfl, htext, hrest⟩ := List.map_eq_cons_iff.mp htexts
    obtain ⟨r, hr, hcontent⟩ := hread line htext
    rw [List.filterMap_cons, hr, List.map_cons, List.map_cons, ih hrest, Reading.bare, hcontent]
    rfl

/-- **The lines of schedules are read as what was meant.** -/
theorem map_bare_schedules {ss : List Schedule} (hvalid : ∀ s ∈ ss, validate s = none)
    (hplain : ∀ s ∈ ss, ∀ command ∈ s.commands, IsPlain command) {lines : List Line}
    (htexts : lines.map Line.text = ss.flatMap setCommands) :
    (lines.filterMap readLine?).map Reading.bare =
      (ss.flatMap statements).map Statement.reading := by
  refine map_bare_readings ?_ htexts
  clear htexts
  induction ss with
  | nil => exact List.Forall₂.nil
  | cons s ss ih =>
    obtain ⟨hs, hvalid⟩ := List.forall_mem_cons.mp hvalid
    obtain ⟨hcommands, hplain⟩ := List.forall_mem_cons.mp hplain
    rw [List.flatMap_cons, List.flatMap_cons]
    exact List.rel_append (forall₂_isReadAs hs hcommands) (ih hvalid hplain)

end RouterConfig.Schedule
