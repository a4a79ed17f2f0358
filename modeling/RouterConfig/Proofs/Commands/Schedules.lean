import RouterConfig.Proofs.Commands.Rules
import RouterConfig.Proofs.Text.Numerals
import RouterConfig.Proofs.Text.Phrases
import RouterConfig.Proofs.Wrap.Phrases
import RouterConfig.Schedule

/-!
# The commands of a schedule

The trigger of a schedule is checked word by word.  The commands in it are free
text, of which the rules ask no more than that it is not blank and holds no line
feed.  `Schedule.encode_seenOneForOne_iff` says what has to hold beyond that.
-/

namespace RouterConfig.Schedule

open Text Rtx

/-! ## Triggers -/

/-- No script has a blank among its digits. -/
theorem isBlank_eq_false_of_isDecimalDigit {c : Char} (h : isDecimalDigit c = true) :
    isBlank c = false := by
  have hgap : ∀ start ∈ decimalZeros, 0x20 < start ∧ (start + 9 < 0x85 ∨ 0xA0 < start) ∧
      (start + 9 < 0x1680 ∨ 0x1680 < start) ∧ (start + 9 < 0x2000 ∨ 0x3000 < start) := by
    decide
  obtain ⟨start, hstart, hrange⟩ := List.any_eq_true.mp h
  rw [Bool.and_eq_true, decide_eq_true_eq, decide_eq_true_eq] at hrange
  have hstart := hgap start hstart
  simp only [isBlank, Bool.or_eq_false_iff, Bool.and_eq_false_iff, decide_eq_false_iff_not,
    beq_eq_false_iff_ne]
  omega

theorem isWord_of_isDigits {min max : Nat} {s : String} (hmin : 0 < min)
    (h : isDigits min max s = true) : IsWord s := by
  simp only [isDigits, Bool.and_eq_true, decide_eq_true_eq] at h
  obtain ⟨⟨hlength, -⟩, hall⟩ := h
  have hpos : 0 < s.toList.length := Nat.lt_of_lt_of_le hmin hlength
  refine isWord_iff.mpr ⟨List.ne_nil_of_length_pos hpos, fun c hc => ?_⟩
  exact isBlank_eq_false_of_isDecimalDigit (List.all_eq_true.mp hall c hc)

/-- A time holds a colon, and apart from it stars and digits only. -/
theorem mem_of_timeParts? {time : String} (h : (timeParts? time).isSome = true) :
    ':' ∈ time.toList ∧ ∀ c ∈ time.toList, isDecimalDigit c = true ∨ c = '*' ∨ c = ':' := by
  rw [timeParts?] at h
  have hpart : ∀ min max part, (part == "*" || isDigits min max part) = true →
      ∀ c ∈ part.toList, isDecimalDigit c = true ∨ c = '*' ∨ c = ':' := by
    intro min max part hpart c hc
    rw [Bool.or_eq_true, beq_iff_eq] at hpart
    rcases hpart with rfl | hdigits
    · exact Or.inr (Or.inl (List.mem_singleton.mp hc))
    · rw [isDigits, Bool.and_eq_true] at hdigits
      exact Or.inl (List.all_eq_true.mp hdigits.2 c hc)
  cases hsplit : splitOnce? ':' time with
  | none =>
    rw [hsplit] at h
    cases h
  | some parts =>
    obtain ⟨hours, minutes⟩ := parts
    rw [hsplit] at h
    by_cases hguard : ((hours == "*" || isDigits 1 2 hours) &&
        (minutes == "*" || isDigits 2 2 minutes)) = true
    · rw [Bool.and_eq_true] at hguard
      rw [eq_of_splitOnce? hsplit, List.forall_mem_append, List.forall_mem_cons]
      exact ⟨List.mem_append_right _ (List.mem_cons_self ..), hpart _ _ _ hguard.1,
        Or.inr (Or.inr rfl), hpart _ _ _ hguard.2⟩
    · have hfail : (guard (((hours == "*" || isDigits 1 2 hours) &&
          (minutes == "*" || isDigits 2 2 minutes)) = true) : Option Unit) = none := if_neg hguard
      change (guard _ >>= fun _ => pure (hours, minutes) : Option (String × String)).isSome = true
        at h
      rw [hfail] at h
      cases h

theorem isWord_of_timeParts? {time : String} (h : (timeParts? time).isSome = true) :
    IsWord time := by
  obtain ⟨hcolon, hchars⟩ := mem_of_timeParts? h
  refine isWord_iff.mpr ⟨List.ne_nil_of_mem hcolon, fun c hc => ?_⟩
  rcases hchars c hc with hdigit | rfl | rfl
  · exact isBlank_eq_false_of_isDecimalDigit hdigit
  · decide
  · decide

/-- A time has the form of one. -/
theorem isSome_timeParts?_of_isTime {time : String} (h : isTime time = true) :
    (timeParts? time).isSome = true := by
  rw [isTime] at h
  split at h
  · next hours minutes hparts =>
    rw [hparts]
    rfl
  · cases h

theorem isWord_of_isTime {time : String} (h : isTime time = true) : IsWord time :=
  isWord_of_timeParts? (isSome_timeParts?_of_isTime h)

theorem isWord_of_isDateHead {s : String} (h : isDateHead s = true) : IsWord s := by
  simp only [isDateHead, Bool.or_eq_true, beq_iff_eq] at h
  rcases h with (rfl | h) | h
  · decide
  · exact isWord_of_isDigits (by decide) h
  · exact isWord_of_isDigits (by decide) h

theorem isBlank_eq_false_of_isDateChar {c : Char} (h : isDateChar c = true) :
    isBlank c = false := by
  simp only [isDateChar, Bool.or_eq_true, Bool.and_eq_true, decide_eq_true_eq, beq_iff_eq,
    Char.le_def, UInt32.le_iff_toNat_le] at h
  rcases h with (((hdigit | hletter) | rfl) | rfl) | rfl
  · exact isBlank_eq_false_of_isDigit hdigit
  · have hlow : 97 ≤ c.toNat := hletter.1
    have hhigh : c.toNat ≤ 122 := hletter.2
    exact isBlank_eq_false_of_le (by omega) (by omega)
  · decide
  · decide
  · decide

theorem isWord_of_isDatePart {s : String} (h : isDatePart s = true) : IsWord s := by
  rw [isDatePart, Bool.and_eq_true, Bool.not_eq_true', List.isEmpty_eq_false_iff] at h
  refine isWord_iff.mpr ⟨h.1, fun c hc => ?_⟩
  exact isBlank_eq_false_of_isDateChar (List.all_eq_true.mp h.2 c hc)

theorem isWord_of_isDate {date : String} (h : isDate date = true) : IsWord date := by
  refine @isWord_of_piecesOf '/' _ (by decide) ?_
  rw [isDate] at h
  split at h
  · next head part hpieces =>
    rw [Bool.and_eq_true] at h
    simpa [hpieces] using ⟨isWord_of_isDateHead h.1, isWord_of_isDatePart h.2⟩
  · next head part last hpieces =>
    simp only [Bool.and_eq_true] at h
    simpa [hpieces] using ⟨isWord_of_isDateHead h.1.1, isWord_of_isDatePart h.1.2,
      isWord_of_isDatePart h.2⟩
  · cases h

theorem isWord_of_mem_dayNames : ∀ day ∈ dayNames, IsWord day := by
  decide

/-- A date holds a slash. -/
theorem slash_mem_of_isDate {date : String} (h : isDate date = true) : '/' ∈ date.toList := by
  by_contra hslash
  rw [isDate, piecesOf, pieces_of_not_mem hslash] at h
  cases h

theorem isWord_of_areDays {days : String} (h : areDays days = true) : IsWord days := by
  rw [areDays] at h
  split at h
  · next first last hsplit =>
    simp only [Bool.and_eq_true, List.contains_iff_mem] at h
    exact isWord_of_splitOnce? hsplit (by decide)
      (isWord_iff.mp (isWord_of_mem_dayNames _ h.1)).2
      (isWord_iff.mp (isWord_of_mem_dayNames _ h.2)).2
  · refine @isWord_of_piecesOf ',' _ (by decide) fun piece hpiece => ?_
    have hday := List.all_eq_true.mp h piece hpiece
    exact isWord_of_mem_dayNames _ (List.contains_iff_mem.mp hday)

theorem isWord_ppAction (action : PpAction) : IsWord action.word := by
  cases action <;> decide

/-- What the rules say of a trigger. -/
def TriggerRules : Trigger → Prop
  | .startup => True
  | .daily time => isTime time = true
  | .dated date time => isDate date = true ∧ isTime time = true
  | .session days time _ => areDays days = true ∧ isTime time = true

theorem triggerRules_of_validate {s : Schedule} (h : validate s = none) :
    TriggerRules s.trigger := by
  have hrules := firstBroken_eq_none_iff.mp h
  rw [rules, List.forall_mem_cons] at hrules
  have hkept := hrules.2
  cases htrigger : s.trigger with
  | startup => trivial
  | daily time =>
    rw [htrigger] at hkept
    simp only [List.forall_mem_append, timeRules, List.forall_mem_singleton,
      Rule.demand_eq_none_iff] at hkept
    exact hkept.1
  | dated date time =>
    rw [htrigger] at hkept
    simp only [List.forall_mem_append, List.forall_mem_cons, timeRules,
      Rule.demand_eq_none_iff] at hkept
    exact ⟨hkept.1, hkept.2.1.1⟩
  | session days time action =>
    rw [htrigger] at hkept
    simp only [List.forall_mem_append, List.forall_mem_cons, timeRules,
      Rule.demand_eq_none_iff] at hkept
    exact ⟨hkept.1, hkept.2.1.1⟩

/-- **Every word of a trigger is a word.** -/
theorem isWord_of_mem_triggerWords {s : Schedule} (h : validate s = none) :
    ∀ w ∈ s.trigger.words, IsWord w := by
  have hkept := triggerRules_of_validate h
  cases htrigger : s.trigger with
  | startup =>
    simp only [Trigger.words, List.forall_mem_singleton]
    decide
  | daily time =>
    rw [htrigger] at hkept
    simpa [Trigger.words] using isWord_of_isTime hkept
  | dated date time =>
    rw [htrigger] at hkept
    simpa [Trigger.words] using ⟨isWord_of_isDate hkept.1, isWord_of_isTime hkept.2⟩
  | session days time action =>
    rw [htrigger] at hkept
    simpa [Trigger.words, isWord_ppAction] using
      ⟨isWord_of_areDays hkept.1, isWord_of_isTime hkept.2⟩

/-! ## Schedules of commands -/

/-- The schedule is for commands and not for a session. -/
def IsNumbered (s : Schedule) : Prop :=
  ∀ days time action, s.trigger ≠ .session days time action

theorem isNumbered_or (s : Schedule) :
    s.IsNumbered ∨ ∃ days time action, s.trigger = .session days time action := by
  by_cases h : s.IsNumbered
  · exact Or.inl h
  · exact Or.inr (by simpa [IsNumbered] using h)

/-- The words of the command that gives a schedule one of its own. -/
def commandWords (s : Schedule) (command : String) : List String :=
  s.leadWords ++ s.trigger.words ++ [command]

section Numbered

variable {s : Schedule}

theorem IsNumbered.key_eq (h : s.IsNumbered) : s.key = .numbered s.id := by
  unfold key
  split
  · next htrigger => exact absurd htrigger (h _ _ _)
  · rfl

theorem IsNumbered.leadWords_eq (h : s.IsNumbered) :
    s.leadWords = ["schedule", "at", numeral s.id] := by
  unfold leadWords
  split
  · next htrigger => exact absurd htrigger (h _ _ _)
  · rfl

theorem IsNumbered.setCommands_eq (h : s.IsNumbered) :
    s.setCommands = s.commands.map (fun command => phrase (s.commandWords command)) ++
      if s.enabled then [] else [phrase ("no" :: s.leadWords)] := by
  unfold setCommands
  split
  · next htrigger => exact absurd htrigger (h _ _ _)
  · rfl

/-- The rules for the commands are among the rules. -/
theorem IsNumbered.commandsRules_subset (h : s.IsNumbered) : s.commandsRules ⊆ s.rules := by
  unfold rules
  refine List.subset_cons_of_subset _ ?_
  split
  · exact List.Subset.refl _
  · exact List.subset_append_right _ _
  · exact List.subset_cons_of_subset _ (List.subset_append_right _ _)
  · next htrigger => exact absurd htrigger (h _ _ _)

/-- There is a command, and each one is text on one line. -/
theorem IsNumbered.commands_of_validate (h : s.IsNumbered) (hvalid : validate s = none) :
    s.commands ≠ [] ∧
      ∀ command ∈ s.commands, isBlankString command = false ∧ '\n' ∉ command.toList := by
  have hrules := firstBroken_eq_none_iff.mp hvalid
  have hkept : ∀ rule ∈ s.commandsRules, rule = none :=
    fun rule hrule => hrules rule (h.commandsRules_subset hrule)
  rw [commandsRules, List.forall_mem_cons, Rule.demand_eq_none_iff] at hkept
  refine ⟨by simpa using hkept.1, fun command hcommand => ?_⟩
  have hrule : ∀ rule ∈ commandRules command, rule = none :=
    fun rule hrule => hkept.2 rule (List.mem_flatMap.mpr ⟨command, hcommand, hrule⟩)
  simp only [commandRules, Rule.present, Rule.oneLine, List.forall_mem_cons,
    Rule.demand_eq_none_iff, Bool.not_eq_true'] at hrule
  exact ⟨hrule.1, by simpa [holds] using hrule.2.1⟩

/-- A schedule for a session has no commands and is carried out. -/
theorem of_validate_session {days time : String} {action : PpAction} (hvalid : validate s = none)
    (htrigger : s.trigger = .session days time action) : s.commands = [] ∧ s.enabled = true := by
  have hrules := firstBroken_eq_none_iff.mp hvalid
  rw [rules, List.forall_mem_cons, htrigger] at hrules
  simp only [List.forall_mem_append, List.forall_mem_cons, Rule.demand_eq_none_iff] at hrules
  exact ⟨List.isEmpty_iff.mp hrules.2.2.2.1, hrules.2.2.2.2.1⟩

end Numbered

/-! ## Lines -/

/-- What has to hold of the commands in a schedule.  Each ends like a line, and none
ends with the marker, apart from the last one of a schedule that is carried out,
behind which no further line stands. -/
def KeepsLines (s : Schedule) : Prop :=
  (∀ command ∈ s.commands, EndsLine command) ∧
    ∀ command ∈ if s.enabled then s.commands.dropLast else s.commands,
      command.toList.getLast? ≠ some marker

theorem startsWords_leadWords (s : Schedule) (ws : List String) :
    StartsWords (s.leadWords ++ ws) := by
  unfold leadWords
  split
  · exact startsWords_cons (by decide)
  · exact startsWords_cons (by decide)

theorem isWord_of_mem_leadWords (s : Schedule) : ∀ w ∈ s.leadWords, IsWord w := by
  have hnames : ∀ w ∈ ["schedule", "at", "pp"], IsWord w := by decide
  unfold leadWords
  split
  · simpa [isWord_numeral] using ⟨hnames "schedule" (by simp), hnames "pp" (by simp)⟩
  · simpa [isWord_numeral] using ⟨hnames "schedule" (by simp), hnames "at" (by simp)⟩

/-- The line of a command is as the command is. -/
theorem lineOf_commandWords {s : Schedule} (h : validate s = none) {last : String → Prop}
    {command : String} : LineOf last (s.commandWords command) ↔ last command := by
  rw [commandWords, lineOf_concat]
  refine and_iff_right fun w hw => ?_
  rcases List.mem_append.mp hw with hw | hw
  · exact (isWord_of_mem_leadWords s w hw).breakFree
  · exact (isWord_of_mem_triggerWords h w hw).breakFree

theorem startsWords_commandWords (s : Schedule) (command : String) :
    StartsWords (s.commandWords command) := by
  rw [commandWords, List.append_assoc]
  exact startsWords_leadWords s _

/-- The line that says that a schedule is not carried out is always right. -/
theorem lineOf_disable (s : Schedule) : LineOf EndsLine ("no" :: s.leadWords) := by
  have hwords : ∀ w ∈ "no" :: s.leadWords, IsWord w :=
    List.forall_mem_cons.mpr ⟨by decide, isWord_of_mem_leadWords s⟩
  exact lineOf_of_isWord (List.cons_ne_nil _ _) hwords fun w hw => endsLine_of_isWord (hwords w hw)

/-- The commands of a schedule that is not for a session. -/
theorem seenOneForOne_numbered_iff {s : Schedule} (h : validate s = none)
    (hne : s.commands ≠ []) :
    SeenOneForOne (s.commands.map (fun command => phrase (s.commandWords command)) ++
      if s.enabled then [] else [phrase ("no" :: s.leadWords)]) ↔ s.KeepsLines := by
  have hstarts : ∀ (commands : List String), ∀ ws ∈ commands.map s.commandWords,
      StartsWords ws := by
    intro commands ws hws
    obtain ⟨command, -, rfl⟩ := List.mem_map.mp hws
    exact startsWords_commandWords s command
  have hline : ∀ (commands : List String),
      (∀ ws ∈ commands.map s.commandWords, LineOf EndsCommand ws) ↔
        ∀ command ∈ commands, EndsCommand command := by
    intro commands
    rw [List.forall_mem_map]
    exact forall₂_congr fun command _ => lineOf_commandWords h
  by_cases henabled : s.enabled = true
  · have hsplit := List.dropLast_append_getLast hne
    have hseen := seenOneForOne_phrases (hstarts s.commands.dropLast)
      (startsWords_commandWords s (s.commands.getLast hne))
    rw [hline, lineOf_commandWords h, List.map_map] at hseen
    have hcommands : s.commands.map (fun command => phrase (s.commandWords command)) =
        s.commands.dropLast.map (phrase ∘ s.commandWords) ++
          [phrase (s.commandWords (s.commands.getLast hne))] := by
      conv_lhs => rw [← hsplit, List.map_append]
      rfl
    rw [if_pos henabled, List.append_nil, hcommands, hseen, KeepsLines, if_pos henabled]
    have hall : (∀ command ∈ s.commands, EndsLine command) ↔
        (∀ command ∈ s.commands.dropLast, EndsLine command) ∧
          EndsLine (s.commands.getLast hne) := by
      conv_lhs => rw [← hsplit]
      rw [List.forall_mem_append, List.forall_mem_singleton]
    rw [hall]
    constructor
    · rintro ⟨hfront, hlast⟩
      exact ⟨⟨fun c hc => (hfront c hc).1, hlast⟩, fun c hc => (hfront c hc).2⟩
    · rintro ⟨⟨hfront, hlast⟩, hmarker⟩
      exact ⟨fun c hc => ⟨hfront c hc, hmarker c hc⟩, hlast⟩
  · have hno : StartsWords ("no" :: "schedule" :: s.leadWords.tail) := startsWords_cons (by decide)
    have hseen := seenOneForOne_phrases (hstarts s.commands) hno
    have hlead : "no" :: "schedule" :: s.leadWords.tail = "no" :: s.leadWords := by
      unfold leadWords
      split <;> rfl
    rw [hlead, hline, List.map_map] at hseen
    rw [if_neg henabled]
    refine hseen.trans ?_
    rw [KeepsLines, if_neg henabled, and_iff_left (lineOf_disable s)]
    exact ⟨fun hall => ⟨fun c hc => (hall c hc).1, fun c hc => (hall c hc).2⟩,
      fun hall c hc => ⟨hall.1 c hc, hall.2 c hc⟩⟩

/-- **Exactly when the commands of a schedule are seen one for one.** -/
theorem encode_seenOneForOne_iff {s : Schedule} (h : validate s = none) :
    ∃ commands, encode s .set = .ok commands ∧ (SeenOneForOne commands ↔ s.KeepsLines) := by
  refine ⟨_, provided_of_none h _, ?_⟩
  rcases s.isNumbered_or with hnumbered | ⟨days, time, action, htrigger⟩
  · rw [hnumbered.setCommands_eq]
    exact seenOneForOne_numbered_iff h (hnumbered.commands_of_validate h).1
  · have hkeeps : s.KeepsLines := by
      simp [KeepsLines, (of_validate_session h htrigger).1]
    have hwords : ∀ w ∈ s.leadWords ++ s.trigger.words, IsWord w :=
      List.forall_mem_append.mpr ⟨isWord_of_mem_leadWords s, isWord_of_mem_triggerWords h⟩
    have hseen := seenOneForOne_phrase (startsWords_leadWords s _) hwords
    unfold setCommands
    rw [htrigger] at hseen ⊢
    exact iff_of_true hseen hkeeps

end RouterConfig.Schedule
