import RouterConfig.Proofs.Schedule.Lines
import RouterConfig.Proofs.Shares

/-!
# Schedules are merged number by number

The lines of a schedule stand anywhere in a text, among lines of other schedules.  What is
decoded for a number is one schedule or none: one, if some line gives it a command, no line
names the number and cannot be read, all commands have one trigger, and the schedule that
they make breaks no rule.  Its commands are then those of its lines in their order, and it is
carried out unless some line, wherever it stands, says that it is not.

A line is looked at in three ways, for the command that it gives (`commandFor?`), for spoiling
the schedule (`spoils`), and for saying that it is not carried out (`disables`).  Each line is
about one number at most (`number?`), and lines about other numbers have no part in a schedule.
-/

namespace RouterConfig.Schedule

open Text

/-! ## What a line says of a number -/

/-- The trigger and the command that a line gives to the schedule of this number. -/
def commandFor? (id : UInt32) (text : String) : Option (Trigger × String) :=
  (afterLead? "schedule at " text).bind fun rest =>
    match readCommand rest with
    | .ok (.command n trigger command) => if n = id then some (trigger, command) else none
    | _ => none

/-- The line starts like one of the schedule of this number and cannot be read. -/
def spoils (id : UInt32) (text : String) : Bool :=
  (afterLead? "schedule at " text).any fun rest =>
    (readCommand rest).toOption.isNone && namedId? text == some id

/-- The line says that the schedule of this number is not carried out. -/
def disables (id : UInt32) (text : String) : Bool :=
  (afterLead? "no schedule at " text).any fun rest => readNumber? (trimmed rest) == some id

/-- The number that a line is about. -/
def number? (text : String) : Option UInt32 :=
  match afterLead? "no schedule at " text with
  | some rest => readNumber? (trimmed rest)
  | none =>
    (afterLead? "schedule at " text).bind fun rest =>
      match readCommand rest with
      | .ok (.command n _ _) => some n
      | _ => namedId? text

/-- The lines about a number. -/
def linesAbout (id : UInt32) (lines : List Line) : List Line :=
  lines.filter fun line => number? line.text = some id

/-- What the lines give to the schedule of this number, in their order. -/
def commandsFor (id : UInt32) (lines : List Line) : List (Trigger × String) :=
  lines.filterMap fun line => commandFor? id line.text

/-- The schedule of this number that the lines make, if its trigger is given. -/
def merged (id : UInt32) (lines : List Line) (trigger : Trigger) : Schedule where
  id := id
  trigger := trigger
  commands := (commandsFor id lines).map Prod.snd
  enabled := !lines.any fun line => disables id line.text

/-! ## What is read from a line -/

/-- A trigger that is read is not one of a session. -/
theorem readTrigger_ne_session {word rest command : String} {trigger : Trigger}
    (h : readTrigger word rest = .ok (trigger, command)) (days time : String) (action : PpAction) :
    trigger ≠ .session days time action := by
  revert h
  fun_cases readTrigger word rest
  all_goals intro h
  all_goals cases h
  all_goals exact Trigger.noConfusion

/-- What follows `schedule at` is read as a command, for no session. -/
theorem of_readCommand {text : String} {statement : Statement}
    (h : readCommand text = .ok statement) :
    ∃ id trigger command, statement = .command id trigger command ∧
      ∀ days time action, trigger ≠ .session days time action := by
  rw [readCommand] at h
  obtain ⟨⟨number, rest⟩, -, h⟩ := bind_eq_ok_iff.mp h
  obtain ⟨⟨word, rest⟩, -, h⟩ := bind_eq_ok_iff.mp h
  obtain ⟨id, -, h⟩ := bind_eq_ok_iff.mp h
  obtain ⟨⟨trigger, command⟩, htrigger, h⟩ := bind_eq_ok_iff.mp h
  simp only at h
  split at h
  · cases h
  · cases h
    exact ⟨id, trigger, _, rfl, readTrigger_ne_session htrigger⟩

/-- What follows `schedule pp` is read as a schedule for a session. -/
theorem of_readSession {text : String} {statement : Statement}
    (h : readSession text = .ok statement) :
    ∃ pp days time action, statement = .session (ofSession pp days time action) := by
  rw [readSession] at h
  split at h
  · split at h
    · obtain ⟨pp, -, h⟩ := bind_eq_ok_iff.mp h
      simp only at h
      split at h
      · cases h
      · obtain ⟨action, -, h⟩ := bind_eq_ok_iff.mp h
        cases h
        exact ⟨_, _, _, _, rfl⟩
    · cases h
  · cases h

/-- A line is read in one of three ways, by what it starts with, or not at all. -/
theorem readLine?_cases (line : Line) :
    (∃ rest, afterLead? "no schedule at " line.text = some rest ∧
      afterLead? "schedule at " line.text = none ∧
      readLine? line = some ⟨line, (readNumber "schedule id" (trimmed rest)).map .disable, none⟩) ∨
    (∃ rest, afterLead? "no schedule at " line.text = none ∧
      afterLead? "schedule at " line.text = some rest ∧
      readLine? line = some ⟨line, readCommand rest, namedId? line.text⟩) ∨
    (afterLead? "no schedule at " line.text = none ∧
      afterLead? "schedule at " line.text = none ∧
      ∀ r ∈ readLine? line, ∃ rest, r = ⟨line, readSession rest, none⟩) := by
  rw [readLine?]
  cases hdisable : afterLead? "no schedule at " line.text with
  | some rest =>
    have hcommand : afterLead? "schedule at " line.text = none :=
      afterLead?_of_apart (by decide) (toList_of_afterLead? hdisable)
    exact Or.inl ⟨rest, rfl, hcommand, rfl⟩
  | none =>
    cases hsession : afterLead? "schedule pp " line.text with
    | some rest =>
      have hcommand : afterLead? "schedule at " line.text = none :=
        afterLead?_of_apart (by decide) (toList_of_afterLead? hsession)
      refine Or.inr (Or.inr ⟨rfl, hcommand, ?_⟩)
      rintro _ ⟨⟩
      exact ⟨rest, rfl⟩
    | none =>
      cases hcommand : afterLead? "schedule at " line.text with
      | some rest => exact Or.inr (Or.inl ⟨rest, rfl, rfl, rfl⟩)
      | none => exact Or.inr (Or.inr ⟨rfl, rfl, by simp⟩)

/-! ## Lines and what is read from them -/

/-- The trigger and the command that a reading gives to the schedule of this number. -/
def Reading.commandFor? (id : UInt32) (r : Reading) : Option (Trigger × String) :=
  match r.content with
  | .ok (.command n trigger command) => if n = id then some (trigger, command) else none
  | _ => none

/-- The line could not be read and names the schedule of this number. -/
def Reading.spoilsFor (id : UInt32) (r : Reading) : Bool :=
  r.content.toOption.isNone && r.spoils == some id

theorem Reading.offers_eq (id : UInt32) (r : Reading) :
    r.triggerOf? id = (r.commandFor? id).map Prod.fst ∧
      r.commandOf? id = (r.commandFor? id).map Prod.snd := by
  obtain ⟨line, content, spoils⟩ := r
  cases content with
  | error fault => exact ⟨rfl, rfl⟩
  | ok statement =>
    cases statement with
    | command n trigger command =>
      by_cases hn : n = id <;> simp [Reading.triggerOf?, Reading.commandOf?, commandFor?, hn]
    | disable n => exact ⟨rfl, rfl⟩
    | session s => exact ⟨rfl, rfl⟩

/-- **What a line says of a number** is told by what is read from it. -/
theorem says_eq (id : UInt32) (line : Line) :
    commandFor? id line.text = (readLine? line).bind (Reading.commandFor? id) ∧
      disables id line.text = (readLine? line).any (Reading.disables id) ∧
      spoils id line.text = (readLine? line).any (Reading.spoilsFor id) := by
  rw [commandFor?, disables, spoils]
  rcases readLine?_cases line with ⟨rest, hdisable, hcommand, hread⟩ |
    ⟨rest, hdisable, hcommand, hread⟩ | ⟨hdisable, hcommand, hread⟩
  · rw [hdisable, hcommand, hread, Option.any_some, Option.any_some, Option.any_some,
      Reading.disables, readNumber]
    cases readNumber? (trimmed rest) with
    | none => exact ⟨rfl, rfl, rfl⟩
    | some n => exact ⟨rfl, rfl, rfl⟩
  · rw [hdisable, hcommand, hread, Option.any_some, Option.any_some, Option.any_some,
      Reading.disables]
    refine ⟨rfl, ?_, rfl⟩
    cases hcontent : readCommand rest with
    | error fault => rfl
    | ok statement =>
      obtain ⟨_, _, _, rfl, -⟩ := of_readCommand hcontent
      rfl
  · rw [hdisable, hcommand]
    cases hr : readLine? line with
    | none => exact ⟨rfl, rfl, rfl⟩
    | some r =>
      obtain ⟨rest, rfl⟩ := hread r hr
      rw [Option.bind_some, Option.any_some, Option.any_some, Reading.commandFor?,
        Reading.disables]
      cases hcontent : readSession rest with
      | error fault => exact ⟨rfl, rfl, rfl⟩
      | ok statement =>
        obtain ⟨_, _, _, _, rfl⟩ := of_readSession hcontent
        exact ⟨rfl, rfl, rfl⟩

/-- What is read from the lines, in their order. -/
def readings (lines : List Line) : List Reading :=
  lines.filterMap readLine?

theorem filterMap_readings (id : UInt32) (lines : List Line) :
    (readings lines).filterMap (Reading.commandFor? id) = commandsFor id lines := by
  rw [readings, List.filterMap_filterMap, commandsFor]
  exact List.filterMap_congr fun line _ => (says_eq id line).1.symm

theorem any_readings {p : Reading → Bool} {q : String → Bool} {lines : List Line}
    (h : ∀ line : Line, q line.text = (readLine? line).any p) :
    (readings lines).any p = lines.any fun line => q line.text := by
  rw [readings, List.any_filterMap]
  refine congrArg lines.any (funext fun line => ?_)
  rw [h line]
  cases readLine? line <;> rfl

/-- What is read about a number has a trigger of its own kind, and what is read about a session
has no number. -/
theorem of_mem_readings {lines : List Line} {r : Reading} (h : r ∈ readings lines) :
    (∀ n trigger command, r.content = .ok (.command n trigger command) →
      ∀ days time action, trigger ≠ .session days time action) ∧
      ∀ s, r.content = .ok (.session s) → ∀ id, s.key ≠ .numbered id := by
  obtain ⟨line, -, hread⟩ := List.mem_filterMap.mp h
  rcases readLine?_cases line with ⟨rest, -, -, hline⟩ | ⟨rest, -, -, hline⟩ | ⟨-, -, hline⟩
  · obtain rfl := Option.some.inj (hline.symm.trans hread)
    constructor
    · intro n trigger command hcontent
      obtain ⟨_, -, hstatement⟩ := map_eq_ok_iff.mp hcontent
      cases hstatement
    · intro s hcontent
      obtain ⟨_, -, hstatement⟩ := map_eq_ok_iff.mp hcontent
      cases hstatement
  · obtain rfl := Option.some.inj (hline.symm.trans hread)
    constructor
    · intro n trigger command hcontent
      obtain ⟨_, _, _, hstatement, htrigger⟩ := of_readCommand hcontent
      cases hstatement
      exact htrigger
    · intro s hcontent
      obtain ⟨_, _, _, hstatement, -⟩ := of_readCommand hcontent
      cases hstatement
  · obtain ⟨rest, rfl⟩ := hline r hread
    constructor
    · intro n trigger command hcontent
      obtain ⟨_, _, _, _, hstatement⟩ := of_readSession hcontent
      cases hstatement
    · intro s hcontent id hkey
      obtain ⟨_, _, _, _, hstatement⟩ := of_readSession hcontent
      cases hstatement
      cases hkey

/-! ## Schedules that are spoiled -/

/-- The faulty lines, each with its fault and the key that it spoils. -/
def faults (rs : List Reading) : List (Line × LineFault × Option ScheduleKey) :=
  (withEarlier [] rs).filterMap fun p => (p.2.fault? p.1).map fun fault => (p.2.line, fault)

/-- The keys of the schedules that some line spoils. -/
def spoiledKeys (rs : List Reading) : List ScheduleKey :=
  (faults rs).filterMap fun f => f.2.2

theorem mem_spoiledKeys_iff {rs : List Reading} {k : ScheduleKey} :
    k ∈ spoiledKeys rs ↔
      ∃ front r back, rs = front ++ r :: back ∧ ∃ fault, r.fault? front = some (fault, some k) := by
  rw [spoiledKeys, faults, List.filterMap_filterMap, mem_filterMap_withEarlier]
  refine exists₃_congr fun front r back => and_congr_right fun _ => ?_
  cases r.fault? front with
  | none => simp
  | some found =>
    obtain ⟨fault, key⟩ := found
    simp

/-- A line spoils a number by being about it and unreadable, or by another trigger than the
first before it. -/
theorem exists_fault?_iff {lines : List Line} {r : Reading} (hr : r ∈ readings lines)
    (front : List Reading) (id : UInt32) :
    (∃ fault, r.fault? front = some (fault, some (.numbered id))) ↔
      r.spoilsFor id = true ∨
        ∃ trigger ∈ r.triggerOf? id, ∃ inForce ∈ front.findSome? (Reading.triggerOf? id),
          inForce ≠ trigger := by
  have hread := of_mem_readings hr
  obtain ⟨line, content, spoils⟩ := r
  cases content with
  | error fault =>
    simp [Reading.fault?, Reading.spoilsFor, Reading.triggerOf?, Except.toOption]
  | ok statement =>
    cases statement with
    | disable n => simp [Reading.fault?, Reading.spoilsFor, Reading.triggerOf?, Except.toOption]
    | session s =>
      have hkey := hread.2 s rfl id
      simp only [Reading.fault?, Reading.spoilsFor, Reading.triggerOf?, Except.toOption]
      split <;> simp [hkey]
    | command n trigger command =>
      by_cases hn : n = id
      · subst hn
        simp only [Reading.fault?, Reading.spoilsFor, Except.toOption, Option.isNone_some,
          Bool.false_and, Bool.false_eq_true, false_or]
        rw [show Reading.triggerOf? n ⟨line, .ok (.command n trigger command), spoils⟩ =
          some trigger from if_pos rfl]
        cases front.findSome? (Reading.triggerOf? n) with
        | none => simp
        | some inForce => by_cases htrigger : inForce = trigger <;> simp [htrigger]
      · have hnone : Reading.triggerOf? id ⟨line, .ok (.command n trigger command), spoils⟩ =
            none := if_neg hn
        simp only [Reading.fault?, Reading.spoilsFor, Except.toOption, hnone]
        cases front.findSome? (Reading.triggerOf? n) with
        | none => simp
        | some inForce => by_cases htrigger : inForce = trigger <;> simp [htrigger, hn]

/-- Each that gives something gives what the first one before it gives, exactly if all give the
same. -/
theorem forall_findSome?_iff {α β : Type} {f : α → Option β} {l : List α} :
    (∀ front a back, l = front ++ a :: back → ∀ b ∈ f a, ∀ c ∈ front.findSome? f, c = b) ↔
      ∀ b ∈ l.filterMap f, l.findSome? f = some b := by
  constructor
  · intro h b hb
    obtain ⟨a, ha, hab⟩ := List.mem_filterMap.mp hb
    obtain ⟨front, back, hl⟩ := List.append_of_mem ha
    have hfront := h front a back hl b hab
    rw [hl, List.findSome?_append, List.findSome?_cons, hab]
    cases hfound : front.findSome? f with
    | none => rfl
    | some c => rw [hfront c hfound, Option.some_or]
  · rintro h front a back rfl b hb c hc
    have hfirst := h b (List.mem_filterMap.mpr ⟨a, by simp, hb⟩)
    rw [List.findSome?_append, hc, Option.some_or] at hfirst
    exact Option.some.inj hfirst

/-- The triggers that are read are those of the commands. -/
theorem filterMap_triggerOf? (id : UInt32) (lines : List Line) :
    (readings lines).filterMap (Reading.triggerOf? id) = (commandsFor id lines).map Prod.fst := by
  rw [← filterMap_readings, List.map_filterMap]
  exact List.filterMap_congr fun r _ => (r.offers_eq id).1

/-- All commands have one trigger exactly if none has another one than the first before it. -/
theorem exists_trigger_iff {id : UInt32} {lines : List Line} :
    (∃ trigger, ∀ c ∈ commandsFor id lines, c.1 = trigger) ↔
      ∀ front r back, readings lines = front ++ r :: back → ∀ trigger ∈ r.triggerOf? id,
        ∀ inForce ∈ front.findSome? (Reading.triggerOf? id), inForce = trigger := by
  rw [forall_findSome?_iff, ← List.head?_filterMap, filterMap_triggerOf?, List.forall_mem_map]
  cases commandsFor id lines with
  | nil => exact iff_of_true ⟨.startup, by simp⟩ (by simp)
  | cons first others =>
    rw [List.map_cons, List.head?_cons]
    constructor
    · rintro ⟨trigger, h⟩ c hc
      rw [h first (List.mem_cons_self ..), h c hc]
    · intro h
      exact ⟨first.1, fun c hc => (Option.some.inj (h c hc)).symm⟩

/-- **A number is spoiled** by a line about it that cannot be read, or by two triggers. -/
theorem mem_spoiledKeys_readings_iff {id : UInt32} {lines : List Line} :
    .numbered id ∈ spoiledKeys (readings lines) ↔
      (∃ line ∈ lines, spoils id line.text = true) ∨
        ¬ ∃ trigger, ∀ c ∈ commandsFor id lines, c.1 = trigger := by
  have hspoils : (∃ line ∈ lines, spoils id line.text = true) ↔
      ∃ r ∈ readings lines, r.spoilsFor id = true := by
    rw [← List.any_eq_true, ← List.any_eq_true, any_readings fun line => (says_eq id line).2.2]
  rw [mem_spoiledKeys_iff, hspoils, exists_trigger_iff]
  push Not
  constructor
  · rintro ⟨front, r, back, hrs, hfault⟩
    have hr : r ∈ readings lines := by simp [hrs]
    rcases (exists_fault?_iff hr front id).mp hfault with hspoiled | hother
    · exact Or.inl ⟨r, hr, hspoiled⟩
    · exact Or.inr ⟨front, r, back, hrs, hother⟩
  · rintro (⟨r, hr, hspoiled⟩ | ⟨front, r, back, hrs, hother⟩)
    · obtain ⟨front, back, hrs⟩ := List.append_of_mem hr
      exact ⟨front, r, back, hrs, (exists_fault?_iff hr front id).mpr (Or.inl hspoiled)⟩
    · have hr : r ∈ readings lines := by simp [hrs]
      exact ⟨front, r, back, hrs, (exists_fault?_iff hr front id).mpr (Or.inr hother)⟩

/-! ## The schedule of a number -/

/-- The schedules that the lines open, each with its line. -/
def openings (rs : List Reading) : List (Line × Schedule) :=
  rs.filterMap fun r => (collect rs r).map fun s => (r.line, s)

/-- A line opens the schedule of a number by giving it a command, and then all lines are in
it. -/
theorem filter_collect {id : UInt32} {lines : List Line} {r : Reading} (hr : r ∈ readings lines) :
    (collect (readings lines) r).filter (fun s => s.key = .numbered id) =
      (r.commandFor? id).map fun c => merged id lines c.1 := by
  have hread := of_mem_readings hr
  have hcommands : (readings lines).filterMap (Reading.commandOf? id) =
      (commandsFor id lines).map Prod.snd := by
    rw [← filterMap_readings, List.map_filterMap]
    exact List.filterMap_congr fun r _ => (r.offers_eq id).2
  have henabled : (readings lines).any (Reading.disables id) =
      lines.any fun line => disables id line.text :=
    any_readings fun line => (says_eq id line).2.1
  obtain ⟨line, content, spoils⟩ := r
  cases content with
  | error fault => rfl
  | ok statement =>
    cases statement with
    | disable n => rfl
    | session s =>
      rw [collect, Option.filter_some, if_neg (by simpa using hread.2 s rfl id)]
      rfl
    | command n trigger command =>
      have hkey : ∀ commands enabled, key ⟨n, trigger, commands, enabled⟩ = .numbered n :=
        fun _ _ => IsNumbered.key_eq (hread.1 n trigger command rfl)
      have hoffer : Reading.commandFor? id ⟨line, .ok (.command n trigger command), spoils⟩ =
          if n = id then some (trigger, command) else none := rfl
      rw [collect, Option.filter_some, hkey, hoffer]
      by_cases hn : n = id
      · subst hn
        rw [if_pos (by simp), if_pos rfl, hcommands, henabled]
        rfl
      · rw [if_neg (by simpa using hn), if_neg hn]
        rfl

/-- The schedules of a number that are opened are all lines put together, once for each command. -/
theorem map_openings (id : UInt32) (lines : List Line) :
    ((openings (readings lines)).filter fun p => p.2.key = .numbered id).map Prod.snd =
      (commandsFor id lines).map fun c => merged id lines c.1 := by
  rw [openings, List.filter_filterMap, List.map_filterMap, ← filterMap_readings,
    List.map_filterMap]
  refine List.filterMap_congr fun r hr => ?_
  rw [← filter_collect hr]
  cases collect (readings lines) r with
  | none => rfl
  | some s =>
    rw [Option.map_some, Option.filter_some, Option.filter_some]
    by_cases hkey : s.key = .numbered id
    · rw [if_pos (by simpa using hkey), if_pos (by simpa using hkey), Option.map_some]
    · rw [if_neg (by simpa using hkey), if_neg (by simpa using hkey), Option.map_none]

/-- **The records of a number**: none, if it is spoiled, and otherwise the schedule that its lines
make with the first trigger, if it breaks no rule. -/
theorem records_of_number (id : UInt32) (lines : List Line) :
    ((decodeLines lines).records.filter fun s => s.key = .numbered id) =
      if .numbered id ∈ spoiledKeys (readings lines) then []
      else ((commandsFor id lines).head?.map fun c => merged id lines c.1).toList.filter fun s =>
        (validate s).isNone := by
  have hrecords : (decodeLines lines).records = (Decoded.concat
      (((firstOfEach (fun p : Line × Schedule => p.2.key) (openings (readings lines))).filter
        fun p => !(spoiledKeys (readings lines)).contains p.2.key).map fun p =>
          .checked featureName validate p.1 p.2)).records := by
    rw [decodeLines, Decoded.records_append, Decoded.records_concat_eq_nil, List.nil_append]
    · rfl
    · rw [List.forall_mem_map]
      exact fun _ _ => rfl
  rw [hrecords, Decoded.filter_records_firstOfEach _ (fun _ _ => rfl), ← List.head?_filter,
    ← List.head?_map, map_openings, List.head?_map]

/-! ## What is decoded for each number -/

/-- What is decoded for a number from lines. -/
structure MergesTo (id : UInt32) (lines : List Line) (d : Decoded Schedule) : Prop where
  /-- There is a record exactly if some line gives a command, no line about the number is
  unreadable, all commands have one trigger, and what they make breaks no rule. -/
  exists_record_iff : (∃ s ∈ d.records, s.key = .numbered id) ↔
    commandsFor id lines ≠ [] ∧ (∀ line ∈ lines, spoils id line.text = false) ∧
      ∃ trigger, (∀ c ∈ commandsFor id lines, c.1 = trigger) ∧
        validate (merged id lines trigger) = none
  /-- It is the only one, and it has the trigger of all commands and the commands in order. -/
  record_eq : ∀ s ∈ d.records, s.key = .numbered id →
    (d.records.filter fun r => r.key = .numbered id) = [s] ∧ s.id = id ∧
      (∀ c ∈ commandsFor id lines, c.1 = s.trigger) ∧
      s.commands = (commandsFor id lines).map Prod.snd
  /-- It is not carried out exactly if some line, before or behind, says so. -/
  disabled_iff : ∀ s ∈ d.records, s.key = .numbered id →
    (s.enabled = false ↔ ∃ line ∈ lines, disables id line.text = true)

section Records

variable {id : UInt32} {lines : List Line}

/-- A number is not spoiled when all lines about it can be read and have one trigger. -/
theorem not_mem_spoiledKeys_iff :
    .numbered id ∉ spoiledKeys (readings lines) ↔
      (∀ line ∈ lines, spoils id line.text = false) ∧
        ∃ trigger, ∀ c ∈ commandsFor id lines, c.1 = trigger := by
  rw [mem_spoiledKeys_readings_iff, not_or, not_not]
  simp only [not_exists, not_and, Bool.not_eq_true]

/-- A record of the number is all of its lines put together. -/
theorem of_mem_records {s : Schedule} (hs : s ∈ (decodeLines lines).records)
    (hkey : s.key = .numbered id) :
    ((decodeLines lines).records.filter fun r => r.key = .numbered id) = [s] ∧
      commandsFor id lines ≠ [] ∧ (∀ line ∈ lines, spoils id line.text = false) ∧
      (∀ c ∈ commandsFor id lines, c.1 = s.trigger) ∧ s = merged id lines s.trigger ∧
      validate s = none := by
  have hmem : s ∈ (decodeLines lines).records.filter fun r => r.key = .numbered id :=
    List.mem_filter.mpr ⟨hs, decide_eq_true hkey⟩
  rw [records_of_number] at hmem ⊢
  split at hmem
  · cases hmem
  · next hspoiled =>
    obtain ⟨hreadable, trigger, htrigger⟩ := not_mem_spoiledKeys_iff.mp hspoiled
    rw [if_neg hspoiled]
    cases hcommands : commandsFor id lines with
    | nil =>
      rw [hcommands] at hmem
      cases hmem
    | cons first others =>
      rw [hcommands, List.head?_cons, Option.map_some, Option.toList_some] at hmem
      obtain ⟨hsingle, hvalid⟩ := List.mem_filter.mp hmem
      obtain rfl := List.mem_singleton.mp hsingle
      have hfirst : first.1 = trigger := htrigger first (hcommands ▸ List.mem_cons_self ..)
      refine ⟨?_, List.cons_ne_nil _ _, hreadable, ?_, rfl, Option.isNone_iff_eq_none.mp hvalid⟩
      · rw [List.head?_cons, Option.map_some, Option.toList_some, List.filter_singleton, hvalid]
        rfl
      · intro c hc
        rw [htrigger c (hcommands ▸ hc)]
        exact hfirst.symm

/-- Lines that can be read, with one trigger, make a record if it breaks no rule. -/
theorem mem_records_of_merged {trigger : Trigger} (hne : commandsFor id lines ≠ [])
    (hreadable : ∀ line ∈ lines, spoils id line.text = false)
    (htrigger : ∀ c ∈ commandsFor id lines, c.1 = trigger)
    (hvalid : validate (merged id lines trigger) = none) :
    merged id lines trigger ∈ (decodeLines lines).records.filter fun s => s.key = .numbered id := by
  obtain ⟨first, others, hcommands⟩ := List.exists_cons_of_ne_nil hne
  have hfirst : first.1 = trigger := htrigger first (hcommands ▸ List.mem_cons_self ..)
  rw [records_of_number, if_neg (not_mem_spoiledKeys_iff.mpr ⟨hreadable, trigger, htrigger⟩),
    hcommands, List.head?_cons, Option.map_some, hfirst, Option.toList_some]
  exact List.mem_filter.mpr ⟨List.mem_singleton_self _, Option.isNone_iff_eq_none.mpr hvalid⟩

theorem mergesTo_decodeLines (id : UInt32) (lines : List Line) :
    MergesTo id lines (decodeLines lines) := by
  refine ⟨⟨?_, ?_⟩, fun s hs hkey => ?_, fun s hs hkey => ?_⟩
  · rintro ⟨s, hs, hkey⟩
    obtain ⟨-, hne, hreadable, htrigger, hmerged, hvalid⟩ := of_mem_records hs hkey
    exact ⟨hne, hreadable, s.trigger, htrigger, hmerged ▸ hvalid⟩
  · rintro ⟨hne, hreadable, trigger, htrigger, hvalid⟩
    have hmem := List.mem_filter.mp (mem_records_of_merged hne hreadable htrigger hvalid)
    exact ⟨_, hmem.1, of_decide_eq_true hmem.2⟩
  · obtain ⟨hsingle, -, -, htrigger, hmerged, -⟩ := of_mem_records hs hkey
    exact ⟨hsingle, congrArg Schedule.id hmerged, htrigger, congrArg Schedule.commands hmerged⟩
  · obtain ⟨-, -, -, -, hmerged, -⟩ := of_mem_records hs hkey
    rw [congrArg Schedule.enabled hmerged, merged, Bool.not_eq_false', List.any_eq_true]

end Records

/-! ## Lines about other numbers -/

/-- **A line is about a number** by giving a command to its schedule, by spoiling it, or by saying
that it is not carried out. -/
theorem number?_eq_some_iff {id : UInt32} {text : String} :
    number? text = some id ↔
      (commandFor? id text).isSome = true ∨ spoils id text = true ∨ disables id text = true := by
  rw [number?, commandFor?, spoils, disables]
  cases hdisable : afterLead? "no schedule at " text with
  | some rest =>
    have hcommand : afterLead? "schedule at " text = none :=
      afterLead?_of_apart (by decide) (toList_of_afterLead? hdisable)
    simp [hcommand]
  | none =>
    cases afterLead? "schedule at " text with
    | none => simp
    | some rest =>
      simp only [Option.bind_some, Option.any_some, Option.any_none]
      cases hcontent : readCommand rest with
      | error fault => simp [Except.toOption]
      | ok statement =>
        obtain ⟨n, trigger, command, rfl, -⟩ := of_readCommand hcontent
        by_cases hn : n = id <;> simp [hn, Except.toOption]

/-- A line about a session is about no number. -/
theorem number?_of_session {text : String} (h : startsWith "schedule pp " text = true) :
    number? text = none := by
  obtain ⟨rest, hrest⟩ := startsWith_eq_true_iff.mp h
  rw [number?, afterLead?_of_apart (by decide) hrest, afterLead?_of_apart (by decide) hrest]
  rfl

section Others

variable (id : UInt32) (lines : List Line)

/-- What is not about a number says nothing of it. -/
theorem says_nothing {text : String} (h : number? text ≠ some id) :
    commandFor? id text = none ∧ spoils id text = false ∧ disables id text = false := by
  rw [ne_eq, number?_eq_some_iff] at h
  simpa [not_or] using h

theorem commandsFor_linesAbout : commandsFor id (linesAbout id lines) = commandsFor id lines := by
  rw [commandsFor, linesAbout, List.filterMap_filter]
  refine List.filterMap_congr fun line _ => ?_
  split
  · rfl
  · next h => exact (says_nothing id (by simpa using h)).1.symm

theorem any_linesAbout {p : String → Bool} (h : ∀ text, number? text ≠ some id → p text = false) :
    ((linesAbout id lines).any fun line => p line.text) = lines.any fun line => p line.text := by
  rw [linesAbout, List.any_filter]
  refine congrArg lines.any (funext fun line => ?_)
  by_cases hline : number? line.text = some id
  · rw [decide_eq_true hline, Bool.true_and]
  · rw [decide_eq_false hline, Bool.false_and, h _ hline]

/-- **The records of a number** are decoded from the lines about it. -/
theorem records_linesAbout :
    ((decodeLines (linesAbout id lines)).records.filter fun s => s.key = .numbered id) =
      (decodeLines lines).records.filter fun s => s.key = .numbered id := by
  have hmerged : merged id (linesAbout id lines) = merged id lines := by
    funext trigger
    rw [merged, commandsFor_linesAbout, any_linesAbout id lines fun _ h => (says_nothing id h).2.2]
    rfl
  have hspoiled : .numbered id ∈ spoiledKeys (readings (linesAbout id lines)) ↔
      .numbered id ∈ spoiledKeys (readings lines) := by
    rw [mem_spoiledKeys_readings_iff, mem_spoiledKeys_readings_iff, commandsFor_linesAbout,
      ← List.any_eq_true, ← List.any_eq_true,
      any_linesAbout id lines fun _ h => (says_nothing id h).2.1]
  rw [records_of_number, records_of_number]
  simp only [hspoiled, commandsFor_linesAbout, hmerged]

end Others

/-- **Schedules are merged number by number.**  The lines of a number make one schedule or none,
with all commands in order, and not carried out if any of the lines says so.  Lines about other
numbers and about sessions have no part in it. -/
theorem schedules_merge_by_number (id : UInt32) (lines : List Line) :
    MergesTo id lines (decodeLines lines) ∧
      (∀ others, linesAbout id others = linesAbout id lines →
        ((decodeLines others).records.filter fun s => s.key = .numbered id) =
          (decodeLines lines).records.filter fun s => s.key = .numbered id) ∧
      (∀ text, number? text = some id ↔
        (commandFor? id text).isSome = true ∨ spoils id text = true ∨
          disables id text = true) ∧
      ∀ text, startsWith "schedule pp " text = true → number? text = none := by
  refine ⟨mergesTo_decodeLines id lines, fun others hsame => ?_, fun _ => number?_eq_some_iff,
    fun _ => number?_of_session⟩
  rw [← records_linesAbout id others, hsame, records_linesAbout]

/-- The lines about one number, of which one says that it is not carried out. -/
def stoppedLines : List Line :=
  [⟨1, 0, "no schedule at 1"⟩, ⟨2, 0, "schedule at 1 startup lua /start.lua"⟩,
    ⟨6, 0, "schedule at 1 startup syslog debug on"⟩]

/-- The same among lines about another number, of which one cannot be read, and a session. -/
def mixedLines : List Line :=
  stoppedLines.take 2 ++ [⟨3, 0, "schedule at 2 12:00 clear arp"⟩, ⟨4, 0, "schedule at 2 12:00"⟩,
    ⟨5, 0, "schedule pp 1 mon 8:00 connect"⟩] ++ stoppedLines.drop 2

theorem schedules_merge_by_number_mixed :
    linesAbout 1 stoppedLines = linesAbout 1 mixedLines ∧
    startsWith "schedule pp " "schedule pp 1 mon 8:00 connect" = true ∧
    number? "schedule pp 1 mon 8:00 connect" = none ∧
    ((decodeLines mixedLines).records.filter fun s => s.key = .numbered 1) =
      [⟨1, .startup, ["lua /start.lua", "syslog debug on"], false⟩] ∧
    (¬ ∃ s ∈ (decodeLines mixedLines).records, s.key = .numbered 2) ∧
    ((decodeLines stoppedLines).records.filter fun s => s.key = .numbered 1) =
      (decodeLines mixedLines).records.filter fun s => s.key = .numbered 1 := by
  have hsame : linesAbout 1 stoppedLines = linesAbout 1 mixedLines := by decide +kernel
  have hsession : startsWith "schedule pp " "schedule pp 1 mon 8:00 connect" = true := by
    decide +kernel
  have hcommands : commandsFor 1 mixedLines =
      [(.startup, "lua /start.lua"), (.startup, "syslog debug on")] := by decide +kernel
  have hreadable : ∀ line ∈ mixedLines, spoils 1 line.text = false := by decide +kernel
  have hstopped : ∃ line ∈ mixedLines, disables 1 line.text = true := by decide +kernel
  have hunread : ¬ ∀ line ∈ mixedLines, spoils 2 line.text = false := by decide +kernel
  have hvalid : validate (merged 1 mixedLines .startup) = none := by decide +kernel
  obtain ⟨hfirst, hindependent, -, hsessions⟩ := schedules_merge_by_number 1 mixedLines
  obtain ⟨hsecond, -⟩ := schedules_merge_by_number 2 mixedLines
  obtain ⟨⟨id, trigger, commands, enabled⟩, hs, hkey⟩ := hfirst.exists_record_iff.mpr
    ⟨by simp [hcommands], hreadable, .startup, by simp [hcommands], hvalid⟩
  obtain ⟨hsingle, hid, htrigger, hall⟩ := hfirst.record_eq _ hs hkey
  have hdisabled := (hfirst.disabled_iff _ hs hkey).mpr hstopped
  simp only [hcommands, List.forall_mem_cons, List.map_cons, List.map_nil] at htrigger hall
  simp only at hid hdisabled
  refine ⟨hsame, hsession, hsessions _ hsession, ?_, ?_, hindependent _ hsame⟩
  · rw [hsingle, hid, ← htrigger.1, hall, hdisabled]
  · rw [hsecond.exists_record_iff]
    exact fun h => hunread h.2.1

end RouterConfig.Schedule
