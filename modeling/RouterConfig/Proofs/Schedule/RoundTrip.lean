import Mathlib.Data.List.Nodup
import RouterConfig.Proofs.Schedule.Lines

/-!
# Schedules come back

The lines of several schedules are read in one pass, and what they say is put together under
the keys of the schedules.  A line is faulty when an earlier one of its key says something
else, so what carries the pass is that any two statements of one key agree
(`pairwise_agree`).  This holds for schedules with different keys, however many lines each
has.

Then each line of a schedule gives back the whole schedule (`collect_of_mem`), because the
other lines of its key are its own, and so is the line by which it is not carried out.
-/

namespace RouterConfig.Schedule

open Text Rtx

/-! ## What a statement is about -/

/-- The key of the schedule that the statement is part of. -/
def Statement.key? : Statement → Option ScheduleKey
  | .disable _ => none
  | .command id _ _ => some (.numbered id)
  | .session s => some s.key

/-- If two statements are about one schedule, both are commands with the same trigger. -/
def Agree (first second : Statement) : Prop :=
  ∀ key ∈ first.key?, key ∈ second.key? →
    ∃ id trigger c d, first = .command id trigger c ∧ second = .command id trigger d

/-- The statements of a schedule. -/
theorem mem_statements_iff {s : Schedule} {statement : Statement} :
    statement ∈ s.statements ↔
      (s.IsNumbered ∧ ((∃ command ∈ s.commands, statement = .command s.id s.trigger command) ∨
        (s.enabled = false ∧ statement = .disable s.id))) ∨
      (¬ s.IsNumbered ∧ statement = .session s) := by
  rcases s.isNumbered_or with hnumbered | ⟨days, time, action, htrigger⟩
  · rw [hnumbered.statements_eq, List.mem_append, List.mem_map]
    cases s.enabled <;> simp [hnumbered, eq_comm]
  · have hnot : ¬ s.IsNumbered := fun h => h _ _ _ htrigger
    unfold statements
    rw [htrigger]
    simp [hnot]

theorem disable_mem_statements_iff {s : Schedule} {id : UInt32} :
    .disable id ∈ s.statements ↔ s.IsNumbered ∧ s.id = id ∧ s.enabled = false := by
  constructor
  · intro h
    rcases mem_statements_iff.mp h with ⟨hnumbered, ⟨_, -, hstatement⟩ | ⟨hdisabled, hstatement⟩⟩ |
      ⟨-, hstatement⟩
    · cases hstatement
    · cases hstatement
      exact ⟨hnumbered, rfl, hdisabled⟩
    · cases hstatement
  · rintro ⟨hnumbered, rfl, hdisabled⟩
    exact mem_statements_iff.mpr (Or.inl ⟨hnumbered, Or.inr ⟨hdisabled, rfl⟩⟩)

/-- Some line of a schedule has its key. -/
theorem exists_mem_statements {s : Schedule} (h : validate s = none) :
    ∃ statement ∈ s.statements, ∃ key, statement.key? = some key := by
  by_cases hnumbered : s.IsNumbered
  · obtain ⟨command, hcommand⟩ :=
      List.exists_mem_of_ne_nil _ (hnumbered.commands_of_validate h).1
    exact ⟨_, mem_statements_iff.mpr (Or.inl ⟨hnumbered, Or.inl ⟨command, hcommand, rfl⟩⟩), _, rfl⟩
  · exact ⟨_, mem_statements_iff.mpr (Or.inr ⟨hnumbered, rfl⟩), _, rfl⟩

theorem key_of_mem_statements {s : Schedule} {statement : Statement}
    (h : statement ∈ s.statements) : ∀ key ∈ statement.key?, key = s.key := by
  rcases mem_statements_iff.mp h with ⟨hnumbered, ⟨command, -, rfl⟩ | ⟨-, rfl⟩⟩ | ⟨-, rfl⟩
  · rintro key ⟨⟩
    exact hnumbered.key_eq.symm
  · rintro key ⟨⟩
  · rintro key ⟨⟩
    rfl

/-- The statements of one schedule agree. -/
theorem pairwise_agree_statements (s : Schedule) : s.statements.Pairwise Agree := by
  by_cases hnumbered : s.IsNumbered
  · have hform : ∀ x ∈ s.statements,
        (∃ command, x = .command s.id s.trigger command) ∨ x = .disable s.id := by
      intro x hx
      rcases mem_statements_iff.mp hx with ⟨-, ⟨command, -, hx⟩ | ⟨-, hx⟩⟩ | ⟨hnot, -⟩
      · exact Or.inl ⟨command, hx⟩
      · exact Or.inr hx
      · exact absurd hnumbered hnot
    refine List.pairwise_of_forall_mem_list fun x hx y hy key hxkey hykey => ?_
    rcases hform x hx with ⟨c, rfl⟩ | rfl
    · rcases hform y hy with ⟨d, rfl⟩ | rfl
      · exact ⟨_, _, c, d, rfl, rfl⟩
      · cases hykey
    · cases hxkey
  · obtain ⟨days, time, action, htrigger⟩ := s.isNumbered_or.resolve_left hnumbered
    unfold statements
    rw [htrigger]
    exact List.pairwise_singleton _ _

/-- **The statements of schedules with different keys agree.** -/
theorem pairwise_agree {ss : List Schedule} (hkeys : (ss.map key).Nodup) :
    (ss.flatMap statements).Pairwise Agree := by
  rw [List.pairwise_flatMap]
  refine ⟨fun s _ => pairwise_agree_statements s, ?_⟩
  have hne : ss.Pairwise fun s t => s.key ≠ t.key := List.pairwise_map.mp hkeys
  refine hne.imp fun {s t} hst x hx y hy key hxkey hykey => ?_
  have hkey := (key_of_mem_statements hx key hxkey).symm.trans (key_of_mem_statements hy key hykey)
  exact absurd hkey hst

/-! ## Lines without a fault -/

theorem key?_of_content {r : Reading} {statement : Statement} (h : r.content = .ok statement) :
    r.key? = statement.key? := by
  rw [Reading.key?, h]
  cases statement <;> rfl

/-- A line is right if it agrees with every earlier one. -/
theorem fault?_eq_none {earlier : List Reading} {r : Reading} {statement : Statement}
    (hr : r.content = .ok statement)
    (hearlier : ∀ e ∈ earlier, ∃ before, e.content = .ok before ∧ Agree before statement) :
    r.fault? earlier = none := by
  rw [Reading.fault?, hr]
  cases statement with
  | disable id => rfl
  | command id trigger command =>
    simp only
    cases hfound : earlier.findSome? (Reading.triggerOf? id) with
    | none => rfl
    | some inForce =>
      obtain ⟨e, he, htrigger⟩ := List.exists_of_findSome?_eq_some hfound
      obtain ⟨before, hbefore, hagree⟩ := hearlier e he
      rw [Reading.triggerOf?, hbefore] at htrigger
      cases before with
      | disable n => cases htrigger
      | session s => cases htrigger
      | command n t c =>
        obtain ⟨rfl, rfl⟩ : n = id ∧ t = inForce := by simpa using htrigger
        obtain ⟨_, _, _, _, hfirst, hsecond⟩ := hagree _ rfl rfl
        cases hfirst
        cases hsecond
        exact if_pos rfl
  | session s =>
    have hnone : (earlier.any fun e => e.key? = some s.key) = false := by
      rw [List.any_eq_false]
      intro e he hkey
      obtain ⟨before, hbefore, hagree⟩ := hearlier e he
      rw [decide_eq_true_eq, key?_of_content hbefore] at hkey
      obtain ⟨_, _, _, _, -, hsecond⟩ := hagree _ hkey rfl
      cases hsecond
    simp only [hnone]
    rfl

theorem bare_eq_reading_iff {r : Reading} {statement : Statement} :
    r.bare = statement.reading ↔ r.content = .ok statement := by
  constructor
  · exact congrArg Reading.content
  · intro h
    rw [Reading.bare, h]
    rfl

/-- **No line is faulty** when any two agree. -/
theorem fault?_of_mem_withEarlier {rs : List Reading} {said : List Statement}
    (hrs : rs.map Reading.bare = said.map Statement.reading) (hagree : said.Pairwise Agree) :
    ∀ p ∈ withEarlier [] rs, p.2.fault? p.1 = none := by
  intro p hp
  obtain ⟨statement, hstatement, hearlier⟩ := exists_rel_of_mem_withEarlier hrs hagree hp
  refine fault?_eq_none (bare_eq_reading_iff.mp hstatement) fun e he => ?_
  obtain ⟨before, hbefore, hagrees⟩ := hearlier e he
  exact ⟨before, bare_eq_reading_iff.mp hbefore, hagrees⟩

/-! ## Putting the lines of a schedule together -/

/-- What only one member of a list adds to. -/
theorem flatMap_eq_of_mem {α β : Type} {f : α → List β} {l : List α} {a : α} (hnodup : l.Nodup)
    (ha : a ∈ l) (h : ∀ b ∈ l, b ≠ a → f b = []) : l.flatMap f = f a := by
  obtain ⟨front, back, rfl⟩ := List.append_of_mem ha
  have hnot : a ∉ front ++ back := (List.nodup_cons.mp (List.nodup_middle.mp hnodup)).1
  have hfront : front.flatMap f = [] := List.flatMap_eq_nil_iff.mpr fun b hb =>
    h b (List.mem_append_left _ hb) fun he => hnot (List.mem_append_left _ (he ▸ hb))
  have hback : back.flatMap f = [] := List.flatMap_eq_nil_iff.mpr fun b hb =>
    h b (List.mem_append_right _ (List.mem_cons_of_mem _ hb))
      fun he => hnot (List.mem_append_right _ (he ▸ hb))
  rw [List.flatMap_append, List.flatMap_cons, hfront, hback, List.nil_append, List.append_nil]

theorem commandOf?_reading_eq_some_iff {id : UInt32} {statement : Statement} {command : String} :
    Reading.commandOf? id statement.reading = some command ↔
      ∃ trigger, statement = .command id trigger command := by
  cases statement with
  | disable n => simp [Reading.commandOf?, Statement.reading]
  | session s => simp [Reading.commandOf?, Statement.reading]
  | command n trigger c => simp [Reading.commandOf?, Statement.reading]

theorem disables_eq_true_iff {id : UInt32} {r : Reading} :
    r.disables id = true ↔ r.bare = (Statement.disable id).reading := by
  rw [bare_eq_reading_iff, Reading.disables]
  constructor
  · intro h
    split at h
    · next n hcontent => rw [hcontent, beq_iff_eq.mp h]
    · cases h
  · intro h
    rw [h]
    exact beq_self_eq_true id

section Collect

variable {ss : List Schedule} {rs : List Reading}

theorem eq_of_key_eq (hkeys : (ss.map key).Nodup) {s t : Schedule} (hs : s ∈ ss) (ht : t ∈ ss)
    (h : s.key = t.key) : s = t :=
  List.inj_on_of_nodup_map hkeys hs ht h

/-- The commands that are said of a schedule are its own. -/
theorem filterMap_commandOf? (hkeys : (ss.map key).Nodup)
    (hrs : rs.map Reading.bare = (ss.flatMap statements).map Statement.reading) {s : Schedule}
    (hs : s ∈ ss) (hnumbered : s.IsNumbered) :
    rs.filterMap (Reading.commandOf? s.id) = s.commands := by
  have hself : s.statements.filterMap (Reading.commandOf? s.id ∘ Statement.reading) =
      s.commands := by
    have hcommand : (Reading.commandOf? s.id ∘ Statement.reading) ∘
        Statement.command s.id s.trigger = some :=
      funext fun command => commandOf?_reading_eq_some_iff.mpr ⟨s.trigger, rfl⟩
    have hdisable : (if s.enabled then [] else [Statement.disable s.id]).filterMap
        (Reading.commandOf? s.id ∘ Statement.reading) = [] := by
      split <;> rfl
    rw [hnumbered.statements_eq, List.filterMap_append, List.filterMap_map, hcommand, hdisable,
      List.filterMap_some, List.append_nil]
  have hother : ∀ t ∈ ss, t ≠ s →
      t.statements.filterMap (Reading.commandOf? s.id ∘ Statement.reading) = [] := by
    intro t ht hne
    refine List.filterMap_eq_nil_iff.mpr fun statement hmem => ?_
    by_contra hsome
    obtain ⟨command, hcommand⟩ := Option.ne_none_iff_exists'.mp hsome
    obtain ⟨trigger, rfl⟩ := commandOf?_reading_eq_some_iff.mp hcommand
    have hkey := key_of_mem_statements hmem _ rfl
    rw [← hnumbered.key_eq] at hkey
    exact hne (eq_of_key_eq hkeys ht hs hkey.symm)
  calc rs.filterMap (Reading.commandOf? s.id)
      = (rs.map Reading.bare).filterMap (Reading.commandOf? s.id) := by
        rw [List.filterMap_map]
        rfl
    _ = ss.flatMap fun t =>
          t.statements.filterMap (Reading.commandOf? s.id ∘ Statement.reading) := by
        rw [hrs, List.filterMap_map, List.filterMap_flatMap]
    _ = s.commands := by
        rw [flatMap_eq_of_mem (List.Nodup.of_map _ hkeys) hs hother, hself]

/-- A schedule is said not to be carried out when it is not. -/
theorem any_disables (hkeys : (ss.map key).Nodup)
    (hrs : rs.map Reading.bare = (ss.flatMap statements).map Statement.reading) {s : Schedule}
    (hs : s ∈ ss) (hnumbered : s.IsNumbered) : rs.any (Reading.disables s.id) = !s.enabled := by
  have hsaid : (∃ r ∈ rs, r.disables s.id = true) ↔
      (Statement.disable s.id).reading ∈ rs.map Reading.bare := by
    rw [List.mem_map]
    exact exists_congr fun r => and_congr_right fun _ => disables_eq_true_iff
  rw [Bool.eq_iff_iff, List.any_eq_true, hsaid, hrs, List.mem_map, Bool.not_eq_true']
  constructor
  · rintro ⟨statement, hmem, hread⟩
    obtain ⟨t, ht, hmem⟩ := List.mem_flatMap.mp hmem
    cases hread
    obtain ⟨hother, hid, hdisabled⟩ := disable_mem_statements_iff.mp hmem
    have hkey : t.key = s.key := by rw [hother.key_eq, hnumbered.key_eq, hid]
    rwa [← eq_of_key_eq hkeys ht hs hkey]
  · intro hdisabled
    refine ⟨.disable s.id, List.mem_flatMap.mpr ⟨s, hs, ?_⟩, rfl⟩
    exact disable_mem_statements_iff.mpr ⟨hnumbered, rfl, hdisabled⟩

/-- **Each line of a schedule gives back the schedule**, apart from the one by which it is not
carried out. -/
theorem collect_of_mem (hkeys : (ss.map key).Nodup)
    (hrs : rs.map Reading.bare = (ss.flatMap statements).map Statement.reading) {s : Schedule}
    (hs : s ∈ ss) {statement : Statement} (hmem : statement ∈ s.statements) :
    collect rs statement.reading = statement.key?.map fun _ => s := by
  rcases mem_statements_iff.mp hmem with ⟨hnumbered, ⟨command, -, rfl⟩ | ⟨-, rfl⟩⟩ | ⟨-, rfl⟩
  · have hcommands := filterMap_commandOf? hkeys hrs hs hnumbered
    have hdisables := any_disables hkeys hrs hs hnumbered
    simp only [collect, Statement.reading, hcommands, hdisables, Bool.not_not]
    rfl
  · rfl
  · rfl

/-- **The schedules that the lines open** are the schedules, each once and in order. -/
theorem firstOfEach_opening (hkeys : (ss.map key).Nodup) (hvalid : ∀ s ∈ ss, validate s = none)
    (hrs : rs.map Reading.bare = (ss.flatMap statements).map Statement.reading) :
    firstOfEach key (rs.filterMap (collect rs)) = ss := by
  have hopened : rs.filterMap (collect rs) =
      ss.flatMap fun s => s.statements.filterMap (collect rs ∘ Statement.reading) := by
    calc rs.filterMap (collect rs)
        = (rs.map Reading.bare).filterMap (collect rs) := by
          rw [List.filterMap_map]
          rfl
      _ = _ := by rw [hrs, List.filterMap_map, List.filterMap_flatMap]
  rw [hopened]
  refine firstOfEach_flatMap hkeys (fun s hs => ?_) fun s hs t ht => ?_
  · obtain ⟨statement, hmem, key, hkey⟩ := exists_mem_statements (hvalid s hs)
    have hcollect := collect_of_mem hkeys hrs hs hmem
    rw [hkey] at hcollect
    exact List.ne_nil_of_mem (List.mem_filterMap.mpr ⟨statement, hmem, hcollect⟩)
  · obtain ⟨statement, hmem, hcollect⟩ := List.mem_filterMap.mp ht
    have hself := (collect_of_mem hkeys hrs hs hmem).symm.trans hcollect
    obtain ⟨_, -, rfl⟩ := Option.map_eq_some_iff.mp hself
    rfl

/-- Lines that are read as the statements of schedules give the schedules. -/
theorem decodeLines_of_readings (hkeys : (ss.map key).Nodup)
    (hvalid : ∀ s ∈ ss, validate s = none) {lines : List Line}
    (hrs : (lines.filterMap readLine?).map Reading.bare =
      (ss.flatMap statements).map Statement.reading) : decodeLines lines = ⟨ss, []⟩ := by
  have hfaults : ((withEarlier [] (lines.filterMap readLine?)).filterMap fun p =>
      (p.2.fault? p.1).map fun fault => (p.2.line, fault)) = [] := by
    refine List.filterMap_eq_nil_iff.mpr fun p hp => ?_
    rw [fault?_of_mem_withEarlier hrs (pairwise_agree hkeys) p hp, Option.map_none]
  generalize hopening : ((lines.filterMap readLine?).filterMap fun r =>
    (collect (lines.filterMap readLine?) r).map fun s => (r.line, s)) = opening
  have hschedules : (firstOfEach (fun p => p.2.key) opening).map Prod.snd = ss := by
    rw [map_firstOfEach key Prod.snd, ← hopening, List.map_filterMap]
    simp only [Option.map_map, Function.comp_def, Option.map_id']
    exact firstOfEach_opening hkeys hvalid hrs
  rw [decodeLines]
  simp only [hfaults, hopening, List.filterMap_nil, List.contains_nil, Bool.not_false,
    List.filter_true, List.map_nil, Decoded.concat_nil]
  exact Decoded.concat_checked_of_none hschedules hvalid

end Collect

/-! ## Schedules that come back -/

/-- What holds of each command of a schedule. -/
theorem of_mem_setCommands {s : Schedule} (hvalid : validate s = none)
    (hplain : ∀ command ∈ s.commands, IsPlain command) {command : String}
    (h : command ∈ s.setCommands) :
    ∃ w v ws, command = phrase (w :: v :: ws) ∧ w ∈ ["schedule", "no"] ∧
      LineOf EndsCommand (w :: v :: ws) := by
  rcases s.isNumbered_or with hnumbered | ⟨days, time, action, htrigger⟩
  · have hends := endsCommand_of_mem_commands hnumbered hvalid hplain
    rw [hnumbered.setCommands_eq] at h
    rcases List.mem_append.mp h with h | h
    · obtain ⟨own, hown, rfl⟩ := List.mem_map.mp h
      have hline := (lineOf_commandWords hvalid).mpr (hends own hown)
      rw [commandWords, hnumbered.leadWords_eq] at hline ⊢
      exact ⟨_, _, _, rfl, by decide, hline⟩
    · split at h
      · cases h
      · rw [List.mem_singleton.mp h, hnumbered.leadWords_eq]
        refine ⟨_, _, _, rfl, by decide, ?_⟩
        exact (@lineOf_concat _ ["no", "schedule", "at"] _).mpr ⟨by decide, endsCommand_numeral _⟩
  · have haction : EndsCommand action.word := by
      cases action <;> decide
    have hkept := triggerRules_of_validate hvalid
    rw [htrigger] at hkept
    have hwords : ∀ w ∈ ["schedule", "pp", numeral s.id, days, time], IsWord w := by
      have hnames : IsWord "schedule" ∧ IsWord "pp" := by decide
      simpa [hnames, isWord_numeral] using ⟨isWord_of_areDays hkept.1, isWord_of_isTime hkept.2⟩
    have hline := (@lineOf_concat _ ["schedule", "pp", numeral s.id, days, time] _).mpr
      ⟨fun w hw => (hwords w hw).breakFree, haction⟩
    unfold setCommands leadWords at h
    rw [htrigger] at h
    rw [List.mem_singleton.mp h]
    exact ⟨_, _, _, rfl, by decide, hline⟩

/-- **Schedules come back**, several at once, when no two have one key.  The commands in them
must be as they would be read.  Then each schedule is what it was, with its commands in
order, its trigger, and whether it is carried out, and the schedules are in order too. -/
theorem schedules_come_back {ss : List Schedule}
    (hidentities : (ss.map Reconcilable.identity).Nodup) (hvalid : ∀ s ∈ ss, validate s = none)
    (hplain : ∀ s ∈ ss, ∀ command ∈ s.commands, IsPlain command) : ReadsBack ss ⟨ss, []⟩ := by
  have hencode : ss.mapM (fun s => Feature.encode s .set) = .ok (ss.map setCommands) :=
    mapM_eq_ok_map fun s hs => provided_of_none (hvalid s hs) _
  have hcommands : ∀ c ∈ (ss.map setCommands).flatten, ∃ w v ws, c = phrase (w :: v :: ws) ∧
      w ∈ ["schedule", "no"] ∧ LineOf EndsCommand (w :: v :: ws) := by
    intro c hc
    rw [← List.flatMap_def] at hc
    obtain ⟨s, hs, hc⟩ := List.mem_flatMap.mp hc
    exact of_mem_setCommands (hvalid s hs) (hplain s hs) hc
  have hstarts : ∀ w ∈ ["schedule", "no"], w ∈ commandStarts ∧ w ≠ tunnelKind ∧ w ≠ ppKind := by
    decide
  refine readsBack_of_lines (fun _ => rfl) hencode ?_ (fun c hc => ?_) fun lines hlines => ?_
  · refine seenOneForOne_of_endsCommand fun c hc => ?_
    obtain ⟨w, v, ws, rfl, hw, hline⟩ := hcommands c hc
    exact ⟨_, rfl, startsWords_cons (hstarts w hw).1, hline⟩
  · obtain ⟨w, v, ws, rfl, hw, -⟩ := hcommands c hc
    obtain ⟨hstart, htunnel, hpp⟩ := hstarts w hw
    exact standsAlone_phrase hstart htunnel hpp
  · rw [← List.flatMap_def] at hlines
    exact decodeLines_of_readings hidentities hvalid (map_bare_schedules hvalid hplain hlines)

/-- Schedules of every kind.  The first has two commands and is not carried out, and the
session has its number. -/
def everyKind : List Schedule :=
  [{ id := 1, trigger := .dated "*/*" "03:00", commands := ["clear arp", "clear log"],
     enabled := false },
    { id := 2, trigger := .startup, commands := ["lua /startup.lua"] },
    ofSession 1 "mon-fri" "8:00" .connect,
    { id := 3, trigger := .daily "12:*", commands := ["schedule at 2 startup"] }]

/-- They come back. -/
theorem schedules_come_back_everyKind :
    ((everyKind.map Reconcilable.identity).Nodup ∧ (∀ s ∈ everyKind, validate s = none) ∧
      ∀ s ∈ everyKind, ∀ command ∈ s.commands, IsPlain command) ∧
      ReadsBack everyKind ⟨everyKind, []⟩ := by
  have hidentities : (everyKind.map Reconcilable.identity).Nodup := by decide
  have hvalid : ∀ s ∈ everyKind, validate s = none := by decide
  have hplain : ∀ s ∈ everyKind, ∀ command ∈ s.commands, IsPlain command := by decide
  exact ⟨⟨hidentities, hvalid, hplain⟩, schedules_come_back hidentities hvalid hplain⟩

end RouterConfig.Schedule
