import RouterConfig.Proofs.Schedule.Merging
import RouterConfig.Proofs.Table

/-!
# Schedules line by line

Reading the lines one after the other, a command is put behind those that the table holds
for its number, if it has their trigger.  So a schedule in the table has the trigger of the
line that opened it, and of all commands for its number those with that trigger
(`Schedule.grown`).  A schedule that was read off all lines at once has all commands.  The
two differ when there are two triggers, and then the number is spoiled
(`completed_eq_of_not_spoiled`).
-/

namespace RouterConfig.Schedule

/-! ## What one line does -/

/-- What is read from a line: the trigger of a command is not one of a session, and a session
has no number. -/
structure Reading.IsRead (r : Reading) : Prop where
  ofCommand : ∀ n trigger command, r.content = .ok (.command n trigger command) →
    ∀ days time action, trigger ≠ .session days time action
  ofSession : ∀ s, r.content = .ok (.session s) → ∀ id, s.key ≠ .numbered id

theorem isRead_of_mem_readings {lines : List Line} {r : Reading} (h : r ∈ readings lines) :
    r.IsRead :=
  ⟨(of_mem_readings h).1, (of_mem_readings h).2⟩

/-- The schedule that a line opens, without its commands, and the line. -/
def Reading.opened? (r : Reading) : Option (Line × Schedule) :=
  match r.content with
  | .ok (.command id trigger _) => some (r.line, { id, trigger })
  | .ok (.session s) => some (r.line, s)
  | _ => none

/-- The command that a line adds to a schedule, which has its number and its trigger. -/
def Reading.addsTo? (s : Schedule) (r : Reading) : Option String :=
  match r.content with
  | .ok (.command id trigger command) =>
    if s.key = .numbered id ∧ s.trigger = trigger then some command else none
  | _ => none

/-- The number of the schedule that a line says is not carried out. -/
def Reading.disabled? (r : Reading) : Option UInt32 :=
  match r.content with
  | .ok (.disable id) => some id
  | _ => none

/-- The schedules that lines open. -/
def opened (rs : List Reading) : List (Line × Schedule) :=
  rs.filterMap Reading.opened?

/-- A schedule with the commands that lines add to it. -/
def grown (rs : List Reading) (s : Schedule) : Schedule :=
  { s with commands := s.commands ++ rs.filterMap (Reading.addsTo? s) }

/-- What is held after some lines. -/
def gathered (rs : List Reading) : Gathering where
  decoded := .concat ((faults rs).map fun f => .rejected featureName f.1 (.malformed f.2.1))
  table := Table.collected (fun p => p.2.key) (fun p => (p.1, grown rs p.2)) (opened rs)
  spoiled := spoiledKeys rs
  disabled := rs.filterMap Reading.disabled?

namespace Reading

variable {r : Reading} (hr : r.IsRead)

include hr

/-- A schedule is opened under the key of the line. -/
theorem IsRead.key_opened? : r.opened?.map (fun p => p.2.key) = r.key? := by
  obtain ⟨line, content, spoils⟩ := r
  rcases content with fault | ⟨id⟩ | ⟨id, trigger, command⟩ | s
  · rfl
  · rfl
  · exact congrArg some (IsNumbered.key_eq (hr.ofCommand id trigger command rfl))
  · rfl

/-- A line gives its trigger to the schedule that it opens. -/
theorem IsRead.trigger_opened? (id : UInt32) :
    (r.opened?.filter fun p => p.2.key = .numbered id).map (fun p => p.2.trigger) =
      r.triggerOf? id := by
  obtain ⟨line, content, spoils⟩ := r
  rcases content with fault | ⟨n⟩ | ⟨n, trigger, command⟩ | s
  · rfl
  · rfl
  · have hkey : key { id := n, trigger } = .numbered n :=
      IsNumbered.key_eq (hr.ofCommand n trigger command rfl)
    have hgives : triggerOf? id ⟨line, .ok (.command n trigger command), spoils⟩ =
        if n = id then some trigger else none := rfl
    rw [opened?, Option.filter_some, hkey, hgives]
    by_cases hn : n = id
    · rw [if_pos hn, if_pos (decide_eq_true (congrArg _ hn)), Option.map_some]
    · rw [if_neg hn, if_neg (by simpa using hn), Option.map_none]
  · rw [opened?, Option.filter_some, if_neg (by simpa using hr.ofSession s rfl id)]
    rfl

/-- A schedule with a number is opened by a command. -/
theorem IsRead.of_opened?_of_numbered {p : Line × Schedule} {id : UInt32}
    (hp : r.opened? = some p) (hkey : p.2.key = .numbered id) :
    p.2 = { id, trigger := p.2.trigger } ∧ r.triggerOf? id = some p.2.trigger := by
  obtain ⟨line, content, spoils⟩ := r
  rcases content with fault | ⟨n⟩ | ⟨n, trigger, command⟩ | s
  · cases hp
  · cases hp
  · cases hp
    have hnumber : Schedule.key { id := n, trigger } = .numbered n :=
      IsNumbered.key_eq (hr.ofCommand n trigger command rfl)
    cases hnumber.symm.trans hkey
    exact ⟨rfl, if_pos rfl⟩
  · cases hp
    exact absurd hkey (hr.ofSession s rfl id)

end Reading

section Lookup

variable {rs : List Reading} (hrs : ∀ r ∈ rs, r.IsRead)

include hrs

/-- The schedules are opened under the keys of the lines. -/
theorem map_key_opened : (opened rs).map (fun p => p.2.key) = rs.filterMap Reading.key? := by
  rw [opened, List.map_filterMap]
  exact List.filterMap_congr fun r hr => (hrs r hr).key_opened?

/-- **The trigger in force** is that of the schedule in the table. -/
theorem map_trigger_lookup? (id : UInt32) :
    (Table.lookup? (.numbered id) (gathered rs).table).map (fun e => e.2.trigger) =
      rs.findSome? (Reading.triggerOf? id) := by
  have hopened : ((opened rs).filter fun p => p.2.key = .numbered id).map (fun p => p.2.trigger) =
      rs.filterMap (Reading.triggerOf? id) := by
    rw [opened, List.filter_filterMap, List.map_filterMap]
    exact List.filterMap_congr fun r hr => (hrs r hr).trigger_opened? id
  rw [← List.head?_filterMap, ← hopened, List.head?_map, List.head?_filter]
  rw [gathered, Table.lookup?_collected, Option.map_map]
  rfl

/-- **A key is in the table** if a line has it. -/
theorem isSome_lookup?_iff {k : ScheduleKey} :
    (Table.lookup? k (gathered rs).table).isSome = true ↔ k ∈ rs.filterMap Reading.key? := by
  rw [gathered, Table.isSome_lookup?_collected, map_key_opened hrs]

end Lookup

/-- A line adds to schedules with its key. -/
theorem Reading.key?_of_addsTo? {r : Reading} {s : Schedule} {command : String}
    (h : r.addsTo? s = some command) : r.key? = some s.key := by
  obtain ⟨line, content, spoils⟩ := r
  rcases content with fault | ⟨n⟩ | ⟨n, trigger, c⟩ | t
  · cases h
  · cases h
  · obtain ⟨⟨hkey, -⟩, -⟩ := Option.ite_none_right_eq_some.mp h
    exact congrArg some hkey.symm
  · cases h

/-- Nothing is added to a schedule without a number. -/
theorem Reading.addsTo?_of_session (r : Reading) {s : Schedule} (hs : ∀ id, s.key ≠ .numbered id) :
    r.addsTo? s = none := by
  obtain ⟨line, content, spoils⟩ := r
  rcases content with fault | ⟨n⟩ | ⟨n, trigger, command⟩ | t
  · rfl
  · rfl
  · exact if_neg fun h => hs n h.1
  · rfl

/-- A line adds its command for a number, if its trigger is that of the schedule. -/
theorem Reading.addsTo?_eq_commandOf? {r : Reading} {s : Schedule} {id : UInt32}
    (hkey : s.key = .numbered id) (htrigger : ∀ trigger ∈ r.triggerOf? id, trigger = s.trigger) :
    r.addsTo? s = r.commandOf? id := by
  obtain ⟨line, content, spoils⟩ := r
  rcases content with fault | ⟨n⟩ | ⟨n, trigger, command⟩ | t
  · rfl
  · rfl
  · by_cases hn : n = id
    · subst hn
      have hsame : s.trigger = trigger := (htrigger trigger (if_pos rfl)).symm
      exact (if_pos ⟨hkey, hsame⟩).trans (if_pos rfl).symm
    · have hother : ¬ (s.key = .numbered n ∧ s.trigger = trigger) := fun h =>
        hn (ScheduleKey.numbered.inj (hkey.symm.trans h.1)).symm
      exact (if_neg hother).trans (if_neg hn).symm
  · rfl

theorem Reading.disables_iff {r : Reading} {id : UInt32} :
    r.disables id = true ↔ r.disabled? = some id := by
  obtain ⟨line, content, spoils⟩ := r
  rcases content with fault | ⟨n⟩ | ⟨n, trigger, command⟩ | t
  · exact iff_of_false Bool.false_ne_true nofun
  · exact beq_iff_eq.trans Option.some_inj.symm
  · exact iff_of_false Bool.false_ne_true nofun
  · exact iff_of_false Bool.false_ne_true nofun

/-- A schedule that no line adds to is as it was opened. -/
theorem grown_of_forall {rs : List Reading} {s : Schedule} (h : ∀ r ∈ rs, r.addsTo? s = none) :
    grown rs s = s := by
  rw [grown, List.filterMap_eq_nil_iff.mpr h, List.append_nil]

/-- No line adds to a schedule whose key is new. -/
theorem grown_of_not_mem {rs : List Reading} {s : Schedule}
    (h : s.key ∉ rs.filterMap Reading.key?) : grown rs s = s := by
  refine grown_of_forall fun r hr => ?_
  rw [Option.eq_none_iff_forall_ne_some]
  exact fun command hadds => h (List.mem_filterMap.mpr ⟨r, hr, Reading.key?_of_addsTo? hadds⟩)

/-! ## One more line -/

section Step

variable {front : List Reading} {r : Reading} {s : Schedule} {p : Line × Schedule}

/-- A schedule that a line adds nothing to. -/
theorem grown_concat_of_none (h : r.addsTo? s = none) : grown (front ++ [r]) s = grown front s := by
  rw [grown, filterMap_concat, h, Option.toList_none, List.append_nil]
  rfl

/-- A schedule that a line adds a command to. -/
theorem grown_concat_of_some {command : String} (h : r.addsTo? s = some command) :
    grown (front ++ [r]) s =
      { grown front s with commands := (grown front s).commands ++ [command] } := by
  rw [grown, filterMap_concat, h, Option.toList_some, ← List.append_assoc]
  rfl

theorem opened_concat (front : List Reading) (r : Reading) :
    opened (front ++ [r]) = opened front ++ r.opened?.toList :=
  filterMap_concat Reading.opened? front r

/-- The table stays when a line opens no new schedule and adds to none that is there. -/
theorem table_gathered_of_unused
    (hopened : ∀ p ∈ r.opened?, p.2.key ∈ (opened front).map fun q => q.2.key)
    (hadds : ∀ q ∈ firstOfEach (fun q => q.2.key) (opened front), r.addsTo? q.2 = none) :
    (gathered (front ++ [r])).table = (gathered front).table := by
  have hsame : Table.collected (fun q : Line × Schedule => q.2.key)
      (fun q => (q.1, grown (front ++ [r]) q.2)) (opened front) = (gathered front).table :=
    Table.collected_congr fun q hq => by rw [grown_concat_of_none (hadds q hq)]
  rw [← hsame, gathered, opened_concat]
  cases hp : r.opened? with
  | none => rw [Option.toList_none, List.append_nil]
  | some p => exact Table.collected_concat_of_mem (hopened p hp)

/-- A line adds to no schedule with another key than it has. -/
theorem addsTo?_of_ne (hr : r.IsRead) (hp : r.opened? = some p) (h : s.key ≠ p.2.key) :
    r.addsTo? s = none := by
  rw [Option.eq_none_iff_forall_ne_some]
  intro command hadds
  have hkey := hr.key_opened?
  rw [hp, Option.map_some, Reading.key?_of_addsTo? hadds] at hkey
  exact h (Option.some.inj hkey).symm

/-- A schedule with a new key is put in. -/
theorem table_gathered_of_new (hr : r.IsRead) (hp : r.opened? = some p)
    (hnew : p.2.key ∉ (opened front).map fun q => q.2.key) :
    (gathered (front ++ [r])).table =
      Table.insert p.2.key (p.1, grown (front ++ [r]) p.2) (gathered front).table := by
  rw [gathered, opened_concat, hp]
  refine (Table.insert_collected hnew fun q hq => ?_).symm
  have hne : q.2.key ≠ p.2.key := fun he =>
    hnew (he ▸ List.mem_map_of_mem ((firstOfEach_sublist _ _).subset hq))
  rw [grown_concat_of_none (addsTo?_of_ne hr hp hne)]

/-- The schedules in the table are those that the first lines opened. -/
theorem lookup?_gathered_of_mem (hp : p ∈ firstOfEach (fun q => q.2.key) (opened front)) :
    Table.lookup? p.2.key (gathered front).table = some (p.1, grown front p.2) :=
  Table.lookup?_collected_of_mem hp

theorem faults_concat (front : List Reading) (r : Reading) :
    faults (front ++ [r]) =
      faults front ++ ((r.fault? front).map fun fault => (r.line, fault)).toList := by
  rw [faults, withEarlier_concat, filterMap_concat]
  rfl

/-- A faulty line is rejected, and may spoil a schedule. -/
theorem gathered_of_fault {fault : LineFault} {spoils : Option ScheduleKey}
    (h : r.fault? front = some (fault, spoils)) (hdisabled : r.disabled? = none)
    (htable : (gathered (front ++ [r])).table = (gathered front).table) :
    (gathered front).rejectLine r.line fault spoils = gathered (front ++ [r]) := by
  have hfaults : faults (front ++ [r]) = faults front ++ [(r.line, fault, spoils)] := by
    rw [faults_concat, h]
    rfl
  have hdecoded : (gathered (front ++ [r])).decoded =
      (gathered front).decoded ++ .rejected featureName r.line (.malformed fault) := by
    rw [gathered, hfaults, Decoded.concat_map_concat]
    rfl
  have hspoiled : spoiledKeys (front ++ [r]) = spoiledKeys front ++ spoils.toList := by
    rw [spoiledKeys, hfaults, filterMap_concat]
    rfl
  have hnumbers : (gathered (front ++ [r])).disabled = (gathered front).disabled := by
    rw [gathered, filterMap_concat, hdisabled]
    exact List.append_nil _
  exact Gathering.ext hdecoded.symm htable.symm hspoiled.symm hnumbers.symm

/-- A line that is in order is not rejected, and spoils nothing. -/
theorem gathered_of_no_fault (h : r.fault? front = none) :
    gathered (front ++ [r]) =
      { gathered front with
        table := (gathered (front ++ [r])).table
        disabled := (gathered front).disabled ++ r.disabled?.toList } := by
  have hfaults : faults (front ++ [r]) = faults front := by
    rw [faults_concat, h]
    exact List.append_nil _
  have hdecoded : (gathered (front ++ [r])).decoded = (gathered front).decoded := by
    rw [gathered, hfaults]
    rfl
  have hspoiled : spoiledKeys (front ++ [r]) = spoiledKeys front := by
    rw [spoiledKeys, hfaults, spoiledKeys]
  exact Gathering.ext hdecoded rfl hspoiled (filterMap_concat Reading.disabled? front r)

/-- A line that opens no schedule and adds to none. -/
theorem table_gathered_of_other (hopened : r.opened? = none) (hadds : ∀ s, r.addsTo? s = none) :
    (gathered (front ++ [r])).table = (gathered front).table :=
  table_gathered_of_unused (by simp [hopened]) fun q _ => hadds q.2

/-- A line that cannot be read. -/
theorem gather_of_error {fault : LineFault} (hcontent : r.content = .error fault) :
    (gathered front).gather r = gathered (front ++ [r]) := by
  have hfault : r.fault? front = some (fault, r.spoils.map .numbered) := by
    rw [Reading.fault?, hcontent]
  have hdisabled : r.disabled? = none := by rw [Reading.disabled?, hcontent]
  have hopened : r.opened? = none := by rw [Reading.opened?, hcontent]
  have hadds : ∀ s, r.addsTo? s = none := fun s => by rw [Reading.addsTo?, hcontent]
  rw [Gathering.gather, hcontent]
  exact gathered_of_fault hfault hdisabled (table_gathered_of_other hopened hadds)

/-- A line that says that a schedule is not carried out. -/
theorem gather_of_disable {id : UInt32} (hcontent : r.content = .ok (.disable id)) :
    (gathered front).gather r = gathered (front ++ [r]) := by
  have hfault : r.fault? front = none := by rw [Reading.fault?, hcontent]
  have hdisabled : r.disabled? = some id := by rw [Reading.disabled?, hcontent]
  have hopened : r.opened? = none := by rw [Reading.opened?, hcontent]
  have hadds : ∀ s, r.addsTo? s = none := fun s => by rw [Reading.addsTo?, hcontent]
  rw [gathered_of_no_fault hfault, table_gathered_of_other hopened hadds, hdisabled,
    Gathering.gather, hcontent]
  rfl

section Command

variable {id : UInt32} {trigger : Trigger} {command : String} {e : Line × Schedule}
  (hr : r.IsRead) (hcontent : r.content = .ok (.command id trigger command))

include hcontent

theorem opened?_of_command : r.opened? = some (r.line, { id, trigger }) := by
  rw [Reading.opened?, hcontent]

/-- A command is added to the schedules of its number with its trigger. -/
theorem addsTo?_of_command :
    r.addsTo? s = if s.key = .numbered id ∧ s.trigger = trigger then some command else none := by
  rw [Reading.addsTo?, hcontent]

/-- A command with another trigger than the one in force is left out. -/
theorem table_gathered_of_other_trigger
    (he : Table.lookup? (.numbered id) (gathered front).table = some e)
    (htrigger : e.2.trigger ≠ trigger) (hkey : key { id, trigger } = .numbered id) :
    (gathered (front ++ [r])).table = (gathered front).table := by
  refine table_gathered_of_unused ?_ fun q hq => ?_
  · rw [opened?_of_command hcontent]
    rintro _ ⟨⟩
    rw [hkey]
    exact Table.isSome_lookup?_collected.mp (Option.isSome_of_eq_some he)
  · rw [addsTo?_of_command hcontent, if_neg]
    rintro ⟨hnumber, hsame⟩
    -- the schedule of the number is the one that was found
    rw [← hnumber, lookup?_gathered_of_mem hq] at he
    obtain rfl := Option.some.inj he
    exact htrigger hsame

include hr

theorem key_of_command : key { id, trigger } = .numbered id :=
  IsNumbered.key_eq (hr.ofCommand id trigger command hcontent)

/-- A command with the trigger in force is put behind the others. -/
theorem table_gathered_of_same_trigger
    (he : Table.lookup? (.numbered id) (gathered front).table = some e)
    (htrigger : e.2.trigger = trigger) :
    (gathered (front ++ [r])).table = Table.modify (.numbered id)
      (fun e => (e.1, { e.2 with commands := e.2.commands ++ [command] }))
      (gathered front).table := by
  have hp := opened?_of_command hcontent
  have hkey := key_of_command hr hcontent
  have hmem : key { id, trigger } ∈ (opened front).map fun q => q.2.key := by
    rw [hkey]
    exact Table.isSome_lookup?_collected.mp (Option.isSome_of_eq_some he)
  rw [gathered, opened_concat, hp, Option.toList_some, Table.collected_concat_of_mem hmem]
  refine (Table.modify_collected (fun q hq hq' => ?_) fun q hq hq' => ?_).symm
  · rw [grown_concat_of_none (addsTo?_of_ne hr hp (hkey.symm ▸ hq'))]
  · -- the schedule of the number is the one that was found
    rw [← hq', lookup?_gathered_of_mem hq] at he
    obtain rfl := Option.some.inj he
    have hadds : r.addsTo? q.2 = some command := by
      rw [addsTo?_of_command hcontent, if_pos ⟨hq', htrigger⟩]
    rw [grown_concat_of_some hadds]

/-- A command for a number that has no schedule opens one. -/
theorem table_gathered_of_first (hfront : ∀ x ∈ front, x.IsRead)
    (he : Table.lookup? (.numbered id) (gathered front).table = none) :
    (gathered (front ++ [r])).table = Table.insert (.numbered id)
      (r.line, { id, trigger, commands := [command] }) (gathered front).table := by
  have hkey := key_of_command hr hcontent
  rw [← hkey] at he ⊢
  have habsent := Option.not_isSome_iff_eq_none.mpr he
  have hnew := Table.isSome_lookup?_collected.not.mp habsent
  have hkeys := (isSome_lookup?_iff hfront).not.mp habsent
  have hadds : r.addsTo? { id, trigger } = some command := by
    rw [addsTo?_of_command hcontent, if_pos ⟨hkey, rfl⟩]
  have hgrown : grown (front ++ [r]) { id, trigger } = { id, trigger, commands := [command] } := by
    rw [grown_concat_of_some hadds, grown_of_not_mem hkeys]
    rfl
  rw [table_gathered_of_new hr (opened?_of_command hcontent) hnew, hgrown]

/-- A line with a command. -/
theorem gather_of_command (hfront : ∀ x ∈ front, x.IsRead) :
    (gathered front).gather r = gathered (front ++ [r]) := by
  have hdisabled : r.disabled? = none := by rw [Reading.disabled?, hcontent]
  have hinForce := map_trigger_lookup? hfront id
  rw [Gathering.gather, hcontent]
  cases hentry : Table.lookup? (.numbered id) (gathered front).table with
  | some e =>
    rw [hentry, Option.map_some] at hinForce
    simp only [hentry]
    by_cases htrigger : e.2.trigger = trigger
    · have hfault : r.fault? front = none := by
        rw [Reading.fault?, hcontent]
        simp only [← hinForce]
        exact if_pos htrigger
      rw [if_pos htrigger, gathered_of_no_fault hfault, hdisabled, Option.toList_none,
        List.append_nil, table_gathered_of_same_trigger hr hcontent hentry htrigger]
    · have hfault : r.fault? front = some (.twoTriggers id, some (.numbered id)) := by
        rw [Reading.fault?, hcontent]
        simp only [← hinForce]
        exact if_neg htrigger
      rw [if_neg htrigger]
      exact gathered_of_fault hfault hdisabled
        (table_gathered_of_other_trigger hcontent hentry htrigger (key_of_command hr hcontent))
  | none =>
    rw [hentry, Option.map_none] at hinForce
    simp only [hentry]
    have hfault : r.fault? front = none := by
      rw [Reading.fault?, hcontent]
      simp only [← hinForce]
    rw [gathered_of_no_fault hfault, hdisabled, Option.toList_none, List.append_nil,
      table_gathered_of_first hr hcontent hfront hentry]

end Command

/-- A line with a schedule for a session. -/
theorem gather_of_session (hfront : ∀ x ∈ front, x.IsRead) (hr : r.IsRead)
    (hcontent : r.content = .ok (.session s)) :
    (gathered front).gather r = gathered (front ++ [r]) := by
  have hdisabled : r.disabled? = none := by rw [Reading.disabled?, hcontent]
  have hopened : r.opened? = some (r.line, s) := by rw [Reading.opened?, hcontent]
  have hadds : ∀ t, r.addsTo? t = none := fun t => by rw [Reading.addsTo?, hcontent]
  have hthere : (Table.lookup? s.key (gathered front).table).isSome = true ↔
      (front.any fun e => e.key? = some s.key) = true := by
    rw [isSome_lookup?_iff hfront, List.mem_filterMap, List.any_eq_true]
    simp only [decide_eq_true_eq]
  rw [Gathering.gather, hcontent]
  by_cases hkey : (Table.lookup? s.key (gathered front).table).isSome = true
  · have hfault : r.fault? front = some (.duplicate "pp schedule", some s.key) := by
      rw [Reading.fault?, hcontent]
      exact if_pos (hthere.mp hkey)
    refine (if_pos hkey).trans (gathered_of_fault hfault hdisabled ?_)
    refine table_gathered_of_unused ?_ fun q _ => hadds q.2
    rw [hopened]
    rintro _ ⟨⟩
    exact Table.isSome_lookup?_collected.mp hkey
  · have hfault : r.fault? front = none := by
      rw [Reading.fault?, hcontent]
      exact if_neg (hthere.not.mp hkey)
    have hnew := Table.isSome_lookup?_collected.not.mp hkey
    have hkeys := (isSome_lookup?_iff hfront).not.mp hkey
    have hgrown : grown (front ++ [r]) s = s := by
      rw [grown_concat_of_none (hadds s), grown_of_not_mem hkeys]
    refine (if_neg hkey).trans ?_
    rw [gathered_of_no_fault hfault, hdisabled, Option.toList_none, List.append_nil,
      table_gathered_of_new hr hopened hnew, hgrown]

/-- **One more line** changes what is held in the way of the program. -/
theorem gather_gathered (hfront : ∀ x ∈ front, x.IsRead) (hr : r.IsRead) :
    (gathered front).gather r = gathered (front ++ [r]) := by
  cases hcontent : r.content with
  | error fault => exact gather_of_error hcontent
  | ok statement =>
    cases statement with
    | disable id => exact gather_of_disable hcontent
    | command id trigger command => exact gather_of_command hr hcontent hfront
    | session s => exact gather_of_session hfront hr hcontent

end Step

/-! ## Schedules that are not carried out -/

/-- The schedule is not carried out if its number is one of these. -/
def switched (ids : List UInt32) (s : Schedule) : Schedule :=
  { s with enabled := s.enabled && !ids.any fun id => s.key = .numbered id }

theorem switched_nil (s : Schedule) : switched [] s = s := by
  rw [switched, List.any_nil, Bool.not_false, Bool.and_true]

/-- Numbers may be gone through one after the other. -/
theorem switched_switched (id : UInt32) (ids : List UInt32) (s : Schedule) :
    switched ids (switched [id] s) = switched (id :: ids) s := by
  have henabled : (switched ids (switched [id] s)).enabled = (switched (id :: ids) s).enabled := by
    simp only [switched, List.any_cons, List.any_nil, Bool.or_false, Bool.not_or, Bool.and_assoc]
    rfl
  exact (Schedule.mk.injEq ..).mpr ⟨rfl, rfl, rfl, henabled⟩

/-- **Switching off one number after the other.** -/
theorem foldl_disable {l : List (Line × Schedule)} {entry : Line × Schedule → Line × Schedule}
    (hkey : ∀ p, (entry p).2.key = p.2.key) (ids : List UInt32) :
    ids.foldl Gathering.disable (Table.collected (fun p => p.2.key) entry l) =
      Table.collected (fun p => p.2.key) (fun p => ((entry p).1, switched ids (entry p).2)) l := by
  induction ids generalizing entry with
  | nil => simp only [List.foldl_nil, switched_nil]
  | cons id ids ih =>
    have hstep : Gathering.disable (Table.collected (fun p => p.2.key) entry l) id =
        Table.collected (fun p => p.2.key)
          (fun p => ((entry p).1, switched [id] (entry p).2)) l := by
      refine Table.modify_collected (fun p _ hp => ?_) fun p _ hp => ?_
      · have hother : (entry p).2.key ≠ .numbered id := by rwa [hkey]
        simp [switched, hother]
      · have hsame : (entry p).2.key = .numbered id := by rwa [hkey]
        simp [switched, hsame]
    have hkeys : ∀ p, ((entry p).1, switched [id] (entry p).2).2.key = p.2.key := hkey
    rw [List.foldl_cons, hstep, ih hkeys]
    simp only [switched_switched]

/-- The table in the end. -/
theorem table_settle_gathered (rs : List Reading) :
    (gathered rs).settle.table = Table.collected (fun p => p.2.key)
      (fun p => (p.1, switched (rs.filterMap Reading.disabled?) (grown rs p.2))) (opened rs) := by
  have hkey : ∀ p : Line × Schedule, (p.1, grown rs p.2).2.key = p.2.key := fun _ => rfl
  exact foldl_disable hkey _

/-! ## What is decoded in the end -/

/-- A schedule with all that lines say of it. -/
def completed (rs : List Reading) (s : Schedule) : Schedule :=
  match s.key with
  | .numbered id =>
    { s with commands := rs.filterMap (Reading.commandOf? id)
             enabled := !rs.any (Reading.disables id) }
  | .session _ _ _ => s

theorem key_completed (rs : List Reading) (s : Schedule) : (completed rs s).key = s.key := by
  unfold completed
  split <;> rfl

/-- The schedules that are collected are those that were opened, with all that lines say. -/
theorem openings_eq {rs : List Reading} (hrs : ∀ r ∈ rs, r.IsRead) :
    openings rs = (opened rs).map fun p => (p.1, completed rs p.2) := by
  rw [openings, opened, List.map_filterMap]
  refine List.filterMap_congr fun r hr => ?_
  have hread := hrs r hr
  obtain ⟨line, content, spoils⟩ := r
  rcases content with fault | ⟨id⟩ | ⟨id, trigger, command⟩ | s
  · rfl
  · rfl
  · have hkey : key { id, trigger } = .numbered id :=
      IsNumbered.key_eq (hread.ofCommand id trigger command rfl)
    have hcompleted : completed rs { id, trigger } =
        { id, trigger, commands := rs.filterMap (Reading.commandOf? id),
          enabled := !rs.any (Reading.disables id) } := by
      rw [completed, hkey]
    exact congrArg (fun s => some (line, s)) hcompleted.symm
  · have hcompleted : completed rs s = s := by
      unfold completed
      split
      · next id hkey => exact absurd hkey (hread.ofSession s rfl id)
      · rfl
    exact congrArg (fun s => some (line, s)) hcompleted.symm

/-- **A schedule that is not spoiled** has all commands of its number in the table. -/
theorem completed_eq_of_not_spoiled {lines : List Line} {p : Line × Schedule}
    (hp : p ∈ opened (readings lines)) (hspoiled : p.2.key ∉ spoiledKeys (readings lines)) :
    completed (readings lines) p.2 =
      switched ((readings lines).filterMap Reading.disabled?) (grown (readings lines) p.2) := by
  have hrs : ∀ r ∈ readings lines, r.IsRead := fun r => isRead_of_mem_readings
  cases hkey : p.2.key with
  | session pp days time =>
    have hgrown : grown (readings lines) p.2 = p.2 := by
      refine grown_of_forall fun r _ => r.addsTo?_of_session fun id hid => ?_
      cases hkey.symm.trans hid
    have hnone : (((readings lines).filterMap Reading.disabled?).any fun id =>
        p.2.key = .numbered id) = false := List.any_eq_false.mpr fun id _ => by simp [hkey]
    rw [completed, hkey, hgrown, switched, hnone, Bool.not_false, Bool.and_true]
  | numbered id =>
    obtain ⟨r, hr, hopened⟩ := List.mem_filterMap.mp hp
    obtain ⟨hs, htrigger⟩ := (hrs r hr).of_opened?_of_numbered hopened hkey
    rw [hkey] at hspoiled
    obtain ⟨-, trigger, hcommands⟩ := not_mem_spoiledKeys_iff.mp hspoiled
    have htriggers : ∀ t ∈ (readings lines).filterMap (Reading.triggerOf? id), t = trigger := by
      rw [filterMap_triggerOf?, List.forall_mem_map]
      exact hcommands
    have hinForce : p.2.trigger = trigger :=
      htriggers _ (List.mem_filterMap.mpr ⟨r, hr, htrigger⟩)
    have hadds : (readings lines).filterMap (Reading.addsTo? p.2) =
        (readings lines).filterMap (Reading.commandOf? id) :=
      List.filterMap_congr fun x hx => Reading.addsTo?_eq_commandOf? hkey fun t ht =>
        (htriggers t (List.mem_filterMap.mpr ⟨x, hx, ht⟩)).trans hinForce.symm
    have hdisables : (((readings lines).filterMap Reading.disabled?).any fun n =>
        (grown (readings lines) p.2).key = .numbered n) =
          (readings lines).any (Reading.disables id) := by
      have hgrown : (grown (readings lines) p.2).key = .numbered id := hkey
      rw [Bool.eq_iff_iff, List.any_eq_true, List.any_eq_true]
      simp only [hgrown, decide_eq_true_eq, ScheduleKey.numbered.injEq, exists_eq_right',
        List.mem_filterMap, Reading.disables_iff]
    have hempty : p.2.commands = [] := congrArg Schedule.commands hs
    have henabled : p.2.enabled = true := congrArg Schedule.enabled hs
    rw [completed, hkey, switched, hdisables]
    simp only [grown, hadds, hempty, List.nil_append, henabled, Bool.true_and]

/-- **Decoding line by line** comes to the same. -/
theorem gatherLines_eq (lines : List Line) : gatherLines lines = decodeLines lines := by
  have hrs : ∀ r ∈ readings lines, r.IsRead := fun r => isRead_of_mem_readings
  have hrun : (readings lines).foldl Gathering.gather (gathered []) = gathered (readings lines) :=
    foldl_eq_of_step fun front r hfront => gather_gathered
      (fun x hx => hrs x (hfront.subset (List.mem_append_left _ hx)))
      (hrs r (hfront.subset (List.mem_append_right _ (List.mem_singleton_self r))))
  have hstart : gathered [] = {} := rfl
  have hdecode : decodeLines lines =
      .concat ((faults (readings lines)).map fun f =>
        .rejected featureName f.1 (.malformed f.2.1)) ++
      .concat (((firstOfEach (fun p => p.2.key) (openings (readings lines))).filter fun p =>
        !(spoiledKeys (readings lines)).contains p.2.key).map fun p =>
          .checked featureName validate p.1 p.2) := rfl
  have hopenings : firstOfEach (fun p => p.2.key) (openings (readings lines)) =
      (firstOfEach (fun p => p.2.key) (opened (readings lines))).map fun p =>
        (p.1, completed (readings lines) p.2) := by
    rw [openings_eq hrs, ← map_firstOfEach]
    simp only [key_completed]
  rw [gatherLines, ← hstart, ← readings, hrun,
    Gathered.finish_collected (table_settle_gathered (readings lines)), hdecode, hopenings,
    List.filter_map, List.map_map]
  simp only [Function.comp_def, key_completed]
  refine congrArg (_ ++ Decoded.concat ·) (List.map_congr_left fun p hp => ?_)
  obtain ⟨hfirst, hkept⟩ := List.mem_filter.mp hp
  have hspoiled : p.2.key ∉ (gathered (readings lines)).settle.spoiled := by simpa using hkept
  rw [completed_eq_of_not_spoiled ((firstOfEach_sublist _ _).subset hfirst) hspoiled]

end RouterConfig.Schedule
