import RouterConfig.Device
import RouterConfig.Dialect.Rtx
import RouterConfig.Proofs.Text.Words

/-!
# Submitting up to the first failure

An executor is a machine: its answer to a command depends on what it was asked before.  What it
would answer to a list of commands, asked one after the other, is a list of *exchanges*, and
whether an exchange is a failure is told from the exchange and the dialect alone.

A submission goes through the exchanges up to and including the first failure
(`submit_stops_at_first_failure`).  What was sent is not seen in its result, so it is read off an
executor that writes down each command it is asked (`Executor.recorded`), and answers as before.
-/

namespace RouterConfig

open Text

/-! ## Fragments of an answer -/

theorem Text.occursIn_eq_true_iff {part whole : List Char} :
    occursIn part whole = true ↔ part <:+: whole := by
  induction whole with
  | nil => rw [occursIn, List.isEmpty_iff, List.infix_nil]
  | cons c cs ih =>
    rw [occursIn, Bool.or_eq_true, ih, List.isPrefixOf_iff_prefix, List.infix_cons_iff]

/-- A mark stands somewhere in an answer, both in small letters. -/
def Occurs (mark output : String) : Prop :=
  lowercase mark.toList <:+: lowercase output.toList

instance (mark output : String) : Decidable (Occurs mark output) :=
  decidable_of_iff _ occursIn_eq_true_iff

theorem occursIgnoringCase_eq_decide (mark output : String) :
    occursIgnoringCase mark output = decide (Occurs mark output) := by
  rw [Bool.eq_iff_iff, decide_eq_true_iff]
  exact occursIn_eq_true_iff

/-! ## Exchanges -/

/-- A command, and the answer to it or why there is none. -/
structure Exchange where
  command : String
  answer : Except Error String
deriving DecidableEq

namespace Exchange

variable (dialect : Dialect)

/-- The command deletes what the answer says is not there. -/
def DeletesNothing (command output : String) : Prop :=
  "no ".toList <+: command.toList ∧ ∃ mark ∈ dialect.notFoundMarks, Occurs mark output

instance (command output : String) : Decidable (DeletesNothing dialect command output) :=
  inferInstanceAs (Decidable (_ ∧ _))

/-- There is no answer, or one that rejects the command. -/
def Fails (x : Exchange) : Prop :=
  match x.answer with
  | .error _ => True
  | .ok output =>
    (∃ mark ∈ dialect.failureMarks, Occurs mark output) ∧ ¬ DeletesNothing dialect x.command output

/-- The error of a failure: that of the executor, or else the first mark in the order of the
dialect that stands in the answer. -/
def HasError (x : Exchange) (error : Error) : Prop :=
  match x.answer with
  | .error e => error = e
  | .ok output => ∃ mark, dialect.failureMarks.find? (Occurs · output) = some mark ∧
      error = .executor (.commandFailed x.command mark)

/-- The response is the one to a command that was carried out. -/
def HasResponse (x : Exchange) (response : Response) : Prop :=
  response.command = x.command ∧ x.answer = .ok response.result ∧ response.isSuccess = true

end Exchange

/-- The executor that also writes down each command it is asked. -/
def Executor.recorded {σ : Type} (e : Executor σ) : Executor (σ × List String) where
  execute s command :=
    ((e.execute s.1 command).1, (e.execute s.1 command).2, s.2 ++ [command])

namespace Device

variable {σ : Type} (device : Device σ)

/-- The exchange when the command is sent in the state `s`. -/
def exchange (s : σ) (command : String) : Exchange :=
  ⟨command, (device.executor.execute s command).1⟩

/-- The state when the command was sent. -/
def after (s : σ) (command : String) : σ :=
  (device.executor.execute s command).2

/-- The exchanges if all commands were sent. -/
def exchanges (s : σ) : List String → List Exchange
  | [] => []
  | command :: rest => device.exchange s command :: exchanges (device.after s command) rest

/-- The device behind an executor that writes down what it is asked. -/
def recorded : Device (σ × List String) where
  executor := device.executor.recorded
  dialect := device.dialect

/-- The commands that are sent. -/
def sent (s : σ) (commands : List String) : List String :=
  (device.recorded.submit (s, []) commands).state.2

@[simp] theorem map_command_exchanges (s : σ) (commands : List String) :
    (device.exchanges s commands).map Exchange.command = commands := by
  induction commands generalizing s with
  | nil => rfl
  | cons command rest ih =>
    rw [exchanges, List.map_cons, ih]
    rfl

/-! ## One command -/

theorem failureIn?_eq (dialect : Dialect) (output : String) :
    dialect.failureIn? output = dialect.failureMarks.find? (Occurs · output) := by
  rw [Dialect.failureIn?]
  congr 1
  funext mark
  exact occursIgnoringCase_eq_decide mark output

theorem isAlreadyAbsent_eq_true_iff {dialect : Dialect} {command output : String} :
    isAlreadyAbsent dialect command output = true ↔
      Exchange.DeletesNothing dialect command output := by
  have hlead : startsWith "no " command = true ↔ "no ".toList <+: command.toList := by
    rw [startsWith_eq_true_iff]
    exact exists_congr fun rest => eq_comm
  rw [isAlreadyAbsent, Bool.and_eq_true, hlead, Dialect.reportsNotFound, List.any_eq_true]
  simp only [occursIgnoringCase_eq_decide, decide_eq_true_iff, Exchange.DeletesNothing]

/-- The response to an answer carries its first failure mark, unless the command deletes what is
not there. -/
theorem classify_eq (dialect : Dialect) (command output : String) :
    classify dialect command output = ⟨command, output,
      if Exchange.DeletesNothing dialect command output then none
      else dialect.failureMarks.find? (Occurs · output)⟩ := by
  rw [classify, failureIn?_eq]
  split
  · next hnone => rw [hnone, ite_self]
  · next mark hmark =>
    by_cases habsent : Exchange.DeletesNothing dialect command output
    · rw [if_pos (isAlreadyAbsent_eq_true_iff.mpr habsent), if_pos habsent]
    · rw [if_neg fun h => habsent (isAlreadyAbsent_eq_true_iff.mp h), if_neg habsent, hmark]

variable {device} {s : σ} {command : String}

/-- The result of sending one command is told from the exchange, and the executor was asked
whatever the answer is. -/
theorem sendCommand_eq : ∃ journal, device.sendCommand s command =
    ⟨(device.exchange s command).answer.map (classify device.dialect command),
      device.after s command, journal⟩ := by
  rw [sendCommand, exchange, after]
  split
  · next h => exact ⟨[], by rw [h]; rfl⟩
  · next h => exact ⟨_, by rw [h]; rfl⟩

/-- **A command that does not fail** has a response, and the others follow. -/
theorem submit_cons_of_not_fails (rest : List String)
    (h : ¬ (device.exchange s command).Fails device.dialect) :
    ∃ response, (device.exchange s command).HasResponse response ∧
      (device.submit s (command :: rest)).result =
        (device.submit (device.after s command) rest).result.map (response :: ·) ∧
      (device.submit s (command :: rest)).state =
        (device.submit (device.after s command) rest).state := by
  obtain ⟨journal, hsend⟩ := @sendCommand_eq σ device s command
  cases hanswer : (device.exchange s command).answer with
  | error e => exact absurd (by simp [Exchange.Fails, hanswer]) h
  | ok output =>
    simp only [Exchange.Fails, hanswer, not_and, not_not] at h
    have hnone : (classify device.dialect command output).failure = none := by
      rw [classify_eq]
      split
      · rfl
      · next habsent =>
        refine List.find?_eq_none.mpr fun mark hmem hoccurs => habsent (h ⟨mark, hmem, ?_⟩)
        simpa using hoccurs
    refine ⟨classify device.dialect command output, ⟨?_, ?_, ?_⟩, ?_, ?_⟩
    · rw [classify_eq]
      rfl
    · rw [classify_eq, hanswer]
    · rw [Response.isSuccess, hnone]
      rfl
    · simp only [submit, hsend, hanswer, Except.map, hnone]
    · simp only [submit, hsend, hanswer, Except.map, hnone]

/-- **A command that fails** ends the submission with its error. -/
theorem submit_cons_of_fails (rest : List String)
    (h : (device.exchange s command).Fails device.dialect) :
    ∃ error, (device.exchange s command).HasError device.dialect error ∧
      (device.submit s (command :: rest)).result = .error error ∧
      (device.submit s (command :: rest)).state = device.after s command := by
  obtain ⟨journal, hsend⟩ := @sendCommand_eq σ device s command
  cases hanswer : (device.exchange s command).answer with
  | error e =>
    refine ⟨e, by simp only [Exchange.HasError, hanswer], ?_, ?_⟩
    · simp only [submit, hsend, hanswer, Except.map]
    · simp only [submit, hsend, hanswer, Except.map]
  | ok output =>
    simp only [Exchange.Fails, hanswer] at h
    obtain ⟨⟨m, hmem, hoccurs⟩, habsent⟩ := h
    obtain ⟨mark, hmark⟩ :
        ∃ mark, device.dialect.failureMarks.find? (Occurs · output) = some mark :=
      Option.isSome_iff_exists.mp (List.find?_isSome.mpr ⟨m, hmem, by simpa using hoccurs⟩)
    have hfailure : (classify device.dialect command output).failure = some mark := by
      rw [classify_eq, ← hmark]
      exact if_neg habsent
    refine ⟨.executor (.commandFailed command mark), ?_, ?_, ?_⟩
    · simp only [Exchange.HasError, hanswer]
      exact ⟨mark, hmark, rfl⟩
    · simp only [submit, hsend, hanswer, Except.map, hfailure]
    · simp only [submit, hsend, hanswer, Except.map, hfailure]

/-! ## What is sent -/

/-- What was written down before stays in front. -/
theorem state_recorded_submit (s : σ) (written commands : List String) :
    (device.recorded.submit (s, written) commands).state.2 = written ++ device.sent s commands := by
  induction commands generalizing s written with
  | nil => exact (List.append_nil _).symm
  | cons command rest ih =>
    rw [sent]
    by_cases h : (device.exchange s command).Fails device.dialect
    · have hlast : ∀ ws, (device.recorded.submit (s, ws) (command :: rest)).state.2 =
          ws ++ [command] := by
        intro ws
        obtain ⟨-, -, -, hstate⟩ := @submit_cons_of_fails _ device.recorded (s, ws)
          command rest h
        rw [hstate]
        rfl
      rw [hlast, hlast, List.nil_append]
    · have hnext : ∀ ws, (device.recorded.submit (s, ws) (command :: rest)).state.2 =
          ws ++ [command] ++ device.sent (device.after s command) rest := by
        intro ws
        obtain ⟨-, -, -, hstate⟩ := @submit_cons_of_not_fails _ device.recorded (s, ws)
          command rest h
        rw [hstate, ← ih]
        rfl
      rw [hnext, hnext, List.nil_append, List.append_assoc]

theorem sent_cons_of_not_fails (rest : List String)
    (h : ¬ (device.exchange s command).Fails device.dialect) :
    device.sent s (command :: rest) = command :: device.sent (device.after s command) rest := by
  obtain ⟨-, -, -, hstate⟩ := @submit_cons_of_not_fails _ device.recorded (s, []) command rest h
  rw [sent, hstate]
  exact state_recorded_submit (device.after s command) [command] rest

theorem sent_cons_of_fails (rest : List String)
    (h : (device.exchange s command).Fails device.dialect) :
    device.sent s (command :: rest) = [command] := by
  obtain ⟨-, -, -, hstate⟩ := @submit_cons_of_fails _ device.recorded (s, []) command rest h
  rw [sent, hstate]
  rfl

/-! ## The whole submission -/

/-- Nothing fails: all commands are sent, and each has its response. -/
structure SubmitsAll (device : Device σ) (s : σ) (commands : List String)
    (responses : List Response) : Prop where
  noFailure : ∀ x ∈ device.exchanges s commands, ¬ x.Fails device.dialect
  sent : device.sent s commands = commands
  result : (device.submit s commands).result = .ok responses
  responses : List.Forall₂ Exchange.HasResponse (device.exchanges s commands) responses

/-- The exchange `x` behind `front` is the first that fails: its command is the last that is sent,
and its error is the result. -/
structure StopsAt (device : Device σ) (s : σ) (commands : List String) (front : List Exchange)
    (x : Exchange) (error : Error) : Prop where
  place : front ++ [x] <+: device.exchanges s commands
  earlier : ∀ y ∈ front, ¬ y.Fails device.dialect
  fails : x.Fails device.dialect
  sent : device.sent s commands = (front ++ [x]).map Exchange.command
  result : (device.submit s commands).result = .error error
  error : x.HasError device.dialect error

theorem submitsAll_or_stopsAt (device : Device σ) (s : σ) (commands : List String) :
    (∃ responses, device.SubmitsAll s commands responses) ∨
      ∃ front x error, device.StopsAt s commands front x error := by
  induction commands generalizing s with
  | nil => exact Or.inl ⟨[], ⟨List.forall_mem_nil _, rfl, rfl, .nil⟩⟩
  | cons command rest ih =>
    have hplace : device.exchanges s (command :: rest) =
        device.exchange s command :: device.exchanges (device.after s command) rest := rfl
    by_cases h : (device.exchange s command).Fails device.dialect
    · obtain ⟨error, herror, hresult, -⟩ := submit_cons_of_fails rest h
      refine Or.inr ⟨[], _, error, ⟨?_, List.forall_mem_nil _, h, ?_, hresult, herror⟩⟩
      · rw [hplace]
        exact List.prefix_append [_] _
      · exact sent_cons_of_fails rest h
    · obtain ⟨response, hresponse, hresult, -⟩ := submit_cons_of_not_fails rest h
      have hsent := sent_cons_of_not_fails rest h
      rcases ih (device.after s command) with ⟨responses, hall⟩ | ⟨front, x, error, hstops⟩
      · refine Or.inl ⟨response :: responses, ⟨?_, ?_, ?_, ?_⟩⟩
        · rw [hplace]
          exact List.forall_mem_cons.mpr ⟨h, hall.noFailure⟩
        · rw [hsent, hall.sent]
        · rw [hresult, hall.result]
          rfl
        · rw [hplace]
          exact .cons hresponse hall.responses
      · refine Or.inr ⟨device.exchange s command :: front, x, error,
          ⟨?_, ?_, hstops.fails, ?_, ?_, hstops.error⟩⟩
        · rw [hplace]
          exact List.cons_prefix_cons.mpr ⟨rfl, hstops.place⟩
        · exact List.forall_mem_cons.mpr ⟨h, hstops.earlier⟩
        · rw [hsent, hstops.sent, List.cons_append, List.map_cons]
          rfl
        · rw [hresult, hstops.result]
          rfl

/-- **A submission stops at the first failure.**  If nothing fails, all commands are sent and each
has its response; otherwise the first command that fails is the last that is sent, and its error
is the result.  For a record that has no commands nothing is sent. -/
theorem submit_stops_at_first_failure {ρ : Type} [Feature ρ] (device : Device σ) (s : σ) :
    (∀ commands, (device.exchanges s commands).map Exchange.command = commands ∧
      ((∃ responses, device.SubmitsAll s commands responses) ∨
        ∃ front x error, device.StopsAt s commands front x error)) ∧
    ∀ (record : ρ) (intent : Intent), device.recorded.apply (s, []) record intent =
      match Feature.encode record intent with
      | .error error => ⟨.error (.validation error), (s, []), []⟩
      | .ok commands => device.recorded.submit (s, []) commands := by
  refine ⟨fun commands => ⟨map_command_exchanges device s commands,
    submitsAll_or_stopsAt device s commands⟩, fun record intent => ?_⟩
  cases hencode : Feature.encode record intent with
  | error error => simp only [apply, hencode]
  | ok commands => simp only [apply, hencode]

/-- A device on which the filter 2 cannot be set and no filter can be removed. -/
def strictDevice : Device Unit where
  executor :=
    ⟨fun _ command =>
      if command = "ip filter 2 pass * * udp" then (.ok "Error: Invalid parameter", ())
      else if startsWith "no " command then (.ok "Error: Filter not found", ())
      else (.ok "", ())⟩
  dialect := Rtx.dialect

/-- Removes a filter that is not there, and sets two others. -/
def filterCommands : List String :=
  ["no ip filter 9", "ip filter 2 pass * * udp", "ip filter 3 pass * * icmp"]

example :
    (strictDevice.submit () filterCommands).result =
      .error (.executor (.commandFailed "ip filter 2 pass * * udp" "Error:")) ∧
    strictDevice.sent () filterCommands = ["no ip filter 9", "ip filter 2 pass * * udp"] := by
  decide +kernel

end Device

end RouterConfig
