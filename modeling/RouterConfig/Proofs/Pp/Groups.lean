import RouterConfig.Proofs.Pp.Records
import RouterConfig.Proofs.Stanza.Fronts

/-!
# The group of a session

As with tunnels, the commands of a session make a group (`isGroup`).  The selector is
part of the command that opens it, and is read from there as a number or as the name
`anonymous`.  Only the switch closes the group, and it is the last of the commands that
say something.
-/

namespace RouterConfig

open Text Rtx Scanner

/-! ## Selecting -/

/-- What the groups of a session are known by. -/
def PpSelector.contextId : PpSelector → ContextId
  | .number n => .number n
  | .anonymous => .name "anonymous"

theorem PpSelector.ofContext?_eq_some_iff {key : ContextId} {selector : PpSelector} :
    ofContext? key = some selector ↔ selector.contextId = key := by
  cases key with
  | number n => cases selector <;> simp [ofContext?, contextId, eq_comm]
  | name s => cases selector <;> simp [ofContext?, contextId, eq_comm]

@[simp] theorem PpSelector.read_render (selector : PpSelector) :
    ContextId.read selector.render = selector.contextId := by
  cases selector with
  | number n => exact ContextId.read_numeral n
  | anonymous => decide

theorem PpSelector.admits_render (selector : PpSelector) :
    (PatternSlot.digitsOr "anonymous").admits selector.render.toList = true := by
  cases selector with
  | number n => simp [PatternSlot.admits, render, isDigitRun_numeral]
  | anonymous => decide

namespace PpInterface

/-- The command that selects a session opens its group. -/
theorem opens_select (pp : PpInterface) :
    Opens dialect.contexts ppContext pp.selector.contextId pp.selectCommand := by
  have htext := toList_phrase_three "pp" "select" pp.selector.render
  rw [← PpSelector.read_render]
  exact opens_of_stem [tunnelContext] [] (by decide) (by decide) rfl pp.selector.admits_render htext

theorem closes_leaveCommand : Closes dialect.contexts ppContext leaveCommand := by
  constructor <;> decide

end PpInterface

/-! ## Saying settings -/

namespace PpSetting

/-- How the commands start that switch a session. -/
def switchFronts : List String := ["pp enable ", "pp disable "]

/-- How all other commands start that say a setting. -/
def plainFronts : List String :=
  ["description ", "pppoe ", "pp bind ", "pp auth ", "pp always-on ", "pp disconnect ", "ip pp "]

/-- How the command of a setting starts. -/
def front : PpSetting → String
  | .description _ => "description "
  | .pppoeUse _ => "pppoe "
  | .bind _ => "pp bind "
  | .pppoeServiceName _ => "pppoe "
  | .pppoeAcName _ => "pppoe "
  | .authAccept _ => "pp auth "
  | .authRequest _ => "pp auth "
  | .authMyname _ => "pp auth "
  | .alwaysOn _ => "pp always-on "
  | .disconnectTime _ => "pp disconnect "
  | .ipAddress _ => "ip pp "
  | .remoteAddressPool _ => "ip pp "
  | .mtu _ => "ip pp "
  | .tcpMssLimit _ => "ip pp "
  | .natDescriptor _ => "ip pp "
  | .secureFilter _ _ => "ip pp "
  | .switch true _ => "pp enable "
  | .switch false _ => "pp disable "

theorem keepsFront_of_mem : ∀ front ∈ plainFronts ++ switchFronts,
    KeepsFront dialect.contexts ppContext front := by
  decide

theorem apart_of_mem_plainFronts : ∀ front ∈ plainFronts, ∀ p ∈ ppContext.trailer,
    Apart p.stem front := by
  decide

theorem front_mem (s : PpSetting) : s.front ∈ plainFronts ++ switchFronts := by
  cases s with
  | switch on selector =>
    cases on with
    | false => simp [front, switchFronts]
    | true => simp [front, switchFronts]
  | _ => simp [front, plainFronts]

theorem front_mem_plainFronts {s : PpSetting} (hs : ∀ on selector, s ≠ .switch on selector) :
    s.front ∈ plainFronts := by
  cases s with
  | switch on selector => exact absurd rfl (hs on selector)
  | _ => simp [front, plainFronts]

theorem exists_front (s : PpSetting) :
    ∃ rest, (phrase s.words).toList = s.front.toList ++ rest := by
  cases s with
  | description d =>
    obtain ⟨text, keyword⟩ := d
    cases keyword with
    | false => exact ⟨_, toList_phrase_cons ..⟩
    | true => exact ⟨_, toList_phrase_cons ..⟩
  | pppoeUse interface => exact ⟨_, toList_phrase_cons ..⟩
  | pppoeServiceName name => exact ⟨_, toList_phrase_cons ..⟩
  | pppoeAcName name => exact ⟨_, toList_phrase_cons ..⟩
  | switch on selector =>
    cases on with
    | false => exact ⟨_, toList_phrase_cons_cons ..⟩
    | true => exact ⟨_, toList_phrase_cons_cons ..⟩
  | _ => exact ⟨_, toList_phrase_cons_cons ..⟩

/-- No setting leaves the group. -/
theorem stays (s : PpSetting) : Stays dialect.contexts ppContext (phrase s.words) := by
  obtain ⟨rest, htext⟩ := s.exists_front
  exact stays_of_front (keepsFront_of_mem s.front s.front_mem) htext

/-- Only a switch closes the group. -/
theorem isTrailer_eq_false {s : PpSetting} (hs : ∀ on selector, s ≠ .switch on selector) :
    ppContext.isTrailer (phrase s.words) = false := by
  obtain ⟨rest, htext⟩ := s.exists_front
  exact isTrailer_of_front (apart_of_mem_plainFronts s.front (front_mem_plainFronts hs)) htext

end PpSetting

namespace PpInterface

variable {pp : PpInterface}

/-- The settings that are written first are not the switch. -/
theorem not_switch_of_mem_settings :
    ∀ s ∈ pp.settings, ∀ on selector, s ≠ .switch on selector := by
  intro s hs on selector hswitch
  rw [hswitch, settings] at hs
  simp at hs

/-- The switch is the last setting. -/
theorem not_switch_of_mem_dropLast :
    ∀ s ∈ (pp.settings ++ pp.switchSettings).dropLast, ∀ on selector, s ≠ .switch on selector := by
  rw [switchSettings]
  split
  · rw [List.dropLast_concat]
    exact not_switch_of_mem_settings
  · rw [List.append_nil]
    exact fun s hs => not_switch_of_mem_settings s (List.dropLast_subset _ hs)

/-- **The commands of a session make its group.** -/
theorem isGroup (pp : PpInterface) :
    IsGroup dialect.contexts ppContext pp.selector.contextId pp.selectCommand pp.sayings
      leaveCommand := by
  refine ⟨opens_select pp, ?_, ?_, closes_leaveCommand⟩
  · rw [sayings, List.forall_mem_map]
    exact fun s _ => s.stays
  · rw [sayings, ← List.map_dropLast, List.forall_mem_map]
    exact fun s hs => PpSetting.isTrailer_eq_false (not_switch_of_mem_dropLast s hs)

end PpInterface

end RouterConfig
