import RouterConfig.Proofs.Stanza.Fronts
import RouterConfig.Proofs.Tunnel.Records

/-!
# The group of a tunnel

The commands of a tunnel make a group: the line that selects it, its settings, and
the line that leaves it (`isGroup`).  What has to be seen is that no
setting is mistaken for a line that opens or leaves a group, and that only the one
that switches the tunnel on closes the group, which is the last.
-/

namespace RouterConfig

open Text Rtx Scanner

/-! ## Selecting -/

namespace Tunnel

/-- The command that selects a tunnel opens its group. -/
theorem opens_select (id : UInt32) :
    Opens dialect.contexts tunnelContext (.number id)
      (phrase ["tunnel", "select", numeral id]) := by
  have htext := toList_phrase_three "tunnel" "select" (numeral id)
  have hword : PatternSlot.digits.admits (numeral id).toList = true := isDigitRun_numeral id
  rw [← ContextId.read_numeral]
  exact opens_of_stem [] [ppContext] (by decide) (by simp) rfl hword htext

theorem closes_leaveCommand : Closes dialect.contexts tunnelContext leaveCommand := by
  constructor <;> decide

end Tunnel

/-! ## Saying settings -/

namespace TunnelSetting

/-- How the commands start that switch a tunnel. -/
def switchFronts : List String := ["tunnel enable ", "tunnel disable "]

/-- How all other commands start that say a setting. -/
def plainFronts : List String :=
  ["description ", "tunnel encapsulation ", "tunnel endpoint ", "ipsec ", "l2tp ", "ip tunnel "]

/-- How the command of a setting starts. -/
def front : TunnelSetting → String
  | .description _ => "description "
  | .encapsulation _ => "tunnel encapsulation "
  | .endpoint _ => "tunnel endpoint "
  | .ipsecTunnel _ => "ipsec "
  | .saPolicy _ => "ipsec "
  | .ike _ _ => "ipsec "
  | .l2tp _ => "l2tp "
  | .secureFilter _ _ => "ip tunnel "
  | .tcpMssLimit _ => "ip tunnel "
  | .switch true _ => "tunnel enable "
  | .switch false _ => "tunnel disable "

theorem keepsFront_of_mem : ∀ front ∈ plainFronts ++ switchFronts,
    KeepsFront dialect.contexts tunnelContext front := by
  decide

theorem apart_of_mem_plainFronts : ∀ front ∈ plainFronts, ∀ p ∈ tunnelContext.trailer,
    Apart p.stem front := by
  decide

theorem front_mem (s : TunnelSetting) : s.front ∈ plainFronts ++ switchFronts := by
  cases s with
  | switch on number =>
    cases on with
    | false => simp [front, switchFronts]
    | true => simp [front, switchFronts]
  | _ => simp [front, plainFronts]

theorem front_mem_plainFronts {s : TunnelSetting} (hs : ∀ on number, s ≠ .switch on number) :
    s.front ∈ plainFronts := by
  cases s with
  | switch on number => exact absurd rfl (hs on number)
  | _ => simp [front, plainFronts]

theorem exists_front (s : TunnelSetting) :
    ∃ rest, (phrase s.words).toList = s.front.toList ++ rest := by
  cases s with
  | l2tp setting =>
    obtain ⟨w, v, rest, hwords, -⟩ := Tunnel.startsWords_setting (.l2tp setting)
    obtain ⟨hw, -⟩ := List.cons_eq_cons.mp hwords
    exact ⟨_, by rw [hwords, ← hw, toList_phrase_cons]; rfl⟩
  | switch on number =>
    cases on with
    | false => exact ⟨_, toList_phrase_cons_cons ..⟩
    | true => exact ⟨_, toList_phrase_cons_cons ..⟩
  | endpoint e => exact ⟨_, toList_phrase_cons_cons ..⟩
  | encapsulation e => exact ⟨_, toList_phrase_cons_cons ..⟩
  | secureFilter direction binding => exact ⟨_, toList_phrase_cons_cons ..⟩
  | tcpMssLimit limit => exact ⟨_, toList_phrase_cons_cons ..⟩
  | _ => exact ⟨_, toList_phrase_cons ..⟩

/-- No setting leaves the group. -/
theorem stays (s : TunnelSetting) : Stays dialect.contexts tunnelContext (phrase s.words) := by
  obtain ⟨rest, htext⟩ := s.exists_front
  exact stays_of_front (keepsFront_of_mem s.front s.front_mem) htext

/-- Only a switch closes the group. -/
theorem isTrailer_eq_false {s : TunnelSetting} (hs : ∀ on number, s ≠ .switch on number) :
    tunnelContext.isTrailer (phrase s.words) = false := by
  obtain ⟨rest, htext⟩ := s.exists_front
  exact isTrailer_of_front (apart_of_mem_plainFronts s.front (front_mem_plainFronts hs)) htext

end TunnelSetting

namespace Tunnel

/-- The switch is the last setting. -/
theorem not_switch_of_mem_dropLast {t : Tunnel} :
    ∀ s ∈ t.settings.dropLast, ∀ on number, s ≠ .switch on number := by
  obtain ⟨others, hothers, hsettings⟩ : ∃ others : List TunnelSetting,
      (∀ s ∈ others, ∀ on number, s ≠ .switch on number) ∧
        t.settings = others ++ if t.enabled then [.switch true t.id] else [] := by
    refine ⟨_, ?_, rfl⟩
    intro s hs on number hswitch
    rw [hswitch] at hs
    simp at hs
  rw [hsettings]
  split
  · rwa [List.dropLast_concat]
  · rw [List.append_nil]
    exact fun s hs => hothers s (List.dropLast_subset _ hs)

/-- **The commands of a tunnel make its group.** -/
theorem isGroup (t : Tunnel) :
    IsGroup dialect.contexts tunnelContext (.number t.id) t.selectCommand t.body leaveCommand := by
  refine ⟨opens_select t.id, ?_, ?_, closes_leaveCommand⟩
  · rw [body, List.forall_mem_map]
    exact fun s _ => s.stays
  · rw [body, ← List.map_dropLast, List.forall_mem_map]
    exact fun s hs => TunnelSetting.isTrailer_eq_false (not_switch_of_mem_dropLast s hs)

end Tunnel

end RouterConfig
