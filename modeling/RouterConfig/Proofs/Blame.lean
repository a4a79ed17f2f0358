import RouterConfig.Proofs.Pp.Blame
import RouterConfig.Proofs.Tunnel.Blame

/-!
# Broken rules and the lines that are blamed for them

When a tunnel or a session breaks a rule although each of its commands was read, one line of its
group is rejected with the rule as the reason.  It is the first line that sets the field of the
rule exactly if the lead of the field finds that line (`broken_rule_is_blamed`).

It need not.  All settings of the key exchange have one lead, so that the first of them is
blamed for each.  And a lead is compared with the line as it stands, while the words of a command
may have any blanks between them; where no line starts with the lead, the first of the group is
blamed for what another sets (`another_line_is_blamed`).
-/

namespace RouterConfig

open Text

/-- **A broken rule is blamed** on one line.  It is the first that sets the field of the rule
exactly if the lead of the field finds that one; the lead is right for it as far as the words
go, and other lines that start with the lead set something in the same block or nothing. -/
theorem broken_rule_is_blamed (front back : List Line) (first : Line) (error : ValidationError) :
    (∀ {id : UInt32} {t : Tunnel},
      Selection.applyLines Tunnel.apply { id } (front ++ first :: back) = .ok (t, []) →
      Tunnel.validate t = some error → IsFirstToSet Tunnel.pathOf? error.field front first →
      ∃ blamed, Tunnel.decodeContext id (front ++ first :: back) =
          .ok (.rejected Tunnel.featureName blamed
            (.within Rtx.tunnelKind (numeral id) (.breaksRule error))) ∧
        BlamesFor Tunnel.pathOf? (Tunnel.blame error.field) error.field front first back blamed) ∧
    ∀ {selector : PpSelector} {pp : PpInterface},
      Selection.applyLines PpInterface.apply { selector } (front ++ first :: back) = .ok (pp, []) →
      PpInterface.validate pp = some error →
      IsFirstToSet PpInterface.pathOf? error.field front first →
      ∃ blamed, PpInterface.decodeContext selector (front ++ first :: back) =
          .ok (.rejected PpInterface.featureName blamed
            (.within Rtx.ppKind selector.render (.breaksRule error))) ∧
        BlamesFor PpInterface.pathOf? (PpInterface.blame error.field) error.field front first back
          blamed := by
  constructor
  · intro id t hall hbroken hfirst
    exact Selection.exists_blamed TunnelSetting.leadWords_of_read
      (Tunnel.leadFits_blame (Tunnel.field_of_validate hbroken)) hall hbroken hfirst
  · intro selector pp hall hbroken hfirst
    exact Selection.exists_blamed PpSetting.leadWords_of_read
      (PpInterface.leadFits_blame (PpInterface.field_of_validate hbroken)) hall hbroken hfirst

/-- A line that sets an interval that is too long. -/
def keepaliveLine : Line := ⟨3, 2, "ipsec ike keepalive use 1 on dpd 9999"⟩

/-- A line that sets a length that is too long. -/
def mtuLine : Line := ⟨3, 1, "ip pp mtu 9999"⟩

/-- In these groups the lead finds the line. -/
theorem broken_rule_is_blamed_found :
    Tunnel.decodeContext 1 [⟨2, 1, "ipsec tunnel 101"⟩, keepaliveLine,
        ⟨4, 2, "ipsec ike hash 1 sha"⟩] =
      .ok (.rejected Tunnel.featureName keepaliveLine (.within Rtx.tunnelKind (numeral 1)
        (.breaksRule ⟨Tunnel.featureName, "ike.keepalive.interval", .outOfRange 9999 1 600⟩))) ∧
    PpInterface.decodeContext (.number 1) [⟨2, 1, "pppoe use lan2"⟩, mtuLine] =
      .ok (.rejected PpInterface.featureName mtuLine (.within Rtx.ppKind
        (PpSelector.number 1).render (.breaksRule
          ⟨PpInterface.featureName, "mtu", .outOfRange 9999 64 1500⟩))) := by
  constructor
  · let t : Tunnel := { id := 1, ipsecTunnel := some 101
                        ike := some { id := 1, keepalive := some (.dpd 9999 none)
                                      hash := some "sha" } }
    have hall : Selection.applyLines Tunnel.apply { id := 1 } ([⟨2, 1, "ipsec tunnel 101"⟩] ++
        keepaliveLine :: [⟨4, 2, "ipsec ike hash 1 sha"⟩]) = .ok (t, []) := by decide +kernel
    have hbroken : Tunnel.validate t = some
        ⟨Tunnel.featureName, "ike.keepalive.interval", .outOfRange 9999 1 600⟩ := by
      decide +kernel
    have hfirst : IsFirstToSet Tunnel.pathOf? "ike.keepalive.interval"
        [⟨2, 1, "ipsec tunnel 101"⟩] keepaliveLine := ⟨by decide +kernel, by decide +kernel⟩
    obtain ⟨blamed, hdecode, hblames⟩ :=
      (broken_rule_is_blamed _ _ _ _).1 hall hbroken hfirst
    obtain ⟨htext, hnumber⟩ := hblames.eq_iff.mpr (by decide +kernel)
    refine hdecode.trans ?_
    rw [Decoded.rejected, Decoded.rejected, htext, hnumber]
  · let pp : PpInterface := { selector := .number 1, pppoeUse := some "lan2", mtu := some 9999 }
    have hall : Selection.applyLines PpInterface.apply { selector := .number 1 }
        ([⟨2, 1, "pppoe use lan2"⟩] ++ mtuLine :: []) = .ok (pp, []) := by decide +kernel
    have hbroken : PpInterface.validate pp = some
        ⟨PpInterface.featureName, "mtu", .outOfRange 9999 64 1500⟩ := by decide +kernel
    have hfirst : IsFirstToSet PpInterface.pathOf? "mtu" [⟨2, 1, "pppoe use lan2"⟩] mtuLine :=
      ⟨by decide +kernel, by decide +kernel⟩
    obtain ⟨blamed, hdecode, hblames⟩ :=
      (broken_rule_is_blamed _ _ _ _).2 hall hbroken hfirst
    obtain ⟨htext, hnumber⟩ := hblames.eq_iff.mpr (by decide +kernel)
    refine hdecode.trans ?_
    rw [Decoded.rejected, Decoded.rejected, htext, hnumber]

/-- **Another line is blamed** than the first that sets the field: one with the same lead that
sets something else, or the first of the group, when there are two blanks inside the lead. -/
theorem another_line_is_blamed :
    (IsFirstToSet Tunnel.pathOf? "ike.keepalive.interval"
        [⟨1, 1, "ipsec tunnel 101"⟩, ⟨2, 2, "ipsec ike hash 1 sha"⟩] keepaliveLine ∧
      Tunnel.decodeContext 1 [⟨1, 1, "ipsec tunnel 101"⟩, ⟨2, 2, "ipsec ike hash 1 sha"⟩,
          keepaliveLine] =
        .ok (.rejected Tunnel.featureName ⟨2, 2, "ipsec ike hash 1 sha"⟩
          (.within "tunnel" "1" (.breaksRule
            ⟨Tunnel.featureName, "ike.keepalive.interval", .outOfRange 9999 1 600⟩)))) ∧
    IsFirstToSet PpInterface.pathOf? "mtu" [⟨2, 1, "pppoe use lan2"⟩] ⟨3, 1, "ip  pp mtu 9999"⟩ ∧
      PpInterface.decodeContext (.number 1) [⟨2, 1, "pppoe use lan2"⟩,
          ⟨3, 1, "ip  pp mtu 9999"⟩] =
        .ok (.rejected PpInterface.featureName ⟨2, 1, "pppoe use lan2"⟩ (.within "pp" "1"
          (.breaksRule ⟨PpInterface.featureName, "mtu", .outOfRange 9999 64 1500⟩))) := by
  refine ⟨⟨⟨?_, ?_⟩, ?_⟩, ⟨?_, ?_⟩, ?_⟩
  all_goals decide +kernel

end RouterConfig
