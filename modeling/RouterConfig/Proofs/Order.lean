import RouterConfig.Proofs.Pp.Order
import RouterConfig.Proofs.Tunnel.Order

/-!
# The order of settings

The lines inside the group of a tunnel or a session may stand in any order.  As long as no field
is set twice, a group comes to the same record with its lines in another order, or to none in
either case (`reordered_group_same_outcome`).  A field that is set twice keeps what was said last,
so there the order does matter.

The groups at the end are read forwards and backwards.  In those of a tunnel the association is
checked against the exchange the first time and the exchange against the association the second,
and where the two name different gateways another line is refused each time.
-/

namespace RouterConfig

/-- **A group with its lines in another order** has the same outcome, if none of its fields is set
twice: the same single record, or none. -/
theorem reordered_group_same_outcome {lines others : List Line} (hperm : lines.Perm others) :
    (∀ id, Tunnel.SetsOnce id lines →
      Decoded.SameOutcome (Tunnel.decodeContext id lines) (Tunnel.decodeContext id others)) ∧
    ∀ selector, PpInterface.SetsOnce selector lines →
      Decoded.SameOutcome (PpInterface.decodeContext selector lines)
        (PpInterface.decodeContext selector others) :=
  ⟨fun _ => Tunnel.sameOutcome_of_perm hperm, fun _ => PpInterface.sameOutcome_of_perm hperm⟩

-- a field that is set twice keeps what was said last
example : PpInterface.decodeContext (.number 1)
      [⟨2, 1, "pppoe use lan2"⟩, ⟨3, 1, "ip pp mtu 1400"⟩, ⟨4, 1, "ip pp mtu 1454"⟩] =
    .ok (.single { selector := .number 1, pppoeUse := some "lan2", mtu := some 1454 }) := by
  decide +kernel

/-- The lines of an office, its exchange first. -/
def officeLines : List Line :=
  [⟨2, 2, "ipsec ike hash 1 sha"⟩, ⟨3, 2, "ipsec sa policy 101 1 esp aes-cbc"⟩,
    ⟨4, 1, "ipsec tunnel 101"⟩, ⟨5, 2, "ipsec ike encryption 1 aes-cbc"⟩,
    ⟨6, 1, "l2tp syslog on"⟩, ⟨7, 1, "l2tp hostname office"⟩,
    ⟨8, 1, "ip tunnel secure filter in 1 2"⟩, ⟨9, 1, "ip tunnel secure filter out 3"⟩,
    ⟨10, 1, "tunnel encapsulation l2tp"⟩, ⟨11, 1, "tunnel enable 1"⟩]

/-- The lines of a session. -/
def providerLines : List Line :=
  [⟨2, 1, "pppoe use lan2"⟩, ⟨3, 1, "pp always-on on"⟩, ⟨4, 1, "ip pp mtu 1454"⟩,
    ⟨5, 1, "ip pp secure filter in 1"⟩, ⟨6, 1, "ip pp secure filter out 2"⟩,
    ⟨7, 1, "pp enable 1"⟩]

/-- Two gateways for one tunnel. -/
def twoGatewayLines : List Line :=
  [⟨2, 2, "ipsec ike hash 1 sha"⟩, ⟨3, 2, "ipsec sa policy 101 2 esp aes-cbc"⟩]

theorem reordered_group_same_outcome_reverse :
    (∃ t, Tunnel.decodeContext 1 officeLines = .ok (.single t) ∧
      Tunnel.decodeContext 1 officeLines.reverse = .ok (.single t)) ∧
    (Decoded.NoRecord (Tunnel.decodeContext 1 twoGatewayLines) ∧
      Decoded.NoRecord (Tunnel.decodeContext 1 twoGatewayLines.reverse)) ∧
    ∃ pp, PpInterface.decodeContext (.number 1) providerLines = .ok (.single pp) ∧
      PpInterface.decodeContext (.number 1) providerLines.reverse = .ok (.single pp) := by
  have hoffice : ∃ d, Tunnel.decodeContext 1 officeLines = .ok d ∧ d.records ≠ [] := by
    refine ⟨.single { id := 1, encapsulation := some .l2tp, ipsecTunnel := some 101
                      saPolicy := some ⟨101, 1, "esp", ["aes-cbc"]⟩
                      ike := some { id := 1, encryption := some "aes-cbc", hash := some "sha" }
                      l2tp := some { hostname := some "office", syslog := some true }
                      secureFilterIn := some ⟨[1, 2], []⟩, secureFilterOut := some ⟨[3], []⟩
                      enabled := true }, ?_, List.cons_ne_nil _ _⟩
    decide +kernel
  have hprovider : ∃ d, PpInterface.decodeContext (.number 1) providerLines = .ok d ∧
      d.records ≠ [] := by
    refine ⟨.single { selector := .number 1, pppoeUse := some "lan2", alwaysOn := some true
                      mtu := some 1454, secureFilterIn := some ⟨[1], []⟩
                      secureFilterOut := some ⟨[2], []⟩, enabled := true }, ?_,
      List.cons_ne_nil _ _⟩
    decide +kernel
  have hrefused : Tunnel.decodeContext 1 twoGatewayLines = .ok
      (.rejected Tunnel.featureName ⟨3, 2, "ipsec sa policy 101 2 esp aes-cbc"⟩
        (.within "tunnel" "1" (.malformed (.twoGateways 1 2)))) := by decide +kernel
  refine ⟨?_, ?_, ?_⟩
  · obtain ⟨d, hd, hne⟩ := hoffice
    rcases ((reordered_group_same_outcome officeLines.reverse_perm.symm).1 1
      (by decide +kernel)).record with hsame | ⟨hnone, -⟩
    · exact hsame
    · exact absurd (hnone d hd) hne
  · rcases ((reordered_group_same_outcome twoGatewayLines.reverse_perm.symm).1 1
      (by decide +kernel)).record with ⟨t, ht, -⟩ | hnone
    · rw [hrefused] at ht
      have hrecords := congrArg Decoded.records (Except.ok.inj ht)
      exact absurd hrecords.symm (List.cons_ne_nil _ _)
    · exact hnone
  · obtain ⟨d, hd, hne⟩ := hprovider
    rcases ((reordered_group_same_outcome providerLines.reverse_perm.symm).2 (.number 1)
      (by decide +kernel)).record with hsame | ⟨hnone, -⟩
    · exact hsame
    · exact absurd (hnone d hd) hne

end RouterConfig
