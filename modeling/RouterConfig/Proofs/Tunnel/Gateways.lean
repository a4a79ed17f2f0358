import RouterConfig.Proofs.Tunnel.Records
import RouterConfig.Tunnel.Commands

/-!
# The gateway of a tunnel

A tunnel exchanges keys with one gateway.  The number of that gateway stands in each command
for the exchange, and also in the command for the security association.  A command that names
another gateway than the one in force is refused, and with it the whole tunnel.

What is in force is remembered in two places, as the gateway of the exchange and as that of the
association, and a command looks at one of them.  So reading a tunnel is a run of a small machine
over the names of gateways (`Gateways.meet`), whatever else the commands say.  It refuses any two
names that differ, apart from one case: as long as no command for the exchange was read, a second
association takes the place of the first, and nobody looks at the gateway of that one any more.
The names that are still looked at are those that *stand* (`standing`).
-/

namespace RouterConfig

open Text

/-! ## Names of gateways -/

/-- How a command names a gateway. -/
inductive GatewayName where
  /-- As the gateway of the security association. -/
  | association (gateway : UInt32)
  /-- As the one with which keys are exchanged. -/
  | exchange (gateway : UInt32)
deriving DecidableEq, Repr

namespace GatewayName

/-- The gateway that is named. -/
def gateway : GatewayName → UInt32
  | .association gateway => gateway
  | .exchange gateway => gateway

/-- The gateway is that of an association. -/
def isAssociation : GatewayName → Bool
  | .association _ => true
  | .exchange _ => false

/-- All names are of one gateway. -/
def Agree (names : List GatewayName) : Prop :=
  ∃ gateway, ∀ name ∈ names, name.gateway = gateway

/-- The names in front of the first one for the exchange. -/
def ahead (names : List GatewayName) : List GatewayName :=
  names.takeWhile isAssociation

/-- The names that stand: of those in front of the first one for the exchange only the last. -/
def standing (names : List GatewayName) : List GatewayName :=
  (ahead names).getLast?.toList ++ names.dropWhile isAssociation

/-- An association right behind another takes its place. -/
theorem standing_association_association (m n : UInt32) (names : List GatewayName) :
    standing (.association m :: .association n :: names) = standing (.association n :: names) := by
  rw [standing, standing]
  rfl

end GatewayName

/-- The name of a gateway in a setting. -/
def TunnelSetting.gatewayName? : TunnelSetting → Option GatewayName
  | .saPolicy policy => some (.association policy.gateway)
  | .ike gateway _ => some (.exchange gateway)
  | _ => none

namespace Tunnel

/-- The name of a gateway on a line. -/
def gatewayName? (text : String) : Option GatewayName :=
  (TunnelSetting.read text).toOption.join.bind TunnelSetting.gatewayName?

/-- The names of gateways on the lines of a group, in their order. -/
def gatewayNames (lines : List Line) : List GatewayName :=
  lines.filterMap fun line => gatewayName? line.text

end Tunnel

/-! ## The machine that remembers gateways -/

/-- The gateways that a tunnel remembers. -/
structure Gateways where
  exchange : Option UInt32 := none
  association : Option UInt32 := none
deriving DecidableEq, Repr

namespace Gateways

open GatewayName

/-- The gateway in force. -/
def inForce? (g : Gateways) : Option UInt32 :=
  g.exchange <|> g.association

/-- Meeting a name: another gateway for an exchange is refused beside any that is in force, and
one for an association only beside that of the exchange. -/
def meet (g : Gateways) : GatewayName → Option Gateways
  | .association n =>
    if g.exchange.getD n = n then some { g with association := some n } else none
  | .exchange n => if g.inForce?.getD n = n then some { g with exchange := some n } else none

theorem meet_eq_some_iff {g next : Gateways} {name : GatewayName} :
    g.meet name = some next ↔ match name with
      | .association n => g.exchange.getD n = n ∧ next = { g with association := some n }
      | .exchange n => g.inForce?.getD n = n ∧ next = { g with exchange := some n } := by
  cases name with
  | association n => simp [meet, eq_comm (a := next)]
  | exchange n => simp [meet, eq_comm (a := next)]

/-- **Once there is a gateway for the exchange**, all names are of this gateway. -/
theorem of_foldlM_of_exchange {g out : Gateways} {names : List GatewayName} {gateway : UInt32}
    (hexchange : g.exchange = some gateway) (h : names.foldlM meet g = some out) :
    (∀ name ∈ names, name.gateway = gateway) ∧ out.exchange = some gateway := by
  induction names generalizing g with
  | nil =>
    cases h
    exact ⟨by simp, hexchange⟩
  | cons name names ih =>
    rw [List.foldlM_cons] at h
    obtain ⟨next, hnext, hrest⟩ := Option.bind_eq_some_iff.mp h
    have hname : name.gateway = gateway ∧ next.exchange = some gateway := by
      cases name with
      | association n =>
        obtain ⟨hn, rfl⟩ := meet_eq_some_iff.mp hnext
        rw [hexchange, Option.getD_some] at hn
        exact ⟨hn.symm, hexchange⟩
      | exchange n =>
        obtain ⟨hn, rfl⟩ := meet_eq_some_iff.mp hnext
        rw [inForce?, hexchange] at hn
        exact ⟨hn.symm, congrArg some hn.symm⟩
    obtain ⟨hnames, hout⟩ := ih hname.2 hrest
    exact ⟨List.forall_mem_cons.mpr ⟨hname.1, hnames⟩, hout⟩

/-- **All names that stand are of the gateway in force** at the end.  Before the first name for
the exchange the gateway of the last association stands for all there were. -/
theorem inForce?_of_foldlM {g out : Gateways} {names : List GatewayName}
    (hexchange : g.exchange = none) (h : names.foldlM meet g = some out) :
    ∀ name ∈ standing (g.association.toList.map .association ++ names),
      out.inForce? = some name.gateway := by
  induction names generalizing g with
  | nil =>
    cases h
    obtain ⟨_, association⟩ := out
    obtain rfl := hexchange
    cases association with
    | none => exact List.forall_mem_nil _
    | some n => exact List.forall_mem_singleton.mpr rfl
  | cons name names ih =>
    rw [List.foldlM_cons] at h
    obtain ⟨next, hnext, hrest⟩ := Option.bind_eq_some_iff.mp h
    cases name with
    | association n =>
      obtain ⟨-, rfl⟩ := meet_eq_some_iff.mp hnext
      have hlast : standing (g.association.toList.map .association ++ .association n :: names) =
          standing (.association n :: names) := by
        cases g.association with
        | none => rfl
        | some m => exact standing_association_association m n names
      rw [hlast]
      exact @ih { g with association := some n } hexchange hrest
    | exchange n =>
      obtain ⟨hn, rfl⟩ := meet_eq_some_iff.mp hnext
      obtain ⟨hnames, hout⟩ := of_foldlM_of_exchange rfl hrest
      have hforce : out.inForce? = some n := by
        rw [inForce?, hout]
        rfl
      have hothers :
          ∀ name ∈ GatewayName.exchange n :: names, out.inForce? = some name.gateway := by
        intro name hname
        rcases List.mem_cons.mp hname with rfl | hname
        · exact hforce
        · rw [hforce, hnames name hname]
      cases hassociation : g.association with
      | none => exact hothers
      | some m =>
        rw [inForce?, hexchange, hassociation] at hn
        refine List.forall_mem_cons.mpr ⟨?_, hothers⟩
        rw [hforce, ← hn]
        rfl

end Gateways

/-! ## Reading as a run of the machine -/

namespace Tunnel

open GatewayName

/-- The gateways that the tunnel remembers. -/
def gateways (t : Tunnel) : Gateways where
  exchange := t.ike.map IkeGateway.id
  association := t.saPolicy.map SaPolicy.gateway

theorem inForce?_gateways (t : Tunnel) : t.gateways.inForce? = t.gateway? := by
  rw [Gateways.inForce?, gateways, gateway?]
  cases t.ike <;> rfl

variable {t next : Tunnel}

/-- A setting that names a gateway is put in as the machine meets the name, and any other leaves
the gateways as they are. -/
theorem meet_of_put {s : TunnelSetting} (h : t.put s = .ok next) :
    s.gatewayName?.elim (some t.gateways) t.gateways.meet = some next.gateways := by
  cases s with
  | saPolicy policy =>
    rw [TunnelSetting.gatewayName?, Option.elim_some, Gateways.meet_eq_some_iff]
    cases hike : t.ike with
    | none =>
      rw [put, hike] at h
      cases h
      exact ⟨by rw [gateways, hike]; rfl, by rw [gateways, gateways, hike]; rfl⟩
    | some ike =>
      rw [put, hike] at h
      simp only at h
      split at h
      · next hid =>
        cases h
        exact ⟨by rw [gateways, hike]; exact hid, by rw [gateways, gateways, hike]; rfl⟩
      · cases h
  | ike gateway setting =>
    rw [TunnelSetting.gatewayName?, Option.elim_some, Gateways.meet_eq_some_iff, inForce?_gateways]
    simp only [put] at h
    split at h
    · next hid =>
      cases h
      have hexchange : ((t.ike.getD { id := gateway }).put setting).id = gateway := by
        rw [IkeGateway.id_put]
        cases hike : t.ike with
        | none => rfl
        | some ike =>
          rw [gateway?, hike] at hid
          exact hid
      exact ⟨hid, congrArg (fun n => Gateways.mk (some n) _) hexchange⟩
    · cases h
  | secureFilter direction binding =>
    cases direction with
    | inbound => cases h; rfl
    | outbound => cases h; rfl
  | switch on number =>
    simp only [put] at h
    split at h
    · cases h; rfl
    · cases h
  | _ => cases h; rfl

/-- **One command** is read as the machine meets the name on its line. -/
theorem meet_of_apply {text : String} (h : t.apply text = .ok next) :
    (gatewayName? text).elim (some t.gateways) t.gateways.meet = some next.gateways := by
  rcases apply_cases h with ⟨hread, rfl⟩ | ⟨s, hread, hput⟩
  · rw [gatewayName?, hread]
    rfl
  · rw [gatewayName?, hread]
    exact meet_of_put hput

/-- **All commands** are read as a run of the machine over the names on their lines. -/
theorem foldlM_meet_of_foldlM {out : Tunnel} {lines : List Line}
    (h : (lines.map Line.text).foldlM apply t = .ok out) :
    (gatewayNames lines).foldlM Gateways.meet t.gateways = some out.gateways := by
  induction lines generalizing t with
  | nil =>
    cases h
    rfl
  | cons line lines ih =>
    rw [List.map_cons, List.foldlM_cons] at h
    obtain ⟨next, hnext, hrest⟩ := bind_eq_ok_iff.mp h
    have hfirst := meet_of_apply hnext
    rw [gatewayNames, List.filterMap_cons]
    cases hname : gatewayName? line.text with
    | none =>
      rw [hname] at hfirst
      rw [Option.some.inj hfirst]
      exact ih hrest
    | some name =>
      rw [hname] at hfirst
      rw [List.foldlM_cons, show t.gateways.meet name = some next.gateways from hfirst]
      exact ih hrest

end Tunnel

namespace GatewayName

theorem Agree.mono {names others : List GatewayName} (h : Agree names) (hsub : others ⊆ names) :
    Agree others := by
  obtain ⟨gateway, hgateway⟩ := h
  exact ⟨gateway, fun name hname => hgateway name (hsub hname)⟩

/-- Two names of different gateways do not agree. -/
theorem not_agree {names : List GatewayName} {m n : GatewayName} (hm : m ∈ names) (hn : n ∈ names)
    (hne : m.gateway ≠ n.gateway) : ¬ Agree names := by
  rintro ⟨gateway, hgateway⟩
  exact hne ((hgateway m hm).trans (hgateway n hn).symm)

/-- When all that stand agree, the others have only to agree among themselves. -/
theorem agree_iff_ahead {names : List GatewayName} (h : Agree (standing names)) :
    Agree names ↔ Agree (ahead names) := by
  refine ⟨fun hall => hall.mono (List.takeWhile_subset _), ?_⟩
  rintro ⟨gateway, hahead⟩
  obtain ⟨inForce, hstanding⟩ := h
  have hsplit : ∀ name ∈ names, name ∈ ahead names ∨ name ∈ names.dropWhile isAssociation := by
    intro name hname
    rwa [ahead, ← List.mem_append, List.takeWhile_append_dropWhile]
  have hbehind : ∀ name ∈ names.dropWhile isAssociation, name.gateway = inForce :=
    fun name hname => hstanding name (List.mem_append_right _ hname)
  cases hlast : (ahead names).getLast? with
  | none =>
    refine ⟨inForce, fun name hname => (hsplit name hname).elim (fun hmem => ?_) (hbehind name)⟩
    rw [List.getLast?_eq_none_iff.mp hlast] at hmem
    cases hmem
  | some last =>
    have hsame : gateway = inForce := by
      rw [← hahead last (List.mem_of_getLast? hlast)]
      exact hstanding last (by simp [standing, hlast])
    refine ⟨inForce, fun name hname => (hsplit name hname).elim (fun hmem => ?_) (hbehind name)⟩
    rw [hahead name hmem, hsame]

end GatewayName

namespace Tunnel

open GatewayName

/-- **The gateway of a tunnel** that was read is that of all names that stand. -/
theorem gateway?_of_foldlM {id : UInt32} {t : Tunnel} {lines : List Line}
    (h : (lines.map Line.text).foldlM apply { id } = .ok t) :
    ∀ name ∈ standing (gatewayNames lines), t.gateway? = some name.gateway := by
  have hrun := Gateways.inForce?_of_foldlM rfl (foldlM_meet_of_foldlM h)
  rw [inForce?_gateways] at hrun
  exact hrun

/-- **A tunnel speaks to one gateway.**  The gateway of the record is that of all names that
stand, and a group in which two of these differ is rejected as a whole.  What is read past is
an association that another takes the place of: where there is a record, all names of the group
agree exactly if those in front of the first one for the exchange do. -/
theorem tunnel_speaks_to_one_gateway {id : UInt32} {lines : List Line} {d : Decoded Tunnel}
    (h : decodeContext id lines = .ok d) :
    (∀ t ∈ d.records, ∀ name ∈ standing (gatewayNames lines), t.gateway? = some name.gateway) ∧
      (¬ Agree (standing (gatewayNames lines)) → d.records = [] ∧ d.errors ≠ []) ∧
      (d.records ≠ [] → (Agree (gatewayNames lines) ↔ Agree (ahead (gatewayNames lines)))) := by
  have hof : ∀ t ∈ d.records,
      ∀ name ∈ standing (gatewayNames lines), t.gateway? = some name.gateway := by
    intro t ht
    rcases Selection.records_of_decode_checkedContext h with hnone | ⟨r, hr, hrun, -⟩
    · rw [hnone] at ht
      cases ht
    · rw [hr, List.mem_singleton] at ht
      exact gateway?_of_foldlM (ht ▸ hrun)
  have hagree : d.records ≠ [] → Agree (standing (gatewayNames lines)) := by
    intro hne
    obtain ⟨t, ht⟩ := List.exists_mem_of_ne_nil _ hne
    refine ⟨t.gateway?.getD 0, fun name hname => ?_⟩
    rw [hof t ht name hname, Option.getD_some]
  refine ⟨hof, fun hdiffer => ?_, fun hne => agree_iff_ahead (hagree hne)⟩
  have hnone : d.records = [] := by
    by_contra hne
    exact hdiffer (hagree hne)
  exact ⟨hnone, Selection.errors_of_decode_checkedContext h hnone⟩

/-- Two associations and an exchange with the gateway of both. -/
def agreeingLines : List Line :=
  [⟨2, 1, "ipsec tunnel 101"⟩, ⟨3, 2, "ipsec sa policy 101 1 esp aes-cbc"⟩,
    ⟨4, 2, "ipsec ike hash 1 sha"⟩, ⟨5, 2, "ipsec sa policy 102 1 esp aes-cbc"⟩]

/-- Another gateway behind the exchange. -/
def differingLines : List Line :=
  agreeingLines ++ [⟨6, 2, "ipsec sa policy 102 2 esp aes-cbc"⟩]

theorem tunnel_speaks_to_one_gateway_agreeing :
    (∃ d, decodeContext 1 agreeingLines = .ok d ∧ d.records ≠ [] ∧
      (∀ t ∈ d.records, t.gateway? = some 1) ∧ Agree (gatewayNames agreeingLines)) ∧
    ∃ d, decodeContext 1 differingLines = .ok d ∧ ¬ Agree (standing (gatewayNames differingLines)) ∧
      d.records = [] ∧ d.errors ≠ [] := by
  have hagreeing : decodeContext 1 agreeingLines = .ok (.single
      { id := 1, ipsecTunnel := some 101, saPolicy := some ⟨102, 1, "esp", ["aes-cbc"]⟩
        ike := some { id := 1, hash := some "sha" } }) := by decide +kernel
  have hdiffering : decodeContext 1 differingLines = .ok
      (.rejected featureName ⟨6, 2, "ipsec sa policy 102 2 esp aes-cbc"⟩
        (.within "tunnel" "1" (.malformed (.twoGateways 1 2)))) := by decide +kernel
  have hnames : gatewayNames agreeingLines = [.association 1, .exchange 1, .association 1] := by
    decide +kernel
  have hstanding : standing (gatewayNames differingLines) =
      [.association 1, .exchange 1, .association 1, .association 2] := by decide +kernel
  obtain ⟨hof, -, hagree⟩ := tunnel_speaks_to_one_gateway hagreeing
  obtain ⟨-, hrejects, -⟩ := tunnel_speaks_to_one_gateway hdiffering
  refine ⟨⟨_, hagreeing, List.cons_ne_nil _ _, fun t ht => ?_, ?_⟩, ⟨_, hdiffering, ?_⟩⟩
  · exact hof t ht (.association 1) (by rw [hnames]; decide)
  · refine (hagree (List.cons_ne_nil _ _)).mpr ⟨1, ?_⟩
    rw [hnames]
    decide
  · have hdiffer : ¬ Agree (standing (gatewayNames differingLines)) := by
      rw [hstanding]
      exact not_agree (m := .exchange 1) (n := .association 2) (by decide) (by decide) (by decide)
    exact ⟨hdiffer, hrejects hdiffer⟩

/-- Two associations with two gateways and no exchange. -/
def replacedLines : List Line :=
  [⟨2, 1, "ipsec tunnel 101"⟩, ⟨3, 2, "ipsec sa policy 101 1 esp aes-cbc"⟩,
    ⟨4, 2, "ipsec sa policy 102 2 esp aes-cbc"⟩]

/-- **An association that is replaced** is not compared with the one that replaces it. -/
theorem replaced_association_unnoticed :
    decodeContext 1 replacedLines = .ok (.single
      { id := 1, ipsecTunnel := some 101, saPolicy := some ⟨102, 2, "esp", ["aes-cbc"]⟩ }) ∧
    gatewayNames replacedLines = [.association 1, .association 2] ∧
    ¬ Agree (gatewayNames replacedLines) := by
  have hnames : gatewayNames replacedLines = [.association 1, .association 2] := by
    decide +kernel
  refine ⟨by decide +kernel, hnames, ?_⟩
  rw [hnames]
  exact not_agree (m := .association 1) (n := .association 2) (by decide) (by decide) (by decide)

end Tunnel

end RouterConfig
