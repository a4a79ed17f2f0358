import RouterConfig.Proofs.Stanza.Order
import RouterConfig.Proofs.Tunnel.Blame
import RouterConfig.Proofs.Tunnel.Gateways

/-!
# The settings of a tunnel in another order

Each setting of a tunnel is written into one field (`write`), and two settings for different
fields are written in either way.  Only the gateway is said by more than one field: a block for
the key exchange is made for the gateway that its first command names.  So for the exchange the
two settings have to name one gateway (`write_comm`).

That they do is what the tunnel checks.  It remembers the gateways in two places and compares
a name with one of them only, but two names that it takes one after the other agree, and it
would have taken them the other way round as well (`Gateways.meet_either_way`).  The one
exception is an association behind another, and these two have the same field.
-/

namespace RouterConfig

open Text

/-! ## The field that is set -/

namespace TunnelSetting

/-- The place of a setting: the path of its field, the filters for each direction being a field
of their own. -/
def place : TunnelSetting → List String
  | .secureFilter direction _ => ["secure filter", direction.word]
  | s => s.path

/-- A setting is for the tunnel with this number: only switches name another. -/
def isFor (id : UInt32) : TunnelSetting → Bool
  | .switch _ number => number == id
  | _ => true

end TunnelSetting

theorem IkeGateway.put_comm (ike : IkeGateway) {s x : IkeSetting} (h : s.field ≠ x.field) :
    (ike.put s).put x = (ike.put x).put s := by
  cases s <;> cases x <;> first | rfl | exact absurd rfl h

theorem TunnelL2tp.put_comm (l2tp : TunnelL2tp) {s x : L2tpSetting} (h : s.field ≠ x.field) :
    (l2tp.put s).put x = (l2tp.put x).put s := by
  cases s <;> cases x <;> first | rfl | exact absurd rfl h

/-! ## Names of gateways in another order -/

/-- **Two names that are taken** one after the other agree and are taken the other way round,
unless there are two associations among those that are remembered and met. -/
theorem Gateways.meet_either_way {g next out : Gateways} {m n : GatewayName}
    (hone : ¬ (m.isAssociation = true ∧ n.isAssociation = true))
    (hm : m.isAssociation = true → g.association = none)
    (hn : n.isAssociation = true → g.association = none)
    (hfirst : g.meet m = some next) (hsecond : next.meet n = some out) :
    m.gateway = n.gateway ∧ ∃ other, g.meet n = some other ∧ other.meet m = some out := by
  obtain ⟨exchange, association⟩ := g
  cases m with
  | association a =>
    cases n with
    | association b => exact absurd ⟨rfl, rfl⟩ hone
    | exchange b =>
      obtain rfl : association = none := hm rfl
      obtain ⟨ha, rfl⟩ := meet_eq_some_iff.mp hfirst
      obtain ⟨hb, rfl⟩ := meet_eq_some_iff.mp hsecond
      cases exchange <;> simp_all [meet, inForce?, GatewayName.gateway]
  | exchange a =>
    cases n with
    | association b =>
      obtain rfl : association = none := hn rfl
      obtain ⟨ha, rfl⟩ := meet_eq_some_iff.mp hfirst
      obtain ⟨hb, rfl⟩ := meet_eq_some_iff.mp hsecond
      cases exchange <;> simp_all [meet, inForce?, GatewayName.gateway]
    | exchange b =>
      obtain ⟨ha, rfl⟩ := meet_eq_some_iff.mp hfirst
      obtain ⟨hb, rfl⟩ := meet_eq_some_iff.mp hsecond
      cases exchange <;> cases association <;> simp_all [meet, inForce?, GatewayName.gateway]

namespace Tunnel

variable {t next out : Tunnel} {s x : TunnelSetting}

/-! ## Checks and writes -/

/-- The tunnel with one field set, whatever it was and whatever else is set. -/
def write (t : Tunnel) : TunnelSetting → Tunnel
  | .description text => { t with description := some text }
  | .encapsulation e => { t with encapsulation := some e }
  | .endpoint e => { t with endpoint := some e }
  | .ipsecTunnel number => { t with ipsecTunnel := some number }
  | .saPolicy policy => { t with saPolicy := some policy }
  | .ike gateway setting => { t with ike := some ((t.ike.getD { id := gateway }).put setting) }
  | .l2tp setting => { t with l2tp := some ((t.l2tp.getD {}).put setting) }
  | .secureFilter .inbound binding => { t with secureFilterIn := some binding }
  | .secureFilter .outbound binding => { t with secureFilterOut := some binding }
  | .tcpMssLimit limit => { t with tcpMssLimit := some limit }
  | .switch on _ => { t with enabled := on }

/-- The gateways that are remembered once the setting was met, if the tunnel takes it. -/
def meets (t : Tunnel) (s : TunnelSetting) : Option Gateways :=
  s.gatewayName?.elim (some t.gateways) t.gateways.meet

/-- **Putting a setting in** is checking whom it is for and which gateway it names, and writing
its field. -/
theorem put_eq_ok_iff :
    t.put s = .ok next ↔ s.isFor t.id = true ∧ (∃ g, t.meets s = some g) ∧ next = t.write s := by
  cases s with
  | saPolicy policy =>
    cases hike : t.ike with
    | none => simp [put, write, meets, TunnelSetting.isFor, TunnelSetting.gatewayName?, hike,
        Gateways.meet, gateways, eq_comm (a := next)]
    | some ike =>
      by_cases hid : ike.id = policy.gateway <;>
        simp [put, write, meets, TunnelSetting.isFor, TunnelSetting.gatewayName?, hike, hid,
          Gateways.meet, gateways, eq_comm (a := next)]
  | ike gateway setting =>
    by_cases hid : t.gateway?.getD gateway = gateway <;>
      simp [put, write, meets, TunnelSetting.isFor, TunnelSetting.gatewayName?, hid,
        Gateways.meet, inForce?_gateways, eq_comm (a := next)]
  | secureFilter direction binding =>
    cases direction <;>
      simp [put, write, meets, TunnelSetting.isFor, TunnelSetting.gatewayName?, eq_comm (a := next)]
  | switch on number =>
    by_cases hid : number = t.id <;>
      simp [put, write, meets, TunnelSetting.isFor, TunnelSetting.gatewayName?, hid,
        eq_comm (a := next)]
  | _ =>
    simp [put, write, meets, TunnelSetting.isFor, TunnelSetting.gatewayName?, eq_comm (a := next)]

/-- **Fields are written in either way**, if settings that name a gateway name the same. -/
theorem write_comm (t : Tunnel) (hplace : s.place ≠ x.place)
    (hagree : ∀ m ∈ s.gatewayName?, ∀ n ∈ x.gatewayName?, m.gateway = n.gateway) :
    (t.write s).write x = (t.write x).write s := by
  cases s with
  | ike gateway setting =>
    cases x with
    | ike other set =>
      have hfield : setting.field ≠ set.field := fun hsame =>
        hplace (congrArg (fun f => ["ike", f]) hsame)
      obtain rfl : gateway = other := hagree _ rfl _ rfl
      simp only [write, Option.getD_some, IkeGateway.put_comm _ hfield]
    | secureFilter direction _ => cases direction <;> rfl
    | _ => rfl
  | l2tp setting =>
    cases x with
    | l2tp set =>
      have hfield : setting.field ≠ set.field := fun hsame =>
        hplace (congrArg (fun f => ["l2tp", f]) hsame)
      simp only [write, Option.getD_some, TunnelL2tp.put_comm _ hfield]
    | secureFilter direction _ => cases direction <;> rfl
    | _ => rfl
  | secureFilter direction binding =>
    cases direction <;> cases x with
    | secureFilter other _ => cases other <;> first | rfl | exact absurd rfl hplace
    | _ => rfl
  | _ =>
    cases x with
    | secureFilter direction _ => cases direction <;> rfl
    | _ => first | rfl | exact absurd rfl hplace

/-! ## Settings in another order -/

/-- Nothing was put in before that the setting would take the place of unnoticed: for an
association, no other. -/
def Vacant (t : Tunnel) (s : TunnelSetting) : Prop :=
  ∀ policy, s = .saPolicy policy → t.saPolicy = none

/-- Only an association is remembered as one. -/
theorem association_of_vacant (hvacant : t.Vacant s) :
    ∀ m ∈ s.gatewayName?, m.isAssociation = true → t.gateways.association = none := by
  intro m hm hassociation
  cases s with
  | saPolicy policy => rw [gateways, hvacant policy rfl]; rfl
  | ike gateway setting => cases hm; cases hassociation
  | _ => cases hm

/-- Settings for different fields are not both associations. -/
theorem not_both_associations (hplace : s.place ≠ x.place) {m n : GatewayName}
    (hm : m ∈ s.gatewayName?) (hn : n ∈ x.gatewayName?) :
    ¬ (m.isAssociation = true ∧ n.isAssociation = true) := by
  rintro ⟨hfirst, hsecond⟩
  cases s with
  | saPolicy policy =>
    cases x with
    | saPolicy other => exact hplace rfl
    | ike gateway setting => cases hn; cases hsecond
    | _ => cases hn
  | ike gateway setting => cases hm; cases hfirst
  | _ => cases hm

/-- **Two settings for different fields** that are put in one after the other name one gateway,
and the second is put in in front of the first as well. -/
theorem meets_either_way (hplace : s.place ≠ x.place) (hs : t.Vacant s) (hx : t.Vacant x)
    (hfirst : t.put s = .ok next) (hsecond : next.put x = .ok out) :
    (∀ m ∈ s.gatewayName?, ∀ n ∈ x.gatewayName?, m.gateway = n.gateway) ∧
      ∃ other, t.meets x = some other ∧
        s.gatewayName?.elim (some other) other.meet = some out.gateways := by
  have hs' := meet_of_put hfirst
  have hx' := meet_of_put hsecond
  rw [meets]
  cases hm : s.gatewayName? with
  | none =>
    rw [hm] at hs'
    rw [← Option.some.inj hs'] at hx'
    exact ⟨by simp, _, hx', rfl⟩
  | some m =>
    rw [hm] at hs'
    cases hn : x.gatewayName? with
    | none =>
      rw [hn] at hx'
      rw [← Option.some.inj hx']
      exact ⟨by simp, _, rfl, hs'⟩
    | some n =>
      rw [hn] at hx'
      obtain ⟨hagree, other, hother, hout⟩ := Gateways.meet_either_way
        (not_both_associations hplace hm hn) (association_of_vacant hs m hm)
        (association_of_vacant hx n hn) hs' hx'
      refine ⟨?_, other, hother, hout⟩
      rintro _ ⟨⟩ _ ⟨⟩
      exact hagree

/-- **Settings for different fields** are put in in either way. -/
theorem interchanges : Selection.Interchanges put TunnelSetting.place Vacant where
  stays_vacant := by
    rintro t next s x hplace hput hvacant policy rfl
    obtain ⟨-, -, rfl⟩ := put_eq_ok_iff.mp hput
    have hnone := hvacant policy rfl
    cases s with
    | saPolicy other => exact absurd rfl hplace
    | secureFilter direction binding => cases direction <;> exact hnone
    | _ => exact hnone
  either_way := by
    intro t next out s x hplace hs hx hfirst hsecond
    obtain ⟨hagree, g, hg, hout⟩ := meets_either_way hplace hs hx hfirst hsecond
    obtain ⟨hsfor, -, rfl⟩ := put_eq_ok_iff.mp hfirst
    obtain ⟨hxfor, -, rfl⟩ := put_eq_ok_iff.mp hsecond
    rw [id_of_put hfirst] at hxfor
    have hput : t.put x = .ok (t.write x) := put_eq_ok_iff.mpr ⟨hxfor, ⟨g, hg⟩, rfl⟩
    have hgateways : (t.write x).gateways = g :=
      Option.some.inj ((meet_of_put hput).symm.trans hg)
    have hmeets : (t.write x).meets s = some ((t.write s).write x).gateways := by
      rw [meets, hgateways]
      exact hout
    refine ⟨t.write x, hput, put_eq_ok_iff.mpr ⟨?_, ⟨_, hmeets⟩, write_comm t hplace hagree⟩⟩
    rwa [id_of_put hput]

/-- What is put in is for the tunnel, which stays the same one. -/
theorem isFor_of_put (h : t.put s = .ok next) :
    s.isFor t.id = true ∧ next.id = t.id :=
  ⟨(put_eq_ok_iff.mp h).1, id_of_put h⟩

/-! ## Lines in another order -/

/-- An association whose gateway is refused before its number is read would be refused as a
setting as well. -/
theorem put_ne_ok_of_clash {text : String} {fault : LineFault}
    (h : t.gatewayClash? (wordsOf text) = some fault) :
    TunnelSetting.read text ≠ .ok none ∧
      ∀ s next, TunnelSetting.read text = .ok (some s) → t.put s ≠ .ok next := by
  unfold gatewayClash? at h
  split at h
  · next id gateway protocol first algorithms hwords =>
    obtain ⟨ike, hike, h⟩ := Option.bind_eq_some_iff.mp h
    obtain ⟨named, hnamed, h⟩ := Option.bind_eq_some_iff.mp h
    have hne : ike.id ≠ named := by
      intro hsame
      rw [if_pos hsame] at h
      cases h
    have hread : TunnelSetting.read text = refuse (do
        let number ← readNumber "sa policy id" id
        return some (.saPolicy ⟨number, named, protocol, first :: algorithms⟩)) := by
      simp [TunnelSetting.read, hwords, TunnelSetting.readWords, TunnelSetting.readIpsec,
        TunnelSetting.readSa, readNumber, hnamed]
    rw [hread]
    refine ⟨fun hnone => ?_, fun s next hs hput => ?_⟩
    · obtain ⟨_, -, hnone⟩ := bind_eq_ok_iff.mp (refuse_eq_ok_iff.mp hnone)
      cases hnone
    · obtain ⟨_, -, hs⟩ := bind_eq_ok_iff.mp (refuse_eq_ok_iff.mp hs)
      cases hs
      rw [put, hike] at hput
      simp [hne] at hput
  · cases h

/-- **A command** is read for its setting, and the setting is put in. -/
theorem readsAndPuts : Selection.ReadsAndPuts apply TunnelSetting.read put where
  ok_iff := by
    intro t text next
    refine ⟨apply_cases, fun h => ?_⟩
    have hclash : t.gatewayClash? (wordsOf text) = none := by
      rw [Option.eq_none_iff_forall_ne_some]
      intro fault hfault
      obtain ⟨hnone, hrefused⟩ := put_ne_ok_of_clash hfault
      rcases h with ⟨hread, -⟩ | ⟨s, hread, hput⟩
      · exact hnone hread
      · exact hrefused s next hread hput
    rw [apply, hclash]
    refine Iff.mpr ?_ h
    exact Selection.bind_put_ok_iff
  stop_iff := by
    intro t text
    unfold apply
    split
    · next fault hfault =>
      -- what is compared with the gateway in force is no description
      refine iff_of_false (by simp) ?_
      rintro ⟨stop, hread⟩
      unfold gatewayClash? at hfault
      split at hfault
      · next hwords =>
        rw [TunnelSetting.read, hwords] at hread
        exact refuse_ne_stop _ _ hread
      · cases hfault
    · exact Selection.bind_put_stop_iff

/-- No field of the tunnel is set twice by these lines. -/
def SetsOnce (id : UInt32) (lines : List Line) : Prop :=
  Selection.SetsOnce TunnelSetting.read (TunnelSetting.isFor id) TunnelSetting.place lines

instance (id : UInt32) (lines : List Line) : Decidable (SetsOnce id lines) :=
  inferInstanceAs (Decidable (Selection.SetsOnce _ _ _ _))

/-- **A tunnel with its lines in another order** has the same outcome. -/
theorem sameOutcome_of_perm {id : UInt32} {lines others : List Line} (hperm : lines.Perm others)
    (honce : SetsOnce id lines) :
    Decoded.SameOutcome (decodeContext id lines) (decodeContext id others) := by
  have hfor : ∀ (xs : List TunnelSetting) (out : Tunnel), xs.foldlM put { id } = .ok out →
      ∀ s ∈ xs, s.isFor id = true :=
    fun _ _ => Selection.isFor_of_foldlM Tunnel.id fun _ _ _ => isFor_of_put
  exact Selection.sameOutcome_reordered readsAndPuts interchanges (fun _ _ _ => rfl) hfor hperm
    honce

end Tunnel

end RouterConfig
