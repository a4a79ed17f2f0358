import RouterConfig.Proofs.Commands.Rules
import RouterConfig.Proofs.Stanza.Blame
import RouterConfig.Proofs.Tunnel.Settings
import RouterConfig.Tunnel.Commands

/-!
# The line of a tunnel that is to blame

The rules for a tunnel are about a few fields (`ruledFields`), and each of them but the number of
the tunnel has a lead.  Read as words, the leads are right: a command that sets the field starts
with the lead's words, and no command of another block does (`leadFits_blame`).  They are
coarse: all of the key exchange has one lead, and so has all of the layer-two protocol.
-/

namespace RouterConfig

open Text

/-! ## What a setting sets, and how its command starts -/

/-- The field of the gateway that is set. -/
def IkeSetting.field : IkeSetting → String
  | .encryption _ => "encryption"
  | .group _ => "group"
  | .hash _ => "hash"
  | .keepalive _ => "keepalive"
  | .localAddress _ => "local_address"
  | .preSharedKey _ => "pre_shared_key"
  | .remoteAddress _ => "remote_address"

/-- The field of the layer-two protocol that is set. -/
def L2tpSetting.field : L2tpSetting → String
  | .hostname _ => "hostname"
  | .localRouterId _ => "local_router_id"
  | .remoteRouterId _ => "remote_router_id"
  | .remoteEndId _ => "remote_end_id"
  | .alwaysOn _ => "always_on"
  | .tunnelAuth _ => "tunnel_auth"
  | .keepalive _ => "keepalive"
  | .syslog _ => "syslog"

/-- The first words of the command for a setting of the gateway, behind `ipsec ike`. -/
def IkeSetting.leadWords : IkeSetting → List String
  | .encryption _ => ["encryption"]
  | .group _ => ["group"]
  | .hash _ => ["hash"]
  | .keepalive _ => ["keepalive", "use"]
  | .localAddress _ => ["local", "address"]
  | .preSharedKey _ => ["pre-shared-key"]
  | .remoteAddress _ => ["remote", "address"]

/-- The first words of the command for a setting of the layer-two protocol, behind `l2tp`. -/
def L2tpSetting.leadWords : L2tpSetting → List String
  | .hostname _ => ["hostname"]
  | .localRouterId _ => ["local", "router-id"]
  | .remoteRouterId _ => ["remote", "router-id"]
  | .remoteEndId _ => ["remote", "end-id"]
  | .alwaysOn _ => ["always-on"]
  | .tunnelAuth _ => ["tunnel", "auth"]
  | .keepalive _ => ["keepalive", "use"]
  | .syslog _ => ["syslog"]

namespace TunnelSetting

/-- The path of the field that is set.  A filter for one direction counts as the filter. -/
def path : TunnelSetting → List String
  | .description _ => ["description"]
  | .encapsulation _ => ["encapsulation"]
  | .endpoint _ => ["endpoint"]
  | .ipsecTunnel _ => ["ipsec_tunnel"]
  | .saPolicy _ => ["sa_policy"]
  | .ike _ setting => ["ike", setting.field]
  | .l2tp setting => ["l2tp", setting.field]
  | .secureFilter _ _ => ["secure filter"]
  | .tcpMssLimit _ => ["tcp_mss_limit"]
  | .switch _ _ => ["enabled"]

/-- The words with which the command for a setting starts, whatever its value. -/
def leadWords : TunnelSetting → List String
  | .description _ => ["description"]
  | .encapsulation _ => ["tunnel", "encapsulation"]
  | .endpoint _ => ["tunnel", "endpoint", "address"]
  | .ipsecTunnel _ => ["ipsec", "tunnel"]
  | .saPolicy _ => ["ipsec", "sa", "policy"]
  | .ike _ setting => "ipsec" :: "ike" :: setting.leadWords
  | .l2tp setting => "l2tp" :: setting.leadWords
  | .secureFilter _ _ => ["ip", "tunnel", "secure", "filter"]
  | .tcpMssLimit _ => ["ip", "tunnel", "tcp", "mss", "limit"]
  | .switch on _ => ["tunnel", if on then "enable" else "disable"]

/-- One setting of each kind. -/
def kinds : List TunnelSetting :=
  [.description "", .encapsulation .ipsec, .endpoint ⟨none, ""⟩, .ipsecTunnel 0,
    .saPolicy ⟨0, 0, "", []⟩, .ike 0 (.encryption ""), .ike 0 (.group []), .ike 0 (.hash ""),
    .ike 0 (.keepalive .off), .ike 0 (.localAddress ""), .ike 0 (.preSharedKey (.text "")),
    .ike 0 (.remoteAddress ""), .l2tp (.hostname ""), .l2tp (.localRouterId .unspecified),
    .l2tp (.remoteRouterId .unspecified), .l2tp (.remoteEndId ""), .l2tp (.alwaysOn true),
    .l2tp (.tunnelAuth ⟨true, none⟩), .l2tp (.keepalive .off), .l2tp (.syslog true),
    .secureFilter .inbound .empty, .tcpMssLimit .auto, .switch true 0, .switch false 0]

/-- What is set, and how the command starts, is told by the kind of the setting. -/
theorem exists_kind (s : TunnelSetting) :
    ∃ k ∈ kinds, k.path = s.path ∧ k.leadWords = s.leadWords := by
  cases s with
  | ike gateway setting =>
    cases setting <;> simp [kinds, path, leadWords, IkeSetting.field, IkeSetting.leadWords]
  | l2tp setting =>
    cases setting <;> simp [kinds, path, leadWords, L2tpSetting.field, L2tpSetting.leadWords]
  | switch on number => cases on <;> simp [kinds, path, leadWords]
  | _ => simp [kinds, path, leadWords]

/-! ## The words of a command that was read -/

variable {ws : List String} {s : TunnelSetting}

theorem leadWords_of_readTunnel :
    readTunnel ws = .ok (some s) → s.leadWords <+: "tunnel" :: ws := by
  fun_cases readTunnel ws
  all_goals intro h
  case case2 | case7 | case9 =>
    obtain ⟨_, -, hs⟩ := map_eq_ok_iff.mp h
    cases hs
    exact ⟨_, rfl⟩
  case case4 | case5 =>
    cases h
    exact ⟨_, rfl⟩
  all_goals cases h

theorem leadWords_of_readSa : readSa ws = .ok (some s) → s.leadWords <+: "ipsec" :: "sa" :: ws := by
  fun_cases readSa ws
  all_goals intro h
  case case1 =>
    obtain ⟨_, -, h⟩ := bind_eq_ok_iff.mp h
    obtain ⟨_, -, h⟩ := bind_eq_ok_iff.mp h
    cases h
    exact ⟨_, rfl⟩
  case case2 => cases h

theorem leadWords_of_ofGateway {gateway : String} {setting : IkeSetting}
    (h : ofGateway gateway setting = .ok (some s)) (hlead : setting.leadWords <+: ws) :
    s.leadWords <+: "ipsec" :: "ike" :: ws := by
  obtain ⟨id, -, hs⟩ := map_eq_ok_iff.mp h
  cases hs
  exact List.cons_prefix_cons.mpr ⟨rfl, List.cons_prefix_cons.mpr ⟨rfl, hlead⟩⟩

theorem leadWords_of_readIke :
    readIke ws = .ok (some s) → s.leadWords <+: "ipsec" :: "ike" :: ws := by
  fun_cases readIke ws
  all_goals intro h
  case case2 | case4 | case6 | case7 | case11 | case13 | case15 | case16 =>
    exact leadWords_of_ofGateway h ⟨_, rfl⟩
  case case9 =>
    obtain ⟨_, -, h⟩ := bind_eq_ok_iff.mp h
    exact leadWords_of_ofGateway h ⟨_, rfl⟩
  all_goals cases h

theorem leadWords_of_readIpsec : readIpsec ws = .ok (some s) → s.leadWords <+: "ipsec" :: ws := by
  fun_cases readIpsec ws
  all_goals intro h
  case case2 =>
    obtain ⟨_, -, hs⟩ := map_eq_ok_iff.mp h
    cases hs
    exact ⟨_, rfl⟩
  case case4 => exact leadWords_of_readSa h
  case case5 => exact leadWords_of_readIke h
  all_goals cases h

theorem leadWords_of_readL2tp {setting : L2tpSetting} :
    readL2tp ws = .ok setting → setting.leadWords <+: ws := by
  fun_cases readL2tp ws
  all_goals intro h
  case case2 | case7 | case13 | case14 | case15 | case17 =>
    cases h
    exact ⟨_, rfl⟩
  case case4 | case6 | case9 | case11 =>
    obtain ⟨_, -, hs⟩ := map_eq_ok_iff.mp h
    cases hs
    exact ⟨_, rfl⟩
  case case18 =>
    obtain ⟨_, -, h⟩ := bind_eq_ok_iff.mp h
    obtain ⟨_, -, h⟩ := bind_eq_ok_iff.mp h
    cases h
    exact ⟨_, rfl⟩
  all_goals cases h

theorem leadWords_of_readIp :
    readIp ws = .ok (some s) → s.leadWords <+: "ip" :: "tunnel" :: ws := by
  fun_cases readIp ws
  all_goals intro h
  case case2 =>
    obtain ⟨_, -, h⟩ := bind_eq_ok_iff.mp h
    obtain ⟨_, -, h⟩ := bind_eq_ok_iff.mp h
    cases h
    exact ⟨_, rfl⟩
  case case4 =>
    obtain ⟨_, -, hs⟩ := map_eq_ok_iff.mp h
    cases hs
    exact ⟨_, rfl⟩
  all_goals cases h

theorem leadWords_of_readWords : readWords ws = .ok (some s) → s.leadWords <+: ws := by
  fun_cases readWords ws
  all_goals intro h
  case case2 => exact leadWords_of_readTunnel h
  case case3 => exact leadWords_of_readIpsec h
  case case4 =>
    obtain ⟨setting, hsetting, hs⟩ := map_eq_ok_iff.mp h
    cases hs
    exact List.cons_prefix_cons.mpr ⟨rfl, leadWords_of_readL2tp hsetting⟩
  case case5 => exact leadWords_of_readIp h
  all_goals cases h

/-- **The first words of a command that was read** are those of its setting. -/
theorem leadWords_of_read (text : String) (s : TunnelSetting) (h : read text = .ok (some s)) :
    s.leadWords <+: wordsOf text := by
  unfold read at h
  split at h
  · next hwords =>
    rw [hwords]
    split at h
    · cases h
      exact ⟨_, rfl⟩
    · cases h
  · exact leadWords_of_readWords (refuse_eq_ok_iff.mp h)

end TunnelSetting

namespace Tunnel

/-! ## The fields that rules are about -/

/-- The fields that rules are about. -/
def ruledFields : List String :=
  ["id", "description", "ipsec_tunnel", "sa_policy", "sa_policy.id", "sa_policy.protocol",
    "sa_policy.algorithms", "ike", "ike.pre_shared_key", "ike.encryption", "ike.hash", "ike.group",
    "ike.keepalive.interval", "ike.keepalive.retry", "l2tp", "l2tp.local_router_id",
    "l2tp.remote_router_id", "l2tp.remote_end_id", "l2tp.tunnel_auth", "l2tp.keepalive.interval",
    "l2tp.keepalive.retry", "tcp_mss_limit", "secure filter"]

section Rules

open Rule

variable {t : Tunnel}

theorem about_descriptionRules (text : String) :
    AllAbout ruledFields (descriptionRules text) := by
  simp only [descriptionRules, allAbout_cons, allAbout_nil, and_true]
  exact ⟨about_present (by decide), about_oneLine (by decide)⟩

theorem about_saPolicyRules (policy : SaPolicy) :
    AllAbout ruledFields (t.saPolicyRules policy) := by
  simp only [saPolicyRules, allAbout_append, allAbout_cons, allAbout_nil, and_true,
    allAbout_ifPresent]
  exact ⟨⟨about_demand (by decide), about_inRange (by decide), about_oneWord (by decide),
    about_demand (by decide)⟩, fun _ _ => about_demand (by decide)⟩

theorem about_preSharedKeyRules (key : PreSharedKey) :
    AllAbout ruledFields (preSharedKeyRules key) := by
  cases key with
  | text secret => exact allAbout_cons.mpr ⟨about_present (by decide), allAbout_nil⟩
  | encrypted digits => exact allAbout_nil

theorem about_groupRules (groups : List String) : AllAbout ruledFields (groupRules groups) := by
  simp only [groupRules, allAbout_cons, allAbout_map]
  exact ⟨about_demand (by decide), fun _ _ => about_oneWord (by decide)⟩

/-- The blocks that have intervals and retries. -/
theorem about_keepalive {block : String} (h : block ∈ ["ike", "l2tp"]) (seconds count : UInt32) :
    About ruledFields (intervalRule block seconds) ∧ About ruledFields (retryRule block count) := by
  rcases List.mem_pair.mp h with rfl | rfl
  · exact ⟨about_inRange (by decide), about_inRange (by decide)⟩
  · exact ⟨about_inRange (by decide), about_inRange (by decide)⟩

theorem about_ikeKeepaliveRules (mode : IkeKeepalive) :
    AllAbout ruledFields (ikeKeepaliveRules mode) := by
  have hrules := about_keepalive (List.mem_cons_self .. : "ike" ∈ ["ike", "l2tp"])
  cases mode with
  | dpd interval retry =>
    simp only [ikeKeepaliveRules, allAbout_cons, allAbout_nil, and_true, allAbout_ifPresent]
    exact ⟨(hrules interval 0).1, fun count _ => (hrules 0 count).2⟩
  | heartbeat interval retry =>
    simp only [ikeKeepaliveRules, allAbout_cons, allAbout_nil, and_true]
    exact hrules interval retry
  | off => exact allAbout_nil

theorem about_ikeRules (ike : IkeGateway) : AllAbout ruledFields (t.ikeRules ike) := by
  simp only [ikeRules, allAbout_append, allAbout_cons, allAbout_nil, and_true, allAbout_ifPresent]
  exact ⟨⟨⟨⟨⟨about_demand (by decide), fun key _ => about_preSharedKeyRules key⟩,
    fun _ _ => about_oneWord (by decide)⟩, fun _ _ => about_oneWord (by decide)⟩,
    fun groups _ => about_groupRules groups⟩, fun mode _ => about_ikeKeepaliveRules mode⟩

theorem about_layerTwoRule (encapsulation : Option Encapsulation) (l2tp : TunnelL2tp) :
    About ruledFields (layerTwoRule encapsulation l2tp) := by
  have hfield : ∀ field ∈ thirdVersionField? l2tp, field ∈ ruledFields := by
    fun_cases thirdVersionField? l2tp
    all_goals rintro _ ⟨⟩
    all_goals decide
  fun_cases layerTwoRule encapsulation l2tp
  · exact about_none
  · rintro _ herror
    obtain ⟨field, hmem, rfl⟩ := Option.map_eq_some_iff.mp herror
    exact hfield field hmem
  · rintro _ ⟨⟩
    decide

theorem about_l2tpRules (l2tp : TunnelL2tp) : AllAbout ruledFields (t.l2tpRules l2tp) := by
  simp only [l2tpRules, allAbout_cons, allAbout_ifPresent]
  refine ⟨about_layerTwoRule _ _, fun mode _ => ?_⟩
  cases mode with
  | on interval retry =>
    simp only [l2tpKeepaliveRules, allAbout_cons, allAbout_nil, and_true]
    exact about_keepalive (by decide) interval retry
  | off => exact allAbout_nil

theorem about_mssRules (limit : MssLimit) : AllAbout ruledFields (mssRules limit) := by
  cases limit with
  | auto => exact allAbout_nil
  | value bytes => exact allAbout_cons.mpr ⟨about_inRange (by decide), allAbout_nil⟩

theorem about_bindingRules (binding : FilterBinding) :
    AllAbout ruledFields (binding.rules featureName "secure filter") :=
  allAbout_map.mpr fun _ _ => about_filterNumber (by decide)

end Rules

/-- **A rule that a tunnel breaks** is about one of these fields. -/
theorem field_of_validate {t : Tunnel} {error : ValidationError} (h : validate t = some error) :
    error.field ∈ ruledFields := by
  refine field_of_firstBroken ?_ h
  simp only [rules, Rule.allAbout_append, Rule.allAbout_cons, Rule.allAbout_nil, and_true,
    Rule.allAbout_ifPresent]
  exact ⟨⟨⟨⟨⟨⟨⟨⟨Rule.about_inRange (by decide), fun text _ => about_descriptionRules text⟩,
    fun _ _ => Rule.about_inRange (by decide)⟩, fun policy _ => about_saPolicyRules policy⟩,
    fun ike _ => about_ikeRules ike⟩, fun l2tp _ => about_l2tpRules l2tp⟩,
    fun limit _ => about_mssRules limit⟩, fun binding _ => about_bindingRules binding⟩,
    fun binding _ => about_bindingRules binding⟩

/-! ## The table of leads -/

/-- **The lead of a field fits**, if the field can be set at all. -/
theorem leadFits_blame {field : String} (hfield : field ∈ ruledFields) (s : TunnelSetting)
    (hs : Within s.path (fieldPath field)) :
    Selection.LeadFits TunnelSetting.path TunnelSetting.leadWords (blame field) field := by
  have htable : ∀ f ∈ ruledFields, (∃ k ∈ TunnelSetting.kinds, Within k.path (fieldPath f)) →
      Selection.LeadFitsAmong TunnelSetting.path TunnelSetting.leadWords TunnelSetting.kinds
        (blame f) f := by
    decide +kernel
  obtain ⟨k, hk, hpath, -⟩ := TunnelSetting.exists_kind s
  exact (htable field hfield ⟨k, hk, hpath ▸ hs⟩).leadFits TunnelSetting.exists_kind

/-- The path of the field that a line sets. -/
def pathOf? : String → Option (List String) :=
  Selection.pathOf? TunnelSetting.read TunnelSetting.path

end Tunnel

end RouterConfig
