import RouterConfig.Pp.Commands
import RouterConfig.Proofs.Commands.Rules
import RouterConfig.Proofs.Pp.Settings
import RouterConfig.Proofs.Stanza.Blame

/-!
# The line of a session that is to blame

The rules for a session are about a few fields (`ruledFields`), and each of them but the
selector has a lead of its own, which fits the field (`leadFits_blame`).  Only the two parts of
the name that the device gives have one lead, and one line sets both.
-/

namespace RouterConfig

open Text

namespace PpSetting

/-! ## What a setting sets -/

/-- The path of the field that is set.  A filter for one direction counts as the filter. -/
def path : PpSetting → List String
  | .description _ => ["description"]
  | .pppoeUse _ => ["pppoe_use"]
  | .bind _ => ["bind"]
  | .pppoeServiceName _ => ["pppoe_service_name"]
  | .pppoeAcName _ => ["pppoe_ac_name"]
  | .authAccept _ => ["auth_accept"]
  | .authRequest _ => ["auth_request"]
  | .authMyname _ => ["auth_myname"]
  | .alwaysOn _ => ["always_on"]
  | .disconnectTime _ => ["disconnect_time"]
  | .ipAddress _ => ["ip_address"]
  | .remoteAddressPool _ => ["remote_address_pool"]
  | .mtu _ => ["mtu"]
  | .tcpMssLimit _ => ["tcp_mss_limit"]
  | .natDescriptor _ => ["nat_descriptor"]
  | .secureFilter _ _ => ["secure filter"]
  | .switch _ _ => ["enabled"]

/-- One setting of each kind. -/
def kinds : List PpSetting :=
  [.description ⟨"", false⟩, .pppoeUse "", .bind "", .pppoeServiceName "", .pppoeAcName "",
    .authAccept [], .authRequest ⟨"", false⟩, .authMyname ⟨"", ""⟩, .alwaysOn true,
    .disconnectTime .off, .ipAddress "", .remoteAddressPool .dhcp, .mtu 0, .tcpMssLimit 0,
    .natDescriptor 0, .secureFilter .inbound .empty, .secureFilter .outbound .empty,
    .switch true .anonymous, .switch false .anonymous]

/-- What is set, and how the command starts, is told by the kind of the setting. -/
theorem exists_kind (s : PpSetting) :
    ∃ k ∈ kinds, k.path = s.path ∧ k.leadWords = s.leadWords := by
  cases s with
  | secureFilter direction binding => cases direction <;> simp [kinds, path, leadWords]
  | switch on selector => cases on <;> simp [kinds, path, leadWords]
  | _ => simp [kinds, path, leadWords]

/-! ## The words of a command that was read -/

variable {ws : List String} {s : PpSetting}

theorem leadWords_of_readPppoe : readPppoe ws = .ok (some s) → s.leadWords <+: "pppoe" :: ws := by
  fun_cases readPppoe ws
  all_goals intro h
  case case2 | case5 | case7 =>
    cases h
    exact ⟨_, rfl⟩
  all_goals cases h

theorem leadWords_of_readAuth :
    readAuth ws = .ok (some s) → s.leadWords <+: "pp" :: "auth" :: ws := by
  fun_cases readAuth ws
  all_goals intro h
  case case2 | case3 | case5 | case6 | case8 =>
    cases h
    exact ⟨_, rfl⟩
  all_goals cases h

theorem leadWords_of_readSwitch {on : Bool} (h : readSwitch on ws = .ok (some s)) :
    s.leadWords <+: "pp" :: (if on then "enable" else "disable") :: ws := by
  revert h
  fun_cases readSwitch on ws
  all_goals intro h
  all_goals cases h
  exact ⟨_, rfl⟩

theorem leadWords_of_readPp : readPp ws = .ok (some s) → s.leadWords <+: "pp" :: ws := by
  fun_cases readPp ws
  all_goals intro h
  case case2 =>
    cases h
    exact ⟨_, rfl⟩
  case case4 => exact leadWords_of_readAuth h
  case case5 | case7 =>
    obtain ⟨_, -, hs⟩ := map_eq_ok_iff.mp h
    cases hs
    exact ⟨_, rfl⟩
  case case9 | case10 => exact leadWords_of_readSwitch h
  all_goals cases h

theorem leadWords_of_readIp : readIp ws = .ok (some s) → s.leadWords <+: "ip" :: "pp" :: ws := by
  fun_cases readIp ws
  all_goals intro h
  case case2 =>
    cases h
    exact ⟨_, rfl⟩
  case case4 | case7 | case9 | case11 =>
    obtain ⟨_, -, hs⟩ := map_eq_ok_iff.mp h
    cases hs
    exact ⟨_, rfl⟩
  case case13 direction numbers =>
    obtain ⟨_, -, h⟩ := bind_eq_ok_iff.mp h
    obtain ⟨d, hd, h⟩ := bind_eq_ok_iff.mp h
    cases h
    rw [Direction.read_eq_ok_iff.mp hd]
    exact ⟨_, rfl⟩
  all_goals cases h

theorem leadWords_of_readWords : readWords ws = .ok (some s) → s.leadWords <+: ws := by
  fun_cases readWords ws
  all_goals intro h
  case case2 => exact leadWords_of_readPppoe h
  case case3 => exact leadWords_of_readPp h
  case case4 => exact leadWords_of_readIp h
  all_goals cases h

/-- **The first words of a command that was read** are those of its setting. -/
theorem leadWords_of_read (text : String) (s : PpSetting) (h : read text = .ok (some s)) :
    s.leadWords <+: wordsOf text := by
  rcases read_cases text with ⟨w, ws, hwords⟩ | ⟨w, ws, hwords, hpp⟩ | hother
  · rw [read_of_keyword hwords] at h
    obtain ⟨_, _, -, -, rfl⟩ := eq_of_cutDescription h
    rw [hwords]
    exact ⟨_, rfl⟩
  · rw [read_of_description hwords hpp] at h
    obtain ⟨_, _, -, -, rfl⟩ := eq_of_cutDescription h
    rw [hwords]
    exact ⟨_, rfl⟩
  · rw [read_of_ne hother, refuse_eq_ok_iff] at h
    exact leadWords_of_readWords h

end PpSetting

namespace PpInterface

/-! ## The fields that rules are about -/

/-- The fields that rules are about. -/
def ruledFields : List String :=
  ["selector", "description", "pppoe_use", "bind", "ip_address", "auth_accept", "auth_request",
    "remote_address_pool", "auth_myname.user", "auth_myname.password", "mtu", "tcp_mss_limit",
    "nat_descriptor", "disconnect_time", "secure filter"]

section Rules

open Rule

theorem about_selectorRules (pp : PpInterface) : AllAbout ruledFields pp.selectorRules := by
  fun_cases selectorRules pp
  · simp only [allAbout_cons, allAbout_nil, and_true]
    exact ⟨about_inRange (by decide), about_demand (by decide)⟩
  · exact allAbout_nil

theorem about_descriptionRules (d : Description) :
    AllAbout ruledFields (descriptionRules d) := by
  simp only [descriptionRules, allAbout_cons, allAbout_nil, and_true]
  exact ⟨about_present (by decide), about_oneLine (by decide)⟩

theorem about_wordRules {field : String} (h : field ∈ ruledFields) (value : String) :
    AllAbout ruledFields (wordRules field value) :=
  allAbout_cons.mpr ⟨about_oneWord h, allAbout_nil⟩

theorem about_acceptRules (methods : List String) :
    AllAbout ruledFields (acceptRules methods) := by
  simp only [acceptRules, allAbout_cons, allAbout_map]
  exact ⟨about_demand (by decide), fun _ _ => about_demand (by decide)⟩

theorem about_poolRules (pool : AddressPool) : AllAbout ruledFields (poolRules pool) := by
  cases pool with
  | range first last => exact allAbout_cons.mpr ⟨about_demand (by decide), allAbout_nil⟩
  | dhcp => exact allAbout_nil

theorem about_mynameRules (name : AuthName) : AllAbout ruledFields (mynameRules name) := by
  simp only [mynameRules, allAbout_cons, allAbout_nil, and_true]
  exact ⟨about_oneWord (by decide), about_demand (by decide)⟩

theorem about_disconnectRules (time : DisconnectTime) :
    AllAbout ruledFields (disconnectRules time) := by
  cases time with
  | off => exact allAbout_nil
  | seconds count => exact allAbout_cons.mpr ⟨about_inRange (by decide), allAbout_nil⟩

theorem about_bindingRules (binding : FilterBinding) :
    AllAbout ruledFields (binding.rules featureName "secure filter") :=
  allAbout_map.mpr fun _ _ => about_filterNumber (by decide)

end Rules

/-- **A rule that a session breaks** is about one of these fields. -/
theorem field_of_validate {pp : PpInterface} {error : ValidationError}
    (h : validate pp = some error) : error.field ∈ ruledFields := by
  refine field_of_firstBroken ?_ h
  simp only [rules, requestRules, Rule.allAbout_append, Rule.allAbout_cons, Rule.allAbout_nil,
    and_true, Rule.allAbout_ifPresent]
  exact ⟨⟨⟨⟨⟨⟨⟨⟨⟨⟨⟨⟨⟨⟨about_selectorRules pp, fun d _ => about_descriptionRules d⟩,
    fun value _ => about_wordRules (by decide) value⟩,
    fun value _ => about_wordRules (by decide) value⟩,
    fun value _ => about_wordRules (by decide) value⟩, fun methods _ => about_acceptRules methods⟩,
    fun _ _ => Rule.about_demand (by decide)⟩, fun pool _ => about_poolRules pool⟩,
    fun name _ => about_mynameRules name⟩, fun _ _ => Rule.about_inRange (by decide)⟩,
    fun _ _ => Rule.about_inRange (by decide)⟩, fun _ _ => Rule.about_filterNumber (by decide)⟩,
    fun time _ => about_disconnectRules time⟩, fun binding _ => about_bindingRules binding⟩,
    fun binding _ => about_bindingRules binding⟩

/-! ## The table of leads -/

/-- **The lead of a field fits**, if the field can be set at all. -/
theorem leadFits_blame {field : String} (hfield : field ∈ ruledFields) (s : PpSetting)
    (hs : Within s.path (fieldPath field)) :
    Selection.LeadFits PpSetting.path PpSetting.leadWords (blame field) field := by
  have htable : ∀ f ∈ ruledFields, (∃ k ∈ PpSetting.kinds, Within k.path (fieldPath f)) →
      Selection.LeadFitsAmong PpSetting.path PpSetting.leadWords PpSetting.kinds (blame f) f := by
    decide +kernel
  obtain ⟨k, hk, hpath, -⟩ := PpSetting.exists_kind s
  exact (htable field hfield ⟨k, hk, hpath ▸ hs⟩).leadFits PpSetting.exists_kind

/-- The path of the field that a line sets. -/
def pathOf? : String → Option (List String) :=
  Selection.pathOf? PpSetting.read PpSetting.path

end PpInterface

end RouterConfig
