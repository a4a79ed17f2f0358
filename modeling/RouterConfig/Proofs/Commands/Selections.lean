import RouterConfig.Pp.Commands
import RouterConfig.Proofs.Commands.Filters
import RouterConfig.Tunnel.Commands

/-!
# The commands of a selection

The commands of a tunnel and of a session select it, say its settings one by one
and leave the selection.  So there is a further command behind each setting, and
what a setting does to its line is a property of the setting alone.

Numbers, addresses and keywords never do harm.  What is left are the texts that a
record brings along, and `KeepsLine` lists them.  Some of these are not checked
at all, and those that are may still end with the marker.
-/

namespace RouterConfig

open Text Rtx

/-! ## Values that do no harm -/

theorem endsCommand_onOff (value : Bool) : EndsCommand (onOff value) := by
  cases value <;> decide

theorem Ipv4.marker_not_mem_render (a : Ipv4) : marker ∉ a.render.toList :=
  a.not_mem_render (by decide) (by decide)

theorem endsCommand_render (a : Ipv4) : EndsCommand a.render :=
  endsCommand_of_isWord a.isWord_render a.marker_not_mem_render

theorem breakFree_numeral (n : UInt32) : BreakFree (numeral n).toList :=
  (isWord_numeral n).breakFree

/-- Words in front of a value must be words. -/
theorem lineOf_lead (last : String → Prop) (lead : List String) {ws : List String} (hne : ws ≠ [])
    (hlead : ∀ w ∈ lead, BreakFree w.toList) : LineOf last (lead ++ ws) ↔ LineOf last ws := by
  rw [lineOf_append hne]
  exact and_iff_right hlead

/-- The commands of a selection are seen one for one exactly when each one in front
of the last makes a line with another one behind. -/
theorem seenOneForOne_selection_iff {select leave : List String} (body : List (List String))
    (hselect : StartsWords select) (hselected : LineOf EndsCommand select)
    (hbody : ∀ ws ∈ body, StartsWords ws) (hleave : StartsWords leave)
    (hleft : LineOf EndsLine leave) :
    SeenOneForOne (phrase select :: body.map phrase ++ [phrase leave]) ↔
      ∀ ws ∈ body, LineOf EndsCommand ws := by
  have hinit : ∀ ws ∈ select :: body, StartsWords ws := List.forall_mem_cons.mpr ⟨hselect, hbody⟩
  have hseen := seenOneForOne_phrases hinit hleave
  rw [List.map_cons, List.forall_mem_cons] at hseen
  exact hseen.trans ⟨fun h => h.1.2, fun h => ⟨⟨hselected, h⟩, hleft⟩⟩

/-! ## Tunnels -/

/-- What a setting of the key exchange asks of its text. -/
def IkeSetting.KeepsLine : IkeSetting → Prop
  | .encryption algorithm => EndsCommand algorithm
  | .group groups => LineOf EndsCommand groups
  | .hash algorithm => EndsCommand algorithm
  | .localAddress address => EndsCommand address
  | .preSharedKey (.text secret) => EndsCommand secret
  | .preSharedKey (.encrypted digits) => EndsCommand digits
  | .remoteAddress address => EndsCommand address
  | .keepalive _ => True

/-- What a setting of the layer-two protocol asks of its text. -/
def L2tpSetting.KeepsLine : L2tpSetting → Prop
  | .hostname name => EndsCommand name
  | .remoteEndId id => EndsCommand id
  | .tunnelAuth auth => auth.enabled = true → ∀ password ∈ auth.password, EndsCommand password
  | _ => True

/-- What a setting of a tunnel asks of its texts. -/
def TunnelSetting.KeepsLine : TunnelSetting → Prop
  | .description text => EndsCommand text
  | .endpoint e => (∀ near ∈ e.localAddress, BreakFree near.toList) ∧ EndsCommand e.remoteAddress
  | .saPolicy policy => LineOf EndsCommand policy.algorithms
  | .ike _ setting => setting.KeepsLine
  | .l2tp setting => setting.KeepsLine
  | _ => True

/-- A keepalive mode of the key exchange is harmless. -/
theorem lineOf_keepaliveWords (mode : IkeKeepalive) : LineOf EndsCommand mode.words := by
  have hnames : ∀ w ∈ ["on", "dpd", "heartbeat"], BreakFree w.toList := by decide
  simp only [List.forall_mem_cons] at hnames
  cases mode with
  | dpd interval retry =>
    cases retry with
    | none => simp [-String.reduceToList, IkeKeepalive.words, hnames, endsCommand_numeral]
    | some count =>
      simp [-String.reduceToList, IkeKeepalive.words, hnames, breakFree_numeral,
        endsCommand_numeral]
  | heartbeat interval retry =>
    simp [-String.reduceToList, IkeKeepalive.words, hnames, breakFree_numeral, endsCommand_numeral]
  | off =>
    show EndsCommand "off"
    decide

/-- The line of a key exchange setting is as its text is. -/
theorem IkeSetting.lineOf_words_iff {id : UInt32} {setting : IkeSetting}
    (hgroup : ∀ groups, setting = .group groups → groups ≠ []) :
    LineOf EndsCommand (setting.words id) ↔ setting.KeepsLine := by
  have hid : BreakFree (numeral id).toList := breakFree_numeral id
  have hnames : ∀ w ∈ ["encryption", "group", "hash", "keepalive", "use", "local", "address",
      "pre-shared-key", "text", "encrypted", "remote"], BreakFree w.toList := by decide
  simp only [List.forall_mem_cons] at hnames
  cases setting with
  | group groups =>
    have hlead : ∀ w ∈ ["group", numeral id], BreakFree w.toList := by
      simp only [List.forall_mem_cons, hnames, hid]
      simp
    exact lineOf_lead EndsCommand ["group", numeral id] (hgroup groups rfl) hlead
  | keepalive mode =>
    have hlead : ∀ w ∈ ["keepalive", "use", numeral id], BreakFree w.toList := by
      simp only [List.forall_mem_cons, hnames, hid]
      simp
    have hmode := lineOf_keepaliveWords mode
    have hne : mode.words ≠ [] := by
      intro hnil
      rw [hnil] at hmode
      exact hmode
    exact iff_of_true
      ((lineOf_lead EndsCommand ["keepalive", "use", numeral id] hne hlead).mpr hmode) trivial
  | preSharedKey key =>
    cases key with
    | text secret => simp [-String.reduceToList, words, KeepsLine, hnames, hid]
    | encrypted digits => simp [-String.reduceToList, words, KeepsLine, hnames, hid]
  | _ => simp [-String.reduceToList, words, KeepsLine, hnames, hid]

theorem L2tpSetting.words_ne_nil (setting : L2tpSetting) : setting.words ≠ [] := by
  unfold words
  split <;> simp

/-- The line of a layer-two setting is as its text is. -/
theorem L2tpSetting.lineOf_words_iff (setting : L2tpSetting) :
    LineOf EndsCommand setting.words ↔ setting.KeepsLine := by
  have hnames : ∀ w ∈ ["hostname", "local", "router-id", "remote", "end-id", "always-on", "tunnel",
      "auth", "on", "keepalive", "use", "syslog"], BreakFree w.toList := by decide
  have hends : ∀ w ∈ ["on", "off"], EndsCommand w := by decide
  simp only [List.forall_mem_cons] at hnames hends
  cases setting with
  | tunnelAuth auth =>
    obtain ⟨enabled, password⟩ := auth
    cases enabled with
    | false => simp [-String.reduceToList, words, KeepsLine, hnames, hends]
    | true =>
      cases password with
      | none => simp [-String.reduceToList, words, KeepsLine, hnames, hends]
      | some password => simp [-String.reduceToList, words, KeepsLine, hnames]
  | keepalive mode =>
    cases mode with
    | on interval retry =>
      simp [-String.reduceToList, words, KeepsLine, hnames, breakFree_numeral, endsCommand_numeral]
    | off => simp [-String.reduceToList, words, KeepsLine, hnames, hends]
  | _ =>
    simp [-String.reduceToList, words, KeepsLine, hnames, endsCommand_render, endsCommand_onOff]

namespace Tunnel

/-- The algorithms of a valid tunnel are there, and its protocol is a word. -/
theorem saPolicy_of_validate {t : Tunnel} (h : validate t = none) {policy : SaPolicy}
    (hpolicy : t.saPolicy = some policy) :
    IsWord policy.protocol ∧ policy.algorithms ≠ [] := by
  have hrules := firstBroken_eq_none_iff.mp h
  simp only [rules, List.forall_mem_append, Rule.forall_mem_ifPresent] at hrules
  obtain ⟨⟨⟨⟨⟨⟨-, hsa⟩, -⟩, -⟩, -⟩, -⟩, -⟩ := hrules
  have hkept := hsa policy hpolicy
  simp only [saPolicyRules, List.forall_mem_append, List.forall_mem_cons,
    Rule.oneWord_eq_none_iff_isWord, Rule.demand_eq_none_iff] at hkept
  obtain ⟨⟨-, -, hprotocol, halgorithms, -⟩, -⟩ := hkept
  refine ⟨hprotocol, fun hnil => ?_⟩
  rw [hnil] at halgorithms
  exact absurd halgorithms (by simp)

/-- The groups of a valid tunnel are there. -/
theorem group_of_validate {t : Tunnel} (h : validate t = none) {ike : IkeGateway}
    (hike : t.ike = some ike) {groups : List String} (hgroups : ike.group = some groups) :
    groups ≠ [] := by
  have hrules := firstBroken_eq_none_iff.mp h
  simp only [rules, List.forall_mem_append, Rule.forall_mem_ifPresent] at hrules
  obtain ⟨⟨⟨⟨⟨-, hkey⟩, -⟩, -⟩, -⟩, -⟩ := hrules
  have hkept := hkey ike hike
  simp only [ikeRules, List.forall_mem_append, Rule.forall_mem_ifPresent] at hkept
  obtain ⟨⟨-, hgroup⟩, -⟩ := hkept
  have hcount := hgroup groups hgroups
  rw [groupRules, List.forall_mem_cons, Rule.demand_eq_none_iff] at hcount
  rintro rfl
  exact absurd hcount.1 (by decide)

theorem startsWords_setting (setting : TunnelSetting) : StartsWords setting.words := by
  cases setting with
  | description text => exact startsWords_cons (by decide)
  | encapsulation e => exact startsWords_cons (by decide)
  | endpoint e => exact startsWords_cons (by decide)
  | ipsecTunnel number => exact startsWords_cons (by decide)
  | saPolicy policy => exact startsWords_cons (by decide)
  | ike gateway setting => exact startsWords_cons (by decide)
  | l2tp setting =>
    obtain ⟨w, ws, hws⟩ := List.exists_cons_of_ne_nil setting.words_ne_nil
    rw [TunnelSetting.words, hws]
    exact startsWords_cons (by decide)
  | secureFilter direction binding => exact startsWords_cons (by decide)
  | tcpMssLimit limit => exact startsWords_cons (by decide)
  | switch on number => exact startsWords_cons (by decide)

/-- **The line of a setting is as its texts are.** -/
theorem lineOf_setting_iff {t : Tunnel} (h : validate t = none) {setting : TunnelSetting}
    (hmem : setting ∈ t.settings) : LineOf EndsCommand setting.words ↔ setting.KeepsLine := by
  have hnames : ∀ w ∈ ["description", "tunnel", "encapsulation", "endpoint", "address", "ipsec",
      "sa", "policy", "ip", "tcp", "mss", "limit", "enable", "disable"], BreakFree w.toList := by
    decide
  simp only [List.forall_mem_cons] at hnames
  have hnumber := endsCommand_numeral
  unfold settings at hmem
  cases setting with
  | description text =>
    simp [-String.reduceToList, TunnelSetting.words, TunnelSetting.KeepsLine, hnames]
  | encapsulation e =>
    have hword : EndsCommand e.word := by
      cases e <;> decide
    simp [-String.reduceToList, TunnelSetting.words, TunnelSetting.KeepsLine, hnames, hword]
  | endpoint e =>
    have hlead : ∀ w ∈ ["tunnel", "endpoint", "address"], BreakFree w.toList := by decide
    rw [TunnelSetting.words, lineOf_concat, List.forall_mem_append, and_iff_right hlead]
    simp [TunnelSetting.KeepsLine]
  | ipsecTunnel number =>
    simp [-String.reduceToList, TunnelSetting.words, TunnelSetting.KeepsLine, hnames, hnumber]
  | saPolicy policy =>
    have hpolicy : t.saPolicy = some policy := by simpa using hmem
    obtain ⟨hprotocol, hne⟩ := saPolicy_of_validate h hpolicy
    refine lineOf_lead EndsCommand _ hne ?_
    have hlead : ∀ w ∈ ["ipsec", "sa", "policy"], BreakFree w.toList := by decide
    simpa [breakFree_numeral, hprotocol.breakFree] using hlead
  | ike gateway setting =>
    have hne : setting.words gateway ≠ [] := by
      unfold IkeSetting.words
      split <;> simp
    have hline := lineOf_lead EndsCommand ["ipsec", "ike"] hne (by decide)
    refine hline.trans (IkeSetting.lineOf_words_iff ?_)
    rintro groups rfl
    obtain ⟨ike, hike, hgroups, -⟩ :
        ∃ ike, t.ike = some ike ∧ ike.group = some groups ∧ ike.id = gateway := by
      simpa [ikeSettings] using hmem
    exact group_of_validate h hike hgroups
  | l2tp setting =>
    have hline := lineOf_lead EndsCommand ["l2tp"] setting.words_ne_nil (by decide)
    exact hline.trans setting.lineOf_words_iff
  | secureFilter direction binding =>
    refine iff_of_true ?_ trivial
    exact (lineOf_lead EndsCommand ["ip", "tunnel", "secure", "filter"] (List.cons_ne_nil _ _)
      (by decide)).mpr (lineOf_binding direction binding)
  | tcpMssLimit limit =>
    have hword : EndsCommand limit.word := by
      cases limit with
      | auto =>
        show EndsCommand "auto"
        decide
      | value bytes => exact hnumber bytes
    simp [-String.reduceToList, TunnelSetting.words, TunnelSetting.KeepsLine, hnames, hword]
  | switch on number =>
    cases on with
    | false =>
      simp [-String.reduceToList, TunnelSetting.words, TunnelSetting.KeepsLine, hnames, hnumber]
    | true =>
      simp [-String.reduceToList, TunnelSetting.words, TunnelSetting.KeepsLine, hnames, hnumber]

theorem startsWords_select (id : UInt32) : StartsWords ["tunnel", "select", numeral id] :=
  startsWords_cons (by decide)

theorem startsWords_leave : StartsWords ["tunnel", "select", "none"] :=
  startsWords_cons (by decide)

theorem lineOf_select (id : UInt32) : LineOf EndsCommand ["tunnel", "select", numeral id] :=
  ⟨by decide, by decide, endsCommand_numeral id⟩

theorem lineOf_leave : LineOf EndsLine ["tunnel", "select", "none"] :=
  ⟨by decide, by decide, (by decide : EndsLine "none")⟩

/-- The commands that set a tunnel. -/
def commands (t : Tunnel) : List String :=
  t.selectCommand :: t.body ++ [leaveCommand]

theorem encode_of_validate {t : Tunnel} (h : validate t = none) : encode t .set = .ok t.commands :=
  provided_of_none h _

/-- **Exactly when the commands of a tunnel are seen one for one.** -/
theorem encode_seenOneForOne_iff {t : Tunnel} (h : validate t = none) :
    ∃ commands, encode t .set = .ok commands ∧
      (SeenOneForOne commands ↔ ∀ setting ∈ t.settings, setting.KeepsLine) := by
  refine ⟨t.commands, encode_of_validate h, ?_⟩
  have hseen := seenOneForOne_selection_iff (t.settings.map TunnelSetting.words)
    (startsWords_select t.id) (lineOf_select t.id) ?_ startsWords_leave lineOf_leave
  · rw [List.map_map, List.forall_mem_map] at hseen
    refine hseen.trans ?_
    exact forall₂_congr fun setting hmem => lineOf_setting_iff h hmem
  · intro ws hws
    obtain ⟨setting, -, rfl⟩ := List.mem_map.mp hws
    exact startsWords_setting setting

end Tunnel

/-! ## Sessions -/

/-- What a setting of a session asks of its text. -/
def PpSetting.KeepsLine : PpSetting → Prop
  | .description d => EndsCommand d.text
  | .pppoeUse interface => EndsCommand interface
  | .bind interface => EndsCommand interface
  | .pppoeServiceName name => EndsCommand name
  | .pppoeAcName name => EndsCommand name
  | .authMyname name => EndsCommand name.password
  | .ipAddress address => EndsCommand address
  | _ => True

namespace PpInterface

/-- The methods of a valid session are known ones. -/
theorem auth_of_validate {pp : PpInterface} (h : validate pp = none) :
    (∀ methods, pp.authAccept = some methods →
      methods ≠ [] ∧ ∀ method ∈ methods, method ∈ acceptMethods) ∧
    (∀ request, pp.authRequest = some request → request.method ∈ requestMethods) ∧
    ∀ name, pp.authMyname = some name → IsWord name.user := by
  have hrules := firstBroken_eq_none_iff.mp h
  simp only [rules, List.forall_mem_append, Rule.forall_mem_ifPresent] at hrules
  obtain ⟨⟨⟨⟨⟨⟨⟨⟨⟨⟨-, haccept⟩, hrequest⟩, -⟩, hname⟩, -⟩, -⟩, -⟩, -⟩, -⟩, -⟩ := hrules
  refine ⟨fun methods hmethods => ?_, fun request hr => ?_, fun name hn => ?_⟩
  · have hkept := haccept methods hmethods
    simp only [acceptRules, List.forall_mem_cons, List.forall_mem_map,
      Rule.demand_eq_none_iff] at hkept
    refine ⟨fun hnil => ?_, fun method hmethod => ?_⟩
    · rw [hnil] at hkept
      exact absurd hkept.1 (by decide)
    · exact List.contains_iff_mem.mp (hkept.2 method hmethod)
  · have hkept := hrequest request hr
    rw [requestRules, List.forall_mem_singleton, Rule.demand_eq_none_iff] at hkept
    exact List.contains_iff_mem.mp hkept
  · have hkept := hname name hn
    rw [mynameRules, List.forall_mem_cons] at hkept
    exact Rule.oneWord_eq_none_iff.mp hkept.1

theorem startsWords_setting (setting : PpSetting) : StartsWords setting.words := by
  unfold PpSetting.words
  cases setting with
  | description d =>
    simp only [PpSetting.leadWords, PpSetting.valueWords]
    split <;> exact startsWords_cons (by decide)
  | _ => exact startsWords_cons (by decide)

theorem endsCommand_of_mem_acceptMethods : ∀ method ∈ acceptMethods,
    IsWord method ∧ EndsCommand method := by
  decide

theorem endsCommand_of_mem_requestMethods : ∀ method ∈ requestMethods,
    IsWord method ∧ EndsCommand method := by
  decide

/-- A pool of addresses is a word without the marker. -/
theorem endsCommand_pool (pool : AddressPool) : EndsCommand pool.word := by
  cases pool with
  | range first last =>
    have hdash : IsWord (first.render ++ "-") := first.isWord_render.append (by decide)
    refine endsCommand_of_isWord (hdash.append last.isWord_render.2) ?_
    rw [AddressPool.word, String.toList_append, String.toList_append, List.mem_append,
      List.mem_append, not_or, not_or]
    exact ⟨⟨first.marker_not_mem_render, by decide⟩, last.marker_not_mem_render⟩
  | dhcp => exact (by decide : EndsCommand "dhcp")

theorem endsCommand_selector (selector : PpSelector) : EndsCommand selector.render := by
  cases selector with
  | number n => exact endsCommand_numeral n
  | anonymous =>
    show EndsCommand "anonymous"
    decide

theorem breakFree_of_mem_leadWords (setting : PpSetting) :
    ∀ w ∈ setting.leadWords, BreakFree w.toList := by
  have hnames : ∀ w ∈ ["description", "pppoe", "use", "pp", "bind", "service-name", "ac-name",
      "auth", "accept", "request", "myname", "always-on", "disconnect", "time", "ip", "address",
      "remote", "pool", "mtu", "tcp", "mss", "limit", "nat", "descriptor", "secure", "filter",
      "in", "out", "enable", "disable"], BreakFree w.toList := by decide
  simp only [List.forall_mem_cons] at hnames
  cases setting with
  | secureFilter direction binding =>
    cases direction with
    | inbound => simp [-String.reduceToList, PpSetting.leadWords, Direction.word, hnames]
    | outbound => simp [-String.reduceToList, PpSetting.leadWords, Direction.word, hnames]
  | switch on selector =>
    cases on with
    | false => simp [-String.reduceToList, PpSetting.leadWords, hnames]
    | true => simp [-String.reduceToList, PpSetting.leadWords, hnames]
  | _ => simp [-String.reduceToList, PpSetting.leadWords, hnames]

/-- **The line of a setting is as its text is.** -/
theorem lineOf_setting_iff {pp : PpInterface} (h : validate pp = none) {setting : PpSetting}
    (hmem : setting ∈ pp.settings ++ pp.switchSettings) :
    LineOf EndsCommand setting.words ↔ setting.KeepsLine := by
  obtain ⟨haccept, hrequest, hname⟩ := auth_of_validate h
  unfold settings switchSettings at hmem
  have hline : setting.valueWords ≠ [] →
      (LineOf EndsCommand setting.words ↔ LineOf EndsCommand setting.valueWords) :=
    fun hne => lineOf_lead EndsCommand _ hne (breakFree_of_mem_leadWords setting)
  have hone : ∀ value, setting.valueWords = [value] →
      (LineOf EndsCommand setting.words ↔ EndsCommand value) := by
    intro value hvalue
    rw [hline (by rw [hvalue]; exact List.cons_ne_nil _ _), hvalue, lineOf_singleton]
  cases setting with
  | description d =>
    by_cases hkeyword : d.ppKeyword = true
    · have hpp : BreakFree "pp".toList := by decide
      have hvalue : (PpSetting.description d).valueWords = ["pp", d.text] := if_pos hkeyword
      rw [hline (by rw [hvalue]; exact List.cons_ne_nil _ _), hvalue]
      exact and_iff_right hpp
    · exact hone d.text (if_neg hkeyword)
  | pppoeUse interface => exact hone interface rfl
  | bind interface => exact hone interface rfl
  | pppoeServiceName name => exact hone name rfl
  | pppoeAcName name => exact hone name rfl
  | authAccept methods =>
    have hmethods : pp.authAccept = some methods := by
      simpa [or_comm] using hmem
    obtain ⟨hne, hknown⟩ := haccept methods hmethods
    have hvalue : (PpSetting.authAccept methods).valueWords = methods :=
      if_neg fun hempty => hne (List.isEmpty_iff.mp hempty)
    refine iff_of_true ((hline (by rwa [hvalue])).mpr ?_) trivial
    rw [hvalue]
    exact lineOf_of_isWord hne
      (fun w hw => (endsCommand_of_mem_acceptMethods w (hknown w hw)).1)
      fun w hw => (endsCommand_of_mem_acceptMethods w (hknown w hw)).2
  | authRequest request =>
    have hrequested : pp.authRequest = some request := by
      simpa using hmem
    have hmethod := endsCommand_of_mem_requestMethods _ (hrequest request hrequested)
    refine iff_of_true ((hline (List.cons_ne_nil _ _)).mpr ?_) trivial
    simp only [PpSetting.valueWords]
    split
    · exact ⟨hmethod.1.breakFree, (by decide : EndsCommand "arrive-only")⟩
    · exact hmethod.2
  | authMyname name =>
    have hnamed : pp.authMyname = some name := by
      simpa using hmem
    refine (hline (List.cons_ne_nil _ _)).trans ?_
    exact and_iff_right (hname name hnamed).breakFree
  | alwaysOn value => exact iff_of_true ((hone _ rfl).mpr (endsCommand_onOff value)) trivial
  | disconnectTime time =>
    have hword : EndsCommand time.word := by
      cases time with
      | off =>
        show EndsCommand "off"
        decide
      | seconds count => exact endsCommand_numeral count
    exact iff_of_true ((hone _ rfl).mpr hword) trivial
  | ipAddress address => exact hone address rfl
  | remoteAddressPool pool => exact iff_of_true ((hone _ rfl).mpr (endsCommand_pool pool)) trivial
  | mtu bytes => exact iff_of_true ((hone _ rfl).mpr (endsCommand_numeral bytes)) trivial
  | tcpMssLimit bytes => exact iff_of_true ((hone _ rfl).mpr (endsCommand_numeral bytes)) trivial
  | natDescriptor number =>
    exact iff_of_true ((hone _ rfl).mpr (endsCommand_numeral number)) trivial
  | secureFilter direction binding =>
    refine iff_of_true ?_ trivial
    exact (lineOf_lead EndsCommand ["ip", "pp", "secure", "filter"] (List.cons_ne_nil _ _)
      (by decide)).mpr (lineOf_binding direction binding)
  | switch on selector =>
    exact iff_of_true ((hone _ rfl).mpr (endsCommand_selector selector)) trivial

theorem startsWords_select (selector : PpSelector) :
    StartsWords ["pp", "select", selector.render] :=
  startsWords_cons (by decide)

theorem startsWords_leave : StartsWords ["pp", "select", "none"] :=
  startsWords_cons (by decide)

theorem lineOf_select (selector : PpSelector) :
    LineOf EndsCommand ["pp", "select", selector.render] :=
  ⟨by decide, by decide, endsCommand_selector selector⟩

theorem lineOf_leave : LineOf EndsLine ["pp", "select", "none"] :=
  ⟨by decide, by decide, (by decide : EndsLine "none")⟩

/-- The commands that set a session. -/
def commands (pp : PpInterface) : List String :=
  pp.selectCommand :: pp.body ++ pp.switchSettings.map (fun setting => phrase setting.words) ++
    [leaveCommand]

theorem encode_of_validate {pp : PpInterface} (h : validate pp = none) :
    encode pp .set = .ok pp.commands :=
  provided_of_none h _

/-- **Exactly when the commands of a session are seen one for one.** -/
theorem encode_seenOneForOne_iff {pp : PpInterface} (h : validate pp = none) :
    ∃ commands, encode pp .set = .ok commands ∧
      (SeenOneForOne commands ↔ ∀ setting ∈ pp.settings, setting.KeepsLine) := by
  refine ⟨pp.commands, encode_of_validate h, ?_⟩
  have hseen := seenOneForOne_selection_iff
    ((pp.settings ++ pp.switchSettings).map PpSetting.words)
    (startsWords_select pp.selector) (lineOf_select pp.selector) ?_ startsWords_leave lineOf_leave
  · rw [List.map_map, List.forall_mem_map, List.map_append] at hseen
    have hsettings : (∀ setting ∈ pp.settings ++ pp.switchSettings,
        LineOf EndsCommand setting.words) ↔ ∀ setting ∈ pp.settings, setting.KeepsLine := by
      have hone : ∀ setting ∈ pp.settings ++ pp.switchSettings,
          (LineOf EndsCommand setting.words ↔ setting.KeepsLine) :=
        fun setting hmem => lineOf_setting_iff h hmem
      refine (forall₂_congr hone).trans ?_
      rw [List.forall_mem_append]
      refine and_iff_left fun setting hmem => ?_
      rw [switchSettings] at hmem
      split at hmem
      · rw [List.mem_singleton.mp hmem]
        trivial
      · exact absurd hmem (by simp)
    refine Iff.trans ?_ (hseen.trans hsettings)
    rw [← List.cons_append]
    rfl
  · intro ws hws
    obtain ⟨setting, -, rfl⟩ := List.mem_map.mp hws
    exact startsWords_setting setting

end PpInterface

end RouterConfig
