import RouterConfig.Proofs.Stanza.Selection
import RouterConfig.Proofs.Tunnel.Settings

/-!
# Tunnels, read and written setting by setting

A tunnel that was read holds well-formed texts, and a block of settings is there
only if one of them is (`wellFormed_of_foldlM`).  Conversely such a tunnel comes
back when its settings are put one after the other into an empty one
(`foldlM_settings`).  Here the gateway of the security association has to be that of
the key exchange, since the association is written first and decides which gateway
is in force.
-/

namespace RouterConfig

open Text Rtx

/-! ## Blocks of settings -/

/-- Saying one field that may be absent sets this field of the block that is there, in which it is
absent, before the rest is said. -/
theorem foldl_say {σ α β : Type} {put : σ → α → σ} {f : β → α} {start : σ} (set : σ → Option β → σ)
    {field : Option β} {rest : List α} (hnone : set start none = start := by rfl)
    (hsome : ∀ v, put start (f v) = set start (some v) := by intro _; rfl) :
    (field.toList.map f ++ rest).foldl put start = rest.foldl put (set start field) := by
  cases field with
  | none => rw [Option.toList_none, List.map_nil, List.nil_append, hnone]
  | some v => rw [Option.toList_some, List.map_singleton, List.singleton_append, List.foldl_cons,
      hsome]

namespace IkeGateway

@[simp] theorem id_put (ike : IkeGateway) (s : IkeSetting) : (ike.put s).id = ike.id := by
  cases s <;> rfl

/-- What was put in is a setting, and all else was one before. -/
theorem mem_settings_put (ike : IkeGateway) (s : IkeSetting) :
    s ∈ Tunnel.ikeSettings (ike.put s) ∧
      ∀ x ∈ Tunnel.ikeSettings (ike.put s), x = s ∨ x ∈ Tunnel.ikeSettings ike := by
  cases s <;>
    refine ⟨by simp [put, Tunnel.ikeSettings], fun x hx => ?_⟩ <;>
    simp only [put, Tunnel.ikeSettings, List.mem_append, Option.toList_some, List.map_cons,
      List.map_nil, List.mem_singleton] at hx ⊢ <;>
    tauto

/-- A gateway comes back from its settings. -/
theorem foldl_settings (ike : IkeGateway) :
    (Tunnel.ikeSettings ike).foldl put { id := ike.id } = ike := by
  rw [← List.append_nil (Tunnel.ikeSettings ike)]
  simp only [Tunnel.ikeSettings, List.append_assoc]
  refine (foldl_say fun (r : IkeGateway) x => { r with encryption := x }).trans ?_
  refine (foldl_say fun (r : IkeGateway) x => { r with group := x }).trans ?_
  refine (foldl_say fun (r : IkeGateway) x => { r with hash := x }).trans ?_
  refine (foldl_say fun (r : IkeGateway) x => { r with keepalive := x }).trans ?_
  refine (foldl_say fun (r : IkeGateway) x => { r with localAddress := x }).trans ?_
  refine (foldl_say fun (r : IkeGateway) x => { r with preSharedKey := x }).trans ?_
  refine (foldl_say fun (r : IkeGateway) x => { r with remoteAddress := x }).trans ?_
  rfl

end IkeGateway

namespace TunnelL2tp

/-- What was put in is a setting, and all else was one before. -/
theorem mem_settings_put (l2tp : TunnelL2tp) (s : L2tpSetting) :
    s ∈ Tunnel.l2tpSettings (l2tp.put s) ∧
      ∀ x ∈ Tunnel.l2tpSettings (l2tp.put s), x = s ∨ x ∈ Tunnel.l2tpSettings l2tp := by
  cases s <;>
    refine ⟨by simp [put, Tunnel.l2tpSettings], fun x hx => ?_⟩ <;>
    simp only [put, Tunnel.l2tpSettings, List.mem_append, Option.toList_some, List.map_cons,
      List.map_nil, List.mem_singleton] at hx ⊢ <;>
    tauto

/-- The layer-two protocol comes back from its settings. -/
theorem foldl_settings (l2tp : TunnelL2tp) : (Tunnel.l2tpSettings l2tp).foldl put {} = l2tp := by
  rw [← List.append_nil (Tunnel.l2tpSettings l2tp)]
  simp only [Tunnel.l2tpSettings, List.append_assoc]
  refine (foldl_say fun (r : TunnelL2tp) x => { r with hostname := x }).trans ?_
  refine (foldl_say fun (r : TunnelL2tp) x => { r with localRouterId := x }).trans ?_
  refine (foldl_say fun (r : TunnelL2tp) x => { r with remoteRouterId := x }).trans ?_
  refine (foldl_say fun (r : TunnelL2tp) x => { r with remoteEndId := x }).trans ?_
  refine (foldl_say fun (r : TunnelL2tp) x => { r with alwaysOn := x }).trans ?_
  refine (foldl_say fun (r : TunnelL2tp) x => { r with tunnelAuth := x }).trans ?_
  refine (foldl_say fun (r : TunnelL2tp) x => { r with keepalive := x }).trans ?_
  refine (foldl_say fun (r : TunnelL2tp) x => { r with syslog := x }).trans ?_
  rfl

end TunnelL2tp

namespace Tunnel

variable {t next : Tunnel}

/-! ## What one command does -/

/-- A command is passed over, or its setting is put in. -/
theorem apply_cases {text : String} (h : t.apply text = .ok next) :
    (TunnelSetting.read text = .ok none ∧ next = t) ∨
      ∃ s, TunnelSetting.read text = .ok (some s) ∧ t.put s = .ok next := by
  unfold apply at h
  split at h
  · cases h
  · refine Iff.mp ?_ h
    exact Selection.bind_put_ok_iff

/-- No line stops the reading. -/
theorem apply_ne_stop {text : String} (hline : IsLine text.toList) (stop : ReadStop) :
    t.apply text ≠ .error (.stop stop) := by
  unfold apply
  split
  · simp
  · cases hread : TunnelSetting.read text with
    | error refusal =>
      cases refusal with
      | fault fault => simp [bind, Except.bind]
      | stop other => exact absurd hread (TunnelSetting.read_ne_stop hline other)
    | ok setting? =>
      cases setting? with
      | none => simp [pure, Except.pure]
      | some s => exact refuse_ne_stop _ _

theorem id_of_put {s : TunnelSetting} (h : t.put s = .ok next) : next.id = t.id := by
  cases s with
  | secureFilter direction binding =>
    cases direction with
    | inbound => cases h; rfl
    | outbound => cases h; rfl
  | saPolicy policy =>
    simp only [put] at h
    split at h
    · split at h
      · cases h; rfl
      · cases h
    · cases h; rfl
  | ike gateway setting =>
    simp only [put] at h
    split at h
    · cases h; rfl
    · cases h
  | switch on number =>
    simp only [put] at h
    split at h
    · cases h; rfl
    · cases h
  | _ => cases h; rfl

/-! ## Well-formed tunnels -/

/-- A tunnel whose texts stand in commands as they are, and in which a block of
settings is there only if one of them is. -/
structure WellFormed (t : Tunnel) : Prop where
  description : ∀ text ∈ t.description, (TunnelSetting.description text).WellFormed
  endpoint : ∀ e ∈ t.endpoint, (TunnelSetting.endpoint e).WellFormed
  saPolicy : ∀ policy ∈ t.saPolicy, (TunnelSetting.saPolicy policy).WellFormed
  ike : ∀ ike ∈ t.ike, ikeSettings ike ≠ [] ∧ ∀ s ∈ ikeSettings ike, s.WellFormed
  l2tp : ∀ l2tp ∈ t.l2tp, l2tpSettings l2tp ≠ [] ∧ ∀ s ∈ l2tpSettings l2tp, s.WellFormed

theorem wellFormed_empty (id : UInt32) : WellFormed { id } := by
  constructor <;> simp

/-- **Putting in keeps a tunnel well formed.** -/
theorem WellFormed.of_put (h : t.WellFormed) {s : TunnelSetting} (hs : s.WellFormed)
    (hput : t.put s = .ok next) : next.WellFormed := by
  cases s with
  | description text =>
    cases hput
    refine { h with description := ?_ }
    rintro _ ⟨⟩
    exact hs
  | endpoint e =>
    cases hput
    refine { h with endpoint := ?_ }
    rintro _ ⟨⟩
    exact hs
  | saPolicy policy =>
    have hpolicy : WellFormed { t with saPolicy := some policy } := by
      refine { h with saPolicy := ?_ }
      rintro _ ⟨⟩
      exact hs
    simp only [put] at hput
    split at hput
    · split at hput
      · cases hput
        exact hpolicy
      · cases hput
    · cases hput
      exact hpolicy
  | ike gateway setting =>
    simp only [put] at hput
    split at hput
    · cases hput
      obtain ⟨hmem, hold⟩ := (t.ike.getD { id := gateway }).mem_settings_put setting
      refine { h with ike := ?_ }
      rintro _ ⟨⟩
      refine ⟨List.ne_nil_of_mem hmem, fun x hx => ?_⟩
      rcases hold x hx with rfl | hx
      · exact hs
      · cases hike : t.ike with
        | none =>
          rw [hike] at hx
          exact absurd hx (by simp [ikeSettings])
        | some ike =>
          rw [hike] at hx
          exact (h.ike ike hike).2 x hx
    · cases hput
  | l2tp setting =>
    cases hput
    obtain ⟨hmem, hold⟩ := (t.l2tp.getD {}).mem_settings_put setting
    refine { h with l2tp := ?_ }
    rintro _ ⟨⟩
    refine ⟨List.ne_nil_of_mem hmem, fun x hx => ?_⟩
    rcases hold x hx with rfl | hx
    · exact hs
    · cases hl2tp : t.l2tp with
      | none =>
        rw [hl2tp] at hx
        exact absurd hx (by simp [l2tpSettings])
      | some l2tp =>
        rw [hl2tp] at hx
        exact (h.l2tp l2tp hl2tp).2 x hx
  | secureFilter direction binding =>
    cases direction with
    | inbound => cases hput; exact { h with }
    | outbound => cases hput; exact { h with }
  | switch on number =>
    simp only [put] at hput
    split at hput
    · cases hput; exact { h with }
    · cases hput
  | _ => cases hput; exact { h with }

/-- **A tunnel that was read is well formed**, and it has the number that was
selected. -/
theorem wellFormed_of_foldlM {id : UInt32} {commands : List String}
    (hlines : ∀ c ∈ commands, IsLine c.toList) (h : commands.foldlM apply { id } = .ok t) :
    t.id = id ∧ t.WellFormed := by
  refine Selection.holds_of_foldlM (P := fun t => t.id = id ∧ t.WellFormed) ?_
    ⟨rfl, wellFormed_empty id⟩ h
  rintro t ⟨hid, ht⟩ c hc next happly
  rcases apply_cases happly with ⟨-, rfl⟩ | ⟨s, hread, hput⟩
  · exact ⟨hid, ht⟩
  · have hs := TunnelSetting.wellFormed_of_read (hlines c hc) hread
    exact ⟨(id_of_put hput).trans hid, ht.of_put hs hput⟩

/-- The settings of a well-formed tunnel are well formed. -/
theorem WellFormed.of_mem_settings (h : t.WellFormed) : ∀ s ∈ t.settings, s.WellFormed := by
  have hike : ∀ ike ∈ t.ike.toList, ∀ s ∈ ikeSettings ike, s.WellFormed :=
    fun ike hmem => (h.ike ike (Option.mem_toList.mp hmem)).2
  have hl2tp : ∀ l2tp ∈ t.l2tp.toList, ∀ s ∈ l2tpSettings l2tp, s.WellFormed :=
    fun l2tp hmem => (h.l2tp l2tp (Option.mem_toList.mp hmem)).2
  intro s hs
  cases s with
  | description text => exact h.description text (by simpa [settings] using hs)
  | endpoint e => exact h.endpoint e (by simpa [settings] using hs)
  | saPolicy policy => exact h.saPolicy policy (by simpa [settings] using hs)
  | ike gateway setting =>
    obtain ⟨ike, hmem, hsetting, -⟩ :
        ∃ ike, t.ike = some ike ∧ setting ∈ ikeSettings ike ∧ ike.id = gateway := by
      simpa [settings] using hs
    exact hike ike (Option.mem_toList.mpr hmem) setting hsetting
  | l2tp setting =>
    obtain ⟨l2tp, hmem, hsetting⟩ : ∃ l2tp, t.l2tp = some l2tp ∧ setting ∈ l2tpSettings l2tp := by
      simpa [settings] using hs
    exact hl2tp l2tp (Option.mem_toList.mpr hmem) setting hsetting
  | _ => trivial

/-! ## Putting the settings in again -/

/-- The settings of a gateway that may be in force. -/
theorem foldlM_ike {gateway : UInt32} {l : List IkeSetting} (hne : l ≠ [])
    (hike : (t.ike.getD { id := gateway }).id = gateway)
    (hforce : t.gateway?.getD gateway = gateway) :
    (l.map (TunnelSetting.ike gateway)).foldlM put t =
      .ok { t with ike := some (l.foldl IkeGateway.put (t.ike.getD { id := gateway })) } := by
  induction l generalizing t with
  | nil => exact absurd rfl hne
  | cons s l ih =>
    have hput : t.put (.ike gateway s) =
        .ok { t with ike := some ((t.ike.getD { id := gateway }).put s) } := by
      simp only [put, hforce, if_true]
    rw [List.map_cons, List.foldlM_cons, hput, ok_bind, List.foldl_cons]
    cases l with
    | nil => rfl
    | cons r l =>
      refine (ih (List.cons_ne_nil _ _) ?_ ?_).trans rfl
      · simpa using hike
      · simpa [gateway?] using hike

/-- The key exchange is put in after the security association, before the rest. -/
theorem foldlM_ikeBlock {block : Option IkeGateway} {rest : List TunnelSetting}
    (hnone : t.ike = none)
    (hne : ∀ ike ∈ block, ikeSettings ike ≠ [])
    (hgateway : ∀ policy ∈ t.saPolicy, ∀ ike ∈ block, policy.gateway = ike.id) :
    (block.toList.flatMap (fun ike => (ikeSettings ike).map (TunnelSetting.ike ike.id)) ++
      rest).foldlM put t = rest.foldlM put { t with ike := block } := by
  cases block with
  | none =>
    have hself : t = { t with ike := none } := by rw [← hnone]
    rw [← hself]
    rfl
  | some ike =>
    have hforce : t.gateway?.getD ike.id = ike.id := by
      rw [gateway?, hnone]
      cases hpolicy : t.saPolicy with
      | none => rfl
      | some policy => exact hgateway policy hpolicy ike rfl
    rw [Option.toList_some, List.flatMap_singleton, List.foldlM_append,
      foldlM_ike (hne ike rfl) ?_ hforce, ok_bind, hnone, Option.getD_none, ike.foldl_settings]
    rw [hnone, Option.getD_none]

/-- The settings of the layer-two protocol. -/
theorem foldlM_l2tp {l : List L2tpSetting} (hne : l ≠ []) :
    (l.map TunnelSetting.l2tp).foldlM put t =
      .ok { t with l2tp := some (l.foldl TunnelL2tp.put (t.l2tp.getD {})) } := by
  induction l generalizing t with
  | nil => exact absurd rfl hne
  | cons s l ih =>
    rw [List.map_cons, List.foldlM_cons, put, ok_bind, List.foldl_cons]
    cases l with
    | nil => rfl
    | cons r l => exact (ih (List.cons_ne_nil _ _)).trans rfl

/-- The layer-two protocol is put in, before the rest. -/
theorem foldlM_l2tpBlock {block : Option TunnelL2tp} {rest : List TunnelSetting}
    (hnone : t.l2tp = none) (hne : ∀ l2tp ∈ block, l2tpSettings l2tp ≠ []) :
    (block.toList.flatMap (fun l2tp => (l2tpSettings l2tp).map TunnelSetting.l2tp) ++
      rest).foldlM put t = rest.foldlM put { t with l2tp := block } := by
  cases block with
  | none =>
    have hself : t = { t with l2tp := none } := by rw [← hnone]
    rw [← hself]
    rfl
  | some l2tp =>
    rw [Option.toList_some, List.flatMap_singleton, List.foldlM_append,
      foldlM_l2tp (hne l2tp rfl), ok_bind, hnone, Option.getD_none, l2tp.foldl_settings]

/-- The switch is put in where it was off. -/
theorem foldlM_switch {start : Tunnel} (hid : start.id = t.id) (hoff : start.enabled = false) :
    (if t.enabled then [TunnelSetting.switch true t.id] else []).foldlM put start =
      .ok { start with enabled := t.enabled } := by
  cases t.enabled with
  | false =>
    have hself : start = { start with enabled := false } := by rw [← hoff]
    exact congrArg Except.ok hself
  | true => simp [put, hid]

/-- **A tunnel comes back from its settings.**  Each sets one field, apart from the blocks of the
key exchange and of the layer-two protocol. -/
theorem foldlM_settings (h : t.WellFormed)
    (hgateway : ∀ policy ∈ t.saPolicy, ∀ ike ∈ t.ike, policy.gateway = ike.id) :
    t.settings.foldlM put { id := t.id } = .ok t := by
  simp only [settings, List.append_assoc]
  refine (Selection.foldlM_say fun (r : Tunnel) x => { r with description := x }).trans ?_
  refine (Selection.foldlM_say fun (r : Tunnel) x => { r with encapsulation := x }).trans ?_
  refine (Selection.foldlM_say fun (r : Tunnel) x => { r with endpoint := x }).trans ?_
  refine (Selection.foldlM_say fun (r : Tunnel) x => { r with ipsecTunnel := x }).trans ?_
  refine (Selection.foldlM_say fun (r : Tunnel) x => { r with saPolicy := x }).trans ?_
  refine Eq.trans (foldlM_ikeBlock rfl (fun ike hike => (h.ike ike hike).1) hgateway) ?_
  refine Eq.trans (foldlM_l2tpBlock rfl fun l2tp hl2tp => (h.l2tp l2tp hl2tp).1) ?_
  refine (Selection.foldlM_say fun (r : Tunnel) x => { r with secureFilterIn := x }).trans ?_
  refine (Selection.foldlM_say fun (r : Tunnel) x => { r with secureFilterOut := x }).trans ?_
  refine (Selection.foldlM_say fun (r : Tunnel) x => { r with tcpMssLimit := x }).trans ?_
  exact foldlM_switch rfl rfl

/-! ## Reading the commands again -/

/-- The gateways of a valid tunnel are one. -/
theorem gateway_of_validate (h : validate t = none) :
    ∀ policy ∈ t.saPolicy, ∀ ike ∈ t.ike, policy.gateway = ike.id := by
  have hrules := firstBroken_eq_none_iff.mp h
  simp only [rules, List.forall_mem_append, Rule.forall_mem_ifPresent] at hrules
  obtain ⟨⟨⟨⟨⟨⟨-, hsa⟩, -⟩, -⟩, -⟩, -⟩, -⟩ := hrules
  intro policy hpolicy ike hike
  have hkept := hsa policy hpolicy
  simp only [saPolicyRules, List.forall_mem_append, Rule.forall_mem_ifPresent] at hkept
  simpa using hkept.2 ike hike

/-- The description of a valid tunnel says something. -/
theorem description_of_validate (h : validate t = none) : t.description ≠ some "" := by
  have hrules := firstBroken_eq_none_iff.mp h
  simp only [rules, List.forall_mem_append, Rule.forall_mem_ifPresent] at hrules
  obtain ⟨⟨⟨⟨⟨⟨⟨⟨-, hdescription⟩, -⟩, -⟩, -⟩, -⟩, -⟩, -⟩, -⟩ := hrules
  intro hempty
  have hkept := hdescription "" hempty
  rw [descriptionRules, List.forall_mem_cons] at hkept
  exact absurd hkept.1 (by decide)

/-- Only a security association is looked at for its gateway. -/
theorem gatewayClash?_of_take {ws : List String} (h : ws.take 2 ≠ ["ipsec", "sa"]) :
    t.gatewayClash? ws = none := by
  unfold gatewayClash?
  split
  · exact absurd rfl h
  · rfl

/-- A setting that was put in names no other gateway. -/
theorem gatewayClash?_phrase_words {s : TunnelSetting} (hs : s.WellFormed)
    (hput : t.put s = .ok next) : t.gatewayClash? (wordsOf (phrase s.words)) = none := by
  have hword : ∀ w ∈ ["description", "tunnel", "ipsec", "sa", "ike", "l2tp", "ip", "policy"],
      wordsOf w = [w] := by
    intro w hw
    refine wordsOf_of_isWord ?_
    revert w
    decide
  simp only [List.forall_mem_cons] at hword
  cases s with
  | saPolicy policy =>
    obtain ⟨hprotocol, hne, halgorithms⟩ := hs
    obtain ⟨first, others, hfirst⟩ := List.exists_cons_of_ne_nil hne
    have hnumber : ∀ n, wordsOf (numeral n) = [numeral n] :=
      fun n => wordsOf_of_isWord (isWord_numeral n)
    have halgorithm : wordsOf first = [first] :=
      wordsOf_of_isWord (halgorithms first (by rw [hfirst]; exact List.mem_cons_self ..))
    have hwords : wordsOf (phrase (TunnelSetting.saPolicy policy).words) =
        "ipsec" :: "sa" :: "policy" :: numeral policy.id :: numeral policy.gateway ::
          policy.protocol :: first :: others.flatMap wordsOf := by
      simp [wordsOf_phrase_eq_flatMap, TunnelSetting.words, hword, hnumber, hfirst, halgorithm,
        wordsOf_of_isWord hprotocol]
    rw [hwords]
    simp only [put] at hput
    cases hike : t.ike with
    | none => simp [gatewayClash?, hike]
    | some ike =>
      simp only [hike] at hput
      split at hput
      · next hgateway => simp [gatewayClash?, hike, readNumber?_numeral, hgateway]
      · cases hput
  | _ =>
    refine gatewayClash?_of_take ?_
    simp [wordsOf_phrase_eq_flatMap, TunnelSetting.words, hword]

/-- **Reading a written setting is putting it in.** -/
theorem apply_phrase_words {s : TunnelSetting} (hs : s.WellFormed) (hback : s.ReadBack)
    (hput : t.put s = .ok next) : t.apply (phrase s.words) = .ok next := by
  rw [apply, gatewayClash?_phrase_words hs hput, hback.2]
  simp [hput]

/-- The settings of a well-formed and valid tunnel are read back. -/
theorem WellFormed.readBack (h : t.WellFormed) (hvalid : validate t = none) :
    ∀ s ∈ t.settings, s.ReadBack := by
  intro s hs
  refine TunnelSetting.readBack_of_wellFormed (h.of_mem_settings s hs) ?_
  rintro rfl
  exact description_of_validate hvalid (by simpa [settings] using hs)

/-- **The commands of a valid tunnel give it back.** -/
theorem foldlM_body (h : t.WellFormed) (hvalid : validate t = none) :
    t.body.foldlM apply { id := t.id } = .ok t := by
  refine Selection.foldlM_map_congr ?_ (foldlM_settings h (gateway_of_validate hvalid))
  intro s hs before after hput
  exact apply_phrase_words (h.of_mem_settings s hs) (h.readBack hvalid s hs) hput

end Tunnel

end RouterConfig
