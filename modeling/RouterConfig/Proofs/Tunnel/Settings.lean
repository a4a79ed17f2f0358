import RouterConfig.Proofs.Commands.Selections
import RouterConfig.Proofs.Faults
import RouterConfig.Proofs.Filter.Binding

/-!
# Settings of a tunnel, read and written

A setting that was read from a line is *well formed*: each of its texts is one
word, apart from a description, which is a line, and a shared secret, which is some
words (`wellFormed_of_read`).  A well-formed setting is written on one line and read
back from it (`read_phrase_words`).
-/

namespace RouterConfig

open Text Rtx

/-! ## Well-formed settings -/

/-- A shared secret that stands in a command as it is. -/
def PreSharedKey.WellFormed : PreSharedKey → Prop
  | .text secret => ∃ ws, ws ≠ [] ∧ (∀ w ∈ ws, IsWord w) ∧ secret = phrase ws
  | .encrypted digits => IsWord digits

/-- A setting of the key exchange with texts that stand in a command as they are. -/
def IkeSetting.WellFormed : IkeSetting → Prop
  | .encryption algorithm => IsWord algorithm
  | .group groups => (groups.length = 1 ∨ groups.length = 2) ∧ ∀ w ∈ groups, IsWord w
  | .hash algorithm => IsWord algorithm
  | .keepalive _ => True
  | .localAddress address => IsWord address
  | .preSharedKey key => key.WellFormed
  | .remoteAddress address => IsWord address

/-- A setting of the layer-two protocol with texts that stand in a command as they
are.  Only an end that proves who it is has a password. -/
def L2tpSetting.WellFormed : L2tpSetting → Prop
  | .hostname name => IsWord name
  | .remoteEndId id => IsWord id
  | .tunnelAuth auth =>
    (auth.enabled = false → auth.password = none) ∧ ∀ password ∈ auth.password, IsWord password
  | _ => True

/-- A setting with texts that stand in a command as they are. -/
def TunnelSetting.WellFormed : TunnelSetting → Prop
  | .description text => IsLine text.toList
  | .endpoint e => (∀ near ∈ e.localAddress, IsWord near) ∧ IsWord e.remoteAddress
  | .saPolicy policy =>
    IsWord policy.protocol ∧ policy.algorithms ≠ [] ∧ ∀ w ∈ policy.algorithms, IsWord w
  | .ike _ setting => setting.WellFormed
  | .l2tp setting => setting.WellFormed
  | _ => True

namespace TunnelSetting

/-! ## What was read is well formed -/

variable {ws : List String} {s : TunnelSetting}

theorem wellFormed_of_readTunnel (hws : ∀ w ∈ ws, IsWord w) :
    readTunnel ws = .ok (some s) → s.WellFormed := by
  fun_cases readTunnel ws
  all_goals intro h
  case case4 remote =>
    cases h
    exact ⟨by simp, hws remote (by simp)⟩
  case case5 near remote =>
    cases h
    refine ⟨?_, hws remote (by simp)⟩
    rintro _ ⟨⟩
    exact hws near (by simp)
  case case2 | case7 | case9 =>
    obtain ⟨_, -, hs⟩ := map_eq_ok_iff.mp h
    cases hs
    trivial
  all_goals cases h

theorem wellFormed_of_readSa (hws : ∀ w ∈ ws, IsWord w) :
    readSa ws = .ok (some s) → s.WellFormed := by
  fun_cases readSa ws
  all_goals intro h
  case case1 id gateway protocol first algorithms =>
    obtain ⟨_, -, h⟩ := bind_eq_ok_iff.mp h
    obtain ⟨_, -, h⟩ := bind_eq_ok_iff.mp h
    cases h
    refine ⟨hws protocol (by simp), List.cons_ne_nil _ _, fun w hw => hws w ?_⟩
    exact List.mem_of_mem_drop (i := 4) hw
  case case2 => cases h

/-- A setting of a gateway that was named is a setting of the gateway. -/
theorem wellFormed_of_ofGateway {gateway : String} {setting : IkeSetting}
    (h : ofGateway gateway setting = .ok (some s)) (hsetting : setting.WellFormed) :
    s.WellFormed := by
  obtain ⟨id, -, hs⟩ := map_eq_ok_iff.mp h
  cases hs
  exact hsetting

theorem wellFormed_of_readIke (hws : ∀ w ∈ ws, IsWord w) :
    readIke ws = .ok (some s) → s.WellFormed := by
  fun_cases readIke ws
  all_goals intro h
  case case2 gateway address => exact wellFormed_of_ofGateway h (hws address (by simp))
  case case4 gateway address => exact wellFormed_of_ofGateway h (hws address (by simp))
  case case6 gateway first others =>
    refine wellFormed_of_ofGateway h ⟨first :: others, List.cons_ne_nil _ _, fun w hw => ?_, rfl⟩
    exact hws w (List.mem_of_mem_drop (i := 3) hw)
  case case7 gateway digits => exact wellFormed_of_ofGateway h (hws digits (by simp))
  case case9 gateway mode =>
    obtain ⟨_, -, h⟩ := bind_eq_ok_iff.mp h
    exact wellFormed_of_ofGateway h trivial
  case case11 gateway algorithm => exact wellFormed_of_ofGateway h (hws algorithm (by simp))
  case case13 gateway algorithm => exact wellFormed_of_ofGateway h (hws algorithm (by simp))
  case case15 gateway first =>
    refine wellFormed_of_ofGateway h ⟨Or.inl rfl, fun w hw => ?_⟩
    exact hws w (List.mem_of_mem_drop (i := 2) hw)
  case case16 gateway first second =>
    refine wellFormed_of_ofGateway h ⟨Or.inr rfl, fun w hw => ?_⟩
    exact hws w (List.mem_of_mem_drop (i := 2) hw)
  all_goals cases h

theorem wellFormed_of_readIpsec (hws : ∀ w ∈ ws, IsWord w) :
    readIpsec ws = .ok (some s) → s.WellFormed := by
  fun_cases readIpsec ws
  all_goals intro h
  case case2 number =>
    obtain ⟨_, -, hs⟩ := map_eq_ok_iff.mp h
    cases hs
    trivial
  case case4 rest => exact wellFormed_of_readSa (fun w hw => hws w (List.mem_cons_of_mem _ hw)) h
  case case5 rest => exact wellFormed_of_readIke (fun w hw => hws w (List.mem_cons_of_mem _ hw)) h
  all_goals cases h

theorem wellFormed_of_readL2tp (hws : ∀ w ∈ ws, IsWord w) {setting : L2tpSetting} :
    readL2tp ws = .ok setting → setting.WellFormed := by
  fun_cases readL2tp ws
  all_goals intro h
  case case2 name =>
    cases h
    exact hws name (by simp)
  case case7 id =>
    cases h
    exact hws id (by simp)
  case case4 | case6 | case9 | case11 =>
    obtain ⟨_, -, hs⟩ := map_eq_ok_iff.mp h
    cases hs
    trivial
  case case13 | case14 =>
    cases h
    exact ⟨by simp, by simp⟩
  case case15 password =>
    cases h
    refine ⟨by simp, ?_⟩
    rintro _ ⟨⟩
    exact hws password (by simp)
  case case17 =>
    cases h
    trivial
  case case18 interval retry =>
    obtain ⟨_, -, h⟩ := bind_eq_ok_iff.mp h
    obtain ⟨_, -, h⟩ := bind_eq_ok_iff.mp h
    cases h
    trivial
  all_goals cases h

theorem wellFormed_of_readIp : readIp ws = .ok (some s) → s.WellFormed := by
  fun_cases readIp ws
  all_goals intro h
  case case2 direction numbers =>
    obtain ⟨_, -, h⟩ := bind_eq_ok_iff.mp h
    obtain ⟨_, -, h⟩ := bind_eq_ok_iff.mp h
    cases h
    trivial
  case case4 limit =>
    obtain ⟨_, -, hs⟩ := map_eq_ok_iff.mp h
    cases hs
    trivial
  all_goals cases h

theorem wellFormed_of_readWords (hws : ∀ w ∈ ws, IsWord w) :
    readWords ws = .ok (some s) → s.WellFormed := by
  fun_cases readWords ws
  all_goals intro h
  case case2 rest =>
    exact wellFormed_of_readTunnel (fun w hw => hws w (List.mem_cons_of_mem _ hw)) h
  case case3 rest =>
    exact wellFormed_of_readIpsec (fun w hw => hws w (List.mem_cons_of_mem _ hw)) h
  case case4 rest =>
    obtain ⟨setting, hsetting, hs⟩ := map_eq_ok_iff.mp h
    cases hs
    exact wellFormed_of_readL2tp (fun w hw => hws w (List.mem_cons_of_mem _ hw)) hsetting
  case case5 rest => exact wellFormed_of_readIp h
  all_goals cases h

theorem byteSize_description : byteSize "description".toList = descriptionWidth := by
  decide

/-- What is not a description is read from its words. -/
theorem read_of_head? {text : String} (h : (wordsOf text).head? ≠ some "description") :
    read text = refuse (readWords (wordsOf text)) := by
  unfold read
  split
  · next hwords =>
    rw [hwords] at h
    exact absurd rfl h
  · rfl

/-- **A setting that was read from a line is well formed.** -/
theorem wellFormed_of_read {text : String} (hline : IsLine text.toList)
    (h : read text = .ok (some s)) : s.WellFormed := by
  by_cases hfirst : (wordsOf text).head? = some "description"
  · obtain ⟨rest, hwords⟩ := List.head?_eq_some_iff.mp hfirst
    obtain ⟨value, hvalue, -, -, hcut⟩ := afterByte?_of_wordsOf hline.1 hwords
    rw [byteSize_description] at hcut
    rw [read, hwords] at h
    simp only [hcut, Except.ok.injEq, Option.some.injEq] at h
    subst h
    exact hline.trimmed hvalue
  · rw [read_of_head? hfirst, refuse_eq_ok_iff] at h
    exact wellFormed_of_readWords (fun w hw => isWord_of_mem_wordsOf hw) h

/-- **No line stops the reading.** -/
theorem read_ne_stop {text : String} (hline : IsLine text.toList) (stop : ReadStop) :
    read text ≠ .error (.stop stop) := by
  by_cases hfirst : (wordsOf text).head? = some "description"
  · obtain ⟨rest, hwords⟩ := List.head?_eq_some_iff.mp hfirst
    obtain ⟨value, -, -, -, hcut⟩ := afterByte?_of_wordsOf hline.1 hwords
    rw [byteSize_description] at hcut
    rw [read, hwords]
    simp [hcut]
  · rw [read_of_head? hfirst]
    exact refuse_ne_stop _ _

/-! ## What is well formed is read back -/

/-- The setting is written on one line and read back from it. -/
def ReadBack (s : TunnelSetting) : Prop :=
  IsLine (phrase s.words).toList ∧ read (phrase s.words) = .ok (some s)

/-- Words on which a line ends in each place make a line. -/
theorem isLine_phrase_words (h : ∀ w ∈ s.words, EndsLine w) : IsLine (phrase s.words).toList := by
  have hstarts := Tunnel.startsWords_setting s
  refine (isLine_phrase hstarts).mpr (lineOf_endsLine ?_ h)
  obtain ⟨w, v, rest, hwords, -⟩ := hstarts
  rw [hwords]
  exact List.cons_ne_nil _ _

theorem head?_words_ne_description (hs : ∀ text, s ≠ .description text) :
    s.words.head? ≠ some "description" := by
  cases s with
  | description text => exact absurd rfl (hs text)
  | _ => simp [words]

/-- A setting that is written in single words. -/
theorem readBack_of_isWord (hs : ∀ text, s ≠ .description text) (h : ∀ w ∈ s.words, IsWord w)
    (hread : readWords s.words = .ok (some s)) : s.ReadBack := by
  refine ⟨isLine_phrase_words fun w hw => endsLine_of_isWord (h w hw), ?_⟩
  have hwords : wordsOf (phrase s.words) = s.words := wordsOf_phrase h
  rw [read_of_head? (by rw [hwords]; exact head?_words_ne_description hs), hwords, hread]
  rfl

/-- **A description is read back**, with the blanks inside it. -/
theorem readBack_description {text : String} (hline : IsLine text.toList) (hne : text ≠ "") :
    (description text).ReadBack := by
  have hend := endsLine_of_isLine hline hne
  have hword : IsWord "description" := by decide
  refine ⟨isLine_phrase_words ?_, ?_⟩
  · simpa [words, hend] using endsLine_of_isWord hword
  · have hwords : wordsOf (phrase (description text).words) = "description" :: wordsOf text := by
      rw [wordsOf_phrase_eq_flatMap, words, List.flatMap_cons, List.flatMap_singleton,
        wordsOf_of_isWord hword]
      rfl
    have htext : (phrase (description text).words).toList =
        "description".toList ++ ' ' :: text.toList := by
      rw [toList_phrase, words]
      rfl
    rw [read, hwords]
    simp only [afterByte?, htext, ← byteSize_description, afterBytes?_append, Option.map_some]
    rw [trimmed, String.toList_ofList, trim, trimStart_cons_of_isBlank isBlank_space, ← trim,
      hline.1, String.ofList_toList]

end TunnelSetting

/-! ### The key exchange -/

theorem IkeKeepalive.isWord_of_mem_words (mode : IkeKeepalive) : ∀ w ∈ mode.words, IsWord w := by
  have hnames : IsWord "on" ∧ IsWord "dpd" ∧ IsWord "heartbeat" ∧ IsWord "off" := by decide
  cases mode with
  | dpd interval retry =>
    cases retry with
    | none => simp [words, hnames, isWord_numeral]
    | some count => simp [words, hnames, isWord_numeral]
  | heartbeat interval retry => simp [words, hnames, isWord_numeral]
  | off => simp [words, hnames]

/-- Apart from a shared secret, the words of a setting are words. -/
theorem IkeSetting.isWord_of_mem_words {setting : IkeSetting} (h : setting.WellFormed)
    (hsecret : ∀ secret, setting ≠ .preSharedKey (.text secret)) (id : UInt32) :
    ∀ w ∈ setting.words id, IsWord w := by
  have hnumber := isWord_numeral id
  have hnames : ∀ w ∈ ["encryption", "group", "hash", "keepalive", "use", "local", "address",
      "pre-shared-key", "encrypted", "remote"], IsWord w := by decide
  simp only [List.forall_mem_cons] at hnames
  cases setting with
  | group groups => simpa [words, hnames, hnumber] using h.2
  | keepalive mode => simpa [words, hnames, hnumber] using mode.isWord_of_mem_words
  | preSharedKey key =>
    cases key with
    | text secret => exact absurd rfl (hsecret secret)
    | encrypted digits =>
      have hdigits : IsWord digits := h
      simp [words, hnames, hnumber, hdigits]
  | _ => simpa [words, hnames, hnumber, WellFormed] using h

namespace TunnelSetting

variable {gateway : UInt32}

@[simp] theorem readIkeKeepalive_words (mode : IkeKeepalive) :
    readIkeKeepalive mode.words = .ok mode := by
  cases mode with
  | dpd interval retry =>
    cases retry with
    | none => simp [IkeKeepalive.words, readIkeKeepalive]
    | some count => simp [IkeKeepalive.words, readIkeKeepalive]
  | heartbeat interval retry => simp [IkeKeepalive.words, readIkeKeepalive]
  | off => rfl

@[simp] theorem ofGateway_numeral (setting : IkeSetting) :
    ofGateway (numeral gateway) setting = .ok (some (.ike gateway setting)) := by
  rw [ofGateway, readNumber_numeral]
  rfl

/-- Apart from a shared secret, a setting is read back from its words. -/
theorem readIke_words {setting : IkeSetting} (h : setting.WellFormed)
    (hsecret : ∀ secret, setting ≠ .preSharedKey (.text secret)) :
    readIke (setting.words gateway) = .ok (some (ike gateway setting)) := by
  cases setting with
  | group groups =>
    rcases h.1 with hlength | hlength
    · obtain ⟨first, rfl⟩ := List.length_eq_one_iff.mp hlength
      simp [IkeSetting.words, readIke]
    · obtain ⟨first, second, rfl⟩ := List.length_eq_two.mp hlength
      simp [IkeSetting.words, readIke]
  | preSharedKey key =>
    cases key with
    | text secret => exact absurd rfl (hsecret secret)
    | encrypted digits => simp [IkeSetting.words, readIke]
  | _ => simp [IkeSetting.words, readIke]

/-- A shared secret is read back from the words that it is made of. -/
theorem readBack_secret {secret : String} (h : (PreSharedKey.text secret).WellFormed) :
    (ike gateway (.preSharedKey (.text secret))).ReadBack := by
  obtain ⟨ws, hne, hws, rfl⟩ := h
  have hlead : ∀ w ∈ ["ipsec", "ike", "pre-shared-key", numeral gateway, "text"], IsWord w := by
    have hnames : ∀ w ∈ ["ipsec", "ike", "pre-shared-key", "text"], IsWord w := by decide
    simpa [isWord_numeral] using hnames
  have hsecret : EndsLine (phrase ws) := endsLine_phrase hne hws
  have hsplit : (ike gateway (.preSharedKey (.text (phrase ws)))).words =
      ["ipsec", "ike", "pre-shared-key", numeral gateway, "text"] ++ [phrase ws] := rfl
  refine ⟨isLine_phrase_words ?_, ?_⟩
  · rw [hsplit]
    intro w hw
    rcases List.mem_append.mp hw with hw | hw
    · exact endsLine_of_isWord (hlead w hw)
    · rwa [List.mem_singleton.mp hw]
  · -- the words of the secret are words of the command
    have hwords : wordsOf (phrase (ike gateway (.preSharedKey (.text (phrase ws)))).words) =
        ["ipsec", "ike", "pre-shared-key", numeral gateway, "text"] ++ ws := by
      rw [hsplit, wordsOf_phrase_eq_flatMap, List.flatMap_append, List.flatMap_singleton,
        wordsOf_phrase hws, ← wordsOf_phrase_eq_flatMap, wordsOf_phrase hlead]
    obtain ⟨first, others, rfl⟩ := List.exists_cons_of_ne_nil hne
    rw [read_of_head? (by rw [hwords]; simp), hwords]
    simp [readWords, readIpsec, readIke]

/-- Every setting of the key exchange is read back. -/
theorem readBack_ike {setting : IkeSetting} (h : setting.WellFormed) :
    (ike gateway setting).ReadBack := by
  by_cases hsecret : ∃ secret, setting = .preSharedKey (.text secret)
  · obtain ⟨secret, rfl⟩ := hsecret
    exact readBack_secret h
  · have hplain : ∀ secret, setting ≠ .preSharedKey (.text secret) := not_exists.mp hsecret
    have hnames : IsWord "ipsec" ∧ IsWord "ike" := by decide
    refine readBack_of_isWord (by simp) ?_ ?_
    · simpa [words, hnames] using setting.isWord_of_mem_words h hplain gateway
    · rw [words, readWords, readIpsec, readIke_words h hplain]

/-! ### The layer-two protocol -/

@[simp] theorem readRouterId_render (id : Ipv4) : readRouterId id.render = .ok id := by
  rw [readRouterId, Ipv4.read?_render]

end TunnelSetting

/-- The words of a setting of the layer-two protocol are words. -/
theorem L2tpSetting.isWord_of_mem_words {setting : L2tpSetting} (h : setting.WellFormed) :
    ∀ w ∈ setting.words, IsWord w := by
  have hnames : ∀ w ∈ ["hostname", "local", "router-id", "remote", "end-id", "always-on", "tunnel",
      "auth", "on", "off", "keepalive", "use", "syslog"], IsWord w := by decide
  simp only [List.forall_mem_cons] at hnames
  cases setting with
  | tunnelAuth auth =>
    obtain ⟨enabled, password⟩ := auth
    obtain ⟨-, hpassword⟩ := h
    cases enabled with
    | false => simp [words, hnames]
    | true =>
      cases password with
      | none => simp [words, hnames]
      | some password => simpa [words, hnames] using hpassword
  | keepalive mode =>
    cases mode with
    | on interval retry => simp [words, hnames, isWord_numeral]
    | off => simp [words, hnames]
  | hostname name => simpa [words, hnames, WellFormed] using h
  | remoteEndId id => simpa [words, hnames, WellFormed] using h
  | _ => simp [words, hnames, isWord_onOff, Ipv4.isWord_render]

namespace TunnelSetting

/-- A setting of the layer-two protocol is read back from its words. -/
theorem readL2tp_words {setting : L2tpSetting} (h : setting.WellFormed) :
    readL2tp setting.words = .ok setting := by
  cases setting with
  | tunnelAuth auth =>
    obtain ⟨enabled, password⟩ := auth
    obtain ⟨hoff, -⟩ := h
    cases enabled with
    | false =>
      have hpassword : password = none := hoff rfl
      rw [hpassword]
      rfl
    | true =>
      cases password with
      | none => rfl
      | some password => simp [L2tpSetting.words, readL2tp]
  | keepalive mode =>
    cases mode with
    | on interval retry => simp [L2tpSetting.words, readL2tp]
    | off => rfl
  | _ => simp [L2tpSetting.words, readL2tp, Except.map]

/-! ### All settings -/

@[simp] theorem readMssLimit_word (limit : MssLimit) : readMssLimit limit.word = .ok limit := by
  cases limit with
  | auto => rfl
  | value bytes =>
    rw [MssLimit.word, readMssLimit, if_neg (numeral_ne (by decide) bytes), readNumber_numeral]
    rfl

/-- **A well-formed setting is read back**, unless it is a description that says
nothing. -/
theorem readBack_of_wellFormed {s : TunnelSetting} (h : s.WellFormed) (hne : s ≠ .description "") :
    s.ReadBack := by
  have hnames : ∀ w ∈ ["tunnel", "encapsulation", "endpoint", "address", "ipsec", "sa", "policy",
      "l2tp", "ip", "secure", "filter", "tcp", "mss", "limit", "enable", "disable", "auto"],
      IsWord w := by decide
  simp only [List.forall_mem_cons] at hnames
  cases s with
  | description text =>
    refine readBack_description h ?_
    rintro rfl
    exact hne rfl
  | encapsulation e =>
    have hword : IsWord e.word := by
      cases e <;> decide
    refine readBack_of_isWord (by simp) (by simp [words, hnames, hword]) ?_
    simp [words, readWords, readTunnel, Except.map]
  | endpoint e =>
    obtain ⟨near, remote⟩ := e
    obtain ⟨hnear, hremote⟩ := h
    cases near with
    | none => exact readBack_of_isWord (by simp) (by simp [words, hnames, hremote]) rfl
    | some near =>
      have hnear : IsWord near := hnear near rfl
      exact readBack_of_isWord (by simp) (by simp [words, hnames, hnear, hremote]) rfl
  | ipsecTunnel number =>
    refine readBack_of_isWord (by simp) (by simp [words, hnames, isWord_numeral]) ?_
    simp [words, readWords, readIpsec, Except.map]
  | saPolicy policy =>
    obtain ⟨id, gateway, protocol, algorithms⟩ := policy
    obtain ⟨hprotocol, halgorithms, hws⟩ := h
    obtain ⟨first, others, rfl⟩ := List.exists_cons_of_ne_nil halgorithms
    refine readBack_of_isWord (by simp) ?_ ?_
    · simpa [words, hnames, isWord_numeral, hprotocol] using hws
    · simp [words, readWords, readIpsec, readSa]
  | ike gateway setting => exact readBack_ike h
  | l2tp setting =>
    refine readBack_of_isWord (by simp) ?_ ?_
    · simpa [words, hnames] using setting.isWord_of_mem_words h
    · rw [words, readWords, readL2tp_words h]
      rfl
  | secureFilter direction binding =>
    have hword : IsWord direction.word := by
      cases direction <;> decide
    refine readBack_of_isWord (by simp) ?_ ?_
    · simpa [words, hnames, hword] using fun w hw => (FilterBinding.isWord_of_mem_words hw).1
    · simp [words, readWords, readIp]
  | tcpMssLimit limit =>
    have hword : IsWord limit.word := by
      cases limit with
      | auto => decide
      | value bytes => exact isWord_numeral bytes
    refine readBack_of_isWord (by simp) (by simp [words, hnames, hword]) ?_
    simp [words, readWords, readIp, Except.map]
  | switch on number =>
    cases on with
    | false =>
      refine readBack_of_isWord (by simp) (by simp [words, hnames, isWord_numeral]) ?_
      simp [words, readWords, readTunnel, Except.map]
    | true =>
      refine readBack_of_isWord (by simp) (by simp [words, hnames, isWord_numeral]) ?_
      simp [words, readWords, readTunnel, Except.map]

end TunnelSetting

end RouterConfig
