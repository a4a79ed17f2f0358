import RouterConfig.Dns
import RouterConfig.Filter.Dynamic
import RouterConfig.Filter.Interface
import RouterConfig.Filter.Static
import RouterConfig.Proofs.Address.Words
import RouterConfig.Proofs.Commands.Rules
import RouterConfig.Proofs.Filter.Binding
import RouterConfig.Proofs.Text.Phrases
import RouterConfig.Proofs.Wrap.Phrases
import RouterConfig.Route

/-!
# Features whose values are words

Five features check every value that they write: static and dynamic filters,
filters on interfaces, static routes, and choices of name servers.  Each word of
their commands is a word, so a record of theirs that breaks no rule is always seen
one for one.
-/

namespace RouterConfig

open Text Rtx

theorem isWord_of_mem_map_numeral {numbers : List UInt32} {w : String}
    (h : w ∈ numbers.map numeral) : IsWord w := by
  obtain ⟨n, -, rfl⟩ := List.mem_map.mp h
  exact isWord_numeral n

/-! ## Static filters -/

namespace IpFilter

/-- Every word of the command is a word. -/
theorem isWord_of_mem_words {f : IpFilter} (h : validate f = none) :
    ∀ w ∈ [f.family.word, "filter", numeral f.number] ++ f.bodyWords, IsWord w := by
  have hrules := firstBroken_eq_none_iff.mp h
  simp only [rules, List.forall_mem_append, List.forall_mem_cons, Rule.forall_mem_ifPresent,
    Rule.oneWord_eq_none_iff_isWord] at hrules
  obtain ⟨⟨⟨⟨-, hsource, hdestination, hprotocol, -⟩, hsourcePort⟩, hdestinationPort⟩, -⟩ := hrules
  have hfamily : IsWord f.family.word := by
    cases f.family <;> decide
  have haction : IsWord f.action.word := by
    cases f.action <;> decide
  have hports : ∀ w ∈ f.portWords, IsWord w := by
    rw [portWords]
    cases hs : f.sourcePort with
    | none =>
      cases hd : f.destinationPort with
      | none => simp
      | some destination =>
        have hword := (hdestinationPort destination hd).1
        simpa [hword] using (by decide : IsWord "*")
    | some source =>
      have hword := (hsourcePort source hs).1
      cases hd : f.destinationPort with
      | none => simpa using hword
      | some destination => simpa [hword] using (hdestinationPort destination hd).1
  have hestablished : ∀ w ∈ (if f.established then ["established"] else []), IsWord w := by
    split
    · decide
    · simp
  have hfilter : IsWord "filter" := by decide
  simp only [bodyWords, List.forall_mem_append, List.forall_mem_cons, List.not_mem_nil,
    false_implies, implies_true, and_true]
  exact ⟨⟨hfamily, hfilter, isWord_numeral _⟩,
    ⟨⟨haction, hsource, hdestination, hprotocol⟩, hports⟩, hestablished⟩

theorem encode_seenOneForOne {f : IpFilter} (h : validate f = none) :
    ∃ commands, encode f .set = .ok commands ∧ SeenOneForOne commands := by
  refine ⟨_, provided_of_none h _, seenOneForOne_phrase ?_ (isWord_of_mem_words h)⟩
  refine startsWords_cons ?_
  cases f.family <;> decide

end IpFilter

/-! ## Dynamic filters -/

theorem isBlank_eq_false_of_isAlphanum {c : Char} (h : c.isAlphanum = true) :
    isBlank c = false := by
  have hclass : (decide (c.val ≥ 'A'.val ∧ c.val ≤ 'Z'.val) ||
      (decide (c.val ≥ 'a'.val) && decide (c.val ≤ 'z'.val)) ||
      (decide (c.val ≥ '0'.val) && decide (c.val ≤ '9'.val))) = true := h
  simp only [Bool.or_eq_true, Bool.and_eq_true, decide_eq_true_eq, UInt32.le_iff_toNat_le,
    ge_iff_le] at hclass
  rcases hclass with (h | h) | h
  · have hlow : 65 ≤ c.toNat := h.1
    have hhigh : c.toNat ≤ 90 := h.2
    exact isBlank_eq_false_of_le (by omega) (by omega)
  · have hlow : 97 ≤ c.toNat := h.1
    have hhigh : c.toNat ≤ 122 := h.2
    exact isBlank_eq_false_of_le (by omega) (by omega)
  · have hlow : 48 ≤ c.toNat := h.1
    have hhigh : c.toNat ≤ 57 := h.2
    exact isBlank_eq_false_of_le (by omega) (by omega)

namespace DynamicFilter

theorem isWord_of_isProtocolName {name : String} (h : isProtocolName name = true) :
    IsWord name := by
  simp only [isProtocolName, Bool.or_eq_true, Bool.and_eq_true, beq_iff_eq] at h
  rcases h with rfl | ⟨⟨-, hhead⟩, hall⟩
  · decide
  · rw [isWord_iff]
    refine ⟨fun hnil => ?_, fun c hc => ?_⟩
    · rw [hnil] at hhead
      exact absurd hhead (by simp)
    · have hchar := List.all_eq_true.mp hall c hc
      simp only [Bool.or_eq_true, beq_iff_eq] at hchar
      rcases hchar with (hchar | rfl) | rfl
      · exact isBlank_eq_false_of_isAlphanum hchar
      · decide
      · decide

/-- Every word of a rule is a word. -/
theorem isWord_of_mem_ruleWords {rule : DynamicRule}
    (h : ∀ broken ∈ ruleRules rule, broken = none) : ∀ w ∈ rule.words, IsWord w := by
  cases rule with
  | protocol name =>
    have hname := h _ (List.mem_cons_self ..)
    rw [Rule.demand_eq_none_iff] at hname
    simpa [DynamicRule.words] using isWord_of_isProtocolName hname
  | filters watched inbound outbound =>
    have hfilter : IsWord "filter" := by decide
    have hin : IsWord "in" := by decide
    have hout : IsWord "out" := by decide
    have hnumbers : ∀ numbers : List UInt32, ∀ w ∈ numbers.map numeral, IsWord w :=
      fun _ _ => isWord_of_mem_map_numeral
    unfold DynamicRule.words
    simp only [List.cons_append, List.forall_mem_append, List.forall_mem_cons]
    refine ⟨hfilter, ⟨hnumbers watched, ?_⟩, ?_⟩
    · cases inbound with
      | none => simp
      | some numbers => exact List.forall_mem_cons.mpr ⟨hin, hnumbers numbers⟩
    · cases outbound with
      | none => simp
      | some numbers => exact List.forall_mem_cons.mpr ⟨hout, hnumbers numbers⟩

theorem isWord_of_mem_words {f : DynamicFilter} (h : validate f = none) :
    ∀ w ∈ f.leadWords ++ f.bodyWords, IsWord w := by
  have hrules := firstBroken_eq_none_iff.mp h
  simp only [rules, List.forall_mem_append, List.forall_mem_cons,
    Rule.oneWord_eq_none_iff_isWord] at hrules
  obtain ⟨⟨⟨-, hsource, hdestination, -⟩, hrule⟩, -⟩ := hrules
  have hfamily : IsWord f.family.word := by
    cases f.family <;> decide
  have hoptions : ∀ w ∈ f.optionWords, IsWord w := by
    have hsyslog : IsWord "syslog" := by decide
    have htimeout : IsWord "timeout=" := by decide
    rw [optionWords]
    refine List.forall_mem_append.mpr ⟨?_, ?_⟩
    · cases f.syslog with
      | none => simp
      | some value => simpa [hsyslog] using isWord_onOff value
    · cases f.timeout with
      | none => simp
      | some seconds => simpa using htimeout.append (isWord_numeral seconds).2
  have hfilter : IsWord "filter" := by decide
  have hdynamic : IsWord "dynamic" := by decide
  simp only [leadWords, bodyWords, List.forall_mem_append, List.forall_mem_cons, List.not_mem_nil,
    false_implies, implies_true, and_true]
  exact ⟨⟨hfamily, hfilter, hdynamic, isWord_numeral _⟩,
    ⟨⟨hsource, hdestination⟩, isWord_of_mem_ruleWords hrule⟩, hoptions⟩

theorem encode_seenOneForOne {f : DynamicFilter} (h : validate f = none) :
    ∃ commands, encode f .set = .ok commands ∧ SeenOneForOne commands := by
  refine ⟨_, provided_of_none h _, seenOneForOne_phrase ?_ (isWord_of_mem_words h)⟩
  refine startsWords_cons ?_
  cases f.family <;> decide

end DynamicFilter

/-! ## Filters on interfaces -/

namespace FilterBinding

theorem isWord_of_mem_words {b : FilterBinding} {w : String} (h : w ∈ b.words) :
    IsWord w ∧ marker ∉ w.toList := by
  rcases eq_of_mem_words h with rfl | ⟨n, rfl⟩
  · decide
  · exact ⟨isWord_numeral n, marker_not_mem_numeral n⟩

end FilterBinding

/-- A direction and the filters behind it end a command. -/
theorem lineOf_binding (d : Direction) (b : FilterBinding) :
    LineOf EndsCommand (d.word :: b.words) := by
  have hwords : ∀ w ∈ d.word :: b.words, IsWord w ∧ marker ∉ w.toList := by
    refine List.forall_mem_cons.mpr ⟨?_, fun w hw => FilterBinding.isWord_of_mem_words hw⟩
    cases d <;> decide
  exact lineOf_of_isWord (List.cons_ne_nil _ _) (fun w hw => (hwords w hw).1)
    fun w hw => endsCommand_of_isWord (hwords w hw).1 (hwords w hw).2

namespace InterfaceFilters

theorem isWord_of_mem_leadWords {r : InterfaceFilters} (h : validate r = none) :
    ∀ w ∈ leadWords r.key, IsWord w := by
  have hrules := firstBroken_eq_none_iff.mp h
  simp only [rules, List.forall_mem_append, List.forall_mem_cons,
    Rule.oneWord_eq_none_iff_isWord] at hrules
  have hinterface := hrules.1.1
  rw [key]
  cases r.family with
  | ip => simpa [leadWords, hinterface] using by decide
  | ipv6 => simpa [leadWords, hinterface] using by decide
  | ethernet => simpa [leadWords, hinterface] using by decide

/-- The words of the command for one binding. -/
theorem startsWords_of_binding (r : InterfaceFilters) (ws : List String) :
    StartsWords (leadWords r.key ++ ws) := by
  rw [key]
  cases r.family with
  | ip => exact startsWords_cons (by decide)
  | ipv6 => exact startsWords_cons (by decide)
  | ethernet => exact startsWords_cons (by decide)

/-- The words for one binding make a command. -/
theorem lineOf_words {r : InterfaceFilters} (h : validate r = none) (d : Direction)
    (b : FilterBinding) : LineOf EndsCommand (leadWords r.key ++ d.word :: b.words) := by
  refine (lineOf_append (List.cons_ne_nil _ _)).mpr ⟨?_, lineOf_binding d b⟩
  exact fun w hw => (isWord_of_mem_leadWords h w hw).breakFree

theorem encode_seenOneForOne {r : InterfaceFilters} (h : validate r = none) :
    ∃ commands, encode r .set = .ok commands ∧ SeenOneForOne commands := by
  refine ⟨_, provided_of_none h _, ?_⟩
  refine seenOneForOne_of_endsCommand fun c hc => ?_
  obtain ⟨b, -, rfl⟩ := List.mem_map.mp hc
  exact ⟨_, rfl, startsWords_of_binding r _, lineOf_words h b.1 b.2⟩

end InterfaceFilters

/-! ## Static routes -/

namespace StaticRoute

theorem isWord_of_mem_gatewayWords {gateway : Gateway}
    (h : ∀ rule ∈ gatewayRules gateway, rule = none) : ∀ w ∈ gateway.words, IsWord w := by
  have hnames : ∀ w ∈ ["pp", "tunnel", "dhcp", "null", "loopback"], IsWord w := by decide
  cases gateway with
  | address a => simpa [Gateway.words] using a.isWord_render
  | pp n => simpa [Gateway.words, isWord_numeral] using hnames "pp" (by simp)
  | tunnel n => simpa [Gateway.words, isWord_numeral] using hnames "tunnel" (by simp)
  | dhcp name =>
    have hname : IsWord name := Rule.oneWord_eq_none_iff.mp (h _ (List.mem_cons_self ..))
    simpa [Gateway.words, hname] using hnames "dhcp" (by simp)
  | null => simpa [Gateway.words] using hnames "null" (by simp)
  | loopback => simpa [Gateway.words] using hnames "loopback" (by simp)
  | interface name =>
    have hname : IsWord name := Rule.oneWord_eq_none_iff.mp (h _ (List.mem_cons_self ..))
    simpa [Gateway.words] using hname

theorem isWord_of_mem_hopWords {hop : NextHop} (h : ∀ rule ∈ hopRules hop, rule = none) :
    ∀ w ∈ hop.words, IsWord w := by
  have hnames : ∀ w ∈ ["gateway", "weight", "filter", "keepalive", "hide"], IsWord w := by decide
  have hgateway : ∀ w ∈ hop.gateway.words, IsWord w := by
    refine isWord_of_mem_gatewayWords fun rule hrule => h rule ?_
    rw [hopRules]
    simp [hrule]
  unfold NextHop.words
  simp only [List.cons_append, List.forall_mem_append, List.forall_mem_cons]
  refine ⟨hnames _ (by simp), ⟨⟨⟨hgateway, ?_⟩, ?_⟩, ?_⟩, ?_⟩
  · cases hop.weight with
    | none => simp
    | some weight => simpa [isWord_numeral] using hnames "weight" (by simp)
  · split
    · simp
    · exact List.forall_mem_cons.mpr ⟨hnames _ (by simp), fun _ => isWord_of_mem_map_numeral⟩
  · cases hop.keepalive with
    | none => simp
    | some number => simpa [isWord_numeral] using hnames "keepalive" (by simp)
  · split
    · simpa using hnames "hide" (by simp)
    · simp

theorem isWord_of_mem_words {r : StaticRoute} (h : validate r = none) :
    ∀ w ∈ r.leadWords ++ r.nextHops.flatMap NextHop.words, IsWord w := by
  have hrules := firstBroken_eq_none_iff.mp h
  rw [rules, List.forall_mem_cons] at hrules
  have hip : IsWord "ip" := by decide
  have hroute : IsWord "route" := by decide
  have hhops : ∀ w ∈ r.nextHops.flatMap NextHop.words, IsWord w := by
    intro w hw
    obtain ⟨hop, hhop, hw⟩ := List.mem_flatMap.mp hw
    refine isWord_of_mem_hopWords (fun rule hrule => ?_) w hw
    exact hrules.2 rule (List.mem_flatMap.mpr ⟨hop, hhop, hrule⟩)
  rw [leadWords]
  simp only [List.forall_mem_append, List.forall_mem_cons, List.not_mem_nil, false_implies,
    implies_true, and_true]
  exact ⟨⟨hip, hroute, r.network.isWord_render⟩, hhops⟩

theorem encode_seenOneForOne {r : StaticRoute} (h : validate r = none) :
    ∃ commands, encode r .set = .ok commands ∧ SeenOneForOne commands :=
  ⟨_, provided_of_none h _,
    seenOneForOne_phrase (startsWords_cons (by decide)) (isWord_of_mem_words h)⟩

end StaticRoute

/-! ## Choices of name servers -/

namespace DnsServerSelect

/-- What is read as a number is made of digits, perhaps with a plus sign in front. -/
theorem isBlank_eq_false_of_readOctet? {s : String} (h : (readOctet? s).isSome = true) :
    ∀ c ∈ s.toList, isBlank c = false := by
  rw [readOctet?, Option.isSome_map] at h
  obtain ⟨n, hn⟩ := Option.isSome_iff_exists.mp h
  exact fun c hc => (readBelow?_eq_some_iff.mp hn).isBlank_eq_false_of_mem hc

/-- A name for clients is a word. -/
theorem isWord_of_isSender {word : String} (h : isSender word = true) : IsWord word := by
  rw [isSender] at h
  split at h
  · next address length hslash =>
    rw [Bool.and_eq_true] at h
    exact isWord_of_splitOnce? hslash (by decide) (isWord_iff.mp (isWord_of_isAddress h.1)).2
      (isBlank_eq_false_of_readOctet? h.2)
  · split at h
    · next first last hdash =>
      rw [Bool.and_eq_true] at h
      exact isWord_of_splitOnce? hdash (by decide) (isWord_iff.mp (isWord_of_isAddress h.1)).2
        (isWord_iff.mp (isWord_of_isAddress h.2)).2
    · exact isWord_of_isAddress h

theorem isWord_of_mem_words {s : DnsServerSelect} (h : validate s = none) :
    ∀ w ∈ s.leadWords ++ s.bodyWords, IsWord w := by
  have hrules := firstBroken_eq_none_iff.mp h
  simp only [rules, List.forall_mem_append, List.forall_mem_cons, List.forall_mem_map,
    Rule.forall_mem_ifPresent, Rule.oneWord_eq_none_iff_isWord, Rule.demand_eq_none_iff] at hrules
  obtain ⟨⟨⟨⟨⟨-, haddress⟩, htype⟩, hpattern, -⟩, hsender⟩, -⟩ := hrules
  have hnames : ∀ w ∈ ["dns", "server", "select", "restrict", "pp"], IsWord w := by decide
  have hrecordTypes : ∀ type ∈ recordTypes, IsWord type := by decide
  have hservers : ∀ w ∈ s.servers.flatMap serverWords, IsWord w := by
    intro w hw
    obtain ⟨server, hserver, hw⟩ := List.mem_flatMap.mp hw
    unfold serverWords at hw
    rcases List.mem_cons.mp hw with rfl | hw
    · exact isWord_of_isAddress (haddress server hserver)
    · cases hedns : server.edns with
      | none => rw [hedns] at hw; exact absurd hw (by simp)
      | some value =>
        rw [hedns] at hw
        rw [List.mem_singleton.mp hw]
        exact (by decide : IsWord "edns=").append (isWord_onOff value).2
  have hrecordType : ∀ w ∈ s.recordType.toList, IsWord w := by
    intro w hw
    have hmem := (htype w (Option.mem_toList.mp hw)).1
    exact hrecordTypes w (List.contains_iff_mem.mp hmem)
  have horiginal : ∀ w ∈ s.originalSender.toList, IsWord w := by
    intro w hw
    exact isWord_of_isSender (hsender w (Option.mem_toList.mp hw)).1
  unfold leadWords bodyWords
  simp only [List.forall_mem_append, List.forall_mem_cons, List.not_mem_nil, false_implies,
    implies_true, and_true]
  refine ⟨⟨hnames _ (by simp), hnames _ (by simp), hnames _ (by simp), isWord_numeral _⟩,
    ⟨⟨⟨hservers, hrecordType⟩, hpattern⟩, horiginal⟩, ?_⟩
  cases s.restrictPp with
  | none => simp
  | some number => simpa [isWord_numeral] using ⟨hnames "restrict" (by simp), hnames "pp" (by simp)⟩

theorem encode_seenOneForOne {s : DnsServerSelect} (h : validate s = none) :
    ∃ commands, encode s .set = .ok commands ∧ SeenOneForOne commands := by
  refine ⟨_, provided_of_none h _, seenOneForOne_phrase ?_ (isWord_of_mem_words h)⟩
  exact startsWords_cons (by decide)

end DnsServerSelect

end RouterConfig
