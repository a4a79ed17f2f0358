import RouterConfig.Proofs.Commands.Filters
import RouterConfig.Proofs.Stanza.TopLevel

/-!
# Static routes come back

The words of a route are one row, and each gateway takes its own from the front.  What a
gateway takes is settled by its first word, so its argument may be any word, also one that
starts a parameter or the next gateway.  After that every parameter is told by its keyword,
and the filters end where no number follows.

An interface has no keyword of its own, so its name must not be read as something else
(`IsInterface`).  That is the one condition under which a route comes back, and every route
that was read satisfies it.
-/

namespace RouterConfig

open Text Rtx

/-- The words with which the other gateways start. -/
def gatewayKeywords : List String := ["pp", "tunnel", "dhcp", "null", "loopback"]

/-- The name is read as an interface. -/
structure IsInterface (name : String) : Prop where
  letter : ∃ c ∈ name.toList.head?, c.isAlpha = true
  plain : ∀ c ∈ name.toList, c.isAlphanum = true ∨ c = '.'
  free : name ∉ gatewayKeywords

/-- If the gateway is an interface, its name is read as one. -/
def Gateway.Readable (gateway : Gateway) : Prop :=
  ∀ name, gateway = .interface name → IsInterface name

namespace StaticRoute

/-! ## Gateways -/

theorem isInterfaceName_iff {name : String} :
    isInterfaceName name = true ↔
      (∃ c ∈ name.toList.head?, c.isAlpha = true) ∧
        ∀ c ∈ name.toList, c.isAlphanum = true ∨ c = '.' := by
  simp [isInterfaceName, Option.any_eq_true]

/-- A letter is neither a digit nor a point. -/
theorem isDigit_eq_false_of_isAlpha {c : Char} (h : c.isAlpha = true) :
    isDigit c = false ∧ c ≠ '.' := by
  have hclass : (decide (c.val ≥ 'A'.val ∧ c.val ≤ 'Z'.val) ||
      (decide (c.val ≥ 'a'.val) && decide (c.val ≤ 'z'.val))) = true := h
  have hletter : 65 ≤ c.toNat := by
    simp only [Bool.or_eq_true, Bool.and_eq_true, decide_eq_true_eq, UInt32.le_iff_toNat_le,
      ge_iff_le] at hclass
    rcases hclass with hupper | hlower
    · exact hupper.1
    · exact Nat.le_trans (by decide) hlower.1
  constructor
  · rw [← Bool.not_eq_true, isDigit_iff]
    omega
  · rintro rfl
    exact absurd hletter (by decide)

/-- No name of an interface is an address. -/
theorem read?_eq_none_of_letter {name : String} (h : ∃ c ∈ name.toList.head?, c.isAlpha = true) :
    Ipv4.read? name = none := by
  cases hread : Ipv4.read? name with
  | none => rfl
  | some a =>
    obtain ⟨c, hc, halpha⟩ := h
    obtain ⟨hdigit, hpoint⟩ := isDigit_eq_false_of_isAlpha halpha
    rcases Ipv4.of_mem_of_readChars? hread c (List.mem_of_mem_head? hc) with hc | hc
    · rw [hdigit] at hc
      cases hc
    · exact absurd hc hpoint

/-- What is no keyword is a gateway of one word. -/
theorem readGateway_of_not_mem {word : String} (h : word ∉ gatewayKeywords) (rest : List String) :
    readGateway (word :: rest) = (readSimpleGateway word).map fun gateway => (gateway, 1) := by
  simp only [gatewayKeywords, List.mem_cons, List.not_mem_nil, or_false, not_or] at h
  unfold readGateway
  split <;> simp_all

theorem readSimpleGateway_address (a : Ipv4) :
    readSimpleGateway a.render = .ok (.address a) := by
  rw [readSimpleGateway, Ipv4.read?_render]

theorem readSimpleGateway_interface {name : String} (h : IsInterface name) :
    readSimpleGateway name = .ok (.interface name) := by
  rw [readSimpleGateway, read?_eq_none_of_letter h.letter]
  exact if_pos (isInterfaceName_iff.mpr ⟨h.letter, h.plain⟩)

/-- Every keyword has a letter, and no address has. -/
theorem render_not_mem_gatewayKeywords (a : Ipv4) : a.render ∉ gatewayKeywords := by
  have hletter : gatewayKeywords.all (fun w => w.toList.any Char.isAlpha) = true := by decide
  intro hmem
  obtain ⟨c, hc, halpha⟩ := List.any_eq_true.mp (List.all_eq_true.mp hletter _ hmem)
  obtain ⟨hdigit, hpoint⟩ := isDigit_eq_false_of_isAlpha halpha
  exact a.not_mem_render hdigit hpoint hc

/-- **A gateway takes its own words**, whatever follows. -/
theorem readGateway_words {gateway : Gateway} (h : gateway.Readable) (rest : List String) :
    readGateway (gateway.words ++ rest) = .ok (gateway, gateway.words.length) := by
  cases gateway with
  | address a =>
    have hsimple := readGateway_of_not_mem (render_not_mem_gatewayKeywords a) rest
    rwa [readSimpleGateway_address] at hsimple
  | pp n => simp [Gateway.words, readGateway, readArgument, Except.map]
  | tunnel n => simp [Gateway.words, readGateway, readArgument, Except.map]
  | dhcp name => rfl
  | null => rfl
  | loopback => rfl
  | interface name =>
    have hname := h name rfl
    have hsimple := readGateway_of_not_mem hname.free rest
    rwa [readSimpleGateway_interface hname] at hsimple

theorem of_readArgument {keyword : String} {read : String → Except LineFault Gateway}
    {words : List String} {gateway : Gateway} {used : Nat}
    (h : readArgument keyword read words = .ok (gateway, used)) :
    ∃ word, read word = .ok gateway := by
  cases words with
  | nil => cases h
  | cons word rest =>
    obtain ⟨found, hread, hpair⟩ := map_eq_ok_iff.mp h
    cases hpair
    exact ⟨word, hread⟩

/-- **A gateway that was read** is read again. -/
theorem readable_of_readGateway {words : List String} {gateway : Gateway} {used : Nat}
    (h : readGateway words = .ok (gateway, used)) : gateway.Readable := by
  rintro name rfl
  unfold readGateway at h
  split at h
  · cases h
  · next word rest =>
    split at h
    · obtain ⟨word, hread⟩ := of_readArgument h
      obtain ⟨n, -, hn⟩ := map_eq_ok_iff.mp hread
      cases hn
    · obtain ⟨word, hread⟩ := of_readArgument h
      obtain ⟨n, -, hn⟩ := map_eq_ok_iff.mp hread
      cases hn
    · obtain ⟨word, hread⟩ := of_readArgument h
      cases hread
    · cases h
    · cases h
    · next hpp htunnel hdhcp hnull hloopback =>
      obtain ⟨found, hread, hpair⟩ := map_eq_ok_iff.mp h
      cases hpair
      rw [readSimpleGateway] at hread
      split at hread
      · cases hread
      · split at hread
        · next hname =>
          cases hread
          obtain ⟨hletter, hplain⟩ := isInterfaceName_iff.mp hname
          refine ⟨hletter, hplain, ?_⟩
          simpa [gatewayKeywords] using ⟨hpp, htunnel, hdhcp, hnull, hloopback⟩
        · cases hread

/-- **The names that are read as interfaces.** -/
theorem readGateway_eq_interface_iff {name : String} {rest : List String} :
    readGateway (name :: rest) = .ok (.interface name, 1) ↔ IsInterface name := by
  constructor
  · intro h
    exact readable_of_readGateway h name rfl
  · intro h
    have hreadable : (Gateway.interface name).Readable := by
      rintro _ ⟨⟩
      exact h
    exact readGateway_words hreadable rest

/-! ## Parameters -/

/-- The words for a parameter that is a number. -/
def numberParameter (keyword : String) (value : Option UInt32) : List String :=
  match value with
  | some n => [keyword, numeral n]
  | none => []

/-- The words for the filters. -/
def filterParameter (filters : List UInt32) : List String :=
  if filters.isEmpty then [] else "filter" :: filters.map numeral

/-- The words behind the gateway. -/
def parameterWords (hop : NextHop) : List String :=
  numberParameter "weight" hop.weight ++ (filterParameter hop.filters ++
    (numberParameter "keepalive" hop.keepalive ++ if hop.hide then ["hide"] else []))

theorem words_eq (hop : NextHop) :
    hop.words = "gateway" :: (hop.gateway.words ++ parameterWords hop) := by
  show "gateway" :: hop.gateway.words ++ numberParameter "weight" hop.weight ++
    filterParameter hop.filters ++ numberParameter "keepalive" hop.keepalive ++
    (if hop.hide then ["hide"] else []) = _
  simp only [parameterWords, List.append_assoc, List.cons_append]

section Parameters

variable {hop : NextHop} (rest : List String)

theorem readHops_weight (value : Option UInt32) (h : hop.weight = none) :
    readHops hop (numberParameter "weight" value ++ rest) =
      readHops { hop with weight := value } rest := by
  cases value with
  | none =>
    cases hop
    cases h
    rfl
  | some n =>
    show readHops hop ("weight" :: numeral n :: rest) = _
    rw [readHops]
    simp [readValue]

theorem readHops_keepalive (value : Option UInt32) (h : hop.keepalive = none) :
    readHops hop (numberParameter "keepalive" value ++ rest) =
      readHops { hop with keepalive := value } rest := by
  cases value with
  | none =>
    cases hop
    cases h
    rfl
  | some n =>
    show readHops hop ("keepalive" :: numeral n :: rest) = _
    rw [readHops]
    simp [readValue]

theorem readHops_hide (value : Bool) (h : hop.hide = false) :
    readHops hop ((if value then ["hide"] else []) ++ rest) =
      readHops { hop with hide := value } rest := by
  cases value with
  | false =>
    cases hop
    cases h
    rfl
  | true =>
    show readHops hop ("hide" :: rest) = _
    rw [readHops]

/-- No number follows. -/
def NoNumber (words : List String) : Prop :=
  ∀ w ∈ words.head?, w.toList.head?.any isDigit = false

theorem numberWords_of_noNumber {rest : List String} (h : NoNumber rest) :
    numberWords rest = [] := by
  cases rest with
  | nil => rfl
  | cons w rest =>
    rw [numberWords, List.takeWhile_cons_of_neg]
    rw [h w rfl]
    decide

/-- The numbers of the filters end where no number follows. -/
theorem numberWords_numerals {rest : List String} (numbers : List UInt32) (hrest : NoNumber rest) :
    numberWords (numbers.map numeral ++ rest) = numbers.map numeral := by
  have hdigit : ∀ w ∈ numbers.map numeral, w.toList.head?.any isDigit = true := by
    intro w hw
    obtain ⟨n, -, rfl⟩ := List.mem_map.mp hw
    obtain ⟨c, hc, hdigit⟩ := head?_numeral n
    rwa [hc, Option.any_some]
  have hend := numberWords_of_noNumber hrest
  rw [numberWords] at hend
  rw [numberWords, List.takeWhile_append_of_pos hdigit, hend, List.append_nil]

theorem mapM_readNumber_numerals (what : String) (numbers : List UInt32) :
    (numbers.map numeral).mapM (readNumber what) = .ok numbers := by
  induction numbers with
  | nil => rfl
  | cons n numbers ih => exact mapM_cons_of_ok (readNumber_numeral what n) ih

theorem readHops_filters {rest : List String} (filters : List UInt32) (h : hop.filters = [])
    (hrest : NoNumber rest) :
    readHops hop (filterParameter filters ++ rest) = readHops { hop with filters } rest := by
  cases filters with
  | nil =>
    cases hop
    cases h
    rfl
  | cons n filters =>
    show readHops hop ("filter" :: ((n :: filters).map numeral ++ rest)) = _
    rw [readHops, numberWords_numerals _ hrest, mapM_readNumber_numerals, ok_bind, h,
      List.nil_append, List.drop_left]
    rfl

theorem NoNumber.append {words rest : List String} (hwords : NoNumber words)
    (hrest : NoNumber rest) : NoNumber (words ++ rest) := by
  cases words with
  | nil => exact hrest
  | cons w words => exact hwords

/-- **The parameters of a gateway are read into it.** -/
theorem readHops_parameterWords {rest : List String} (hop : NextHop) (hrest : NoNumber rest) :
    readHops { gateway := hop.gateway } (parameterWords hop ++ rest) = readHops hop rest := by
  have hkeepalive : NoNumber (numberParameter "keepalive" hop.keepalive) := by
    cases hop.keepalive with
    | none => rintro w ⟨⟩
    | some n => rintro w ⟨⟩; decide
  have hhide : NoNumber (if hop.hide then ["hide"] else []) := by
    split
    · rintro w ⟨⟩; decide
    · rintro w ⟨⟩
  rw [parameterWords, List.append_assoc, List.append_assoc, List.append_assoc,
    readHops_weight _ _ rfl, readHops_filters _ rfl (hkeepalive.append (hhide.append hrest)),
    readHops_keepalive _ _ rfl, readHops_hide _ _ rfl]

end Parameters

/-! ## Gateways one after the other -/

theorem noNumber_words (hops : List NextHop) : NoNumber (hops.flatMap NextHop.words) := by
  cases hops with
  | nil => rintro w ⟨⟩
  | cons hop hops =>
    rw [List.flatMap_cons, words_eq, List.cons_append]
    rintro w ⟨⟩
    decide

/-- **Gateways are read back one after the other.** -/
theorem readHops_words {hop : NextHop} {hops : List NextHop}
    (h : ∀ next ∈ hops, next.gateway.Readable) :
    readHops hop (hops.flatMap NextHop.words) = .ok (hop :: hops) := by
  induction hops generalizing hop with
  | nil => rw [List.flatMap_nil, readHops]
  | cons next hops ih =>
    obtain ⟨hnext, hothers⟩ := List.forall_mem_cons.mp h
    rw [List.flatMap_cons, words_eq, List.cons_append, List.append_assoc, readHops,
      readGateway_words hnext, ok_bind]
    simp only [List.drop_left]
    rw [readHops_parameterWords next (noNumber_words hops), ih hothers]
    rfl

theorem readClauses_words {hops : List NextHop} (hne : hops ≠ [])
    (h : ∀ hop ∈ hops, hop.gateway.Readable) :
    readClauses (hops.flatMap NextHop.words) = .ok hops := by
  obtain ⟨first, hops, rfl⟩ := List.exists_cons_of_ne_nil hne
  obtain ⟨hfirst, hothers⟩ := List.forall_mem_cons.mp h
  rw [List.flatMap_cons, words_eq, List.cons_append, List.append_assoc, readClauses, if_pos rfl,
    readGateway_words hfirst, ok_bind]
  simp only [List.drop_left]
  rw [readHops_parameterWords first (noNumber_words hops), readHops_words hothers]

/-- **Gateways that were read** are read again. -/
theorem readable_of_readHops {hop : NextHop} {words : List String} {hops : List NextHop}
    (hreadable : hop.gateway.Readable) (h : readHops hop words = .ok hops) :
    ∀ next ∈ hops, next.gateway.Readable := by
  fun_induction readHops hop words generalizing hops with
  | case1 hop =>
    cases h
    exact List.forall_mem_singleton.mpr hreadable
  | case2 hop rest ih =>
    obtain ⟨⟨gateway, used⟩, hgateway, h⟩ := bind_eq_ok_iff.mp h
    obtain ⟨others, hothers, h⟩ := bind_eq_ok_iff.mp h
    cases h
    have hnext := readable_of_readGateway hgateway
    exact List.forall_mem_cons.mpr ⟨hreadable, ih gateway used hnext hothers⟩
  | case3 hop rest ih =>
    obtain ⟨weight, -, h⟩ := bind_eq_ok_iff.mp h
    exact ih weight hreadable h
  | case4 hop rest ih =>
    obtain ⟨number, -, h⟩ := bind_eq_ok_iff.mp h
    exact ih number hreadable h
  | case5 hop rest ih => exact ih hreadable h
  | case6 hop rest ih =>
    obtain ⟨numbers, -, h⟩ := bind_eq_ok_iff.mp h
    simp only at h
    split at h
    · cases h
    · exact ih numbers hreadable h
  | case7 => cases h

theorem readable_of_readClauses {words : List String} {hops : List NextHop}
    (h : readClauses words = .ok hops) : ∀ hop ∈ hops, hop.gateway.Readable := by
  cases words with
  | nil => cases h
  | cons word rest =>
    rw [readClauses] at h
    split at h
    · obtain ⟨⟨gateway, used⟩, hgateway, h⟩ := bind_eq_ok_iff.mp h
      exact readable_of_readHops (readable_of_readGateway hgateway) h
    · cases h

/-! ## Reading a line -/

/-- The line of a route is read as its network and its gateways. -/
theorem readings_phrase {r : StaticRoute} (hvalid : validate r = none)
    (hlength : r.network.length ≤ 32) (h : ∀ hop ∈ r.nextHops, hop.gateway.Readable) {line : Line}
    (htext : line.text = phrase (r.leadWords ++ r.nextHops.flatMap NextHop.words)) :
    readings [line] = [⟨line, .ok (r.network, .ok r.nextHops)⟩] := by
  have hrules := firstBroken_eq_none_iff.mp hvalid
  rw [rules, List.forall_mem_cons, Rule.demand_eq_none_iff] at hrules
  have hne : r.nextHops ≠ [] := by simpa using hrules.1
  have hwords : ∀ w ∈ r.network.render :: r.nextHops.flatMap NextHop.words, IsWord w := by
    refine fun w hw => isWord_of_mem_words hvalid w ?_
    exact List.mem_append_right ["ip", "route"] hw
  have hrest : afterLead? "ip route " line.text =
      some (phrase (r.network.render :: r.nextHops.flatMap NextHop.words)) := by
    rw [htext]
    exact @afterLead?_phrase _ ["ip", "route"] _ (by decide) (List.cons_ne_nil _ _) rfl
  rw [readings, List.filterMap_cons, hrest, Option.map_some, wordsOf_phrase hwords, readWords,
    Network.read_render hlength]
  simp only [readClauses_words hne h]
  rfl

/-- A line of which all was read, with no other line, gives its route. -/
theorem decodeLines_of_readings {r : StaticRoute} (hvalid : validate r = none) {line : Line}
    (h : readings [line] = [⟨line, .ok (r.network, .ok r.nextHops)⟩]) :
    decodeLines [line] = .single r := by
  have hhops : ([(line, r)].filter fun p => p.2.network = r.network).flatMap
      (fun p => p.2.nextHops) = r.nextHops := by
    simp
  have hchecked : Decoded.checked featureName validate line
      ⟨r.network, ([(line, r)].filter fun p => p.2.network = r.network).flatMap
        (fun p => p.2.nextHops)⟩ = .single r := by
    rw [hhops, Decoded.checked_of_none hvalid]
  rw [decodeLines, h]
  exact (Decoded.concat_singleton _).trans hchecked

/-- A valid route with readable gateways comes back. -/
theorem readsBack_of_readable {r : StaticRoute} (hvalid : validate r = none)
    (hlength : r.network.length ≤ 32) (h : ∀ hop ∈ r.nextHops, hop.gateway.Readable) :
    ReadsBack [r] (.single r) := by
  refine readsBack_of_line (fun _ => rfl) (provided_of_none hvalid _) (by decide) (by decide)
    (by decide) (isWord_of_mem_words hvalid) fun line htext => ?_
  exact decodeLines_of_readings hvalid (readings_phrase hvalid hlength h htext)

/-- A line that was read has a network and gateways that can be read again. -/
theorem of_mem_routes {lines : List Line} {p : Line × StaticRoute}
    (h : p ∈ (readings lines).filterMap Reading.route?) :
    p.2.network.length ≤ 32 ∧ ∀ hop ∈ p.2.nextHops, hop.gateway.Readable := by
  obtain ⟨r, hr, hroute⟩ := List.mem_filterMap.mp h
  obtain ⟨line, -, hline⟩ := List.mem_filterMap.mp hr
  obtain ⟨rest, -, rfl⟩ := Option.map_eq_some_iff.mp hline
  rw [Reading.route?] at hroute
  split at hroute
  · next network hops hread =>
    cases hroute
    simp only at hread
    cases hwords : wordsOf rest with
    | nil => rw [hwords] at hread; cases hread
    | cons word rest =>
      rw [hwords, readWords] at hread
      split at hread
      · cases hread
      · next found hnetwork =>
        obtain ⟨rfl, hhops⟩ := Prod.mk.inj (Except.ok.inj hread)
        exact ⟨Network.length_le_of_read hnetwork, readable_of_readClauses hhops⟩
  · cases hroute

/-- **A route that was read** breaks no rule, and all of it can be read again. -/
theorem of_mem_decodeLines {lines : List Line} {r : StaticRoute}
    (h : r ∈ (decodeLines lines).records) :
    validate r = none ∧ r.network.length ≤ 32 ∧ ∀ hop ∈ r.nextHops, hop.gateway.Readable := by
  rw [decodeLines, Decoded.records_append, List.mem_append, Decoded.mem_records_concat,
    Decoded.mem_records_concat] at h
  rcases h with ⟨_, hpart, hmem⟩ | ⟨_, hpart, hmem⟩
  · -- the first half rejects lines and gives no records
    obtain ⟨reading, -, rfl⟩ := List.mem_map.mp hpart
    split at hmem <;> cases hmem
  · obtain ⟨first, hfirst, rfl⟩ := List.mem_map.mp hpart
    obtain ⟨rfl, hvalid⟩ := Decoded.mem_records_checked.mp hmem
    refine ⟨hvalid, ?_, fun hop hhop => ?_⟩
    · have hroute := (firstOfEach_sublist _ _).subset (List.mem_filter.mp hfirst).1
      exact (of_mem_routes hroute).1
    · obtain ⟨p, hp, hhop⟩ := List.mem_flatMap.mp hhop
      exact (of_mem_routes (List.mem_filter.mp hp).1).2 hop hhop

/-! ## Routes that come back -/

/-- **Static routes come back exactly when their interfaces can be read.**  A name is read as
an interface when it consists of letters, digits and points, a letter standing first, and is
no keyword of another gateway.  The routes that were read from a text have such names only,
and a length of at most 32, so each of them comes back. -/
theorem routes_come_back :
    (∀ name rest, readGateway (name :: rest) = .ok (.interface name, 1) ↔ IsInterface name) ∧
      (∀ r : StaticRoute, validate r = none → r.network.length ≤ 32 →
        (ReadsBack [r] (.single r) ↔ ∀ hop ∈ r.nextHops, hop.gateway.Readable)) ∧
      ∀ raw, ∃ d : Decoded StaticRoute, Feature.decode (dialect.parse raw).stanza = .ok d ∧
        ∀ r ∈ d.records, r.network.length ≤ 32 ∧ (∀ hop ∈ r.nextHops, hop.gateway.Readable) ∧
          ReadsBack [r] (.single r) := by
  refine ⟨fun name rest => readGateway_eq_interface_iff,
    fun r hvalid hlength => ⟨fun hback => ?_, readsBack_of_readable hvalid hlength⟩, fun raw => ?_⟩
  · obtain ⟨lines, hmem⟩ := hback.exists_mem decodeLines fun _ => rfl
    exact (of_mem_decodeLines hmem).2.2
  · refine ⟨_, rfl, fun r hmem => ?_⟩
    obtain ⟨hvalid, hlength, hreadable⟩ := of_mem_decodeLines hmem
    exact ⟨hlength, hreadable, readsBack_of_readable hvalid hlength hreadable⟩

/-- Two gateways; an argument of the first is the word of a parameter. -/
def twoGateways : StaticRoute where
  network := ⟨⟨10, 0, 0, 0⟩, 8⟩
  nextHops := [{ gateway := .dhcp "weight", weight := some 2, filters := [10, 11] },
    { gateway := .interface "lan1.1", keepalive := some 1 }]

/-- The line of the route. -/
def twoGatewaysLine : String :=
  "ip route 10.0.0.0/8 gateway dhcp weight weight 2 filter 10 11 gateway lan1.1 keepalive 1"

/-- A route out of an interface with the name of a keyword. -/
def outOfNull : StaticRoute where
  network := Network.everywhere
  nextHops := [{ gateway := .interface "null" }]

/-- The route with two gateways comes back, also when it was read.  The interface with the
name of a keyword does not. -/
theorem routes_come_back_twoGateways :
    (validate twoGateways = none ∧ twoGateways.network.length ≤ 32 ∧
      ReadsBack [twoGateways] (.single twoGateways)) ∧
    (validate outOfNull = none ∧ outOfNull.network.length ≤ 32 ∧
      ¬ ReadsBack [outOfNull] (.single outOfNull)) ∧
    ∃ d : Decoded StaticRoute, Feature.decode (dialect.parse twoGatewaysLine).stanza = .ok d ∧
      twoGateways ∈ d.records ∧ ReadsBack [twoGateways] (.single twoGateways) := by
  have hvalid : validate twoGateways = none := by decide
  have hnull : validate outOfNull = none := by decide
  have hletters : isInterfaceName "lan1.1" = true := by decide
  obtain ⟨hletter, hplain⟩ := isInterfaceName_iff.mp hletters
  have hname : IsInterface "lan1.1" := ⟨hletter, hplain, by decide⟩
  have hreadable : ∀ hop ∈ twoGateways.nextHops, hop.gateway.Readable := by
    simp only [twoGateways, List.forall_mem_cons, List.not_mem_nil, false_implies,
      implies_true, and_true]
    constructor
    · rintro _ ⟨⟩
    · rintro _ ⟨⟩
      exact hname
  have hlost : ¬ ReadsBack [outOfNull] (.single outOfNull) := by
    intro hback
    have hgateways := (routes_come_back.2.1 outOfNull hnull (by decide)).mp hback
    exact (hgateways _ (List.mem_cons_self ..) "null" rfl).free (by decide)
  refine ⟨⟨hvalid, by decide, (routes_come_back.2.1 _ hvalid (by decide)).mpr hreadable⟩,
    ⟨hnull, by decide, hlost⟩, ?_⟩
  have hread : Feature.decode (dialect.parse twoGatewaysLine).stanza =
      .ok (⟨[twoGateways], []⟩ : Decoded StaticRoute) := by
    decide +kernel
  obtain ⟨d, hd, hback⟩ := routes_come_back.2.2 twoGatewaysLine
  obtain rfl : d = ⟨[twoGateways], []⟩ := Except.ok.inj (hd.symm.trans hread)
  exact ⟨_, hd, List.mem_cons_self .., (hback _ (List.mem_cons_self ..)).2.2⟩

end StaticRoute

end RouterConfig
