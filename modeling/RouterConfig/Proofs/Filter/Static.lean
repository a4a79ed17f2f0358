import RouterConfig.Proofs.Commands.Filters
import RouterConfig.Proofs.Stanza.TopLevel

/-!
# Static filters come back

The words of a static filter are told apart by how many there are, and the last of them by
what it is.  So two things are lost when a filter is written.  A source port that is absent
in front of a destination port is written as the port that matches every port.  And a last
port that is written like the keyword `established` is taken for it.

Nothing else is lost, and nothing that was read can be lost in these ways
(`readBody_eq_ok_iff`).  From this one equivalence the round trip follows in both directions
(`decode_printed_filter`).
-/

namespace RouterConfig

open Text Rtx

/-- An action is read from its word and from no other. -/
theorem FilterAction.read_eq_ok_iff {w : String} {action : FilterAction} :
    FilterAction.read w = .ok action ↔ action.word = w := by
  constructor
  · intro h
    unfold FilterAction.read at h
    split at h
    · next found hfound =>
      cases h
      simpa using List.find?_some hfound
    · cases h
  · rintro rfl
    exact action.read_word

/-- A line that starts like those of one family is read as one of that family. -/
theorem IpFamily.findSome?_lead {α : Type} {lead text behind : String} {family : IpFamily}
    (hlead : afterLead? (family.word ++ lead) text = some behind)
    (hother : ∀ other : IpFamily, other ≠ family → afterLead? (other.word ++ lead) text = none)
    (next : IpFamily → String → Option α) :
    (IpFamily.all.findSome? fun other => afterLead? (other.word ++ lead) text >>= next other) =
      next family behind := by
  simp only [IpFamily.all, List.findSome?_cons, List.findSome?_nil, Option.bind_eq_bind]
  cases family with
  | ipv4 =>
    rw [hlead, hother .ipv6 (by decide), Option.bind_some, Option.bind_none]
    cases next .ipv4 behind <;> rfl
  | ipv6 =>
    rw [hlead, hother .ipv4 (by decide), Option.bind_some, Option.bind_none]
    cases next .ipv6 behind <;> rfl

/-- The word of a family starts commands and selects nothing. -/
theorem IpFamily.word_starts (family : IpFamily) :
    family.word ∈ commandStarts ∧ family.word ≠ tunnelKind ∧ family.word ≠ ppKind := by
  cases family <;> decide

namespace IpFilter

/-! ## What is lost in writing -/

/-- The filter with the placeholder that is written for it. -/
def withPlaceholder (f : IpFilter) : IpFilter :=
  if f.sourcePort = none ∧ f.destinationPort.isSome then { f with sourcePort := some "*" } else f

/-- The last of the ports that are there. -/
def lastPort? (f : IpFilter) : Option String :=
  f.destinationPort <|> f.sourcePort

/-- The keyword is not there, and the last port is written like it. -/
def EndsLikeKeyword (f : IpFilter) : Prop :=
  f.established = false ∧ f.lastPort? = some "established"

theorem withPlaceholder_withPlaceholder (f : IpFilter) :
    f.withPlaceholder.withPlaceholder = f.withPlaceholder := by
  unfold withPlaceholder
  split <;> simp_all

/-- At most two ports are written, and they are those of the filter unless a placeholder is. -/
theorem portWords_eq_iff {f : IpFilter} {ports : List String} :
    f.portWords = ports ∧ f.withPlaceholder = f ↔
      ports.length ≤ 2 ∧ ports[0]? = f.sourcePort ∧ ports[1]? = f.destinationPort := by
  obtain ⟨family, number, action, source, destination, protocol, sourcePort, destinationPort,
    established⟩ := f
  constructor
  · rintro ⟨rfl, h⟩
    cases sourcePort with
    | none =>
      cases destinationPort with
      | none => simp [portWords]
      | some port => simp [withPlaceholder] at h
    | some port => cases destinationPort <;> simp [portWords]
  · rintro ⟨hlen, rfl, rfl⟩
    obtain _ | ⟨first, _ | ⟨second, _ | ⟨third, rest⟩⟩⟩ := ports
    · simp [portWords, withPlaceholder]
    · simp [portWords, withPlaceholder]
    · simp [portWords, withPlaceholder]
    · simp at hlen

theorem getLast?_portWords (f : IpFilter) : f.portWords.getLast? = f.lastPort? := by
  unfold portWords lastPort?
  split <;> simp_all

/-! ## Reading the words after the number -/

/-- The fields of a filter are the words in front of the keyword. -/
theorem readBody_eq_ok_iff_fields {family : IpFamily} {number : UInt32} {words : List String}
    {f : IpFilter} :
    readBody family number words = .ok f ↔ (f.family = family ∧ f.number = number) ∧
      (4 < words.length && words.getLast? == some "established") = f.established ∧
      ∃ ports, (if f.established then words.dropLast else words) =
          f.action.word :: f.source :: f.destination :: f.protocol :: ports ∧
        ports.length ≤ 2 ∧ ports[0]? = f.sourcePort ∧ ports[1]? = f.destinationPort := by
  constructor
  · intro h
    rw [readBody] at h
    split at h
    · next action source destination protocol ports hfields =>
      split at h
      · cases h
      · next hlen =>
        obtain ⟨action, haction, h⟩ := bind_eq_ok_iff.mp h
        cases h
        rw [FilterAction.read_eq_ok_iff.mp haction]
        exact ⟨⟨rfl, rfl⟩, rfl, ports, hfields, by omega, rfl, rfl⟩
    · cases h
  · rintro ⟨⟨rfl, rfl⟩, hkeyword, ports, hfields, hlen, hsource, hdestination⟩
    rw [readBody, hkeyword, hfields]
    simp [FilterAction.read_word, hsource, hdestination, show ¬ 2 < ports.length by omega]

/-- The keyword behind the fields, and what stands there when it is not. -/
theorem keyword_iff {words ports : List String} {action source destination protocol : String}
    {established : Bool} :
    (4 < words.length && words.getLast? == some "established") = established ∧
        (if established then words.dropLast else words) =
          action :: source :: destination :: protocol :: ports ↔
      [action, source, destination, protocol] ++ ports ++
          (if established then ["established"] else []) = words ∧
        ¬ (established = false ∧ ports.getLast? = some "established") := by
  cases established with
  | true =>
    simp only [if_true, Bool.true_eq_false, false_and, not_false_iff, and_true, Bool.and_eq_true,
      decide_eq_true_eq, beq_iff_eq]
    constructor
    · rintro ⟨⟨-, hlast⟩, hfields⟩
      obtain ⟨init, rfl⟩ := List.getLast?_eq_some_iff.mp hlast
      rw [List.dropLast_concat] at hfields
      rw [hfields]
      rfl
    · rintro rfl
      refine ⟨⟨by simp, List.getLast?_concat⟩, ?_⟩
      rw [List.dropLast_concat]
      rfl
  | false =>
    simp only [Bool.false_eq_true, if_false, List.append_nil, true_and]
    constructor
    · rintro ⟨hkeyword, rfl⟩
      refine ⟨rfl, fun hlast => ?_⟩
      cases ports with
      | nil => cases hlast
      | cons port ports => simp [hlast] at hkeyword
    · rintro ⟨rfl, hlast⟩
      refine ⟨?_, rfl⟩
      cases ports with
      | nil => rfl
      | cons port ports => simpa using hlast

/-- **Reading undoes writing**, and it does nothing else. -/
theorem readBody_eq_ok_iff {family : IpFamily} {number : UInt32} {words : List String}
    {f : IpFilter} :
    readBody family number words = .ok f ↔ (f.family = family ∧ f.number = number) ∧
      f.bodyWords = words ∧ f.withPlaceholder = f ∧ ¬ f.EndsLikeKeyword := by
  rw [readBody_eq_ok_iff_fields, EndsLikeKeyword, ← getLast?_portWords]
  refine and_congr_right fun _ => ?_
  constructor
  · rintro ⟨hkeyword, ports, hfields, hports⟩
    obtain ⟨rfl, hplaceholder⟩ := portWords_eq_iff.mpr hports
    obtain ⟨hwords, hlast⟩ := keyword_iff.mp ⟨hkeyword, hfields⟩
    exact ⟨hwords, hplaceholder, hlast⟩
  · rintro ⟨hwords, hplaceholder, hlast⟩
    obtain ⟨hkeyword, hfields⟩ := keyword_iff.mpr ⟨hwords, hlast⟩
    exact ⟨hkeyword, f.portWords, hfields, portWords_eq_iff.mp ⟨rfl, hplaceholder⟩⟩

/-! ## Reading a line -/

/-- A line of a static filter is taken apart into its family, its number and the rest. -/
theorem split?_phrase (family : IpFamily) (number : UInt32) {w : String} {ws : List String}
    (hws : ∀ v ∈ w :: ws, IsWord v) :
    split? (phrase ([family.word, "filter", numeral number] ++ w :: ws)) =
      some (family, numeral number, phrase (w :: ws)) := by
  have hlead : afterLead? (family.word ++ " filter ")
      (phrase ([family.word, "filter", numeral number] ++ w :: ws)) =
        some (phrase (numeral number :: w :: ws)) :=
    @afterLead?_phrase _ [family.word, "filter"] (numeral number :: w :: ws) (List.cons_ne_nil _ _)
      (List.cons_ne_nil _ _) (by cases family <;> rfl)
  have hdigit : (phrase (numeral number :: w :: ws)).toList.head?.any isDecimalDigit = true := by
    obtain ⟨c, hc, hdigit⟩ := head?_numeral number
    rw [toList_phrase_cut, List.head?_append, hc, Option.some_or, Option.any_some]
    exact isDecimalDigit_of_isDigit hdigit
  have hfirst : firstWord? (phrase (numeral number :: w :: ws)) =
      some (numeral number, phrase (w :: ws)) :=
    firstWord?_phrase (isWord_numeral number) (endsLine_phrase (List.cons_ne_nil _ _) hws).1
  have hother : ∀ other : IpFamily, other ≠ family → afterLead? (other.word ++ " filter ")
      (phrase ([family.word, "filter", numeral number] ++ w :: ws)) = none := by
    intro other hne
    refine afterLead?_of_apart ?_ (toList_phrase_cons_cons family.word "filter" _ _)
    cases family <;> cases other <;> first | exact absurd rfl hne | decide
  refine (IpFamily.findSome?_lead hlead hother _).trans ?_
  rw [hdigit, hfirst]
  rfl

/-- The line of a filter is read as the words after its number are. -/
theorem decodeLine_phrase {f : IpFilter} (h : validate f = none) {line : Line}
    (htext : line.text = phrase ([f.family.word, "filter", numeral f.number] ++ f.bodyWords)) :
    decodeLine line =
      match readBody f.family f.number f.bodyWords with
      | .ok g => .checked featureName validate line g
      | .error fault => .rejected featureName line (.malformed fault) := by
  have hwords : ∀ w ∈ f.bodyWords, IsWord w :=
    fun w hw => isWord_of_mem_words h w (List.mem_append_right _ hw)
  have hsplit : split? line.text = some (f.family, numeral f.number, phrase f.bodyWords) := by
    rw [htext]
    exact split?_phrase f.family f.number hwords
  have hread : readParts f.family (numeral f.number) (phrase f.bodyWords) =
      readBody f.family f.number f.bodyWords := by
    rw [readParts, readNumber_numeral, ok_bind, wordsOf_phrase hwords]
  rewrite [decodeLine, hsplit, ← hread]
  rfl

/-! ## Filters that come back -/

/-- The placeholder breaks no rule. -/
theorem validate_withPlaceholder {f : IpFilter} (h : validate f = none) :
    validate f.withPlaceholder = none := by
  unfold withPlaceholder
  split
  · next hports =>
    have hrules := firstBroken_eq_none_iff.mp h
    have hstar : IsWord "*" := by decide
    refine firstBroken_eq_none_iff.mpr ?_
    simp only [rules, List.forall_mem_append, Rule.forall_mem_ifPresent] at hrules ⊢
    obtain ⟨⟨⟨hfields, -⟩, hdestination⟩, hestablished⟩ := hrules
    refine ⟨⟨⟨hfields, ?_⟩, hdestination⟩, hestablished⟩
    simpa using hstar
  · exact h

theorem bodyWords_withPlaceholder (f : IpFilter) : f.withPlaceholder.bodyWords = f.bodyWords := by
  obtain ⟨family, number, action, source, destination, protocol, sourcePort, destinationPort,
    established⟩ := f
  cases sourcePort with
  | none => cases destinationPort <;> rfl
  | some port => rfl

theorem endsLikeKeyword_withPlaceholder (f : IpFilter) :
    f.withPlaceholder.EndsLikeKeyword ↔ f.EndsLikeKeyword := by
  unfold withPlaceholder
  split
  · next hports =>
    obtain ⟨port, hport⟩ := Option.isSome_iff_exists.mp hports.2
    simp [EndsLikeKeyword, lastPort?, hport]
  · exact Iff.rfl

/-- A valid filter reads back as what its line gives. -/
theorem readsBack_of_decodeLine {f : IpFilter} (h : validate f = none) {d : Decoded IpFilter}
    (hline : ∀ line : Line,
      line.text = phrase ([f.family.word, "filter", numeral f.number] ++ f.bodyWords) →
        decodeLine line = d) : ReadsBack [f] d := by
  have hfamily := f.family.word_starts
  refine readsBack_of_line (fun _ => rfl) (provided_of_none h _) hfamily.1 hfamily.2.1
    hfamily.2.2 (isWord_of_mem_words h) fun line htext => ?_
  rw [decodeLines, List.map_singleton, hline line htext, Decoded.concat_singleton]

/-- A valid filter comes back with its placeholder, if its last port is not taken for the
keyword. -/
theorem readsBack_withPlaceholder {f : IpFilter} (h : validate f = none)
    (hkeyword : ¬ f.EndsLikeKeyword) : ReadsBack [f] (.single f.withPlaceholder) := by
  refine readsBack_of_decodeLine h fun line htext => ?_
  have hread : readBody f.family f.number f.bodyWords = .ok f.withPlaceholder := by
    refine readBody_eq_ok_iff.mpr ⟨?_, bodyWords_withPlaceholder f,
      withPlaceholder_withPlaceholder f, mt (endsLikeKeyword_withPlaceholder f).mp hkeyword⟩
    unfold withPlaceholder
    split <;> exact ⟨rfl, rfl⟩
  rw [decodeLine_phrase h htext, hread]
  exact Decoded.checked_of_none (validate_withPlaceholder h)

/-- **A filter that was read** breaks no rule and loses nothing when it is written. -/
theorem of_mem_decodeLines {lines : List Line} {f : IpFilter}
    (h : f ∈ (decodeLines lines).records) :
    validate f = none ∧ f.withPlaceholder = f ∧ ¬ f.EndsLikeKeyword := by
  rw [decodeLines, Decoded.mem_records_concat] at h
  obtain ⟨_, hpart, hmem⟩ := h
  obtain ⟨line, -, rfl⟩ := List.mem_map.mp hpart
  rw [decodeLine] at hmem
  split at hmem
  · cases hmem
  · next family number body hsplit =>
    split at hmem
    · next g hread =>
      obtain ⟨rfl, hvalid⟩ := Decoded.mem_records_checked.mp hmem
      obtain ⟨n, -, hbody⟩ := bind_eq_ok_iff.mp hread
      obtain ⟨-, -, hplaceholder, hkeyword⟩ := readBody_eq_ok_iff.mp hbody
      exact ⟨hvalid, hplaceholder, hkeyword⟩
    · cases hmem

/-- **Static filters come back up to the placeholder.**  A filter that breaks no rule is read
back, with the port that matches every port in the place of a source port that could not be
left out.  Where its last port is written like the keyword, and the keyword does not follow,
it is not read back.  This happens to no filter that was read from a text, and no such filter
needs the placeholder. -/
theorem filters_come_back :
    (∀ f : IpFilter, validate f = none →
      (¬ f.EndsLikeKeyword → ReadsBack [f] (.single f.withPlaceholder)) ∧
        (f.EndsLikeKeyword → ∃ d, ReadsBack [f] d ∧ f ∉ d.records)) ∧
      ∀ raw, ∃ d : Decoded IpFilter, Feature.decode (dialect.parse raw).stanza = .ok d ∧
        ∀ f ∈ d.records, ReadsBack [f] (.single f) := by
  refine ⟨fun f hvalid => ⟨readsBack_withPlaceholder hvalid, fun hkeyword => ?_⟩, fun raw => ?_⟩
  · have hprinted : [f].mapM (fun f => Feature.encode f .set) =
        .ok [[phrase ([f.family.word, "filter", numeral f.number] ++ f.bodyWords)]] :=
      mapM_cons_of_ok (provided_of_none hvalid _) rfl
    exact ⟨_, ⟨_, hprinted, rfl⟩, fun hmem => (of_mem_decodeLines hmem).2.2 hkeyword⟩
  · refine ⟨_, rfl, fun f hmem => ?_⟩
    obtain ⟨hvalid, hplaceholder, hkeyword⟩ := of_mem_decodeLines hmem
    have hback := readsBack_withPlaceholder hvalid hkeyword
    rwa [hplaceholder] at hback

/-- A filter with a destination port and no source port. -/
def web : IpFilter where
  number := 200100
  action := .pass
  source := "*"
  destination := "192.168.1.0/24"
  protocol := "tcp"
  destinationPort := some "www"

/-- The same filter with a port that is written like the keyword. -/
def webEstablished : IpFilter := { web with destinationPort := some "established" }

/-- The first filter comes back with the placeholder, and without change when it was read
with it.  The second one does not come back. -/
theorem filters_come_back_web :
    (validate web = none ∧ ¬ web.EndsLikeKeyword ∧
      ReadsBack [web] (.single web.withPlaceholder)) ∧
    (validate webEstablished = none ∧ webEstablished.EndsLikeKeyword ∧
      ∃ d, ReadsBack [webEstablished] d ∧ webEstablished ∉ d.records) ∧
    ∃ d : Decoded IpFilter, Feature.decode (dialect.parse
        "ip filter 200100 pass * 192.168.1.0/24 tcp * www").stanza = .ok d ∧
      web.withPlaceholder ∈ d.records ∧
        ReadsBack [web.withPlaceholder] (.single web.withPlaceholder) := by
  have hweb : validate web = none := by decide
  have hport : validate webEstablished = none := by decide
  have hkeyword : ¬ web.EndsLikeKeyword := fun h => absurd h.2 (by decide)
  refine ⟨⟨hweb, hkeyword, (filters_come_back.1 web hweb).1 hkeyword⟩,
    ⟨hport, ⟨rfl, rfl⟩, (filters_come_back.1 _ hport).2 ⟨rfl, rfl⟩⟩, ?_⟩
  have hread : Feature.decode (dialect.parse
      "ip filter 200100 pass * 192.168.1.0/24 tcp * www").stanza =
        .ok ⟨[web.withPlaceholder], []⟩ := by
    decide +kernel
  obtain ⟨d, hd, hback⟩ := filters_come_back.2 "ip filter 200100 pass * 192.168.1.0/24 tcp * www"
  obtain rfl : d = ⟨[web.withPlaceholder], []⟩ := Except.ok.inj (hd.symm.trans hread)
  exact ⟨_, hd, List.mem_cons_self .., hback _ (List.mem_cons_self ..)⟩

end IpFilter

end RouterConfig
