import RouterConfig.Proofs.Commands.Filters
import RouterConfig.Proofs.Stanza.TopLevel

/-!
# Choices of name servers come back

The parts of a choice stand in a fixed order, five of them may be absent, and each is told by
its form.  Servers and record types have forms that the rules forbid to a pattern, and what
follows the pattern has forms that exclude each other.  Only the option of a server is a word
that a pattern may be too.  So a pattern that is written like the option is taken for it when
it stands directly behind a server without one.

That is the one exception (`readBody_bodyWords`), and no choice that was read is one
(`not_endsLikeOption_of_readBody`).
-/

namespace RouterConfig.DnsServerSelect

open Text Rtx

/-- The words for the option of a server. -/
def optionWords : List String := ["edns=on", "edns=off"]

/-- The last server has no option, and the pattern stands behind it and is written like
one. -/
def EndsLikeOption (s : DnsServerSelect) : Prop :=
  (∃ server ∈ s.servers.getLast?, server.edns = none) ∧ s.recordType = none ∧
    s.queryPattern ∈ optionWords

/-! ## Words by their form -/

theorem isAddress_of_mem_optionWords : ∀ w ∈ optionWords, isAddress w = false := by
  decide

theorem isAddress_of_mem_recordTypes : ∀ type ∈ recordTypes, isAddress type = false := by
  decide

theorem not_mem_optionWords_of_mem_recordTypes : ∀ type ∈ recordTypes, type ∉ optionWords := by
  decide

/-! ## Servers -/

theorem readEdns_of_not_mem {ws : List String} (h : ∀ w ∈ ws.head?, w ∉ optionWords) :
    readEdns ws = (none, ws) := by
  unfold readEdns
  split
  · exact absurd (List.mem_cons_self ..) (h _ rfl)
  · exact absurd (List.mem_cons_of_mem _ (List.mem_cons_self ..)) (h _ rfl)
  · rfl

theorem readEdns_option (value : Bool) (ws : List String) :
    readEdns (("edns=" ++ onOff value) :: ws) = (some value, ws) := by
  cases value <;> rfl

/-- A server without an option leaves all words, and no option is the first of them. -/
theorem readEdns_eq_none {ws : List String} (h : (readEdns ws).1 = none) :
    (readEdns ws).2 = ws ∧ ∀ w ∈ ws.head?, w ∉ optionWords := by
  unfold readEdns at h ⊢
  split at h
  · cases h
  · cases h
  · next hon hoff =>
    refine ⟨rfl, fun w hw => ?_⟩
    obtain ⟨rest, rfl⟩ := List.head?_eq_some_iff.mp hw
    have hne : w ≠ "edns=on" ∧ w ≠ "edns=off" :=
      ⟨fun he => hon rest (by rw [he]), fun he => hoff rest (by rw [he])⟩
    simpa [optionWords] using hne

/-- **Servers are read back**, when no further server stands behind them, and behind the last
one no option that it does not have. -/
theorem readServers_append {limit : Nat} {servers : List DnsServer} {rest : List String}
    (hlen : servers.length ≤ limit) (haddress : ∀ server ∈ servers, isAddress server.address = true)
    (hrest : ∀ w ∈ rest.head?, isAddress w = false)
    (hoption : (∃ server ∈ servers.getLast?, server.edns = none) →
      ∀ w ∈ rest.head?, w ∉ optionWords) :
    readServers limit (servers.flatMap serverWords ++ rest) = (servers, rest) := by
  induction servers generalizing limit with
  | nil =>
    rw [List.flatMap_nil, List.nil_append]
    cases limit with
    | zero => rfl
    | succ limit =>
      cases rest with
      | nil => rfl
      | cons word rest => rw [readServers, hrest word rfl, if_neg (by decide)]
  | cons server servers ih =>
    obtain ⟨hfirst, hothers⟩ := List.forall_mem_cons.mp haddress
    obtain ⟨limit, rfl⟩ := Nat.exists_eq_succ_of_ne_zero (Nat.ne_zero_of_lt hlen)
    have hlater := ih (Nat.le_of_succ_le_succ hlen) hothers fun ⟨last, hlast, hnone⟩ =>
      hoption ⟨last, by rw [List.getLast?_cons, Option.mem_def.mp hlast]; rfl, hnone⟩
    have hedns : readEdns ((serverWords server).tail ++ (servers.flatMap serverWords ++ rest)) =
        (server.edns, servers.flatMap serverWords ++ rest) := by
      obtain ⟨address, edns⟩ := server
      cases edns with
      | some value => exact readEdns_option value _
      | none =>
        refine readEdns_of_not_mem ?_
        cases servers with
        | nil => exact hoption ⟨_, rfl, rfl⟩
        | cons next servers =>
          -- the next server stands there, and no address is an option
          rintro w ⟨⟩ hmem
          have hnext := hothers next (List.mem_cons_self ..)
          rw [isAddress_of_mem_optionWords _ hmem] at hnext
          cases hnext
    rw [List.flatMap_cons, List.append_assoc]
    show readServers (limit + 1)
      (server.address :: ((serverWords server).tail ++ (servers.flatMap serverWords ++ rest))) = _
    rw [readServers, if_pos hfirst, hedns]
    simp only [hlater]

/-- Where no servers are read, no words are. -/
theorem readServers_eq_nil {limit : Nat} {ws : List String} (h : (readServers limit ws).1 = []) :
    (readServers limit ws).2 = ws := by
  unfold readServers at h ⊢
  split
  · split
    · next hword => simp [hword] at h
    · rfl
  · rfl

/-- **No option is left behind a server without one.** -/
theorem not_mem_optionWords_of_readServers {limit : Nat} {ws : List String}
    (h : ∃ server ∈ (readServers limit ws).1.getLast?, server.edns = none) :
    ∀ w ∈ (readServers limit ws).2.head?, w ∉ optionWords := by
  induction limit generalizing ws with
  | zero =>
    obtain ⟨server, hserver, -⟩ := h
    cases hserver
  | succ limit ih =>
    cases ws with
    | nil =>
      obtain ⟨server, hserver, -⟩ := h
      cases hserver
    | cons word rest =>
      rw [readServers] at h ⊢
      split
      · next hword =>
        rw [if_pos hword] at h
        simp only at h ⊢
        cases hservers : (readServers limit (readEdns rest).2).1 with
        | nil =>
          rw [hservers] at h
          obtain ⟨server, hserver, hnone⟩ := h
          cases hserver
          obtain ⟨hleft, hoption⟩ := readEdns_eq_none hnone
          rw [readServers_eq_nil hservers, hleft]
          exact hoption
        | cons next servers =>
          refine ih ?_
          rw [hservers] at h ⊢
          rwa [List.getLast?_cons_cons] at h
      · next hword =>
        rw [if_neg hword] at h
        obtain ⟨server, hserver, -⟩ := h
        cases hserver

/-! ## What follows the servers -/

theorem takeIf_append {fits : String → Bool} {word : Option String} {rest : List String}
    (hfits : ∀ w ∈ word, fits w = true) (hrest : word = none → ∀ w ∈ rest.head?, fits w = false) :
    takeIf fits (word.toList ++ rest) = (word, rest) := by
  cases word with
  | some w => rw [Option.toList_some, List.singleton_append, takeIf, if_pos (hfits w rfl)]
  | none =>
    rw [Option.toList_none, List.nil_append]
    cases rest with
    | nil => rfl
    | cons w rest => rw [takeIf, if_neg (ne_true_of_eq_false (hrest rfl w rfl))]

/-- The words for the session that must be up. -/
def restrictionWords (restrictPp : Option UInt32) : List String :=
  match restrictPp with
  | some number => ["restrict", "pp", numeral number]
  | none => []

theorem readRestriction_restrictionWords (restrictPp : Option UInt32) :
    readRestriction (restrictionWords restrictPp) = .ok restrictPp := by
  cases restrictPp with
  | none => rfl
  | some number => rw [restrictionWords, readRestriction, readNumber_numeral]; rfl

/-- What stands behind the sender is not taken for one. -/
theorem isSender_of_mem_head?_restrictionWords {restrictPp : Option UInt32} :
    ∀ w ∈ (restrictionWords restrictPp).head?, isSender w = false := by
  cases restrictPp with
  | none => rintro w ⟨⟩
  | some number => rintro w ⟨⟩; decide

/-- The words behind the servers. -/
def tailWords (s : DnsServerSelect) : List String :=
  s.recordType.toList ++
    s.queryPattern :: (s.originalSender.toList ++ restrictionWords s.restrictPp)

theorem bodyWords_eq (s : DnsServerSelect) :
    s.bodyWords = s.servers.flatMap serverWords ++ s.tailWords := by
  unfold bodyWords tailWords restrictionWords
  cases s.restrictPp <;> simp

theorem head?_tailWords (s : DnsServerSelect) :
    s.tailWords.head? = some (s.recordType.getD s.queryPattern) := by
  rw [tailWords]
  cases s.recordType <;> rfl

/-- **Reading undoes writing**, away from the exception. -/
theorem readBody_bodyWords {s : DnsServerSelect} (h : validate s = none)
    (hoption : ¬ s.EndsLikeOption) : readBody s.id s.bodyWords = .ok s := by
  have hrules := firstBroken_eq_none_iff.mp h
  simp only [rules, List.forall_mem_append, List.forall_mem_cons, List.forall_mem_map,
    Rule.forall_mem_ifPresent, Rule.demand_eq_none_iff] at hrules
  obtain ⟨⟨⟨⟨⟨⟨-, hnonempty, hlen, -⟩, haddress⟩, htype⟩, -, hpattern, -⟩, hsender⟩, -⟩ := hrules
  rw [Bool.and_eq_true, Bool.not_eq_true', Bool.not_eq_true'] at hpattern
  have hrecordType : ∀ type ∈ s.recordType, type ∈ recordTypes :=
    fun type hmem => List.contains_iff_mem.mp (htype type hmem).1
  have hservers : readServers 2 s.bodyWords = (s.servers, s.tailWords) := by
    rw [bodyWords_eq]
    refine readServers_append (of_decide_eq_true hlen) haddress ?_ fun hnone => ?_
    · rw [head?_tailWords]
      rintro w ⟨⟩
      cases htypes : s.recordType with
      | none => exact hpattern.1
      | some type => exact isAddress_of_mem_recordTypes type (hrecordType type htypes)
    · rw [head?_tailWords]
      rintro w ⟨⟩
      cases htypes : s.recordType with
      | none => exact fun hmem => hoption ⟨hnone, htypes, hmem⟩
      | some type => exact not_mem_optionWords_of_mem_recordTypes type (hrecordType type htypes)
  have htake : takeIf recordTypes.contains s.tailWords = (s.recordType,
      s.queryPattern :: (s.originalSender.toList ++ restrictionWords s.restrictPp)) := by
    refine takeIf_append (fun type hmem => (htype type hmem).1) fun _ => ?_
    rintro w ⟨⟩
    exact hpattern.2
  have hrest : takeIf isSender (s.originalSender.toList ++ restrictionWords s.restrictPp) =
      (s.originalSender, restrictionWords s.restrictPp) :=
    takeIf_append (fun sender hmem => (hsender sender hmem).1)
      fun _ => isSender_of_mem_head?_restrictionWords
  rw [Bool.not_eq_true'] at hnonempty
  simp only [readBody, hservers, hnonempty, htake, hrest, readRestriction_restrictionWords]
  rfl

theorem takeIf_eq_none {fits : String → Bool} {words : List String}
    (h : (takeIf fits words).1 = none) : (takeIf fits words).2 = words := by
  unfold takeIf at h ⊢
  split
  · split
    · next hfits => simp [hfits] at h
    · rfl
  · rfl

/-- **No choice that was read is the exception.** -/
theorem not_endsLikeOption_of_readBody {id : UInt32} {words : List String} {s : DnsServerSelect}
    (h : readBody id words = .ok s) : ¬ s.EndsLikeOption := by
  rintro ⟨hnone, htype, hpattern⟩
  rw [readBody] at h
  generalize hservers : readServers 2 words = found at h
  obtain ⟨servers, behind⟩ := found
  simp only at h
  split at h
  · cases h
  · generalize htake : takeIf recordTypes.contains behind = taken at h
    obtain ⟨type, rest⟩ := taken
    cases rest with
    | nil => cases h
    | cons pattern rest =>
      simp only at h
      obtain ⟨restrictPp, -, h⟩ := bind_eq_ok_iff.mp h
      cases h
      cases htype
      have hsame := takeIf_eq_none (congrArg Prod.fst htake)
      have hbehind : pattern ∈ behind.head? := by
        rw [htake] at hsame
        rw [← hsame]
        rfl
      have hoption := @not_mem_optionWords_of_readServers 2 words
      rw [hservers] at hoption
      exact hoption hnone pattern hbehind hpattern

/-! ## Reading a line -/

/-- The line of a choice is read as the words after its number are. -/
theorem readings_phrase {s : DnsServerSelect} (h : validate s = none) {line : Line}
    (htext : line.text = phrase (s.leadWords ++ s.bodyWords)) :
    readings [line] = [⟨line, readBody s.id s.bodyWords⟩] := by
  have hwords : ∀ w ∈ numeral s.id :: s.bodyWords, IsWord w := by
    refine fun w hw => isWord_of_mem_words h w ?_
    exact List.mem_append_right ["dns", "server", "select"] hw
  have hrest : afterLead? "dns server select " line.text =
      some (phrase (numeral s.id :: s.bodyWords)) := by
    rw [htext]
    exact @afterLead?_phrase _ ["dns", "server", "select"] _ (by decide) (List.cons_ne_nil _ _) rfl
  rw [readings, List.filterMap_cons, hrest, Option.map_some, wordsOf_phrase hwords, readWords,
    readNumber_numeral]
  rfl

/-- A valid choice away from the exception comes back. -/
theorem readsBack_of_not_endsLikeOption {s : DnsServerSelect} (h : validate s = none)
    (hoption : ¬ s.EndsLikeOption) : ReadsBack [s] (.single s) := by
  refine readsBack_of_line (fun _ => rfl) (provided_of_none h _) (by decide) (by decide) (by decide)
    (isWord_of_mem_words h) fun line htext => ?_
  rw [decodeLines, readings_phrase h htext, readBody_bodyWords h hoption]
  exact (Decoded.concat_singleton _).trans (Decoded.checked_of_none h)

/-- **A choice that was read** breaks no rule and is not the exception. -/
theorem of_mem_decodeLines {lines : List Line} {s : DnsServerSelect}
    (h : s ∈ (decodeLines lines).records) : validate s = none ∧ ¬ s.EndsLikeOption := by
  rw [decodeLines, Decoded.mem_records_concat] at h
  obtain ⟨_, hpart, hmem⟩ := h
  obtain ⟨⟨earlier, r⟩, hr, rfl⟩ := List.mem_map.mp hpart
  have hreading : r ∈ readings lines := by
    have hsnd := List.mem_map_of_mem hr (f := Prod.snd)
    rwa [map_snd_withEarlier] at hsnd
  obtain ⟨line, -, hline⟩ := List.mem_filterMap.mp hreading
  obtain ⟨rest, -, rfl⟩ := Option.map_eq_some_iff.mp hline
  simp only [Reading.decode] at hmem
  split at hmem
  · cases hmem
  · next t hread =>
    split at hmem
    · cases hmem
    · obtain ⟨rfl, hvalid⟩ := Decoded.mem_records_checked.mp hmem
      refine ⟨hvalid, ?_⟩
      cases hwords : wordsOf rest with
      | nil => rw [hwords] at hread; cases hread
      | cons word rest =>
        rw [hwords] at hread
        obtain ⟨id, -, hbody⟩ := bind_eq_ok_iff.mp hread
        exact not_endsLikeOption_of_readBody hbody

/-! ## Choices that come back -/

/-- **Choices of name servers come back**, all but those with a pattern that is taken for the
option of the last server.  No choice that was read from a text is one of them, so each is
read as it was, down to the options and the record types that were not said. -/
theorem choices_come_back :
    (∀ s : DnsServerSelect, validate s = none →
      (ReadsBack [s] (.single s) ↔ ¬ s.EndsLikeOption)) ∧
      ∀ raw, ∃ d : Decoded DnsServerSelect, Feature.decode (dialect.parse raw).stanza = .ok d ∧
        ∀ s ∈ d.records, ReadsBack [s] (.single s) := by
  refine ⟨fun s hvalid => ⟨fun hback => ?_, readsBack_of_not_endsLikeOption hvalid⟩, fun raw => ?_⟩
  · obtain ⟨lines, hmem⟩ := hback.exists_mem decodeLines fun _ => rfl
    exact (of_mem_decodeLines hmem).2
  · refine ⟨_, rfl, fun s hmem => ?_⟩
    obtain ⟨hvalid, hoption⟩ := of_mem_decodeLines hmem
    exact readsBack_of_not_endsLikeOption hvalid hoption

/-- A choice with every part, the pattern being written like an option. -/
def everyPart : DnsServerSelect where
  id := 2
  servers := [⟨"10.0.0.1", some false⟩, ⟨"2001:db8::53", none⟩]
  recordType := some "aaaa"
  queryPattern := "edns=on"
  originalSender := some "192.168.1.0/24"
  restrictPp := some 1

/-- The line of the choice. -/
def everyPartLine : String :=
  "dns server select 2 10.0.0.1 edns=off 2001:db8::53 aaaa edns=on 192.168.1.0/24 restrict pp 1"

/-- The same choice without the record type. -/
def withoutType : DnsServerSelect := { everyPart with recordType := none }

/-- The choice with every part comes back, also when it was read.  Without the record type the
pattern is taken for the option. -/
theorem choices_come_back_everyPart :
    (validate everyPart = none ∧ ReadsBack [everyPart] (.single everyPart)) ∧
      (validate withoutType = none ∧ ¬ ReadsBack [withoutType] (.single withoutType)) ∧
      ∃ d : Decoded DnsServerSelect, Feature.decode (dialect.parse everyPartLine).stanza = .ok d ∧
        everyPart ∈ d.records ∧ ReadsBack [everyPart] (.single everyPart) := by
  have hvalid : validate everyPart = none := by decide
  have hwithout : validate withoutType = none := by decide
  have htype : ¬ everyPart.EndsLikeOption := fun h => absurd h.2.1 (by decide)
  have hoption : withoutType.EndsLikeOption := ⟨⟨_, rfl, rfl⟩, rfl, by decide⟩
  refine ⟨⟨hvalid, (choices_come_back.1 _ hvalid).mpr htype⟩,
    ⟨hwithout, fun hback => (choices_come_back.1 _ hwithout).mp hback hoption⟩, ?_⟩
  obtain ⟨d, hd, hback⟩ := choices_come_back.2 everyPartLine
  have hread : Feature.decode (dialect.parse everyPartLine).stanza =
      .ok (⟨[everyPart], []⟩ : Decoded DnsServerSelect) := by
    decide +kernel
  obtain rfl : d = ⟨[everyPart], []⟩ := Except.ok.inj (hd.symm.trans hread)
  exact ⟨_, hd, List.mem_cons_self .., hback _ (List.mem_cons_self ..)⟩

end RouterConfig.DnsServerSelect
