import RouterConfig.Proofs.Address.Words
import RouterConfig.Proofs.Shares
import RouterConfig.Proofs.Text.Phrases
import RouterConfig.Route

/-!
# Routes are merged network by network

A network may stand on several lines, in different spellings, with lines about other networks
between them.  What is decoded for it depends on its own lines only: the share of a network in
what is decoded from all lines is what is decoded from its own lines (`shareOf_decodeLines`).

From lines that are all about one network there comes one record with all gateways in order,
if all lines can be read and the record breaks no rule.  Otherwise there is none, and either
each line that cannot be read is rejected, or the first line is, for the rule.
-/

namespace RouterConfig.StaticRoute

open Text

/-- The network that a command line is about: what the first word behind `ip route ` spells. -/
def network? (text : String) : Option Network :=
  (afterLead? "ip route " text).bind fun rest =>
    (wordsOf rest).head?.bind fun word => (Network.read word).toOption

/-- The gateways that a command line names behind the network. -/
def gateways (text : String) : Except LineFault (List NextHop) :=
  readClauses (wordsOf ((afterLead? "ip route " text).getD "")).tail

/-- The lines about a network. -/
def linesTo (k : Network) (lines : List Line) : List Line :=
  lines.filter fun line => network? line.text = some k

/-- The gateways of all lines can be read. -/
def AllReadable (lines : List Line) : Prop :=
  ∀ line ∈ lines, ∃ hops, gateways line.text = .ok hops

/-- The gateways of the lines one after the other. -/
def mergedHops (lines : List Line) : List NextHop :=
  lines.flatMap fun line => (gateways line.text).toOption.getD []

/-- The rejection of a line whose gateways cannot be read. -/
def gatewayError? (line : Line) : Option DecodeError :=
  match gateways line.text with
  | .ok _ => none
  | .error fault => some ⟨featureName, line.text, line.number, .malformed fault⟩

/-- Lines can be read exactly if none of them is rejected for its gateways. -/
theorem allReadable_iff {lines : List Line} :
    AllReadable lines ↔ ∀ line ∈ lines, gatewayError? line = none := by
  refine forall₂_congr fun line _ => ?_
  rw [gatewayError?]
  cases gateways line.text <;> simp

instance (lines : List Line) : Decidable (AllReadable lines) :=
  decidable_of_iff _ allReadable_iff.symm

/-- What was decoded about a network: its records, and the errors on lines about it. -/
def shareOf (k : Network) (d : Decoded StaticRoute) : Decoded StaticRoute :=
  d.about (fun r => r.network = k) fun text => network? text = some k

/-- **A network may be spelled in any way.**  Behind it stand the words of the gateways. -/
theorem network?_phrase {k : Network} {word : String} {ws : List String} (hlength : k.length ≤ 32)
    (hword : Network.IsSpelling k word) (hws : ∀ w ∈ ws, IsWord w) :
    network? (phrase (["ip", "route"] ++ word :: ws)) = some k ∧
      gateways (phrase (["ip", "route"] ++ word :: ws)) = readClauses ws := by
  have hrest : afterLead? "ip route " (phrase (["ip", "route"] ++ word :: ws)) =
      some (phrase (word :: ws)) :=
    afterLead?_phrase (List.cons_ne_nil _ _) (List.cons_ne_nil _ _) (by decide)
  have hwords : wordsOf (phrase (word :: ws)) = word :: ws :=
    wordsOf_phrase (List.forall_mem_cons.mpr ⟨hword.isWord, hws⟩)
  constructor
  · rw [network?, hrest, Option.bind_some, hwords, List.head?_cons, Option.bind_some,
      hword.read_eq hlength]
    rfl
  · rw [gateways, hrest, Option.getD_some, hwords, List.tail_cons]

/-! ## Readings of lines about one network -/

/-- The network of a reading, if there is one. -/
def Reading.network? (r : Reading) : Option Network :=
  r.content.toOption.map Prod.fst

/-- What is read from a line, if it is one of the feature. -/
def readingOf? (line : Line) : Option Reading :=
  (afterLead? "ip route " line.text).map fun rest => ⟨line, readWords (wordsOf rest)⟩

theorem toOption_readWords (words : List String) :
    (readWords words).toOption.map Prod.fst =
      words.head?.bind fun word => (Network.read word).toOption := by
  cases words with
  | nil => rfl
  | cons word rest =>
    rw [readWords, List.head?_cons, Option.bind_some]
    cases Network.read word <;> rfl

/-- A line is about the network of its reading. -/
theorem network?_eq_bind (line : Line) :
    network? line.text = (readingOf? line).bind Reading.network? := by
  rw [network?, readingOf?]
  cases afterLead? "ip route " line.text with
  | none => rfl
  | some rest => exact (toOption_readWords (wordsOf rest)).symm

theorem line_of_readingOf? {line : Line} {r : Reading} (h : readingOf? line = some r) :
    r.line = line := by
  obtain ⟨rest, -, rfl⟩ := Option.map_eq_some_iff.mp h
  rfl

/-- What is read from a line about a network. -/
theorem readingOf?_of_network? {k : Network} {line : Line} (h : network? line.text = some k) :
    readingOf? line = some ⟨line, .ok (k, gateways line.text)⟩ := by
  rw [network?, Option.bind_eq_some_iff] at h
  obtain ⟨rest, hrest, h⟩ := h
  rw [readingOf?, gateways, hrest, Option.map_some, Option.getD_some]
  cases hwords : wordsOf rest with
  | nil => rw [hwords] at h; cases h
  | cons word words =>
    rw [hwords, List.head?_cons, Option.bind_some] at h
    rw [readWords, List.tail_cons]
    cases hread : Network.read word with
    | error fault => rw [hread] at h; cases h
    | ok network =>
      rw [hread] at h
      cases h
      rfl

/-- Readings know what their lines are about. -/
theorem network?_of_mem_readings {lines : List Line} {r : Reading} (h : r ∈ readings lines) :
    network? r.line.text = r.network? := by
  obtain ⟨line, -, hline⟩ := List.mem_filterMap.mp h
  rw [line_of_readingOf? hline, network?_eq_bind]
  exact congrArg (Option.bind · Reading.network?) hline

/-- **The readings about a network** are those of its lines. -/
theorem readings_linesTo (k : Network) (lines : List Line) :
    readings (linesTo k lines) = (readings lines).filter fun r => r.network? = some k := by
  show (lines.filter _).filterMap readingOf? = (lines.filterMap readingOf?).filter _
  rw [List.filterMap_filter, List.filter_filterMap]
  refine List.filterMap_congr fun line _ => ?_
  rw [network?_eq_bind]
  cases readingOf? line with
  | none => simp
  | some r => rfl

/-! ## The parts of what is decoded -/

/-- What becomes of a reading by itself: a rejection, if something is wrong. -/
def faultPart (r : Reading) : Decoded StaticRoute :=
  match r.fault? with
  | some fault => .rejected featureName r.line (.malformed fault)
  | none => .empty

/-- The lines that could be read, each with its route. -/
def routesOf (rs : List Reading) : List (Line × StaticRoute) :=
  rs.filterMap Reading.route?

/-- The first of the lines to each network that none of its lines spoils. -/
def firstLines (rs : List Reading) : List (Line × StaticRoute) :=
  (firstOfEach (fun p => p.2.network) (routesOf rs)).filter fun p =>
    !(rs.filterMap Reading.spoils?).contains p.2.network

/-- The route to the network of a line, with the gateways of all its lines. -/
def mergedPart (rs : List Reading) (first : Line × StaticRoute) : Decoded StaticRoute :=
  .checked featureName validate first.1 ⟨first.2.network,
    ((routesOf rs).filter fun p => p.2.network = first.2.network).flatMap fun p => p.2.nextHops⟩

theorem decodeLines_eq (lines : List Line) :
    decodeLines lines = .concat ((readings lines).map faultPart) ++
      .concat ((firstLines (readings lines)).map (mergedPart (readings lines))) :=
  rfl

section Share

variable {lines : List Line} {rs : List Reading} {k : Network}

/-- A line that could be read is about the network of its route. -/
theorem network?_of_route? {r : Reading} {p : Line × StaticRoute} (h : r.route? = some p) :
    r.line = p.1 ∧ r.network? = some p.2.network := by
  rw [Reading.route?] at h
  split at h
  · next hcontent =>
    cases h
    exact ⟨rfl, by rw [Reading.network?, hcontent]; rfl⟩
  · cases h

/-- A spoiled network is the one of the line. -/
theorem network?_of_spoils? {r : Reading} {n : Network} (h : r.spoils? = some n) :
    r.network? = some n := by
  rw [Reading.spoils?] at h
  split at h
  · next hcontent =>
    cases h
    rw [Reading.network?, hcontent]
    rfl
  · cases h

/-- The routes to a network come from the readings about it. -/
theorem routesOf_filter (k : Network) (rs : List Reading) :
    routesOf (rs.filter fun r => r.network? = some k) =
      (routesOf rs).filter fun p => p.2.network = k := by
  rw [routesOf, routesOf, List.filterMap_filter, List.filter_filterMap]
  refine List.filterMap_congr fun r _ => ?_
  cases hroute : r.route? with
  | none => simp
  | some p => simp [(network?_of_route? hroute).2, Option.filter_some]

/-- Whether a network is spoiled is told by the readings about it. -/
theorem mem_spoiled_filter_iff :
    k ∈ (rs.filter fun r => r.network? = some k).filterMap Reading.spoils? ↔
      k ∈ rs.filterMap Reading.spoils? := by
  rw [List.mem_filterMap, List.mem_filterMap]
  constructor
  · rintro ⟨r, hr, hspoils⟩
    exact ⟨r, (List.mem_filter.mp hr).1, hspoils⟩
  · rintro ⟨r, hr, hspoils⟩
    exact ⟨r, List.mem_filter.mpr ⟨hr, decide_eq_true (network?_of_spoils? hspoils)⟩, hspoils⟩

/-- The first line to a network is found among the readings about it. -/
theorem firstLines_filter (k : Network) (rs : List Reading) :
    firstLines (rs.filter fun r => r.network? = some k) =
      (firstLines rs).filter fun p => p.2.network = k := by
  rw [firstLines, firstLines, routesOf_filter,
    ← filter_firstOfEach (fun p : Line × StaticRoute => p.2.network) (fun n => decide (n = k)),
    List.filter_filter, List.filter_filter]
  refine List.filter_congr fun p _ => ?_
  by_cases hp : p.2.network = k
  · have hspoiled := @mem_spoiled_filter_iff rs k
    simp only [hp, List.contains_eq_mem, hspoiled, Bool.and_comm]
  · simp [hp]

theorem mergedPart_filter {first : Line × StaticRoute} (h : first.2.network = k) :
    mergedPart (rs.filter fun r => r.network? = some k) first = mergedPart rs first := by
  rw [mergedPart, mergedPart, routesOf_filter, List.filter_filter, h]
  simp only [Bool.and_self]

theorem about_faultPart {r : Reading} (h : r ∈ readings lines) :
    shareOf k (faultPart r) = if r.network? = some k then faultPart r else .empty := by
  rw [shareOf, faultPart]
  split
  · rw [Decoded.about_rejected, network?_of_mem_readings h]
    simp only [decide_eq_true_eq]
  · rw [Decoded.about_empty, ite_self]

theorem about_mergedPart {first : Line × StaticRoute} (h : first ∈ firstLines (readings lines)) :
    shareOf k (mergedPart (readings lines) first) =
      if first.2.network = k then mergedPart (readings lines) first else .empty := by
  have hroute := (firstOfEach_sublist _ _).subset (List.mem_filter.mp h).1
  obtain ⟨r, hr, hr'⟩ := List.mem_filterMap.mp hroute
  obtain ⟨hline, hnetwork⟩ := network?_of_route? hr'
  have hsame : network? first.1.text = some first.2.network := by
    rw [← hline, network?_of_mem_readings hr, hnetwork]
  rw [shareOf, mergedPart, Decoded.about_checked (by simp only [hsame, Option.some.injEq])]
  simp only [decide_eq_true_eq]

/-- **The share of a network** is what is decoded from its own lines. -/
theorem shareOf_decodeLines (k : Network) (lines : List Line) :
    shareOf k (decodeLines lines) = decodeLines (linesTo k lines) := by
  have hfaults : shareOf k (.concat ((readings lines).map faultPart)) =
      .concat (((readings lines).filter fun r => r.network? = some k).map faultPart) := by
    refine Decoded.about_concat_map fun r hr => ?_
    simp only [decide_eq_true_eq]
    exact about_faultPart hr
  have hmerged : shareOf k (.concat ((firstLines (readings lines)).map
        (mergedPart (readings lines)))) =
      .concat (((firstLines (readings lines)).filter fun p => p.2.network = k).map
        (mergedPart (readings lines))) := by
    refine Decoded.about_concat_map fun first hfirst => ?_
    simp only [decide_eq_true_eq]
    exact about_mergedPart hfirst
  have hparts : ((firstLines (readings lines)).filter fun p => p.2.network = k).map
        (mergedPart (readings lines)) =
      (firstLines (readings (linesTo k lines))).map (mergedPart (readings (linesTo k lines))) := by
    rw [readings_linesTo, firstLines_filter]
    refine List.map_congr_left fun first hfirst => (mergedPart_filter ?_).symm
    exact of_decide_eq_true (List.mem_filter.mp hfirst).2
  rw [decodeLines_eq, decodeLines_eq (linesTo k lines), ← hparts, readings_linesTo, ← hfaults,
    ← hmerged]
  exact Decoded.about_append _ _

end Share

/-! ## Lines about one network -/

section OneNetwork

variable {k : Network} {lines : List Line}

/-- Lines about one network are read as such. -/
theorem readings_of_forall (h : ∀ line ∈ lines, network? line.text = some k) :
    readings lines = lines.map fun line => ⟨line, .ok (k, gateways line.text)⟩ := by
  show lines.filterMap readingOf? = _
  rw [← List.filterMap_eq_map]
  exact List.filterMap_congr fun line hline => readingOf?_of_network? (h line hline)

theorem faultPart_eq (k : Network) (line : Line) :
    faultPart ⟨line, .ok (k, gateways line.text)⟩ = ⟨[], (gatewayError? line).toList⟩ := by
  rw [faultPart, Reading.fault?, gatewayError?]
  cases gateways line.text <;> rfl

/-- The lines that are rejected by themselves are those whose gateways cannot be read. -/
theorem concat_faultPart (h : ∀ line ∈ lines, network? line.text = some k) :
    .concat ((readings lines).map faultPart) =
      (⟨[], lines.filterMap gatewayError?⟩ : Decoded StaticRoute) := by
  rw [readings_of_forall h, List.map_map]
  clear h
  induction lines with
  | nil => rfl
  | cons line lines ih =>
    rw [List.map_cons, Decoded.concat_cons, ih, Function.comp_apply, faultPart_eq,
      List.filterMap_cons]
    cases gatewayError? line <;> rfl

/-- One line that cannot be read spoils the record. -/
theorem decodeLines_of_unreadable (hlines : ∀ line ∈ lines, network? line.text = some k)
    (h : ¬ AllReadable lines) :
    decodeLines lines = ⟨[], lines.filterMap gatewayError?⟩ := by
  have hspoiled : k ∈ (readings lines).filterMap Reading.spoils? := by
    rw [AllReadable] at h
    push Not at h
    obtain ⟨line, hline, hfault⟩ := h
    rw [readings_of_forall hlines, List.filterMap_map]
    refine List.mem_filterMap.mpr ⟨line, hline, ?_⟩
    rw [Function.comp_apply, Reading.spoils?]
    cases hgateways : gateways line.text with
    | ok hops => exact absurd hgateways (hfault hops)
    | error fault => rfl
  have hnone : firstLines (readings lines) = [] := by
    refine List.filter_eq_nil_iff.mpr fun p hp => ?_
    obtain ⟨r, hr, hroute⟩ := List.mem_filterMap.mp ((firstOfEach_sublist _ _).subset hp)
    have hnetwork := (network?_of_route? hroute).2
    rw [readings_of_forall hlines] at hr
    obtain ⟨line, -, rfl⟩ := List.mem_map.mp hr
    obtain rfl : k = p.2.network := Option.some.inj hnetwork
    simpa using hspoiled
  rw [decodeLines_eq, hnone, concat_faultPart hlines]
  exact Decoded.append_empty _

/-- Lines that can be read are checked as one route, on the first line. -/
theorem decodeLines_of_readable {first : Line} {rest : List Line}
    (hlines : ∀ line ∈ first :: rest, network? line.text = some k)
    (h : AllReadable (first :: rest)) :
    decodeLines (first :: rest) =
      .checked featureName validate first ⟨k, mergedHops (first :: rest)⟩ := by
  have hroute : ∀ line ∈ first :: rest,
      Reading.route? ⟨line, .ok (k, gateways line.text)⟩ =
        some (line, ⟨k, (gateways line.text).toOption.getD []⟩) := by
    intro line hline
    obtain ⟨hops, hhops⟩ := h line hline
    rw [hhops]
    rfl
  have hroutes : routesOf (readings (first :: rest)) =
      (first :: rest).map fun line => (line, ⟨k, (gateways line.text).toOption.getD []⟩) := by
    rw [routesOf, readings_of_forall hlines, List.filterMap_map, ← List.filterMap_eq_map]
    exact List.filterMap_congr hroute
  have hspoiled : (readings (first :: rest)).filterMap Reading.spoils? = [] := by
    rw [readings_of_forall hlines, List.filterMap_map]
    refine List.filterMap_eq_nil_iff.mpr fun line hline => ?_
    obtain ⟨hops, hhops⟩ := h line hline
    rw [Function.comp_apply, hhops]
    rfl
  have hfirst : firstLines (readings (first :: rest)) =
      [(first, ⟨k, (gateways first.text).toOption.getD []⟩)] := by
    have hsame : ∀ p ∈ routesOf (readings (first :: rest)), p.2.network = k := by
      rw [hroutes, List.forall_mem_map]
      exact fun _ _ => rfl
    rw [firstLines, hspoiled, firstOfEach_of_forall_eq hsame, hroutes]
    rfl
  have hhops : ((routesOf (readings (first :: rest))).filter fun p => p.2.network = k).flatMap
      (fun p => p.2.nextHops) = mergedHops (first :: rest) := by
    rw [hroutes, List.filter_eq_self.mpr, List.flatMap_map]
    · rfl
    · rw [List.forall_mem_map]
      exact fun _ _ => decide_eq_true rfl
  rw [decodeLines_eq, hfirst, List.map_singleton, Decoded.concat_singleton, mergedPart, hhops,
    concat_faultPart hlines, List.filterMap_eq_nil_iff.mpr (allReadable_iff.mp h)]
  exact Decoded.empty_append _

end OneNetwork

/-! ## What is decoded for each network -/

/-- What is decoded for a network from its own lines. -/
structure MergesTo (k : Network) (own : List Line) (d : Decoded StaticRoute) : Prop where
  /-- There is a record exactly if there are lines, all of them can be read, and the gateways
  of all of them break no rule together. -/
  exists_record_iff : (∃ r ∈ d.records, r.network = k) ↔
    own ≠ [] ∧ AllReadable own ∧ validate ⟨k, mergedHops own⟩ = none
  /-- It is the only one, it has the gateways of all lines in order, and no line is rejected. -/
  record_eq : (∃ r ∈ d.records, r.network = k) →
    (d.records.filter fun r => r.network = k) = [⟨k, mergedHops own⟩] ∧
      (d.errors.filter fun e => network? e.line = some k) = []
  /-- If some line cannot be read, each such line is rejected once, and no other. -/
  unreadable : ¬ AllReadable own →
    (d.errors.filter fun e => network? e.line = some k) = own.filterMap gatewayError?
  /-- If all lines can be read and break a rule together, the first is rejected, and no other. -/
  invalid : AllReadable own → ∀ first ∈ own.head?, ∀ error,
    validate ⟨k, mergedHops own⟩ = some error →
      (d.errors.filter fun e => network? e.line = some k) =
        [⟨featureName, first.text, first.number, .breaksRule error⟩]
  /-- No line is rejected where there is none. -/
  absent : own = [] → (d.errors.filter fun e => network? e.line = some k) = []

section Merging

variable {k : Network} {own : List Line} (hown : ∀ line ∈ own, network? line.text = some k)

include hown

/-- A valid route is the only thing that is decoded. -/
theorem decodeLines_of_valid (hne : own ≠ []) (hread : AllReadable own)
    (hvalid : validate ⟨k, mergedHops own⟩ = none) :
    decodeLines own = .single ⟨k, mergedHops own⟩ := by
  obtain ⟨first, rest, rfl⟩ := List.exists_cons_of_ne_nil hne
  rw [decodeLines_of_readable hown hread, Decoded.checked_of_none hvalid]

/-- A route that breaks a rule is the only thing that is rejected. -/
theorem decodeLines_of_invalid (hread : AllReadable own) {first : Line} (hfirst : first ∈ own.head?)
    {error : ValidationError} (herror : validate ⟨k, mergedHops own⟩ = some error) :
    decodeLines own = .rejected featureName first (.breaksRule error) := by
  obtain ⟨rest, rfl⟩ := List.head?_eq_some_iff.mp hfirst
  rw [decodeLines_of_readable hown hread, Decoded.checked, herror]

/-- A record comes from lines that can be read and break no rule. -/
theorem of_records_ne_nil (h : (decodeLines own).records ≠ []) :
    own ≠ [] ∧ AllReadable own ∧ validate ⟨k, mergedHops own⟩ = none := by
  by_cases hread : AllReadable own
  · rcases own with _ | ⟨first, rest⟩
    · exact absurd rfl h
    · refine ⟨List.cons_ne_nil _ _, hread, ?_⟩
      cases hvalid : validate ⟨k, mergedHops (first :: rest)⟩ with
      | none => rfl
      | some error =>
        rw [decodeLines_of_invalid hown hread rfl hvalid] at h
        exact absurd rfl h
  · rw [decodeLines_of_unreadable hown hread] at h
    exact absurd rfl h

/-- **What is decoded for a network** is told by its share. -/
theorem mergesTo_of_share {d : Decoded StaticRoute} (h : shareOf k d = decodeLines own) :
    MergesTo k own d := by
  have hrecords : (d.records.filter fun r => r.network = k) = (decodeLines own).records :=
    congrArg Decoded.records h
  have herrors : (d.errors.filter fun e => network? e.line = some k) = (decodeLines own).errors :=
    congrArg Decoded.errors h
  have hexists : (∃ r ∈ d.records, r.network = k) ↔ (decodeLines own).records ≠ [] := by
    rw [← hrecords, ne_eq, List.filter_eq_nil_iff]
    simp
  have hiff : (∃ r ∈ d.records, r.network = k) ↔
      own ≠ [] ∧ AllReadable own ∧ validate ⟨k, mergedHops own⟩ = none := by
    rw [hexists]
    refine ⟨of_records_ne_nil hown, ?_⟩
    rintro ⟨hne, hread, hvalid⟩
    rw [decodeLines_of_valid hown hne hread hvalid]
    exact List.cons_ne_nil _ _
  refine ⟨hiff, fun hrecord => ?_, fun hunread => ?_, fun hread first hfirst error herror => ?_, ?_⟩
  · obtain ⟨hne, hread, hvalid⟩ := hiff.mp hrecord
    rw [hrecords, herrors, decodeLines_of_valid hown hne hread hvalid]
    exact ⟨rfl, rfl⟩
  · rw [herrors, decodeLines_of_unreadable hown hunread]
  · rw [herrors, decodeLines_of_invalid hown hread hfirst herror]
    rfl
  · rintro rfl
    exact herrors

end Merging

/-- **Routes are merged network by network.**  In whatever way a network is spelled, its lines
make one record, with the gateways of all of them in order, or none, and then there are the
errors that say why.  Lines about other networks have no part in it. -/
theorem decodeLines_mergesTo (k : Network) (lines : List Line) :
    (∀ (word : String) (ws : List String), k.length ≤ 32 → Network.IsSpelling k word →
      (∀ w ∈ ws, IsWord w) →
        network? (phrase (["ip", "route"] ++ word :: ws)) = some k ∧
          gateways (phrase (["ip", "route"] ++ word :: ws)) = readClauses ws) ∧
      MergesTo k (linesTo k lines) (decodeLines lines) ∧
      ∀ others, linesTo k others = linesTo k lines →
        shareOf k (decodeLines others) = shareOf k (decodeLines lines) := by
  refine ⟨fun _ _ => network?_phrase, ?_, fun others hsame => ?_⟩
  · refine mergesTo_of_share (fun line hline => ?_) (shareOf_decodeLines k lines)
    exact of_decide_eq_true (List.mem_filter.mp hline).2
  · rw [shareOf_decodeLines, shareOf_decodeLines, hsame]

/-- Two lines that are merged, in two spellings of their network. -/
def mergedLines : List Line :=
  [⟨1, 0, "ip route 172.16.0.0/255.255.0.0 gateway tunnel 1 hide"⟩,
    ⟨4, 0, "ip route 172.16.0.0/16 gateway pp 1 filter 10 keepalive 3"⟩]

/-- Two lines to the default route, the second of which cannot be read. -/
def spoiledLines : List Line :=
  [⟨2, 0, "ip route default gateway pp 1"⟩, ⟨5, 0, "ip route 0.0.0.0/0 gateway pp 2 weight"⟩]

/-- A line with a gateway that cannot hide. -/
def hidingLines : List Line := [⟨3, 0, "ip route 10.0.0.1 gateway null hide"⟩]

/-- All of the lines, mixed. -/
def mixedLines : List Line :=
  mergedLines.take 1 ++ spoiledLines.take 1 ++ hidingLines ++ mergedLines.drop 1 ++
    spoiledLines.drop 1

/-- The network of the lines that are merged. -/
def mergedNetwork : Network := ⟨⟨172, 16, 0, 0⟩, 16⟩

/-- The network with the gateway that cannot hide. -/
def hidingNetwork : Network := ⟨⟨10, 0, 0, 1⟩, 32⟩

/-- The first network is merged, a line to the second cannot be read, and the third breaks a
rule. -/
theorem decodeLines_mergesTo_mixed :
    network? (phrase ["ip", "route", "172.16.0.0/255.255.0.0", "gateway", "pp", "1"]) =
      some mergedNetwork ∧
    ((decodeLines mixedLines).records.filter fun r => r.network = mergedNetwork) =
      [⟨mergedNetwork, [{ gateway := .tunnel 1, hide := true },
        { gateway := .pp 1, filters := [10], keepalive := some 3 }]⟩] ∧
    ((decodeLines mixedLines).errors.filter fun e => network? e.line = some .everywhere) =
      [⟨featureName, "ip route 0.0.0.0/0 gateway pp 2 weight", 5,
        .malformed (.without "weight" "value")⟩] ∧
    ((decodeLines mixedLines).errors.filter fun e => network? e.line = some hidingNetwork) =
      [⟨featureName, "ip route 10.0.0.1 gateway null hide", 3,
        .breaksRule ⟨featureName, "hide", .requires "a pp or tunnel gateway"⟩⟩] ∧
    shareOf mergedNetwork (decodeLines mergedLines) =
      shareOf mergedNetwork (decodeLines mixedLines) := by
  -- the texts are read once, and what follows is about the networks that were read
  have hnetworks : mixedLines.map (fun line => network? line.text) =
      [some mergedNetwork, some .everywhere, some hidingNetwork, some mergedNetwork,
        some .everywhere] := by decide +kernel
  have hown : linesTo mergedNetwork mixedLines = mergedLines ∧
      linesTo .everywhere mixedLines = spoiledLines ∧
      linesTo hidingNetwork mixedLines = hidingLines ∧
      linesTo mergedNetwork mergedLines = mergedLines := by
    simp only [mixedLines, mergedLines, spoiledLines, hidingLines, List.take_succ_cons,
      List.take_zero, List.drop_succ_cons, List.drop_zero, List.cons_append, List.nil_append,
      List.map_cons, List.map_nil, List.cons.injEq, and_true] at hnetworks
    obtain ⟨h₁, h₂, h₃, h₄, h₅⟩ := hnetworks
    simp [linesTo, mixedLines, mergedLines, spoiledLines, hidingLines, h₁, h₂, h₃, h₄, h₅,
      mergedNetwork, hidingNetwork, Network.everywhere, Ipv4.unspecified]
  obtain ⟨hmergedLines, hspoiledLines, hhidingLines, hsame⟩ := hown
  have hhops : mergedHops mergedLines = [{ gateway := .tunnel 1, hide := true },
      { gateway := .pp 1, filters := [10], keepalive := some 3 }] := by decide +kernel
  have hread : AllReadable mergedLines := by decide +kernel
  have hunread : ¬ AllReadable spoiledLines := by decide +kernel
  have hreadHiding : AllReadable hidingLines := by decide +kernel
  have herror : validate ⟨hidingNetwork, mergedHops hidingLines⟩ =
      some ⟨featureName, "hide", .requires "a pp or tunnel gateway"⟩ := by decide +kernel
  have htext : mergedNetwork.address.render ++ "/" ++ mergedNetwork.netmask.render =
      "172.16.0.0/255.255.0.0" := by decide +kernel
  have hspelling : Network.IsSpelling mergedNetwork "172.16.0.0/255.255.0.0" :=
    htext ▸ .netmask mergedNetwork
  obtain ⟨hspelled, hmerged, hindependent⟩ := decodeLines_mergesTo mergedNetwork mixedLines
  obtain ⟨-, hspoiled, -⟩ := decodeLines_mergesTo .everywhere mixedLines
  obtain ⟨-, hhiding, -⟩ := decodeLines_mergesTo hidingNetwork mixedLines
  rw [hmergedLines] at hmerged
  rw [hspoiledLines] at hspoiled
  rw [hhidingLines] at hhiding
  have hrecord := hmerged.exists_record_iff.mpr
    ⟨List.cons_ne_nil _ _, hread, by rw [hhops]; decide⟩
  refine ⟨?_, ?_, ?_, hhiding.invalid hreadHiding _ rfl _ herror, ?_⟩
  · exact (hspelled _ ["gateway", "pp", "1"] (by decide) hspelling (by decide)).1
  · rw [(hmerged.record_eq hrecord).1, hhops]
  · rw [hspoiled.unreadable hunread]
    decide +kernel
  · exact hindependent _ (hsame.trans hmergedLines.symm)

end RouterConfig.StaticRoute
