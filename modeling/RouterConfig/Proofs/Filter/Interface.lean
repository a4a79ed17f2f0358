import Mathlib.Data.List.Nodup
import RouterConfig.Proofs.Commands.Filters
import RouterConfig.Proofs.Filter.Binding
import RouterConfig.Proofs.Stanza.TopLevel

/-!
# Filters on interfaces come back

A record is written as one line for each direction that it binds, and the lines of all
records are read in one pass.  Each line says one thing, an *entry*: which direction of which
interface has which filters.  It says so also when there are no filters, since the line is
there, and that is how a direction without filters is told from one that is not bound.

No two entries of records with different keys are about one direction of one interface
(`pairwise_apart`), so no line is faulty and each is the only one that binds its direction.
Then the first line that binds a direction gives the record's own binding (`findSome?_binds`),
and the key of every line gives back the whole record (`collect_key`).
-/

namespace RouterConfig

open Text Rtx

/-- What is found first, when only one thing can be found. -/
theorem findSome?_eq_of_forall {α β : Type} {f : α → Option β} {l : List α} {o : Option β}
    (h : ∀ b, (∃ a ∈ l, f a = some b) ↔ o = some b) : l.findSome? f = o := by
  cases hfound : l.findSome? f with
  | none =>
    refine (Option.eq_none_iff_forall_ne_some.mpr fun b hb => ?_).symm
    obtain ⟨a, ha, hf⟩ := (h b).mpr hb
    rw [List.findSome?_eq_none_iff.mp hfound a ha] at hf
    cases hf
  | some b => exact ((h b).mp (List.exists_of_findSome?_eq_some hfound)).symm

namespace InterfaceFilters

/-! ## Taking a line apart -/

/-- A name of an interface is cut out from between the fixed texts of a line. -/
theorem splitInterface?_of_toList {lead middle text interface behind : String}
    (hinterface : IsWord interface) (hmiddle : middle.toList.head? = some ' ')
    (htext : text.toList =
      lead.toList ++ (interface.toList ++ (middle.toList ++ behind.toList))) :
    splitInterface? lead middle text = some (interface, behind) := by
  obtain ⟨hne, hblank⟩ := isWord_iff.mp hinterface
  have hlead : afterLead? lead text =
      some (String.ofList (interface.toList ++ (middle.toList ++ behind.toList))) := by
    refine afterLead?_of_toList ?_
    rw [htext, String.toList_ofList]
  have hword : (interface.toList ++ (middle.toList ++ behind.toList)).takeWhile
      (fun c => !isBlank c) = interface.toList := by
    obtain ⟨rest, hrest⟩ := List.head?_eq_some_iff.mp hmiddle
    rw [List.takeWhile_append_of_pos fun c hc => by rw [hblank c hc]; rfl, hrest,
      List.cons_append, List.takeWhile_cons_of_neg (by simp), List.append_nil]
  have hguard : (guard ((!interface.toList.isEmpty) = true) : Option Unit) = some () := by
    refine if_pos ?_
    rw [Bool.not_eq_true', List.isEmpty_eq_false_iff]
    exact hne
  have hbehind : afterLead? middle (String.ofList (middle.toList ++ behind.toList)) =
      some behind :=
    afterLead?_of_toList String.toList_ofList
  rw [splitInterface?, hlead, Option.bind_eq_bind, Option.bind_some, String.toList_ofList, hword]
  show ((guard ((!interface.toList.isEmpty) = true) : Option Unit) >>= fun _ =>
    afterLead? middle (String.ofList ((interface.toList ++ (middle.toList ++ behind.toList)).drop
      interface.toList.length)) >>= fun behind => pure (String.ofList interface.toList, behind)) = _
  rw [hguard, List.drop_left, hbehind, String.ofList_toList]
  rfl

theorem splitInterface?_of_apart {lead front middle text : String} {rest : List Char}
    (h : Apart lead front) (htext : text.toList = front.toList ++ rest) :
    splitInterface? lead middle text = none := by
  rw [splitInterface?, afterLead?_of_apart h htext]
  rfl

/-- The direction is the first word behind the fixed text. -/
theorem firstWord?_binding (d : Direction) (b : FilterBinding) :
    firstWord? (phrase (d.word :: b.words)) = some (d.word, phrase b.words) := by
  have hdirection : IsWord d.word := by
    cases d <;> decide
  cases hwords : b.words with
  | nil => cases d <;> decide
  | cons w ws =>
    refine firstWord?_phrase hdirection (endsLine_phrase (List.cons_ne_nil _ _) ?_).1
    rw [← hwords]
    exact fun v hv => (FilterBinding.isWord_of_mem_words hv).1

theorem splitDirection?_binding (d : Direction) (b : FilterBinding) {text : String}
    (htext : text.toList = ' ' :: (phrase (d.word :: b.words)).toList) :
    splitDirection? text = some (d.word, phrase b.words) := by
  rw [splitDirection?, htext]
  simp only [String.ofList_toList, firstWord?_binding]
  cases d <;> rfl

/-- The text of a line about addresses. -/
theorem toList_secure (lead interface : String) (d : Direction) (b : FilterBinding) :
    (phrase ([lead, interface, "secure", "filter"] ++ d.word :: b.words)).toList =
      (lead ++ " ").toList ++ (interface.toList ++
        (" secure filter".toList ++ ' ' :: (phrase (d.word :: b.words)).toList)) := by
  simp only [List.cons_append, List.nil_append, toList_phrase_cut, String.toList_append,
    List.append_assoc]
  rfl

/-- A line about addresses is taken apart. -/
theorem splitSecure?_of_toList (family : FilterFamily) {lead text interface : String}
    (hinterface : IsWord interface) (d : Direction) (b : FilterBinding)
    (htext : text.toList = lead.toList ++ (interface.toList ++
      (" secure filter".toList ++ ' ' :: (phrase (d.word :: b.words)).toList))) :
    splitSecure? family lead text = some ⟨(family, interface), d.word, phrase b.words⟩ := by
  have hbehind : (" " ++ phrase (d.word :: b.words)).toList =
      ' ' :: (phrase (d.word :: b.words)).toList := by
    rw [String.toList_append]
    rfl
  rw [← hbehind] at htext
  rw [splitSecure?, splitInterface?_of_toList hinterface rfl htext]
  show (splitDirection? (" " ++ phrase (d.word :: b.words)) >>= _) = _
  rw [splitDirection?_binding d b hbehind]
  rfl

/-- A line about frames is taken apart. -/
theorem splitEthernet?_of_toList {text interface : String} (hinterface : IsWord interface)
    (d : Direction) (b : FilterBinding)
    (htext : text.toList = "ethernet ".toList ++ (interface.toList ++
      (" filter ".toList ++ (phrase (d.word :: b.words)).toList))) :
    splitEthernet? text = some ⟨(.ethernet, interface), d.word, phrase b.words⟩ := by
  rw [splitEthernet?, splitInterface?_of_toList hinterface rfl htext]
  show (firstWord? (phrase (d.word :: b.words)) >>= _) = _
  rw [firstWord?_binding]
  cases d <;> rfl

theorem splitSecure?_of_apart (family : FilterFamily) {lead front text : String}
    {rest : List Char} (h : Apart lead front) (htext : text.toList = front.toList ++ rest) :
    splitSecure? family lead text = none := by
  rw [splitSecure?, splitInterface?_of_apart h htext]
  rfl

/-- **A line is taken apart** into its key, its direction and the rest. -/
theorem split?_phrase {key : Key} (hinterface : IsWord key.2) (htunnel : key.2 ≠ "tunnel")
    (hpp : key.2 ≠ "pp") (d : Direction) (b : FilterBinding) :
    split? (phrase (leadWords key ++ d.word :: b.words)) =
      some ⟨key, d.word, phrase b.words⟩ := by
  obtain ⟨family, interface⟩ := key
  have hown : ¬ (interface = "tunnel" || interface = "pp") = true := by
    simp [htunnel, hpp]
  cases family with
  | ip =>
    have hsplit : splitSecure? .ip "ip "
        (phrase (["ip", interface, "secure", "filter"] ++ d.word :: b.words)) =
          some ⟨(.ip, interface), d.word, phrase b.words⟩ :=
      splitSecure?_of_toList .ip hinterface d b (toList_secure "ip" interface d b)
    rw [split?, leadWords, hsplit]
    exact if_neg hown
  | ipv6 =>
    have htext := toList_secure "ipv6" interface d b
    have hsplit : splitSecure? .ipv6 "ipv6 "
        (phrase (["ipv6", interface, "secure", "filter"] ++ d.word :: b.words)) =
          some ⟨(.ipv6, interface), d.word, phrase b.words⟩ :=
      splitSecure?_of_toList .ipv6 hinterface d b htext
    rw [split?, leadWords, splitSecure?_of_apart .ip (by decide) htext, hsplit]
    exact if_neg hown
  | ethernet =>
    have htext : (phrase (["ethernet", interface, "filter"] ++ d.word :: b.words)).toList =
        "ethernet ".toList ++ (interface.toList ++
          (" filter ".toList ++ (phrase (d.word :: b.words)).toList)) := by
      simp only [List.cons_append, List.nil_append, toList_phrase_cut]
      rfl
    rw [split?, leadWords, splitSecure?_of_apart .ip (by decide) htext,
      splitSecure?_of_apart .ipv6 (by decide) htext]
    exact splitEthernet?_of_toList hinterface d b htext

/-- A line is read as the direction and the filters that it was written for. -/
theorem read_bindingLine (key : Key) (d : Direction) (b : FilterBinding) :
    (BindingLine.mk key d.word (phrase b.words)).read = .ok (d, b) := by
  rw [BindingLine.read, Direction.read_word, ok_bind, ← FilterBinding.render,
    FilterBinding.read_render]
  rfl

/-! ## Entries -/

/-- What one line says: a direction of an interface, and the filters bound to it. -/
abbrev Entry := Key × Direction × FilterBinding

/-- The line of an entry. -/
def Entry.command (e : Entry) : String :=
  e.2.2.command (leadWords e.1) e.2.1

/-- What is read from the line, apart from the line itself. -/
def Entry.content (e : Entry) : Key × Except LineFault (Direction × FilterBinding) :=
  (e.1, .ok e.2)

/-- What was read from a line, apart from the line itself. -/
def Reading.bare (x : Reading) : Key × Except LineFault (Direction × FilterBinding) :=
  (x.key, x.content)

theorem Entry.content_injective : Function.Injective Entry.content := by
  rintro ⟨key, bound⟩ ⟨otherKey, otherBound⟩ h
  cases h
  rfl

/-- The entries of a record, one for each direction that it binds. -/
def entries (r : InterfaceFilters) : List Entry :=
  r.bindings.map fun b => (r.key, b)

theorem mem_entries_iff {r : InterfaceFilters} {key : Key} {d : Direction} {b : FilterBinding} :
    (key, d, b) ∈ r.entries ↔ r.key = key ∧ r.binding? d = some b := by
  cases d <;> simp [entries, bindings, binding?, and_comm]

/-- Records of one interface with the same bindings are one record. -/
theorem eq_of_binding?_eq {r s : InterfaceFilters} (hkey : r.key = s.key)
    (h : ∀ d, r.binding? d = s.binding? d) : r = s := by
  obtain ⟨family, interface, inbound, outbound⟩ := r
  obtain ⟨hfamily, hinterface⟩ := Prod.mk.inj hkey
  have hin : inbound = s.inbound := h .inbound
  have hout : outbound = s.outbound := h .outbound
  rw [show family = s.family from hfamily, show interface = s.interface from hinterface, hin, hout]

/-- The entries are about different interfaces or different directions. -/
def Entry.Apart (e f : Entry) : Prop :=
  ¬ (e.1 = f.1 ∧ e.2.1 = f.2.1)

/-- A record binds each direction once. -/
theorem pairwise_apart_entries (r : InterfaceFilters) : r.entries.Pairwise Entry.Apart := by
  rw [entries, bindings]
  cases r.inbound <;> cases r.outbound <;> simp [Entry.Apart]

/-- **Entries of records with different keys are apart.** -/
theorem pairwise_apart {rs : List InterfaceFilters} (hkeys : (rs.map key).Nodup) :
    (rs.flatMap entries).Pairwise Entry.Apart := by
  rw [List.pairwise_flatMap]
  refine ⟨fun r _ => pairwise_apart_entries r, ?_⟩
  have hne : rs.Pairwise fun r s => r.key ≠ s.key := List.pairwise_map.mp hkeys
  refine hne.imp fun {r s} hrs e he f hf hsame => ?_
  have hr := (mem_entries_iff.mp he).1
  have hs := (mem_entries_iff.mp hf).1
  exact hrs (hr.trans (hsame.1.trans hs.symm))

/-! ## Reading the lines -/

/-- **The lines of valid records** are read as their entries. -/
theorem map_bare_readings {rs : List InterfaceFilters} (hvalid : ∀ r ∈ rs, validate r = none)
    {lines : List Line} (hlines : lines.map Line.text = (rs.flatMap entries).map Entry.command) :
    (readings lines).map Reading.bare = (rs.flatMap entries).map Entry.content := by
  have hread : ∀ e ∈ rs.flatMap entries,
      ((split? e.command).map fun l => (l.key, l.read)) = some e.content := by
    rintro ⟨key, d, b⟩ hmem
    obtain ⟨r, hr, he⟩ := List.mem_flatMap.mp hmem
    obtain ⟨rfl, -⟩ := mem_entries_iff.mp he
    have hrules := firstBroken_eq_none_iff.mp (hvalid r hr)
    simp only [rules, List.forall_mem_append, List.forall_mem_cons,
      Rule.oneWord_eq_none_iff_isWord, Rule.demand_eq_none_iff, Bool.and_eq_true, bne_iff_ne,
      ne_eq] at hrules
    obtain ⟨⟨hinterface, ⟨htunnel, hpp⟩, -⟩, -⟩ := hrules
    rw [Entry.command, FilterBinding.command, split?_phrase hinterface htunnel hpp,
      Option.map_some, read_bindingLine]
    rfl
  calc (readings lines).map Reading.bare
      = (lines.map Line.text).filterMap fun text =>
          (split? text).map fun l => (l.key, l.read) := by
        rw [readings, List.map_filterMap, List.filterMap_map]
        simp only [Option.map_map]
        rfl
    _ = (rs.flatMap entries).filterMap fun e => some e.content := by
        rw [hlines, List.filterMap_map]
        exact List.filterMap_congr hread
    _ = (rs.flatMap entries).map Entry.content :=
        congrFun List.filterMap_eq_map' (rs.flatMap entries)

theorem binds_eq_some_iff {x : Reading} {key : Key} {d : Direction} {b : FilterBinding} :
    x.binds key d = some b ↔ x.bare = Entry.content (key, d, b) := by
  obtain ⟨line, own, content⟩ := x
  cases content with
  | error fault => simp [Reading.binds, Reading.bare, Entry.content]
  | ok bound =>
    obtain ⟨e, c⟩ := bound
    simp [Reading.binds, Reading.bare, Entry.content, and_assoc]

section Collect

variable {rs : List InterfaceFilters} {xs : List Reading}

/-- **No line is faulty** when no two entries are about the same. -/
theorem faults_eq_nil {es : List Entry} (hapart : es.Pairwise Entry.Apart)
    (hxs : xs.map Reading.bare = es.map Entry.content) : faults xs = [] := by
  refine List.filterMap_eq_nil_iff.mpr fun p hp => ?_
  obtain ⟨⟨key, d, b⟩, hown, hearlier⟩ := exists_rel_of_mem_withEarlier hxs hapart hp
  obtain ⟨hkey, hcontent⟩ := Prod.mk.inj hown
  have hnone : (p.1.any fun x => (x.binds p.2.key d).isSome) = false := by
    rw [List.any_eq_false]
    intro x hx hbinds
    obtain ⟨c, hc⟩ := Option.isSome_iff_exists.mp hbinds
    obtain ⟨e, he, hdiffer⟩ := hearlier x hx
    obtain rfl : e = (p.2.key, d, c) :=
      Entry.content_injective (he.symm.trans (binds_eq_some_iff.mp hc))
    exact hdiffer ⟨hkey, rfl⟩
  rw [Reading.fault?, hcontent]
  simp only [hnone]
  rfl

/-- **The first line that binds a direction** binds it to the filters of the record. -/
theorem findSome?_binds (hkeys : (rs.map key).Nodup)
    (hxs : xs.map Reading.bare = (rs.flatMap entries).map Entry.content) {r : InterfaceFilters}
    (hr : r ∈ rs) (d : Direction) : xs.findSome? (fun x => x.binds r.key d) = r.binding? d := by
  refine findSome?_eq_of_forall fun b => ?_
  have hbinds : (∃ x ∈ xs, x.binds r.key d = some b) ↔
      Entry.content (r.key, d, b) ∈ xs.map Reading.bare := by
    rw [List.mem_map]
    exact exists_congr fun x => and_congr_right fun _ => binds_eq_some_iff
  rw [hbinds, hxs, List.mem_map_of_injective Entry.content_injective, List.mem_flatMap]
  constructor
  · -- an entry of this key is one of `r` itself
    rintro ⟨s, hs, hmem⟩
    obtain ⟨hkey, hbinding⟩ := mem_entries_iff.mp hmem
    rwa [← List.inj_on_of_nodup_map hkeys hs hr hkey]
  · exact fun hbinding => ⟨r, hr, mem_entries_iff.mpr ⟨rfl, hbinding⟩⟩

/-- **The lines of a record give back the record.** -/
theorem collect_key (hkeys : (rs.map key).Nodup)
    (hxs : xs.map Reading.bare = (rs.flatMap entries).map Entry.content) {r : InterfaceFilters}
    (hr : r ∈ rs) : collect xs r.key = r := by
  rw [collect, findSome?_binds hkeys hxs hr, findSome?_binds hkeys hxs hr]
  rfl

/-- **The records of the interfaces** are the records, each once and in order. -/
theorem map_collect_firstOfEach (hkeys : (rs.map key).Nodup) (hbound : ∀ r ∈ rs, r.bindings ≠ [])
    (hxs : xs.map Reading.bare = (rs.flatMap entries).map Entry.content) :
    (firstOfEach Reading.key xs).map (fun x => collect xs x.key) = rs := by
  -- each line gives the record that it belongs to, so a record comes once for each binding
  have hcollected : xs.map (fun x => collect xs x.key) =
      rs.flatMap fun r => r.bindings.map fun _ => r := by
    calc xs.map (fun x => collect xs x.key)
        = (xs.map Reading.bare).map fun c => collect xs c.1 := by
          rw [List.map_map]
          rfl
      _ = rs.flatMap fun r => r.entries.map fun e => collect xs e.1 := by
          rw [hxs, List.map_map, List.map_flatMap]
          rfl
      _ = rs.flatMap fun r => r.bindings.map fun _ => r := by
          refine List.flatMap_congr fun r hr => ?_
          rw [entries, List.map_map]
          exact List.map_congr_left fun b _ => collect_key hkeys hxs hr
  have hfirst := map_firstOfEach key (fun x : Reading => collect xs x.key) xs
  rw [hcollected] at hfirst
  refine hfirst.trans (firstOfEach_flatMap hkeys (fun r hr => ?_) fun r _ s hs => ?_)
  · exact mt List.map_eq_nil_iff.mp (hbound r hr)
  · obtain ⟨-, -, rfl⟩ := List.mem_map.mp hs
    rfl

/-- Lines that are read as the entries of records give the records. -/
theorem decodeLines_of_readings (hkeys : (rs.map key).Nodup)
    (hvalid : ∀ r ∈ rs, validate r = none) (hbound : ∀ r ∈ rs, r.bindings ≠ [])
    {lines : List Line}
    (hxs : (readings lines).map Reading.bare = (rs.flatMap entries).map Entry.content) :
    decodeLines lines = ⟨rs, []⟩ := by
  have hfaults : faults (readings lines) = [] := faults_eq_nil (pairwise_apart hkeys) hxs
  have hreadable : readable (readings lines) = readings lines := by
    refine List.filter_eq_self.mpr fun x hx => ?_
    obtain ⟨e, -, he⟩ := List.mem_map.mp (hxs ▸ List.mem_map_of_mem hx)
    rw [← (Prod.mk.inj he).2]
    rfl
  rw [decodeLines]
  simp only [hfaults, hreadable, List.contains_nil, Bool.not_false, List.filter_true,
    List.map_nil, Decoded.concat_nil]
  exact Decoded.concat_checked_of_none (map_collect_firstOfEach hkeys hbound hxs) hvalid

end Collect

/-! ## Records that come back -/

/-- The first word of a line is known, and selects nothing. -/
theorem exists_leadWords (key : Key) : ∃ w v ws, leadWords key = w :: v :: ws ∧
    w ∈ commandStarts ∧ w ≠ tunnelKind ∧ w ≠ ppKind := by
  obtain ⟨family, interface⟩ := key
  cases family with
  | ip => exact ⟨_, _, _, rfl, by decide⟩
  | ipv6 => exact ⟨_, _, _, rfl, by decide⟩
  | ethernet => exact ⟨_, _, _, rfl, by decide⟩

/-- **Filters on interfaces come back**, several interfaces at once, when no two records are
about one and each binds a direction.  Each is what it was and in its place: a direction that
is not bound stays so, and one that is bound to no filters is bound to none. -/
theorem interface_filters_come_back {rs : List InterfaceFilters}
    (hidentities : (rs.map Reconcilable.identity).Nodup) (hvalid : ∀ r ∈ rs, validate r = none)
    (hbound : ∀ r ∈ rs, r.inbound.isSome ∨ r.outbound.isSome) : ReadsBack rs ⟨rs, []⟩ := by
  have hencode : rs.mapM (fun r => Feature.encode r .set) =
      .ok (rs.map fun r => r.entries.map Entry.command) := by
    refine mapM_eq_ok_map fun r hr => ?_
    rw [entries, List.map_map]
    exact provided_of_none (hvalid r hr) _
  have hprinted : (rs.map fun r => r.entries.map Entry.command).flatten =
      (rs.flatMap entries).map Entry.command := by
    rw [← List.flatMap_def, List.map_flatMap]
  have hbindings : ∀ r ∈ rs, r.bindings ≠ [] := by
    intro r hr hnil
    obtain ⟨hin, hout⟩ := List.append_eq_nil_iff.mp hnil
    rcases hbound r hr with h | h
    · obtain ⟨b, hb⟩ := Option.isSome_iff_exists.mp h
      simp [hb] at hin
    · obtain ⟨b, hb⟩ := Option.isSome_iff_exists.mp h
      simp [hb] at hout
  refine readsBack_of_phrases (fun _ => rfl) hencode (fun c hc => ?_) fun lines hlines => ?_
  · rw [hprinted] at hc
    obtain ⟨⟨key, d, b⟩, he, rfl⟩ := List.mem_map.mp hc
    obtain ⟨r, hr, hmem⟩ := List.mem_flatMap.mp he
    obtain ⟨rfl, -⟩ := mem_entries_iff.mp hmem
    obtain ⟨w, v, ws, hlead, hstarts⟩ := exists_leadWords r.key
    have hline := lineOf_words (hvalid r hr) d b
    rw [hlead] at hline
    rw [Entry.command, FilterBinding.command, hlead]
    exact ⟨w, v, _, rfl, hstarts, hline⟩
  · exact decodeLines_of_readings hidentities hvalid hbindings
      (map_bare_readings hvalid (hlines.trans hprinted))

/-- Directions in every state: not bound, bound to nothing, and bound to filters of one kind
or of both.  One name of an interface occurs in each family. -/
def everyState : List InterfaceFilters :=
  [{ family := .ip, interface := "lan1", inbound := some .empty },
    { family := .ipv6, interface := "lan1", inbound := some ⟨[1, 2], []⟩,
      outbound := some ⟨[], [3]⟩ },
    { family := .ethernet, interface := "lan1", outbound := some ⟨[100], []⟩ },
    { family := .ip, interface := "lan2", inbound := some ⟨[1], [2, 3]⟩,
      outbound := some .empty }]

/-- They come back. -/
theorem interface_filters_come_back_everyState :
    ((everyState.map Reconcilable.identity).Nodup ∧ (∀ r ∈ everyState, validate r = none) ∧
      ∀ r ∈ everyState, r.inbound.isSome ∨ r.outbound.isSome) ∧
      ReadsBack everyState ⟨everyState, []⟩ := by
  have hidentities : (everyState.map Reconcilable.identity).Nodup := by decide
  have hvalid : ∀ r ∈ everyState, validate r = none := by decide
  have hbound : ∀ r ∈ everyState, r.inbound.isSome ∨ r.outbound.isSome := by decide
  exact ⟨⟨hidentities, hvalid, hbound⟩,
    interface_filters_come_back hidentities hvalid hbound⟩

end InterfaceFilters

end RouterConfig
