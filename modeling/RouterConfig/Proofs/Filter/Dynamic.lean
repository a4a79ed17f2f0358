import RouterConfig.Proofs.Filter.Static

/-!
# Dynamic filters come back

The lists of a dynamic filter have no marks at their ends.  A list goes on as long as there
are numbers; the keyword of a direction that was not there before opens the next one, and any
other word closes the last.  What can follow the lists are options, and no option is a number
or a keyword (`EndsLists`), so the lists are read back whole (`readRule_words`).  A word that
stands for a protocol is read in another place, and may well be one of the keywords.

So nothing is lost when dynamic filters are written, not even which ones come twice, and
there is no condition on them but that each breaks no rule.
-/

namespace RouterConfig

open Text Rtx

namespace DynamicFilter

/-! ## Reading the lists -/

/-- The words for the list of a direction. -/
def directionWords (keyword : String) : Option (List UInt32) → List String
  | none => []
  | some numbers => keyword :: numbers.map numeral

theorem words_filters (watched : List UInt32) (inbound outbound : Option (List UInt32)) :
    (DynamicRule.filters watched inbound outbound).words =
      "filter" :: (watched.map numeral ++
        (directionWords "in" inbound ++ directionWords "out" outbound)) := by
  cases inbound <;> cases outbound <;> simp [DynamicRule.words, directionWords]

/-- The first of the words is neither a number nor the keyword of a direction. -/
def EndsLists (ws : List String) : Prop :=
  ∀ w ∈ ws.head?, w ≠ "in" ∧ w ≠ "out" ∧ w.toList.head?.any isDigit = false

/-- The lists end where they should. -/
theorem readLists_of_endsLists {ws : List String} (h : EndsLists ws) (part : Section)
    (lists : FilterLists) : readLists part lists ws = .ok (lists, ws) := by
  cases ws with
  | nil => rfl
  | cons w ws =>
    obtain ⟨hin, hout, hdigit⟩ := h w rfl
    simp [readLists, hin, hout, hdigit]

/-- A number goes behind the list that is being read. -/
theorem readLists_numeral (part : Section) (lists : FilterLists) (n : UInt32)
    (ws : List String) :
    readLists part lists (numeral n :: ws) = readLists part (lists.push part n) ws := by
  have hin : numeral n ≠ "in" := numeral_ne (by decide) n
  have hout : numeral n ≠ "out" := numeral_ne (by decide) n
  obtain ⟨c, hc, hdigit⟩ := head?_numeral n
  rw [readLists, readNumber_numeral, hc]
  simp [hin, hout, hdigit]

/-- There is a list for the section. -/
def HasList (lists : FilterLists) : Section → Prop
  | .watched => True
  | .inbound => lists.inbound.isSome
  | .outbound => lists.outbound.isSome

/-- Numbers are put behind the list of a section. -/
def pushAll (lists : FilterLists) (part : Section) (numbers : List UInt32) : FilterLists :=
  match part with
  | .watched => { lists with watched := lists.watched ++ numbers }
  | .inbound => { lists with inbound := some (lists.inbound.getD [] ++ numbers) }
  | .outbound => { lists with outbound := some (lists.outbound.getD [] ++ numbers) }

theorem pushAll_nil {lists : FilterLists} {part : Section} (h : HasList lists part) :
    pushAll lists part [] = lists := by
  obtain ⟨watched, inbound, outbound⟩ := lists
  cases part with
  | watched => simp [pushAll]
  | inbound =>
    obtain ⟨numbers, rfl⟩ := Option.isSome_iff_exists.mp h
    simp [pushAll]
  | outbound =>
    obtain ⟨numbers, rfl⟩ := Option.isSome_iff_exists.mp h
    simp [pushAll]

theorem pushAll_push (lists : FilterLists) (part : Section) (n : UInt32) (numbers : List UInt32) :
    pushAll (lists.push part n) part numbers = pushAll lists part (n :: numbers) := by
  cases part <;> simp [pushAll, FilterLists.push]

/-- Numbers are read in order. -/
theorem readLists_numerals {part : Section} {lists : FilterLists} (h : HasList lists part)
    (numbers : List UInt32) (ws : List String) :
    readLists part lists (numbers.map numeral ++ ws) =
      readLists part (pushAll lists part numbers) ws := by
  induction numbers generalizing lists with
  | nil => rw [pushAll_nil h, List.map_nil, List.nil_append]
  | cons n numbers ih =>
    have hpush : HasList (lists.push part n) part := by
      cases part <;> simp [HasList, FilterLists.push]
    rw [List.map_cons, List.cons_append, readLists_numeral, ih hpush, pushAll_push]

/-- The list for one direction is read, if there was none before. -/
theorem readLists_inbound (part : Section) (watched : List UInt32)
    (inbound outbound : Option (List UInt32)) (ws : List String) :
    ∃ next, readLists part ⟨watched, none, outbound⟩ (directionWords "in" inbound ++ ws) =
      readLists next ⟨watched, inbound, outbound⟩ ws := by
  cases inbound with
  | none => exact ⟨part, rfl⟩
  | some numbers =>
    have hopen : HasList ⟨watched, some [], outbound⟩ .inbound := rfl
    refine ⟨.inbound, ?_⟩
    rw [directionWords, List.cons_append, readLists, if_pos (by simp), readLists_numerals hopen]
    rfl

/-- So is the list for the other direction. -/
theorem readLists_outbound (part : Section) (watched : List UInt32)
    (inbound outbound : Option (List UInt32)) (ws : List String) :
    ∃ next, readLists part ⟨watched, inbound, none⟩ (directionWords "out" outbound ++ ws) =
      readLists next ⟨watched, inbound, outbound⟩ ws := by
  cases outbound with
  | none => exact ⟨part, rfl⟩
  | some numbers =>
    have hopen : HasList ⟨watched, inbound, some []⟩ .outbound := rfl
    refine ⟨.outbound, ?_⟩
    rw [directionWords, List.cons_append, readLists, if_neg (by simp), if_pos (by simp),
      readLists_numerals hopen]
    rfl

/-- **The lists are read back**, up to the word that ends them. -/
theorem readLists_words (watched : List UInt32) (inbound outbound : Option (List UInt32))
    {ws : List String} (hws : EndsLists ws) :
    readLists .watched {} (watched.map numeral ++
      (directionWords "in" inbound ++ (directionWords "out" outbound ++ ws))) =
        .ok (⟨watched, inbound, outbound⟩, ws) := by
  have hopen : HasList {} .watched := trivial
  obtain ⟨behind, hinbound⟩ :=
    readLists_inbound .watched watched inbound none (directionWords "out" outbound ++ ws)
  obtain ⟨last, houtbound⟩ := readLists_outbound behind watched inbound outbound ws
  rw [readLists_numerals hopen, pushAll, List.nil_append, hinbound, houtbound,
    readLists_of_endsLists hws]

/-! ## Reading the words after the number -/

/-- **A rule is read back**, and so is where it ends. -/
theorem readRule_words {rule : DynamicRule} (h : ∀ broken ∈ ruleRules rule, broken = none)
    {ws : List String} (hws : EndsLists ws) : readRule (rule.words ++ ws) = .ok (rule, ws) := by
  cases rule with
  | protocol name =>
    have hname := h _ (List.mem_cons_self ..)
    rw [Rule.demand_eq_none_iff] at hname
    -- the keyword of the other form is no name of a protocol
    have hkeyword : name ≠ "filter" := by
      rintro rfl
      exact absurd hname (by decide)
    rw [DynamicRule.words, List.singleton_append, readRule, if_neg hkeyword, if_pos hname]
  | filters watched inbound outbound =>
    simp only [ruleRules, List.forall_mem_cons, Rule.demand_eq_none_iff, Bool.not_eq_true',
      bne_iff_ne, List.not_mem_nil, false_implies, implies_true, and_true] at h
    obtain ⟨hwatched, hinbound, houtbound⟩ := h
    rw [words_filters, List.cons_append, List.append_assoc, List.append_assoc, readRule,
      if_pos rfl, readLists_words watched inbound outbound hws]
    rw [List.isEmpty_eq_false_iff] at hwatched
    simp [hwatched, hinbound, houtbound]

/-- Options end the lists in front of them. -/
theorem endsLists_optionWords (f : DynamicFilter) : EndsLists f.optionWords := by
  have hsyslog : ∀ ws, EndsLists ("syslog" :: ws) := by
    rintro ws _ ⟨⟩
    decide
  have htimeout : ∀ word, EndsLists ["timeout=" ++ word] := by
    rintro word _ ⟨⟩
    have hhead : ("timeout=" ++ word).toList.head? = some 't' := by
      rw [String.toList_append]
      rfl
    refine ⟨fun h => ?_, fun h => ?_, by rw [hhead]; rfl⟩
    · rw [h] at hhead
      cases hhead
    · rw [h] at hhead
      cases hhead
  rw [optionWords]
  cases f.syslog with
  | some value => exact hsyslog _
  | none =>
    cases f.timeout with
    | some seconds => exact htimeout _
    | none => rintro _ ⟨⟩

/-- The option for the timeout is read back. -/
theorem readOptions_timeout (f : DynamicFilter) (seconds : UInt32) :
    readOptions f ["timeout=" ++ numeral seconds] = .ok { f with timeout := some seconds } := by
  have hlead : afterLead? "timeout=" ("timeout=" ++ numeral seconds) = some (numeral seconds) :=
    afterLead?_of_toList String.toList_append
  have hkeyword : "timeout=" ++ numeral seconds ≠ "syslog" := by
    intro h
    have hnone : afterLead? "timeout=" "syslog" = none := by decide
    rw [h, hnone] at hlead
    cases hlead
  rw [readOptions, if_neg hkeyword, hlead]
  simp only [readNumber_numeral, ok_bind, readOptions]

/-- The option for the log is read back, and the others are left. -/
theorem readOptions_syslog (f : DynamicFilter) (value : Bool) (ws : List String) :
    readOptions f ("syslog" :: onOff value :: ws) =
      readOptions { f with syslog := some value } ws := by
  rw [readOptions, if_pos rfl]
  simp only [readOnOff_onOff, ok_bind]

/-- **The options are read back.** -/
theorem readOptions_optionWords (f : DynamicFilter) :
    readOptions { f with syslog := none, timeout := none } f.optionWords = .ok f := by
  obtain ⟨family, number, source, destination, rule, syslog, timeout⟩ := f
  cases syslog with
  | none =>
    cases timeout with
    | none => rfl
    | some seconds => exact readOptions_timeout _ seconds
  | some value =>
    refine (readOptions_syslog _ value _).trans ?_
    cases timeout with
    | none => rfl
    | some seconds => exact readOptions_timeout _ seconds

theorem readBody_bodyWords {f : DynamicFilter} (h : validate f = none) :
    readBody f.family f.number f.bodyWords = .ok f := by
  have hrules := firstBroken_eq_none_iff.mp h
  simp only [rules, List.forall_mem_append] at hrules
  rw [bodyWords, List.append_assoc, List.cons_append, List.cons_append, List.nil_append, readBody,
    readRule_words hrules.1.2 f.endsLists_optionWords]
  exact f.readOptions_optionWords

/-! ## Reading the lines -/

/-- A line of a dynamic filter is taken apart into its family, its number and the rest. -/
theorem split?_phrase (f : DynamicFilter) {w : String} {ws : List String}
    (hws : ∀ v ∈ w :: ws, IsWord v) :
    split? (phrase (f.leadWords ++ w :: ws)) =
      some (f.family, numeral f.number, phrase (w :: ws)) := by
  have hlead : afterLead? (f.family.word ++ " filter dynamic ")
      (phrase (f.leadWords ++ w :: ws)) = some (phrase (numeral f.number :: w :: ws)) :=
    @afterLead?_phrase _ [f.family.word, "filter", "dynamic"] (numeral f.number :: w :: ws)
      (List.cons_ne_nil _ _) (List.cons_ne_nil _ _) (by cases f.family <;> rfl)
  have hother : ∀ other : IpFamily, other ≠ f.family →
      afterLead? (other.word ++ " filter dynamic ") (phrase (f.leadWords ++ w :: ws)) = none := by
    intro other hne
    refine afterLead?_of_apart ?_ (toList_phrase_cons_cons f.family.word "filter" "dynamic"
      (numeral f.number :: w :: ws))
    cases hfamily : f.family <;> cases other <;>
      first | exact absurd hfamily.symm hne | decide
  have hfirst : firstWord? (phrase (numeral f.number :: w :: ws)) =
      some (numeral f.number, phrase (w :: ws)) :=
    firstWord?_phrase (isWord_numeral f.number) (endsLine_phrase (List.cons_ne_nil _ _) hws).1
  have hnumber : (numeral f.number != "") = true := by
    rw [bne_iff_ne]
    exact (isWord_numeral f.number).1
  refine (IpFamily.findSome?_lead hlead hother _).trans ?_
  rw [hfirst]
  show ((guard ((numeral f.number != "") = true) : Option Unit) >>= fun _ =>
    some (f.family, numeral f.number, phrase (w :: ws))) = _
  rw [hnumber]
  rfl

/-- **A valid filter is decoded from its line.** -/
theorem decodeLine_phrase {f : DynamicFilter} (h : validate f = none) {line : Line}
    (htext : line.text = phrase (f.leadWords ++ f.bodyWords)) : decodeLine line = .single f := by
  have hwords : ∀ w ∈ f.bodyWords, IsWord w :=
    fun w hw => isWord_of_mem_words h w (List.mem_append_right _ hw)
  have hsplit : split? line.text = some (f.family, numeral f.number, phrase f.bodyWords) := by
    rw [htext]
    exact f.split?_phrase hwords
  have hread : readParts f.family (numeral f.number) (phrase f.bodyWords) = .ok f := by
    rw [readParts, readNumber_numeral, ok_bind, wordsOf_phrase hwords, readBody_bodyWords h]
  rw [decodeLine, hsplit]
  dsimp only
  rw [hread]
  exact Decoded.checked_of_none h

/-- The lines of valid filters are decoded one by one. -/
theorem decodeLines_phrases {fs : List DynamicFilter} (h : ∀ f ∈ fs, validate f = none)
    {lines : List Line}
    (hlines : lines.map Line.text = fs.map fun f => phrase (f.leadWords ++ f.bodyWords)) :
    decodeLines lines = ⟨fs, []⟩ := by
  have hmap : lines.map decodeLine = fs.map .single := by
    induction fs generalizing lines with
    | nil => rw [List.map_eq_nil_iff.mp hlines, List.map_nil, List.map_nil]
    | cons f fs ih =>
      obtain ⟨line, rest, rfl, htext, hrest⟩ := List.map_eq_cons_iff.mp hlines
      obtain ⟨hf, hfs⟩ := List.forall_mem_cons.mp h
      rw [List.map_cons, List.map_cons, decodeLine_phrase hf htext, ih hfs hrest]
  rw [decodeLines, hmap, Decoded.concat_map_single]

/-! ## Filters that come back -/

/-- No word of a rule holds a continuation marker. -/
theorem marker_not_mem_ruleWords {rule : DynamicRule}
    (h : ∀ broken ∈ ruleRules rule, broken = none) : ∀ w ∈ rule.words, marker ∉ w.toList := by
  have hnumbers : ∀ numbers : List UInt32, ∀ w ∈ numbers.map numeral, marker ∉ w.toList :=
    fun numbers => List.forall_mem_map.mpr fun n _ => marker_not_mem_numeral n
  have hdirection : ∀ keyword : String, marker ∉ keyword.toList → ∀ numbers,
      ∀ w ∈ directionWords keyword numbers, marker ∉ w.toList := by
    intro keyword hkeyword numbers
    cases numbers with
    | none => simp [directionWords]
    | some numbers => exact List.forall_mem_cons.mpr ⟨hkeyword, hnumbers numbers⟩
  cases rule with
  | protocol name =>
    have hname := h _ (List.mem_cons_self ..)
    simp only [Rule.demand_eq_none_iff, isProtocolName, Bool.or_eq_true, Bool.and_eq_true,
      beq_iff_eq] at hname
    rw [DynamicRule.words, List.forall_mem_singleton]
    rcases hname with rfl | ⟨-, hall⟩
    · decide
    · intro hmarker
      exact absurd (List.all_eq_true.mp hall marker hmarker) (by decide)
  | filters watched inbound outbound =>
    rw [words_filters, List.forall_mem_cons, List.forall_mem_append, List.forall_mem_append]
    exact ⟨by decide, hnumbers watched, hdirection "in" (by decide) inbound,
      hdirection "out" (by decide) outbound⟩

/-- No word of the options holds one either. -/
theorem marker_not_mem_optionWords (f : DynamicFilter) :
    ∀ w ∈ f.optionWords, marker ∉ w.toList := by
  rw [optionWords, List.forall_mem_append]
  constructor
  · cases f.syslog with
    | none => simp
    | some value => cases value <;> decide
  · cases f.timeout with
    | none => simp
    | some seconds =>
      rw [List.forall_mem_singleton, String.toList_append, List.mem_append, not_or]
      exact ⟨by decide, marker_not_mem_numeral seconds⟩

/-- So a command does not go on behind its last word. -/
theorem lineOf_words {f : DynamicFilter} (h : validate f = none) :
    LineOf EndsCommand (f.leadWords ++ f.bodyWords) := by
  have hrules := firstBroken_eq_none_iff.mp h
  simp only [rules, List.forall_mem_append] at hrules
  have hwords := isWord_of_mem_words h
  rw [bodyWords, List.append_assoc, ← List.append_assoc] at hwords ⊢
  rw [List.forall_mem_append] at hwords
  have hmarker : ∀ w ∈ f.rule.words ++ f.optionWords, marker ∉ w.toList :=
    List.forall_mem_append.mpr
      ⟨marker_not_mem_ruleWords hrules.1.2, f.marker_not_mem_optionWords⟩
  have hne : f.rule.words ++ f.optionWords ≠ [] := by
    cases f.rule <;> exact List.cons_ne_nil _ _
  refine (lineOf_append hne).mpr ⟨fun w hw => (hwords.1 w hw).breakFree, ?_⟩
  exact lineOf_of_isWord hne hwords.2
    fun w hw => endsCommand_of_isWord (hwords.2 w hw) (hmarker w hw)

/-- **Dynamic filters come back.**  Filters that break no rule are read back from their
commands, each as it was and as often as it was there, and no line is rejected. -/
theorem dynamic_filters_come_back {fs : List DynamicFilter} (h : ∀ f ∈ fs, validate f = none) :
    ReadsBack fs ⟨fs, []⟩ := by
  have hprinted : fs.mapM (fun f => Feature.encode f .set) =
      .ok (fs.map fun f => [phrase (f.leadWords ++ f.bodyWords)]) :=
    mapM_eq_ok_map fun f hf => provided_of_none (h f hf) _
  have hcommands : (fs.map fun f => [phrase (f.leadWords ++ f.bodyWords)]).flatten =
      fs.map fun f => phrase (f.leadWords ++ f.bodyWords) := by
    rw [← List.flatMap_def, List.map_eq_flatMap]
  refine readsBack_of_phrases (fun _ => rfl) hprinted (fun c hc => ?_) fun lines hlines => ?_
  · rw [hcommands] at hc
    obtain ⟨f, hf, rfl⟩ := List.mem_map.mp hc
    exact ⟨_, _, _, rfl, f.family.word_starts, lineOf_words (h f hf)⟩
  · exact decodeLines_phrases h (hlines.trans hcommands)

/-- Filters of every form: a protocol with the name of a keyword, lists with and without
those for the directions, and one filter twice. -/
def everyForm : List DynamicFilter :=
  [{ number := 1, source := "*", destination := "*", rule := .protocol "in",
     syslog := some false },
    { number := 2, source := "*", destination := "10.0.0.0/8", rule := .filters [1, 2] none none },
    { number := 1, source := "*", destination := "*", rule := .protocol "in",
      syslog := some false },
    { family := .ipv6, number := 3, source := "out", destination := "*",
      rule := .filters [1] (some [2, 3]) none, timeout := some 60 },
    { number := 4, source := "*", destination := "*", rule := .filters [1] none (some [2]) },
    { number := 5, source := "*", destination := "*",
      rule := .filters [1] (some [2]) (some [3, 4]), syslog := some true, timeout := some 1 }]

/-- They come back. -/
theorem dynamic_filters_come_back_everyForm :
    (∀ f ∈ everyForm, validate f = none) ∧ ReadsBack everyForm ⟨everyForm, []⟩ := by
  have hvalid : ∀ f ∈ everyForm, validate f = none := by decide
  exact ⟨hvalid, dynamic_filters_come_back hvalid⟩

end DynamicFilter

end RouterConfig
