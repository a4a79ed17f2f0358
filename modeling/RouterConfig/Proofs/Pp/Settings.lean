import RouterConfig.Proofs.Commands.Selections
import RouterConfig.Proofs.Faults
import RouterConfig.Proofs.Filter.Binding
import RouterConfig.Proofs.Text.Pieces

/-!
# Settings of a session, read and written

As with tunnels, a setting that was read from a line is *well formed*
(`wellFormed_of_read`), and a well-formed setting is written on one line and read back
from it (`readBack_of_wellFormed`).

A description has two forms, and which one a line has is told by its words, while its
text is cut off the line.  With the keyword the cut is at a fixed place, and when the
blanks in front of the keyword are wider than one space, that place need not be
behind the keyword, nor even between two characters.  Then the line cannot be read
at all, and it is the only line of which this holds (`exists_read_eq_stop_iff`).
-/

namespace RouterConfig

open Text Rtx

/-! ## Well-formed settings -/

/-- A setting with texts that stand in a command as they are.  A description without the
keyword does not look like one with it. -/
def PpSetting.WellFormed : PpSetting → Prop
  | .description d =>
    IsLine d.text.toList ∧ (d.ppKeyword = false → ∀ w ws, wordsOf d.text ≠ "pp" :: w :: ws)
  | .pppoeUse interface => IsWord interface
  | .bind interface => IsWord interface
  | .pppoeServiceName name => ∃ ws, ws ≠ [] ∧ (∀ w ∈ ws, IsWord w) ∧ name = phrase ws
  | .pppoeAcName name => ∃ ws, ws ≠ [] ∧ (∀ w ∈ ws, IsWord w) ∧ name = phrase ws
  | .authAccept methods => (methods.length = 1 ∨ methods.length = 2) ∧ ∀ w ∈ methods, IsWord w
  | .authRequest request => IsWord request.method
  | .authMyname name => IsWord name.user ∧ IsWord name.password
  | .ipAddress address => IsWord address
  | _ => True

namespace PpSetting

/-! ## Reading a line -/

theorem byteSize_description : byteSize "description".toList = descriptionWidth := by
  decide

theorem byteSize_keyword : byteSize "description pp".toList = keywordWidth := by
  decide

/-- A description with the keyword. -/
theorem read_of_keyword {text w : String} {ws : List String}
    (h : wordsOf text = "description" :: "pp" :: w :: ws) :
    read text = cutDescription text keywordWidth true := by
  rw [read, h]
  rfl

/-- A description without the keyword. -/
theorem read_of_description {text w : String} {ws : List String}
    (h : wordsOf text = "description" :: w :: ws) (hpp : ∀ v vs, w :: ws ≠ "pp" :: v :: vs) :
    read text = cutDescription text descriptionWidth false := by
  unfold read
  split
  · next v vs hkeyword =>
    rw [h] at hkeyword
    exact absurd (List.cons.inj hkeyword).2 (hpp v vs)
  · rfl
  · next _ hother => exact absurd h (hother w ws)

/-- What is not a description is read from its words. -/
theorem read_of_ne {text : String} (h : ∀ w ws, wordsOf text ≠ "description" :: w :: ws) :
    read text = refuse (readWords (wordsOf text)) := by
  unfold read
  split
  · next hwords => exact absurd hwords (h _ _)
  · next hwords => exact absurd hwords (h _ _)
  · rfl

/-- Every line is read in one of the three ways. -/
theorem read_cases (text : String) :
    (∃ w ws, wordsOf text = "description" :: "pp" :: w :: ws) ∨
      (∃ w ws, wordsOf text = "description" :: w :: ws ∧ ∀ v vs, w :: ws ≠ "pp" :: v :: vs) ∨
        ∀ w ws, wordsOf text ≠ "description" :: w :: ws := by
  by_cases hdescription : ∃ w ws, wordsOf text = "description" :: w :: ws
  · obtain ⟨w, ws, hwords⟩ := hdescription
    by_cases hpp : ∃ v vs, w :: ws = "pp" :: v :: vs
    · obtain ⟨v, vs, hkeyword⟩ := hpp
      exact Or.inl ⟨v, vs, by rw [hwords, hkeyword]⟩
    · exact Or.inr (Or.inl ⟨w, ws, hwords, fun v vs he => hpp ⟨v, vs, he⟩⟩)
  · exact Or.inr (Or.inr fun w ws hwords => hdescription ⟨w, ws, hwords⟩)

/-! ## What was read is well formed -/

variable {ws : List String} {s : PpSetting}

theorem wellFormed_of_readPppoe (hws : ∀ w ∈ ws, IsWord w) :
    readPppoe ws = .ok (some s) → s.WellFormed := by
  fun_cases readPppoe ws
  all_goals intro h
  case case2 interface =>
    cases h
    exact hws interface (by simp)
  case case5 rest hne | case7 rest hne =>
    cases h
    refine ⟨rest, ?_, fun w hw => hws w (List.mem_cons_of_mem _ hw), rfl⟩
    rintro rfl
    exact hne rfl
  all_goals cases h

theorem wellFormed_of_readAuth (hws : ∀ w ∈ ws, IsWord w) :
    readAuth ws = .ok (some s) → s.WellFormed := by
  fun_cases readAuth ws
  all_goals intro h
  case case2 first =>
    cases h
    exact ⟨Or.inl rfl, fun w hw => hws w (List.mem_cons_of_mem _ hw)⟩
  case case3 first second =>
    cases h
    exact ⟨Or.inr rfl, fun w hw => hws w (List.mem_cons_of_mem _ hw)⟩
  case case5 method | case6 method =>
    cases h
    exact hws method (by simp)
  case case8 user password =>
    cases h
    exact ⟨hws user (by simp), hws password (by simp)⟩
  all_goals cases h

theorem wellFormed_of_readSwitch {on : Bool} : readSwitch on ws = .ok (some s) → s.WellFormed := by
  fun_cases readSwitch on ws
  all_goals intro h
  all_goals cases h
  trivial

theorem wellFormed_of_readPp (hws : ∀ w ∈ ws, IsWord w) :
    readPp ws = .ok (some s) → s.WellFormed := by
  fun_cases readPp ws
  all_goals intro h
  case case2 interface =>
    cases h
    exact hws interface (by simp)
  case case4 rest => exact wellFormed_of_readAuth (fun w hw => hws w (List.mem_cons_of_mem _ hw)) h
  case case5 | case7 =>
    obtain ⟨_, -, hs⟩ := map_eq_ok_iff.mp h
    cases hs
    trivial
  case case9 | case10 => exact wellFormed_of_readSwitch h
  all_goals cases h

theorem wellFormed_of_readIp (hws : ∀ w ∈ ws, IsWord w) :
    readIp ws = .ok (some s) → s.WellFormed := by
  fun_cases readIp ws
  all_goals intro h
  case case2 address =>
    cases h
    exact hws address (by simp)
  case case4 | case7 | case9 | case11 =>
    obtain ⟨_, -, hs⟩ := map_eq_ok_iff.mp h
    cases hs
    trivial
  case case13 direction numbers =>
    obtain ⟨_, -, h⟩ := bind_eq_ok_iff.mp h
    obtain ⟨_, -, h⟩ := bind_eq_ok_iff.mp h
    cases h
    trivial
  all_goals cases h

theorem wellFormed_of_readWords (hws : ∀ w ∈ ws, IsWord w) :
    readWords ws = .ok (some s) → s.WellFormed := by
  fun_cases readWords ws
  all_goals intro h
  case case2 rest =>
    exact wellFormed_of_readPppoe (fun w hw => hws w (List.mem_cons_of_mem _ hw)) h
  case case3 rest => exact wellFormed_of_readPp (fun w hw => hws w (List.mem_cons_of_mem _ hw)) h
  case case4 rest =>
    exact wellFormed_of_readIp (fun w hw => hws w (List.mem_of_mem_drop (i := 2) hw)) h
  all_goals cases h

/-- What is cut off a line is a line, in front of which something stands. -/
theorem eq_of_cutDescription {text : String} {width : Nat} {keyword : Bool}
    (h : cutDescription text width keyword = .ok (some s)) :
    ∃ front rest, text.toList = front ++ rest.toList ∧ byteSize front = width ∧
      s = .description ⟨trimmed rest, keyword⟩ := by
  unfold cutDescription at h
  split at h
  · next rest hcut =>
    cases h
    obtain ⟨cs, hcs, rfl⟩ := Option.map_eq_some_iff.mp hcut
    obtain ⟨front, hfront, hsize⟩ := afterBytes?_eq_some_iff.mp hcs
    exact ⟨front, String.ofList cs, by rw [String.toList_ofList, hfront], hsize, rfl⟩
  · cases h

/-- **A setting that was read from a line is well formed.** -/
theorem wellFormed_of_read {text : String} (hline : IsLine text.toList)
    (h : read text = .ok (some s)) : s.WellFormed := by
  rcases read_cases text with ⟨w, ws, hwords⟩ | ⟨w, ws, hwords, hpp⟩ | hother
  · rw [read_of_keyword hwords] at h
    obtain ⟨front, rest, htext, -, rfl⟩ := eq_of_cutDescription h
    exact ⟨hline.trimmed htext, by simp⟩
  · obtain ⟨value, hvalue, hvalues, -, hcut⟩ := afterByte?_of_wordsOf hline.1 hwords
    rw [byteSize_description] at hcut
    rw [read_of_description hwords hpp, cutDescription, hcut] at h
    cases h
    refine ⟨hline.trimmed hvalue, fun _ v vs hkeyword => hpp v vs ?_⟩
    rwa [wordsOf_trimmed, hvalues] at hkeyword
  · rw [read_of_ne hother, refuse_eq_ok_iff] at h
    exact wellFormed_of_readWords (fun w hw => isWord_of_mem_wordsOf hw) h

/-! ## Where reading stops -/

/-- The text is a description with the keyword, and the blanks in front of the keyword are
so wide, and divided in such a way, that the cut is inside one of them. -/
def CutsBlank (text : String) : Prop :=
  ∃ gap rest : List Char, text.toList = "description".toList ++ gap ++ "pp".toList ++ rest ∧
    (∀ c ∈ gap, isBlank c = true) ∧ 3 < byteSize gap ∧
    (∀ front, front <+: gap → byteSize front ≠ 3) ∧ startsWord rest = false ∧
      Text.words rest ≠ []

theorem cutDescription_eq_stop_iff {text : String} {width : Nat} {keyword : Bool} :
    (∃ stop, cutDescription text width keyword = .error (.stop stop)) ↔
      ¬ AtBoundary width text.toList := by
  rw [← afterBytes?_eq_none_iff, cutDescription, afterByte?]
  cases afterBytes? width text.toList with
  | none => simp
  | some rest => simp

/-- The words of a description that is cut inside a blank. -/
theorem CutsBlank.exists_wordsOf {text : String} (h : CutsBlank text) :
    ∃ w ws, wordsOf text = "description" :: "pp" :: w :: ws := by
  obtain ⟨gap, rest, htext, hgap, hwidth, -, hrest, hne⟩ := h
  obtain ⟨w, ws, hw⟩ := List.exists_cons_of_ne_nil hne
  obtain ⟨c, blanks, rfl⟩ : ∃ c blanks, gap = c :: blanks := by
    refine List.exists_cons_of_ne_nil ?_
    rintro rfl
    exact absurd hwidth (by decide)
  obtain ⟨hc, hblanks⟩ := List.forall_mem_cons.mp hgap
  refine ⟨String.ofList w, ws.map String.ofList, ?_⟩
  have hpp : Text.words ("pp".toList ++ rest) = "pp".toList :: w :: ws := by
    rw [words_append_of_not_startsWord hrest, hw]
    rfl
  rw [wordsOf, htext, List.append_assoc, List.append_assoc, List.cons_append, words_append_blank hc,
    words_append_of_isBlank hblanks, hpp]
  rfl

/-- Where the cut behind the keyword is: it is between characters when the blanks are
narrow enough, or are divided at the right place. -/
theorem atBoundary_keywordWidth_iff {gap rest : List Char} (hne : gap ≠ []) :
    AtBoundary keywordWidth ("description".toList ++ gap ++ "pp".toList ++ rest) ↔
      byteSize gap ≤ 3 ∨ ∃ front, front <+: gap ∧ byteSize front = 3 := by
  have hwidth : byteSize "description".toList = 11 := by decide
  constructor
  · rintro ⟨front, behind, hcut, hsize⟩
    rw [keywordWidth] at hsize
    by_cases hnarrow : byteSize gap ≤ 3
    · exact Or.inl hnarrow
    · right
      rw [List.append_assoc, List.append_assoc] at hcut
      have hfront : "description".toList <+: front := by
        rcases List.prefix_or_prefix_of_prefix (List.prefix_append "description".toList _)
          ⟨behind, hcut.symm⟩ with hle | hle
        · exact hle
        · have hbytes := byteSize_le_of_prefix hle
          omega
      obtain ⟨mid, rfl⟩ := hfront
      rw [byteSize_append] at hsize
      rw [List.append_assoc] at hcut
      have hmid : gap ++ ("pp".toList ++ rest) = mid ++ behind := List.append_cancel_left hcut
      rcases List.prefix_or_prefix_of_prefix (List.prefix_append gap _) ⟨behind, hmid.symm⟩ with
        hle | hle
      · have hbytes := byteSize_le_of_prefix hle
        omega
      · exact ⟨mid, hle, by omega⟩
  · have hcut : ∀ front behind, gap ++ "pp".toList ++ rest = front ++ behind → byteSize front = 3 →
        AtBoundary keywordWidth ("description".toList ++ gap ++ "pp".toList ++ rest) := by
      intro front behind hsplit hsize
      refine ⟨"description".toList ++ front, behind, ?_, ?_⟩
      · rw [List.append_assoc _ front, ← hsplit]
        simp only [List.append_assoc]
      · rw [byteSize_append, hwidth, hsize, keywordWidth]
    rintro (hnarrow | ⟨front, ⟨behind, rfl⟩, hsize⟩)
    · have hpositive : 0 < byteSize gap := byteSize_pos hne
      have hletter : byteSize ['p'] = 1 := by decide
      have hletters : byteSize ['p', 'p'] = 2 := by decide
      -- the cut is behind the keyword, inside it, or in front of it
      rcases (by omega : byteSize gap = 1 ∨ byteSize gap = 2 ∨ byteSize gap = 3) with
        hone | htwo | hthree
      · exact hcut (gap ++ ['p', 'p']) rest rfl (by rw [byteSize_append, hone, hletters])
      · exact hcut (gap ++ ['p']) ('p' :: rest) (by simp) (by rw [byteSize_append, htwo, hletter])
      · exact hcut gap ("pp".toList ++ rest) (by simp) hthree
    · exact hcut front (behind ++ "pp".toList ++ rest) (by simp) hsize

/-- **Only a cut inside a blank stops the reading.** -/
theorem exists_read_eq_stop_iff {text : String} (hline : IsLine text.toList) :
    (∃ stop, read text = .error (.stop stop)) ↔ CutsBlank text := by
  constructor
  · intro hstop
    rcases read_cases text with ⟨w, ws, hwords⟩ | ⟨w, ws, hwords, hpp⟩ | hother
    · rw [read_of_keyword hwords, cutDescription_eq_stop_iff] at hstop
      obtain ⟨value, hvalue, hvalues, hapart, -⟩ := afterByte?_of_wordsOf hline.1 hwords
      obtain ⟨p, ps, hp, hkeyword, hps⟩ := List.map_eq_cons_iff.mp hvalues
      obtain ⟨gap, rest, hsplit, hgap, hrest, hstart⟩ := exists_split_of_words hp
      obtain rfl : p = "pp".toList := by rw [← hkeyword, String.toList_ofList]
      have htext : text.toList = "description".toList ++ gap ++ "pp".toList ++ rest := by
        rw [hvalue, hsplit]
        simp
      have hne : gap ≠ [] := by
        rintro rfl
        have hletter : startsWord ([] ++ "pp".toList ++ rest) = true := rfl
        rw [hsplit, hletter] at hapart
        cases hapart
      rw [htext, atBoundary_keywordWidth_iff hne, not_or, not_exists, Nat.not_le] at hstop
      refine ⟨gap, rest, htext, hgap, hstop.1, fun front hfront hsize => ?_, hstart, ?_⟩
      · exact hstop.2 front ⟨hfront, hsize⟩
      · rw [hrest]
        rintro rfl
        cases hps
    · obtain ⟨value, -, -, -, hcut⟩ := afterByte?_of_wordsOf hline.1 hwords
      rw [byteSize_description] at hcut
      rw [read_of_description hwords hpp, cutDescription, hcut] at hstop
      simp at hstop
    · obtain ⟨stop, hstop⟩ := hstop
      rw [read_of_ne hother] at hstop
      exact absurd hstop (refuse_ne_stop _ _)
  · intro hcuts
    obtain ⟨w, ws, hwords⟩ := hcuts.exists_wordsOf
    obtain ⟨gap, rest, htext, -, hwidth, hfront, -, -⟩ := hcuts
    have hne : gap ≠ [] := by
      rintro rfl
      exact absurd hwidth (by decide)
    rw [read_of_keyword hwords, cutDescription_eq_stop_iff, htext, atBoundary_keywordWidth_iff hne,
      not_or, Nat.not_le, not_exists]
    exact ⟨hwidth, fun front h => hfront front h.1 h.2⟩

/-! ## What is well formed is read back -/

/-- The setting is written on one line and read back from it. -/
def ReadBack (s : PpSetting) : Prop :=
  IsLine (phrase s.words).toList ∧ read (phrase s.words) = .ok (some s)

/-- Words on which a line ends in each place make a line. -/
theorem isLine_phrase_words (h : ∀ w ∈ s.words, EndsLine w) : IsLine (phrase s.words).toList := by
  have hstarts := PpInterface.startsWords_setting s
  refine (isLine_phrase hstarts).mpr (lineOf_endsLine ?_ h)
  obtain ⟨w, v, rest, hwords, -⟩ := hstarts
  rw [hwords]
  exact List.cons_ne_nil _ _

theorem words_ne_description (hs : ∀ d, s ≠ .description d) (w : String) (ws : List String) :
    s.words ≠ "description" :: w :: ws := by
  cases s with
  | description d => exact absurd rfl (hs d)
  | _ => simp [words, leadWords]

/-- A setting that is written in single words. -/
theorem readBack_of_isWord (hs : ∀ d, s ≠ .description d) (h : ∀ w ∈ s.words, IsWord w)
    (hread : readWords s.words = .ok (some s)) : s.ReadBack := by
  refine ⟨isLine_phrase_words fun w hw => endsLine_of_isWord (h w hw), ?_⟩
  have hwords : wordsOf (phrase s.words) = s.words := wordsOf_phrase h
  rw [read_of_ne (by rw [hwords]; exact words_ne_description hs), hwords, hread]
  rfl

/-- The text behind some fixed text and a space is cut off. -/
theorem cutDescription_of_append {line lead text : String} {keyword : Bool}
    (htext : IsLine text.toList) (hline : line.toList = lead.toList ++ ' ' :: text.toList) :
    cutDescription line (byteSize lead.toList) keyword =
      .ok (some (.description ⟨text, keyword⟩)) := by
  have htrim : trimmed (String.ofList (' ' :: text.toList)) = text := by
    rw [trimmed, String.toList_ofList, trim, trimStart_cons_of_isBlank isBlank_space, ← trim,
      htext.1, String.ofList_toList]
  rw [cutDescription, afterByte?, hline, afterBytes?_append]
  simp only [Option.map_some, htrim]

/-- **A description is read back in its form**, with the blanks inside it. -/
theorem readBack_description {d : Description} (h : (description d).WellFormed)
    (hne : d.text ≠ "") : (description d).ReadBack := by
  obtain ⟨text, keyword⟩ := d
  obtain ⟨hline, hpp⟩ := h
  have hnames : IsWord "description" ∧ IsWord "pp" := by decide
  have hdescription := endsLine_of_isWord hnames.1
  have hkeyword := endsLine_of_isWord hnames.2
  have hend := endsLine_of_isLine hline hne
  obtain ⟨w, ws, hwords⟩ := List.exists_cons_of_ne_nil (wordsOf_ne_nil hline.1 hne)
  cases keyword with
  | true =>
    have hsplit : (description ⟨text, true⟩).words = ["description", "pp", text] := rfl
    refine ⟨isLine_phrase_words ?_, ?_⟩
    · simp [hsplit, hdescription, hkeyword, hend]
    · have hall : wordsOf (phrase ["description", "pp", text]) =
          "description" :: "pp" :: w :: ws := by
        simp [wordsOf_phrase_eq_flatMap, wordsOf_of_isWord hnames.1, wordsOf_of_isWord hnames.2,
          hwords]
      have htext : (phrase ["description", "pp", text]).toList =
          "description pp".toList ++ ' ' :: text.toList := by
        rw [toList_phrase]
        rfl
      rw [hsplit, read_of_keyword hall, ← byteSize_keyword]
      exact cutDescription_of_append hline htext
  | false =>
    have hsplit : (description ⟨text, false⟩).words = ["description", text] := rfl
    refine ⟨isLine_phrase_words ?_, ?_⟩
    · simp [hsplit, hdescription, hend]
    · have hall : wordsOf (phrase ["description", text]) = "description" :: w :: ws := by
        simp [wordsOf_phrase_eq_flatMap, wordsOf_of_isWord hnames.1, hwords]
      have htext : (phrase ["description", text]).toList =
          "description".toList ++ ' ' :: text.toList := by
        rw [toList_phrase]
        rfl
      have hother : ∀ v vs, w :: ws ≠ "pp" :: v :: vs := by
        rw [← hwords]
        exact hpp rfl
      rw [hsplit, read_of_description hall hother, ← byteSize_description]
      exact cutDescription_of_append hline htext

end PpSetting

/-! ### Values -/

theorem AddressPool.isWord_word (pool : AddressPool) : IsWord pool.word :=
  match pool with
  | .range first last =>
    (first.isWord_render.append (by decide : hasBlank "-" = false)).append last.isWord_render.2
  | .dhcp => (by decide : IsWord "dhcp")

theorem DisconnectTime.isWord_word (time : DisconnectTime) : IsWord time.word :=
  match time with
  | .off => (by decide : IsWord "off")
  | .seconds count => isWord_numeral count

theorem PpSelector.isWord_render (selector : PpSelector) : IsWord selector.render :=
  match selector with
  | .number n => isWord_numeral n
  | .anonymous => (by decide : IsWord "anonymous")

namespace PpSetting

@[simp] theorem readPool_word (pool : AddressPool) : readPool pool.word = .ok pool := by
  cases pool with
  | dhcp => rfl
  | range first last =>
    have hdash : ∀ a : Ipv4, '-' ∉ a.render.toList :=
      fun a => a.not_mem_render (by decide) (by decide)
    have htext : (AddressPool.range first last).word.toList =
        first.render.toList ++ '-' :: last.render.toList := by
      simp [AddressPool.word]
    have hdhcp : (AddressPool.range first last).word ≠ "dhcp" := by
      intro he
      have hmem : '-' ∈ (AddressPool.range first last).word.toList := by
        rw [htext]
        simp
      rw [he] at hmem
      exact absurd hmem (by decide)
    rw [readPool, if_neg hdhcp, splitOnce?_of_toList (hdash first) htext]
    simp only [Ipv4.read?_render]

@[simp] theorem readDisconnectTime_word (time : DisconnectTime) :
    readDisconnectTime time.word = .ok time := by
  cases time with
  | off => rfl
  | seconds count =>
    rw [DisconnectTime.word, readDisconnectTime, if_neg (numeral_ne (by decide) count),
      readNumber_numeral]
    rfl

end PpSetting

@[simp] theorem PpSelector.read?_render (selector : PpSelector) :
    read? selector.render = some selector := by
  cases selector with
  | anonymous => rfl
  | number n =>
    rw [render, read?, if_neg (numeral_ne (by decide) n), readNumber?_numeral]
    rfl

namespace PpSetting

theorem readSwitch_render (on : Bool) (selector : PpSelector) :
    readSwitch on [selector.render] = .ok (some (switch on selector)) := by
  rw [readSwitch, selector.read?_render]

/-- The name of a service is read back from the words that it is made of. -/
theorem readBack_of_phrase {keyword : String} {ws : List String} (hkeyword : IsWord keyword)
    (hne : ws ≠ []) (hws : ∀ w ∈ ws, IsWord w) (hwords : s.words = ["pppoe", keyword, phrase ws])
    (hread : readWords ("pppoe" :: keyword :: ws) = .ok (some s)) : s.ReadBack := by
  have hpppoe : IsWord "pppoe" := by decide
  refine ⟨isLine_phrase_words ?_, ?_⟩
  · simp [hwords, endsLine_of_isWord hpppoe, endsLine_of_isWord hkeyword, endsLine_phrase hne hws]
  · have hall : wordsOf (phrase s.words) = "pppoe" :: keyword :: ws := by
      rw [hwords, wordsOf_phrase_eq_flatMap]
      simp [wordsOf_of_isWord hpppoe, wordsOf_of_isWord hkeyword, wordsOf_phrase hws]
    rw [read_of_ne (by rw [hall]; simp), hall, hread]
    rfl

/-- **A well-formed setting is read back**, unless it is a description that says
nothing. -/
theorem readBack_of_wellFormed {s : PpSetting} (h : s.WellFormed)
    (hne : ∀ d, s = .description d → d.text ≠ "") : s.ReadBack := by
  have hnames : ∀ w ∈ ["pppoe", "use", "pp", "bind", "service-name", "ac-name", "auth", "accept",
      "request", "arrive-only", "myname", "always-on", "disconnect", "time", "off", "ip", "address",
      "remote", "pool", "dhcp", "mtu", "tcp", "mss", "limit", "nat", "descriptor", "secure",
      "filter", "in", "out", "enable", "disable", "anonymous"], IsWord w := by decide
  simp only [List.forall_mem_cons] at hnames
  cases s with
  | description d => exact readBack_description h (hne d rfl)
  | pppoeUse interface =>
    have hword : IsWord interface := h
    exact readBack_of_isWord (by simp) (by simp [words, leadWords, valueWords, hnames, hword]) rfl
  | bind interface =>
    have hword : IsWord interface := h
    exact readBack_of_isWord (by simp) (by simp [words, leadWords, valueWords, hnames, hword]) rfl
  | pppoeServiceName name =>
    obtain ⟨ws, hsome, hws, rfl⟩ := h
    obtain ⟨first, others, rfl⟩ := List.exists_cons_of_ne_nil hsome
    exact readBack_of_phrase (by decide : IsWord "service-name") hsome hws rfl rfl
  | pppoeAcName name =>
    obtain ⟨ws, hsome, hws, rfl⟩ := h
    obtain ⟨first, others, rfl⟩ := List.exists_cons_of_ne_nil hsome
    exact readBack_of_phrase (by decide : IsWord "ac-name") hsome hws rfl rfl
  | authAccept methods =>
    obtain ⟨hlength, hwords⟩ := h
    rcases hlength with hlength | hlength
    · obtain ⟨first, rfl⟩ := List.length_eq_one_iff.mp hlength
      refine readBack_of_isWord (by simp) ?_ rfl
      simpa [words, leadWords, valueWords, hnames] using hwords
    · obtain ⟨first, second, rfl⟩ := List.length_eq_two.mp hlength
      refine readBack_of_isWord (by simp) ?_ rfl
      simpa [words, leadWords, valueWords, hnames] using hwords
  | authRequest request =>
    obtain ⟨method, arriveOnly⟩ := request
    have hword : IsWord method := h
    cases arriveOnly with
    | false =>
      exact readBack_of_isWord (by simp) (by simp [words, leadWords, valueWords, hnames, hword]) rfl
    | true =>
      exact readBack_of_isWord (by simp) (by simp [words, leadWords, valueWords, hnames, hword]) rfl
  | authMyname name =>
    obtain ⟨huser, hpassword⟩ := h
    exact readBack_of_isWord (by simp)
      (by simp [words, leadWords, valueWords, hnames, huser, hpassword]) rfl
  | alwaysOn value =>
    refine readBack_of_isWord (by simp)
      (by simp [words, leadWords, valueWords, hnames, isWord_onOff]) ?_
    simp [words, leadWords, valueWords, readWords, readPp, Except.map]
  | disconnectTime time =>
    refine readBack_of_isWord (by simp)
      (by simp [words, leadWords, valueWords, hnames, time.isWord_word]) ?_
    simp [words, leadWords, valueWords, readWords, readPp, Except.map]
  | ipAddress address =>
    have hword : IsWord address := h
    exact readBack_of_isWord (by simp) (by simp [words, leadWords, valueWords, hnames, hword]) rfl
  | remoteAddressPool pool =>
    refine readBack_of_isWord (by simp)
      (by simp [words, leadWords, valueWords, hnames, pool.isWord_word]) ?_
    simp [words, leadWords, valueWords, readWords, readIp, Except.map]
  | secureFilter direction binding =>
    have hword : IsWord direction.word := by
      cases direction <;> decide
    refine readBack_of_isWord (by simp) ?_ ?_
    · simpa [words, leadWords, valueWords, hnames, hword] using
        fun w hw => (FilterBinding.isWord_of_mem_words hw).1
    · simp [words, leadWords, valueWords, readWords, readIp]
  | switch on selector =>
    cases on with
    | false =>
      refine readBack_of_isWord (by simp)
        (by simp [words, leadWords, valueWords, hnames, selector.isWord_render]) ?_
      simp [words, leadWords, valueWords, readWords, readPp, readSwitch_render]
    | true =>
      refine readBack_of_isWord (by simp)
        (by simp [words, leadWords, valueWords, hnames, selector.isWord_render]) ?_
      simp [words, leadWords, valueWords, readWords, readPp, readSwitch_render]
  | _ =>
    refine readBack_of_isWord (by simp)
      (by simp [words, leadWords, valueWords, hnames, isWord_numeral]) ?_
    simp [words, leadWords, valueWords, readWords, readIp, Except.map]

end PpSetting

end RouterConfig
