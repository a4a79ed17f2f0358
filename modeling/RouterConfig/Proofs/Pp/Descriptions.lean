import RouterConfig.Parse
import RouterConfig.Proofs.Pp.Blame
import RouterConfig.Proofs.Pp.Order

/-!
# Descriptions of a session

Two things are looked at when a description is read.  Its *form* is told by the first words
of the line, which are the same whatever blanks stand between them.  Its *text* is cut off
the line at a fixed byte, which is where the text begins if the first word starts the line
and, in the form with the keyword, one blank of one byte stands in front of the keyword
(`PpSetting.KeepsText`).

So there are lines that say one description (`PpSetting.said?`) and are read as another.  The cut
cannot be too late: the words of the form and the narrowest blank between them are as wide
as the cut is far.  When it is too early, the end of the last of these words is
taken for a part of the text, and a text with one word more is another text
(`cutDescription_eq_ok_iff`).  Hence a line keeps its text exactly under the condition
above, and in a group it is the last line with a description that counts
(`PpInterface.description_kept_iff`).
-/

namespace RouterConfig

open Text

/-! ## Behind a word -/

/-- What starts with a word starts with no blank. -/
theorem head?_append_of_isWord {w : String} (h : IsWord w) (rest : List Char) :
    ∀ c ∈ (w.toList ++ rest).head?, isBlank c = false := by
  obtain ⟨hne, hblank⟩ := isWord_iff.mp h
  rw [List.head?_append_of_ne_nil _ hne]
  exact fun c hc => hblank c (List.mem_of_mem_head? hc)

/-- What ends with a word ends with no blank. -/
theorem getLast?_append_of_isWord {w : String} (h : IsWord w) (front : List Char) :
    ∀ c ∈ (front ++ w.toList).getLast?, isBlank c = false := by
  obtain ⟨hne, hblank⟩ := isWord_iff.mp h
  rw [List.getLast?_append_of_ne_nil _ hne]
  exact fun c hc => hblank c (List.mem_of_mem_getLast? hc)

/-- The text behind its first word. -/
def afterWord (s : String) : String :=
  String.ofList ((trimStart s.toList).dropWhile fun c => !isBlank c)

/-- Where the first word ends, the text behind it begins. -/
theorem afterWord_of_append {s w rest : String} {gap : List Char}
    (hs : s.toList = gap ++ w.toList ++ rest.toList) (hgap : ∀ c ∈ gap, isBlank c = true)
    (hw : IsWord w) (hrest : startsWord rest.toList = false) : afterWord s = rest := by
  have hstart : trimStart (w.toList ++ rest.toList) = w.toList ++ rest.toList :=
    trimStart_eq_self.mpr (head?_append_of_isWord hw rest.toList)
  have hend : ∀ cs, startsWord cs = false → cs.dropWhile (fun c => !isBlank c) = cs := by
    rintro (_ | ⟨c, cs⟩) hcs
    · rfl
    · exact List.dropWhile_cons_of_neg (by simpa [startsWord] using hcs)
  have hpos : ∀ c ∈ w.toList, (!isBlank c) = true := fun c hc => by
    rw [(isWord_iff.mp hw).2 c hc]
    rfl
  rw [afterWord, hs, List.append_assoc, trimStart_append_of_isBlank hgap, hstart,
    List.dropWhile_append_of_pos hpos, hend _ hrest, String.ofList_toList]

/-- **A text is its indent, its first word and what stands behind it.** -/
theorem exists_afterWord {s w : String} {ws : List String} (h : wordsOf s = w :: ws) :
    ∃ gap, s.toList = gap ++ w.toList ++ (afterWord s).toList ∧ byteSize gap = indentOf s.toList ∧
      wordsOf (afterWord s) = ws ∧ startsWord (afterWord s).toList = false := by
  have hw : IsWord w := isWord_of_mem_wordsOf (h ▸ List.mem_cons_self ..)
  obtain ⟨cs, css, hcs, rfl, hcss⟩ := List.map_eq_cons_iff.mp h
  obtain ⟨gap, rest, hsplit, hgap, hwords, hrest⟩ := exists_split_of_words hcs
  rw [← String.toList_ofList (l := rest)] at hrest hwords
  have hs : s.toList = gap ++ (String.ofList cs).toList ++ (String.ofList rest).toList := by
    rw [String.toList_ofList, String.toList_ofList, hsplit]
  have hindent : indentOf s.toList = byteSize gap := by
    rw [hs, List.append_assoc, indentOf_append hgap (head?_append_of_isWord hw _)]
  rw [afterWord_of_append hs hgap hw hrest, wordsOf, hwords]
  exact ⟨gap, hs, hindent.symm, hcss, hrest⟩

namespace PpSetting

/-! ## What a line says, and what is read -/

/-- The description that a line says: the text behind its first word, or behind the keyword if
that is its second word and not the last. -/
def said? (text : String) : Option Description :=
  match wordsOf text with
  | "description" :: "pp" :: _ :: _ => some ⟨trimmed (afterWord (afterWord text)), true⟩
  | "description" :: _ :: _ => some ⟨trimmed (afterWord text), false⟩
  | _ => none

/-- The first word starts the line, and in the form with the keyword the blanks in front of it are
one byte wide. -/
def KeepsText (text : String) : Prop :=
  indentOf text.toList = 0 ∧
    ∀ d ∈ said? text, d.ppKeyword = true → indentOf (afterWord text).toList = 1

instance (text : String) : Decidable (KeepsText text) :=
  inferInstanceAs (Decidable (_ ∧ _))

variable {text w : String} {ws : List String} {d : Description}

theorem said?_of_keyword (h : wordsOf text = "description" :: "pp" :: w :: ws) :
    said? text = some ⟨trimmed (afterWord (afterWord text)), true⟩ := by
  rw [said?, h]
  rfl

theorem said?_of_description (h : wordsOf text = "description" :: w :: ws)
    (hpp : ∀ v vs, w :: ws ≠ "pp" :: v :: vs) :
    said? text = some ⟨trimmed (afterWord text), false⟩ := by
  unfold said?
  split
  · next v vs hkeyword =>
    rw [h] at hkeyword
    exact absurd (List.cons.inj hkeyword).2 (hpp v vs)
  · rfl
  · next hother => exact absurd h (hother w ws)

theorem said?_eq_none_iff :
    said? text = none ↔ ∀ w ws, wordsOf text ≠ "description" :: w :: ws := by
  rcases read_cases text with ⟨w, ws, hwords⟩ | ⟨w, ws, hwords, hpp⟩ | hother
  · simp [said?_of_keyword hwords, hwords]
  · simp [said?_of_description hwords hpp, hwords]
  · refine iff_of_true ?_ hother
    unfold said?
    split
    · next hwords => exact absurd hwords (hother _ _)
    · next hwords => exact absurd hwords (hother _ _)
    · rfl

/-- **A cut that is not too late is where the text begins, or the text is another.** -/
theorem cutDescription_eq_ok_iff {front : List Char} {rest : String} {width : Nat} {keyword : Bool}
    (htext : text.toList = front ++ rest.toList) (hfront : ∀ c ∈ front.getLast?, isBlank c = false)
    (hrest : startsWord rest.toList = false) (hwidth : width ≤ byteSize front) :
    cutDescription text width keyword = .ok (some (.description ⟨trimmed rest, keyword⟩)) ↔
      byteSize front = width := by
  constructor
  · intro h
    obtain ⟨before, behind, hcut, hsize, hsame⟩ := eq_of_cutDescription h
    have htrim : trimmed rest = trimmed behind := by simpa using hsame
    rw [htext] at hcut
    rcases List.prefix_or_prefix_of_prefix (List.prefix_append front rest.toList)
      ⟨behind.toList, hcut.symm⟩ with hle | ⟨more, rfl⟩
    · have hbytes := byteSize_le_of_prefix hle
      omega
    · by_cases hmore : more = []
      · rw [hmore, List.append_nil, hsize]
      · -- the end of the form's last word is a word of what was cut off
        have hlast : isBlank (more.getLast hmore) = false := by
          refine hfront _ ?_
          rw [List.getLast?_append_of_ne_nil _ hmore]
          exact List.getLast?_eq_some_getLast hmore
        have hbehind : behind.toList = more ++ rest.toList := by
          rw [List.append_assoc] at hcut
          exact (List.append_cancel_left hcut).symm
        have hwords : Text.words rest.toList = Text.words more ++ Text.words rest.toList := by
          rw [← words_append_of_not_startsWord hrest, ← hbehind, ← words_trim, ← toList_trimmed,
            htrim, toList_trimmed, words_trim]
        have hnone : Text.words more = [] := List.self_eq_append_left.mp hwords
        exact absurd hnone (words_ne_nil_of_mem (List.getLast_mem hmore) hlast)
  · rintro rfl
    rw [cutDescription, afterByte?, htext, afterBytes?_append, Option.map_some,
      String.ofList_toList]

/-- **A line is read as the description that it says exactly if it keeps its text.** -/
theorem read_eq_said_iff (hsaid : said? text = some d) :
    read text = .ok (some (.description d)) ↔ KeepsText text := by
  have hpair : byteSize "pp".toList = 2 := by decide
  rcases read_cases text with ⟨w, ws, hwords⟩ | ⟨w, ws, hwords, hpp⟩ | hother
  · rw [said?_of_keyword hwords, Option.some_inj] at hsaid
    obtain ⟨gap, htext, hgap, hbehind, hapart⟩ := exists_afterWord hwords
    obtain ⟨blanks, hsplit, hblanks, -, hrest⟩ := exists_afterWord hbehind
    have hwide : 0 < byteSize blanks := by
      refine byteSize_pos ?_
      rintro rfl
      rw [hsplit] at hapart
      cases hapart
    have hsize : byteSize (gap ++ "description".toList ++ blanks ++ "pp".toList) =
        indentOf text.toList + indentOf (afterWord text).toList + 13 := by
      simp only [byteSize_append, byteSize_description, descriptionWidth, hpair, hgap, hblanks]
      omega
    have hfront : text.toList = gap ++ "description".toList ++ blanks ++ "pp".toList ++
        (afterWord (afterWord text)).toList := by
      rw [htext, hsplit]
      simp only [List.append_assoc]
    have hkeeps : KeepsText text ↔
        indentOf text.toList = 0 ∧ indentOf (afterWord text).toList = 1 := by
      simp [KeepsText, said?_of_keyword hwords]
    have hlast := getLast?_append_of_isWord (by decide : IsWord "pp")
      (gap ++ "description".toList ++ blanks)
    rw [read_of_keyword hwords, ← hsaid, cutDescription_eq_ok_iff hfront hlast hrest
      (by rw [hsize, keywordWidth]; omega), hsize, hkeeps, keywordWidth]
    omega
  · rw [said?_of_description hwords hpp, Option.some_inj] at hsaid
    obtain ⟨gap, htext, hgap, -, hrest⟩ := exists_afterWord hwords
    have hsize : byteSize (gap ++ "description".toList) =
        indentOf text.toList + descriptionWidth := by
      rw [byteSize_append, hgap, byteSize_description]
    have hkeeps : KeepsText text ↔ indentOf text.toList = 0 := by
      simp [KeepsText, said?_of_description hwords hpp]
    have hlast := getLast?_append_of_isWord (by decide : IsWord "description") gap
    rw [read_of_description hwords hpp, ← hsaid, cutDescription_eq_ok_iff htext hlast hrest
      (by omega), hsize, hkeeps]
    omega
  · rw [said?_eq_none_iff.mpr hother] at hsaid
    cases hsaid

/-- A tab in front of the keyword is one byte wide, a wide blank is not. -/
example : KeepsText "description\tpp x" ∧ ¬ KeepsText "description\u3000pp x" := by
  decide +kernel

/-- Without the keyword a line that starts with no blank keeps its text. -/
theorem keepsText_of_trim (htrim : trim text.toList = text.toList) (hsaid : said? text = some d)
    (hform : d.ppKeyword = false) : KeepsText text := by
  constructor
  · have hstart := (trim_eq_self.mp htrim).1
    rw [← List.nil_append text.toList, indentOf_append (by simp) hstart, byteSize]
  · rw [hsaid]
    rintro _ ⟨⟩ hkeyword
    rw [hform] at hkeyword
    cases hkeyword

/-- What says a description is read as one, if it can be read. -/
theorem exists_description_of_read {s? : Option PpSetting} (hsaid : said? text = some d)
    (h : read text = .ok s?) : ∃ stored, s? = some (.description stored) := by
  have hcut : ∀ width keyword, cutDescription text width keyword = .ok s? →
      ∃ stored, s? = some (.description stored) := by
    intro width keyword h
    unfold cutDescription at h
    split at h
    · exact ⟨_, (Except.ok.inj h).symm⟩
    · cases h
  rcases read_cases text with ⟨w, ws, hwords⟩ | ⟨w, ws, hwords, hpp⟩ | hother
  · exact hcut _ _ (read_of_keyword hwords ▸ h)
  · exact hcut _ _ (read_of_description hwords hpp ▸ h)
  · rw [said?_eq_none_iff.mpr hother] at hsaid
    cases hsaid

/-- What says no description is not read as one. -/
theorem ne_description_of_read {s : PpSetting} (hsaid : said? text = none)
    (h : read text = .ok (some s)) : s ≠ .description d := by
  rintro rfl
  have hother := said?_eq_none_iff.mp hsaid
  rw [read_of_ne hother, refuse_eq_ok_iff] at h
  obtain ⟨ws, hws⟩ := leadWords_of_readWords h
  cases ws with
  | nil =>
    rw [← hws] at h
    cases h
  | cons w ws => exact hother w ws hws.symm

end PpSetting

namespace PpInterface

open PpSetting

/-! ## Sessions -/

variable {pp next : PpInterface} {text : String} {d : Description}

/-- A line that says a description sets one, if it can be read. -/
theorem apply_eq_ok_iff_of_said (hsaid : said? text = some d) :
    pp.apply text = .ok next ↔ ∃ stored, PpSetting.read text = .ok (some (.description stored)) ∧
      next = { pp with description := some stored } := by
  rw [readsAndPuts.ok_iff]
  constructor
  · rintro (⟨hread, -⟩ | ⟨s, hread, hput⟩)
    · obtain ⟨_, hnone⟩ := exists_description_of_read hsaid hread
      cases hnone
    · obtain ⟨stored, hs⟩ := exists_description_of_read hsaid hread
      obtain rfl := Option.some_inj.mp hs
      exact ⟨stored, hread, (Except.ok.inj hput).symm⟩
  · rintro ⟨stored, hread, rfl⟩
    exact Or.inr ⟨_, hread, rfl⟩

/-- A line that says no description leaves the one that is there. -/
theorem description_of_apply (hsaid : said? text = none) (h : pp.apply text = .ok next) :
    next.description = pp.description := by
  rcases apply_cases h with rfl | ⟨s, hread, hput⟩
  · rfl
  · obtain ⟨-, rfl⟩ := put_eq_ok_iff.mp hput
    cases s with
    | description d => exact absurd rfl (ne_description_of_read hsaid hread)
    | secureFilter direction binding => cases direction <;> rfl
    | _ => rfl

/-- **The last line with a description** says the description of the session, or the session
has another one. -/
theorem description_of_foldlM {front back : List String} {start : PpInterface}
    (hsaid : said? text = some d) (hlast : ∀ later ∈ back, said? later = none)
    (h : (front ++ text :: back).foldlM apply start = .ok pp) :
    pp.description = some d ↔ KeepsText text := by
  rw [List.foldlM_append] at h
  obtain ⟨before, -, h⟩ := bind_eq_ok_iff.mp h
  rw [List.foldlM_cons] at h
  obtain ⟨after, happly, hback⟩ := bind_eq_ok_iff.mp h
  have hstays : pp.description = after.description := by
    refine Selection.holds_of_foldlM (P := fun pp => pp.description = after.description) ?_ rfl
      hback
    intro pp hpp later hlater next hnext
    rw [description_of_apply (hlast later hlater) hnext, hpp]
  obtain ⟨stored, hread, rfl⟩ := (apply_eq_ok_iff_of_said hsaid).mp happly
  rw [hstays, ← read_eq_said_iff hsaid, hread]
  simp

/-- **When a description keeps its text.**  Read into a session, a line that says a description sets
just that one exactly if it keeps its text, and the record of a group has the description that the
group's last such line says under the same condition.  A line of a text, which starts with no
blank, fulfils it unless there is a keyword. -/
theorem description_kept_iff {front back : List Line} {line : Line} {d : Description}
    (hsaid : said? line.text = some d) (hlast : ∀ later ∈ back, said? later.text = none) :
    (∀ pp : PpInterface,
      pp.apply line.text = .ok { pp with description := some d } ↔ KeepsText line.text) ∧
    (∀ selector decoded, decodeContext selector (front ++ line :: back) = .ok decoded →
      ∀ pp ∈ decoded.records, (pp.description = some d ↔ KeepsText line.text)) ∧
    (trimmed line.text = line.text → d.ppKeyword = false → KeepsText line.text) := by
  refine ⟨fun pp => ?_, fun selector decoded hdecode pp hpp => ?_, fun htrim hform => ?_⟩
  · rw [apply_eq_ok_iff_of_said hsaid, ← read_eq_said_iff hsaid]
    constructor
    · rintro ⟨stored, hread, hnext⟩
      obtain rfl : d = stored := Option.some_inj.mp (congrArg description hnext)
      exact hread
    · exact fun hread => ⟨d, hread, rfl⟩
  · rcases Selection.records_of_decode_checkedContext hdecode with hnone | ⟨_, hone, hrun, -⟩
    · rw [hnone] at hpp
      cases hpp
    · rw [hone, List.mem_singleton] at hpp
      subst hpp
      rw [List.map_append, List.map_cons] at hrun
      exact description_of_foldlM hsaid (List.forall_mem_map.mpr hlast) hrun
  · rw [← String.toList_inj, toList_trimmed] at htrim
    exact keepsText_of_trim htrim hsaid hform

/-- A session that is described twice. -/
def describedTwice : List Line :=
  [⟨2, 1, "description branch office"⟩, ⟨3, 1, "description pp PRV  PPPoE"⟩,
    ⟨4, 1, "pppoe use lan2"⟩]

/-- The second description counts, with the blanks inside it. -/
theorem description_kept_behind_another :
    (∀ pp : PpInterface, pp.apply "description pp PRV  PPPoE" =
      .ok { pp with description := some ⟨"PRV  PPPoE", true⟩ }) ∧
    ∃ pp, decodeContext (.number 1) describedTwice = .ok (.single pp) ∧
      pp.description = some ⟨"PRV  PPPoE", true⟩ := by
  have hsaid : said? "description pp PRV  PPPoE" = some ⟨"PRV  PPPoE", true⟩ := by decide +kernel
  have hlast : ∀ later ∈ [(⟨4, 1, "pppoe use lan2"⟩ : Line)], said? later.text = none := by
    decide +kernel
  have hkeeps : KeepsText "description pp PRV  PPPoE" := by decide +kernel
  obtain ⟨hline, hgroup, -⟩ :=
    @description_kept_iff [⟨2, 1, "description branch office"⟩] [⟨4, 1, "pppoe use lan2"⟩]
      ⟨3, 1, "description pp PRV  PPPoE"⟩ _ hsaid hlast
  refine ⟨fun pp => (hline pp).mpr hkeeps, ?_⟩
  have hread : ∃ pp, decodeContext (.number 1) describedTwice = .ok (.single pp) :=
    ⟨{ selector := .number 1, description := some ⟨"PRV  PPPoE", true⟩, pppoeUse := some "lan2" },
      by decide +kernel⟩
  obtain ⟨pp, hpp⟩ := hread
  exact ⟨pp, hpp, (hgroup _ _ hpp pp (List.mem_singleton_self pp)).mpr hkeeps⟩

/-- A session with a description in which two spaces stand in front of the keyword. -/
def twoSpacesText : String :=
  joined "\n" ["pp select 1", " description  pp x", " pppoe use lan2"]

/-- **Behind two spaces** the end of the keyword becomes a word of the text. -/
theorem description_not_kept_behind_two_spaces :
    said? "description  pp x" = some ⟨"x", true⟩ ∧
      decode (Rtx.dialect.parse twoSpacesText).stanza = .ok (.single
        { selector := .number 1, description := some ⟨"p x", true⟩, pppoeUse := some "lan2" }) := by
  refine ⟨?_, ?_⟩
  all_goals decide +kernel

end PpInterface

end RouterConfig
