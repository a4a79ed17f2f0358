import RouterConfig.Proofs.Stanza.Selection
import RouterConfig.Proofs.Text.Phrases

/-!
# The line that is to blame

When all commands of a group were put into its record and the record then breaks a rule, one
line of the group is rejected.  It should be the first that sets the field of the rule.  What is
rejected instead is the first line that starts with a fixed text, the *lead* of the field, and
where no line does, the first of all.

The two are the same line exactly if the lead finds the one that sets the field (`Finds`).  How
a lead fits to what lines set is for the kind of group to say: a line that sets the field starts
with the lead when there is one space between its words, and a line that starts with the lead
and sets anything sets something in the same block (`BlamesFor`).
-/

namespace RouterConfig

open Text

/-! ## Fields and the lines that set them -/

/-- The parts of the name of a field, the outer block first. -/
def fieldPath (field : String) : List String :=
  piecesOf '.' field

/-- One is the other or inside of it. -/
def Within (path field : List String) : Prop :=
  path <+: field ∨ field <+: path

instance (path field : List String) : Decidable (Within path field) :=
  inferInstanceAs (Decidable (_ ∨ _))

section Lines

variable (pathOf? : String → Option (List String)) (lead field : String)

/-- A line sets a field, if it sets the block that the field is in, or anything inside of it. -/
def Sets (text : String) : Prop :=
  ∃ path ∈ pathOf? text, Within path (fieldPath field)

instance (text : String) : Decidable (Sets pathOf? field text) :=
  inferInstanceAs (Decidable (∃ path ∈ pathOf? text, Within path (fieldPath field)))

/-- The line behind `front` is the first that sets the field. -/
structure IsFirstToSet (front : List Line) (first : Line) : Prop where
  sets : Sets pathOf? field first.text
  earlier : ∀ line ∈ front, ¬ Sets pathOf? field line.text

/-- The lead finds the line between `front` and `back`: it starts with the lead as the first of
all, or it is the first of all and none starts so. -/
def Finds (front : List Line) (first : Line) (back : List Line) : Prop :=
  (startsWith lead first.text = true ∧ ∀ line ∈ front, startsWith lead line.text = false) ∨
    (front = [] ∧ ∀ line ∈ first :: back, startsWith lead line.text = false)

instance (front : List Line) (first : Line) (back : List Line) :
    Decidable (Finds lead front first back) :=
  inferInstanceAs (Decidable (_ ∨ _))

/-- The line `blamed` was found with a lead, where `first` is the first that sets the field. -/
structure BlamesFor (front : List Line) (first : Line) (back : List Line) (blamed : Line) :
    Prop where
  /-- It is the first that sets the field exactly if the lead finds that one. -/
  eq_iff : (blamed.text = first.text ∧ blamed.number = first.number) ↔
    Finds lead front first back
  /-- With one space between its words, the first that sets the field starts with the lead. -/
  spaced : startsWith lead (phrase (wordsOf first.text)) = true
  /-- What starts with the lead and sets anything sets something in the same block. -/
  block : ∀ text, startsWith lead text = true →
    ∀ path ∈ pathOf? text, path.head? = (fieldPath field).head?

variable {pathOf? lead field} {front back : List Line} {first : Line}

/-- A line in front of the first that sets the field is another text. -/
theorem IsFirstToSet.text_ne (h : IsFirstToSet pathOf? field front first) {line : Line}
    (hline : line ∈ front) : line.text ≠ first.text :=
  fun hsame => h.earlier line hline (hsame ▸ h.sets)

/-- **The line that is found** is the first that sets the field exactly if the lead finds it. -/
theorem blamedLine_eq_iff (h : IsFirstToSet pathOf? field front first) (kind id : String) :
    ((Decoded.blamedLine kind id lead (front ++ first :: back)).text = first.text ∧
        (Decoded.blamedLine kind id lead (front ++ first :: back)).number = first.number) ↔
      Finds lead front first back := by
  rw [Decoded.blamedLine, Finds, List.find?_append]
  cases hfront : front.find? fun line => startsWith lead line.text with
  | some line =>
    have hmem : line ∈ front := List.mem_of_find?_eq_some hfront
    have hstarts : startsWith lead line.text = true := by
      simpa using List.find?_some hfront
    refine iff_of_false (fun hsame => h.text_ne hmem hsame.1) ?_
    rintro (⟨-, hnone⟩ | ⟨rfl, -⟩)
    · rw [hnone line hmem] at hstarts
      cases hstarts
    · cases hmem
  | none =>
    have hnone : ∀ line ∈ front, startsWith lead line.text = false := by
      simpa using List.find?_eq_none.mp hfront
    rw [Option.none_or, List.find?_cons]
    cases hstarts : startsWith lead first.text with
    | true => exact iff_of_true ⟨rfl, rfl⟩ (Or.inl ⟨rfl, hnone⟩)
    | false =>
      cases hback : back.find? fun line => startsWith lead line.text with
      | some line =>
        have hother : startsWith lead line.text = true := by
          simpa using List.find?_some hback
        refine iff_of_false (fun hsame => ?_) ?_
        · rw [show line.text = first.text from hsame.1, hstarts] at hother
          cases hother
        · rintro (⟨hfound, -⟩ | ⟨-, hall⟩)
          · cases hfound
          · rw [hall line (List.mem_cons_of_mem _ (List.mem_of_find?_eq_some hback))] at hother
            cases hother
      | none =>
        have hbehind : ∀ line ∈ back, startsWith lead line.text = false := by
          simpa using List.find?_eq_none.mp hback
        cases front with
        | nil =>
          exact iff_of_true ⟨rfl, rfl⟩
            (Or.inr ⟨rfl, List.forall_mem_cons.mpr ⟨hstarts, hbehind⟩⟩)
        | cons line front =>
          refine iff_of_false (fun hsame => h.text_ne (List.mem_cons_self ..) hsame.1) ?_
          rintro (⟨hfound, -⟩ | ⟨hnil, -⟩)
          · cases hfound
          · cases hnil

end Lines

/-! ## Leads and the words of a command -/

/-- A command with these first words may start with the lead: the words are those of the lead as
far as there are any, but the last word of the lead may go on. -/
def mayLead : List String → List String → Bool
  | [], _ => true
  | _ :: _, [] => true
  | [last], w :: _ => startsWith last w
  | l :: m :: ls, w :: ws => l == w && mayLead (m :: ls) ws

/-- The last word of a phrase goes on at its end. -/
theorem toList_phrase_concat (front : List String) (last more : String) :
    (phrase (front ++ [last ++ more])).toList =
      (phrase (front ++ [last])).toList ++ more.toList := by
  cases front with
  | nil =>
    rw [List.nil_append, List.nil_append, phrase_singleton, phrase_singleton,
      String.toList_append]
  | cons w front =>
    rw [toList_phrase_append (List.cons_ne_nil _ _) (List.cons_ne_nil _ _),
      toList_phrase_append (List.cons_ne_nil _ _) (List.cons_ne_nil _ _), phrase_singleton,
      phrase_singleton]
    simp only [String.toList_append, List.append_assoc]

/-- A text that starts with some words has these as its first, but the last may go on. -/
theorem wordsOf_of_startsWith {front : List String} {last text : String}
    (hwords : ∀ w ∈ front ++ [last], IsWord w)
    (h : startsWith (phrase (front ++ [last])) text = true) :
    ∃ more ws, wordsOf text = front ++ (last ++ more) :: ws := by
  obtain ⟨rest, hrest⟩ := startsWith_eq_true_iff.mp h
  obtain ⟨hfront, hlast⟩ := List.forall_mem_append.mp hwords
  -- the last word goes on up to the first blank
  let more := String.ofList (rest.takeWhile fun c => !isBlank c)
  have hmore : hasBlank more = false := by
    rw [hasBlank, String.toList_ofList, List.any_eq_false]
    intro c hc
    simpa using List.mem_takeWhile_imp hc
  have htext : text.toList = (phrase (front ++ [last ++ more])).toList ++
      rest.dropWhile fun c => !isBlank c := by
    rw [toList_phrase_concat, String.toList_ofList, List.append_assoc,
      List.takeWhile_append_dropWhile, hrest]
  have hbehind : startsWord (rest.dropWhile fun c => !isBlank c) = false := by
    cases hdrop : rest.dropWhile fun c => !isBlank c with
    | nil => rfl
    | cons c cs =>
      have hc := List.head?_dropWhile_not (fun c => !isBlank c) rest
      rw [hdrop] at hc
      simpa [startsWord] using hc
  have hphrase : ∀ w ∈ front ++ [last ++ more], IsWord w := by
    refine List.forall_mem_append.mpr ⟨hfront, List.forall_mem_singleton.mpr ?_⟩
    exact (hlast last (List.mem_singleton_self last)).append hmore
  refine ⟨more, (words (rest.dropWhile fun c => !isBlank c)).map String.ofList, ?_⟩
  rw [wordsOf, htext, words_append_of_not_startsWord hbehind, List.map_append, ← wordsOf,
    wordsOf_phrase hphrase, List.append_assoc, List.singleton_append]

/-- First words of a text that starts with the lead may be those of a command with the lead. -/
theorem mayLead_of_prefix {front ws lead : List String} {last more : String}
    (h : lead <+: front ++ (last ++ more) :: ws) : mayLead (front ++ [last]) lead = true := by
  induction front generalizing lead with
  | nil =>
    cases lead with
    | nil => rfl
    | cons w lead =>
      obtain ⟨rfl, -⟩ := List.cons_prefix_cons.mp h
      exact startsWith_eq_true_iff.mpr ⟨more.toList, String.toList_append⟩
  | cons l front ih =>
    cases lead with
    | nil => rfl
    | cons w lead =>
      obtain ⟨rfl, hrest⟩ := List.cons_prefix_cons.mp h
      have hothers := ih hrest
      obtain ⟨m, ls, hne⟩ := List.exists_cons_of_ne_nil (List.append_ne_nil_of_right_ne_nil front
        (List.cons_ne_nil last []))
      rw [List.cons_append, hne, mayLead, beq_self_eq_true, Bool.true_and, ← hne]
      exact hothers

/-! ## Groups whose record breaks a rule -/

namespace Selection

section Settings

variable {σ : Type} (read : String → Except Refusal (Option σ)) (path leadWords : σ → List String)

/-- The path of the field that a line sets, if it sets one. -/
def pathOf? (text : String) : Option (List String) :=
  (read text).toOption.join.map path

/-- The lead fits the field, whatever is set: a setting inside the field or around it has a
command with the lead, and a setting with a command that may have the lead is of the same
block. -/
structure LeadFits (lead field : String) : Prop where
  words : wordsOf lead ≠ [] ∧ startsWith (phrase (wordsOf lead)) lead = true
  spaced : ∀ s, Within (path s) (fieldPath field) → startsWith lead (phrase (leadWords s)) = true
  block : ∀ s, mayLead (wordsOf lead) (leadWords s) = true →
    (path s).head? = (fieldPath field).head?

/-- The lead fits the field as far as these settings go. -/
def LeadFitsAmong (kinds : List σ) (lead field : String) : Prop :=
  (wordsOf lead ≠ [] ∧ startsWith (phrase (wordsOf lead)) lead = true) ∧
    ∀ k ∈ kinds,
      (Within (path k) (fieldPath field) → startsWith lead (phrase (leadWords k)) = true) ∧
      (mayLead (wordsOf lead) (leadWords k) = true → (path k).head? = (fieldPath field).head?)

instance (kinds : List σ) (lead field : String) :
    Decidable (LeadFitsAmong path leadWords kinds lead field) :=
  inferInstanceAs (Decidable (_ ∧ _))

variable {read path leadWords}

/-- One setting of each kind is enough to see that a lead fits. -/
theorem LeadFitsAmong.leadFits {kinds : List σ} {lead field : String}
    (h : LeadFitsAmong path leadWords kinds lead field)
    (hkinds : ∀ s, ∃ k ∈ kinds, path k = path s ∧ leadWords k = leadWords s) :
    LeadFits path leadWords lead field := by
  refine ⟨h.1, fun s hs => ?_, fun s hs => ?_⟩
  · obtain ⟨k, hk, hpath, hlead⟩ := hkinds s
    rw [← hlead]
    exact (h.2 k hk).1 (hpath ▸ hs)
  · obtain ⟨k, hk, hpath, hlead⟩ := hkinds s
    rw [← hpath]
    exact (h.2 k hk).2 (hlead ▸ hs)

theorem exists_of_mem_pathOf? {text : String} {p : List String} (h : p ∈ pathOf? read path text) :
    ∃ s, read text = .ok (some s) ∧ path s = p := by
  obtain ⟨s, hs, hp⟩ := Option.map_eq_some_iff.mp h
  cases hread : read text with
  | error refusal =>
    rw [hread] at hs
    cases hs
  | ok setting? =>
    rw [hread] at hs
    exact ⟨s, congrArg Except.ok hs, hp⟩

theorem startsWith_trans {lead text front : String} (h : startsWith front lead = true)
    (htext : startsWith lead text = true) : startsWith front text = true := by
  obtain ⟨rest, hrest⟩ := startsWith_eq_true_iff.mp htext
  obtain ⟨more, hmore⟩ := startsWith_eq_true_iff.mp h
  exact startsWith_eq_true_iff.mpr ⟨more ++ rest, by rw [hrest, hmore, List.append_assoc]⟩

/-- **A lead that fits** is for the first line that sets its field. -/
theorem LeadFits.blamesFor {lead field : String} {front back : List Line} {first : Line}
    (h : LeadFits path leadWords lead field)
    (hread : ∀ text s, read text = .ok (some s) → leadWords s <+: wordsOf text)
    (hfirst : IsFirstToSet (pathOf? read path) field front first) (kind id : String) :
    BlamesFor (pathOf? read path) lead field front first back
      (Decoded.blamedLine kind id lead (front ++ first :: back)) := by
  refine ⟨blamedLine_eq_iff hfirst kind id, ?_, fun text hstarts p hp => ?_⟩
  · obtain ⟨p, hp, hwithin⟩ := hfirst.sets
    obtain ⟨s, hs, rfl⟩ := exists_of_mem_pathOf? hp
    obtain ⟨more, hmore⟩ := hread _ s hs
    refine startsWith_trans (h.spaced s hwithin) (startsWith_eq_true_iff.mpr ?_)
    rw [← hmore]
    cases more with
    | nil => exact ⟨[], by rw [List.append_nil, List.append_nil]⟩
    | cons w more =>
      cases hlead : leadWords s with
      | nil => exact ⟨_, rfl⟩
      | cons v vs =>
        refine ⟨' ' :: (phrase (w :: more)).toList, ?_⟩
        rw [toList_phrase_append (List.cons_ne_nil _ _) (List.cons_ne_nil _ _),
          String.toList_append, List.append_assoc]
        rfl
  · obtain ⟨s, hs, rfl⟩ := exists_of_mem_pathOf? hp
    obtain ⟨hne, hlead⟩ := h.words
    obtain ⟨words, last, hwords⟩ : ∃ words last, wordsOf lead = words ++ [last] :=
      ⟨_, _, (List.dropLast_append_getLast hne).symm⟩
    rw [hwords] at hlead
    obtain ⟨more, ws, htext⟩ := wordsOf_of_startsWith
      (fun w hw => isWord_of_mem_wordsOf (hwords ▸ hw)) (startsWith_trans hlead hstarts)
    have hmay := mayLead_of_prefix (htext ▸ hread text s hs)
    rw [← hwords] at hmay
    exact h.block s hmay

end Settings

variable {ρ σ : Type} {apply : ρ → String → Except Refusal ρ} {feature kind id : String}
  {validate : ρ → Option ValidationError} {blame : String → String} {start out : ρ}
  {error : ValidationError}

/-- **A record that breaks a rule** rejects one line of its group. -/
theorem decode_checkedContext_of_broken {lines : List Line}
    (hall : applyLines apply start lines = .ok (out, [])) (hbroken : validate out = some error) :
    decode feature kind id apply (.checkedContext feature validate blame kind id lines) start
      lines = .ok (.rejected feature (Decoded.blamedLine kind id (blame error.field) lines)
        (.within kind id (.breaksRule error))) := by
  rw [decode, hall, ok_bind]
  simp only [List.isEmpty_nil, if_true, Decoded.checkedContext, hbroken]
  rfl

/-- **The line that is rejected** was found with a lead that fits. -/
theorem exists_blamed {read : String → Except Refusal (Option σ)}
    {path leadWords : σ → List String} {front back : List Line} {first : Line}
    (hread : ∀ text s, read text = .ok (some s) → leadWords s <+: wordsOf text)
    (hfits : ∀ s, Within (path s) (fieldPath error.field) →
      LeadFits path leadWords (blame error.field) error.field)
    (hall : applyLines apply start (front ++ first :: back) = .ok (out, []))
    (hbroken : validate out = some error)
    (hfirst : IsFirstToSet (pathOf? read path) error.field front first) :
    ∃ blamed, decode feature kind id apply
        (.checkedContext feature validate blame kind id (front ++ first :: back)) start
        (front ++ first :: back) =
          .ok (.rejected feature blamed (.within kind id (.breaksRule error))) ∧
      BlamesFor (pathOf? read path) (blame error.field) error.field front first back blamed := by
  obtain ⟨p, hp, hwithin⟩ := hfirst.sets
  obtain ⟨s, -, rfl⟩ := exists_of_mem_pathOf? hp
  exact ⟨_, decode_checkedContext_of_broken hall hbroken,
    (hfits s hwithin).blamesFor hread hfirst kind id⟩

end Selection

end RouterConfig
