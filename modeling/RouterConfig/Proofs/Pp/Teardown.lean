import RouterConfig.Pp.Commands
import RouterConfig.Proofs.Commands.Selections
import RouterConfig.Proofs.Text.Phrases
import Mathlib.Data.List.Forall2

/-!
# Undoing what a session says

Each field of a session that is set is said with one command, and the command starts with the
*keyword* of the field.  Removing the session gives each of these keywords again, behind the word
`no`; only that the session is kept up is taken back by saying the opposite.

The two lists of commands are written apart, what is said by settings and what is undone by
fields.  Each is compared with the keywords of the fields that are set (`hasKeyword_body`,
`teardown_eq`), so there are as many commands on one side as on the other, in the same order
(`teardown_undoes_body`).  No keyword goes on as another, so what undoes one field says nothing
about any other, of this session or of any that might stand there (`keyword_unique`).
-/

namespace RouterConfig

open Text

/-- The command is the keyword, or goes on behind it with a space. -/
def HasKeyword (keyword command : String) : Prop :=
  command = keyword ∨ (keyword ++ " ").toList <+: command.toList

/-- With a space behind it, the command starts with the keyword and a space. -/
theorem HasKeyword.prefix {keyword command : String} (h : HasKeyword keyword command) :
    (keyword ++ " ").toList <+: (command ++ " ").toList := by
  rcases h with rfl | h
  · exact List.prefix_refl _
  · rw [String.toList_append (s := command)]
    exact h.trans (List.prefix_append ..)

/-- The first words of a phrase are a keyword of it. -/
theorem hasKeyword_phrase {front : List String} (hfront : front ≠ []) (ws : List String) :
    HasKeyword (phrase front) (phrase (front ++ ws)) := by
  by_cases hws : ws = []
  · exact Or.inl (by rw [hws, List.append_nil])
  · right
    rw [toList_phrase_append hfront hws]
    exact List.prefix_append ..

namespace PpSetting

/-- The keyword of the command for a setting. -/
def keyword (s : PpSetting) : String :=
  phrase s.leadWords

theorem hasKeyword_words (s : PpSetting) : HasKeyword s.keyword (phrase s.words) := by
  refine hasKeyword_phrase ?_ s.valueWords
  cases s <;> exact List.cons_ne_nil _ _

end PpSetting

namespace PpInterface

/-- The keywords of the fields in the order in which they are said, each with whether the session
has the field set. -/
def fields (pp : PpInterface) : List (String × Bool) :=
  [("description", pp.description.isSome), ("pppoe use", pp.pppoeUse.isSome),
    ("pp bind", pp.bind.isSome), ("pppoe service-name", pp.pppoeServiceName.isSome),
    ("pppoe ac-name", pp.pppoeAcName.isSome), ("pp auth accept", pp.authAccept.isSome),
    ("pp auth request", pp.authRequest.isSome), ("pp auth myname", pp.authMyname.isSome),
    ("pp always-on", pp.alwaysOn.isSome), ("pp disconnect time", pp.disconnectTime.isSome),
    ("ip pp address", pp.ipAddress.isSome),
    ("ip pp remote address pool", pp.remoteAddressPool.isSome), ("ip pp mtu", pp.mtu.isSome),
    ("ip pp tcp mss limit", pp.tcpMssLimit.isSome),
    ("ip pp nat descriptor", pp.natDescriptor.isSome),
    ("ip pp secure filter in", pp.secureFilterIn.isSome),
    ("ip pp secure filter out", pp.secureFilterOut.isSome)]

/-- The keywords of the fields that are set. -/
def setKeywords (pp : PpInterface) : List String :=
  pp.fields.flatMap fun field => if field.2 then [field.1] else []

/-- The command that undoes what was said with a keyword. -/
def undoing (keyword : String) : String :=
  if keyword = "pp always-on" then "pp always-on off" else "no " ++ keyword

/-- A field that may be set is said with its keyword, if it is. -/
theorem map_keyword_toList {α : Type} (field : Option α) {say : α → PpSetting} {keyword : String}
    (hsay : ∀ v, (say v).keyword = keyword) :
    (field.toList.map say).map PpSetting.keyword = if field.isSome then [keyword] else [] := by
  cases field with
  | none => rfl
  | some v => exact congrArg (List.cons · []) (hsay v)

/-- The settings of a session are said with the keywords of the fields that are set. -/
theorem map_keyword_settings (pp : PpInterface) :
    pp.settings.map PpSetting.keyword = pp.setKeywords := by
  simp only [settings, setKeywords, fields, List.map_append, List.append_assoc, List.flatMap_cons,
    List.flatMap_nil, List.append_nil]
  -- one field after the other
  repeat' first | apply congrArg₂ | exact map_keyword_toList _ fun _ => rfl

/-- **What is said** has the keywords of the fields that are set. -/
theorem hasKeyword_body (pp : PpInterface) :
    List.Forall₂ HasKeyword pp.setKeywords pp.body := by
  rw [← map_keyword_settings, body, List.forall₂_map_left_iff, List.forall₂_map_right_iff,
    List.forall₂_same]
  exact fun s _ => s.hasKeyword_words

/-- A field that may be set is undone by what undoes its keyword, if it is. -/
theorem map_undoing_ite (isSet : Bool) {keyword command : String} (h : undoing keyword = command) :
    (if isSet then [command] else []) = (if isSet then [keyword] else []).map undoing := by
  cases isSet with
  | false => rfl
  | true => exact congrArg (List.cons · []) h.symm

/-- **What is undone** are the same keywords: the list of what undoes a session knows the same
fields in the same order. -/
theorem teardown_eq (pp : PpInterface) : pp.teardown = pp.setKeywords.map undoing := by
  simp only [teardown, bindings, setKeywords, fields, List.flatMap_cons, List.flatMap_nil,
    List.append_nil, List.map_append, List.append_assoc]
  -- one field after the other, as with what is said
  repeat' first | apply congrArg₂ | exact map_undoing_ite _ rfl

/-! ## No keyword goes on as another -/

/-- All keywords. -/
def keywords : List String :=
  (fields { selector := .anonymous }).map Prod.fst

theorem mem_keywords_of_mem_setKeywords {pp : PpInterface} {keyword : String}
    (h : keyword ∈ pp.setKeywords) : keyword ∈ keywords := by
  obtain ⟨⟨k, set⟩, hmem, hset⟩ := List.mem_flatMap.mp h
  cases set with
  | false => cases hset
  | true =>
    obtain rfl := List.mem_singleton.mp hset
    exact List.mem_map_of_mem (f := Prod.fst) hmem

theorem eq_of_prefix_of_mem_keywords : ∀ k ∈ keywords, ∀ j ∈ keywords,
    (k ++ " ").toList <+: (j ++ " ").toList → k = j := by
  decide +kernel

/-- **A command has at most one keyword.** -/
theorem keyword_unique {k j command : String} (hk : k ∈ keywords) (hj : j ∈ keywords)
    (hcommand : HasKeyword k command) (hother : HasKeyword j command) : k = j := by
  rcases List.prefix_or_prefix_of_prefix hcommand.prefix hother.prefix with hle | hle
  · exact eq_of_prefix_of_mem_keywords k hk j hj hle
  · exact (eq_of_prefix_of_mem_keywords j hj k hk hle).symm

/-! ## The whole session -/

/-- **Removing a session undoes what setting it says.**  The two lists of commands go together
one by one: what is said has the keyword of a field that is set, and this keyword is undone.
Nothing else is: whatever any session says has none of the keywords but its own. -/
theorem teardown_undoes_body (pp : PpInterface) :
    pp.body.length = pp.teardown.length ∧
    List.Forall₂ HasKeyword pp.setKeywords pp.body ∧
    pp.teardown = pp.setKeywords.map undoing ∧
    (∀ other : PpInterface, List.Forall₂
      (fun own command => ∀ k ∈ pp.setKeywords, HasKeyword k command ↔ own = k)
      other.setKeywords other.body) ∧
    encode pp .delete = .ok (phrase ["pp", "disable", pp.selector.render] :: pp.selectCommand ::
      pp.setKeywords.map undoing ++ [leaveCommand]) := by
  have hbody := pp.hasKeyword_body
  have hteardown := pp.teardown_eq
  refine ⟨?_, hbody, hteardown, fun other => ?_, ?_⟩
  · rw [hteardown, List.length_map, hbody.length_eq]
  · refine List.forall₂_iff_get.mpr ⟨other.hasKeyword_body.length_eq, fun i hi hj k hk => ?_⟩
    have hown := (List.forall₂_iff_get.mp other.hasKeyword_body).2 i hi hj
    have hmem := mem_keywords_of_mem_setKeywords (List.get_mem other.setKeywords ⟨i, hi⟩)
    constructor
    · exact fun hcommand => keyword_unique hmem (mem_keywords_of_mem_setKeywords hk) hown hcommand
    · rintro rfl
      exact hown
  · rw [encode, hteardown]

example :
    teardown { selector := .number 1, pppoeUse := some "lan2", alwaysOn := some true
               secureFilterIn := some .empty } =
      ["no pppoe use", "pp always-on off", "no ip pp secure filter in"] := by
  decide

end PpInterface

end RouterConfig
