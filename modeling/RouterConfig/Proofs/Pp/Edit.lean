import RouterConfig.Pp.Edit
import RouterConfig.Proofs.Pp.Settings
import RouterConfig.Proofs.Stanza.Edit

/-!
# Commands for a session, run in place

A command that is run on a session in place changes it in one step or not at all
(`edit_eq_whole`): all that it says is read before the field is set.
-/

namespace RouterConfig.PpInterface

open Text Edit

theorem editPppoe_eq_whole (ws : List String) :
    editPppoe ws = whole fun pp => PpSetting.readPppoe ws >>= take put pp := by
  fun_cases PpSetting.readPppoe ws
  -- any words will do here, so a known form cannot fail
  all_goals simp only [editPppoe, *]
  all_goals rfl

theorem editAuth_eq_whole (ws : List String) :
    editAuth ws = whole fun pp => PpSetting.readAuth ws >>= take put pp := by
  fun_cases PpSetting.readAuth ws
  all_goals simp only [editAuth, *]
  all_goals rfl

/-- **The switch** of another session is refused, as is one that no session has. -/
theorem editSwitch_eq_whole (on : Bool) (ws : List String) :
    editSwitch on ws = whole fun pp => PpSetting.readSwitch on ws >>= take put pp := by
  fun_cases PpSetting.readSwitch on ws
  case case1 word selector hword =>
    show (check _ >>= fun _ => modify _) =
      whole fun pp : PpInterface => pp.put (.switch on selector)
    rw [modify_eq_whole, check_bind_whole]
    congr 1
    funext pp
    by_cases hselector : selector = pp.selector <;> simp [put, hword, hselector]
  case case2 word hword =>
    simp only [editSwitch, hword]
    rfl
  all_goals simp only [editSwitch, *]
  all_goals rfl

theorem editPp_eq_whole (ws : List String) :
    editPp ws = whole fun pp => PpSetting.readPp ws >>= take put pp := by
  fun_cases PpSetting.readPp ws
  case case4 rest => exact editAuth_eq_whole rest
  case case5 value =>
    simp only [editPp]
    cases readOnOff "always-on" value <;> rfl
  case case7 time =>
    simp only [editPp]
    cases PpSetting.readDisconnectTime time <;> rfl
  case case9 rest | case10 rest => exact editSwitch_eq_whole _ rest
  all_goals simp only [editPp, *]
  all_goals rfl

theorem editIp_eq_whole (ws : List String) :
    editIp ws = whole fun pp => PpSetting.readIp ws >>= take put pp := by
  fun_cases PpSetting.readIp ws
  case case4 pool =>
    simp only [editIp]
    cases PpSetting.readPool pool <;> rfl
  case case7 number | case9 number | case11 number =>
    simp only [editIp]
    cases readNumber _ number <;> rfl
  case case13 direction numbers =>
    simp only [editIp]
    cases FilterBinding.readWords numbers with
    | error fault => rfl
    | ok binding =>
      cases Direction.read direction with
      | error fault => rfl
      | ok direction => cases direction <;> rfl
  all_goals simp only [editIp, *]
  all_goals rfl

theorem editWords_eq_whole (ws : List String) :
    editWords ws = whole fun pp => PpSetting.readWords ws >>= take put pp := by
  fun_cases PpSetting.readWords ws
  case case2 rest => exact editPppoe_eq_whole rest
  case case3 rest => exact editPp_eq_whole rest
  case case4 rest => exact editIp_eq_whole rest
  all_goals simp only [editWords, *]
  all_goals rfl

/-- A description is cut off before it is set. -/
theorem editDescription_eq_whole {text : String} {width : Nat} {ppKeyword : Bool}
    (hread : PpSetting.read text = PpSetting.cutDescription text width ppKeyword) :
    editDescription text width ppKeyword = whole fun pp => pp.apply text := by
  funext pp
  rw [whole, apply, hread, editDescription, PpSetting.cutDescription]
  cases afterByte? width text <;> rfl

/-- **A command that is run in place** changes the session in one step, or leaves it as it is. -/
theorem edit_eq_whole (text : String) : edit text = whole fun pp => pp.apply text := by
  unfold edit
  split
  · next hwords => exact editDescription_eq_whole (by simp only [PpSetting.read, hwords])
  · next hwords => exact editDescription_eq_whole (by simp only [PpSetting.read, hwords])
  · next hpp hplain =>
    have hread : PpSetting.read text = refuse (PpSetting.readWords (wordsOf text)) := by
      unfold PpSetting.read
      split
      · next hwords => exact absurd hwords (hpp _ _)
      · next hwords => exact absurd hwords (hplain _ _)
      · rfl
    rw [editWords_eq_whole, adaptExcept_whole]
    congr 1
    funext pp
    rw [apply, hread]
    cases PpSetting.readWords (wordsOf text) with
    | error fault => rfl
    | ok setting? => cases setting? <;> rfl

end RouterConfig.PpInterface
