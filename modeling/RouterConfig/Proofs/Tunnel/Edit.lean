import RouterConfig.Proofs.Stanza.Edit
import RouterConfig.Proofs.Tunnel.Records
import RouterConfig.Tunnel.Edit

/-!
# Commands for a tunnel, run in place

A command that is run on a tunnel in place reads, checks and changes by turns.  It still changes
the tunnel in one step or not at all (`edit_eq_whole`): whatever can fail is read and checked
before the first change.  For the key exchange this means that the block is made when nothing can
go wrong any more, and for the layer-two protocol that the copy takes the place of the block only
when all of it was read.
-/

namespace RouterConfig.Tunnel

open Text Edit

variable {t : Tunnel}

/-! ## Parts of commands -/

/-- **A field of the key exchange** is changed in one step, although the block for it may have to
be made first. -/
theorem editGateway_eq_whole (gateway : String) (setting : IkeSetting) :
    editGateway gateway setting =
      whole fun t => TunnelSetting.ofGateway gateway setting >>= take put t := by
  rw [editGateway, TunnelSetting.ofGateway]
  cases readNumber "ike gateway" gateway with
  | error fault => rfl
  | ok id =>
    show (openGateway id >>= fun _ => modify _) = whole fun t => t.put (.ike id setting)
    -- behind the check neither making the block nor writing the field can fail
    have hopen : openGateway id = whole fun t => (otherGateway? t.gateway? id).elim
        (.ok { t with ike := some (t.ike.getD { id }) }) .error := by
      rw [openGateway, modify_eq_whole, check_bind_whole]
    rw [hopen, whole_bind_modify]
    congr 1
    funext t
    cases hforce : t.gateway? with
    | none =>
      simp only [put, hforce, Option.getD_none, if_true]
      rfl
    | some inForce =>
      by_cases hsame : inForce = id
      · simp only [put, hforce, Option.getD_some, hsame, if_true, otherGateway?]
        simp [Except.map]
      · simp only [put, hforce, Option.getD_some, hsame, if_false, otherGateway?]
        simp [Except.map, hsame]

theorem editIke_eq_whole (ws : List String) :
    editIke ws = whole fun t => TunnelSetting.readIke ws >>= take put t := by
  fun_cases TunnelSetting.readIke ws
  case case2 | case4 | case6 | case7 | case11 | case13 | case15 | case16 =>
    simp only [editIke]
    exact editGateway_eq_whole _ _
  case case9 gateway mode =>
    simp only [editIke]
    cases TunnelSetting.readIkeKeepalive mode with
    | error fault => rfl
    | ok mode => exact editGateway_eq_whole _ _
  -- the words that are passed over, and those of unknown form
  all_goals simp only [editIke, *]
  all_goals rfl

/-- The block of the layer-two protocol is changed as by the setting that is read. -/
theorem changeL2tp_eq_map (l2tp : TunnelL2tp) (ws : List String) :
    changeL2tp l2tp ws = (TunnelSetting.readL2tp ws).map l2tp.put := by
  fun_cases TunnelSetting.readL2tp ws
  case case4 id | case6 id =>
    simp only [changeL2tp]
    cases TunnelSetting.readRouterId id <;> rfl
  case case9 value | case11 value =>
    simp only [changeL2tp]
    cases readOnOff _ value <;> rfl
  case case18 interval retry =>
    simp only [changeL2tp]
    cases readNumber "l2tp keepalive interval" interval with
    | error fault => rfl
    | ok interval => cases readNumber "l2tp keepalive retry" retry <;> rfl
  all_goals simp only [changeL2tp, *]
  all_goals rfl

/-- **The layer-two protocol** is changed in one step. -/
theorem editL2tp_eq_whole (ws : List String) :
    editL2tp ws = whole fun t =>
      (TunnelSetting.readL2tp ws).map (fun s => some (TunnelSetting.l2tp s)) >>= take put t := by
  funext t
  show (reads (changeL2tp (t.l2tp.getD {}) ws) >>= fun l2tp => modify fun t =>
    { t with l2tp := some l2tp } : Edit LineFault Tunnel Unit) t = _
  rw [changeL2tp_eq_map]
  cases TunnelSetting.readL2tp ws <;> rfl

theorem editSwitch_eq_whole (on : Bool) (number : String) :
    editSwitch on [number] = whole fun t =>
      (readNumber "tunnel number" number).map (fun n => some (.switch on n)) >>= take put t := by
  rw [editSwitch]
  cases readNumber "tunnel number" number with
  | error fault => rfl
  | ok n =>
    show (check _ >>= fun _ => modify _) = whole fun t : Tunnel => t.put (.switch on n)
    rw [modify_eq_whole, check_bind_whole]
    congr 1
    funext t
    by_cases hid : n = t.id <;> simp [put, hid]

theorem editTunnel_eq_whole (ws : List String) :
    editTunnel ws = whole fun t => TunnelSetting.readTunnel ws >>= take put t := by
  fun_cases TunnelSetting.readTunnel ws
  case case2 word =>
    simp only [editTunnel]
    cases Encapsulation.read word <;> rfl
  case case7 number | case9 number => exact editSwitch_eq_whole _ number
  all_goals simp only [editTunnel, editSwitch, *]
  all_goals rfl

theorem editIp_eq_whole (ws : List String) :
    editIp ws = whole fun t => TunnelSetting.readIp ws >>= take put t := by
  fun_cases TunnelSetting.readIp ws
  case case2 direction numbers =>
    simp only [editIp]
    cases FilterBinding.readWords numbers with
    | error fault => rfl
    | ok binding =>
      cases Direction.read direction with
      | error fault => rfl
      | ok direction => cases direction <;> rfl
  case case4 limit =>
    simp only [editIp]
    cases TunnelSetting.readMssLimit limit <;> rfl
  all_goals simp only [editIp, *]
  all_goals rfl

/-! ## Whole commands -/

/-- What becomes of a tunnel by the words of a command that is not a description. -/
def attempt (t : Tunnel) (ws : List String) : Except LineFault Tunnel :=
  match t.gatewayClash? ws with
  | some fault => .error fault
  | none => TunnelSetting.readWords ws >>= take put t

/-- An association that names a gateway is refused for it, or for its own number, or else put in. -/
theorem attempt_sa {id gateway protocol first : String} {algorithms : List String}
    {named : UInt32} (hnamed : readNumber? gateway = some named) :
    t.attempt ("ipsec" :: "sa" :: "policy" :: id :: gateway :: protocol :: first :: algorithms) =
      (otherGateway? (t.ike.map IkeGateway.id) named).elim
        ((readNumber "sa policy id" id).map fun n =>
          { t with saPolicy := some ⟨n, named, protocol, first :: algorithms⟩ }) .error := by
  have hread : TunnelSetting.readWords
      ("ipsec" :: "sa" :: "policy" :: id :: gateway :: protocol :: first :: algorithms) =
        (readNumber "sa policy id" id).map fun n =>
          some (.saPolicy ⟨n, named, protocol, first :: algorithms⟩) := by
    show TunnelSetting.readSa ("policy" :: id :: gateway :: protocol :: first :: algorithms) = _
    have hgateway : readNumber "sa policy gateway" gateway = .ok named := by
      rw [readNumber, hnamed]
    rw [TunnelSetting.readSa, hgateway]
    cases readNumber "sa policy id" id <;> rfl
  rw [attempt, hread]
  cases hike : t.ike with
  | none =>
    cases readNumber "sa policy id" id with
    | error fault =>
      simp only [gatewayClash?, hike]
      rfl
    | ok n => simp [gatewayClash?, otherGateway?, take, put, hike, Except.map]
  | some ike =>
    by_cases hsame : ike.id = named
    · cases readNumber "sa policy id" id with
      | error fault =>
        simp [gatewayClash?, otherGateway?, hike, hnamed, hsame, Except.map]
        rfl
      | ok n => simp [gatewayClash?, otherGateway?, take, put, hike, hnamed, hsame, Except.map]
    · simp [gatewayClash?, otherGateway?, hike, hnamed, hsame]

/-- **A security association** is put in in one step, although its gateway is checked before its
number is read. -/
theorem editSa_eq_whole (ws : List String) :
    editSa ws = whole fun t => t.attempt ("ipsec" :: "sa" :: ws) := by
  fun_cases TunnelSetting.readSa ws
  case case1 id gateway protocol first algorithms =>
    rw [editSa]
    cases hnamed : readNumber? gateway with
    | none =>
      funext t
      have hgateway : readNumber "sa policy gateway" gateway =
          .error (.invalid "sa policy gateway" gateway) := by rw [readNumber, hnamed]
      have hread : TunnelSetting.readWords
          ("ipsec" :: "sa" :: "policy" :: id :: gateway :: protocol :: first :: algorithms) =
            .error (.invalid "sa policy gateway" gateway) := by
        show TunnelSetting.readSa ("policy" :: id :: gateway :: protocol :: first :: algorithms) = _
        rw [TunnelSetting.readSa, hgateway]
        rfl
      rw [hgateway, whole, attempt, hread, gatewayClash?, hnamed]
      cases t.ike <;> rfl
    | some named =>
      have hgateway : readNumber "sa policy gateway" gateway = .ok named := by
        rw [readNumber, hnamed]
      have hrest : (reads (readNumber "sa policy id" id) >>= fun n => modify fun t =>
          { t with saPolicy := some ⟨n, named, protocol, first :: algorithms⟩ } :
            Edit LineFault Tunnel Unit) =
          whole fun t => (readNumber "sa policy id" id).map fun n =>
            { t with saPolicy := some ⟨n, named, protocol, first :: algorithms⟩ } := by
        cases readNumber "sa policy id" id <;> rfl
      rw [hgateway]
      show (check _ >>= fun _ => _) = _
      rw [hrest, check_bind_whole]
      simp only [attempt_sa hnamed]
  case case2 hform =>
    simp only [editSa]
    funext t
    have hclash : t.gatewayClash? ("ipsec" :: "sa" :: ws) = none := by
      unfold gatewayClash?
      split
      · next hwords =>
        cases hwords
        exact absurd rfl (hform _ _ _ _ _)
      · rfl
    have hread : TunnelSetting.readWords ("ipsec" :: "sa" :: ws) = TunnelSetting.malformed := by
      show TunnelSetting.readSa ws = _
      simp only [TunnelSetting.readSa]
    rw [whole, attempt, hclash, hread]
    rfl

theorem editIpsec_eq_whole {ws : List String} (h : ws.head? ≠ some "sa") :
    editIpsec ws = whole fun t => TunnelSetting.readIpsec ws >>= take put t := by
  fun_cases TunnelSetting.readIpsec ws
  case case2 number =>
    simp only [editIpsec]
    cases readNumber "ipsec tunnel" number <;> rfl
  case case4 rest => exact absurd rfl h
  case case5 rest => exact editIke_eq_whole rest
  all_goals simp only [editIpsec, *]
  all_goals rfl

/-- Only an association is compared with the gateway in force before all of it is read. -/
theorem editWords_of_take {ws : List String} (h : ws.take 2 ≠ ["ipsec", "sa"]) :
    editWords ws = whole fun t => TunnelSetting.readWords ws >>= take put t := by
  fun_cases TunnelSetting.readWords ws
  case case2 rest => exact editTunnel_eq_whole rest
  case case3 rest =>
    refine editIpsec_eq_whole fun hhead => h ?_
    obtain ⟨others, rfl⟩ := List.head?_eq_some_iff.mp hhead
    rfl
  case case4 rest => exact editL2tp_eq_whole rest
  case case5 rest => exact editIp_eq_whole rest
  all_goals simp only [editWords, *]
  all_goals rfl

theorem editWords_eq_whole (ws : List String) :
    editWords ws = whole fun t => t.attempt ws := by
  by_cases h : ws.take 2 = ["ipsec", "sa"]
  · obtain ⟨rest, rfl⟩ : ∃ rest, ws = "ipsec" :: "sa" :: rest :=
      ⟨ws.drop 2, by rw [← List.take_append_drop 2 ws, h]; rfl⟩
    exact editSa_eq_whole rest
  · simp only [attempt, gatewayClash?_of_take h]
    exact editWords_of_take h

/-- A command that is not a description. -/
theorem apply_eq_attempt {text : String} (h : (wordsOf text).head? ≠ some "description") :
    t.apply text = refuse (t.attempt (wordsOf text)) := by
  have hread : TunnelSetting.read text = refuse (TunnelSetting.readWords (wordsOf text)) := by
    unfold TunnelSetting.read
    split
    · next hwords => exact absurd (congrArg List.head? hwords) h
    · rfl
  rw [apply, attempt, hread]
  cases t.gatewayClash? (wordsOf text) with
  | some fault => rfl
  | none =>
    cases TunnelSetting.readWords (wordsOf text) with
    | error fault => rfl
    | ok setting? => cases setting? <;> rfl

/-- **A command that is run in place** changes the tunnel in one step, or leaves it as it is. -/
theorem edit_eq_whole (text : String) : edit text = whole fun t => t.apply text := by
  by_cases h : (wordsOf text).head? = some "description"
  · obtain ⟨rest, hwords⟩ := List.head?_eq_some_iff.mp h
    funext t
    have hclash : t.gatewayClash? (wordsOf text) = none :=
      gatewayClash?_of_take (by rw [hwords]; simp)
    rw [whole, apply, hclash, edit, TunnelSetting.read, hwords]
    cases afterByte? TunnelSetting.descriptionWidth text <;> rfl
  · have hedit : edit text = (editWords (wordsOf text)).adaptExcept .fault := by
      unfold edit
      split
      · next hwords => exact absurd (congrArg List.head? hwords) h
      · rfl
    rw [hedit, editWords_eq_whole, adaptExcept_whole]
    congr 1
    funext t
    exact (apply_eq_attempt h).symm

end RouterConfig.Tunnel
