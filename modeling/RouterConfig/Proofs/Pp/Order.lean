import RouterConfig.Proofs.Pp.Blame
import RouterConfig.Proofs.Pp.Records
import RouterConfig.Proofs.Stanza.Order

/-!
# The settings of a session in another order

Each setting of a session is written into one field (`write`), and nothing is checked but that a
switch is for this session.  So two settings for different fields are put in in either way,
whatever else is set.
-/

namespace RouterConfig

namespace PpSetting

/-- The place of a setting: the path of its field, the filters for each direction being a field
of their own. -/
def place : PpSetting → List String
  | .secureFilter direction _ => ["secure filter", direction.word]
  | s => s.path

/-- A setting is for the session with this selector: only switches name another. -/
def isFor (selector : PpSelector) : PpSetting → Bool
  | .switch _ other => other == selector
  | _ => true

end PpSetting

namespace PpInterface

variable {pp next out : PpInterface} {s x : PpSetting}

/-- The session with one field set, whatever it was. -/
def write (pp : PpInterface) : PpSetting → PpInterface
  | .description d => { pp with description := some d }
  | .pppoeUse interface => { pp with pppoeUse := some interface }
  | .bind interface => { pp with bind := some interface }
  | .pppoeServiceName name => { pp with pppoeServiceName := some name }
  | .pppoeAcName name => { pp with pppoeAcName := some name }
  | .authAccept methods => { pp with authAccept := some methods }
  | .authRequest request => { pp with authRequest := some request }
  | .authMyname name => { pp with authMyname := some name }
  | .alwaysOn value => { pp with alwaysOn := some value }
  | .disconnectTime time => { pp with disconnectTime := some time }
  | .ipAddress address => { pp with ipAddress := some address }
  | .remoteAddressPool pool => { pp with remoteAddressPool := some pool }
  | .mtu bytes => { pp with mtu := some bytes }
  | .tcpMssLimit bytes => { pp with tcpMssLimit := some bytes }
  | .natDescriptor number => { pp with natDescriptor := some number }
  | .secureFilter .inbound binding => { pp with secureFilterIn := some binding }
  | .secureFilter .outbound binding => { pp with secureFilterOut := some binding }
  | .switch on _ => { pp with enabled := on }

/-- **Putting a setting in** is checking whom it is for, and writing its field. -/
theorem put_eq_ok_iff :
    pp.put s = .ok next ↔ s.isFor pp.selector = true ∧ next = pp.write s := by
  cases s with
  | secureFilter direction binding =>
    cases direction <;> simp [put, write, PpSetting.isFor, eq_comm (a := next)]
  | switch on selector =>
    by_cases hselector : selector = pp.selector <;>
      simp [put, write, PpSetting.isFor, hselector, eq_comm (a := next)]
  | _ => simp [put, write, PpSetting.isFor, eq_comm (a := next)]

/-- **Fields are written in either way.** -/
theorem write_comm (pp : PpInterface) (hplace : s.place ≠ x.place) :
    (pp.write s).write x = (pp.write x).write s := by
  cases s with
  | secureFilter direction binding =>
    cases direction <;> cases x with
    | secureFilter other _ => cases other <;> first | rfl | exact absurd rfl hplace
    | _ => rfl
  | _ =>
    cases x with
    | secureFilter direction _ => cases direction <;> rfl
    | _ => first | rfl | exact absurd rfl hplace

/-- **Settings for different fields** are put in in either way. -/
theorem interchanges : Selection.Interchanges put PpSetting.place fun _ _ => True where
  stays_vacant := fun _ _ _ _ _ _ _ => trivial
  either_way := by
    intro pp next out s x hplace _ _ hfirst hsecond
    obtain ⟨hs, rfl⟩ := put_eq_ok_iff.mp hfirst
    obtain ⟨hx, rfl⟩ := put_eq_ok_iff.mp hsecond
    rw [selector_of_put hfirst] at hx
    have hput : pp.put x = .ok (pp.write x) := put_eq_ok_iff.mpr ⟨hx, rfl⟩
    refine ⟨pp.write x, hput, put_eq_ok_iff.mpr ⟨?_, write_comm pp hplace⟩⟩
    rwa [selector_of_put hput]

/-- What is put in is for the session, which stays the same one. -/
theorem isFor_of_put (h : pp.put s = .ok next) :
    s.isFor pp.selector = true ∧ next.selector = pp.selector :=
  ⟨(put_eq_ok_iff.mp h).1, selector_of_put h⟩

/-- **A command** is read for its setting, and the setting is put in. -/
theorem readsAndPuts : Selection.ReadsAndPuts apply PpSetting.read put :=
  ⟨fun _ _ _ => Selection.bind_put_ok_iff, fun _ _ => Selection.bind_put_stop_iff⟩

/-- No field of the session is set twice by these lines. -/
def SetsOnce (selector : PpSelector) (lines : List Line) : Prop :=
  Selection.SetsOnce PpSetting.read (PpSetting.isFor selector) PpSetting.place lines

instance (selector : PpSelector) (lines : List Line) : Decidable (SetsOnce selector lines) :=
  inferInstanceAs (Decidable (Selection.SetsOnce _ _ _ _))

/-- **A session with its lines in another order** has the same outcome. -/
theorem sameOutcome_of_perm {selector : PpSelector} {lines others : List Line}
    (hperm : lines.Perm others) (honce : SetsOnce selector lines) :
    Decoded.SameOutcome (decodeContext selector lines) (decodeContext selector others) := by
  have hfor : ∀ (xs : List PpSetting) (out : PpInterface), xs.foldlM put { selector } = .ok out →
      ∀ s ∈ xs, s.isFor selector = true :=
    fun _ _ => Selection.isFor_of_foldlM PpInterface.selector fun _ _ _ => isFor_of_put
  exact Selection.sameOutcome_reordered readsAndPuts interchanges (fun _ => trivial) hfor hperm
    honce

end PpInterface

end RouterConfig
