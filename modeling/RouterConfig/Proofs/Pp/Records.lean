import RouterConfig.Proofs.Pp.Settings
import RouterConfig.Proofs.Stanza.Selection

/-!
# Sessions, read and written setting by setting

A session that was read holds well-formed texts (`wellFormed_of_foldlM`).  Conversely
every session comes back when its settings are put one after the other into an empty
one (`foldlM_settings`), and so does a well-formed and valid one from its commands
(`foldlM_sayings`).  Each setting sets one field and no two of them the same, so unlike
with tunnels their order does not matter for this.
-/

namespace RouterConfig.PpInterface

open Text

variable {pp next : PpInterface}

/-! ## What one command does -/

/-- A command is passed over, or its setting is put in. -/
theorem apply_cases {text : String} (h : pp.apply text = .ok next) :
    next = pp ∨ ∃ s, PpSetting.read text = .ok (some s) ∧ pp.put s = .ok next := by
  have hcases : pp.apply text = .ok next ↔ (PpSetting.read text = .ok none ∧ next = pp) ∨
      ∃ s, PpSetting.read text = .ok (some s) ∧ pp.put s = .ok next :=
    Selection.bind_put_ok_iff
  exact (hcases.mp h).imp And.right id

/-- **Only a cut inside a blank stops the reading**, whatever the session. -/
theorem exists_apply_eq_stop_iff {text : String} (hline : Rtx.IsLine text.toList) :
    (∃ stop, pp.apply text = .error (.stop stop)) ↔ PpSetting.CutsBlank text := by
  rw [← PpSetting.exists_read_eq_stop_iff hline]
  exact Selection.bind_put_stop_iff

theorem selector_of_put {s : PpSetting} (h : pp.put s = .ok next) :
    next.selector = pp.selector := by
  cases s with
  | secureFilter direction binding =>
    cases direction with
    | inbound => cases h; rfl
    | outbound => cases h; rfl
  | switch on selector =>
    simp only [put] at h
    split at h
    · cases h; rfl
    · cases h
  | _ => cases h; rfl

/-! ## Well-formed sessions -/

/-- A session whose texts stand in commands as they are. -/
structure WellFormed (pp : PpInterface) : Prop where
  description : ∀ d ∈ pp.description, (PpSetting.description d).WellFormed
  pppoeUse : ∀ interface ∈ pp.pppoeUse, IsWord interface
  bind : ∀ interface ∈ pp.bind, IsWord interface
  pppoeServiceName : ∀ name ∈ pp.pppoeServiceName, (PpSetting.pppoeServiceName name).WellFormed
  pppoeAcName : ∀ name ∈ pp.pppoeAcName, (PpSetting.pppoeAcName name).WellFormed
  authAccept : ∀ methods ∈ pp.authAccept, (PpSetting.authAccept methods).WellFormed
  authRequest : ∀ request ∈ pp.authRequest, IsWord request.method
  authMyname : ∀ name ∈ pp.authMyname, (PpSetting.authMyname name).WellFormed
  ipAddress : ∀ address ∈ pp.ipAddress, IsWord address

theorem wellFormed_empty (selector : PpSelector) : WellFormed { selector } := by
  constructor <;> simp

/-- **Putting in keeps a session well formed.** -/
theorem WellFormed.of_put (h : pp.WellFormed) {s : PpSetting} (hs : s.WellFormed)
    (hput : pp.put s = .ok next) : next.WellFormed := by
  cases s with
  | description d =>
    cases hput
    exact { h with description := by rintro _ ⟨⟩; exact hs }
  | pppoeUse interface =>
    cases hput
    exact { h with pppoeUse := by rintro _ ⟨⟩; exact hs }
  | bind interface =>
    cases hput
    exact { h with bind := by rintro _ ⟨⟩; exact hs }
  | pppoeServiceName name =>
    cases hput
    exact { h with pppoeServiceName := by rintro _ ⟨⟩; exact hs }
  | pppoeAcName name =>
    cases hput
    exact { h with pppoeAcName := by rintro _ ⟨⟩; exact hs }
  | authAccept methods =>
    cases hput
    exact { h with authAccept := by rintro _ ⟨⟩; exact hs }
  | authRequest request =>
    cases hput
    exact { h with authRequest := by rintro _ ⟨⟩; exact hs }
  | authMyname name =>
    cases hput
    exact { h with authMyname := by rintro _ ⟨⟩; exact hs }
  | ipAddress address =>
    cases hput
    exact { h with ipAddress := by rintro _ ⟨⟩; exact hs }
  | secureFilter direction binding =>
    cases direction with
    | inbound => cases hput; exact { h with }
    | outbound => cases hput; exact { h with }
  | switch on selector =>
    simp only [put] at hput
    split at hput
    · cases hput; exact { h with }
    · cases hput
  | _ => cases hput; exact { h with }

/-- **A session that was read is well formed**, and it is the one that was selected. -/
theorem wellFormed_of_foldlM {selector : PpSelector} {commands : List String}
    (hlines : ∀ c ∈ commands, Rtx.IsLine c.toList)
    (h : commands.foldlM apply { selector } = .ok pp) :
    pp.selector = selector ∧ pp.WellFormed := by
  refine Selection.holds_of_foldlM (P := fun pp => pp.selector = selector ∧ pp.WellFormed) ?_
    ⟨rfl, wellFormed_empty selector⟩ h
  rintro pp ⟨hselector, hpp⟩ c hc next happly
  rcases apply_cases happly with rfl | ⟨s, hread, hput⟩
  · exact ⟨hselector, hpp⟩
  · have hs := PpSetting.wellFormed_of_read (hlines c hc) hread
    exact ⟨(selector_of_put hput).trans hselector, hpp.of_put hs hput⟩

/-- The settings of a well-formed session are well formed. -/
theorem WellFormed.of_mem_settings (h : pp.WellFormed) :
    ∀ s ∈ pp.settings ++ pp.switchSettings, s.WellFormed := by
  intro s hs
  unfold settings switchSettings at hs
  cases s with
  | description d => exact h.description d (by simpa using hs)
  | pppoeUse interface => exact h.pppoeUse interface (by simpa using hs)
  | bind interface => exact h.bind interface (by simpa using hs)
  | pppoeServiceName name => exact h.pppoeServiceName name (by simpa using hs)
  | pppoeAcName name => exact h.pppoeAcName name (by simpa using hs)
  | authAccept methods => exact h.authAccept methods (by simpa using hs)
  | authRequest request => exact h.authRequest request (by simpa using hs)
  | authMyname name => exact h.authMyname name (by simpa using hs)
  | ipAddress address => exact h.ipAddress address (by simpa using hs)
  | _ => trivial

/-! ## Putting the settings in again -/

/-- The switch is put in where it was off. -/
theorem foldlM_switchSettings {start : PpInterface} (hselector : start.selector = pp.selector)
    (hoff : start.enabled = false) :
    pp.switchSettings.foldlM put start = .ok { start with enabled := pp.enabled } := by
  unfold switchSettings
  cases pp.enabled with
  | false =>
    have hself : start = { start with enabled := false } := by rw [← hoff]
    exact congrArg Except.ok hself
  | true => simp [put, hselector]

/-- **A session comes back from its settings**, each of which sets one field. -/
theorem foldlM_settings (pp : PpInterface) :
    (pp.settings ++ pp.switchSettings).foldlM put { selector := pp.selector } = .ok pp := by
  simp only [settings, List.append_assoc]
  refine (Selection.foldlM_say fun (r : PpInterface) x => { r with description := x }).trans ?_
  refine (Selection.foldlM_say fun (r : PpInterface) x => { r with pppoeUse := x }).trans ?_
  refine (Selection.foldlM_say fun (r : PpInterface) x => { r with bind := x }).trans ?_
  refine (Selection.foldlM_say fun (r : PpInterface) x => { r with pppoeServiceName := x }).trans ?_
  refine (Selection.foldlM_say fun (r : PpInterface) x => { r with pppoeAcName := x }).trans ?_
  refine (Selection.foldlM_say fun (r : PpInterface) x => { r with authAccept := x }).trans ?_
  refine (Selection.foldlM_say fun (r : PpInterface) x => { r with authRequest := x }).trans ?_
  refine (Selection.foldlM_say fun (r : PpInterface) x => { r with authMyname := x }).trans ?_
  refine (Selection.foldlM_say fun (r : PpInterface) x => { r with alwaysOn := x }).trans ?_
  refine (Selection.foldlM_say fun (r : PpInterface) x => { r with disconnectTime := x }).trans ?_
  refine (Selection.foldlM_say fun (r : PpInterface) x => { r with ipAddress := x }).trans ?_
  refine (Selection.foldlM_say fun (r : PpInterface) x =>
    { r with remoteAddressPool := x }).trans ?_
  refine (Selection.foldlM_say fun (r : PpInterface) x => { r with mtu := x }).trans ?_
  refine (Selection.foldlM_say fun (r : PpInterface) x => { r with tcpMssLimit := x }).trans ?_
  refine (Selection.foldlM_say fun (r : PpInterface) x => { r with natDescriptor := x }).trans ?_
  refine (Selection.foldlM_say fun (r : PpInterface) x => { r with secureFilterIn := x }).trans ?_
  refine (Selection.foldlM_say fun (r : PpInterface) x => { r with secureFilterOut := x }).trans ?_
  exact foldlM_switchSettings rfl rfl

/-! ## Reading the commands again -/

/-- The description of a valid session says something. -/
theorem description_of_validate (h : validate pp = none) : ∀ d ∈ pp.description, d.text ≠ "" := by
  have hrules := firstBroken_eq_none_iff.mp h
  simp only [rules, List.forall_mem_append, Rule.forall_mem_ifPresent] at hrules
  obtain ⟨⟨⟨⟨⟨⟨⟨⟨⟨⟨⟨⟨⟨⟨-, hdescription⟩, -⟩, -⟩, -⟩, -⟩, -⟩, -⟩, -⟩, -⟩, -⟩, -⟩, -⟩, -⟩, -⟩ :=
    hrules
  intro d hd hempty
  have hkept := hdescription d hd
  rw [descriptionRules, List.forall_mem_cons, hempty] at hkept
  exact absurd hkept.1 (by decide)

/-- The settings of a well-formed and valid session are read back. -/
theorem WellFormed.readBack (h : pp.WellFormed) (hvalid : validate pp = none) :
    ∀ s ∈ pp.settings ++ pp.switchSettings, s.ReadBack := by
  intro s hs
  refine PpSetting.readBack_of_wellFormed (h.of_mem_settings s hs) ?_
  rintro d rfl
  refine description_of_validate hvalid d ?_
  unfold settings switchSettings at hs
  simpa using hs

/-- The commands that say the settings of a session, its switch among them. -/
def sayings (pp : PpInterface) : List String :=
  (pp.settings ++ pp.switchSettings).map fun setting => phrase setting.words

/-- **The commands of a valid session give it back.** -/
theorem foldlM_sayings (h : pp.WellFormed) (hvalid : validate pp = none) :
    pp.sayings.foldlM apply { selector := pp.selector } = .ok pp := by
  refine Selection.foldlM_map_congr ?_ (foldlM_settings pp)
  intro s hs before after hput
  rw [apply, (h.readBack hvalid s hs).2]
  exact congrArg refuse hput

end RouterConfig.PpInterface
