import RouterConfig.Proofs.Commands.Records
import RouterConfig.Proofs.Pp.RoundTrip
import RouterConfig.Proofs.Tunnel.RoundTrip
import RouterConfig.Proofs.Wrap.Runs

/-!
# Where reading stops

A text is cut by numbers in several places on its way to records.  A physical line is
cut behind its indent, and a command that goes on in front of its marker; both numbers
are counted in bytes (`CutsInside`).  Some readers keep a place among the words of a
line, as a number of words (`KeepsPlace`).  And a description is cut off its line at a
fixed number of bytes.

All of these numbers are inside, whatever the text, apart from the last one.  So reading
returns for every feature but sessions, and for sessions it returns exactly when no line
of one is cut inside a blank (`reading_returns_iff`).
-/

namespace RouterConfig

open Text Rtx Wrap

/-! ## Cuts between characters -/

/-- The numbers by which a text is cut into commands are those of places between
characters. -/
structure CutsInside (raw : String) : Prop where
  /-- A physical line is cut behind its indent. -/
  indent : ∀ physical ∈ physicalLines raw.toList,
    afterBytes? (indentOf physical) physical = some (trimStart physical)
  /-- A command that goes on is cut in front of its marker. -/
  marker : ∀ current next bytes,
    (dialect.reconstructor.verdict current next).join = .pastMarker bytes →
      ∃ front last, trimEnd current = front ++ last ∧ byteSize last = bytes ∧
        dropBytesEnd bytes (trimEnd current) = front

theorem afterBytes?_indentOf (cs : List Char) :
    afterBytes? (indentOf cs) cs = some (trimStart cs) :=
  afterBytes?_eq_some_iff.mpr ⟨cs.takeWhile isBlank, List.takeWhile_append_dropWhile.symm, rfl⟩

theorem exists_cut_of_join_verdict {current next : List Char} {bytes : Nat}
    (h : (dialect.reconstructor.verdict current next).join = .pastMarker bytes) :
    ∃ front last, trimEnd current = front ++ last ∧ byteSize last = bytes ∧
      dropBytesEnd bytes (trimEnd current) = front := by
  have hmay : MayJoin current next := mayJoin_of_join (by rw [h]; simp)
  rw [verdict_of_mayJoin hmay] at h
  cases hopinion : dialect.reconstructor.opinion? current next with
  | none =>
    rw [hopinion] at h
    simp only at h
    split at h
    · cases h
    · cases h
  | some join =>
    rw [hopinion] at h
    obtain rfl : join = .pastMarker bytes := h
    obtain ⟨policy, hdecides⟩ := opinion?_eq_some_iff.mp hopinion
    obtain ⟨_, _, _, _, hdecide⟩ := id hdecides
    rcases Options.join_of_decide (o := {}) hdecides.mem hdecide with
      hglued | hspaced | ⟨marker, front, -, -, htext, hbytes⟩
    · cases hglued
    · cases hspaced
    · obtain rfl := Join.pastMarker.inj hbytes
      exact ⟨front, marker.toList, htext, rfl, by rw [htext, dropBytesEnd_append]⟩

theorem cutsInside (raw : String) : CutsInside raw where
  indent physical _ := afterBytes?_indentOf physical
  marker _ _ _ := exists_cut_of_join_verdict

/-! ## Places among words -/

/-- The readers that keep a place among the words of a line keep one that is there: the
words that they leave are the last ones, and the words that they take are no more than
there are. -/
structure KeepsPlace (ws : List String) : Prop where
  option : (DnsServerSelect.readEdns ws).2 <:+ ws
  servers : ∀ limit, (DnsServerSelect.readServers limit ws).2 <:+ ws
  choice : ∀ fits, (DnsServerSelect.takeIf fits ws).2 <:+ ws
  rule : ∀ rule rest, DynamicFilter.readRule ws = .ok (rule, rest) → rest <:+ ws
  gateway : ∀ gateway used, StaticRoute.readGateway ws = .ok (gateway, used) → used ≤ ws.length
  value : ∀ keyword n, StaticRoute.readValue keyword ws = .ok n → 1 ≤ ws.length
  numbers : (StaticRoute.numberWords ws).length ≤ ws.length

namespace DnsServerSelect

theorem readEdns_suffix (ws : List String) : (readEdns ws).2 <:+ ws := by
  unfold readEdns
  split
  · exact List.suffix_cons ..
  · exact List.suffix_cons ..
  · exact List.suffix_rfl

theorem readServers_suffix (limit : Nat) (ws : List String) : (readServers limit ws).2 <:+ ws := by
  induction limit generalizing ws with
  | zero => exact List.suffix_rfl
  | succ limit ih =>
    cases ws with
    | nil => exact List.suffix_rfl
    | cons word rest =>
      rw [readServers]
      split
      · exact (ih _).trans ((readEdns_suffix rest).trans (List.suffix_cons ..))
      · exact List.suffix_rfl

theorem takeIf_suffix (fits : String → Bool) (ws : List String) : (takeIf fits ws).2 <:+ ws := by
  unfold takeIf
  split
  · split
    · exact List.suffix_cons ..
    · exact List.suffix_rfl
  · exact List.suffix_rfl

end DnsServerSelect

namespace DynamicFilter

theorem readLists_suffix {part : Section} {lists out : FilterLists} {ws rest : List String}
    (h : readLists part lists ws = .ok (out, rest)) : rest <:+ ws := by
  fun_induction readLists part lists ws with
  | case1 => cases h; exact List.suffix_rfl
  | case2 part lists word tail hin ih => exact (ih h).trans (List.suffix_cons ..)
  | case3 part lists word tail hin hout ih => exact (ih h).trans (List.suffix_cons ..)
  | case4 part lists word tail hin hout hdigit ih =>
    obtain ⟨n, hn, h⟩ := bind_eq_ok_iff.mp h
    exact (ih n h).trans (List.suffix_cons ..)
  | case5 => cases h; exact List.suffix_rfl

theorem readRule_suffix {rule : DynamicRule} {ws rest : List String}
    (h : readRule ws = .ok (rule, rest)) : rest <:+ ws := by
  cases ws with
  | nil => cases h
  | cons word tail =>
    rw [readRule] at h
    split at h
    · obtain ⟨⟨lists, after⟩, hlists, h⟩ := bind_eq_ok_iff.mp h
      have hafter := readLists_suffix hlists
      simp only at h
      split at h
      · cases h
      · split at h
        · cases h
        · cases h
          exact hafter.trans (List.suffix_cons ..)
    · split at h
      · cases h
        exact List.suffix_cons ..
      · cases h

end DynamicFilter

namespace StaticRoute

theorem readArgument_used {keyword : String} {read : String → Except LineFault Gateway}
    {ws : List String} {gateway : Gateway} {used : Nat}
    (h : readArgument keyword read ws = .ok (gateway, used)) : used ≤ ws.length + 1 := by
  cases ws with
  | nil => cases h
  | cons word rest =>
    obtain ⟨_, -, h⟩ := map_eq_ok_iff.mp h
    cases h
    simp

theorem readGateway_used {ws : List String} {gateway : Gateway} {used : Nat} :
    readGateway ws = .ok (gateway, used) → used ≤ ws.length := by
  fun_cases readGateway ws
  all_goals intro h
  case case1 => cases h
  case case2 | case3 | case4 => exact readArgument_used h
  case case5 | case6 =>
    cases h
    simp
  case case7 =>
    obtain ⟨_, -, h⟩ := map_eq_ok_iff.mp h
    cases h
    simp

theorem length_of_readValue {keyword : String} {ws : List String} {n : UInt32}
    (h : readValue keyword ws = .ok n) : 1 ≤ ws.length := by
  cases ws with
  | nil => cases h
  | cons word rest => simp

end StaticRoute

/-- Every reader keeps its place. -/
theorem keepsPlace (ws : List String) : KeepsPlace ws where
  option := DnsServerSelect.readEdns_suffix ws
  servers limit := DnsServerSelect.readServers_suffix limit ws
  choice fits := DnsServerSelect.takeIf_suffix fits ws
  rule _ _ := DynamicFilter.readRule_suffix
  gateway _ _ := StaticRoute.readGateway_used
  value _ _ := StaticRoute.length_of_readValue
  numbers := (List.takeWhile_prefix _).length_le

/-! ## Sessions -/

namespace PpInterface

/-- No line of a session is cut inside a blank. -/
def Readable (stanza : Stanza) : Prop :=
  ∀ c ∈ stanza.contextsOf ppKind, (PpSelector.ofContext? c.1).isSome = true →
    ∀ line ∈ c.2, ¬ PpSetting.CutsBlank line.text

/-- A group is read unless it is that of a session with a line that is cut inside a
blank. -/
theorem exists_decodeGroup_iff {c : ContextId × List Line}
    (hlines : ∀ line ∈ c.2, IsLine line.text.toList) :
    (∃ part, decodeGroup c = .ok part) ↔ ((PpSelector.ofContext? c.1).isSome = true →
      ∀ line ∈ c.2, ¬ PpSetting.CutsBlank line.text) := by
  unfold decodeGroup
  split
  · next selector hselector =>
    rw [hselector, imp_iff_right Option.isSome_some]
    exact Selection.exists_decode_iff.trans (Selection.exists_applyLines_iff
      (fun pp line hline => exists_apply_eq_stop_iff (hlines line hline)) { selector })
  · next hnone => simp [hnone]

/-- **When the sessions of a text are read.** -/
theorem exists_decode_parse_iff (raw : String) :
    (∃ d, decode (dialect.parse raw).stanza = .ok d) ↔ Readable (dialect.parse raw).stanza := by
  rw [decode_eq, Printing.exists_decode_iff]
  exact forall₂_congr fun c hc => exists_decodeGroup_iff (Printing.isLine_of_mem_parse hc)

end PpInterface

/-! ## All features -/

/-- The features. -/
inductive FeatureKind where
  | ipFilter
  | dynamicFilter
  | interfaceFilters
  | staticRoute
  | tunnel
  | pp
  | schedule
  | dnsServerSelect

/-- What was decoded, with each record in another form. -/
def Decoded.map {ρ σ : Type} (f : ρ → σ) (d : Decoded ρ) : Decoded σ :=
  ⟨d.records.map f, d.errors⟩

namespace FeatureKind

/-- Decodes the records of a feature. -/
def decode (stanza : Stanza) : FeatureKind → Except ReadStop (Decoded FeatureRecord)
  | .ipFilter => (Feature.decode stanza).map (Decoded.map FeatureRecord.ipFilter)
  | .dynamicFilter => (Feature.decode stanza).map (Decoded.map FeatureRecord.dynamicFilter)
  | .interfaceFilters => (Feature.decode stanza).map (Decoded.map FeatureRecord.interfaceFilters)
  | .staticRoute => (Feature.decode stanza).map (Decoded.map FeatureRecord.staticRoute)
  | .tunnel => (Feature.decode stanza).map (Decoded.map FeatureRecord.tunnel)
  | .pp => (Feature.decode stanza).map (Decoded.map FeatureRecord.pp)
  | .schedule => (Feature.decode stanza).map (Decoded.map FeatureRecord.schedule)
  | .dnsServerSelect => (Feature.decode stanza).map (Decoded.map FeatureRecord.dnsServerSelect)

/-- **When reading returns.**  A text is cut into commands inside, its words are counted
inside, and the records of a feature are read, unless they are sessions and a line of
one is cut inside a blank. -/
theorem reading_returns_iff (feature : FeatureKind) (raw : String) :
    CutsInside raw ∧ (∀ ws, KeepsPlace ws) ∧
      ((∃ d, feature.decode (dialect.parse raw).stanza = .ok d) ↔
        (feature = .pp → PpInterface.Readable (dialect.parse raw).stanza)) := by
  refine ⟨cutsInside raw, keepsPlace, ?_⟩
  cases feature with
  | tunnel =>
    obtain ⟨d, hd, -⟩ := Tunnel.exists_decode_parse raw
    exact iff_of_true ⟨_, map_eq_ok_iff.mpr ⟨d, hd, rfl⟩⟩ nofun
  | pp =>
    rw [imp_iff_right rfl, ← PpInterface.exists_decode_parse_iff]
    constructor
    · rintro ⟨d, h⟩
      obtain ⟨own, hown, -⟩ := map_eq_ok_iff.mp h
      exact ⟨own, hown⟩
    · rintro ⟨own, hown⟩
      exact ⟨_, map_eq_ok_iff.mpr ⟨own, hown, rfl⟩⟩
  | _ => exact iff_of_true ⟨_, rfl⟩ nofun

/-- A session with a description in which the keyword stands behind a space and a wide
blank. -/
def wideBlankText : String :=
  joined "\n" ["pp select 1", " description \u3000pp x", " pppoe use lan2"]

/-- The cut behind so many bytes is inside the wide blank. -/
theorem reading_stops_at_wide_blank :
    pp.decode (dialect.parse wideBlankText).stanza =
      .error (.cutInsideCharacter "description \u3000pp x" 14) := by
  have hstop : PpInterface.decode (dialect.parse wideBlankText).stanza =
      .error (.cutInsideCharacter "description \u3000pp x" 14) := by
    decide +kernel
  exact congrArg (Except.map (Decoded.map FeatureRecord.pp)) hstop

end FeatureKind

end RouterConfig
