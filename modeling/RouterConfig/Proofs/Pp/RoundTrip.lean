import Mathlib.Tactic.Simps.Basic
import RouterConfig.Proofs.Pp.Groups
import RouterConfig.Proofs.Stanza.Printed

/-!
# Sessions come back

As with tunnels, all sessions of a text are read, written one after the other, and read
again (`decode_printed_sessions`).  What differs is that a text with a description that
is cut inside a blank cannot be read.  But where it can, what was read can be read back,
since no description is written with a blank that is wider than a space in front of the
keyword.
-/

namespace RouterConfig.PpInterface

open Text Rtx Wrap

/-- How sessions are printed. -/
@[simps] def printing : Printing PpInterface where
  definition := ppContext
  id pp := pp.selector.contextId
  select := selectCommand
  body := sayings
  leave := leaveCommand

/-- Decodes a group that may be that of a session. -/
def decodeGroup (c : ContextId × List Line) : Except ReadStop (Decoded PpInterface) :=
  match PpSelector.ofContext? c.1 with
  | some selector => decodeContext selector c.2
  | none => .ok .empty

theorem decode_eq (stanza : Stanza) : decode stanza = printing.decode decodeGroup stanza := rfl

theorem decodeGroup_contextId (selector : PpSelector) (lines : List Line) :
    decodeGroup (selector.contextId, lines) = decodeContext selector lines := by
  rw [decodeGroup, PpSelector.ofContext?_eq_some_iff.mpr rfl]

/-! ## What is read -/

/-- A session that was read and breaks no rule. -/
structure Sound (pp : PpInterface) : Prop where
  wellFormed : pp.WellFormed
  valid : validate pp = none

/-- The session of a group is sound and has the selector of the group. -/
theorem sound_of_decodeGroup {c : ContextId × List Line}
    (hlines : ∀ line ∈ c.2, IsLine line.text.toList) {part : Decoded PpInterface}
    (h : decodeGroup c = .ok part) :
    part.records = [] ∨ ∃ pp, part.records = [pp] ∧ printing.id pp = c.1 ∧ pp.Sound := by
  unfold decodeGroup at h
  split at h
  · next selector hselector =>
    rcases Selection.records_of_decode_checkedContext h with hnone | ⟨pp, hpp, hrun, hvalid⟩
    · exact Or.inl hnone
    · obtain ⟨rfl, hwf⟩ := wellFormed_of_foldlM (List.forall_mem_map.mpr hlines) hrun
      exact Or.inr ⟨pp, hpp, PpSelector.ofContext?_eq_some_iff.mp hselector, hwf, hvalid⟩
  · cases h
    exact Or.inl rfl

/-- **What is read from a text** are sound sessions with different selectors. -/
theorem sound_of_decode_parse {raw : String} {d : Decoded PpInterface}
    (h : decode (dialect.parse raw).stanza = .ok d) :
    (∀ pp ∈ d.records, pp.Sound) ∧ (d.records.map printing.id).Nodup :=
  Printing.records_of_decode_parse h fun _ hc _ h => sound_of_decodeGroup hc h

/-! ## What is written -/

/-- The commands of a session are those that are printed. -/
theorem commands_printing : printing.commands = commands := by
  funext pp
  simp only [Printing.commands, printing_select, printing_body, printing_leave, sayings, commands,
    body, List.map_append, List.cons_append]

theorem mapM_encode_of_sound {rs : List PpInterface} (h : ∀ pp ∈ rs, pp.Sound) :
    rs.mapM (fun pp => encode pp .set) = .ok (rs.map commands) :=
  mapM_eq_ok_map fun pp hpp => encode_of_validate (h pp hpp).valid

/-- Each command of a sound session stands on a line. -/
theorem isCommand_of_sound {pp : PpInterface} (h : pp.Sound) :
    ∀ c ∈ printing.commands pp, IsCommand c := by
  rw [Printing.forall_mem_commands, printing_select, printing_body, printing_leave, sayings,
    List.forall_mem_map]
  refine ⟨?_, fun s hs => ?_, ?_⟩
  · exact (startsWords_select pp.selector).isCommand_of_endsCommand (lineOf_select pp.selector)
  · exact ⟨(startsWords_setting s).startsKnown, (h.wellFormed.readBack h.valid s hs).1⟩
  · have hleave : leaveCommand = phrase ["pp", "select", "none"] := by decide
    rw [hleave]
    exact startsWords_leave.isCommand lineOf_leave

/-! ## What comes back -/

/-- A sound session comes back from its commands. -/
theorem Sound.comesBack {pp : PpInterface} (h : pp.Sound) : printing.ComesBack decodeGroup pp := by
  refine ⟨isCommand_of_sound h, ?_, fun lines hlines => ?_⟩
  · rw [printing_definition, printing_id, printing_select, printing_body, printing_leave]
    exact pp.isGroup
  · rw [printing_body] at hlines
    have hrun := foldlM_sayings h.wellFormed h.valid
    rw [← hlines] at hrun
    rw [printing_id, decodeGroup_contextId]
    exact Selection.decode_checkedContext_of_ok hrun h.valid

/-- **The commands of sound sessions are read back**, each session with what was said
about it. -/
theorem decode_indented {rs : List PpInterface} (hsound : ∀ pp ∈ rs, pp.Sound)
    (hids : (rs.map printing.id).Nodup) {ps : List (Nat × String)}
    (hps : ps.map Prod.snd = rs.flatMap commands)
    (hmarker : ∀ c ∈ rs.flatMap commands, ¬ EndsWithMarker c) :
    decode (dialect.parse (joined "\n" (ps.map indented))).stanza = .ok ⟨rs, []⟩ := by
  have hcomesBack : ∀ pp ∈ rs, printing.ComesBack decodeGroup pp :=
    fun pp hpp => (hsound pp hpp).comesBack
  rw [← commands_printing] at hps hmarker
  rw [decode_eq]
  exact Printing.decode_indented hcomesBack hids hps hmarker

/-- **Sessions come back.**  Where a text can be read, what is read from it can be
written; and unless a command says that it goes on, what was written, with any number of
spaces in front of each command, is read as the same sessions in the same order, with no
line rejected. -/
theorem decode_printed_sessions (raw : String) {d : Decoded PpInterface}
    (h : decode (dialect.parse raw).stanza = .ok d) :
    ∃ printed, d.records.mapM (fun pp => encode pp .set) = .ok printed ∧
      ((∀ c ∈ printed.flatten, ¬ EndsWithMarker c) →
        ∀ ps : List (Nat × String), ps.map Prod.snd = printed.flatten →
          decode (dialect.parse (joined "\n" (ps.map indented))).stanza = .ok ⟨d.records, []⟩) := by
  obtain ⟨hsound, hids⟩ := sound_of_decode_parse h
  refine ⟨_, mapM_encode_of_sound hsound, fun hmarker ps hps => ?_⟩
  rw [← List.flatMap_def] at hmarker hps
  exact decode_indented hsound hids hps hmarker

/-- A session and the one for unknown callers, with descriptions of the two forms and with
filters that are none, empty and some. -/
def providers : List PpInterface :=
  [{ selector := .number 1, description := some ⟨"fibre", true⟩, pppoeUse := some "lan2",
     secureFilterIn := some .empty,
     secureFilterOut := some { filters := [100], dynamic := [300] } },
   { selector := .anonymous, description := some ⟨"branch  office", false⟩, enabled := true }]

/-- A text about the two sessions, with the settings in another order and no line that
leaves a session. -/
def providerText : String :=
  joined "\n" ["pp select 1", " pppoe use lan2", " description pp fibre",
    " ip pp secure filter out 100 dynamic 300", " ip pp secure filter in", "pp select anonymous",
    " description branch  office", " pp enable anonymous"]

/-- The two sessions are read from their text, and come back from their commands. -/
theorem decode_printed_providers :
    decode (dialect.parse providerText).stanza = .ok ⟨providers, []⟩ ∧
      ∃ printed, providers.mapM (fun pp => encode pp .set) = .ok printed ∧
        (∀ c ∈ printed.flatten, ¬ EndsWithMarker c) ∧
          ∀ ps : List (Nat × String), ps.map Prod.snd = printed.flatten →
            decode (dialect.parse (joined "\n" (ps.map indented))).stanza =
              .ok ⟨providers, []⟩ := by
  have hread : decode (dialect.parse providerText).stanza = .ok ⟨providers, []⟩ := by
    decide +kernel
  have hcommands : ∃ printed, providers.mapM (fun pp => encode pp .set) = .ok printed ∧
      ∀ c ∈ printed.flatten, ¬ EndsWithMarker c := by
    refine ⟨[["pp select 1", "description pp fibre", "pppoe use lan2", "ip pp secure filter in",
        "ip pp secure filter out 100 dynamic 300", "pp select none"],
      ["pp select anonymous", "description branch  office", "pp enable anonymous",
        "pp select none"]], ?_, ?_⟩
    · decide +kernel
    · unfold EndsWithMarker
      decide
  obtain ⟨printed, hprinted, hback⟩ := decode_printed_sessions providerText hread
  obtain ⟨written, hwritten, hmarker⟩ := hcommands
  obtain rfl : printed = written := Except.ok.inj (hprinted.symm.trans hwritten)
  exact ⟨hread, printed, hprinted, hmarker, hback hmarker⟩

end RouterConfig.PpInterface
