import Mathlib.Tactic.Simps.Basic
import RouterConfig.Proofs.Stanza.Printed
import RouterConfig.Proofs.Tunnel.Groups

/-!
# Tunnels come back

All tunnels of a text are read, written one after the other, and read again
(`decode_printed_tunnels`).  The proof has two halves that meet at the records.  What is read
from any text are well-formed, valid tunnels with different numbers
(`exists_decode_parse`).  And the commands of such tunnels, each on a line of
its own, are read back (`decode_indented`).
-/

namespace RouterConfig.Tunnel

open Text Rtx Wrap

/-- Decodes a group that may be that of a tunnel. -/
def decodeGroup (c : ContextId × List Line) : Except ReadStop (Decoded Tunnel) :=
  match c.1.number? with
  | some id => decodeContext id c.2
  | none => .ok .empty

/-- How tunnels are printed. -/
@[simps] def printing : Printing Tunnel where
  definition := tunnelContext
  id t := .number t.id
  select := selectCommand
  body := body
  leave := leaveCommand

theorem decode_eq (stanza : Stanza) : decode stanza = printing.decode decodeGroup stanza := rfl

theorem commands_printing : printing.commands = commands := rfl

/-! ## What is read -/

/-- A tunnel that was read and breaks no rule. -/
structure Sound (t : Tunnel) : Prop where
  wellFormed : t.WellFormed
  valid : validate t = none

variable {c : ContextId × List Line}

/-- No group stops the reading. -/
theorem exists_decodeGroup (hlines : ∀ line ∈ c.2, IsLine line.text.toList) :
    ∃ part, decodeGroup c = .ok part := by
  obtain ⟨key, lines⟩ := c
  cases key with
  | name s => exact ⟨.empty, rfl⟩
  | number id =>
    have hstop : ∀ t : Tunnel, ∀ line ∈ lines,
        (∃ stop, t.apply line.text = .error (.stop stop)) ↔ False :=
      fun t line hline => iff_false_intro fun ⟨stop, h⟩ => apply_ne_stop (hlines line hline) stop h
    have hread := (Selection.exists_applyLines_iff (P := fun _ => False) hstop { id }).mpr
      fun _ _ => not_false
    exact Selection.exists_decode_iff.mpr hread

/-- The tunnel of a group is sound and has the number of the group. -/
theorem sound_of_decodeGroup (hlines : ∀ line ∈ c.2, IsLine line.text.toList)
    {part : Decoded Tunnel} (h : decodeGroup c = .ok part) :
    part.records = [] ∨ ∃ t, part.records = [t] ∧ printing.id t = c.1 ∧ t.Sound := by
  obtain ⟨key, lines⟩ := c
  cases key with
  | name s =>
    cases h
    exact Or.inl rfl
  | number id =>
    rcases Selection.records_of_decode_checkedContext h with hnone | ⟨t, ht, hrun, hvalid⟩
    · exact Or.inl hnone
    · obtain ⟨hid, hwf⟩ := wellFormed_of_foldlM (List.forall_mem_map.mpr hlines) hrun
      exact Or.inr ⟨t, ht, congrArg ContextId.number hid, hwf, hvalid⟩

/-- **What is read from a text** are sound tunnels with different numbers, and
nothing stops the reading. -/
theorem exists_decode_parse (raw : String) :
    ∃ d, decode (dialect.parse raw).stanza = .ok d ∧ (∀ t ∈ d.records, t.Sound) ∧
      (d.records.map printing.id).Nodup := by
  have hread : ∃ d, printing.decode decodeGroup (dialect.parse raw).stanza = .ok d :=
    Printing.exists_decode_iff.mpr fun _ hc => exists_decodeGroup (Printing.isLine_of_mem_parse hc)
  obtain ⟨d, hd⟩ := hread
  exact ⟨d, hd, Printing.records_of_decode_parse hd fun _ hc _ h => sound_of_decodeGroup hc h⟩

/-! ## What is written -/

theorem mapM_encode_of_sound {ts : List Tunnel} (h : ∀ t ∈ ts, t.Sound) :
    ts.mapM (fun t => encode t .set) = .ok (ts.map commands) :=
  mapM_eq_ok_map fun t ht => encode_of_validate (h t ht).valid

/-- Each command of a sound tunnel stands on a line. -/
theorem isCommand_of_sound {t : Tunnel} (h : t.Sound) :
    ∀ c ∈ printing.commands t, IsCommand c := by
  rw [Printing.forall_mem_commands, printing_select, printing_body, printing_leave, body,
    List.forall_mem_map]
  refine ⟨?_, fun s hs => ?_, ?_⟩
  · exact (startsWords_select t.id).isCommand_of_endsCommand (lineOf_select t.id)
  · exact ⟨(startsWords_setting s).startsKnown, (h.wellFormed.readBack h.valid s hs).1⟩
  · have hleave : leaveCommand = phrase ["tunnel", "select", "none"] := by decide
    rw [hleave]
    exact startsWords_leave.isCommand lineOf_leave

/-! ## What comes back -/

/-- A sound tunnel comes back from its commands. -/
theorem Sound.comesBack {t : Tunnel} (h : t.Sound) : printing.ComesBack decodeGroup t := by
  refine ⟨isCommand_of_sound h, t.isGroup, fun lines hlines => ?_⟩
  rw [printing_body] at hlines
  have hrun := foldlM_body h.wellFormed h.valid
  rw [← hlines] at hrun
  exact Selection.decode_checkedContext_of_ok hrun h.valid

/-- **The commands of sound tunnels are read back**, each tunnel with what was said
about it. -/
theorem decode_indented {ts : List Tunnel} (hsound : ∀ t ∈ ts, t.Sound)
    (hids : (ts.map printing.id).Nodup) {ps : List (Nat × String)}
    (hps : ps.map Prod.snd = ts.flatMap commands)
    (hmarker : ∀ c ∈ ts.flatMap commands, ¬ EndsWithMarker c) :
    decode (dialect.parse (joined "\n" (ps.map indented))).stanza = .ok ⟨ts, []⟩ := by
  have hcomesBack : ∀ t ∈ ts, printing.ComesBack decodeGroup t :=
    fun t ht => (hsound t ht).comesBack
  rw [← commands_printing] at hps hmarker
  rw [decode_eq]
  exact Printing.decode_indented hcomesBack hids hps hmarker

/-- **Tunnels come back.**  What is read from any text can be written; and unless a
command says that it goes on, what was written, with any number of spaces in front of
each command, is read as the same tunnels in the same order, with no line rejected. -/
theorem decode_printed_tunnels (raw : String) :
    ∃ d, decode (dialect.parse raw).stanza = .ok d ∧
      ∃ printed, d.records.mapM (fun t => encode t .set) = .ok printed ∧
        ((∀ c ∈ printed.flatten, ¬ EndsWithMarker c) →
          ∀ ps : List (Nat × String), ps.map Prod.snd = printed.flatten →
            decode (dialect.parse (joined "\n" (ps.map indented))).stanza =
              .ok ⟨d.records, []⟩) := by
  obtain ⟨d, hd, hsound, hids⟩ := exists_decode_parse raw
  refine ⟨d, hd, _, mapM_encode_of_sound hsound, fun hmarker ps hps => ?_⟩
  rw [← List.flatMap_def] at hmarker hps
  exact decode_indented hsound hids hps hmarker

/-- Two tunnels, one with a shared secret and one with a description. -/
def offices : List Tunnel :=
  [{ id := 1, ipsecTunnel := some 101,
     ike := some { id := 1, preSharedKey := some (.text "open sesame.") } },
   { id := 2, description := some "branch office" }]

/-- A text about the two tunnels, with the secret in front of the number and no line
that leaves a tunnel. -/
def officeText : String :=
  joined "\n" ["tunnel select 1", " ipsec ike pre-shared-key 1 text open sesame.",
    " ipsec tunnel 101", "tunnel select 2", " description branch office"]

/-- The two tunnels are read from their text, and come back from their commands. -/
theorem decode_printed_offices :
    decode (dialect.parse officeText).stanza = .ok ⟨offices, []⟩ ∧
      ∃ printed, offices.mapM (fun t => encode t .set) = .ok printed ∧
        (∀ c ∈ printed.flatten, ¬ EndsWithMarker c) ∧
          ∀ ps : List (Nat × String), ps.map Prod.snd = printed.flatten →
            decode (dialect.parse (joined "\n" (ps.map indented))).stanza = .ok ⟨offices, []⟩ := by
  have hread : decode (dialect.parse officeText).stanza = .ok ⟨offices, []⟩ := by decide +kernel
  have hcommands : ∃ printed, offices.mapM (fun t => encode t .set) = .ok printed ∧
      ∀ c ∈ printed.flatten, ¬ EndsWithMarker c := by
    refine ⟨[["tunnel select 1", "ipsec tunnel 101",
        "ipsec ike pre-shared-key 1 text open sesame.", "tunnel select none"],
      ["tunnel select 2", "description branch office", "tunnel select none"]], ?_, ?_⟩
    · decide +kernel
    · unfold EndsWithMarker
      decide
  obtain ⟨d, hd, printed, hprinted, hback⟩ := decode_printed_tunnels officeText
  obtain rfl : d = ⟨offices, []⟩ := Except.ok.inj (hd.symm.trans hread)
  obtain ⟨written, hwritten, hmarker⟩ := hcommands
  obtain rfl : printed = written := Except.ok.inj (hprinted.symm.trans hwritten)
  exact ⟨hread, printed, hprinted, hmarker, hback hmarker⟩

end RouterConfig.Tunnel
