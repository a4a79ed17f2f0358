import RouterConfig.Parse
import RouterConfig.Proofs.Commands.Rules
import RouterConfig.Proofs.Faults
import RouterConfig.Proofs.Stanza.Fronts
import RouterConfig.Proofs.Wrap.Phrases

/-!
# Commands outside of groups

Six features say everything in commands that belong to no group.  Such a command *stands
alone*: it opens no group and leaves none.  A configuration of such commands has nothing
but top-level lines, one for each command and in their order (`topLevel_parseCommands`).

In the RTX dialect a command stands alone as soon as its first word is a known one and
selects nothing (`standsAlone_phrase`).

`ReadsBack` is what these features are measured by: the records are written, each by its
own commands, and the whole is read again.
-/

namespace RouterConfig

open Scanner Wrap

/-! ## Lines that stand alone -/

section Scan

variable {π : Type} [LinePattern π] {definitions : List (ContextDefinition π)}

/-- The text opens no group and leaves none. -/
structure StandsAlone (definitions : List (ContextDefinition π)) (text : String) : Prop where
  kept : isSkipped text = false
  header : header? definitions text = none
  leaves : (definitions.any fun d => d.isLeave text) = false

theorem place_of_standsAlone {line : Line} (h : StandsAlone definitions line.text) :
    place definitions none line = (.top, none) := by
  unfold place
  rw [h.kept, h.header]
  simp [h.leaves]

/-- While no group is open, none is opened. -/
theorem places_of_standsAlone {lines : List Line}
    (h : ∀ line ∈ lines, StandsAlone definitions line.text) :
    places definitions none lines = lines.map fun line => (Place.top, line) := by
  induction lines with
  | nil => rfl
  | cons line lines ih =>
    obtain ⟨hline, hlines⟩ := List.forall_mem_cons.mp h
    rw [places, place_of_standsAlone hline, ih hlines, List.map_cons]

/-- **Lines that stand alone are at top level**, all of them and in order. -/
theorem topLevel_scan {lines : List Line}
    (h : ∀ line ∈ lines, StandsAlone definitions line.text) :
    (Stanza.scan definitions lines).topLevel = lines := by
  rw [Stanza.scan, places_of_standsAlone h, Stanza.ofPlaces, Stanza.linesAt, List.filter_map]
  simp [Function.comp_def]

end Scan

/-! ## Fronts of lines that stand alone -/

/-- Lines with the front stand alone. -/
structure KeepsOut (definitions : List ContextDefinition) (front : String) : Prop where
  kept : isSkipped front = false
  header : ∀ d ∈ definitions, Apart d.header.stem front
  leave : ∀ d ∈ definitions, ∀ p ∈ d.leave, Apart p.stem front

instance (definitions : List ContextDefinition) (front : String) :
    Decidable (KeepsOut definitions front) :=
  decidable_of_iff
    (isSkipped front = false ∧ (∀ d ∈ definitions, Apart d.header.stem front) ∧
      ∀ d ∈ definitions, ∀ p ∈ d.leave, Apart p.stem front)
    ⟨fun h => ⟨h.1, h.2.1, h.2.2⟩, fun h => ⟨h.kept, h.header, h.leave⟩⟩

/-- A front decides that a line stands alone. -/
theorem standsAlone_of_front {definitions : List ContextDefinition} {front text : String}
    {rest : List Char} (h : KeepsOut definitions front)
    (htext : text.toList = front.toList ++ rest) : StandsAlone definitions text := by
  refine ⟨isSkipped_of_front h.kept htext, header?_of_front h.header htext, ?_⟩
  rw [List.any_eq_false]
  intro d hd
  rw [isLeave_of_front (h.leave d hd) htext]
  decide

namespace Rtx

/-- Only tunnels and sessions are selected. -/
theorem keepsOut_of_mem_commandStarts : ∀ w ∈ commandStarts, w ≠ tunnelKind → w ≠ ppKind →
    KeepsOut dialect.contexts (w ++ " ") := by
  decide

/-- **A command of two words or more stands alone** when its first word is known and is
not that of a selection. -/
theorem standsAlone_phrase {w v : String} {ws : List String} (hw : w ∈ commandStarts)
    (htunnel : w ≠ tunnelKind) (hpp : w ≠ ppKind) :
    StandsAlone dialect.contexts (phrase (w :: v :: ws)) :=
  standsAlone_of_front (keepsOut_of_mem_commandStarts w hw htunnel hpp) (toList_phrase_cons w v ws)

/-- Commands that are seen one for one and stand alone are the top level. -/
theorem topLevel_parseCommands {commands : List String} (hseen : SeenOneForOne commands)
    (halone : ∀ c ∈ commands, StandsAlone dialect.contexts c) :
    (dialect.parseCommands commands).stanza.topLevel.map Line.text = commands := by
  have hlines : ∀ line ∈ (dialect.reconstructor.reconstruct (joined "\n" commands)).lines,
      StandsAlone dialect.contexts line.text := by
    intro line hline
    refine halone line.text ?_
    rw [← hseen.1]
    exact List.mem_map_of_mem hline
  rw [Dialect.parseCommands, Dialect.parse, topLevel_scan hlines]
  exact hseen.1

/-! ## Records that are written and read again -/

section ReadsBack

variable {ρ : Type} [Feature ρ]

/-- The records have commands, and these commands, written one after the other, are read
as `d`. -/
def ReadsBack (rs : List ρ) (d : Decoded ρ) : Prop :=
  ∃ printed, rs.mapM (fun r => Feature.encode r .set) = .ok printed ∧
    Feature.decode (dialect.parseCommands printed.flatten).stanza = .ok d

variable {rs : List ρ} {d : Decoded ρ} {printed : List (List String)}
  {decodeLines : List Line → Decoded ρ}

/-- A record that comes back is one that some lines give. -/
theorem ReadsBack.exists_mem {r : ρ} (h : ReadsBack rs (.single r))
    (decodeLines : List Line → Decoded ρ)
    (hdecode : ∀ stanza : Stanza, Feature.decode stanza = .ok (decodeLines stanza.topLevel)) :
    ∃ lines, r ∈ (decodeLines lines).records := by
  obtain ⟨printed, -, hread⟩ := h
  rw [hdecode] at hread
  refine ⟨(dialect.parseCommands printed.flatten).stanza.topLevel, ?_⟩
  rw [Except.ok.inj hread]
  exact List.mem_singleton_self r

/-- What the top-level lines give is what is read back. -/
theorem readsBack_of_lines
    (hdecode : ∀ stanza : Stanza, Feature.decode stanza = .ok (decodeLines stanza.topLevel))
    (hencode : rs.mapM (fun r => Feature.encode r .set) = .ok printed)
    (hseen : SeenOneForOne printed.flatten)
    (halone : ∀ c ∈ printed.flatten, StandsAlone dialect.contexts c)
    (hlines : ∀ lines : List Line, lines.map Line.text = printed.flatten →
      decodeLines lines = d) : ReadsBack rs d := by
  refine ⟨printed, hencode, ?_⟩
  rw [hdecode, hlines _ (topLevel_parseCommands hseen halone)]

/-- **Records with several commands** read back as what their lines give, when the first
word of each command is known and selects nothing, and no command goes on behind its last
word. -/
theorem readsBack_of_phrases
    (hdecode : ∀ stanza : Stanza, Feature.decode stanza = .ok (decodeLines stanza.topLevel))
    (hencode : rs.mapM (fun r => Feature.encode r .set) = .ok printed)
    (hcommands : ∀ c ∈ printed.flatten, ∃ w v ws, c = phrase (w :: v :: ws) ∧
      (w ∈ commandStarts ∧ w ≠ tunnelKind ∧ w ≠ ppKind) ∧ LineOf EndsCommand (w :: v :: ws))
    (hlines : ∀ lines : List Line, lines.map Line.text = printed.flatten →
      decodeLines lines = d) : ReadsBack rs d := by
  refine readsBack_of_lines hdecode hencode ?_ (fun c hc => ?_) hlines
  · refine seenOneForOne_of_endsCommand fun c hc => ?_
    obtain ⟨w, v, ws, rfl, hw, hline⟩ := hcommands c hc
    exact ⟨_, rfl, startsWords_cons hw.1, hline⟩
  · obtain ⟨w, v, ws, rfl, ⟨hstart, htunnel, hpp⟩, -⟩ := hcommands c hc
    exact standsAlone_phrase hstart htunnel hpp

/-- **A record of one command**, all of whose words are words, reads back as what its line
gives. -/
theorem readsBack_of_line {r : ρ} {w v : String} {ws : List String}
    (hdecode : ∀ stanza : Stanza, Feature.decode stanza = .ok (decodeLines stanza.topLevel))
    (hencode : Feature.encode r .set = .ok [phrase (w :: v :: ws)]) (hw : w ∈ commandStarts)
    (htunnel : w ≠ tunnelKind) (hpp : w ≠ ppKind) (hws : ∀ u ∈ w :: v :: ws, IsWord u)
    (hline : ∀ line : Line, line.text = phrase (w :: v :: ws) → decodeLines [line] = d) :
    ReadsBack [r] d := by
  have hprinted : [r].mapM (fun r => Feature.encode r .set) = .ok [[phrase (w :: v :: ws)]] :=
    mapM_cons_of_ok hencode rfl
  refine readsBack_of_lines hdecode hprinted (seenOneForOne_phrase (startsWords_cons hw) hws)
    (List.forall_mem_singleton.mpr (standsAlone_phrase hw htunnel hpp)) fun lines hlines => ?_
  obtain ⟨line, rfl, htext⟩ := List.map_eq_singleton_iff.mp hlines
  exact hline line htext

end ReadsBack

end Rtx

end RouterConfig
