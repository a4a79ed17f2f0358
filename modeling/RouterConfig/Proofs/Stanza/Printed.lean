import RouterConfig.Parse
import RouterConfig.Proofs.Commands.Rules
import RouterConfig.Proofs.Stanza.Groups
import RouterConfig.Proofs.Stanza.Selection
import RouterConfig.Proofs.Wrap.Commands

/-!
# Records that are printed as groups

Tunnels and sessions are printed in the same way.  One command selects the record,
the next ones say what it is, and one that is the same for all records leaves it.  A
*printing* is such a way to print.

A record *comes back* under a printing when its commands stand on lines, make a group,
and the group is read as the record.  What is shown here is that a list of such
records comes back as a whole, from lines with any indents (`decode_indented`), so that
for each kind of record only single groups have to be looked at.
-/

namespace RouterConfig.Rtx

open Wrap

variable {ρ : Type}

/-- A way to print records as groups of one kind. -/
structure Printing (ρ : Type) where
  definition : ContextDefinition
  id : ρ → ContextId
  select : ρ → String
  body : ρ → List String
  leave : String

namespace Printing

variable (p : Printing ρ)

/-- The commands for one record. -/
def commands (r : ρ) : List String :=
  p.select r :: p.body r ++ [p.leave]

variable {p} in
theorem forall_mem_commands {P : String → Prop} {r : ρ} :
    (∀ c ∈ p.commands r, P c) ↔ P (p.select r) ∧ (∀ c ∈ p.body r, P c) ∧ P p.leave := by
  rw [commands, List.cons_append, List.forall_mem_cons, List.forall_mem_append,
    List.forall_mem_singleton]

/-- The record stands on lines that make a group, from which it is read. -/
structure ComesBack (decodeGroup : ContextId × List Line → Except ReadStop (Decoded ρ))
    (r : ρ) : Prop where
  isCommand : ∀ c ∈ p.commands r, IsCommand c
  isGroup : IsGroup dialect.contexts p.definition (p.id r) (p.select r) (p.body r) p.leave
  decodes : ∀ lines : List Line, lines.map Line.text = p.body r →
    decodeGroup (p.id r, lines) = .ok (.single r)

/-- Decodes all groups of the kind. -/
def decode (decodeGroup : ContextId × List Line → Except ReadStop (Decoded ρ)) (stanza : Stanza) :
    Except ReadStop (Decoded ρ) := do
  return .concat (← (stanza.contextsOf p.definition.kind).mapM decodeGroup)

variable {p} {decodeGroup : ContextId × List Line → Except ReadStop (Decoded ρ)} {rs : List ρ}
  {ps : List (Nat × String)}

/-! ## What is read -/

/-- The records are decoded when each group is. -/
theorem exists_decode_iff {stanza : Stanza} :
    (∃ d, p.decode decodeGroup stanza = .ok d) ↔
      ∀ c ∈ stanza.contextsOf p.definition.kind, ∃ part, decodeGroup c = .ok part := by
  rw [← exists_mapM_iff]
  constructor
  · rintro ⟨d, h⟩
    obtain ⟨parts, hparts, -⟩ := bind_eq_ok_iff.mp h
    exact ⟨parts, hparts⟩
  · rintro ⟨parts, hparts⟩
    exact ⟨.concat parts, by rw [decode, hparts]; rfl⟩

/-- The lines of the groups of a text are lines. -/
theorem isLine_of_mem_parse {raw kind : String} {c : ContextId × List Line}
    (hc : c ∈ (dialect.parse raw).stanza.contextsOf kind) :
    ∀ line ∈ c.2, IsLine line.text.toList :=
  fun line hline => isLine_of_mem_reconstruct dialect.reconstructor raw line
    (mem_of_mem_contextsOf hc line hline)

/-- **What is read from a text** has what the record of every group has, and no two
records are printed as the same group. -/
theorem records_of_decode_parse {P : ρ → Prop} {raw : String} {d : Decoded ρ}
    (hd : p.decode decodeGroup (dialect.parse raw).stanza = .ok d)
    (h : ∀ c : ContextId × List Line, (∀ line ∈ c.2, IsLine line.text.toList) →
      ∀ part, decodeGroup c = .ok part →
        part.records = [] ∨ ∃ r, part.records = [r] ∧ p.id r = c.1 ∧ P r) :
    (∀ r ∈ d.records, P r) ∧ (d.records.map p.id).Nodup := by
  obtain ⟨parts, hparts, hd⟩ := bind_eq_ok_iff.mp hd
  obtain rfl := pure_eq_ok_iff.mp hd
  obtain ⟨hrecords, hids⟩ := Selection.records_of_mapM hparts fun c hc =>
    h c (isLine_of_mem_parse hc)
  exact ⟨hrecords, (nodup_ids_contextsOf _ _).sublist hids⟩

/-! ## What comes back -/

/-- The groups of printed records, each with the lines that say what it is. -/
theorem map_contextsOf_indented (hrs : ∀ r ∈ rs, p.ComesBack decodeGroup r)
    (hids : (rs.map p.id).Nodup) (hps : ps.map Prod.snd = rs.flatMap p.commands)
    (hmarker : ∀ c ∈ rs.flatMap p.commands, ¬ EndsWithMarker c) :
    ((dialect.parse (joined "\n" (ps.map indented))).stanza.contextsOf p.definition.kind).map
      (fun c => (c.1, c.2.map Line.text)) = rs.map fun r => (p.id r, p.body r) := by
  have hentries : ∀ q ∈ ps, IsEntry q.2 := by
    intro q hq
    have hmem : q.2 ∈ ps.map Prod.snd := List.mem_map_of_mem hq
    rw [hps, List.mem_flatMap] at hmem
    obtain ⟨r, hr, hc⟩ := hmem
    exact ((hrs r hr).isCommand q.2 hc).isEntry
  have hquiet : ∀ q ∈ ps.dropLast, ¬ EndsWithMarker q.2 := by
    intro q hq
    refine hmarker q.2 ?_
    rw [← hps]
    exact List.mem_map_of_mem (List.dropLast_subset _ hq)
  have hlines : (printedFrom 1 ps).map Line.text =
      rs.flatMap fun r => p.select r :: p.body r ++ [p.leave] := by
    rw [map_text_printedFrom, hps]
    rfl
  obtain ⟨gs, hgs, hcontent⟩ := exists_printedGroups (fun r hr => (hrs r hr).isGroup) hlines
  have hnodup : (gs.map PrintedGroup.id).Nodup := by
    have hfirst := congrArg (List.map Prod.fst) hcontent
    rw [List.map_map, List.map_map] at hfirst
    have hkeys : gs.map PrintedGroup.id = rs.map p.id := hfirst
    rwa [hkeys]
  rw [Dialect.parse, reconstruct_indented hentries hquiet, ← hgs, contextsOf_scan_groups hnodup,
    List.map_map]
  exact hcontent

/-- **Printed records are read back**, one for each group. -/
theorem decode_indented (hrs : ∀ r ∈ rs, p.ComesBack decodeGroup r) (hids : (rs.map p.id).Nodup)
    (hps : ps.map Prod.snd = rs.flatMap p.commands)
    (hmarker : ∀ c ∈ rs.flatMap p.commands, ¬ EndsWithMarker c) :
    p.decode decodeGroup (dialect.parse (joined "\n" (ps.map indented))).stanza =
      .ok ⟨rs, []⟩ := by
  have hcontent := map_contextsOf_indented hrs hids hps hmarker
  rw [decode]
  generalize (dialect.parse _).stanza.contextsOf _ = groups at hcontent ⊢
  have hparts : groups.mapM decodeGroup = .ok (rs.map .single) := by
    refine Selection.mapM_groups_single _ _ hcontent ?_
    rintro ⟨key, lines⟩ - r hr he
    obtain ⟨rfl, hbody⟩ := Prod.mk.inj he
    exact (hrs r hr).decodes lines hbody
  rw [hparts]
  simp

end Printing

end RouterConfig.Rtx
