import RouterConfig.Proofs.Stanza.Places
import RouterConfig.Proofs.Table

/-!
# Scanning line by line

A scanner has a table of groups that it adds to, line after line, and a note of which
group is open.  After some lines the table is the one that is read off their places, and
the open group is the one that these lines leave open (`scanLine_scanned`).

Both ways in which a line touches the table rest on one fact about the lines before it: a
line is stored in a group only behind a header of that group.  So a header that opens a
group for the first time starts it with no lines, and a line that is stored finds its
group.
-/

namespace RouterConfig.Stanza

open Scanner

/-! ## One more placed line -/

section Placed

variable {placed : List (Place × Line)} {p : Place} {key : ContextKey} {line : Line}

/-- Only the place where a line goes has one line more. -/
theorem linesAt_concat (p q : Place) (placed : List (Place × Line)) (line : Line) :
    linesAt p (placed ++ [(q, line)]) =
      if q = p then linesAt p placed ++ [line] else linesAt p placed := by
  rw [linesAt_append, linesAt_cons]
  split_ifs
  · rfl
  · exact List.append_nil _

/-- The groups of placed lines, as a table. -/
theorem contexts_ofPlaces (placed : List (Place × Line)) :
    (ofPlaces placed).contexts = Table.collected id (fun key => linesAt (.inside key) placed)
      (placed.filterMap openedKey?) :=
  rfl

/-- A header opens its group, and starts it with no lines if it is new. -/
theorem change_contexts_of_header
    (hnew : key ∉ placed.filterMap openedKey? → ∀ other, (Place.inside key, other) ∉ placed) :
    Table.change key [] id (ofPlaces placed).contexts =
      (ofPlaces (placed ++ [(Place.header key, line)])).contexts := by
  have hkeys : (placed ++ [(Place.header key, line)]).filterMap openedKey? =
      placed.filterMap openedKey? ++ [key] := filterMap_concat openedKey? placed _
  have hsame : ∀ k, linesAt (.inside k) (placed ++ [(Place.header key, line)]) =
      linesAt (.inside k) placed := fun k => by rw [linesAt_concat, if_neg Place.noConfusion]
  have hstart : id key ∉ (placed.filterMap openedKey?).map id →
      linesAt (.inside key) (placed ++ [(Place.header key, line)]) = id [] := by
    rw [List.map_id, hsame]
    exact fun hkey => linesAt_inside_eq_nil (hnew hkey)
  rw [contexts_ofPlaces (placed ++ _), hkeys, contexts_ofPlaces]
  exact Table.change_collected (fun k _ _ => hsame k) (fun k _ _ => hsame k) hstart

/-- A line of a group is put behind the others, if the group is there. -/
theorem change_contexts_of_inside (hkey : key ∈ placed.filterMap openedKey?) :
    Table.change key [] (· ++ [line]) (ofPlaces placed).contexts =
      (ofPlaces (placed ++ [(Place.inside key, line)])).contexts := by
  have hkeys : (placed ++ [(Place.inside key, line)]).filterMap openedKey? =
      placed.filterMap openedKey? := by
    rw [filterMap_concat]
    exact List.append_nil _
  have hmem : id key ∈ (placed.filterMap openedKey?).map id := by rwa [List.map_id]
  rw [contexts_ofPlaces (placed ++ _), hkeys, ← Table.collected_concat_of_mem hmem,
    contexts_ofPlaces]
  refine Table.change_collected (fun k _ hk => ?_) (fun k _ hk => ?_) fun h => absurd hmem h
  · have hne : Place.inside key ≠ .inside k := fun he => hk (Place.inside.inj he).symm
    rw [linesAt_concat, if_neg hne]
  · have heq : Place.inside key = .inside k := congrArg Place.inside hk.symm
    rw [linesAt_concat, if_pos heq]

/-- A line that is placed elsewhere changes no group. -/
theorem contexts_ofPlaces_concat (hkey : openedKey? (p, line) = none)
    (hinside : ∀ k, p ≠ .inside k) :
    (ofPlaces (placed ++ [(p, line)])).contexts = (ofPlaces placed).contexts := by
  have hkeys : (placed ++ [(p, line)]).filterMap openedKey? = placed.filterMap openedKey? := by
    rw [filterMap_concat, hkey, Option.toList_none, List.append_nil]
  rw [contexts_ofPlaces, hkeys, contexts_ofPlaces]
  exact Table.collected_congr fun k _ => by rw [linesAt_concat, if_neg (hinside k)]

/-- **Storing one more line** gives the stanza of one more placed line, if lines are placed only
in groups that were opened. -/
theorem store_ofPlaces (hopened : ∀ key other, (Place.inside key, other) ∈ placed ++ [(p, line)] →
      key ∈ placed.filterMap openedKey?) :
    (ofPlaces placed).store line p = ofPlaces (placed ++ [(p, line)]) := by
  have htop : ((ofPlaces placed).store line p).topLevel = linesAt .top (placed ++ [(p, line)]) := by
    rw [linesAt_concat]
    cases p <;> rfl
  have hskipped : ((ofPlaces placed).store line p).skipped =
      (linesAt .skipped (placed ++ [(p, line)])).length := by
    rw [linesAt_concat]
    cases p with
    | skipped => rw [if_pos rfl, List.length_append]; rfl
    | _ => rfl
  have hcontexts : ((ofPlaces placed).store line p).contexts =
      (ofPlaces (placed ++ [(p, line)])).contexts := by
    cases p with
    | header key =>
      exact change_contexts_of_header fun hkey other hother =>
        hkey (hopened key other (List.mem_append_left _ hother))
    | inside key =>
      exact change_contexts_of_inside
        (hopened key line (List.mem_append_right _ (List.mem_singleton_self _)))
    | _ => exact (contexts_ofPlaces_concat rfl fun _ => Place.noConfusion).symm
  exact (Stanza.mk.injEq ..).mpr ⟨htop, hcontexts, hskipped⟩

end Placed

/-! ## The run -/

variable {π : Type} [LinePattern π] {definitions : List (ContextDefinition π)}

/-- What is held after some lines: their stanza, and the group that they leave open. -/
def scanned (definitions : List (ContextDefinition π)) (front : List Line) :
    Stanza × OpenContext π :=
  (ofPlaces (places definitions none front), openedFrom definitions none front)

/-- **One more line** is stored where it goes. -/
theorem scanLine_scanned (front : List Line) (line : Line) :
    scanLine definitions (scanned definitions front) line =
      scanned definitions (front ++ [line]) := by
  have hplaces : places definitions none (front ++ [line]) = places definitions none front ++
      [((place definitions (openedFrom definitions none front) line).1, line)] := by
    rw [places_append]
    rfl
  have hopened : ∀ key other,
      (Place.inside key, other) ∈ places definitions none (front ++ [line]) →
        key ∈ (places definitions none front).filterMap openedKey? := by
    intro key other hother
    have hkey := mem_openedKeys_of_inside hother
    rw [hplaces] at hother hkey
    rcases List.mem_append.mp hother with hfront | hlast
    · exact mem_openedKeys_of_inside hfront
    · -- the line itself is no header, so the one in front of it is an earlier line
      rw [← List.mem_singleton.mp hlast, filterMap_concat, List.mem_append] at hkey
      exact hkey.resolve_right List.not_mem_nil
  rw [hplaces] at hopened
  rw [scanned, scanned, openedFrom_concat, hplaces, ← store_ofPlaces hopened]
  rfl

/-- **Scanning line by line** comes to what is read off the places of the lines. -/
theorem scanLines_eq (definitions : List (ContextDefinition π)) (lines : List Line) :
    scanLines definitions lines = scan definitions lines := by
  have hrun : lines.foldl (scanLine definitions) (scanned definitions []) =
      scanned definitions lines := foldl_eq_of_step fun front line _ => scanLine_scanned front line
  rw [scanLines]
  exact congrArg Prod.fst hrun

end RouterConfig.Stanza
