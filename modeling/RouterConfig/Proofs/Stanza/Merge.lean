import RouterConfig.Dialect.Rtx
import RouterConfig.Proofs.Stanza.Places

/-!
# Texts that are cut in front of a header

What the scanner carries from line to line is which group is open, and a header
opens its group whatever was open before.  So a text may be cut in front of a header,
and the two parts scanned apart (`places_append_of_isHeader`).

What is left is to put two stanzas together, and there the groups need care, since
the second part may enter a group of the first again.  `Stanza.merge` lists the keys
in the order in which they come first, and gives each key the lines that it has in
the first part and then those that it has in the second.  A key that is in one part
only has no lines in the other, because every line that is stored in a group has a
header of that group in front of it (`linesOf_scan`).
-/

namespace RouterConfig

open Scanner

/-! ## Keys in the order in which they come first -/

/-- What is new in the second list stands behind what is in the first. -/
theorem distinct_append {α : Type} [DecidableEq α] (xs ys : List α) :
    distinct (xs ++ ys) = distinct xs ++ (distinct ys).filter fun y => y ∉ xs := by
  simp only [distinct]
  induction xs with
  | nil => simp [firstOfEach]
  | cons x xs ih =>
    rw [List.cons_append, firstOfEach, ih, firstOfEach, List.cons_append, List.filter_append,
      List.filter_filter]
    simp only [id_eq, List.mem_cons, not_or, Bool.decide_and]

/-- It does not matter whether repetitions were left out of the parts before. -/
theorem distinct_append_distinct {α : Type} [DecidableEq α] (xs ys : List α) :
    distinct (distinct xs ++ distinct ys) = distinct (xs ++ ys) := by
  rw [distinct_append, distinct_append, distinct_of_nodup (nodup_distinct xs),
    distinct_of_nodup (nodup_distinct ys)]
  simp only [mem_distinct]

/-- What is found under a key in a list that has one entry for each key. -/
theorem lookup_map_mk {κ β : Type} [DecidableEq κ] (f : κ → β) (keys : List κ) (key : κ) :
    (keys.map fun k => (k, f k)).lookup key = if key ∈ keys then some (f key) else none := by
  induction keys with
  | nil => rfl
  | cons k keys ih =>
    rw [List.map_cons, List.lookup_cons, ih]
    by_cases hk : key = k
    · simp [hk]
    · simp [hk, beq_eq_false_iff_ne.mpr hk]

/-! ## Stanzas put together -/

namespace Stanza

/-- The keys of the groups, in order. -/
def keys (s : Stanza) : List ContextKey :=
  s.contexts.map Prod.fst

/-- The lines of the group with the key; there are none if there is no such group. -/
def linesOf (s : Stanza) (key : ContextKey) : List Line :=
  (s.contexts.lookup key).getD []

/-- Two stanzas put together.  Each keeps the order of its lines, and the first comes
before the second, at top level and in every group. -/
def merge (s t : Stanza) : Stanza where
  topLevel := s.topLevel ++ t.topLevel
  contexts := (distinct (s.keys ++ t.keys)).map fun key => (key, s.linesOf key ++ t.linesOf key)
  skipped := s.skipped + t.skipped

variable {π : Type} [LinePattern π] {definitions : List (ContextDefinition π)}

theorem keys_scan (lines : List Line) :
    (scan definitions lines).keys =
      distinct ((places definitions none lines).filterMap openedKey?) := by
  rw [keys, scan, ofPlaces, List.map_map]
  exact List.map_id _

/-- **The lines under a key** are those that go to its group, for any key. -/
theorem linesOf_scan (lines : List Line) (key : ContextKey) :
    (scan definitions lines).linesOf key =
      linesAt (.inside key) (places definitions none lines) := by
  rw [linesOf, scan, ofPlaces, lookup_map_mk]
  split
  · rfl
  · next hkey =>
    -- without a header with the key no line goes to its group
    rw [mem_distinct] at hkey
    exact (linesAt_inside_eq_nil fun line hline => hkey (mem_openedKeys_of_inside hline)).symm

/-! ## The cut -/

/-- **A header forgets what was open**, so the lines from it on go where they would go
by themselves. -/
theorem places_append_of_isHeader {d : ContextDefinition π} {key : ContextKey} {header : Line}
    (h : IsHeader definitions d key header) (xs ys : List Line) :
    places definitions none (xs ++ header :: ys) =
      places definitions none xs ++ places definitions none (header :: ys) := by
  rw [places_append, places, places, place_of_isHeader h, place_of_isHeader h]

/-- **Scanning is compositional at headers.**  When the second part of a text starts with
a header of any of the definitions, the stanza of the text is that of its parts, scanned
by themselves and put together.  A blank line or a comment is skipped before it is
compared with a definition, so it is no header and forgets nothing. -/
theorem scan_append_of_header (definitions : List (ContextDefinition π)) (xs : List Line)
    {ys : List Line} {header : Line} (hfirst : ys.head? = some header)
    (hheader : ∃ d key, IsHeader definitions d key header) :
    scan definitions (xs ++ ys) = (scan definitions xs).merge (scan definitions ys) := by
  obtain ⟨d, key, hheader⟩ := hheader
  obtain ⟨rest, rfl⟩ := List.head?_eq_some_iff.mp hfirst
  have hplaces := places_append_of_isHeader hheader xs rest
  rw [scan, ofPlaces, merge, mk.injEq, hplaces]
  refine ⟨?_, ?_, ?_⟩
  · rw [linesAt_append]
    rfl
  · rw [List.filterMap_append, keys_scan, keys_scan, distinct_append_distinct]
    refine List.map_congr_left fun k _ => ?_
    rw [linesAt_append, linesOf_scan, linesOf_scan]
  · rw [linesAt_append, List.length_append]
    rfl

/-- The lines of two tunnels, up to a line that selects the first one again. -/
def leftTunnels : List Line :=
  [⟨1, 0, "tunnel select 1"⟩, ⟨2, 1, "description a"⟩, ⟨3, 0, "# spare"⟩,
    ⟨4, 0, "tunnel select 2"⟩]

/-- The lines from there on. -/
def reenteredTunnel : List Line :=
  [⟨5, 0, "tunnel select 1"⟩, ⟨6, 1, "tunnel enable 1"⟩, ⟨7, 0, "ip filter 1 pass * *"⟩]

/-- The tunnel that is entered again has the lines of both parts, and the one in between,
which a header opened and a header left, is there without lines. -/
theorem scan_append_of_header_reentered :
    scan Rtx.dialect.contexts (leftTunnels ++ reenteredTunnel) =
        (scan Rtx.dialect.contexts leftTunnels).merge
          (scan Rtx.dialect.contexts reenteredTunnel) ∧
      scan Rtx.dialect.contexts (leftTunnels ++ reenteredTunnel) =
        ⟨[⟨7, 0, "ip filter 1 pass * *"⟩],
          [(⟨"tunnel", .number 1⟩, [⟨2, 1, "description a"⟩, ⟨6, 1, "tunnel enable 1"⟩]),
            (⟨"tunnel", .number 2⟩, [])], 1⟩ :=
  ⟨scan_append_of_header _ _ rfl
    ⟨Rtx.tunnelContext, ⟨"tunnel", .number 1⟩, by decide +kernel, by decide +kernel⟩,
    by decide +kernel⟩

end Stanza

end RouterConfig
