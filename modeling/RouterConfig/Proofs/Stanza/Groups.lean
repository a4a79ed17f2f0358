import RouterConfig.Stanza

/-!
# Groups that are printed one after the other

A list of records is printed group by group.  Each group has a header, the lines
that belong to it, and a line that leaves it.  Scanning such a text gives back the
groups, in order and with their lines (`scan_groups`), provided no two of them have
the same key.

The lines of a group may be indented or not, since they are members.  What has to
be excluded is that one of them closes the group early.  A trailer does, so only
the last line of a group may be one.  Whether the group is then still open or not,
the line that leaves it leaves it, and the next header is met with no group open.
-/

namespace RouterConfig

open Scanner

variable {π : Type} [LinePattern π]

/-! ## The lines of a group -/

section Groups

variable (definitions : List (ContextDefinition π)) (d : ContextDefinition π)

/-- The text is a header of the definition, and names the identifier. -/
structure Opens (id : ContextId) (text : String) : Prop where
  kept : isSkipped text = false
  header : header? definitions text = some (d, ⟨d.kind, id⟩)

/-- The text stays in an open group, whatever its indent. -/
structure Stays (text : String) : Prop where
  kept : isSkipped text = false
  header : header? definitions text = none
  leave : d.isLeave text = false
  isMember : d.isMember text = true

/-- The text leaves the group, and whatever else may be open. -/
structure Closes (text : String) : Prop where
  kept : isSkipped text = false
  header : header? definitions text = none
  leave : d.isLeave text = true
  leaves : (definitions.any fun e => e.isLeave text) = true

/-- The commands make a group: its header, what is said in it, and what leaves it. -/
structure IsGroup (id : ContextId) (header : String) (body : List String) (leave : String) :
    Prop where
  opens : Opens definitions d id header
  stays : ∀ command ∈ body, Stays definitions d command
  trailer : ∀ command ∈ body.dropLast, d.isTrailer command = false
  closes : Closes definitions d leave

/-- A group with its lines. -/
structure PrintedGroup where
  id : ContextId
  header : Line
  body : List Line
  leave : Line
  isGroup : IsGroup definitions d id header.text (body.map Line.text) leave.text

end Groups

variable {definitions : List (ContextDefinition π)} {d : ContextDefinition π}

namespace PrintedGroup

/-- The key of a group. -/
def key (g : PrintedGroup definitions d) : ContextKey := ⟨d.kind, g.id⟩

/-- The lines of a group, from its header to the line that leaves it. -/
def lines (g : PrintedGroup definitions d) : List Line :=
  g.header :: g.body ++ [g.leave]

/-- The places of its lines. -/
def placed (g : PrintedGroup definitions d) : List (Place × Line) :=
  (.header g.key, g.header) :: g.body.map (fun line => (.inside g.key, line)) ++ [(.leave, g.leave)]

end PrintedGroup

/-! ## Where the lines go -/

theorem place_of_opens {id : ContextId} {line : Line} (h : Opens definitions d id line.text)
    (opened : OpenContext π) :
    place definitions opened line = (.header ⟨d.kind, id⟩, some (d, ⟨d.kind, id⟩)) := by
  unfold place
  rw [h.kept, h.header]
  rfl

theorem place_of_stays (key : ContextKey) {line : Line} (h : Stays definitions d line.text) :
    place definitions (some (d, key)) line =
      (.inside key, if d.isTrailer line.text then none else some (d, key)) := by
  unfold place
  rw [h.kept, h.header]
  simp [h.leave, h.isMember]

/-- The line that leaves a group leaves it, open or not. -/
theorem place_of_closes {key : ContextKey} {line : Line} (h : Closes definitions d line.text)
    {opened : OpenContext π} (hopened : opened = some (d, key) ∨ opened = none) :
    place definitions opened line = (.leave, none) := by
  unfold place
  rw [h.kept, h.header]
  rcases hopened with rfl | rfl
  · simp [h.leave]
  · simp [h.leaves]

/-- **The lines of a group go into it.**  Only the last one may close it. -/
theorem places_body (key : ContextKey) {body : List Line}
    (hstays : ∀ line ∈ body, Stays definitions d line.text)
    (htrailer : ∀ line ∈ body.dropLast, d.isTrailer line.text = false) (rest : List Line) :
    ∃ opened : OpenContext π, (opened = some (d, key) ∨ opened = none) ∧
      places definitions (some (d, key)) (body ++ rest) =
        body.map (fun line => (Place.inside key, line)) ++ places definitions opened rest := by
  induction body with
  | nil => exact ⟨some (d, key), Or.inl rfl, rfl⟩
  | cons line body ih =>
    have hplace := place_of_stays key (hstays line (List.mem_cons_self ..))
    rw [List.cons_append, places, hplace]
    cases body with
    | nil =>
      refine ⟨if d.isTrailer line.text then none else some (d, key), ?_, rfl⟩
      split
      · exact Or.inr rfl
      · exact Or.inl rfl
    | cons next body =>
      rw [List.dropLast_cons_cons] at htrailer
      have hopen : d.isTrailer line.text = false := htrailer line (List.mem_cons_self ..)
      obtain ⟨opened, hopened, hrest⟩ := ih
        (fun l hl => hstays l (List.mem_cons_of_mem _ hl))
        fun l hl => htrailer l (List.mem_cons_of_mem _ hl)
      refine ⟨opened, hopened, ?_⟩
      rw [hopen, if_neg (by decide), hrest]
      rfl

/-- **One group.**  It begins whatever is open, and leaves nothing open. -/
theorem places_group (g : PrintedGroup definitions d) (opened : OpenContext π) (rest : List Line) :
    places definitions opened (g.lines ++ rest) = g.placed ++ places definitions none rest := by
  have hstays := List.forall_mem_map.mp g.isGroup.stays
  have htrailer := g.isGroup.trailer
  rw [← List.map_dropLast, List.forall_mem_map] at htrailer
  obtain ⟨after, hafter, hbody⟩ := places_body g.key hstays htrailer (g.leave :: rest)
  have hlines : g.lines ++ rest = g.header :: (g.body ++ g.leave :: rest) := by
    simp [PrintedGroup.lines]
  rw [hlines, places, place_of_opens g.isGroup.opens]
  simp only [PrintedGroup.key] at hbody hafter
  rw [hbody, places, place_of_closes g.isGroup.closes hafter]
  simp [PrintedGroup.placed, PrintedGroup.key]

/-- All groups. -/
theorem places_groups (gs : List (PrintedGroup definitions d)) :
    places definitions none (gs.flatMap PrintedGroup.lines) = gs.flatMap PrintedGroup.placed := by
  induction gs with
  | nil => rfl
  | cons g gs ih => rw [List.flatMap_cons, places_group, ih, List.flatMap_cons]

/-- **Commands that make groups are the lines of groups.** -/
theorem exists_printedGroups {ρ : Type} {id : ρ → ContextId} {header leave : ρ → String}
    {body : ρ → List String} {rs : List ρ}
    (hrs : ∀ r ∈ rs, IsGroup definitions d (id r) (header r) (body r) (leave r)) {lines : List Line}
    (hlines : lines.map Line.text = rs.flatMap fun r => header r :: body r ++ [leave r]) :
    ∃ gs : List (PrintedGroup definitions d), gs.flatMap PrintedGroup.lines = lines ∧
      gs.map (fun g => (g.id, g.body.map Line.text)) = rs.map fun r => (id r, body r) := by
  induction rs generalizing lines with
  | nil =>
    rw [List.flatMap_nil, List.map_eq_nil_iff] at hlines
    exact ⟨[], hlines.symm, rfl⟩
  | cons r rs ih =>
    rw [List.flatMap_cons] at hlines
    obtain ⟨own, rest, rfl, hown, hrest⟩ := List.map_eq_append_iff.mp hlines
    obtain ⟨front, last, rfl, hfront, hlast⟩ := List.map_eq_append_iff.mp hown
    obtain ⟨first, inner, rfl, hfirst, hinner⟩ := List.map_eq_cons_iff.mp hfront
    obtain ⟨leaving, rfl, hleaving⟩ := List.map_eq_singleton_iff.mp hlast
    obtain ⟨gs, hgs, hids⟩ := ih (fun q hq => hrs q (List.mem_cons_of_mem _ hq)) hrest
    have hgroup := hrs r (List.mem_cons_self ..)
    rw [← hfirst, ← hinner, ← hleaving] at hgroup
    refine ⟨⟨id r, first, inner, leaving, hgroup⟩ :: gs, ?_, ?_⟩
    · rw [List.flatMap_cons, hgs]
      rfl
    · rw [List.map_cons, List.map_cons, hids, hinner]

/-! ## The groups that come back -/

theorem distinct_of_nodup {α : Type} [DecidableEq α] {l : List α} (h : l.Nodup) :
    distinct l = l := by
  induction l with
  | nil => rfl
  | cons a l ih =>
    have hl := List.nodup_cons.mp h
    have hrest : firstOfEach id l = l := ih hl.2
    rw [distinct, firstOfEach, hrest, List.filter_eq_self.mpr]
    intro b hb
    rw [decide_eq_true_eq]
    rintro rfl
    exact hl.1 hb

theorem filterMap_openedKey?_placed (g : PrintedGroup definitions d) :
    g.placed.filterMap Stanza.openedKey? = [g.key] := by
  have hbody : (g.body.map fun line => (Place.inside g.key, line)).filterMap Stanza.openedKey? =
      [] := by
    rw [List.filterMap_map, List.filterMap_eq_nil_iff]
    intro line _
    rfl
  rw [PrintedGroup.placed, List.cons_append, List.filterMap_cons, List.filterMap_append, hbody]
  rfl

theorem linesAt_append (p : Place) (xs ys : List (Place × Line)) :
    Stanza.linesAt p (xs ++ ys) = Stanza.linesAt p xs ++ Stanza.linesAt p ys := by
  rw [Stanza.linesAt, List.filter_append, List.map_append, Stanza.linesAt, Stanza.linesAt]

/-- The lines of a group are in its own place and in no other. -/
theorem linesAt_placed (g : PrintedGroup definitions d) (key : ContextKey) :
    Stanza.linesAt (.inside key) g.placed = if g.key = key then g.body else [] := by
  have hbody : Stanza.linesAt (.inside key) (g.body.map fun line => (Place.inside g.key, line)) =
      if g.key = key then g.body else [] := by
    rw [Stanza.linesAt, List.filter_map, List.map_map]
    split
    · next hkey => simp [hkey, Function.comp_def]
    · next hkey => simp [hkey, Function.comp_def]
  rw [PrintedGroup.placed, List.cons_append, ← List.singleton_append, linesAt_append,
    linesAt_append, hbody]
  simp [Stanza.linesAt]

/-- With different keys, each key collects the lines of one group. -/
theorem linesAt_groups {gs : List (PrintedGroup definitions d)}
    (hkeys : (gs.map PrintedGroup.key).Nodup) :
    ∀ g ∈ gs, Stanza.linesAt (.inside g.key) (gs.flatMap PrintedGroup.placed) = g.body := by
  have hnone : ∀ (key : ContextKey) (hs : List (PrintedGroup definitions d)),
      key ∉ hs.map PrintedGroup.key →
        Stanza.linesAt (.inside key) (hs.flatMap PrintedGroup.placed) = [] := by
    intro key hs hkey
    induction hs with
    | nil => rfl
    | cons h hs ih =>
      rw [List.map_cons, List.mem_cons, not_or] at hkey
      rw [List.flatMap_cons, linesAt_append, linesAt_placed, if_neg fun he => hkey.1 he.symm,
        ih hkey.2, List.append_nil]
  induction gs with
  | nil => simp
  | cons h hs ih =>
    rw [List.map_cons, List.nodup_cons] at hkeys
    intro g hg
    rw [List.flatMap_cons, linesAt_append, linesAt_placed]
    rcases List.mem_cons.mp hg with rfl | hg
    · rw [if_pos rfl, hnone _ _ hkeys.1, List.append_nil]
    · have hne : h.key ≠ g.key := fun he => hkeys.1 (he ▸ List.mem_map_of_mem hg)
      rw [if_neg hne, List.nil_append, ih hkeys.2 g hg]

/-- **Groups that are printed one after the other come back.** -/
theorem contexts_scan_groups {gs : List (PrintedGroup definitions d)}
    (hkeys : (gs.map PrintedGroup.key).Nodup) :
    (Stanza.scan definitions (gs.flatMap PrintedGroup.lines)).contexts =
      gs.map fun g => (g.key, g.body) := by
  have hopened : (gs.flatMap PrintedGroup.placed).filterMap Stanza.openedKey? =
      gs.map PrintedGroup.key := by
    clear hkeys
    induction gs with
    | nil => rfl
    | cons g gs ih =>
      rw [List.flatMap_cons, List.filterMap_append, filterMap_openedKey?_placed, ih]
      rfl
  rw [Stanza.scan, places_groups, Stanza.ofPlaces]
  simp only [hopened, distinct_of_nodup hkeys, List.map_map]
  exact List.map_congr_left fun g hg => by rw [Function.comp_apply, linesAt_groups hkeys g hg]

/-- The groups of their kind. -/
theorem contextsOf_scan_groups {gs : List (PrintedGroup definitions d)}
    (hids : (gs.map PrintedGroup.id).Nodup) :
    (Stanza.scan definitions (gs.flatMap PrintedGroup.lines)).contextsOf d.kind =
      gs.map fun g => (g.id, g.body) := by
  have hkeys : (gs.map PrintedGroup.key).Nodup := by
    have hkey : gs.map PrintedGroup.key = (gs.map PrintedGroup.id).map fun id => ⟨d.kind, id⟩ := by
      rw [List.map_map]
      rfl
    rw [hkey, List.Nodup, List.pairwise_map]
    exact hids.imp fun hne he => hne (ContextKey.mk.inj he).2
  rw [Stanza.contextsOf, contexts_scan_groups hkeys, List.filter_eq_self.mpr, List.map_map]
  · rfl
  · intro c hc
    obtain ⟨g, -, rfl⟩ := List.mem_map.mp hc
    exact decide_eq_true rfl

/-! ## What every scan gives -/

/-- Every line is placed once, in its turn. -/
@[simp] theorem map_snd_places (opened : OpenContext π) (lines : List Line) :
    (places definitions opened lines).map Prod.snd = lines := by
  induction lines generalizing opened with
  | nil => rfl
  | cons line lines ih => rw [places, List.map_cons, ih]

/-- The lines of a group are lines of the text. -/
theorem mem_of_mem_contexts {lines : List Line} {c : ContextKey × List Line}
    (hc : c ∈ (Stanza.scan definitions lines).contexts) : ∀ line ∈ c.2, line ∈ lines := by
  rw [Stanza.scan, Stanza.ofPlaces, List.mem_map] at hc
  obtain ⟨key, -, rfl⟩ := hc
  intro line hline
  obtain ⟨q, hq, rfl⟩ := List.mem_map.mp hline
  have hmem := List.mem_map_of_mem (f := Prod.snd) (List.mem_filter.mp hq).1
  rwa [map_snd_places] at hmem

/-- No two groups have the same key. -/
theorem nodup_keys_contexts (lines : List Line) :
    ((Stanza.scan definitions lines).contexts.map Prod.fst).Nodup := by
  rw [Stanza.scan, Stanza.ofPlaces, List.map_map]
  have hid : (Prod.fst ∘ fun key => (key, Stanza.linesAt (.inside key)
      (places definitions none lines))) = id := rfl
  rw [hid, List.map_id]
  exact nodup_distinct _

/-- The lines of a group of a kind are lines of the text. -/
theorem mem_of_mem_contextsOf {lines : List Line} {kind : String} {c : ContextId × List Line}
    (hc : c ∈ (Stanza.scan definitions lines).contextsOf kind) : ∀ line ∈ c.2, line ∈ lines := by
  obtain ⟨k, hk, rfl⟩ := List.mem_map.mp hc
  exact mem_of_mem_contexts (List.mem_filter.mp hk).1

/-- No two groups of a kind have the same identifier. -/
theorem nodup_ids_contextsOf (lines : List Line) (kind : String) :
    (((Stanza.scan definitions lines).contextsOf kind).map Prod.fst).Nodup := by
  have hkeys : ((Stanza.scan definitions lines).contexts.map Prod.fst).Nodup :=
    nodup_keys_contexts lines
  rw [List.Nodup, List.pairwise_map] at hkeys
  rw [Stanza.contextsOf, List.map_map, List.Nodup, List.pairwise_map]
  refine (hkeys.filter _).imp_of_mem ?_
  intro a b ha hb hne he
  have hkind : a.1.kind = b.1.kind :=
    (of_decide_eq_true (List.mem_filter.mp ha).2).trans
      (of_decide_eq_true (List.mem_filter.mp hb).2).symm
  refine hne ?_
  obtain ⟨⟨ka, ia⟩, la⟩ := a
  obtain ⟨⟨kb, ib⟩, lb⟩ := b
  exact (ContextKey.mk.injEq ..).mpr ⟨hkind, he⟩

end RouterConfig
