import Mathlib.Data.List.Pairwise
import RouterConfig.Proofs.Filter.Interface
import RouterConfig.Proofs.Shares

/-!
# Filters are merged interface by interface

The bindings of an interface stand on lines of their own, one for each direction, anywhere
among lines about other interfaces.  What is decoded for an interface is one record or none:
one, if there is a line about it, each such line names a direction and has a binding that can
be read, no two of them name the same direction, and what they make breaks no rule.  The
record then has the binding of each line in the direction of that line, and a direction that
no line names is not bound (`IsMadeOf`).

The lines about an interface are compared in what was read from them.  Two that bind one
direction are not *apart*, and a list of lines spoils no record exactly if all can be read and
any two are apart (`not_mem_spoiledKeys_iff`).
-/

namespace RouterConfig.InterfaceFilters

open Text

/-! ## The lines about an interface -/

/-- The lines about an interface, taken apart, in their order. -/
def linesFor (key : Key) (lines : List Line) : List BindingLine :=
  (lines.filterMap fun line => split? line.text).filter fun l => l.key = key

/-- The line binds these filters to this direction. -/
def BindingLine.Binds (l : BindingLine) (d : Direction) (b : FilterBinding) : Prop :=
  l.direction = d.word ∧ FilterBinding.read l.rest = .ok b

/-- The record has the bindings of the lines about its interface, and no others. -/
def IsMadeOf (lines : List BindingLine) (r : InterfaceFilters) : Prop :=
  ∀ d b, r.binding? d = some b ↔ ∃ l ∈ lines, l.Binds d b

theorem BindingLine.read_eq_ok_iff {l : BindingLine} {d : Direction} {b : FilterBinding} :
    l.read = .ok (d, b) ↔ l.Binds d b := by
  rw [BindingLine.read, Binds, ← Direction.read_eq_ok_iff]
  constructor
  · intro h
    obtain ⟨e, he, h⟩ := bind_eq_ok_iff.mp h
    obtain ⟨c, hc, h⟩ := bind_eq_ok_iff.mp h
    cases h
    exact ⟨he, hc⟩
  · rintro ⟨hd, hb⟩
    rw [hd, hb]
    rfl

/-- A record is made of lines in one way. -/
theorem IsMadeOf.eq {lines : List BindingLine} {r s : InterfaceFilters} (hr : r.IsMadeOf lines)
    (hs : s.IsMadeOf lines) (hkey : r.key = s.key) : r = s :=
  eq_of_binding?_eq hkey fun d => Option.ext fun b => (hr d b).trans (hs d b).symm

/-- What is decoded for an interface from lines. -/
structure MergesTo (key : Key) (lines : List Line) (d : Decoded InterfaceFilters) : Prop where
  /-- There is a record exactly if there is a line, all lines can be read, no direction is on two
  of them, and what they make breaks no rule. -/
  exists_record_iff : (∃ r ∈ d.records, r.key = key) ↔
    linesFor key lines ≠ [] ∧ (∀ l ∈ linesFor key lines, ∃ d b, l.Binds d b) ∧
      ((linesFor key lines).map BindingLine.direction).Nodup ∧
      ∃ r : InterfaceFilters, r.key = key ∧ r.IsMadeOf (linesFor key lines) ∧ validate r = none
  /-- It is the only one, and it is made of these lines. -/
  record_eq : ∀ r ∈ d.records, r.key = key →
    (d.records.filter fun s => s.key = key) = [r] ∧ r.IsMadeOf (linesFor key lines)

/-! ## Lines that spoil a record -/

/-- The keys of the records that some line spoils. -/
def spoiledKeys (xs : List Reading) : List Key :=
  (faults xs).map fun f => f.1.key

/-- Of what was read from two lines, at most one binds each direction of this interface. -/
def ApartFor (key : Key) (x y : Key × Except LineFault (Direction × FilterBinding)) : Prop :=
  ∀ d b c, x = Entry.content (key, d, b) → y ≠ Entry.content (key, d, c)

instance (key : Key) : Std.Symm (ApartFor key) where
  symm _ _ h d b c hx hy := h d c b hy hx

/-- What stands in front of a member goes with it, exactly if any two do. -/
theorem forall_append_iff_pairwise {α : Type} {R : α → α → Prop} {l : List α} :
    (∀ front a back, l = front ++ a :: back → ∀ b ∈ front, R b a) ↔ l.Pairwise R := by
  constructor
  · intro h
    induction l with
    | nil => exact List.Pairwise.nil
    | cons b l ih =>
      refine List.pairwise_cons.mpr ⟨fun a ha => ?_, ih fun front a back hl c hc => ?_⟩
      · obtain ⟨front, back, rfl⟩ := List.append_of_mem ha
        exact h (b :: front) a back rfl b (List.mem_cons_self ..)
      · exact h (b :: front) a back (by rw [hl, List.cons_append]) c (List.mem_cons_of_mem _ hc)
  · rintro h front a back rfl b hb
    exact (List.pairwise_append.mp h).2.2 b hb a (List.mem_cons_self ..)

/-- A line is without fault, if it can be read and no earlier line binds its direction. -/
theorem fault?_eq_none_iff {front : List Reading} {x : Reading} :
    x.fault? front = none ↔
      ∃ d b, x.content = .ok (d, b) ∧ ∀ e ∈ front, ApartFor x.key e.bare x.bare := by
  obtain ⟨line, key, content⟩ := x
  rw [Reading.fault?]
  cases content with
  | error fault => simp
  | ok bound =>
    obtain ⟨d, b⟩ := bound
    have hapart : (∀ e ∈ front, ApartFor key e.bare (Reading.bare ⟨line, key, .ok (d, b)⟩)) ↔
        ∀ e ∈ front, e.binds key d = none := by
      refine forall₂_congr fun e _ => ?_
      rw [Option.eq_none_iff_forall_ne_some]
      simp only [ApartFor, ne_eq, binds_eq_some_iff]
      constructor
      · exact fun h c hc => h d c b hc rfl
      · intro h e c b' he hsame
        obtain ⟨-, hbound⟩ := Prod.mk.inj hsame
        cases hbound
        exact h c he
    show (if (front.any fun e => (e.binds key d).isSome) = true then _ else none) = none ↔ _
    rw [ite_eq_right_iff]
    simp only [reduceCtorEq, imp_false, List.any_eq_true, not_exists, not_and, Bool.not_eq_true,
      Option.isSome_eq_false_iff, Option.isNone_iff_eq_none]
    rw [← hapart]
    constructor
    · exact fun h => ⟨d, b, rfl, h⟩
    · rintro ⟨-, -, -, h⟩
      exact h

/-- **A record is not spoiled** when all lines about it can be read and are apart. -/
theorem not_mem_spoiledKeys_iff {xs : List Reading} {key : Key} :
    key ∉ spoiledKeys xs ↔
      (∀ x ∈ xs, x.key = key → ∃ d b, x.content = .ok (d, b)) ∧
        (xs.map Reading.bare).Pairwise (ApartFor key) := by
  have hspoiled : key ∉ spoiledKeys xs ↔
      ∀ front x back, xs = front ++ x :: back → x.key = key → x.fault? front = none := by
    rw [spoiledKeys, faults, List.map_filterMap, mem_filterMap_withEarlier]
    simp only [not_exists, not_and]
    refine forall₃_congr fun front x back => forall_congr' fun _ => ?_
    cases x.fault? front with
    | none => simp
    | some fault => simp
  rw [hspoiled, List.pairwise_map, ← forall_append_iff_pairwise]
  constructor
  · refine fun h => ⟨fun x hx hkey => ?_, fun front x back hxs e he d b c hbinds hsame => ?_⟩
    · obtain ⟨front, back, hxs⟩ := List.append_of_mem hx
      obtain ⟨d, b, hcontent, -⟩ := fault?_eq_none_iff.mp (h front x back hxs hkey)
      exact ⟨d, b, hcontent⟩
    · have hkey : x.key = key := (Prod.mk.inj hsame).1
      obtain ⟨-, -, -, hapart⟩ := fault?_eq_none_iff.mp (h front x back hxs hkey)
      exact hapart e he d b c (hkey.symm ▸ hbinds) (hkey.symm ▸ hsame)
  · rintro ⟨hread, hapart⟩ front x back hxs rfl
    obtain ⟨d, b, hcontent⟩ := hread x (by rw [hxs]; simp) rfl
    exact fault?_eq_none_iff.mpr ⟨d, b, hcontent, hapart front x back hxs⟩

/-! ## From lines to what was read from them -/

/-- What is read from the lines, apart from the lines themselves. -/
theorem map_bare_readings_eq (lines : List Line) :
    (readings lines).map Reading.bare =
      (lines.filterMap fun line => split? line.text).map fun l => (l.key, l.read) := by
  rw [readings, List.map_filterMap, List.map_filterMap]
  simp only [Option.map_map]
  rfl

/-- What is read about an interface is what its lines say. -/
theorem mem_map_bare_iff {key : Key} {lines : List Line}
    {content : Except LineFault (Direction × FilterBinding)} :
    (key, content) ∈ (readings lines).map Reading.bare ↔
      ∃ l ∈ linesFor key lines, l.read = content := by
  rw [map_bare_readings_eq, List.mem_map]
  simp [linesFor, and_assoc]

/-- Lines that can be read are apart exactly if no direction is on two of them. -/
theorem nodup_direction_iff {key : Key} {lines : List Line}
    (hread : ∀ l ∈ linesFor key lines, ∃ d b, l.Binds d b) :
    ((linesFor key lines).map BindingLine.direction).Nodup ↔
      ((readings lines).map Reading.bare).Pairwise (ApartFor key) := by
  have hapart : ∀ l ∈ linesFor key lines, ∀ m ∈ linesFor key lines,
      (l.direction ≠ m.direction ↔ ApartFor key (l.key, l.read) (m.key, m.read)) := by
    intro l hl m hm
    have hkey : l.key = key ∧ m.key = key :=
      ⟨of_decide_eq_true (List.mem_filter.mp hl).2, of_decide_eq_true (List.mem_filter.mp hm).2⟩
    obtain ⟨d, b, hl⟩ := hread l hl
    obtain ⟨e, c, hm⟩ := hread m hm
    rw [hl.1, hm.1, hkey.1, hkey.2, BindingLine.read_eq_ok_iff.mpr hl,
      BindingLine.read_eq_ok_iff.mpr hm]
    constructor
    · rintro hne d' b' c' hbound hsame
      cases hbound
      cases hsame
      exact hne rfl
    · intro happ hword
      have hd : d = e := by
        revert hword
        cases d <;> cases e <;> simp [Direction.word]
      exact happ d b c rfl (by rw [hd]; rfl)
  rw [List.Nodup, List.pairwise_map, map_bare_readings_eq, List.pairwise_map]
  constructor
  · intro h
    have hfiltered := List.pairwise_filter.mp
      (h.imp_of_mem fun {l m} hl hm hne => (hapart l hl m hm).mp hne)
    refine hfiltered.imp fun {l m} hlm d b c hl hm => ?_
    -- what says something of another interface is apart for that reason alone
    exact hlm (decide_eq_true (Prod.mk.inj hl).1) (decide_eq_true (Prod.mk.inj hm).1) d b c hl hm
  · intro h
    exact (h.filter _).imp_of_mem fun {l m} hl hm hlm => (hapart l hl m hm).mpr hlm

section Records

variable {key : Key} {lines : List Line}

/-- The record of an interface is not spoiled when all lines about it can be read and no
direction is on two of them. -/
theorem not_mem_spoiledKeys_readings_iff :
    key ∉ spoiledKeys (readings lines) ↔
      (∀ l ∈ linesFor key lines, ∃ d b, l.Binds d b) ∧
        ((linesFor key lines).map BindingLine.direction).Nodup := by
  have hread : (∀ x ∈ readings lines, x.key = key → ∃ d b, x.content = .ok (d, b)) ↔
      ∀ l ∈ linesFor key lines, ∃ d b, l.Binds d b := by
    constructor
    · intro h l hl
      obtain ⟨x, hx, hbare⟩ := List.mem_map.mp (mem_map_bare_iff.mpr ⟨l, hl, rfl⟩)
      obtain ⟨hkey, hcontent⟩ := Prod.mk.inj hbare
      obtain ⟨d, b, hok⟩ := h x hx hkey
      exact ⟨d, b, BindingLine.read_eq_ok_iff.mp (hcontent.symm.trans hok)⟩
    · rintro h x hx rfl
      obtain ⟨l, hl, hcontent⟩ := mem_map_bare_iff.mp (List.mem_map_of_mem hx)
      obtain ⟨d, b, hbinds⟩ := h l hl
      exact ⟨d, b, hcontent.symm.trans (BindingLine.read_eq_ok_iff.mpr hbinds)⟩
  rw [not_mem_spoiledKeys_iff, hread]
  exact and_congr_right fun h => (nodup_direction_iff h).symm

/-- **What is collected for an interface** is made of its lines, when they do not spoil it. -/
theorem isMadeOf_collect (h : key ∉ spoiledKeys (readings lines)) :
    (collect (readings lines) key).IsMadeOf (linesFor key lines) := by
  obtain ⟨-, hapart⟩ := not_mem_spoiledKeys_iff.mp h
  have hsaid : ∀ d b, (∃ x ∈ readings lines, x.binds key d = some b) ↔
      ∃ l ∈ linesFor key lines, l.Binds d b := by
    intro d b
    simp only [binds_eq_some_iff, ← BindingLine.read_eq_ok_iff]
    rw [← mem_map_bare_iff, List.mem_map]
    rfl
  have hfound : ∀ d, (readings lines).findSome? (fun x => x.binds key d) =
      (collect (readings lines) key).binding? d := by
    intro d
    cases d <;> rfl
  intro d b
  rw [← hsaid, ← hfound]
  refine ⟨List.exists_of_findSome?_eq_some, ?_⟩
  rintro ⟨x, hx, hbinds⟩
  have hsome : ((readings lines).findSome? fun x => x.binds key d).isSome = true :=
    List.findSome?_isSome_iff.mpr ⟨x, hx, by rw [hbinds]; rfl⟩
  obtain ⟨c, hc⟩ := Option.isSome_iff_exists.mp hsome
  obtain ⟨y, hy, hother⟩ := List.exists_of_findSome?_eq_some hc
  -- two lines that bind the direction are one line
  have hsame : x.bare = y.bare := by
    by_contra hne
    exact hapart.forall (List.mem_map_of_mem hx) (List.mem_map_of_mem hy) hne d b c
      (binds_eq_some_iff.mp hbinds) (binds_eq_some_iff.mp hother)
  rw [hc, ← hother]
  exact binds_eq_some_iff.mpr (hsame.symm.trans (binds_eq_some_iff.mp hbinds))

/-- **The records of an interface**: none, if no line is about it or some line spoils it, and
otherwise what is collected for it, if it breaks no rule. -/
theorem records_of_key (key : Key) (lines : List Line) :
    ((decodeLines lines).records.filter fun r => r.key = key) =
      if key ∈ spoiledKeys (readings lines) ∨ linesFor key lines = [] then []
      else [collect (readings lines) key].filter fun r => (validate r).isNone := by
  have hrecords : (decodeLines lines).records = (Decoded.concat
      (((firstOfEach Reading.key (readable (readings lines))).filter
        fun x => !(spoiledKeys (readings lines)).contains x.key).map fun x =>
          .checked featureName validate x.line (collect (readings lines) x.key))).records := by
    rw [decodeLines, Decoded.records_append, Decoded.records_concat_eq_nil, List.nil_append]
    · rfl
    · rw [List.forall_mem_map]
      exact fun _ _ => rfl
  have hkey : ∀ x ∈ readable (readings lines), (collect (readings lines) x.key).key = x.key :=
    fun _ _ => rfl
  rw [hrecords, Decoded.filter_records_firstOfEach _ hkey]
  by_cases hspoiled : key ∈ spoiledKeys (readings lines)
  · rw [if_pos hspoiled, if_pos (Or.inl hspoiled)]
  · rw [if_neg hspoiled]
    cases hfirst : (readable (readings lines)).find? fun x => x.key = key with
    | none =>
      have hnil : linesFor key lines = [] := by
        rw [List.eq_nil_iff_forall_not_mem]
        intro l hl
        obtain ⟨x, hx, hbare⟩ := List.mem_map.mp (mem_map_bare_iff.mpr ⟨l, hl, rfl⟩)
        have hkey : x.key = key := (Prod.mk.inj hbare).1
        obtain ⟨d, b, hcontent⟩ := (not_mem_spoiledKeys_iff.mp hspoiled).1 x hx hkey
        have hreadable : x ∈ readable (readings lines) :=
          List.mem_filter.mpr ⟨hx, by rw [hcontent]; rfl⟩
        exact List.find?_eq_none.mp hfirst x hreadable (decide_eq_true hkey)
      rw [if_pos (Or.inr hnil)]
      rfl
    | some x =>
      have hkey : x.key = key := by simpa using List.find?_some hfirst
      have hx : x ∈ readings lines := (List.mem_filter.mp (List.mem_of_find?_eq_some hfirst)).1
      obtain ⟨l, hl, -⟩ := mem_map_bare_iff.mp (List.mem_map_of_mem hx)
      rw [if_neg (not_or.mpr ⟨hspoiled, List.ne_nil_of_mem (hkey ▸ hl)⟩), Option.map_some, hkey]
      rfl

end Records

/-- What is decoded for an interface is one record or none. -/
theorem mergesTo_decodeLines (key : Key) (lines : List Line) :
    MergesTo key lines (decodeLines lines) := by
  have hrecords := records_of_key key lines
  have hof : ∀ r ∈ (decodeLines lines).records, r.key = key →
      key ∉ spoiledKeys (readings lines) ∧ linesFor key lines ≠ [] ∧
        r = collect (readings lines) key ∧ validate r = none := by
    intro r hr hkey
    have hmem : r ∈ (decodeLines lines).records.filter fun s => s.key = key :=
      List.mem_filter.mpr ⟨hr, decide_eq_true hkey⟩
    rw [hrecords] at hmem
    split at hmem
    · cases hmem
    · next hsound =>
      obtain ⟨hcollected, hvalid⟩ := List.mem_filter.mp hmem
      obtain ⟨hspoiled, hne⟩ := not_or.mp hsound
      exact ⟨hspoiled, hne, List.mem_singleton.mp hcollected, Option.isNone_iff_eq_none.mp hvalid⟩
  refine ⟨⟨?_, ?_⟩, fun r hr hkey => ?_⟩
  · rintro ⟨r, hr, hkey⟩
    obtain ⟨hspoiled, hne, rfl, hvalid⟩ := hof r hr hkey
    obtain ⟨hread, hnodup⟩ := not_mem_spoiledKeys_readings_iff.mp hspoiled
    exact ⟨hne, hread, hnodup, _, hkey, isMadeOf_collect hspoiled, hvalid⟩
  · rintro ⟨hne, hread, hnodup, r, hkey, hmade, hvalid⟩
    have hspoiled := not_mem_spoiledKeys_readings_iff.mpr ⟨hread, hnodup⟩
    have hcollected := hmade.eq (isMadeOf_collect hspoiled) hkey
    have hmem : r ∈ (decodeLines lines).records.filter fun s => s.key = key := by
      rw [hrecords, if_neg (not_or.mpr ⟨hspoiled, hne⟩), ← hcollected]
      exact List.mem_filter.mpr ⟨List.mem_singleton_self r, Option.isNone_iff_eq_none.mpr hvalid⟩
    exact ⟨r, (List.mem_filter.mp hmem).1, hkey⟩
  · obtain ⟨hspoiled, hne, hcollected, hvalid⟩ := hof r hr hkey
    constructor
    · rw [hrecords, if_neg (not_or.mpr ⟨hspoiled, hne⟩), ← hcollected, List.filter_singleton,
        Option.isNone_iff_eq_none.mpr hvalid]
      rfl
    · rw [hcollected]
      exact isMadeOf_collect hspoiled

/-! ## Lines about other interfaces -/

/-- What is decoded for an interface is told by the lines about it. -/
theorem MergesTo.filter_eq {key : Key} {lines others : List Line}
    {d e : Decoded InterfaceFilters} (hd : MergesTo key lines d) (he : MergesTo key others e)
    (hsame : linesFor key others = linesFor key lines) :
    (e.records.filter fun r => r.key = key) = d.records.filter fun r => r.key = key := by
  have hexists : (∃ r ∈ e.records, r.key = key) ↔ ∃ r ∈ d.records, r.key = key := by
    rw [hd.exists_record_iff, he.exists_record_iff, hsame]
  by_cases h : ∃ r ∈ d.records, r.key = key
  · obtain ⟨r, hr, hkey⟩ := h
    obtain ⟨s, hs, hother⟩ := hexists.mpr ⟨r, hr, hkey⟩
    obtain ⟨hsingle, hmade⟩ := hd.record_eq r hr hkey
    obtain ⟨hsingle', hmade'⟩ := he.record_eq s hs hother
    rw [hsingle, hsingle', hmade.eq (hsame ▸ hmade') (hkey.trans hother.symm)]
  · have hnone : ∀ l : List InterfaceFilters, (¬ ∃ r ∈ l, r.key = key) →
        (l.filter fun r => r.key = key) = [] := by
      intro l hl
      exact List.filter_eq_nil_iff.mpr fun r hr hkey => hl ⟨r, hr, of_decide_eq_true hkey⟩
    rw [hnone _ h, hnone _ (mt hexists.mp h)]

/-- **Filters are merged interface by interface.**  The lines about an interface make one record
or none, with the binding of each line in the direction of that line.  Lines about other
interfaces have no part in it. -/
theorem bindings_merge_by_interface (key : Key) (lines : List Line) :
    MergesTo key lines (decodeLines lines) ∧
      ∀ others, linesFor key others = linesFor key lines →
        ((decodeLines others).records.filter fun r => r.key = key) =
          (decodeLines lines).records.filter fun r => r.key = key :=
  ⟨mergesTo_decodeLines key lines, fun others =>
    (mergesTo_decodeLines key lines).filter_eq (mergesTo_decodeLines key others)⟩

/-- The lines about one interface, the second of which binds a direction to no filters. -/
def lan1Lines : List Line :=
  [⟨1, 0, "ip lan1 secure filter in 1 dynamic 2"⟩, ⟨5, 0, "ip lan1 secure filter out"⟩]

/-- The same among lines about other interfaces and a tunnel, where one direction is on two lines
and one line cannot be read. -/
def mergedLines : List Line :=
  lan1Lines.take 1 ++ [⟨2, 0, "ip lan2 secure filter in 1"⟩,
    ⟨3, 0, "ipv6 lan1 secure filter in x"⟩, ⟨4, 0, "ip tunnel secure filter in 9"⟩] ++
    lan1Lines.drop 1 ++ [⟨6, 0, "ip lan2 secure filter in 2"⟩]

theorem bindings_merge_by_interface_merged :
    linesFor (.ip, "lan1") lan1Lines = linesFor (.ip, "lan1") mergedLines ∧
    ((decodeLines mergedLines).records.filter fun r => r.key = (.ip, "lan1")) =
      [⟨.ip, "lan1", some ⟨[1], [2]⟩, some .empty⟩] ∧
    (¬ ∃ r ∈ (decodeLines mergedLines).records, r.key = (.ip, "lan2")) ∧
    (¬ ∃ r ∈ (decodeLines mergedLines).records, r.key = (.ipv6, "lan1")) ∧
    ((decodeLines lan1Lines).records.filter fun r => r.key = (.ip, "lan1")) =
      (decodeLines mergedLines).records.filter fun r => r.key = (.ip, "lan1") := by
  have hlines : linesFor (.ip, "lan1") mergedLines =
      [⟨(.ip, "lan1"), "in", "1 dynamic 2"⟩, ⟨(.ip, "lan1"), "out", ""⟩] := by decide +kernel
  have hsame : linesFor (.ip, "lan1") lan1Lines = linesFor (.ip, "lan1") mergedLines := by
    decide +kernel
  have hin : FilterBinding.read "1 dynamic 2" = .ok ⟨[1], [2]⟩ := by decide +kernel
  have hout : FilterBinding.read "" = .ok .empty := by decide +kernel
  have hmade : IsMadeOf (linesFor (.ip, "lan1") mergedLines)
      ⟨.ip, "lan1", some ⟨[1], [2]⟩, some .empty⟩ := by
    rw [hlines]
    intro d b
    cases d <;> simp [binding?, BindingLine.Binds, Direction.word, hin, hout]
  have hreadable : ∀ l ∈ linesFor (.ip, "lan1") mergedLines, ∃ d b, l.Binds d b := by
    rw [hlines]
    intro l hl
    rcases List.mem_pair.mp hl with rfl | rfl
    · exact ⟨.inbound, _, rfl, hin⟩
    · exact ⟨.outbound, _, rfl, hout⟩
  have htwice : ¬ ((linesFor (.ip, "lan2") mergedLines).map BindingLine.direction).Nodup := by
    decide +kernel
  have hunread : ∃ l ∈ linesFor (.ipv6, "lan1") mergedLines,
      FilterBinding.read l.rest = .error (.invalid "filter number" "x") := by
    decide +kernel
  obtain ⟨hmerges, hindependent⟩ := bindings_merge_by_interface (.ip, "lan1") mergedLines
  obtain ⟨hspoiled, -⟩ := bindings_merge_by_interface (.ip, "lan2") mergedLines
  obtain ⟨hspoiled', -⟩ := bindings_merge_by_interface (.ipv6, "lan1") mergedLines
  obtain ⟨r, hr, hkey⟩ := hmerges.exists_record_iff.mpr
    ⟨by rw [hlines]; exact List.cons_ne_nil _ _, hreadable, by rw [hlines]; decide, _, rfl, hmade,
      by decide +kernel⟩
  obtain ⟨hsingle, hmadeOf⟩ := hmerges.record_eq r hr hkey
  refine ⟨hsame, ?_, ?_, ?_, hindependent _ hsame⟩
  · rw [hsingle, hmadeOf.eq hmade hkey]
  · rw [hspoiled.exists_record_iff]
    exact fun h => htwice h.2.2.1
  · rw [hspoiled'.exists_record_iff]
    rintro ⟨-, h, -⟩
    obtain ⟨l, hl, herror⟩ := hunread
    obtain ⟨d, b, -, hok⟩ := h l hl
    rw [herror] at hok
    cases hok

end RouterConfig.InterfaceFilters
