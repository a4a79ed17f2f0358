import RouterConfig.Proofs.Filter.Merging
import RouterConfig.Proofs.Table

/-!
# Filters on interfaces line by line

Reading the lines one after the other, a line binds a direction of its interface if the
record in the table has that direction free, and is rejected otherwise.  The record that
is in the table after some lines has for each direction the first line that binds it
(`lookup_gathered`), so a direction is free exactly if no earlier line binds it.
-/

namespace RouterConfig.InterfaceFilters

/-- What is held after some lines. -/
def gathered (xs : List Reading) : Gathered Key (Line × InterfaceFilters) InterfaceFilters where
  decoded := .concat ((faults xs).map fun f => .rejected featureName f.1.line (.malformed f.2))
  table := Table.collected Reading.key (fun x => (x.line, collect xs x.key)) (readable xs)
  spoiled := spoiledKeys xs

theorem binding?_collect (xs : List Reading) (k : Key) (d : Direction) :
    (collect xs k).binding? d = xs.findSome? fun x => x.binds k d := by
  cases d <;> rfl

theorem binding?_bind (r : InterfaceFilters) (b : FilterBinding) (d e : Direction) :
    (r.bind b d).binding? e = if e = d then some b else r.binding? e := by
  cases d <;> cases e <;> rfl

@[simp] theorem key_bind (r : InterfaceFilters) (b : FilterBinding) (d : Direction) :
    (r.bind b d).key = r.key := by
  cases d <;> rfl

/-! ## What is in the table -/

section Table

variable {front : List Reading} {x : Reading} {k : Key} {d : Direction} {b : FilterBinding}

/-- A line that binds a direction of an interface is a readable line about it. -/
theorem mem_readable_of_binds (hx : x ∈ front) (h : x.binds k d = some b) :
    k ∈ (readable front).map Reading.key := by
  obtain ⟨hkey, hcontent⟩ := Prod.mk.inj (binds_eq_some_iff.mp h)
  refine List.mem_map.mpr ⟨x, List.mem_filter.mpr ⟨hx, ?_⟩, hkey⟩
  have hok : x.content = .ok (d, b) := hcontent
  rw [hok]
  rfl

/-- An interface without readable lines has no bindings. -/
theorem collect_of_not_mem (h : k ∉ (readable front).map Reading.key) :
    collect front k = unbound k := by
  refine eq_of_binding?_eq rfl fun d => ?_
  have hnone : front.findSome? (fun x => x.binds k d) = none := by
    rw [List.findSome?_eq_none_iff]
    intro x hx
    rw [Option.eq_none_iff_forall_ne_some]
    exact fun b hb => h (mem_readable_of_binds hx hb)
  rw [binding?_collect, hnone]
  cases d <;> rfl

/-- **A direction is bound in the table** as the first line binds it. -/
theorem lookup_gathered (front : List Reading) (k : Key) (d : Direction) :
    ((Table.lookup? k (gathered front).table).bind fun e => e.2.binding? d) =
      front.findSome? fun x => x.binds k d := by
  rw [gathered, Table.lookup?_collected, ← binding?_collect]
  cases hfind : (readable front).find? fun x => x.key = k with
  | some x =>
    have hkey := List.find?_some hfind
    obtain rfl : x.key = k := of_decide_eq_true hkey
    rfl
  | none =>
    have hnot : k ∉ (readable front).map Reading.key := by
      rw [List.mem_map]
      rintro ⟨x, hx, hkey⟩
      exact List.find?_eq_none.mp hfind x hx (decide_eq_true hkey)
    rw [collect_of_not_mem hnot]
    cases d <;> rfl

/-! ## One more line -/

theorem faults_concat (front : List Reading) (x : Reading) :
    faults (front ++ [x]) =
      faults front ++ ((x.fault? front).map fun fault => (x, fault)).toList := by
  rw [faults, withEarlier_concat, filterMap_concat]
  rfl

theorem binding?_collect_concat (front : List Reading) (x : Reading) (k : Key) (d : Direction) :
    (collect (front ++ [x]) k).binding? d =
      ((collect front k).binding? d).or (x.binds k d) := by
  rw [binding?_collect, binding?_collect, List.findSome?_append, List.findSome?_singleton]

/-- A line changes nothing in the record of an interface that it binds no free direction of. -/
theorem collect_concat_of_bound
    (h : ∀ d b, x.binds k d = some b → (collect front k).binding? d ≠ none) :
    collect (front ++ [x]) k = collect front k := by
  refine eq_of_binding?_eq rfl fun d => ?_
  rw [binding?_collect_concat]
  cases hbound : (collect front k).binding? d with
  | some c => rfl
  | none =>
    rw [Option.none_or, Option.eq_none_iff_forall_ne_some]
    exact fun b hb => h d b hb hbound

/-- A line binds a direction that is free. -/
theorem collect_concat_of_free (hcontent : x.content = .ok (d, b))
    (hfree : (collect front x.key).binding? d = none) :
    collect (front ++ [x]) x.key = (collect front x.key).bind b d := by
  have hkey : (collect (front ++ [x]) x.key).key = ((collect front x.key).bind b d).key :=
    (key_bind (collect front x.key) b d).symm
  refine eq_of_binding?_eq hkey fun e => ?_
  rw [binding?_collect_concat, binding?_bind, Reading.binds, hcontent]
  by_cases he : e = d
  · rw [he, hfree]
    simp
  · simp [he, Ne.symm he]

/-- A line that cannot be read is in no record. -/
theorem table_gathered_of_error {fault : LineFault} (hcontent : x.content = .error fault) :
    (gathered (front ++ [x])).table = (gathered front).table := by
  have hreadable : readable (front ++ [x]) = readable front := by
    rw [readable, List.filter_append, List.filter_singleton, hcontent]
    exact List.append_nil _
  have hcollect : ∀ k, collect (front ++ [x]) k = collect front k := fun k =>
    collect_concat_of_bound fun d b hbinds => by
      rw [Reading.binds, hcontent] at hbinds
      cases hbinds
  rw [gathered, gathered]
  simp only [hreadable, hcollect]

theorem readable_concat (hcontent : x.content = .ok (d, b)) :
    readable (front ++ [x]) = readable front ++ [x] := by
  rw [readable, List.filter_append, List.filter_singleton, hcontent]
  rfl

/-- A line is in the record of its own interface only. -/
theorem collect_concat_of_ne (h : x.key ≠ k) : collect (front ++ [x]) k = collect front k :=
  collect_concat_of_bound fun _ _ hbinds => absurd (Prod.mk.inj (binds_eq_some_iff.mp hbinds)).1 h

/-- A line for a direction that is bound is in no record. -/
theorem table_gathered_of_bound (hcontent : x.content = .ok (d, b))
    (hbound : (collect front x.key).binding? d ≠ none) :
    (gathered (front ++ [x])).table = (gathered front).table := by
  have hcollect : ∀ k, collect (front ++ [x]) k = collect front k := fun k =>
    collect_concat_of_bound fun e c hbinds => by
      obtain ⟨rfl, hsame⟩ := Prod.mk.inj (binds_eq_some_iff.mp hbinds)
      cases hcontent.symm.trans hsame
      exact hbound
  have hmem : x.key ∈ (readable front).map Reading.key := by
    by_contra hnot
    rw [collect_of_not_mem hnot] at hbound
    cases d <;> exact hbound rfl
  rw [gathered, gathered]
  simp only [hcollect, readable_concat hcontent, Table.collected_concat_of_mem hmem]

/-- A line for a direction that is free changes the record of its interface, which may be a new
one. -/
theorem table_gathered_of_free (hcontent : x.content = .ok (d, b))
    (hfree : (collect front x.key).binding? d = none) :
    (gathered (front ++ [x])).table = Table.change x.key (x.line, unbound x.key)
      (fun e => (e.1, e.2.bind b d)) (gathered front).table := by
  rw [gathered, gathered]
  simp only [readable_concat hcontent]
  refine (Table.change_collected (fun y _ hy => ?_) (fun y _ hy => ?_) fun hnew => ?_).symm
  · rw [collect_concat_of_ne hy.symm]
  · rw [hy, collect_concat_of_free hcontent hfree]
  · rw [collect_concat_of_free hcontent hfree, collect_of_not_mem hnew]

/-- A faulty line is rejected, and spoils the record of its interface. -/
theorem gathered_of_fault {fault : LineFault} (h : x.fault? front = some fault)
    (htable : (gathered (front ++ [x])).table = (gathered front).table) :
    (gathered front).reject featureName x.line (.malformed fault) (some x.key) =
      gathered (front ++ [x]) := by
  have hfaults : faults (front ++ [x]) = faults front ++ [(x, fault)] := by
    rw [faults_concat, h]
    rfl
  have hdecoded : (gathered (front ++ [x])).decoded =
      (gathered front).decoded ++ .rejected featureName x.line (.malformed fault) := by
    rw [gathered, hfaults, Decoded.concat_map_concat]
    rfl
  have hspoiled : spoiledKeys (front ++ [x]) = spoiledKeys front ++ [x.key] := by
    rw [spoiledKeys, hfaults, List.map_append]
    rfl
  exact Gathered.ext hdecoded.symm htable.symm hspoiled.symm

/-- A line that is in order is put into the table, and nothing else changes. -/
theorem gathered_of_no_fault (h : x.fault? front = none) :
    { gathered front with table := (gathered (front ++ [x])).table } = gathered (front ++ [x]) := by
  have hfaults : faults (front ++ [x]) = faults front := by
    rw [faults_concat, h]
    exact List.append_nil _
  have hdecoded : (gathered (front ++ [x])).decoded = (gathered front).decoded := by
    rw [gathered, hfaults]
    rfl
  have hspoiled : spoiledKeys (front ++ [x]) = spoiledKeys front := by
    rw [spoiledKeys, hfaults, spoiledKeys]
  exact Gathered.ext hdecoded.symm rfl hspoiled.symm

/-- **One more line** changes what is held in the way of the program. -/
theorem gather_gathered (front : List Reading) (x : Reading) :
    gather (gathered front) x = gathered (front ++ [x]) := by
  cases hcontent : x.content with
  | error fault =>
    have hfault : x.fault? front = some fault := by rw [Reading.fault?, hcontent]
    rw [gather, hcontent]
    exact gathered_of_fault hfault (table_gathered_of_error hcontent)
  | ok bound =>
    obtain ⟨d, b⟩ := bound
    rw [gather, hcontent]
    simp only [lookup_gathered, ← binding?_collect]
    cases hbound : (collect front x.key).binding? d with
    | some c =>
      have hfault : x.fault? front = some (.duplicate (d.word ++ " binding")) := by
        rw [binding?_collect] at hbound
        obtain ⟨y, hy, hbinds⟩ := List.exists_of_findSome?_eq_some hbound
        rw [Reading.fault?, hcontent]
        exact if_pos (List.any_eq_true.mpr ⟨y, hy, Option.isSome_of_eq_some hbinds⟩)
      exact gathered_of_fault hfault (table_gathered_of_bound hcontent (by simp [hbound]))
    | none =>
      have hfault : x.fault? front = none := by
        rw [binding?_collect, List.findSome?_eq_none_iff] at hbound
        rw [Reading.fault?, hcontent]
        refine if_neg ?_
        simpa using hbound
      rw [← gathered_of_no_fault hfault, table_gathered_of_free hcontent hbound]

end Table

/-- **Decoding line by line** comes to the same. -/
theorem gatherLines_eq (lines : List Line) : gatherLines lines = decodeLines lines := by
  have hrun : (readings lines).foldl gather (gathered []) = gathered (readings lines) :=
    foldl_eq_of_step fun front x _ => gather_gathered front x
  have hstart : gathered [] = {} := rfl
  rw [gatherLines, ← hstart, hrun, Gathered.finish_collected (by rfl)]
  rfl

end RouterConfig.InterfaceFilters
