import Mathlib.Data.List.Induction
import RouterConfig.Gather
import RouterConfig.Proofs.Commands.Rules

/-!
# What a run over lines comes to

A run takes in one line after the other, and what it holds after some of them can be
said without the run: it is read off these lines.  To prove this of a whole run it is
enough that each step keeps it (`foldl_eq_of_step`).

What is held is mostly a table.  The keys are those of the lines in the order in which
they come first, and the entry under a key is told by the first line with it and by all
lines together (`Table.collected`).  One more line changes such a table in one of three
ways: not at all, in the entry under its key, or by a new entry behind the others.
-/

namespace RouterConfig

/-- One more member gives what it gives behind the others. -/
theorem filterMap_concat {α β : Type} (f : α → Option β) (l : List α) (a : α) :
    (l ++ [a]).filterMap f = l.filterMap f ++ (f a).toList := by
  rw [List.filterMap_append]
  cases h : f a with
  | none => rw [List.filterMap_cons_none h, List.filterMap_nil, Option.toList_none]
  | some b => rw [List.filterMap_cons_some h, List.filterMap_nil, Option.toList_some]

/-- One more part comes behind the others. -/
theorem Decoded.concat_map_concat {ρ α : Type} (part : α → Decoded ρ) (l : List α) (a : α) :
    concat ((l ++ [a]).map part) = concat (l.map part) ++ part a := by
  rw [List.map_append, concat_append, List.map_singleton, concat_singleton]

/-- Parts are put behind one another, except for some that are left out. -/
theorem Decoded.foldl_append_unless {ρ α : Type} (out : α → Bool) (part : α → Decoded ρ)
    (l : List α) (decoded : Decoded ρ) :
    l.foldl (fun decoded a => if out a then decoded else decoded ++ part a) decoded =
      decoded ++ concat ((l.filter fun a => !out a).map part) := by
  induction l generalizing decoded with
  | nil => exact (append_empty decoded).symm
  | cons a l ih =>
    rw [List.foldl_cons, ih, List.filter_cons]
    cases out a with
    | true => rfl
    | false =>
      rw [if_neg Bool.false_ne_true, Bool.not_false, if_pos rfl, List.map_cons, concat_cons]
      exact append_assoc _ _ _

/-- **A run comes to what each step keeps.** -/
theorem foldl_eq_of_step {α σ : Type} {step : σ → α → σ} {closed : List α → σ} {l : List α}
    (h : ∀ front a, front ++ [a] <+: l → step (closed front) a = closed (front ++ [a])) :
    l.foldl step (closed []) = closed l := by
  induction l using List.reverseRecOn with
  | nil => rfl
  | append_singleton l a ih =>
    have hfront : l.foldl step (closed []) = closed l :=
      ih fun front b hb => h front b (hb.trans (List.prefix_append l [a]))
    rw [List.foldl_concat, hfront, h l a (List.prefix_refl _)]

namespace Table

variable {α κ β : Type} [DecidableEq κ] {key : α → κ} {entry entry' : α → β} {l : List α} {a : α}

/-- The table with an entry for each key, which is told by the first member with it. -/
def collected (key : α → κ) (entry : α → β) (l : List α) : Table κ β :=
  (firstOfEach key l).map fun a => (key a, entry a)

theorem lookup?_collected (k : κ) :
    lookup? k (collected key entry l) = (l.find? fun a => key a = k).map entry := by
  have hfirst : (firstOfEach key l).find? (fun a => key a = k) = l.find? fun a => key a = k := by
    rw [← List.head?_filter, filter_firstOfEach_eq]
    cases l.find? fun a => key a = k <;> rfl
  rw [lookup?, collected, List.find?_map, Option.map_map]
  exact congrArg (Option.map entry) hfirst

/-- There is an entry under the keys of the members. -/
theorem isSome_lookup?_collected {k : κ} :
    (lookup? k (collected key entry l)).isSome = true ↔ k ∈ l.map key := by
  rw [lookup?_collected, Option.isSome_map, List.find?_isSome, List.mem_map]
  simp only [decide_eq_true_eq]

/-- The first member with a key tells the entry under it. -/
theorem lookup?_collected_of_mem (h : a ∈ firstOfEach key l) :
    lookup? (key a) (collected key entry l) = some (entry a) := by
  have hfind : a ∈ (l.find? fun b => key b = key a).toList := by
    rw [← filter_firstOfEach_eq]
    exact List.mem_filter.mpr ⟨h, decide_eq_true rfl⟩
  rw [lookup?_collected, Option.mem_toList.mp hfind, Option.map_some]

/-- Entries are compared one by one. -/
theorem collected_congr (h : ∀ b ∈ firstOfEach key l, entry' b = entry b) :
    collected key entry' l = collected key entry l :=
  List.map_congr_left fun b hb => by rw [h b hb]

/-- A member whose key is there tells no entry. -/
theorem collected_concat_of_mem (h : key a ∈ l.map key) :
    collected key entry (l ++ [a]) = collected key entry l := by
  rw [collected, firstOfEach_concat, if_pos h, collected]

/-- A member with a new key tells one, behind the others. -/
theorem collected_concat_of_not_mem (h : key a ∉ l.map key) :
    collected key entry (l ++ [a]) = collected key entry l ++ [(key a, entry a)] := by
  rw [collected, firstOfEach_concat, if_neg h, List.map_append, List.map_singleton, collected]

/-- Changing an entry changes what the first member with its key tells. -/
theorem modify_collected {k : κ} {f : β → β}
    (hother : ∀ b ∈ firstOfEach key l, key b ≠ k → entry' b = entry b)
    (hsame : ∀ b ∈ firstOfEach key l, key b = k → entry' b = f (entry b)) :
    modify k f (collected key entry l) = collected key entry' l := by
  rw [modify, collected, List.map_map]
  refine List.map_congr_left fun b hb => ?_
  rw [Function.comp_apply]
  by_cases hkey : key b = k
  · rw [if_pos hkey, hsame b hb hkey]
  · rw [if_neg hkey, hother b hb hkey]

/-- **Changing the entry under the key of a member** that comes in behind.  The other
entries stay. -/
theorem change_collected {fresh : β} {f : β → β}
    (hother : ∀ b ∈ firstOfEach key l, key b ≠ key a → entry' b = entry b)
    (hsame : ∀ b ∈ firstOfEach key l, key b = key a → entry' b = f (entry b))
    (hnew : key a ∉ l.map key → entry' a = f fresh) :
    change (key a) fresh f (collected key entry l) = collected key entry' (l ++ [a]) := by
  rw [change]
  by_cases hmem : key a ∈ l.map key
  · rw [if_pos (isSome_lookup?_collected.mpr hmem), collected_concat_of_mem hmem,
      modify_collected hother hsame]
  · have hne : ∀ b ∈ firstOfEach key l, key b ≠ key a := fun b hb he =>
      hmem (he ▸ mem_map_firstOfEach.mp (List.mem_map_of_mem hb))
    rw [if_neg (isSome_lookup?_collected.not.mpr hmem), collected_concat_of_not_mem hmem, hnew hmem,
      collected_congr fun b hb => hother b hb (hne b hb)]

/-- Putting in an entry under a key that is not there. -/
theorem insert_collected (hmem : key a ∉ l.map key)
    (hother : ∀ b ∈ firstOfEach key l, entry' b = entry b) :
    insert (key a) (entry' a) (collected key entry l) = collected key entry' (l ++ [a]) := by
  refine change_collected (fun b hb _ => hother b hb) (fun b hb hkey => ?_) fun _ => rfl
  exact absurd (hkey ▸ mem_map_firstOfEach.mp (List.mem_map_of_mem hb)) hmem

end Table

namespace Gathered

variable {α κ β ρ : Type} [DecidableEq κ]

/-- **What is decoded in the end**: the rejected lines, and then the entries that are not
spoiled. -/
theorem finish_collected [BEq κ] {g : Gathered κ β ρ} {key : α → κ} {entry : α → β}
    {l : List α} (h : g.table = Table.collected key entry l) (complete : κ → β → Decoded ρ) :
    g.finish complete = g.decoded ++
      .concat (((firstOfEach key l).filter fun a => !g.spoiled.contains (key a)).map fun a =>
        complete (key a) (entry a)) := by
  rw [finish, Decoded.foldl_append_unless, h, Table.collected, List.filter_map, List.map_map]
  rfl

end Gathered

end RouterConfig
