/-!
# Collecting lines under keys

Some records are spread over several lines, and which lines belong together is
told by a key on each.  Whether a line is accepted may then depend on the lines
before it, and on nothing else.  So instead of a table that changes from line to
line, each line is looked at together with those before it, and each key
together with the lines that carry it.  `Gather` has the runs with a table, which
come to the same.
-/

namespace RouterConfig

variable {α κ : Type}

/-- Each member of a list together with the members before it, `before` being
what stands in front of the list. -/
def withEarlier (before : List α) : List α → List (List α × α)
  | [] => []
  | a :: rest => (before, a) :: withEarlier (before ++ [a]) rest

/-- Forgetting the earlier members gives back the list. -/
@[simp] theorem map_snd_withEarlier (before l : List α) :
    (withEarlier before l).map Prod.snd = l := by
  induction l generalizing before with
  | nil => rfl
  | cons a rest ih => simp [withEarlier, ih]

/-- The earlier members of a member are those at smaller places. -/
theorem getElem?_withEarlier (before l : List α) (i : Nat) :
    (withEarlier before l)[i]? = l[i]?.map fun a => (before ++ l.take i, a) := by
  induction l generalizing before i with
  | nil => simp [withEarlier]
  | cons a rest ih =>
    cases i with
    | zero => simp [withEarlier]
    | succ i => simp [withEarlier, ih]

/-- A member that comes in behind has all the others before it. -/
theorem withEarlier_concat (before l : List α) (a : α) :
    withEarlier before (l ++ [a]) = withEarlier before l ++ [(before ++ l, a)] := by
  induction l generalizing before with
  | nil => rw [List.append_nil]; rfl
  | cons b rest ih =>
    rw [List.cons_append, withEarlier, ih, withEarlier, List.cons_append, List.append_assoc,
      List.singleton_append]

/-- What stands before a member is the front of the list. -/
theorem exists_append_of_mem_withEarlier {before l : List α} {p : List α × α}
    (h : p ∈ withEarlier before l) : ∃ back, before ++ l = p.1 ++ p.2 :: back := by
  induction l generalizing before with
  | nil => cases h
  | cons a rest ih =>
    rcases List.mem_cons.mp h with rfl | h
    · exact ⟨rest, rfl⟩
    · obtain ⟨back, hback⟩ := ih h
      exact ⟨back, by rw [← hback, List.append_assoc, List.singleton_append]⟩

/-- Each member is there with what stands before it. -/
theorem mem_withEarlier_append (front back : List α) (a : α) :
    (front, a) ∈ withEarlier [] (front ++ a :: back) := by
  refine List.mem_of_getElem? (i := front.length) ?_
  rw [getElem?_withEarlier, List.getElem?_append_right (Nat.le_refl _), Nat.sub_self,
    List.getElem?_cons_zero, Option.map_some, List.take_left, List.nil_append]

/-- What is kept of the members is kept of one with what stands before it. -/
theorem mem_filterMap_withEarlier {β : Type} {f : List α × α → Option β} {l : List α} {b : β} :
    b ∈ (withEarlier [] l).filterMap f ↔
      ∃ front a back, l = front ++ a :: back ∧ f (front, a) = some b := by
  rw [List.mem_filterMap]
  constructor
  · rintro ⟨⟨front, a⟩, hmem, hb⟩
    obtain ⟨back, hback⟩ := exists_append_of_mem_withEarlier hmem
    exact ⟨front, a, back, hback, hb⟩
  · rintro ⟨front, a, back, rfl, hb⟩
    exact ⟨(front, a), mem_withEarlier_append front back a, hb⟩

/-- When each member stands for something that was said, what holds between any two things
that were said holds between a member's and that of each earlier member. -/
theorem exists_rel_of_mem_withEarlier {β γ : Type} {f : α → γ} {g : β → γ} {R : β → β → Prop}
    {l : List α} {said : List β} (hsaid : l.map f = said.map g) (hR : said.Pairwise R)
    {p : List α × α} (hp : p ∈ withEarlier [] l) :
    ∃ b, f p.2 = g b ∧ ∀ a ∈ p.1, ∃ c, f a = g c ∧ R c b := by
  obtain ⟨back, hback⟩ := exists_append_of_mem_withEarlier hp
  rw [List.nil_append] at hback
  rw [hback, List.map_append, List.map_cons] at hsaid
  obtain ⟨before, behind, rfl, hbefore, hbehind⟩ := List.append_eq_map_iff.mp hsaid
  obtain ⟨b, rest, rfl, hb, -⟩ := List.map_eq_cons_iff.mp hbehind
  refine ⟨b, hb.symm, fun a ha => ?_⟩
  have hmem : f a ∈ before.map g := by
    rw [hbefore]
    exact List.mem_map_of_mem ha
  obtain ⟨c, hc, hfa⟩ := List.mem_map.mp hmem
  exact ⟨c, hfa.symm, (List.pairwise_append.mp hR).2.2 c hc b (List.mem_cons_self ..)⟩

/-- What stands in front of the list is in front of each member. -/
theorem mem_of_mem_withEarlier {before l : List α} {p : List α × α} (h : p ∈ withEarlier before l)
    {a : α} (ha : a ∈ before) : a ∈ p.1 := by
  induction l generalizing before with
  | nil => cases h
  | cons b rest ih =>
    rcases List.mem_cons.mp h with rfl | h
    · exact ha
    · exact ih h (List.mem_append_left _ ha)

/-- Of two members the one in front is an earlier one of the other. -/
theorem pairwise_withEarlier (before l : List α) :
    (withEarlier before l).Pairwise fun p q => p.2 ∈ q.1 := by
  induction l generalizing before with
  | nil => exact List.Pairwise.nil
  | cons a rest ih =>
    rw [withEarlier, List.pairwise_cons]
    refine ⟨fun q hq => ?_, ih (before ++ [a])⟩
    exact mem_of_mem_withEarlier hq (List.mem_append_right _ (List.mem_singleton_self a))

/-- The members whose key no earlier member has. -/
def firstOfEach [DecidableEq κ] (key : α → κ) : List α → List α
  | [] => []
  | a :: rest => a :: (firstOfEach key rest).filter fun b => key b ≠ key a

/-- Nothing is put in, and the order is kept. -/
theorem firstOfEach_sublist [DecidableEq κ] (key : α → κ) (l : List α) :
    (firstOfEach key l).Sublist l := by
  induction l with
  | nil => exact List.Sublist.slnil
  | cons a rest ih => exact (List.filter_sublist.trans ih).cons_cons a

/-- Each key is kept once. -/
theorem nodup_map_firstOfEach [DecidableEq κ] (key : α → κ) (l : List α) :
    ((firstOfEach key l).map key).Nodup := by
  induction l with
  | nil => simp [firstOfEach]
  | cons a rest ih =>
    rw [firstOfEach, List.map_cons, List.nodup_cons]
    refine ⟨by simp, ?_⟩
    exact ih.sublist (List.filter_sublist.map key)

/-- No key is lost. -/
theorem mem_map_firstOfEach [DecidableEq κ] {key : α → κ} {l : List α} {k : κ} :
    k ∈ (firstOfEach key l).map key ↔ k ∈ l.map key := by
  induction l with
  | nil => simp [firstOfEach]
  | cons a rest ih =>
    simp only [List.mem_map] at ih
    by_cases h : k = key a
    · simp [firstOfEach, h]
    · simp only [firstOfEach, List.map_cons, List.mem_cons, h, false_or, List.mem_map,
        List.mem_filter, ← ih]
      constructor
      · rintro ⟨b, ⟨hb, -⟩, rfl⟩; exact ⟨b, hb, rfl⟩
      · rintro ⟨b, hb, rfl⟩; exact ⟨b, ⟨hb, by simpa using h⟩, rfl⟩

/-- A key of some part of the members is looked at in that part. -/
theorem map_firstOfEach {β : Type} [DecidableEq κ] (key : α → κ) (part : β → α) (l : List β) :
    (firstOfEach (fun b => key (part b)) l).map part = firstOfEach key (l.map part) := by
  induction l with
  | nil => rfl
  | cons b rest ih =>
    rw [List.map_cons, firstOfEach, firstOfEach, List.map_cons, ← ih, List.filter_map]
    rfl

/-- Members may be left out by their keys before or after. -/
theorem filter_firstOfEach [DecidableEq κ] (key : α → κ) (p : κ → Bool) (l : List α) :
    (firstOfEach key l).filter (fun a => p (key a)) =
      firstOfEach key (l.filter fun a => p (key a)) := by
  induction l with
  | nil => rfl
  | cons a rest ih =>
    rw [firstOfEach, List.filter_cons, List.filter_cons]
    by_cases ha : p (key a) = true
    · rw [if_pos ha, if_pos ha, firstOfEach, ← ih, List.filter_filter, List.filter_filter]
      simp only [Bool.and_comm]
    · -- what is kept behind a member that is left out has another key
      have hother : ∀ b, (p (key b) && decide (key b ≠ key a)) = p (key b) := by
        intro b
        by_cases hb : key b = key a
        · rw [hb, Bool.eq_false_iff.mpr ha, Bool.false_and]
        · rw [decide_eq_true hb, Bool.and_true]
      rw [if_neg ha, if_neg ha, ← ih, List.filter_filter]
      simp only [hother]

/-- Of members with one key, the first is kept. -/
theorem firstOfEach_of_forall_eq [DecidableEq κ] {key : α → κ} {k : κ} {l : List α}
    (h : ∀ a ∈ l, key a = k) : firstOfEach key l = l.head?.toList := by
  cases l with
  | nil => rfl
  | cons a rest =>
    obtain ⟨ha, hrest⟩ := List.forall_mem_cons.mp h
    have hnone : (firstOfEach key rest).filter (fun b => key b ≠ key a) = [] := by
      refine List.filter_eq_nil_iff.mpr fun b hb => ?_
      rw [hrest b ((firstOfEach_sublist key rest).subset hb), ha]
      simp
    rw [firstOfEach, hnone]
    rfl

/-- The one that is kept of a key is the first with it. -/
theorem filter_firstOfEach_eq [DecidableEq κ] (key : α → κ) (k : κ) (l : List α) :
    (firstOfEach key l).filter (fun a => key a = k) = (l.find? fun a => key a = k).toList := by
  rw [filter_firstOfEach key (fun n => decide (n = k)), ← List.head?_filter]
  exact firstOfEach_of_forall_eq fun a ha => of_decide_eq_true (List.mem_filter.mp ha).2

/-- A member that comes in behind is kept if its key is new. -/
theorem firstOfEach_concat [DecidableEq κ] (key : α → κ) (l : List α) (a : α) :
    firstOfEach key (l ++ [a]) =
      if key a ∈ l.map key then firstOfEach key l else firstOfEach key l ++ [a] := by
  induction l with
  | nil => rfl
  | cons b rest ih =>
    rw [List.cons_append, firstOfEach, firstOfEach, ih, List.map_cons]
    by_cases hrest : key a ∈ rest.map key
    · rw [if_pos hrest, if_pos (List.mem_cons_of_mem _ hrest)]
    · rw [if_neg hrest, List.filter_append]
      by_cases hb : key a = key b
      · simp [hb]
      · simp [hb, hrest]

/-- Blocks with a key of their own are put together again. -/
theorem firstOfEach_flatMap [DecidableEq κ] {key : α → κ} {as : List α} {blocks : α → List α}
    (hkeys : (as.map key).Nodup) (hne : ∀ a ∈ as, blocks a ≠ [])
    (hblocks : ∀ a ∈ as, ∀ b ∈ blocks a, b = a) : firstOfEach key (as.flatMap blocks) = as := by
  induction as with
  | nil => rfl
  | cons a as ih =>
    rw [List.map_cons, List.nodup_cons] at hkeys
    obtain ⟨hfirst, hrest⟩ := List.forall_mem_cons.mp hne
    obtain ⟨hblock, hothers⟩ := List.forall_mem_cons.mp hblocks
    obtain ⟨b, more, hb⟩ := List.exists_cons_of_ne_nil hfirst
    rw [hb, List.forall_mem_cons] at hblock
    obtain ⟨rfl, hmore⟩ := hblock
    have hsame : more.filter (fun c => key c ≠ key b) = [] :=
      List.filter_eq_nil_iff.mpr fun c hc => by simp [hmore c hc]
    have hkept : (as.flatMap blocks).filter (fun c => key c ≠ key b) = as.flatMap blocks := by
      refine List.filter_eq_self.mpr fun c hc => ?_
      obtain ⟨d, hd, hmem⟩ := List.mem_flatMap.mp hc
      have hkey : key d ≠ key b := fun he => hkeys.1 (he ▸ List.mem_map_of_mem hd)
      simpa [hothers d hd c hmem] using hkey
    rw [List.flatMap_cons, hb, List.cons_append, firstOfEach,
      filter_firstOfEach key (fun k => decide (k ≠ key b)), List.filter_append, hsame,
      List.nil_append, hkept, ih hkeys.2 hrest hothers]

/-- The members of a list without repetition, each where it occurs first. -/
def distinct [DecidableEq α] (l : List α) : List α :=
  firstOfEach id l

@[simp] theorem mem_distinct [DecidableEq α] {a : α} {l : List α} : a ∈ distinct l ↔ a ∈ l := by
  simpa [distinct] using @mem_map_firstOfEach α α _ id l a

/-- No member occurs twice. -/
theorem nodup_distinct [DecidableEq α] (l : List α) : (distinct l).Nodup := by
  simpa [distinct] using nodup_map_firstOfEach id l

end RouterConfig
