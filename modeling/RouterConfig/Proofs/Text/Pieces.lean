import RouterConfig.Proofs.Text.Lines

/-!
# Pieces between marks

A value such as an address or a date is taken apart at its marks, and the pieces
are looked at one by one.  What is known of each piece is known of the whole text,
apart from the marks.
-/

namespace RouterConfig.Text

variable {mark : Char}

/-- A text that was split is what stands in front, the mark, and what stands
behind. -/
theorem eq_of_splitAtFirst? {cs before behind : List Char}
    (h : splitAtFirst? mark cs = some (before, behind)) : cs = before ++ mark :: behind := by
  induction cs generalizing before with
  | nil => rw [splitAtFirst?] at h; exact absurd h (by simp)
  | cons c cs ih =>
    rw [splitAtFirst?] at h
    split at h
    · next hc =>
      obtain ⟨rfl, rfl⟩ := Prod.mk.inj (Option.some.inj h)
      rw [hc, List.nil_append]
    · rw [Option.map_eq_some_iff] at h
      obtain ⟨⟨first, second⟩, hsplit, hparts⟩ := h
      obtain ⟨rfl, rfl⟩ := Prod.mk.inj hparts
      rw [ih hsplit, List.cons_append]

/-- A text is split at its first mark. -/
theorem splitAtFirst?_append {cs : List Char} (h : mark ∉ cs) (ds : List Char) :
    splitAtFirst? mark (cs ++ mark :: ds) = some (cs, ds) := by
  induction cs with
  | nil => rw [List.nil_append, splitAtFirst?, if_pos rfl]
  | cons c cs ih =>
    have hc : c ≠ mark := fun he => h (he ▸ List.mem_cons_self ..)
    rw [List.cons_append, splitAtFirst?, if_neg hc, ih fun hmem => h (List.mem_cons_of_mem _ hmem)]
    rfl

theorem splitAtFirst?_of_not_mem {cs : List Char} (h : mark ∉ cs) :
    splitAtFirst? mark cs = none := by
  cases hsplit : splitAtFirst? mark cs with
  | none => rfl
  | some parts =>
    rw [eq_of_splitAtFirst? hsplit] at h
    exact absurd (List.mem_append_right _ (List.mem_cons_self ..)) h

/-- The first piece ends at the first mark. -/
theorem pieces_append {cs : List Char} (h : mark ∉ cs) (ds : List Char) :
    pieces mark (cs ++ mark :: ds) = cs :: pieces mark ds := by
  induction cs with
  | nil => rw [List.nil_append, pieces, if_pos rfl]
  | cons c cs ih =>
    have hc : c ≠ mark := fun he => h (he ▸ List.mem_cons_self ..)
    rw [List.cons_append, pieces, if_neg hc, ih fun hmem => h (List.mem_cons_of_mem _ hmem)]
    rfl

theorem pieces_of_not_mem {cs : List Char} (h : mark ∉ cs) : pieces mark cs = [cs] := by
  induction cs with
  | nil => rfl
  | cons c cs ih =>
    have hc : c ≠ mark := fun he => h (he ▸ List.mem_cons_self ..)
    rw [pieces, if_neg hc, ih fun hmem => h (List.mem_cons_of_mem _ hmem)]
    rfl

theorem pieces_ne_nil (mark : Char) (cs : List Char) : pieces mark cs ≠ [] := by
  cases cs with
  | nil => exact List.cons_ne_nil _ _
  | cons c cs =>
    rw [pieces]
    split
    · exact List.cons_ne_nil _ _
    · cases pieces mark cs <;> exact List.cons_ne_nil _ _

/-- **The pieces with the mark between neighbours** are the text. -/
theorem intercalate_pieces (mark : Char) (cs : List Char) :
    [mark].intercalate (pieces mark cs) = cs := by
  induction cs with
  | nil => rfl
  | cons c cs ih =>
    obtain ⟨first, others, hpieces⟩ := List.exists_cons_of_ne_nil (pieces_ne_nil mark cs)
    rw [pieces, hpieces]
    rw [hpieces] at ih
    split
    · next hc => rw [List.intercalate_cons_cons, ih, hc, List.nil_append, List.singleton_append]
    · -- the character belongs to the first piece
      rw [lengthenFirst, ← ih]
      cases others with
      | nil => rw [List.intercalate_singleton, List.intercalate_singleton]
      | cons next others =>
        rw [List.intercalate_cons_cons, List.intercalate_cons_cons]
        rfl

/-- What holds of the mark and of the characters of every piece holds of every
character. -/
theorem forall_mem_of_pieces (mark : Char) {P : Char → Prop} {cs : List Char} (hmark : P mark)
    (h : ∀ piece ∈ pieces mark cs, ∀ c ∈ piece, P c) : ∀ c ∈ cs, P c := by
  intro c hc
  rw [← intercalate_pieces mark cs] at hc
  rcases mem_intercalate hc with rfl | ⟨piece, hpiece, hmem⟩
  · exact hmark
  · exact h piece hpiece c hmem

end RouterConfig.Text

namespace RouterConfig

open Text

theorem eq_of_splitOnce? {mark : Char} {s before behind : String}
    (h : splitOnce? mark s = some (before, behind)) :
    s.toList = before.toList ++ mark :: behind.toList := by
  rw [splitOnce?, Option.map_eq_some_iff] at h
  obtain ⟨⟨first, second⟩, hsplit, hparts⟩ := h
  obtain ⟨rfl, rfl⟩ := Prod.mk.inj hparts
  rw [String.toList_ofList, String.toList_ofList]
  exact eq_of_splitAtFirst? hsplit

theorem splitOnce?_of_toList {mark : Char} {s before behind : String} (h : mark ∉ before.toList)
    (hs : s.toList = before.toList ++ mark :: behind.toList) :
    splitOnce? mark s = some (before, behind) := by
  rw [splitOnce?, hs, splitAtFirst?_append h, Option.map_some, String.ofList_toList,
    String.ofList_toList]

theorem splitOnce?_of_not_mem {mark : Char} {s : String} (h : mark ∉ s.toList) :
    splitOnce? mark s = none := by
  rw [splitOnce?, splitAtFirst?_of_not_mem h, Option.map_none]

/-- What holds of the mark and of the characters of every piece holds of every
character of the string. -/
theorem forall_mem_of_piecesOf (mark : Char) {P : Char → Prop} {s : String} (hmark : P mark)
    (h : ∀ piece ∈ piecesOf mark s, ∀ c ∈ piece.toList, P c) : ∀ c ∈ s.toList, P c := by
  refine forall_mem_of_pieces mark hmark fun piece hpiece c hc => ?_
  refine h (String.ofList piece) (List.mem_map_of_mem hpiece) c ?_
  rwa [String.toList_ofList]

end RouterConfig
