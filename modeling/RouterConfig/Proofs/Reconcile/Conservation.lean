import Mathlib.Data.List.Forall2
import RouterConfig.Reconcile

/-!
# Nothing is lost in reconciling

Both passes take places of observed records, and the second one starts from what
the first one took.  What has to be seen is that no place is taken twice: then
the places in the slots and those of the ghosts share out the observed list
between them.

The invariant is stated on the list `claimed` that the passes hand on.  The first
pass takes only places outside of it and each of them once
(`nodup_places_pairByIdentity`), and adds these to it (`claimed_pairByIdentity`).
The second keeps the places that the first pass found, all of which are claimed
when it starts, and adds only unclaimed ones (`places_resolve`,
`perm_claimed_resolve`).  So what is claimed in the end, by which the ghosts are
told, are the places that the slots hold (`perm_claimedPlaces`).

* `reconcile_conserves`: every desired record has its slot, every observed record
  is in one slot or is one ghost, and both hold the record that they say.
-/

namespace RouterConfig

open Reconcilable

namespace Reconciliation

variable {ρ : Type}

/-- The places of the observed records that slots hold, in the order of the
slots. -/
def matchedPlaces (r : Reconciliation ρ) : List Nat :=
  r.slots.filterMap fun s => s.resolution.index?

/-- The places of the observed records that no slot holds. -/
def ghostPlaces (r : Reconciliation ρ) : List Nat :=
  r.ghosts.map Ghost.observedIndex

end Reconciliation

variable {ρ κ φ : Type}

/-! ## The places that are taken -/

/-- The places in a list are those up to its length. -/
theorem map_snd_zipIdx {α : Type} (l : List α) :
    l.zipIdx.map Prod.snd = List.range l.length := by
  rw [List.zipIdx_map_snd, List.range_eq_range']

/-- No two members are at one place. -/
theorem nodup_places {α : Type} (l : List α) : (l.zipIdx.map Prod.snd).Nodup := by
  rw [map_snd_zipIdx]
  exact List.nodup_range

/-- The places that the first pass found. -/
def placesOf (found : List (Option (ρ × Nat))) : List Nat :=
  found.filterMap fun o => o.map Prod.snd

@[simp] theorem placesOf_nil : placesOf ([] : List (Option (ρ × Nat))) = [] := rfl

@[simp] theorem placesOf_some (o : ρ × Nat) (found : List (Option (ρ × Nat))) :
    placesOf (some o :: found) = o.2 :: placesOf found := rfl

/-- The places that resolutions hold. -/
def heldPlaces (resolved : List (Resolution ρ)) : List Nat :=
  resolved.filterMap Resolution.index?

@[simp] theorem heldPlaces_nil : heldPlaces ([] : List (Resolution ρ)) = [] := rfl

@[simp] theorem heldPlaces_byIdentity (i : Nat) (record : ρ) (resolved : List (Resolution ρ)) :
    heldPlaces (.byIdentity i record :: resolved) = i :: heldPlaces resolved := rfl

@[simp] theorem heldPlaces_byFallback (i : Nat) (record : ρ) (resolved : List (Resolution ρ)) :
    heldPlaces (.byFallback i record :: resolved) = i :: heldPlaces resolved := rfl

/-! ## The first pass -/

section FirstPass

variable [DecidableEq κ] [Reconcilable ρ κ φ]

/-- The first pass says something about each desired record. -/
theorem length_pairByIdentity (observed : List (ρ × Nat)) (claimed : List Nat)
    (desired : List ρ) : (pairByIdentity observed claimed desired).1.length = desired.length := by
  induction desired generalizing claimed with
  | nil => rfl
  | cons wanted rest ih =>
    rw [pairByIdentity]
    split
    · split
      · rw [Prod.map_fst, List.length_cons, ih, List.length_cons]
      · rw [Prod.map_fst, List.length_cons, ih, List.length_cons]
    · rw [Prod.map_fst, List.length_cons, ih, List.length_cons]

/-- What the first pass finds is observed. -/
theorem mem_of_mem_pairByIdentity {observed : List (ρ × Nat)} {claimed : List Nat}
    {desired : List ρ} {o : ρ × Nat} (h : some o ∈ (pairByIdentity observed claimed desired).1) :
    o ∈ observed := by
  induction desired generalizing claimed with
  | nil => simp [pairByIdentity] at h
  | cons wanted rest ih =>
    rw [pairByIdentity] at h
    split at h
    next first hfind =>
      split at h
      · exact ih (by simpa using h)
      · rcases List.mem_cons.mp h with heq | hmem
        · rw [Option.some.inj heq]
          exact List.mem_of_find?_eq_some hfind
        · exact ih hmem
    next => exact ih (by simpa using h)

/-- **The first pass takes places outside of `claimed`, each of them once.** -/
theorem nodup_places_pairByIdentity (observed : List (ρ × Nat)) (claimed : List Nat)
    (desired : List ρ) :
    (placesOf (pairByIdentity observed claimed desired).1).Nodup ∧
      ∀ i ∈ placesOf (pairByIdentity observed claimed desired).1, i ∉ claimed := by
  induction desired generalizing claimed with
  | nil => simp [pairByIdentity]
  | cons wanted rest ih =>
    rw [pairByIdentity]
    split
    next first hfind =>
      split
      next => exact ih claimed
      next hfree =>
        obtain ⟨hnodup, hfresh⟩ := ih (first.2 :: claimed)
        have hfirst : first.2 ∉ claimed := by simpa using hfree
        rw [Prod.map_fst, placesOf_some]
        refine ⟨List.nodup_cons.mpr ⟨fun hmem => ?_, hnodup⟩, fun i hi => ?_⟩
        · exact hfresh _ hmem (List.mem_cons_self ..)
        · rcases List.mem_cons.mp hi with rfl | hi
          · exact hfirst
          · exact fun hc => hfresh i hi (List.mem_cons_of_mem _ hc)
    next => exact ih claimed

/-- **The places that the first pass takes are claimed** behind it, and no others but those that
were claimed before. -/
theorem claimed_pairByIdentity (observed : List (ρ × Nat)) (claimed : List Nat)
    (desired : List ρ) :
    (pairByIdentity observed claimed desired).2 =
      (placesOf (pairByIdentity observed claimed desired).1).reverse ++ claimed := by
  induction desired generalizing claimed with
  | nil => rfl
  | cons wanted rest ih =>
    rw [pairByIdentity]
    split
    next first _ =>
      split
      next => exact ih claimed
      next =>
        rw [Prod.map_snd, Prod.map_fst, placesOf_some, List.reverse_cons, List.append_assoc,
          List.singleton_append]
        exact ih (first.2 :: claimed)
    next => exact ih claimed

/-- What the first pass finds for the desired records. -/
def foundFirst (desired observed : List ρ) : List (Option (ρ × Nat)) :=
  (pairByIdentity observed.zipIdx [] desired).1

/-- The places that the first pass takes. -/
def claimedFirst (desired observed : List ρ) : List Nat :=
  (pairByIdentity observed.zipIdx [] desired).2

theorem length_foundFirst (desired observed : List ρ) :
    (foundFirst desired observed).length = desired.length :=
  length_pairByIdentity _ _ _

theorem map_snd_zip_foundFirst (desired observed : List ρ) :
    (desired.zip (foundFirst desired observed)).map Prod.snd = foundFirst desired observed :=
  List.map_snd_zip (Nat.le_of_eq (length_foundFirst desired observed))

/-- The first pass claims what it finds. -/
theorem claimedFirst_eq (desired observed : List ρ) :
    claimedFirst desired observed = (placesOf (foundFirst desired observed)).reverse := by
  rw [claimedFirst, claimed_pairByIdentity, List.append_nil, foundFirst]

end FirstPass

/-! ## The second pass -/

section SecondPass

variable [DecidableEq φ] [Reconcilable ρ κ φ]

/-- The second pass resolves each desired record. -/
theorem length_resolve (observed : List (ρ × Nat)) (claimed : List Nat)
    (pairs : List (ρ × Option (ρ × Nat))) :
    (resolve observed claimed pairs).1.length = pairs.length := by
  fun_induction resolve observed claimed pairs with
  | case1 => rfl
  | case2 claimed wanted o rest ih => rw [Prod.map_fst, List.length_cons, ih, List.length_cons]
  | case3 claimed wanted rest hnone ih => rw [Prod.map_fst, List.length_cons, ih, List.length_cons]
  | case4 claimed wanted rest o hone ih => rw [Prod.map_fst, List.length_cons, ih, List.length_cons]
  | case5 claimed wanted rest _ _ ih => rw [Prod.map_fst, List.length_cons, ih, List.length_cons]

/-- A candidate is observed and nobody has claimed it. -/
theorem mem_candidates {observed : List (ρ × Nat)} {claimed : List Nat} {wanted : ρ}
    {o : ρ × Nat} (h : o ∈ candidates observed claimed wanted) : o ∈ observed ∧ o.2 ∉ claimed := by
  rw [candidates] at h
  split at h
  · simp at h
  · simp only [List.mem_filter, Bool.and_eq_true, Bool.not_eq_true', List.contains_eq_mem,
      decide_eq_false_iff_not] at h
    exact ⟨h.1, h.2.1⟩

/-- The only candidate is a candidate. -/
theorem mem_candidates_of_singleton {observed : List (ρ × Nat)} {claimed : List Nat}
    {wanted : ρ} {o : ρ × Nat} (h : candidates observed claimed wanted = [o]) :
    o ∈ observed ∧ o.2 ∉ claimed :=
  mem_candidates (h ▸ List.mem_singleton_self o)

/-- **The second pass takes no place twice.**  Every place that it takes was found
in the first pass or was not claimed before. -/
theorem places_resolve (observed : List (ρ × Nat)) (claimed : List Nat)
    (pairs : List (ρ × Option (ρ × Nat)))
    (hnodup : (placesOf (pairs.map Prod.snd)).Nodup)
    (hclaimed : ∀ i ∈ placesOf (pairs.map Prod.snd), i ∈ claimed) :
    (heldPlaces (resolve observed claimed pairs).1).Nodup ∧
      ∀ i ∈ heldPlaces (resolve observed claimed pairs).1,
        i ∈ placesOf (pairs.map Prod.snd) ∨ i ∉ claimed := by
  fun_induction resolve observed claimed pairs with
  | case1 => simp
  | case2 claimed wanted o rest ih =>
    rw [List.map_cons, placesOf_some] at hnodup hclaimed ⊢
    obtain ⟨ho, hrest⟩ := List.nodup_cons.mp hnodup
    obtain ⟨ih₁, ih₂⟩ := ih hrest fun i hi => hclaimed i (List.mem_cons_of_mem _ hi)
    rw [Prod.map_fst, heldPlaces_byIdentity]
    refine ⟨List.nodup_cons.mpr ⟨fun hmem => ?_, ih₁⟩, fun i hi => ?_⟩
    · -- the place of `o` is claimed, so it can come again only from the first pass
      rcases ih₂ _ hmem with hfound | hfree
      · exact ho hfound
      · exact hfree (hclaimed _ (List.mem_cons_self ..))
    · rcases List.mem_cons.mp hi with rfl | hi
      · exact Or.inl (List.mem_cons_self ..)
      · exact (ih₂ i hi).imp_left (List.mem_cons_of_mem _)
  | case3 claimed wanted rest hnone ih => exact ih hnodup hclaimed
  | case4 claimed wanted rest o hone ih =>
    obtain ⟨-, hfree⟩ := mem_candidates_of_singleton hone
    obtain ⟨ih₁, ih₂⟩ := ih hnodup fun i hi => List.mem_cons_of_mem _ (hclaimed i hi)
    rw [Prod.map_fst, heldPlaces_byFallback]
    refine ⟨List.nodup_cons.mpr ⟨fun hmem => ?_, ih₁⟩, fun i hi => ?_⟩
    · rcases ih₂ _ hmem with hfound | hnew
      · exact hfree (hclaimed _ hfound)
      · exact hnew (List.mem_cons_self ..)
    · rcases List.mem_cons.mp hi with rfl | hi
      · exact Or.inr hfree
      · exact (ih₂ i hi).imp_right fun hnew hc => hnew (List.mem_cons_of_mem _ hc)
  | case5 claimed wanted rest _ _ ih => exact ih hnodup hclaimed

/-- **The places that the second pass takes are claimed** behind it.  Beside those that the first
pass found, which were claimed already, they are what is new. -/
theorem perm_claimed_resolve (observed : List (ρ × Nat)) (claimed : List Nat)
    (pairs : List (ρ × Option (ρ × Nat))) :
    (placesOf (pairs.map Prod.snd) ++ (resolve observed claimed pairs).2).Perm
      (heldPlaces (resolve observed claimed pairs).1 ++ claimed) := by
  fun_induction resolve observed claimed pairs with
  | case1 => exact List.Perm.refl _
  | case2 claimed wanted o rest ih => exact ih.cons o.2
  | case3 claimed wanted rest hnone ih => exact ih
  | case4 claimed wanted rest o hone ih => exact ih.trans List.perm_middle
  | case5 claimed wanted rest _ _ ih => exact ih

/-- Only a resolution with a place has a record. -/
theorem Resolution.record?_eq_none {res : Resolution ρ} (h : res.index? = none) :
    res.record? = none := by
  cases res with
  | byIdentity => exact absurd h (by simp [Resolution.index?])
  | byFallback => exact absurd h (by simp [Resolution.index?])
  | notFound => rfl
  | ambiguous => rfl

/-- A resolution of a desired record holds what it says: the observed record of
its place in the spelling of the desired one, if it has a place. -/
def Resolution.Holds (observed : List (ρ × Nat)) (wanted : ρ) (res : Resolution ρ) : Prop :=
  ∀ i, res.index? = some i →
    ∃ o ∈ observed, o.2 = i ∧ res.record? = some (normalize wanted o.1)

/-- Every resolution holds what it says. -/
theorem holds_resolve (observed : List (ρ × Nat)) (claimed : List Nat)
    (pairs : List (ρ × Option (ρ × Nat))) (hfound : ∀ p ∈ pairs, ∀ o ∈ p.2, o ∈ observed) :
    List.Forall₂ (Resolution.Holds observed) (pairs.map Prod.fst)
      (resolve observed claimed pairs).1 := by
  fun_induction resolve observed claimed pairs with
  | case1 => exact List.Forall₂.nil
  | case2 claimed wanted o rest ih =>
    have ho : o ∈ observed := hfound _ (List.mem_cons_self ..) o rfl
    exact List.Forall₂.cons (fun i hi => ⟨o, ho, Option.some.inj hi, rfl⟩)
      (ih fun p hp => hfound p (List.mem_cons_of_mem _ hp))
  | case3 claimed wanted rest hnone ih =>
    exact List.Forall₂.cons (fun i hi => nomatch hi)
      (ih fun p hp => hfound p (List.mem_cons_of_mem _ hp))
  | case4 claimed wanted rest o hone ih =>
    obtain ⟨ho, -⟩ := mem_candidates_of_singleton hone
    exact List.Forall₂.cons (fun i hi => ⟨o, ho, Option.some.inj hi, rfl⟩)
      (ih fun p hp => hfound p (List.mem_cons_of_mem _ hp))
  | case5 claimed wanted rest _ _ ih =>
    exact List.Forall₂.cons (fun i hi => nomatch hi)
      (ih fun p hp => hfound p (List.mem_cons_of_mem _ hp))

end SecondPass

/-! ## The whole -/

section Whole

variable [DecidableEq κ] [DecidableEq φ] [Reconcilable ρ κ φ]

/-- The resolutions of the desired records. -/
def resolutions (desired observed : List ρ) : List (Resolution ρ) :=
  (resolve observed.zipIdx (claimedFirst desired observed)
    (desired.zip (foundFirst desired observed))).1

/-- The places that both passes take. -/
def claimedPlaces (desired observed : List ρ) : List Nat :=
  (resolve observed.zipIdx (claimedFirst desired observed)
    (desired.zip (foundFirst desired observed))).2

theorem length_resolutions (desired observed : List ρ) :
    (resolutions desired observed).length = desired.length := by
  rw [resolutions, length_resolve, List.length_zip, length_foundFirst, Nat.min_self]

/-- The places of the resolutions are distinct. -/
theorem nodup_heldPlaces_resolutions (desired observed : List ρ) :
    (heldPlaces (resolutions desired observed)).Nodup := by
  refine (places_resolve _ _ _ ?_ ?_).1
  · rw [map_snd_zip_foundFirst]
    exact (nodup_places_pairByIdentity _ _ _).1
  · rw [map_snd_zip_foundFirst, claimedFirst_eq]
    exact fun i hi => List.mem_reverse.mpr hi

/-- Each desired record's resolution holds what it says. -/
theorem holds_resolutions (desired observed : List ρ) :
    List.Forall₂ (Resolution.Holds observed.zipIdx) desired (resolutions desired observed) := by
  have hzip : (desired.zip (foundFirst desired observed)).map Prod.fst = desired :=
    List.map_fst_zip (Nat.le_of_eq (length_foundFirst desired observed).symm)
  have h := holds_resolve observed.zipIdx (claimedFirst desired observed)
    (desired.zip (foundFirst desired observed)) fun p hp o ho =>
      mem_of_mem_pairByIdentity (ho ▸ (List.of_mem_zip hp).2)
  rwa [hzip] at h

/-- The resolution at a place is that of the desired record there, so what it
holds is the observed record of its own place in that record's spelling. -/
theorem holds_of_getElem?_resolutions {desired observed : List ρ} {d i : Nat} {res : Resolution ρ}
    (h : (resolutions desired observed)[d]? = some res) (hi : res.index? = some i) :
    ∃ wanted seen, desired[d]? = some wanted ∧ observed[i]? = some seen ∧
      res.record? = some (normalize wanted seen) := by
  obtain ⟨hlt, hres⟩ := List.getElem?_eq_some_iff.mp h
  have hd : d < desired.length := length_resolutions desired observed ▸ hlt
  have hholds := (List.forall₂_iff_get.mp (holds_resolutions desired observed)).2 d hd hlt
  rw [List.get_eq_getElem, List.get_eq_getElem, hres] at hholds
  obtain ⟨o, ho, rfl, hrecord⟩ := hholds i hi
  exact ⟨desired[d], o.1, List.getElem?_eq_getElem hd, List.mem_zipIdx_iff_getElem?.mp ho, hrecord⟩

/-- A place that a resolution holds is a place of the observed list. -/
theorem lt_of_mem_heldPlaces {desired observed : List ρ} {i : Nat}
    (h : i ∈ heldPlaces (resolutions desired observed)) : i < observed.length := by
  obtain ⟨res, hres, hi⟩ := List.mem_filterMap.mp h
  obtain ⟨d, hd⟩ := List.getElem?_of_mem hres
  obtain ⟨-, seen, -, hseen, -⟩ := holds_of_getElem?_resolutions hd hi
  exact (List.getElem?_eq_some_iff.mp hseen).1

theorem slots_reconcile (desired observed : List ρ) :
    (reconcile desired observed).slots =
      (resolutions desired observed).zipIdx.map fun r => ⟨r.2, r.1⟩ := rfl

/-- There is a slot for each desired record, in order. -/
theorem map_desiredIndex_slots (desired observed : List ρ) :
    (reconcile desired observed).slots.map Slot.desiredIndex = List.range desired.length := by
  rw [slots_reconcile, List.map_map, ← length_resolutions desired observed, ← map_snd_zipIdx]
  rfl

/-- What is taken from the resolutions of all slots is taken from the resolutions. -/
theorem filterMap_slots_reconcile {β : Type} (f : Resolution ρ → Option β)
    (desired observed : List ρ) :
    (reconcile desired observed).slots.filterMap (fun s => f s.resolution) =
      (resolutions desired observed).filterMap f := by
  rw [slots_reconcile, List.filterMap_map]
  conv_rhs => rw [← List.zipIdx_map_fst 0 (resolutions desired observed), List.filterMap_map]
  rfl

/-- The slots hold the places of the resolutions. -/
theorem matchedPlaces_reconcile (desired observed : List ρ) :
    (reconcile desired observed).matchedPlaces = heldPlaces (resolutions desired observed) :=
  filterMap_slots_reconcile Resolution.index? desired observed

/-- **What is claimed in the end are the places that the slots hold**, each of them once. -/
theorem perm_claimedPlaces (desired observed : List ρ) :
    (claimedPlaces desired observed).Perm (reconcile desired observed).matchedPlaces := by
  have hperm := perm_claimed_resolve observed.zipIdx (claimedFirst desired observed)
    (desired.zip (foundFirst desired observed))
  rw [map_snd_zip_foundFirst] at hperm
  -- the places that the first pass found stand on both sides
  have hfound : (claimedFirst desired observed).Perm (placesOf (foundFirst desired observed)) := by
    rw [claimedFirst_eq]
    exact List.reverse_perm _
  rw [matchedPlaces_reconcile]
  refine (List.perm_append_left_iff (placesOf (foundFirst desired observed))).mp ?_
  exact (hperm.trans (hfound.append_left _)).trans List.perm_append_comm

/-- The ghosts are the observed records at the places that no resolution holds. -/
theorem ghosts_reconcile (desired observed : List ρ) :
    (reconcile desired observed).ghosts =
      (observed.zipIdx.filter fun o =>
        !(heldPlaces (resolutions desired observed)).contains o.2).map fun o => ⟨o.2, o.1⟩ := by
  have hghosts : (reconcile desired observed).ghosts =
      (observed.zipIdx.filter fun o =>
        !(claimedPlaces desired observed).contains o.2).map fun o => ⟨o.2, o.1⟩ := rfl
  have hclaimed (i : Nat) : (claimedPlaces desired observed).contains i =
      (heldPlaces (resolutions desired observed)).contains i := by
    rw [Bool.eq_iff_iff, List.contains_iff_mem, List.contains_iff_mem,
      (perm_claimedPlaces desired observed).mem_iff, matchedPlaces_reconcile]
  simp only [hghosts, hclaimed]

/-- The ghosts are at the places that no slot holds, in order. -/
theorem ghostPlaces_reconcile (desired observed : List ρ) :
    (reconcile desired observed).ghostPlaces =
      (List.range observed.length).filter
        fun i => !(reconcile desired observed).matchedPlaces.contains i := by
  rw [← map_snd_zipIdx, List.filter_map, Reconciliation.ghostPlaces, ghosts_reconcile,
    List.map_map, matchedPlaces_reconcile]
  rfl

/-- **The observed places are shared out.**  Each is held by one slot or is the
place of one ghost. -/
theorem perm_places_reconcile (desired observed : List ρ) :
    ((reconcile desired observed).matchedPlaces ++
      (reconcile desired observed).ghostPlaces).Perm (List.range observed.length) := by
  have hmatched : ((List.range observed.length).filter
      fun i => (reconcile desired observed).matchedPlaces.contains i).Perm
      (reconcile desired observed).matchedPlaces := by
    rw [List.perm_ext_iff_of_nodup (List.nodup_range.filter _)
      (matchedPlaces_reconcile desired observed ▸ nodup_heldPlaces_resolutions desired observed)]
    intro i
    rw [List.mem_filter, List.mem_range, List.contains_eq_mem, decide_eq_true_eq]
    refine ⟨And.right, fun hi => ⟨?_, hi⟩⟩
    rw [matchedPlaces_reconcile] at hi
    exact lt_of_mem_heldPlaces hi
  rw [ghostPlaces_reconcile]
  exact (hmatched.symm.append_right _).trans (List.filter_append_perm _ _)

/-- A ghost is the observed record of its place. -/
theorem getElem?_of_mem_ghosts {desired observed : List ρ} {g : Ghost ρ}
    (h : g ∈ (reconcile desired observed).ghosts) :
    observed[g.observedIndex]? = some g.record := by
  simp only [ghosts_reconcile, List.mem_map, List.mem_filter] at h
  obtain ⟨o, ⟨ho, -⟩, rfl⟩ := h
  exact List.mem_zipIdx_iff_getElem?.mp ho

/-- A slot that holds a place holds the observed record of that place, in the
spelling of the slot's own desired record. -/
theorem record_of_mem_slots {desired observed : List ρ} {s : Slot ρ}
    (h : s ∈ (reconcile desired observed).slots) {i : Nat} (hi : s.resolution.index? = some i) :
    ∃ wanted seen, desired[s.desiredIndex]? = some wanted ∧ observed[i]? = some seen ∧
      s.resolution.record? = some (normalize wanted seen) := by
  rw [slots_reconcile] at h
  obtain ⟨⟨res, d⟩, hres, rfl⟩ := List.mem_map.mp h
  exact holds_of_getElem?_resolutions (List.mem_zipIdx_iff_getElem?.mp hres) hi

/-- The records of the slots, in order, belong to the places of the slots. -/
theorem forall₂_normalized (desired observed : List ρ) :
    List.Forall₂
      (fun i record => ∃ wanted ∈ desired, ∃ seen, observed[i]? = some seen ∧
        record = normalize wanted seen)
      (reconcile desired observed).matchedPlaces (reconcile desired observed).normalized := by
  have hslots : ∀ s ∈ (reconcile desired observed).slots, ∀ i, s.resolution.index? = some i →
      ∃ wanted ∈ desired, ∃ seen, observed[i]? = some seen ∧
        s.resolution.record? = some (normalize wanted seen) := by
    intro s hs i hi
    obtain ⟨wanted, seen, hwanted, hseen, hrecord⟩ := record_of_mem_slots hs hi
    exact ⟨wanted, List.mem_of_getElem? hwanted, seen, hseen, hrecord⟩
  rw [Reconciliation.matchedPlaces, Reconciliation.normalized]
  generalize (reconcile desired observed).slots = slots at hslots
  induction slots with
  | nil => exact List.Forall₂.nil
  | cons s rest ih =>
    have ih := ih fun s' hs' => hslots s' (List.mem_cons_of_mem _ hs')
    have hs := hslots s (List.mem_cons_self ..)
    cases hi : s.resolution.index? with
    | none =>
      simp only [List.filterMap_cons, hi, Resolution.record?_eq_none hi]
      exact ih
    | some i =>
      obtain ⟨wanted, hwanted, seen, hseen, hrecord⟩ := hs i hi
      simp only [List.filterMap_cons, hi, hrecord]
      exact List.Forall₂.cons ⟨wanted, hwanted, seen, hseen, rfl⟩ ih

/-- What it means that a reconciliation loses and doubles nothing. -/
structure Reconciliation.Conserves (desired observed : List ρ) (r : Reconciliation ρ) : Prop where
  /-- There is one slot for each desired record, in order. -/
  slot_each : r.slots.map Slot.desiredIndex = List.range desired.length
  /-- Each observed place is held by one slot or is the place of one ghost. -/
  places_shared : (r.matchedPlaces ++ r.ghostPlaces).Perm (List.range observed.length)
  /-- Ghosts stand in observed order. -/
  ghosts_in_order : r.ghostPlaces.Pairwise (· < ·)
  /-- A ghost is the observed record of its place, unchanged. -/
  ghost_unchanged : ∀ g ∈ r.ghosts, observed[g.observedIndex]? = some g.record
  /-- A slot with a place holds the observed record of that place in the spelling
  of the slot's own desired record. -/
  slot_normalized : ∀ s ∈ r.slots, ∀ i, s.resolution.index? = some i →
    ∃ wanted seen, desired[s.desiredIndex]? = some wanted ∧ observed[i]? = some seen ∧
      s.resolution.record? = some (normalize wanted seen)
  /-- The normalized records are those of the held places, one by one. -/
  normalized_places : List.Forall₂
    (fun i record => ∃ wanted ∈ desired, ∃ seen, observed[i]? = some seen ∧
      record = normalize wanted seen) r.matchedPlaces r.normalized
  /-- Normalized records and ghosts are together as many as the observed ones. -/
  count : r.normalized.length + r.ghosts.length = observed.length
  /-- No ghost is at the place of a normalized record. -/
  ghost_not_matched : ∀ g ∈ r.ghosts, g.observedIndex ∉ r.matchedPlaces

/-- **Reconciling conserves both lists**, whatever identities and fallback keys
occur in them, and however often. -/
theorem reconcile_conserves (desired observed : List ρ) :
    (reconcile desired observed).Conserves desired observed := by
  have hperm := perm_places_reconcile desired observed
  have hrecords := forall₂_normalized desired observed
  have hnodup : ((reconcile desired observed).matchedPlaces ++
      (reconcile desired observed).ghostPlaces).Nodup := hperm.nodup_iff.mpr List.nodup_range
  refine ⟨?_, hperm, ?_, fun g hg => getElem?_of_mem_ghosts hg,
    fun s hs i hi => record_of_mem_slots hs hi, hrecords, ?_, ?_⟩
  · rw [slots_reconcile, List.map_map, List.range_eq_range', ← length_resolutions desired observed,
      ← List.zipIdx_map_snd 0 (resolutions desired observed)]
    rfl
  · rw [ghostPlaces_reconcile]
    exact List.pairwise_lt_range.filter _
  · have hlength := hperm.length_eq
    rw [List.length_append, hrecords.length_eq, Reconciliation.ghostPlaces, List.length_map,
      List.length_range] at hlength
    exact hlength
  · intro g hg hmatched
    exact (List.nodup_append.mp hnodup).2.2 _ hmatched _ (List.mem_map_of_mem hg) rfl

end Whole

end RouterConfig
