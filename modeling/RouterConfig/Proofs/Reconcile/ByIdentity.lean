import RouterConfig.Filter.Static
import RouterConfig.Proofs.Reconcile.Order

/-!
# What the first pass pairs

The first pass looks an identity up once: it knows the first observed record that has it and
no other.  The first desired record of the identity takes that record, and a further one
finds it claimed and goes on to the second pass.  So of the pairs that could be made of equal
identities, the first with the first, the second with the second and so on, exactly the first
one is made.

This is seen one identity at a time.  The records that are passed on the way with other
identities claim other places, so they change nothing (`pairsFound_pairByIdentity`).

* `usesIdentity_iff`: all pairs that could be made are made where an identity occurs at most
  once on one of the two sides, and only there.
* `usesIdentity_fails_for_twins`: two filters with one number on each side.
-/

namespace RouterConfig

open Reconcilable

variable {ρ κ φ : Type}

/-- The place of the observed record, if it was found by identity. -/
def Resolution.byIdentity? : Resolution ρ → Option ℕ
  | .byIdentity i _ => some i
  | _ => none

theorem Resolution.index?_of_byIdentity? {res : Resolution ρ} {i : ℕ}
    (h : res.byIdentity? = some i) : res.index? = some i := by
  cases res with
  | byIdentity => exact h
  | byFallback => cases h
  | notFound => cases h
  | ambiguous => cases h

section Identities

variable [DecidableEq κ] [Reconcilable ρ κ φ]

/-- The places of the records with an identity, in order. -/
def identityPlaces (key : κ) (placed : List (ρ × ℕ)) : List ℕ :=
  (placed.filter fun o => identity o.1 = key).map Prod.snd

/-- The pairs of places that slots hold by an identity, in the order of the slots: the place
of the desired record and that of the observed one. -/
def Reconciliation.identityPairs (r : Reconciliation ρ) (desired : List ρ) (key : κ) :
    List (ℕ × ℕ) :=
  r.slots.filterMap fun s =>
    if desired[s.desiredIndex]?.map identity = some key then
      s.resolution.byIdentity?.map fun i => (s.desiredIndex, i)
    else none

theorem identityPlaces_cons_of_eq {key : κ} {o : ρ × ℕ} (h : identity o.1 = key)
    (placed : List (ρ × ℕ)) :
    identityPlaces key (o :: placed) = o.2 :: identityPlaces key placed := by
  rw [identityPlaces, List.filter_cons_of_pos (by simpa using h), List.map_cons, identityPlaces]

theorem identityPlaces_cons_of_ne {key : κ} {o : ρ × ℕ} (h : identity o.1 ≠ key)
    (placed : List (ρ × ℕ)) : identityPlaces key (o :: placed) = identityPlaces key placed := by
  rw [identityPlaces, List.filter_cons_of_neg (by simpa using h), identityPlaces]

/-- There are as many places as the identity occurs. -/
theorem length_identityPlaces (key : κ) (l : List ρ) :
    (identityPlaces key l.zipIdx).length = (l.map identity).count key := by
  have hcount : (l.zipIdx.map fun o => identity o.1).count key = (l.map identity).count key := by
    conv_rhs => rw [← List.zipIdx_map_fst 0 l, List.map_map]
    rfl
  rw [identityPlaces, List.length_map, ← List.countP_eq_length_filter, ← hcount, List.count,
    List.countP_map]
  refine List.countP_congr fun o _ => ?_
  simp

theorem mem_identityPlaces {key : κ} {l : List ρ} {i : ℕ} :
    i ∈ identityPlaces key l.zipIdx ↔ l[i]?.map identity = some key := by
  simp only [identityPlaces, List.mem_map, List.mem_filter, decide_eq_true_eq, Prod.exists,
    List.mem_zipIdx_iff_getElem?, Option.map_eq_some_iff]
  constructor
  · rintro ⟨record, _, ⟨hrecord, hkey⟩, rfl⟩
    exact ⟨record, hrecord, hkey⟩
  · rintro ⟨record, hrecord, hkey⟩
    exact ⟨record, i, ⟨hrecord, hkey⟩, rfl⟩

/-! ## One identity at a time -/

/-- The first observed record of an identity, unless its place is claimed. -/
def freeRecord? (key : κ) (placed : List (ρ × ℕ)) (claimed : List ℕ) : Option (ρ × ℕ) :=
  (placed.find? fun o => identity o.1 = key).filter fun o => !claimed.contains o.2

/-- **A step of the first pass.**  The desired record gets the first observed record of its
identity if that is free, and then it is claimed. -/
theorem pairByIdentity_cons (placed : List (ρ × ℕ)) (claimed : List ℕ) (wanted : ρ)
    (rest : List ρ) :
    pairByIdentity placed claimed (wanted :: rest) =
      (pairByIdentity placed
        (((freeRecord? (identity wanted) placed claimed).map Prod.snd).toList ++ claimed)
        rest).map (freeRecord? (identity wanted) placed claimed :: ·) id := by
  rw [pairByIdentity, freeRecord?]
  cases placed.find? fun o => identity o.1 = identity wanted with
  | none => rfl
  | some o =>
    by_cases hclaimed : claimed.contains o.2 = true
    · simp only [hclaimed, Option.filter_some]
      rfl
    · simp only [hclaimed, Option.filter_some]
      rfl

theorem identity_of_freeRecord? {key : κ} {placed : List (ρ × ℕ)} {claimed : List ℕ} {o : ρ × ℕ}
    (h : freeRecord? key placed claimed = some o) : o ∈ placed ∧ identity o.1 = key := by
  obtain ⟨hfind, -⟩ := Option.filter_eq_some_iff.mp h
  exact ⟨List.mem_of_find?_eq_some hfind, by simpa using List.find?_some hfind⟩

/-- A record that was free and is claimed is not free any more. -/
theorem freeRecord?_claimed {key : κ} {placed : List (ρ × ℕ)} {claimed : List ℕ} {o : ρ × ℕ}
    (h : freeRecord? key placed claimed = some o) :
    freeRecord? key placed (o.2 :: claimed) = none := by
  obtain ⟨hfind, -⟩ := Option.filter_eq_some_iff.mp h
  rw [freeRecord?, hfind, Option.filter_some, List.contains_cons, beq_self_eq_true]
  rfl

/-- Claiming a record of another identity changes nothing. -/
theorem freeRecord?_of_ne {key : κ} {placed : List (ρ × ℕ)}
    (hplaces : (placed.map Prod.snd).Nodup) (claimed : List ℕ) {o : ρ × ℕ} (ho : o ∈ placed)
    (hkey : identity o.1 ≠ key) :
    freeRecord? key placed (o.2 :: claimed) = freeRecord? key placed claimed := by
  rw [freeRecord?, freeRecord?]
  cases hfind : placed.find? fun o => identity o.1 = key with
  | none => rfl
  | some p =>
    have hp : identity p.1 = key := by simpa using List.find?_some hfind
    have hplace : p.2 ≠ o.2 := by
      intro heq
      rw [List.inj_on_of_nodup_map hplaces (List.mem_of_find?_eq_some hfind) ho heq] at hp
      exact hkey hp
    rw [Option.filter_some, Option.filter_some, List.contains_cons, beq_eq_false_iff_ne.mpr hplace,
      Bool.false_or]

/-- The pairs of places of an identity, where the desired records stand at the places from `n`
on and the places of the observed ones were found for them. -/
def pairsFound (key : κ) (n : ℕ) (desired : List ρ) (found : List (Option ℕ)) : List (ℕ × ℕ) :=
  ((desired.zip found).zipIdx n).filterMap fun p =>
    if identity p.1.1 = key then p.1.2.map fun i => (p.2, i) else none

/-- **An identity is paired once**, if its first observed record is free, and otherwise not
at all. -/
theorem pairsFound_pairByIdentity {placed : List (ρ × ℕ)}
    (hplaces : (placed.map Prod.snd).Nodup) (key : κ) (claimed : List ℕ) (desired : List ρ)
    (n : ℕ) :
    pairsFound key n desired
        ((pairByIdentity placed claimed desired).1.map (Option.map Prod.snd)) =
      (identityPlaces key (desired.zipIdx n)).zip
        ((freeRecord? key placed claimed).map Prod.snd).toList := by
  induction desired generalizing claimed n with
  | nil => rfl
  | cons wanted rest ih =>
    rw [pairByIdentity_cons, Prod.map_fst, List.zipIdx_cons, pairsFound, List.map_cons,
      List.zip_cons_cons, List.zipIdx_cons, List.filterMap_cons]
    by_cases hkey : identity wanted = key
    · rw [identityPlaces_cons_of_eq hkey, if_pos hkey, hkey]
      cases hfree : freeRecord? key placed claimed with
      | none =>
        have hrest := ih claimed (n + 1)
        rw [hfree, Option.map_none, Option.toList_none, List.zip_nil_right] at hrest
        exact hrest
      | some o =>
        have hrest := ih (o.2 :: claimed) (n + 1)
        rw [freeRecord?_claimed hfree] at hrest
        exact congrArg ((n, o.2) :: ·) hrest
    · rw [identityPlaces_cons_of_ne hkey, if_neg hkey]
      cases hfree : freeRecord? (identity wanted) placed claimed with
      | none => exact ih claimed (n + 1)
      | some o =>
        obtain ⟨ho, hidentity⟩ := identity_of_freeRecord? hfree
        have hrest := ih (o.2 :: claimed) (n + 1)
        rw [freeRecord?_of_ne hplaces claimed ho (hidentity.trans_ne hkey)] at hrest
        exact hrest

end Identities

/-! ## The slots -/

section Slots

variable [DecidableEq κ] [DecidableEq φ] [Reconcilable ρ κ φ]

omit [DecidableEq κ] in
/-- The second pass leaves the pairs of the first one as they are and makes no others by
identity. -/
theorem map_byIdentity?_resolve (placed : List (ρ × ℕ)) (claimed : List ℕ)
    (pairs : List (ρ × Option (ρ × ℕ))) :
    (resolve placed claimed pairs).1.map Resolution.byIdentity? =
      pairs.map fun p => p.2.map Prod.snd := by
  fun_induction resolve placed claimed pairs with
  | case1 => rfl
  | case2 claimed wanted o rest ih => rw [Prod.map_fst, List.map_cons, ih]; rfl
  | case3 claimed wanted rest hnone ih => rw [Prod.map_fst, List.map_cons, ih]; rfl
  | case4 claimed wanted rest o hone ih => rw [Prod.map_fst, List.map_cons, ih]; rfl
  | case5 claimed wanted rest _ _ ih => rw [Prod.map_fst, List.map_cons, ih]; rfl

/-- What the slots hold by identity is what the first pass found. -/
theorem map_byIdentity?_resolutions (desired observed : List ρ) :
    (resolutions desired observed).map Resolution.byIdentity? =
      (foundFirst desired observed).map (Option.map Prod.snd) := by
  rw [resolutions, map_byIdentity?_resolve]
  conv_rhs => rw [← map_snd_zip_foundFirst, List.map_map]
  rfl

/-- The slots are read one by one. -/
theorem identityPairs_reconcile (desired observed : List ρ) (key : κ) :
    (reconcile desired observed).identityPairs desired key =
      pairsFound key 0 desired
        ((resolutions desired observed).map Resolution.byIdentity?) := by
  have hzip : (desired.zip (resolutions desired observed)).map Prod.snd =
      resolutions desired observed :=
    List.map_snd_zip (Nat.le_of_eq (length_resolutions _ _))
  rw [Reconciliation.identityPairs, slots_reconcile, pairsFound, List.zip_map_right,
    List.zipIdx_map, List.filterMap_map, List.filterMap_map]
  conv_lhs => rw [← hzip, List.zipIdx_map, List.filterMap_map]
  refine List.filterMap_congr ?_
  rintro ⟨⟨wanted, res⟩, d⟩ hmem
  have hwanted : desired[d]? = some wanted :=
    (List.getElem?_zip_eq_some.mp (List.mem_zipIdx_iff_getElem?.mp hmem)).1
  simp [hwanted]

/-- **Of the pairs that equal identities could make, the first is made.** -/
theorem identityPairs_eq_take (desired observed : List ρ) (key : κ) :
    (reconcile desired observed).identityPairs desired key =
      ((identityPlaces key desired.zipIdx).zip (identityPlaces key observed.zipIdx)).take 1 := by
  have hplaces := nodup_places observed
  have hfree : ((freeRecord? key observed.zipIdx []).map Prod.snd).toList =
      (identityPlaces key observed.zipIdx).take 1 := by
    have hfirst : freeRecord? key observed.zipIdx [] =
        (observed.zipIdx.filter fun o => identity o.1 = key).head? := by
      rw [freeRecord?, List.head?_filter]
      cases observed.zipIdx.find? fun o => identity o.1 = key <;> rfl
    rw [hfirst, identityPlaces]
    cases observed.zipIdx.filter fun o => identity o.1 = key <;> rfl
  rw [identityPairs_reconcile, map_byIdentity?_resolutions, foundFirst,
    pairsFound_pairByIdentity hplaces, hfree]
  cases identityPlaces key desired.zipIdx with
  | nil => rfl
  | cons d ds =>
    cases identityPlaces key observed.zipIdx with
    | nil => rfl
    | cons i is => exact congrArg ((d, i) :: ·) List.zip_nil_right

/-! ## Nothing left over on both sides -/

/-- A slot holds the resolution at its place. -/
theorem mem_slots_reconcile {desired observed : List ρ} {s : Slot ρ} :
    s ∈ (reconcile desired observed).slots ↔
      (resolutions desired observed)[s.desiredIndex]? = some s.resolution := by
  rw [slots_reconcile, List.mem_map]
  constructor
  · rintro ⟨p, hp, rfl⟩
    exact List.mem_zipIdx_iff_getElem?.mp hp
  · intro h
    exact ⟨(s.resolution, s.desiredIndex), List.mem_zipIdx_iff_getElem?.mpr h, rfl⟩

/-- The desired record of a slot with a place is not unmatched. -/
theorem not_mem_unmatched {desired observed : List ρ} {s : Slot ρ}
    (hs : s ∈ (reconcile desired observed).slots) {i : ℕ} (hi : s.resolution.index? = some i) :
    s.desiredIndex ∉ (reconcile desired observed).unmatched := by
  intro hunmatched
  obtain ⟨t, ht, hplace⟩ := List.mem_map.mp hunmatched
  obtain ⟨ht, hnot⟩ := List.mem_filter.mp ht
  -- a place has one slot, so the unmatched one is `s` itself
  have hres : some t.resolution = some s.resolution := by
    rw [← mem_slots_reconcile.mp ht, ← mem_slots_reconcile.mp hs, hplace]
  obtain ⟨_, _, _, _, hrecord⟩ := record_of_mem_slots hs hi
  rw [Slot.isMatched, Option.some.inj hres, hrecord] at hnot
  cases hnot

/-- No slot holds the place of a ghost. -/
theorem index?_ne_of_mem_ghosts {desired observed : List ρ} {s : Slot ρ}
    (hs : s ∈ (reconcile desired observed).slots) {g : Ghost ρ}
    (hg : g ∈ (reconcile desired observed).ghosts) :
    s.resolution.index? ≠ some g.observedIndex := by
  intro hi
  have hghost : g.observedIndex ∈ (reconcile desired observed).ghostPlaces :=
    List.mem_map_of_mem hg
  have hmatched : g.observedIndex ∈ (reconcile desired observed).matchedPlaces :=
    List.mem_filterMap.mpr ⟨s, hs, hi⟩
  rw [ghostPlaces_reconcile, List.mem_filter, List.contains_iff_mem.mpr hmatched] at hghost
  exact absurd hghost.2 (by decide)

/-- The first desired record of an identity has the first observed one. -/
theorem exists_slot_of_first {desired observed : List ρ} {key : κ} {d i : ℕ} {ds is : List ℕ}
    (hdesired : identityPlaces key desired.zipIdx = d :: ds)
    (hobserved : identityPlaces key observed.zipIdx = i :: is) :
    ∃ s ∈ (reconcile desired observed).slots,
      s.desiredIndex = d ∧ s.resolution.index? = some i := by
  have hpair : (d, i) ∈ (reconcile desired observed).identityPairs desired key := by
    rw [identityPairs_eq_take, hdesired, hobserved]
    exact List.mem_cons_self ..
  obtain ⟨s, hs, hslot⟩ := List.mem_filterMap.mp hpair
  split at hslot
  · obtain ⟨_, hidentity, heq⟩ := Option.map_eq_some_iff.mp hslot
    obtain ⟨rfl, rfl⟩ := Prod.mk.inj heq
    exact ⟨s, hs, rfl, Resolution.index?_of_byIdentity? hidentity⟩
  · cases hslot

/-- Where an identity occurs at most once on one of the sides, it is not left over on both. -/
theorem apart_of_length_le_one {desired observed : List ρ} {key : κ}
    (h : (identityPlaces key desired.zipIdx).length ≤ 1 ∨
      (identityPlaces key observed.zipIdx).length ≤ 1) :
    ∀ d ∈ (reconcile desired observed).unmatched, ∀ g ∈ (reconcile desired observed).ghosts,
      desired[d]?.map identity = some key → identity g.record ≠ key := by
  intro d hd g hg hdesired hobserved
  have hdplace := mem_identityPlaces.mpr hdesired
  have hgplace : g.observedIndex ∈ identityPlaces key observed.zipIdx := by
    rw [mem_identityPlaces, getElem?_of_mem_ghosts hg, Option.map_some, hobserved]
  obtain ⟨first, ds, hds⟩ := List.exists_cons_of_ne_nil (List.ne_nil_of_mem hdplace)
  obtain ⟨i, is, his⟩ := List.exists_cons_of_ne_nil (List.ne_nil_of_mem hgplace)
  obtain ⟨s, hs, rfl, hi⟩ := exists_slot_of_first hds his
  rw [hds, his, List.length_cons, List.length_cons] at h
  rw [hds] at hdplace
  rw [his] at hgplace
  rcases h with hone | hone
  · obtain rfl : ds = [] := List.eq_nil_of_length_eq_zero (by omega)
    rw [List.mem_singleton.mp hdplace] at hd
    exact not_mem_unmatched hs hi hd
  · obtain rfl : is = [] := List.eq_nil_of_length_eq_zero (by omega)
    rw [← List.mem_singleton.mp hgplace] at hi
    exact index?_ne_of_mem_ghosts hs hg hi

/-- What it means that equal identities are used as far as they go. -/
structure Reconciliation.UsesIdentity (desired observed : List ρ) (key : κ)
    (r : Reconciliation ρ) : Prop where
  /-- The first desired record of the identity is paired with the first observed one, the
  second with the second, and so on, as long as there are both. -/
  pairs : r.identityPairs desired key =
    (identityPlaces key desired.zipIdx).zip (identityPlaces key observed.zipIdx)
  /-- No desired record of the identity is unmatched while an observed one is a ghost. -/
  apart : ∀ d ∈ r.unmatched, ∀ g ∈ r.ghosts,
    desired[d]?.map identity = some key → identity g.record ≠ key

/-- **An identity is used once.**  The first desired record that has it is paired with the
first observed one, and no other pair is made by it.  So it is used as far as it goes exactly
when one of the sides has it at most once. -/
theorem usesIdentity_iff (desired observed : List ρ) (key : κ) :
    (reconcile desired observed).identityPairs desired key =
        ((identityPlaces key desired.zipIdx).zip (identityPlaces key observed.zipIdx)).take 1 ∧
      ((reconcile desired observed).UsesIdentity desired observed key ↔
        min ((desired.map identity).count key) ((observed.map identity).count key) ≤ 1) := by
  have hpairs := identityPairs_eq_take desired observed key
  refine ⟨hpairs, ?_⟩
  rw [← length_identityPlaces, ← length_identityPlaces, ← List.length_zip]
  constructor
  · intro huses
    rw [← huses.pairs, hpairs]
    exact List.length_take_le 1 _
  · intro hlength
    refine ⟨hpairs.trans (List.take_of_length_le hlength), apart_of_length_le_one ?_⟩
    rw [List.length_zip] at hlength
    omega

end Slots

/-! ## Two filters with one number -/

namespace IpFilter

/-- A filter for a protocol, always with the same number. -/
def ofProtocol (protocol : String) : IpFilter where
  number := 10
  action := .pass
  source := "*"
  destination := "*"
  protocol

/-- Two filters that are wanted with one number. -/
def wantedTwins : List IpFilter := [ofProtocol "tcp", ofProtocol "udp"]

/-- Two filters that are reported with the same number. -/
def reportedTwins : List IpFilter := [ofProtocol "gre", ofProtocol "esp"]

/-- The second wanted filter is not found, though the second reported one has its number and
is a ghost. -/
theorem usesIdentity_fails_for_twins :
    (∀ f ∈ wantedTwins ++ reportedTwins, validate f = none ∧ identity f = (IpFamily.ipv4, 10)) ∧
      (reconcile wantedTwins reportedTwins).slots =
        [⟨0, .byIdentity 0 (ofProtocol "gre")⟩, ⟨1, .notFound⟩] ∧
      (reconcile wantedTwins reportedTwins).ghosts = [⟨1, ofProtocol "esp"⟩] ∧
      ¬ (reconcile wantedTwins reportedTwins).UsesIdentity wantedTwins reportedTwins
        (IpFamily.ipv4, 10) := by
  refine ⟨by decide, by decide, by decide, ?_⟩
  rintro ⟨hpairs, -⟩
  revert hpairs
  decide

end IpFilter

end RouterConfig
