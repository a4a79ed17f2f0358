import RouterConfig.Collect
import RouterConfig.Pp.Commands
import RouterConfig.Proofs.Reconcile.ByIdentity

/-!
# What the second pass pairs

The second pass claims records as it goes, so what it finds for a desired record could depend
on everything that was found before.  It does not.  A record is claimed only if it is the one
that is left for its fallback key, and then nothing is left for that key.  Where several are
left, none of them is ever claimed.  So for each key the records are those that the first pass
left, until one desired record has taken the only one (`OpenAfter`).

Each desired record can therefore be looked at by itself: what counts is what the first pass
left for its key, and whether a desired record in front of it waits for the same key
(`resolve_eq_map`).

* `reconcile_fallsBack`: what becomes of every desired record that has no record by identity.
-/

namespace RouterConfig

open Reconcilable

variable {ρ κ φ : Type}

/-! ## What is left for a key -/

section Pass

variable [DecidableEq φ] [Reconcilable ρ κ φ]

/-- The observed records about a key that nobody has claimed. -/
def openRecords (placed : List (ρ × ℕ)) (claimed : List ℕ) (key : φ) : List (ρ × ℕ) :=
  placed.filter fun o => !claimed.contains o.2 && fallback? o.1 = some key

theorem candidates_of_some {wanted : ρ} {key : φ} (h : fallback? wanted = some key)
    (placed : List (ρ × ℕ)) (claimed : List ℕ) :
    candidates placed claimed wanted = openRecords placed claimed key := by
  rw [candidates, h, openRecords]

theorem candidates_of_none {wanted : ρ} (h : fallback? wanted = none) (placed : List (ρ × ℕ))
    (claimed : List ℕ) : candidates placed claimed wanted = [] := by
  rw [candidates, h]

theorem mem_openRecords {placed : List (ρ × ℕ)} {claimed : List ℕ} {key : φ} {o : ρ × ℕ} :
    o ∈ openRecords placed claimed key ↔
      o ∈ placed ∧ o.2 ∉ claimed ∧ fallback? o.1 = some key := by
  simp [openRecords]

/-- A record that is claimed is not left any more. -/
theorem openRecords_cons (placed : List (ρ × ℕ)) (i : ℕ) (claimed : List ℕ) (key : φ) :
    openRecords placed (i :: claimed) key =
      (openRecords placed claimed key).filter fun o => o.2 ≠ i := by
  rw [openRecords, openRecords, List.filter_filter]
  refine List.filter_congr fun o _ => ?_
  by_cases h : o.2 = i <;> simp [h]

/-- Claiming a record about another key takes nothing from the key. -/
theorem openRecords_claimed_of_ne {placed : List (ρ × ℕ)}
    (hplaces : (placed.map Prod.snd).Nodup) (claimed : List ℕ) {key : φ} {o : ρ × ℕ}
    (ho : o ∈ placed) (hkey : fallback? o.1 ≠ some key) :
    openRecords placed (o.2 :: claimed) key = openRecords placed claimed key := by
  rw [openRecords_cons, List.filter_eq_self]
  intro p hp
  obtain ⟨hmem, -, hpkey⟩ := mem_openRecords.mp hp
  rw [decide_eq_true_eq]
  intro hplace
  rw [List.inj_on_of_nodup_map hplaces hmem ho hplace] at hpkey
  exact hkey hpkey

/-! ## Each desired record by itself -/

/-- A desired record that the first pass found nothing for, and that is about the key. -/
def waitsFor (key : φ) (p : ρ × Option (ρ × ℕ)) : Bool :=
  p.2.isNone && fallback? p.1 = some key

/-- The only record about a key is gone once a desired record has waited for it; of several
none is gone. -/
def stillOpen (waited : Bool) : List (ρ × ℕ) → List (ρ × ℕ)
  | [o] => if waited then [] else [o]
  | records => records

/-- What is left for a key behind the desired records `earlier`, where `start` are the places
that the first pass took. -/
def openBehind (placed : List (ρ × ℕ)) (start : List ℕ) (earlier : List (ρ × Option (ρ × ℕ)))
    (key : φ) : List (ρ × ℕ) :=
  stillOpen (earlier.any (waitsFor key)) (openRecords placed start key)

/-- What is left for a desired record. -/
def openFor (placed : List (ρ × ℕ)) (start : List ℕ) (earlier : List (ρ × Option (ρ × ℕ)))
    (wanted : ρ) : List (ρ × ℕ) :=
  ((fallback? wanted).map (openBehind placed start earlier)).getD []

/-- What becomes of a desired record behind the desired records `earlier`. -/
def outcome (placed : List (ρ × ℕ)) (start : List ℕ) (earlier : List (ρ × Option (ρ × ℕ))) :
    ρ × Option (ρ × ℕ) → Resolution ρ
  | (wanted, some o) => .byIdentity o.2 (normalize wanted o.1)
  | (wanted, none) =>
    match openFor placed start earlier wanted with
    | [] => .notFound
    | [o] => .byFallback o.2 (normalize wanted o.1)
    | several => .ambiguous (several.map Prod.snd)

/-- The places that are claimed leave to each key what is left behind `earlier`. -/
def OpenAfter (placed : List (ρ × ℕ)) (start : List ℕ) (earlier : List (ρ × Option (ρ × ℕ)))
    (claimed : List ℕ) : Prop :=
  ∀ key : φ, openRecords placed claimed key = openBehind placed start earlier key

variable {placed : List (ρ × ℕ)} {start claimed : List ℕ} {earlier : List (ρ × Option (ρ × ℕ))}

theorem openAfter_nil : OpenAfter placed start [] start := by
  intro key
  rw [openBehind, List.any_nil]
  cases openRecords placed start key with
  | nil => rfl
  | cons o rest => cases rest <;> rfl

/-- Behind a record that does not wait for the key, the same is left for it. -/
theorem openBehind_concat_of_not_waits {key : φ} {p : ρ × Option (ρ × ℕ)}
    (h : waitsFor key p = false) :
    openBehind placed start (earlier ++ [p]) key = openBehind placed start earlier key := by
  rw [openBehind, openBehind, List.any_append, List.any_cons, h, List.any_nil, Bool.or_self,
    Bool.or_false]

/-- Behind a record that waits for the key, nothing is left for it unless there are several. -/
theorem openBehind_concat_of_waits {key : φ} {p : ρ × Option (ρ × ℕ)} (h : waitsFor key p = true) :
    openBehind placed start (earlier ++ [p]) key =
      stillOpen true (openBehind placed start earlier key) := by
  rw [openBehind, openBehind, List.any_append, List.any_cons, h, Bool.true_or, Bool.or_true]
  cases openRecords placed start key with
  | nil => rfl
  | cons o rest =>
    cases rest with
    | nil => cases earlier.any (waitsFor key) <;> rfl
    | cons => rfl

theorem waitsFor_none {key : φ} {wanted : ρ} :
    waitsFor key (wanted, none) = true ↔ fallback? wanted = some key := by
  simp [waitsFor]

theorem openFor_of_some {wanted : ρ} {key : φ} (h : fallback? wanted = some key) :
    openFor placed start earlier wanted = openBehind placed start earlier key := by
  rw [openFor, h, Option.map_some, Option.getD_some]

/-- Nothing is claimed when what is left for the record is not one record. -/
theorem OpenAfter.concat (h : OpenAfter placed start earlier claimed) {p : ρ × Option (ρ × ℕ)}
    (hp : p.2 = none → ∀ o, openFor placed start earlier p.1 ≠ [o]) :
    OpenAfter placed start (earlier ++ [p]) claimed := by
  intro key
  cases hwaits : waitsFor key p with
  | false => rw [h key, openBehind_concat_of_not_waits hwaits]
  | true =>
    obtain ⟨wanted, _ | found⟩ := p
    · have hnotone : ∀ o, openFor placed start earlier wanted ≠ [o] := hp rfl
      rw [openFor_of_some (waitsFor_none.mp hwaits)] at hnotone
      rw [h key, openBehind_concat_of_waits hwaits]
      cases hrecords : openBehind placed start earlier key with
      | nil => rfl
      | cons o rest =>
        cases rest with
        | nil => exact absurd hrecords (hnotone o)
        | cons => rfl
    · cases hwaits

/-- The only record that is left is claimed. -/
theorem OpenAfter.concat_claimed (hplaces : (placed.map Prod.snd).Nodup)
    (h : OpenAfter placed start earlier claimed) {wanted : ρ} {o : ρ × ℕ}
    (hone : openFor placed start earlier wanted = [o]) :
    OpenAfter placed start (earlier ++ [(wanted, none)]) (o.2 :: claimed) := by
  cases hwanted : fallback? wanted with
  | none => rw [openFor, hwanted] at hone; cases hone
  | some key =>
    rw [openFor_of_some hwanted] at hone
    have ho : o ∈ openRecords placed claimed key := by
      rw [h key, hone]
      exact List.mem_singleton_self o
    obtain ⟨hmem, -, hkey⟩ := mem_openRecords.mp ho
    intro other
    by_cases hother : other = key
    · rw [hother, openRecords_cons, h key, openBehind_concat_of_waits (waitsFor_none.mpr hwanted),
        hone]
      simp [stillOpen]
    · have hne : fallback? o.1 ≠ some other := by
        rw [hkey]
        exact fun heq => hother (Option.some.inj heq).symm
      have hnot : waitsFor other (wanted, none) = false := by
        rw [Bool.eq_false_iff, ne_eq, waitsFor_none, hwanted]
        exact fun heq => hother (Option.some.inj heq).symm
      rw [openRecords_claimed_of_ne hplaces claimed hmem hne, h other,
        openBehind_concat_of_not_waits hnot]

theorem byIdentity?_outcome (p : ρ × Option (ρ × ℕ)) :
    (outcome placed start earlier p).byIdentity? = p.2.map Prod.snd := by
  obtain ⟨wanted, _ | o⟩ := p
  · rw [outcome]
    split <;> rfl
  · rfl

/-- If one record is left for a desired record, it is the only one about its key. -/
theorem openRecords_of_openFor {wanted : ρ} {o : ρ × ℕ}
    (h : openFor placed start earlier wanted = [o]) :
    ∃ key, openRecords placed start key = [o] := by
  cases hwanted : fallback? wanted with
  | none => rw [openFor, hwanted] at h; cases h
  | some key =>
    refine ⟨key, ?_⟩
    rw [openFor_of_some hwanted, openBehind] at h
    cases hrecords : openRecords placed start key with
    | nil => rw [hrecords] at h; cases h
    | cons first more =>
      rw [hrecords] at h
      cases more with
      | nil =>
        cases hwaited : earlier.any (waitsFor key) with
        | false => rw [hwaited] at h; exact h
        | true => rw [hwaited] at h; cases h
      | cons => cases h

/-- What a desired record finds is what is left for it. -/
theorem OpenAfter.candidates_eq (h : OpenAfter placed start earlier claimed) (wanted : ρ) :
    candidates placed claimed wanted = openFor placed start earlier wanted := by
  rw [openFor]
  cases hkey : fallback? wanted with
  | none => exact candidates_of_none hkey placed claimed
  | some key => exact (candidates_of_some hkey placed claimed).trans (h key)

/-- **Each desired record is resolved by itself.**  The records in front of it count only by
the keys that they wait for. -/
theorem resolve_eq_map (hplaces : (placed.map Prod.snd).Nodup)
    (h : OpenAfter placed start earlier claimed) (pairs : List (ρ × Option (ρ × ℕ))) :
    (resolve placed claimed pairs).1 =
      (withEarlier earlier pairs).map fun p => outcome placed start p.1 p.2 := by
  fun_induction resolve placed claimed pairs generalizing earlier with
  | case1 => rfl
  | case2 claimed wanted o rest ih =>
    have hafter : OpenAfter placed start (earlier ++ [(wanted, some o)]) claimed := by
      refine h.concat ?_
      rintro ⟨⟩
    rw [Prod.map_fst, withEarlier, List.map_cons, ih hafter]
    rfl
  | case3 claimed wanted rest hnone ih =>
    rw [h.candidates_eq] at hnone
    have hafter : OpenAfter placed start (earlier ++ [(wanted, none)]) claimed := by
      refine h.concat fun _ o => ?_
      rw [hnone]
      exact (List.cons_ne_nil o []).symm
    rw [Prod.map_fst, withEarlier, List.map_cons, outcome, hnone, ih hafter]
  | case4 claimed wanted rest o hone ih =>
    rw [h.candidates_eq] at hone
    rw [Prod.map_fst, withEarlier, List.map_cons, outcome, hone,
      ih (h.concat_claimed hplaces hone)]
  | case5 claimed wanted rest hnotnone hnotone ih =>
    rw [h.candidates_eq] at hnotnone hnotone ⊢
    have hafter : OpenAfter placed start (earlier ++ [(wanted, none)]) claimed :=
      h.concat fun _ => hnotone
    rw [Prod.map_fst, withEarlier, List.map_cons, outcome, ih hafter]
    cases hrecords : openFor placed start earlier wanted with
    | nil => exact (hnotnone hrecords).elim
    | cons o more =>
      cases more with
      | nil => exact (hnotone o hrecords).elim
      | cons => rfl

end Pass

/-! ## The slots -/

section Slots

variable [DecidableEq κ] [DecidableEq φ] [Reconcilable ρ κ φ]

/-- The places that slots hold by identity. -/
def Reconciliation.heldByIdentity (r : Reconciliation ρ) : List ℕ :=
  r.slots.filterMap fun s => s.resolution.byIdentity?

/-- The places of the observed records about a key that no slot holds by identity, in order. -/
def Reconciliation.openPlaces (r : Reconciliation ρ) (observed : List ρ) (key : φ) : List ℕ :=
  (List.range observed.length).filter fun i =>
    !r.heldByIdentity.contains i && observed[i]?.bind fallback? = some key

/-- The slot holds nothing by identity, and its desired record is about the key. -/
def Slot.WaitsFor (desired : List ρ) (key : φ) (s : Slot ρ) : Prop :=
  s.resolution.byIdentity? = none ∧ desired[s.desiredIndex]?.bind fallback? = some key

theorem heldByIdentity_reconcile (desired observed : List ρ) :
    (reconcile desired observed).heldByIdentity = placesOf (foundFirst desired observed) := by
  have hslots : (reconcile desired observed).heldByIdentity =
      ((resolutions desired observed).map Resolution.byIdentity?).filterMap id := by
    rw [Reconciliation.heldByIdentity, slots_reconcile, List.filterMap_map, List.filterMap_map]
    conv_rhs => rw [← List.zipIdx_map_fst 0 (resolutions desired observed), List.filterMap_map]
    rfl
  rw [hslots, map_byIdentity?_resolutions, List.filterMap_map]
  rfl

/-- The open places are those of the records that the first pass left. -/
theorem openPlaces_reconcile (desired observed : List ρ) (key : φ) :
    (reconcile desired observed).openPlaces observed key =
      (openRecords observed.zipIdx (claimedFirst desired observed) key).map Prod.snd := by
  rw [Reconciliation.openPlaces, heldByIdentity_reconcile, ← map_snd_zipIdx, List.filter_map,
    openRecords, claimedFirst_eq]
  refine congrArg _ (List.filter_congr fun o ho => ?_)
  rw [Function.comp_apply, List.mem_zipIdx_iff_getElem?.mp ho, Option.bind_some,
    List.contains_reverse]

/-- The desired records with what the first pass found for them. -/
def afterFirstPass (desired observed : List ρ) : List (ρ × Option (ρ × ℕ)) :=
  desired.zip (foundFirst desired observed)

/-- What a slot holds is the outcome of its desired record, behind those in front of it. -/
theorem outcome_of_mem_slots {desired observed : List ρ} {s : Slot ρ}
    (hs : s ∈ (reconcile desired observed).slots) :
    ∃ p, (afterFirstPass desired observed)[s.desiredIndex]? = some p ∧
      s.resolution = outcome observed.zipIdx (claimedFirst desired observed)
        ((afterFirstPass desired observed).take s.desiredIndex) p := by
  have hres := mem_slots_reconcile.mp hs
  rw [resolutions, resolve_eq_map (nodup_places observed) openAfter_nil, List.getElem?_map,
    getElem?_withEarlier, Option.map_map, Option.map_eq_some_iff] at hres
  obtain ⟨p, hp, hres⟩ := hres
  exact ⟨p, hp, hres.symm⟩

omit [DecidableEq φ] in
theorem getElem?_afterFirstPass {desired observed : List ρ} {d : ℕ} {p : ρ × Option (ρ × ℕ)}
    (h : (afterFirstPass desired observed)[d]? = some p) : desired[d]? = some p.1 :=
  (List.getElem?_zip_eq_some.mp h).1

/-- A slot waits for a key when its desired record does. -/
theorem waitsFor_of_mem_slots {desired observed : List ρ} {s : Slot ρ}
    (hs : s ∈ (reconcile desired observed).slots) {p : ρ × Option (ρ × ℕ)}
    (hp : (afterFirstPass desired observed)[s.desiredIndex]? = some p) (key : φ) :
    s.WaitsFor desired key ↔ waitsFor key p = true := by
  obtain ⟨q, hq, hres⟩ := outcome_of_mem_slots hs
  obtain rfl : p = q := Option.some.inj (hp.symm.trans hq)
  rw [Slot.WaitsFor, hres, byIdentity?_outcome, getElem?_afterFirstPass hp, Option.bind_some,
    waitsFor, Bool.and_eq_true, decide_eq_true_eq, Option.isNone_iff_eq_none,
    Option.map_eq_none_iff]

/-- Every desired record has a slot. -/
theorem exists_mem_slots {desired : List ρ} (observed : List ρ) {d : ℕ}
    (h : d < desired.length) :
    ∃ s ∈ (reconcile desired observed).slots, s.desiredIndex = d := by
  have hmem : d ∈ (reconcile desired observed).slots.map Slot.desiredIndex := by
    rw [map_desiredIndex_slots]
    exact List.mem_range.mpr h
  exact List.mem_map.mp hmem

/-- A slot in front waits for a key when a desired record in front does. -/
theorem any_waitsFor_take {desired observed : List ρ} {d : ℕ} {key : φ} :
    ((afterFirstPass desired observed).take d).any (waitsFor key) = true ↔
      ∃ t ∈ (reconcile desired observed).slots, t.desiredIndex < d ∧ t.WaitsFor desired key := by
  rw [List.any_eq_true]
  constructor
  · rintro ⟨p, hp, hwaits⟩
    obtain ⟨e, he⟩ := List.getElem?_of_mem hp
    rw [List.getElem?_take] at he
    split at he
    · next hlt =>
      have hdesired := (List.getElem?_eq_some_iff.mp (getElem?_afterFirstPass he)).1
      obtain ⟨t, ht, rfl⟩ := exists_mem_slots observed hdesired
      exact ⟨t, ht, hlt, (waitsFor_of_mem_slots ht he key).mpr hwaits⟩
    · cases he
  · rintro ⟨t, ht, hlt, hwaits⟩
    obtain ⟨p, hp, -⟩ := outcome_of_mem_slots ht
    refine ⟨p, ?_, (waitsFor_of_mem_slots ht hp key).mp hwaits⟩
    rw [← List.getElem?_take_of_lt hlt] at hp
    exact List.mem_of_getElem? hp

/-- What becomes of the desired record of a slot that waits for a key. -/
theorem outcome_of_waitsFor {desired observed : List ρ} {s : Slot ρ} {key : φ}
    (hs : s ∈ (reconcile desired observed).slots) (hwaits : s.WaitsFor desired key) :
    ∃ wanted, desired[s.desiredIndex]? = some wanted ∧ fallback? wanted = some key ∧
      s.resolution = outcome observed.zipIdx (claimedFirst desired observed)
        ((afterFirstPass desired observed).take s.desiredIndex) (wanted, none) := by
  obtain ⟨p, hp, hres⟩ := outcome_of_mem_slots hs
  have hwaits := (waitsFor_of_mem_slots hs hp key).mp hwaits
  obtain ⟨wanted, _ | o⟩ := p
  · exact ⟨wanted, getElem?_afterFirstPass hp, waitsFor_none.mp hwaits, hres⟩
  · cases hwaits

/-- A slot that is not paired by identity holds a place only if it is that of the only record
about some key. -/
theorem openRecords_of_index? {desired observed : List ρ} {s : Slot ρ}
    (hs : s ∈ (reconcile desired observed).slots) (hidentity : s.resolution.byIdentity? = none)
    {i : ℕ} (hi : s.resolution.index? = some i) :
    ∃ o key, o.2 = i ∧
      openRecords observed.zipIdx (claimedFirst desired observed) key = [o] := by
  obtain ⟨⟨wanted, _ | found⟩, -, hres⟩ := outcome_of_mem_slots hs
  · rw [hres, outcome] at hi
    split at hi
    · cases hi
    · next o hone =>
      obtain ⟨key, hkey⟩ := openRecords_of_openFor hone
      exact ⟨o, key, Option.some.inj hi, hkey⟩
    · cases hi
  · rw [hres] at hidentity
    cases hidentity

/-- Where several records are left for a key, no slot holds one of them. -/
theorem index?_ne_of_several {desired observed : List ρ} {key : φ}
    (h : 2 ≤ ((reconcile desired observed).openPlaces observed key).length) {i : ℕ}
    (hi : i ∈ (reconcile desired observed).openPlaces observed key) {s : Slot ρ}
    (hs : s ∈ (reconcile desired observed).slots) : s.resolution.index? ≠ some i := by
  intro hindex
  cases hidentity : s.resolution.byIdentity? with
  | some held =>
    have hheld : held = i :=
      Option.some.inj ((Resolution.index?_of_byIdentity? hidentity).symm.trans hindex)
    have hmem : i ∈ (reconcile desired observed).heldByIdentity :=
      List.mem_filterMap.mpr ⟨s, hs, hidentity.trans (congrArg some hheld)⟩
    rw [Reconciliation.openPlaces, List.mem_filter, List.contains_iff_mem.mpr hmem] at hi
    cases hi.2
  | none =>
    obtain ⟨o, other, rfl, hone⟩ := openRecords_of_index? hs hidentity hindex
    rw [openPlaces_reconcile] at h hi
    obtain ⟨p, hp, hplace⟩ := List.mem_map.mp hi
    obtain ⟨hpmem, -, hpkey⟩ := mem_openRecords.mp hp
    obtain ⟨homem, -, hokey⟩ := mem_openRecords.mp (hone ▸ List.mem_singleton_self o)
    -- the two places are one, so the two records are, and so are their keys
    rw [List.inj_on_of_nodup_map (nodup_places observed) hpmem homem hplace, hokey] at hpkey
    rw [← Option.some.inj hpkey, hone, List.map_singleton, List.length_singleton] at h
    omega

/-- Where several records are left for a key, all of them are ghosts. -/
theorem mem_ghostPlaces_of_several {desired observed : List ρ} {key : φ}
    (h : 2 ≤ ((reconcile desired observed).openPlaces observed key).length) {i : ℕ}
    (hi : i ∈ (reconcile desired observed).openPlaces observed key) :
    i ∈ (reconcile desired observed).ghostPlaces := by
  have hmatched : i ∉ (reconcile desired observed).matchedPlaces := by
    intro hmem
    obtain ⟨s, hs, hindex⟩ := List.mem_filterMap.mp hmem
    exact index?_ne_of_several h hi hs hindex
  rw [ghostPlaces_reconcile, List.mem_filter]
  refine ⟨(List.mem_filter.mp hi).1, ?_⟩
  rw [Bool.not_eq_true', Bool.eq_false_iff, ne_eq, List.contains_iff_mem]
  exact hmatched

/-- What it means that the desired records without a record by identity get exactly the records
that can be told. -/
structure Reconciliation.FallsBack (desired observed : List ρ) (r : Reconciliation ρ) : Prop where
  /-- There is a slot for each desired record, in order. -/
  slot_each : r.slots.map Slot.desiredIndex = List.range desired.length
  /-- A desired record that is about no key is not found. -/
  keyless : ∀ s ∈ r.slots, s.resolution.byIdentity? = none →
    desired[s.desiredIndex]?.bind fallback? = none → s.resolution = .notFound
  /-- If nothing is left for the key, the desired record is not found. -/
  none_open : ∀ s ∈ r.slots, ∀ key, s.WaitsFor desired key → r.openPlaces observed key = [] →
    s.resolution = .notFound
  /-- If one record is left for the key, the first desired record that waits for it gets it. -/
  one_open : ∀ s ∈ r.slots, ∀ key i, s.WaitsFor desired key → r.openPlaces observed key = [i] →
    (∀ t ∈ r.slots, t.desiredIndex < s.desiredIndex → ¬ t.WaitsFor desired key) →
    ∃ wanted seen, desired[s.desiredIndex]? = some wanted ∧ observed[i]? = some seen ∧
      s.resolution = .byFallback i (normalize wanted seen)
  /-- The later ones are not found. -/
  one_taken : ∀ s ∈ r.slots, ∀ key i, s.WaitsFor desired key → r.openPlaces observed key = [i] →
    (∃ t ∈ r.slots, t.desiredIndex < s.desiredIndex ∧ t.WaitsFor desired key) →
    s.resolution = .notFound
  /-- If several records are left for the key, all of them are named. -/
  several_open : ∀ s ∈ r.slots, ∀ key, s.WaitsFor desired key →
    2 ≤ (r.openPlaces observed key).length →
    s.resolution = .ambiguous (r.openPlaces observed key)
  /-- None of several records is taken. -/
  several_ghosts : ∀ key, 2 ≤ (r.openPlaces observed key).length →
    ∀ i ∈ r.openPlaces observed key, i ∈ r.ghostPlaces

/-- **The second pass pairs what can be told.** -/
theorem reconcile_fallsBack (desired observed : List ρ) :
    (reconcile desired observed).FallsBack desired observed := by
  refine ⟨map_desiredIndex_slots desired observed, fun s hs hidentity hkeyless => ?_,
    fun s hs key hwaits hopen => ?_, fun s hs key i hwaits hopen hfirst => ?_,
    fun s hs key i hwaits hopen hlater => ?_, fun s hs key hwaits hopen => ?_,
    fun key hopen i hi => mem_ghostPlaces_of_several hopen hi⟩
  · obtain ⟨⟨wanted, _ | found⟩, hp, hres⟩ := outcome_of_mem_slots hs
    · rw [getElem?_afterFirstPass hp, Option.bind_some] at hkeyless
      rw [hres, outcome, openFor, hkeyless]
      rfl
    · rw [hres] at hidentity
      cases hidentity
  · obtain ⟨wanted, -, hwanted, hres⟩ := outcome_of_waitsFor hs hwaits
    rw [openPlaces_reconcile, List.map_eq_nil_iff] at hopen
    rw [hres, outcome, openFor_of_some hwanted, openBehind, hopen]
    rfl
  · obtain ⟨wanted, hdesired, hwanted, hres⟩ := outcome_of_waitsFor hs hwaits
    rw [openPlaces_reconcile, List.map_eq_singleton_iff] at hopen
    obtain ⟨o, hone, rfl⟩ := hopen
    obtain ⟨homem, -, -⟩ := mem_openRecords.mp (hone ▸ List.mem_singleton_self o)
    have hnobody : ((afterFirstPass desired observed).take s.desiredIndex).any (waitsFor key) =
        false := by
      rw [Bool.eq_false_iff, ne_eq, any_waitsFor_take]
      rintro ⟨t, ht, hlt, htwaits⟩
      exact hfirst t ht hlt htwaits
    refine ⟨wanted, o.1, hdesired, List.mem_zipIdx_iff_getElem?.mp homem, ?_⟩
    rw [hres, outcome, openFor_of_some hwanted, openBehind, hone, hnobody]
    rfl
  · obtain ⟨wanted, -, hwanted, hres⟩ := outcome_of_waitsFor hs hwaits
    rw [openPlaces_reconcile, List.map_eq_singleton_iff] at hopen
    obtain ⟨o, hone, -⟩ := hopen
    rw [hres, outcome, openFor_of_some hwanted, openBehind, hone, any_waitsFor_take.mpr hlater]
    rfl
  · obtain ⟨wanted, -, hwanted, hres⟩ := outcome_of_waitsFor hs hwaits
    rw [openPlaces_reconcile] at hopen ⊢
    rw [hres, outcome, openFor_of_some hwanted, openBehind]
    generalize openRecords observed.zipIdx _ key = records at hopen ⊢
    obtain _ | ⟨o, _ | ⟨p, more⟩⟩ := records
    · rw [List.map_nil, List.length_nil] at hopen
      omega
    · rw [List.map_singleton, List.length_singleton] at hopen
      omega
    · rfl

end Slots

/-! ## Sessions under other numbers -/

namespace PpInterface

/-- A session that uses an interface, or none. -/
def session (number : UInt32) (pppoeUse : Option String) : PpInterface where
  selector := .number number
  pppoeUse

/-- Sessions that are wanted: the first has its own number on the device, the second uses no
interface, two use `lan3`, one uses `lan4` and one the interface of the first. -/
def wantedSessions : List PpInterface :=
  [session 1 (some "lan2"), session 11 none, session 12 (some "lan3"), session 13 (some "lan3"),
    session 14 (some "lan4"), session 15 (some "lan2")]

/-- Sessions that are reported: one uses `lan3` and two use `lan4`. -/
def reportedSessions : List PpInterface :=
  [session 1 (some "lan2"), session 21 (some "lan3"), session 22 (some "lan4"),
    session 23 (some "lan4")]

/-- Every case occurs: a record by identity, no key, the only record for the first session that
waits and not for the later one, several records, and none. -/
theorem reconcile_fallsBack_sessions :
    (reconcile wantedSessions reportedSessions).slots =
        [⟨0, .byIdentity 0 (session 1 (some "lan2"))⟩, ⟨1, .notFound⟩,
          ⟨2, .byFallback 1 (session 21 (some "lan3"))⟩, ⟨3, .notFound⟩, ⟨4, .ambiguous [2, 3]⟩,
          ⟨5, .notFound⟩] ∧
      (reconcile wantedSessions reportedSessions).openPlaces reportedSessions "lan3" = [1] ∧
      (reconcile wantedSessions reportedSessions).openPlaces reportedSessions "lan4" = [2, 3] ∧
      (reconcile wantedSessions reportedSessions).openPlaces reportedSessions "lan2" = [] ∧
      (reconcile wantedSessions reportedSessions).FallsBack wantedSessions reportedSessions :=
  ⟨by decide, by decide, by decide, by decide, reconcile_fallsBack _ _⟩

end PpInterface

end RouterConfig
