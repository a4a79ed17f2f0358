import Mathlib.Data.List.Nodup
import Mathlib.Logic.Equiv.Basic
import RouterConfig.Dns
import RouterConfig.Proofs.Reconcile.Conservation

/-!
# The order of the observed records

A device reports its records in an order of its own, and it may report them in another one
the next time.  Nothing that `reconcile` finds depends on it, as long as no two observed
records have one identity.

The passes see an observed record together with its place, and they use the place as a name
and nothing more.  So a permutation of the observed list is looked at as a renaming of the
places (`MovesTo`).  The first pass commutes with it, since the first record of an identity
is the only one (`pairByIdentity_moved`).  The second pass commutes with it up to the order
in which candidates are listed: how many there are, and which one it is if there is one, is
the same in both runs at every step (`forall₂_resolve_moved`).

* `moved_reconcile_of_perm`: each desired record has the same outcome in both runs, and the
  same observed records are ghosts.
-/

namespace RouterConfig

open Reconcilable

variable {ρ κ φ : Type}

/-! ## Moving records to other places -/

/-- The record at each place `i` of `observed` is at the place `move i` of `echoed`, and no
other record is there. -/
def MovesTo (move : Equiv.Perm ℕ) (observed echoed : List ρ) : Prop :=
  ∀ i, echoed[move i]? = observed[i]?

/-- The places behind the first one are moved among themselves. -/
def moveBehind (move : Equiv.Perm ℕ) : Equiv.Perm ℕ where
  toFun
    | 0 => 0
    | i + 1 => move i + 1
  invFun
    | 0 => 0
    | i + 1 => move.symm i + 1
  left_inv := by
    rintro (_ | i)
    · rfl
    · simp
  right_inv := by
    rintro (_ | i)
    · rfl
    · simp

/-- Every permutation of a list moves its places. -/
theorem exists_movesTo {observed echoed : List ρ} (h : observed.Perm echoed) :
    ∃ move, MovesTo move observed echoed := by
  induction h with
  | nil => exact ⟨Equiv.refl ℕ, fun i => rfl⟩
  | cons r _ ih =>
    obtain ⟨move, hmove⟩ := ih
    refine ⟨moveBehind move, ?_⟩
    rintro (_ | i)
    · rfl
    · exact hmove i
  | swap r s rest =>
    refine ⟨Equiv.swap 0 1, ?_⟩
    rintro (_ | _ | i)
    · rfl
    · rfl
    · rw [Equiv.swap_apply_of_ne_of_ne (by omega) (by omega)]
      rfl
  | trans _ _ ih₁ ih₂ =>
    obtain ⟨first, hfirst⟩ := ih₁
    obtain ⟨second, hsecond⟩ := ih₂
    refine ⟨first.trans second, fun i => ?_⟩
    rw [Equiv.trans_apply, hsecond, hfirst]

/-- A record under the name that its place has after the move. -/
def moved (move : Equiv.Perm ℕ) (o : ρ × ℕ) : ρ × ℕ :=
  (o.1, move o.2)

theorem moved_injective (move : Equiv.Perm ℕ) : Function.Injective (moved (ρ := ρ) move) := by
  intro o p h
  obtain ⟨hrecord, hplace⟩ := Prod.mk.inj h
  exact Prod.ext hrecord (move.injective hplace)

/-- **The same records with the same names** are in both lists, in another order. -/
theorem MovesTo.perm_zipIdx {move : Equiv.Perm ℕ} {observed echoed : List ρ}
    (h : MovesTo move observed echoed) :
    echoed.zipIdx.Perm (observed.zipIdx.map (moved move)) := by
  have hnodup (l : List ρ) : l.zipIdx.Nodup := (nodup_places l).of_map Prod.snd
  rw [List.perm_ext_iff_of_nodup (hnodup _) ((hnodup _).map (moved_injective move))]
  rintro ⟨r, j⟩
  rw [List.mem_map]
  constructor
  · intro hr
    refine ⟨(r, move.symm j), ?_, ?_⟩
    · rw [List.mem_zipIdx_iff_getElem?] at hr ⊢
      rwa [← h, Equiv.apply_symm_apply]
    · rw [moved, Equiv.apply_symm_apply]
  · rintro ⟨⟨s, i⟩, hs, hmoved⟩
    obtain ⟨rfl, rfl⟩ := Prod.mk.inj hmoved
    rw [List.mem_zipIdx_iff_getElem?] at hs ⊢
    exact (h i).trans hs

/-- A place is claimed under its new name when it was claimed under the old one. -/
theorem contains_map_move (move : Equiv.Perm ℕ) (claimed : List ℕ) (i : ℕ) :
    (claimed.map move).contains (move i) = claimed.contains i := by
  rw [Bool.eq_iff_iff, List.contains_iff_mem, List.contains_iff_mem,
    List.mem_map_of_injective move.injective]

/-! ## The first pass -/

section FirstPass

variable [DecidableEq κ] [Reconcilable ρ κ φ] {move : Equiv.Perm ℕ} {placed echoed : List (ρ × ℕ)}

/-- Where no key occurs twice, the first member with a key is the only one. -/
theorem find?_key_eq_some_iff {α : Type} {key : α → κ} {l : List α} (h : (l.map key).Nodup) {k : κ}
    {a : α} : (l.find? fun b => key b = k) = some a ↔ a ∈ l ∧ key a = k := by
  constructor
  · intro hfind
    exact ⟨List.mem_of_find?_eq_some hfind, by simpa using List.find?_some hfind⟩
  · rintro ⟨hmem, hkey⟩
    have hsome : (l.find? fun b => key b = k).isSome := by
      rw [List.find?_isSome]
      exact ⟨a, hmem, by simpa using hkey⟩
    obtain ⟨first, hfirst⟩ := Option.isSome_iff_exists.mp hsome
    have hfirstKey : key first = k := by simpa using List.find?_some hfirst
    rw [hfirst, List.inj_on_of_nodup_map h (List.mem_of_find?_eq_some hfirst) hmem
      (hfirstKey.trans hkey.symm)]

/-- The record of an identity is found under its new name. -/
theorem find?_identity_moved (hperm : echoed.Perm (placed.map (moved move)))
    (hidentities : (placed.map fun o => identity o.1).Nodup) (key : κ) :
    (echoed.find? fun o => identity o.1 = key) =
      (placed.find? fun o => identity o.1 = key).map (moved move) := by
  have hechoed : (echoed.map fun o => identity o.1).Nodup := by
    rw [(hperm.map _).nodup_iff, List.map_map]
    exact hidentities
  refine Option.ext fun o => ?_
  rw [find?_key_eq_some_iff hechoed, hperm.mem_iff, List.mem_map, Option.map_eq_some_iff]
  constructor
  · rintro ⟨⟨p, hp, rfl⟩, hkey⟩
    exact ⟨p, (find?_key_eq_some_iff hidentities).mpr ⟨hp, hkey⟩, rfl⟩
  · rintro ⟨p, hp, rfl⟩
    obtain ⟨hmem, hkey⟩ := (find?_key_eq_some_iff hidentities).mp hp
    exact ⟨⟨p, hmem, rfl⟩, hkey⟩

/-- **The first pass finds the same records** and claims the same places. -/
theorem pairByIdentity_moved (hperm : echoed.Perm (placed.map (moved move)))
    (hidentities : (placed.map fun o => identity o.1).Nodup) (claimed : List ℕ)
    (desired : List ρ) :
    pairByIdentity echoed (claimed.map move) desired =
      (pairByIdentity placed claimed desired).map (List.map (Option.map (moved move)))
        (List.map move) := by
  induction desired generalizing claimed with
  | nil => rfl
  | cons wanted rest ih =>
    rw [pairByIdentity, pairByIdentity, find?_identity_moved hperm hidentities]
    cases placed.find? fun o => identity o.1 = identity wanted with
    | none =>
      dsimp only [Option.map_none]
      rw [ih]
      rfl
    | some o =>
      have hcontains : (claimed.map move).contains (moved move o).2 = claimed.contains o.2 :=
        contains_map_move move claimed o.2
      have hclaim : (moved move o).2 :: claimed.map move = (o.2 :: claimed).map move := rfl
      simp only [Option.map_some, hcontains]
      by_cases hfree : claimed.contains o.2 = true
      · rw [if_pos hfree, if_pos hfree, ih]
        rfl
      · rw [if_neg hfree, if_neg hfree, hclaim, ih]
        rfl

end FirstPass

/-! ## The second pass -/

/-- The same outcome after the move: the same kind, the same record, and the places under
their new names. -/
inductive Resolution.Moved (move : Equiv.Perm ℕ) : Resolution ρ → Resolution ρ → Prop
  | byIdentity (i : ℕ) (record : ρ) :
    Moved move (.byIdentity i record) (.byIdentity (move i) record)
  | byFallback (i : ℕ) (record : ρ) :
    Moved move (.byFallback i record) (.byFallback (move i) record)
  | notFound : Moved move .notFound .notFound
  | ambiguous {places echoes : List ℕ} (h : echoes.Perm (places.map move)) :
    Moved move (.ambiguous places) (.ambiguous echoes)

theorem Resolution.Moved.index?_eq {move : Equiv.Perm ℕ} {res echo : Resolution ρ}
    (h : res.Moved move echo) : echo.index? = res.index?.map move := by
  cases h <;> rfl

/-- The same places are held, under their new names. -/
theorem heldPlaces_moved {move : Equiv.Perm ℕ} {resolved echoes : List (Resolution ρ)}
    (h : List.Forall₂ (Resolution.Moved move) resolved echoes) :
    heldPlaces echoes = (heldPlaces resolved).map move := by
  induction h with
  | nil => rfl
  | cons hres _ ih =>
    rw [heldPlaces, heldPlaces] at ih ⊢
    rw [List.filterMap_cons, List.filterMap_cons, hres.index?_eq, ih]
    cases Resolution.index? _ <;> rfl

section SecondPass

variable [DecidableEq φ] [Reconcilable ρ κ φ] {move : Equiv.Perm ℕ} {placed echoed : List (ρ × ℕ)}

/-- The same records are candidates. -/
theorem perm_candidates_moved (hperm : echoed.Perm (placed.map (moved move))) (claimed : List ℕ)
    (wanted : ρ) :
    (candidates echoed (claimed.map move) wanted).Perm
      ((candidates placed claimed wanted).map (moved move)) := by
  rw [candidates, candidates]
  cases fallback? wanted with
  | none => exact List.Perm.nil
  | some key =>
    refine (hperm.filter _).trans ?_
    rw [List.filter_map]
    refine List.Perm.of_eq (congrArg _ (List.filter_congr fun o _ => ?_))
    have hcontains : (claimed.map move).contains (moved move o).2 = claimed.contains o.2 :=
      contains_map_move move claimed o.2
    rw [Function.comp_apply, hcontains]
    rfl

/-- A record with several candidates gets none of them. -/
theorem resolve_of_two_le {claimed : List ℕ} {wanted : ρ} {rest : List (ρ × Option (ρ × ℕ))}
    (h : 2 ≤ (candidates placed claimed wanted).length) :
    resolve placed claimed ((wanted, none) :: rest) =
      (resolve placed claimed rest).map
        (.ambiguous ((candidates placed claimed wanted).map Prod.snd) :: ·) id := by
  rw [resolve]
  split
  · next hnone =>
    rw [hnone, List.length_nil] at h
    omega
  · next o hone =>
    rw [hone, List.length_singleton] at h
    omega
  · rfl

theorem two_le_length {α : Type} {l : List α} (hne : l = [] → False)
    (hmany : ∀ a, l = [a] → False) : 2 ≤ l.length := by
  rcases l with _ | ⟨a, _ | ⟨b, rest⟩⟩
  · exact (hne rfl).elim
  · exact (hmany a rfl).elim
  · rw [List.length_cons, List.length_cons]
    omega

/-- **The second pass resolves each desired record in the same way.** -/
theorem forall₂_resolve_moved (hperm : echoed.Perm (placed.map (moved move))) (claimed : List ℕ)
    (pairs : List (ρ × Option (ρ × ℕ))) :
    List.Forall₂ (Resolution.Moved move) (resolve placed claimed pairs).1
      (resolve echoed (claimed.map move)
        (pairs.map (Prod.map id (Option.map (moved move))))).1 := by
  have hleft (wanted : ρ) :
      Prod.map id (Option.map (moved (ρ := ρ) move)) (wanted, none) = (wanted, none) := rfl
  fun_induction resolve placed claimed pairs with
  | case1 => exact List.Forall₂.nil
  | case2 claimed wanted o rest ih =>
    rw [List.map_cons]
    exact List.Forall₂.cons (.byIdentity o.2 _) ih
  | case3 claimed wanted rest hnone ih =>
    have hcandidates := perm_candidates_moved hperm claimed wanted
    rw [hnone, List.map_nil] at hcandidates
    rw [List.map_cons, hleft, resolve, hcandidates.eq_nil]
    exact List.Forall₂.cons .notFound ih
  | case4 claimed wanted rest o hone ih =>
    have hcandidates := perm_candidates_moved hperm claimed wanted
    rw [hone, List.map_singleton] at hcandidates
    rw [List.map_cons, hleft, resolve, hcandidates.eq_singleton]
    exact List.Forall₂.cons (.byFallback o.2 _) ih
  | case5 claimed wanted rest hmany hnotone ih =>
    have hcandidates := perm_candidates_moved hperm claimed wanted
    have hseveral : 2 ≤ (candidates placed claimed wanted).length :=
      two_le_length hmany hnotone
    have hechoes : 2 ≤ (candidates echoed (claimed.map move) wanted).length := by
      rwa [hcandidates.length_eq, List.length_map]
    rw [List.map_cons, hleft, resolve_of_two_le hechoes]
    refine List.Forall₂.cons (.ambiguous ?_) ih
    have hplaces := hcandidates.map Prod.snd
    rwa [List.map_map] at hplaces ⊢

end SecondPass

/-! ## The whole -/

section Whole

variable [DecidableEq κ] [DecidableEq φ] [Reconcilable ρ κ φ] {move : Equiv.Perm ℕ}
  {observed echoed : List ρ}

/-- Related lists are related with the places of their members. -/
theorem forall₂_zipIdx {α β : Type} {R : α → β → Prop} {as : List α} {bs : List β}
    (h : List.Forall₂ R as bs) (n : ℕ) :
    List.Forall₂ (fun a b => a.2 = b.2 ∧ R a.1 b.1) (as.zipIdx n) (bs.zipIdx n) := by
  induction h generalizing n with
  | nil => exact List.Forall₂.nil
  | cons hab _ ih =>
    rw [List.zipIdx_cons, List.zipIdx_cons]
    exact List.Forall₂.cons ⟨rfl, hab⟩ (ih (n + 1))

/-- The desired records are resolved in the same way. -/
theorem forall₂_resolutions_moved (desired : List ρ) (hmove : MovesTo move observed echoed)
    (hidentities : (observed.map identity).Nodup) :
    List.Forall₂ (Resolution.Moved move) (resolutions desired observed)
      (resolutions desired echoed) := by
  have hperm := hmove.perm_zipIdx
  have hplaced : (observed.zipIdx.map fun o => identity o.1).Nodup := by
    have hfst : (observed.zipIdx.map Prod.fst).map identity = observed.map identity := by
      rw [List.zipIdx_map_fst]
    rwa [← hfst, List.map_map] at hidentities
  have hfound := pairByIdentity_moved hperm hplaced [] desired
  rw [List.map_nil] at hfound
  rw [resolutions, resolutions, foundFirst, foundFirst, claimedFirst, claimedFirst, hfound,
    Prod.map_fst, Prod.map_snd, List.zip_map_right]
  exact forall₂_resolve_moved hperm _ _

/-- What it means that two runs differ by the places of the observed records only. -/
structure Reconciliation.Moved (move : Equiv.Perm ℕ) (r echo : Reconciliation ρ) : Prop where
  /-- Each desired record has the same outcome. -/
  slots : List.Forall₂
    (fun s t => s.desiredIndex = t.desiredIndex ∧ s.resolution.Moved move t.resolution)
    r.slots echo.slots
  /-- The same observed records are ghosts. -/
  ghosts : echo.ghosts.Perm (r.ghosts.map fun g => ⟨move g.observedIndex, g.record⟩)

theorem moved_reconcile (desired : List ρ) (hmove : MovesTo move observed echoed)
    (hidentities : (observed.map identity).Nodup) :
    (reconcile desired observed).Moved move (reconcile desired echoed) := by
  have hresolved := forall₂_resolutions_moved desired hmove hidentities
  constructor
  · rw [slots_reconcile, slots_reconcile, List.forall₂_map_left_iff, List.forall₂_map_right_iff]
    exact forall₂_zipIdx hresolved 0
  · rw [ghosts_reconcile, ghosts_reconcile, heldPlaces_moved hresolved]
    refine ((hmove.perm_zipIdx.filter _).map _).trans (List.Perm.of_eq ?_)
    rw [List.filter_map, List.map_map, List.map_map]
    refine congrArg _ (List.filter_congr fun o _ => ?_)
    have hcontains : ((heldPlaces (resolutions desired observed)).map move).contains
        (moved move o).2 = (heldPlaces (resolutions desired observed)).contains o.2 :=
      contains_map_move move _ o.2
    rw [Function.comp_apply, hcontains]

/-- **The order of the observed records does not matter.**  When they are permuted, and no
two of them have one identity, there are moves of their places, and under each of these the
two runs are the same: a desired record is paired in the same way with the same record, or
not found, or it has the same candidates, and the ghosts are the same. -/
theorem moved_reconcile_of_perm (desired : List ρ) (hidentities : (observed.map identity).Nodup)
    (hperm : observed.Perm echoed) :
    (∃ move, MovesTo move observed echoed) ∧
      ∀ move, MovesTo move observed echoed →
        (reconcile desired observed).Moved move (reconcile desired echoed) :=
  ⟨exists_movesTo hperm, fun _ hmove => moved_reconcile desired hmove hidentities⟩

end Whole

/-! ## Choices of name servers in another order -/

namespace DnsServerSelect

/-- A choice of one name server for one pattern. -/
def ofPattern (id : UInt32) (queryPattern : String) : DnsServerSelect where
  id
  servers := [⟨"10.0.0.1", none⟩]
  queryPattern

/-- Choices that are wanted: the pattern of the first is reported twice and that of the last
once, under other numbers, and the second one comes twice. -/
def wanted : List DnsServerSelect :=
  [ofPattern 1 "example.com", ofPattern 2 ".", ofPattern 2 ".", ofPattern 3 "corp.example"]

/-- Choices that are reported, with different numbers. -/
def reported : List DnsServerSelect :=
  [ofPattern 7 "example.com", ofPattern 2 ".", ofPattern 8 "example.com",
    ofPattern 9 "corp.example"]

/-- Reported in the reverse order, the choices are paired in the same way. -/
theorem moved_reconcile_reverse :
    (reported.map identity).Nodup ∧ reported.Perm reported.reverse ∧
      (∃ move, MovesTo move reported reported.reverse) ∧
      ∀ move, MovesTo move reported reported.reverse →
        (reconcile wanted reported).Moved move (reconcile wanted reported.reverse) := by
  have hidentities : (reported.map identity).Nodup := by decide
  have hperm : reported.Perm reported.reverse := (List.reverse_perm reported).symm
  exact ⟨hidentities, hperm, moved_reconcile_of_perm wanted hidentities hperm⟩

end DnsServerSelect

end RouterConfig
