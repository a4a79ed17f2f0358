import RouterConfig.Proofs.Reconcile.Identities
import RouterConfig.Proofs.Reconcile.Order

/-!
# What was read is what is there

A device that is read twice gives the same records, perhaps in another order.  Reconciling
the first reading with the second has to find nothing to do, or else every reading would show
a drift that is not there.

Two things make this work.  The records of a reading have distinct identities, so the first
pass pairs each record with its own echo and leaves nothing to the second one
(`resolutions_echoed`).  And no record changes when it is given its own spelling, so the echo
comes back as it was.

* `settlesItself_of_decode`: this holds for six features and for every text.
-/

namespace RouterConfig

open Reconcilable

variable {ρ κ φ : Type}

/-! ## Pairing records with their partners -/

/-- **The first pass pairs each record with its partner**, the observed record of its identity,
where no two observed records have one identity. -/
theorem pairByIdentity_of_partners [DecidableEq κ] [Reconcilable ρ κ φ] {placed : List (ρ × ℕ)}
    (hidentities : (placed.map fun o => identity o.1).Nodup) {desired : List ρ}
    {partners : List (ρ × ℕ)}
    (hpartners : List.Forall₂ (fun r o => identity o.1 = identity r) desired partners)
    {claimed : List ℕ} (hplaced : ∀ o ∈ partners, o ∈ placed)
    (hplaces : (partners.map Prod.snd).Nodup) (hfree : ∀ o ∈ partners, o.2 ∉ claimed) :
    (pairByIdentity placed claimed desired).1 = partners.map some := by
  -- what is claimed on the way are the places in front, and the partners behind have other ones
  induction hpartners generalizing claimed with
  | nil => rfl
  | @cons r o _ rest hidentity _ ih =>
    rw [List.forall_mem_cons] at hplaced hfree
    rw [List.map_cons, List.nodup_cons] at hplaces
    have hfind : (placed.find? fun p => identity p.1 = identity r) = some o :=
      (find?_key_eq_some_iff hidentities).mpr ⟨hplaced.1, hidentity⟩
    have hunclaimed : ¬ claimed.contains o.2 = true := by
      rw [List.contains_iff_mem]
      exact hfree.1
    have hrest : ∀ p ∈ rest, p.2 ∉ o.2 :: claimed := by
      intro p hp hmem
      rcases List.mem_cons.mp hmem with heq | hmem
      · exact hplaces.1 (heq ▸ List.mem_map_of_mem hp)
      · exact hfree.2 p hp hmem
    rw [List.map_cons, pairByIdentity, hfind]
    dsimp only
    rw [if_neg hunclaimed, Prod.map_fst, ih hplaced.2 hplaces.2 hrest]

/-- Nothing is left to the second pass where the first one found everything. -/
theorem resolve_of_found [DecidableEq φ] [Reconcilable ρ κ φ] (placed : List (ρ × ℕ))
    (claimed : List ℕ) (desired : List ρ) (partners : List (ρ × ℕ)) :
    (resolve placed claimed (desired.zip (partners.map some))).1 =
      List.zipWith (fun r o => .byIdentity o.2 (normalize r o.1)) desired partners := by
  induction desired generalizing partners with
  | nil => rfl
  | cons r rest ih =>
    cases partners with
    | nil => rfl
    | cons o partners =>
      rw [List.map_cons, List.zip_cons_cons, resolve, Prod.map_fst, ih, List.zipWith_cons_cons]

/-- **Each record is resolved by its partner.** -/
theorem resolutions_of_partners [DecidableEq κ] [DecidableEq φ] [Reconcilable ρ κ φ]
    {desired echoed : List ρ} {partners : List (ρ × ℕ)}
    (hpartners : List.Forall₂ (fun r o => identity o.1 = identity r) desired partners)
    (hperm : echoed.zipIdx.Perm partners)
    (hidentities : (partners.map fun o => identity o.1).Nodup) :
    resolutions desired echoed =
      List.zipWith (fun r o => .byIdentity o.2 (normalize r o.1)) desired partners := by
  have hechoed : (echoed.zipIdx.map fun o => identity o.1).Nodup :=
    (hperm.map _).nodup_iff.mpr hidentities
  have hplaces : (partners.map Prod.snd).Nodup := by
    rw [← (hperm.map Prod.snd).nodup_iff]
    exact nodup_places echoed
  have hfound : foundFirst desired echoed = partners.map some :=
    pairByIdentity_of_partners hechoed hpartners (fun o ho => hperm.mem_iff.mpr ho) hplaces
      fun o _ => List.not_mem_nil
  rw [resolutions, hfound]
  exact resolve_of_found _ _ _ _

/-- A permutation of a list gives each member a place in the other list. -/
theorem exists_places {rs echoed : List ρ} (h : rs.Perm echoed) :
    ∃ wanted : List (ρ × ℕ), wanted.map Prod.fst = rs ∧ echoed.zipIdx.Perm wanted := by
  obtain ⟨move, hmove⟩ := exists_movesTo h
  refine ⟨rs.zipIdx.map (moved move), ?_, hmove.perm_zipIdx⟩
  rw [List.map_map]
  exact List.zipIdx_map_fst 0 rs

/-- What it means that a reconciliation finds nothing to do. -/
structure Reconciliation.Settles (desired observed : List ρ) (r : Reconciliation ρ) : Prop where
  /-- There is one slot for each desired record, in order. -/
  slot_each : r.slots.map Slot.desiredIndex = List.range desired.length
  /-- Each slot is paired by identity, and its observed record is equal to the desired one. -/
  paired : ∀ s ∈ r.slots, ∃ i record, s.resolution = .byIdentity i record ∧
    desired[s.desiredIndex]? = some record ∧ observed[i]? = some record
  no_ghosts : r.ghosts = []
  none_unmatched : r.unmatched = []
  converged : r.isConverged = true
  /-- What was observed, in desired order, is what is desired. -/
  normalized_eq : r.normalized = desired

section Echoed

variable [DecidableEq κ] [DecidableEq φ] [Reconcilable ρ κ φ]

/-- **Each record is paired with its echo**, which is its partner. -/
theorem resolutions_echoed {echoed : List ρ} {wanted : List (ρ × ℕ)}
    (hperm : echoed.zipIdx.Perm wanted) (hidentities : (wanted.map fun o => identity o.1).Nodup) :
    resolutions (wanted.map Prod.fst) echoed =
      wanted.map fun o => .byIdentity o.2 (normalize o.1 o.1) := by
  have hpartners : List.Forall₂ (fun r o => identity o.1 = identity r) (wanted.map Prod.fst)
      wanted := by
    rw [List.forall₂_map_left_iff, List.forall₂_same]
    exact fun _ _ => rfl
  rw [resolutions_of_partners hpartners hperm hidentities, List.zipWith_map_left,
    List.zipWith_self]

/-- What becomes of records that are their own spelling. -/
theorem slots_echoed (hnormalize : ∀ r : ρ, normalize r r = r) {echoed : List ρ}
    {wanted : List (ρ × ℕ)} (hperm : echoed.zipIdx.Perm wanted)
    (hidentities : (wanted.map fun o => identity o.1).Nodup) :
    (reconcile (wanted.map Prod.fst) echoed).slots =
      wanted.zipIdx.map fun o => ⟨o.2, .byIdentity o.1.2 o.1.1⟩ := by
  rw [slots_reconcile, resolutions_echoed hperm hidentities, List.zipIdx_map, List.map_map]
  refine List.map_congr_left fun o _ => ?_
  show Slot.mk o.2 (.byIdentity o.1.2 (normalize o.1.1 o.1.1)) = _
  rw [hnormalize]

/-- Every echo is claimed. -/
theorem ghosts_echoed {echoed : List ρ} {wanted : List (ρ × ℕ)}
    (hperm : echoed.zipIdx.Perm wanted) (hidentities : (wanted.map fun o => identity o.1).Nodup) :
    (reconcile (wanted.map Prod.fst) echoed).ghosts = [] := by
  have hheld : heldPlaces (resolutions (wanted.map Prod.fst) echoed) = wanted.map Prod.snd := by
    rw [resolutions_echoed hperm hidentities, heldPlaces, List.filterMap_map]
    exact congrFun (List.filterMap_eq_map (f := Prod.snd)) wanted
  rw [ghosts_reconcile, hheld, List.map_eq_nil_iff, List.filter_eq_nil_iff]
  intro o ho
  have hclaimed : o.2 ∈ wanted.map Prod.snd := List.mem_map_of_mem (hperm.mem_iff.mp ho)
  rw [List.contains_iff_mem.mpr hclaimed]
  decide

/-- **Records with distinct identities settle themselves**, in whatever order they are
observed. -/
theorem settles_of_perm {rs echoed : List ρ} (hidentities : (rs.map identity).Nodup)
    (hnormalize : ∀ r : ρ, normalize r r = r) (hperm : rs.Perm echoed) :
    (reconcile rs echoed).Settles rs echoed := by
  obtain ⟨wanted, rfl, hplaces⟩ := exists_places hperm
  rw [List.map_map] at hidentities
  have hslots := slots_echoed hnormalize hplaces hidentities
  have hghosts := ghosts_echoed hplaces hidentities
  have hmatched : ∀ s ∈ (reconcile (wanted.map Prod.fst) echoed).slots, s.isMatched = true := by
    rw [hslots, List.forall_mem_map]
    exact fun _ _ => rfl
  refine ⟨?_, ?_, hghosts, ?_, ?_, ?_⟩
  · rw [hslots, List.map_map, List.range_eq_range', List.length_map, ← List.zipIdx_map_snd 0 wanted]
    rfl
  · rw [hslots, List.forall_mem_map]
    rintro ⟨⟨record, i⟩, d⟩ hmem
    rw [List.mem_zipIdx_iff_getElem?] at hmem
    refine ⟨i, record, rfl, ?_, ?_⟩
    · rw [List.getElem?_map, hmem]
      rfl
    · exact List.mem_zipIdx_iff_getElem?.mp (hplaces.mem_iff.mpr (List.mem_of_getElem? hmem))
  · rw [Reconciliation.unmatched, List.map_eq_nil_iff, List.filter_eq_nil_iff]
    intro s hs
    rw [hmatched s hs]
    decide
  · rw [Reconciliation.isConverged, hghosts, List.all_eq_true.mpr hmatched]
    rfl
  · rw [Reconciliation.normalized, hslots, List.filterMap_map]
    conv_rhs => rw [← List.zipIdx_map_fst 0 wanted, List.map_map]
    exact congrFun (List.filterMap_eq_map (f := Prod.fst ∘ Prod.fst)) wanted.zipIdx

/-- Records that are reconciled with themselves, in whatever order, need nothing to be
done, and each of them has an identity of its own. -/
def SettlesItself (rs : List ρ) : Prop :=
  (rs.map identity).Nodup ∧
    ∀ echoed, rs.Perm echoed → (reconcile rs echoed).Settles rs echoed

theorem settlesItself_of_nodup {rs : List ρ} (hnormalize : ∀ r : ρ, normalize r r = r)
    (hidentities : (rs.map identity).Nodup) : SettlesItself rs :=
  ⟨hidentities, fun _ hperm => settles_of_perm hidentities hnormalize hperm⟩

end Echoed

/-! ## The features -/

open Rtx

/-- A choice that is wanted without a record type and observed without one stays so. -/
theorem DnsServerSelect.normalize_self (s : DnsServerSelect) : s.normalize s = s := by
  rw [normalize]
  split
  · next h =>
    rw [h.1] at h
    exact absurd h.2 (by simp)
  · rfl

/-- **What was read settles itself.**  Whatever the text says and whatever is repeated in it,
the records that are read from it have distinct identities.  Reconciled with themselves in any
order, each is paired by identity with its equal, nothing is left over on either side, and
they come back unchanged. -/
theorem settlesItself_of_decode (raw : String) :
    (∀ d : Decoded InterfaceFilters, Feature.decode (dialect.parse raw).stanza = .ok d →
        SettlesItself d.records) ∧
      (∀ d : Decoded StaticRoute, Feature.decode (dialect.parse raw).stanza = .ok d →
        SettlesItself d.records) ∧
      (∀ d : Decoded Tunnel, Feature.decode (dialect.parse raw).stanza = .ok d →
        SettlesItself d.records) ∧
      (∀ d : Decoded PpInterface, Feature.decode (dialect.parse raw).stanza = .ok d →
        SettlesItself d.records) ∧
      (∀ d : Decoded Schedule, Feature.decode (dialect.parse raw).stanza = .ok d →
        SettlesItself d.records) ∧
      (∀ d : Decoded DnsServerSelect, Feature.decode (dialect.parse raw).stanza = .ok d →
        SettlesItself d.records) := by
  refine ⟨?_, ?_, ?_, ?_, ?_, ?_⟩
  · intro d hd
    rw [← Except.ok.inj hd]
    exact settlesItself_of_nodup (fun _ => rfl) (InterfaceFilters.nodup_identities _)
  · intro d hd
    rw [← Except.ok.inj hd]
    exact settlesItself_of_nodup (fun _ => rfl) (StaticRoute.nodup_identities _)
  · intro d hd
    exact settlesItself_of_nodup (fun _ => rfl) (Tunnel.nodup_identities hd)
  · intro d hd
    exact settlesItself_of_nodup (fun _ => rfl) (PpInterface.nodup_identities hd)
  · intro d hd
    rw [← Except.ok.inj hd]
    exact settlesItself_of_nodup (fun _ => rfl) (Schedule.nodup_identities _)
  · intro d hd
    rw [← Except.ok.inj hd]
    exact settlesItself_of_nodup DnsServerSelect.normalize_self (DnsServerSelect.nodup_identities _)

/-- Once a text is known to be readable, there are records that settle themselves. -/
theorem exists_settlesItself [DecidableEq κ] [DecidableEq φ] [Feature ρ] [Reconcilable ρ κ φ]
    {raw : String} {n : ℕ}
    (hread : (Feature.decode (ρ := ρ) (dialect.parse raw).stanza).toOption.map
      (fun d => d.records.length) = some n)
    (hsettles : ∀ d : Decoded ρ, Feature.decode (dialect.parse raw).stanza = .ok d →
      SettlesItself d.records) :
    ∃ d : Decoded ρ, Feature.decode (dialect.parse raw).stanza = .ok d ∧ d.records.length = n ∧
      SettlesItself d.records := by
  obtain ⟨d, hd, hlength⟩ := Option.map_eq_some_iff.mp hread
  have hok : Feature.decode (dialect.parse raw).stanza = .ok d := by
    cases hdecode : Feature.decode (ρ := ρ) (dialect.parse raw).stanza with
    | ok own =>
      rw [hdecode] at hd
      rw [Option.some.inj hd]
    | error stop =>
      rw [hdecode] at hd
      cases hd
  exact ⟨d, hok, hlength, hsettles d hok⟩

/-- Texts in which something comes again.  Lines about the same thing are one record, a
number of a choice is not given again, and a group may be entered again. -/
theorem settlesItself_of_repeated :
    (∃ d : Decoded InterfaceFilters,
      Feature.decode (dialect.parse (joined "\n" ["ip lan1 secure filter in 100",
        "ip lan1 secure filter out", "ipv6 lan1 secure filter in 100"])).stanza = .ok d ∧
        d.records.length = 2 ∧ SettlesItself d.records) ∧
    (∃ d : Decoded StaticRoute,
      Feature.decode (dialect.parse (joined "\n" ["ip route default gateway null",
        "ip route default gateway pp 1", "ip route 10.0.0.0/8 gateway null"])).stanza = .ok d ∧
        d.records.length = 2 ∧ SettlesItself d.records) ∧
    (∃ d : Decoded Tunnel,
      Feature.decode (dialect.parse (joined "\n" ["tunnel select 1", "tunnel select 2",
        " ipsec tunnel 102", "tunnel select 1", " ipsec tunnel 101"])).stanza = .ok d ∧
        d.records.length = 2 ∧ SettlesItself d.records) ∧
    (∃ d : Decoded PpInterface,
      Feature.decode (dialect.parse (joined "\n" ["pp select 1", "pp select anonymous",
        " pp enable anonymous", "pp select 1", " pppoe use lan2"])).stanza = .ok d ∧
        d.records.length = 2 ∧ SettlesItself d.records) ∧
    (∃ d : Decoded Schedule,
      Feature.decode (dialect.parse (joined "\n" ["schedule at 1 startup clear arp",
        "schedule at 1 startup clear log", "schedule at 2 3:00 restart"])).stanza = .ok d ∧
        d.records.length = 2 ∧ SettlesItself d.records) ∧
    ∃ d : Decoded DnsServerSelect,
      Feature.decode (dialect.parse (joined "\n" ["dns server select 1 10.0.0.1 .",
        "dns server select 1 10.0.0.2 .", "dns server select 2 10.0.0.1 example.com"])).stanza =
          .ok d ∧ d.records.length = 2 ∧ SettlesItself d.records := by
  refine ⟨exists_settlesItself ?_ (settlesItself_of_decode _).1,
    exists_settlesItself ?_ (settlesItself_of_decode _).2.1,
    exists_settlesItself ?_ (settlesItself_of_decode _).2.2.1,
    exists_settlesItself ?_ (settlesItself_of_decode _).2.2.2.1,
    exists_settlesItself ?_ (settlesItself_of_decode _).2.2.2.2.1,
    exists_settlesItself ?_ (settlesItself_of_decode _).2.2.2.2.2⟩
  all_goals decide +kernel

end RouterConfig
