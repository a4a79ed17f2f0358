import RouterConfig.Reconcilable

/-!
# Reconciliation

`reconcile` pairs the records that are wanted with those that a device reports.
A device may report them in another order, under other identities, and beside
records that nobody asked for.

Pairing takes two passes.  The first goes by identity: a desired record gets the
first observed record of its identity, unless an earlier one has claimed it.  The
second goes by fallback key and takes care of what is left: a desired record gets
the observed record of its fallback key if there is exactly one that nobody has
claimed.  If there are several, none is taken, since a guess would change the
wrong record; the candidates are reported instead.

Nothing is lost on either side.  Every desired record has one *slot*, and every
observed record that no slot claims is a *ghost*.
-/

namespace RouterConfig

/-- What became of a desired record. -/
inductive Resolution (ρ : Type) where
  /-- It was paired by identity. -/
  | byIdentity (index : Nat) (record : ρ)
  /-- It was paired by fallback key. -/
  | byFallback (index : Nat) (record : ρ)
  /-- Nothing is about the same. -/
  | notFound
  /-- Several observed records are about the same. -/
  | ambiguous (candidates : List Nat)
deriving DecidableEq, Repr

namespace Resolution

variable {ρ : Type}

/-- The place of the observed record in its list. -/
def index? : Resolution ρ → Option Nat
  | .byIdentity index _ => some index
  | .byFallback index _ => some index
  | _ => none

/-- The observed record in the spelling of the desired one. -/
def record? : Resolution ρ → Option ρ
  | .byIdentity _ record => some record
  | .byFallback _ record => some record
  | _ => none

end Resolution

/-- A desired record, by its place in its list, and what became of it. -/
structure Slot (ρ : Type) where
  desiredIndex : Nat
  resolution : Resolution ρ
deriving DecidableEq, Repr

/-- The slot has an observed record. -/
def Slot.isMatched {ρ : Type} (s : Slot ρ) : Bool :=
  s.resolution.record?.isSome

/-- An observed record that no desired record claims. -/
structure Ghost (ρ : Type) where
  observedIndex : Nat
  record : ρ
deriving DecidableEq, Repr

/-- Two lists, paired. -/
structure Reconciliation (ρ : Type) where
  /-- One for each desired record, in order. -/
  slots : List (Slot ρ)
  /-- In the order of the observed records. -/
  ghosts : List (Ghost ρ)
deriving DecidableEq, Repr

namespace Reconciliation

variable {ρ : Type}

/-- The observed records that were paired, in desired order and spelling. -/
def normalized (r : Reconciliation ρ) : List ρ :=
  r.slots.filterMap fun s => s.resolution.record?

/-- The desired records that have to be created. -/
def unmatched (r : Reconciliation ρ) : List Nat :=
  (r.slots.filter fun s => !s.isMatched).map Slot.desiredIndex

/-- Everything that is wanted is there, and nothing else. -/
def isConverged (r : Reconciliation ρ) : Bool :=
  r.ghosts.isEmpty && r.slots.all Slot.isMatched

end Reconciliation

section Passes

variable {ρ κ φ : Type} [DecidableEq κ] [DecidableEq φ] [Reconcilable ρ κ φ]

open Reconcilable

/-- The first pass, where `claimed` are the places already taken: for each
desired record the observed one that it is paired with, if any, and the places
that are taken in the end. -/
def pairByIdentity (observed : List (ρ × Nat)) :
    (claimed : List Nat) → List ρ → List (Option (ρ × Nat)) × List Nat
  | claimed, [] => ([], claimed)
  | claimed, wanted :: rest =>
    match observed.find? fun o => identity o.1 = identity wanted with
    | some o =>
      if claimed.contains o.2 then (pairByIdentity observed claimed rest).map (none :: ·) id
      else (pairByIdentity observed (o.2 :: claimed) rest).map (some o :: ·) id
    | none => (pairByIdentity observed claimed rest).map (none :: ·) id

/-- The observed records that nobody has claimed and that are about the same as
the desired one. -/
def candidates (observed : List (ρ × Nat)) (claimed : List Nat) (wanted : ρ) : List (ρ × Nat) :=
  match fallback? wanted with
  | none => []
  | some key => observed.filter fun o => !claimed.contains o.2 && fallback? o.1 = some key

/-- The second pass, where `claimed` are the places already taken and each
desired record comes with what the first pass found: what becomes of each, and
the places that are taken in the end. -/
def resolve (observed : List (ρ × Nat)) :
    (claimed : List Nat) → List (ρ × Option (ρ × Nat)) → List (Resolution ρ) × List Nat
  | claimed, [] => ([], claimed)
  | claimed, (wanted, some o) :: rest =>
    (resolve observed claimed rest).map (.byIdentity o.2 (normalize wanted o.1) :: ·) id
  | claimed, (wanted, none) :: rest =>
    match candidates observed claimed wanted with
    | [] => (resolve observed claimed rest).map (.notFound :: ·) id
    | [o] =>
      (resolve observed (o.2 :: claimed) rest).map
        (.byFallback o.2 (normalize wanted o.1) :: ·) id
    | several =>
      (resolve observed claimed rest).map (.ambiguous (several.map Prod.snd) :: ·) id

/-- Pairs desired records with observed ones.  The places that the first pass
takes are handed on to the second, and the ghosts are the observed records at
the places that nobody has taken in the end. -/
def reconcile (desired observed : List ρ) : Reconciliation ρ :=
  let placed := observed.zipIdx
  let (found, claimed) := pairByIdentity placed [] desired
  let (resolved, claimed) := resolve placed claimed (desired.zip found)
  ⟨resolved.zipIdx.map fun r => ⟨r.2, r.1⟩,
    (placed.filter fun o => !claimed.contains o.2).map fun o => ⟨o.2, o.1⟩⟩

end Passes

end RouterConfig
