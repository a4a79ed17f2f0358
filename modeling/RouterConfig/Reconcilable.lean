/-!
# Records that can be reconciled

To compare what is wanted with what a device reports, records have to be paired
off.  A record has an *identity*, by which the device knows it, and may have a
*fallback key*, which says what the record is about when its identity has
changed.  A device may also spell a record differently from the way it was
wanted; `normalize` takes back such differences.
-/

namespace RouterConfig

/-- Records of type `ρ` are paired by identities of type `κ`, and where that
fails by fallback keys of type `φ`. -/
class Reconcilable (ρ : Type) (κ φ : outParam Type) where
  identity : ρ → κ
  fallback? : ρ → Option φ
  /-- The observed record in the spelling of the desired one. -/
  normalize : (desired observed : ρ) → ρ := fun _ observed => observed

end RouterConfig
