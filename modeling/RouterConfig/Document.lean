import RouterConfig.Address.Network

/-!
# Documents

Records are stored and exchanged as documents: trees of named fields, lists,
texts and numbers.  This module has the trees and the readers from which the
forms of the records are put together; the forms themselves are in the modules
below it.

Four rules hold for every form.  A field with an unknown name is ignored.  A
record may be given as the list of its fields in order, of which the last may be
missing where the fields themselves may.  A secret has no place in such a list, nor
in a record that stands in one.  And an alternative that carries nothing is its
name alone, or a record whose one field has that name and no value.
-/

namespace RouterConfig

/-- A tree of values. -/
inductive Document where
  | null
  | flag (value : Bool)
  /-- The number `mantissa / 10 ^ places`, with as many places as are written. -/
  | number (mantissa : Int) (places : Nat)
  | text (value : String)
  | list (items : List Document)
  /-- No two fields have the same name. -/
  | record (fields : List (String × Document))
deriving Inhabited

/-- Values that can be written as documents. -/
class ToDocument (α : Type) where
  toDocument : α → Document

/-- Values that can be read from documents. -/
class OfDocument (α : Type) where
  /-- Nothing if the document does not fit. -/
  ofDocument? : Document → Option α

export ToDocument (toDocument)
export OfDocument (ofDocument?)

/-! ## Plain values -/

instance : ToDocument Document := ⟨id⟩

instance : OfDocument Document := ⟨some⟩

instance : ToDocument Bool := ⟨.flag⟩

instance : OfDocument Bool where
  ofDocument?
    | .flag value => some value
    | _ => none

instance : ToDocument String := ⟨.text⟩

instance : OfDocument String where
  ofDocument?
    | .text value => some value
    | _ => none

instance : ToDocument Nat := ⟨fun n => .number n 0⟩

/-- A number that is written with places is none, even if they are zero. -/
instance : OfDocument Nat where
  ofDocument?
    | .number (.ofNat n) 0 => some n
    | _ => none

instance : ToDocument UInt32 := ⟨fun n => toDocument n.toNat⟩

instance : OfDocument UInt32 where
  ofDocument? d := do
    let n : Nat ← ofDocument? d
    if n < UInt32.size then some n.toUInt32 else none

instance : ToDocument UInt8 := ⟨fun n => toDocument n.toNat⟩

instance : OfDocument UInt8 where
  ofDocument? d := do
    let n : Nat ← ofDocument? d
    if n < UInt8.size then some n.toUInt8 else none

instance {α : Type} [ToDocument α] : ToDocument (List α) := ⟨fun as => .list (as.map toDocument)⟩

instance {α : Type} [OfDocument α] : OfDocument (List α) where
  ofDocument?
    | .list items => items.mapM ofDocument?
    | _ => none

instance {α : Type} [ToDocument α] : ToDocument (Option α) where
  toDocument
    | some a => toDocument a
    | none => .null

instance {α : Type} [OfDocument α] : OfDocument (Option α) where
  ofDocument?
    | .null => some none
    | d => (ofDocument? d).map some

instance {α β : Type} [ToDocument α] [ToDocument β] : ToDocument (α × β) :=
  ⟨fun p => .list [toDocument p.1, toDocument p.2]⟩

instance : ToDocument Empty := ⟨nofun⟩

/-! ## Reading records and alternatives -/

namespace Document

/-- The value of a field, if the field is there. -/
def field? (name : String) : Document → Option Document
  | .record fields => fields.lookup name
  | _ => none

/-- Reads a field that has to be there. -/
def required {α : Type} [OfDocument α] (d : Document) (name : String) : Option α :=
  (d.field? name).bind ofDocument?

/-- Reads a field that may be missing. -/
def orElse {α : Type} [OfDocument α] (d : Document) (name : String) (default : α) : Option α :=
  match d.field? name with
  | some v => ofDocument? v
  | none => some default

/-- Reads a field that may be missing or null. -/
def optional {α : Type} [OfDocument α] (d : Document) (name : String) : Option (Option α) :=
  d.orElse name none

/-- The names of the fields that hold secrets. -/
def secretNames : List String := ["pre_shared_key", "tunnel_auth", "password"]

/-- The document without the secrets among its own fields. -/
def withoutSecrets : Document → Document
  | .record fields => .record (fields.filter fun field => !secretNames.contains field.1)
  | d => d

/-- A record with the given names; the names are needed if it is written as a list. -/
def asRecord? (names : List String) : Document → Option Document
  | .record fields => some (.record fields)
  | .list items =>
    if items.length ≤ names.length then some (.record (names.zip (items.map withoutSecrets)))
    else none
  | _ => none

/-- As `asRecord?`, but a list has to hold all the fields. -/
def asFullRecord? (names : List String) : Document → Option Document
  | .list items => if items.length = names.length then asRecord? names (.list items) else none
  | d => d.asRecord? names

/-- An alternative given by its name, with what it carries. -/
def alternative? : Document → Option (String × Document)
  | .text name => some (name, .null)
  | .record [alternative] => some alternative
  | _ => none

/-- The name of an alternative that carries nothing. -/
def name? (d : Document) : Option String :=
  match d.alternative? with
  | some (name, .null) => some name
  | _ => none

/-- The name of an alternative that carries nothing, where it stands in a tagged
record: there, the empty record counts as no value too. -/
def nameInTagged? (d : Document) : Option String :=
  match d.alternative? with
  | some (name, .null) => some name
  | some (name, .record []) => some name
  | _ => none

/-- An alternative that is named by one of its own fields, its *tag*, with the
others.  In a list the tag comes first. -/
def tagged? (tag : String) : Document → Option (String × Document)
  | .record fields => do
    match ← fields.lookup tag with
    | .text name => some (name, .record fields)
    | _ => none
  | .list (.text name :: items) => some (name, .list items)
  | _ => none

end Document

/-! ## Addresses -/

instance : ToDocument Ipv4 := ⟨fun a => .text a.render⟩

instance : OfDocument Ipv4 where
  ofDocument? d := do Ipv4.read? (← ofDocument? d)

instance : ToDocument Network := ⟨fun n => .text n.render⟩

instance : OfDocument Network where
  ofDocument? d := do (Network.read (← ofDocument? d)).toOption

end RouterConfig
