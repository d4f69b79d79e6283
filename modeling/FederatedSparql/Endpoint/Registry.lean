import FederatedSparql.Endpoint.Member

/-!
The members of a federation by their ids.

A member that has left is still known, so that what it was asked can be told, but it takes part in
nothing.  A connection is repaired at most once in a while: a run is shorter than that, so a second
repair for the same id is never made.
-/

namespace FederatedSparql

/-- Members by id, and which of them take part. -/
structure Registry where
  /-- Every member there ever was, the last one for each id. -/
  known : List Member := []
  /-- The ids of those that take part, in ascending order. -/
  ids : List String := []
  /-- The ids for which a repair has been asked. -/
  repaired : List String := []
deriving Repr, Inhabited

namespace Registry

/-- The member of an id, whether it takes part or not. -/
def known? (r : Registry) (id : String) : Option Member := r.known.find? (·.id == id)

/-- The member of an id that takes part. -/
def get? (r : Registry) (id : String) : Option Member :=
  if r.ids.contains id then r.known? id else none

/-- The member of an id; without one, the error that says so. -/
def get (r : Registry) (id : String) : Except FedError Member :=
  match r.get? id with
  | some m => .ok m
  | none => .error (.endpoint (.unknownEndpoint id))

/-- The members that take part, by ascending ids. -/
def members (r : Registry) : List Member := r.ids.filterMap r.known?

/-- The member that a reference means: by id, else by name or location. -/
def resolve? (r : Registry) (reference : String) : Option Member :=
  (r.get? reference).or
    (r.members.find? fun m => m.name == reference || m.url == some reference)

/-- Changes a member. -/
def update (r : Registry) (id : String) (f : Member → Member) : Registry :=
  { r with known := r.known.map fun m => if m.id == id then f m else m }

/-- Puts an id at its place. -/
def insertId (id : String) : List String → List String
  | [] => [id]
  | i :: rest => if id < i then id :: i :: rest else i :: insertId id rest

/-- Makes a member take part, unless one of its id does already. -/
def register (r : Registry) (m : Member) : Except FedError Registry :=
  if r.ids.contains m.id then .error (.configuration (.duplicateEndpoint m.id))
  else
    .ok { r with
      known := r.known.filter (·.id != m.id) ++ [m]
      ids := insertId m.id r.ids }

/-- Makes a member leave. -/
def unregister (r : Registry) (id : String) : Registry := { r with ids := r.ids.filter (· != id) }

/-- Repairs the connection of a member unless that was tried before; tells whether it was done. -/
def repair (r : Registry) (id : String) : Bool × Registry :=
  if r.repaired.contains id then (false, r)
  else
    let r := { r with repaired := id :: r.repaired }
    match r.get? id with
    | some _ => (true, r.update id Member.repair)
    | none => (false, r)

/-- Repairs all connections. -/
def repairAll (r : Registry) : Registry := r.ids.foldl (fun r id => (r.repair id).2) r

end Registry

end FederatedSparql
