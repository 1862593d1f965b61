/-!
# Registries

A registry keeps values under identifiers, up to a capacity. A value is used when it is added and when
it is looked up; past the capacity the values that have not been used for longest are dropped.
-/

namespace TapeMachine

/-- Values under identifiers. -/
structure Registry (α : Type) where
  capacity : Int
  /-- The entries, the one that has not been used for longest first. -/
  entries : List (String × α)

namespace Registry

variable {α : Type}

/-- A registry with nothing in it. -/
def empty (capacity : Int) : Registry α := ⟨capacity, []⟩

/-- The number of entries a registry keeps, unless another one is asked for. -/
def defaultCapacity : Int := 64

/-- The number of entries. -/
def size (r : Registry α) : Nat := r.entries.length

/-- The identifiers, the one that has not been used for longest first. -/
def ids (r : Registry α) : List String := r.entries.map (·.1)

/-- The value of an identifier. -/
def find? (r : Registry α) (id : String) : Option α :=
  (r.entries.find? (·.1 == id)).map (·.2)

/-- Removes an identifier. -/
def erase (r : Registry α) (id : String) : Registry α :=
  { r with entries := r.entries.filter (·.1 != id) }

/-- Removes all entries. -/
def clear (r : Registry α) : Registry α := { r with entries := [] }

/-- Drops the oldest entries past the capacity. -/
def evict (r : Registry α) : Registry α :=
  { r with entries := r.entries.drop (r.entries.length - r.capacity.toNat) }

/-- Adds a value under a new identifier. No number of entries is small enough for a negative capacity,
so that nothing can be added. -/
def add? (r : Registry α) (id : String) (a : α) : Option (Registry α) :=
  if r.capacity < 0 then none else some { r with entries := r.entries ++ [(id, a)] }.evict

/-- Looks a value up, and puts it last. -/
def get? (r : Registry α) (id : String) : Option (α × Registry α) :=
  (r.find? id).map fun a => (a, { r with entries := (r.erase id).entries ++ [(id, a)] })

/-- Puts another value under an identifier that is there. -/
def replace (r : Registry α) (id : String) (a : α) : Registry α :=
  { r with entries := r.entries.map fun e => if e.1 == id then (id, a) else e }

/-- Removes an identifier. Says whether it was there. -/
def discard (r : Registry α) (id : String) : Bool × Registry α :=
  ((r.find? id).isSome, r.erase id)

end Registry

end TapeMachine
