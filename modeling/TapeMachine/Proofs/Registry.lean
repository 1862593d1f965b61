import Mathlib.Data.List.Nodup
import TapeMachine.Registry

/-!
# Lookups in a registry

What a registry has under an identifier, and in which order its identifiers stand, after each of its
operations. Looking a value up takes it out and puts it last (`get?_eq`), adding one puts it last
(`add?_eq_some`), and eviction drops from the front.
-/

namespace TapeMachine.Registry

variable {α : Type} {r : Registry α} {id x : String} {a b : α}

/-! ## Entries -/

theorem find?_eq_none_iff : r.find? x = none ↔ x ∉ r.ids := by
  rw [find?, Option.map_eq_none_iff, List.find?_eq_none, ids, List.mem_map]
  constructor
  · rintro h ⟨e, he, rfl⟩
    exact h e he (beq_self_eq_true e.1)
  · intro h e he hx
    exact h ⟨e, he, eq_of_beq hx⟩

theorem exists_find?_of_mem_ids (h : x ∈ r.ids) : ∃ a, r.find? x = some a := by
  cases hx : r.find? x with
  | none => exact absurd h (find?_eq_none_iff.mp hx)
  | some a => exact ⟨a, rfl⟩

theorem mem_entries_of_find? (h : r.find? x = some a) : (x, a) ∈ r.entries := by
  obtain ⟨⟨y, b⟩, hfind, rfl⟩ := Option.map_eq_some_iff.mp h
  obtain rfl : y = x := by simpa using List.find?_some hfind
  exact List.mem_of_find?_eq_some hfind

theorem mem_ids_of_mem_entries (h : (x, a) ∈ r.entries) : x ∈ r.ids :=
  List.mem_map_of_mem h

theorem mem_ids_of_find? (h : r.find? x = some a) : x ∈ r.ids :=
  mem_ids_of_mem_entries (mem_entries_of_find? h)

/-- Where no identifier stands twice, each entry is the one that is found. -/
theorem find?_of_mem_entries (hnodup : r.ids.Nodup) (h : (x, a) ∈ r.entries) :
    r.find? x = some a := by
  obtain ⟨b, hb⟩ := exists_find?_of_mem_ids (mem_ids_of_mem_entries h)
  have := List.inj_on_of_nodup_map hnodup (mem_entries_of_find? hb) h rfl
  rw [hb, (Prod.mk.inj this).2]

/-! ## Taking out -/

@[simp] theorem ids_erase (r : Registry α) (id : String) :
    (r.erase id).ids = r.ids.filter (· != id) := by
  simp only [ids, erase, List.filter_map]
  rfl

theorem find?_erase_self (r : Registry α) (id : String) : (r.erase id).find? id = none :=
  find?_eq_none_iff.mpr (by simp)

theorem find?_erase_of_ne (h : x ≠ id) : (r.erase id).find? x = r.find? x := by
  unfold find? erase
  rw [List.find?_filter]
  congr 2
  funext e
  by_cases he : e.1 = x <;> simp [he, h]

/-! ## Putting last -/

/-- The registry with one more entry, at the end. -/
def putLast (r : Registry α) (id : String) (a : α) : Registry α :=
  { r with entries := r.entries ++ [(id, a)] }

@[simp] theorem ids_putLast (r : Registry α) (id : String) (a : α) :
    (r.putLast id a).ids = r.ids ++ [id] := by
  simp [ids, putLast]

theorem nodup_ids_putLast (hnodup : r.ids.Nodup) (h : id ∉ r.ids) (a : α) :
    (r.putLast id a).ids.Nodup := by
  rw [ids_putLast, ← List.concat_eq_append, List.nodup_concat]
  exact ⟨h, hnodup⟩

theorem find?_putLast_self (h : id ∉ r.ids) (a : α) : (r.putLast id a).find? id = some a := by
  have hnone : r.entries.find? (·.1 == id) = none :=
    Option.map_eq_none_iff.mp (find?_eq_none_iff.mpr h)
  simp [find?, putLast, hnone]

theorem find?_putLast_of_ne (h : x ≠ id) (a : α) : (r.putLast id a).find? x = r.find? x := by
  simp [find?, putLast, Ne.symm h]

theorem get?_eq (r : Registry α) (id : String) :
    r.get? id = (r.find? id).map fun a => (a, (r.erase id).putLast id a) := rfl

theorem get?_eq_none (h : id ∉ r.ids) : r.get? id = none := by
  rw [get?_eq, find?_eq_none_iff.mpr h, Option.map_none]

theorem get?_eq_some (h : r.find? id = some a) :
    r.get? id = some (a, (r.erase id).putLast id a) := by
  rw [get?_eq, h, Option.map_some]

theorem find?_erase_putLast_self (r : Registry α) (id : String) (a : α) :
    ((r.erase id).putLast id a).find? id = some a :=
  find?_putLast_self (find?_eq_none_iff.mp (find?_erase_self r id)) a

theorem find?_erase_putLast_of_ne (h : x ≠ id) (a : α) :
    ((r.erase id).putLast id a).find? x = r.find? x := by
  rw [find?_putLast_of_ne h, find?_erase_of_ne h]

theorem length_ids (r : Registry α) : r.ids.length = r.size := List.length_map _

theorem size_erase_le (r : Registry α) (id : String) : (r.erase id).size ≤ r.size :=
  List.length_filter_le _ _

/-- Looking a value up keeps the identifiers. -/
theorem mem_ids_erase_putLast (h : id ∈ r.ids) (a : α) :
    x ∈ ((r.erase id).putLast id a).ids ↔ x ∈ r.ids := by
  rw [ids_putLast, ids_erase, List.mem_append, List.mem_filter, List.mem_singleton]
  by_cases hx : x = id
  · simp [hx, h]
  · simp [hx]

theorem perm_ids_erase_putLast (hnodup : r.ids.Nodup) (h : id ∈ r.ids) (a : α) :
    ((r.erase id).putLast id a).ids.Perm r.ids := by
  rw [ids_putLast, ids_erase, ← hnodup.erase_eq_filter]
  exact (List.perm_append_singleton id _).trans (List.perm_cons_erase h).symm

theorem size_erase_putLast (hnodup : r.ids.Nodup) (h : id ∈ r.ids) (a : α) :
    ((r.erase id).putLast id a).size = r.size := by
  rw [← length_ids, (perm_ids_erase_putLast hnodup h a).length_eq, length_ids]

/-! ## Evicting -/

/-- The number of entries past the capacity. -/
def surplus (r : Registry α) : Nat := r.size - r.capacity.toNat

@[simp] theorem ids_evict (r : Registry α) : r.evict.ids = r.ids.drop r.surplus := List.map_drop

theorem mem_entries_of_mem_evict (h : (x, a) ∈ r.evict.entries) : (x, a) ∈ r.entries :=
  List.mem_of_mem_drop h

theorem size_evict_le (r : Registry α) : r.evict.size ≤ r.capacity.toNat := by
  unfold size evict
  rw [List.length_drop]
  omega

/-- What is found after an eviction was there before. -/
theorem find?_of_find?_evict (hnodup : r.ids.Nodup) (h : r.evict.find? x = some a) :
    r.find? x = some a :=
  find?_of_mem_entries hnodup (mem_entries_of_mem_evict (mem_entries_of_find? h))

theorem add?_eq_some (h : 0 ≤ r.capacity) (id : String) (a : α) :
    r.add? id a = some (r.putLast id a).evict := if_neg (Int.not_lt.mpr h)

theorem add?_eq_none (h : r.capacity < 0) (id : String) (a : α) : r.add? id a = none := if_pos h

/-- A registry that may keep an entry keeps the newest one. -/
theorem find?_evict_putLast_self (hcapacity : 1 ≤ r.capacity) (h : id ∉ r.ids) (a : α) :
    ((r.putLast id a).evict).find? id = some a := by
  have hsurplus : (r.putLast id a).surplus ≤ r.entries.length := by
    simp only [surplus, size, putLast, List.length_append, List.length_singleton]
    omega
  have hevict : (r.putLast id a).evict
      = putLast { r with entries := r.entries.drop (r.putLast id a).surplus } id a :=
    congrArg (Registry.mk r.capacity) (List.drop_append_of_le_length hsurplus)
  rw [hevict]
  refine find?_putLast_self (fun hid => h ?_) a
  rw [ids, List.map_drop] at hid
  exact List.mem_of_mem_drop hid

/-! ## Replacing -/

/-- What has been put last is replaced there. -/
theorem replace_putLast (h : id ∉ r.ids) (a b : α) :
    (r.putLast id a).replace id b = r.putLast id b := by
  have hothers : r.entries.map (fun e => if e.1 == id then (id, b) else e) = r.entries := by
    refine (List.map_congr_left fun e he => ?_).trans (List.map_id _)
    have hne : e.1 ≠ id := fun hid => h (hid ▸ mem_ids_of_mem_entries he)
    simp [hne]
  simp only [replace, putLast, List.map_append, hothers, List.map_cons, beq_self_eq_true, if_true,
    List.map_nil]

theorem replace_erase_putLast (r : Registry α) (id : String) (a b : α) :
    ((r.erase id).putLast id a).replace id b = (r.erase id).putLast id b :=
  replace_putLast (find?_eq_none_iff.mp (find?_erase_self r id)) a b

end TapeMachine.Registry
