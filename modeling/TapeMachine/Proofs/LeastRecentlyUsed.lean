import Mathlib.Data.List.Induction
import TapeMachine.Proofs.Registry

/-!
# Least recently used

A history is a list of requests to a registry that was empty before the first of them. A request is
made at a time, which is its place in the history, and it uses an identifier when it adds it or asks
for it with success.

The entries of a registry have no times; their order takes the place of them. The invariant
(`Recency`) says that it is the order of the last uses, and that what was evicted had its last use
before that of anything that is kept. One request keeps it, whichever it is (`Recency.append`).
-/

namespace TapeMachine.Registry

variable {α : Type}

/-! ## Requests -/

/-- A request to a registry. -/
inductive Request (α : Type) where
  | add (id : String) (a : α)
  | get (id : String)
  | discard (id : String)

/-- What a registry answers. -/
inductive Reply (α : Type) where
  | added
  /-- No number of entries is small enough for the capacity. -/
  | refused
  | found (a : α)
  | missing
  | discarded (wasThere : Bool)

/-- Answers a request. -/
def serve (r : Registry α) : Request α → Registry α × Reply α
  | .add id a =>
    match r.add? id a with
    | some r => (r, .added)
    | none => (r.clear, .refused)
  | .get id =>
    match r.get? id with
    | some (a, r) => (r, .found a)
    | none => (r, .missing)
  | .discard id => ((r.discard id).2, .discarded (r.discard id).1)

section Serve

variable {r : Registry α} {id x : String} {q : Request α}

theorem serve_add (h : 0 ≤ r.capacity) (id : String) (a : α) :
    r.serve (.add id a) = ((r.putLast id a).evict, .added) := by
  simp only [serve, add?_eq_some h]

theorem serve_get_of_find? {a : α} (h : r.find? id = some a) :
    r.serve (.get id) = ((r.erase id).putLast id a, .found a) := by
  simp only [serve, get?_eq_some h]

theorem serve_get_of_not_mem (h : id ∉ r.ids) : r.serve (.get id) = (r, .missing) := by
  simp only [serve, get?_eq_none h]

theorem capacity_serve (r : Registry α) (q : Request α) : (r.serve q).1.capacity = r.capacity := by
  cases q with
  | add id a =>
    unfold serve add?
    by_cases h : r.capacity < 0 <;> simp [h, clear, evict]
  | get id =>
    simp only [serve, get?_eq]
    cases r.find? id <;> rfl
  | discard id => rfl

/-- A request that does not add an identifier does not bring it in. -/
theorem not_mem_ids_serve (h : x ∉ r.ids) (hq : ∀ a, q ≠ .add x a) : x ∉ (r.serve q).1.ids := by
  cases q with
  | add id a =>
    by_cases hc : r.capacity < 0
    · simp [serve, add?_eq_none hc, clear, ids]
    · rw [serve_add (Int.not_lt.mp hc), ids_evict, ids_putLast]
      intro hx
      rcases List.mem_append.mp (List.mem_of_mem_drop hx) with hx | hx
      · exact h hx
      · exact hq a (by rw [List.mem_singleton.mp hx])
  | get id =>
    cases hid : r.find? id with
    | none => rwa [serve_get_of_not_mem (find?_eq_none_iff.mp hid)]
    | some a =>
      rw [serve_get_of_find? hid, mem_ids_erase_putLast (mem_ids_of_find? hid)]
      exact h
  | discard id =>
    show x ∉ (r.erase id).ids
    rw [ids_erase]
    exact fun hx => h (List.mem_of_mem_filter hx)

end Serve

/-! ## Histories -/

/-- The registry after a history. -/
def after (capacity : Int) (h : List (Request α)) : Registry α :=
  h.foldl (fun r q => (r.serve q).1) (.empty capacity)

/-- The identifier that a request adds. -/
def Request.added? : Request α → Option String
  | add id _ => some id
  | _ => none

/-- The identifiers that are added, in the order of time. -/
def addedIds (h : List (Request α)) : List String := h.filterMap Request.added?

/-- A request uses an identifier: it adds it, or it asks for it and finds it. -/
def Uses (r : Registry α) (q : Request α) (x : String) : Prop :=
  (∃ a, q = .add x a) ∨ q = .get x ∧ ∃ a, (r.serve (.get x)).2 = .found a

/-- The request at time `t` uses the identifier. -/
def UsesAt (c : Int) (h : List (Request α)) (x : String) (t : Nat) : Prop :=
  ∃ q, h[t]? = some q ∧ (after c (h.take t)).Uses q x

/-- The identifier was last used at time `t`. -/
def LastUse (c : Int) (h : List (Request α)) (x : String) (t : Nat) : Prop :=
  UsesAt c h x t ∧ ∀ u, t < u → ¬ UsesAt c h x u

/-- The last use of `x` is earlier than that of `y`. -/
def UsedBefore (c : Int) (h : List (Request α)) (x y : String) : Prop :=
  ∃ s t, LastUse c h x s ∧ LastUse c h y t ∧ s < t

/-- The identifier was there at time `t`, and was discarded then. -/
def DiscardedAt (c : Int) (h : List (Request α)) (x : String) (t : Nat) : Prop :=
  h[t]? = some (.discard x) ∧ ((after c (h.take t)).serve (.discard x)).2 = .discarded true

/-- The identifier was added, and it is gone without having been discarded. -/
def Evicted (c : Int) (h : List (Request α)) (x : String) : Prop :=
  (∃ a, .add x a ∈ h) ∧ x ∉ (after c h).ids ∧ ∀ t, ¬ DiscardedAt c h x t

section Histories

variable {c : Int} {h : List (Request α)} {q : Request α} {x y : String} {t : Nat}

@[simp] theorem after_append (c : Int) (h : List (Request α)) (q : Request α) :
    after c (h ++ [q]) = ((after c h).serve q).1 := by
  simp [after]

@[simp] theorem capacity_after (c : Int) (h : List (Request α)) : (after c h).capacity = c := by
  induction h using List.reverseRecOn with
  | nil => rfl
  | append_singleton h q ih => rw [after_append, capacity_serve, ih]

theorem mem_addedIds_iff : x ∈ addedIds h ↔ ∃ a, .add x a ∈ h := by
  rw [addedIds, List.mem_filterMap]
  constructor
  · rintro ⟨q, hq, hx⟩
    cases q with
    | add id a => exact ⟨a, Option.some.inj hx ▸ hq⟩
    | get id => cases hx
    | discard id => cases hx
  · rintro ⟨a, ha⟩
    exact ⟨_, ha, rfl⟩

theorem uses_get_iff {r : Registry α} {id : String} :
    r.Uses (.get id) x ↔ id = x ∧ x ∈ r.ids := by
  constructor
  · rintro (⟨a, ha⟩ | ⟨hx, a, ha⟩)
    · cases ha
    · cases hx
      refine ⟨rfl, ?_⟩
      by_contra hno
      rw [serve_get_of_not_mem hno] at ha
      cases ha
  · rintro ⟨rfl, hx⟩
    obtain ⟨a, ha⟩ := exists_find?_of_mem_ids hx
    exact Or.inr ⟨rfl, a, by rw [serve_get_of_find? ha]⟩

theorem uses_add_iff {r : Registry α} {id : String} {a : α} : r.Uses (.add id a) x ↔ id = x := by
  constructor
  · rintro (⟨b, hb⟩ | ⟨hx, -⟩)
    · cases hb
      rfl
    · cases hx
  · rintro rfl
    exact Or.inl ⟨a, rfl⟩

theorem not_uses_discard {r : Registry α} {id : String} : ¬ r.Uses (.discard id) x := by
  rintro (⟨a, ha⟩ | ⟨hx, -⟩)
  · cases ha
  · cases hx

/-! ### One request more -/

theorem UsesAt.lt_length (hx : UsesAt c h x t) : t < h.length := by
  obtain ⟨q, hq, -⟩ := hx
  exact (List.getElem?_eq_some_iff.mp hq).1

theorem usesAt_append_iff_of_lt (ht : t < h.length) (q : Request α) :
    UsesAt c (h ++ [q]) x t ↔ UsesAt c h x t := by
  unfold UsesAt
  rw [List.getElem?_append_left ht, List.take_append_of_le_length (Nat.le_of_lt ht)]

theorem usesAt_append_length_iff : UsesAt c (h ++ [q]) x h.length ↔ (after c h).Uses q x := by
  unfold UsesAt
  rw [List.getElem?_append_right (Nat.le_refl _), Nat.sub_self, List.take_left]
  simp

theorem lastUse_append_of_uses (hx : (after c h).Uses q x) : LastUse c (h ++ [q]) x h.length := by
  refine ⟨usesAt_append_length_iff.mpr hx, fun u hu huse => ?_⟩
  have := huse.lt_length
  simp only [List.length_append, List.length_singleton] at this
  omega

theorem LastUse.append (hlast : LastUse c h x t) (hx : ¬ (after c h).Uses q x) :
    LastUse c (h ++ [q]) x t := by
  refine ⟨(usesAt_append_iff_of_lt hlast.1.lt_length q).mpr hlast.1, fun u hu huse => ?_⟩
  have hlt := huse.lt_length
  simp only [List.length_append, List.length_singleton] at hlt
  rcases Nat.lt_or_eq_of_le (Nat.le_of_lt_succ hlt) with hlt | rfl
  · exact hlast.2 u hu ((usesAt_append_iff_of_lt hlt q).mp huse)
  · exact hx (usesAt_append_length_iff.mp huse)

/-- What has been used before is used no more recently after a request that does not use it. -/
theorem UsedBefore.append (hxy : UsedBefore c h x y) (hx : ¬ (after c h).Uses q x) :
    UsedBefore c (h ++ [q]) x y := by
  obtain ⟨s, t, hs, ht, hst⟩ := hxy
  by_cases hy : (after c h).Uses q y
  · exact ⟨s, h.length, hs.append hx, lastUse_append_of_uses hy, hs.1.lt_length⟩
  · exact ⟨s, t, hs.append hx, ht.append hy, hst⟩

/-- What is used by the last request has been used last of all. -/
theorem LastUse.usedBefore_append (hlast : LastUse c h x t) (hx : ¬ (after c h).Uses q x)
    (hy : (after c h).Uses q y) : UsedBefore c (h ++ [q]) x y :=
  ⟨t, h.length, hlast.append hx, lastUse_append_of_uses hy, hlast.1.lt_length⟩

theorem DiscardedAt.append (hx : DiscardedAt c h x t) (q : Request α) :
    DiscardedAt c (h ++ [q]) x t := by
  have ht : t < h.length := (List.getElem?_eq_some_iff.mp hx.1).1
  unfold DiscardedAt
  rwa [List.getElem?_append_left ht, List.take_append_of_le_length (Nat.le_of_lt ht)]

theorem discardedAt_append_length (hx : x ∈ (after c h).ids) :
    DiscardedAt c (h ++ [.discard x]) x h.length := by
  obtain ⟨a, ha⟩ := exists_find?_of_mem_ids hx
  refine ⟨by simp, ?_⟩
  rw [List.take_left]
  simp [serve, discard, ha]

/-! ## The order of the entries -/

/-- **The invariant of a history.** -/
structure Recency (c : Int) (h : List (Request α)) : Prop where
  size_le : (after c h).size ≤ c
  added : ∀ x a, (x, a) ∈ (after c h).entries → .add x a ∈ h
  nodup : (after c h).ids.Nodup
  used : ∀ x a, .add x a ∈ h → ∃ t, LastUse c h x t
  sorted : (after c h).ids.Pairwise (UsedBefore c h)
  evicted : ∀ x y, Evicted c h x → y ∈ (after c h).ids → UsedBefore c h x y

namespace Recency

theorem mem_addedIds (hrec : Recency c h) (hx : x ∈ (after c h).ids) : x ∈ addedIds h := by
  obtain ⟨⟨x, a⟩, hmem, rfl⟩ := List.mem_map.mp hx
  exact mem_addedIds_iff.mpr ⟨a, hrec.added x a hmem⟩

theorem exists_lastUse (hrec : Recency c h) (hx : x ∈ (after c h).ids) : ∃ t, LastUse c h x t := by
  obtain ⟨a, ha⟩ := mem_addedIds_iff.mp (hrec.mem_addedIds hx)
  exact hrec.used x a ha

/-- An identifier that one more request does not use keeps its place in time. -/
theorem used_append (hrec : Recency c h) (q : Request α) (x : String) (a : α)
    (hx : .add x a ∈ h ++ [q]) : ∃ t, LastUse c (h ++ [q]) x t := by
  by_cases huse : (after c h).Uses q x
  · exact ⟨h.length, lastUse_append_of_uses huse⟩
  · rcases List.mem_append.mp hx with hx | hx
    · obtain ⟨t, ht⟩ := hrec.used x a hx
      exact ⟨t, ht.append huse⟩
    · exact absurd (Or.inl ⟨a, (List.mem_singleton.mp hx).symm⟩) huse

/-- Some of the identifiers that were there, none of them used by the request, stay in order. -/
theorem sorted_append (hrec : Recency c h) {l : List String} (hl : l.Sublist (after c h).ids)
    (huse : ∀ x ∈ l, ¬ (after c h).Uses q x) : l.Pairwise (UsedBefore c (h ++ [q])) :=
  (hrec.sorted.sublist hl).imp_of_mem fun hx _ hxy => hxy.append (huse _ hx)

/-- And one that the request uses comes after them. -/
theorem sorted_append_used (hrec : Recency c h) {l : List String}
    (hl : l.Sublist (after c h).ids) (huse : ∀ x ∈ l, ¬ (after c h).Uses q x)
    (hy : (after c h).Uses q y) : (l ++ [y]).Pairwise (UsedBefore c (h ++ [q])) := by
  refine List.pairwise_append.mpr ⟨hrec.sorted_append hl huse, List.pairwise_singleton _ _, ?_⟩
  intro x hx z hz
  obtain rfl := List.mem_singleton.mp hz
  obtain ⟨t, ht⟩ := hrec.exists_lastUse (hl.subset hx)
  exact ht.usedBefore_append (huse x hx) hy

/-- What was evicted before the request was used before all that the request leaves or uses. -/
theorem evicted_append (hrec : Recency c h) (hx : Evicted c h x) (huse : ¬ (after c h).Uses q x)
    (hy : y ∈ (after c h).ids ∨ (after c h).Uses q y) : UsedBefore c (h ++ [q]) x y := by
  rcases hy with hy | hy
  · exact (hrec.evicted x y hx hy).append huse
  · obtain ⟨⟨a, ha⟩, -⟩ := hx
    obtain ⟨t, ht⟩ := hrec.used x a ha
    exact ht.usedBefore_append huse hy

/-- What is evicted after one more request, and was neither there before nor added by it, was
evicted before it. -/
theorem evicted_of_append (hx : Evicted c (h ++ [q]) x) (hno : x ∉ (after c h).ids)
    (hq : ∀ a, q ≠ .add x a) : Evicted c h x := by
  obtain ⟨⟨a, ha⟩, -, hdiscard⟩ := hx
  refine ⟨⟨a, ?_⟩, hno, fun t ht => hdiscard t (ht.append q)⟩
  rcases List.mem_append.mp ha with ha | ha
  · exact ha
  · exact absurd (List.mem_singleton.mp ha).symm (hq a)

/-- Adding a value under a new identifier keeps the invariant. -/
theorem append_add (hc : 0 ≤ c) (hrec : Recency c h) {id : String} (hid : id ∉ addedIds h) (a : α) :
    Recency c (h ++ [.add id a]) := by
  have hserve : after c (h ++ [.add id a]) = ((after c h).putLast id a).evict := by
    rw [after_append, serve_add (by simpa using hc)]
  have hno : id ∉ (after c h).ids := fun h => hid (hrec.mem_addedIds h)
  have huse : ∀ x ∈ (after c h).ids, ¬ (after c h).Uses (.add id a) x := fun x hx h =>
    hno (uses_add_iff.mp h ▸ hx)
  have hsorted : ((after c h).ids ++ [id]).Pairwise (UsedBefore c (h ++ [.add id a])) :=
    hrec.sorted_append_used (List.Sublist.refl _) huse (uses_add_iff.mpr rfl)
  have hids : (after c (h ++ [.add id a])).ids
      = ((after c h).ids ++ [id]).drop ((after c h).putLast id a).surplus := by
    rw [hserve, ids_evict, ids_putLast]
  refine ⟨?_, fun x b hx => ?_, ?_, hrec.used_append _, ?_, fun x y hx hy => ?_⟩
  · have hsize := size_evict_le ((after c h).putLast id a)
    rw [show ((after c h).putLast id a).capacity = c from capacity_after c h] at hsize
    rw [hserve]
    omega
  · rw [hserve] at hx
    rcases List.mem_append.mp (mem_entries_of_mem_evict hx) with hx | hx
    · exact List.mem_append_left _ (hrec.added x b hx)
    · cases List.mem_singleton.mp hx
      exact List.mem_append_right _ List.mem_cons_self
  · rw [hserve, ids_evict]
    exact (nodup_ids_putLast hrec.nodup hno a).sublist (List.drop_sublist _ _)
  · rw [hids]
    exact hsorted.sublist (List.drop_sublist _ _)
  · have hgone := hx.2.1
    rw [hids] at hy hgone
    by_cases hthere : x ∈ (after c h).ids ++ [id]
    · -- it is dropped by this request, so it stands before all that stays
      rw [← List.take_append_drop ((after c h).putLast id a).surplus ((after c h).ids ++ [id])]
        at hthere hsorted
      exact (List.pairwise_append.mp hsorted).2.2 x
        ((List.mem_append.mp hthere).resolve_right hgone) y hy
    · rw [List.mem_append, not_or] at hthere
      have hne : id ≠ x := fun h => hthere.2 (h ▸ List.mem_singleton_self id)
      refine hrec.evicted_append (evicted_of_append hx hthere.1 ?_)
        (fun h => hne (uses_add_iff.mp h)) ?_
      · rintro b hb
        cases hb
        exact hne rfl
      · rcases List.mem_append.mp (List.mem_of_mem_drop hy) with hy | hy
        · exact Or.inl hy
        · exact Or.inr (uses_add_iff.mpr (List.mem_singleton.mp hy).symm)

/-- Asking for an identifier that is there keeps the invariant. -/
theorem append_get (hrec : Recency c h) {id : String} {a : α}
    (hid : (after c h).find? id = some a) : Recency c (h ++ [.get id]) := by
  have hserve : after c (h ++ [.get id]) = ((after c h).erase id).putLast id a := by
    rw [after_append, serve_get_of_find? hid]
  have hids : (after c (h ++ [.get id])).ids = (after c h).ids.filter (· != id) ++ [id] := by
    rw [hserve, ids_putLast, ids_erase]
  have hthere : ∀ x, x ∈ (after c (h ++ [.get id])).ids ↔ x ∈ (after c h).ids := by
    intro x
    rw [hserve]
    exact mem_ids_erase_putLast (mem_ids_of_find? hid) a
  have huse : ∀ x ∈ (after c h).ids.filter (· != id), ¬ (after c h).Uses (.get id) x := by
    intro x hx h
    have hne := (List.mem_filter.mp hx).2
    rw [(uses_get_iff.mp h).1] at hne
    simp at hne
  refine ⟨?_, fun x b hx => ?_, ?_, hrec.used_append _, ?_, fun x y hx hy => ?_⟩
  · rw [hserve, size_erase_putLast hrec.nodup (mem_ids_of_find? hid)]
    exact hrec.size_le
  · rw [hserve] at hx
    refine List.mem_append_left _ (hrec.added x b ?_)
    rcases List.mem_append.mp hx with hx | hx
    · exact List.mem_of_mem_filter hx
    · cases List.mem_singleton.mp hx
      exact mem_entries_of_find? hid
  · rw [hserve]
    exact (perm_ids_erase_putLast hrec.nodup (mem_ids_of_find? hid) a).nodup_iff.mpr hrec.nodup
  · rw [hids]
    exact hrec.sorted_append_used List.filter_sublist huse
      (uses_get_iff.mpr ⟨rfl, mem_ids_of_find? hid⟩)
  · have hno : x ∉ (after c h).ids := fun h => hx.2.1 ((hthere x).mpr h)
    exact hrec.evicted_append (evicted_of_append hx hno fun b hb => nomatch hb)
      (fun h => hno (uses_get_iff.mp h).2) (Or.inl ((hthere y).mp hy))

/-- Asking in vain keeps the invariant. -/
theorem append_get_missing (hrec : Recency c h) {id : String} (hid : id ∉ (after c h).ids) :
    Recency c (h ++ [.get id]) := by
  have hserve : after c (h ++ [.get id]) = after c h := by
    rw [after_append, serve_get_of_not_mem hid]
  have huse : ∀ x, ¬ (after c h).Uses (.get id) x := fun x h =>
    hid ((uses_get_iff.mp h).1 ▸ (uses_get_iff.mp h).2)
  refine ⟨by rw [hserve]; exact hrec.size_le, fun x b hx => ?_,
    by rw [hserve]; exact hrec.nodup, hrec.used_append _, ?_, fun x y hx hy => ?_⟩
  · rw [hserve] at hx
    exact List.mem_append_left _ (hrec.added x b hx)
  · rw [hserve]
    exact hrec.sorted_append (List.Sublist.refl _) fun x _ => huse x
  · rw [hserve] at hy
    have hno : x ∉ (after c h).ids := hserve ▸ hx.2.1
    exact hrec.evicted_append (evicted_of_append hx hno fun b hb => nomatch hb) (huse x)
      (Or.inl hy)

/-- Discarding keeps the invariant. -/
theorem append_discard (hrec : Recency c h) (id : String) : Recency c (h ++ [.discard id]) := by
  have hids : (after c (h ++ [.discard id])).ids = (after c h).ids.filter (· != id) := by
    rw [after_append]
    exact ids_erase _ _
  refine ⟨?_, fun x b hx => ?_, ?_, hrec.used_append _, ?_, fun x y hx hy => ?_⟩
  · rw [after_append]
    exact Int.le_trans (Int.ofNat_le.mpr (size_erase_le _ id)) hrec.size_le
  · rw [after_append] at hx
    exact List.mem_append_left _ (hrec.added x b (List.mem_of_mem_filter hx))
  · rw [hids]
    exact hrec.nodup.filter _
  · rw [hids]
    exact hrec.sorted_append List.filter_sublist fun x _ => not_uses_discard
  · have hgone := hx.2.1
    rw [hids] at hy hgone
    have hno : x ∉ (after c h).ids := by
      intro hthere
      obtain rfl : x = id := by
        simpa [hthere] using hgone
      exact hx.2.2 _ (discardedAt_append_length hthere)
    exact hrec.evicted_append (evicted_of_append hx hno fun b hb => nomatch hb)
      not_uses_discard (Or.inl (List.mem_of_mem_filter hy))

/-- **One request keeps the invariant.** -/
theorem append (hc : 0 ≤ c) (hrec : Recency c h) (q : Request α)
    (hfresh : ∀ id ∈ q.added?, id ∉ addedIds h) : Recency c (h ++ [q]) := by
  cases q with
  | add id a => exact hrec.append_add hc (hfresh id rfl) a
  | get id =>
    cases hid : (after c h).find? id with
    | none => exact hrec.append_get_missing (find?_eq_none_iff.mp hid)
    | some a => exact hrec.append_get hid
  | discard id => exact hrec.append_discard id

end Recency

end Histories

end TapeMachine.Registry
