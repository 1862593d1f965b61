import TapeMachine.Proofs.Display

/-!
# Reading a dump back

A dump has a row for each cell of the window around the pointer, and each row tells the index and the
value of its cell. So the window can be found again in the text, and the pointer too if it is on the
tape (`dump_can_be_read_back`).
-/

namespace TapeMachine

namespace Dump

/-- The cells in the window around a pointer, each with its index. -/
def rows (tape : Array UInt8) (pointer : Int) : List (Nat × UInt8) :=
  (Window.around pointer tape.size).indices.map fun i => (i, tape[i]?.getD 0)

/-- A dump tells the cells `rows`, and these are the cells of the window. -/
structure Tells (tape : Array UInt8) (pointer : Int) (rows : List (Nat × UInt8)) : Prop where
  ascending : (rows.map Prod.fst).Pairwise (· < ·)
  index_iff : ∀ i : Nat, i ∈ rows.map Prod.fst ↔
    max 0 (pointer - 2) ≤ i ∧ (i : Int) < min (max 0 (pointer - 2) + 10) tape.size
  /-- There is such a cell, and the row has its value. -/
  value : ∀ row ∈ rows, tape[row.1]? = some row.2
  text : render tape pointer
    = header ++ String.join (rows.map fun row => Dump.row row.1 row.2 (row.1 == pointer))
  read : read? (render tape pointer)
    = some (rows.map fun row => ⟨row.1, row.2.toNat, row.2.toNat, row.1 == pointer⟩)
  /-- The one row that is marked, if any is. -/
  marked : (rows.filter fun row => row.1 == pointer).map (fun row => (row.1 : Int))
    = if 0 ≤ pointer ∧ pointer < tape.size then [pointer] else []

section

variable (tape : Array UInt8) (pointer : Int)

theorem map_fst_rows :
    (rows tape pointer).map Prod.fst = (Window.around pointer tape.size).indices := by
  rw [rows, List.map_map]
  exact List.map_id _

theorem mem_indices_iff {i : Nat} : i ∈ (Window.around pointer tape.size).indices ↔
    max 0 (pointer - 2) ≤ i ∧ (i : Int) < min (max 0 (pointer - 2) + 10) tape.size := by
  simp only [Window.indices, List.mem_range'_1, Window.around, Window.size, Window.lead, Window.rows]
  omega

theorem foldl_row (indices : List Nat) : ∀ text : String,
    indices.foldl (fun text i => text ++ row i (tape[i]?.getD 0) (i == pointer)) text
      = text ++ String.join (indices.map fun i => row i (tape[i]?.getD 0) (i == pointer)) := by
  induction indices with
  | nil => intro text; simp
  | cons i indices ih =>
    intro text
    rw [List.foldl_cons, ih, List.map_cons, String.join_cons, String.append_assoc]

/-- A pointer on the tape has one row of its own, and one off the tape has none. -/
theorem filter_indices_eq :
    ((Window.around pointer tape.size).indices.filter fun i : Nat => (i : Int) == pointer).map
        (fun i : Nat => (i : Int))
      = if 0 ≤ pointer ∧ pointer < tape.size then [pointer] else [] := by
  have hnodup : (Window.around pointer tape.size).indices.Nodup := List.nodup_range'
  split
  · next hon =>
    obtain ⟨k, rfl⟩ := Int.eq_ofNat_of_zero_le hon.1
    have hmem : k ∈ (Window.around k tape.size).indices :=
      (mem_indices_iff tape k).mpr (by omega)
    have htest : (fun i : Nat => (i : Int) == (k : Int)) = (· == k) := by
      funext i
      rw [beq_eq_beq, Nat.cast_inj]
    rw [htest, List.filter_beq, List.count_eq_one_of_mem hnodup hmem]
    rfl
  · next hoff =>
    rw [List.map_eq_nil_iff, List.filter_eq_nil_iff]
    intro i hi hmark
    have hbounds := (mem_indices_iff tape pointer).mp hi
    rw [beq_iff_eq] at hmark
    omega

theorem tells_rows : Tells tape pointer (rows tape pointer) where
  ascending := by
    rw [map_fst_rows]
    exact List.pairwise_lt_range'
  index_iff i := by rw [map_fst_rows, mem_indices_iff]
  value row hrow := by
    obtain ⟨i, hi, rfl⟩ := List.mem_map.mp hrow
    have hlt := (mem_indices_iff tape pointer).mp hi
    rw [Array.getElem?_eq_getElem (by omega)]
    rfl
  text := by
    rw [render, foldl_row, rows, List.map_map]
    rfl
  read := by
    rw [read?_render, cells, rows, List.map_map, List.map_map]
    rfl
  marked := by
    rw [rows, List.filter_map, List.map_map]
    exact filter_indices_eq tape pointer

/-- The cells of the window are the values in the rows. -/
theorem map_snd_rows :
    (rows tape pointer).map Prod.snd = (Window.around pointer tape.size).cells tape := by
  have hcells := Window.map_cells_around tape pointer
  refine List.map_injective_iff.mpr (fun _ _ => Option.some.inj) ?_
  rw [hcells, rows, List.map_map, List.map_map]
  refine List.map_congr_left fun i hi => ?_
  have hlt := (mem_indices_iff tape pointer).mp hi
  show some (tape[i]?.getD 0) = tape[i]?
  rw [Array.getElem?_eq_getElem (by omega)]
  rfl

end

section

variable {tape tape' : Array UInt8} {pointer pointer' : Int}

theorem rows_eq_of_cells_eq (h : (Window.around pointer tape.size).cells tape
    = (Window.around pointer tape'.size).cells tape') : rows tape pointer = rows tape' pointer := by
  have hsize : (Window.around pointer tape.size).size = (Window.around pointer tape'.size).size := by
    rw [← Window.length_cells_around, h, Window.length_cells_around]
  have hindices : (Window.around pointer tape.size).indices
      = (Window.around pointer tape'.size).indices := by
    rw [Window.indices, hsize]
    rfl
  rw [List.zip_of_prod (map_fst_rows tape pointer) (map_snd_rows tape pointer), hindices, h]
  exact (List.zip_of_prod (map_fst_rows tape' pointer) (map_snd_rows tape' pointer)).symm

/-- The text tells the window. Of a pointer off the tape it does not tell where it is. -/
theorem render_eq_iff (hon : 0 ≤ pointer ∧ pointer < tape.size)
    (hon' : 0 ≤ pointer' ∧ pointer' < tape'.size) :
    render tape pointer = render tape' pointer' ↔
      pointer = pointer' ∧ (Window.around pointer tape.size).cells tape
        = (Window.around pointer' tape'.size).cells tape' := by
  have htells := tells_rows tape pointer
  have htells' := tells_rows tape' pointer'
  constructor
  · intro h
    have hentries := htells'.read
    rw [← h, htells.read, Option.some.injEq] at hentries
    have hmarked := htells.marked
    have hmarked' := htells'.marked
    rw [if_pos hon] at hmarked
    rw [if_pos hon'] at hmarked'
    have hmarks := congrArg (fun entries : List Entry =>
      (entries.filter (·.marked)).map fun entry => (entry.index : Int)) hentries
    simp only [List.filter_map, List.map_map] at hmarks
    have hpointer : [pointer] = [pointer'] := hmarked.symm.trans (hmarks.trans hmarked')
    have hdecimals := congrArg (List.map (·.decimal)) hentries
    simp only [List.map_map] at hdecimals
    have hvalues : (rows tape pointer).map Prod.snd = (rows tape' pointer').map Prod.snd := by
      refine List.map_injective_iff.mpr (fun _ _ => UInt8.toNat_inj.mp) ?_
      rw [List.map_map, List.map_map]
      exact hdecimals
    rw [map_snd_rows, map_snd_rows] at hvalues
    exact ⟨List.singleton_inj.mp hpointer, hvalues⟩
  · rintro ⟨rfl, hcells⟩
    rw [htells.text, htells'.text, rows_eq_of_cells_eq hcells]

end

end Dump

/-- **A dump can be read back.** On a tape of any length and around any pointer, also one off the tape,
it tells the cells of the window. So of pointers on their tapes, dumps are equal only where pointers
and cells are. -/
theorem dump_can_be_read_back :
    (∀ (tape : Array UInt8) (pointer : Int), ∃ rows, Dump.Tells tape pointer rows) ∧
      ∀ (tape tape' : Array UInt8) (pointer pointer' : Int), 0 ≤ pointer ∧ pointer < tape.size →
        0 ≤ pointer' ∧ pointer' < tape'.size →
        (Dump.render tape pointer = Dump.render tape' pointer' ↔
          pointer = pointer' ∧ (Window.around pointer tape.size).cells tape
            = (Window.around pointer' tape'.size).cells tape') :=
  ⟨fun tape pointer => ⟨_, Dump.tells_rows tape pointer⟩, fun _ _ _ _ => Dump.render_eq_iff⟩

/-- The end of a longer tape is not in the window, and there is a dump around a pointer off the tape. -/
theorem dump_can_be_read_back_on_longer_tape :
    let tape : Array UInt8 := .replicate 11 7
    let tape' : Array UInt8 := .replicate 12 7
    (0 ≤ (1 : Int) ∧ (1 : Int) < tape.size) ∧ (0 ≤ (1 : Int) ∧ (1 : Int) < tape'.size) ∧
      Dump.render tape 1 = Dump.render tape' 1 ∧ ∃ rows, Dump.Tells tape (-5) rows := by
  intro tape tape'
  have hon : 0 ≤ (1 : Int) ∧ (1 : Int) < tape.size := by decide
  have hon' : 0 ≤ (1 : Int) ∧ (1 : Int) < tape'.size := by decide
  obtain ⟨htells, heq⟩ := dump_can_be_read_back
  exact ⟨hon, hon', (heq tape tape' 1 1 hon hon').mpr ⟨rfl, by decide⟩, htells tape (-5)⟩

end TapeMachine
