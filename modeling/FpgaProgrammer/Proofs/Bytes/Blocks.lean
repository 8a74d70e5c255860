import FpgaProgrammer.Bytes

/-!
# Cutting into blocks

The blocks of a string are its consecutive pieces of `n` elements (`getElem?_blocks`). Together
they are the string (`flatten_blocks`). All but the last one are full
(`length_of_mem_dropLast_blocks`), and so is the last one if the length of the string is a multiple
of `n` (`length_of_mem_blocks`).
-/

namespace FpgaProgrammer.Bytes

variable {α : Type} {n : Nat}

@[simp]
theorem length_takeBlocks (n count : Nat) (xs : List α) :
    (takeBlocks n count xs).length = count := by
  induction count generalizing xs with
  | zero => rfl
  | succ count ih => rw [takeBlocks, List.length_cons, ih]

@[simp]
theorem length_blocks (n : Nat) (xs : List α) :
    (blocks n xs).length = blockCount n xs.length :=
  length_takeBlocks ..

/-- The `i`-th block starts after `i` full blocks. -/
theorem getElem?_takeBlocks (n : Nat) {count i : Nat} (h : i < count) (xs : List α) :
    (takeBlocks n count xs)[i]? = some ((xs.drop (n * i)).take n) := by
  induction count generalizing xs i with
  | zero => exact absurd h (Nat.not_lt_zero i)
  | succ count ih =>
    cases i with
    | zero => rfl
    | succ i =>
      rw [takeBlocks, List.getElem?_cons_succ, ih (Nat.lt_of_succ_lt_succ h), List.drop_drop,
        Nat.mul_succ, Nat.add_comm n]

/-- The `i`-th block starts after `i` full blocks. -/
theorem getElem?_blocks {xs : List α} {i : Nat} (h : i < blockCount n xs.length) :
    (blocks n xs)[i]? = some ((xs.drop (n * i)).take n) :=
  getElem?_takeBlocks n h xs

/-- The blocks in their order. -/
theorem blocks_eq_map (n : Nat) (xs : List α) :
    blocks n xs = (List.range (blockCount n xs.length)).map fun i => (xs.drop (n * i)).take n := by
  apply List.ext_getElem?
  intro i
  by_cases h : i < blockCount n xs.length
  · rw [getElem?_blocks h, List.getElem?_map, List.getElem?_range h, Option.map_some]
  · rw [List.getElem?_eq_none (by simpa using h), List.getElem?_eq_none (by simpa using h)]

theorem flatten_takeBlocks (n count : Nat) (xs : List α) :
    (takeBlocks n count xs).flatten = xs.take (n * count) := by
  induction count generalizing xs with
  | zero => rfl
  | succ count ih =>
    rw [takeBlocks, List.flatten_cons, ih, Nat.mul_succ, Nat.add_comm, List.take_add]

/-- So many blocks need no more than their units. -/
theorem takeBlocks_take (n count : Nat) (xs : List α) :
    takeBlocks n count (xs.take (n * count)) = takeBlocks n count xs := by
  induction count generalizing xs with
  | zero => rfl
  | succ count ih =>
    have hfirst : min n (n * (count + 1)) = n :=
      Nat.min_eq_left (Nat.le_mul_of_pos_right n count.succ_pos)
    have hrest : n * (count + 1) - n = n * count := Nat.add_sub_cancel ..
    rw [takeBlocks, takeBlocks, List.take_take, hfirst, List.drop_take, hrest, ih]

/-- What is cut off makes no difference to a string of exact length. -/
theorem fitWith_take (fill : UInt8) (n : Nat) (bytes : Bytes) :
    fitWith fill n (bytes.take n) = fitWith fill n bytes := by
  have hrest : n - min n bytes.length = n - bytes.length := by omega
  rw [fitWith, fitWith, List.take_take, Nat.min_self, List.length_take, hrest]

/-- So many blocks hold all units. -/
theorem le_mul_blockCount (hn : 0 < n) (total : Nat) : total ≤ n * blockCount n total := by
  have hdiv := Nat.div_add_mod (total + (n - 1)) n
  have hmod := Nat.mod_lt (total + (n - 1)) hn
  unfold blockCount
  omega

/-- The blocks are the string. -/
theorem flatten_blocks (hn : 0 < n) (xs : List α) : (blocks n xs).flatten = xs := by
  unfold blocks
  rw [flatten_takeBlocks, List.take_of_length_le (le_mul_blockCount hn xs.length)]

theorem length_of_mem_takeBlocks {count : Nat} {xs : List α} (h : n * count ≤ xs.length)
    {block : List α} (hblock : block ∈ takeBlocks n count xs) : block.length = n := by
  induction count generalizing xs with
  | zero => exact absurd hblock List.not_mem_nil
  | succ count ih =>
    rw [Nat.mul_succ] at h
    rcases List.mem_cons.mp hblock with rfl | hrest
    · exact List.length_take_of_le (Nat.le_trans (Nat.le_add_left ..) h)
    · exact ih (by rw [List.length_drop]; omega) hrest

/-- No block is empty. -/
theorem ne_nil_of_mem_blocks (hn : 0 < n) {xs : List α} {block : List α}
    (hblock : block ∈ blocks n xs) : block ≠ [] := by
  obtain ⟨i, hi⟩ := List.mem_iff_getElem?.mp hblock
  have hcount : i < blockCount n xs.length := by
    rw [← length_blocks]
    exact (List.getElem?_eq_some_iff.mp hi).1
  have hstart : (i + 1) * n ≤ xs.length + (n - 1) := (Nat.le_div_iff_mul_le hn).mp hcount
  rw [getElem?_blocks hcount, Option.some.injEq] at hi
  rw [← hi, ← List.length_pos_iff, List.length_take, List.length_drop, Nat.mul_comm]
  rw [Nat.succ_mul] at hstart
  omega

theorem dropLast_takeBlocks (n count : Nat) (xs : List α) :
    (takeBlocks n (count + 1) xs).dropLast = takeBlocks n count xs := by
  induction count generalizing xs with
  | zero => rfl
  | succ count ih =>
    have hmore : takeBlocks n (count + 1) (xs.drop n) ≠ [] := List.cons_ne_nil _ _
    rw [takeBlocks, List.dropLast_cons_of_ne_nil hmore, ih, takeBlocks]

/-- All blocks but the last one are full. -/
theorem length_of_mem_dropLast_blocks (hn : 0 < n) {xs : List α} {block : List α}
    (hblock : block ∈ (blocks n xs).dropLast) : block.length = n := by
  unfold blocks at hblock
  cases hcount : blockCount n xs.length with
  | zero =>
    rw [hcount] at hblock
    exact absurd hblock List.not_mem_nil
  | succ count =>
    rw [hcount, dropLast_takeBlocks] at hblock
    have hstart : (count + 1) * n ≤ xs.length + (n - 1) :=
      (Nat.le_div_iff_mul_le hn).mp (Nat.le_of_eq hcount.symm)
    rw [Nat.succ_mul, Nat.mul_comm] at hstart
    exact length_of_mem_takeBlocks (by omega) hblock

/-- Full blocks need no more than their own units. -/
theorem blockCount_mul (hn : 0 < n) (count : Nat) : blockCount n (n * count) = count := by
  unfold blockCount
  rw [Nat.mul_add_div hn, Nat.div_eq_of_lt (Nat.sub_lt hn Nat.one_pos), Nat.add_zero]

/-- Cutting the units of full blocks. -/
theorem blocks_take (hn : 0 < n) {count : Nat} {xs : List α} (h : n * count ≤ xs.length) :
    blocks n (xs.take (n * count)) = takeBlocks n count xs := by
  unfold blocks
  rw [List.length_take_of_le h, blockCount_mul hn, takeBlocks_take]

/-- A string of full blocks is cut into full blocks. -/
theorem length_of_mem_blocks (hn : 0 < n) {count : Nat} {xs : List α} (h : xs.length = n * count)
    {block : List α} (hblock : block ∈ blocks n xs) : block.length = n := by
  unfold blocks at hblock
  rw [h, blockCount_mul hn] at hblock
  exact length_of_mem_takeBlocks (Nat.le_of_eq h.symm) hblock

end FpgaProgrammer.Bytes
