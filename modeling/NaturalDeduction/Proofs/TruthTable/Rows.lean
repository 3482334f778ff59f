import Mathlib
import NaturalDeduction.TruthTable

set_option autoImplicit false
set_option relaxedAutoImplicit false

namespace NaturalDeduction

def valueLists : Nat → List (List Bool)
  | 0 => [[]]
  | n + 1 => (valueLists n).map (true :: ·) ++ (valueLists n).map (false :: ·)

@[simp] theorem length_valueLists (n : Nat) : (valueLists n).length = 2 ^ n := by
  induction n with
  | zero => rfl
  | succ n ih => simp [valueLists, ih, Nat.pow_succ, Nat.mul_two]

@[simp] theorem mem_valueLists {n : Nat} {values : List Bool} :
    values ∈ valueLists n ↔ values.length = n := by
  induction n generalizing values with
  | zero => simp [valueLists]
  | succ n ih =>
    cases values with
    | nil => simp [valueLists]
    | cons b rest => cases b <;> simp [valueLists, ih]

theorem pairwise_valueLists (n : Nat) : (valueLists n).Pairwise (· > ·) := by
  induction n with
  | zero => exact List.pairwise_singleton _ _
  | succ n ih =>
    have below (b : Bool) : ((valueLists n).map (b :: ·)).Pairwise (· > ·) :=
      List.pairwise_map.2 (ih.imp fun {_ _} less => List.cons_lt_cons_iff.2 (Or.inr ⟨rfl, less⟩))
    refine List.pairwise_append.2 ⟨below true, below false, ?_⟩
    intro upper above lower under
    obtain ⟨_, _, rfl⟩ := List.mem_map.1 above
    obtain ⟨_, _, rfl⟩ := List.mem_map.1 under
    exact List.cons_lt_cons_iff.2 (Or.inl (by decide))

private theorem rowValues_succ (index k : Nat) :
    rowValues index (k + 1) = (!index.testBit k) :: rowValues index k := by
  unfold rowValues
  rw [List.range_succ_eq_map, List.map_cons, List.map_map]
  refine congrArg (List.cons _) (List.map_congr_left fun j _ => ?_)
  have place : k + 1 - 1 - (j + 1) = k - 1 - j := by omega
  exact congrArg (fun n => !index.testBit n) place

private theorem rowValues_two_pow_add {k n : Nat} (le : k ≤ n) (index : Nat) :
    rowValues (2 ^ n + index) k = rowValues index k := by
  refine List.map_congr_left fun j member => ?_
  have inside : j < k := List.mem_range.1 member
  rw [Nat.testBit_two_pow_add_gt (by omega)]

/-- The indices run through all lists of truth values in order. The induction is on the number of columns: the
upper half of the indices differs from the lower one in the bit of the first column only. -/
theorem map_rowValues_range (k : Nat) :
    (List.range (2 ^ k)).map (rowValues · k) = valueLists k := by
  induction k with
  | zero => rfl
  | succ k ih =>
    have upper (i : Nat) (member : i ∈ List.range (2 ^ k)) :
        rowValues i (k + 1) = true :: rowValues i k := by
      rw [rowValues_succ, Nat.testBit_lt_two_pow (List.mem_range.1 member)]
      rfl
    have lower (i : Nat) (member : i ∈ List.range (2 ^ k)) :
        ((rowValues · (k + 1)) ∘ (2 ^ k + ·)) i = false :: rowValues i k := by
      change rowValues (2 ^ k + i) (k + 1) = false :: rowValues i k
      rw [rowValues_succ, rowValues_two_pow_add (Nat.le_refl k), Nat.testBit_two_pow_add_eq,
        Nat.testBit_lt_two_pow (List.mem_range.1 member)]
      rfl
    rw [Nat.pow_succ, Nat.mul_two, List.range_add, List.map_append, List.map_map,
      List.map_congr_left upper, List.map_congr_left lower, valueLists, ← ih, List.map_map,
      List.map_map]
    rfl

example : (List.range 4).map (rowValues · 2) =
    [[true, true], [true, false], [false, true], [false, false]] := by decide

section Lookup

variable {columns : List String} {x : String}

private theorem lt_of_getElem? (increase : columns.Pairwise (· < ·)) {i j : Nat} {y z : String}
    (less : i < j) (first : columns[i]? = some y) (second : columns[j]? = some z) : y < z := by
  obtain ⟨hi, rfl⟩ := List.getElem?_eq_some_iff.1 first
  obtain ⟨hj, rfl⟩ := List.getElem?_eq_some_iff.1 second
  exact List.pairwise_iff_getElem.1 increase i j hi hj less

/-- Halving finds the place of a name between two bounds, wherever it is. -/
private theorem placeIn?_eq_some_iff (increase : columns.Pairwise (· < ·)) {low high i : Nat}
    (within : high ≤ columns.length) :
    placeIn? columns x low high = some i ↔ low ≤ i ∧ i < high ∧ columns[i]? = some x := by
  fun_induction placeIn? columns x low high with
  | case1 low high room middle missing =>
    have beyond : columns.length ≤ middle := List.getElem?_eq_none_iff.1 missing
    omega
  | case2 low high room middle found =>
    constructor
    · intro same
      rw [← Option.some.inj same]
      exact ⟨by omega, by omega, found⟩
    · rintro ⟨_, _, here⟩
      rcases Nat.lt_trichotomy i middle with less | rfl | more
      · exact absurd (lt_of_getElem? increase less here found) (String.lt_irrefl x)
      · rfl
      · exact absurd (lt_of_getElem? increase more found here) (String.lt_irrefl x)
  | case3 low high room middle y found other less ih =>
    rw [ih within]
    constructor
    · rintro ⟨_, _, here⟩
      exact ⟨by omega, by omega, here⟩
    · rintro ⟨_, _, here⟩
      refine ⟨Nat.lt_of_not_le fun before => ?_, by omega, here⟩
      rcases Nat.lt_or_eq_of_le before with earlier | rfl
      · exact String.lt_irrefl x
          (String.lt_trans (lt_of_getElem? increase earlier here found) less)
      · exact other (Option.some.inj (found.symm.trans here))
  | case4 low high room middle y found other notLess ih =>
    rw [ih (by omega)]
    constructor
    · rintro ⟨_, _, here⟩
      exact ⟨by omega, by omega, here⟩
    · rintro ⟨_, _, here⟩
      refine ⟨by omega, Nat.lt_of_not_le fun after => ?_, here⟩
      rcases Nat.lt_or_eq_of_le after with later | rfl
      · exact notLess (lt_of_getElem? increase later found here)
      · exact other (Option.some.inj (found.symm.trans here))
  | case5 low high empty =>
    constructor
    · intro none
      cases none
    · rintro ⟨_, _, _⟩
      omega

private theorem Valuation.ofRow_eq_some_iff (increase : columns.Pairwise (· < ·)) {values : List Bool}
    {b : Bool} : Valuation.ofRow columns values x = some b ↔ (x, b) ∈ columns.zip values := by
  unfold Valuation.ofRow
  rw [Option.bind_eq_some_iff, List.mem_iff_getElem?]
  refine exists_congr fun i => ?_
  rw [placeIn?_eq_some_iff increase (Nat.le_refl _), List.getElem?_zip_eq_some]
  constructor
  · rintro ⟨⟨_, _, name⟩, value⟩
    exact ⟨name, value⟩
  · rintro ⟨name, value⟩
    exact ⟨⟨Nat.zero_le i, (List.getElem?_eq_some_iff.1 name).1, name⟩, value⟩

theorem Valuation.ofFirst_eq_some_iff {bindings : List (String × Bool)}
    (increase : (bindings.map Prod.fst).Pairwise (· < ·)) {b : Bool} :
    Valuation.ofFirst bindings x = some b ↔ (x, b) ∈ bindings := by
  unfold Valuation.ofFirst
  rw [List.lookup_eq_some_iff]
  constructor
  · rintro ⟨before, after, rfl, _⟩
    simp
  · intro member
    obtain ⟨before, after, rfl⟩ := List.append_of_mem member
    refine ⟨before, after, rfl, ?_⟩
    intro binding earlier
    rw [List.map_append, List.pairwise_append] at increase
    have less : binding.1 < x :=
      increase.2.2 binding.1 (List.mem_map_of_mem earlier) x (by simp)
    exact bne_iff_ne.2 fun same => String.lt_irrefl x (same ▸ less)

/-- Looking names up by halving the columns is looking up their first bindings. -/
theorem Valuation.ofRow_eq_ofFirst (increase : columns.Pairwise (· < ·)) {values : List Bool}
    (long : values.length = columns.length) :
    Valuation.ofRow columns values = Valuation.ofFirst (columns.zip values) := by
  have names : (columns.zip values).map Prod.fst = columns :=
    List.map_fst_zip (Nat.le_of_eq long.symm)
  funext x
  refine Option.ext fun b => ?_
  rw [ofRow_eq_some_iff increase, ofFirst_eq_some_iff (by rwa [names])]

end Lookup

end NaturalDeduction
