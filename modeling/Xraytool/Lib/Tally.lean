import Mathlib.Algebra.Order.BigOperators.Group.List
import Mathlib.Tactic.Ring

/-! Counting by key. `total` sums what the entries of a list hold for one key, and `gain` is what a reader of a counter
adds when it takes every drop of the counter for a reset. -/

namespace Tally

open List

variable {κ α ι : Type*} [DecidableEq κ]

/-- The sum of `count` over the entries with the key. -/
def total (key : α → κ) (count : α → ℤ) (k : κ) : List α → ℤ
  | [] => 0
  | a :: l => (if key a = k then count a else 0) + total key count k l

section Total

variable (key : α → κ) (count : α → ℤ) (k : κ)

theorem total_append (l l' : List α) : total key count k (l ++ l') = total key count k l + total key count k l' := by
  induction l with
  | nil => simp [total]
  | cons a l ih =>
    rw [cons_append, total, total, ih]
    ring

end Total

theorem sum_modify (f : ι → ℤ) (change : ι → ι) {l : List ι} {n : ℕ} {i : ι} (hi : l[n]? = some i) :
    ((l.modify n change).map f).sum = (l.map f).sum + (f (change i) - f i) := by
  induction l generalizing n with
  | nil => simp at hi
  | cons j l ih =>
    cases n with
    | zero =>
      obtain rfl : j = i := by simpa using hi
      simp only [modify_zero_cons, map_cons, sum_cons]
      ring
    | succ n =>
      rw [getElem?_cons_succ] at hi
      simp only [modify_succ_cons, map_cons, sum_cons, ih hi]
      ring

theorem forall_mem_modify {P : ι → Prop} {change : ι → ι} (n : ℕ) {l : List ι} (h : ∀ i ∈ l, P i)
    (hcha : ∀ i ∈ l, P (change i)) : ∀ i ∈ l.modify n change, P i := by
  intro i hi
  obtain ⟨m, hm⟩ := mem_iff_getElem?.1 hi
  rw [getElem?_modify] at hm
  obtain ⟨j, hj, rfl⟩ := Option.map_eq_some_iff.1 hm
  have hmem := mem_of_getElem? hj
  split_ifs
  · exact hcha j hmem
  · exact h j hmem

/-- What a reader adds for a raw value when it takes a drop for a reset. -/
def gain (last raw : ℤ) : ℤ := if raw ≥ last then raw - last else raw

@[simp] theorem gain_self {raw : ℤ} : gain raw raw = 0 := by simp [gain]

/-- The gain is at most what is new in the counters, unless a drop leaves old values behind. -/
theorem gain_le_fresh {last raw counted : ℤ} (hla : counted ≤ last) (hdr : raw < last → counted = 0) :
    gain last raw ≤ raw - counted := by
  unfold gain
  split_ifs with h
  · omega
  · have := hdr (by omega)
    omega

end Tally
