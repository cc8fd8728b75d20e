import Mathlib.Algebra.Order.Group.Int
import Mathlib.Data.List.NodupEquivFin
import Mathlib.Data.List.Pairwise

/-! Limits on how often something happens within a period. Its instants are a list, the latest first. If of any `n + 1`
instants in a row the first and the last are more than the period apart, no interval of that length contains more than
`n` of them. -/

namespace Quota

open List

variable {n : ℕ} {period : ℤ} {times : List ℤ}

/-- The instants `n` places apart are more than a period apart. -/
def Spaced (n : ℕ) (period : ℤ) (times : List ℤ) : Prop :=
  ∀ i a b, times[i]? = some a → times[i + n]? = some b → b + period < a

theorem spaced_nil : Spaced n period [] := by
  intro i a b ha
  simp at ha

theorem Spaced.cons (h : Spaced n period times) {now : ℤ} (hn : 0 < n)
    (hnow : ∀ b, times[n - 1]? = some b → b + period < now) : Spaced n period (now :: times) := by
  intro i a b ha hb
  cases i with
  | zero =>
    obtain rfl : now = a := by simpa using ha
    refine hnow b ?_
    obtain ⟨m, rfl⟩ : ∃ m, n = m + 1 := ⟨n - 1, by omega⟩
    simpa using hb
  | succ i =>
    rw [Nat.succ_add_eq_add_succ, Nat.add_succ] at hb
    exact h i a b (by simpa using ha) (by simpa using hb)

/-- An order embedding of the natural numbers keeps distances at least as large. -/
theorem add_le_of_embedding (f : ℕ ↪o ℕ) (m : ℕ) : f 0 + m ≤ f m := by
  induction m with
  | zero => exact le_rfl
  | succ m ih =>
    have : f m < f (m + 1) := f.lt_iff_lt.2 (Nat.lt_succ_self m)
    omega

/-- No interval of the length of the period contains more than `n` of the instants. -/
theorem Spaced.length_filter_le (h : Spaced n period times) (hsor : times.Pairwise fun a b => b ≤ a) (start : ℤ) :
    (times.filter fun t => start ≤ t ∧ t ≤ start + period).length ≤ n := by
  by_contra hmo
  rw [not_le] at hmo
  set inside := times.filter fun t => start ≤ t ∧ t ≤ start + period with hins
  have hin : ∀ t ∈ inside, start ≤ t ∧ t ≤ start + period := fun t ht => by
    simpa using (mem_filter.1 ht).2
  obtain ⟨f, hf⟩ := sublist_iff_exists_orderEmbedding_getElem?_eq.1 (filter_sublist (l := times)
    (p := fun t => decide (start ≤ t ∧ t ≤ start + period)))
  rw [← hins] at hf
  -- the first instant inside, and the one `n` places after it in the whole list
  have hfi : times[f 0]? = some inside[0] := by rw [← hf 0, List.getElem?_eq_getElem (by omega)]
  have hla : times[f n]? = some inside[n] := by rw [← hf n, List.getElem?_eq_getElem hmo]
  obtain ⟨hlt, hla⟩ := List.getElem?_eq_some_iff.1 hla
  have hle := add_le_of_embedding f n
  have hmid : times[f 0 + n]? = some times[f 0 + n] := List.getElem?_eq_getElem (hle.trans_lt hlt)
  have hap := h (f 0) _ _ hfi hmid
  have hdo : times[f n] ≤ times[f 0 + n] := by
    rcases hle.lt_or_eq with hlt' | heq
    · exact pairwise_iff_getElem.1 hsor _ _ _ hlt hlt'
    · simp only [heq, le_refl]
  have hbe := (hin inside[0] (getElem_mem _)).2
  have hend := (hin inside[n] (getElem_mem _)).1
  omega

end Quota
