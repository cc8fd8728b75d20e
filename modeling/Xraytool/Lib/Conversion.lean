import Mathlib.Data.List.Forall2

/-! A list converted in place, one kind of item after another: every item stays related to the one it came from, and the
number of items still to be converted falls. -/

namespace Conversion

open List

variable {α : Type*} {R R' : α → α → Prop} {l₀ l : List α}

theorem forall₂_mono (h : Forall₂ R l₀ l) (hR : ∀ a ∈ l₀, ∀ b ∈ l, R a b → R' a b) : Forall₂ R' l₀ l := by
  induction h with
  | nil => exact .nil
  | cons hab _ ih =>
    refine .cons (hR _ mem_cons_self _ mem_cons_self hab) (ih fun a ha b hb => ?_)
    exact hR a (mem_cons_of_mem _ ha) b (mem_cons_of_mem _ hb)

theorem forall₂_update (h : Forall₂ R l₀ l) {p : α → Bool} {f : α → α}
    (hf : ∀ a ∈ l₀, ∀ b ∈ l, R a b → p b → R a (f b)) : Forall₂ R l₀ (l.map fun b => if p b then f b else b) := by
  rw [forall₂_map_right_iff]
  refine forall₂_mono h fun a ha b hb hab => ?_
  split_ifs with hp
  · exact hf a ha b hb hab hp
  · exact hab

section Count

variable {pending p : α → Bool} {f : α → α} (hf : ∀ b, pending (f b) = false)

include hf

theorem countP_update_le (l : List α) : (l.map fun b => if p b then f b else b).countP pending ≤ l.countP pending := by
  rw [countP_map]
  refine countP_mono_left fun b _ hb => ?_
  by_cases hp : p b
  · simp [hp, hf] at hb
  · simpa [hp] using hb

theorem countP_update_lt {b : α} (hb : b ∈ l) (hp : p b) (hpen : pending b) :
    (l.map fun b => if p b then f b else b).countP pending < l.countP pending := by
  induction l with
  | nil => cases hb
  | cons c l ih =>
    rw [map_cons, countP_cons, countP_cons]
    rcases mem_cons.1 hb with rfl | hb
    · rw [if_pos hp, hf, hpen]
      exact Nat.lt_succ_of_le (countP_update_le hf l)
    refine Nat.add_lt_add_of_lt_of_le (ih hb) ?_
    by_cases hc : p c
    · simp [hc, hf]
    · simp [hc]

end Count

end Conversion
