import Mathlib.Data.List.Basic

/-! A set and a copy of it that is told of each change afterwards, in any order. The copy follows the set as long as
every update that arrives is still true, or one that says the opposite is on its way. To link a copy that was told
nothing, every key of the set is sent. -/

namespace Mirror

variable {κ : Type*}

/-- A key is in the copy if it is in the set, and the other way round, or an update will see to it. -/
structure Follows (source copy : κ → Bool) (pending : List (κ × Bool)) (linked : Bool) : Prop where
  absent : ∀ k, source k = false → copy k = false ∨ (k, false) ∈ pending
  present : linked = true → ∀ k, source k = true → copy k = true ∨ (k, true) ∈ pending

variable {source source' copy copy' : κ → Bool} {pending pending' : List (κ × Bool)} {linked b : Bool} {k : κ}

namespace Follows

theorem start : Follows (fun _ => false) (fun _ : κ => false) [] linked :=
  ⟨fun _ _ => .inl rfl, fun _ _ h => absurd h Bool.false_ne_true⟩

theorem eq_of_rest (h : Follows source copy [] true) (k : κ) : copy k = source k := by
  cases hk : source k with
  | false => simpa using h.absent k hk
  | true => simpa using h.present rfl k hk

section

variable (h : Follows source copy pending linked)
include h

/-- A change of one key. A linked copy will be told of it; of a key that is removed the copy must know otherwise. -/
theorem write [DecidableEq κ] (hsou : ∀ j, source' j = if j = k then b else source j) (hpen : pending ⊆ pending')
    (hto : linked = true → (k, b) ∈ pending')
    (hrem : linked = false → b = false → copy k = false ∨ (k, false) ∈ pending) :
    Follows source' copy pending' linked := by
  constructor
  · intro j hj
    rw [hsou] at hj
    split_ifs at hj with hjk
    · rw [hjk]
      cases hlin : linked with
      | true => exact .inr (hj ▸ hto hlin)
      | false => exact (hrem hlin hj).imp_right fun hin => hpen hin
    · exact (h.absent j hj).imp_right fun hin => hpen hin
  · intro hlin j hj
    rw [hsou] at hj
    split_ifs at hj with hjk
    · rw [hjk]
      exact .inr (hj ▸ hto hlin)
    · exact (h.present hlin j hj).imp_right fun hin => hpen hin

theorem deliver [DecidableEq κ] (hco : ∀ j, copy' j = if j = k then b else copy j)
    (hpen : ∀ u ∈ pending, u = (k, b) ∨ u ∈ pending')
    (htr : source k = b ∨ (k, !b) ∈ pending' ∨ linked = false ∧ b = false) :
    Follows source copy' pending' linked := by
  -- an update of another value or another key is still on its way
  have hre {j : κ} {c : Bool} (hin : (j, c) ∈ pending) (hne : j = k → c ≠ b) : (j, c) ∈ pending' := by
    rcases hpen _ hin with heq | hin
    · obtain ⟨rfl, rfl⟩ := Prod.mk.inj heq
      exact absurd rfl (hne rfl)
    · exact hin
  constructor
  · intro j hj
    rw [hco]
    by_cases hjk : j = k
    · subst hjk
      rw [if_pos rfl]
      cases b with
      | false => exact .inl rfl
      | true =>
        rcases htr with htr | htr | ⟨-, htr⟩
        · rw [hj] at htr
          cases htr
        · exact .inr htr
        · cases htr
    · rw [if_neg hjk]
      exact (h.absent j hj).imp_right fun hin => hre hin fun heq => absurd heq hjk
  · intro hlin j hj
    rw [hco]
    by_cases hjk : j = k
    · subst hjk
      rw [if_pos rfl]
      cases b with
      | true => exact .inl rfl
      | false =>
        rcases htr with htr | htr | ⟨hfa, -⟩
        · rw [hj] at htr
          cases htr
        · exact .inr htr
        · rw [hlin] at hfa
          cases hfa
    · rw [if_neg hjk]
      exact (h.present hlin j hj).imp_right fun hin => hre hin fun heq => absurd heq hjk

theorem link (hpen : pending ⊆ pending')
    (hse : ∀ k, source k = true → (k, true) ∈ pending') : Follows source copy pending' true :=
  ⟨fun j hj => (h.absent j hj).imp_right fun hin => hpen hin, fun _ j hj => .inr (hse j hj)⟩

theorem unlink (hpen : pending ⊆ pending') : Follows source copy pending' false :=
  ⟨fun j hj => (h.absent j hj).imp_right fun hin => hpen hin, fun hfa => absurd hfa Bool.false_ne_true⟩

end

end Follows
end Mirror
