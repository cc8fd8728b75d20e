import Mathlib.Data.List.Forall2

/-! Texts made of parts that end at a separator. A part may contain the separator; how often it does says where the part
ends. -/

namespace Separated

open List

variable {α : Type*} {sep : α}

theorem eq_of_count [DecidableEq α] {part part' rest rest' : List α} (hcou : part.count sep = part'.count sep)
    (h : part ++ sep :: rest = part' ++ sep :: rest') : part = part' ∧ rest = rest' := by
  induction part generalizing part' with
  | nil =>
    rcases part' with _ | ⟨c, part'⟩
    · exact ⟨rfl, (cons.inj h).2⟩
    · obtain ⟨rfl, _⟩ := cons.inj h
      simp at hcou
  | cons c part ih =>
    rcases part' with _ | ⟨c', part'⟩
    · obtain ⟨rfl, _⟩ := cons.inj h
      simp at hcou
    obtain ⟨rfl, hre⟩ := cons.inj h
    rw [count_cons, count_cons, Nat.add_right_cancel_iff] at hcou
    exact (ih hcou hre).imp_left (congrArg _)

theorem map_eq_map_iff_forall₂ {β γ : Type*} {f : β → γ} {l l' : List β} :
    l.map f = l'.map f ↔ Forall₂ (f · = f ·) l l' := by
  rw [← forall₂_eq_eq_eq, forall₂_map_left_iff, forall₂_map_right_iff]

end Separated
