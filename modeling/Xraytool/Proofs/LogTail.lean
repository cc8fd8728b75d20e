import Mathlib.Data.List.Induction
import Xraytool.Spec.LogTail

/-! The retained data begins with a line of the output, or else it is a piece of one line that fills the limit: then the
next byte drops some of it. -/

namespace Xraytool.LogTail

open List

variable {t : LogTail} {written chunk : List UInt8}

theorem limit_write : (t.write chunk).limit = t.limit := by
  unfold LogTail.write
  split <;> rfl

def LineStart (before : List UInt8) : Prop := before = [] ∨ before.getLast? = some newline

/-- What is known of the tail after the bytes written so far. -/
def Aligned (written : List UInt8) (t : LogTail) : Prop :=
  ∃ before, written = before ++ t.data ∧ t.data.length ≤ t.limit ∧
    (LineStart before ∨ newline ∉ t.data ∧ t.data.length = t.limit)

theorem afterNewline_cases (data : List UInt8) : (newline ∉ data ∧ afterNewline data = none) ∨
    ∃ line rest, data = line ++ newline :: rest ∧ afterNewline data = some rest := by
  induction data with
  | nil => exact .inl ⟨not_mem_nil, rfl⟩
  | cons c data ih =>
    rw [afterNewline]
    split_ifs with hc
    · exact .inr ⟨[], data, by rw [hc, nil_append], rfl⟩
    · rcases ih with ⟨hno, hn⟩ | ⟨line, rest, heq, hso⟩
      · exact .inl ⟨not_mem_cons_of_ne_of_not_mem (Ne.symm hc) hno, hn⟩
      · exact .inr ⟨c :: line, rest, by rw [heq, cons_append], hso⟩

theorem Aligned.write (h : Aligned written t) : Aligned (written ++ chunk) (t.write chunk) := by
  obtain ⟨before, rfl, hle, hca⟩ := h
  unfold LogTail.write
  by_cases hch : chunk = []
  · rw [if_pos hch, hch, append_nil]
    exact ⟨before, rfl, hle, hca⟩
  have hpos := length_pos_iff.2 hch
  rw [if_neg hch, append_assoc]
  dsimp only
  have hlen : (t.data ++ chunk).length = t.data.length + chunk.length := length_append
  generalize t.data ++ chunk = data at hlen ⊢
  split_ifs with hov
  · -- the bytes beyond the limit go, and with them the rest of their line
    obtain ⟨gone, hover⟩ : ∃ gone, gone ++ data.drop (data.length - t.limit) = data := ⟨_, take_append_drop _ _⟩
    have hkept : (data.drop (data.length - t.limit)).length = t.limit := by
      rw [length_drop]
      omega
    generalize data.drop (data.length - t.limit) = kept at hover hkept ⊢
    rw [← hover]
    rcases afterNewline_cases kept with ⟨hno, heq⟩ | ⟨line, rest, rfl, heq⟩ <;> rw [heq]
    · exact ⟨before ++ gone, (append_assoc ..).symm, Nat.le_of_eq hkept, .inr ⟨hno, hkept⟩⟩
    · rw [length_append, length_cons] at hkept
      exact ⟨before ++ gone ++ line ++ [newline], by simp, by simp; omega, .inl (.inr (by simp))⟩
  · refine ⟨before, rfl, Nat.not_lt.1 hov, .inl (hca.resolve_right fun hfull => ?_)⟩
    omega

def afterWrites (limit : Int) (chunks : List (List UInt8)) : LogTail := chunks.foldl LogTail.write (newLogTail limit)

theorem aligned_afterWrites (limit : Int) (chunks : List (List UInt8)) :
    Aligned chunks.flatten (afterWrites limit chunks) ∧ (afterWrites limit chunks).limit = (newLogTail limit).limit := by
  induction chunks using reverseRecOn with
  | nil => exact ⟨⟨[], rfl, Nat.zero_le _, .inl (.inl rfl)⟩, rfl⟩
  | append_singleton chunks chunk ih =>
    rw [afterWrites, foldl_append, flatten_append, flatten_singleton]
    exact ⟨ih.1.write, limit_write.trans ih.2⟩

/-- After any writes the tail is a suffix of the output within the limit, and with a newline in it it begins with a
line. -/
theorem tail_line_aligned (limit : Int) (chunks : List (List UInt8)) :
    ∃ before, chunks.flatten = before ++ (afterWrites limit chunks).data ∧
      (afterWrites limit chunks).data.length ≤ (newLogTail limit).limit ∧
      (newline ∈ (afterWrites limit chunks).data → LineStart before) := by
  obtain ⟨⟨before, heq, hle, hca⟩, hlim⟩ := aligned_afterWrites limit chunks
  exact ⟨before, heq, hlim ▸ hle, fun hmem => hca.resolve_right fun hpi => hpi.1 hmem⟩

end Xraytool.LogTail
