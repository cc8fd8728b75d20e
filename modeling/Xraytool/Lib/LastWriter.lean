import Mathlib.Algebra.Order.Group.Int
import Mathlib.Data.List.Basic
import Mathlib.Data.List.Pairwise

/-! Logs of writes with strictly increasing revisions, and the last-writer-wins map they describe. A copy of that map
may lag behind or run ahead key by key; `Fresh` bounds how far: every key has the value of some moment at or after the
bound. -/

/-- A log of entries with positive, strictly increasing revisions. -/
structure Log (ε : Type*) where
  entries : List (Int × ε)
  sorted : entries.Pairwise fun e e' => e.1 < e'.1
  pos : ∀ e ∈ entries, 0 < e.1

namespace Log

open List

variable {ε κ α : Type*} {l : Log ε} {es : List (Int × ε)}

def empty : Log ε := ⟨[], .nil, by simp⟩

def top (l : Log ε) : Int := l.entries.foldl (fun m e => max m e.1) 0

theorem foldl_max_le {m b : Int} : es.foldl (fun m e => max m e.1) m ≤ b ↔ m ≤ b ∧ ∀ e ∈ es, e.1 ≤ b := by
  induction es generalizing m with
  | nil => simp
  | cons e es ih => simp [ih, and_assoc]

theorem top_le {b : Int} : l.top ≤ b ↔ 0 ≤ b ∧ ∀ e ∈ l.entries, e.1 ≤ b := foldl_max_le

theorem top_nonneg (l : Log ε) : 0 ≤ l.top := (top_le.1 le_rfl).1

theorem le_top {e : Int × ε} (he : e ∈ l.entries) : e.1 ≤ l.top := (top_le.1 le_rfl).2 e he

def snoc (l : Log ε) (r : Int) (x : ε) (h : l.top < r) : Log ε where
  entries := l.entries ++ [(r, x)]
  sorted := List.pairwise_append.2
    ⟨l.sorted, List.pairwise_singleton _ _, by simpa using fun a b hab => (le_top hab).trans_lt h⟩
  pos := by
    intro e he
    rcases List.mem_append.1 he with he | he
    · exact l.pos e he
    · rw [List.mem_singleton.1 he]
      exact l.top_nonneg.trans_lt h

theorem top_snoc {r : Int} {x : ε} (h : l.top < r) : (l.snoc r x h).top = r := by
  have hmax : (l.snoc r x h).top = max l.top r := by simp [top, snoc, foldl_append]
  rw [hmax, max_eq_right h.le]

section View

variable [DecidableEq κ] (w : ε → Option (κ × Option α))

/-- One write: `some (k, v)` sets or clears the key, `none` writes nothing. -/
def put (D : κ → Option α) (x : Option (κ × Option α)) : κ → Option α :=
  match x with
  | none => D
  | some (k, v) => Function.update D k v

/-- The map after the entries up to revision `t`. -/
def viewAt (l : Log ε) (t : Int) : κ → Option α :=
  (l.entries.filter fun e => e.1 ≤ t).foldl (fun D e => put D (w e.2)) fun _ => none

def view (l : Log ε) : κ → Option α := l.entries.foldl (fun D e => put D (w e.2)) fun _ => none

variable {t r : Int} {x : ε} {c : Int}

theorem viewAt_of_top_le (h : l.top ≤ t) : l.viewAt w t = l.view w := by
  have hall : l.entries.filter (fun e => e.1 ≤ t) = l.entries :=
    filter_eq_self.2 fun e he => by simpa using (le_top he).trans h
  rw [viewAt, hall, view]

theorem viewAt_congr {t' : Int} (h : ∀ e ∈ l.entries, e.1 ≤ t ↔ e.1 ≤ t') : l.viewAt w t = l.viewAt w t' := by
  have hf : l.entries.filter (fun e => e.1 ≤ t) = l.entries.filter (fun e => e.1 ≤ t') :=
    filter_congr fun e he => by simp [h e he]
  rw [viewAt, viewAt, hf]

theorem viewAt_snoc (h : l.top < r) (ht : t ≤ l.top) : (l.snoc r x h).viewAt w t = l.viewAt w t := by
  have hr : ¬ r ≤ t := by omega
  simp [viewAt, snoc, filter_append, hr]

theorem viewAt_entry (h : (r, x) ∈ l.entries) : l.viewAt w r = put (l.viewAt w (r - 1)) (w x) := by
  obtain ⟨pre, post, hsp⟩ := append_of_mem h
  have hs := l.sorted
  rw [hsp, pairwise_append, pairwise_cons] at hs
  obtain ⟨-, ⟨hpo, -⟩, hpre⟩ := hs
  have hpre' : ∀ e ∈ pre, e.1 < r := fun e he => hpre e he (r, x) mem_cons_self
  have hle : l.entries.filter (fun e => e.1 ≤ r) = pre ++ [(r, x)] := by
    have h1 : pre.filter (fun e => e.1 ≤ r) = pre := filter_eq_self.2 fun e he => by simpa using (hpre' e he).le
    have h2 : post.filter (fun e => e.1 ≤ r) = [] := filter_eq_nil_iff.2 fun e he => by simpa using hpo e he
    simp [hsp, filter_append, h1, h2]
  have hlt : l.entries.filter (fun e => e.1 ≤ r - 1) = pre := by
    have h1 : pre.filter (fun e => e.1 ≤ r - 1) = pre := filter_eq_self.2 fun e he => by have := hpre' e he; simp; omega
    have h2 : post.filter (fun e => e.1 ≤ r - 1) = [] :=
      filter_eq_nil_iff.2 fun e he => by have := hpo e he; simp at this ⊢; omega
    have h3 : ((r, x) :: post).filter (fun e => e.1 ≤ r - 1) = post.filter fun e => e.1 ≤ r - 1 :=
      filter_cons_of_neg (decide_eq_true_iff.not.2 (show ¬ r ≤ r - 1 by omega))
    rw [hsp, filter_append, h1, h3, h2, append_nil]
  rw [viewAt, viewAt, hle, hlt, foldl_append]
  rfl

/-- The entry at revision `r` is the first one after `c`. -/
structure Next (l : Log ε) (c r : Int) (x : ε) : Prop where
  mem : (r, x) ∈ l.entries
  lt : c < r
  first : ∀ e ∈ l.entries, c < e.1 → r ≤ e.1

theorem Next.snoc (h : l.Next c r x) {r' : Int} {x' : ε} (hr : l.top < r') : (l.snoc r' x' hr).Next c r x := by
  refine ⟨mem_append_left _ h.mem, h.lt, fun e he hc => ?_⟩
  rcases mem_append.1 he with he | he
  · exact h.first e he hc
  · rw [mem_singleton.1 he]
    exact (le_top h.mem).trans hr.le

def Consecutive (l : Log ε) : Int → List (Int × ε) → Prop
  | _, [] => True
  | c, (r, x) :: rows => l.Next c r x ∧ l.Consecutive r rows

theorem Consecutive.snoc {rows : List (Int × ε)} (h : l.Consecutive c rows) (hr : l.top < r) :
    (l.snoc r x hr).Consecutive c rows := by
  induction rows generalizing c with
  | nil => trivial
  | cons row rows ih => exact ⟨h.1.snoc hr, ih h.2⟩

theorem filter_le_append_filter_lt (hs : es.Pairwise fun e e' => e.1 < e'.1) (c : Int) :
    es.filter (fun e => e.1 ≤ c) ++ es.filter (fun e => c < e.1) = es := by
  induction es with
  | nil => rfl
  | cons e es ih =>
    rw [pairwise_cons] at hs
    rcases le_or_gt e.1 c with hc | hc
    · have hc' : ¬ c < e.1 := not_lt.2 hc
      simp [hc, hc', ih hs.2]
    have hall : es.filter (fun e => e.1 ≤ c) = [] :=
      filter_eq_nil_iff.2 fun e' he' => by simpa using hc.trans (hs.1 e' he')
    have hre := ih hs.2
    rw [hall, nil_append] at hre
    simp [hc, not_le.2 hc, hall, hre]

theorem consecutive_of_split {pre rows : List (Int × ε)} (h : l.entries = pre ++ rows)
    (hpre : ∀ e ∈ pre, e.1 ≤ c) (hro : ∀ e ∈ rows, c < e.1) (n : Nat) : l.Consecutive c (rows.take n) := by
  induction rows generalizing c pre n with
  | nil => simp [Consecutive]
  | cons row rows ih =>
    obtain ⟨r, x⟩ := row
    cases n with
    | zero => trivial
    | succ n =>
      have hs := l.sorted
      rw [h, pairwise_append, pairwise_cons] at hs
      refine ⟨⟨by simp [h], hro (r, x) mem_cons_self, fun e he hc => ?_⟩, ?_⟩
      · rw [h] at he
        rcases mem_append.1 he with he | he
        · exact absurd (hpre e he) (not_le.2 hc)
        rcases mem_cons.1 he with rfl | he
        · exact le_rfl
        · exact (hs.2.1.1 e he).le
      · have hsp : l.entries = (pre ++ [(r, x)]) ++ rows := by simp [h]
        refine ih hsp (fun e he => ?_) (fun e he => hs.2.1.1 e he) n
        rcases mem_append.1 he with he | he
        · exact (hs.2.2 e he (r, x) mem_cons_self).le
        · rw [mem_singleton.1 he]

theorem consecutive_filter (l : Log ε) (c : Int) (n : Nat) :
    l.Consecutive c ((l.entries.filter fun e => c < e.1).take n) :=
  consecutive_of_split (filter_le_append_filter_lt l.sorted c).symm
    (fun e he => by simpa using (mem_filter.1 he).2) (fun e he => by simpa using (mem_filter.1 he).2) n

/-- Every key of `D` has the value of a moment between `c` and the top of the log. -/
def Fresh (l : Log ε) (D : κ → Option α) (c : Int) : Prop :=
  ∀ k, ∃ t, c ≤ t ∧ t ≤ l.top ∧ D k = l.viewAt w t k

variable {w} {D : κ → Option α}

theorem Fresh.le_top [Nonempty κ] (h : l.Fresh w D c) : c ≤ l.top := by
  obtain ⟨t, hc, ht, -⟩ := h (Classical.arbitrary κ)
  exact hc.trans ht

theorem Fresh.mono (h : l.Fresh w D c) {c' : Int} (hc : c' ≤ c) : l.Fresh w D c' := by
  intro k
  obtain ⟨t, ht, htop, hD⟩ := h k
  exact ⟨t, hc.trans ht, htop, hD⟩

theorem Fresh.snoc (h : l.Fresh w D c) (hr : l.top < r) : (l.snoc r x hr).Fresh w D c := by
  intro k
  obtain ⟨t, ht, htop, hD⟩ := h k
  refine ⟨t, ht, ?_, hD.trans ?_⟩
  · rw [top_snoc]; omega
  · rw [viewAt_snoc w hr htop]

theorem fresh_viewAt (htop : t ≤ l.top) : l.Fresh w (l.viewAt w t) t := fun _ => ⟨t, le_rfl, htop, rfl⟩

/-- Applying the next entry advances the bound to it; keys that already hold later values keep them. -/
theorem Fresh.deliver (h : l.Fresh w D c) (hn : l.Next c r x) : l.Fresh w (put D (w x)) r := by
  have hat := viewAt_entry w hn.mem
  have htop : r ≤ l.top := Log.le_top hn.mem
  intro k
  obtain ⟨t, ht, htt, hD⟩ := h k
  -- at revision `r`, key `k` is either written by the entry or still as before it
  by_cases hk : ∃ v, w x = some (k, v)
  · obtain ⟨v, hv⟩ := hk
    refine ⟨r, le_rfl, htop, ?_⟩
    rw [hat, hv]
    simp [put]
  · have hput : ∀ E : κ → Option α, put E (w x) k = E k := by
      intro E
      cases hw : w x with
      | none => rfl
      | some kv =>
        obtain ⟨k', v⟩ := kv
        have hne : k ≠ k' := fun h => hk ⟨v, by rw [hw, h]⟩
        simp [put, Function.update_of_ne hne]
    rcases le_or_gt r t with hrt | hrt
    · exact ⟨t, hrt, htt, (hput D).trans hD⟩
    -- no entry lies between `c` and `r`, so nothing changed from `t` to just before `r`
    have hgap : l.viewAt w t = l.viewAt w (r - 1) := viewAt_congr w fun e he => by
      constructor
      · omega
      intro hle
      by_contra hgt
      have := hn.first e he (by omega)
      omega
    refine ⟨r, le_rfl, htop, ?_⟩
    rw [hput, hD, hgap, hat, hput]

theorem Fresh.eq_view (h : l.Fresh w D l.top) : D = l.view w := by
  funext k
  obtain ⟨t, ht, -, hD⟩ := h k
  rw [hD, viewAt_of_top_le w ht]

end View
end Log
