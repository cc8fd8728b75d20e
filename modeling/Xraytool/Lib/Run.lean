import Mathlib.Data.List.Nodup

/-! Finite runs of a labelled transition relation, and the rules of safety proofs over runs: invariants, also of guarded
steps, and references that a run follows. An executable step `σ → ε → Option σ` is run by `exec`, so a concrete trace is
evaluated. -/

namespace Transition

open List

variable {σ ε : Type*}

/-- `Run Step s₀ tr s`: the labels `tr`, oldest first, lead from `s₀` to `s`. -/
inductive Run (Step : σ → ε → σ → Prop) (s₀ : σ) : List ε → σ → Prop
  | nil : Run Step s₀ [] s₀
  | snoc {tr : List ε} {s s' : σ} {e : ε} :
      Run Step s₀ tr s → Step s e s' → Run Step s₀ (tr ++ [e]) s'

/-- The steps of `Step` whose label and source state meet `G`. -/
def Guarded (G : σ → ε → Prop) (Step : σ → ε → σ → Prop) (s : σ) (e : ε) (s' : σ) : Prop :=
  G s e ∧ Step s e s'

/-- The relation of an executable step; `none` says the label is not enabled. -/
def stepsTo (step : σ → ε → Option σ) (s : σ) (e : ε) (s' : σ) : Prop := step s e = some s'

/-- Run an executable step function over a trace. -/
def exec (step : σ → ε → Option σ) : σ → List ε → Option σ
  | s, [] => some s
  | s, e :: tr => (step s e).bind fun s' => exec step s' tr

/-- An executable step that is enabled only where the guard holds. -/
def guardedStep (G : σ → ε → Prop) [∀ s e, Decidable (G s e)] (step : σ → ε → Option σ) (s : σ) (e : ε) :
    Option σ := if G s e then step s e else none

namespace Run

variable {Step : σ → ε → σ → Prop} {s₀ s : σ} {tr : List ε}

/-- What holds initially and is kept by every step holds at the end of every run. -/
theorem invariant (I : σ → Prop) (hin : I s₀)
    (hst : ∀ s e s', I s → Step s e s' → I s') (h : Run Step s₀ tr s) : I s := by
  induction h with
  | nil => exact hin
  | snoc _ hs ih => exact hst _ _ _ ih hs

variable {G : σ → ε → Prop} {step : σ → ε → Option σ}

/-- The rule for guarded runs: a step has to keep the invariant only where its guard holds. -/
theorem invariant_of_guard (I : σ → Prop) (hin : I s₀) (hst : ∀ s e s', I s → G s e → Step s e s' → I s')
    (h : Run (Guarded G Step) s₀ tr s) : I s :=
  h.invariant I hin fun s e s' hI hs => hst s e s' hI hs.1 hs.2

/-- A guarded run follows a deterministic reference that makes the same steps: a relation between the two that every
step keeps where its guard holds relates the states at the end. -/
theorem follows {τ : Type*} (R : σ → τ → Prop) (next : τ → ε → τ) {t0 : τ} (hin : R s₀ t0)
    (hst : ∀ s t e s', R s t → G s e → Step s e s' → R s' (next t e)) (h : Run (Guarded G Step) s₀ tr s) :
    R s (tr.foldl next t0) := by
  induction h with
  | nil => exact hin
  | snoc _ hs ih =>
    rw [foldl_append]
    exact hst _ _ _ _ ih hs.1 hs.2

theorem guarded (h : Run Step s₀ tr s) (hG : ∀ s, ∀ e ∈ tr, G s e) : Run (Guarded G Step) s₀ tr s := by
  induction h with
  | nil => exact .nil
  | snoc _ hs ih =>
    exact .snoc (ih fun s e he => hG s e (mem_append_left _ he)) ⟨hG _ _ (by simp), hs⟩

theorem of_guarded (h : Run (Guarded G Step) s₀ tr s) : Run Step s₀ tr s := by
  induction h with
  | nil => exact .nil
  | snoc _ hs ih => exact .snoc ih hs.2

/-- A property of the labels of a run can stand in its guard. -/
theorem guard_labels {P : ε → Prop} (h : Run (Guarded G Step) s₀ tr s) (hP : ∀ e ∈ tr, P e) :
    Run (Guarded (fun s e => G s e ∧ P e) Step) s₀ tr s := by
  induction h with
  | nil => exact .nil
  | snoc _ hs ih =>
    refine .snoc (ih fun e he => hP e (mem_append_left _ he)) ⟨⟨hs.1, hP _ (by simp)⟩, hs.2⟩

variable {s₁ : σ} {P Q : σ → Prop}

theorem trans {tr' : List ε} (h : Run Step s₀ tr s₁) (h' : Run Step s₁ tr' s) : Run Step s₀ (tr ++ tr') s := by
  induction h' with
  | nil => simpa using h
  | snoc _ hs ih => rw [← append_assoc]; exact .snoc ih hs

theorem cons {e : ε} (hs : Step s₀ e s₁) (h : Run Step s₁ tr s) : Run Step s₀ (e :: tr) s := trans (.snoc .nil hs) h

theorem of_exec (hst : ∀ s e s', step s e = some s' → Step s e s') (h : exec step s₀ tr = some s) :
    Run Step s₀ tr s := by
  induction tr generalizing s₀ with
  | nil => cases h; exact .nil
  | cons e tr ih =>
    obtain ⟨s₁, hs, h⟩ := Option.bind_eq_some_iff.1 h
    exact cons (hst _ _ _ hs) (ih h)

/-- A trace evaluated to a state with a decided property is a run to such a state. -/
theorem exists_of_exec (h : ∃ s ∈ exec step s₀ tr, P s) : ∃ s, Run (stepsTo step) s₀ tr s ∧ P s := by
  obtain ⟨s, hs, hP⟩ := h
  exact ⟨s, of_exec (fun _ _ _ h => h) hs, hP⟩

theorem exists_of_guardedExec [∀ s e, Decidable (G s e)] (h : ∃ s ∈ exec (guardedStep G step) s₀ tr, P s) :
    ∃ s, Run (Guarded G (stepsTo step)) s₀ tr s ∧ P s := by
  obtain ⟨s, hs, hP⟩ := h
  refine ⟨s, of_exec (fun s e s' h => ?_) hs, hP⟩
  unfold guardedStep at h
  split_ifs at h with hG
  exact ⟨hG, h⟩

theorem exists_of_exec_imp (h : ∃ s ∈ exec step s₀ tr, P s) (hQ : ∀ s, Run (stepsTo step) s₀ tr s → P s → Q s) :
    ∃ s, Run (stepsTo step) s₀ tr s ∧ Q s := by
  obtain ⟨s, hrun, hP⟩ := exists_of_exec h
  exact ⟨s, hrun, hQ s hrun hP⟩

theorem exists_of_guardedExec_imp [∀ s e, Decidable (G s e)] (h : ∃ s ∈ exec (guardedStep G step) s₀ tr, P s)
    (hQ : ∀ s, Run (Guarded G (stepsTo step)) s₀ tr s → P s → Q s) :
    ∃ s, Run (Guarded G (stepsTo step)) s₀ tr s ∧ Q s := by
  obtain ⟨s, hrun, hP⟩ := exists_of_guardedExec h
  exact ⟨s, hrun, hQ s hrun hP⟩

end Run
end Transition

/-! Processes in progress, kept in a list. A step picks one of them by its position and puts in its place what is left
of it, which may be nothing. -/

namespace Pool

open List

variable {α : Type*} {l next : List α} {i : Nat} {a b : α}

def replace (l : List α) (i : Nat) (next : List α) : List α := l.take i ++ next ++ l.drop (i + 1)

theorem split_at (h : l[i]? = some a) : l = l.take i ++ a :: l.drop (i + 1) := by
  obtain ⟨hlt, rfl⟩ := List.getElem?_eq_some_iff.1 h
  rw [← List.drop_eq_getElem_cons hlt, List.take_append_drop]

theorem of_mem_replace (h : b ∈ replace l i next) : b ∈ next ∨ b ∈ l := by
  rcases mem_append.1 h with h | h
  · rcases mem_append.1 h with h | h
    · exact .inr (mem_of_mem_take h)
    · exact .inl h
  · exact .inr (mem_of_mem_drop h)

theorem mem_replace (h : b ∈ next) : b ∈ replace l i next := mem_append_left _ (mem_append_right _ h)

theorem eq_or_mem_replace (hi : l[i]? = some a) (h : b ∈ l) : b = a ∨ b ∈ replace l i next := by
  rw [split_at hi] at h
  rcases mem_append.1 h with h | h
  · exact .inr (mem_append_left _ (mem_append_left _ h))
  rcases mem_cons.1 h with h | h
  · exact .inl h
  · exact .inr (mem_append_right _ h)

def others (l : List α) (i : Nat) : List α := l.take i ++ l.drop (i + 1)

theorem mem_of_mem_others (h : b ∈ others l i) : b ∈ l := by
  rcases mem_append.1 h with h | h
  · exact mem_of_mem_take h
  · exact mem_of_mem_drop h

theorem mem_replace_iff : b ∈ replace l i next ↔ b ∈ next ∨ b ∈ others l i := by
  simp only [replace, others, mem_append]
  tauto

theorem perm_cons_others (h : l[i]? = some a) : l.Perm (a :: others l i) := by
  nth_rewrite 1 [split_at h]
  exact perm_middle

theorem replace_perm (l : List α) (i : Nat) (next : List α) : (replace l i next).Perm (next ++ others l i) := by
  rw [replace, others, ← append_assoc]
  exact perm_append_comm.append_right _

variable {β : Type*} {f : α → List β} {x : β}

theorem not_mem_of_mem_others (h : (l.flatMap f).Nodup) (hi : l[i]? = some a) (hx : x ∈ f a) (hb : b ∈ others l i) :
    x ∉ f b := by
  intro hxb
  have hno := ((perm_cons_others hi).flatMap_right f).nodup_iff.1 h
  rw [flatMap_cons] at hno
  exact disjoint_of_nodup_append hno hx (mem_flatMap.2 ⟨b, hb, hxb⟩)

/-- A process may go on with what it held, or with what nobody held. -/
theorem nodup_flatMap_replace (h : (l.flatMap f).Nodup) (hi : l[i]? = some a) (hne : (next.flatMap f).Nodup)
    (hfr : ∀ x ∈ next.flatMap f, x ∈ f a ∨ ∀ b ∈ l, x ∉ f b) : ((replace l i next).flatMap f).Nodup := by
  rw [((replace_perm l i next).flatMap_right f).nodup_iff, flatMap_append, nodup_append']
  have hoth := ((perm_cons_others hi).flatMap_right f).nodup_iff.1 h
  rw [flatMap_cons] at hoth
  refine ⟨hne, hoth.of_append_right, fun x hx hx' => ?_⟩
  obtain ⟨b, hb, hxb⟩ := mem_flatMap.1 hx'
  rcases hfr x hx with hxa | hnob
  · exact not_mem_of_mem_others h hi hxa hb hxb
  · exact hnob b (mem_of_mem_others hb) hxb

end Pool
