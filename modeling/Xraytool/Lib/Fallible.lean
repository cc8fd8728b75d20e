import Mathlib.Data.List.Forall2

/-! Statements that may fail. A computation against a store returns `Except ε`, so a failure discards the state it would
have produced, as a rolled back transaction or savepoint does. A flag from outside the program decides whether a
statement fails. -/

namespace Fallible

open List

variable {ε α β : Type} {a : α}

/-- Issue a statement; if `fails` it reports `e` and has no result. -/
def issue (fails : Bool) (e : ε) (x : Except ε α) : Except ε α := if fails then .error e else x

/-- A transaction: it may fail to begin and it may fail to commit, and the body runs in between. -/
def transaction (beginFails commitFails : Bool) (e : ε) (body : Except ε α) : Except ε α := do
  issue beginFails e (.ok ())
  let a ← body
  issue commitFails e (.ok a)

/-- Run a computation and drop its error: on failure the state `a` stays. -/
def attempt (x : Except ε α) (a : α) : α :=
  match x with
  | .ok a' => a'
  | .error _ => a

theorem attempt_cases {x : Except ε α} : x = .ok (attempt x a) ∨ attempt x a = a := by
  cases x with
  | ok a' => exact .inl rfl
  | error e => exact .inr rfl

variable {f : α → Except ε β} {l : List α} {l' : List β} {R : α → β → Prop} {x : Except ε α} {b : β} {P : α → Prop}
  {Q : β → Prop} {γ : Type} {e : ε}

theorem bind_eq_ok : (x >>= f) = .ok b ↔ ∃ a, x = .ok a ∧ f a = .ok b := by
  cases x with
  | error e => constructor <;> simp [Bind.bind, Except.bind]
  | ok a =>
    constructor
    · exact fun h => ⟨a, rfl, h⟩
    · rintro ⟨_, ⟨⟩, hf⟩
      exact hf

theorem ok_unique {a a' : α} (h : x = .ok a) (h' : x = .ok a') : a = a' := Except.ok.inj (h.symm.trans h')

theorem ok_bind (a : α) (f : α → Except ε β) : (.ok a >>= f) = f a := rfl

@[simp] theorem issue_eq_ok {fails : Bool} {e : ε} {x : Except ε α} {a : α} :
    issue fails e x = .ok a ↔ fails = false ∧ x = .ok a := by
  cases fails <;> simp [issue]

theorem of_issue {fails : Bool} (h : issue fails e x = .ok a) : x = .ok a := (issue_eq_ok.1 h).2

@[simp] theorem transaction_eq_ok {beginFails commitFails : Bool} {e : ε} {body : Except ε α} {a : α} :
    transaction beginFails commitFails e body = .ok a ↔ beginFails = false ∧ commitFails = false ∧ body = .ok a := by
  simp only [transaction, bind_eq_ok, issue_eq_ok, Except.ok.injEq]
  constructor
  · rintro ⟨-, ⟨hb, -⟩, b, hbo, hc, rfl⟩
    exact ⟨hb, hc, hbo⟩
  · rintro ⟨hb, hc, hbo⟩
    exact ⟨(), ⟨hb, trivial⟩, a, hbo, hc, rfl⟩

@[simp] theorem issue_false {e : ε} {x : Except ε α} : issue false e x = x := rfl

theorem transaction_false {body : Except ε α} : transaction false false e body = body := by
  cases body <;> rfl

@[simp] theorem mapError_eq_ok {ε' : Type} {f : ε → ε'} {x : Except ε α} {a : α} :
    x.mapError f = .ok a ↔ x = .ok a := by
  cases x <;> simp [Except.mapError]

theorem map_eq_ok {f : α → β} : x.map f = .ok b ↔ ∃ a, x = .ok a ∧ f a = b := by
  cases x <;> simp [Except.map]

@[simp] theorem mem_toOption {x : Except ε α} {a : α} : a ∈ x.toOption ↔ x = .ok a := by
  cases x <;> simp [Except.toOption]

/-- A loop that stops at the first error returns a list exactly if each round returned its item. -/
theorem mapM_eq_ok : l.mapM f = .ok l' ↔ Forall₂ (fun a b => f a = .ok b) l l' := by
  induction l generalizing l' with
  | nil => cases l' <;> simp [pure, Except.pure]
  | cons a l ih =>
    simp only [mapM_cons, bind_eq_ok, ih, forall₂_cons_left_iff, pure, Except.pure, Except.ok.injEq]
    constructor
    · rintro ⟨b, hb, bs, hbs, rfl⟩
      exact ⟨b, bs, hb, hbs, rfl⟩
    · rintro ⟨b, bs, hb, hbs, rfl⟩
      exact ⟨b, hb, bs, hbs, rfl⟩

theorem exists_mapM_eq_ok : (∃ l', l.mapM f = .ok l') ↔ ∀ a ∈ l, ∃ b, f a = .ok b := by
  induction l with
  | nil => simp [pure, Except.pure]
  | cons a l ih =>
    rw [forall_mem_cons, ← ih]
    simp only [mapM_eq_ok, forall₂_cons_left_iff]
    constructor
    · rintro ⟨_, b, bs, hb, hbs, rfl⟩
      exact ⟨⟨b, hb⟩, bs, hbs⟩
    · rintro ⟨⟨b, hb⟩, bs, hbs⟩
      exact ⟨_, b, bs, hb, hbs, rfl⟩

theorem eq_map_of_map_ok {g : α → β} (hf : ∀ a b, f a = .ok b → b = g a) (h : l.map f = l'.map .ok) : l' = l.map g := by
  induction l generalizing l' with
  | nil => simpa using h.symm
  | cons a l ih =>
    cases l' with
    | nil => simp at h
    | cons b l' =>
      rw [map_cons, map_cons, cons.injEq] at h
      rw [map_cons, hf a b h.1, ih h.2]

theorem forall₂_comp {S : β → γ → Prop} {m : List β} {n : List γ} (h : Forall₂ R l m)
    (h' : Forall₂ S m n) : Forall₂ (fun a c => ∃ b, R a b ∧ S b c) l n := by
  induction h generalizing n with
  | nil =>
    cases h'
    exact .nil
  | cons hab _ ih =>
    cases h' with
    | cons hbc hre => exact .cons ⟨_, hab, hbc⟩ (ih hre)

theorem exists_of_forall₂_left (h : Forall₂ R l l') (ha : a ∈ l) : ∃ b ∈ l', R a b := by
  induction h with
  | nil => simp at ha
  | cons hab _ ih =>
    rcases mem_cons.1 ha with rfl | ha
    · exact ⟨_, mem_cons_self, hab⟩
    · obtain ⟨b, hb, hR⟩ := ih ha
      exact ⟨b, mem_cons_of_mem _ hb, hR⟩

theorem forall₂_fork {S : α → γ → Prop} {l1 : List β} {l2 : List γ} (h1 : Forall₂ R l l1)
    (h2 : Forall₂ S l l2) : Forall₂ (fun b c => ∃ a, R a b ∧ S a c) l1 l2 :=
  forall₂_comp h1.flip h2

theorem forall_mem_iff_of_forall₂ (h : Forall₂ (fun a b => Q b ↔ P a) l l') : (∀ b ∈ l', Q b) ↔ ∀ a ∈ l, P a := by
  induction h with
  | nil => simp
  | cons hab _ ih => rw [forall_mem_cons, forall_mem_cons, hab, ih]

theorem forall₂_iff_forall_mem (h : Forall₂ (fun a b => R a b ↔ P a) l l') : Forall₂ R l l' ↔ ∀ a ∈ l, P a := by
  induction h with
  | nil => simp
  | cons hab _ ih => rw [forall₂_cons, forall_mem_cons, hab, ih]

theorem map_eq_map_of_forall₂ {f : α → γ} {g : β → γ} (h : Forall₂ (fun a b => g b = f a) l l') :
    l'.map g = l.map f := by
  induction h with
  | nil => rfl
  | cons hab _ ih => rw [map_cons, map_cons, hab, ih]

theorem exists_mem_iff_of_forall₂ (h : Forall₂ (fun a b => Q b ↔ P a) l l') : (∃ b ∈ l', Q b) ↔ ∃ a ∈ l, P a := by
  induction h with
  | nil => simp
  | cons hab _ ih => rw [exists_mem_cons_iff, exists_mem_cons_iff, hab, ih]

end Fallible
