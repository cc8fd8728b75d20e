import Mathlib.Data.List.Basic

/-! One row of a table under READ COMMITTED. A transaction that has written the row holds its lock until it ends. The
others read the version committed last, and their own writes wait.

A commit appends what its transaction has noted to a journal. If every write does to a column what is noted for it, the
committed column is the journal replayed (`Serial`). -/

namespace ReadCommitted

open Function

/-- A row; `uncommitted` is the transaction that holds the lock, with its version. -/
structure Row (ι ρ : Type*) where
  committed : ρ
  uncommitted : Option (ι × ρ) := none

namespace Row

variable {ι ρ : Type*} {r r' : Row ι ρ} {i j : ι} {v : ρ} {f : ρ → ρ}

def HeldBy (r : Row ι ρ) (i : ι) : Prop := ∃ v, r.uncommitted = some (i, v)

theorem HeldBy.unique (h : r.HeldBy i) (h' : r.HeldBy j) : i = j := by
  obtain ⟨v, h⟩ := h
  obtain ⟨v', h'⟩ := h'
  rw [h] at h'
  exact congrArg Prod.fst (Option.some.inj h')

theorem ne_of_not_held (h : ¬ r.HeldBy i) (hr : r.uncommitted = some (j, v)) : j ≠ i := by
  rintro rfl
  exact h ⟨v, hr⟩

/-- A statement of the transaction changes a row only while no other one holds it. -/
def Touched (i : ι) (r r' : Row ι ρ) : Prop := r' = r ∨ ((∀ j, r.HeldBy j → j = i) ∧ ∀ j, r'.HeldBy j → j = i)

theorem Touched.refl (i : ι) (r : Row ι ρ) : Touched i r r := .inl rfl

theorem Touched.eq_of_held (h : Touched i r r') (hj : r.HeldBy j) (hne : j ≠ i) : r' = r :=
  h.resolve_right fun ho => hne (ho.1 j hj)

theorem Touched.eq_of_held' (h : Touched i r r') (hj : r'.HeldBy j) (hne : j ≠ i) : r' = r :=
  h.resolve_right fun ho => hne (ho.2 j hj)

theorem not_held_none : ¬ (⟨v, none⟩ : Row ι ρ).HeldBy j := by
  rintro ⟨w, hw⟩
  cases hw

variable [DecidableEq ι]

def read (r : Row ι ρ) (i : ι) : ρ :=
  match r.uncommitted with
  | some (j, v) => if j = i then v else r.committed
  | none => r.committed

/-- `none` while another transaction holds the lock. -/
def write (r : Row ι ρ) (i : ι) (f : ρ → ρ) : Option (Row ι ρ) :=
  match r.uncommitted with
  | some (j, v) => if j = i then some ⟨r.committed, some (i, f v)⟩ else none
  | none => some ⟨r.committed, some (i, f r.committed)⟩

/-- The transaction gives the lock back, if it holds it, and leaves the version `v`. -/
def release (r : Row ι ρ) (i : ι) (v : ρ) : Row ι ρ :=
  match r.uncommitted with
  | some (j, _) => if j = i then ⟨v, none⟩ else r
  | none => r

def commit (r : Row ι ρ) (i : ι) : Row ι ρ := r.release i (r.read i)

def rollback (r : Row ι ρ) (i : ι) : Row ι ρ := r.release i r.committed

theorem read_of_held (h : r.uncommitted = some (i, v)) : r.read i = v := by
  rw [read, h]
  exact if_pos rfl

theorem read_of_not_held (h : ¬ r.HeldBy i) : r.read i = r.committed := by
  rcases hr : r.uncommitted with - | ⟨j, v⟩
  · rw [read, hr]
  · rw [read, hr]
    exact if_neg (ne_of_not_held h hr)

theorem write_eq_some : r.write i f = some r' ↔
    (∀ j, r.HeldBy j → j = i) ∧ r' = ⟨r.committed, some (i, f (r.read i))⟩ := by
  rcases hr : r.uncommitted with - | ⟨j, v⟩
  · simp [write, read, HeldBy, hr, eq_comm]
  by_cases hj : j = i
  · simp [write, read, HeldBy, hr, hj, eq_comm]
  · simp [write, HeldBy, hr, hj]

theorem release_of_held (h : r.HeldBy i) : r.release i v = ⟨v, none⟩ := by
  obtain ⟨w, h⟩ := h
  rw [release, h]
  exact if_pos rfl

theorem release_of_not_held (h : ¬ r.HeldBy i) : r.release i v = r := by
  rcases hr : r.uncommitted with - | ⟨j, w⟩
  · rw [release, hr]
  · rw [release, hr]
    exact if_neg (ne_of_not_held h hr)

theorem touched_release : Touched i r (r.release i v) := by
  by_cases h : r.HeldBy i
  · rw [release_of_held h]
    exact .inr ⟨fun j hj => hj.unique h, fun j hj => absurd hj not_held_none⟩
  · rw [release_of_not_held h]
    exact .refl i r

theorem not_held_release : ¬ (r.release i v).HeldBy i := by
  by_cases h : r.HeldBy i
  · rw [release_of_held h]
    exact not_held_none
  · rwa [release_of_not_held h]

theorem commit_of_held (h : r.uncommitted = some (i, v)) : r.commit i = ⟨v, none⟩ := by
  rw [commit, release_of_held ⟨v, h⟩, read_of_held h]

theorem commit_of_not_held (h : ¬ r.HeldBy i) : r.commit i = r := release_of_not_held h

theorem rollback_of_held (h : r.HeldBy i) : r.rollback i = ⟨r.committed, none⟩ := release_of_held h

theorem rollback_of_not_held (h : ¬ r.HeldBy i) : r.rollback i = r := release_of_not_held h

theorem committed_release (hfree : ¬ r.HeldBy i → v = r.committed) : (r.release i v).committed = v := by
  by_cases h : r.HeldBy i
  · rw [release_of_held h]
  · rw [release_of_not_held h, hfree h]

@[simp] theorem committed_rollback (r : Row ι ρ) (i : ι) : (r.rollback i).committed = r.committed :=
  committed_release fun _ => rfl

variable {P : ρ → Prop}

/-- Whoever reads the row finds the property. -/
def All (P : ρ → Prop) (r : Row ι ρ) : Prop := P r.committed ∧ ∀ i, P (r.read i)

theorem All.write (h : All P r) (hw : r.write i f = some r') (hf : P (f (r.read i))) : All P r' := by
  obtain ⟨-, rfl⟩ := write_eq_some.1 hw
  refine ⟨h.1, fun j => ?_⟩
  dsimp only [read]
  split_ifs
  · exact hf
  · exact h.1

theorem All.release (h : All P r) (hv : P v) : All P (r.release i v) := by
  by_cases hhe : r.HeldBy i
  · rw [release_of_held hhe]
    exact ⟨hv, fun _ => hv⟩
  · rwa [release_of_not_held hhe]

theorem All.commit (h : All P r) : All P (r.commit i) := h.release (h.2 i)

theorem All.rollback (h : All P r) : All P (r.rollback i) := h.release h.1

end Row

section Journal

variable {ι ρ α β : Type*}

/-- The column `col` of the row is what the journal says, also for a transaction in progress. A transaction that does
not hold the row has noted nothing about the column. -/
structure Serial (col : ρ → β) (replay : β → α → β) (b₀ : β) (r : Row ι ρ) (notes : ι → List α) (journal : List α) :
    Prop where
  committed : col r.committed = journal.foldl replay b₀
  held : ∀ i v, r.uncommitted = some (i, v) → col v = (notes i).foldl replay (col r.committed)
  free : ∀ i, ¬ r.HeldBy i → ∀ b, (notes i).foldl replay b = b

variable {col : ρ → β} {replay : β → α → β} {b₀ : β} {r r' : Row ι ρ} {notes : ι → List α} {journal new : List α}
  {i : ι}

theorem Serial.start (v : ρ) : Serial col replay (col v) (⟨v, none⟩ : Row ι ρ) (fun _ => []) [] := by
  refine ⟨rfl, fun _ _ h => ?_, fun _ _ _ => rfl⟩
  contradiction

namespace Serial

variable [DecidableEq ι]

section

variable (h : Serial col replay b₀ r notes journal)
include h

theorem read (i : ι) : col (r.read i) = (notes i).foldl replay (col r.committed) := by
  by_cases hhe : r.HeldBy i
  · obtain ⟨v, hv⟩ := hhe
    rw [Row.read_of_held hv, h.held i v hv]
  · rw [Row.read_of_not_held hhe, h.free i hhe]

theorem write {f : ρ → ρ} (hw : r.write i f = some r') (hnew : col (f (r.read i)) = new.foldl replay (col (r.read i))) :
    Serial col replay b₀ r' (update notes i (notes i ++ new)) journal := by
  obtain ⟨hfr, rfl⟩ := Row.write_eq_some.1 hw
  refine ⟨h.committed, fun j v hj => ?_, fun j hj b => ?_⟩
  · cases hj
    rw [update_self, List.foldl_append, ← h.read, hnew]
  have hji : j ≠ i := fun hji => hj ⟨f (r.read i), by rw [hji]⟩
  rw [update_of_ne hji]
  exact h.free j (fun hhe => hji (hfr j hhe)) b

theorem skip (hnew : ∀ b, new.foldl replay b = (notes i).foldl replay b) :
    Serial col replay b₀ r (update notes i new) journal := by
  have hsa (j : ι) (b : β) : (update notes i new j).foldl replay b = (notes j).foldl replay b := by
    by_cases hji : j = i
    · rw [hji, update_self, hnew]
    · rw [update_of_ne hji]
  refine ⟨h.committed, fun j v hj => ?_, fun j hj b => ?_⟩
  · rw [hsa, h.held j v hj]
  · rw [hsa, h.free j hj]

theorem release {v : ρ} {journal' : List α} (hv : col v = journal'.foldl replay b₀)
    (hfree : ¬ r.HeldBy i → v = r.committed) (hnew : ∀ b, new.foldl replay b = b) :
    Serial col replay b₀ (r.release i v) (update notes i new) journal' := by
  have hfr (j : ι) (hj : j ≠ i → ¬ r.HeldBy j) (b : β) : (update notes i new j).foldl replay b = b := by
    by_cases hji : j = i
    · rw [hji, update_self, hnew]
    · rw [update_of_ne hji]
      exact h.free j (hj hji) b
  by_cases hhe : r.HeldBy i
  · rw [Row.release_of_held hhe]
    exact ⟨hv, fun _ _ hj => by contradiction, fun j _ => hfr j fun hji hj => hji (hj.unique hhe)⟩
  rw [Row.release_of_not_held hhe]
  refine ⟨hfree hhe ▸ hv, fun j v hj => ?_, fun j hj => hfr j fun _ => hj⟩
  have hji : j ≠ i := fun hji => hhe (hji ▸ ⟨v, hj⟩)
  rw [update_of_ne hji]
  exact h.held j v hj

theorem commit : Serial col replay b₀ (r.commit i) (update notes i []) (journal ++ notes i) := by
  refine h.release ?_ Row.read_of_not_held fun _ => rfl
  rw [h.read, List.foldl_append, h.committed]

/-- After a rollback, also one to a savepoint before which nothing was noted about the column. -/
theorem rollback (hnew : ∀ b, new.foldl replay b = b) :
    Serial col replay b₀ (r.rollback i) (update notes i new) journal :=
  h.release h.committed (fun _ => rfl) hnew

end

end Serial

end Journal

end ReadCommitted
