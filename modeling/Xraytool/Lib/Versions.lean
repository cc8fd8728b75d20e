import Xraytool.Lib.ReadCommitted

/-! A table under READ COMMITTED. Every key has a row that may be absent, in the version committed last and in that of
the transaction that holds it. An INSERT takes the key like a row, so a second one waits and then fails, as with a
unique index. The keys ever used are listed, since a statement may look at all rows. -/

namespace ReadCommitted

open Option Function

structure Versions (ι κ ρ : Type*) where
  keys : List κ
  row : κ → Row ι (Option ρ)
  blank : ∀ k, k ∉ keys → row k = ⟨none, none⟩

namespace Versions

variable {ι κ ρ : Type*} {t t' : Versions ι κ ρ} {i j : ι} {k : κ} {r : ρ} {v : Option ρ}

section Statements

variable [DecidableEq ι]

def get (t : Versions ι κ ρ) (i : ι) (k : κ) : Option ρ := (t.row k).read i

def select (t : Versions ι κ ρ) (i : ι) (p : ρ → Bool) : List ρ := t.keys.filterMap fun k => (t.get i k).filter p

def commit (t : Versions ι κ ρ) (i : ι) : Versions ι κ ρ where
  keys := t.keys
  row := fun k => (t.row k).commit i
  blank := fun k hk => by rw [t.blank k hk]; rfl

def rollback (t : Versions ι κ ρ) (i : ι) : Versions ι κ ρ where
  keys := t.keys
  row := fun k => (t.row k).rollback i
  blank := fun k hk => by rw [t.blank k hk]; rfl

def Matches (t : Versions ι κ ρ) (i : ι) (p : ρ → Bool) (k : κ) : Prop := ((t.get i k).any p) = true

instance (t : Versions ι κ ρ) (i : ι) (p : ρ → Bool) (k : κ) : Decidable (t.Matches i p k) :=
  inferInstanceAs (Decidable (_ = true))

def Waits (t : Versions ι κ ρ) (i : ι) (k : κ) : Prop := ∃ h ∈ (t.row k).uncommitted, h.1 ≠ i

instance (t : Versions ι κ ρ) (i : ι) (k : κ) : Decidable (t.Waits i k) := by
  unfold Waits
  infer_instance

theorem not_waits_iff : ¬ t.Waits i k ↔ ∀ j, (t.row k).HeldBy j → j = i := by
  constructor
  · rintro h j ⟨v, hv⟩
    by_contra hne
    exact h ⟨(j, v), hv, hne⟩
  · rintro h ⟨⟨j, v⟩, hv, hne⟩
    exact hne (h j ⟨v, hv⟩)

theorem get_of_not_mem (hk : k ∉ t.keys) : t.get i k = none := by
  rw [get, t.blank k hk]
  rfl

theorem mem_keys_of_matches {p : ρ → Bool} (h : t.Matches i p k) : k ∈ t.keys := by
  by_contra hk
  rw [Matches, get_of_not_mem hk] at h
  cases h

/-- An UPDATE or a DELETE (`f` then gives no row) of the rows that meet the condition; `none` while another transaction
holds one of them. -/
def change (t : Versions ι κ ρ) (i : ι) (p : ρ → Bool) (f : ρ → Option ρ) : Option (Versions ι κ ρ) :=
  if ∃ k ∈ t.keys, t.Matches i p k ∧ t.Waits i k then none
  else some
    { keys := t.keys
      row := fun k => if t.Matches i p k then ⟨(t.row k).committed, some (i, (t.get i k).bind f)⟩ else t.row k
      blank := fun k hk => by
        rw [if_neg fun h => hk (mem_keys_of_matches h)]
        exact t.blank k hk }

variable [DecidableEq κ]

/-- A row is written in its key, whether it was there or not; `none` while another transaction holds it. -/
def write (t : Versions ι κ ρ) (i : ι) (k : κ) (v : Option ρ) : Option (Versions ι κ ρ) :=
  if t.Waits i k then none
  else some
    { keys := if k ∈ t.keys then t.keys else t.keys ++ [k]
      row := fun k' => if k' = k then ⟨(t.row k).committed, some (i, v)⟩ else t.row k'
      blank := fun k' hk' => by
        have hk : k' ∉ t.keys ∧ k' ≠ k := by
          split_ifs at hk' with hk
          · exact ⟨hk', fun h => hk' (h ▸ hk)⟩
          · rwa [List.mem_append, List.mem_singleton, not_or] at hk'
        rw [if_neg hk.2]
        exact t.blank k' hk.1 }

end Statements

/-- The table with these rows, all committed. -/
def ofRows [DecidableEq κ] (key : ρ → κ) (rows : List ρ) : Versions ι κ ρ where
  keys := rows.map key
  row := fun k => ⟨rows.find? fun r => key r = k, none⟩
  blank := fun k hk => by
    have hnone : (rows.find? fun r => key r = k) = none := by
      rw [List.find?_eq_none]
      intro r hr h
      exact hk (List.mem_map.2 ⟨r, hr, of_decide_eq_true h⟩)
    rw [hnone]

theorem key_of_ofRows [DecidableEq κ] (key : ρ → κ) {rows : List ρ}
    (h : ((ofRows key rows : Versions ι κ ρ).row k).committed = some r) : key r = k := by
  have hkey := List.find?_some (p := fun r => decide (key r = k)) (l := rows) h
  exact of_decide_eq_true hkey

section Rows

variable [DecidableEq ι] {p : ρ → Bool} {f : ρ → Option ρ} {k' : κ}

theorem change_eq_some (h : t.change i p f = some t') :
    (∀ k, t.Matches i p k → ∀ j, (t.row k).HeldBy j → j = i) ∧ t'.keys = t.keys ∧ ∀ k, t'.row k =
      if t.Matches i p k then ⟨(t.row k).committed, some (i, (t.get i k).bind f)⟩ else t.row k := by
  unfold change at h
  split_ifs at h with hwa
  cases h
  refine ⟨fun k hk => not_waits_iff.1 fun hw => hwa ⟨k, mem_keys_of_matches hk, hk, hw⟩, rfl, fun k => rfl⟩

theorem write_eq_some [DecidableEq κ] (h : t.write i k v = some t') :
    (∀ j, (t.row k).HeldBy j → j = i) ∧ t'.row k = ⟨(t.row k).committed, some (i, v)⟩ ∧
      ∀ k', k' ≠ k → t'.row k' = t.row k' := by
  unfold write at h
  split at h
  · cases h
  rename_i hwa
  cases h
  exact ⟨not_waits_iff.1 hwa, if_pos rfl, fun k' hne => if_neg hne⟩

theorem uncommitted_write [DecidableEq κ] (h : t.write i k v = some t') (hfr : ∀ k, ¬ (t.row k).HeldBy i)
    {v' : Option ρ} (hv' : (t'.row k').uncommitted = some (i, v')) : k' = k ∧ v' = v := by
  obtain ⟨-, hrow, hoth⟩ := write_eq_some h
  by_cases hk : k' = k
  · rw [hk, hrow] at hv'
    exact ⟨hk, (congrArg Prod.snd (some.inj hv')).symm⟩
  · rw [hoth k' hk] at hv'
    exact absurd ⟨v', hv'⟩ (hfr k')

def Touched (i : ι) (t t' : Versions ι κ ρ) : Prop := ∀ k, Row.Touched i (t.row k) (t'.row k)

omit [DecidableEq ι] in
theorem Touched.refl (i : ι) (t : Versions ι κ ρ) : Touched i t t := fun _ => .refl i _

theorem touched_commit (t : Versions ι κ ρ) (i : ι) : Touched i t (t.commit i) := fun _ => Row.touched_release

/-- Nothing is committed. -/
structure Pends (i : ι) (t t' : Versions ι κ ρ) : Prop where
  touched : Touched i t t'
  committed : ∀ k, (t'.row k).committed = (t.row k).committed

omit [DecidableEq ι] in
theorem Pends.refl (i : ι) (t : Versions ι κ ρ) : Pends i t t := ⟨.refl i t, fun _ => rfl⟩

theorem pends_rollback : Pends i t (t.rollback i) :=
  ⟨fun _ => Row.touched_release, fun _ => Row.committed_rollback _ _⟩

omit [DecidableEq ι] in
theorem eq_of_heldBy_written {x : Option ρ} (h : (⟨x, some (i, v)⟩ : Row ι (Option ρ)).HeldBy j) : j = i := by
  obtain ⟨w, hw⟩ := h
  exact (congrArg Prod.fst (some.inj hw)).symm

theorem pends_change (h : t.change i p f = some t') : Pends i t t' := by
  obtain ⟨hfr, -, hrow⟩ := change_eq_some h
  refine ⟨fun k => ?_, fun k => ?_⟩
  all_goals
    rw [hrow k]
    split_ifs with hk
  · exact .inr ⟨hfr k hk, fun j hj => eq_of_heldBy_written hj⟩
  · exact .refl i _
  · rfl
  · rfl

theorem pends_write [DecidableEq κ] (h : t.write i k v = some t') : Pends i t t' := by
  obtain ⟨hfr, hrow, hoth⟩ := write_eq_some h
  refine ⟨fun k' => ?_, fun k' => ?_⟩
  all_goals by_cases hk : k' = k
  · rw [hk, hrow]
    exact .inr ⟨hfr, fun j hj => eq_of_heldBy_written hj⟩
  · rw [hoth k' hk]
    exact .refl i _
  · rw [hk, hrow]
  · rw [hoth k' hk]

theorem get_of_held (h : (t.row k).uncommitted = some (i, v)) : t.get i k = v := Row.read_of_held h

theorem get_of_not_held (h : ¬ (t.row k).HeldBy i) : t.get i k = (t.row k).committed := Row.read_of_not_held h

theorem get_write [DecidableEq κ] (h : t.write i k v = some t') :
    (fun k' => t'.get i k') = update (fun k' => t.get i k') k v := by
  obtain ⟨-, hrow, hoth⟩ := write_eq_some h
  funext k'
  by_cases hk : k' = k
  · rw [hk, update_self]
    exact get_of_held (congrArg Row.uncommitted hrow)
  · rw [update_of_ne hk, get, hoth k' hk, get]

theorem committed_commit (t : Versions ι κ ρ) (i : ι) (k : κ) : ((t.commit i).row k).committed = t.get i k :=
  Row.committed_release Row.read_of_not_held

theorem mem_select : r ∈ t.select i p ↔ ∃ k, t.get i k = some r ∧ p r = true := by
  unfold select
  rw [List.mem_filterMap]
  constructor
  · rintro ⟨k, -, hk⟩
    exact ⟨k, filter_eq_some_iff.1 hk⟩
  rintro ⟨k, hget, hp⟩
  refine ⟨k, ?_, filter_eq_some_iff.2 ⟨hget, hp⟩⟩
  by_contra hk
  rw [get_of_not_mem hk] at hget
  cases hget

end Rows

end Versions

section Single

variable {κ ρ : Type*} {p : ρ → Bool} {f : κ → Option ρ} {k : κ}

def Single (p : ρ → Bool) (f : κ → Option ρ) : Prop :=
  ∀ k k' r r', f k = some r → f k' = some r' → p r = true → p r' = true → k = k'

theorem Single.eq_false (h : Single p f) {r r' : ρ} (hr : f k = some r) (hp : p r = true) (hk : k' ≠ k)
    (hr' : f k' = some r') : p r' = false := by
  rw [← Bool.not_eq_true]
  exact fun hp' => hk (h k' k r' r hr' hr hp' hp)

theorem update_none_eq_some [DecidableEq κ] (h : update f k none k' = some r) : k' ≠ k ∧ f k' = some r := by
  by_cases hk : k' = k
  · rw [hk, update_self] at h
    cases h
  · exact ⟨hk, by rwa [update_of_ne hk] at h⟩

theorem Single.erase [DecidableEq κ] (h : Single p f) (k : κ) : Single p (update f k none) := by
  intro k1 k2 r1 r2 h1 h2
  exact h k1 k2 r1 r2 (update_none_eq_some h1).2 (update_none_eq_some h2).2

theorem Single.write [DecidableEq κ] (h : Single p f)
    (hnew : p r = true → ∀ k' r', k' ≠ k → f k' = some r' → p r' = false) :
    Single p (update f k (some r)) := by
  intro k1 k2 r1 r2 h1 h2 hp1 hp2
  by_cases hk1 : k1 = k <;> by_cases hk2 : k2 = k
  · rw [hk1, hk2]
  · rw [hk1, update_self] at h1
    rw [update_of_ne hk2] at h2
    cases h1
    rw [hnew hp1 k2 r2 hk2 h2] at hp2
    cases hp2
  · rw [hk2, update_self] at h2
    rw [update_of_ne hk1] at h1
    cases h2
    rw [hnew hp2 k1 r1 hk1 h1] at hp1
    cases hp1
  · rw [update_of_ne hk1] at h1
    rw [update_of_ne hk2] at h2
    exact h k1 k2 r1 r2 h1 h2 hp1 hp2

end Single

end ReadCommitted
