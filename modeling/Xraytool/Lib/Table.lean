import Mathlib.Algebra.Order.Group.Int
import Mathlib.Data.List.Basic
import Mathlib.Data.List.Pairwise

/-! Tables of a relational store. The unique indexes are one relation `clash`, true of two rows that agree on one of
them (a nullable column never clashes on null), and a `Table` carries the proof that no two of its rows clash. The
operations are the SQL statements of a repository. -/

structure Table (ρ : Type*) (clash : ρ → ρ → Prop) where
  rows : List ρ
  distinct : rows.Pairwise fun r r' => ¬ clash r r'

namespace Table

open List

variable {ρ : Type*} {clash : ρ → ρ → Prop}

@[ext] theorem ext {t t' : Table ρ clash} (h : t.rows = t'.rows) : t = t' := by
  cases t; cases t'; cases h; rfl

instance [DecidableEq ρ] : DecidableEq (Table ρ clash) :=
  fun _ _ => decidable_of_iff _ ⟨ext, congrArg rows⟩

def empty : Table ρ clash := ⟨[], .nil⟩

abbrev single (r : ρ) : Table ρ clash := ⟨[r], List.pairwise_singleton _ _⟩

/-- `f` changes no indexed column: what clashes with the new row clashed with the old one. -/
def Keeps (clash : ρ → ρ → Prop) (f : ρ → ρ) : Prop :=
  ∀ r r', (clash (f r) r' → clash r r') ∧ (clash r' (f r) → clash r' r)

/-- `UPDATE … SET f WHERE p`. -/
def updateWhere (t : Table ρ clash) (p : ρ → Bool) (f : ρ → ρ) (hf : Keeps clash f) : Table ρ clash where
  rows := t.rows.map fun r => if p r then f r else r
  distinct := by
    refine List.pairwise_map.2 (t.distinct.imp fun {a b} h hc => h ?_)
    have hleft : clash a (if p b then f b else b) := by
      split_ifs at hc ⊢
      all_goals first | exact (hf a _).1 hc | exact hc
    split_ifs at hleft
    · exact (hf b a).2 hleft
    · exact hleft

/-- `DELETE … WHERE p`. -/
def deleteWhere (t : Table ρ clash) (p : ρ → Bool) : Table ρ clash where
  rows := t.rows.filter fun r => !p r
  distinct := t.distinct.filter _

/-- `INSERT`; `none` is the violation of a unique index. -/
def insert [DecidableRel clash] (t : Table ρ clash) (r : ρ) : Option (Table ρ clash) :=
  if h : ∀ r' ∈ t.rows, ¬ clash r' r then
    some ⟨t.rows ++ [r], List.pairwise_append.2 ⟨t.distinct, List.pairwise_singleton _ _, by simpa using h⟩⟩
  else none

/-- `UPDATE … SET f WHERE p` where `f` may change indexed columns; `none` is the violation of a unique index. -/
def tryUpdate [DecidableRel clash] (t : Table ρ clash) (p : ρ → Bool) (f : ρ → ρ) : Option (Table ρ clash) :=
  let rows := t.rows.map fun r => if p r then f r else r
  if h : rows.Pairwise fun r r' => ¬ clash r r' then some ⟨rows, h⟩ else none

/-- The next value of an auto-increment column. -/
def nextKey (t : Table ρ clash) (key : ρ → Int) : Int := (t.rows.map key).foldl max 0 + 1

def affected (t : Table ρ clash) (p : ρ → Bool) : Nat := t.rows.countP p

/-- `before` decides `ORDER BY`; of two rows it does not separate, the one stored first wins. -/
def firstBy (before : ρ → ρ → Bool) : List ρ → Option ρ
  | [] => none
  | r :: rs => match firstBy before rs with
    | none => some r
    | some r' => if before r' r then some r' else some r

/-- `SELECT … WHERE p ORDER BY before LIMIT 1`. -/
def first (t : Table ρ clash) (before : ρ → ρ → Bool) (p : ρ → Bool) : Option ρ :=
  firstBy before (t.rows.filter p)

variable {r r' : ρ} {t : Table ρ clash} {p : ρ → Bool} {f g : ρ → ρ} {before : ρ → ρ → Bool} {t' : Table ρ clash}
  {l : List ρ} {β : Type*}

theorem eq_of_clash [Std.Symm clash] (t : Table ρ clash) (hr : r ∈ t.rows) (hr' : r' ∈ t.rows) (h : clash r r') :
    r = r' := by
  have : Std.Symm fun r r' => ¬ clash r r' := ⟨fun a b hab hba => hab (Std.Symm.symm _ _ hba)⟩
  by_contra hne
  exact t.distinct.forall hr hr' hne h

theorem mem_updateWhere (hf : Keeps clash f) :
    r' ∈ (t.updateWhere p f hf).rows ↔ ∃ r ∈ t.rows, (if p r then f r else r) = r' := by
  simp [updateWhere]

theorem mem_deleteWhere : r ∈ (t.deleteWhere p).rows ↔ r ∈ t.rows ∧ ¬ p r := by
  simp [deleteWhere]

/-- A column that the update leaves alone reads as before. -/
theorem map_updateWhere {g : ρ → β} (hf : Keeps clash f) (hg : ∀ r, g (f r) = g r) :
    (t.updateWhere p f hf).rows.map g = t.rows.map g := by
  simp only [updateWhere, map_map]
  refine map_congr_left fun r _ => ?_
  simp only [Function.comp_apply]
  split_ifs
  · exact hg r
  · rfl

theorem exists_of_mem_updateWhere (g : ρ → β) (hf : Keeps clash f) (hg : ∀ r, g (f r) = g r)
    (h : r' ∈ (t.updateWhere p f hf).rows) : ∃ r ∈ t.rows, g r = g r' := by
  have hmem := mem_map_of_mem (f := g) h
  rw [map_updateWhere hf hg] at hmem
  exact mem_map.1 hmem

theorem updateWhere_congr {p' : ρ → Bool} (hf : Keeps clash f) (h : ∀ r ∈ t.rows, p r = p' r) :
    t.updateWhere p f hf = t.updateWhere p' f hf :=
  ext (map_congr_left fun r hr => by rw [h r hr])

theorem updateWhere_eq_self (hf : Keeps clash f) (h : ∀ r ∈ t.rows, ¬ p r) : t.updateWhere p f hf = t := by
  refine ext ?_
  calc (t.updateWhere p f hf).rows
      = t.rows.map id := map_congr_left fun r hr => if_neg (h r hr)
    _ = t.rows := map_id _

theorem Keeps.comp (hg : Keeps clash g) (hf : Keeps clash f) : Keeps clash (g ∘ f) := by
  intro r r'
  exact ⟨fun h => (hf r r').1 ((hg (f r) r').1 h), fun h => (hf r r').2 ((hg (f r) r').2 h)⟩

theorem updateWhere_updateWhere (hf : Keeps clash f) (hg : Keeps clash g) (hp : ∀ r, p (f r) = p r) :
    (t.updateWhere p f hf).updateWhere p g hg = t.updateWhere p (g ∘ f) (hg.comp hf) := by
  refine ext ?_
  simp only [updateWhere, map_map]
  refine map_congr_left fun r _ => ?_
  by_cases hr : p r
  · simp [hr, hp]
  · simp [hr]

theorem affected_pos : 0 < t.affected p ↔ ∃ r ∈ t.rows, p r := by
  simp [affected, countP_pos_iff]

theorem affected_le_one (hre : ∀ r, clash r r) (h : ∀ r ∈ t.rows, ∀ r' ∈ t.rows, p r → p r' → r = r') :
    t.affected p ≤ 1 := by
  rw [affected, countP_eq_length_filter]
  have hdis : (t.rows.filter p).Pairwise fun r r' => ¬ clash r r' := t.distinct.filter p
  have hmem : ∀ r ∈ t.rows.filter p, r ∈ t.rows ∧ p r := fun r hr => mem_filter.1 hr
  match hro : t.rows.filter p with
  | [] => simp
  | [_] => simp
  | r :: r' :: rest =>
    rw [hro] at hdis hmem
    obtain ⟨hr, hpr⟩ := hmem r (by simp)
    obtain ⟨hr', hpr'⟩ := hmem r' (by simp)
    have hcl := (pairwise_cons.1 hdis).1 r' (by simp)
    exact absurd (h r hr r' hr' hpr hpr' ▸ hre r) hcl

theorem foldl_max_le {keys : List Int} {m b : Int} : keys.foldl max m ≤ b ↔ m ≤ b ∧ ∀ k ∈ keys, k ≤ b := by
  induction keys generalizing m with
  | nil => simp
  | cons k keys ih => simp [ih, and_assoc]

theorem key_lt_nextKey {key : ρ → Int} (hr : r ∈ t.rows) : key r < t.nextKey key :=
  Int.lt_add_one_of_le ((foldl_max_le.1 le_rfl).2 _ (mem_map_of_mem hr))

theorem insert_eq_some [DecidableRel clash] (h : t.insert r = some t') :
    (∀ r' ∈ t.rows, ¬ clash r' r) ∧ t'.rows = t.rows ++ [r] := by
  unfold insert at h
  split_ifs at h with hfr
  cases h
  exact ⟨hfr, rfl⟩

theorem rows_of_tryUpdate [DecidableRel clash] (h : t.tryUpdate p f = some t') :
    t'.rows = t.rows.map fun r => if p r then f r else r := by
  unfold tryUpdate at h
  dsimp only at h
  split_ifs at h
  cases h
  rfl

theorem insert_of_fresh [DecidableRel clash] (h : ∀ r' ∈ t.rows, ¬ clash r' r) :
    ∃ t', t.insert r = some t' ∧ t'.rows = t.rows ++ [r] := by
  rw [insert, dif_pos h]
  exact ⟨_, rfl, rfl⟩

theorem firstBy_mem (h : firstBy before l = some r) : r ∈ l := by
  induction l generalizing r with
  | nil => simp [firstBy] at h
  | cons a l ih =>
    rw [firstBy] at h
    split at h
    · exact Option.some.inj h ▸ mem_cons_self
    rename_i r' hr'
    split_ifs at h
    · exact mem_cons_of_mem _ (Option.some.inj h ▸ ih hr')
    · exact Option.some.inj h ▸ mem_cons_self

theorem firstBy_eq_none : firstBy before l = none ↔ l = [] := by
  cases l with
  | nil => simp [firstBy]
  | cons a l =>
    rw [firstBy]
    split
    · simp
    · split_ifs <;> simp

theorem first_eq_some (h : t.first before p = some r) : r ∈ t.rows ∧ p r := mem_filter.1 (firstBy_mem h)

theorem first_eq_none : t.first before p = none ↔ ∀ r ∈ t.rows, ¬ p r := by
  simp [first, firstBy_eq_none, filter_eq_nil_iff]

theorem firstBy_map (hbef : ∀ r r', before (g r) (g r') = before r r') :
    firstBy before (l.map g) = (firstBy before l).map g := by
  induction l with
  | nil => rfl
  | cons a l ih =>
    rw [map_cons, firstBy, firstBy, ih]
    cases firstBy before l with
    | none => rfl
    | some r =>
      simp only [Option.map_some, hbef]
      split_ifs <;> rfl

/-- An update of columns that the condition and the order do not read selects the same row. -/
theorem first_updateWhere {c : ρ → Bool} (hf : Keeps clash f) (hp : ∀ r, p (f r) = p r)
    (hleft : ∀ r r', before (f r) r' = before r r') (hri : ∀ r r', before r (f r') = before r r') :
    (t.updateWhere c f hf).first before p = (t.first before p).map fun r => if c r then f r else r := by
  have hco : ∀ r, p (if c r then f r else r) = p r := by
    intro r
    split_ifs
    · exact hp r
    · rfl
  rw [first, first, updateWhere, filter_map, ← firstBy_map]
  · exact congrArg (fun q => firstBy before ((t.rows.filter q).map _)) (funext hco)
  intro r r'
  split_ifs
  · rw [hleft, hri]
  · exact hleft r r'
  · exact hri r r'
  · rfl

/-- A condition that only one row meets selects that row, in any order. -/
theorem first_of_unique (hr : r ∈ t.rows) (hp : p r) (hun : ∀ r' ∈ t.rows, p r' → r' = r) :
    t.first before p = some r := by
  cases h : t.first before p with
  | none => exact absurd hp (first_eq_none.1 h r hr)
  | some r' =>
    obtain ⟨hmem, hp'⟩ := first_eq_some h
    rw [hun r' hmem hp']

end Table
