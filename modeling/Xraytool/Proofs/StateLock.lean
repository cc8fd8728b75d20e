import Xraytool.Spec.StateLock

/-! The lock of the traffic statistics excludes as long as every removal hits the file it is meant for. A removal by the
path that comes late deletes the lock of another holder. -/

namespace Xraytool.StateLock

open Transition List Option

/-- A removal finds the file it is meant for, or none. -/
def RemovesItsOwn (st : Scene) : Label → Prop
  | .remove i false => ∀ file ∈ (st.point i).removes, st.lock = none ∨ st.lock = some file
  | _ => True

instance (st : Scene) (l : Label) : Decidable (RemovesItsOwn st l) := by
  unfold RemovesItsOwn
  split <;> infer_instance

variable {f : LockFile} {p : Point} {i : Nat} {st : Scene}

theorem Point.owns_of_holding (h : f ∈ p.holding) : f ∈ p.owns := by
  cases p <;> first | exact h | cases h

theorem point_goTo (st : Scene) (i : Nat) (p : Point) (j : Nat) :
    (j = i ∧ (st.goTo i p).point j = p) ∨ (st.goTo i p).point j = st.point j := by
  unfold Scene.point Scene.goTo
  by_cases hji : i = j
  · subst hji
    by_cases hlt : i < st.callers.length
    · exact .inl ⟨rfl, by simp [getD_eq_getElem?_getD, hlt]⟩
    · exact .inr (by simp [getD_eq_getElem?_getD, hlt])
  · exact .inr (by simp [getD_eq_getElem?_getD, hji])

/-- Files have one owner each, the file at the path is that of every live holder in `fn` and not stale, and a file once
found stale stays stale. -/
structure Inv (st : Scene) : Prop where
  numbered : ∀ i, ∀ f ∈ (st.point i).owns, f.id < st.nextID
  apart : ∀ i j, ∀ f ∈ (st.point i).owns, ∀ g ∈ (st.point j).owns, f.id = g.id → i = j
  held : ∀ i, ∀ f ∈ (st.point i).holding, st.lock = some f ∧ st.clock - f.modTime ≤ stateLockStaleAfter
  stale : ∀ i, ∀ f ∈ (st.point i).foundStale, stateLockStaleAfter < st.clock - f.modTime

section

variable (h : Inv st)
include h

theorem Inv.goTo (hown : ∀ f ∈ p.owns, f ∈ (st.point i).owns) (hhol : ∀ f ∈ p.holding, f ∈ (st.point i).holding)
    (hst : ∀ f ∈ p.foundStale, stateLockStaleAfter < st.clock - f.modTime) : Inv (st.goTo i p) := by
  have how (j : Nat) : ∀ f ∈ ((st.goTo i p).point j).owns, f ∈ (st.point j).owns := by
    rcases point_goTo st i p j with ⟨rfl, hp⟩ | hp
    · rw [hp]
      exact hown
    · rw [hp]
      exact fun _ hf => hf
  refine ⟨fun j f hf => h.numbered j f (how j f hf),
    fun j k f hf g hg => h.apart j k f (how j f hf) g (how k g hg), fun j f hf => ?_, fun j f hf => ?_⟩
  · rcases point_goTo st i p j with ⟨rfl, hp⟩ | hp
    · exact h.held j f (hhol f (hp ▸ hf))
    · exact h.held j f (hp ▸ hf)
  rcases point_goTo st i p j with ⟨rfl, hp⟩ | hp
  · exact hst f (hp ▸ hf)
  · exact h.stale j f (hp ▸ hf)

theorem Inv.leave (how : p.owns = none) (hst : p.foundStale = none) : Inv (st.goTo i p) := by
  refine h.goTo (by simp [how]) (fun f hf => ?_) (by simp [hst])
  simpa [how] using Point.owns_of_holding hf

/-- An exclusive create: there was no file, so nobody is in `fn`. -/
theorem Inv.create (hlo : st.lock = none) (i : Nat) : Inv { st.goTo i (.closing ⟨st.nextID, st.clock⟩) with
      lock := some ⟨st.nextID, st.clock⟩, nextID := st.nextID + 1 } := by
  have hn (j : Nat) (f : LockFile) (hf : f ∈ (st.point j).holding) : False := by
    simpa [hlo] using (h.held j f hf).1
  have hnew (j : Nat) (f : LockFile) (hf : f ∈ ((st.goTo i (.closing ⟨st.nextID, st.clock⟩)).point j).owns) :
      (j = i ∧ f = ⟨st.nextID, st.clock⟩) ∨ (f ∈ (st.point j).owns ∧ f.id < st.nextID) := by
    rcases point_goTo st i (.closing ⟨st.nextID, st.clock⟩) j with ⟨rfl, hp⟩ | hp
    · rw [hp] at hf
      exact .inl ⟨rfl, (some.inj hf).symm⟩
    · rw [hp] at hf
      exact .inr ⟨hf, h.numbered j f hf⟩
  refine ⟨fun j f hf => ?_, fun j k f hf g hg hid => ?_, fun j f hf => ?_, fun j f hf => ?_⟩
  · rcases hnew j f hf with ⟨-, rfl⟩ | ⟨-, hlt⟩
    · exact Nat.lt_succ_self _
    · exact Nat.lt_succ_of_lt hlt
  · rcases hnew j f hf with ⟨rfl, rfl⟩ | ⟨hf, hlt⟩ <;> rcases hnew k g hg with ⟨rfl, rfl⟩ | ⟨hg, hlt'⟩
    · rfl
    · exact absurd hid (Nat.ne_of_gt hlt')
    · exact absurd hid (Nat.ne_of_lt hlt)
    · exact h.apart j k f hf g hg hid
  · rcases point_goTo st i (.closing ⟨st.nextID, st.clock⟩) j with ⟨-, hp⟩ | hp
    · have hf : f ∈ (Point.closing ⟨st.nextID, st.clock⟩).holding := hp ▸ hf
      cases hf
      refine ⟨rfl, ?_⟩
      change st.clock - st.clock ≤ stateLockStaleAfter
      rw [Int.sub_self]
      decide
    · exact (hn j f (hp ▸ hf)).elim
  · rcases point_goTo st i (.closing ⟨st.nextID, st.clock⟩) j with ⟨-, hp⟩ | hp
    · have hf : f ∈ (Point.closing ⟨st.nextID, st.clock⟩).foundStale := hp ▸ hf
      cases hf
    · exact h.stale j f (hp ▸ hf)

/-- A file may go that no live holder in `fn` has created. -/
theorem Inv.unlock (hfr : ∀ j, ∀ f ∈ (st.point j).holding, st.lock ≠ some f) : Inv { st with lock := none } :=
  { h with held := fun j f hf => absurd (h.held j f hf).1 (hfr j f hf) }

/-- The file a removal is meant for has no live holder in `fn`: it is stale, or its owner is past `fn`. -/
theorem Inv.removes_free (hf : f ∈ (st.point i).removes) (j : Nat) : f ∉ (st.point j).holding := by
  intro hhe
  have how (hown : f ∈ (st.point i).owns) (hpa : (st.point i).holding = none) : False := by
    obtain rfl := h.apart i j f hown f (Point.owns_of_holding hhe) rfl
    rw [hpa] at hhe
    cases hhe
  cases hp : st.point i with
  | removing attempt file =>
    rw [hp] at hf
    obtain rfl := some.inj hf
    have hold := (h.held j file hhe).2
    have hst := h.stale i file (by rw [hp]; rfl)
    exact absurd hold (Int.not_le.2 hst)
  | discarding file | releasing file err => exact how (by rw [hp] at hf ⊢; exact hf) (by rw [hp]; rfl)
  | _ => rw [hp] at hf; cases hf

/-- Time passes, but not past the age at which the lock of a live holder in `fn` is stale. -/
theorem Inv.tick {now : Time} (hnow : st.clock ≤ now)
    (hli : ∀ p ∈ st.callers, ∀ f ∈ p.holding, now - f.modTime ≤ stateLockStaleAfter) :
    Inv { st with clock := now } := by
  refine ⟨h.numbered, h.apart, fun j f hf => ⟨(h.held j f hf).1, ?_⟩, fun j f hf => ?_⟩
  · have hmem : st.point j ∈ st.callers := by
      unfold Scene.point at hf ⊢
      rw [getD_eq_getElem?_getD] at hf ⊢
      cases hj : st.callers[j]? with
      | none => rw [hj] at hf; cases hf
      | some p => exact mem_of_getElem? hj
    exact hli _ hmem f hf
  · exact Int.lt_of_lt_of_le (h.stale j f hf) (Int.sub_le_sub_right hnow _)

end

theorem afterRemoval_none (h : p.removes = some f) : p.afterRemoval.owns = none ∧ p.afterRemoval.foundStale = none := by
  cases p with
  | removing attempt file =>
    dsimp only [Point.afterRemoval]
    split_ifs <;> exact ⟨rfl, rfl⟩
  | discarding file | releasing file err => exact ⟨rfl, rfl⟩
  | _ => cases h

theorem Inv.remove (h : Inv st) (hf : (st.point i).removes = some f) (hown : st.lock = none ∨ st.lock = some f) :
    Inv { st.goTo i (st.point i).afterRemoval with lock := none } := by
  have hfr : ∀ j, ∀ g ∈ (st.point j).holding, st.lock ≠ some g := by
    intro j g hg hlo
    rcases hown with hn | hso
    · simp [hn] at hlo
    · obtain rfl := some.inj (hso.symm.trans hlo)
      exact h.removes_free hf j hg
  have hle := (h.unlock hfr).leave (i := i) (afterRemoval_none hf).1 (afterRemoval_none hf).2
  exact hle

theorem Inv.step {statePath : String} {st' : Scene} {l : Label} (h : Inv st) (hown : RemovesItsOwn st l)
    (hs : lockStep statePath st l = some st') : Inv st' := by
  cases l with
  | call i mkdirFails =>
    simp only [lockStep] at hs
    split at hs
    · split_ifs at hs <;> cases hs <;> exact h.leave rfl rfl
    · split_ifs at hs <;> cases hs <;> exact h.leave rfl rfl
    · cases hs
  | cancelled i err =>
    simp only [lockStep] at hs
    split at hs <;> cases hs <;> exact h.leave rfl rfl
  | openFile i fails =>
    simp only [lockStep] at hs
    split at hs
    · split_ifs at hs
      · cases hs
        exact h.leave rfl rfl
      · split at hs
        · cases hs
          exact h.leave rfl rfl
        · rename_i hlo
          cases hs
          exact h.create hlo i
    · cases hs
  | stat i fails =>
    simp only [lockStep] at hs
    split at hs
    · split at hs
      · split_ifs at hs with hst
        · cases hs
          refine h.goTo nofun nofun fun f hf => ?_
          cases hf
          exact hst.2
        · cases hs
          exact h.leave rfl rfl
      · cases hs
        exact h.leave rfl rfl
    · cases hs
  | timer i =>
    simp only [lockStep] at hs
    split at hs
    · split_ifs at hs <;> cases hs <;> exact h.leave rfl rfl
    · cases hs
  | close i fails =>
    simp only [lockStep] at hs
    split at hs
    · rename_i file hp
      cases hs
      cases fails with
      | true => exact h.goTo (by rw [hp]; exact fun _ hf => hf) nofun nofun
      | false => exact h.goTo (by rw [hp]; exact fun _ hf => hf) (by rw [hp]; exact fun _ hf => hf) nofun
    · cases hs
  | fn i err =>
    simp only [lockStep] at hs
    split at hs
    · rename_i file hp
      cases hs
      exact h.goTo (by rw [hp]; exact fun _ hf => hf) nofun nofun
    · cases hs
  | remove i fails =>
    simp only [lockStep] at hs
    split at hs
    · rename_i file hf
      cases hs
      cases fails with
      | true => exact h.leave (afterRemoval_none hf).1 (afterRemoval_none hf).2
      | false => exact h.remove hf (hown file hf)
    · cases hs
  | crash i =>
    cases hs
    exact h.leave rfl rfl
  | tick now =>
    simp only [lockStep] at hs
    split_ifs at hs with hli
    cases hs
    exact h.tick hli.1 hli.2

def start (n : Nat) (lock : Option LockFile) (clock : Time) : Scene := { lock, clock, callers := List.replicate n .idle }

theorem inv_start {n : Nat} {lock : Option LockFile} {clock : Time} : Inv (start n lock clock) := by
  have hid (i : Nat) : (start n lock clock).point i = .idle := by
    simp [Scene.point, start, getD_eq_getElem?_getD, getElem?_replicate]
    split_ifs <;> rfl
  constructor <;> simp [hid, Point.owns, Point.holding, Point.foundStale]

/-- No two callers are in `fn` at the same time. -/
theorem state_lock_excludes (statePath : String) (n : Nat) (lock : Option LockFile) (clock : Time) {tr : List Label}
    {st : Scene} (hrun : Run (Guarded RemovesItsOwn (stepsTo (lockStep statePath))) (start n lock clock) tr st)
    {i j : Nat} {f g : LockFile} (hi : st.point i = .running f) (hj : st.point j = .running g) : i = j := by
  have hinv := hrun.invariant_of_guard Inv inv_start fun _ _ _ h hown hs => h.step hown hs
  have hlo := (hinv.held i f (by rw [hi]; rfl)).1
  have hlo' := (hinv.held j g (by rw [hj]; rfl)).1
  obtain rfl := some.inj (hlo.symm.trans hlo')
  exact hinv.apart i j f (by rw [hi]; rfl) f (by rw [hj]; rfl) rfl

def crashed : List Label :=
  [.call 0 false, .openFile 0 false, .close 0 false, .crash 0, .tick (180 * Time.second)]

def takesOver (i : Nat) : List Label := [.call i false, .openFile i false, .stat i false]

def removesAndRuns (i : Nat) : List Label := [.remove i false, .openFile i false, .close i false]

theorem state_lock_excludes_takeover : ∃ st,
    Run (Guarded RemovesItsOwn (stepsTo (lockStep "stats"))) (start 2 none 0)
      (crashed ++ takesOver 1 ++ removesAndRuns 1) st ∧
      st.callers = [.crashed, .running ⟨1, 180 * Time.second⟩] ∧ ∀ j g, st.point j = .running g → 1 = j := by
  refine Run.exists_of_guardedExec_imp (by decide) fun st hrun hst => ⟨hst, fun j g hj => ?_⟩
  exact state_lock_excludes "stats" 2 none 0 hrun (i := 1) (by rw [Scene.point, hst]; rfl) hj

/-- Two callers find the file of a crashed one stale. The second removes the lock that the first has created meanwhile.
The same comes of a deferred removal that is late: the lock has been taken over by then. -/
theorem state_lock_taken_twice :
    (∃ st, Run (stepsTo (lockStep "stats")) (start 3 none 0)
      (crashed ++ takesOver 1 ++ takesOver 2 ++ removesAndRuns 1 ++ removesAndRuns 2) st ∧
      st.callers = [.crashed, .running ⟨1, 180 * Time.second⟩, .running ⟨2, 180 * Time.second⟩]) ∧
    ∃ st, Run (stepsTo (lockStep "stats")) (start 3 none 0)
      ([.call 0 false, .openFile 0 false, .close 0 false, .fn 0 none, .tick (180 * Time.second)] ++ takesOver 1 ++
        removesAndRuns 1 ++ [.remove 0 false, .call 2 false, .openFile 2 false, .close 2 false]) st ∧
      st.callers = [.returned none, .running ⟨1, 180 * Time.second⟩, .running ⟨2, 180 * Time.second⟩] :=
  ⟨Run.exists_of_exec (by decide), Run.exists_of_exec (by decide)⟩

end Xraytool.StateLock
