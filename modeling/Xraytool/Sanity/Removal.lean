import Xraytool.Proofs.Snapshot
import Xraytool.Sanity.Replication

/-! Removals during a snapshot: what the slave holds in the end, and the invariant of the interleaved steps. -/

namespace Xraytool

open Fallible List SnapshotPhase

section Slave

variable {sl : Slave} {email : String} {users : List VPNUserConfig}

theorem stagedUsers_foldl {id : Int} :
    (users.foldl (fun sl user => sl.stageUser id user) sl).stagedUsers id = stageAll (sl.stagedUsers id) users := by
  induction users generalizing sl with
  | nil => rfl
  | cons user users ih => rw [foldl_cons, ih, stagedUsers_stageUser]; rfl

variable {users : List VPNUserConfig} {D : String → Option VPNUserConfig} {x : Int}

theorem stageAll_of_notMem (h : email ∉ users.map (·.email)) : stageAll D users email = D email := by
  induction users generalizing D with
  | nil => rfl
  | cons user users ih =>
    rw [map_cons, mem_cons, not_or] at h
    exact (ih h.2).trans (Function.update_of_ne h.1 _ _)

/-- The event removes the email if it writes it at all. -/
def OnlyRemoves (email : String) (event : JournalEvent) : Prop :=
  event.write.map Prod.fst = some email → event = .remove email

variable {event : JournalEvent} {r : Int} {evs : List OutboxRow}

theorem put_none (h : OnlyRemoves email event) (hD : D email = none) : Log.put D event.write email = none := by
  cases event with
  | upsert user =>
    have hne : email ≠ user.email := fun heq => JournalEvent.noConfusion (h (congrArg some heq.symm))
    exact (Function.update_of_ne hne _ _).trans hD
  | remove other =>
    by_cases heq : email = other
    · simp [Log.put, JournalEvent.write, heq]
    · exact (Function.update_of_ne heq _ _).trans hD
  | resnapshot reason | artifact kind data => exact hD

theorem applyEvent_seen (fails : SlaveOp → Bool) (event : JournalEvent) (hr : r ∈ sl.inbox) :
    (sl.applyEvent fails r event).1 = sl := by
  unfold Slave.applyEvent
  split_ifs <;> rfl

theorem applyEvent_absent {fails : SlaveOp → Bool} (h : OnlyRemoves email event) (habs : sl.users email = none) :
    (sl.applyEvent fails r event).1.users email = none := by
  by_cases hr : r ∈ sl.inbox
  · rw [applyEvent_seen fails event hr, habs]
  rcases applyEvent_cases sl fails event hr with heq | ⟨sl', hus, -, -, -, heq | heq⟩
  · rw [heq, habs]
  · rw [heq, hus]
    exact put_none h habs
  · rw [heq]
    exact (congrFun hus email).trans (put_none h habs)

theorem applyEvent_remove (hr : r ∉ sl.inbox) (hem : email ≠ "") :
    (sl.applyEvent (fun _ => false) r (.remove email)).1.users email = none := by
  have hap : sl.applyEvent (fun _ => false) r (.remove email) =
      ({ sl with desired := sl.desired.erase email, inbox := sl.inbox ++ [r], appliedRevision := r }, true) := by
    simp [Slave.applyEvent, Slave.markApplied, hr, hem]
  rw [hap]
  exact AList.lookup_erase _ _

theorem applyEvent_inbox (fails : SlaveOp → Bool) (hx : x ∈ (sl.applyEvent fails r event).1.inbox) :
    x ∈ sl.inbox ∨ x = r := by
  by_cases hr : r ∈ sl.inbox
  · exact .inl (applyEvent_seen fails event hr ▸ hx)
  rcases applyEvent_cases sl fails event hr with heq | ⟨sl', -, -, hin, -, heq | heq⟩
  · exact .inl (by simpa [heq] using hx)
  · exact .inl (by simpa [heq, hin] using hx)
  · simpa [heq, hin] using hx

theorem applyAll_absent (h : ∀ row ∈ evs, OnlyRemoves email row.2) (habs : sl.users email = none) :
    (sl.applyAll evs).users email = none := by
  induction evs generalizing sl with
  | nil => exact habs
  | cons row evs ih =>
    exact ih (fun row' hrow' => h row' (mem_cons_of_mem _ hrow'))
      (applyEvent_absent (h row mem_cons_self) habs)

theorem applyAll_inbox (hx : x ∈ (sl.applyAll evs).inbox) : x ∈ sl.inbox ∨ x ∈ evs.map (·.1) := by
  induction evs generalizing sl with
  | nil => exact .inl hx
  | cons row evs ih =>
    rcases ih hx with h | h
    · rcases applyEvent_inbox _ h with h | rfl
      · exact .inl h
      · exact .inr (by simp)
    · exact .inr (mem_cons_of_mem _ h)

/-- A remove event among the applied ones leaves the email absent if nothing brings it back. -/
theorem applyAll_removed (hsor : evs.Pairwise fun a b => a.1 < b.1)
    (h : ∀ row ∈ evs, OnlyRemoves email row.2) (hnew : ∀ row ∈ evs, row.1 ∉ sl.inbox) (hem : email ≠ "")
    (hmem : (r, JournalEvent.remove email) ∈ evs) : (sl.applyAll evs).users email = none := by
  obtain ⟨before, after, rfl⟩ := append_of_mem hmem
  have hfi : r ∉ (sl.applyAll before).inbox := by
    intro hr
    rcases applyAll_inbox hr with hr | hr
    · exact hnew _ hmem hr
    · obtain ⟨row, hrow, rfl⟩ := mem_map.1 hr
      exact absurd ((pairwise_append.1 hsor).2.2 row hrow _ mem_cons_self) (lt_irrefl _)
  have hsp : sl.applyAll (before ++ (r, .remove email) :: after) =
      ((sl.applyAll before).applyEvent (fun _ => false) r (.remove email)).1.applyAll after := by
    simp [Slave.applyAll, foldl_append]
  rw [hsp]
  exact applyAll_absent (fun row hrow => h row (by simp [hrow])) (applyEvent_remove hfi hem)

/-- An email is absent from a slave that has applied a snapshot and the events above it, if the snapshot does not
list it or one of the events removes it, and none brings it back. -/
theorem afterSnapshot_absent {id rev : Int} (hsta : sl.stagedUsers id = fun _ => none)
    (hin : ∀ x ∈ sl.inbox, x ≤ rev) (hsor : evs.Pairwise fun a b => a.1 < b.1)
    (hab : ∀ row ∈ evs, rev < row.1) (hon : ∀ row ∈ evs, OnlyRemoves email row.2)
    (hlis : email ∈ users.map (·.email) → email ≠ "" ∧ ∃ r, (r, JournalEvent.remove email) ∈ evs) :
    (sl.afterSnapshot id rev users evs).users email = none := by
  have hke (users : List VPNUserConfig) (sl : Slave) :
      (users.foldl (fun sl user => sl.stageUser id user) sl).inbox = sl.inbox := by
    induction users generalizing sl with
    | nil => rfl
    | cons user users ih => exact ih _
  by_cases hmem : email ∈ users.map (·.email)
  · obtain ⟨hem, r, hr⟩ := hlis hmem
    refine applyAll_removed hsor hon ?_ hem hr
    intro row hrow hse
    exact absurd (hin row.1 (hke users sl ▸ hse)) (not_le.2 (hab row hrow))
  · refine applyAll_absent hon ?_
    rw [users_activateSnapshot, stagedUsers_foldl, stageAll_of_notMem hmem, hsta]

end Slave

def Task.pending : Task → List String
  | .rmLoad email | .rmSave email _ => [email]
  | .publish published _ => published.map (·.email)
  | .mark rest => rest.map (·.email)
  | .rm _ | .done => []

/-- The emails of the rows still to be written, each with the id by which the row will be addressed. -/
def Task.targets : Task → List (String × String)
  | .rmSave email sub => [(email, sub.id)]
  | .publish published rest => (published ++ rest).map fun sub => (sub.email, sub.id)
  | .mark rest => rest.map fun sub => (sub.email, sub.id)
  | .rm _ | .rmLoad _ | .done => []

def Store.Owns (s : Store) (email id : String) : Prop := ∀ row ∈ s.subscriptions.rows, row.email = email → row.id = id

def Store.Gone (s : Store) (email : String) : Prop :=
  ∀ row ∈ s.subscriptions.rows, row.email = email → row.status ≠ "active"

/-- A remove event of the email is recorded above the revision. -/
def Scene.RemovedAfter (s : Scene) (revision : Int) (email : String) : Prop :=
  ∃ r, revision < r ∧ (r, JournalEvent.remove email) ∈ s.journal.entries

def Scene.Removing (s : Scene) (email : String) : Prop := email ∈ s.finished ∨ ∃ task ∈ s.tasks, email ∈ task.pending

structure RemovalInvariant (s : Scene) : Prop where
  owned : ∀ task ∈ s.tasks, ∀ target ∈ task.targets, target.1 ∉ s.touched → s.store.Owns target.1 target.2
  gone : ∀ email ∈ s.finished, email ∉ s.touched → s.store.Gone email
  bound : ∀ revision ∈ s.snapshot.revision, revision ≤ s.journal.top
  only : ∀ revision ∈ s.snapshot.revision, ∀ row ∈ s.journal.entries, revision < row.1 →
    ∀ email, email ∉ s.touched → OnlyRemoves email row.2
  named : ∀ revision users, s.snapshot = .read revision users → "" ∉ users.map (·.email)
  /-- an email that the snapshot lists although its removal is under way is removed by a later event -/
  covered : ∀ revision users, s.snapshot = .read revision users → ∀ email, s.Removing email → email ∉ s.touched →
    email ∈ users.map (·.email) → s.RemovedAfter revision email

namespace RemovalInvariant

variable {s s' : Scene} {email : String} {store : Store} {task : Task}

theorem initial {journal : Log JournalEvent} : RemovalInvariant { store := store, journal := journal } where
  owned := by simp
  gone := by simp
  bound := by simp [revision]
  only := by simp [revision]
  named := by simp
  covered := by simp

section

variable (h : RemovalInvariant s)
include h

theorem append {r : Int} {event : JournalEvent} (happ : s.append r event = some s')
    (hev : ∀ email, email ∉ s.touched → OnlyRemoves email event) :
    RemovalInvariant s' ∧ (∀ email, event = .remove email → ∀ rev ∈ s.snapshot.revision, s'.RemovedAfter rev email) ∧
      s'.tasks = s.tasks ∧ s'.snapshot = s.snapshot ∧ s'.store = s.store ∧ s'.touched = s.touched := by
  unfold Scene.append at happ
  split at happ
  · rename_i hr
    cases happ
    refine ⟨⟨h.owned, h.gone, ?_, ?_, h.named, ?_⟩, ?_, rfl, rfl, rfl, rfl⟩
    · intro rev hrev
      rw [Log.top_snoc]
      exact (h.bound rev hrev).trans hr.le
    · intro rev hrev row hrow hlt email hem
      rcases mem_append.1 hrow with hrow | hrow
      · exact h.only rev hrev row hrow hlt email hem
      · rw [mem_singleton.1 hrow]
        exact hev email hem
    · intro rev users hre email hrem hem hmem
      obtain ⟨r', hlt, hr'⟩ := h.covered rev users hre email hrem hem hmem
      exact ⟨r', hlt, mem_append_left _ hr'⟩
    · rintro email rfl rev hrev
      exact ⟨r, (h.bound rev hrev).trans_lt hr, mem_append_right _ mem_cons_self⟩
  · cases happ

theorem restore
    (hro : ∀ row' ∈ store.subscriptions.rows, ∃ row ∈ s.store.subscriptions.rows, row.id = row'.id ∧
      row.email = row'.email ∧ (row'.status = "active" → row.status = "active")) :
    RemovalInvariant { s with store := store } where
  owned := by
    intro task hta target htar hfr row' hrow' hem
    obtain ⟨row, hrow, hid, hma, -⟩ := hro row' hrow'
    exact hid.symm.trans (h.owned task hta target htar hfr row hrow (hma.trans hem))
  gone := by
    intro email hfin hfr row' hrow' hem hact
    obtain ⟨row, hrow, -, hma, hsta⟩ := hro row' hrow'
    exact h.gone email hfin hfr row hrow (hma.trans hem) (hsta hact)
  bound := h.bound
  only := h.only
  named := h.named
  covered := h.covered

theorem finish (hgo : email ∉ s.touched → s.store.Gone email) (hta : task ∈ s.tasks)
    (hpen : email ∈ task.pending) : RemovalInvariant (s.finish email) where
  owned := h.owned
  gone := by
    intro email' hfin hfr
    rcases mem_append.1 hfin with hfin | hfin
    · exact h.gone email' hfin hfr
    · rw [mem_singleton.1 hfin] at hfr ⊢
      exact hgo hfr
  bound := h.bound
  only := h.only
  named := h.named
  covered := by
    intro rev users hr email' hrem hfr hmem
    refine h.covered rev users hr email' ?_ hfr hmem
    rcases hrem with hfin | ho
    · rcases mem_append.1 hfin with hfin | hfin
      · exact .inl hfin
      · rw [mem_singleton.1 hfin]
        exact .inr ⟨task, hta, hpen⟩
    · exact .inr ho

theorem retask {i : Nat} {task' : Task} (hta : task ∈ s.tasks)
    (htarg : ∀ target ∈ task'.targets, target ∈ task.targets ∨ s.store.Owns target.1 target.2)
    (hpen : ∀ email ∈ task'.pending, email ∈ task.pending ∨ ∀ rev ∈ s.snapshot.revision, s.RemovedAfter rev email) :
    RemovalInvariant { s with tasks := s.tasks.set i task' } where
  owned := by
    intro t ht target htar hfr
    rcases mem_or_eq_of_mem_set ht with ht | rfl
    · exact h.owned t ht target htar hfr
    rcases htarg target htar with hold | hnew
    · exact h.owned task hta target hold hfr
    · exact hnew
  gone := h.gone
  bound := h.bound
  only := h.only
  named := h.named
  covered := by
    intro rev users hr email hrem hfr hmem
    have hrev : rev ∈ s.snapshot.revision := by
      have hr : s.snapshot = .read rev users := hr
      simp [hr, revision]
    rcases hrem with hfin | ⟨t, ht, hp⟩
    · exact h.covered rev users hr email (.inl hfin) hfr hmem
    rcases mem_or_eq_of_mem_set ht with ht | rfl
    · exact h.covered rev users hr email (.inr ⟨t, ht, hp⟩) hfr hmem
    rcases hpen email hp with hold | hnew
    · exact h.covered rev users hr email (.inr ⟨task, hta, hold⟩) hfr hmem
    · exact hnew rev hrev

theorem start (htarg : ∀ target ∈ task.targets, s.store.Owns target.1 target.2)
    (hpen : task.pending = []) : RemovalInvariant { s with tasks := s.tasks ++ [task] } where
  owned := by
    intro t ht target htar hfr
    rcases mem_append.1 ht with ht | ht
    · exact h.owned t ht target htar hfr
    · rw [mem_singleton.1 ht] at htar
      exact htarg target htar
  gone := h.gone
  bound := h.bound
  only := h.only
  named := h.named
  covered := by
    intro rev users hr email hrem hfr hmem
    refine h.covered rev users hr email ?_ hfr hmem
    rcases hrem with hfin | ⟨t, ht, hp⟩
    · exact .inl hfin
    rcases mem_append.1 ht with ht | ht
    · exact .inr ⟨t, ht, hp⟩
    · rw [mem_singleton.1 ht, hpen] at hp
      cases hp

theorem touch {touched : List String} (hoth : leavesOthers touched s.store store) :
    RemovalInvariant { s with store := store, touched := s.touched ++ touched } := by
  -- the row of an email that is left alone was there before
  have hold : ∀ row ∈ store.subscriptions.rows, row.email ∉ s.touched ++ touched →
      row ∈ s.store.subscriptions.rows := by
    intro row hrow hfr
    have hke : row ∈ store.subscriptions.rows.filter fun sub => sub.email ∉ touched :=
      mem_filter.2 ⟨hrow, by simpa using fun hmem => hfr (mem_append_right _ hmem)⟩
    have heq : (s.store.subscriptions.rows.filter fun sub => sub.email ∉ touched) =
        store.subscriptions.rows.filter fun sub => sub.email ∉ touched := beq_iff_eq.1 hoth
    rw [← heq] at hke
    exact (mem_filter.1 hke).1
  have hfr {email : String} (hem : email ∉ s.touched ++ touched) : email ∉ s.touched :=
    fun hmem => hem (mem_append_left _ hmem)
  refine ⟨?_, ?_, h.bound, ?_, h.named, ?_⟩
  · intro task hta target htar hem row hrow heq
    exact h.owned task hta target htar (hfr hem) row (hold row hrow (heq ▸ hem)) heq
  · intro email hfin hem row hrow heq
    exact h.gone email hfin (hfr hem) row (hold row hrow (heq ▸ hem)) heq
  · exact fun rev hrev row hrow hlt email hem => h.only rev hrev row hrow hlt email (hfr hem)
  · exact fun rev users hr email hrem hem hmem =>
      h.covered rev users hr email hrem (hfr hem) hmem

theorem appendAll {rows : List OutboxRow} (happ : s.appendAll rows = some s')
    (heve : ∀ row ∈ rows, ∀ email, email ∉ s.touched → OnlyRemoves email row.2) : RemovalInvariant s' := by
  induction rows generalizing s with
  | nil => cases happ; exact h
  | cons row rows ih =>
    obtain ⟨s1, happ1, hre⟩ := Option.bind_eq_some_iff.1 happ
    obtain ⟨h1, -, -, -, -, htou⟩ := h.append happ1 (heve row mem_cons_self)
    refine ih h1 hre ?_
    rw [htou]
    exact fun row' hrow' => heve row' (mem_cons_of_mem _ hrow')

theorem capture : RemovalInvariant { s with snapshot := .captured s.journal.top } where
  owned := h.owned
  gone := h.gone
  bound := by simp [revision]
  only := by
    intro rev hrev row hrow hlt
    obtain rfl : s.journal.top = rev := by simpa [revision] using hrev
    exact absurd (Log.le_top hrow) (not_le.2 hlt)
  named := by simp
  covered := by simp

/-- The rows are read while no removal is between its event and its row, as far as the snapshot lists it. -/
theorem read {rev : Int}
    (hph : s.snapshot = .captured rev) (hna : "" ∉ users.map (·.email))
    (hr : ∀ email, s.Removing email → email ∉ s.touched → email ∈ users.map (·.email) →
      s.RemovedAfter rev email) : RemovalInvariant { s with snapshot := .read rev users } where
  owned := h.owned
  gone := h.gone
  bound := by
    intro rev' hrev
    exact h.bound rev' (by simpa [hph, revision] using hrev)
  only := by
    intro rev' hrev
    exact h.only rev' (by simpa [hph, revision] using hrev)
  named := by
    intro rev' users' hr'
    cases hr'
    exact hna
  covered := by
    intro rev' users' hr' email
    cases hr'
    exact hr email

end

end RemovalInvariant

/-- An update that keeps the identity of the rows and leaves none active that has the `id`. With it the email that owns
the `id` is finished. -/
theorem RemovalInvariant.deactivate {s : Scene} {id email : String} {task : Task} {p : Subscription → Bool}
    {f : Subscription → Subscription} (hf : Table.Keeps Subscription.Clash f) (h : RemovalInvariant s)
    (hta : task ∈ s.tasks) (hpen : email ∈ task.pending) (how : email ∉ s.touched → s.store.Owns email id)
    (hkeeps : ∀ row, (f row).id = row.id ∧ (f row).email = row.email ∧ (f row).status ≠ "active")
    (hall : ∀ row, row.id = id → row.status = "active" → p row) :
    RemovalInvariant ({ s with store := { s.store with
      subscriptions := s.store.subscriptions.updateWhere p f hf } }.finish email) := by
  have hro (row' : Subscription) (hrow' : row' ∈ (s.store.subscriptions.updateWhere p f hf).rows) :
      ∃ row ∈ s.store.subscriptions.rows, row.id = row'.id ∧ row.email = row'.email ∧
        (row'.status = "active" → row.status = "active" ∧ row.id ≠ id) := by
    obtain ⟨row, hrow, rfl⟩ := (Table.mem_updateWhere hf).1 hrow'
    obtain ⟨hid, hem, hsta⟩ := hkeeps row
    refine ⟨row, hrow, ?_⟩
    split_ifs with hsel
    · exact ⟨hid.symm, hem.symm, fun hact => absurd hact hsta⟩
    · exact ⟨rfl, rfl, fun hact => ⟨hact, fun heq => hsel (hall row heq hact)⟩⟩
  refine RemovalInvariant.finish (h.restore fun row' hrow' => ?_) (fun hfr row' hrow' hem hact => ?_) hta hpen
  · obtain ⟨row, hrow, hid, hma, hsta⟩ := hro row' hrow'
    exact ⟨row, hrow, hid, hma, fun hact => (hsta hact).1⟩
  · obtain ⟨row, hrow, -, hma, hsta⟩ := hro row' hrow'
    exact (hsta hact).2 (how hfr row hrow (hma.trans hem))

end Xraytool
