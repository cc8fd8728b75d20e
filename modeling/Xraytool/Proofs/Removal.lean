import Xraytool.Sanity.Removal

/-! A removed user and a concurrent snapshot. The rows may be read between a remove event that the captured revision
covers and the write of its row: then the snapshot brings the user back, and no later event removes it. -/

namespace Xraytool

open Fallible Transition List Xraytool.Task

/-- No row of the email would be listed. -/
def RowClear (env : SnapshotEnv) (s : Store) (email : String) : Prop :=
  ∀ sub ∈ s.subscriptions.rows, sub.email = email → replicated sub → Filtered env s email

/-- The template has no user of the email, unless blacklisted. -/
def TemplateClear (env : SnapshotEnv) (email : String) : Prop :=
  ∀ user ∈ env.template.getD [], user.email = email → email ∈ env.blacklistedAdmins.map trimSpace

/-- The statements of a removal succeed (a bulk removal may give up before it writes a row), and the rows are read
when every removal under way has its event above the captured revision or its row out of the list. -/
def Orderly (s : Scene) : RemovalLabel → Prop
  | .advance i _ _ fails => match s.tasks[i]? with
    | some (.publish _ _) => True
    | _ => ∀ op, fails op = false
  | .read env =>
    (∀ task ∈ s.tasks, ∀ email ∈ task.pending, email ∉ s.touched →
      (∀ revision ∈ s.snapshot.revision, s.RemovedAfter revision email) ∨
        (RowClear env s.store email ∧ TemplateClear env email)) ∧
      ∀ email ∈ s.finished, email ∉ s.touched → TemplateClear env email
  | .startRm _ | .startExpired _ | .other _ _ _ | .capture => True

section Steps

variable {s s' : Scene} {env : SnapshotEnv} {email : String} {store : Store} {task : Task}

theorem snapshot_omits {users : List VPNUserConfig} (hbu : buildSnapshot env store = .ok users)
    (hrow : RowClear env store email) (htem : TemplateClear env email) : email ∉ users.map (·.email) := by
  rw [emails_snapshot hbu]
  rintro (⟨sub, ⟨hsub, hrep, hfil⟩, rfl⟩ | ⟨-, ⟨tmpl, ht, user, hu, hem⟩, hbl, -⟩)
  · exact hfil (hrow sub hsub rfl hrep)
  · obtain ⟨admin, had, heq⟩ := mem_map.1 (htem user (by simpa [ht] using hu) hem)
    exact hbl admin had heq

theorem snapshot_named {users : List VPNUserConfig} (hbu : buildSnapshot env store = .ok users) :
    "" ∉ users.map (·.email) := by
  rw [emails_snapshot hbu]
  rintro (⟨sub, ⟨-, hrep, -⟩, hem⟩ | ⟨hne, -⟩)
  · exact replicated_email hrep hem
  · exact hne rfl

theorem rowClear_of_gone (h : store.Gone email) : RowClear env store email := by
  intro sub hsub hem hrep
  simp only [replicated, Bool.and_eq_true, beq_iff_eq] at hrep
  exact absurd hrep.2 (h sub hsub hem)

theorem onlyRemoves_remove {removed : String} : OnlyRemoves email (.remove removed) := by
  intro h
  exact congrArg JournalEvent.remove (Option.some.inj h)

theorem saved_invariant {sub : Subscription} (now : Time) (h : RemovalInvariant s) (hta : task ∈ s.tasks)
    (hpen : email ∈ task.pending) (how : email ∉ s.touched → s.store.Owns email sub.id) :
    RemovalInvariant ({ s with
      store := s.store.saveSubscription now (UserManagement.setStatusRow "inactive" sub) }.finish email) :=
  h.deactivate (Subscription.keeps_overwrite now _) hta hpen how
    (fun row => ⟨rfl, rfl, by simp [Subscription.overwrite, UserManagement.setStatusRow]⟩)
    fun row hid _ => beq_iff_eq.2 hid

theorem marked_invariant {id : String} (now : Time) (h : RemovalInvariant s) (hta : task ∈ s.tasks)
    (hpen : email ∈ task.pending) (how : email ∉ s.touched → s.store.Owns email id) :
    RemovalInvariant ({ s with store := (s.store.updateStatusIfActive now id "expired").1 }.finish email) :=
  h.deactivate (Subscription.keeps_setStatus now _) hta hpen how
    (fun row => ⟨rfl, rfl, by simp [Subscription.setStatus]⟩) fun row hid hact => by simp [Store.activeWhere, hid, hact]

theorem advance_invariant {task' : Task} {i : Nat} {now : Time} {r : Int} {fails : RemovalOp → Bool}
    (h : RemovalInvariant s) (htas : s.tasks[i]? = some task) (hok : Orderly s (.advance i now r fails))
    (hadv : task.advance now r fails s = some (task', s')) :
    RemovalInvariant { s' with tasks := s'.tasks.set i task' } := by
  have hmem : task ∈ s.tasks := mem_of_getElem? htas
  simp only [Orderly, htas] at hok
  cases task with
  | rm email =>
    simp only [advance, hok, Bool.false_eq_true, or_self, if_false, Option.map_eq_some_iff] at hadv
    obtain ⟨s1, happ, heq⟩ := hadv
    cases heq
    obtain ⟨h1, haf, hta, hph, -, -⟩ := h.append happ fun e _ => onlyRemoves_remove
    refine h1.retask (hta ▸ hmem) (by simp [targets]) ?_
    intro e he
    rw [mem_singleton.1 he, hph]
    exact .inr (haf email rfl)
  | rmLoad email =>
    simp only [advance, hok, issue_false] at hadv
    split at hadv
    · -- there is no row, so none is active
      rename_i e hlo
      cases hadv
      have hgo : s.store.Gone email := by
        intro row hrow hem
        rw [← hem, findLatestByEmail_of_mem hrow] at hlo
        cases hlo
      exact (h.finish (fun _ => hgo) hmem mem_cons_self).retask hmem (by simp [targets])
        (by simp [pending])
    · rename_i sub hlo
      cases hadv
      obtain ⟨hsub, hem⟩ := findLatestByEmail_ok hlo
      refine h.retask hmem ?_ fun e he => .inl he
      intro target htar
      rw [mem_singleton.1 htar]
      refine .inr fun row hrow hrowE => ?_
      exact congrArg Subscription.id
        (s.store.subscriptions.eq_of_clash hrow hsub (.inr (.inl (hrowE.trans hem.symm))))
  | rmSave email sub =>
    simp only [advance, hok, Bool.false_eq_true, if_false, Option.some.injEq, Prod.mk.injEq] at hadv
    obtain ⟨rfl, rfl⟩ := hadv
    have how := h.owned _ hmem (email, sub.id) mem_cons_self
    exact (saved_invariant now h hmem mem_cons_self how).retask hmem (by simp [targets])
      (by simp [pending])
  | publish published rest =>
    cases rest with
    | nil =>
      cases hadv
      exact h.retask hmem (fun target htar => .inl (by simpa [targets] using htar)) fun e he => .inl he
    | cons sub rest =>
      simp only [advance] at hadv
      split at hadv
      · cases hadv
        exact h.retask hmem (by simp [targets]) (by simp [pending])
      obtain ⟨s1, happ, heq⟩ := Option.map_eq_some_iff.1 hadv
      cases heq
      obtain ⟨h1, haf, hta, hph, -, -⟩ := h.append happ fun e _ => onlyRemoves_remove
      refine h1.retask (hta ▸ hmem) (fun target htar => .inl (by simpa [targets] using htar)) ?_
      intro e he
      rw [pending, map_append, mem_append] at he
      rcases he with he | he
      · exact .inl he
      rw [map_singleton, mem_singleton] at he
      rw [he, hph]
      exact .inr (haf sub.email rfl)
  | mark rest =>
    cases rest with
    | nil =>
      cases hadv
      exact h.retask hmem (by simp [targets]) (by simp [pending])
    | cons sub rest =>
      simp only [advance, hok, Bool.false_eq_true, if_false, Option.some.injEq, Prod.mk.injEq] at hadv
      obtain ⟨rfl, rfl⟩ := hadv
      have how := h.owned _ hmem (sub.email, sub.id) mem_cons_self
      exact (marked_invariant now h hmem mem_cons_self how).retask hmem
        (fun target htar => .inl (mem_cons_of_mem _ htar))
        fun e he => .inl (mem_cons_of_mem _ he)
  | done => cases hadv

theorem step_invariant {e : RemovalLabel} (h : RemovalInvariant s) (hok : Orderly s e) (hs : removalStep s e = some s') :
    RemovalInvariant s' := by
  cases e with
  | startRm email =>
    simp only [removalStep] at hs
    split at hs
    · cases hs
    · cases hs
      exact h.start (by simp [targets]) rfl
  | startExpired subs =>
    simp only [removalStep] at hs
    split at hs
    · rename_i hsto
      cases hs
      refine h.start ?_ rfl
      intro target htar
      obtain ⟨sub, hsub, rfl⟩ := mem_map.1 htar
      obtain ⟨row, hrow, hsa⟩ := any_eq_true.1 (all_eq_true.1 hsto sub hsub)
      simp only [Bool.and_eq_true, beq_iff_eq] at hsa
      intro row' hrow' hem
      -- the email is unique, so the stored row is the one that was loaded
      have heq : row' = row := s.store.subscriptions.eq_of_clash hrow' hrow (.inr (.inl (hem.trans hsa.2.symm)))
      rw [heq, hsa.1]
    · cases hs
  | advance i now r fails =>
    obtain ⟨task, hta, hre⟩ := Option.bind_eq_some_iff.1 hs
    obtain ⟨⟨task', s1⟩, hadv, heq⟩ := Option.bind_eq_some_iff.1 hre
    cases heq
    exact advance_invariant h hta hok hadv
  | other touched store evs =>
    simp only [removalStep] at hs
    split at hs
    · rename_i ho
      refine (h.touch ho.1).appendAll hs ?_
      intro row hrow email hfr hwri
      have hon := all_eq_true.1 ho.2 row hrow
      rw [JournalEvent.writesOnly, hwri] at hon
      exact absurd (mem_append_right _ (by simpa using hon)) hfr
    · cases hs
  | capture =>
    cases hs
    exact h.capture
  | read env =>
    simp only [removalStep] at hs
    split at hs
    · rename_i rev users hph hbu
      cases hs
      refine h.read hph (snapshot_named hbu) ?_
      intro email hrem hfr hmem
      rcases hrem with hfin | ⟨task, hta, hpen⟩
      · exact absurd hmem (snapshot_omits hbu (rowClear_of_gone (h.gone email hfin hfr)) (hok.2 email hfin hfr))
      rcases hok.1 task hta email hpen hfr with haf | ⟨hrow, htem⟩
      · exact haf rev (by simp [hph, SnapshotPhase.revision])
      · exact absurd hmem (snapshot_omits hbu hrow htem)
    · cases hs

end Steps

/-- A slave that has not yet seen the events above the revision and has nothing staged under the snapshot's id. -/
structure Slave.Ready (sl : Slave) (id revision : Int) : Prop where
  inbox : ∀ r ∈ sl.inbox, r ≤ revision
  staged : sl.stagedUsers id = fun _ => none

/-- Once a slave has applied the snapshot and every event above its revision, no finished removal that nothing else
touched is among its users. -/
def NoneSurvives (s : Scene) : Prop :=
  ∀ revision users, s.snapshot = .read revision users → ∀ (sl : Slave) (id : Int), sl.Ready id revision →
    ∀ email ∈ s.finished, email ∉ s.touched →
      (sl.afterSnapshot id revision users (s.eventsAbove revision)).users email = none

theorem RemovalInvariant.noneSurvives {s : Scene} (h : RemovalInvariant s) : NoneSurvives s := by
  intro rev users hre sl id hrea email hfin hfr
  have hrev : rev ∈ s.snapshot.revision := by simp [hre, SnapshotPhase.revision]
  refine afterSnapshot_absent hrea.staged hrea.inbox (s.journal.sorted.filter _) ?_ ?_ ?_
  · intro row hrow
    simpa using (mem_filter.1 hrow).2
  · intro row hrow
    obtain ⟨hmem, hab⟩ := mem_filter.1 hrow
    exact h.only rev hrev row hmem (by simpa using hab) email hfr
  intro hlis
  obtain ⟨r, hlt, hr⟩ := h.covered rev users hre email (.inl hfin) hfr hlis
  refine ⟨fun hem => h.named rev users hre (hem ▸ hlis), r, ?_⟩
  exact mem_filter.2 ⟨hr, by simpa using hlt⟩

/-- In every run of orderly steps, from any database and journal, no removed user survives in a snapshot. -/
theorem removed_user_absent (store : Store) (journal : Log JournalEvent) (tr : List RemovalLabel) (s : Scene)
    (hrun : Run (Guarded Orderly (stepsTo removalStep)) { store := store, journal := journal } tr s) :
    NoneSurvives s := by
  refine RemovalInvariant.noneSurvives ?_
  exact hrun.invariant_of_guard RemovalInvariant .initial fun s e s' h hok hs => step_invariant h hok hs

def servedScene : Scene where
  store := {
    subscriptions := .single { id := "s1", userID := "u1", email := "a@x", uuid := "uuid-1", status := "active" } }
  journal := .empty

def plainSnapshot : SnapshotEnv where
  ext := noExternals

def goOn : RemovalLabel := .advance 0 0 1 fun _ => false

/-- The rows are read before the removal records its event; the event then comes after the snapshot. -/
theorem removed_user_absent_late :
    ∃ s, Run (Guarded Orderly (stepsTo removalStep)) servedScene
        [.startRm "a@x", .capture, .read plainSnapshot, goOn, goOn, goOn] s ∧
      s.finished = ["a@x"] ∧ NoneSurvives s := by
  have hrun : ∃ s, Run (Guarded Orderly (stepsTo removalStep)) servedScene
      [.startRm "a@x", .capture, .read plainSnapshot, goOn, goOn, goOn] s ∧ s.finished = ["a@x"] := by
    refine ⟨_, .cons ⟨trivial, rfl⟩ (.cons ⟨trivial, rfl⟩ (.cons ⟨?_, rfl⟩ (.cons ⟨?_, rfl⟩
      (.cons ⟨?_, rfl⟩ (.cons ⟨?_, rfl⟩ .nil))))), rfl⟩
    · exact ⟨by simp [servedScene, pending], by simp [servedScene]⟩
    · exact fun _ => rfl
    · exact fun _ => rfl
    · exact fun _ => rfl
  obtain ⟨s, hrun, hfin⟩ := hrun
  exact ⟨s, hrun, hfin, removed_user_absent _ _ _ s hrun⟩

/-- The event is recorded, the revision captured, the rows read, and only then the row is written. -/
theorem removed_user_survives :
    ∃ s, Run (stepsTo removalStep) servedScene
        [.startRm "a@x", goOn, .capture, .read plainSnapshot, goOn, goOn] s ∧ ¬ NoneSurvives s := by
  have hrun : ∃ s, Run (stepsTo removalStep) servedScene
      [.startRm "a@x", goOn, .capture, .read plainSnapshot, goOn, goOn] s ∧
      (∃ user : VPNUserConfig, user.email = "a@x" ∧ s.snapshot = .read 1 [user]) ∧ s.finished = ["a@x"] ∧
        s.touched = [] ∧ s.eventsAbove 1 = [] :=
    ⟨_, .cons rfl (.cons rfl (.cons rfl (.cons rfl (.cons rfl (.cons rfl .nil))))), ⟨_, rfl, rfl⟩, rfl, rfl, rfl⟩
  obtain ⟨s, hrun, ⟨user, hem, hr⟩, hfin, htou, heve⟩ := hrun
  refine ⟨s, hrun, fun hn => ?_⟩
  have habs := hn 1 [user] hr {} 1 ⟨by simp, rfl⟩ "a@x" (by simp [hfin]) (by simp [htou])
  rw [heve, ← hem] at habs
  have hpre : ((({} : Slave).stageUser 1 user).activateSnapshot 1 1).users user.email = some user := by
    rw [users_activateSnapshot, stagedUsers_stageUser, Function.update_self]
  exact Option.some_ne_none _ (hpre.symm.trans habs)

end Xraytool
