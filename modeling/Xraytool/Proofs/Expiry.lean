import Xraytool.Sanity.Panel

/-! A renewed subscription and the worker that expires subscriptions. The pass decides on rows it has read before the
engine call, and its update of a row looks at the status alone. -/

namespace Xraytool

open Fallible Transition List

def ExpiryPhase.pending : ExpiryPhase → List Subscription
  | .loaded subs | .expired subs | .marking subs => subs
  | .start | .done => []

def ExpiryPhase.toMark : ExpiryPhase → List Subscription
  | .expired subs | .marking subs => subs
  | .start | .loaded _ | .done => []

/-- A subscription that ends after its status update is not expired. -/
def RenewedStay (st : ExpiryScene) : Prop := ∀ u ∈ st.updates, ∀ row ∈ st.store.subscriptions.rows, row.id = u.1 →
  ∀ endsAt ∈ row.endsAt, u.2 < endsAt → row.status ≠ "expired"

/-- The status update finds the end that the pass read. -/
def ExpiryLabel.FindsRead (st : ExpiryScene) : ExpiryLabel → Prop
  | .updateStatus _ _ => ∀ sub ∈ st.phase.toMark.head?, ∀ row ∈ st.store.subscriptions.rows,
    row.id = sub.id → row.endsAt = sub.endsAt
  | .findByStatus _ | .walk _ | .removeUsersBulk _ | .renew _ => True

structure PassInv (st : ExpiryScene) : Prop where
  start : st.phase = .start → st.updates = []
  active : ∀ sub ∈ st.phase.pending, ∀ row ∈ st.store.subscriptions.rows, row.id = sub.id → row.status = "active"
  distinct : (st.phase.pending.map (·.id)).Nodup
  expired : ∀ sub ∈ st.phase.toMark, isExpired st.clock sub
  fresh : ∀ u ∈ st.updates, u.1 ∉ st.phase.pending.map (·.id)
  stay : RenewedStay st

theorem subscription_ids_nodup {s : Store} : (s.subscriptions.rows.map (·.id)).Nodup :=
  pairwise_map.2 (s.subscriptions.distinct.imp fun h heq => h (.inl heq))

variable {sub : Subscription} {now : Time} {st : ExpiryScene}

theorem isExpired_mono {now' : Time} (hle : now ≤ now') (h : isExpired now sub) : isExpired now' sub := by
  unfold isExpired at *
  rw [Option.any_eq_true_iff_get] at *
  obtain ⟨hso, h⟩ := h
  refine ⟨hso, ?_⟩
  rw [decide_eq_true_eq] at *
  exact Int.le_trans h hle

theorem not_lt_of_isExpired {endsAt : Time} (h : isExpired now sub) (he : endsAt ∈ sub.endsAt) : ¬ now < endsAt := by
  unfold isExpired at h
  rw [Option.mem_def.1 he, Option.any_some, decide_eq_true_eq] at h
  exact Int.not_lt.2 h

theorem PassInv.findByStatus (hst : PassInv st) (hph : st.phase = .start) :
    PassInv { st with phase := .loaded (st.store.findByStatus "active") } := by
  have hn := hst.start hph
  refine ⟨nofun, ?_, ?_, nofun, by simp [hn], by simp [RenewedStay, hn]⟩
  · intro sub hsub row hrow hid
    obtain ⟨hmem, hact⟩ := mem_filter.1 hsub
    obtain rfl := st.store.subscriptions.eq_of_clash hrow hmem (.inl hid)
    simpa using hact
  · exact subscription_ids_nodup.sublist (filter_sublist.map _)

variable {subs rest : List Subscription} {s s' : Store} {row' : Subscription} {c : RenewCall}

section

variable (hst : PassInv st)
include hst

theorem PassInv.walk (hph : st.phase = .loaded subs) (env : ExpiryEnv) : PassInv { st with
      store := walkSubscriptions env subs st.store
      clock := env.now
      phase := .expired (subs.filter (isExpired env.now)) } := by
  obtain ⟨-, hact, hdis, -, hfr, hsta⟩ := hst
  rw [hph] at hact hdis hfr
  refine ⟨nofun, ?_, hdis.sublist (filter_sublist.map _), ?_, ?_, ?_⟩
  · intro sub hsub row hrow
    rw [walkSubscriptions_subscriptions] at hrow
    exact hact sub (mem_of_mem_filter hsub) row hrow
  · exact fun sub hsub => (mem_filter.1 hsub).2
  · intro u hu hmem
    exact hfr u hu ((filter_sublist.map _).subset hmem)
  intro u hu row hrow
  rw [walkSubscriptions_subscriptions] at hrow
  exact hsta u hu row hrow

theorem PassInv.done : PassInv { st with phase := .done } :=
  ⟨nofun, nofun, nodup_nil, nofun, fun _ _ => not_mem_nil, hst.stay⟩

theorem PassInv.removeUsersBulk (hph : st.phase = .expired subs) : PassInv { st with phase := .marking subs } := by
  obtain ⟨-, hact, hdis, hexp, hfr, hsta⟩ := hst
  rw [hph] at hact hdis hexp hfr
  exact ⟨nofun, hact, hdis, hexp, hfr, hsta⟩

theorem PassInv.skip (hph : st.phase = .marking (sub :: rest)) (hnow : st.clock ≤ now) :
    PassInv { st with clock := now, phase := .marking rest } := by
  obtain ⟨-, hact, hdis, hexp, hfr, hsta⟩ := hst
  rw [hph] at hact hdis hexp hfr
  refine ⟨nofun, fun sub' hsub' => hact sub' (mem_cons_of_mem _ hsub'), (nodup_cons.1 hdis).2, ?_, ?_, hsta⟩
  · exact fun sub' hsub' => isExpired_mono hnow (hexp sub' (mem_cons_of_mem _ hsub'))
  · exact fun u hu hmem => hfr u hu (mem_cons_of_mem _ hmem)

end

theorem mem_updateStatusIfActive {id status : String} :
    row' ∈ (s.updateStatusIfActive now id status).1.subscriptions.rows ↔ ∃ row ∈ s.subscriptions.rows,
      (if Store.activeWhere id row then row.setStatus now status else row) = row' :=
  Table.mem_updateWhere (Subscription.keeps_setStatus now status)

theorem PassInv.updateStatus (hst : PassInv st) (hph : st.phase = .marking (sub :: rest)) (hnow : st.clock ≤ now)
    (hr : ∀ row ∈ st.store.subscriptions.rows, row.id = sub.id → row.endsAt = sub.endsAt) : PassInv { st with
      store := (st.store.updateStatusIfActive now sub.id "expired").1
      clock := now
      phase := .marking rest
      updates := st.updates ++ [(sub.id, now)] } := by
  have hsk := hst.skip hph hnow
  obtain ⟨-, hact, hdis, hexp, hfr, hsta⟩ := hst
  rw [hph] at hact hdis hexp hfr
  have hnew : sub.id ∉ rest.map (·.id) := (nodup_cons.1 hdis).1
  -- a row other than the one marked is as it was
  have ho {row' : Subscription} (hne : row'.id ≠ sub.id)
      (hrow' : row' ∈ (st.store.updateStatusIfActive now sub.id "expired").1.subscriptions.rows) :
      row' ∈ st.store.subscriptions.rows := by
    obtain ⟨row, hrow, rfl⟩ := mem_updateStatusIfActive.1 hrow'
    split_ifs at hne ⊢ with hco
    · have hid : row.id = sub.id := by simpa using (Bool.and_eq_true_iff.1 hco).1
      exact absurd hid hne
    · exact hrow
  refine ⟨nofun, ?_, hsk.distinct, hsk.expired, ?_, ?_⟩
  · intro sub' hsub' row' hrow' hid
    have hne : row'.id ≠ sub.id := fun heq => hnew (heq ▸ hid ▸ mem_map_of_mem hsub')
    exact hsk.active sub' hsub' row' (ho hne hrow') hid
  · intro u hu
    rcases mem_append.1 hu with hu | hu
    · exact hsk.fresh u hu
    · obtain rfl := mem_singleton.1 hu
      exact hnew
  · intro u hu row' hrow' hid endsAt hend hla
    by_cases hsub : row'.id = sub.id
    · -- the marked row has expired; an earlier update of the same row does not exist
      obtain ⟨row, hrow, rfl⟩ := mem_updateStatusIfActive.1 hrow'
      rcases mem_append.1 hu with hu | hu
      · exact absurd (by rw [← hid, hsub]; exact mem_cons_self) (hfr u hu)
      obtain rfl := mem_singleton.1 hu
      have hid' : row.id = sub.id := by
        split_ifs at hsub <;> exact hsub
      have hend' : endsAt ∈ sub.endsAt := by
        rw [← hr row hrow hid']
        split_ifs at hend <;> exact hend
      have hsubE := isExpired_mono hnow (hexp sub mem_cons_self)
      exact absurd hla (not_lt_of_isExpired hsubE hend')
    · rcases mem_append.1 hu with hu | hu
      · exact hsta u hu row' (ho hsub hrow') hid endsAt hend hla
      · obtain rfl := mem_singleton.1 hu
        exact absurd hid hsub

theorem renewCall_rows (h : c.apply s = .ok s') (hrow' : row' ∈ s'.subscriptions.rows) :
    row'.status = "active" ∨ row' ∈ s.subscriptions.rows := by
  obtain ⟨sub, endsAt, metadata, users, notifications, -, -, -, rfl⟩ := autoRenew_ok h
  obtain ⟨row, hrow, rfl⟩ := (Table.mem_updateWhere (keeps_renewedRow _ _ _ _)).1 hrow'
  split_ifs
  · exact .inl rfl
  · exact .inr hrow

theorem PassInv.renew (hst : PassInv st) (hnow : st.clock ≤ c.now) (h : c.apply st.store = .ok s') :
    PassInv { st with store := s', clock := c.now } := by
  obtain ⟨hstar, hact, hdis, hexp, hfr, hstay⟩ := hst
  refine ⟨hstar, ?_, hdis, fun sub hsub => isExpired_mono hnow (hexp sub hsub), hfr, ?_⟩
  · intro sub hsub row' hrow' hid
    rcases renewCall_rows h hrow' with hsta | hrow
    · exact hsta
    · exact hact sub hsub row' hrow hid
  · intro u hu row' hrow' hid endsAt hend hla
    rcases renewCall_rows h hrow' with hsta | hrow
    · simp [hsta]
    · exact hstay u hu row' hrow hid endsAt hend hla

theorem PassInv.tick (hst : PassInv st) (hnow : st.clock ≤ now) : PassInv { st with clock := now } :=
  { hst with expired := fun sub hsub => isExpired_mono hnow (hst.expired sub hsub) }

theorem expiryStep_inv {st' : ExpiryScene} {e : ExpiryLabel} (h : expiryStep st e = some st')
    (hr : e.FindsRead st) (hst : PassInv st) : PassInv st' := by
  cases e with
  | findByStatus fails =>
    dsimp only [expiryStep] at h
    split at h
    · rename_i hph
      cases h
      split_ifs
      · exact hst.done
      · exact hst.findByStatus hph
    · cases h
  | walk env =>
    dsimp only [expiryStep] at h
    split at h
    · rename_i subs hph
      split_ifs at h with hnow hn
      · cases h
        exact (hst.walk hph env).done
      · cases h
        exact hst.walk hph env
    · cases h
  | removeUsersBulk fails =>
    dsimp only [expiryStep] at h
    split at h
    · rename_i subs hph
      cases h
      split_ifs
      · exact hst.done
      · exact hst.removeUsersBulk hph
    · cases h
  | updateStatus now fails =>
    dsimp only [expiryStep] at h
    split at h
    · rename_i sub rest hph
      split_ifs at h with hba hfa
      · cases h
        exact hst.skip hph (Int.not_lt.1 hba)
      cases h
      refine hst.updateStatus hph (Int.not_lt.1 hba) ?_
      exact hr sub (by simp [hph, ExpiryPhase.toMark])
    · cases h
  | renew call =>
    dsimp only [expiryStep] at h
    split_ifs at h with hnow
    split at h
    · rename_i s' hap
      cases h
      exact hst.renew hnow hap
    · cases h
      exact hst.tick hnow

/-- In every run of one pass with renewals in which each status update finds the end that the pass read, a subscription
that ends after its status update is never expired. -/
theorem renewed_never_expired (s₀ : Store) (t₀ : Time) (tr : List ExpiryLabel) (st : ExpiryScene)
    (h : Run (Guarded (fun st e => ExpiryLabel.FindsRead st e) (stepsTo expiryStep)) ⟨s₀, t₀, .start, []⟩ tr st) :
    RenewedStay st := by
  have hin : PassInv ⟨s₀, t₀, .start, []⟩ := ⟨fun _ => rfl, nofun, nodup_nil, nofun, nofun, nofun⟩
  refine PassInv.stay (h.invariant_of_guard PassInv hin ?_)
  intro st e st' hst hr hs
  exact expiryStep_inv hs hr hst

instance (st : ExpiryScene) (e : ExpiryLabel) : Decidable (e.FindsRead st) := by
  unfold ExpiryLabel.FindsRead
  split <;> infer_instance

def endsAtTen : Store where
  users := .single { id := "u1" }
  subscriptions := .single
    { id := "s1", userID := "u1", email := "m1", uuid := "c1", status := "active", endsAt := some 10 }

def renewUntilThousand (now : Time) : ExpiryLabel := .renew { now := now, userID := "u1", newEndsAt := some 1000 }

theorem renewed_never_expired_after_pass : ∃ st,
    Run (Guarded (fun st e => ExpiryLabel.FindsRead st e) (stepsTo expiryStep)) ⟨endsAtTen, 0, .start, []⟩
      [.findByStatus false, .walk { now := 20 }, .removeUsersBulk false, .updateStatus 21 false,
        renewUntilThousand 22] st ∧
      st.updates = [("s1", 21)] ∧
      (st.store.subscriptions.rows.map fun row => (row.status, row.endsAt)) = [("active", some 1000)] ∧
      RenewedStay st := by
  exact Run.exists_of_guardedExec_imp (P := fun st => st.updates = [("s1", 21)] ∧
      (st.store.subscriptions.rows.map fun row => (row.status, row.endsAt)) = [("active", some 1000)])
    (by decide +kernel) fun st hrun ⟨hupd, hro⟩ => ⟨hupd, hro, renewed_never_expired endsAtTen 0 _ st hrun⟩

/-- The renewal commits while the worker removes the user from the engine; the worker then expires the renewed row. -/
theorem renewed_row_expired : ∃ st,
    Run (stepsTo expiryStep) ⟨endsAtTen, 0, .start, []⟩
      [.findByStatus false, .walk { now := 20 }, renewUntilThousand 21, .removeUsersBulk false,
        .updateStatus 22 false] st ∧
      st.updates = [("s1", 22)] ∧
      (st.store.subscriptions.rows.map fun row => (row.id, row.status, row.endsAt)) = [("s1", "expired", some 1000)] ∧
      ¬ RenewedStay st := by
  refine Run.exists_of_exec_imp (P := fun st => st.updates = [("s1", 22)] ∧
      (st.store.subscriptions.rows.map fun row => (row.id, row.status, row.endsAt)) =
        [("s1", "expired", some 1000)]) (by decide +kernel) fun st hrun ⟨hupd, hro⟩ => ⟨hupd, hro, fun hsta => ?_⟩
  have hmem : ("s1", "expired", some 1000) ∈ st.store.subscriptions.rows.map fun row =>
    (row.id, row.status, row.endsAt) := by
    simp [hro]
  obtain ⟨row, hrow, heq⟩ := mem_map.1 hmem
  simp only [Prod.mk.injEq] at heq
  exact hsta ("s1", 22) (by simp [hupd]) row hrow heq.1 1000 heq.2.2 (by decide) heq.2.1

/-! The warnings sent for one subscription. The call that sends a warning records the longer ones as well, so a longer
one can only follow where its insert failed and that of the shorter one did not. -/

def Recorded (s : Store) (subID level : String) : Prop :=
  ∃ n ∈ s.notifications.rows, n.subscriptionID = subID ∧ n.warningLevel = level

theorem createNotification_spec (now : Time) (subID level : String) :
    ((s.createNotification now subID level).2 = true → ¬ Recorded s subID level) ∧
      ∀ l, Recorded (s.createNotification now subID level).1 subID l ↔ Recorded s subID l ∨ l = level := by
  unfold Store.createNotification
  cases hins : s.notifications.insert ⟨subID, level, now⟩ with
  | none =>
    have hre : Recorded s subID level := by
      by_contra hno
      obtain ⟨t, ht, -⟩ := Table.insert_of_fresh (r := (⟨subID, level, now⟩ : SubscriptionNotification))
        fun n hn hcl => hno ⟨n, hn, hcl⟩
      simp [hins] at ht
    exact ⟨nofun, fun l => ⟨.inl, fun h => h.elim id (· ▸ hre)⟩⟩
  | some t =>
    obtain ⟨hfresh, hrows⟩ := Table.insert_eq_some hins
    refine ⟨fun _ ⟨n, hn, hcl⟩ => hfresh n hn hcl, fun l => ?_⟩
    simp [Recorded, hrows, or_and_right, exists_or, eq_comm]

def Due (env : ExpiryEnv) (sub : Subscription) (timeLeft : Int) (l : String) (d : Int) : Prop :=
  timeLeft ≤ d ∧ env.fails (.createNotification sub.id l) = false

/-- A call records the warnings that are due, and the one that it sends was not recorded. -/
theorem handleWarnings_spec (env : ExpiryEnv) (sub : Subscription) (timeLeft : Int) (s : Store) :
    ∃ acc : Store × Option (String × Int), handleWarnings env sub timeLeft s = (acc.1, acc.2.map (·.1)) ∧
      (∀ l, Recorded acc.1 sub.id l ↔ Recorded s sub.id l ∨ ∃ d, (l, some d) ∈ env.warnings ∧ Due env sub timeLeft l d) ∧
      ∀ l d, acc.2 = some (l, d) → (l, some d) ∈ env.warnings ∧ Due env sub timeLeft l d ∧ ¬ Recorded s sub.id l := by
  refine ⟨_, by unfold handleWarnings; rfl, ?_⟩
  generalize env.warnings = ws
  induction ws using reverseRecOn with
  | nil => simp
  | append_singleton ws w ih =>
    rw [foldl_append]
    generalize foldl _ (s, none) ws = acc at ih ⊢
    obtain ⟨hrec, hsent⟩ := ih
    obtain ⟨level, _ | duration⟩ := w
    · simpa using ⟨hrec, hsent⟩
    dsimp only [foldl_cons, foldl_nil]
    obtain ⟨hins, hnew⟩ := createNotification_spec (s := acc.1) env.now sub.id level
    split_ifs with hsk hsh
    · exact ⟨by grind [Due], by grind⟩
    · refine ⟨by grind [Due], fun l d hl => ?_⟩
      -- a row was inserted, so the level was not recorded
      cases hl
      grind [Due]
    · exact ⟨by grind [Due], by grind⟩

/-- The levels sent by calls with the time left at each. -/
def warningsRun (sub : Subscription) : List (ExpiryEnv × Int) → Store → List String
  | [], _ => []
  | (env, timeLeft) :: calls, s =>
    let (s, level) := handleWarnings env sub timeLeft s
    level.toList ++ warningsRun sub calls s

/-- A failed insert takes with it those of the warnings that are due and not longer. -/
def FailsDown (parse : String → Option Int) (levels : List String) (sub : Subscription)
    (call : ExpiryEnv × Int) : Prop :=
  ∀ l ∈ levels, ∀ l' ∈ levels, ∀ d d', parse l = some d → parse l' = some d' → call.2 ≤ d' → d' ≤ d →
    call.1.fails (.createNotification sub.id l) = true → call.1.fails (.createNotification sub.id l') = true

section

variable {parse : String → Option Int} {levels : List String} {calls : List (ExpiryEnv × Int)}
  (hconfig : ∀ call ∈ calls, call.1.warnings = levels.map fun l => (l, parse l))
include hconfig

theorem warningsRun_unrecorded {l : String} (hl : l ∈ warningsRun sub calls s) :
    ∃ d, (l ∈ levels ∧ parse l = some d) ∧ ¬ Recorded s sub.id l := by
  induction calls generalizing s with
  | nil => cases hl
  | cons call calls ih =>
    obtain ⟨hcall, hrest⟩ := forall_mem_cons.1 hconfig
    obtain ⟨acc, heq, hrec, hsent⟩ := handleWarnings_spec call.1 sub call.2 s
    rw [warningsRun, heq] at hl
    rcases mem_append.1 hl with hl | hl
    · obtain ⟨x, hx, rfl⟩ := Option.map_eq_some_iff.1 (Option.mem_toList.1 hl)
      obtain ⟨hmem, -, hno⟩ := hsent x.1 x.2 hx
      exact ⟨x.2, by simpa [hcall] using hmem, hno⟩
    · obtain ⟨d, hin, hno⟩ := ih hrest hl
      exact ⟨d, hin, fun hre => hno ((hrec l).2 (.inl hre))⟩

theorem warningsRun_pairwise (hfails : ∀ call ∈ calls, FailsDown parse levels sub call) :
    (warningsRun sub calls s).Pairwise fun l l' => ∃ d d', parse l = some d ∧ parse l' = some d' ∧ d' < d := by
  induction calls generalizing s with
  | nil => exact .nil
  | cons call calls ih =>
    obtain ⟨hcall, hrest⟩ := forall_mem_cons.1 hconfig
    obtain ⟨hdown, hfails⟩ := forall_mem_cons.1 hfails
    obtain ⟨acc, heq, hrec, hsent⟩ := handleWarnings_spec call.1 sub call.2 s
    rw [warningsRun, heq]
    refine pairwise_append.2 ⟨?_, ih hrest hfails, fun l hl l' hl' => ?_⟩
    · cases acc.2.map (·.1) with
      | none => exact .nil
      | some l => exact pairwise_singleton _ _
    obtain ⟨x, hx, rfl⟩ := Option.map_eq_some_iff.1 (Option.mem_toList.1 hl)
    obtain ⟨hmem, ⟨hle, hno⟩, -⟩ := hsent x.1 x.2 hx
    obtain ⟨hin, hpa⟩ : x.1 ∈ levels ∧ parse x.1 = some x.2 := by simpa [hcall] using hmem
    obtain ⟨d', ⟨hin', hpa'⟩, hnew⟩ := warningsRun_unrecorded hrest hl'
    refine ⟨x.2, d', hpa, hpa', lt_of_not_ge fun hge => hnew ((hrec l').2 (.inr ⟨d', ?_, hle.trans hge, ?_⟩))⟩
    · simpa [hcall] using ⟨hin', hpa'⟩
    · -- a longer insert that fails would have failed for `x` too
      refine Bool.eq_false_iff.2 fun hfail => Bool.eq_false_iff.1 hno ?_
      exact hdown l' hin' x.1 hin d' x.2 hpa' hpa hle hge hfail

end

/-- Where a failed insert takes the shorter ones with it, each warning sent is shorter than those before. The time left
may go either way. -/
theorem warnings_decrease (parse : String → Option Int) (levels : List String) (sub : Subscription)
    (calls : List (ExpiryEnv × Int)) (s : Store)
    (hconfig : ∀ call ∈ calls, call.1.warnings = levels.map fun l => (l, parse l))
    (hfails : ∀ call ∈ calls, FailsDown parse levels sub call) :
    ((warningsRun sub calls s).Pairwise fun l l' => ∃ d d', parse l = some d ∧ parse l' = some d' ∧ d' < d) ∧
      (warningsRun sub calls s).Nodup := by
  have hpw := warningsRun_pairwise (s := s) hconfig hfails
  refine ⟨hpw, hpw.imp ?_⟩
  rintro l _ ⟨d, d', hd, hd', hlt⟩ rfl
  exact hlt.ne (Option.some.inj (hd'.symm.trans hd))

/-- Two warnings and two calls, with the given inserts failing in the first. -/
def twoCalls (timeLeft : Int) (failing : List String) : List (ExpiryEnv × Int) :=
  let warnings := [("72h", some (72 * Time.hour)), ("24h", some (24 * Time.hour))]
  [({ warnings := warnings, fails := (· ∈ failing.map (.createNotification "s")) }, timeLeft),
    ({ warnings := warnings }, 20 * Time.hour)]

def warnedSub : Subscription := { id := "s", userID := "u", email := "a@x", uuid := "v" }

theorem warnings_decrease_two :
    warningsRun warnedSub (twoCalls (50 * Time.hour) []) {} = ["72h", "24h"] ∧ ["72h", "24h"].Nodup := by
  have h := warnings_decrease ([("72h", 72 * Time.hour), ("24h", 24 * Time.hour)].lookup ·) ["72h", "24h"] warnedSub
    (twoCalls (50 * Time.hour) []) {} (by decide +kernel) (by simp [twoCalls, FailsDown])
  have heq : warningsRun warnedSub (twoCalls (50 * Time.hour) []) {} = ["72h", "24h"] := by decide +kernel
  exact ⟨heq, heq ▸ h.2⟩

/-- With twenty hours left the insert of the longer warning fails once: it is sent after the shorter one. -/
theorem longer_warning_late : warningsRun warnedSub (twoCalls (20 * Time.hour) ["72h"]) {} = ["24h", "72h"] := by
  decide +kernel

end Xraytool
