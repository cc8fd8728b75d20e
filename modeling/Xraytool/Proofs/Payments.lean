import Xraytool.Sanity.Payments

/-! When a payment that becomes completed also gets its effect. A failure of the renewal and a failure to re-read the
updated payment are dropped by the code, and crediting a missing user or below zero is no error. -/

namespace Xraytool

open Fallible BillingCall

/-- The effect the completion of `p` owes, delivered by the step from `b` to `b'`: a successful renewal
for a plan, else the credited amount, else nothing for a payment from the balance. -/
def Delivered (b b' : BillingState) (p : Payment) : Prop :=
  match p.planID with
  | some planID => b'.effects = b.effects ++ [.renew p.id p.userID planID true]
  | none => p.method = "balance" ∨
    (b'.effects = b.effects ++ [.credit p.id p.userID p.amount] ∧
      ∃ u ∈ b.store.users.rows, u.id = p.userID ∧
        { u with balance := u.balance + p.amount } ∈ b'.store.users.rows)

/-- A payment the call moves to completed has its effect; otherwise a completing call leaves it as it was. -/
def NoCompletionWithoutEffect (env : BillingEnv) (c : BillingCall) (b : BillingState) : Prop :=
  ∀ b', billingStep b (env, c) = some b' →
    ∀ p ∈ b.store.payments.rows, p.status ≠ "completed" →
      ∀ p' ∈ b'.store.payments.rows, p'.id = p.id →
        if p'.status = "completed" then Delivered b b' p else c.newStatus = "completed" → p' = p

/-- The calls whose failure rolls the status update back do not fail. -/
def BillingCall.NoRollback (env : BillingEnv) : BillingCall → Prop
  | .processExternalPaymentStatus _ _ => env.fails .begin = false ∧ env.fails .commit = false ∧
    env.fails .findByExternalID = false ∧ env.fails .updateStatusIfNotCompleted = false
  | .updatePaymentStatus _ _ _ => env.fails .begin = false ∧ env.fails .commit = false ∧
    env.fails .updateStatus = false

/-- The call has the payment at hand: the callback has read it before, the update reads it again. -/
def BillingCall.HasPayment (env : BillingEnv) : BillingCall → Prop
  | .processExternalPaymentStatus _ _ => True
  | .updatePaymentStatus _ _ _ => env.fails .findByID = false

/-- A renewal for the payment's plan can succeed: the rows exist and no statement it issues fails. -/
def RenewalAvailable (env : BillingEnv) (s : Store) (p : Payment) (planID : Int) : Prop :=
  ∃ sub plan, s.findLatestByUserID p.userID = .ok sub ∧ s.findPlanByID planID = .ok plan ∧
    ∀ op ∈ renewalStatements env.now sub plan, env.fails (.renew op) = false

/-- The payer exists and the amount does not take the balance below zero. -/
def CreditAvailable (s : Store) (p : Payment) : Prop :=
  ∃ u ∈ s.users.rows, u.id = p.userID ∧ 0 ≤ u.balance + p.amount

/-- What the store and the environment must offer for every payment the call completes. -/
def EffectAvailable (env : BillingEnv) (c : BillingCall) (s : Store) : Prop :=
  c.newStatus = "completed" → c.NoRollback env →
    ∀ p ∈ s.payments.rows, p.status ≠ "completed" → c.selects p →
      match p.planID with
      | some planID => c.HasPayment env ∧ RenewalAvailable env s p planID
      | none => p.method = "balance" ∨
        (c.HasPayment env ∧ (env.fails .adjustBalance = true ∨ CreditAvailable s p))

theorem credited_iff (s : Store) (id : String) (amount : Int) : (∃ u ∈ s.users.rows, u.id = id ∧
        { u with balance := u.balance + amount } ∈ (s.adjustBalance id amount).users.rows) ↔
      ∃ u ∈ s.users.rows, u.id = id ∧ 0 ≤ u.balance + amount := by
  refine exists_congr fun u => and_congr_right fun hu => and_congr_right fun hid => ?_
  have hmem : u.adjust amount ∈ (s.adjustBalance id amount).users.rows :=
    (Table.mem_updateWhere User.keeps_adjust).2 ⟨u, hu, if_pos (by simpa using hid)⟩
  constructor
  · intro h
    -- the row of this user after the update is the adjusted one
    have heq := (s.adjustBalance id amount).users.eq_of_clash hmem h rfl
    have hbal : (if u.balance + amount < 0 then 0 else u.balance + amount) = u.balance + amount :=
      congrArg User.balance heq
    split_ifs at hbal <;> omega
  · intro hnon
    have heq : u.adjust amount = { u with balance := u.balance + amount } := by
      rw [User.adjust, if_neg (by omega)]
    rwa [heq] at hmem

variable {env : BillingEnv} {o : Outcome} {p : Payment} {s s' : Store} {c : BillingCall} {b : BillingState}

/-- What the completion of `p` delivers on top of the store `s`, and when. -/
theorem completePayment_delivers (h : completePayment env p s = .ok (s', o)) (hs : s.users = b.store.users) :
    Delivered b ⟨s', b.effects ++ o.effect.toList⟩ p ↔ match p.planID with
      | some planID => RenewalAvailable env s p planID
      | none => p.method = "balance" ∨ CreditAvailable b.store p := by
  unfold completePayment at h
  unfold Delivered
  cases hpl : p.planID with
  | some planID =>
    simp only [hpl, Except.ok.injEq, Prod.mk.injEq] at h ⊢
    obtain ⟨-, rfl⟩ := h
    unfold RenewalAvailable
    rw [← planRenewal_succeeds (extensionDevices env p s)]
    unfold extendSubscriptionForPayment
    split <;> simp_all
  | none =>
    simp only [hpl] at h ⊢
    split_ifs at h with hm
    · obtain ⟨s1, h1, h⟩ := bind_eq_ok.1 h
      obtain ⟨-, h1⟩ := issue_eq_ok.1 h1
      cases h1
      cases h
      have hcr := credited_iff s p.userID p.amount
      rw [hs] at hcr
      simp only [hm, false_or, Option.toList_some, true_and]
      exact hcr
    · simp only [not_not] at hm
      simp [hm]

theorem completePayment_error {e : Err} (h : completePayment env p s = .error e) :
    p.planID = none ∧ p.method ≠ "balance" ∧ env.fails .adjustBalance = true := by
  unfold completePayment at h
  cases hpl : p.planID with
  | some planID => simp [hpl] at h
  | none =>
    simp only [hpl] at h
    split_ifs at h with hm
    · refine ⟨rfl, hm, ?_⟩
      cases hf : env.fails .adjustBalance with
      | true => rfl
      | false => simp [hf, Bind.bind, Except.bind, pure, Except.pure] at h

section

variable (hp : p ∈ s.payments.rows)
include hp

theorem processExternal_of_selected {extID status : String}
    (hsel : (BillingCall.processExternalPaymentStatus extID status).selects p)
    (hnew : mapExternalStatus status = "completed")
    (hok : (BillingCall.processExternalPaymentStatus extID status).NoRollback env) :
    ∃ t, processExternalPaymentStatus env extID status s = completePayment env p { s with payments := t } := by
  obtain ⟨hbe, hcom, hfi, hupd⟩ := hok
  simp only [selects, hnew, Bool.and_eq_true, beq_iff_eq, bne_iff_ne, and_assoc] at hsel
  obtain ⟨hext, hne, -⟩ := hsel
  have hr := findPaymentByExternalID_of_mem hp hext
  have haff : 0 < s.payments.affected (Store.ifNotCompletedWhere p.id) :=
    Table.affected_pos.2 ⟨p, hp, by simp [Store.ifNotCompletedWhere, hne]⟩
  refine ⟨(s.updateStatusIfNotCompleted p.id "completed").1.payments, ?_⟩
  simp only [processExternalPaymentStatus, hbe, hcom, hfi, hupd, hr, hnew, transaction_false, issue_false]
  simp [hne, Bind.bind, Except.bind, Store.updateStatusIfNotCompleted, Store.setPaymentStatus, haff]

theorem updatePaymentStatus_of_selected {id : Int} {expected : List String}
    (hsel : (BillingCall.updatePaymentStatus id "completed" expected).selects p)
    (hok : (BillingCall.updatePaymentStatus id "completed" expected).NoRollback env) :
    ∃ t, updatePaymentStatus env id "completed" expected s =
      if env.fails .findByID then .ok ({ s with payments := t }, { updated := true })
      else completePayment env (p.setStatus "completed") { s with payments := t } := by
  obtain ⟨hbe, hcom, hupd⟩ := hok
  have haff : 0 < s.payments.affected (Store.updateStatusWhere id "completed" expected) :=
    Table.affected_pos.2 ⟨p, hp, hsel⟩
  have hid : p.id = id := by
    simp only [selects, Store.updateStatusWhere, Bool.and_eq_true, beq_iff_eq] at hsel
    exact hsel.1
  set s1 := (s.updateStatus id "completed" expected).1 with hs1
  have hp1 : p.setStatus "completed" ∈ s1.payments.rows := mem_setPaymentStatus.2 ⟨p, hp, if_pos hsel⟩
  have hr : s1.findPaymentByID id = .ok (p.setStatus "completed") := hid ▸ findPaymentByID_of_mem hp1
  refine ⟨s1.payments, ?_⟩
  have hpa : s.updateStatus id "completed" expected = (s1, true) :=
    Prod.ext rfl (by simpa [Store.updateStatus] using haff)
  simp only [updatePaymentStatus, hbe, hcom, hupd, transaction_false, issue_false, hpa, Bind.bind,
    Except.bind, not_true, if_false, if_true, hr]
  cases env.fails .findByID <;> rfl

/-- A call that completes `p` and is not rolled back goes on to the effect of `p` if it has the payment,
and ends there otherwise. Only the payments and the status of `p` have changed by then. -/
theorem apply_of_selected (hsel : c.selects p) (hnew : c.newStatus = "completed") (hok : c.NoRollback env) : ∃ t status,
      (c.HasPayment env → c.apply env s = completePayment env (p.setStatus status) { s with payments := t }) ∧
      (¬ c.HasPayment env → c.apply env s = .ok ({ s with payments := t }, { updated := true })) := by
  cases c with
  | processExternalPaymentStatus extID status =>
    obtain ⟨t, h⟩ := processExternal_of_selected hp hsel hnew hok
    exact ⟨t, p.status, fun _ => h, fun hno => absurd trivial hno⟩
  | updatePaymentStatus id status expected =>
    obtain rfl : status = "completed" := hnew
    obtain ⟨t, h⟩ := updatePaymentStatus_of_selected hp hsel hok
    refine ⟨t, "completed", fun hhas => ?_, fun hno => ?_⟩
    · exact h.trans (if_neg (by simpa [BillingCall.HasPayment] using hhas))
    · exact h.trans (if_pos (by simpa [BillingCall.HasPayment] using hno))

theorem apply_noRollback (hsel : c.selects p) (h : c.apply env s = .ok (s', o)) : c.NoRollback env := by
  cases c with
  | processExternalPaymentStatus extID status =>
    simp only [apply, processExternalPaymentStatus, transaction_eq_ok, bind_eq_ok, issue_eq_ok] at h
    obtain ⟨hbe, hcom, q, ⟨hfi, hq⟩, h⟩ := h
    simp only [selects, Bool.and_eq_true, beq_iff_eq, bne_iff_ne, and_assoc] at hsel
    obtain ⟨hqm, hqe⟩ := findPaymentByExternalID_ok hq
    obtain rfl := payment_eq_of_externalID hqm hp hqe hsel.1
    rw [if_neg (not_or.2 hsel.2)] at h
    obtain ⟨r, hr, -⟩ := bind_eq_ok.1 h
    exact ⟨hbe, hcom, hfi, (issue_eq_ok.1 hr).1⟩
  | updatePaymentStatus id status expected =>
    simp only [apply, updatePaymentStatus, transaction_eq_ok, bind_eq_ok, issue_eq_ok] at h
    obtain ⟨hbe, hcom, r, ⟨hupd, -⟩, -⟩ := h
    exact ⟨hbe, hcom, hupd⟩

theorem apply_credits (hsel : c.selects p) (hnew : c.newStatus = "completed")
    (hpl : p.planID = none) (hm : p.method ≠ "balance") (hpay : c.HasPayment env)
    (h : c.apply env s = .ok (s', o)) : env.fails .adjustBalance = false := by
  obtain ⟨t, status, hhas, -⟩ := apply_of_selected hp hsel hnew (apply_noRollback hp hsel h)
  rw [hhas hpay, completePayment, show (p.setStatus status).planID = none from hpl] at h
  simp only [show (p.setStatus status).method ≠ "balance" from hm, ne_eq, not_false_eq_true, if_true] at h
  obtain ⟨s1, h1, -⟩ := bind_eq_ok.1 h
  exact (issue_eq_ok.1 h1).1

end

/-- A committed completion of `p` delivers its effect iff the effect is available. -/
theorem delivered_iff (hp : p ∈ b.store.payments.rows) (hsel : c.selects p)
    (hnew : c.newStatus = "completed") (h : c.apply env b.store = .ok (s', o)) :
    Delivered b ⟨s', b.effects ++ o.effect.toList⟩ p ↔ match p.planID with
      | some planID => c.HasPayment env ∧ RenewalAvailable env b.store p planID
      | none => p.method = "balance" ∨ (c.HasPayment env ∧ CreditAvailable b.store p) := by
  obtain ⟨t, status, hhas, hno⟩ := apply_of_selected hp hsel hnew (apply_noRollback hp hsel h)
  by_cases hpay : c.HasPayment env
  · rw [hhas hpay] at h
    have hdel := completePayment_delivers (b := b) h rfl
    -- the effect reads neither the payments nor the status
    change Delivered b _ p ↔ _ at hdel
    rw [hdel]
    simp only [hpay, true_and]
    exact Iff.rfl
  · rw [hno hpay] at h
    cases h
    unfold Delivered
    cases p.planID <;> simp [hpay]

/-- For every store, every call and every combination of failing repository calls, no payment is completed
without its effect iff the effect of each payment the call completes is available. -/
theorem noCompletionWithoutEffect_iff (env : BillingEnv) (c : BillingCall) (b : BillingState) :
    NoCompletionWithoutEffect env c b ↔ EffectAvailable env c b.store := by
  constructor
  · intro hpr hnew hok p hp hne hsel
    cases happ : c.apply env b.store with
    | error e =>
      -- rolled back after all: only the credit can still fail
      obtain ⟨t, status, hhas, hno⟩ := apply_of_selected hp hsel hnew hok
      by_cases hpay : c.HasPayment env
      · rw [hhas hpay] at happ
        obtain ⟨hpl, -, hfa⟩ := completePayment_error happ
        rw [show p.planID = none from hpl]
        exact .inr ⟨hpay, .inl hfa⟩
      · rw [hno hpay] at happ
        cases happ
    | ok r =>
      obtain ⟨s', o⟩ := r
      have hrow := (apply_commits happ).row.2 ⟨p, hp, .inl ⟨hsel, rfl⟩⟩
      have hs : billingStep b (env, c) = some ⟨s', b.effects ++ o.effect.toList⟩ := by
        simp [billingStep, happ]
      have hdel := hpr _ hs p hp hne _ hrow rfl
      rw [Payment.setStatus_status, if_pos hnew] at hdel
      have hdel := (delivered_iff hp hsel hnew happ).1 hdel
      cases hpl : p.planID with
      | some planID => simpa only [hpl] using hdel
      | none =>
        simp only [hpl] at hdel ⊢
        exact hdel.imp_right fun h => ⟨h.1, .inr h.2⟩
  · intro hava b' hs p hp hne p' hp' hid
    obtain rfl | ⟨o, happ, hef, hc⟩ := billingStep_cases hs
    · obtain rfl := payment_eq_of_id hp' hp hid
      rw [if_neg hne]
      exact fun _ => rfl
    obtain ⟨q, hq, ⟨hsel, rfl⟩ | ⟨-, rfl⟩⟩ := hc.row.1 hp'
    · obtain rfl := payment_eq_of_id hq hp hid
      by_cases hnew : c.newStatus = "completed"
      · rw [Payment.setStatus_status, if_pos hnew]
        have hav := hava hnew (apply_noRollback hp hsel happ) q hp hne hsel
        have hb' : b' = ⟨b'.store, b.effects ++ o.effect.toList⟩ := by rw [← hef]
        rw [hb', delivered_iff hp hsel hnew happ]
        cases hpl : q.planID with
        | some planID => simpa only [hpl] using hav
        | none =>
          simp only [hpl] at hav ⊢
          rcases hav with hm | ⟨hpay, hfa | hcr⟩
          · exact .inl hm
          · exact .inl (by_contra fun hm => absurd (apply_credits hp hsel hnew hpl hm hpay happ) (by simp [hfa]))
          · exact .inr ⟨hpay, hcr⟩
      · rw [Payment.setStatus_status, if_neg hnew]
        exact fun h => absurd h hnew
    · obtain rfl := payment_eq_of_id hq hp hid
      rw [if_neg hne]
      exact fun _ => rfl

def unpaidPlan : Payment :=
  { id := 2, userID := "u1", amount := 300, status := "pending", paymentType := "subscription", method := "card",
    externalID := some "x2", planID := some 7 }

def planWithoutSubscription : Store where
  users := .single { id := "u1" }
  payments := .single unpaidPlan
  plans := .single { id := 7, months := 1 }

/-- The provider confirms that payment: it is completed, and the failed renewal is dropped. -/
theorem completed_without_renewal :
    ¬ NoCompletionWithoutEffect ⟨0, fun _ => false⟩ (.processExternalPaymentStatus "x2" "success")
      ⟨planWithoutSubscription, []⟩ := by
  intro h
  have hs : ∃ b' ∈ billingStep ⟨planWithoutSubscription, []⟩
      (⟨0, fun _ => false⟩, .processExternalPaymentStatus "x2" "success"),
      b'.store.payments.rows = [unpaidPlan.setStatus "completed"] ∧ b'.effects = [.renew 2 "u1" 7 false] := by
    decide
  obtain ⟨b', hb', hro, hef⟩ := hs
  have hdel := h b' hb' unpaidPlan (by decide) (by decide) (unpaidPlan.setStatus "completed") (by simp [hro]) rfl
  simp [Delivered, unpaidPlan, hef] at hdel

/-! A payment's completion takes effect at most once. `UpdateStatus` excludes completed rows only when no expected
statuses are given, so a list that names `completed`, or an update away from it, lets a payment be credited again. -/

open Transition List

/-- The update leaves completed payments alone: its expected list does not name `completed`, or there is no
list and the new status is `completed`, where the statement itself excludes such rows. -/
def LeavesCompleted (s : Store) : BillingCall → Prop
  | .processExternalPaymentStatus _ _ => True
  | .updatePaymentStatus id status expected => ∀ p ∈ s.payments.rows, p.id = id → p.status = "completed" →
    if expected = [] then status = "completed" else "completed" ∉ expected

instance (s : Store) (c : BillingCall) : Decidable (LeavesCompleted s c) := by
  cases c <;> unfold LeavesCompleted <;> infer_instance

theorem LeavesCompleted.not_selected {s : Store} {c : BillingCall} (h : LeavesCompleted s c) {p : Payment}
    (hp : p ∈ s.payments.rows) (hsel : c.selects p) : p.status ≠ "completed" := by
  intro hdo
  cases c with
  | processExternalPaymentStatus extID status => simp [BillingCall.selects, hdo] at hsel
  | updatePaymentStatus id status expected =>
    simp only [BillingCall.selects, Store.updateStatusWhere, Bool.and_eq_true, beq_iff_eq, hdo] at hsel
    have hle := h p hp hsel.1 hdo
    by_cases hnil : expected = []
    · rw [if_pos hnil] at hle
      simp [hnil, hle] at hsel
    · rw [if_neg hnil] at hle
      simp [length_pos_iff.2 hnil, hle] at hsel

/-- No payment has two effects, and a payment with an effect is completed. -/
structure EffectsOnce (b : BillingState) : Prop where
  nodup : (b.effects.map Effect.paymentID).Nodup
  completed : ∀ e ∈ b.effects, ∀ p ∈ b.store.payments.rows, p.id = e.paymentID → p.status = "completed"

theorem effectsOnce_step {b b' : BillingState} {env : BillingEnv} {c : BillingCall} (hb : EffectsOnce b)
    (hle : LeavesCompleted b.store c) (h : billingStep b (env, c) = some b') : EffectsOnce b' := by
  obtain rfl | ⟨o, -, hef, hc⟩ := billingStep_cases h
  · exact hb
  have hold : ∀ e ∈ b.effects, ∀ p' ∈ b'.store.payments.rows, p'.id = e.paymentID → p'.status = "completed" := by
    intro e he p' hp' hid
    obtain ⟨p, hp, ⟨hsel, rfl⟩ | ⟨-, rfl⟩⟩ := hc.row.1 hp'
    · exact absurd (hb.completed e he p hp hid) (hle.not_selected hp hsel)
    · exact hb.completed e he _ hp hid
  cases heff : o.effect with
  | none =>
    have hsa : b'.effects = b.effects := by simp [hef, heff]
    exact ⟨hsa ▸ hb.nodup, fun e he => hold e (hsa ▸ he)⟩
  | some e0 =>
    obtain ⟨hnew, p0, hp0, hsel0, hid0⟩ := hc.effect e0 heff
    have hsn : b'.effects = b.effects ++ [e0] := by simp [hef, heff]
    -- the effect is a first one: its payment was not completed before
    have hfr : e0.paymentID ∉ b.effects.map Effect.paymentID := by
      intro hmem
      obtain ⟨e, he, hee⟩ := mem_map.1 hmem
      exact hle.not_selected hp0 hsel0 (hb.completed e he p0 hp0 (hid0.symm.trans hee.symm))
    refine ⟨?_, ?_⟩
    · rw [hsn, map_append, map_singleton, nodup_append]
      exact ⟨hb.nodup, nodup_singleton _, fun a ha a' ha' heq => hfr (by simp_all)⟩
    intro e he p' hp' hid
    rw [hsn, mem_append, mem_singleton] at he
    rcases he with he | rfl
    · exact hold e he p' hp' hid
    obtain ⟨p, hp, ⟨-, rfl⟩ | ⟨hsel, rfl⟩⟩ := hc.row.1 hp'
    · exact hnew
    · exact absurd (payment_eq_of_id hp hp0 (hid.trans hid0) ▸ hsel0) hsel

/-- In every run of status updates that leave completed payments alone, no payment takes effect twice. -/
theorem completion_effect_at_most_once (s₀ : Store) (tr : List (BillingEnv × BillingCall)) (b : BillingState)
    (h : Run (Guarded (fun b e => LeavesCompleted b.store e.2) (stepsTo billingStep)) ⟨s₀, []⟩ tr b) :
    (b.effects.map Effect.paymentID).Nodup := by
  have hin : EffectsOnce ⟨s₀, []⟩ := ⟨nodup_nil, fun e he => by cases he⟩
  exact (h.invariant_of_guard EffectsOnce hin fun _ _ _ hb hle hs => effectsOnce_step hb hle hs).nodup

def cardPayment : Payment :=
  { id := 1, userID := "u1", amount := 100, status := "pending", method := "card", externalID := some "x1" }

def pendingPayment : Store where
  users := .single { id := "u1" }
  payments := .single cardPayment

def calmEnv : BillingEnv := ⟨0, fun _ => false⟩

theorem completion_effect_at_most_once_pendingPayment :
    ∃ b, Run (Guarded (fun b e => LeavesCompleted b.store e.2) (stepsTo billingStep)) ⟨pendingPayment, []⟩
        [(calmEnv, .processExternalPaymentStatus "x1" "CONFIRMED"),
          (calmEnv, .updatePaymentStatus 1 "completed" [])] b ∧
      b.effects = [.credit 1 "u1" 100] ∧ (b.effects.map Effect.paymentID).Nodup := by
  exact Run.exists_of_guardedExec_imp (by decide) fun b hrun heff =>
    ⟨heff, completion_effect_at_most_once _ _ _ hrun⟩

/-- Completing a completed payment again with `completed` among the expected statuses credits it twice. -/
theorem completion_effect_twice :
    ∃ b, Run (stepsTo billingStep) ⟨pendingPayment, []⟩
        [(calmEnv, .updatePaymentStatus 1 "completed" []),
          (calmEnv, .updatePaymentStatus 1 "completed" ["completed"])] b ∧
      ¬ (b.effects.map Effect.paymentID).Nodup ∧ b.store.users.rows.map (·.balance) = [200] :=
  Run.exists_of_exec (by decide)

/-! The devices a completed payment grants, against those it was priced for. The price is for `MaxDevices` of the
request; the extension reads `max_devices` from the stored custom data, which the caller's own entries override. -/

open Option

/-- The limit of the payer's latest subscription, as the extension reads it. -/
def currentDevices (env : BillingEnv) (userID : String) (s : Store) : Int :=
  match issue (env.fails .findLatestByUserID) .storage (s.findLatestByUserID userID) with
  | .ok sub => sub.maxDevices
  | .error _ => 3

/-- The request pays for the devices it asks for, where the current limit is `current`: a number of the caller's own is
within the price; otherwise the requested limit counts, unless it is missing or hidden by a value that is no number. -/
def CreatePaymentRequest.PaysDevices (req : CreatePaymentRequest) (current : Int) : Prop :=
  match req.customData.lookup "max_devices" with
  | some (.num n) => n.readBack.toInt ≤ max 3 req.maxDevices
  | some _ => current ≤ max 3 req.maxDevices
  | none => if 0 < req.maxDevices then float64OfInt req.maxDevices ≤ max 3 req.maxDevices else current ≤ 3

theorem toInt_readBack_int {i : Int} : (Number.int i).readBack.toInt = float64OfInt i := by
  simp [Number.readBack, Number.toInt]

theorem extensionDevices_eq :
    extensionDevices env p s = max 3 (match p.customData.lookup "max_devices" with
      | some (.num n) => n.toInt
      | _ => currentDevices env p.userID s) := by
  rw [extensionDevices]
  split_ifs with hlow
  · exact (max_eq_left (Int.le_of_lt hlow)).symm
  · exact (max_eq_right (Int.not_lt.1 hlow)).symm

theorem max_three_le {x m : Int} : max 3 x ≤ max 3 m ↔ x ≤ max 3 m := by omega

theorem extensionDevices_le_iff {req : CreatePaymentRequest}
    (hda : p.customData = Json.readBackFields req.paymentData) :
    extensionDevices env p s ≤ max 3 req.maxDevices ↔ req.PaysDevices (currentDevices env p.userID s) := by
  rw [extensionDevices_eq, max_three_le, hda, lookup_readBackFields, lookup_maxDevices_paymentData,
    CreatePaymentRequest.PaysDevices]
  cases hown : req.customData.lookup "max_devices" with
  | some v => cases v <;> rfl
  | none =>
    by_cases hpos : 0 < req.maxDevices
    · simp only [none_or, if_pos hpos, map_some, Json.readBack, toInt_readBack_int]
    · have hth : max 3 req.maxDevices = 3 := by omega
      simp only [none_or, if_neg hpos, map_none, hth]

def threeDevices : Store where
  users := .single { id := "u1", metadata := [("telegram_id", .num (.float 7))] }
  subscriptions := .single { id := "s1", userID := "u1", email := "m1", uuid := "c1", status := "active" }
  plans := .single { id := 1, months := 1, basePrice := 150 }

def fiveDevices : CreatePaymentRequest :=
  { telegramID := 7, paymentType := "subscription", method := "cash", planID := some 1, maxDevices := 5 }

def hundredInCustomData : CreatePaymentRequest :=
  { fiveDevices with maxDevices := 3, customData := [("max_devices", .num (.float 100))] }

/-- Every payment with the external id was there before, for the same user. -/
def StillOwned (extID : String) (s s' : Store) : Prop :=
  ∀ p' ∈ s'.payments.rows, p'.externalID = some extID →
    ∃ p ∈ s.payments.rows, p.externalID = some extID ∧ p.userID = p'.userID

variable {extID : String} {s s' s'' : Store}

namespace StillOwned

theorem of_subset (h : s'.payments.rows ⊆ s.payments.rows) : StillOwned extID s s' :=
  fun p' hp' hext => ⟨p', h hp', hext, rfl⟩

theorem of_eq (h : s'.payments = s.payments) : StillOwned extID s s' := .of_subset (by rw [h]; exact Subset.refl _)

theorem refl (extID : String) (s : Store) : StillOwned extID s s := .of_eq rfl

theorem trans (h : StillOwned extID s s') (h' : StillOwned extID s' s'') : StillOwned extID s s'' := by
  intro p'' hp'' hext
  obtain ⟨p', hp', hext', hu'⟩ := h' p'' hp'' hext
  obtain ⟨p, hp, hext, hu⟩ := h p' hp' hext'
  exact ⟨p, hp, hext, hu.trans hu'⟩

theorem attempt {x : Except Err Store} (h : ∀ s', x = .ok s' → StillOwned extID s s') :
    StillOwned extID s (Fallible.attempt x s) := by
  rcases attempt_cases with hok | hfai
  · exact h _ hok
  · rw [hfai]
    exact .refl extID s

end StillOwned

variable {req : CreatePaymentRequest} {p : Payment} {seen : Store} {user : User} {env : AccountEnv}
  {email tgUserID : String} {l : Link} {b b' : BillingState} {uid : String}

theorem externalID_createPayment {env : PaymentEnv} (h : createPayment env req seen s = .ok (s', p)) :
    ∀ id ∈ p.externalID, id = req.externalID := by
  obtain ⟨-, _, _, _, -, -, rfl⟩ := createPayment_ok h
  intro extID hext
  split_ifs at hext
  · cases hext
  · exact (Option.some.inj hext).symm

theorem stillOwned_createPayment {env : PaymentEnv} (h : createPayment env req seen s = .ok (s', p))
    (ho : req.externalID ≠ extID) : StillOwned extID s s' := by
  intro p' hp' hext
  rw [(createPayment_ok h).1.payments, mem_append, mem_singleton] at hp'
  rcases hp' with hold | rfl
  · exact ⟨p', hold, hext, rfl⟩
  · exact absurd (externalID_createPayment h extID hext).symm ho

theorem stillOwned_billing {env : BillingEnv} {c : BillingCall} {o : Outcome} (h : c.apply env s = .ok (s', o)) :
    StillOwned extID s s' := by
  intro p' hp' hext
  obtain ⟨p, hp, ⟨-, rfl⟩ | ⟨-, rfl⟩⟩ := (apply_commits h).row.1 hp'
  · exact ⟨p, hp, hext, rfl⟩
  · exact ⟨p', hp, hext, rfl⟩

theorem stillOwned_updateExternalID {env : BillingEnv} {id : Int} {newID : String}
    (h : updateExternalID env id newID s = .ok s') (ho : newID ≠ extID) : StillOwned extID s s' := by
  simp only [updateExternalID, transaction_eq_ok, bind_eq_ok, issue_eq_ok] at h
  obtain ⟨-, -, p, -, -, h⟩ := h
  split at h
  · rename_i hup
    cases h
    intro p' hp' hext
    rw [Table.rows_of_tryUpdate hup] at hp'
    obtain ⟨row, hrow, rfl⟩ := mem_map.1 hp'
    split_ifs at hext ⊢
    · exact absurd (Option.some.inj hext) ho
    · exact ⟨row, hrow, hext, rfl⟩
  · cases h

theorem payments_deleteUserAndData :
    (s.deleteUserAndData uid).payments.rows = s.payments.rows.filter fun p => p.userID ≠ uid := by
  refine filter_congr fun p _ => ?_
  by_cases h : p.userID = uid <;> simp [h]

theorem stillOwned_deleteUserAndData : StillOwned extID s (s.deleteUserAndData uid) := by
  refine .of_subset ?_
  exact filter_subset_self _

theorem payments_createUser (h : s.createUser user = .ok s') : s'.payments = s.payments := by
  unfold Store.createUser at h
  split at h
  · cases h
    rfl
  · cases h

theorem payments_createSubscription {sub : Subscription} (h : s.createSubscription sub = .ok s') :
    s'.payments = s.payments := by
  unfold Store.createSubscription at h
  dsimp only at h
  split at h
  · cases h
    rfl
  · cases h

theorem payments_findOrRegister {plat id context : String} {acct : User}
    (h : findOrRegister env plat id context user email s = .ok (s', acct)) : s'.payments = s.payments := by
  unfold findOrRegister at h
  split at h
  · cases h
    rfl
  split at h
  · rename_i s1 hreg
    cases h
    simp only [registerRows, transaction_eq_ok, bind_eq_ok, mapError_eq_ok, issue_eq_ok] at hreg
    obtain ⟨-, -, s2, ⟨-, hcre⟩, -, hins⟩ := hreg
    rw [payments_createSubscription hins, payments_createUser hcre]
  split at h
  · cases h
    rfl
  · cases h

theorem stillOwned_link (h : l.apply s = .ok s') : StillOwned extID s s' := by
  rcases link_spec h with ⟨-, hpay, -⟩ | ⟨absorbed, -, hpay, -⟩
  · exact .of_eq hpay
  · exact stillOwned_deleteUserAndData.trans (.of_eq hpay)

theorem absorbed_payments_gone (h : l.apply s = .ok s') (habs : l.absorbed s = some uid) :
    ∀ p ∈ s'.payments.rows, p.userID ≠ uid := by
  rcases link_spec h with ⟨hno, -⟩ | ⟨absorbed, hab, hpay, -⟩
  · cases hno.symm.trans habs
  cases hab.symm.trans habs
  rw [hpay, payments_deleteUserAndData]
  exact fun p hp => of_decide_eq_true (mem_filter.1 hp).2

theorem stillOwned_mergeStep {l : MergeLabel} (hst : mergeStep b l = some b') (ho : l.gives extID = false) :
    StillOwned extID b.store b'.store := by
  cases l with
  | createPayment env req seen =>
    cases hst
    refine .attempt fun s' hs' => ?_
    obtain ⟨⟨s'', p⟩, hcre, rfl⟩ := map_eq_ok.1 hs'
    exact stillOwned_createPayment hcre (of_decide_eq_false ho)
  | updateExternalID env id newID =>
    cases hst
    exact .attempt fun s' hs' => stillOwned_updateExternalID hs' (of_decide_eq_false ho)
  | updatePayment env call =>
    rcases billingStep_cases hst with rfl | ⟨o, happ, -⟩
    · exact .refl extID _
    · exact stillOwned_billing happ
  | link l =>
    cases hst
    exact .attempt fun s' hs' => stillOwned_link hs'
  | registerWebUser env email | registerTelegramUser env telegramID username telegramUsername =>
    cases hst
    refine .attempt fun s' hs' => ?_
    obtain ⟨⟨s'', acct⟩, hreg, rfl⟩ := map_eq_ok.1 hs'
    exact .of_eq (payments_findOrRegister hreg)
  | deleteUser env plat id =>
    cases hst
    unfold handleAdminDeleteUser
    split
    · exact .refl extID _
    split
    · exact .refl extID _
    · exact stillOwned_deleteUserAndData

theorem stillOwned_run {tr : List MergeLabel} (hrun : Run (stepsTo mergeStep) b tr b')
    (ho : ∀ l ∈ tr, l.gives extID = false) : StillOwned extID b.store b'.store := by
  induction hrun with
  | nil => exact .refl extID _
  | snoc _ hs ih =>
    refine (ih fun l hl => ho l (mem_append_left _ hl)).trans (stillOwned_mergeStep hs ?_)
    exact ho _ (mem_append_right _ (mem_singleton_self _))

theorem processExternal_of_none (h : ∀ p ∈ s.payments.rows, p.externalID ≠ some extID) (env : BillingEnv)
    (status : String) (r : Store × Outcome) : processExternalPaymentStatus env extID status s ≠ .ok r := by
  intro hok
  simp only [processExternalPaymentStatus, transaction_eq_ok, bind_eq_ok, issue_eq_ok] at hok
  obtain ⟨-, -, p, ⟨-, hfi⟩, -⟩ := hok
  obtain ⟨hp, hext⟩ := findPaymentByExternalID_ok hfi
  exact h p hp hext

/-- There is a payment with an external id, its user is absorbed by a link, and then the gateway reports the payment,
with any other requests in between. The report finds no payment: it fails, and neither the store nor the list of effects
changes. -/
theorem payment_lost_by_link (b₀ b₁ b₂ : BillingState) (s₂ : Store) (p : Payment) (extID status : String) (l : Link)
    (tr₁ tr₂ : List MergeLabel) (callback : BillingEnv) (hmem : p ∈ b₀.store.payments.rows)
    (hext : p.externalID = some extID) (hbefore : Run (stepsTo mergeStep) b₀ tr₁ b₁)
    (hlink : l.apply b₁.store = .ok s₂) (habsorbed : l.absorbed b₁.store = some p.userID)
    (hafter : Run (stepsTo mergeStep) ⟨s₂, b₁.effects⟩ tr₂ b₂) (hother : ∀ l ∈ tr₁ ++ tr₂, l.gives extID = false) :
    (∀ r, processExternalPaymentStatus callback extID status b₂.store ≠ .ok r) ∧
      mergeStep b₂ (.updatePayment callback (.processExternalPaymentStatus extID status)) = some b₂ := by
  have how : StillOwned extID b₀.store b₁.store := stillOwned_run hbefore fun l hl => hother l (mem_append_left _ hl)
  have hke : StillOwned extID s₂ b₂.store := stillOwned_run hafter fun l hl => hother l (mem_append_right _ hl)
  have hn : ∀ p' ∈ b₂.store.payments.rows, p'.externalID ≠ some extID := by
    intro p' hp' hext'
    obtain ⟨p₂, hp₂, hext₂, -⟩ := hke p' hp' hext'
    obtain ⟨p₁, hp₁, hext₁, hu₁⟩ := stillOwned_link hlink p₂ hp₂ hext₂
    obtain ⟨p₀, hp₀, hext₀, hu₀⟩ := how p₁ hp₁ hext₁
    -- it is the payment with the external id, so its user is the absorbed one
    obtain rfl := payment_eq_of_externalID hp₀ hmem hext₀ hext
    exact absorbed_payments_gone hlink habsorbed p₂ hp₂ (hu₀.trans hu₁).symm
  have hfa := processExternal_of_none hn callback status
  refine ⟨hfa, ?_⟩
  rw [mergeStep, billingStep]
  cases hres : BillingCall.apply callback (.processExternalPaymentStatus extID status) b₂.store with
  | ok r => exact absurd hres (hfa r)
  | error e => rfl

/-! A Telegram account with a pending payment is linked to a web account. -/

def telegramAndWeb : Store where
  users := ⟨[{ id := "tg", metadata := [("telegram_id", .num (.float 7))] }, { id := "web", username := "a@x" }],
    by decide⟩

def topUp : CreatePaymentRequest where
  telegramID := 7
  amount := 500
  paymentType := "balance"
  method := "card"
  externalID := "x1"

theorem payment_lost_by_link_topUp : ∃ s₁ p s₂,
    createPayment {} topUp telegramAndWeb telegramAndWeb = .ok (s₁, p) ∧ p.userID = "tg" ∧
      s₁.findPaymentByExternalID "x1" = .ok p ∧ (Link.telegram {} "web" "tg").apply s₁ = .ok s₂ ∧
      ∀ r, processExternalPaymentStatus ⟨0, fun _ => false⟩ "x1" "success" s₂ ≠ .ok r := by
  obtain ⟨s₁, p, hcre, hu, hext, hfo, s₂, hli⟩ : ∃ s₁ p,
      createPayment {} topUp telegramAndWeb telegramAndWeb = .ok (s₁, p) ∧ p.userID = "tg" ∧
        p.externalID = some "x1" ∧ s₁.findPaymentByExternalID "x1" = .ok p ∧
        ∃ s₂, (Link.telegram {} "web" "tg").apply s₁ = .ok s₂ :=
    ⟨_, _, rfl, rfl, rfl, rfl, _, rfl⟩
  have hmem : p ∈ s₁.payments.rows := by
    rw [(createPayment_ok hcre).1.payments]
    exact mem_append_right _ (mem_singleton_self _)
  refine ⟨s₁, p, s₂, hcre, hu, hfo, hli, ?_⟩
  exact (payment_lost_by_link ⟨s₁, []⟩ ⟨s₁, []⟩ ⟨s₂, []⟩ s₂ p "x1" "success" (.telegram {} "web" "tg") [] []
    ⟨0, fun _ => false⟩ hmem hext .nil hli (by rw [hu]; rfl) .nil (by simp)).1

def linkPending : List MergeLabel :=
  [.createPayment {} topUp telegramAndWeb, .link (.telegram {} "web" "tg"),
    .updatePayment ⟨0, fun _ => false⟩ (.processExternalPaymentStatus "x1" "success")]

/-- The amount is credited to nobody: the Telegram account and its payment are gone, the web account has no balance. -/
theorem pending_payment_destroyed :
    ∃ b, Run (stepsTo mergeStep) ⟨telegramAndWeb, []⟩ linkPending b ∧ b.effects = [] ∧ b.store.payments.rows = [] ∧
      b.store.users.rows.map (fun u => (u.id, u.balance)) = [("web", 0)] :=
  Run.exists_of_exec (by decide +kernel)

end Xraytool

/-! A rerun knows an imported payment by its external id, or else by the `legacy_id` in its custom data. That field is
merged under those of the old row, so a payment whose own custom data has it may be imported by every run. -/

namespace Xraytool.Legacy

open Transition List

/-- What the row's own custom data has under `legacy_id`; the last entry counts. -/
def LegacyPayment.ownID (dec : Decoding) (lp : LegacyPayment) : Option (Json Number) :=
  if lp.customData = "" then none else (dec.unmarshal lp.customData).bind (·.reverse.lookup "legacy_id")

/-- A row without an external id has no `legacy_id` in its custom data and an id that is a `float64`, or it has a number
there that is read as its id. -/
def LegacyPayment.Recognized (dec : Decoding) (lp : LegacyPayment) : Prop :=
  lp.externalID = "" → match lp.ownID dec with
    | none => float64OfInt lp.id = lp.id
    | some (.num n) => n.readBack.toInt = lp.id
    | some _ => False

instance (dec : Decoding) (lp : LegacyPayment) : Decidable (lp.Recognized dec) := by
  unfold LegacyPayment.Recognized
  split <;> infer_instance

/-- A run that has read these payments skips the old one. -/
def LegacyPayment.Skipped (payments : List Payment) (lp : LegacyPayment) : Prop :=
  lp.id ∈ payments.filterMap (fun p => legacyID p.customData) ∨
    lp.externalID ≠ "" ∧ lp.externalID ∈ payments.filterMap (·.externalID)

variable {dec : Decoding} {lp : LegacyPayment} {legacy : List LegacyPayment} {run : ImportRun} {t : Target}
  {payments : List Payment}

theorem lookup_data : (lp.data dec).lookup "legacy_id" = some ((lp.ownID dec).getD (.num (.int lp.id))) := by
  have hput {data : Metadata} {k : String} {v : Json Number} {c : Prop} [Decidable c] (hk : "legacy_id" ≠ k) :
      (if c then Assoc.put data k v else data).lookup "legacy_id" = data.lookup "legacy_id" := by
    split_ifs
    · rw [Assoc.lookup_put, if_neg hk]
    · rfl
  unfold LegacyPayment.data LegacyPayment.ownID
  by_cases hcu : lp.customData = ""
  · simp (disch := decide) only [if_pos hcu, hput]
    rfl
  simp only [if_neg hcu]
  cases dec.unmarshal lp.customData with
  | none =>
    simp (disch := decide) only [Assoc.lookup_put, if_neg, hput]
    rfl
  | some cd =>
    simp (disch := decide) only [foldl_eq_foldr_reverse, lookup_foldr_put, hput, Option.bind_some]
    cases cd.reverse.lookup "legacy_id" <;> rfl

/-- Such a row is known by the id in its custom data, when it is read again. -/
theorem legacyID_data (hknown : lp.Recognized dec) (hext : lp.externalID = "") :
    legacyID (Json.readBackFields (lp.data dec)) = some lp.id := by
  have hrec := hknown hext
  rw [legacyID, lookup_readBackFields, lookup_data, Option.map_some]
  generalize lp.ownID dec = own at hrec ⊢
  rcases own with _ | own
  · exact congrArg some (toInt_readBack_int.trans hrec)
  · cases own with
    | num n => exact congrArg some hrec
    | _ => exact hrec.elim

theorem skipped_payment (hknown : lp.Recognized dec) {id : Int} {uid : String} :
    lp.Skipped (payments ++ [lp.payment dec id uid]) := by
  unfold LegacyPayment.Skipped
  rw [filterMap_append, filterMap_append, mem_append, mem_append]
  by_cases hext : lp.externalID = ""
  · exact .inl (.inr (by simp [LegacyPayment.payment, legacyID_data hknown hext]))
  · exact .inr ⟨hext, .inr (by simp [LegacyPayment.payment, hext])⟩

theorem LegacyPayment.Skipped.append (h : lp.Skipped payments) (new : List Payment) : lp.Skipped (payments ++ new) := by
  unfold LegacyPayment.Skipped
  rw [filterMap_append, filterMap_append]
  exact h.imp (mem_append_left _) fun h => ⟨h.1, mem_append_left _ h.2⟩

/-- No row was inserted twice, and those inserted are skipped by later runs. -/
structure Imported (legacy : List LegacyPayment) (t : Target) : Prop where
  once : t.imports.Nodup
  skipped : ∀ row ∈ legacy.zipIdx, row.2 ∈ t.imports → row.1.Skipped t.payments.rows

theorem importPayment_cases {row : LegacyPayment × Nat} {t' : Target}
    (h : importPayment dec run (payments.filterMap fun p => legacyID p.customData) (payments.filterMap (·.externalID)) t
      row = t') :
    t' = t ∨ ¬ row.1.Skipped payments ∧ t'.imports = t.imports ++ [row.2] ∧
      ∃ id uid, t'.payments.rows = t.payments.rows ++ [row.1.payment dec id uid] := by
  dsimp only [importPayment] at h
  split at h
  · exact .inl h.symm
  next hid =>
  split at h
  · exact .inl h.symm
  next hext =>
  split at h
  · exact .inl h.symm
  next uid _ =>
  split at h
  · exact .inl h.symm
  split at h
  · exact .inl h.symm
  next inserted hins =>
  subst h
  refine .inr ⟨?_, rfl, _, uid, (Table.insert_eq_some hins).2⟩
  rintro (h | h)
  · exact hid h
  · exact hext h

section

variable (hknown : ∀ row ∈ legacy.zipIdx, row.1.Recognized dec) (h : Imported legacy t)
include hknown h

/-- The loop, for rows at distinct positions: those that are inserted already were read at the start of the run. -/
theorem imported_foldl {rows : List (LegacyPayment × Nat)} (hro : rows.Sublist legacy.zipIdx)
    (hr : ∀ row ∈ rows, row.2 ∈ t.imports → row.1.Skipped payments) :
    Imported legacy (rows.foldl (importPayment dec run (payments.filterMap fun p => legacyID p.customData)
      (payments.filterMap (·.externalID))) t) := by
  have huni {row row' : LegacyPayment × Nat} (hrow : row ∈ legacy.zipIdx) (hrow' : row' ∈ legacy.zipIdx)
      (hsa : row.2 = row'.2) : row = row' := by
    rw [mem_zipIdx_iff_getElem?] at hrow hrow'
    rw [hsa, hrow'] at hrow
    exact Prod.ext (Option.some.inj hrow).symm hsa
  have hno : rows.Nodup := hro.nodup (Nodup.of_map Prod.snd (by simp [nodup_range']))
  induction rows generalizing t with
  | nil => exact h
  | cons row rows ih =>
    rw [nodup_cons] at hno
    have hrow := hro.subset mem_cons_self
    have hre : rows.Sublist legacy.zipIdx := (sublist_cons_self _ _).trans hro
    rw [foldl_cons]
    generalize ht' : importPayment dec run _ _ t row = t'
    rcases importPayment_cases ht' with rfl | ⟨hnew, himp, id, uid, hro'⟩
    · exact ih h hre (fun row' hrow' => hr row' (mem_cons_of_mem _ hrow')) hno.2
    refine ih ⟨?_, fun row' hrow' hmem => ?_⟩ hre (fun row' hrow' hmem => ?_) hno.2
    · rw [himp, nodup_append']
      refine ⟨h.once, nodup_singleton _, fun i hi hi' => hnew ?_⟩
      exact hr row mem_cons_self (mem_singleton.1 hi' ▸ hi)
    · rw [himp, mem_append, mem_singleton] at hmem
      rw [hro']
      rcases hmem with hmem | hmem
      · exact (h.skipped row' hrow' hmem).append _
      · obtain rfl := huni hrow' hrow hmem
        exact skipped_payment (hknown row' hrow)
    · rw [himp, mem_append, mem_singleton] at hmem
      rcases hmem with hmem | hmem
      · exact hr row' (mem_cons_of_mem _ hrow') hmem
      · exact absurd (huni (hre.subset hrow') hrow hmem ▸ hrow') hno.1

theorem imported_migratePayments (run : ImportRun) : Imported legacy (migratePayments dec legacy t run) := by
  unfold migratePayments
  split_ifs
  · exact h
  · exact imported_foldl hknown h (take_sublist _ _) fun row hrow =>
      h.skipped row (mem_of_mem_take hrow)

end

/-- If every payment without an external id is known by its own id when it is read again, no payment is imported twice,
whatever runs there were and wherever they ended. -/
theorem payments_imported_once (dec : Decoding) (legacy : List LegacyPayment)
    (hknown : ∀ lp ∈ legacy, lp.Recognized dec) {t₀ t : Target} (hstart : t₀.imports = []) {tr : List ImportRun}
    (hrun : Run (stepsTo (importStep dec legacy)) t₀ tr t) : t.imports.Nodup := by
  have hem : Imported legacy t₀ := by
    refine ⟨hstart ▸ nodup_nil, fun row _ hmem => ?_⟩
    rw [hstart] at hmem
    cases hmem
  have himp : Imported legacy t := hrun.invariant (Imported legacy) hem fun t run t' h hs => by
    cases hs
    exact imported_migratePayments (fun row hrow => hknown row.1 (fst_mem_of_mem_zipIdx hrow)) h run
  exact himp.once

/-! A payment without an external id. -/

def legacyRow (customData : String) : LegacyPayment :=
  { id := 1, tgID := 7, amount := 100, createdAt := "2024-01-01", customData := customData }

def oneObject : Decoding where
  unmarshal text := if text = "own" then some [("legacy_id", .str "x")] else none
  isTime _ := true

def importRun (length : Nat) : ImportRun := ⟨fun _ => some "u", fun _ => false, length⟩

theorem payments_imported_once_twoRuns :
    (∀ lp ∈ [legacyRow "", legacyRow "text"], lp.Recognized oneObject) ∧
      ∃ t, Run (stepsTo (importStep oneObject [legacyRow "", legacyRow "text"])) {} [importRun 1, importRun 2] t ∧
        t.imports = [0] ∧ t.imports.Nodup := by
  have hknown : ∀ lp ∈ [legacyRow "", legacyRow "text"], lp.Recognized oneObject := by decide +kernel
  refine ⟨hknown, ?_⟩
  exact Run.exists_of_exec_imp (by decide +kernel) fun t hrun himp =>
    ⟨himp, payments_imported_once oneObject _ hknown rfl hrun⟩

/-- The custom data of the payment has a `legacy_id` that is no number, and each run imports it. -/
theorem payment_imported_twice :
    ∃ t, Run (stepsTo (importStep oneObject [legacyRow "own"])) {} [importRun 1, importRun 1] t ∧
      t.imports = [0, 0] ∧ t.payments.rows.map (·.amount) = [100, 100] := Run.exists_of_exec (by decide +kernel)

end Xraytool.Legacy
