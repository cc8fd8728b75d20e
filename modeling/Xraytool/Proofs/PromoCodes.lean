import Xraytool.Proofs.Pricing

/-! One completed payment for each user and promo code. `CreatePayment` refuses a second one that counts, but the status
of a payment can later be set to anything, so one that no longer counts may come back. -/

namespace Xraytool

open Fallible Transition List Option

def Payment.counts (p : Payment) : Bool := p.status == "completed" || p.status == "pending_card"

variable {s s' : Store}

theorem countByUserAndPromo_eq_zero {uid : String} {promoID : Int} : s.countByUserAndPromo uid promoID = 0 ↔
      ∀ p ∈ s.payments.rows, p.userID = uid → p.promoCodeID = some promoID → p.counts = false := by
  rw [Store.countByUserAndPromo, Table.affected, countP_eq_zero]
  refine forall₂_congr fun p _ => ?_
  rw [Bool.and_eq_true, Bool.and_eq_true, beq_iff_eq, beq_iff_eq, ← Payment.counts, and_assoc]
  simp only [not_and, Bool.not_eq_true]

/-- A user has at most one payment that counts with a promo code. -/
def CountsOnce (s : Store) : Prop := ∀ p ∈ s.payments.rows, ∀ q ∈ s.payments.rows, p.counts → q.counts →
  p.userID = q.userID → p.promoCodeID = q.promoCodeID → p.promoCodeID.isSome → p = q

/-- No two payments of a user in status completed carry the same promo code. -/
def CompletedOnce (s : Store) : Prop := ∀ p ∈ s.payments.rows, ∀ q ∈ s.payments.rows, p.status = "completed" →
  q.status = "completed" → p.userID = q.userID → p.promoCodeID = q.promoCodeID → p.promoCodeID.isSome → p = q

theorem CountsOnce.completedOnce (h : CountsOnce s) : CompletedOnce s := by
  intro p hp q hq hps hqs
  exact h p hp q hq (by simp [Payment.counts, hps]) (by simp [Payment.counts, hqs])

/-- An update that makes a payment with a promo code count again finds no payment that counts with it. -/
def BillingCall.RevivesUnused (c : BillingCall) (s : Store) : Prop :=
  ∀ p ∈ s.payments.rows, c.selects p → p.counts = false → (p.setStatus c.newStatus).counts →
    ∀ promoID ∈ p.promoCodeID, s.countByUserAndPromo p.userID promoID = 0

def PaymentEvent.RevivesUnused (s : Store) : PaymentEvent → Prop
  | .create _ _ _ => True
  | .update _ call => call.RevivesUnused s

theorem Created.countsOnce {p : Payment} (h : Created p s s') (hs : CountsOnce s) : CountsOnce s' := by
  have hold (q : Payment) (hq : q ∈ s.payments.rows) (hqc : q.counts) (hu : q.userID = p.userID)
      (hpr : q.promoCodeID = p.promoCodeID) (hso : p.promoCodeID.isSome) : False := by
    obtain ⟨promoID, hp⟩ := Option.isSome_iff_exists.1 hso
    have hze := countByUserAndPromo_eq_zero.1 (h.unused promoID hp) q hq hu (hpr.trans hp)
    rw [hze] at hqc
    cases hqc
  intro q hq q' hq' hqc hqc' hu hpr hso
  rw [h.payments, mem_append, mem_singleton] at hq hq'
  rcases hq with hq | rfl
  · rcases hq' with hq' | rfl
    · exact hs q hq q' hq' hqc hqc' hu hpr hso
    · exact (hold q hq hqc hu hpr (hpr ▸ hso)).elim
  rcases hq' with hq' | rfl
  · exact (hold q' hq' hqc' hu.symm hpr.symm hso).elim
  · rfl

theorem selects_unique {c : BillingCall} {p q : Payment} (hp : p ∈ s.payments.rows) (hq : q ∈ s.payments.rows)
    (hsp : c.selects p) (hsq : c.selects q) : p = q := by
  cases c with
  | processExternalPaymentStatus extID status =>
    simp only [BillingCall.selects, Bool.and_eq_true, beq_iff_eq, and_assoc] at hsp hsq
    exact payment_eq_of_externalID hp hq hsp.1 hsq.1
  | updatePaymentStatus id status expected =>
    simp only [BillingCall.selects, Store.updateStatusWhere, Bool.and_eq_true, beq_iff_eq] at hsp hsq
    exact payment_eq_of_id hp hq (hsp.1.trans hsq.1.symm)

theorem Commits.countsOnce {c : BillingCall} {o : Outcome} (h : Commits c s s' o) (hrev : c.RevivesUnused s)
    (hs : CountsOnce s) : CountsOnce s' := by
  -- a row that counts now did so before, or came back when no row of its user and code counted
  have hbef (p : Payment) (hp : p ∈ s.payments.rows) (hsel : c.selects p)
      (hnow : (p.setStatus c.newStatus).counts) (q : Payment) (hq : q ∈ s.payments.rows) (hqc : q.counts)
      (hu : q.userID = p.userID) (hpr : q.promoCodeID = p.promoCodeID) (hso : p.promoCodeID.isSome) :
      q = p := by
    cases hpc : p.counts with
    | true => exact hs q hq p hp hqc hpc hu hpr (hpr ▸ hso)
    | false =>
      obtain ⟨promoID, hid⟩ := Option.isSome_iff_exists.1 hso
      have hze := countByUserAndPromo_eq_zero.1 (hrev p hp hsel hpc hnow promoID hid) q hq hu
        (hpr.trans hid)
      rw [hze] at hqc
      cases hqc
  intro p' hp' q' hq' hpc hqc hu hpr hso
  obtain ⟨p, hp, hca⟩ := h.row.1 hp'
  obtain ⟨q, hq, hca'⟩ := h.row.1 hq'
  rcases hca with ⟨hsel, rfl⟩ | ⟨hsel, rfl⟩
  · rcases hca' with ⟨hsel', rfl⟩ | ⟨hsel', rfl⟩
    · rw [selects_unique hp hq hsel hsel']
    · rw [hbef p hp hsel hpc q' hq hqc hu.symm hpr.symm hso] at hsel'
      exact absurd hsel hsel'
  · rcases hca' with ⟨hsel', rfl⟩ | ⟨hsel', rfl⟩
    · rw [hbef q hq hsel' hqc p' hp hpc hu hpr (hpr ▸ hso)] at hsel
      exact absurd hsel' hsel
    · exact hs p' hp q' hq hpc hqc hu hpr hso

theorem paymentStep_countsOnce {e : PaymentEvent} (h : paymentStep s e = some s') (hrev : e.RevivesUnused s)
    (hs : CountsOnce s) : CountsOnce s' := by
  cases e with
  | create env req seen =>
    dsimp only [paymentStep] at h
    split at h
    · rename_i s1 p hcre
      cases h
      exact (createPayment_ok hcre).1.countsOnce hs
    · cases h
      exact hs
  | update env call =>
    dsimp only [paymentStep] at h
    split at h
    · rename_i s1 o hap
      cases h
      exact (apply_commits hap).countsOnce hrev hs
    · cases h
      exact hs

/-- In every run from a store where each user has at most one payment that counts with a promo code, no user ever has
two completed payments with one code, if no update brings a payment back while another one counts. -/
theorem one_completed_per_promo (s₀ : Store) (hs₀ : CountsOnce s₀) (tr : List PaymentEvent) (s : Store)
    (h : Run (Guarded (fun s e => PaymentEvent.RevivesUnused s e) (stepsTo paymentStep)) s₀ tr s) : CompletedOnce s := by
  apply CountsOnce.completedOnce
  refine h.invariant_of_guard CountsOnce hs₀ ?_
  intro s e s' hI hG hs
  exact paymentStep_countsOnce hs hG hI

instance (s : Store) (e : PaymentEvent) : Decidable (e.RevivesUnused s) := by
  unfold PaymentEvent.RevivesUnused
  split
  · infer_instance
  · unfold BillingCall.RevivesUnused
    infer_instance

def allSucceed : BillingEnv := ⟨0, fun _ => false⟩

/-- The user's payment is canceled, reopened while no other one counts, and completed. -/
theorem one_completed_per_promo_reopened : ∃ s,
    Run (Guarded (fun s e => PaymentEvent.RevivesUnused s e) (stepsTo paymentStep)) promoShop
      [.create {} withPromo promoShop, .update allSucceed (.updatePaymentStatus 1 "canceled" []),
        .update allSucceed (.updatePaymentStatus 1 "pending_card" []),
        .update allSucceed (.updatePaymentStatus 1 "completed" [])] s ∧
      (s.payments.rows.map fun p => (p.status, p.promoCodeID)) = [("completed", some 5)] ∧ CompletedOnce s := by
  exact Run.exists_of_guardedExec_imp (by decide +kernel) fun s hrun hro =>
    ⟨hro, one_completed_per_promo promoShop (by intro p hp; cases hp) _ s hrun⟩

/-- The first payment is canceled and the second one completed; then the first one is completed too. -/
theorem promo_completed_twice : ∃ s,
    Run (stepsTo paymentStep) promoShop
      [.create {} withPromo promoShop, .update allSucceed (.updatePaymentStatus 1 "canceled" []),
        .create {} withPromo promoShop, .update allSucceed (.updatePaymentStatus 2 "completed" []),
        .update allSucceed (.updatePaymentStatus 1 "completed" [])] s ∧
      (s.payments.rows.map fun p => (p.id, p.userID, p.status, p.promoCodeID)) =
        [(1, "u1", "completed", some 5), (2, "u1", "completed", some 5)] ∧ ¬ CompletedOnce s := by
  refine Run.exists_of_exec_imp (by decide +kernel) fun s hrun hro => ⟨hro, fun hon => ?_⟩
  have hone : (1, "u1", "completed", some 5) ∈ s.payments.rows.map fun p => (p.id, p.userID, p.status, p.promoCodeID) := by
    simp [hro]
  have htwo : (2, "u1", "completed", some 5) ∈ s.payments.rows.map fun p => (p.id, p.userID, p.status, p.promoCodeID) := by
    simp [hro]
  obtain ⟨p, hp, hpeq⟩ := mem_map.1 hone
  obtain ⟨q, hq, hqeq⟩ := mem_map.1 htwo
  simp only [Prod.mk.injEq] at hpeq hqeq
  have hpq := hon p hp q hq hpeq.2.2.1 hqeq.2.2.1 (hpeq.2.1.trans hqeq.2.1.symm)
    (hpeq.2.2.2.trans hqeq.2.2.2.symm) (by simp [hpeq.2.2.2])
  rw [hpq, hqeq.1] at hpeq
  exact absurd hpeq.1 (by decide)

/-! A promo code is redeemed once by a user, by a payment or by a renewal from the balance. A renewal consults the
records of both, but `CreatePayment` and the status updates only look at payments. -/

instance : Std.Symm PromoCode.Clash := ⟨fun _ _ h => h.imp Eq.symm Eq.symm⟩

/-- What is documented of a pricing engine: the promo code it applies is the one of the request. -/
def AppliesRequested (pricing : Option PricingEngine) : Prop :=
  ∀ engine ∈ pricing, ∀ req r, engine req = .ok r → ∀ id ∈ r.appliedPromoID, ∃ promo ∈ req.promo, promo.id = id

def PromoEvent.AppliesRequested : PromoEvent → Prop
  | .create env _ => Xraytool.AppliesRequested env.pricing
  | .update _ _ | .autoRenew _ _ _ _ => True

theorem cheaperPrice_promo {plan : Plan} {amount id : Int} {promo : Option PromoCode}
    (h : (cheaperPrice plan amount promo).appliedPromoID = some id) : ∃ p, promo = some p ∧ p.id = id := by
  dsimp only [cheaperPrice] at h
  rcases promo with - | promo
  · split_ifs at h
    cases h
  · split_ifs at h
    exact ⟨promo, rfl, some.inj h⟩

theorem appliesRequested_default : AppliesRequested (some PricingDefault.calculatePrice) := by
  rintro _ ⟨⟩ req r h id hid
  have heli (p : PromoCode) (hp : PricingDefault.eligiblePromo req = some p) : p ∈ req.promo := by
    unfold PricingDefault.eligiblePromo at hp
    split_ifs at hp
    exact (filter_eq_some_iff.1 hp).1
  unfold PricingDefault.calculatePrice at h
  split at h
  · split_ifs at h
    cases h
    obtain ⟨p, hp, rfl⟩ := map_eq_some_iff.1 hid
    exact ⟨p, heli p hp, rfl⟩
  · cases h
    obtain ⟨p, hp, rfl⟩ := cheaperPrice_promo hid
    exact ⟨p, heli p hp, rfl⟩

variable {req : CreatePaymentRequest} {env : PaymentEnv} {s : Store} {uid : String} {promo : PromoCode}
  {st : PromoState}

theorem calculatePaymentPrice_promo {r : PricingResult} (hpri : AppliesRequested env.pricing)
    (h : calculatePaymentPrice env uid req s = .ok r) {id : Int} (hid : r.appliedPromoID = some id) :
    ∃ promo, requestedPromo env req s = some promo ∧ promo.id = id := by
  unfold calculatePaymentPrice at h
  split at h
  · rename_i engine heng
    simp only [calculatePriceWithEngine, bind_eq_ok, mapError_eq_ok] at h
    obtain ⟨plan, -, h⟩ := h
    exact hpri engine heng _ r h id hid
  · simp only [calculatePriceLegacy, bind_eq_ok] at h
    obtain ⟨plan, -, h⟩ := h
    split at h
    · cases h
      obtain ⟨p, hp, rfl⟩ := map_eq_some_iff.1 hid
      exact ⟨p, (filter_eq_some_iff.1 hp).1, rfl⟩
    cases h
    obtain ⟨p, hp, rfl⟩ := cheaperPrice_promo hid
    exact ⟨p, (filter_eq_some_iff.1 hp).1, rfl⟩

theorem findPromoByCode_ok {code : String} (h : s.findPromoByCode code = .ok promo) :
    promo ∈ s.promos.rows ∧ promo.code = code := found_first_ok PromoCode.code h

theorem requestedPromo_eq_some (h : requestedPromo env req s = some promo) :
    promo ∈ s.promos.rows ∧ promo.code = toUpper (trimSpace req.promoCode) := by
  unfold requestedPromo at h
  split_ifs at h
  split at h
  · rename_i promo' hfi
    cases h
    exact findPromoByCode_ok (of_issue hfi)
  · cases h

variable {s' : Store}

theorem createPayment_promo {seen : Store} {p : Payment} (hpri : AppliesRequested env.pricing)
    (h : createPayment env req seen s = .ok (s', p)) :
    ∃ user, findPayer env req seen = .ok user ∧ p.userID = user.id ∧ ∀ id, p.promoCodeID = some id →
      ∃ promo ∈ seen.promos.rows, promo.id = id ∧ promo.code = toUpper (trimSpace req.promoCode) := by
  obtain ⟨-, _, user, price, hu, hpr, rfl⟩ := createPayment_ok h
  refine ⟨user, hu, rfl, fun id hid => ?_⟩
  obtain ⟨promo, hpro, rfl⟩ := calculatePaymentPrice_promo hpri hpr hid
  obtain ⟨hmem, hco⟩ := requestedPromo_eq_some hpro
  exact ⟨promo, hmem, rfl, hco⟩

def Store.recordsPromo (s : Store) (userID code : String) : Bool :=
  match s.findLatestByUserID userID with
  | .ok sub => subscriptionUsedPromo sub.metadata code
  | .error _ => false

def Store.Redeemed (s : Store) (userID : String) (promoID : Int) : Prop :=
  ∃ promo ∈ s.promos.rows, promo.id = promoID ∧ s.recordsPromo userID promo.code

theorem PromosKept.redeemed_of (h : PromosKept s s') (hmem : promo ∈ s.promos.rows)
    (hrec : s'.recordsPromo uid promo.code = true) : s'.Redeemed uid promo.id := by
  have hkey : promoKey promo ∈ s'.promos.rows.map promoKey := h.promos ▸ mem_map_of_mem hmem
  obtain ⟨promo', hmem', heq⟩ := mem_map.1 hkey
  simp only [promoKey, Prod.mk.injEq] at heq
  exact ⟨promo', hmem', heq.1, heq.2 ▸ hrec⟩

theorem PromosKept.redeemed (h : PromosKept s s') {promoID : Int} (hr : s.Redeemed uid promoID) :
    s'.Redeemed uid promoID := by
  obtain ⟨promo, hmem, rfl, hrec⟩ := hr
  refine h.redeemed_of hmem ?_
  unfold Store.recordsPromo at hrec ⊢
  split at hrec
  · rename_i sub hsub
    obtain ⟨sub', hsub', hus⟩ := h.uses uid sub hsub
    rw [hsub']
    exact hus _ hrec
  · cases hrec

theorem not_redeemed (hmem : promo ∈ s.promos.rows) (h : s.recordsPromo uid promo.code = false) :
    ¬ s.Redeemed uid promo.id := by
  rintro ⟨promo', hmem', hid, hrec⟩
  obtain rfl := s.promos.eq_of_clash hmem' hmem (.inl hid)
  rw [h] at hrec
  cases hrec

/-- No user has redeemed a promo code twice, counting renewals and the payments that count. -/
def RedeemedOnce (st : PromoState) : Prop := ∀ userID promoID,
  st.renewals.count (userID, promoID) + st.store.countByUserAndPromo userID promoID ≤ 1

structure Redemptions (st : PromoState) : Prop where
  payments : CountsOnce st.store
  nodup : st.renewals.Nodup
  recorded : ∀ r ∈ st.renewals, st.store.Redeemed r.1 r.2
  unpaid : ∀ r ∈ st.renewals, st.store.countByUserAndPromo r.1 r.2 = 0

theorem CountsOnce.count_le_one (h : CountsOnce s) (uid : String) (promoID : Int) :
    s.countByUserAndPromo uid promoID ≤ 1 := by
  refine Table.affected_le_one (fun p => .inl rfl) ?_
  intro p hp q hq hpc hqc
  rw [Bool.and_eq_true, Bool.and_eq_true, beq_iff_eq, beq_iff_eq] at hpc hqc
  refine h p hp q hq hpc.2 hqc.2 (hpc.1.1.trans hqc.1.1.symm) (hpc.1.2.trans hqc.1.2.symm) ?_
  simp [hpc.1.2]

theorem Redemptions.redeemedOnce (h : Redemptions st) : RedeemedOnce st := by
  intro uid promoID
  by_cases hmem : (uid, promoID) ∈ st.renewals
  · have hone := count_eq_one_of_mem h.nodup hmem
    have hze : st.store.countByUserAndPromo uid promoID = 0 := h.unpaid _ hmem
    omega
  have hze := count_eq_zero_of_not_mem hmem
  have hone := h.payments.count_le_one uid promoID
  omega

/-- The step finds the promo code unrecorded where it does not look itself: a payment with a code is created only if
the payer's subscription does not record it, an update that makes a payment count again finds no payment that counts
and no record, and a renewal names no code by a blank text. -/
def PromoEvent.FindsUnused (s : Store) : PromoEvent → Prop
  | .create env req => ∀ user ∈ (findPayer env req s).toOption,
    s.recordsPromo user.id (toUpper (trimSpace req.promoCode)) = false
  | .update _ call => call.RevivesUnused s ∧
    ∀ p ∈ s.payments.rows, call.selects p → p.counts = false → (p.setStatus call.newStatus).counts →
      ∀ promo ∈ s.promos.rows, p.promoCodeID = some promo.id → s.recordsPromo p.userID promo.code = false
  | .autoRenew _ _ _ body => body.promoCode = "" ∨ trimSpace body.promoCode ≠ ""

theorem Redemptions.create (hst : Redemptions st) {p : Payment} (hpri : AppliesRequested env.pricing)
    (hunu : PromoEvent.FindsUnused st.store (.create env req))
    (h : createPayment env req st.store st.store = .ok (s', p)) : Redemptions { st with store := s' } := by
  obtain ⟨hcre, -⟩ := createPayment_ok h
  obtain ⟨user, hu, hp, hpr⟩ := createPayment_promo hpri h
  have hke : PromosKept st.store s' := .of_eq hcre.promos hcre.subscriptions
  refine ⟨hcre.countsOnce hst.payments, hst.nodup, fun r hr => hke.redeemed (hst.recorded r hr), fun r hr => ?_⟩
  rw [countByUserAndPromo_eq_zero]
  intro q hq hqu hqpr
  rw [hcre.payments, mem_append, mem_singleton] at hq
  rcases hq with hq | rfl
  · exact countByUserAndPromo_eq_zero.1 (hst.unpaid r hr) q hq hqu hqpr
  -- the new payment carries a code that the payer's subscription does not record
  obtain ⟨promo, hmem, hid, hco⟩ := hpr r.2 hqpr
  have hfr : st.store.recordsPromo r.1 promo.code = false := by
    rw [hco, ← hqu, hp]
    exact hunu user (mem_toOption.2 hu)
  exact absurd (hid ▸ hst.recorded r hr) (not_redeemed hmem hfr)

theorem Redemptions.update (hst : Redemptions st) {env : BillingEnv} {call : BillingCall} {o : Outcome}
    (hunu : PromoEvent.FindsUnused st.store (.update env call)) (h : call.apply env st.store = .ok (s', o)) :
    Redemptions { st with store := s' } := by
  have hcom := apply_commits h
  have hke := promosKept_apply h
  refine ⟨hcom.countsOnce hunu.1 hst.payments, hst.nodup, fun r hr => hke.redeemed (hst.recorded r hr), fun r hr => ?_⟩
  have hze := countByUserAndPromo_eq_zero.1 (hst.unpaid r hr)
  rw [countByUserAndPromo_eq_zero]
  intro q' hq' hqu hqpr
  obtain ⟨q, hq, ⟨hsel, rfl⟩ | ⟨-, rfl⟩⟩ := hcom.row.1 hq'
  · -- a payment that counts again would be one whose code is not recorded
    have hbef : q.counts = false := hze q hq hqu hqpr
    by_contra hnow
    obtain ⟨promo, hmem, hid, hrec⟩ := hst.recorded r hr
    have hfr := hunu.2 q hq hsel hbef (by simpa using hnow) promo hmem (hid ▸ hqpr)
    rw [show q.userID = r.1 from hqu, hrec] at hfr
    cases hfr
  · exact hze q' hq hqu hqpr

theorem Redemptions.congr (hst : Redemptions st) (hke : PromosKept st.store s')
    (hpay : s'.payments = st.store.payments) : Redemptions { st with store := s' } := by
  refine ⟨?_, hst.nodup, fun r hr => hke.redeemed (hst.recorded r hr), fun r hr => ?_⟩
  · intro p hp q hq
    rw [hpay] at hp hq
    exact hst.payments p hp q hq
  · rw [Store.countByUserAndPromo, hpay]
    exact hst.unpaid r hr

theorem recordsPromo_of_ok {sub : Subscription} (h : s.findLatestByUserID uid = .ok sub) (code : String) :
    s.recordsPromo uid code = subscriptionUsedPromo sub.metadata code := by
  rw [Store.recordsPromo, h]

theorem Redemptions.autoRenew (hst : Redemptions st) {env : ApiEnv} {plat id : String} {body : AutoRenewBody}
    (hunu : PromoEvent.FindsUnused st.store (.autoRenew env plat id body)) :
    Redemptions ⟨(handleAutoRenew env plat id body st.store).store,
      st.renewals ++ (redemption env plat id body st.store).toList⟩ := by
  rcases handleAutoRenew_store with ⟨hn, hsto⟩ | ⟨uid, q, s', t, hso, hsto⟩
  · rw [redemption, hn, hsto]
    simpa using hst
  obtain ⟨body', user, hbo, rfl, hqu, htx⟩ := committedRenewal_eq_some hso
  obtain ⟨hke, hpay, hrec⟩ := autoRenewTx_ok htx
  have hke' : PromosKept st.store { s' with notifications := t } := hke.trans (.of_eq rfl rfl)
  have hold : Redemptions { st with store := { s' with notifications := t } } := hst.congr hke' hpay
  rw [redemption, hso, hsto]
  cases happ : q.applied with
  | none => simpa [happ] using hold
  | some applied =>
    obtain ⟨hco, hask, hfi, hcou⟩ := quote_applied hqu happ
    obtain ⟨hmem, hpr⟩ := findPromoByCode_ok hfi
    rw [check_promoCode hbo] at hco hask
    have hbl : trimSpace applied.code ≠ "" := by
      rw [hco, trimSpace_toUpper, trimSpace_idem]
      exact fun h => hunu.resolve_left hask (toUpper_eq_empty.1 h)
    obtain ⟨⟨sub, hsub, hfr⟩, sub', hsub', hus⟩ := hrec applied happ hbl
    have hnew : (user.id, applied.promo.id) ∉ st.renewals := by
      intro hr
      refine not_redeemed hmem ?_ (hst.recorded _ hr)
      rw [recordsPromo_of_ok hsub, hpr, hfr]
    have hred : Store.Redeemed { s' with notifications := t } user.id applied.promo.id := by
      refine hke'.redeemed_of hmem ?_
      rw [hpr, recordsPromo_of_ok (s := { s' with notifications := t }) hsub', hus]
    simp only [bind_some, happ, map_some, toList_some]
    refine ⟨hold.payments, ?_, ?_, ?_⟩
    · refine nodup_append.2 ⟨hst.nodup, nodup_singleton _, ?_⟩
      rintro r hr r' hr' rfl
      obtain rfl := mem_singleton.1 hr'
      exact hnew hr
    · intro r hr
      rcases mem_append.1 hr with hr | hr
      · exact hold.recorded r hr
      · obtain rfl := mem_singleton.1 hr
        exact hred
    · intro r hr
      rcases mem_append.1 hr with hr | hr
      · exact hold.unpaid r hr
      obtain rfl := mem_singleton.1 hr
      rw [Store.countByUserAndPromo, hpay]
      exact hcou

theorem promoStep_redemptions {st' : PromoState} {e : PromoEvent} (h : promoStep st e = some st')
    (hpri : e.AppliesRequested) (hunu : e.FindsUnused st.store) (hst : Redemptions st) : Redemptions st' := by
  cases e with
  | create env req =>
    dsimp only [promoStep, paymentStep] at h
    split at h
    · rename_i s' p hcre
      cases h
      exact hst.create hpri hunu hcre
    · cases h
      exact hst
  | update env call =>
    dsimp only [promoStep, paymentStep] at h
    split at h
    · rename_i s' o hap
      cases h
      exact hst.update hunu hap
    · cases h
      exact hst
  | autoRenew env plat id body =>
    cases h
    exact hst.autoRenew hunu

theorem redeemedOnce_run {s₀ : Store} (hs₀ : CountsOnce s₀) {tr : List PromoEvent}
    (hpricing : ∀ e ∈ tr, e.AppliesRequested)
    (h : Run (Guarded (fun st e => PromoEvent.FindsUnused st.store e) (stepsTo promoStep)) ⟨s₀, []⟩ tr st) :
    RedeemedOnce st := by
  apply Redemptions.redeemedOnce
  have hin : Redemptions ⟨s₀, []⟩ := ⟨hs₀, nodup_nil, nofun, nofun⟩
  refine (h.guard_labels hpricing).invariant_of_guard Redemptions hin ?_
  rintro st e st' hst ⟨hunu, hpricing⟩ hste
  exact promoStep_redemptions hste hpricing hunu hst

/-- In every run from a store where no promo code is used by two payments that count, in which every step finds the
code unrecorded where it does not look itself, no user redeems a promo code twice. -/
theorem promo_redeemed_once (s₀ : Store) (hs₀ : CountsOnce s₀) (tr : List PromoEvent)
    (hpricing : ∀ e ∈ tr, e.AppliesRequested) (st : PromoState)
    (h : Run (Guarded (fun st e => PromoEvent.FindsUnused st.store e) (stepsTo promoStep)) ⟨s₀, []⟩ tr st) :
    RedeemedOnce st := redeemedOnce_run hs₀ hpricing h

/-- Of the service's own calculation and the default engine nothing need be assumed. -/
theorem redeemedOnce_default {s₀ : Store} (hs₀ : CountsOnce s₀) {tr : List PromoEvent}
    (hdefault : ∀ env req, .create env req ∈ tr → env.pricing = none ∨ env.pricing = some PricingDefault.calculatePrice)
    (h : Run (Guarded (fun st e => PromoEvent.FindsUnused st.store e) (stepsTo promoStep)) ⟨s₀, []⟩ tr st) :
    RedeemedOnce st := by
  refine redeemedOnce_run hs₀ (fun e he => ?_) h
  cases e with
  | create env req =>
    rcases hdefault env req he with hn | hdef
    · exact fun engine heng => by simp [hn] at heng
    · rw [PromoEvent.AppliesRequested, hdef]
      exact appliesRequested_default
  | update env call => trivial
  | autoRenew env plat id body => trivial

instance (s : Store) (e : PromoEvent) : Decidable (e.FindsUnused s) := by
  unfold PromoEvent.FindsUnused
  split
  · infer_instance
  · unfold BillingCall.RevivesUnused
    infer_instance
  · infer_instance

def renewWithPromo : PromoEvent :=
  .autoRenew { ext := noExternals } "uuid" "u1" { planID := some 1, promoCode := "sale" }

/-- The user pays with the code, and the renewal that asks for it is refused. -/
theorem promo_redeemed_once_paid : ∃ st,
    Run (Guarded (fun st e => PromoEvent.FindsUnused st.store e) (stepsTo promoStep)) ⟨promoShop, []⟩
      [.create {} withPromo, .update allSucceed (.updatePaymentStatus 1 "completed" []), renewWithPromo] st ∧
      st.renewals = [] ∧ st.store.countByUserAndPromo "u1" 5 = 1 ∧ RedeemedOnce st := by
  refine Run.exists_of_guardedExec_imp (P := fun st => st.renewals = [] ∧ st.store.countByUserAndPromo "u1" 5 = 1)
    (by decide +kernel) fun st hrun ⟨hren, hco⟩ => ⟨hren, hco,
      promo_redeemed_once promoShop (by intro p hp; cases hp) _ ?_ st hrun⟩
  simp [PromoEvent.AppliesRequested, AppliesRequested, renewWithPromo]

/-- The user renews from the balance with the code, and then pays for the plan with the same code. -/
theorem promo_redeemed_twice : ∃ st,
    Run (stepsTo promoStep) ⟨promoShop, []⟩
      [renewWithPromo, .create {} withPromo, .update allSucceed (.updatePaymentStatus 1 "completed" [])] st ∧
      st.renewals = [("u1", 5)] ∧
      (st.store.payments.rows.map fun p => (p.userID, p.amount, p.status, p.promoCodeID)) =
        [("u1", 120, "completed", some 5)] ∧ ¬ RedeemedOnce st := by
  refine Run.exists_of_exec_imp (P := fun st => st.renewals = [("u1", 5)] ∧
      (st.store.payments.rows.map fun p => (p.userID, p.amount, p.status, p.promoCodeID)) =
        [("u1", 120, "completed", some 5)] ∧ st.store.countByUserAndPromo "u1" 5 = 1)
    (by decide +kernel) fun st hrun ⟨hren, hro, hco⟩ => ⟨hren, hro, fun hon => ?_⟩
  have htw := hon "u1" 5
  rw [hren, hco] at htw
  exact absurd htw (by decide)

end Xraytool

/-! The limit of a promo code and its edits. An edit that has read the row before a payment counts its use writes the
old count back, and the use can be taken again. -/

namespace Xraytool.PromoEdits

open ReadCommitted Transition Function

/-- An edit saves the count of uses that is in the row. -/
def SavesCount (st : Scene) (l : Time × Nat × Action) : Prop := match l.2.2, st.calls l.2.1 with
  | .statement, .update promo => promo.usesCount = st.row.committed.usesCount
  | _, _ => True

instance (st : Scene) (l : Time × Nat × Action) : Decidable (SavesCount st l) := by
  unfold SavesCount
  split <;> infer_instance

/-- An edit does not change the limit. -/
def KeepsLimit (M : Int) (l : Time × Nat × Action) : Prop := match l.2.2 with
  | .editPromoCode payload => payload.maxUses < 0 ∨ payload.maxUses = M
  | _ => True

instance (M : Int) (l : Time × Nat × Action) : Decidable (KeepsLimit M l) := by
  unfold KeepsLimit
  split <;> infer_instance

namespace Point

/-- The limit a call has read or is going to save is `M`. -/
def Knows (M : Int) : Point → Prop
  | .incrementUses _ maxUses => maxUses = M
  | .findToEdit payload => payload.maxUses < 0 ∨ payload.maxUses = M
  | .update promo => promo.maxUses = M
  | _ => True

def counted : Point → Bool
  | .countByUserAndPromo _ | .create _ | .commit _ => true
  | _ => false

end Point

/-- The uses that are counted include the payments, and a transaction that has counted its own holds the row. -/
structure Kept (M : Int) (st : Scene) : Prop where
  limit : st.row.committed.maxUses = M
  payments : st.payments.length ≤ st.row.committed.usesCount
  bound : st.payments.length ≤ M
  held : ∀ i v, st.row.uncommitted = some (i, v) →
    v.maxUses = M ∧ v.usesCount = st.row.committed.usesCount + 1 ∧ v.usesCount ≤ M ∧ (st.calls i).counted = true
  counted : ∀ i, (st.calls i).counted = true → st.row.HeldBy i
  knows : ∀ i, (st.calls i).Knows M

variable {M : Int} {st st' : Scene} {i : Nat} {point : Point} {promo : PromoCode} {p : Payment}
  {row : Row Nat PromoCode}

section

variable (h : Kept M st)
include h

theorem Kept.knows_update (hpo : point.Knows M) (j : Nat) : (update st.calls i point j).Knows M := by
  by_cases hj : j = i
  · rw [hj, update_self]
    exact hpo
  · rw [update_of_ne hj]
    exact h.knows j

theorem Kept.goTo (hcou : point.counted = (st.calls i).counted) (hkn : point.Knows M) : Kept M (st.goTo i point) := by
  have hsa (j : Nat) : (update st.calls i point j).counted = (st.calls j).counted := by
    by_cases hj : j = i
    · rw [hj, update_self, hcou]
    · rw [update_of_ne hj]
  refine ⟨h.limit, h.payments, h.bound, fun j v hv => ?_, fun j hj => h.counted j ?_, h.knows_update hkn⟩
  · have := h.held j v hv
    rwa [← hsa j] at this
  · rw [← hsa j]
    exact hj

theorem Kept.counted_eq_false (hhe : ¬ st.row.HeldBy i) : (st.calls i).counted = false := by
  by_contra hcou
  exact hhe (h.counted i (by simpa using hcou))

theorem Kept.release (hhe : st.row.HeldBy i) {payments : List Payment}
    (hli : promo.maxUses = M) (hpay : payments.length ≤ promo.usesCount) (hbo : payments.length ≤ M) :
    Kept M ({ st with row := ⟨promo, none⟩, payments := payments }.goTo i .idle) := by
  refine ⟨hli, hpay, hbo, fun j v hv => (by cases hv), fun j hj => ?_, h.knows_update trivial⟩
  · change (update st.calls i .idle j).counted = true at hj
    by_cases hji : j = i
    · rw [hji, update_self] at hj
      cases hj
    · rw [update_of_ne hji] at hj
      exact absurd ((h.counted j hj).unique hhe) hji

theorem Kept.abort : Kept M (st.abort i) := by
  unfold Scene.abort
  by_cases hhe : st.row.HeldBy i
  · rw [Row.rollback_of_held hhe]
    exact h.release hhe h.limit h.payments h.bound
  · rw [Row.rollback_of_not_held hhe]
    exact h.goTo (h.counted_eq_false hhe).symm trivial

theorem Kept.use (hc : (st.calls i).counted = false) (hbe : (st.row.read i).usesCount < M)
    (hw : st.row.write i PromoCode.use = some row) :
    Kept M ({ st with row := row }.goTo i (.countByUserAndPromo p)) := by
  obtain ⟨hfr, rfl⟩ := Row.write_eq_some.1 hw
  -- nobody holds the row: its holder would be this call, which has counted nothing
  have hn (j : Nat) : ¬ st.row.HeldBy j := by
    intro hj
    obtain rfl := hfr j hj
    obtain ⟨v, hv⟩ := hj
    have := (h.held j v hv).2.2.2
    rw [hc] at this
    cases this
  rw [Row.read_of_not_held (hn i)] at hbe ⊢
  refine ⟨h.limit, h.payments, h.bound, fun j v hv => ?_, fun j hj => ?_, h.knows_update trivial⟩
  · cases hv
    refine ⟨h.limit, rfl, Int.add_one_le_of_lt hbe, ?_⟩
    change (update st.calls i _ i).counted = true
    rw [update_self]
    rfl
  · change (update st.calls i _ j).counted = true at hj
    by_cases hji : j = i
    · exact ⟨_, by rw [hji]; rfl⟩
    · rw [update_of_ne hji] at hj
      exact absurd (h.counted j hj) (hn j)

theorem Kept.pay (hc : (st.calls i).counted = true) :
    Kept M ({ st with row := st.row.commit i, payments := st.payments ++ [p] }.goTo i .idle) := by
  obtain ⟨v, hv⟩ := h.counted i hc
  obtain ⟨hli, hco, hbo, -⟩ := h.held i v hv
  have hpay := h.payments
  rw [Row.commit_of_held hv]
  refine h.release ⟨v, hv⟩ hli ?_ ?_
  all_goals
    rw [List.length_append, List.length_singleton]
    omega

theorem Kept.save (hc : st.calls i = .update promo)
    (hco : promo.usesCount = st.row.committed.usesCount) (hw : st.row.write i (fun _ => promo) = some row) :
    Kept M ({ st with row := row.commit i }.goTo i .idle) := by
  obtain ⟨hfr, rfl⟩ := Row.write_eq_some.1 hw
  have hid : (st.calls i).counted = false := by rw [hc]; rfl
  have hli : promo.maxUses = M := by
    have := h.knows i
    rwa [hc] at this
  rw [Row.commit_of_held rfl]
  have hsa : Kept M { st with row := ⟨promo, none⟩ } := by
    refine ⟨hli, ?_, h.bound, fun j v hv => (by cases hv), fun j hj => ?_, h.knows⟩
    · rw [hco]
      exact h.payments
    obtain rfl := hfr j (h.counted j hj)
    rw [hid] at hj
    cases hj
  exact hsa.goTo hid.symm trivial

theorem Kept.maxUses_read (i : Nat) : (st.row.read i).maxUses = M := by
  by_cases hhe : st.row.HeldBy i
  · obtain ⟨v, hv⟩ := hhe
    rw [Row.read_of_held hv]
    exact (h.held i v hv).1
  · rw [Row.read_of_not_held hhe]
    exact h.limit

end

theorem EditPayload.maxUses_apply {pay : EditPayload} (h : pay.maxUses < 0 ∨ pay.maxUses = M)
    (hpr : promo.maxUses = M) : (pay.apply promo).maxUses = M := by
  unfold EditPayload.apply
  dsimp only
  split_ifs with hset
  · exact h.resolve_left (not_lt.2 hset)
  · exact hpr

theorem kept_issue {now : Time} (hM : 0 < M) (h : Kept M st) (hsa : SavesCount st (now, i, .statement))
    (hs : st.issue now i (st.calls i) = some st') : Kept M st' := by
  have hkn := h.knows i
  unfold SavesCount at hsa
  generalize hc : st.calls i = call at hkn hsa hs
  cases call with
  | idle => cases hs
  | findByID p =>
    rw [Scene.issue] at hs
    split at hs
    · cases hs
      exact h.abort
    · cases hs
      exact h.goTo (hc ▸ rfl) (h.maxUses_read i)
  | incrementUses p maxUses =>
    obtain rfl : maxUses = M := hkn
    rw [Scene.issue, Scene.incrementUses] at hs
    split at hs
    · cases hs
      exact h.abort
    rename_i hli
    obtain ⟨row, hw, rfl⟩ := Option.map_eq_some_iff.1 hs
    exact h.use (hc ▸ rfl) (not_le.1 fun hle => hli ⟨hM, hle⟩) hw
  | countByUserAndPromo p =>
    rw [Scene.issue] at hs
    split at hs
    · cases hs
      exact h.abort
    · cases hs
      exact h.goTo (hc ▸ rfl) trivial
  | create p =>
    cases hs
    exact h.goTo (hc ▸ rfl) trivial
  | commit p =>
    cases hs
    exact h.pay (hc ▸ rfl)
  | findToEdit pay =>
    cases hs
    exact h.goTo (hc ▸ rfl) (EditPayload.maxUses_apply hkn (h.maxUses_read i))
  | update promo =>
    obtain ⟨row, hw, rfl⟩ := Option.map_eq_some_iff.1 hs
    exact h.save hc hsa hw

theorem kept_promoEditStep {l : Time × Nat × Action} (hM : 0 < M) (h : Kept M st) (hsa : SavesCount st l)
    (hli : KeepsLimit M l) (hs : promoEditStep st l = some st') : Kept M st' := by
  obtain ⟨now, i, action⟩ := l
  unfold promoEditStep at hs
  dsimp only at hs
  cases action with
  | createPayment p =>
    split_ifs at hs with hid
    cases hs
    exact h.goTo (by rw [hid]; rfl) trivial
  | editPromoCode pay =>
    split_ifs at hs with hid
    cases hs
    exact h.goTo (by rw [hid]; rfl) hli
  | statement => exact kept_issue hM h hsa hs
  | failure =>
    dsimp only at hs
    split at hs
    · rename_i p maxUses hc
      cases hs
      have hmax := h.knows i
      rw [hc] at hmax
      obtain rfl : maxUses = M := hmax
      rw [if_pos hM]
      exact h.abort
    · cases hs
      exact h.abort

/-- Where a run begins: the payments with the promo code are counted, and no call is in progress. -/
structure AtRest (M : Int) (st : Scene) : Prop where
  limit : st.row.committed.maxUses = M
  payments : st.payments.length ≤ st.row.committed.usesCount
  bound : st.payments.length ≤ M
  free : st.row.uncommitted = none
  idle : ∀ i, st.calls i = .idle

theorem AtRest.kept (h : AtRest M st) : Kept M st := by
  refine ⟨h.limit, h.payments, h.bound, fun i v hv => ?_, fun i hi => ?_, fun i => ?_⟩
  · rw [h.free] at hv
    cases hv
  · rw [h.idle] at hi
    cases hi
  · rw [h.idle]
    trivial

/-- In every run of payments and edits in which the edits leave the limit alone and save the count that is in the row,
the payments with the promo code stay within the limit. -/
theorem payments_le_maxUses (M : Int) (hM : 0 < M) (st₀ st : Scene) (tr : List (Time × Nat × Action))
    (hstart : AtRest M st₀) (hlimit : ∀ l ∈ tr, KeepsLimit M l)
    (hrun : Run (Guarded SavesCount (stepsTo promoEditStep)) st₀ tr st) : st.payments.length ≤ M := by
  have hke : Kept M st := (hrun.guard_labels hlimit).invariant_of_guard (Kept M) hstart.kept
    fun st l st' h hg hs => kept_promoEditStep hM h hg.1 hg.2 hs
  exact hke.bound

/-! A promo code that can be used once. -/

def onceCode : PromoCode := { id := 1, code := "ONCE", discountPercent := 10, maxUses := 1 }

def onceScene : Scene where
  row := ⟨onceCode, none⟩

theorem onceScene_atRest : AtRest 1 onceScene := ⟨rfl, by decide, by decide, rfl, fun _ => rfl⟩

def promoPayment (userID : String) : Payment where
  id := 0
  userID := userID
  amount := 90
  status := "pending_card"
  paymentType := "subscription"
  promoCodeID := some 1

def payWith (i : Nat) (userID : String) : List (Time × Nat × Action) :=
  [(1, i, .createPayment (promoPayment userID)), (1, i, .statement), (1, i, .statement), (1, i, .statement),
    (1, i, .statement), (1, i, .statement)]

def editFirst : List (Time × Nat × Action) :=
  [(0, 0, .editPromoCode { maxUses := -1, isActive := some true }), (0, 0, .statement), (0, 0, .statement)] ++
    payWith 1 "u" ++ (payWith 2 "v").take 3

theorem payments_le_maxUses_once : ∃ st, Run (Guarded SavesCount (stepsTo promoEditStep)) onceScene editFirst st ∧
    st.payments = [promoPayment "u"] ∧ (st.payments.length : Int) ≤ 1 := by
  refine Run.exists_of_guardedExec_imp (by decide +kernel) fun st hrun hpay =>
    ⟨hpay, payments_le_maxUses 1 (by decide) onceScene st editFirst onceScene_atRest ?_ hrun⟩
  decide

/-- The edit has read the row before the first payment and saves it after. -/
def editAround : List (Time × Nat × Action) :=
  [(0, 0, .editPromoCode { maxUses := -1, isActive := some true }), (0, 0, .statement)] ++ payWith 1 "u" ++
    [(2, 0, .statement)] ++ payWith 2 "v"

theorem used_twice : (∀ l ∈ editAround, KeepsLimit 1 l) ∧ AtRest 1 onceScene ∧
    ∃ st, Run (stepsTo promoEditStep) onceScene editAround st ∧ st.row.committed.maxUses = 1 ∧
      st.payments = [promoPayment "u", promoPayment "v"] :=
  ⟨by decide, onceScene_atRest, Run.exists_of_exec (by decide +kernel)⟩

end Xraytool.PromoEdits
