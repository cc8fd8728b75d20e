import Xraytool.Sanity.Panel

/-! What a created payment is. The prices of the service and of the default pricing engine agree, and the transaction
appends one pending payment whose promo code the user has not used in a payment that counts. -/

namespace Xraytool

open Fallible

variable {req : CreatePaymentRequest} {uid key : String} {m : Metadata} {promoID : Int} {p' : Payment}

/-- The default pricing engine calculates the price the service calculates without one. -/
theorem calculatePriceWithEngine_default {env : PaymentEnv} {s : Store} :
    calculatePriceWithEngine PricingDefault.calculatePrice env uid req s = calculatePriceLegacy env uid req s := by
  have hpr (promo : Option PromoCode) (hn : req.promoCode = "" → promo = none) (r : PricingRequest)
      (hr : r.promoCode = req.promoCode) (hp : r.promo = promo) :
      PricingDefault.eligiblePromo r = promo.filter (promoEligible r.now r.platform) := by
    rw [PricingDefault.eligiblePromo, hr, hp]
    split_ifs with hem
    · rw [hn hem]
      rfl
    · rfl
  have hrequ : req.promoCode = "" → requestedPromo env req s = none := fun h => if_pos h
  have hdev : ¬ (req.maxDevices = 0 ∧ 0 < max (req.maxDevices - 3) 0) := by omega
  cases hpl : requestedPlan env req s with
  | error err => simp [calculatePriceWithEngine, calculatePriceLegacy, hpl, Bind.bind, Except.bind]
  | ok plan =>
    cases plan with
    | none =>
      have hid : req.planID.getD 0 = 0 := by
        cases hreq : req.planID with
        | none => rfl
        | some planID =>
          simp only [requestedPlan, hreq] at hpl
          split at hpl <;> cases hpl
      simp only [calculatePriceWithEngine, calculatePriceLegacy, hpl, ok_bind, PricingDefault.calculatePrice,
        hid, ne_eq, not_true_eq_false, if_false, Except.mapError]
      rw [hpr _ hrequ _ rfl rfl]
    | some plan =>
      simp only [calculatePriceWithEngine, calculatePriceLegacy, hpl, ok_bind, PricingDefault.calculatePrice,
        if_neg hdev, Option.isSome_some, if_true, Except.mapError]
      rw [hpr _ hrequ _ rfl rfl]

theorem lookup_readBackFields : (Json.readBackFields m).lookup key = (m.lookup key).map Json.readBack := by
  induction m with
  | nil => rfl
  | cons entry m ih =>
    rw [Json.readBackFields, Assoc.lookup_cons, Assoc.lookup_cons, ih]
    split_ifs <;> rfl

theorem lookup_foldr_put {ents : Metadata} :
    (ents.foldr (fun entry data => Assoc.put data entry.1 entry.2) m).lookup key =
      (ents.lookup key).or (m.lookup key) := by
  induction ents with
  | nil => rfl
  | cons entry ents ih =>
    rw [List.foldr_cons, Assoc.lookup_put, Assoc.lookup_cons, ih]
    split_ifs <;> rfl

theorem lookup_maxDevices_paymentData : req.paymentData.lookup "max_devices" = (req.customData.lookup "max_devices").or
      (if 0 < req.maxDevices then some (.num (.int req.maxDevices)) else none) := by
  rw [CreatePaymentRequest.paymentData, lookup_foldr_put]
  split_ifs <;> simp [Assoc.lookup_put, Assoc.lookup_cons]

def promoKey (promo : PromoCode) : Int × String := (promo.id, promo.code)

theorem promoKey_incrementUses (s : Store) (id maxUses : Int) :
    (s.incrementUses id maxUses).1.promos.rows.map promoKey = s.promos.rows.map promoKey :=
  Table.map_updateWhere PromoCode.keeps_use fun _ => rfl

variable {env : PaymentEnv} {s s' : Store} {p : Payment}

theorem countPromoUse_ok {promo : PromoCode} (h : countPromoUse env promoID promo s = .ok s') :
    ∃ t, s' = { s with promos := t } ∧ t.rows.map promoKey = s.promos.rows.map promoKey := by
  unfold countPromoUse at h
  split_ifs at h with hmax hfa
  · split at h
    · cases h
    · rename_i s1 ok his
      cases (of_issue his)
      split_ifs at h
      cases h
      exact ⟨_, rfl, promoKey_incrementUses s _ _⟩
  · cases h
    exact ⟨_, rfl, rfl⟩
  · cases h
    exact ⟨_, rfl, promoKey_incrementUses s _ _⟩

/-- A promo code is used by counting the use, and only if the user has no payment with it that counts. -/
theorem usePromo_ok (h : usePromo env uid promoID s = .ok s') :
    (∃ t, s' = { s with promos := t } ∧ t.rows.map promoKey = s.promos.rows.map promoKey) ∧
      s.countByUserAndPromo uid promoID = 0 := by
  rw [usePromo, bind_eq_ok] at h
  obtain ⟨promo, -, h⟩ := h
  split_ifs at h with hact hexp
  simp only [bind_eq_ok, issue_eq_ok] at h
  obtain ⟨s1, h1, count, ⟨-, hco⟩, h⟩ := h
  obtain ⟨t, rfl, ht⟩ := countPromoUse_ok h1
  cases hco
  split_ifs at h with hpos
  cases h
  exact ⟨⟨t, rfl, ht⟩, Nat.eq_zero_of_not_pos hpos⟩

theorem usePromoOf_ok (h : usePromoOf env p s = .ok s') :
    (∃ t, s' = { s with promos := t } ∧ t.rows.map promoKey = s.promos.rows.map promoKey) ∧
      ∀ promoID, p.promoCodeID = some promoID → s.countByUserAndPromo p.userID promoID = 0 := by
  unfold usePromoOf at h
  split at h
  · rename_i promoID hpr
    obtain ⟨hpro, hco⟩ := usePromo_ok h
    refine ⟨hpro, fun promoID' hp => ?_⟩
    obtain rfl : promoID = promoID' := Option.some.inj (hpr.symm.trans hp)
    exact hco
  · rename_i hpr
    cases h
    exact ⟨⟨_, rfl, rfl⟩, fun promoID hp => absurd (hpr.symm.trans hp) nofun⟩

structure Created (p : Payment) (s s' : Store) : Prop where
  users : s'.users = s.users
  subscriptions : s'.subscriptions = s.subscriptions
  promos : s'.promos.rows.map promoKey = s.promos.rows.map promoKey
  payments : s'.payments.rows = s.payments.rows ++ [p]
  unused : ∀ promoID, p.promoCodeID = some promoID → s.countByUserAndPromo p.userID promoID = 0

theorem insertPayment_ok (h : insertPayment p s = .ok (s', p')) : p' = { p with id := s.payments.nextKey (·.id) } ∧
      ∃ t, s' = { s with payments := t } ∧ t.rows = s.payments.rows ++ [p'] := by
  dsimp only [insertPayment] at h
  split at h
  · rename_i t hins
    cases h
    exact ⟨rfl, t, rfl, (Table.insert_eq_some hins).2⟩
  · cases h

theorem createPaymentTx_ok (h : createPaymentTx env p s = .ok (s', p')) :
    (∃ id, p' = { p with id := id }) ∧ Created p' s s' := by
  simp only [createPaymentTx, transaction_eq_ok, bind_eq_ok, issue_eq_ok] at h
  obtain ⟨-, -, s1, h1, -, h⟩ := h
  obtain ⟨rfl, t, rfl, ht⟩ := insertPayment_ok h
  obtain ⟨⟨t', rfl, ht'⟩, hunu⟩ := usePromoOf_ok h1
  exact ⟨⟨_, rfl⟩, rfl, rfl, ht', ht, hunu⟩

theorem createPayment_ok {seen : Store} (h : createPayment env req seen s = .ok (s', p)) :
    Created p s s' ∧ ∃ id user price, findPayer env req seen = .ok user ∧
      calculatePaymentPrice env user.id req seen = .ok price ∧ p =
        { id := id, userID := user.id, amount := price.finalPrice, status := "pending_card",
          paymentType := req.paymentType, method := req.method,
          externalID := if req.externalID = "" then none else some req.externalID,
          customData := Json.readBackFields req.paymentData, planID := req.planID,
          promoCodeID := price.appliedPromoID } := by
  obtain ⟨p0, hpre, h⟩ := bind_eq_ok.1 h
  obtain ⟨⟨id, rfl⟩, hcre⟩ := createPaymentTx_ok (mapError_eq_ok.1 h)
  simp only [preparePayment, bind_eq_ok] at hpre
  obtain ⟨-, -, user, hu, price, hpr, hpre⟩ := hpre
  cases hpre
  exact ⟨hcre, id, user, price, hu, hpr, rfl⟩

/-! Redemptions of promo codes: a recorded code stays recorded (`PromosKept`), and a renewal with a code commits only if
no record and no payment of the user counts for it. -/

open List

variable {code plat : String} {o : Outcome} {env : ApiEnv} {body : AutoRenewBody} {q : Quote} {applied : AppliedPromo}

theorem subscriptionUsedPromo_congr {m' : Metadata}
    (h : m'.lookup subscriptionPromoUsesKey = m.lookup subscriptionPromoUsesKey) :
    subscriptionUsedPromo m' code = subscriptionUsedPromo m code := by
  rw [subscriptionUsedPromo, subscriptionUsedPromo, h]

theorem textItems_map_str {texts : List String} : textItems (texts.map .str) = texts := by
  induction texts with
  | nil => rfl
  | cons text texts ih =>
    exact congrArg (text :: ·) ih

def promoUses (m : Metadata) : List String :=
  match m.lookup subscriptionPromoUsesKey with
  | some (.arr items) => textItems items
  | _ => []

theorem subscriptionUsedPromo_iff : subscriptionUsedPromo m code ↔ trimSpace (toUpper code) ≠ "" ∧
      ∃ entry ∈ promoUses m, equalFold (trimSpace entry) (trimSpace (toUpper code)) := by
  unfold subscriptionUsedPromo promoUses
  rw [Bool.and_eq_true, bne_iff_ne]
  refine and_congr_right fun _ => ?_
  generalize m.lookup subscriptionPromoUsesKey = uses
  rcases uses with - | (- | - | - | - | items | -)
  all_goals simp

theorem promoUses_append :
    promoUses (appendSubscriptionPromoUse m code) = promoUses m ++ [toUpper (trimSpace code)] := by
  unfold promoUses appendSubscriptionPromoUse
  rw [Assoc.lookup_put, if_pos rfl]
  exact textItems_map_str

theorem subscriptionUsedPromo_append (used : String) (h : subscriptionUsedPromo m code) :
    subscriptionUsedPromo (appendSubscriptionPromoUse m used) code := by
  rw [subscriptionUsedPromo_iff, promoUses_append] at *
  obtain ⟨hco, entry, hen, hfo⟩ := h
  exact ⟨hco, entry, mem_append_left _ hen, hfo⟩

theorem subscriptionUsedPromo_append_self (hco : trimSpace code ≠ "") :
    subscriptionUsedPromo (appendSubscriptionPromoUse m code) code := by
  rw [subscriptionUsedPromo_iff, promoUses_append, trimSpace_toUpper]
  refine ⟨fun h => hco (toUpper_eq_empty.1 h), toUpper (trimSpace code), by simp, ?_⟩
  rw [equalFold, trimSpace_toUpper, trimSpace_idem, beq_self_eq_true]

/-- The promo codes are the same, and what is recorded for a user stays recorded. -/
structure PromosKept (s s' : Store) : Prop where
  promos : s'.promos.rows.map promoKey = s.promos.rows.map promoKey
  uses : ∀ userID sub, s.findLatestByUserID userID = .ok sub → ∃ sub', s'.findLatestByUserID userID = .ok sub' ∧
    ∀ code, subscriptionUsedPromo sub.metadata code → subscriptionUsedPromo sub'.metadata code

theorem PromosKept.of_eq (hpro : s'.promos.rows.map promoKey = s.promos.rows.map promoKey)
    (hsu : s'.subscriptions = s.subscriptions) : PromosKept s s' := by
  refine ⟨hpro, fun uid sub hsub => ⟨sub, ?_, fun _ h => h⟩⟩
  rw [Store.findLatestByUserID, hsu]
  exact hsub

theorem PromosKept.refl (s : Store) : PromosKept s s := .of_eq rfl rfl

theorem PromosKept.trans {s'' : Store} (h : PromosKept s s') (h' : PromosKept s' s'') : PromosKept s s'' := by
  refine ⟨h'.promos.trans h.promos, fun uid sub hsub => ?_⟩
  obtain ⟨sub', hsub', hus⟩ := h.uses uid sub hsub
  obtain ⟨sub'', hsub'', hus'⟩ := h'.uses uid sub' hsub'
  exact ⟨sub'', hsub'', fun code hco => hus' code (hus code hco)⟩

variable {id : String} {plan : Plan} {sub : Subscription} {c : BillingCall}

theorem promosKept_updateSubscription {f : Subscription → Subscription} (hf : Table.Keeps Subscription.Clash f)
    (hkey : ∀ sub, latestKey (f sub) = latestKey sub)
    (hus : ∀ sub ∈ s.subscriptions.rows, sub.id = id → ∀ code, subscriptionUsedPromo sub.metadata code →
      subscriptionUsedPromo (f sub).metadata code) :
    PromosKept s (s.updateSubscription id f hf) := by
  refine ⟨rfl, fun uid sub hsub => ?_⟩
  have hlat := findLatestByUserID_updateSubscription hf hkey s id uid
  rw [hsub] at hlat
  refine ⟨if sub.id == id then f sub else sub, hlat, fun code hco => ?_⟩
  by_cases hid : sub.id = id
  · rw [if_pos (beq_iff_eq.2 hid)]
    exact hus sub (findLatestByUserID_ok hsub).1 hid code hco
  · rw [if_neg (by simpa using hid)]
    exact hco

theorem lookup_renewedMetadata :
    (renewedMetadata sub plan).lookup subscriptionPromoUsesKey = sub.metadata.lookup subscriptionPromoUsesKey := by
  have hkey : subscriptionPromoUsesKey ≠ "plan_engine_ids" := by decide
  unfold renewedMetadata
  split_ifs
  · rw [Assoc.lookup_drop, if_neg hkey]
  · rw [Assoc.lookup_put, if_neg hkey]

theorem subscription_eq_of_id {sub' : Subscription} (h : sub ∈ s.subscriptions.rows)
    (h' : sub' ∈ s.subscriptions.rows) (hid : sub.id = sub'.id) : sub = sub' :=
  s.subscriptions.eq_of_clash h h' (.inl hid)

theorem promosKept_autoRenew {nested : Bool} {fails : RenewOp → Bool} {now : Time} {planID : Option Int}
    {price : Int} {newEndsAt : Option Time} {maxDevices : Int}
    (h : autoRenewSubscription nested fails now uid planID price newEndsAt maxDevices s = .ok s') :
    PromosKept s s' := by
  obtain ⟨sub, endsAt, metadata, users, notifications, hsub, hte, -, rfl⟩ := autoRenew_ok h
  have hmem := (findLatestByUserID_ok hsub).1
  have hus : ∀ row ∈ s.subscriptions.rows, row.id = sub.id → ∀ code, subscriptionUsedPromo row.metadata code →
      subscriptionUsedPromo (renewedRow now endsAt maxDevices metadata row).metadata code := by
    intro row hrow hid code hco
    obtain rfl := subscription_eq_of_id hrow hmem hid
    cases metadata with
    | none => exact hco
    | some metadata =>
      cases planID with
      | none =>
        simp only [renewalTerms] at hte
        split at hte <;> cases hte
      | some planID =>
        simp only [renewalTerms, bind_eq_ok] at hte
        obtain ⟨plan, -, hte⟩ := hte
        cases hte
        rw [← hco]
        exact subscriptionUsedPromo_congr lookup_renewedMetadata
  exact (promosKept_updateSubscription (keeps_renewedRow _ _ _ _) (fun _ => rfl) hus).trans (.of_eq rfl rfl)

theorem promosKept_apply {env : BillingEnv} (h : c.apply env s = .ok (s', o)) : PromosKept s s' := by
  have hset : PromosKept s (s.setPaymentStatus c.selects c.newStatus) := .of_eq rfl rfl
  rcases apply_cases h with ⟨rfl, -⟩ | ⟨-, -, -, -, p, -, hcom⟩
  · exact hset
  refine hset.trans ?_
  rcases completePayment_cases hcom with ⟨planID, devices, -, hren⟩ | ⟨-, rfl⟩ | ⟨-, rfl⟩
  · exact promosKept_autoRenew hren
  · exact .of_eq rfl rfl
  · exact .refl _

/-- A link deletes the account that it absorbs, and writes no other payment or subscription. -/
theorem link_spec {l : Link} (h : l.apply s = .ok s') :
    (l.absorbed s = none ∧ s'.payments = s.payments ∧ s'.subscriptions = s.subscriptions) ∨
    ∃ uid, l.absorbed s = some uid ∧ s'.payments = (s.deleteUserAndData uid).payments ∧
      s'.subscriptions = (s.deleteUserAndData uid).subscriptions := by
  cases l with
  | telegram env webUserID tgUserID =>
    simp only [Link.apply, linkTelegramAccount, transaction_eq_ok, bind_eq_ok, mapError_eq_ok, issue_eq_ok] at h
    obtain ⟨-, -, webUser, -, tgUser, ⟨-, htg⟩, h⟩ := h
    split_ifs at h
    simp only [bind_eq_ok, mapError_eq_ok, issue_eq_ok] at h
    obtain ⟨-, -, linked, -, s1, ⟨-, hupd⟩, -, hdel⟩ := h
    cases hupd
    cases hdel
    rw [(findUserByID_ok htg).2]
    exact .inr ⟨tgUserID, rfl, rfl, rfl⟩
  | email env tgUserID email =>
    simp only [Link.apply, linkEmailAccount, transaction_eq_ok, bind_eq_ok] at h
    obtain ⟨-, -, tgUser, -, h⟩ := h
    split_ifs at h
    simp only [bind_eq_ok, mapError_eq_ok, issue_eq_ok] at h
    obtain ⟨s1, hdro, -, hupd⟩ := h
    cases hupd
    unfold dropWebUser at hdro
    split at hdro
    · next hnot =>
      cases hdro
      -- a lookup that fails has another error
      have hno : s.findUserByPlatformID "web" email = .error .notFound := by
        unfold issue at hnot
        split_ifs at hnot
        · cases hnot
        · exact hnot
      exact .inl ⟨by rw [Link.absorbed, hno]; rfl, rfl, rfl⟩
    · cases hdro
    · next webUser hfo =>
      split_ifs at hdro
      simp only [bind_eq_ok, mapError_eq_ok, issue_eq_ok] at hdro
      obtain ⟨-, -, -, hdel⟩ := hdro
      cases hdel
      exact .inr ⟨webUser.id, by rw [Link.absorbed, of_issue hfo]; rfl, rfl, rfl⟩

theorem committedRenewal_eq_some (h : committedRenewal env plat id body s = some (uid, q, s')) :
    ∃ body' user, body.check = .ok body' ∧ user.id = uid ∧ quote env plat user body' s = .ok q ∧
      autoRenewTx env uid body' q s = .ok s' := by
  unfold committedRenewal at h
  split at h
  · cases h
  rename_i body' hbo
  split at h
  · cases h
  rename_i user hu
  split_ifs at h
  split at h
  · cases h
  rename_i q' hqu
  split at h
  · cases h
  rename_i s1 htx
  cases h
  exact ⟨body', user, hbo, rfl, hqu, htx⟩

/-- The handler changes the store by the renewal it commits, and after that only notifications. -/
theorem handleAutoRenew_store :
    (committedRenewal env plat id body s = none ∧ (handleAutoRenew env plat id body s).store = s) ∨
      ∃ uid q s' t, committedRenewal env plat id body s = some (uid, q, s') ∧
        (handleAutoRenew env plat id body s).store = { s' with notifications := t } := by
  unfold committedRenewal handleAutoRenew
  split
  · exact .inl ⟨rfl, rfl⟩
  split
  · exact .inl ⟨rfl, rfl⟩
  split_ifs
  · exact .inl ⟨rfl, rfl⟩
  split
  · exact .inl ⟨rfl, rfl⟩
  split
  · exact .inl ⟨rfl, rfl⟩
  rename_i user _ _ _ q _ _ s' _
  refine .inr ⟨user.id, q, s', ?_⟩
  split
  · exact ⟨s'.notifications, rfl, rfl⟩
  rcases attempt_cases with hdel | hdel
  · obtain ⟨-, hdel⟩ := issue_eq_ok.1 hdel
    exact ⟨_, rfl, (Except.ok.inj hdel).symm⟩
  · exact ⟨s'.notifications, rfl, hdel⟩

theorem check_promoCode {body' : AutoRenewBody} (h : body.check = .ok body') : body'.promoCode = body.promoCode := by
  dsimp only [AutoRenewBody.check] at h
  generalize (if body.maxDevices ≤ 0 then (3 : Int) else body.maxDevices) = limit at h
  split_ifs at h
  cases h
  rfl

theorem findUsablePromo_ok {promo : PromoCode} (h : findUsablePromo env plat uid code s = .ok promo) :
    s.findPromoByCode code = .ok promo ∧ s.countByUserAndPromo uid promo.id = 0 := by
  unfold findUsablePromo at h
  split at h
  · cases h
  rename_i promo' hfi
  split_ifs at h with _ _ _ _ hco
  cases h
  exact ⟨(of_issue hfi), Nat.eq_zero_of_not_pos hco⟩

theorem bestPrice_applied {amount : Int} {promo : Int × Option AppliedPromo}
    (h : (bestPrice plan amount promo).2 = some applied) : promo.2 = some applied := by
  dsimp only [bestPrice] at h
  generalize (if 0 < plan.globalDiscountPercent then discounted amount plan.globalDiscountPercent else amount) =
    globalPrice at h
  split_ifs at h
  exact h

/-- A promo code in the terms is the one asked for, and no payment of the user counts for it. -/
theorem quote_applied {user : User} (h : quote env plat user body s = .ok q) (ha : q.applied = some applied) :
    applied.code = toUpper (trimSpace body.promoCode) ∧ body.promoCode ≠ "" ∧
      s.findPromoByCode applied.code = .ok applied.promo ∧
      s.countByUserAndPromo user.id applied.promo.id = 0 := by
  have hpr {amount : Int} {r : Int × Option AppliedPromo}
      (hr : promoPrice env plat user.id body.promoCode amount s = .ok r) (hso : r.2 = some applied) :
      applied.code = toUpper (trimSpace body.promoCode) ∧ body.promoCode ≠ "" ∧
        s.findPromoByCode applied.code = .ok applied.promo ∧
        s.countByUserAndPromo user.id applied.promo.id = 0 := by
    unfold promoPrice at hr
    split_ifs at hr with hem
    · cases hr
      cases hso
    dsimp only at hr
    split at hr
    · cases hr
    rename_i promo husa
    cases hr
    cases hso
    exact ⟨rfl, hem, findUsablePromo_ok husa⟩
  unfold quote at h
  split at h
  · split_ifs at h
    split at h
    · cases h
    dsimp only at h
    split at h
    · cases h
    rename_i plan _ _ promo hpri
    cases h
    exact hpr hpri (bestPrice_applied ha)
  · split_ifs at h
    · split at h
      · cases h
      · cases h
        cases ha
    · cases h
      cases ha

theorem redeemPromo_ok (h : redeemPromo env uid applied s = .ok s') :
    PromosKept s s' ∧ s'.payments = s.payments ∧ ∃ sub, s.findLatestByUserID uid = .ok sub ∧
      subscriptionUsedPromo sub.metadata applied.code = false ∧
      ∃ sub', s'.findLatestByUserID uid = .ok sub' ∧
        sub'.metadata = appendSubscriptionPromoUse sub.metadata applied.code := by
  obtain ⟨sub, hsub, hus, rfl⟩ := redeemPromo_eq h
  have hcou : PromosKept s (s.incrementUses applied.promo.id applied.promo.maxUses).1 :=
    .of_eq (promoKey_incrementUses s _ _) rfl
  have hmem := (findLatestByUserID_ok hsub).1
  refine ⟨hcou.trans (promosKept_updateSubscription _ (fun _ => rfl) ?_), rfl, sub, hsub, hus, ?_⟩
  · intro row hrow hid code hco
    obtain rfl := subscription_eq_of_id (s := s) hrow hmem hid
    exact subscriptionUsedPromo_append applied.code hco
  have hlat := findLatestByUserID_updateSubscription
    (keeps_writeMetadata env.now (appendSubscriptionPromoUse sub.metadata applied.code)) (fun _ => rfl)
    (s.incrementUses applied.promo.id applied.promo.maxUses).1 sub.id uid
  have hsa : (s.incrementUses applied.promo.id applied.promo.maxUses).1.findLatestByUserID uid = .ok sub := hsub
  rw [hsa] at hlat
  refine ⟨_, hlat, ?_⟩
  simp [writeMetadata]

/-- A renewal keeps the payments and the records; the promo code it applies was not recorded and then is. -/
theorem autoRenewTx_ok (h : autoRenewTx env uid body q s = .ok s') : PromosKept s s' ∧ s'.payments = s.payments ∧
      ∀ applied, q.applied = some applied → trimSpace applied.code ≠ "" →
        (∃ sub, s.findLatestByUserID uid = .ok sub ∧ subscriptionUsedPromo sub.metadata applied.code = false) ∧
        ∃ sub, s'.findLatestByUserID uid = .ok sub ∧ subscriptionUsedPromo sub.metadata applied.code := by
  simp only [autoRenewTx, transaction_eq_ok, bind_eq_ok] at h
  obtain ⟨-, -, s1, h1, h⟩ := h
  have hre := promosKept_autoRenew h
  have hpay := (sameAccounts_autoRenew h).payments
  cases hq : q.applied with
  | none =>
    rw [hq] at h1
    cases h1
    exact ⟨hre, hpay, nofun⟩
  | some applied =>
    rw [hq] at h1
    obtain ⟨hke, hsa, sub, hsub, hunu, sub1, hsub1, hme⟩ := redeemPromo_ok h1
    refine ⟨hke.trans hre, hpay.trans hsa, ?_⟩
    rintro _ ⟨⟩ hco
    obtain ⟨sub', hsub', hus⟩ := hre.uses uid sub1 hsub1
    refine ⟨⟨sub, hsub, hunu⟩, sub', hsub', hus _ ?_⟩
    rw [hme]
    exact subscriptionUsedPromo_append_self hco

end Xraytool
