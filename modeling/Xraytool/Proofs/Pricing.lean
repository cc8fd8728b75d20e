import Xraytool.Sanity.Payments

/-! The price of an order by the renewal from the balance, the billing service and the default pricing engine. Of a
promo code and a plan discount with the same price the renewal leaves the code unused, and the others use it. -/

namespace Xraytool

open Fallible List Option

def promoShop : Store where
  users := .single { id := "u1", balance := 1000, metadata := [("telegram_id", .num (.float 7))] }
  subscriptions := .single { id := "s1", userID := "u1", email := "m1", uuid := "c1", status := "active" }
  plans := .single { id := 1, months := 1, basePrice := 150 }
  promos := .single { id := 5, code := "SALE", discountPercent := 20 }

def withPromo : CreatePaymentRequest :=
  { telegramID := 7, paymentType := "subscription", method := "cash", planID := some 1, promoCode := "sale" }

/-- The order of a renewal, as a payment for the same plan, at the same time and with the same lookups. -/
structure SameOrder (env : ApiEnv) (platform : String) (body : AutoRenewBody) (pay : PaymentEnv)
    (req : CreatePaymentRequest) : Prop where
  now : pay.now = env.now
  findPlan : pay.fails .findPlan = false
  findPromo : pay.fails .findPromo = false
  findSubscription : pay.fails .findSubscription = env.fails .findSubscription
  plan : req.planID = body.planID
  devices : req.maxDevices = body.maxDevices
  promoCode : req.promoCode = body.promoCode
  platform : req.platform = platform

def orderAmount (env : ApiEnv) (userID : String) (maxDevices : Int) (plan : Plan) (s : Store) : Int :=
  int64 (plan.basePrice + (extraDevices maxDevices plan.months +
    match issue (env.fails .findSubscription) Err.storage (s.findLatestByUserID userID) with
    | .ok sub => upgradeCost env.now maxDevices sub
    | .error _ => 0))

variable {env : ApiEnv} {platform : String} {user : User} {body : AutoRenewBody} {pay : PaymentEnv}
  {req : CreatePaymentRequest} {s : Store} {q : Quote} {planID : Int} {plan : Plan}

theorem findPlanByID_of_active (h : s.findActivePlans.find? (·.id == planID) = some plan) :
    s.findPlanByID planID = .ok plan := by
  have hid : plan.id = planID := by simpa using find?_some h
  have hmem : plan ∈ s.plans.rows := (mem_filter.1 ((mem_insertionSort _).1 (mem_of_find?_eq_some h))).1
  have hfi : s.plans.first (fun _ _ => false) (fun p => p.id == planID) = some plan :=
    Table.first_of_unique hmem (by simpa using hid) fun p hp hpid =>
      s.plans.eq_of_clash hp hmem (.inl ((by simpa using hpid : p.id = planID).trans hid.symm))
  rw [Store.findPlanByID, hfi]
  rfl

theorem quote_plan (h : quote env platform user body s = .ok q) (hpl : body.planID = some planID) :
    ∃ plan promo, s.findPlanByID planID = .ok plan ∧
      promoPrice env platform user.id body.promoCode (orderAmount env user.id body.maxDevices plan s) s = .ok promo ∧
      (q.price, q.applied) = bestPrice plan (orderAmount env user.id body.maxDevices plan s) promo := by
  simp only [quote, hpl] at h
  split_ifs at h
  split at h
  · cases h
  rename_i plan hfi
  split at h
  · cases h
  rename_i promo hpr
  cases h
  exact ⟨plan, promo, findPlanByID_of_active hfi, hpr, rfl⟩

theorem calculatePriceLegacy_plan (user : User) (h : SameOrder env platform body pay req)
    (hpl : body.planID = some planID) (hfi : s.findPlanByID planID = .ok plan) :
    calculatePriceLegacy pay user.id req s = .ok (cheaperPrice plan (orderAmount env user.id body.maxDevices plan s)
      ((requestedPromo pay req s).filter (promoEligible env.now platform))) := by
  have hreq : requestedPlan pay req s = .ok (some plan) := by
    simp [requestedPlan, h.plan, hpl, h.findPlan, hfi]
  rw [calculatePriceLegacy, hreq, ok_bind, latestSubscription, h.findSubscription, h.now, h.devices, h.platform,
    orderAmount]
  cases issue (env.fails .findSubscription) Err.storage (s.findLatestByUserID user.id) <;> rfl

theorem eligible_of_usable {code : String} {promo : PromoCode} (hpla : toLower (trimSpace platform) = platform)
    (h : findUsablePromo env platform user.id code s = .ok promo) :
    s.findPromoByCode code = .ok promo ∧ promoEligible env.now platform promo = true := by
  unfold findUsablePromo at h
  split at h
  · cases h
  rename_i promo' hfi
  split_ifs at h with hact htar
  cases h
  obtain ⟨hon, hexp⟩ := not_or.1 hact
  have hexpi : (promo.expiresAt.all fun expiresAt => env.now < expiresAt) = true := by
    exact (all_eq_true _ _).2 fun t ht => decide_eq_true (lt_of_not_ge fun hle => hexp ⟨t, ht, hle⟩)
  refine ⟨(of_issue hfi), ?_⟩
  rw [promoEligible, hpla, hexpi, Bool.and_true, Bool.and_eq_true, Bool.or_eq_true, beq_iff_eq, beq_iff_eq]
  exact ⟨not_not.1 hon, Decidable.or_iff_not_not_and_not.2 htar⟩

theorem bestPrice_eq {amount : Int} {promo : Int × Option AppliedPromo} :
    bestPrice plan amount promo = if promo.1 < globalPrice plan amount then promo else (globalPrice plan amount, none) :=
  rfl

/-- The promo code of the order costs what the plan's own discount costs. -/
def PromoTies (env : ApiEnv) (userID : String) (body : AutoRenewBody) (plan : Plan) (s : Store) : Prop :=
  body.promoCode ≠ "" ∧ ∃ promo, s.findPromoByCode (toUpper (trimSpace body.promoCode)) = .ok promo ∧
    discounted (orderAmount env userID body.maxDevices plan s) promo.discountPercent =
      globalPrice plan (orderAmount env userID body.maxDevices plan s)

/-- For every order the renewal accepts, on a platform without surrounding spaces and capitals, the three calculations
have the same price, and they agree on the use of the promo code unless it ties. -/
theorem price_parity (env : ApiEnv) (platform : String) (user : User) (body : AutoRenewBody) (pay : PaymentEnv)
    (req : CreatePaymentRequest) (s : Store) (q : Quote) (planID : Int)
    (hquote : quote env platform user body s = .ok q) (hplan : body.planID = some planID)
    (hsame : SameOrder env platform body pay req) (hplatform : toLower (trimSpace platform) = platform) :
    ∃ plan r, s.findPlanByID planID = .ok plan ∧ calculatePriceLegacy pay user.id req s = .ok r ∧
      calculatePriceWithEngine PricingDefault.calculatePrice pay user.id req s = .ok r ∧ r.finalPrice = q.price ∧
      (r.appliedPromoID = q.applied.map (·.promo.id) ↔ ¬ PromoTies env user.id body plan s) ∧
      (PromoTies env user.id body plan s → q.applied = none ∧ r.appliedPromoID.isSome) := by
  obtain ⟨plan, promo, hfi, hpr, hbe⟩ := quote_plan hquote hplan
  have hleg := calculatePriceLegacy_plan user hsame hplan hfi
  refine ⟨plan, _, hfi, hleg, calculatePriceWithEngine_default.trans hleg, ?_⟩
  have hpri : q.price = _ := congrArg Prod.fst hbe
  have happ : q.applied = _ := congrArg Prod.snd hbe
  rw [hpri, happ, PromoTies]
  generalize orderAmount env user.id body.maxDevices plan s = amount at hpr ⊢
  rw [bestPrice_eq]
  unfold promoPrice at hpr
  split_ifs at hpr with hem
  · cases hpr
    have hn : requestedPromo pay req s = none := if_pos (hsame.promoCode.trans hem)
    simp only [hn, hem, cheaperPrice, filter_none, map_none]
    rcases lt_trichotomy amount (globalPrice plan amount) with hlt | heq | hgt
    · simp [hlt, not_lt_of_gt hlt]
    · simp [← heq]
    · simp [hgt, not_lt_of_gt hgt]
  · dsimp only at hpr
    split at hpr
    · cases hpr
    rename_i promo husa
    cases hpr
    obtain ⟨hco, heli⟩ := eligible_of_usable hplatform husa
    have hso : requestedPromo pay req s = some promo := by
      simp [requestedPromo, hsame.promoCode, hem, hsame.findPromo, hco]
    simp only [hso, cheaperPrice, filter_some, heli, if_true, hco]
    rcases lt_trichotomy (discounted amount promo.discountPercent) (globalPrice plan amount) with hlt | heq | hgt
    · simp [hlt, hlt.ne, not_lt_of_gt hlt]
    · simp [heq, hem]
    · simp [hgt, hgt.ne', not_lt_of_gt hgt]

def saleQuote (s : Store) : Except Response Quote :=
  quote { ext := noExternals } "web" { id := "u1" } { maxDevices := 3, planID := some 1, promoCode := "sale" } s

def salePayment : CreatePaymentRequest := { withPromo with maxDevices := 3, platform := "web" }

theorem price_parity_sale : ∃ q r, saleQuote promoShop = .ok q ∧
    calculatePriceLegacy {} "u1" salePayment promoShop = .ok r ∧ r.finalPrice = q.price ∧ q.price = 120 := by
  obtain ⟨plan, r, -, hr, -, hpr, -⟩ := price_parity { ext := noExternals } "web" { id := "u1" }
    { maxDevices := 3, planID := some 1, promoCode := "sale" } {} salePayment promoShop _ 1 rfl rfl
    ⟨rfl, rfl, rfl, rfl, rfl, rfl, rfl, rfl⟩ (by decide)
  exact ⟨_, r, rfl, hr, hpr, by decide +kernel⟩

/-- The plan has a fifth off itself: the renewal leaves the code unused, and the payment uses it. -/
theorem price_parity_tie :
    let s := { promoShop with plans := .single { id := 1, months := 1, basePrice := 150, globalDiscountPercent := 20 } }
    (saleQuote s).toOption.map (fun q => (q.price, q.applied)) = some (120, none) ∧
      calculatePriceLegacy {} "u1" salePayment s = .ok ⟨120, some 5⟩ := by
  decide +kernel

/-! The price of a plan is not below its base price less the larger discount, unless its calculation overflows. The
number of devices in a request is not bounded, so the charge for them can wrap around to a negative one. -/

def applicablePromo (env : PaymentEnv) (req : CreatePaymentRequest) (s : Store) : Option PromoCode :=
  (requestedPromo env req s).filter (promoEligible env.now req.platform)

def largerDiscount (plan : Plan) (promo : Option PromoCode) : Int :=
  max plan.globalDiscountPercent (promo.elim 0 (·.discountPercent))

/-- What a plan costs without a discount, in exact arithmetic. -/
def exactTotal (now : Time) (maxDevices : Int) (plan : Plan) (sub : Option Subscription) : Int :=
  plan.basePrice + 40 * (max maxDevices 3 - 3) * plan.months + sub.elim 0 fun sub =>
    40 * (max maxDevices (max sub.maxDevices 3) - max sub.maxDevices 3) * upgradeMonths now maxDevices sub

structure Percentages (plan : Plan) (promo : Option PromoCode) : Prop where
  basePrice : 0 < plan.basePrice
  months : 0 ≤ plan.months
  global : 0 ≤ plan.globalDiscountPercent ∧ plan.globalDiscountPercent ≤ 100
  code : ∀ p ∈ promo, 0 ≤ p.discountPercent ∧ p.discountPercent ≤ 100

/-- The total less the discount, whose product may have wrapped around, is an `int64`. -/
def Deductible (total percent : Int) : Prop := total - (int64 (total * percent)).tdiv 100 < 9223372036854775808

section

variable {basePrice amount percent larger : Int} {plan : Plan} {promo : Option PromoCode} {now : Time}
  {maxDevices : Int} {sub : Option Subscription}

theorem float64_nonneg {q : Rat} (h : 0 ≤ q) : 0 ≤ float64 q := by
  have hulp : (0 : Rat) < 2 ^ (Int.log 2 |q| - 52) := zpow_pos (by norm_num) _
  have hfl : (0 : Rat) ≤ ⌊q / 2 ^ (Int.log 2 |q| - 52)⌋ := by exact_mod_cast Int.floor_nonneg.2 (div_nonneg h hulp.le)
  unfold float64
  dsimp only
  refine mul_nonneg ?_ hulp.le
  split_ifs
  · exact hfl
  · exact_mod_cast add_nonneg hfl zero_le_one

theorem upgradeMonths_nonneg {sub : Subscription} : 0 ≤ upgradeMonths now maxDevices sub := by
  unfold upgradeMonths
  split
  · rfl
  dsimp only
  split_ifs with h
  · exact Int.ceil_nonneg (float64_nonneg (div_nonneg (by linarith [h.2.2]) (by norm_num)))
  · rfl

theorem upgradeCost_eq {sub : Subscription}
    (h : -9223372036854775805 ≤ maxDevices ∧ maxDevices < 9223372036854775808) :
    upgradeCost now maxDevices sub = int64
      (40 * (max maxDevices (max sub.maxDevices 3) - max sub.maxDevices 3) * upgradeMonths now maxDevices sub) := by
  by_cases hze : upgradeMonths now maxDevices sub = 0
  · simp [upgradeCost, hze, int64]
  have hlt : sub.maxDevices < maxDevices := by
    by_contra hge
    refine hze ?_
    unfold upgradeMonths
    split
    · rfl
    · exact if_neg fun hand => hge hand.2.1
  rw [upgradeCost, int64_of_fits ⟨by omega, by omega⟩]
  generalize max sub.maxDevices 3 = current
  split_ifs with hpos
  · rw [sup_of_le_left (by omega), mul_comm 40]
  · rw [sup_of_le_right (by omega), sub_self]
    simp [int64]

/-- The amount that the code calculates is the exact one, as an `int64`. -/
theorem int64_exactTotal (h : -9223372036854775805 ≤ maxDevices ∧ maxDevices < 9223372036854775808) :
    int64 (plan.basePrice + (extraDevices maxDevices plan.months + sub.elim 0 (upgradeCost now maxDevices))) =
      int64 (exactTotal now maxDevices plan sub) := by
  have hex : extraDevices maxDevices plan.months = int64 (40 * (max maxDevices 3 - 3) * plan.months) := by
    unfold extraDevices
    split_ifs with hgt
    · rw [sup_of_le_left hgt.le, mul_comm 40]
    · rw [sup_of_le_right (not_lt.1 hgt)]
      simp [int64]
  have hsum (a b c : Int) : int64 (a + (int64 b + int64 c)) = int64 (a + b + c) := by
    rw [← add_assoc, add_int64, add_right_comm, add_int64, add_right_comm]
  rw [hex, exactTotal]
  cases sub with
  | none => exact hsum _ _ 0
  | some sub => rw [elim_some, upgradeCost_eq h, hsum, elim_some]

theorem basePrice_le_exactTotal (h : 0 ≤ plan.months) : plan.basePrice ≤ exactTotal now maxDevices plan sub := by
  have hex : 0 ≤ 40 * (max maxDevices 3 - 3) * plan.months := Int.mul_nonneg (by omega) h
  unfold exactTotal
  cases sub with
  | none =>
    simp only [Option.elim_none]
    omega
  | some sub =>
    have hup : 0 ≤ 40 * (max maxDevices (max sub.maxDevices 3) - max sub.maxDevices 3) *
        upgradeMonths now maxDevices sub := Int.mul_nonneg (by omega) upgradeMonths_nonneg
    simp only [Option.elim_some]
    omega

/-- A discount whose product wraps around takes off too little; only if the price then exceeds an `int64`, it is below
the floor. -/
theorem floor_le_discounted_iff (hba : 0 < basePrice) (hle : basePrice ≤ amount) (hfit : amount < 9223372036854775808)
    (hper : 0 ≤ percent) (hlar : percent ≤ larger) (hhun : larger ≤ 100) :
    basePrice - basePrice * larger / 100 ≤ discounted amount percent ↔ Deductible amount percent := by
  have hnon : 0 ≤ amount * percent := Int.mul_nonneg (by omega) hper
  have hmul : amount * percent ≤ amount * larger := Int.mul_le_mul_of_nonneg_left hlar (by omega)
  have hbo : basePrice * larger ≤ basePrice * 100 := Int.mul_le_mul_of_nonneg_left hhun hba.le
  have hgap : (amount - basePrice) * larger ≤ (amount - basePrice) * 100 :=
    Int.mul_le_mul_of_nonneg_left hhun (by omega)
  rw [Int.sub_mul] at hgap
  have hwr : int64 (amount * percent) ≤ amount * percent := int64_le hnon
  have hlo : -9223372036854775808 ≤ int64 (amount * percent) := neg_le_int64
  unfold Deductible discounted
  generalize int64 (amount * percent) = product at hwr hlo
  have hquo : 0 ≤ product ∧ product.tdiv 100 = product / 100 ∨ product < 0 ∧ product.tdiv 100 = -(-product / 100) := by
    rcases le_or_gt 0 product with hpos | hneg
    · exact .inl ⟨hpos, Int.tdiv_eq_ediv_of_nonneg hpos⟩
    · refine .inr ⟨hneg, ?_⟩
      rw [← Int.tdiv_eq_ediv_of_nonneg (by omega), Int.neg_tdiv, neg_neg]
  by_cases hded : amount - product.tdiv 100 < 9223372036854775808
  · rw [int64_of_fits ⟨by omega, hded⟩]
    exact iff_of_true (by omega) hded
  · have hwrap := int64_neg (n := amount - product.tdiv 100) (by omega) (by omega)
    exact iff_of_false (by omega) hded

theorem floor_le_cheaperPrice_iff (h : Percentages plan promo) (hle : plan.basePrice ≤ amount)
    (hfit : amount < 9223372036854775808) :
    plan.basePrice - plan.basePrice * largerDiscount plan promo / 100 ≤ (cheaperPrice plan amount promo).finalPrice ↔
      ∀ percent ∈ plan.globalDiscountPercent :: (promo.map (·.discountPercent)).toList, Deductible amount percent := by
  have hhun : largerDiscount plan promo ≤ 100 := by
    unfold largerDiscount
    cases promo with
    | none => simpa using h.global.2
    | some promo => simpa using ⟨h.global.2, (h.code promo rfl).2⟩
  have hfl {percent : Int} (hper : 0 ≤ percent) (hlar : percent ≤ largerDiscount plan promo) :=
    floor_le_discounted_iff h.basePrice hle hfit hper hlar hhun
  have hown : globalPrice plan amount = discounted amount plan.globalDiscountPercent := by
    unfold globalPrice
    split_ifs with hpos
    · rfl
    · obtain hze : plan.globalDiscountPercent = 0 := le_antisymm (not_lt.1 hpos) h.global.1
      have hbas := h.basePrice
      rw [hze, discounted, mul_zero, int64_of_fits (n := 0) (by decide), Int.zero_tdiv, sub_zero,
        int64_of_fits ⟨by omega, hfit⟩]
  have hmin : (cheaperPrice plan amount promo).finalPrice =
      min (globalPrice plan amount) (promo.elim amount fun p => discounted amount p.discountPercent) := by
    cases promo <;>
    · unfold cheaperPrice
      dsimp only [Option.elim]
      split_ifs with hlt
      · exact (inf_of_le_left hlt.le).symm
      · exact (inf_of_le_right (not_lt.1 hlt)).symm
  rw [hmin, le_min_iff, hown, hfl h.global.1 (le_max_left _ _), forall_mem_cons]
  refine and_congr_right fun _ => ?_
  cases promo with
  | none =>
    have hnon := Int.mul_nonneg h.basePrice.le (h.global.1.trans (le_max_left _ _) : 0 ≤ largerDiscount plan none)
    refine iff_of_true ?_ (by simp)
    dsimp only [Option.elim]
    omega
  | some promo => simpa using hfl (h.code promo rfl).1 (le_max_right _ _)

end

end Xraytool
