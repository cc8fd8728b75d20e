import Mathlib.Algebra.Ring.Int.Defs
import Xraytool.Spec.Referral

/-! Rewards and credits. `AddReferralReward` does not look at how many balances its UPDATE changed, so the reward of a
referrer who is gone is recorded all the same. A deletion of the referred user deletes the reward row that protects
against a repeated event. -/

namespace Xraytool.Referral

open ReadCommitted Transition List Option Versions Row

/-- The referrer is there when the balance is changed, and the payment when the reward is inserted. -/
def Present (st : Scene) (l : Nat × Action) : Prop := match l.2, st.calls l.1 with
  | .statement, .credit r => (st.users.get l.1 r.referrerID).isSome = true
  | .statement, .insert r _ => (st.payments.get l.1 r.paymentID).isSome = true
  | _, _ => True

instance (st : Scene) (l : Nat × Action) : Decidable (Present st l) := by
  unfold Present
  split <;> infer_instance

variable {st₀ st st' : Scene} {i j : Nat} {r r' : Reward} {point now : Point}

/-- The payment of the reward is of the referred user, and that user has the referrer. -/
def Sound (st₀ : Scene) (r : Reward) : Prop := ∃ p u, (st₀.payments.row r.paymentID).committed = some p ∧
  p.userID = r.referredID ∧ (st₀.users.row r.referredID).committed = some u ∧ u.referredBy = some r.referrerID

theorem Sound.unique (h : Sound st₀ r) (h' : Sound st₀ r') (hpay : r.paymentID = r'.paymentID) :
    r.referrerID = r'.referrerID := by
  obtain ⟨p, u, hp, href, hu, hrefe⟩ := h
  obtain ⟨p', u', hp', href', hu', hrefe'⟩ := h'
  rw [hpay, hp'] at hp
  cases hp
  rw [← href, href', hu'] at hu
  cases hu
  exact some.inj (hrefe.symm.trans hrefe')

/-- A version of a user: the id and the referrer do not change. -/
def SameAccount (st₀ : Scene) (k : String) (u : Account) : Prop :=
  u.id = k ∧ ∃ u₀, (st₀.users.row k).committed = some u₀ ∧ u.referredBy = u₀.referredBy

/-- The row of `users` that a call holds at its point, and how it differs from the committed one. -/
def UserLock : Point → String → Option Account → Option Account → Prop
  | .insert r _, k, some u, some u' | .commitReward r _, k, some u, some u' =>
    k = r.referrerID ∧ u.balance = u'.balance + r.amount
  | .commitDelete userID, k, none, _ => k = userID
  | _, _, _, _ => False

def Point.deletes : Point → Bool
  | .deleteRewards _ | .deleteUser _ | .commitDelete _ => true
  | _ => false

/-- The row of `referral_rewards` that a call holds, and what was in it. -/
def RewardLock : Point → Int → Option Reward → Option Reward → Prop
  | .commitReward r _, k, some r', _ => r' = r ∧ k = r.paymentID
  | .deleteUser userID, _, none, some r | .commitDelete userID, _, none, some r =>
    r.referrerID = userID ∨ r.referredID = userID
  | _, _, _, _ => False

def Point.locks : Point → Bool
  | .insert _ _ | .commitReward _ _ | .deleteRewards _ | .deleteUser _ | .commitDelete _ => true
  | _ => false

/-- The UPDATE has found the referrer, whose row the call holds. -/
def Credited (st : Scene) (i : Nat) (r : Reward) (credit : Option Credit) : Prop :=
  credit = some ⟨r.referrerID, r.amount⟩ ∧ (st.users.row r.referrerID).HeldBy i ∧
    (st.users.row r.referrerID).committed ≠ none

/-- The call holds all payments of the user. -/
def PaymentsTaken (st : Scene) (i : Nat) (userID : String) : Prop :=
  ∀ k p, (st.payments.row k).committed = some p → p.userID = userID → (st.payments.row k).HeldBy i

def PointOk (st₀ st : Scene) (i : Nat) : Point → Prop
  | .findUser p => (st₀.payments.row p.id).committed = some p
  | .countRewards r | .credit r => Sound st₀ r
  | .insert r credit => Sound st₀ r ∧ Credited st i r credit
  | .commitReward r credit => Sound st₀ r ∧ Credited st i r credit ∧
    (st.rewards.row r.paymentID).uncommitted = some (i, some r) ∧ ∀ a ∈ st.awards, a.reward.paymentID ≠ r.paymentID
  | .deleteRewards userID | .deleteUser userID => PaymentsTaken st i userID
  | .commitDelete userID => PaymentsTaken st i userID ∧
    ((st.users.row userID).committed = none ∨ (st.users.row userID).HeldBy i)
  | _ => True

/-- The reward came with its credit. It is still there, unless its payment or its referrer is gone. -/
def Awarded (st₀ st : Scene) (a : Award) : Prop :=
  a.credit = some ⟨a.reward.referrerID, a.reward.amount⟩ ∧ Sound st₀ a.reward ∧
    ((st.rewards.row a.reward.paymentID).committed = some a.reward ∨
      (st.payments.row a.reward.paymentID).committed = none ∨ (st.users.row a.reward.referrerID).committed = none)

/-- What the credits of the rewards come to for one user. -/
def creditsOf (k : String) (awards : List Award) : Int :=
  (((awards.filterMap (·.credit)).filter (·.userID == k)).map (·.amount)).sum

theorem creditsOf_append {k : String} {awards awards' : List Award} :
    creditsOf k (awards ++ awards') = creditsOf k awards + creditsOf k awards' := by
  simp only [creditsOf, filterMap_append, filter_append, map_append, sum_append]

structure Booked (st₀ st : Scene) : Prop where
  account : ∀ k u, (st.users.row k).committed = some u → SameAccount st₀ k u
  balance : ∀ k u u₀, (st.users.row k).committed = some u → (st₀.users.row k).committed = some u₀ →
    u.balance = u₀.balance + creditsOf k st.awards
  pending : ∀ k j u, (st.users.row k).uncommitted = some (j, some u) → SameAccount st₀ k u
  paid : ∀ k p, (st.payments.row k).committed = some p → (st₀.payments.row k).committed = some p
  userLock : ∀ k j v, (st.users.row k).uncommitted = some (j, v) →
    UserLock (st.calls j) k v (st.users.row k).committed
  paymentLock : ∀ k j v, (st.payments.row k).uncommitted = some (j, v) → v = none ∧ (st.calls j).deletes = true
  rewardLock : ∀ k j v, (st.rewards.row k).uncommitted = some (j, v) →
    RewardLock (st.calls j) k v (st.rewards.row k).committed
  points : ∀ i, PointOk st₀ st i (st.calls i)
  awarded : ∀ a ∈ st.awards, Awarded st₀ st a
  once : (st.awards.map fun a => a.reward.paymentID).Nodup

structure Holds (st₀ st : Scene) (i : Nat) (point : Point) : Prop where
  pending : ∀ k u, (st.users.row k).uncommitted = some (i, some u) → SameAccount st₀ k u
  user : ∀ k v, (st.users.row k).uncommitted = some (i, v) → UserLock point k v (st.users.row k).committed
  payment : ∀ k v, (st.payments.row k).uncommitted = some (i, v) → v = none ∧ point.deletes = true
  reward : ∀ k v, (st.rewards.row k).uncommitted = some (i, v) → RewardLock point k v (st.rewards.row k).committed

theorem Holds.nothing (hus : ∀ k, ¬ (st.users.row k).HeldBy i) (hpay : ∀ k, ¬ (st.payments.row k).HeldBy i)
    (hrew : ∀ k, ¬ (st.rewards.row k).HeldBy i) : Holds st₀ st i point :=
  ⟨fun k _ hu => absurd ⟨_, hu⟩ (hus k), fun k _ hv => absurd ⟨_, hv⟩ (hus k),
    fun k _ hv => absurd ⟨_, hv⟩ (hpay k), fun k _ hv => absurd ⟨_, hv⟩ (hrew k)⟩

theorem Booked.holds (h : Booked st₀ st) (hcall : st.calls i = now) : Holds st₀ st i now :=
  ⟨fun k u => h.pending k i u, fun k v hv => hcall ▸ h.userLock k i v hv,
    fun k v hv => hcall ▸ h.paymentLock k i v hv, fun k v hv => hcall ▸ h.rewardLock k i v hv⟩

structure Moves (i : Nat) (point : Point) (st st' : Scene) : Prop where
  calls : st'.calls = Function.update st.calls i point
  users : st.users.Touched i st'.users
  payments : st.payments.Touched i st'.payments
  rewards : st.rewards.Touched i st'.rewards
  paid : ∀ k p, (st'.payments.row k).committed = some p → (st.payments.row k).committed = some p
  gone : ∀ k, (st.users.row k).committed = none → (st'.users.row k).committed = none

theorem Moves.heldBy (h : Moves i point st st') (hj : j ≠ i) {k : String} (hhe : (st.users.row k).HeldBy j) :
    st'.users.row k = st.users.row k := (h.users k).eq_of_held hhe hj

variable {credit : Option Credit} {uid : String} {p : Payment}

section

variable (h : Moves i point st st') (hj : j ≠ i)
include h hj

theorem Moves.credited (hok : Credited st j r credit) : Credited st' j r credit := by
  obtain ⟨hcre, hhe, hso⟩ := hok
  have hrow := h.heldBy hj hhe
  exact ⟨hcre, hrow ▸ hhe, hrow ▸ hso⟩

theorem Moves.paymentsTaken (hok : PaymentsTaken st j uid) : PaymentsTaken st' j uid := by
  intro k p hp hu
  have hhe := hok k p (h.paid k p hp) hu
  rw [(h.payments k).eq_of_held hhe hj]
  exact hhe

theorem Moves.pointOk {other : Point} (hok : PointOk st₀ st j other)
    (hfr : ∀ r credit, other = .commitReward r credit → ∀ a ∈ st'.awards, a.reward.paymentID ≠ r.paymentID) :
    PointOk st₀ st' j other := by
  cases other with
  | insert r credit => exact ⟨hok.1, h.credited hj hok.2⟩
  | commitReward r credit =>
    obtain ⟨hso, hcre, hrew, -⟩ := hok
    refine ⟨hso, h.credited hj hcre, ?_, hfr r credit rfl⟩
    rw [(h.rewards _).eq_of_held ⟨_, hrew⟩ hj]
    exact hrew
  | deleteRewards uid | deleteUser uid => exact h.paymentsTaken hj hok
  | commitDelete uid =>
    refine ⟨h.paymentsTaken hj hok.1, ?_⟩
    rcases hok.2 with hgo | hhe
    · exact .inl (h.gone uid hgo)
    · exact .inr (h.heldBy hj hhe ▸ hhe)
  | _ => exact hok

end

section

variable (h : Booked st₀ st)
include h

theorem Booked.step (hm : Moves i point st st')
    (hacc : ∀ k u, (st'.users.row k).committed = some u → SameAccount st₀ k u)
    (hbal : ∀ k u u0, (st'.users.row k).committed = some u → (st₀.users.row k).committed = some u0 →
      u.balance = u0.balance + creditsOf k st'.awards)
    (hho : Holds st₀ st' i point) (hpo : PointOk st₀ st' i point) (hawa : ∀ a ∈ st'.awards, Awarded st₀ st' a)
    (hon : (st'.awards.map fun a => a.reward.paymentID).Nodup)
    (hfr : ∀ j r credit, j ≠ i → st.calls j = .commitReward r credit →
      ∀ a ∈ st'.awards, a.reward.paymentID ≠ r.paymentID) : Booked st₀ st' := by
  have hse : st'.calls i = point := by rw [hm.calls, Function.update_self]
  have hoth (j : Nat) (hj : j ≠ i) : st'.calls j = st.calls j := by rw [hm.calls, Function.update_of_ne hj]
  refine ⟨hacc, hbal, fun k j u hu => ?_, fun k p hp => h.paid k p (hm.paid k p hp), fun k j v hv => ?_,
    fun k j v hv => ?_, fun k j v hv => ?_, fun j => ?_, hawa, hon⟩
  all_goals by_cases hj : j = i
  · exact hho.pending k u (hj ▸ hu)
  · rw [(hm.users k).eq_of_held' ⟨_, hu⟩ hj] at hu
    exact h.pending k j u hu
  · subst hj
    exact hse.symm ▸ hho.user k v hv
  · have hrow := (hm.users k).eq_of_held' ⟨_, hv⟩ hj
    rw [hrow] at hv ⊢
    exact hoth j hj ▸ h.userLock k j v hv
  · subst hj
    exact hse.symm ▸ hho.payment k v hv
  · rw [(hm.payments k).eq_of_held' ⟨_, hv⟩ hj] at hv
    exact hoth j hj ▸ h.paymentLock k j v hv
  · subst hj
    exact hse.symm ▸ hho.reward k v hv
  · have hrow := (hm.rewards k).eq_of_held' ⟨_, hv⟩ hj
    rw [hrow] at hv ⊢
    exact hoth j hj ▸ h.rewardLock k j v hv
  · subst hj
    exact hse.symm ▸ hpo
  · rw [hoth j hj]
    exact hm.pointOk hj (h.points j) fun r credit hr => hfr j r credit hj hr

theorem Booked.stay (hca : st'.calls = Function.update st.calls i point)
    (hus : st.users.Pends i st'.users) (hpay : st.payments.Pends i st'.payments)
    (hrew : st.rewards.Pends i st'.rewards) (hawa : st'.awards = st.awards) (hho : Holds st₀ st' i point)
    (hpo : PointOk st₀ st' i point) : Booked st₀ st' := by
  have hmo : Moves i point st st' := ⟨hca, hus.touched, hpay.touched, hrew.touched,
    fun k p hp => hpay.committed k ▸ hp, fun k hk => (hus.committed k).trans hk⟩
  refine h.step hmo (fun k u hu => h.account k u (hus.committed k ▸ hu))
    (fun k u u0 hu hu0 => hawa ▸ h.balance k u u0 (hus.committed k ▸ hu) hu0) hho hpo
    (fun a ha => ?_) (hawa ▸ h.once) fun j r credit hj hr a ha => ?_
  · rw [hawa] at ha
    obtain ⟨hcre, hso, hke⟩ := h.awarded a ha
    refine ⟨hcre, hso, ?_⟩
    rwa [hrew.committed, hpay.committed, hus.committed]
  · rw [hawa] at ha
    have hpo := h.points j
    rw [hr] at hpo
    exact hpo.2.2.2 a ha

section

variable (hcall : st.calls i = now)
include hcall

theorem Booked.free (hloc : now.locks = false) :
    (∀ k, ¬ (st.users.row k).HeldBy i) ∧ (∀ k, ¬ (st.payments.row k).HeldBy i) ∧
      ∀ k, ¬ (st.rewards.row k).HeldBy i := by
  refine ⟨?_, ?_, ?_⟩
  · rintro k ⟨v, hv⟩
    have hlo := (h.holds hcall).user k v hv
    cases now <;> simp_all [UserLock, Point.locks]
  · rintro k ⟨v, hv⟩
    have hlo := ((h.holds hcall).payment k v hv).2
    cases now <;> simp_all [Point.deletes, Point.locks]
  rintro k ⟨v, hv⟩
  have hlo := (h.holds hcall).reward k v hv
  cases now <;> simp_all [RewardLock, Point.locks]

theorem Booked.known : PointOk st₀ st i now := hcall ▸ h.points i

theorem Booked.noPayments (hpo : now.deletes = false) (k : Int) : ¬ (st.payments.row k).HeldBy i := by
  rintro ⟨v, hv⟩
  rw [((h.holds hcall).payment k v hv).2] at hpo
  cases hpo

theorem Booked.noRewards (hpo : ∀ k v old, ¬ RewardLock now k v old) (k : Int) : ¬ (st.rewards.row k).HeldBy i := by
  rintro ⟨v, hv⟩
  exact hpo k v _ ((h.holds hcall).reward k v hv)

theorem Booked.goTo (hlo : now.locks = false) (hpo : PointOk st₀ st i point) : Booked st₀ (st.goTo i point) := by
  obtain ⟨hus, hpay, hrew⟩ := h.free hcall hlo
  refine h.stay rfl (.refl i _) (.refl i _) (.refl i _) rfl (.nothing hus hpay hrew) ?_
  cases point <;> exact hpo

end

theorem Booked.abort : Booked st₀ (st.abort i) :=
  h.stay rfl pends_rollback pends_rollback pends_rollback rfl
    (.nothing (fun _ => not_held_release) (fun _ => not_held_release) fun _ => not_held_release) trivial

theorem booked_findPayment {paymentID : Int} (hke : ∀ k p, (st₀.payments.row k).committed = some p → p.id = k)
    (hcall : st.calls i = .findPayment paymentID) (hp : st.payments.get i paymentID = some p) :
    Booked st₀ (st.goTo i (.findUser p)) := by
  refine h.goTo hcall rfl ?_
  rw [get_of_not_held ((h.free hcall rfl).2.1 paymentID)] at hp
  have hpa := h.paid paymentID p hp
  change (st₀.payments.row p.id).committed = some p
  rwa [hke paymentID p hpa]

end

theorem rewardFor_eq_some {u : Account} (h : Scene.rewardFor p u = some r) :
    u.referredBy = some r.referrerID ∧ r.referredID = u.id ∧ r.paymentID = p.id := by
  obtain ⟨referrerID, href, h⟩ := bind_eq_some_iff.1 h
  dsimp only at h
  split_ifs at h
  cases h
  exact ⟨href, rfl, rfl⟩

section

variable (h : Booked st₀ st)
include h

theorem booked_findUser (hcall : st.calls i = .findUser p)
    (hr : (st.users.get i p.userID).bind (Scene.rewardFor p) = some r) : Booked st₀ (st.goTo i (.countRewards r)) := by
  refine h.goTo hcall rfl ?_
  have hp : (st₀.payments.row p.id).committed = some p := h.known hcall
  obtain ⟨u, hu, hr⟩ := bind_eq_some_iff.1 hr
  obtain ⟨hrefe, href, hpay⟩ := rewardFor_eq_some hr
  rw [get_of_not_held ((h.free hcall rfl).1 p.userID)] at hu
  obtain ⟨hid, u0, hu0, hsa⟩ := h.account p.userID u hu
  refine ⟨p, u0, hpay ▸ hp, ?_, ?_, ?_⟩
  · rw [href, hid]
  · rwa [href, hid]
  · rw [← hsa, hrefe]

theorem booked_credit (hcall : st.calls i = .credit r)
    (hpre : (st.users.get i r.referrerID).isSome = true) (hs : st.credit i r = some st') : Booked st₀ st' := by
  obtain ⟨hus, hpay, hrew⟩ := h.free hcall rfl
  have hso : Sound st₀ r := h.known hcall
  obtain ⟨u, hu⟩ := isSome_iff_exists.1 hpre
  unfold Scene.credit at hs
  rw [hu] at hs
  obtain ⟨users, hw, rfl⟩ := map_eq_some_iff.1 hs
  obtain ⟨-, hrow, -⟩ := write_eq_some hw
  rw [get_of_not_held (hus _)] at hu
  have hacc := h.account _ u hu
  -- the only row the call holds is that of the referrer
  refine h.stay rfl (pends_write hw) (.refl i _) (.refl i _) rfl
    ⟨fun k u' hu' => ?_, fun k v hv => ?_, fun k v hv => ?_, fun k v hv => ?_⟩ ?_
  · obtain ⟨rfl, hsom⟩ := uncommitted_write hw hus hu'
    cases hsom
    exact hacc
  · obtain ⟨rfl, rfl⟩ := uncommitted_write hw hus hv
    change UserLock _ _ _ (users.row r.referrerID).committed
    rw [hrow, hu]
    exact ⟨rfl, rfl⟩
  · exact absurd ⟨_, hv⟩ (hpay k)
  · exact absurd ⟨_, hv⟩ (hrew k)
  · refine ⟨hso, by rw [hacc.1], ⟨_, congrArg uncommitted hrow⟩, ?_⟩
    change (users.row r.referrerID).committed ≠ none
    rw [hrow, hu]
    exact some_ne_none u

/-- While the payment and the referrer are there, a second reward would meet the first one. -/
theorem Booked.unrewarded (hso : Sound st₀ r) (hpay : (st.payments.row r.paymentID).committed ≠ none)
    (href : (st.users.row r.referrerID).committed ≠ none) (hrew : (st.rewards.row r.paymentID).committed = none)
    {a : Award} (ha : a ∈ st.awards) : a.reward.paymentID ≠ r.paymentID := by
  intro hsa
  obtain ⟨-, hso', hke⟩ := h.awarded a ha
  have hu := hso'.unique hso hsa
  rw [hsa, hu] at hke
  rcases hke with hth | hgo | hgo
  · rw [hrew] at hth
    cases hth
  · exact hpay hgo
  · exact href hgo

theorem booked_insert (hcall : st.calls i = .insert r credit)
    (hpre : (st.payments.get i r.paymentID).isSome = true) (hs : st.insert i r credit = some st') :
    Booked st₀ st' := by
  obtain ⟨rewards, hw, rfl⟩ := map_eq_some_iff.1 hs
  split_ifs with hth
  · exact h.abort
  obtain ⟨-, hrow, -⟩ := write_eq_some hw
  obtain ⟨hso, hcre⟩ : Sound st₀ r ∧ Credited st i r credit := h.known hcall
  have hpay := h.noPayments hcall rfl
  have hrew := h.noRewards hcall fun _ _ _ => id
  rw [get_of_not_held (hrew _), not_isSome_iff_eq_none] at hth
  rw [get_of_not_held (hpay _), isSome_iff_ne_none] at hpre
  refine h.stay rfl (.refl i _) (.refl i _) (pends_write hw) rfl
    ⟨(h.holds hcall).pending, fun k v hv => ?_, fun k v hv => absurd ⟨v, hv⟩ (hpay k), fun k v hv => ?_⟩
    ⟨hso, hcre, congrArg uncommitted hrow, fun a ha => ?_⟩
  · have hlo := (h.holds hcall).user k v hv
    change UserLock _ k v (st.users.row k).committed
    cases v with
    | none => exact hlo
    | some u => cases hold : (st.users.row k).committed <;> rw [hold] at hlo <;> exact hlo
  · obtain ⟨rfl, rfl⟩ := uncommitted_write hw hrew hv
    exact ⟨rfl, rfl⟩
  · exact h.unrewarded hso hpre hcre.2.2 hth ha

/-- Of the rows of `users`, the transaction of a reward holds that of the referrer. -/
theorem Booked.creditedRow (hcall : st.calls i = .commitReward r credit) :
    (∃ u u', st.users.row r.referrerID = ⟨some u', some (i, some u)⟩ ∧ u.balance = u'.balance + r.amount) ∧
      ∀ k, k ≠ r.referrerID → ¬ (st.users.row k).HeldBy i := by
  obtain ⟨-, ⟨-, ⟨v, hv⟩, hso⟩, -⟩ : PointOk st₀ st i (.commitReward r credit) := h.known hcall
  have hlo := (h.holds hcall).user
  constructor
  · obtain ⟨u', hu'⟩ := ne_none_iff_exists'.1 hso
    have href := hlo _ v hv
    rw [hu'] at href
    cases v with
    | none => exact href.elim
    | some u =>
      refine ⟨u, u', ?_, href.2⟩
      rw [← hu', ← hv]
  · rintro k hk ⟨v, hv⟩
    have ho := hlo k v hv
    cases v with
    | none => exact ho
    | some u =>
      cases hold : (st.users.row k).committed with
      | none => rw [hold] at ho; exact ho
      | some u' => rw [hold] at ho; exact hk ho.1

/-- The commit of a reward: its row and that of the referrer are all that the call holds. -/
theorem booked_commitReward (hcall : st.calls i = .commitReward r credit) :
    Booked st₀ ((st.award i r credit).goTo i .idle) := by
  obtain ⟨hso, ⟨hcre, -⟩, hrew, hfr⟩ : PointOk st₀ st i (.commitReward r credit) := h.known hcall
  obtain ⟨⟨u', old, href, had⟩, hoth⟩ := h.creditedRow hcall
  have hrow : (st.users.row r.referrerID).commit i = ⟨some u', none⟩ :=
    commit_of_held (congrArg uncommitted href)
  have hpay (k : Int) : (st.payments.row k).commit i = st.payments.row k :=
    commit_of_not_held (h.noPayments hcall rfl k)
  have hgo (k : String) (hk : (st.users.row k).committed = none) : ((st.users.row k).commit i).committed = none := by
    by_cases hkey : k = r.referrerID
    · subst hkey
      rw [href] at hk
      cases hk
    · rwa [commit_of_not_held (hoth k hkey)]
  have hmo : Moves i .idle st ((st.award i r credit).goTo i .idle) := by
    refine ⟨rfl, touched_commit _ i, touched_commit _ i, touched_commit _ i, ?_, hgo⟩
    intro k p hp
    change ((st.payments.row k).commit i).committed = some p at hp
    rwa [hpay] at hp
  refine h.step hmo (fun k u hu => ?_) (fun k u u0 hu hu0 => ?_)
    (.nothing (fun _ => not_held_release) (fun _ => not_held_release) fun _ => not_held_release)
    trivial (fun a ha => ?_) ?_ fun j r' credit' hj hr' a ha => ?_
  · change ((st.users.row k).commit i).committed = some u at hu
    by_cases hkey : k = r.referrerID
    · subst hkey
      rw [hrow] at hu
      cases hu
      exact h.pending _ i u' (congrArg uncommitted href)
    · rw [commit_of_not_held (hoth k hkey)] at hu
      exact h.account k u hu
  · change ((st.users.row k).commit i).committed = some u at hu
    change u.balance = u0.balance + creditsOf k (st.awards ++ [⟨r, credit⟩])
    rw [creditsOf_append, hcre]
    by_cases hkey : k = r.referrerID
    · subst hkey
      rw [hrow] at hu
      cases hu
      have hold := h.balance _ old u0 (congrArg committed href) hu0
      have hnew : creditsOf r.referrerID [⟨r, some ⟨r.referrerID, r.amount⟩⟩] = r.amount := by simp [creditsOf]
      omega
    · rw [commit_of_not_held (hoth k hkey)] at hu
      have hold := h.balance k u u0 hu hu0
      have hnew : creditsOf k [⟨r, some ⟨r.referrerID, r.amount⟩⟩] = 0 := by simp [creditsOf, Ne.symm hkey]
      omega
  · rcases mem_append.1 ha with ha | ha
    · -- another payment: its reward row is not among those committed now
      obtain ⟨hcre', hso', hke⟩ := h.awarded a ha
      refine ⟨hcre', hso', hke.imp (fun hth => ?_) (Or.imp (fun hn => ?_) (hgo _))⟩
      · change ((st.rewards.row a.reward.paymentID).commit i).committed = some a.reward
        rwa [commit_of_not_held]
        rintro ⟨v, hv⟩
        have hlo := (h.holds hcall).reward _ v hv
        cases v with
        | none => exact hlo
        | some r' => exact hfr a ha hlo.2
      · change ((st.payments.row a.reward.paymentID).commit i).committed = none
        rwa [hpay]
    · obtain rfl := mem_singleton.1 ha
      refine ⟨hcre, hso, .inl ?_⟩
      change ((st.rewards.row r.paymentID).commit i).committed = some r
      rw [commit_of_held hrew]
  · change ((st.awards ++ [(⟨r, credit⟩ : Award)]).map fun a => a.reward.paymentID).Nodup
    rw [map_append, nodup_append]
    refine ⟨h.once, nodup_singleton _, fun q hq q' hq' => ?_⟩
    obtain ⟨a, ha, rfl⟩ := mem_map.1 hq
    obtain rfl := mem_singleton.1 hq'
    exact hfr a ha
  · obtain ⟨-, -, hrew', hfr'⟩ : PointOk st₀ st j (.commitReward r' credit') := h.known hr'
    rcases mem_append.1 ha with ha | ha
    · exact hfr' a ha
    obtain rfl := mem_singleton.1 ha
    -- two calls cannot hold the row of one payment
    intro hsa
    rw [← hsa] at hrew'
    exact hj (Row.HeldBy.unique ⟨_, hrew'⟩ ⟨_, hrew⟩)

theorem booked_deletePayments (hcall : st.calls i = .deletePayments uid) {payments : Versions Nat Int Payment}
    (hcha : st.payments.change i (·.userID == uid) (fun _ => none) = some payments) :
    Booked st₀ ({ st with payments := payments }.goTo i (.deleteRewards uid)) := by
  obtain ⟨hus, hpay, hrew⟩ := h.free hcall rfl
  obtain ⟨-, -, hrow⟩ := change_eq_some hcha
  refine h.stay rfl (.refl i _) (pends_change hcha) (.refl i _) rfl
    ⟨fun k u hu => absurd ⟨_, hu⟩ (hus k), fun k v hv => absurd ⟨_, hv⟩ (hus k), fun k v hv => ?_,
      fun k v hv => absurd ⟨_, hv⟩ (hrew k)⟩ fun k p hp huse => ?_
  · change (payments.row k).uncommitted = some (i, v) at hv
    rw [hrow k] at hv
    split_ifs at hv with hma
    · have hn := congrArg Prod.snd (some.inj hv)
      rw [bind_fun_none] at hn
      exact ⟨hn.symm, rfl⟩
    · exact absurd ⟨_, hv⟩ (hpay k)
  · change (payments.row k).HeldBy i
    change (payments.row k).committed = some p at hp
    rw [(pends_change hcha).committed] at hp
    have hma : st.payments.Matches i (·.userID == uid) k := by
      rw [Versions.Matches, get_of_not_held (hpay k), hp]
      exact beq_iff_eq.2 huse
    rw [hrow k, if_pos hma]
    exact ⟨_, rfl⟩

theorem booked_deleteRewards (hcall : st.calls i = .deleteRewards uid) {rewards : Versions Nat Int Reward}
    (hcha : st.rewards.change i (fun r => r.referrerID == uid || r.referredID == uid) (fun _ => none) = some rewards) :
    Booked st₀ ({ st with rewards := rewards }.goTo i (.deleteUser uid)) := by
  obtain ⟨-, -, hrow⟩ := change_eq_some hcha
  have hta : PaymentsTaken st i uid := h.known hcall
  have hrew := h.noRewards hcall fun _ _ _ => id
  refine h.stay rfl (.refl i _) (.refl i _) (pends_change hcha) rfl
    ⟨(h.holds hcall).pending, fun k v hv => ((h.holds hcall).user k v hv).elim, (h.holds hcall).payment,
      fun k v hv => ?_⟩ hta
  · change (rewards.row k).uncommitted = some (i, v) at hv
    change RewardLock _ k v (rewards.row k).committed
    rw [(pends_change hcha).committed]
    rw [hrow k] at hv
    split_ifs at hv with hma
    · have hn := congrArg Prod.snd (some.inj hv)
      rw [bind_fun_none] at hn
      obtain rfl : v = none := hn.symm
      rw [Versions.Matches, get_of_not_held (hrew k), Option.any_eq_true] at hma
      obtain ⟨r, hr, hof⟩ := hma
      rw [hr]
      simpa [RewardLock] using hof
    · exact absurd ⟨_, hv⟩ (hrew k)

theorem booked_deleteUser (hcall : st.calls i = .deleteUser uid)
    (hs : st.deleteUser i uid = some st') : Booked st₀ st' := by
  have hta : PaymentsTaken st i uid := h.known hcall
  have hus (k : String) : ¬ (st.users.row k).HeldBy i := by
    rintro ⟨v, hv⟩
    exact (h.holds hcall).user k v hv
  have hrew (k : Int) (v : Option Reward) (hv : (st.rewards.row k).uncommitted = some (i, v)) :
      RewardLock (.commitDelete uid) k v (st.rewards.row k).committed := by
    have hlo := (h.holds hcall).reward k v hv
    cases v with
    | none => cases hold : (st.rewards.row k).committed <;> rw [hold] at hlo <;> exact hlo
    | some r => exact hlo.elim
  unfold Scene.deleteUser at hs
  split at hs
  · rename_i hn
    cases hs
    rw [get_of_not_held (hus _)] at hn
    exact h.stay rfl (.refl i _) (.refl i _) (.refl i _) rfl
      ⟨(h.holds hcall).pending, fun k v hv => absurd ⟨_, hv⟩ (hus k), (h.holds hcall).payment, hrew⟩
      ⟨hta, .inl hn⟩
  · obtain ⟨users, hw, rfl⟩ := map_eq_some_iff.1 hs
    obtain ⟨-, hrow, -⟩ := write_eq_some hw
    refine h.stay rfl (pends_write hw) (.refl i _) (.refl i _) rfl
      ⟨fun k u hu => ?_, fun k v hv => ?_, (h.holds hcall).payment, hrew⟩
      ⟨hta, .inr ⟨_, congrArg uncommitted hrow⟩⟩
    · cases (uncommitted_write hw hus hu).2
    · obtain ⟨rfl, rfl⟩ := uncommitted_write hw hus hv
      rfl

/-- The commit of a deletion: if it takes the reward row of a payment, the payment or the referrer goes with it. -/
theorem booked_commitDelete (hcall : st.calls i = .commitDelete uid) : Booked st₀ ((st.commit i).goTo i .idle) := by
  obtain ⟨hta, huse⟩ : PointOk st₀ st i (.commitDelete uid) := h.known hcall
  have hpay (k : Int) (p : Payment) (hp : ((st.payments.row k).commit i).committed = some p) :
      (st.payments.row k).committed = some p ∧ ¬ (st.payments.row k).HeldBy i := by
    by_cases hhe : (st.payments.row k).HeldBy i
    · obtain ⟨v, hv⟩ := hhe
      rw [commit_of_held hv, (h.paymentLock k i v hv).1] at hp
      cases hp
    · rw [commit_of_not_held hhe] at hp
      exact ⟨hp, hhe⟩
  have hus (k : String) : ((st.users.row k).commit i).committed = none ∨
      (st.users.row k).commit i = st.users.row k ∧ ¬ (st.users.row k).HeldBy i := by
    by_cases hhe : (st.users.row k).HeldBy i
    · obtain ⟨v, hv⟩ := hhe
      have hlo := (h.holds hcall).user k v hv
      cases v with
      | none => exact .inl (by rw [commit_of_held hv])
      | some u => exact hlo.elim
    · exact .inr ⟨commit_of_not_held hhe, hhe⟩
  have hgo (k : String) (hk : (st.users.row k).committed = none) : ((st.users.row k).commit i).committed = none := by
    rcases hus k with hn | ⟨hrow, -⟩
    · exact hn
    · rwa [hrow]
  have hmo : Moves i .idle st ((st.commit i).goTo i .idle) :=
    ⟨rfl, touched_commit _ i, touched_commit _ i, touched_commit _ i,
      fun k p hp => (hpay k p hp).1, hgo⟩
  have hsa (k : String) (u : Account) (hu : ((st.users.row k).commit i).committed = some u) :
      (st.users.row k).committed = some u := by
    rcases hus k with hn | ⟨hrow, -⟩
    · rw [hn] at hu
      cases hu
    · rwa [hrow] at hu
  refine h.step hmo (fun k u hu => h.account k u (hsa k u hu))
    (fun k u u0 hu hu0 => h.balance k u u0 (hsa k u hu) hu0)
    (.nothing (fun _ => not_held_release) (fun _ => not_held_release) fun _ => not_held_release)
    trivial (fun a ha => ?_) h.once fun j r credit hj hr a ha => ?_
  · obtain ⟨hcre, hsou, hke⟩ := h.awarded a ha
    refine ⟨hcre, hsou, ?_⟩
    have hst (hn : (st.payments.row a.reward.paymentID).committed = none) :
        ((st.payments.row a.reward.paymentID).commit i).committed = none := by
      by_contra hso
      obtain ⟨p, hp⟩ := ne_none_iff_exists'.1 hso
      rw [(hpay _ p hp).1] at hn
      cases hn
    rcases hke with hth | hn | hn
    · by_cases hhe : (st.rewards.row a.reward.paymentID).HeldBy i
      · obtain ⟨v, hv⟩ := hhe
        have hlo := (h.holds hcall).reward _ v hv
        rw [hth] at hlo
        cases v with
        | some r => exact hlo.elim
        | none =>
          refine .inr ?_
          rcases hlo with href | hrefe
          · refine .inr ?_
            rw [href]
            rcases huse with hn | hhe
            · exact hgo _ hn
            · exact (hus uid).resolve_right fun hfr => hfr.2 hhe
          · -- all payments of the referred user are deleted by this call
            refine .inl ?_
            by_contra hso
            obtain ⟨p, hp⟩ := ne_none_iff_exists'.1 hso
            obtain ⟨hp, hfr⟩ := hpay _ p hp
            obtain ⟨p0, -, hp0, how, -, -⟩ := hsou
            obtain rfl := some.inj ((h.paid _ p hp).symm.trans hp0)
            exact hfr (hta _ p hp (how.trans hrefe))
      · refine .inl ?_
        change ((st.rewards.row a.reward.paymentID).commit i).committed = some a.reward
        rwa [commit_of_not_held hhe]
    · exact .inr (.inl (hst hn))
    · exact .inr (.inr (hgo _ hn))
  · obtain ⟨-, -, -, hfre⟩ : PointOk st₀ st j (.commitReward r credit) := h.known hr
    exact hfre a ha

end

/-- Where a run begins: no call is in progress, and the rows are found by their ids. -/
structure Started (st : Scene) : Prop where
  userIDs : ∀ k u, (st.users.row k).committed = some u → u.id = k
  paymentIDs : ∀ k p, (st.payments.row k).committed = some p → p.id = k
  users : ∀ k, (st.users.row k).uncommitted = none
  payments : ∀ k, (st.payments.row k).uncommitted = none
  rewards : ∀ k, (st.rewards.row k).uncommitted = none
  idle : ∀ i, st.calls i = .idle
  awards : st.awards = []

theorem Started.booked (h : Started st) : Booked st st := by
  refine ⟨fun k u hu => ⟨h.userIDs k u hu, u, hu, rfl⟩, fun k u u0 hu hu0 => ?_, fun k j u hu => ?_, fun _ _ hp => hp,
    fun k j v hv => ?_, fun k j v hv => ?_, fun k j v hv => ?_, fun i => ?_, fun a ha => ?_, ?_⟩
  · obtain rfl := some.inj (hu.symm.trans hu0)
    rw [h.awards]
    exact (add_zero _).symm
  · rw [h.users] at hu
    cases hu
  · rw [h.users] at hv
    cases hv
  · rw [h.payments] at hv
    cases hv
  · rw [h.rewards] at hv
    cases hv
  · rw [h.idle]
    trivial
  · rw [h.awards] at ha
    cases ha
  · rw [h.awards]
    exact nodup_nil

theorem booked_issue (hst : Started st₀) (h : Booked st₀ st) (hpre : Present st (i, .statement))
    (hs : st.issue i (st.calls i) = some st') : Booked st₀ st' := by
  unfold Present at hpre
  generalize hcall : st.calls i = now at hpre hs
  cases now with
  | idle => cases hs
  | findPayment paymentID =>
    rw [Scene.issue] at hs
    split at hs
    · cases hs
      exact h.goTo hcall rfl trivial
    · cases hs
      exact booked_findPayment h hst.paymentIDs hcall (by assumption)
  | findUser payment =>
    rw [Scene.issue] at hs
    split at hs
    · cases hs
      exact h.goTo hcall rfl trivial
    · cases hs
      exact booked_findUser h hcall (by assumption)
  | countRewards r =>
    cases hs
    have hso : Sound st₀ r := h.known hcall
    split_ifs
    · exact h.goTo hcall rfl trivial
    · exact h.goTo hcall rfl hso
  | credit r => exact booked_credit h hcall hpre hs
  | insert r credit => exact booked_insert h hcall hpre hs
  | commitReward r credit =>
    cases hs
    exact booked_commitReward h hcall
  | deletePayments uid =>
    obtain ⟨payments, hcha, rfl⟩ := map_eq_some_iff.1 hs
    exact booked_deletePayments h hcall hcha
  | deleteRewards uid =>
    obtain ⟨rewards, hcha, rfl⟩ := map_eq_some_iff.1 hs
    exact booked_deleteRewards h hcall hcha
  | deleteUser uid => exact booked_deleteUser h hcall hs
  | commitDelete uid =>
    cases hs
    exact booked_commitDelete h hcall

theorem booked_referralStep (hst : Started st₀) (h : Booked st₀ st) {l : Nat × Action} (hpre : Present st l)
    (hs : referralStep st l = some st') : Booked st₀ st' := by
  obtain ⟨i, action⟩ := l
  unfold referralStep at hs
  cases action with
  | paymentCompleted paymentID | deleteUserAndData uid =>
    dsimp only at hs
    split_ifs at hs with hid
    cases hs
    exact h.goTo hid rfl trivial
  | statement => exact booked_issue hst h hpre hs
  | failure =>
    cases hs
    exact h.abort

/-- In every run in which the referrer and the payment are still there: each reward that was committed came with a
credit of its amount to the referrer, no payment has two, and the balances have grown by these credits. -/
theorem rewards_credited (st₀ st : Scene) (tr : List (Nat × Action)) (hstart : Started st₀)
    (hrun : Run (Guarded Present (stepsTo referralStep)) st₀ tr st) :
    (∀ a ∈ st.awards, a.credit = some ⟨a.reward.referrerID, a.reward.amount⟩) ∧
      (st.awards.map fun a => a.reward.paymentID).Nodup ∧
      ∀ k u u₀, (st.users.row k).committed = some u → (st₀.users.row k).committed = some u₀ →
        u.balance = u₀.balance + creditsOf k st.awards := by
  have hboo : Booked st₀ st := hrun.invariant_of_guard (Booked st₀) hstart.booked
    fun st l st' h hpre hs => booked_referralStep hstart h hpre hs
  exact ⟨fun a ha => (hboo.awarded a ha).1, hboo.once, hboo.balance⟩

/-! A user who was referred has paid 100. -/

def referredScene : Scene where
  users := .ofRows (·.id) [{ id := "ref" }, { id := "u", referredBy := some "ref" }]
  payments := .ofRows (·.id) [{ id := 1, userID := "u", amount := 100, status := "success" }]
  rewards := .ofRows (·.paymentID) []

theorem referredScene_started : Started referredScene where
  userIDs := fun _ _ hu => key_of_ofRows (fun u : Account => u.id) hu
  paymentIDs := fun _ _ hp => key_of_ofRows Payment.id hp
  users := fun _ => rfl
  payments := fun _ => rfl
  rewards := fun _ => rfl
  idle := fun _ => rfl
  awards := rfl

def statements (i n : Nat) : List (Nat × Action) := List.replicate n (i, .statement)

def rewardOfPayment : Reward := ⟨"ref", "u", 1, 25⟩

def repeatedEvent : List (Nat × Action) :=
  [(1, .paymentCompleted 1), (2, .paymentCompleted 1)] ++ statements 2 3 ++ statements 1 6 ++ statements 2 2

theorem rewards_credited_repeated : ∃ st, Run (Guarded Present (stepsTo referralStep)) referredScene repeatedEvent st ∧
    st.awards = [⟨rewardOfPayment, some ⟨"ref", 25⟩⟩] ∧ (st.awards.map fun a => a.reward.paymentID).Nodup := by
  exact Run.exists_of_guardedExec_imp (by decide +kernel) fun st hrun hawa =>
    ⟨hawa, (rewards_credited referredScene st repeatedEvent referredScene_started hrun).2.1⟩

def referrerDeleted : List (Nat × Action) :=
  [(0, .deleteUserAndData "ref")] ++ statements 0 4 ++ [(1, .paymentCompleted 1)] ++ statements 1 6

/-- The user who paid is deleted between the two handlers of `repeatedEvent`. -/
def referredDeleted : List (Nat × Action) :=
  [(1, .paymentCompleted 1), (2, .paymentCompleted 1)] ++ statements 2 3 ++ statements 1 6 ++
    [(0, .deleteUserAndData "u")] ++ statements 0 4 ++ statements 2 3

/-- A reward without a credit, and two credits for one payment. -/
theorem credit_missing_or_repeated : Started referredScene ∧
    (∃ st, Run (stepsTo referralStep) referredScene referrerDeleted st ∧ st.awards = [⟨rewardOfPayment, none⟩] ∧
      (st.rewards.row 1).committed = some rewardOfPayment) ∧
    ∃ st, Run (stepsTo referralStep) referredScene referredDeleted st ∧
      st.awards = [⟨rewardOfPayment, some ⟨"ref", 25⟩⟩, ⟨rewardOfPayment, some ⟨"ref", 25⟩⟩] ∧
      (st.users.row "ref").committed.map (·.balance) = some 50 :=
  ⟨referredScene_started, Run.exists_of_exec (by decide +kernel), Run.exists_of_exec (by decide +kernel)⟩

end Xraytool.Referral
