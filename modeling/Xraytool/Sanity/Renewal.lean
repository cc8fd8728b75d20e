import Xraytool.Spec.Renewal

/-! What a renewal can do to the store, and when it succeeds. It never touches a payment, the block flag of a user or
the identity columns of a subscription (`SameAccounts`). -/

namespace Xraytool

open Fallible List

def accountOf (u : User) : String × Bool := (u.id, u.isBlocked)

def ownership (sub : Subscription) : String × String × String × String :=
  (sub.id, sub.userID, sub.email, sub.uuid)

/-- Who exists, who is blocked and who owns which subscription is the same in both stores. -/
structure SameOwners (s s' : Store) : Prop where
  users : s'.users.rows.map accountOf = s.users.rows.map accountOf
  subscriptions : s'.subscriptions.rows.map ownership = s.subscriptions.rows.map ownership

/-- The same owners and the same payments. -/
structure SameAccounts (s s' : Store) : Prop extends SameOwners s s' where
  payments : s'.payments = s.payments

theorem SameOwners.refl (s : Store) : SameOwners s s := ⟨rfl, rfl⟩

variable {s s' : Store} {levels : List String} {fails : RenewOp → Bool} {subID uid : String} {now : Time}
  {price maxDevices : Int} {nested : Bool} {planID : Option Int} {newEndsAt : Option Time}

theorem SameOwners.trans {s'' : Store} (h : SameOwners s s') (h' : SameOwners s' s'') : SameOwners s s'' :=
  ⟨h'.users.trans h.users, h'.subscriptions.trans h.subscriptions⟩

theorem SameAccounts.refl (s : Store) : SameAccounts s s := ⟨.refl s, rfl⟩

theorem sameAccounts_adjustBalance {amount : Int} : SameAccounts s (s.adjustBalance uid amount) :=
  ⟨⟨Table.map_updateWhere User.keeps_adjust fun _ => rfl, rfl⟩, rfl⟩

variable {f : Subscription → Subscription} {endsAt : Option Time}

theorem sameAccounts_updateSubscription {id : String} (hf : Table.Keeps Subscription.Clash f)
    (hown : ∀ sub, ownership (f sub) = ownership sub) : SameAccounts s (s.updateSubscription id f hf) :=
  ⟨⟨rfl, Table.map_updateWhere hf hown⟩, rfl⟩

theorem sameAccounts_notifications (t : Table SubscriptionNotification SubscriptionNotification.Clash) :
    SameAccounts s { s with notifications := t } := ⟨⟨rfl, rfl⟩, rfl⟩

theorem clearLevels_ok (h : clearLevels fails subID levels s = .ok s') : ∃ t, s' = { s with notifications := t } := by
  unfold clearLevels at h
  split_ifs at h
  · obtain ⟨-, h⟩ := issue_eq_ok.1 h
    cases h
    exact ⟨_, rfl⟩
  · cases h
    exact ⟨_, rfl⟩

theorem markLevels_ok (h : markLevels fails now subID levels s = .ok s') : ∃ t, s' = { s with notifications := t } := by
  induction levels generalizing s with
  | nil =>
    cases h
    exact ⟨_, rfl⟩
  | cons level levels ih =>
    rw [markLevels, bind_eq_ok] at h
    obtain ⟨s1, h1, h⟩ := h
    obtain ⟨-, h1⟩ := issue_eq_ok.1 h1
    cases h1
    obtain ⟨t, rfl⟩ := ih h
    exact ⟨t, rfl⟩

theorem resetNotifications_ok {levels : List WarningLevel}
    (h : resetNotificationsForEndsAt fails now levels subID endsAt s = .ok s') :
    ∃ t, s' = { s with notifications := t } := by
  cases endsAt with
  | none =>
    obtain ⟨-, h⟩ := issue_eq_ok.1 h
    cases h
    exact ⟨_, rfl⟩
  | some endsAt =>
    simp only [resetNotificationsForEndsAt] at h
    by_cases hle : endsAt - now ≤ 0
    · rw [if_pos hle] at h
      cases h
      exact ⟨_, rfl⟩
    rw [if_neg hle, bind_eq_ok] at h
    obtain ⟨s1, h1, h⟩ := h
    obtain ⟨t, rfl⟩ := clearLevels_ok h1
    obtain ⟨t', rfl⟩ := markLevels_ok h
    exact ⟨t', rfl⟩

theorem sameAccounts_resetNotifications {levels : List WarningLevel}
    (h : resetNotificationsForEndsAt fails now levels subID endsAt s = .ok s') : SameAccounts s s' := by
  obtain ⟨t, rfl⟩ := resetNotifications_ok h
  exact sameAccounts_notifications t

theorem debitBalance_ok (h : debitBalance fails uid price s = .ok s') :
    ∃ t, s' = { s with users := t } ∧ t.rows.map accountOf = s.users.rows.map accountOf := by
  simp only [debitBalance] at h
  split_ifs at h
  · obtain ⟨-, h⟩ := issue_eq_ok.1 h
    cases h
    exact ⟨_, rfl, Table.map_updateWhere User.keeps_debit fun _ => rfl⟩
  · simp at h
  · cases h
    exact ⟨_, rfl, rfl⟩

/-- The row after a renewal; only a plan brings metadata of its own. -/
def renewedRow (now endsAt : Time) (maxDevices : Int) (metadata : Option Metadata) (sub : Subscription) : Subscription :=
  { activateRow now endsAt maxDevices sub with metadata := metadata.getD sub.metadata }

theorem keeps_renewedRow (now endsAt : Time) (maxDevices : Int) (metadata : Option Metadata) :
    Table.Keeps Subscription.Clash (renewedRow now endsAt maxDevices metadata) := fun _ _ => ⟨id, id⟩

/-- A renewal rewrites the user's latest subscription, and besides it only balances and notifications. -/
theorem autoRenew_ok (h : autoRenewSubscription nested fails now uid planID price newEndsAt maxDevices s = .ok s') :
    ∃ sub endsAt metadata users notifications, s.findLatestByUserID uid = .ok sub ∧
      renewalTerms fails now planID newEndsAt sub s = .ok (endsAt, metadata) ∧
      users.rows.map accountOf = s.users.rows.map accountOf ∧
      s' = { s.updateSubscription sub.id (renewedRow now endsAt maxDevices metadata) (keeps_renewedRow _ _ _ _) with
        users := users, notifications := notifications } := by
  simp only [autoRenewSubscription, transaction_eq_ok, bind_eq_ok] at h
  obtain ⟨-, -, sub, hsub, ⟨endsAt, metadata⟩, hte, s1, h1, s2, h2, s3, h3, h⟩ := h
  obtain ⟨-, hsub⟩ := issue_eq_ok.1 (mapError_eq_ok.1 hsub)
  obtain ⟨users, rfl, hus⟩ := debitBalance_ok h1
  obtain ⟨-, h2⟩ := issue_eq_ok.1 h2
  cases h2
  obtain ⟨notifications, rfl⟩ := resetNotifications_ok h3
  refine ⟨sub, endsAt, metadata, users, notifications, hsub, hte, hus, ?_⟩
  cases metadata with
  | none =>
    cases h
    rfl
  | some metadata =>
    obtain ⟨-, h⟩ := issue_eq_ok.1 h
    cases h
    have htw := Table.updateWhere_updateWhere (t := s.subscriptions) (p := fun row => row.id == sub.id)
      (f := activateRow now endsAt maxDevices) (g := writeMetadata now metadata) (fun _ _ => ⟨id, id⟩)
      (fun _ _ => ⟨id, id⟩) fun _ => rfl
    exact congrArg (fun t => { s with subscriptions := t, users := users, notifications := notifications }) htw

/-- The columns that decide which subscription of a user is the latest. -/
def latestKey (sub : Subscription) : String × String × Time := (sub.id, sub.userID, sub.createdAt)

theorem findLatestByUserID_updateSubscription (hf : Table.Keeps Subscription.Clash f)
    (hkey : ∀ sub, latestKey (f sub) = latestKey sub) (s : Store) (id uid : String) :
    (s.updateSubscription id f hf).findLatestByUserID uid =
      (s.findLatestByUserID uid).map fun sub => if sub.id == id then f sub else sub := by
  simp only [latestKey, Prod.mk.injEq] at hkey
  rw [Store.findLatestByUserID, Store.updateSubscription, Table.first_updateWhere hf]
  · rw [Store.findLatestByUserID]
    cases s.subscriptions.first Store.latestFirst fun sub => sub.userID == uid <;> rfl
  · intro sub
    rw [(hkey sub).2.1]
  · intro sub sub'
    rw [Store.latestFirst, (hkey sub).1, (hkey sub).2.2, ← Store.latestFirst]
  · intro sub sub'
    rw [Store.latestFirst, (hkey sub').1, (hkey sub').2.2, ← Store.latestFirst]

section

variable (h : autoRenewSubscription nested fails now uid planID price newEndsAt maxDevices s = .ok s')
include h

theorem findLatestByUserID_autoRenew : ∃ sub endsAt metadata, s.findLatestByUserID uid = .ok sub ∧
      renewalTerms fails now planID newEndsAt sub s = .ok (endsAt, metadata) ∧
      s'.findLatestByUserID uid = .ok (renewedRow now endsAt maxDevices metadata sub) := by
  obtain ⟨sub, endsAt, metadata, users, notifications, hsub, hte, -, rfl⟩ := autoRenew_ok h
  refine ⟨sub, endsAt, metadata, hsub, hte, ?_⟩
  have hlat := findLatestByUserID_updateSubscription (keeps_renewedRow now endsAt maxDevices metadata)
    (fun _ => rfl) s sub.id uid
  rw [hsub] at hlat
  exact hlat.trans (congrArg Except.ok (if_pos (beq_self_eq_true sub.id)))

theorem sameAccounts_autoRenew : SameAccounts s s' := by
  obtain ⟨sub, endsAt, metadata, users, notifications, -, -, hus, rfl⟩ := autoRenew_ok h
  exact ⟨⟨hus, Table.map_updateWhere (keeps_renewedRow _ _ _ _) fun _ => rfl⟩, rfl⟩

end

/-- The statements the reset of the warnings issues for a subscription that now ends at `endsAt`. -/
def warningStatements (now endsAt : Time) : List RenewOp :=
  if endsAt - now ≤ 0 then []
  else
    (if 0 < (aheadLevels defaultWarningLevels (endsAt - now)).length then [.deleteNotifications] else []) ++
      (pastLevels defaultWarningLevels (endsAt - now)).map .createNotification

/-- The statements a plan renewal that charges nothing issues inside another transaction. -/
def renewalStatements (now : Time) (sub : Subscription) (plan : Plan) : List RenewOp :=
  [.begin, .findSubscription, .findPlan, .update, .updateMetadata] ++
    warningStatements now (renewedEndsAt now sub plan)

theorem markLevels_succeeds (now : Time) (subID : String) (s : Store) :
    (∃ s', markLevels fails now subID levels s = .ok s') ↔
      ∀ level ∈ levels, fails (.createNotification level) = false := by
  induction levels generalizing s with
  | nil => simp [markLevels]
  | cons level levels ih =>
    simp only [markLevels, bind_eq_ok, issue_eq_ok, Except.ok.injEq, forall_mem_cons]
    constructor
    · rintro ⟨s', s1, ⟨hf, rfl⟩, h⟩
      exact ⟨hf, (ih _).1 ⟨s', h⟩⟩
    rintro ⟨hf, hre⟩
    obtain ⟨s', h⟩ := (ih (markNotification s now subID level)).2 hre
    exact ⟨s', _, ⟨hf, rfl⟩, h⟩

theorem clearLevels_succeeds : (∃ s', clearLevels fails subID levels s = .ok s') ↔
      (0 < levels.length → fails .deleteNotifications = false) := by
  unfold clearLevels
  split_ifs with h <;> simp [h]

theorem resetNotifications_succeeds {endsAt : Time} :
    (∃ s', resetNotificationsForEndsAt fails now [] subID (some endsAt) s = .ok s') ↔
      ∀ op ∈ warningStatements now endsAt, fails op = false := by
  simp only [resetNotificationsForEndsAt, warningStatements, length_nil, if_true]
  by_cases hle : endsAt - now ≤ 0
  · simp [hle]
  simp only [hle, if_false, bind_eq_ok, forall_mem_append, forall_mem_map]
  have hcl : (∀ op ∈ if 0 < (aheadLevels defaultWarningLevels (endsAt - now)).length then
        [RenewOp.deleteNotifications] else [], fails op = false) ↔
      ∃ s1, clearLevels fails subID (aheadLevels defaultWarningLevels (endsAt - now)) s = .ok s1 := by
    rw [clearLevels_succeeds]
    split_ifs with h <;> simp [h]
  rw [hcl]
  constructor
  · rintro ⟨s', s1, h1, h⟩
    exact ⟨⟨s1, h1⟩, (markLevels_succeeds now subID s1).1 ⟨s', h⟩⟩
  rintro ⟨⟨s1, h1⟩, hma⟩
  obtain ⟨s', h⟩ := (markLevels_succeeds now subID s1).2 hma
  exact ⟨s', s1, h1, h⟩

/-- A plan renewal that charges nothing succeeds iff its rows exist and none of its statements fails. -/
theorem planRenewal_succeeds {planID : Int} (maxDevices : Int) :
    (∃ s', autoRenewSubscription true fails now uid (some planID) 0 none maxDevices s = .ok s') ↔
      ∃ sub plan, s.findLatestByUserID uid = .ok sub ∧ s.findPlanByID planID = .ok plan ∧
        ∀ op ∈ renewalStatements now sub plan, fails op = false := by
  simp only [autoRenewSubscription, renewalTerms, debitBalance, transaction_eq_ok, bind_eq_ok, issue_eq_ok,
    mapError_eq_ok, renewalStatements, forall_mem_append, forall_mem_cons]
  constructor
  · rintro ⟨s', hbe, -, sub, ⟨hfs, hsub⟩, terms, ⟨plan, ⟨hfp, hpl⟩, hte⟩, s1, -, s2, ⟨hu, -⟩, s3, hre, h⟩
    cases hte
    refine ⟨sub, plan, hsub, hpl, ⟨hbe, hfs, hfp, hu, (issue_eq_ok.1 h).1, by simp⟩, ?_⟩
    exact resetNotifications_succeeds.1 ⟨s3, hre⟩
  · rintro ⟨sub, plan, hsub, hpl, ⟨hbe, hfs, hfp, hu, hm, -⟩, hwa⟩
    obtain ⟨s3, hre⟩ := resetNotifications_succeeds.2 hwa
    exact ⟨_, hbe, rfl, sub, ⟨hfs, hsub⟩, _, ⟨plan, ⟨hfp, hpl⟩, rfl⟩, s, rfl, _, ⟨hu, rfl⟩, s3, hre,
      issue_eq_ok.2 ⟨hm, rfl⟩⟩

/-! What a committed status update does: it rewrites the status of the rows it `selects`, and executes a completion
effect only for a selected row that becomes completed. -/

def BillingCall.newStatus : BillingCall → String
  | .processExternalPaymentStatus _ status => mapExternalStatus status
  | .updatePaymentStatus _ status _ => status

def BillingCall.selects : BillingCall → Payment → Bool
  | .processExternalPaymentStatus extID status, p =>
    p.externalID == some extID && p.status != mapExternalStatus status && p.status != "completed"
  | .updatePaymentStatus id status expected, p => Store.updateStatusWhere id status expected p

variable {p q p' : Payment} {extID status : String} {env : BillingEnv} {o : Outcome} {c : BillingCall}
  {id : Int}

theorem payment_eq_of_id (hp : p ∈ s.payments.rows) (hq : q ∈ s.payments.rows) (h : p.id = q.id) : p = q :=
  s.payments.eq_of_clash hp hq (.inl h)

theorem payment_eq_of_externalID (hp : p ∈ s.payments.rows) (hq : q ∈ s.payments.rows)
    (h : p.externalID = some extID) (h' : q.externalID = some extID) : p = q :=
  s.payments.eq_of_clash hp hq (.inr ⟨h.trans h'.symm, by simp [h]⟩)

theorem mem_setPaymentStatus {cond : Payment → Bool} : p' ∈ (s.setPaymentStatus cond status).payments.rows ↔
      ∃ p ∈ s.payments.rows, (if cond p then p.setStatus status else p) = p' :=
  Table.mem_updateWhere (Payment.keeps_setStatus status)

theorem findPaymentByExternalID_ok (h : s.findPaymentByExternalID extID = .ok p) :
    p ∈ s.payments.rows ∧ p.externalID = some extID := found_first_ok Payment.externalID h

theorem findPaymentByID_ok (h : s.findPaymentByID id = .ok p) : p ∈ s.payments.rows ∧ p.id = id :=
  found_first_ok Payment.id h

section

variable (hp : p ∈ s.payments.rows)
include hp

theorem findPaymentByExternalID_of_mem (hext : p.externalID = some extID) : s.findPaymentByExternalID extID = .ok p :=
  found_eq_ok.2 (Table.first_of_unique hp (by simpa using hext) fun q hq hqe =>
    payment_eq_of_externalID hq hp (by simpa using hqe) hext)

theorem findPaymentByID_of_mem : s.findPaymentByID p.id = .ok p :=
  found_eq_ok.2 (Table.first_of_unique hp (by simp) fun q hq hqe =>
    payment_eq_of_id hq hp (by simpa using hqe))

/-- The callback's guarded update of the row it found is the update of every row it selects. -/
theorem external_selects (hext : p.externalID = some extID)
    (hne : ¬ (p.status = mapExternalStatus status ∨ p.status = "completed")) :
    ∀ q ∈ s.payments.rows, Store.ifNotCompletedWhere p.id q =
      (BillingCall.processExternalPaymentStatus extID status).selects q := by
  intro q hq
  rw [not_or] at hne
  by_cases hid : q.id = p.id
  · obtain rfl := payment_eq_of_id hq hp hid
    simp [Store.ifNotCompletedWhere, BillingCall.selects, hext, hne.1, hne.2]
  have hq' : q.externalID ≠ some extID := fun h => hid (by rw [payment_eq_of_externalID hq hp h hext])
  rw [Store.ifNotCompletedWhere, BillingCall.selects, beq_eq_false_iff_ne.2 hid, beq_eq_false_iff_ne.2 hq']
  simp

theorem external_selects_none (hext : p.externalID = some extID)
    (h : p.status = mapExternalStatus status ∨ p.status = "completed") :
    ∀ q ∈ s.payments.rows, ¬ (BillingCall.processExternalPaymentStatus extID status).selects q := by
  intro q hq hsel
  simp only [BillingCall.selects, Bool.and_eq_true, beq_iff_eq, bne_iff_ne, and_assoc] at hsel
  obtain rfl := payment_eq_of_externalID hq hp hsel.1 hext
  rcases h with h | h
  · exact hsel.2.1 h
  · exact hsel.2.2 h

end

/-- What the completion leaves: the subscription renewed, the balance credited, or the store as it was. -/
theorem completePayment_cases (h : completePayment env p s = .ok (s', o)) :
    (∃ planID devices, o.effect = some (.renew p.id p.userID planID true) ∧ autoRenewSubscription true
      (fun op => env.fails (.renew op)) env.now p.userID (some planID) 0 none devices s = .ok s') ∨
    (o.effect = some (.credit p.id p.userID p.amount) ∧ s' = s.adjustBalance p.userID p.amount) ∨
    (∀ e, o.effect = some e → e.paymentID = p.id) ∧ s' = s := by
  unfold completePayment at h
  cases hpl : p.planID with
  | some planID =>
    simp only [hpl, Except.ok.injEq, Prod.mk.injEq] at h
    obtain ⟨hst, rfl⟩ := h
    unfold extendSubscriptionForPayment at hst ⊢
    split at hst
    · next renewed hren => exact .inl ⟨planID, _, rfl, hren.trans (congrArg Except.ok hst)⟩
    · exact .inr (.inr ⟨fun e he => by cases he; rfl, hst.symm⟩)
  | none =>
    simp only [hpl] at h
    split_ifs at h
    · obtain ⟨s1, h1, h⟩ := bind_eq_ok.1 h
      cases of_issue h1
      cases h
      exact .inr (.inl ⟨rfl, rfl⟩)
    · cases h
      exact .inr (.inr ⟨nofun, rfl⟩)

theorem completePayment_ok (h : completePayment env p s = .ok (s', o)) :
    SameAccounts s s' ∧ ∀ e, o.effect = some e → e.paymentID = p.id := by
  rcases completePayment_cases h with ⟨planID, devices, ho, hren⟩ | ⟨ho, rfl⟩ | ⟨ho, rfl⟩
  · exact ⟨sameAccounts_autoRenew hren, fun e he => by cases ho.symm.trans he; rfl⟩
  · exact ⟨sameAccounts_adjustBalance, fun e he => by cases ho.symm.trans he; rfl⟩
  · exact ⟨.refl _, ho⟩

/-- A committed call rewrites the selected rows and executes an effect only for one of them. -/
structure Commits (c : BillingCall) (s s' : Store) (o : Outcome) : Prop where
  owners : SameOwners s s'
  payments : s'.payments = (s.setPaymentStatus c.selects c.newStatus).payments
  effect : ∀ e, o.effect = some e →
    c.newStatus = "completed" ∧ ∃ p ∈ s.payments.rows, c.selects p ∧ e.paymentID = p.id

theorem Commits.row (h : Commits c s s' o) : p' ∈ s'.payments.rows ↔ ∃ p ∈ s.payments.rows,
      (c.selects p ∧ p' = p.setStatus c.newStatus) ∨ (¬ c.selects p ∧ p' = p) := by
  rw [h.payments, mem_setPaymentStatus]
  refine exists_congr fun p => and_congr_right fun _ => ?_
  split_ifs with hsel
  · simp [hsel, eq_comm]
  · simp [hsel, eq_comm]

/-- A committed call writes the status of the selected rows, and then at most completes one of them. -/
theorem apply_cases (h : c.apply env s = .ok (s', o)) :
    (s' = s.setPaymentStatus c.selects c.newStatus ∧ o.effect = none) ∨
    c.newStatus = "completed" ∧ ∃ p ∈ s.payments.rows, c.selects p ∧ ∃ q, q.id = p.id ∧
      completePayment env q (s.setPaymentStatus c.selects c.newStatus) = .ok (s', o) := by
  cases c with
  | processExternalPaymentStatus extID status =>
    simp only [BillingCall.apply, processExternalPaymentStatus, transaction_eq_ok, bind_eq_ok, issue_eq_ok] at h
    obtain ⟨-, -, p, ⟨-, hfi⟩, h⟩ := h
    obtain ⟨hp, hext⟩ := findPaymentByExternalID_ok hfi
    by_cases hdo : p.status = mapExternalStatus status ∨ p.status = "completed"
    · rw [if_pos hdo] at h
      cases h
      refine .inl ⟨?_, rfl⟩
      rw [Store.setPaymentStatus, Table.updateWhere_eq_self _ (external_selects_none hp hext hdo)]
    rw [if_neg hdo] at h
    obtain ⟨⟨s1, updated⟩, h1, h⟩ := bind_eq_ok.1 h
    cases of_issue h1
    have hset : s.setPaymentStatus (Store.ifNotCompletedWhere p.id) (mapExternalStatus status) = s.setPaymentStatus
        (BillingCall.processExternalPaymentStatus extID status).selects (mapExternalStatus status) :=
      congrArg (fun t => { s with payments := t }) (Table.updateWhere_congr _ (external_selects hp hext hdo))
    rw [hset] at h
    split_ifs at h with hu hc
    · refine .inr ⟨hc, p, hp, ?_, p, rfl, h⟩
      rw [not_or] at hdo
      simp [BillingCall.selects, hext, hdo.1, hdo.2]
    · cases h; exact .inl ⟨rfl, rfl⟩
    · cases h; exact .inl ⟨rfl, rfl⟩
  | updatePaymentStatus id status expected =>
    simp only [BillingCall.apply, updatePaymentStatus, transaction_eq_ok, bind_eq_ok, issue_eq_ok] at h
    obtain ⟨-, -, ⟨s1, updated⟩, ⟨-, h1⟩, h⟩ := h
    cases h1
    split_ifs at h with hu hc
    · split at h
      · next p hr =>
        obtain ⟨q, hq, hsel⟩ := Table.affected_pos.1 (by simpa [Store.updateStatus] using hu)
        have hid : q.id = id := by
          simp only [Store.updateStatusWhere, Bool.and_eq_true, beq_iff_eq] at hsel
          exact hsel.1
        exact .inr ⟨hc, q, hq, hsel, p, (findPaymentByID_ok (of_issue hr)).2.trans hid.symm, h⟩
      · cases h; exact .inl ⟨rfl, rfl⟩
    · cases h; exact .inl ⟨rfl, rfl⟩
    · cases h; exact .inl ⟨rfl, rfl⟩

theorem apply_commits (h : c.apply env s = .ok (s', o)) : Commits c s s' o := by
  rcases apply_cases h with ⟨rfl, hno⟩ | ⟨hc, p, hp, hsel, q, hid, hcom⟩
  · exact ⟨⟨rfl, rfl⟩, rfl, fun e he => nomatch hno.symm.trans he⟩
  · obtain ⟨hsa, heff⟩ := completePayment_ok hcom
    exact ⟨⟨hsa.users, hsa.subscriptions⟩, hsa.payments, fun e he => ⟨hc, p, hp, hsel, (heff e he).trans hid⟩⟩

theorem billingStep_cases {b b' : BillingState} (h : billingStep b (env, c) = some b') :
    b' = b ∨ ∃ o, c.apply env b.store = .ok (b'.store, o) ∧ b'.effects = b.effects ++ o.effect.toList ∧
      Commits c b.store b'.store o := by
  unfold billingStep at h
  split at h
  · rename_i s' o happ
    cases h
    exact .inr ⟨o, happ, rfl, apply_commits happ⟩
  · cases h; exact .inl rfl

end Xraytool
