import Xraytool.Sanity.Payments

/-! What the requests and passes do to a subscription that is blocked. Each of them leaves its status alone, or writes
the subscription it is made for and no other. -/

namespace Xraytool

open Fallible List Subscription

/-- Every row with the id was there before, and it is still blocked if it was. -/
def BlockKept (id : String) (s s' : Store) : Prop :=
  ∀ row' ∈ s'.subscriptions.rows, row'.id = id →
    ∃ row ∈ s.subscriptions.rows, row.id = id ∧ (row.status = "blocked" → row'.status = "blocked")

namespace BlockKept

variable {id : String} {s s' s'' : Store}

theorem of_subset (h : ∀ row ∈ s'.subscriptions.rows, row.id = id → row ∈ s.subscriptions.rows) : BlockKept id s s' :=
  fun row hrow hid => ⟨row, h row hrow hid, hid, fun hsta => hsta⟩

theorem of_eq (h : s'.subscriptions = s.subscriptions) : BlockKept id s s' := by
  refine of_subset fun row hrow _ => ?_
  rwa [h] at hrow

theorem refl (id : String) (s : Store) : BlockKept id s s := of_eq rfl

theorem trans (h : BlockKept id s s') (h' : BlockKept id s' s'') : BlockKept id s s'' := by
  intro row'' hrow'' hid
  obtain ⟨row', hrow', hid', hsta'⟩ := h' row'' hrow'' hid
  obtain ⟨row, hrow, hid, hsta⟩ := h row' hrow' hid'
  exact ⟨row, hrow, hid, fun hblo => hsta' (hsta hblo)⟩

theorem attempt {x : Except Err Store} (h : ∀ s', x = .ok s' → BlockKept id s s') : BlockKept id s (attempt x s) := by
  rcases attempt_cases with hx | hx
  · exact h _ hx
  · rw [hx]
    exact refl id s

variable {f : Subscription → Subscription}

theorem updateWhere {p : Subscription → Bool} (hf : Table.Keeps Subscription.Clash f)
    (hs' : s'.subscriptions = s.subscriptions.updateWhere p f hf) (hid : ∀ row, (f row).id = row.id)
    (hsta : ∀ row, p row = true → row.id = id → row.status = "blocked" → (f row).status = "blocked") :
    BlockKept id s s' := by
  intro row' hrow' hro
  rw [hs'] at hrow'
  obtain ⟨row, hrow, rfl⟩ := (Table.mem_updateWhere hf).1 hrow'
  split_ifs at hro ⊢ with hp
  · rw [hid] at hro
    exact ⟨row, hrow, hro, hsta row hp hro⟩
  · exact ⟨row, hrow, hro, fun hblo => hblo⟩

theorem updateOther {subID : String} (hf : Table.Keeps Subscription.Clash f)
    (hs' : s'.subscriptions = (s.updateSubscription subID f hf).subscriptions) (hid : ∀ row, (f row).id = row.id)
    (hne : subID ≠ id) : BlockKept id s s' := by
  refine updateWhere hf hs' hid fun row hp hro => ?_
  exact absurd ((beq_iff_eq.1 hp).symm.trans hro) hne

end BlockKept

/-- A block that was on the subscription is still on it, also if new rows were inserted. -/
def BlockHeld (id : String) (s s' : Store) : Prop :=
  ∀ row ∈ s.subscriptions.rows, row.id = id → row.status = "blocked" →
    ∀ row' ∈ s'.subscriptions.rows, row'.id = id → row'.status = "blocked"

theorem BlockHeld.attempt {α : Type} {id : String} {s : Store} {x : Except Err (Store × α)}
    (h : ∀ s' a, x = .ok (s', a) → BlockHeld id s s') : BlockHeld id s (attempt (x.map Prod.fst) s) := by
  rcases x with e | ⟨s', a⟩
  · intro row hrow hid hblo row' hrow' hid'
    rwa [subscription_eq_of_id hrow' hrow (hid'.trans hid.symm)]
  · exact h s' a rfl

theorem BlockKept.held {id : String} {s s' : Store} (h : BlockKept id s s') : BlockHeld id s s' := by
  intro row hrow hid hblo row' hrow' hid'
  obtain ⟨row0, hrow0, hid0, hsta⟩ := h row' hrow' hid'
  obtain rfl := subscription_eq_of_id hrow0 hrow (hid0.trans hid.symm)
  exact hsta hblo

variable {id subID email uid plat status context tgUserID : String} {s s' : Store} {now : Time} {env : ApiEnv}
  {user : User} {endsAt : Option Time} {fails : RenewOp → Bool}

theorem resetForEndsAt_subscriptions (h : resetForEndsAt fails now subID endsAt s = .ok s') :
    s'.subscriptions = s.subscriptions := by
  rw [resetForEndsAt, transaction_eq_ok] at h
  obtain ⟨t, rfl⟩ := resetNotifications_ok h.2.2
  rfl

theorem attempt_subscriptions {x : Except Err Store} (h : ∀ s', x = .ok s' → s'.subscriptions = s.subscriptions) :
    (attempt x s).subscriptions = s.subscriptions := by
  rcases attempt_cases with hx | hx
  · exact h _ hx
  · rw [hx]

theorem attempt_issue_subscriptions {fault : Bool} {e : Err} (h : s'.subscriptions = s.subscriptions) :
    (attempt (issue fault e (.ok s')) s).subscriptions = s.subscriptions :=
  attempt_subscriptions fun s'' hs => by rw [← Except.ok.inj (of_issue hs), h]

theorem updateFields_subscriptions {f : Subscription → Subscription} {hf : Table.Keeps Subscription.Clash f}
    (h : updateSubscriptionFields env subID endsAt f hf s = .ok s') :
    s'.subscriptions = (s.updateSubscription subID f hf).subscriptions := by
  obtain rfl := Except.ok.inj (of_issue h)
  -- an end resets the warnings first, which leaves the subscriptions alone
  cases endsAt with
  | none => rfl
  | some endsAt =>
    have hre : (attempt (resetForEndsAt (fun op => env.fails (.resetNotifications op)) env.now subID (some endsAt) s)
        s).subscriptions = s.subscriptions := attempt_subscriptions fun s' hs' => resetForEndsAt_subscriptions hs'
    exact congrArg (fun t => Table.updateWhere t (fun sub => sub.id == subID) f hf) hre

theorem tryUnblock_subscriptions : (tryUnblock env uid s).subscriptions = s.subscriptions :=
  attempt_issue_subscriptions rfl

theorem forceUnban_subscriptions (env : ApiEnv) (email : String) (s : Store) :
    (forceUnban env email s).subscriptions = s.subscriptions := by
  unfold forceUnban
  split_ifs
  · exact attempt_issue_subscriptions rfl
  · rfl

theorem blockKept_blockUser : BlockKept id s (handleAdminBlockUser env email s).store := by
  unfold handleAdminBlockUser
  split
  · exact .refl id s
  split
  · exact .refl id s
  split
  · exact .refl id s
  split
  · exact .refl id s
  rename_i s' hs'
  exact .updateWhere (keeps_setStatus env.now "blocked") (updateFields_subscriptions hs') (fun _ => rfl)
    fun _ _ _ _ => rfl

section

variable (hother : ∀ sub, s.findLatestByEmail email = .ok sub → sub.id ≠ id)
include hother

theorem blockKept_reactivate {f : Subscription → Subscription} {hf : Table.Keeps Subscription.Clash f}
    {before : Store → Store} {after : Subscription → Store → Store} (hid : ∀ row, (f row).id = row.id)
    (hbef : ∀ s, (before s).subscriptions = s.subscriptions)
    (haf : ∀ sub s, (after sub s).subscriptions = s.subscriptions) :
    BlockKept id s (reactivate env email endsAt f hf before after s).store := by
  unfold reactivate
  split
  · exact .refl id s
  rename_i sub hsub
  split
  · exact .refl id s
  rename_i s' hs'
  have hke : BlockKept id s s' := .updateOther hf (updateFields_subscriptions hs') hid (hother sub (of_issue hsub))
  have hpre := (hbef (tryUnblock env sub.userID s')).trans tryUnblock_subscriptions
  refine hke.trans (.of_eq ?_)
  dsimp only
  split
  · exact hpre
  · exact (haf _ _).trans hpre

theorem blockKept_unblockUser {limit : Option Int} :
    BlockKept id s (handleAdminUnblockUser env email limit s).store := by
  unfold handleAdminUnblockUser
  split
  · exact .refl id s
  · exact blockKept_reactivate hother (fun _ => rfl) (forceUnban_subscriptions env email) fun _ _ => rfl

theorem blockKept_setExpire {expire : String} : BlockKept id s (handleAdminSetExpire env email expire s).store := by
  unfold handleAdminSetExpire
  split
  · exact .refl id s
  split
  · exact .refl id s
  split
  · exact .refl id s
  · exact blockKept_reactivate hother (fun _ => rfl) (fun _ => rfl) fun _ _ =>
      attempt_subscriptions fun _ hs' => resetForEndsAt_subscriptions hs'

end

def remainingDevices (env : ApiEnv) (deviceID : Int) (subID : String) (s : Store) : Nat :=
  if env.fails .countDevices then 0 else (s.deleteDevices [deviceID]).countDevices subID

theorem blockKept_deleteDevice {deviceID : Option Int}
    (hother : ∀ user sub device, s.findUserByPlatformID plat uid = .ok user → s.findLatestByUserID user.id = .ok sub →
      s.findDeviceByIDAndSubscription (deviceID.getD 0) sub.id = .ok device →
      limitResolved env.now (remainingDevices env device.id sub.id s) sub = true → sub.id ≠ id) :
    BlockKept id s (handleDeleteDevice env plat uid deviceID s).store := by
  unfold handleDeleteDevice
  split
  · exact .refl id s
  rename_i user hu
  split
  · exact .refl id s
  rename_i sub hsub
  split
  · exact .refl id s
  split
  · exact .refl id s
  rename_i device hdev
  split
  · exact .refl id s
  by_cases hres : limitResolved env.now (remainingDevices env device.id sub.id s) sub = true
  · have hdel : BlockKept id s (s.deleteDevices [device.id]) := .of_eq rfl
    rw [if_pos (by exact hres)]
    refine hdel.trans (.attempt fun s' hs' => ?_)
    refine .updateOther (keeps_setStatus env.now "active") (updateFields_subscriptions hs') (fun _ => rfl) ?_
    exact hother user sub device (of_issue hu) (of_issue hsub) (of_issue hdev) hres
  · rw [if_neg (by exact hres)]
    exact .of_eq rfl

theorem globalBlock_subscriptions {isBlocked : Bool} {calls : Subscription → List EngineCall} :
    (setGlobalBlock env isBlocked calls plat uid s).store.subscriptions = s.subscriptions := by
  unfold setGlobalBlock
  split
  · rfl
  dsimp only
  split_ifs
  · rfl
  · split <;> rfl

variable {maxDevices : Int}

theorem blockKept_autoRenewSubscription {nested : Bool} {planID : Option Int} {price : Int}
    {newEndsAt : Option Time}
    (hother : ∀ sub, s.findLatestByUserID uid = .ok sub → sub.id ≠ id)
    (h : autoRenewSubscription nested fails now uid planID price newEndsAt maxDevices s = .ok s') :
    BlockKept id s s' := by
  obtain ⟨sub, endsAt, metadata, users, notifications, hsub, -, -, rfl⟩ := autoRenew_ok h
  exact .updateOther (keeps_renewedRow now endsAt maxDevices metadata) rfl (fun _ => rfl) (hother sub hsub)

theorem blockKept_redeemApplied {applied : Option AppliedPromo} (h : redeemApplied env uid applied s = .ok s') :
    BlockKept id s s' ∧ ∀ sub', s'.findLatestByUserID uid = .ok sub' →
      ∃ sub, s.findLatestByUserID uid = .ok sub ∧ sub.id = sub'.id := by
  cases applied with
  | none =>
    cases h
    exact ⟨.refl id s, fun sub hsub => ⟨sub, hsub, rfl⟩⟩
  | some applied =>
    obtain ⟨sub, hsub, -, rfl⟩ := redeemPromo_eq h
    refine ⟨.updateWhere (keeps_writeMetadata _ _) rfl (fun _ => rfl) fun _ _ _ hblo => hblo, ?_⟩
    intro sub' hsub'
    rw [findLatestByUserID_updateSubscription (keeps_writeMetadata _ _) (fun _ => rfl)] at hsub'
    obtain ⟨sub0, hsub0, rfl⟩ := map_eq_ok.1 hsub'
    refine ⟨sub0, hsub0, ?_⟩
    split_ifs <;> rfl

theorem blockKept_autoRenew {body : AutoRenewBody}
    (hother : ∀ payer q s' sub, committedRenewal env plat uid body s = some (payer, q, s') →
      s.findLatestByUserID payer = .ok sub → sub.id ≠ id) :
    BlockKept id s (handleAutoRenew env plat uid body s).store := by
  rcases handleAutoRenew_store with ⟨-, hst⟩ | ⟨payer, q, s', t, hcom, hst⟩
  · rw [hst]
    exact .refl id s
  obtain ⟨body', user, -, -, -, htx⟩ := committedRenewal_eq_some hcom
  simp only [autoRenewTx, transaction_eq_ok, bind_eq_ok] at htx
  obtain ⟨-, -, s1, hred, hren⟩ := htx
  obtain ⟨hke, hlat⟩ : BlockKept id s s1 ∧ _ := blockKept_redeemApplied hred
  have hrene : BlockKept id s1 s' := by
    refine blockKept_autoRenewSubscription (fun sub' hsub' => ?_) hren
    obtain ⟨sub, hsub, hid⟩ := hlat sub' hsub'
    exact hid ▸ hother payer q s' sub hcom hsub
  rw [hst]
  exact (hke.trans hrene).trans (.of_eq rfl)

theorem blockKept_billing {env : BillingEnv} (c : BillingCall) {o : Outcome} (h : c.apply env s = .ok (s', o))
    (hother : ∀ s' o paymentID uid planID sub, c.apply env s = .ok (s', o) →
      o.effect = some (.renew paymentID uid planID true) → s.findLatestByUserID uid = .ok sub → sub.id ≠ id) :
    BlockKept id s s' := by
  have hset : BlockKept id s (s.setPaymentStatus c.selects c.newStatus) := .of_eq rfl
  rcases apply_cases h with ⟨rfl, -⟩ | ⟨-, -, -, -, p, -, hcom⟩
  · exact hset
  refine hset.trans ?_
  rcases completePayment_cases hcom with ⟨planID, devices, ho, hren⟩ | ⟨-, rfl⟩ | ⟨-, rfl⟩
  · exact blockKept_autoRenewSubscription (fun sub hsub => hother s' o p.id p.userID planID sub h ho hsub) hren
  · exact .of_eq rfl
  · exact .refl id _

variable {env : PaidEnv}

theorem afterCompleted_subscriptions {payment : Payment} :
    (afterCompleted env payment s).store.subscriptions = s.subscriptions := by
  unfold afterCompleted
  split
  · rfl
  exact attempt_issue_subscriptions rfl

theorem blockKept_updatePaymentStatus {paymentID : Int} {expected : List String}
    (hother : ∀ s' o payment uid planID sub, updatePaymentStatus env.billing paymentID status expected s =
      .ok (s', o) → o.effect = some (.renew payment uid planID true) → s.findLatestByUserID uid = .ok sub → sub.id ≠ id) :
    BlockKept id s (handleUpdatePaymentStatus env paymentID status expected s).store := by
  unfold handleUpdatePaymentStatus
  split
  · exact .refl id s
  split
  · exact .refl id s
  split
  · exact .refl id s
  rename_i s' o hupd
  have hke : BlockKept id s s' := blockKept_billing (.updatePaymentStatus paymentID status expected) hupd hother
  split
  · exact hke
  split
  · split
    · exact hke
    · exact hke.trans (.of_eq afterCompleted_subscriptions)
  · exact hke

theorem blockKept_paymentCallback {externalID : String}
    (hother : ∀ s' o payment uid planID sub, processExternalPaymentStatus env.billing externalID status s =
      .ok (s', o) → o.effect = some (.renew payment uid planID true) → s.findLatestByUserID uid = .ok sub → sub.id ≠ id) :
    BlockKept id s (handlePaymentCallback env externalID status s).store := by
  unfold handlePaymentCallback
  split
  · exact .refl id s
  split
  · exact .refl id s
  rename_i s' o hpro
  have hke : BlockKept id s s' := blockKept_billing (.processExternalPaymentStatus externalID status) hpro hother
  split
  · split
    · exact hke
    · split
      · exact hke
      · exact hke.trans (.of_eq afterCompleted_subscriptions)
  · exact hke

theorem blockKept_updateStatusIfActive : BlockKept id s (s.updateStatusIfActive now subID status).1 := by
  refine .updateWhere (keeps_setStatus now status) rfl (fun _ => rfl) fun row hact _ hblo => ?_
  have hsta : row.status = "active" := by simpa using (Bool.and_eq_true_iff.1 hact).2
  rw [hblo] at hsta
  exact absurd hsta (by decide)

theorem blockKept_expiryPass {env : ExpiryEnv} : BlockKept id s (processOnce env s).store := by
  unfold processOnce
  dsimp only
  have hwa : BlockKept id s (walkSubscriptions env (s.findByStatus "active") s) :=
    .of_eq walkSubscriptions_subscriptions
  split_ifs
  · exact .refl id s
  · exact hwa
  refine hwa.trans ?_
  unfold handleExpiredBulk
  split
  · exact .refl id _
  refine foldlRecOn (motive := fun s' : Store => BlockKept id _ s') _ _ (.refl id _) ?_
  intro s' hs' sub _
  split_ifs
  · exact hs'
  · exact hs'.trans blockKept_updateStatusIfActive

variable {env : CleanerEnv}

theorem tryUnban_subscriptions : (tryUnban env email s).1.subscriptions = s.subscriptions := by
  have hdis : (discardExpiredBan env email s).subscriptions = s.subscriptions :=
    attempt_issue_subscriptions rfl
  unfold tryUnban
  split
  · split_ifs <;> first | exact hdis | rfl
  split
  · split_ifs <;> first | exact hdis | rfl
  split
  · exact hdis
  · split_ifs <;> first | exact hdis | rfl

theorem antifraudPass_subscriptions : (processExpired env s).store.subscriptions = s.subscriptions := by
  unfold processExpired
  split
  · rfl
  refine foldlRecOn (motive := fun acc : Store × List EngineCall => acc.1.subscriptions = s.subscriptions)
    (s.findExpiredBans env.now) _ rfl ?_
  rintro ⟨s', calls⟩ hs' ban -
  exact tryUnban_subscriptions.trans hs'

theorem initialSync_store {env : SyncEnv} : (initialSync env s).store = s := by
  unfold initialSync
  split <;> rfl

variable {env : AccountEnv} {sub : Subscription} {autoRenew : Bool}

theorem BlockKept.updateUnblocked {op : AccountOp} {update : String → Store → Store}
    (h : ∀ userID, BlockKept id s (update userID s)) :
    BlockKept id s (Xraytool.updateUnblocked env op update plat uid s).store := by
  unfold Xraytool.updateUnblocked
  split
  · exact .refl id s
  split
  · exact .refl id s
  split
  · exact .refl id s
  · exact h _

theorem blockKept_setMaxDevices : BlockKept id s (handleSetMaxDevices env plat uid maxDevices s).store := by
  unfold handleSetMaxDevices
  split
  · exact .refl id s
  · exact .updateUnblocked fun _ => .updateWhere keeps_setMaxDevices rfl (fun _ => rfl) fun _ _ _ hblo => hblo

theorem blockKept_autoRenewToggle : BlockKept id s (handleAutoRenewToggle env plat uid autoRenew s).store :=
  .updateUnblocked fun _ => .updateWhere keeps_setAutoRenew rfl (fun _ => rfl) fun _ _ _ hblo => hblo

theorem blockKept_deleteUserAndData : BlockKept id s (s.deleteUserAndData uid) :=
  .of_subset fun _ hrow _ => mem_of_mem_filter hrow

theorem blockKept_deleteUser : BlockKept id s (handleAdminDeleteUser env plat uid s).store := by
  unfold handleAdminDeleteUser
  split
  · exact .refl id s
  split
  · exact .refl id s
  · exact blockKept_deleteUserAndData

theorem createUser_subscriptions (h : s.createUser user = .ok s') : s'.subscriptions = s.subscriptions := by
  unfold Store.createUser at h
  split at h
  · cases h
    rfl
  · cases h

theorem blockHeld_createSubscription (h : s.createSubscription sub = .ok s') : BlockHeld id s s' := by
  unfold Store.createSubscription at h
  dsimp only at h
  split at h
  · rename_i t ht
    cases h
    obtain ⟨hfr, hro⟩ := Table.insert_eq_some ht
    intro row hrow hid hblo row' hrow' hid'
    rw [hro, mem_append, mem_singleton] at hrow'
    rcases hrow' with hold | rfl
    · rwa [subscription_eq_of_id hold hrow (hid'.trans hid.symm)]
    · exact absurd (.inl (hid.trans hid'.symm)) (hfr row hrow)
  · cases h

theorem BlockHeld.of_created {s1 : Store} (hcre : s.createUser user = .ok s1) (h : BlockHeld id s1 s') :
    BlockHeld id s s' := by
  intro row hrow
  rw [← createUser_subscriptions hcre] at hrow
  exact h row hrow

theorem blockHeld_registerRows (h : registerRows env context user email s = .ok s') : BlockHeld id s s' := by
  simp only [registerRows, transaction_eq_ok, bind_eq_ok, mapError_eq_ok, issue_eq_ok] at h
  obtain ⟨-, -, s1, ⟨-, hcre⟩, -, hins⟩ := h
  exact .of_created hcre (blockHeld_createSubscription hins)

theorem blockHeld_findOrRegister {acct : User}
    (h : findOrRegister env plat uid context user email s = .ok (s', acct)) : BlockHeld id s s' := by
  unfold findOrRegister at h
  split at h
  · cases h
    exact (BlockKept.refl id s).held
  split at h
  · rename_i s1 hreg
    cases h
    exact blockHeld_registerRows hreg
  split at h
  · cases h
    exact (BlockKept.refl id s).held
  · cases h

theorem blockKept_link {l : Link} (h : l.apply s = .ok s') : BlockKept id s s' := by
  rcases link_spec h with ⟨-, -, hsub⟩ | ⟨absorbed, -, -, hsub⟩
  · exact .of_eq hsub
  · exact blockKept_deleteUserAndData.trans (.of_eq hsub)

theorem blockKept_trackDevice {fails : Store.TrackOp → Bool} {hwid deviceModel deviceOS userAgent : String}
    {limit : Int} {reached : Bool}
    (h : s.trackDevice fails now subID hwid deviceModel deviceOS userAgent limit = .ok (s', reached)) :
    BlockKept id s s' := by
  have hto : BlockKept id s
      (if fails .touch then s else s.updateSubscription subID (.touch now) (keeps_touch now)) := by
    split
    · exact .refl id s
    · exact .updateWhere (keeps_touch now) rfl (fun _ => rfl) fun _ _ _ hblo => hblo
  simp only [Store.trackDevice, transaction_eq_ok, bind_eq_ok, issue_eq_ok] at h
  obtain ⟨-, -, device, -, h⟩ := h
  split at h
  · generalize (if fails .touch then s else s.updateSubscription subID (.touch now) (keeps_touch now)) = s1
      at h hto
    generalize (if fails .count then 0 else s1.countDevices subID) = count at h
    split at h
    · cases h
      exact hto
    obtain ⟨s2, hcre, hret⟩ := bind_eq_ok.1 h
    cases hret
    have hcre := of_issue hcre
    unfold Store.createDevice at hcre
    split at hcre
    · cases hcre
      exact hto.trans (.of_eq rfl)
    · cases hcre
  · obtain ⟨-, h⟩ := issue_eq_ok.1 h
    cases h
    exact .of_eq rfl

namespace UserManagement

variable {env : ProvisionEnv}

theorem blockKept_setStatus (hother : ∀ sub, s.findLatestByEmail email = .ok sub → sub.id ≠ id) :
    BlockKept id s (setStatus env email status s) := by
  unfold setStatus
  split
  · exact .refl id s
  rename_i sub hsub
  split
  · exact .refl id s
  · exact .updateOther (keeps_overwrite env.now (setStatusRow status sub)) rfl (fun _ => rfl)
      (hother sub (of_issue hsub))

theorem blockKept_unlimitUser {req : UnlimitUserRequest}
    (hother : ∀ sub, s.findLatestByEmail (requestEmail req.email req.name) = .ok sub → sub.id ≠ id) :
    BlockKept id s (unlimitUser env req s).store := by
  have hlif : BlockKept id s (if req.skipDB then s else liftBan env (requestEmail req.email req.name) s) := by
    split
    · exact .refl id s
    · exact .of_eq liftBan_subscriptions
  unfold unlimitUser
  dsimp only
  split
  · exact .refl id s
  split
  · exact hlif
  split
  · exact .refl id s
  refine BlockKept.trans (.of_eq liftBan_subscriptions) (blockKept_setStatus fun sub hsub => hother sub ?_)
  rw [Store.findLatestByEmail, liftBan_subscriptions] at hsub
  exact hsub

theorem blockKept_replaceSubscription (h : s.replaceSubscription now sub = .ok s')
    (hne : sub.id ≠ id) : BlockKept id s s' := by
  unfold Store.replaceSubscription at h
  split at h
  · rename_i t ht
    cases h
    refine .of_subset fun row hrow hid => ?_
    rw [Table.rows_of_tryUpdate ht] at hrow
    obtain ⟨row0, hrow0, rfl⟩ := mem_map.1 hrow
    split_ifs at hid ⊢
    · exact absurd hid hne
    · exact hrow0
  · cases h

variable {req : CreateUserRequest}

theorem blockHeld_createRows {user : VPNUserConfig} (h : createRows env req user s = .ok s') : BlockHeld id s s' := by
  simp only [createRows, bind_eq_ok, mapError_eq_ok, issue_eq_ok] at h
  obtain ⟨s1, ⟨-, hcre⟩, -, hins⟩ := h
  exact .of_created hcre (blockHeld_createSubscription hins)

theorem blockHeld_createUser
    (hother : ∀ sub, s.findLatestByEmail (requestEmail req.email req.name) = .ok sub → sub.id ≠ id) :
    BlockHeld id s (createUser env req s).store := by
  have hre : BlockHeld id s s := (BlockKept.refl id s).held
  unfold createUser
  split
  · exact hre
  split
  · exact hre
  dsimp only
  split
  · exact hre
  split
  · exact hre
  split
  · exact hre
  rename_i s' hro
  split
  · exact hre
  split
  · exact hre
  unfold provisionRows at hro
  split at hro
  · exact blockHeld_createRows hro
  rename_i sub hsub
  simp only [mapError_eq_ok, issue_eq_ok] at hro
  exact (blockKept_replaceSubscription hro.2 (hother sub (of_issue hsub))).held

end UserManagement
end Xraytool
