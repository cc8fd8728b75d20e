import Xraytool.Sanity.Renewal
import Xraytool.Spec.Accounts

/-! Who is blocked, and whom a step adds to the engine. Apart from the ban handlers no step changes an owner or a block
flag, so the owner of an added email is judged in the store before the step (`NoneBlocked`). -/

namespace Xraytool

open Fallible List EngineCall

def Store.blocked (s : Store) (userID : String) : Bool :=
  s.users.rows.any fun user => user.id == userID && user.isBlocked

variable {s s' : Store} {user : User} {sub : Subscription} {uid : String} {env : ApiEnv}

theorem blocked_congr (h : s'.users.rows.map accountOf = s.users.rows.map accountOf) :
    s'.blocked uid = s.blocked uid := by
  have hmap : ∀ t : Store, t.blocked uid = (t.users.rows.map accountOf).any fun a => a.1 == uid && a.2 := by
    intro t
    rw [any_map]
    rfl
  rw [hmap, hmap, h]

theorem ownerBlocked_congr (h : SameOwners s s') {email : String} : s'.ownerBlocked email = s.ownerBlocked email := by
  have hmap : ∀ t : Store, t.ownerBlocked email =
      (t.subscriptions.rows.map ownership).any fun o => o.2.2.1 == email && t.blocked o.2.1 := by
    intro t
    rw [any_map]
    rfl
  simp only [hmap, h.subscriptions, blocked_congr h.users]

theorem blocked_of_mem (hu : user ∈ s.users.rows) : s.blocked user.id = user.isBlocked := by
  rw [Bool.eq_iff_iff, Store.blocked, any_eq_true]
  constructor
  · rintro ⟨user', hu', h⟩
    rw [Bool.and_eq_true, beq_iff_eq] at h
    obtain rfl := s.users.eq_of_clash hu' hu h.1
    exact h.2
  · exact fun h => ⟨user, hu, by simp [h]⟩

theorem ownerBlocked_of_mem (hsub : sub ∈ s.subscriptions.rows) : s.ownerBlocked sub.email = s.blocked sub.userID := by
  rw [Bool.eq_iff_iff, Store.ownerBlocked, any_eq_true]
  constructor
  · rintro ⟨sub', hsub', h⟩
    rw [Bool.and_eq_true, beq_iff_eq] at h
    obtain rfl := s.subscriptions.eq_of_clash hsub' hsub (.inr (.inl h.1))
    exact h.2
  · exact fun h => ⟨sub, hsub, by simpa [Store.blocked] using h⟩

theorem blocked_updateIsBlocked_false : (s.updateIsBlocked uid false).blocked uid = false := by
  rw [Store.blocked, any_eq_false]
  intro user hu
  obtain ⟨user', -, rfl⟩ := (Table.mem_updateWhere User.keeps_setBlocked).1 hu
  split_ifs with hid
  · simp [User.setBlocked]
  · simp [hid]

variable {id email subID : String} {endsAt : Option Time} {applied : AppliedPromo}

theorem findUserByID_ok (h : s.findUserByID id = .ok user) : user ∈ s.users.rows ∧ user.id = id :=
  found_first_ok User.id h

variable {plat status : String} {r : Response} {body : AutoRenewBody}

theorem findUserByPlatformID_ok (h : s.findUserByPlatformID plat id = .ok user) : user ∈ s.users.rows := by
  unfold Store.findUserByPlatformID at h
  split_ifs at h
  · exact (findUserByID_ok h).1
  split at h
  · cases h
  · exact (Table.first_eq_some (found_eq_ok.1 h)).1

theorem findLatestByUserID_ok (h : s.findLatestByUserID uid = .ok sub) :
    sub ∈ s.subscriptions.rows ∧ sub.userID = uid := found_first_ok Subscription.userID h

theorem findLatestByEmail_ok (h : s.findLatestByEmail email = .ok sub) :
    sub ∈ s.subscriptions.rows ∧ sub.email = email := found_first_ok Subscription.email h

theorem findLatestByEmail_of_mem (hsub : sub ∈ s.subscriptions.rows) : s.findLatestByEmail sub.email = .ok sub :=
  found_eq_ok.2 (Table.first_of_unique hsub (by simp) fun sub' hsub' he =>
    s.subscriptions.eq_of_clash hsub' hsub (.inr (.inl (by simpa using he))))

theorem findLatestByEmail_congr (h : s'.subscriptions.rows.map ownership = s.subscriptions.rows.map ownership)
    (hsub : s.findLatestByEmail email = .ok sub) :
    ∃ sub', s'.findLatestByEmail email = .ok sub' ∧ sub'.userID = sub.userID := by
  obtain ⟨hmem, rfl⟩ := findLatestByEmail_ok hsub
  have hown : ownership sub ∈ s'.subscriptions.rows.map ownership := h ▸ mem_map_of_mem hmem
  obtain ⟨sub', hmem', heq⟩ := mem_map.1 hown
  simp only [ownership, Prod.mk.injEq] at heq
  exact ⟨sub', heq.2.2.1 ▸ findLatestByEmail_of_mem hmem', heq.2.1⟩

theorem sameOwners_attempt {x : Except Err Store} (h : ∀ s', x = .ok s' → SameOwners s s') :
    SameOwners s (attempt x s) := by
  rcases attempt_cases with hx | hx
  · exact h _ hx
  · rw [hx]
    exact .refl s

theorem sameOwners_resetForEndsAt {fails : RenewOp → Bool} {now : Time}
    (h : resetForEndsAt fails now subID endsAt s = .ok s') : SameOwners s s' := by
  rw [resetForEndsAt, transaction_eq_ok] at h
  exact (sameAccounts_resetNotifications h.2.2).toSameOwners

theorem sameOwners_updateFields {f : Subscription → Subscription} {hf : Table.Keeps Subscription.Clash f}
    (h : updateSubscriptionFields env subID endsAt f hf s = .ok s')
    (hown : ∀ sub, ownership (f sub) = ownership sub) : SameOwners s s' := by
  obtain ⟨-, h⟩ := issue_eq_ok.1 h
  cases h
  cases endsAt with
  | none => exact (sameAccounts_updateSubscription hf hown).toSameOwners
  | some endsAt =>
    exact (sameOwners_attempt fun s' hs' => sameOwners_resetForEndsAt hs').trans
      (sameAccounts_updateSubscription hf hown).toSameOwners

/-- No email the step adds belongs to a blocked owner. -/
def Handled.NoneBlocked (h : Handled) : Prop := ∀ email ∈ h.added, h.store.ownerBlocked email = false

theorem noneBlocked_of_calls {h : Handled} (had : ∀ call ∈ h.calls, call.adds = []) : h.NoneBlocked := by
  intro email hem
  obtain ⟨call, hc, hmem⟩ := mem_flatMap.1 hem
  rw [had call hc] at hmem
  cases hmem

theorem noneBlocked_refuse {status : Nat} {msg : String} : (refuse s status msg).NoneBlocked :=
  noneBlocked_of_calls (by simp [refuse])

theorem noneBlocked_quiet : Handled.NoneBlocked ⟨s, [], r⟩ := noneBlocked_of_calls (by simp)

theorem noneBlocked_restored (hsub : sub ∈ s.subscriptions.rows) (h : SameOwners s s') :
    Handled.NoneBlocked ⟨s', unbanUserInXrayAsync env sub, r⟩ ↔ (env.accepting → s.blocked sub.userID = false) := by
  unfold unbanUserInXrayAsync
  split_ifs with hacc
  · have had : Handled.added ⟨s', [.addUser (restoredUser sub)], r⟩ = [sub.email] := rfl
    simp [Handled.NoneBlocked, had, hacc, ownerBlocked_congr h, ownerBlocked_of_mem hsub]
  · simpa [hacc] using noneBlocked_quiet

/-- What a redemption writes: the use of the code, and its record on the user's latest subscription. -/
theorem redeemPromo_eq (h : redeemPromo env uid applied s = .ok s') :
    ∃ sub, s.findLatestByUserID uid = .ok sub ∧ subscriptionUsedPromo sub.metadata applied.code = false ∧
      s' = (s.incrementUses applied.promo.id applied.promo.maxUses).1.updateSubscription sub.id
        (writeMetadata env.now (appendSubscriptionPromoUse sub.metadata applied.code)) (keeps_writeMetadata _ _) := by
  simp only [redeemPromo, bind_eq_ok, mapError_eq_ok, issue_eq_ok] at h
  obtain ⟨sub, ⟨-, hsub⟩, h⟩ := h
  split_ifs at h with hus
  simp only [bind_eq_ok, mapError_eq_ok, issue_eq_ok] at h
  obtain ⟨⟨s1, ok⟩, ⟨-, h1⟩, h⟩ := h
  cases h1
  split_ifs at h
  simp only [mapError_eq_ok, issue_eq_ok] at h
  obtain ⟨-, h⟩ := h
  cases h
  exact ⟨sub, hsub, by simpa using hus, rfl⟩

theorem sameOwners_redeemPromo (h : redeemPromo env uid applied s = .ok s') : SameOwners s s' := by
  obtain ⟨sub, -, -, rfl⟩ := redeemPromo_eq h
  exact ⟨rfl, (sameAccounts_updateSubscription (keeps_writeMetadata _ _) fun _ => rfl).subscriptions⟩

theorem sameOwners_autoRenewTx {q : Quote} (h : autoRenewTx env uid body q s = .ok s') : SameOwners s s' := by
  rw [autoRenewTx, transaction_eq_ok, bind_eq_ok] at h
  obtain ⟨-, -, s1, h1, h⟩ := h
  have hred : SameOwners s s1 := by
    unfold redeemApplied at h1
    split at h1
    · cases h1
      exact .refl s
    · exact sameOwners_redeemPromo h1
  exact hred.trans (sameAccounts_autoRenew h).toSameOwners

theorem autoRenew_noneBlocked : (handleAutoRenew env plat id body s).NoneBlocked := by
  unfold handleAutoRenew
  split
  · exact noneBlocked_quiet
  split
  · exact noneBlocked_refuse
  rename_i user hus
  split_ifs with hblo
  · exact noneBlocked_refuse
  split
  · exact noneBlocked_quiet
  split
  · exact noneBlocked_quiet
  rename_i s1 htx
  split
  · exact noneBlocked_quiet
  rename_i sub hsub
  obtain ⟨hmem, how⟩ := findLatestByUserID_ok (of_issue hsub)
  refine (noneBlocked_restored hmem ?_).2 fun _ => ?_
  · exact sameOwners_attempt fun s' hs' => by cases (of_issue hs'); exact ⟨rfl, rfl⟩
  have hu := blocked_of_mem (findUserByPlatformID_ok (of_issue hus))
  rw [how, blocked_congr (sameOwners_autoRenewTx htx).users, hu]
  simpa using hblo

theorem blockUser_noneBlocked : (handleAdminBlockUser env email s).NoneBlocked := by
  unfold handleAdminBlockUser
  split
  · exact noneBlocked_refuse
  split
  · exact noneBlocked_refuse
  split
  · exact noneBlocked_of_calls (by simp [adds])
  split <;> exact noneBlocked_of_calls (by simp [adds])

theorem setGlobalBlock_noneBlocked {isBlocked : Bool} {calls : Subscription → List EngineCall}
    (h : ∀ userID sub, (s.updateIsBlocked userID isBlocked).findLatestByUserID userID = .ok sub →
      Handled.NoneBlocked { store := s.updateIsBlocked userID isBlocked, calls := calls sub }) :
    (setGlobalBlock env isBlocked calls plat id s).NoneBlocked := by
  unfold setGlobalBlock
  split
  · exact noneBlocked_refuse
  split_ifs
  · exact noneBlocked_refuse
  dsimp only
  split
  · rename_i sub hsub
    exact h _ sub (of_issue hsub)
  · exact noneBlocked_quiet

theorem globalBan_noneBlocked : (handleAdminGlobalBan env plat id s).NoneBlocked := by
  refine setGlobalBlock_noneBlocked fun _ _ _ => noneBlocked_of_calls ?_
  split_ifs <;> simp [adds]

/-- The block is lifted before the user is restored, and a failure of that ends the request. -/
theorem globalUnban_noneBlocked : (handleAdminGlobalUnban env plat id s).NoneBlocked := by
  refine setGlobalBlock_noneBlocked fun userID sub hsub => ?_
  obtain ⟨hmem, how⟩ := findLatestByUserID_ok hsub
  split_ifs
  · refine (noneBlocked_restored hmem (.refl _)).2 fun _ => ?_
    rw [how]
    exact blocked_updateIsBlocked_false
  · exact noneBlocked_quiet

variable {env : PaidEnv}

/-- A paid user is restored only after a look at the block. -/
theorem afterCompleted_noneBlocked {payment : Payment} : (afterCompleted env payment s).NoneBlocked := by
  unfold afterCompleted
  split
  · exact noneBlocked_quiet
  rename_i sub hsub
  have hmem := (findLatestByUserID_ok (of_issue hsub)).1
  dsimp only
  set s1 := attempt (issue (env.fails .deleteNotifications) Err.storage (.ok (s.deleteNotificationsBySubID sub.id))) s
  have hsa : SameOwners s s1 := sameOwners_attempt fun s' hs' => by cases (of_issue hs'); exact ⟨rfl, rfl⟩
  unfold restorePaid
  split_ifs
  · exact noneBlocked_quiet
  split
  · exact noneBlocked_quiet
  rename_i user hu
  obtain ⟨hu, hid⟩ := findUserByID_ok (of_issue hu)
  split_ifs with hblo
  · exact noneBlocked_quiet
  intro email hem
  obtain rfl : email = sub.email := by simpa [Handled.added, adds, restoredUser] using hem
  rw [ownerBlocked_congr hsa, ownerBlocked_of_mem hmem, ← blocked_congr hsa.users, ← hid, blocked_of_mem hu]
  simpa using hblo

theorem updatePaymentStatus_noneBlocked {paymentID : Int} {expected : List String} :
    (handleUpdatePaymentStatus env paymentID status expected s).NoneBlocked := by
  unfold handleUpdatePaymentStatus
  split
  · exact noneBlocked_refuse
  split
  · exact noneBlocked_refuse
  split
  · exact noneBlocked_refuse
  split
  · exact noneBlocked_refuse
  split
  · split
    · exact noneBlocked_quiet
    · exact afterCompleted_noneBlocked
  · exact noneBlocked_quiet

theorem paymentCallback_noneBlocked {externalID : String} :
    (handlePaymentCallback env externalID status s).NoneBlocked := by
  unfold handlePaymentCallback
  split
  · exact noneBlocked_refuse
  split
  · exact noneBlocked_quiet
  split
  · split
    · exact noneBlocked_quiet
    · split
      · exact noneBlocked_quiet
      · exact afterCompleted_noneBlocked
  · exact noneBlocked_quiet

theorem handleExpiredBulk_calls {env : ExpiryEnv} {subs : List Subscription} :
    (handleExpiredBulk env subs s).2 = [.removeUsersBulk (subs.map (·.email))] := by
  unfold handleExpiredBulk
  split <;> rfl

theorem expiryPass_noneBlocked {env : ExpiryEnv} : (processOnce env s).NoneBlocked := by
  unfold processOnce
  split
  · exact noneBlocked_quiet
  dsimp only
  split
  · exact noneBlocked_quiet
  refine noneBlocked_of_calls ?_
  simp only [handleExpiredBulk_calls, mem_singleton, forall_eq]
  rfl

variable {env : CleanerEnv}

/-- Lifting a ban changes no account, and it restores only an email whose owner it has seen unblocked. -/
theorem tryUnban_ok : SameOwners s (tryUnban env email s).1 ∧
      ∀ e ∈ (tryUnban env email s).2.flatMap adds, s.ownerBlocked e = false := by
  have hdis : SameOwners s (discardExpiredBan env email s) :=
    sameOwners_attempt fun s' hs' => by cases (of_issue hs'); exact ⟨rfl, rfl⟩
  unfold tryUnban
  split
  · refine ⟨?_, by simp⟩
    split_ifs
    · exact hdis
    · exact .refl s
  rename_i sub hsub
  obtain ⟨hmem, rfl⟩ := findLatestByEmail_ok (of_issue hsub)
  split
  · refine ⟨?_, by simp⟩
    split_ifs
    · exact hdis
    · exact .refl s
  rename_i user hu
  obtain ⟨hu, hid⟩ := findUserByID_ok (of_issue hu)
  split
  · exact ⟨hdis, by simp⟩
  rename_i hok
  rw [not_or] at hok
  refine ⟨?_, fun e he => ?_⟩
  · split_ifs
    · exact .refl s
    · exact hdis
  obtain rfl : e = sub.email := by simpa [adds] using he
  rw [ownerBlocked_of_mem hmem, ← hid, blocked_of_mem hu]
  simpa using hok.1

/-- The pass over the expired bans, from any store on the way. -/
theorem antifraudPass_noneBlocked : (processExpired env s).NoneBlocked := by
  unfold processExpired
  split
  · exact noneBlocked_quiet
  -- every store on the way has the owners of `s`, so what was judged earlier stays right
  suffices h : ∀ (bans : List AntifraudBan) (acc : Store × List EngineCall), SameOwners s acc.1 →
      (∀ e ∈ acc.2.flatMap adds, s.ownerBlocked e = false) →
      let r := bans.foldl (fun (acc : Store × List EngineCall) ban =>
        ((tryUnban env ban.email acc.1).1, acc.2 ++ (tryUnban env ban.email acc.1).2)) acc
      SameOwners s r.1 ∧ ∀ e ∈ r.2.flatMap adds, s.ownerBlocked e = false by
    obtain ⟨hsa, had⟩ := h (s.findExpiredBans env.now) (s, []) (.refl s) (by simp)
    exact fun e he => (ownerBlocked_congr hsa).trans (had e he)
  intro bans
  induction bans with
  | nil => exact fun acc hsa had => ⟨hsa, had⟩
  | cons ban bans ih =>
    intro acc hsa had
    obtain ⟨hsa', had'⟩ := tryUnban_ok
    refine ih _ (hsa.trans hsa') fun e he => ?_
    rw [flatMap_append, mem_append] at he
    rcases he with he | he
    · exact had e he
    · exact (ownerBlocked_congr hsa).symm.trans (had' e he)

/-! What the requests of the user-management service leave in the tables: a status that is saved, and the row of a
provisioned user. -/

theorem mem_saveSubscription {s : Store} {now : Time} {sub row' : Subscription} :
    row' ∈ (s.saveSubscription now sub).subscriptions.rows ↔ ∃ row ∈ s.subscriptions.rows,
      (if row.id == sub.id then Subscription.overwrite now sub row else row) = row' :=
  Table.mem_updateWhere (Subscription.keeps_overwrite now sub)

namespace UserManagement

variable {env : ProvisionEnv}

theorem liftBan_subscriptions {email : String} : (liftBan env email s).subscriptions = s.subscriptions := by
  unfold liftBan
  split_ifs <;> rfl

theorem setStatus_of_mem (hfi : env.fails .findByEmail = false) (hupd : env.fails .update = false)
    (hsub : sub ∈ s.subscriptions.rows) :
    setStatus env sub.email status s = s.saveSubscription env.now (setStatusRow status sub) := by
  simp [setStatus, hfi, hupd, findLatestByEmail_of_mem hsub, issue]

variable {row : Subscription} {response : VPNUserConfig}

theorem status_setStatus (hfi : env.fails .findByEmail = false) (hupd : env.fails .update = false)
    (hsub : sub ∈ s.subscriptions.rows) (hrow : row ∈ (setStatus env sub.email status s).subscriptions.rows)
    (hem : row.email = sub.email) : row.status = status := by
  rw [setStatus_of_mem hfi hupd hsub] at hrow
  obtain ⟨row0, hrow0, rfl⟩ := mem_saveSubscription.1 hrow
  split_ifs at hem ⊢ with hid
  · rfl
  · obtain rfl := s.subscriptions.eq_of_clash hrow0 hsub (.inr (.inl hem))
    simp [setStatusRow] at hid

theorem of_mem_setStatus {email : String} (hrow : row ∈ (setStatus env email status s).subscriptions.rows) :
    ∃ row0 ∈ s.subscriptions.rows, row = { row0 with status := row.status, updatedAt := row.updatedAt } := by
  unfold setStatus at hrow
  split at hrow
  · exact ⟨row, hrow, rfl⟩
  rename_i sub hsub
  split_ifs at hrow
  · exact ⟨row, hrow, rfl⟩
  obtain ⟨row0, hrow0, rfl⟩ := mem_saveSubscription.1 hrow
  split_ifs with hid
  · have hmem := (findLatestByEmail_ok (of_issue hsub)).1
    obtain rfl := s.subscriptions.eq_of_clash hrow0 hmem (.inl (by simpa [setStatusRow] using hid))
    exact ⟨row0, hrow0, rfl⟩
  · exact ⟨row0, hrow0, rfl⟩

/-- The row that `CreateUser` inserts, with the defaults of its columns. -/
def freshRow (env : ProvisionEnv) (req : CreateUserRequest) (user : VPNUserConfig) : Subscription where
  id := env.subID.getD (user.uuid ++ "-sub")
  userID := env.userID.getD user.uuid
  email := user.email
  uuid := user.uuid
  status := "active"
  maxDevices := if req.limitOr 3 = 0 then 3 else req.limitOr 3
  endsAt := parseExpiryDate env.ext user.expire
  metadata := [("subfile", .str user.subfile)]
  createdAt := env.now
  updatedAt := env.now

variable {req : CreateUserRequest} {user : VPNUserConfig} {s' : Store}

theorem createRows_ok (h : createRows env req user s = .ok s') :
    (∀ sub ∈ s.subscriptions.rows, sub.email ≠ user.email) ∧ freshRow env req user ∈ s'.subscriptions.rows := by
  rw [createRows, bind_eq_ok] at h
  obtain ⟨s1, hs1, h⟩ := h
  have hsu : s1.subscriptions = s.subscriptions := by
    have hcre := (issue_eq_ok.1 (mapError_eq_ok.1 hs1)).2
    unfold Store.createUser at hcre
    split at hcre
    · cases hcre
      rfl
    · cases hcre
  have hcre := (issue_eq_ok.1 (mapError_eq_ok.1 h)).2
  unfold Store.createSubscription at hcre
  dsimp only at hcre
  split at hcre
  · rename_i t hins
    cases hcre
    obtain ⟨hfr, hro⟩ := Table.insert_eq_some hins
    rw [hsu] at hfr hro
    refine ⟨fun sub hsub hem => hfr sub hsub (.inr (.inl hem)), ?_⟩
    rw [hro]
    exact List.mem_append_right _ (List.mem_singleton.2 rfl)
  · cases hcre

theorem provisionRows_ok (h : provisionRows env req user s = .ok s') :
    (∃ sub, s.findLatestByEmail user.email = .ok sub ∧
        { provisionedRow env.ext (req.limitOr 3) user sub with updatedAt := env.now } ∈ s'.subscriptions.rows) ∨
      (∃ e, s.findLatestByEmail user.email = .error e) ∧ freshRow env req user ∈ s'.subscriptions.rows := by
  unfold provisionRows at h
  split at h
  · obtain ⟨hn, hrow⟩ := createRows_ok h
    refine .inr ⟨?_, hrow⟩
    cases hfi : s.findLatestByEmail user.email with
    | error e => exact ⟨e, rfl⟩
    | ok sub =>
      obtain ⟨hmem, hem⟩ := findLatestByEmail_ok hfi
      exact absurd hem (hn sub hmem)
  · rename_i sub hsub
    refine .inl ⟨sub, (of_issue hsub), ?_⟩
    have hrep := (issue_eq_ok.1 (mapError_eq_ok.1 h)).2
    unfold Store.replaceSubscription at hrep
    split at hrep
    · rename_i t hupd
      cases hrep
      rw [Table.rows_of_tryUpdate hupd]
      refine List.mem_map.2 ⟨sub, (findLatestByEmail_ok (of_issue hsub)).1, ?_⟩
      simp [provisionedRow]
    · cases hrep

theorem getMetadataString_put {m : Metadata} {key value key' : String} :
    getMetadataString (Assoc.put m key (.str value)) key' = if key' = key then value else getMetadataString m key' := by
  rw [getMetadataString, getMetadataString, Assoc.lookup_put]
  split_ifs <;> rfl

theorem subfileVal_ne : req.subfileVal env ≠ "" := by
  unfold CreateUserRequest.subfileVal
  split_ifs with h
  · simp [Generate.subfile]
  · exact h

def CreateUserRequest.uuidVal (env : ProvisionEnv) (req : CreateUserRequest) : String :=
  if req.uuid = "" then env.uuid.getD "" else req.uuid

def CreateUserRequest.address (req : CreateUserRequest) : String := requestEmail req.email req.name

theorem addCalls_eq {user' : VPNUserConfig} (h : req.addCalls user' = [.addUser user]) : user = user' := by
  unfold CreateUserRequest.addCalls at h
  split_ifs at h
  simpa using h.symm

theorem createUser_ok (h : createUser env req s = ⟨s', [.addUser user], .ok response⟩) :
    user = req.userCfg env (req.uuidVal env) ∧
      (req.skipDB = true ∧ s' = s ∨ req.skipDB = false ∧ provisionRows env req user s = .ok s') := by
  unfold createUser at h
  split at h
  · cases (Outcome.mk.inj h).2.2
  split at h
  · cases (Outcome.mk.inj h).2.2
  rename_i uuid huu
  have hval : req.uuidVal env = uuid := by
    unfold CreateUserRequest.newUUID at huu
    unfold CreateUserRequest.uuidVal
    split at huu
    · rename_i hem
      rw [if_pos hem]
      split at huu
      · rename_i generated hgen
        rw [hgen]
        exact Except.ok.inj huu
      · cases huu
    · rename_i hgi
      rw [if_neg hgi]
      exact Except.ok.inj huu
  rw [hval]
  dsimp only at h
  split at h
  · rename_i hsk
    obtain ⟨hst, hca, -⟩ := Outcome.mk.inj h
    exact ⟨addCalls_eq hca, .inl ⟨hsk, hst.symm⟩⟩
  rename_i hsk
  split at h
  · cases (Outcome.mk.inj h).2.2
  split at h
  · cases (Outcome.mk.inj h).2.2
  rename_i stored hsto
  split at h
  · cases (Outcome.mk.inj h).2.2
  split at h
  · cases (Outcome.mk.inj h).2.2
  obtain ⟨rfl, hca, -⟩ := Outcome.mk.inj h
  obtain rfl := addCalls_eq hca
  exact ⟨rfl, .inr ⟨by simpa using hsk, hsto⟩⟩

theorem unlimitUser_ok (h : unlimitUser env req s = ⟨s', [.addUser user], .ok response⟩) :
    user = req.userCfg env (req.uuidVal env) ∧
      s' = if req.skipDB then s else setStatus env req.address "active" (liftBan env req.address s) := by
  unfold unlimitUser at h
  dsimp only at h
  split at h
  · cases (Outcome.mk.inj h).2.2
  split at h
  · cases (Outcome.mk.inj h).2.2
  obtain ⟨hst, hca, -⟩ := Outcome.mk.inj h
  refine ⟨addCalls_eq hca, ?_⟩
  rw [← hst]
  split_ifs <;> rfl

end UserManagement

/-! A pass of the expiry worker, step by step: without a renewal between its steps it is `ProcessOnce`. -/

open Transition

variable {env : ExpiryEnv}

theorem handleWarnings_subscriptions {sub : Subscription} {timeLeft : Int} :
    (handleWarnings env sub timeLeft s).1.subscriptions = s.subscriptions := by
  unfold handleWarnings
  refine foldlRecOn (motive := fun acc : Store × Option (String × Int) => acc.1.subscriptions = s.subscriptions)
    env.warnings _ rfl ?_
  rintro ⟨s1, shortest⟩ hs1 ⟨level, duration⟩ -
  cases duration with
  | none => exact hs1
  | some duration =>
    dsimp only
    split_ifs
    · exact hs1
    all_goals
      unfold Store.createNotification
      split <;> exact hs1

theorem walkSubscriptions_subscriptions {subs : List Subscription} :
    (walkSubscriptions env subs s).subscriptions = s.subscriptions := by
  have hwa (walk : Store → Subscription → Store)
      (hst : ∀ s' sub, (walk s' sub).subscriptions = s'.subscriptions) :
      (subs.foldl walk s).subscriptions = s.subscriptions :=
    foldlRecOn (motive := fun s' : Store => s'.subscriptions = s.subscriptions) subs _ rfl
      fun s' hs' sub _ => (hst s' sub).trans hs'
  dsimp only [walkSubscriptions]
  -- the devices are deleted after the walk
  split_ifs
  all_goals
    refine hwa _ fun s' sub => ?_
    split
    · split_ifs
      · rfl
      · exact handleWarnings_subscriptions
    · rfl

theorem run_marking (env : ExpiryEnv) (subs : List Subscription) (s : Store) (updates : List (String × Time)) :
    ∃ updates', Run (stepsTo expiryStep) ⟨s, env.now, .marking subs, updates⟩
      (subs.map fun sub => .updateStatus env.now (env.fails (.updateStatus sub.id)))
      ⟨subs.foldl (fun s sub => if env.fails (.updateStatus sub.id) then s
        else (s.updateStatusIfActive env.now sub.id "expired").1) s, env.now, .marking [], updates'⟩ := by
  induction subs generalizing s updates with
  | nil => exact ⟨updates, .nil⟩
  | cons sub subs ih =>
    rw [map_cons, foldl_cons]
    cases hfa : env.fails (.updateStatus sub.id) with
    | true =>
      obtain ⟨updates', hrun⟩ := ih s updates
      refine ⟨updates', .cons ?_ hrun⟩
      simp [stepsTo, expiryStep]
    | false =>
      obtain ⟨updates', hrun⟩ := ih (s.updateStatusIfActive env.now sub.id "expired").1 (updates ++ [(sub.id, env.now)])
      refine ⟨updates', .cons ?_ hrun⟩
      simp [stepsTo, expiryStep]

/-- The steps of a pass with no renewal between them do what `ProcessOnce` does. -/
theorem pass_alone (env : ExpiryEnv) (s : Store) : ∃ tr st, Run (stepsTo expiryStep) ⟨s, env.now, .start, []⟩ tr st ∧
    (∀ call, .renew call ∉ tr) ∧ st.phase.finished ∧ st.store = (processOnce env s).store := by
  unfold processOnce
  by_cases hfi : env.fails .findByStatus = true
  · rw [if_pos hfi]
    exact ⟨[.findByStatus true], ⟨s, env.now, .done, []⟩, .cons rfl .nil, by simp, rfl, rfl⟩
  rw [if_neg hfi]
  have hlo : Run (stepsTo expiryStep) ⟨s, env.now, .start, []⟩ [.findByStatus false]
      ⟨s, env.now, .loaded (s.findByStatus "active"), []⟩ := .cons rfl .nil
  generalize s.findByStatus "active" = subs at *
  by_cases hn : subs.filter (isExpired env.now) = []
  · rw [if_pos hn]
    refine ⟨_, ⟨walkSubscriptions env subs s, env.now, .done, []⟩, hlo.trans (.cons (e := .walk env) ?_ .nil), by simp, rfl,
      rfl⟩
    simp [stepsTo, expiryStep, hn]
  rw [if_neg hn]
  have hwa : Run (stepsTo expiryStep) ⟨s, env.now, .loaded subs, []⟩ [.walk env]
      ⟨walkSubscriptions env subs s, env.now, .expired (subs.filter (isExpired env.now)), []⟩ :=
    .cons (by simp [stepsTo, expiryStep, hn]) .nil
  have hrem (fails : Bool) : Run (stepsTo expiryStep)
      ⟨walkSubscriptions env subs s, env.now, .expired (subs.filter (isExpired env.now)), []⟩ [.removeUsersBulk fails]
      ⟨walkSubscriptions env subs s, env.now,
        if fails then .done else .marking (subs.filter (isExpired env.now)), []⟩ := .cons rfl .nil
  unfold handleExpiredBulk
  by_cases hfa : env.fails .removeUsersBulk = true
  · rw [if_pos hfa]
    exact ⟨_, _, (hlo.trans hwa).trans (hrem true), by simp, rfl, rfl⟩
  rw [if_neg hfa]
  obtain ⟨updates, hrun⟩ := run_marking env (subs.filter (isExpired env.now)) (walkSubscriptions env subs s) []
  exact ⟨_, _, ((hlo.trans hwa).trans (hrem false)).trans hrun, by simp, rfl, rfl⟩

end Xraytool
