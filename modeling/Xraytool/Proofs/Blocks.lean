import Xraytool.Sanity.AdminRequests
import Xraytool.Sanity.Requests

/-! Is a globally blocked user ever added to the engine? Three paths do not look at the block: a device deletion that
resolves the device limit, unblock and set-expire after a failed attempt to lift it, and the start of the server. -/

namespace Xraytool

open Fallible Transition List

/-- The calls of a device deletion up to the engine succeed. -/
structure ApiEnv.DeletesDevice (env : ApiEnv) : Prop where
  findUser : env.fails .findUser = false
  findSubscription : env.fails .findSubscription = false
  findDevice : env.fails .findDevice = false
  deleteDevice : env.fails .deleteDevice = false
  accepting : env.accepting = true

/-- The calls of an unblock or set-expire up to the engine succeed, except the one that lifts the block. -/
structure ApiEnv.OnlyUnblockFails (env : ApiEnv) : Prop where
  findSubscription : env.fails .findSubscription = false
  updateFields : env.fails .updateFields = false
  updateIsBlocked : env.fails .updateIsBlocked = true
  reloadSubscription : env.fails .reloadSubscription = false
  accepting : env.accepting = true

/-- The step heeds the block flag: the condition on a request and the store it meets. -/
def PanelLabel.RespectsBlock (s : Store) : PanelLabel → Prop
  | .deleteDevice env platform id deviceID => env.DeletesDevice → ∀ user sub d device,
      s.findUserByPlatformID platform id = .ok user → s.findLatestByUserID user.id = .ok sub →
      deviceID = some d → s.findDeviceByIDAndSubscription d sub.id = .ok device →
      limitResolved env.now (remainingDevices env device.id sub.id s) sub → user.isBlocked = false
  | .unblockUser env email _ => env.OnlyUnblockFails → email ≠ "" → ∀ sub,
      s.findLatestByEmail email = .ok sub → s.blocked sub.userID = false
  | .setExpire env email expire => env.OnlyUnblockFails → email ≠ "" → expire ≠ "" →
      parseExpiryDate env.ext expire ≠ none → ∀ sub,
      s.findLatestByEmail email = .ok sub → s.blocked sub.userID = false
  | .start env => env.isMaster → env.template ≠ "" → env.findAllFails = false → ∀ sub ∈ s.subscriptions.rows,
      sub.status = "active" → sub.email ≠ "" → sub.uuid ≠ "" → s.blocked sub.userID = false
  | _ => True

theorem issue_ne_error {α : Type} {fails : Bool} {err : Err} {x : Except Err α} {a : α}
    (h : issue fails .storage x = .error err) (hf : fails = false) : x ≠ .ok a := by
  rintro rfl
  simp [issue, hf] at h

variable {env : ApiEnv} {s : Store} {email : String} {e : PanelLabel}

theorem deleteDevice_noneBlocked_iff {plat id : String} {deviceID : Option Int} :
    (handleDeleteDevice env plat id deviceID s).NoneBlocked ↔
      (PanelLabel.deleteDevice env plat id deviceID).RespectsBlock s := by
  unfold handleDeleteDevice
  split
  · rename_i hu
    exact iff_of_true noneBlocked_refuse fun hok user _ _ _ hus => absurd hus (issue_ne_error hu hok.findUser)
  rename_i user hu
  have hus := of_issue hu
  split
  · rename_i hsub
    refine iff_of_true noneBlocked_refuse fun hok user' sub _ _ hus' hsub' => ?_
    cases hus.symm.trans hus'
    exact absurd hsub' (issue_ne_error hsub hok.findSubscription)
  rename_i sub hs
  have hsub := of_issue hs
  obtain ⟨hmem, how⟩ := findLatestByUserID_ok hsub
  cases deviceID with
  | none => exact iff_of_true noneBlocked_refuse fun _ _ _ _ _ _ _ hd => by cases hd
  | some d =>
    dsimp only
    split
    · rename_i hdev
      refine iff_of_true noneBlocked_refuse fun hok user' sub' d' device hus' hsub' hd' hdev' => ?_
      cases hus.symm.trans hus'
      cases hsub.symm.trans hsub'
      cases hd'
      exact absurd hdev' (issue_ne_error hdev hok.findDevice)
    rename_i device hd
    have hdev := of_issue hd
    split
    · rename_i hdel
      exact iff_of_true noneBlocked_refuse fun hok => absurd hok.deleteDevice (by simp [hdel])
    rename_i hdel
    rw [show (if env.fails .countDevices then 0 else (s.deleteDevices [device.id]).countDevices sub.id) =
      remainingDevices env device.id sub.id s from rfl]
    split
    · rename_i hli
      have hdele : SameOwners s (s.deleteDevices [device.id]) := ⟨rfl, rfl⟩
      have hsa : SameOwners s (attempt (updateSubscriptionFields env sub.id none (.setStatus env.now "active")
          (Subscription.keeps_setStatus env.now "active") (s.deleteDevices [device.id])) _) :=
        hdele.trans (sameOwners_attempt fun s' hs' => sameOwners_updateFields hs' fun _ => rfl)
      rw [noneBlocked_restored hmem hsa, how, blocked_of_mem (findUserByPlatformID_ok hus)]
      constructor
      · intro h hok user' sub' d' device' hus' _ _ _ _
        cases hus.symm.trans hus'
        exact h hok.accepting
      · exact fun h hacc => h ⟨(issue_eq_ok.1 hu).1, (issue_eq_ok.1 hs).1, (issue_eq_ok.1 hd).1, by simpa using hdel, hacc⟩
          user sub d device hus hsub rfl hdev hli
    · rename_i hli
      refine iff_of_true noneBlocked_quiet fun _ user' sub' d' device' hus' hsub' hd' hdev' hli' => ?_
      cases hus.symm.trans hus'
      cases hsub.symm.trans hsub'
      cases hd'
      cases hdev.symm.trans hdev'
      exact absurd hli' hli

/-- Restoring the subscription is harmless iff the block was lifted or there was none. -/
theorem reactivate_noneBlocked_iff {endsAt : Option Time} {f : Subscription → Subscription}
    {hf : Table.Keeps Subscription.Clash f} {before : Store → Store} {after : Subscription → Store → Store}
    (hown : ∀ sub, ownership (f sub) = ownership sub) (hbef : ∀ t, SameOwners t (before t))
    (haf : ∀ sub t, SameOwners t (after sub t)) :
    (reactivate env email endsAt f hf before after s).NoneBlocked ↔
      (env.OnlyUnblockFails → ∀ sub, s.findLatestByEmail email = .ok sub → s.blocked sub.userID = false) := by
  unfold reactivate
  split
  · rename_i hs
    exact iff_of_true noneBlocked_refuse fun hok sub hsub => absurd hsub (issue_ne_error hs hok.findSubscription)
  rename_i sub hs
  obtain ⟨hfs, hsub⟩ := issue_eq_ok.1 hs
  split
  · rename_i hupd
    exact iff_of_true noneBlocked_refuse fun hok _ _ => absurd rfl (issue_ne_error hupd hok.updateFields)
  rename_i s1 hupd
  have h1 : SameOwners s s1 := sameOwners_updateFields hupd hown
  have hsu : (before (tryUnblock env sub.userID s1)).subscriptions.rows.map ownership =
      s.subscriptions.rows.map ownership := by
    rw [(hbef _).subscriptions, ← h1.subscriptions]
    unfold tryUnblock
    cases env.fails .updateIsBlocked <;> rfl
  obtain ⟨sub', hsub', how⟩ := findLatestByEmail_congr hsu hsub
  have hmem' := (findLatestByEmail_ok hsub').1
  have hblo : (before (tryUnblock env sub.userID s1)).blocked sub.userID =
      (env.fails .updateIsBlocked && s.blocked sub.userID) := by
    rw [blocked_congr (hbef _).users, ← blocked_congr h1.users]
    unfold tryUnblock
    cases env.fails .updateIsBlocked
    · exact blocked_updateIsBlocked_false
    · rfl
  dsimp only
  rw [hsub']
  cases hrel : env.fails .reloadSubscription with
  | true => exact iff_of_true noneBlocked_refuse fun hok => by cases hok.reloadSubscription.symm.trans hrel
  | false =>
    refine (noneBlocked_restored hmem' (haf sub' _)).trans ?_
    rw [how, hblo]
    constructor
    · intro h hok sub'' hsub''
      cases hsub.symm.trans hsub''
      simpa [hok.updateIsBlocked] using h hok.accepting
    · intro h hacc
      cases hb : env.fails .updateIsBlocked with
      | false => rfl
      | true => exact h ⟨hfs, (issue_eq_ok.1 hupd).1, hb, hrel, hacc⟩ sub hsub

theorem unblockUser_noneBlocked_iff {limit : Option Int} : (handleAdminUnblockUser env email limit s).NoneBlocked ↔
      (PanelLabel.unblockUser env email limit).RespectsBlock s := by
  unfold handleAdminUnblockUser
  split
  · rename_i hem
    exact iff_of_true noneBlocked_refuse fun _ hne => absurd hem hne
  rename_i hem
  have hfo : ∀ t, SameOwners t (forceUnban env email t) := by
    intro t
    unfold forceUnban
    split
    · exact sameOwners_attempt fun s' hs' => by cases (of_issue hs'); exact ⟨rfl, rfl⟩
    · exact .refl t
  refine (reactivate_noneBlocked_iff (f := unblockedRow env.now limit) (fun _ => rfl) hfo fun _ t => .refl t).trans ?_
  exact ⟨fun h hok _ => h hok, fun h hok => h hok hem⟩

theorem setExpire_noneBlocked_iff {expire : String} : (handleAdminSetExpire env email expire s).NoneBlocked ↔
      (PanelLabel.setExpire env email expire).RespectsBlock s := by
  unfold handleAdminSetExpire
  split
  · rename_i hem
    exact iff_of_true noneBlocked_refuse fun _ hne => absurd hem hne
  rename_i hem
  split
  · rename_i hexp
    exact iff_of_true noneBlocked_refuse fun _ _ hne => absurd hexp hne
  rename_i hexp
  split
  · rename_i hpa
    exact iff_of_true noneBlocked_refuse fun _ _ _ hne => absurd hpa hne
  rename_i expireTime hpa
  have hre (sub : Subscription) (t : Store) : SameOwners t (resetAgain env expireTime sub t) :=
    sameOwners_attempt fun s' hs' => sameOwners_resetForEndsAt hs'
  refine (reactivate_noneBlocked_iff (f := extendedRow env.now expireTime) (fun _ => rfl) (fun t => .refl t) hre).trans ?_
  exact ⟨fun h hok _ _ _ => h hok, fun h hok => h hok hem hexp (by simp [hpa])⟩

/-- The start hands over exactly the active subscriptions with an email and a UUID. -/
theorem start_noneBlocked_iff {env : SyncEnv} :
    (initialSync env s).NoneBlocked ↔ (PanelLabel.start env).RespectsBlock s := by
  unfold initialSync
  split
  · rename_i hoff
    refine iff_of_true noneBlocked_quiet fun hm ht hf => ?_
    rcases hoff with h | h | h
    · exact absurd hm h
    · exact absurd h ht
    · simp [hf] at h
  · rename_i hon
    rw [not_or, not_or, not_not, Bool.not_eq_true] at hon
    constructor
    · intro h _ _ _ sub hsub hst hem huu
      rw [← ownerBlocked_of_mem hsub]
      refine h sub.email ?_
      simp only [Handled.added, flatMap_cons, flatMap_nil, append_nil, EngineCall.adds, map_map, mem_map]
      exact ⟨sub, mem_filter.2 ⟨hsub, by simp [hst, hem, huu]⟩, rfl⟩
    · intro h email had
      simp only [Handled.added, flatMap_cons, flatMap_nil, append_nil, EngineCall.adds, map_map,
        mem_map, mem_filter, Bool.and_eq_true, beq_iff_eq, bne_iff_ne, Function.comp_apply] at had
      obtain ⟨sub, ⟨hsub, ⟨hst, hem⟩, huu⟩, rfl⟩ := had
      exact (ownerBlocked_of_mem hsub).trans (h hon.1 hon.2.1 hon.2.2 sub hsub hst hem huu)

theorem handle_noneBlocked_iff : (e.handle s).NoneBlocked ↔ e.RespectsBlock s := by
  cases e with
  | autoRenew env plat id body => exact iff_of_true autoRenew_noneBlocked trivial
  | deleteDevice env plat id deviceID => exact deleteDevice_noneBlocked_iff
  | blockUser env email => exact iff_of_true blockUser_noneBlocked trivial
  | unblockUser env email limit => exact unblockUser_noneBlocked_iff
  | setExpire env email expire => exact setExpire_noneBlocked_iff
  | globalBan env plat id => exact iff_of_true globalBan_noneBlocked trivial
  | globalUnban env plat id => exact iff_of_true globalUnban_noneBlocked trivial
  | updatePaymentStatus env id status expected =>
    exact iff_of_true updatePaymentStatus_noneBlocked trivial
  | paymentCallback env externalID status =>
    exact iff_of_true paymentCallback_noneBlocked trivial
  | expiryPass env => exact iff_of_true expiryPass_noneBlocked trivial
  | antifraudPass env => exact iff_of_true antifraudPass_noneBlocked trivial
  | start env => exact start_noneBlocked_iff

theorem panelStep_added {p p' : Panel} (h : panelStep p e = some p') :
    (∀ a ∈ p'.added, a.2 = false) ↔ (∀ a ∈ p.added, a.2 = false) ∧ e.RespectsBlock p.store := by
  cases h
  rw [← handle_noneBlocked_iff, forall_mem_append, forall_mem_map]
  rfl

/-- In every run no step adds a blocked owner's email to the engine iff every step of the run heeds the
block. -/
theorem blocked_never_added_iff (s₀ : Store) (tr : List PanelLabel) (p : Panel)
    (h : Run (stepsTo panelStep) ⟨s₀, []⟩ tr p) :
    (∀ a ∈ p.added, a.2 = false) ↔
      Run (Guarded (fun p e => e.RespectsBlock p.store) (stepsTo panelStep)) ⟨s₀, []⟩ tr p := by
  constructor
  · intro had
    induction h with
    | nil => exact .nil
    | snoc hrun hs ih =>
      obtain ⟨hbef, hres⟩ := (panelStep_added hs).1 had
      exact .snoc (ih hbef) ⟨hres, hs⟩
  · intro hgua
    have hin : ∀ a ∈ (⟨s₀, []⟩ : Panel).added, a.2 = false := by simp
    refine hgua.invariant_of_guard (fun p : Panel => ∀ a ∈ p.added, a.2 = false) hin ?_
    intro q e q' hq he hs
    exact (panelStep_added hs).2 ⟨hq, he⟩

def deviceBlocked : Store where
  users := .single { id := "u1" }
  subscriptions := .single { id := "s1", userID := "u1", email := "m1", uuid := "c1", status := "blocked" }
  devices := .single { id := 1, subscriptionID := "s1", hwid := "hw" }

theorem blocked_never_added_iff_unbanned :
    ∃ p, Run (stepsTo panelStep) ⟨deviceBlocked, []⟩
        [.globalBan { ext := noExternals } "uuid" "u1", .globalUnban { ext := noExternals } "uuid" "u1",
          .deleteDevice { ext := noExternals } "uuid" "u1" (some 1)] p ∧ p.added = [("m1", false)] ∧
      Run (Guarded (fun p e => e.RespectsBlock p.store) (stepsTo panelStep)) ⟨deviceBlocked, []⟩
        [.globalBan { ext := noExternals } "uuid" "u1", .globalUnban { ext := noExternals } "uuid" "u1",
          .deleteDevice { ext := noExternals } "uuid" "u1" (some 1)] p := by
  exact Run.exists_of_exec_imp (by decide) fun p hrun had =>
    ⟨had, (blocked_never_added_iff _ _ p hrun).1 (by simp [had])⟩

/-- The administrator bans the user globally; then the user deletes a device, which puts them back. -/
theorem blocked_added_by_device_deletion :
    ∃ p, Run (stepsTo panelStep) ⟨deviceBlocked, []⟩
        [.globalBan { ext := noExternals } "uuid" "u1", .deleteDevice { ext := noExternals } "uuid" "u1" (some 1)] p ∧
      p.added = [("m1", true)] ∧ ¬ ∀ a ∈ p.added, a.2 = false := by
  exact Run.exists_of_exec_imp (by decide) fun p hrun had => ⟨had, by simp [had]⟩

/-! A user is banned or deleted with all their subscriptions, but the engine is asked to remove one email only, that of
the subscription created last. An older subscription that is still in the engine stays there. -/

/-- The two requests that take a user out of service. -/
inductive Purge where
  | globalBan (env : ApiEnv)
  | deleteUser (env : AccountEnv)

namespace Purge

def handle (platform id : String) (s : Store) : Purge → Handled
  | .globalBan env => handleAdminGlobalBan env platform id s
  | .deleteUser env => handleAdminDeleteUser env platform id s

/-- The subscription whose email the engine is asked to remove: the latest one, if it can be read. The ban asks for no
empty email. -/
def Removes (s : Store) (user : User) (sub : Subscription) : Purge → Prop
  | .globalBan env => env.fails .findSubscription = false ∧ s.findLatestByUserID user.id = .ok sub ∧ sub.email ≠ ""
  | .deleteUser env => env.fails .findSubscription = false ∧ s.findLatestByUserID user.id = .ok sub

end Purge

variable {p : Purge} {plat id : String} {s : Store} {user : User}

theorem Purge.Removes.unique {sub sub' : Subscription} (h : p.Removes s user sub) (h' : p.Removes s user sub') :
    sub = sub' := by
  cases p with
  | globalBan env => exact ok_unique h.2.1 h'.2.1
  | deleteUser env => exact ok_unique h.2 h'.2

theorem purge_calls (hu : s.findUserByPlatformID plat id = .ok user) (hok : (p.handle plat id s).response = .ok) :
    (∃ sub, p.Removes s user sub ∧ (p.handle plat id s).calls = [.removeUser sub.email]) ∨
    (∀ sub, ¬ p.Removes s user sub) ∧ (p.handle plat id s).calls = [] := by
  cases p with
  | globalBan env =>
    dsimp only [Purge.handle, handleAdminGlobalBan, setGlobalBlock] at hok ⊢
    split at hok
    · cases hok
    rename_i found hfo
    obtain rfl : found = user := Except.ok.inj ((issue_eq_ok.1 hfo).2.symm.trans hu)
    split_ifs at hok ⊢
    · cases hok
    -- the block leaves the subscriptions as they are
    have hlat : (s.updateIsBlocked found.id true).findLatestByUserID found.id = s.findLatestByUserID found.id := rfl
    rw [hlat]
    split
    · rename_i sub hsub
      obtain ⟨hre, hsub⟩ := issue_eq_ok.1 hsub
      by_cases hem : sub.email = ""
      · refine .inr ⟨?_, if_neg (not_not.2 hem)⟩
        rintro sub' ⟨-, hsub', hne⟩
        obtain rfl := ok_unique hsub hsub'
        exact hne hem
      · exact .inl ⟨sub, ⟨hre, hsub, hem⟩, if_pos hem⟩
    · rename_i e he
      refine .inr ⟨?_, rfl⟩
      rintro sub ⟨hre, hsub, -⟩
      rw [issue_eq_ok.2 ⟨hre, hsub⟩] at he
      cases he
  | deleteUser env =>
    dsimp only [Purge.handle, handleAdminDeleteUser] at hok ⊢
    split at hok
    · cases hok
    rename_i found hfo
    obtain rfl : found = user := Except.ok.inj ((issue_eq_ok.1 hfo).2.symm.trans hu)
    split_ifs at hok ⊢
    · cases hok
    split
    · rename_i sub hsub
      exact .inl ⟨sub, issue_eq_ok.1 hsub, rfl⟩
    rename_i e he
    refine .inr ⟨fun sub hrem => ?_, rfl⟩
    rw [issue_eq_ok.2 hrem] at he
    cases he

theorem Purge.Removes.owned {sub : Subscription} (h : p.Removes s user sub) :
    sub ∈ s.subscriptions.rows ∧ sub.userID = user.id := by
  cases p with
  | globalBan env => exact findLatestByUserID_ok h.2.1
  | deleteUser env => exact findLatestByUserID_ok h.2

/-- After a ban or a deletion the engine has no email of the user's subscriptions exactly if every one of them that was
in the engine is the one whose removal is asked for. -/
theorem purged_iff (p : Purge) (platform id : String) (s : Store) (user : User) (engine : List String)
    (huser : s.findUserByPlatformID platform id = .ok user) (hok : (p.handle platform id s).response = .ok) :
    (∀ sub ∈ s.subscriptions.rows, sub.userID = user.id →
      sub.email ∉ (p.handle platform id s).calls.foldl EngineCall.applyTo engine) ↔
    ∀ sub ∈ s.subscriptions.rows, sub.userID = user.id → sub.email ∈ engine → p.Removes s user sub := by
  rcases purge_calls huser hok with ⟨latest, hrem, hca⟩ | ⟨hn, hca⟩
  · rw [hca]
    refine forall₂_congr fun sub hsub => forall_congr' fun _ => ?_
    rw [foldl_cons, foldl_nil, EngineCall.applyTo, mem_filter, not_and, decide_eq_true_eq, not_not]
    refine imp_congr_right fun _ => ?_
    constructor
    · intro hem
      obtain rfl := s.subscriptions.eq_of_clash hsub hrem.owned.1 (.inr (.inl hem))
      exact hrem
    · exact fun h => congrArg Subscription.email (h.unique hrem)
  · rw [hca]
    refine forall₂_congr fun sub _ => forall_congr' fun _ => ?_
    exact ⟨fun h hin => absurd hin h, fun h hin => hn sub (h hin)⟩

/-! A user with an older and a newer subscription. -/

def twoSubscriptions : Store where
  users := .single { id := "u1" }
  subscriptions := ⟨[{ id := "s1", userID := "u1", email := "old", uuid := "c1", status := "active", createdAt := 1 },
    { id := "s2", userID := "u1", email := "new", uuid := "c2", status := "active", createdAt := 2 }], by decide⟩

theorem purged_iff_newest :
    ((Purge.deleteUser {}).handle "uuid" "u1" twoSubscriptions).response = .ok ∧
      ∀ sub ∈ twoSubscriptions.subscriptions.rows, sub.userID = "u1" →
        sub.email ∉
          ((Purge.deleteUser {}).handle "uuid" "u1" twoSubscriptions).calls.foldl EngineCall.applyTo ["new"] := by
  refine ⟨rfl, (purged_iff (.deleteUser {}) "uuid" "u1" twoSubscriptions { id := "u1" } ["new"] rfl rfl).2 ?_⟩
  intro sub hsub _ hin
  rcases mem_pair.1 hsub with rfl | rfl
  · exact absurd hin (by decide)
  · exact ⟨rfl, by decide⟩

/-- Both are in the engine: the older one is left there, by the ban and by the deletion. -/
theorem older_subscription_left :
    ((Purge.globalBan { ext := noExternals }).handle "uuid" "u1" twoSubscriptions).response = .ok ∧
      ((Purge.globalBan { ext := noExternals }).handle "uuid" "u1" twoSubscriptions).calls.foldl EngineCall.applyTo
        ["old", "new"] = ["old"] ∧
      ((Purge.deleteUser {}).handle "uuid" "u1" twoSubscriptions).response = .ok ∧
      ((Purge.deleteUser {}).handle "uuid" "u1" twoSubscriptions).calls.foldl EngineCall.applyTo
        ["old", "new"] = ["old"] := by
  decide

/-! A subscription that an administrator has blocked stays blocked until a request is made to lift the block, with one
exception: a user's deletion of a device takes the status for a device limit that was exceeded. -/

open Option

/-- A status update of a payment renews the subscription. -/
def RenewsPaid (id : String) (s : Store) (result : Except Err (Store × Outcome)) : Prop :=
  ∃ s' o paymentID userID planID sub, result = .ok (s', o) ∧
    o.effect = some (.renew paymentID userID planID true) ∧ s.findLatestByUserID userID = .ok sub ∧ sub.id = id

/-- The request is made for the subscription: an unblock, a new end or a renewal. -/
def PanelLabel.Lifts (id : String) (s : Store) : PanelLabel → Prop
  | .unblockUser _ email _ | .setExpire _ email _ => ∃ sub, s.findLatestByEmail email = .ok sub ∧ sub.id = id
  | .autoRenew env platform userID body => ∃ payer q s' sub,
    committedRenewal env platform userID body s = some (payer, q, s') ∧ s.findLatestByUserID payer = .ok sub ∧ sub.id = id
  | .updatePaymentStatus env paymentID status expected =>
    RenewsPaid id s (Xraytool.updatePaymentStatus env.billing paymentID status expected s)
  | .paymentCallback env externalID status =>
    RenewsPaid id s (processExternalPaymentStatus env.billing externalID status s)
  | _ => False

/-- A request of the panel that lifts the block, or a provisioning of the subscription. -/
def RequestLabel.Lifts (id : String) (s : Store) : RequestLabel → Prop
  | .panel e => e.Lifts id s
  | .createUser _ req | .unlimitUser _ req =>
    ∃ sub, s.findLatestByEmail (UserManagement.requestEmail req.email req.name) = .ok sub ∧ sub.id = id
  | _ => False

/-- The request deletes a device of the subscription, finds it blocked with few enough devices left before its end, and
so takes the device limit for kept again. -/
def RequestLabel.ResolvesLimit (id : String) (s : Store) : RequestLabel → Prop
  | .panel (.deleteDevice env platform userID deviceID) => ∃ user sub device,
    s.findUserByPlatformID platform userID = .ok user ∧ s.findLatestByUserID user.id = .ok sub ∧
      s.findDeviceByIDAndSubscription (deviceID.getD 0) sub.id = .ok device ∧
      limitResolved env.now (remainingDevices env device.id sub.id s) sub = true ∧ sub.id = id
  | _ => False

theorem PanelLabel.blockKept {e : PanelLabel} (hli : ¬ e.Lifts id s)
    (hlim : ¬ (RequestLabel.panel e).ResolvesLimit id s) : BlockKept id s (e.handle s).store := by
  cases e with
  | autoRenew env plat uid body =>
    refine blockKept_autoRenew fun payer q s' sub hcom hsub hid => hli ?_
    exact ⟨payer, q, s', sub, hcom, hsub, hid⟩
  | deleteDevice env plat uid deviceID =>
    refine blockKept_deleteDevice fun user sub device hu hsub hdev hreso hid => hlim ?_
    exact ⟨user, sub, device, hu, hsub, hdev, hreso, hid⟩
  | blockUser env email => exact blockKept_blockUser
  | unblockUser env email limit => exact blockKept_unblockUser fun sub hsub hid => hli ⟨sub, hsub, hid⟩
  | setExpire env email expire => exact blockKept_setExpire fun sub hsub hid => hli ⟨sub, hsub, hid⟩
  | globalBan env plat uid => exact .of_eq globalBlock_subscriptions
  | globalUnban env plat uid => exact .of_eq globalBlock_subscriptions
  | updatePaymentStatus env paymentID status expected =>
    refine blockKept_updatePaymentStatus fun s' o payment uid planID sub hres heff hsub hid => hli ?_
    exact ⟨s', o, payment, uid, planID, sub, hres, heff, hsub, hid⟩
  | paymentCallback env externalID status =>
    refine blockKept_paymentCallback fun s' o payment uid planID sub hres heff hsub hid => hli ?_
    exact ⟨s', o, payment, uid, planID, sub, hres, heff, hsub, hid⟩
  | expiryPass env => exact blockKept_expiryPass
  | antifraudPass env => exact .of_eq antifraudPass_subscriptions
  | start env => exact .of_eq (congrArg Store.subscriptions initialSync_store)

variable {e : RequestLabel} {env : ApiEnv} {email : String}

theorem RequestLabel.blockHeld {s' : Store} (h : e.next s = some s') (hli : ¬ e.Lifts id s)
    (hlim : ¬ e.ResolvesLimit id s) : BlockHeld id s s' := by
  cases e with
  | panel e =>
    cases h
    exact (PanelLabel.blockKept hli hlim).held
  | setMaxDevices env plat uid maxDevices =>
    cases h
    exact blockKept_setMaxDevices.held
  | autoRenewToggle env plat uid autoRenew =>
    cases h
    exact blockKept_autoRenewToggle.held
  | deleteUser env plat uid =>
    cases h
    exact blockKept_deleteUser.held
  | registerWebUser env email | registerTelegramUser env telegramID username telegramUsername =>
    cases h
    exact .attempt fun s' user hreg => blockHeld_findOrRegister hreg
  | linkTelegram env webUserID tgUserID =>
    cases h
    exact (BlockKept.attempt fun s' hlin => blockKept_link (l := .telegram env webUserID tgUserID) hlin).held
  | linkEmail env tgUserID email =>
    cases h
    exact (BlockKept.attempt fun s' hlin => blockKept_link (l := .email env tgUserID email) hlin).held
  | trackDevice fails now subID hwid deviceModel deviceOS userAgent deviceLimit =>
    cases h
    exact .attempt fun s' reached htra => (blockKept_trackDevice htra).held
  | createUser env req =>
    cases h
    exact UserManagement.blockHeld_createUser fun sub hsub hid => hli ⟨sub, hsub, hid⟩
  | unlimitUser env req =>
    cases h
    exact (UserManagement.blockKept_unlimitUser fun sub hsub hid => hli ⟨sub, hsub, hid⟩).held
  | elsewhere store =>
    simp only [RequestLabel.next, ite_none_right_eq_some] at h
    obtain ⟨hsa, hst⟩ := h
    cases hst
    exact (BlockKept.of_eq hsa).held

/-- The id was issued, and the subscription is blocked as long as it is there. -/
structure UnderBlock (id : String) (st : Requests) : Prop where
  issued : id ∈ st.issued
  blocked : ∀ row ∈ st.store.subscriptions.rows, row.id = id → row.status = "blocked"

theorem requestStep_underBlock {st st' : Requests} (h : requestStep st e = some st')
    (hli : ¬ e.Lifts id st.store) (hlim : ¬ e.ResolvesLimit id st.store) (hst : UnderBlock id st) :
    UnderBlock id st' := by
  simp only [requestStep, bind_eq_bind, bind_eq_some_iff, ite_none_right_eq_some] at h
  obtain ⟨s', hne, hfr, hst'⟩ := h
  cases hst'
  refine ⟨mem_append_left _ hst.issued, fun row' hrow' hid => ?_⟩
  -- an id that was issued is not given to a new row, so the row was there before
  have hold := all_eq_true.1 hfr row'.id (mem_map_of_mem hrow')
  rw [decide_eq_true_eq, hid, or_iff_left (not_not.2 hst.issued)] at hold
  obtain ⟨row, hrow, hro⟩ := mem_map.1 hold
  exact RequestLabel.blockHeld hne hli hlim row hrow hro (hst.blocked row hrow hro) row' hrow' hid

theorem blockUser_ok (hok : (handleAdminBlockUser env email s).response = .ok) :
    ∃ sub, s.findLatestByEmail email = .ok sub ∧ (handleAdminBlockUser env email s).store.subscriptions =
      (s.updateSubscription sub.id (.setStatus env.now "blocked") (Subscription.keeps_setStatus _ _)).subscriptions := by
  unfold handleAdminBlockUser at *
  by_cases hem : email = ""
  · rw [if_pos hem] at hok
    cases hok
  rw [if_neg hem] at hok ⊢
  rcases hfo : issue (env.fails .findSubscription) .storage (s.findLatestByEmail email) with e | sub
  · rw [hfo] at hok
    cases hok
  rw [hfo] at hok ⊢
  dsimp only at hok ⊢
  refine ⟨sub, (of_issue hfo), ?_⟩
  by_cases hrem : env.fails .removeUser = true
  · rw [if_pos hrem] at hok
    cases hok
  rw [if_neg hrem] at hok ⊢
  split at hok
  · cases hok
  · rename_i s' hs'
    exact updateFields_subscriptions hs'

theorem blockUser_blocked {sub row : Subscription} (hsub : s.findLatestByEmail email = .ok sub)
    (hok : (handleAdminBlockUser env email s).response = .ok)
    (hrow : row ∈ (handleAdminBlockUser env email s).store.subscriptions.rows) (hid : row.id = sub.id) :
    row.status = "blocked" := by
  obtain ⟨found, hfo, hst⟩ := blockUser_ok hok
  obtain rfl := ok_unique hfo hsub
  rw [hst] at hrow
  obtain ⟨row0, -, rfl⟩ := (Table.mem_updateWhere (Subscription.keeps_setStatus env.now "blocked")).1 hrow
  split_ifs at hid ⊢ with hco
  · rfl
  · exact absurd hid (by simpa using hco)

/-- After a block request has succeeded, in every run without a request that lifts the block of the subscription and
without a device request that takes its device limit for kept again, the subscription is blocked. -/
theorem block_stays (st : Requests) (env : ApiEnv) (email : String) (sub : Subscription)
    (hissued : ∀ row ∈ st.store.subscriptions.rows, row.id ∈ st.issued)
    (hsub : st.store.findLatestByEmail email = .ok sub)
    (hok : (handleAdminBlockUser env email st.store).response = .ok) (tr : List RequestLabel) (st' : Requests)
    (h : Run (Guarded (fun st e => ¬ e.Lifts sub.id st.store ∧ ¬ e.ResolvesLimit sub.id st.store) (stepsTo requestStep))
      { st with store := (handleAdminBlockUser env email st.store).store } tr st') :
    ∀ row ∈ st'.store.subscriptions.rows, row.id = sub.id → row.status = "blocked" := by
  have hin : UnderBlock sub.id { st with store := (handleAdminBlockUser env email st.store).store } :=
    ⟨hissued sub (findLatestByEmail_ok hsub).1, fun row hrow hid => blockUser_blocked hsub hok hrow hid⟩
  refine (h.invariant_of_guard (UnderBlock sub.id) hin ?_).blocked
  intro st e st' hst hg hs
  exact requestStep_underBlock hs hg.1 hg.2 hst

/-! A user with one device, and the requests of an administrator and the user. -/

def oneDevice : Store where
  users := .single { id := "u1" }
  subscriptions := .single
    { id := "s1", userID := "u1", email := "m1", uuid := "c1", status := "active", endsAt := some 10 }
  devices := .single { id := 1, subscriptionID := "s1", hwid := "h1" }

def blockRequest : Handled := handleAdminBlockUser { ext := noExternals } "m1" oneDevice

/-- The subscription stays blocked when its end has passed and the user changes the device limit. -/
theorem block_stays_past_end : ∃ st', Run (Guarded
      (fun st e => ¬ RequestLabel.Lifts "s1" st.store e ∧ ¬ e.ResolvesLimit "s1" st.store) (stepsTo requestStep))
      ⟨blockRequest.store, ["s1"]⟩ [.panel (.expiryPass { now := 20 }), .setMaxDevices {} "uuid" "u1" 5] st' ∧
    (st'.store.subscriptions.rows.map fun row => (row.id, row.maxDevices)) = [("s1", 5)] ∧
    ∀ row ∈ st'.store.subscriptions.rows, row.id = "s1" → row.status = "blocked" := by
  have hrun : ∃ st', Run (stepsTo requestStep) ⟨blockRequest.store, ["s1"]⟩
      [.panel (.expiryPass { now := 20 }), .setMaxDevices {} "uuid" "u1" 5] st' ∧
      (st'.store.subscriptions.rows.map fun row => (row.id, row.maxDevices)) = [("s1", 5)] :=
    Run.exists_of_exec (by decide +kernel)
  obtain ⟨st', hrun, hro⟩ := hrun
  have hgua : Run (Guarded (fun st e => ¬ RequestLabel.Lifts "s1" st.store e ∧ ¬ e.ResolvesLimit "s1" st.store)
      (stepsTo requestStep)) ⟨blockRequest.store, ["s1"]⟩
      [.panel (.expiryPass { now := 20 }), .setMaxDevices {} "uuid" "u1" 5] st' := by
    refine hrun.guarded fun st e he => ?_
    rcases mem_pair.1 he with rfl | rfl <;> exact ⟨id, id⟩
  refine ⟨st', hgua, hro, ?_⟩
  exact block_stays ⟨oneDevice, ["s1"]⟩ { ext := noExternals } "m1"
    { id := "s1", userID := "u1", email := "m1", uuid := "c1", status := "active", endsAt := some 10 }
    (by decide) (by decide) rfl _ st' hgua

/-- The user deletes the device, and the blocked subscription is active again. -/
theorem block_lifted_by_device : blockRequest.response = .ok ∧
    (blockRequest.store.subscriptions.rows.map fun row => (row.id, row.status)) = [("s1", "blocked")] ∧
    ∃ st', Run (stepsTo requestStep) ⟨blockRequest.store, ["s1"]⟩
      [.panel (.deleteDevice { ext := noExternals } "uuid" "u1" (some 1))] st' ∧
      (st'.store.subscriptions.rows.map fun row => (row.id, row.status)) = [("s1", "active")] :=
  ⟨rfl, by decide +kernel, Run.exists_of_exec (by decide +kernel)⟩

/-! Engine and database after administrators' requests on one subscription. The task that an unblock or an unban starts
adds the user with a copy of the row and looks at nothing, so it may undo a later block. -/

open AdminCall

def AdminCall.removes : AdminCall → Bool
  | .blockFind | .blockRemove _ | .banFind | .banUpdate _ | .banLatest _ | .banRemove _ => true
  | _ => false

def AdminCall.adds : AdminCall → Bool
  | .addUser _ => true
  | _ => false

def AdminCall.isBlockUpdate : AdminCall → Bool
  | .blockUpdate _ => true
  | _ => false

/-- What a request has loaded is of the rows of the scene. -/
def AdminCall.Matches (st : AdminScene) : AdminCall → Prop
  | .blockRemove sub | .blockUpdate sub | .unblockUpdate _ sub | .unblockOwner sub | .banRemove sub | .addUser sub =>
    sub.id = st.sub.id ∧ sub.email = st.sub.email ∧ sub.userID = st.sub.userID
  | .banUpdate user | .banLatest user | .unbanUpdate user | .unbanLatest user => user.id = st.user.id
  | .blockFind | .unblockFind _ | .unblockReload | .banFind | .unbanFind => True

/-- The email may be in the engine: a removal is still to come, or the subscription is in service and no block is
halfway. -/
def AdminScene.Clear (st : AdminScene) (pending : List AdminCall) : Prop :=
  (∃ p ∈ pending, p.removes = true) ∨
    st.sub.status = "active" ∧ st.user.isBlocked = false ∧ ∀ p ∈ pending, p.isBlockUpdate = false

/-- A task makes its call only where the email may be in the engine. -/
def AdminLabel.AddsWhenClear (st : AdminScene) : AdminLabel → Prop
  | .start _ => True
  | .advance index _ _ => ∀ p ∈ st.inFlight[index]?, p.adds = true → st.Clear st.inFlight

instance (st : AdminScene) (pending : List AdminCall) : Decidable (st.Clear pending) := by
  unfold AdminScene.Clear
  infer_instance

instance (st : AdminScene) (l : AdminLabel) : Decidable (l.AddsWhenClear st) := by
  unfold AdminLabel.AddsWhenClear
  split <;> infer_instance

structure AdminInv (st : AdminScene) (pending : List AdminCall) : Prop where
  loaded : ∀ p ∈ pending, p.Matches st
  engine : st.engine = true → st.Clear pending

variable {p : AdminCall} {st st' : AdminScene} {now : Time}

theorem AdminCall.Matches.of_sameRows (h : SameRows st st') (hp : p.Matches st) : p.Matches st' := by
  unfold AdminCall.Matches at *
  rw [h.id, h.email, h.userID, h.owner]
  exact hp

theorem matches_advance {accepting : Bool} {q : AdminCall} (hp : p.Matches st)
    (hq : q ∈ (p.advance now accepting st).2) : q.Matches st := by
  cases p with
  | blockFind | unblockFind limit | banFind | unbanFind =>
    obtain rfl := mem_singleton.1 hq
    simp [AdminCall.Matches]
  | blockRemove sub | unblockUpdate limit sub | banUpdate user | unbanUpdate user =>
    obtain rfl := mem_singleton.1 hq
    exact hp
  | unblockOwner sub =>
    obtain rfl := mem_singleton.1 hq
    trivial
  | unblockReload | banLatest user | unbanLatest user =>
    simp only [advance] at hq
    split_ifs at hq
    · obtain rfl := mem_singleton.1 hq
      exact ⟨rfl, rfl, rfl⟩
    · cases hq
  | blockUpdate sub | banRemove sub | addUser sub => cases hq

theorem status_unblock {limit : Option Int} {id : String}
    (hf : ∀ sub, (unblockedRow now limit sub).userID = sub.userID ∧ (unblockedRow now limit sub).email = sub.email)
    (h : st.sub.status = "active") :
    (st.updateSub id (unblockedRow now limit) hf).sub.status = "active" ∧
      (st.updateSub id (unblockedRow now limit) hf).user = st.user := by
  unfold AdminScene.updateSub
  split_ifs
  · exact ⟨rfl, rfl⟩
  · exact ⟨h, rfl⟩

theorem unblocked_setBlocked {uid : String} (h : st.user.isBlocked = false) :
    (st.setBlocked uid false).user.isBlocked = false := by
  unfold AdminScene.setBlocked
  split_ifs
  · rfl
  · exact h

theorem AdminScene.Clear.next {before after next : List AdminCall} (h : st.Clear (before ++ p :: after))
    (hp : p.removes = false)
    (hro : p.isBlockUpdate = false → st.sub.status = "active" → st.user.isBlocked = false →
      st'.sub.status = "active" ∧ st'.user.isBlocked = false)
    (hne : ∀ q ∈ next, q.isBlockUpdate = false) : st'.Clear (before ++ next ++ after) := by
  rcases h with ⟨q, hq, hrem⟩ | ⟨hact, hunb, hn⟩
  · rw [mem_append, mem_cons] at hq
    have ho : q ∈ before ∨ q ∈ after := by
      rcases hq with hq | rfl | hq
      · exact .inl hq
      · rw [hp] at hrem
        contradiction
      · exact .inr hq
    exact .inl ⟨q, by simp only [mem_append]; tauto, hrem⟩
  · obtain ⟨hact', hunb'⟩ := hro (hn p (by simp)) hact hunb
    refine .inr ⟨hact', hunb', fun q hq => ?_⟩
    simp only [mem_append] at hq
    rcases hq with (hq | hq) | hq
    · exact hn q (by simp [hq])
    · exact hne q hq
    · exact hn q (by simp [hq])

theorem advance_clear {accepting : Bool} {before after : List AdminCall} (h : AdminInv st (before ++ p :: after))
    (hadd : p.adds = true → st.Clear (before ++ p :: after))
    (heng : (p.advance now accepting st).1.engine = true) :
    (p.advance now accepting st).1.Clear (before ++ (p.advance now accepting st).2 ++ after) := by
  have hp := h.loaded p (by simp)
  -- a request that goes on to a removal
  have hann {st' : AdminScene} {q : AdminCall} (hq : q.removes = true) : st'.Clear (before ++ [q] ++ after) :=
    .inl ⟨q, by simp, hq⟩
  -- a request that has removed the email
  have hrem {st' : AdminScene} {sub : Subscription} {next : List AdminCall}
      (hsub : sub.email = st.sub.email) (hke : (st.setEngine sub.email false).engine = true) : st'.Clear next := by
    rw [hsub, AdminScene.setEngine, if_pos rfl] at hke
    contradiction
  cases p with
  | blockFind | banFind | banUpdate user => exact hann rfl
  | blockRemove sub | banRemove sub => exact hrem hp.2.1 heng
  | blockUpdate sub =>
    simp only [advance, engine_updateSub] at heng
    exact (h.engine heng).next rfl nofun nofun
  | unblockFind limit | unbanFind =>
    exact (h.engine heng).next rfl (fun _ hact hunb => ⟨hact, hunb⟩)
      (by simp [advance, isBlockUpdate])
  | unblockUpdate limit sub =>
    simp only [advance, engine_updateSub] at heng
    refine (h.engine heng).next rfl (fun _ hact hunb => ?_)
      (by simp [advance, isBlockUpdate])
    obtain ⟨hsta, hu⟩ := status_unblock (fun _ => ⟨rfl, rfl⟩) hact
    exact ⟨hsta, hu ▸ hunb⟩
  | unblockOwner sub | unbanUpdate user =>
    simp only [advance, engine_setBlocked] at heng
    refine (h.engine heng).next rfl (fun _ hact hunb => ⟨?_, unblocked_setBlocked hunb⟩)
      (by simp [advance, isBlockUpdate])
    simp only [advance, sub_setBlocked]
    exact hact
  | unblockReload | unbanLatest user =>
    refine (h.engine heng).next rfl (fun _ hact hunb => ⟨hact, hunb⟩) fun q hq => ?_
    simp only [advance] at hq
    split_ifs at hq
    · obtain rfl := mem_singleton.1 hq
      rfl
    · cases hq
  | banLatest user =>
    simp only [advance, if_pos st.named]
    exact hann rfl
  | addUser sub =>
    refine (hadd rfl).next rfl (fun _ hact hunb => ?_) nofun
    simp only [advance, AdminScene.setEngine]
    split_ifs <;> exact ⟨hact, hunb⟩

theorem adminInv_step {l : AdminLabel} (h : AdminInv st st.inFlight) (hl : l.AddsWhenClear st)
    (hs : stepsTo adminStep st l st') : AdminInv st' st'.inFlight := by
  cases l with
  | start request =>
    cases hs
    refine ⟨fun p hp => ?_, fun heng => ?_⟩
    · rcases mem_append.1 hp with hp | hp
      · exact h.loaded p hp
      · obtain rfl := mem_singleton.1 hp
        cases request <;> trivial
    · rcases h.engine heng with ⟨p, hp, hrem⟩ | ⟨hact, hunb, hn⟩
      · exact .inl ⟨p, mem_append_left _ hp, hrem⟩
      · refine .inr ⟨hact, hunb, fun p hp => ?_⟩
        rcases mem_append.1 hp with hp | hp
        · exact hn p hp
        · obtain rfl := mem_singleton.1 hp
          cases request <;> rfl
  | advance index now accepting =>
    obtain ⟨p, hp, hs⟩ := Option.bind_eq_some_iff.1 hs
    cases hs
    have hsp := Pool.split_at hp
    have hinv : AdminInv st (st.inFlight.take index ++ p :: st.inFlight.drop (index + 1)) := hsp ▸ h
    have hadd := hl p hp
    rw [hsp] at hadd
    refine ⟨fun q hq => ?_, fun heng => ?_⟩
    · have hsa := sameRows_advance now accepting st p
      have hq' : q.Matches st := by
        simp only [mem_append] at hq
        rcases hq with (hq | hq) | hq
        · exact h.loaded q (mem_of_mem_take hq)
        · exact matches_advance (h.loaded p (mem_of_getElem? hp)) hq
        · exact h.loaded q (mem_of_mem_drop hq)
      exact hq'.of_sameRows { hsa with }
    · exact advance_clear hinv hadd heng

/-- From a scene at rest where the engine contains the email only of a subscription in service, and with tasks that add
the user only where that is in order, the engine contains the email at rest only of a subscription in service. -/
theorem engine_at_rest {st st' : AdminScene} {tr : List AdminLabel} (hrest : st.inFlight = [])
    (hstart : st.engine = true → st.sub.status = "active" ∧ st.user.isBlocked = false)
    (hrun : Run (Guarded AdminLabel.AddsWhenClear (stepsTo adminStep)) st tr st') (hend : st'.inFlight = [])
    (hengine : st'.engine = true) : st'.sub.status = "active" ∧ st'.user.isBlocked = false := by
  have hin : AdminInv st st.inFlight := by
    rw [hrest]
    refine ⟨nofun, fun h => .inr ⟨(hstart h).1, (hstart h).2, nofun⟩⟩
  have hinv : AdminInv st' st'.inFlight := by
    refine hrun.invariant_of_guard (fun st => AdminInv st st.inFlight) hin ?_
    intro st l st' h hl hs
    exact adminInv_step h hl hs
  rcases hinv.engine hengine with ⟨p, hp, _⟩ | ⟨hact, hunb, _⟩
  · rw [hend] at hp
    cases hp
  · exact ⟨hact, hunb⟩

section Runs

def nextCall : AdminLabel := .advance 0 0 true

/-- A block overtakes the task of an earlier unblock. -/
theorem unblock_task_overtaken : ∃ st', Run (stepsTo adminStep) sceneAtRest
    ([.start (.unblock none)] ++ List.replicate 4 nextCall ++ [.start .block] ++
      List.replicate 3 (.advance 1 0 true) ++ [nextCall]) st' ∧
    st'.inFlight = [] ∧ st'.engine = true ∧ st'.sub.status = "blocked" :=
  Run.exists_of_exec (by decide +kernel)

theorem engine_at_rest_unblocked : ∃ st', Run (Guarded AdminLabel.AddsWhenClear (stepsTo adminStep)) sceneAtRest
    ([.start .block] ++ List.replicate 3 nextCall ++ [.start (.unblock none)] ++ List.replicate 5 nextCall) st' ∧
    st'.engine = true ∧ st'.sub.status = "active" ∧ st'.user.isBlocked = false := by
  exact Run.exists_of_guardedExec_imp (P := fun st' => st'.inFlight = [] ∧ st'.engine = true) (by decide +kernel)
    fun st' hrun ⟨hend, heng⟩ => ⟨heng, engine_at_rest rfl (by decide) hrun hend heng⟩

end Runs

end Xraytool
