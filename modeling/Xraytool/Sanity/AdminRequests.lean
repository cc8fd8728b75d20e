import Xraytool.Sanity.Panel

/-! Calls of administrators' requests. A call keeps the ids, the email and the owner, and a request that nothing overlaps
does what its handler does on the two rows. -/

namespace Xraytool

open Fallible Transition List AdminScene AdminRequest

structure SameRows (st st' : AdminScene) : Prop where
  id : st'.sub.id = st.sub.id
  email : st'.sub.email = st.sub.email
  userID : st'.sub.userID = st.sub.userID
  owner : st'.user.id = st.user.id

variable {st : AdminScene} {id email : String} {f : Subscription → Subscription}

theorem sameRows_updateSub (hf : ∀ sub, (f sub).userID = sub.userID ∧ (f sub).email = sub.email)
    (hid : ∀ sub, (f sub).id = sub.id) : SameRows st (st.updateSub id f hf) := by
  unfold updateSub
  split_ifs
  · exact ⟨hid st.sub, (hf st.sub).2, (hf st.sub).1, rfl⟩
  · exact ⟨rfl, rfl, rfl, rfl⟩

variable {isBlocked : Bool} {uid : String}

theorem sameRows_setBlocked : SameRows st (st.setBlocked uid isBlocked) := by
  unfold setBlocked
  split_ifs <;> exact ⟨rfl, rfl, rfl, rfl⟩

theorem sameRows_setEngine {present : Bool} : SameRows st (st.setEngine email present) := by
  unfold setEngine
  split_ifs <;> exact ⟨rfl, rfl, rfl, rfl⟩

theorem sameRows_advance (now : Time) (accepting : Bool) (st : AdminScene) (p : AdminCall) :
    SameRows st (p.advance now accepting st).1 := by
  cases p with
  | blockRemove sub | banRemove sub | addUser sub => exact sameRows_setEngine
  | blockUpdate sub =>
    exact sameRows_updateSub (f := .setStatus now "blocked") (fun _ => ⟨rfl, rfl⟩) fun _ => rfl
  | unblockUpdate limit sub =>
    exact sameRows_updateSub (f := unblockedRow now limit) (fun _ => ⟨rfl, rfl⟩) fun _ => rfl
  | unblockOwner sub | banUpdate user | unbanUpdate user => exact sameRows_setBlocked
  | blockFind | unblockFind limit | unblockReload | banFind | banLatest user | unbanFind | unbanLatest user =>
    exact ⟨rfl, rfl, rfl, rfl⟩

@[simp]
theorem engine_updateSub {hf : ∀ sub, (f sub).userID = sub.userID ∧ (f sub).email = sub.email} :
    (st.updateSub id f hf).engine = st.engine := by
  unfold updateSub
  split_ifs <;> rfl

@[simp]
theorem engine_setBlocked : (st.setBlocked uid isBlocked).engine = st.engine := by
  unfold setBlocked
  split_ifs <;> rfl

@[simp]
theorem sub_setBlocked : (st.setBlocked uid isBlocked).sub = st.sub := by
  unfold setBlocked
  split_ifs <;> rfl

namespace AdminScene

section Update

variable (st : AdminScene) (f : Subscription → Subscription)
  (hf : ∀ sub, (f sub).userID = sub.userID ∧ (f sub).email = sub.email)
include hf

theorem owned_update : (f st.sub).userID = st.user.id := (hf st.sub).1.trans st.owned

theorem named_update : (f st.sub).email ≠ "" := (hf st.sub).2.trans_ne st.named

def withSub : AdminScene :=
  { st with sub := f st.sub, owned := owned_update st f hf, named := named_update st f hf }

end Update

def withBlocked (st : AdminScene) (isBlocked : Bool) : AdminScene := { st with user := st.user.setBlocked isBlocked }

def withEngine (st : AdminScene) (present : Bool) : AdminScene := { st with engine := present }

def running (st : AdminScene) (pending : List AdminCall) : AdminScene := { st with inFlight := pending }

theorem updateSub_self (hf : ∀ sub, (f sub).userID = sub.userID ∧ (f sub).email = sub.email) :
    st.updateSub st.sub.id f hf = st.withSub f hf := if_pos rfl

variable {isBlocked : Bool}

theorem setBlocked_self : st.setBlocked st.user.id isBlocked = st.withBlocked isBlocked := if_pos rfl

theorem setBlocked_owner : st.setBlocked st.sub.userID isBlocked = st.withBlocked isBlocked := if_pos st.owned.symm

theorem setEngine_self {present : Bool} : st.setEngine st.sub.email present = st.withEngine present := if_pos rfl

def store (st : AdminScene) : Store where
  users := ⟨[st.user], List.pairwise_singleton _ _⟩
  subscriptions := ⟨[st.sub], List.pairwise_singleton _ _⟩

theorem findLatestByEmail_store (st : AdminScene) : st.store.findLatestByEmail st.sub.email = .ok st.sub := by
  simp [Store.findLatestByEmail, store, Table.first, Table.firstBy, found]

theorem findLatestByUserID_store : st.store.findLatestByUserID st.user.id = .ok st.sub := by
  simp [Store.findLatestByUserID, store, Table.first, Table.firstBy, found, st.owned]

theorem findUser_store (st : AdminScene) : st.store.findUserByPlatformID "uuid" st.user.id = .ok st.user := by
  simp [Store.findUserByPlatformID, Store.findUserByID, store, Table.first, Table.firstBy, found]

theorem store_withSub (st : AdminScene) (hk : Table.Keeps Subscription.Clash f)
    (hf : ∀ sub, (f sub).userID = sub.userID ∧ (f sub).email = sub.email) :
    st.store.updateSubscription st.sub.id f hk = (st.withSub f hf).store := by
  simp [Store.updateSubscription, store, Table.updateWhere, withSub]

theorem store_withBlocked (st : AdminScene) (isBlocked : Bool) :
    st.store.updateIsBlocked st.user.id isBlocked = (st.withBlocked isBlocked).store := by
  simp [Store.updateIsBlocked, store, Table.updateWhere, withBlocked]

def emails (st : AdminScene) : List String := if st.engine then [st.sub.email] else []

theorem mem_emails : email ∈ st.emails ↔ email = st.sub.email ∧ st.engine = true := by
  unfold emails
  split_ifs with h <;> simp [h]

end AdminScene

/-- The handler of a request, for the email of the subscription or the id of its owner. -/
def AdminRequest.handle (env : ApiEnv) (st : AdminScene) : AdminRequest → Handled
  | .block => handleAdminBlockUser env st.sub.email st.store
  | .unblock limit => handleAdminUnblockUser env st.sub.email limit st.store
  | .globalBan => handleAdminGlobalBan env "uuid" st.user.id st.store
  | .globalUnban => handleAdminGlobalUnban env "uuid" st.user.id st.store

theorem sameOwner_unblockedRow (now : Time) (limit : Option Int) (sub : Subscription) :
    (unblockedRow now limit sub).userID = sub.userID ∧ (unblockedRow now limit sub).email = sub.email := ⟨rfl, rfl⟩

def AdminScene.unblocked (st : AdminScene) (now : Time) (limit : Option Int) : AdminScene :=
  (st.withSub (unblockedRow now limit) (sameOwner_unblockedRow now limit)).withBlocked false

section Handlers

variable {env : ApiEnv} (henv : ∀ op, env.fails op = false) (st : AdminScene)
include henv

theorem handle_block : block.handle env st =
    { store := (st.withSub (.setStatus env.now "blocked") fun _ => ⟨rfl, rfl⟩).store
      calls := [.removeUser st.sub.email] } := by
  simp only [handle, handleAdminBlockUser, if_neg st.named, updateSubscriptionFields, issue, henv,
    st.findLatestByEmail_store, Bool.false_eq_true, if_false]
  rw [st.store_withSub]

theorem forceUnban_store (email : String) : forceUnban env email st.store = st.store := by
  simp [forceUnban, store, Store.deleteBanByEmail, issue, henv, attempt, Table.deleteWhere, Table.empty]

theorem handle_unblock (limit : Option Int) : (unblock limit).handle env st =
    { store := (st.unblocked env.now limit).store
      calls := unbanUserInXrayAsync env (st.unblocked env.now limit).sub } := by
  have hblo : (st.withSub (unblockedRow env.now limit) fun _ => ⟨rfl, rfl⟩).store.updateIsBlocked st.user.id false =
        (st.unblocked env.now limit).store := store_withBlocked _ false
  have hrel : (st.unblocked env.now limit).store.findLatestByEmail st.sub.email =
      .ok (st.unblocked env.now limit).sub := findLatestByEmail_store _
  simp only [handle, handleAdminUnblockUser, if_neg st.named, reactivate, updateSubscriptionFields, issue, henv,
    st.findLatestByEmail_store, Bool.false_eq_true, if_false]
  rw [st.store_withSub keeps_unblockedRow fun _ => ⟨rfl, rfl⟩, st.owned]
  simp only [tryUnblock, issue, henv, attempt, hblo, forceUnban_store henv, hrel, Bool.false_eq_true, if_false]

theorem setGlobalBlock_store {isBlocked : Bool} {calls : Subscription → List EngineCall} :
    setGlobalBlock env isBlocked calls "uuid" st.user.id st.store =
      { store := (st.withBlocked isBlocked).store, calls := calls st.sub } := by
  have hlat : (st.withBlocked isBlocked).store.findLatestByUserID st.user.id = .ok st.sub := findLatestByUserID_store
  simp only [setGlobalBlock, issue, henv, st.findUser_store, st.store_withBlocked, hlat, Bool.false_eq_true, if_false]

theorem handle_globalBan : globalBan.handle env st =
    { store := (st.withBlocked true).store, calls := [.removeUser st.sub.email] } := by
  rw [handle, handleAdminGlobalBan, setGlobalBlock_store henv, if_pos st.named]

theorem handle_globalUnban : globalUnban.handle env st =
    { store := (st.withBlocked false).store
      calls := if st.sub.status = "active" then unbanUserInXrayAsync env st.sub else [] } := by
  rw [handle, handleAdminGlobalUnban, setGlobalBlock_store henv]
  simp only [st.named, ne_eq, not_false_eq_true, true_and]

end Handlers

/-- `st'` is what the handler leaves of the two rows, and the engine has taken its calls. -/
structure AdminScene.After (st st' : AdminScene) (h : Handled) : Prop where
  rest : st'.inFlight = []
  store : st'.store = h.store
  emails : ∀ email, email ∈ st'.emails ↔ email ∈ h.calls.foldl EngineCall.applyTo st.emails

variable {st' st'' : AdminScene} {env : ApiEnv}

def Alone (env : ApiEnv) (st : AdminScene) (pending : List AdminCall) (st' : AdminScene) : Prop :=
  ∃ n, Run (stepsTo adminStep) (st.running pending) (replicate n (.advance 0 env.now env.accepting)) (st'.running [])

theorem Alone.done : Alone env st [] st := ⟨0, .nil⟩

theorem Alone.step {p : AdminCall} {next : List AdminCall} (st' : AdminScene)
    (h : p.advance env.now env.accepting (st.running [p]) = ((st'.running [p]), next)) (hne : Alone env st' next st'') :
    Alone env st [p] st'' := by
  have hs : adminStep (st.running [p]) (.advance 0 env.now env.accepting) =
      some ((p.advance env.now env.accepting (st.running [p])).1.running
        ([] ++ (p.advance env.now env.accepting (st.running [p])).2 ++ [])) := rfl
  rw [h, append_nil, nil_append] at hs
  obtain ⟨n, hrun⟩ := hne
  exact ⟨n + 1, .cons hs hrun⟩

/-- The request is started and then makes its calls, and nothing else happens. -/
def AdminRequest.RunsAlone (request : AdminRequest) (env : ApiEnv) (st : AdminScene) : Prop :=
  ∃ n st', Run (stepsTo adminStep) st (.start request :: replicate n (.advance 0 env.now env.accepting)) st' ∧
    st.After st' (request.handle env st)

theorem Alone.start (request : AdminRequest) (h : Alone env st [request.begin] st') (hrest : st.inFlight = [])
    (haf : st.After (st'.running []) (request.handle env st)) : request.RunsAlone env st := by
  have hs : stepsTo adminStep st (.start request) (st.running [request.begin]) := by
    simp [stepsTo, adminStep, hrest, running]
  obtain ⟨n, hrun⟩ := h
  exact ⟨n, _, .cons hs hrun, haf⟩

theorem mem_emails_removed (heng : st'.engine = false) :
    email ∈ st'.emails ↔ email ∈ [EngineCall.removeUser st.sub.email].foldl EngineCall.applyTo st.emails := by
  rw [mem_emails, heng]
  simp only [foldl_cons, foldl_nil, EngineCall.applyTo, mem_filter, mem_emails, decide_eq_true_eq]
  tauto

theorem mem_emails_unban {sub : Subscription} (hsub : sub.email = st.sub.email)
    (hem : st'.sub.email = st.sub.email) (heng : st'.engine = (env.accepting || st.engine)) :
    email ∈ st'.emails ↔ email ∈ (unbanUserInXrayAsync env sub).foldl EngineCall.applyTo st.emails := by
  rw [mem_emails, heng, hem]
  unfold unbanUserInXrayAsync
  split_ifs with h
  · simp only [foldl_cons, foldl_nil, EngineCall.applyTo, restoredUser, hsub, mem_append,
      mem_singleton, mem_emails, h, Bool.true_or]
    tauto
  · simp [mem_emails, h]

theorem task_alone :
    Alone env st (if env.accepting then [.addUser st.sub] else []) (st.withEngine (env.accepting || st.engine)) := by
  cases env.accepting with
  | false => exact .done
  | true => exact .step (st.withEngine true) (congrArg (·, _) setEngine_self) .done

section Alone

variable (henv : ∀ op, env.fails op = false) {st : AdminScene} (hrest : st.inFlight = [])
include henv hrest

theorem block_alone : block.RunsAlone env st := by
  let blocked := st.withSub (.setStatus env.now "blocked") fun _ => ⟨rfl, rfl⟩
  have hal : Alone env st [.blockFind] (blocked.withEngine false) := by
    refine .step st rfl ?_
    refine .step (st.withEngine false) (congrArg (·, _) setEngine_self) ?_
    exact .step _ (congrArg (·, _) (updateSub_self _)) .done
  refine hal.start .block hrest ?_
  rw [handle_block henv]
  exact ⟨rfl, rfl, fun _ => mem_emails_removed rfl⟩

theorem unblock_alone (limit : Option Int) : (unblock limit).RunsAlone env st := by
  let active := st.withSub (unblockedRow env.now limit) fun _ => ⟨rfl, rfl⟩
  let unblocked := st.unblocked env.now limit
  have hal : Alone env st [.unblockFind limit] (unblocked.withEngine (env.accepting || st.engine)) := by
    refine .step st rfl ?_
    refine .step active (congrArg (·, _) (updateSub_self _)) ?_
    refine .step unblocked (congrArg (·, _) setBlocked_owner) ?_
    exact .step unblocked rfl task_alone
  refine hal.start (.unblock limit) hrest ?_
  rw [handle_unblock henv]
  refine ⟨rfl, rfl, fun email => ?_⟩
  apply mem_emails_unban <;> rfl

theorem globalBan_alone : globalBan.RunsAlone env st := by
  let banned := st.withBlocked true
  have hal : Alone env st [.banFind] (banned.withEngine false) := by
    refine .step st rfl ?_
    refine .step banned (congrArg (·, _) setBlocked_self) ?_
    refine .step banned (congrArg (_, ·) (if_pos st.named)) ?_
    exact .step _ (congrArg (·, _) setEngine_self) .done
  refine hal.start .globalBan hrest ?_
  rw [handle_globalBan henv]
  exact ⟨rfl, rfl, fun _ => mem_emails_removed rfl⟩

theorem globalUnban_alone : globalUnban.RunsAlone env st := by
  let unbanned := st.withBlocked false
  have hfi {st' : AdminScene} (hlat : Alone env unbanned [.unbanLatest st.user] st') : Alone env st [.unbanFind] st' := by
    refine .step st rfl ?_
    exact .step unbanned (congrArg (·, _) setBlocked_self) hlat
  by_cases hact : st.sub.status = "active"
  · have hlat : Alone env unbanned [.unbanLatest st.user] (unbanned.withEngine (env.accepting || st.engine)) := by
      refine .step unbanned ?_ task_alone
      exact congrArg (_, ·) (if_congr ⟨fun h => h.2.2, fun h => ⟨st.named, hact, h⟩⟩ rfl rfl)
    refine (hfi hlat).start .globalUnban hrest ?_
    rw [handle_globalUnban henv, if_pos hact]
    refine ⟨rfl, rfl, fun email => ?_⟩
    apply mem_emails_unban <;> rfl
  · have hlat : Alone env unbanned [.unbanLatest st.user] unbanned :=
      .step unbanned (congrArg (_, ·) (if_neg fun h => hact h.2.1)) .done
    refine (hfi hlat).start .globalUnban hrest ?_
    rw [handle_globalUnban henv, if_neg hact]
    exact ⟨rfl, rfl, fun _ => Iff.rfl⟩

/-- A request that nothing overlaps does what its handler does, and the task it leaves adds the user. -/
theorem request_alone (request : AdminRequest) : request.RunsAlone env st := by
  cases request with
  | block => exact block_alone henv hrest
  | unblock limit => exact unblock_alone henv hrest limit
  | globalBan => exact globalBan_alone henv hrest
  | globalUnban => exact globalUnban_alone henv hrest

end Alone

def sceneAtRest : AdminScene where
  sub := { id := "s1", userID := "u1", email := "a@x", uuid := "0a", status := "active" }
  user := { id := "u1" }
  owned := rfl
  named := by decide
  engine := true

theorem request_alone_unblock : (unblock (some 5)).RunsAlone
    ⟨⟨fun s => s, fun _ => false, fun _ _ => none, fun _ _ => none⟩, 7, fun _ => false, true, true⟩ sceneAtRest :=
  request_alone (fun _ => rfl) rfl _

end Xraytool
