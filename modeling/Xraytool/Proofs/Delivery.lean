import Xraytool.Spec.Delivery

/-! Subscription delivery and the credentials. Two runs of a request are alike when they differ only in secrets. A
request that is withheld gets the same answer in all runs alike, another one the secrets its template asks for;
`is_blocked` of the owner is no reason to withhold. -/

namespace Xraytool.Delivery

open Fallible

variable {env env' : Env} {req : Request} {s s' : Store} {acct acct' : Account}

theorem createDevice_succeeds (s : Store) (subID hwid deviceModel deviceOS userAgent : String) :
    ∃ s', s.createDevice subID hwid deviceModel deviceOS userAgent = .ok s' := by
  have hfr : ∀ d ∈ s.devices.rows, ¬ Device.Clash d
      ⟨s.devices.nextKey (·.id), subID, hwid, deviceModel, deviceOS, userAgent⟩ := by
    intro d hd hcl
    exact (Table.key_lt_nextKey hd).ne hcl
  obtain ⟨t, ht, -⟩ := Table.insert_of_fresh hfr
  exact ⟨{ s with devices := t }, by rw [Store.createDevice, ht]⟩

/-- The device is stored already, or there is room for one more. -/
def hasRoom (countFails : Bool) (subID hwid : String) (deviceLimit : Int) (devices : Table Device Device.Clash) : Bool :=
  devices.rows.any (Store.isDevice subID hwid) ||
    decide ((if countFails then 0 else devices.affected (Store.ofSubscription subID) : Nat) < deviceLimit)

def trackReport (fails : Store.TrackOp → Bool) (subID hwid : String) (deviceLimit : Int)
    (devices : Table Device Device.Clash) : Except Err Bool :=
  let room := hasRoom (fails .count) subID hwid deviceLimit devices
  if fails .begin ∨ fails .find ∨ fails .commit ∨ (room ∧ fails .save) then .error .storage else .ok (!room)

theorem trackDevice_report (fails : Store.TrackOp → Bool) (now : Time)
    (subID hwid deviceModel deviceOS userAgent : String) (deviceLimit : Int) (s : Store) :
    (s.trackDevice fails now subID hwid deviceModel deviceOS userAgent deviceLimit).map Prod.snd =
      trackReport fails subID hwid deviceLimit s.devices := by
  unfold Store.trackDevice trackReport hasRoom
  cases hb : fails .begin with
  | true => simp [transaction, issue, Except.map, bind, Except.bind]
  | false =>
  cases hf : fails .find with
  | true => simp [transaction, issue, Except.map, bind, Except.bind]
  | false =>
  cases hd : s.devices.first (fun _ _ => false) (Store.isDevice subID hwid) with
  | some d => 
    obtain ⟨hmem, hdev⟩ := Table.first_eq_some hd
    have hany : s.devices.rows.any (Store.isDevice subID hwid) = true := List.any_eq_true.2 ⟨d, hmem, hdev⟩
    cases hc : fails .commit <;> cases hs : fails .save <;>
      simp [transaction, issue, Except.map, bind, Except.bind, hany]
  | none =>
    have hn := Table.first_eq_none.1 hd
    have hany : s.devices.rows.any (Store.isDevice subID hwid) = false := by simpa using hn
    -- taking the write lock changes no device
    obtain ⟨locked, hloc, hdevi⟩ : ∃ locked, locked = (if fails .touch then s else
        s.updateSubscription subID (.touch now) (Subscription.keeps_touch now)) ∧ locked.devices = s.devices :=
      ⟨_, rfl, by split_ifs <;> rfl⟩
    obtain ⟨created, hcre⟩ := createDevice_succeeds locked subID hwid deviceModel deviceOS userAgent
    simp only [transaction, issue_false, bind, Except.bind, ← hloc, Store.countDevices, hdevi, hcre, hany]
    generalize (if fails .count then 0 else s.devices.affected (Store.ofSubscription subID) : Nat) = count
    rcases lt_or_ge (count : Int) deviceLimit with hro | hfu
    · have hle : ¬ deviceLimit ≤ count := not_le.2 hro
      cases hc : fails .commit <;> cases hs : fails .save <;> simp [issue, Except.map, hro, hle]
    · have hlt : ¬ (count : Int) < deviceLimit := not_lt.2 hfu
      cases hc : fails .commit <;> simp [issue, Except.map, hfu, hlt]

theorem skipChecksReason_none :
    skipChecksReason acct = "none" ↔ acct.skipChecksAgent = "" ∧ ¬ isBlockedUser acct.sub := by
  unfold skipChecksReason
  by_cases hag : acct.skipChecksAgent = ""
  · simp [hag]
  have hne : "ua:" ++ acct.skipChecksAgent ≠ "none" := by
    intro h
    simpa using congrArg String.toList h
  simp [hag, hne]

def deviceReport (env : Env) (req : Request) (account : Account) (devices : Table Device Device.Clash) :
    Except Response DeviceCheck :=
  if skipChecksReason account ≠ "none" then .ok {}
  else if requestHwid req = "" then .ok { unsupportedClient := true }
  else match trackReport (fun op => env.fails (.track op)) account.sub.id (requestHwid req)
      (deviceLimit account.sub) devices with
    | .error _ => .error (failResponse 500 "database error")
    | .ok reached => .ok { deviceLimitReached := reached }

theorem checkDevice_report : (checkDevice env req acct s).map Prod.snd = deviceReport env req acct s.devices := by
  unfold checkDevice deviceReport
  split
  · rfl
  split
  · rfl
  rw [← trackDevice_report _ env.now _ _ (requestDeviceModel req) (requestDeviceOs req) req.userAgent]
  cases s.trackDevice (fun op => env.fails (.track op)) env.now acct.sub.id (requestHwid req)
      (requestDeviceModel req) (requestDeviceOs req) req.userAgent (deviceLimit acct.sub) with
  | error e => rfl
  | ok tracked => rfl

/-- The subscription that a run answers for is a row of the database. -/
structure FromDatabase (env : Env) (req : Request) (s : Store) (account : Account) : Prop where
  clientID : resolveClientID req ≠ ""
  agent : matchAgent env.cfg.userAgentWhitelist req.userAgent ≠ ""
  query : env.fails .findSubscription = false
  row : s.findByClientIdentifier (resolveClientID req) = some account.sub
  owner : ∃ user, issue (env.fails .findUser) .storage (s.findUserByID account.sub.userID) = .ok user
  snapshot : env.snapshot = some account.snapshot
  source : account.source = "database"
  noChecks : account.skipChecksAgent = matchAgent env.cfg.userAgentNoChecks req.userAgent

theorem FromDatabase.load (h : FromDatabase env req s acct) : loadAccount env req s = .ok acct := by
  obtain ⟨user, how⟩ := h.owner
  simp only [loadAccount, if_neg h.clientID, if_neg h.agent, h.query, h.snapshot, h.row, how, ← h.source,
    ← h.noChecks, Bool.false_eq_true, if_false]

/-- Another run of the same request that differs at most in the UUID of the subscription, the engine snapshot
and the cached templates. The answer of the quota provider is not among the secrets. -/
structure Alike (req : Request) (env : Env) (s : Store) (account : Account) (env' : Env) (s' : Store)
    (account' : Account) : Prop where
  database : FromDatabase env' req s' account'
  environment : ∃ snapshot templates, env' = { env with snapshot := snapshot, templates := templates }
  sub : ∃ uuid, account'.sub = { account.sub with uuid := uuid }
  devices : s'.devices = s.devices
  quota : ∀ usage, ask env.quotaProvider (account'.sub, usage) = ask env.quotaProvider (account.sub, usage)

/-- The reasons for which the code withholds the configuration, read off the state before the request. -/
def Withheld (env : Env) (req : Request) (s : Store) (account : Account) : Prop :=
  isBlockedUser account.sub ∨ expireTs env.ext env.now account.sub ≤ env.now.unix ∨ banned env account.sub.email ∨
    (quotaExceeded env account.sub).isSome ∨
    (account.skipChecksAgent = "" ∧ (requestHwid req = "" ∨
      trackReport (fun op => env.fails (.track op)) account.sub.id (requestHwid req) (deviceLimit account.sub)
        s.devices ≠ .ok false))

/-- The answer of a run that withholds the configuration. -/
def refusal (env : Env) (req : Request) (account : Account) (devices : Table Device Device.Clash) : Response :=
  if banned env account.sub.email then dummyResponse "antifraud_ban" env.cfg.dummyConfigs.antiFraud
  else match deviceReport env req account devices with
    | .error res => res
    | .ok check => match quotaExceeded env account.sub with
      | some decision =>
        dummyResponse (if decision.reason = "" then "traffic_quota_exceeded" else decision.reason)
          env.cfg.dummyConfigs.expired
      | none => rejectResponse env account check

theorem FromDatabase.response (h : FromDatabase env req s acct) : (processSQL env req s).2 =
      if banned env acct.sub.email then dummyResponse "antifraud_ban" env.cfg.dummyConfigs.antiFraud
      else match deviceReport env req acct s.devices with
        | .error res => res
        | .ok check => answer env req acct check := by
  delta processSQL
  rw [h.load, ← checkDevice_report]
  dsimp only
  split
  · rfl
  cases checkDevice env req acct s with
  | error res => rfl
  | ok checked => rfl

theorem deviceReport_of_not_withheld (h : ¬ Withheld env req s acct) :
    deviceReport env req acct s.devices = .ok {} := by
  simp only [Withheld, not_or, not_and, not_not] at h
  obtain ⟨hblo, -, -, -, hdev⟩ := h
  by_cases hag : acct.skipChecksAgent = ""
  · obtain ⟨hhw, hrep⟩ := hdev hag
    simp [deviceReport, skipChecksReason_none.2 ⟨hag, hblo⟩, hhw, hrep]
  · have hrea : skipChecksReason acct ≠ "none" := fun h => hag (skipChecksReason_none.1 h).1
    simp [deviceReport, hrea]

theorem deviceReport_fails {check : DeviceCheck} (hag : acct.skipChecksAgent = "") (hblo : ¬ isBlockedUser acct.sub)
    (hdev : requestHwid req = "" ∨ trackReport (fun op => env.fails (.track op)) acct.sub.id (requestHwid req)
      (deviceLimit acct.sub) s.devices ≠ .ok false)
    (hrep : deviceReport env req acct s.devices = .ok check) :
    check.deviceLimitReached ∨ check.unsupportedClient := by
  rw [deviceReport, if_neg (not_not.2 (skipChecksReason_none.2 ⟨hag, hblo⟩))] at hrep
  by_cases hhw : requestHwid req = ""
  · rw [if_pos hhw] at hrep
    cases hrep
    exact .inr rfl
  rw [if_neg hhw] at hrep
  have htr := hdev.resolve_left hhw
  split at hrep
  · cases hrep
  rename_i reached hrea
  cases hrep
  cases reached with
  | true => exact .inl rfl
  | false => exact absurd hrea htr

theorem FromDatabase.rendered (h : FromDatabase env req s acct) (hw : ¬ Withheld env req s acct) :
    (processSQL env req s).2 = render env req acct := by
  have hdev := deviceReport_of_not_withheld hw
  simp only [Withheld, not_or] at hw
  obtain ⟨hblo, hexp, hban, hqu, -⟩ := hw
  rw [h.response, if_neg hban, hdev]
  simp [answer, Option.not_isSome_iff_eq_none.1 hqu, isBlockedOrExpired, hblo, hexp]

theorem FromDatabase.refused (h : FromDatabase env req s acct) (hw : Withheld env req s acct) :
    (processSQL env req s).2 = refusal env req acct s.devices := by
  rw [h.response, refusal]
  split
  · rfl
  rename_i hbann
  cases hrep : deviceReport env req acct s.devices with
  | error res => rfl
  | ok check =>
    dsimp only [answer]
    cases hqu : quotaExceeded env acct.sub with
    | some decision => rfl
    | none =>
      refine if_pos ?_
      rcases hw with hblo | hexp | hban | hexc | ⟨hag, hdev⟩
      · exact .inr (.inr (by simp [isBlockedOrExpired, hblo]))
      · exact .inr (.inr (by simp [isBlockedOrExpired, hexp]))
      · exact absurd hban hbann
      · simp [hqu] at hexc
      by_cases hblo : isBlockedUser acct.sub
      · exact .inr (.inr (by simp [isBlockedOrExpired, hblo]))
      rcases deviceReport_fails hag hblo hdev hrep with hli | hcli
      · exact .inl hli
      · exact .inr (.inl hcli)

section Alike

variable (hdb : FromDatabase env req s acct) (h : Alike req env s acct env' s' acct')
include hdb h

theorem alike_account : ∃ uuid snap, acct' = { acct with sub := { acct.sub with uuid := uuid }, snapshot := snap } := by
  obtain ⟨uuid, hsub⟩ := h.sub
  obtain ⟨snap, templates, rfl⟩ := h.environment
  refine ⟨uuid, acct'.snapshot, ?_⟩
  obtain ⟨sub', source', agent', snap'⟩ := acct'
  have hsou : source' = acct.source := h.database.source.trans hdb.source.symm
  have hag : agent' = acct.skipChecksAgent := h.database.noChecks.trans hdb.noChecks.symm
  subst hsou hag
  exact congrArg (fun sub => (⟨sub, acct.source, acct.skipChecksAgent, snap'⟩ : Account)) hsub

theorem alike_quotaExceeded : quotaExceeded env' acct'.sub = quotaExceeded env acct.sub := by
  have hqu := h.quota (trafficUsage env acct.sub.email)
  obtain ⟨uuid, snap, rfl⟩ := alike_account hdb h
  obtain ⟨snap', templates, rfl⟩ := h.environment
  rw [quotaExceeded, quotaExceeded]
  exact hqu ▸ rfl

theorem alike_withheld (hw : Withheld env req s acct) : Withheld env' req s' acct' := by
  have hqu := alike_quotaExceeded hdb h
  unfold Withheld at hw ⊢
  rw [hqu, h.devices]
  obtain ⟨uuid, snap, rfl⟩ := alike_account hdb h
  obtain ⟨snap', templates, rfl⟩ := h.environment
  exact hw

theorem alike_refusal : refusal env' req acct' s'.devices = refusal env req acct s.devices := by
  have hqu := alike_quotaExceeded hdb h
  unfold refusal
  rw [hqu, h.devices]
  obtain ⟨uuid, snap, rfl⟩ := alike_account hdb h
  obtain ⟨snap', templates, rfl⟩ := h.environment
  rfl

end Alike

/-- No two runs alike are answered differently. -/
def RevealsNothing (env : Env) (req : Request) (s : Store) (account : Account) : Prop :=
  ∀ env₁ s₁ account₁ env₂ s₂ account₂, Alike req env s account env₁ s₁ account₁ →
    Alike req env s account env₂ s₂ account₂ → (processSQL env₁ req s₁).2 = (processSQL env₂ req s₂).2

theorem revealsNothing_of_withheld (hdb : FromDatabase env req s acct) (hw : Withheld env req s acct) :
    RevealsNothing env req s acct := by
  intro env1 s1 acct1 env2 s2 acct2 h1 h2
  rw [h1.database.refused (alike_withheld hdb h1 hw), h2.database.refused (alike_withheld hdb h2 hw),
    alike_refusal hdb h1, alike_refusal hdb h2]

def obfsTemplate : String := "[\"\x7bHY2_OBFS\x7d\"]"

def Env.withObfs (env : Env) (snapshot : SubscriptionConfigSnapshot) (obfs : String) : Env :=
  { env with
    snapshot := some { snapshot with hysteriaObfsSecret := obfs }
    templates := { subTemplate := obfsTemplate } }

theorem parse_obfsTemplate : parseSubscriptionTemplate obfsTemplate = ("", [obfsTemplate]) := by decide

theorem render_obfs (env : Env) (acct : Account) :
    newReplacer (placeholders env acct) obfsTemplate = "[\"" ++ acct.snapshot.hysteriaObfsSecret ++ "\"]" := by
  apply String.toList_injective
  rw [newReplacer, String.toList_ofList]
  calc _ = '[' :: '"' :: (acct.snapshot.hysteriaObfsSecret.toList ++ ['"', ']']) := rfl
    _ = _ := by simp

def Account.withObfs (account : Account) (obfs : String) : Account :=
  { account with snapshot := { account.snapshot with hysteriaObfsSecret := obfs } }

section

variable (hdb : FromDatabase env req s acct)
include hdb

theorem alike_withObfs (obfs : String) :
    Alike req env s acct (env.withObfs acct.snapshot obfs) s (acct.withObfs obfs) where
  database := { hdb with snapshot := rfl }
  environment := ⟨_, _, rfl⟩
  sub := ⟨acct.sub.uuid, rfl⟩
  devices := rfl
  quota _ := rfl

theorem body_withObfs (hw : ¬ Withheld env req s acct) (hfor : isTextFormat req = false)
    (hpro : env.templateProcessor = none) {obfs : String}
    (hva : env.codecs.validJSON ("[\"" ++ obfs ++ "\"]")) :
    (processSQL (env.withObfs acct.snapshot obfs) req s).2.body = "[\"" ++ obfs ++ "\"]" := by
  rw [(alike_withObfs hdb obfs).database.rendered hw, render]
  have hte : (env.withObfs acct.snapshot obfs).templates.subTemplate = obfsTemplate := rfl
  have hpay := render_obfs (env.withObfs acct.snapshot obfs) (acct.withObfs obfs)
  have hsec : (acct.withObfs obfs).snapshot.hysteriaObfsSecret = obfs := rfl
  have hcod : (env.withObfs acct.snapshot obfs).codecs = env.codecs := rfl
  have hproc (pay : String) : processTemplate (env.withObfs acct.snapshot obfs) pay = .ok ⟨pay, pay, false⟩ := by
    have hn : (env.withObfs acct.snapshot obfs).templateProcessor = none := hpro
    simp [processTemplate, ask, hn]
  rw [hsec] at hpay
  rw [hte, if_neg (by decide), parse_obfsTemplate]
  simp only [hpay, hcod, hva, hproc, hfor]
  simp

/-- With the JSON delivered as it is rendered, only withheld requests reveal nothing. -/
theorem withheld_of_revealsNothing (hfor : isTextFormat req = false) (hpro : env.templateProcessor = none)
    (hva : ∀ obfs ∈ ["a", "b"], env.codecs.validJSON ("[\"" ++ obfs ++ "\"]"))
    (h : RevealsNothing env req s acct) : Withheld env req s acct := by
  by_contra hw
  have hsa := congrArg Response.body (h _ _ _ _ _ _ (alike_withObfs hdb "a") (alike_withObfs hdb "b"))
  rw [body_withObfs hdb hw hfor hpro (hva "a" (by simp)), body_withObfs hdb hw hfor hpro (hva "b" (by simp))] at hsa
  exact absurd hsa (by decide)

end

/-- A request for a row of the database reveals nothing exactly when the code has a reason of its own to withhold
the configuration. For the converse the rendered JSON must reach the client: a text format or a template
processor may drop the secrets. -/
theorem delivery_reveals_nothing_iff (env : Env) (req : Request) (s : Store) (account : Account)
    (hdb : FromDatabase env req s account) :
    (Withheld env req s account → RevealsNothing env req s account) ∧
      (isTextFormat req = false → env.templateProcessor = none →
        (∀ obfs ∈ ["a", "b"], env.codecs.validJSON ("[\"" ++ obfs ++ "\"]")) →
        RevealsNothing env req s account → Withheld env req s account) :=
  ⟨revealsNothing_of_withheld hdb, withheld_of_revealsNothing hdb⟩

def happRequest : Request where
  userAgent := "Happ/1.0"
  query := [("id", "s1"), ("hwid", "phone")]

def servedEnv : Env where
  ext := noExternals
  codecs := ⟨id, some, fun _ => true⟩
  cfg := { userAgentWhitelist := ["happ"] }
  snapshot := some {}
  templates := { subTemplate := "[\"\x7bUUID\x7d\"]" }

def ownedSub (status uuid : String) : Subscription where
  id := "s1"
  userID := "u1"
  email := "a@x"
  uuid := uuid
  status := status
  endsAt := some (10 * Time.day)

def ownedStore (status uuid : String) : Store where
  users := .single { id := "u1", isBlocked := true }
  subscriptions := .single (ownedSub status uuid)

def ownedAccount (status uuid : String) : Account where
  sub := ownedSub status uuid
  source := "database"
  skipChecksAgent := ""
  snapshot := {}

theorem ownedAccount_fromDatabase {status uuid : String} :
    FromDatabase servedEnv happRequest (ownedStore status uuid) (ownedAccount status uuid) where
  clientID := by decide
  agent := by decide
  query := rfl
  row := rfl
  owner := ⟨_, rfl⟩
  snapshot := rfl
  source := rfl
  noChecks := rfl

theorem delivery_reveals_nothing_iff_inactive :
    RevealsNothing servedEnv happRequest (ownedStore "inactive" "uuid-1") (ownedAccount "inactive" "uuid-1") :=
  (delivery_reveals_nothing_iff _ _ _ _ ownedAccount_fromDatabase).1 (.inl (by decide))

/-- The owner is blocked, and two runs that differ in the UUID alone are answered with that UUID. -/
theorem blocked_owner_is_served :
    (∀ uuid, ∃ owner, (ownedStore "active" uuid).findUserByID (ownedAccount "active" uuid).sub.userID = .ok owner ∧
        owner.isBlocked) ∧
      Alike happRequest servedEnv (ownedStore "active" "uuid-1") (ownedAccount "active" "uuid-1")
        servedEnv (ownedStore "active" "uuid-2") (ownedAccount "active" "uuid-2") ∧
      (processSQL servedEnv happRequest (ownedStore "active" "uuid-1")).2.body = "[\"uuid-1\"]" ∧
      (processSQL servedEnv happRequest (ownedStore "active" "uuid-2")).2.body = "[\"uuid-2\"]" := by
  refine ⟨fun _ => ⟨_, rfl, rfl⟩, ⟨ownedAccount_fromDatabase, ⟨_, _, rfl⟩, ⟨_, rfl⟩, rfl, fun _ => rfl⟩, ?_, ?_⟩
  · decide +kernel
  · decide +kernel

end Xraytool.Delivery
