import Xraytool.Proofs.XrayUsers
import Xraytool.Sanity.Panel
import Xraytool.Sanity.XrayClients

/-! Clients that the provisioning paths install, against those of a full synchronisation. `CreateUser`, `UnlimitUser`
and `unbanUserInXray` each make the engine user from inputs of their own, a synchronisation from the stored row. -/

namespace Xraytool

namespace Xray

open Fallible

variable {ext : Externals} {user : VPNUserConfig} {ib ib' : RawMap} {inbounds : List RawMap}
  {pay : List TaggedClient} {file : Option Raw} {raw : Raw}

/-- No inbound has a client with the email of the user. -/
def Lacks (user : VPNUserConfig) (file : Option Raw) : Prop :=
  ∀ inbounds, inboundsOf file = .ok inbounds → ∀ ib ∈ inbounds, ∀ clients, getClients ib = .ok (some clients) →
    clientsOf user clients = []

theorem lacks_of_empty (hinb : inboundsOf file = .ok [ib]) (hcli : getClients ib = .ok (some [])) :
    Lacks user file := by
  intro inbounds hinb' ib' hib' cs hcli'
  obtain rfl := ok_unique hinb hinb'
  obtain rfl := List.mem_singleton.1 hib'
  obtain rfl := Option.some.inj (ok_unique hcli hcli')
  rfl

/-- The inbound after `AddUser`: where it has a list, the built client is the only one of the email, unless the email is
only spaces. -/
structure Provided (ext : Externals) (user : VPNUserConfig) (ib ib' : RawMap) : Prop where
  tag : tag ib' = tag ib
  hasList : hasClientList ib' = hasClientList ib
  listed : (∃ clients, getClients ib' = .ok (some clients)) ↔ ∃ clients, getClients ib = .ok (some clients)
  readable : ∃ clients, getClients ib' = .ok clients
  clients : ∀ clients, getClients ib' = .ok (some clients) →
    (∀ params, buildClient ext ib' params = buildClient ext ib params) ∧
      ∃ built, buildClient ext ib (configToParams user) = .ok built ∧
        clientsOf user clients = if trimSpace user.email = "" then [] else [cleanLegacy built]

theorem provided_of_nil (h : getClients ib = .ok none) : Provided ext user ib ib := by
  refine ⟨rfl, rfl, Iff.rfl, ⟨none, h⟩, fun cs hcli => ?_⟩
  rw [h] at hcli
  cases hcli

theorem AddRound.provided (h : AddRound ext user ib ib')
    (hla : ∀ cs, getClients ib = .ok (some cs) → clientsOf user cs = []) : Provided ext user ib ib' := by
  rcases h with ⟨- | cs, hcli, hpr⟩ | ⟨cs, built, _, hcli, ⟨hbl, habs⟩, hbu, hset⟩
  · exact provided_of_nil hcli
  · obtain ⟨hpr, built, hbu⟩ := hpr cs rfl
    have hbl : trimSpace user.email = "" := by_contra fun hbl => hpr ⟨hbl, hla cs hcli⟩
    refine ⟨rfl, rfl, Iff.rfl, ⟨_, hcli⟩, fun cs' hcli' => ⟨fun _ => rfl, built, hbu, ?_⟩⟩
    rw [if_pos hbl]
    exact hla cs' hcli'
  · obtain ⟨hr, hke, settings', hs'⟩ := setClients_spec hcli hset
    obtain ⟨-, settings, _, hs, -⟩ := settings_of_getClients hcli
    have hli := (hasClientList_of_getClients hr).trans (hasClientList_of_getClients hcli).symm
    refine ⟨tag_congr (hke _ (by decide)), hli, iff_of_true ⟨_, hr⟩ ⟨_, hcli⟩, ⟨_, hr⟩, fun cs' hcli' => ?_⟩
    refine ⟨fun params => buildClient_congr ext params hke hs hs', built, hbu, ?_⟩
    obtain rfl := Option.some.inj (ok_unique hr hcli')
    rw [if_neg hbl, clientsOf_added hbu habs]

variable {ioFails : Bool} {canonical : VPNUserConfig} {row : Subscription}

theorem addUser_provides (hta : DistinctTags file) (hla : Lacks user file)
    (h : addUser ext ioFails file user = .ok raw) :
    ∃ inbounds changed, inboundsOf file = .ok inbounds ∧ inboundsOf (some raw) = .ok changed ∧
      (inbounds.map Xray.tag).Nodup ∧ List.Forall₂ (Provided ext user) inbounds changed := by
  obtain ⟨inbounds, changed, hinb, hcha, hno, hrou⟩ := addUser_rounds hta h
  refine ⟨inbounds, changed, hinb, hcha, hno, ?_⟩
  rw [List.forall₂_iff_zip] at hrou ⊢
  exact ⟨hrou.1, fun hpa => (hrou.2 hpa).provided (hla inbounds hinb _ (List.of_mem_zip hpa).1)⟩

/-- Every inbound for clients has a list, in which the only client of the email is what `BuildClient` makes of the row,
and the next synchronisation built from the row leaves it alone. -/
def LikeSync (ext : Externals) (row : Subscription) (file : Option Raw) : Prop :=
  ∃ inbounds previous, inboundsOf file = .ok inbounds ∧ previousClients inbounds = .ok previous ∧
    ∀ ib ∈ inbounds, hasClientList ib = true → ∃ clients, getClients ib = .ok (some clients) ∧
      Installed ext (subscriptionToVPNUserConfig ext row) ib clients ∧
        ∀ built, buildClient ext ib (configToParams (subscriptionToVPNUserConfig ext row)) = .ok built →
          clientChange (Assoc.ofList previous) ⟨Xray.tag ib, built⟩ = .keep

/-- The two users agree in what a client of the protocol is made of. -/
def SameAt (ext : Externals) (protocol : String) (user canonical : VPNUserConfig) : Prop :=
  user.subfile = canonical.subfile ∧ user.expire = canonical.expire ∧
    (configToParams user).limit = (configToParams canonical).limit ∧
    secretAt ext protocol user.email user.uuid user.auth =
      secretAt ext protocol canonical.email canonical.uuid canonical.auth

/-- What holds of each inbound of the file for clients, whose list is not `null`. -/
def EachListed (file : Option Raw) (P : RawMap → Prop) : Prop :=
  ∀ inbounds, inboundsOf file = .ok inbounds → ∀ ib ∈ inbounds, hasClientList ib = true →
    (∃ clients, getClients ib = .ok (some clients)) ∧ P ib

theorem installed_iff {cs : List RawMap} (hpro : Provided ext user ib ib')
    (hem : canonical.email = user.email) (hfl : canonical.flow = user.flow)
    (hcli : getClients ib' = .ok (some cs)) :
    Installed ext canonical ib' cs ↔ trimSpace user.email ≠ "" ∧ SameAt ext (protocol ib) user canonical := by
  obtain ⟨hbui, built, hbu, hone⟩ := hpro.clients cs hcli
  have hof : clientsOf canonical cs = clientsOf user cs := by rw [clientsOf, clientsOf, hem]
  have hsa := same_built_iff (p := configToParams user) (q := configToParams canonical) hem.symm hfl.symm hbu
  unfold Installed
  rw [hof, hone, hbui]
  by_cases hbl : trimSpace user.email = ""
  · simp [hbl]
  rw [if_neg hbl]
  refine Iff.trans ?_ ((and_iff_right hbl).trans hsa.symm).symm
  have hcl := cleanLegacy_built hbu
  constructor
  · rintro ⟨c, built', hc, hbu', hsa'⟩
    obtain rfl := (List.cons.inj hc).1
    exact ⟨built', hbu', fun key => (hcl key).symm.trans (hsa' key)⟩
  · rintro ⟨built', hbu', hsa'⟩
    exact ⟨_, built', rfl, hbu', fun key => (hcl key).trans (hsa' key)⟩

/-- After `AddUser` of any user with the email of the row, on a config without it. -/
theorem likeSync_iff (hem : row.email = user.email) (hfl : user.flow = "")
    (hta : DistinctTags file) (hla : Lacks user file) (h : addUser ext ioFails file user = .ok raw) :
    LikeSync ext row (some raw) ↔ EachListed file fun ib =>
      trimSpace user.email ≠ "" ∧ SameAt ext (protocol ib) user (subscriptionToVPNUserConfig ext row) := by
  obtain ⟨inbounds, changed, hinb, hcha, hno, hall⟩ := addUser_provides hta hla h
  have hta' : (changed.map Xray.tag).Nodup := by
    rw [map_eq_map_of_forall₂ (hall.imp fun _ _ hpro => hpro.tag)]
    exact hno
  obtain ⟨previous, hpre⟩ : ∃ previous, previousClients changed = .ok previous := by
    refine ⟨_, Machine.previousClients_eq_ok.2 ⟨fun ib' hib' => ?_, rfl⟩⟩
    obtain ⟨ib, -, hpro⟩ := exists_of_forall₂_left hall.flip hib'
    exact hpro.readable
  constructor
  · rintro ⟨changed', _, hcha', -, hsy⟩ inbounds' hinb' ib hib hli
    obtain rfl := ok_unique hcha hcha'
    obtain rfl := ok_unique hinb hinb'
    obtain ⟨ib', hib', hpro⟩ := exists_of_forall₂_left hall hib
    obtain ⟨cs, hcli, hins, -⟩ := hsy ib' hib' (hpro.hasList.trans hli)
    exact ⟨hpro.listed.1 ⟨cs, hcli⟩, (installed_iff hpro hem hfl.symm hcli).1 hins⟩
  · intro hag
    refine ⟨changed, previous, hcha, hpre, fun ib' hib' hli => ?_⟩
    obtain ⟨ib, hib, hpro⟩ := exists_of_forall₂_left hall.flip hib'
    obtain ⟨hlis, hsa⟩ := hag inbounds hinb ib hib (hpro.hasList.symm.trans hli)
    obtain ⟨cs, hcli⟩ := hpro.listed.2 hlis
    have hins := (installed_iff hpro hem hfl.symm hcli).2 hsa
    refine ⟨cs, hcli, hins, fun built hbu => ?_⟩
    obtain ⟨c, built', hone, hbu', hsa⟩ := hins
    obtain rfl := ok_unique hbu hbu'
    refine clientChange_keep hta' hpre hib' hcli ?_ hsa
    rw [email_built hbu]
    exact hone

end Xray

namespace UserManagement

open Fallible Xray

def storedAuth (metadata : Metadata) : String :=
  let auth := getMetadataString metadata "auth"
  if auth = "" then getMetadataString metadata "password" else auth

def storedSubfile (sub : Subscription) : String :=
  let subfile := getMetadataString sub.metadata "subfile"
  if subfile = "" then sub.id else subfile

def storedExpire (metadata : Metadata) (endsAt : Option Time) : String :=
  let expire := getMetadataString metadata "expire"
  if expire = "" then (endsAt.map Time.formatDay).getD "" else expire

/-- The secret of an inbound from a stored row: the credential of its metadata, or else the derived one. -/
def storedSecret (ext : Externals) (protocol email uuid : String) (metadata : Metadata) : String :=
  secretAt ext protocol email uuid (hysteriaSecret ext email uuid (storedAuth metadata))

variable {user : VPNUserConfig}

theorem limit_eq_iff : (configToParams user).limit = (configToParams canonical).limit ↔
      user.maxDevices = canonical.maxDevices ∨ user.maxDevices ≤ 0 ∧ canonical.maxDevices ≤ 0 := by
  simp only [configToParams]
  split_ifs <;> simp <;> omega

theorem sameAt_row_iff {ext : Externals} {protocol : String} :
    SameAt ext protocol user (subscriptionToVPNUserConfig ext row) ↔
      user.subfile = storedSubfile row ∧ user.expire = storedExpire row.metadata row.endsAt ∧
        (user.maxDevices = row.maxDevices ∨ user.maxDevices ≤ 0 ∧ row.maxDevices ≤ 0) ∧
        secretAt ext protocol user.email user.uuid user.auth =
          storedSecret ext protocol row.email row.uuid row.metadata := by
  rw [SameAt, limit_eq_iff]
  rfl

inductive ProvisionPath where
  | create (req : CreateUserRequest)
  | unlimit (req : UnlimitUserRequest)
  /-- `unbanUserInXray` of a row -/
  | unban (sub : Subscription)

/-- The path succeeds from `s`, leaves `s'` and hands the user to the engine. -/
def ProvisionPath.Hands (env : ProvisionEnv) (s : Store) (path : ProvisionPath) (s' : Store) (user : VPNUserConfig) :
    Prop :=
  match path with
  | .create req => ∃ response, createUser env req s = ⟨s', [.addUser user], .ok response⟩
  | .unlimit req => ∃ response, unlimitUser env req s = ⟨s', [.addUser user], .ok response⟩
  | .unban sub => sub ∈ s.subscriptions.rows ∧ s' = s ∧ user = restoredUser sub

/-- A request that leaves the row as it is agrees with the row in every field. -/
def CreateUserRequest.AgreesWith (env : ProvisionEnv) (protocol : String) (req : CreateUserRequest) (sub : Subscription) :
    Prop :=
  req.subfileVal env = storedSubfile sub ∧ req.expireVal env = storedExpire sub.metadata sub.endsAt ∧
    (req.limitOr 0 = sub.maxDevices ∨ req.limitOr 0 ≤ 0 ∧ sub.maxDevices ≤ 0) ∧
    secretAt env.ext protocol req.address (req.uuidVal env) (req.authVal env) =
      storedSecret env.ext protocol req.address sub.uuid sub.metadata

/-- A request that updates the row gives a limit, its end reads back as it was written and is not hidden by the metadata,
and its secret is the stored one, which it does not write. -/
def CreateUserRequest.AgreesAfterUpdate (env : ProvisionEnv) (protocol : String) (req : CreateUserRequest)
    (sub : Subscription) : Prop :=
  req.limit ≠ none ∧
    req.expireVal env = storedExpire sub.metadata ((parseExpiryDate env.ext (req.expireVal env)).or sub.endsAt) ∧
    secretAt env.ext protocol req.address (req.uuidVal env) (req.authVal env) =
      storedSecret env.ext protocol req.address (req.uuidVal env) sub.metadata

/-- A request that inserts the row gives a limit other than zero, its end reads back as it was written, and its secret
is the derived one. -/
def CreateUserRequest.AgreesAfterInsert (env : ProvisionEnv) (protocol : String) (req : CreateUserRequest) : Prop :=
  (∃ limit, req.limit = some limit ∧ (Number.float limit).toInt ≠ 0) ∧
    req.expireVal env = ((parseExpiryDate env.ext (req.expireVal env)).map Time.formatDay).getD "" ∧
    secretAt env.ext protocol req.address (req.uuidVal env) (req.authVal env) =
      storedSecret env.ext protocol req.address (req.uuidVal env) []

/-- The inputs of the path and the row before it, where the path and a synchronisation install the same client in an
inbound of the protocol. -/
def ProvisionPath.AgreesAt (env : ProvisionEnv) (s : Store) (protocol : String) : ProvisionPath → Prop
  | .create req => trimSpace req.address ≠ "" ∧ match s.findLatestByEmail req.address with
    | .ok sub => if req.skipDB then req.AgreesWith env protocol sub else req.AgreesAfterUpdate env protocol sub
    | .error _ => req.AgreesAfterInsert env protocol
  | .unlimit req => trimSpace req.address ≠ "" ∧ ∀ sub, s.findLatestByEmail req.address = .ok sub →
      req.AgreesWith env protocol sub
  | .unban sub => trimSpace sub.email ≠ "" ∧
      (getMetadataString sub.metadata "subfile" ≠ "" ∨ sub.id = "") ∧
      (getMetadataString sub.metadata "expire" = "" ∨
        getMetadataString sub.metadata "expire" = (sub.endsAt.map Time.formatDay).getD "") ∧
      secretAt env.ext protocol sub.email sub.uuid "" = storedSecret env.ext protocol sub.email sub.uuid sub.metadata

section Paths

variable {env : ProvisionEnv} {s s' : Store} {user : VPNUserConfig} {row sub : Subscription} {protocol : String}
  {req : CreateUserRequest}

theorem agreesWith_iff (hem : sub.email = req.address) :
    SameAt env.ext protocol (req.userCfg env (req.uuidVal env)) (subscriptionToVPNUserConfig env.ext sub) ↔
      req.AgreesWith env protocol sub := by
  rw [sameAt_row_iff, hem]
  rfl

theorem agreesAt_unban_iff :
    trimSpace sub.email ≠ "" ∧ SameAt env.ext protocol (restoredUser sub) (subscriptionToVPNUserConfig env.ext sub) ↔
      (ProvisionPath.unban sub).AgreesAt env s protocol := by
  have hsub : getMetadataString sub.metadata "subfile" = storedSubfile sub ↔
      getMetadataString sub.metadata "subfile" ≠ "" ∨ sub.id = "" := by
    unfold storedSubfile
    dsimp only
    split_ifs with h
    · simp [h, eq_comm (a := "")]
    · simp [h]
  have hexp : (sub.endsAt.map Time.formatDay).getD "" = storedExpire sub.metadata sub.endsAt ↔
      getMetadataString sub.metadata "expire" = "" ∨
        getMetadataString sub.metadata "expire" = (sub.endsAt.map Time.formatDay).getD "" := by
    unfold storedExpire
    dsimp only
    split_ifs with h
    · simp [h]
    · simpa [h] using eq_comm
  rw [sameAt_row_iff, ProvisionPath.AgreesAt, ← hsub, ← hexp]
  simp [restoredUser]

variable {response : VPNUserConfig} {path : ProvisionPath}

theorem agreesAt_unlimit_iff {req : UnlimitUserRequest}
    (h : unlimitUser env req s = ⟨s', [.addUser user], .ok response⟩) (hrow : row ∈ s'.subscriptions.rows)
    (hem : row.email = user.email) :
    trimSpace user.email ≠ "" ∧ SameAt env.ext protocol user (subscriptionToVPNUserConfig env.ext row) ↔
      (ProvisionPath.unlimit req).AgreesAt env s protocol := by
  obtain ⟨rfl, rfl⟩ := unlimitUser_ok h
  -- the row is the one before, but for its status
  obtain ⟨row0, hrow0, hsa⟩ : ∃ row0 ∈ s.subscriptions.rows,
      row = { row0 with status := row.status, updatedAt := row.updatedAt } := by
    split_ifs at hrow
    · exact ⟨row, hrow, rfl⟩
    obtain ⟨row0, hrow0, hsa⟩ := of_mem_setStatus hrow
    rw [liftBan_subscriptions] at hrow0
    exact ⟨row0, hrow0, hsa⟩
  have hem0 : row0.email = req.address := by
    rw [hsa] at hem
    exact hem
  have hcan : subscriptionToVPNUserConfig env.ext row = subscriptionToVPNUserConfig env.ext row0 := by
    rw [hsa]
    rfl
  have hfi : s.findLatestByEmail req.address = .ok row0 := hem0 ▸ findLatestByEmail_of_mem hrow0
  rw [hcan, agreesWith_iff hem0, ProvisionPath.AgreesAt, hfi]
  simp [CreateUserRequest.userCfg, CreateUserRequest.address]

theorem updated_limit_iff :
    (req.limitOr 0 = req.limitOr 3 ∨ req.limitOr 0 ≤ 0 ∧ req.limitOr 3 ≤ 0) ↔ req.limit ≠ none := by
  unfold CreateUserRequest.limitOr
  cases req.limit <;> simp

theorem inserted_limit_iff : (req.limitOr 0 = (if req.limitOr 3 = 0 then 3 else req.limitOr 3) ∨
        req.limitOr 0 ≤ 0 ∧ (if req.limitOr 3 = 0 then 3 else req.limitOr 3) ≤ 0) ↔
      ∃ limit, req.limit = some limit ∧ (Number.float limit).toInt ≠ 0 := by
  unfold CreateUserRequest.limitOr
  cases req.limit with
  | none => simp
  | some limit =>
    split_ifs with h
    · simp [h]
    · simp [h]

theorem agreesAfterUpdate_iff (hsub : sub.email = req.address) :
    SameAt env.ext protocol (req.userCfg env (req.uuidVal env)) (subscriptionToVPNUserConfig env.ext
        { provisionedRow env.ext (req.limitOr 3) (req.userCfg env (req.uuidVal env)) sub with updatedAt := env.now }) ↔
      req.AgreesAfterUpdate env protocol sub := by
  have hput (key : String) : getMetadataString (Assoc.put sub.metadata "subfile" (.str (req.subfileVal env))) key =
      if key = "subfile" then req.subfileVal env else getMetadataString sub.metadata key :=
    getMetadataString_put
  rw [sameAt_row_iff, CreateUserRequest.AgreesAfterUpdate]
  simp only [storedSubfile, storedExpire, storedSecret, storedAuth, provisionedRow, CreateUserRequest.userCfg, hput,
    subfileVal_ne, updated_limit_iff, if_true, if_false, String.reduceEq, true_and, hsub]
  exact and_left_comm

theorem agreesAfterInsert_iff :
    SameAt env.ext protocol (req.userCfg env (req.uuidVal env)) (subscriptionToVPNUserConfig env.ext
        (freshRow env req (req.userCfg env (req.uuidVal env)))) ↔ req.AgreesAfterInsert env protocol := by
  have hget (key : String) : getMetadataString [("subfile", .str (req.subfileVal env))] key =
      if key = "subfile" then req.subfileVal env else "" := by
    rw [getMetadataString, Assoc.lookup_cons]
    split_ifs <;> rfl
  rw [sameAt_row_iff, CreateUserRequest.AgreesAfterInsert]
  simp only [storedSubfile, storedExpire, storedSecret, storedAuth, freshRow, CreateUserRequest.userCfg, hget,
    subfileVal_ne, inserted_limit_iff, if_true, if_false, String.reduceEq, true_and]
  exact and_left_comm

theorem agreesAt_create_iff (h : createUser env req s = ⟨s', [.addUser user], .ok response⟩)
    (hrow : row ∈ s'.subscriptions.rows) (hem : row.email = user.email) :
    trimSpace user.email ≠ "" ∧ SameAt env.ext protocol user (subscriptionToVPNUserConfig env.ext row) ↔
      (ProvisionPath.create req).AgreesAt env s protocol := by
  obtain ⟨rfl, ⟨hsk, rfl⟩ | ⟨hsk, hro⟩⟩ := createUser_ok h
  · have hfi : s'.findLatestByEmail req.address = .ok row :=
      (show row.email = req.address from hem) ▸ findLatestByEmail_of_mem hrow
    rw [agreesWith_iff hem, ProvisionPath.AgreesAt, hfi]
    simp only [hsk, if_true]
    rfl
  · rcases provisionRows_ok hro with ⟨sub, hfi, hmem⟩ | ⟨⟨e, hfi⟩, hmem⟩
    · have hsub := (findLatestByEmail_ok hfi).2
      obtain rfl := s'.subscriptions.eq_of_clash hrow hmem (.inr (.inl (hem.trans hsub.symm)))
      rw [agreesAfterUpdate_iff hsub, ProvisionPath.AgreesAt]
      rw [show s.findLatestByEmail req.address = .ok sub from hfi]
      simp only [hsk, Bool.false_eq_true, if_false]
      rfl
    · obtain rfl := s'.subscriptions.eq_of_clash hrow hmem (.inr (.inl hem))
      rw [agreesAfterInsert_iff, ProvisionPath.AgreesAt]
      rw [show s.findLatestByEmail req.address = .error e from hfi]
      rfl

theorem agreesAt_iff (hpa : path.Hands env s s' user) (hrow : row ∈ s'.subscriptions.rows)
    (hem : row.email = user.email) :
    trimSpace user.email ≠ "" ∧ SameAt env.ext protocol user (subscriptionToVPNUserConfig env.ext row) ↔
      path.AgreesAt env s protocol := by
  cases path with
  | create req =>
    obtain ⟨response, hcre⟩ := hpa
    exact agreesAt_create_iff hcre hrow hem
  | unlimit req =>
    obtain ⟨response, hunl⟩ := hpa
    exact agreesAt_unlimit_iff hunl hrow hem
  | unban sub =>
    obtain ⟨hsub, rfl, rfl⟩ := hpa
    obtain rfl := s'.subscriptions.eq_of_clash hrow hsub (.inr (.inl hem))
    exact agreesAt_unban_iff

theorem flow_of_hands (hpa : path.Hands env s s' user) : user.flow = "" := by
  cases path with
  | create req =>
    obtain ⟨response, hcre⟩ := hpa
    rw [(createUser_ok hcre).1]
    rfl
  | unlimit req =>
    obtain ⟨response, hunl⟩ := hpa
    rw [(unlimitUser_ok hunl).1]
    rfl
  | unban sub =>
    obtain ⟨-, -, rfl⟩ := hpa
    rfl

end Paths

/-- A path that succeeds on a config without the email installs the clients of a synchronisation built from the stored
row exactly if no client list is `null` and its inputs agree with the row in each inbound for clients. -/
theorem provisioned_like_sync_iff {env : ProvisionEnv} {path : ProvisionPath} {s s' : Store} {user : VPNUserConfig}
    {row : Subscription} {ioFails : Bool} {file : Option Raw} {raw : Raw} (hpath : path.Hands env s s' user)
    (hrow : row ∈ s'.subscriptions.rows) (hemail : row.email = user.email) (htags : DistinctTags file)
    (hlacks : Lacks user file) (hadd : Xray.addUser env.ext ioFails file user = .ok raw) :
    LikeSync env.ext row (some raw) ↔ EachListed file fun ib => path.AgreesAt env s (protocol ib) := by
  rw [likeSync_iff hemail (flow_of_hands hpath) htags hlacks hadd]
  simp only [EachListed, agreesAt_iff hpath hrow hemail]

/-! A row with a credential and a file in its metadata, on an inbound of either kind. -/

def keyedSub : Subscription where
  id := "s1"
  userID := "u1"
  email := "a@x"
  uuid := "0a"
  status := "active"
  metadata := [("auth", .str "pw"), ("subfile", .str "f.txt")]

def keyedStore : Store where
  subscriptions := .single keyedSub

def plainEnv : ProvisionEnv where
  ext := noExternals

def hysteriaConfig : Option Raw :=
  some (.obj [("inbounds", .arr [.obj [("tag", .str "in"), ("protocol", .str "hysteria2"),
    ("settings", .obj [("users", .arr [])])]])])

/-- A VLESS inbound takes only the UUID, which the row has. -/
theorem provisioned_like_sync_iff_vless : ∃ raw,
    Xray.addUser plainEnv.ext false (vlessConfig []) (restoredUser keyedSub) = .ok raw ∧
      LikeSync plainEnv.ext keyedSub (some raw) := by
  have hpa : (ProvisionPath.unban keyedSub).Hands plainEnv keyedStore keyedStore (restoredUser keyedSub) :=
    ⟨List.mem_singleton.2 rfl, rfl, rfl⟩
  have hla : Lacks (restoredUser keyedSub) (vlessConfig []) := lacks_of_empty rfl rfl
  obtain ⟨raw, hadd⟩ : ∃ raw, Xray.addUser plainEnv.ext false (vlessConfig []) (restoredUser keyedSub) = .ok raw :=
    ⟨_, rfl⟩
  refine ⟨raw, hadd, (provisioned_like_sync_iff hpa (List.mem_singleton.2 rfl) rfl distinctTags_vlessConfig
    hla hadd).2 ?_⟩
  intro inbounds hinb ib hib _
  cases hinb
  obtain rfl := List.mem_singleton.1 hib
  exact ⟨⟨_, rfl⟩, by decide, .inl (by decide), .inl (by decide), by decide⟩

/-- On a Hysteria inbound the unban installs the derived secret, and the row has another. -/
theorem unban_changes_secret : ∃ raw,
    (ProvisionPath.unban keyedSub).Hands plainEnv keyedStore keyedStore (restoredUser keyedSub) ∧
      DistinctTags hysteriaConfig ∧ Lacks (restoredUser keyedSub) hysteriaConfig ∧
      Xray.addUser plainEnv.ext false hysteriaConfig (restoredUser keyedSub) = .ok raw ∧
      ¬ LikeSync plainEnv.ext keyedSub (some raw) := by
  refine ⟨_, ⟨List.mem_singleton.2 rfl, rfl, rfl⟩,
    ⟨_, rfl, (by decide : ["in"].Nodup), (by decide : "" ∉ ["in"])⟩, lacks_of_empty rfl rfl, rfl, ?_⟩
  rintro ⟨inbounds, previous, hinb, -, hall⟩
  cases hinb
  obtain ⟨_, hcli, ⟨c, built, hone, hbu, hsa⟩, -⟩ := hall _ List.mem_cons_self rfl
  cases hcli
  obtain rfl := (List.cons.inj hone).1
  cases hbu
  exact absurd (hsa "auth") (by decide)

end UserManagement

end Xraytool

/-! Removing or blocking a user by name. If the engine refuses, the request answers success without writing the row, so
a row that was active stays active, and the next start of the server hands the user to the engine again. -/

namespace Xraytool.UserManagement

open Fallible List

/-- No row of the email is active, and no start of the server puts it into the engine. -/
def OutOfService (email : String) (s : Store) : Prop :=
  (∀ row ∈ s.subscriptions.rows, row.email = email → row.status ≠ "active") ∧
    ∀ env : SyncEnv, email ∉ (initialSync env s).added

variable {s : Store} {email : String} {req : ModifyUserRequest} {env : ProvisionEnv}

theorem added_initialSync {env : SyncEnv} (h : email ∈ (initialSync env s).added) :
    ∃ row ∈ s.subscriptions.rows, row.email = email ∧ row.status = "active" := by
  unfold initialSync at h
  split_ifs at h
  · simp [Handled.added] at h
  simp only [Handled.added, flatMap_cons, flatMap_nil, append_nil, EngineCall.adds, map_map, mem_map, mem_filter] at h
  obtain ⟨row, ⟨hrow, hco⟩, rfl⟩ := h
  refine ⟨row, hrow, rfl, ?_⟩
  simp only [Bool.and_eq_true, beq_iff_eq] at hco
  exact hco.1.1

theorem outOfService_iff :
    OutOfService email s ↔ ∀ row ∈ s.subscriptions.rows, row.email = email → row.status ≠ "active" := by
  refine and_iff_left_of_imp fun hro env had => ?_
  obtain ⟨row, hrow, hem, hact⟩ := added_initialSync had
  exact hro row hrow hem hact

theorem blockOrRemoveUser_status {sub row : Subscription} (hact : req.action = "rm" ∨ req.action = "limit")
    (hsk : req.skipDB = false) (hreg : ∀ op, op ≠ .engine → env.fails op = false)
    (hsub : sub ∈ s.subscriptions.rows) (hem : sub.email = requestEmail req.email req.name)
    (hne : sub.email ≠ "") (hcal : req.legacy = true ∨ env.fails .engine = false)
    (hrow : row ∈ (blockOrRemoveUser env req s).store.subscriptions.rows) (hrowE : row.email = sub.email) :
    row.status ≠ "active" := by
  have hfi := hreg .findByEmail nofun
  have hupd := hreg .update nofun
  have hco : ¬ (!req.legacy && env.fails .engine) = true := by
    rcases hcal with h | h <;> simp [h]
  rw [blockOrRemoveUser, ← hem, if_neg hne, if_neg hco] at hrow
  rcases hact with hact | hact
  · simp only [hsk, hact, if_true, Bool.false_eq_true, if_false] at hrow
    rw [status_setStatus hfi hupd hsub hrow hrowE]
    decide
  simp only [hsk, hact, Bool.false_eq_true, if_false, if_true, (by decide : "limit" ≠ "rm")] at hrow
  rw [status_setStatus hfi hupd hsub hrow hrowE]
  decide

theorem blockOrRemoveUser_refused (hne : requestEmail req.email req.name ≠ "") (hleg : req.legacy = false)
    (heng : env.fails .engine = true) : (blockOrRemoveUser env req s).store.subscriptions = s.subscriptions := by
  rw [blockOrRemoveUser, if_neg hne, if_pos (by simp [hleg, heng])]
  split_ifs
  · exact liftBan_subscriptions
  · rfl

/-- A request to remove or block a user takes effect in the database exactly if the engine was not called or did not
fail, or the row was not active before. -/
theorem removed_by_name_iff (env : ProvisionEnv) (req : ModifyUserRequest) (s : Store) (sub : Subscription)
    (haction : req.action = "rm" ∨ req.action = "limit") (hskip : req.skipDB = false)
    (hregistry : ∀ op, op ≠ .engine → env.fails op = false) (hok : (blockOrRemoveUser env req s).result = .ok ())
    (hsub : sub ∈ s.subscriptions.rows) (hemail : sub.email = requestEmail req.email req.name) :
    OutOfService sub.email (blockOrRemoveUser env req s).store ↔
      req.legacy = true ∨ env.fails .engine = false ∨ sub.status ≠ "active" := by
  have hne : sub.email ≠ "" := by
    intro hem
    rw [blockOrRemoveUser, ← hemail, if_pos hem] at hok
    contradiction
  rw [outOfService_iff, ← or_assoc]
  by_cases hcal : req.legacy = true ∨ env.fails .engine = false
  · refine iff_of_true (fun row hrow hrowE => ?_) (.inl hcal)
    exact blockOrRemoveUser_status haction hskip hregistry hsub hemail hne hcal hrow hrowE
  rw [or_iff_right hcal]
  rw [not_or, Bool.not_eq_true, Bool.not_eq_false] at hcal
  rw [blockOrRemoveUser_refused (hemail ▸ hne) hcal.1 hcal.2]
  constructor
  · exact fun h => h sub hsub rfl
  · intro h row hrow hrowE
    rwa [s.subscriptions.eq_of_clash hrow hsub (.inr (.inl hrowE))]

/-! One active subscription, and an engine that fails to remove its user. -/

def oneActive : Store where
  subscriptions := .single { id := "s1", userID := "u1", email := "a@x", uuid := "c1", status := "active" }

def provisionEnv (engineFails : Bool) : ProvisionEnv where
  ext := noExternals
  fails := fun op => op == .engine && engineFails

theorem removed_by_name_iff_removed :
    OutOfService "a@x" (blockOrRemoveUser (provisionEnv false) { name := "a@x", action := "rm" } oneActive).store := by
  refine (removed_by_name_iff (provisionEnv false) { name := "a@x", action := "rm" } oneActive
    { id := "s1", userID := "u1", email := "a@x", uuid := "c1", status := "active" } (.inl rfl) rfl ?_ rfl
    mem_cons_self rfl).2 (.inr (.inl rfl))
  intro op _
  simp [provisionEnv]

/-- The request answers success, the row is still active, and the next start hands the user to the engine. -/
theorem removed_user_stays_active :
    (blockOrRemoveUser (provisionEnv true) { email := "a@x", action := "rm" } oneActive).result = .ok () ∧
      ((blockOrRemoveUser (provisionEnv true) { email := "a@x", action := "rm" } oneActive).store.subscriptions.rows.map
        (·.status)) = ["active"] ∧
      ¬ OutOfService "a@x" (blockOrRemoveUser (provisionEnv true) { email := "a@x", action := "rm" } oneActive).store := by
  refine ⟨rfl, by decide, fun h => ?_⟩
  exact h.2 { ext := noExternals, template := "t" } (by decide)

end Xraytool.UserManagement
