import Xraytool.Sanity.XraySync

/-! Users merged into a template. A merge replaces the clients with an email and leaves the rest, so nothing of it is
left after a later merge, unless a user has an email of spaces only: for the next merge that client has no email. -/

namespace Xraytool.Xray

open Fallible List Machine

variable {ext : Externals} {users later : List VPNUserConfig} {ib ib' template cfg : RawMap}

/-- An inbound of the template after a merge. -/
structure MergedInto (ext : Externals) (users : List VPNUserConfig) (ib ib' : RawMap) : Prop where
  unlisted : hasClientList ib = false → ib' = ib
  keys : ∀ k ≠ "settings", ib'.get k = ib.get k
  settings : hasClientList ib = true → ∃ old new, parseSettings ib = .ok old ∧ parseSettings ib' = .ok new ∧
    ∀ k, listKey old ≠ some k → new.lookup k = old.lookup k
  /-- the clients without an email, then one for each email of the users for which it can be built -/
  clients : hasClientList ib = true → ∃ firsts ⊆ users, (firsts.map (·.email)).Nodup ∧
    (∀ e, e ∈ firsts.map (·.email) ↔ e ∈ users.map (·.email) ∧ e ≠ "") ∧
    readClients ib' = ((readClients ib).filter (email · = "") ++
      firsts.filterMap fun u => (buildClient ext ib (configToParams u)).toOption).map cleanLegacy

theorem mem_emails_distinctUsers {e : String} :
    e ∈ (distinctUsers [] users).map (·.email) ↔ e ∈ users.map (·.email) ∧ e ≠ "" := by
  simp only [mem_map]
  constructor
  · rintro ⟨u, hu, rfl⟩
    obtain ⟨hin, hne, -⟩ := distinctUsers_subset _ _ u hu
    exact ⟨⟨u, hin, rfl⟩, hne⟩
  · rintro ⟨⟨u, hu, rfl⟩, hne⟩
    exact exists_distinctUser [] hu hne not_mem_nil

theorem mergedInto_of_merge (h : mergeInbound ext users ib = .ok ib') : MergedInto ext users ib ib' := by
  rcases hli : hasClientList ib with _ | _
  · obtain rfl := ok_unique h (mergeInbound_of_unlisted hli)
    constructor <;> simp [hli]
  obtain ⟨settings, key, hs, hk, hnew⟩ := setClients_eq hli
  have hset := ((mergeInbound_of_listed hli).1 h).2
  obtain ⟨heq, hs'⟩ := hnew ((readClients ib).filter (email · = "") ++ buildDynamicClients ext ib users)
  have hwi := WithClients.setClients hli hset
  refine ⟨by simp [hli], hwi.keys, fun _ => ⟨settings, _, hs, ok_unique hset heq ▸ hs', fun k hne => ?_⟩, fun _ => ?_⟩
  · rw [Assoc.lookup_put, if_neg]
    rintro rfl
    exact hne hk
  · exact ⟨distinctUsers [] users, fun u hu => (distinctUsers_subset _ _ u hu).1, distinctUsers_nodup [] users,
      fun e => mem_emails_distinctUsers, hwi.clients⟩

theorem cleanLegacy_cleanLegacy {c : RawMap} : cleanLegacy (cleanLegacy c) = cleanLegacy c := by
  simp only [cleanLegacy, Assoc.drop, Option.getD_some, filter_filter, Option.some.injEq]
  exact filter_congr fun e _ => by grind

section

variable (hbl : ∀ u ∈ users, u.email ≠ "" → trimSpace u.email ≠ "")
include hbl

theorem anonymous_dynamic : (buildDynamicClients ext ib users).filter (email · = "") = [] := by
  refine filter_eq_nil_iff.2 fun c hc => ?_
  obtain ⟨u, hu, hcli⟩ := mem_filterMap.1 hc
  obtain ⟨hin, hne, -⟩ := distinctUsers_subset _ _ u hu
  rcases hb : buildClient ext ib (configToParams u) with e | built
  · rw [hb] at hcli
    cases hcli
  rw [hb] at hcli
  cases hcli
  rw [email_built hb, decide_eq_true_eq]
  exact hbl u hin hne

/-- A merge does not see what an earlier one has put in. -/
theorem mergeInbound_again (h : mergeInbound ext users ib = .ok ib') :
    mergeInbound ext later ib' = mergeInbound ext later ib := by
  rcases hli : hasClientList ib with _ | _
  · rw [ok_unique h (mergeInbound_of_unlisted hli)]
  obtain ⟨hcli, hset⟩ := (mergeInbound_of_listed hli).1 h
  obtain ⟨hr, hke, settings', hs'⟩ := setClients_of_hasClientList hli hset
  obtain ⟨-, settings, _, hs, -⟩ := settings_of_hasClientList hli
  have hano : (readClients ib').filter (email · = "") = ((readClients ib).filter (email · = "")).map cleanLegacy := by
    rw [readClients_of_some hr, filter_map_cleanLegacy (fun e => decide (e = "")), filter_append, filter_filter,
      anonymous_dynamic hbl, append_nil]
    simp only [Bool.and_self]
  have hdyn : buildDynamicClients ext ib' later = buildDynamicClients ext ib later := by
    simp only [buildDynamicClients, buildClient_congr ext _ hke hs hs']
  have hcon : setClients ib ((readClients ib').filter (email · = "") ++ buildDynamicClients ext ib' later) =
      setClients ib ((readClients ib).filter (email · = "") ++ buildDynamicClients ext ib later) := by
    rw [hano, hdyn, setClients, setClients]
    simp only [map_append, map_map, Function.comp_def, cleanLegacy_cleanLegacy]
  obtain ⟨ib2, hib2⟩ : ∃ ib2, mergeInbound ext later ib = .ok ib2 := mergeInbound_succeeds fun _ => hcli
  rw [hib2, mergeInbound_of_listed (hasClientList_of_getClients hr), setClients_setClients hli hset, hcon]
  exact ⟨⟨_, hr⟩, ((mergeInbound_of_listed hli).1 hib2).2⟩

end

/-- After `MergeUsers` each inbound has its clients without an email and one for each email of the users, nothing else
changes, and a later merge gives what it gives on the template. -/
theorem mergeUsers_exact (ext : Externals) (template cfg : RawMap) (users : List VPNUserConfig)
    (h : mergeUsers ext template users = .ok cfg) :
    (∃ ibs merged, getInbounds template = .ok ibs ∧ getInbounds cfg = .ok merged ∧
      Forall₂ (MergedInto ext users) ibs merged) ∧
    (∀ k ≠ "inbounds", cfg.get k = template.get k) ∧
    ((∀ u ∈ users, u.email ≠ "" → trimSpace u.email ≠ "") →
      ∀ later, mergeUsers ext cfg later = mergeUsers ext template later) := by
  rw [mergeUsers, getInbounds_clone] at h
  simp only [bind_eq_ok, mapError_eq_ok] at h
  obtain ⟨ibs, hin, merged, hmer, hset⟩ := h
  have hrou := mapM_eq_ok.1 hmer
  have hin' := getInbounds_setInbounds hset
  refine ⟨⟨ibs, merged, hin, hin', hrou.imp fun _ _ => mergedInto_of_merge⟩, fun k hk => ?_, fun hbl later => ?_⟩
  · cases hset
    rw [RawMap.get_set_of_ne hk]
    cases template <;> rfl
  have hsa : merged.mapM (mergeInbound ext later) = ibs.mapM (mergeInbound ext later) := by
    clear hmer hset hin hin'
    induction hrou with
    | nil => rfl
    | cons hro _ ih => rw [mapM_cons, mapM_cons, mergeInbound_again hbl hro, ih]
  have hcfg : some (cfg.getD []) = cfg := by
    cases hset
    rfl
  rw [mergeUsers, mergeUsers, hcfg, hin', getInbounds_clone, hin]
  simp only [Except.mapError, ok_bind, hsa, setInbounds_setInbounds hset]

def anonymousTemplate : RawMap :=
  some [("inbounds", .arr [.obj [("tag", .str "in"), ("protocol", .str "vless"), ("settings", .obj [("clients",
    .arr [.obj [("id", .str "shared"), ("hy2_auth", .str "old")]])])]])]

def namedUser : VPNUserConfig := { email := "a@x", uuid := "u" }

theorem mergeUsers_exact_named :
    ∃ cfg, mergeUsers vlessEnv.ext anonymousTemplate [namedUser] = .ok cfg ∧
      ∀ later, mergeUsers vlessEnv.ext cfg later = mergeUsers vlessEnv.ext anonymousTemplate later :=
  ⟨_, rfl, (mergeUsers_exact vlessEnv.ext anonymousTemplate _ [namedUser] rfl).2.2 (by decide +kernel)⟩

def mergedClients (template : RawMap) (users : List VPNUserConfig) : Except Failure (List (List RawMap)) := do
  let cfg ← mergeUsers vlessEnv.ext template users
  (getInbounds cfg).map (·.map readClients)

/-- A merge takes a field of an older format from a client without an email, and leaves a client of a user whose
email is a space to the next merge. -/
theorem merge_leaves_blank_user :
    mergedClients anonymousTemplate [] = .ok [[some [("id", .str "shared")]]] ∧
    ∃ cfg, mergeUsers vlessEnv.ext anonymousTemplate [{ email := " ", uuid := "u" }] = .ok cfg ∧
      mergedClients cfg [] = .ok [[some [("id", .str "shared")], some [("email", .str " "), ("id", .str "u")]]] :=
  ⟨rfl, _, rfl, rfl⟩

/-! A synchronisation folds the clients of an email of the template into one user and builds it again for each inbound. -/

variable {env : AdapterEnv} {snapshot : List VPNUserConfig} {user : VPNUserConfig} {e k : String} {c : RawMap}
  {ibs : List RawMap} {fails : Faults} {m : Machine} {orphans : Bool} {raw : Raw}

def credentialKeys : List String := ["id", "password", "auth", "method", "flow"]

/-- The inbound of the config has clients of the email for those of the template, with the same credentials. -/
def Retains (e : String) (ib ib' : RawMap) : Prop :=
  ∀ c ∈ readClients ib, email c = e → (∃ c' ∈ readClients ib', email c' = e) ∧
    ∀ c' ∈ readClients ib', email c' = e → ∀ k ∈ credentialKeys, getString c' k = getString c k

/-- The config has the inbounds of the template, and they retain the clients of the email. -/
def Retained (template file : Option Raw) (e : String) : Prop :=
  ∃ inbounds changed, inboundsOf template = .ok inbounds ∧ inboundsOf file = .ok changed ∧
    Forall₂ (Retains e) inbounds changed

/-- The flow of the clients of an inbound: only in VLESS without an HTTP transport, the last one, or Vision if there is
none and it applies. -/
def keptFlow (cs : List RawMap) (ib : RawMap) : String :=
  if protocol ib ≠ "vless" ∨ isHTTPTransport ib then ""
  else if lastText cs "flow" = "" ∧ hasXTLS ib then "xtls-rprx-vision" else lastText cs "flow"

/-- The credentials of a client of the email: of id, password and auth only the secret that the protocol takes of the last
ones among all clients of the email, no method, and the flow. -/
structure Kept (ext : Externals) (cs : List RawMap) (e : String) (ib c : RawMap) : Prop where
  buildable : Buildable (protocol ib) (secretAt ext (protocol ib) e (lastText cs "id") (lastSecret cs))
  secret : getString c (secretKey (protocol ib)) =
    trimSpace (secretAt ext (protocol ib) e (lastText cs "id") (lastSecret cs))
  rest : ∀ k ∈ ["id", "password", "auth", "method"], k ≠ secretKey (protocol ib) → getString c k = ""
  flow : getString c "flow" = keptFlow cs ib

def templateClients (inbounds : List RawMap) (e : String) : List RawMap :=
  (inbounds.flatMap readClients).filter (email · = e)

/-- The email is not blacklisted, and all its clients have such credentials. -/
def Rebuildable (env : AdapterEnv) (e : String) : Prop :=
  ∃ inbounds, inboundsOf env.template = .ok inbounds ∧ ∀ ib ∈ inbounds, ∀ c ∈ readClients ib, email c = e →
    e ∉ env.blacklistedAdmins.map trimSpace ∧ Kept env.ext (templateClients inbounds e) e ib c

/-- The clients with an email in the config are those that the template gives for the snapshot. -/
def GeneratedFor (env : AdapterEnv) (snapshot : List VPNUserConfig) (file : Option Raw) : Prop :=
  ∃ inbounds changed, inboundsOf env.template = .ok inbounds ∧ inboundsOf file = .ok changed ∧
    Forall₂ (fun ib ib' => (namedClients ib').Perm (generatedClients env.ext snapshot ib)) inbounds changed

/-- The clients of the email in the template, as one user. -/
def foldedUser (env : AdapterEnv) (inbounds : List RawMap) (e : String) : Option VPNUserConfig :=
  rawClientToVPNUserConfig env.truncate (mergeClients (templateClients inbounds e))

theorem foldedUser_email (he : e ∈ emailsInOrder (ibs.flatMap readClients)) (h : foldedUser env ibs e = some user) :
    user.email = e ∧ trimSpace user.email = e := by
  obtain ⟨u, hu, hue⟩ := rawClientToVPNUserConfig_merged env.truncate he
  obtain rfl : user = u := Option.some.inj (h.symm.trans hu)
  obtain ⟨-, c, -, hc⟩ := mem_emailsInOrder.1 he
  exact ⟨hue, by rw [hue, ← hc, trimSpace_email]⟩

theorem foldedUser_eq (h : foldedUser env ibs e = some user) :
    user.uuid = lastText (templateClients ibs e) "id" ∧ user.auth = lastSecret (templateClients ibs e) ∧
      user.flow = lastText (templateClients ibs e) "flow" := by
  rw [lastSecret, ← getString_mergeClients, ← getString_mergeClients, ← getString_mergeClients,
    ← getString_mergeClients]
  rw [foldedUser, rawClientToVPNUserConfig] at h
  dsimp only at h
  by_cases hem : trimSpace (email (mergeClients (templateClients ibs e))) = ""
  · rw [if_pos hem] at h
    contradiction
  rw [if_neg hem, Option.some.injEq] at h
  exact h ▸ ⟨rfl, rfl, rfl⟩

theorem textOf_vlessFlow {cs : List RawMap} (hfl : user.flow = lastText cs "flow") :
    textOf (if protocol ib = "vless" ∧ vlessFlow ib (configToParams user) ≠ "" then
      some (.str (vlessFlow ib (configToParams user))) else none) = keptFlow cs ib := by
  have htr : trimSpace (lastText cs "flow") = lastText cs "flow" := by
    rw [← getString_mergeClients, trimSpace_getString]
  have hvis : trimSpace "xtls-rprx-vision" = "xtls-rprx-vision" := by decide
  unfold keptFlow vlessFlow
  simp only [configToParams, hfl]
  by_cases hvl : protocol ib = "vless" <;> by_cases hht : isHTTPTransport ib = true <;>
    by_cases hvi : lastText cs "flow" = "" ∧ hasXTLS ib = true <;> by_cases hem : lastText cs "flow" = "" <;>
    simp_all [textOf]

theorem kept_iff {built : RawMap} {cs : List RawMap} (hem : user.email = e) (hid : user.uuid = lastText cs "id")
    (hau : user.auth = lastSecret cs) (hfl : user.flow = lastText cs "flow")
    (h : buildClient ext ib (configToParams user) = .ok built) :
    (∀ k ∈ credentialKeys, getString (cleanLegacy built) k = getString c k) ↔ Kept ext cs e ib c := by
  have hge (k : String) (hk : k ∈ credentialKeys) : getString (cleanLegacy built) k =
      if k = secretKey (protocol ib) then trimSpace (secretAt ext (protocol ib) e (lastText cs "id") (lastSecret cs))
      else if k = "flow" then keptFlow cs ib else "" := by
    have hke : k ∉ ["email", "subfile", "expire", "limit"] := by
      revert k
      decide
    rw [getString_congr (cleanLegacy_built h k), getString_eq, get_built h hke, apply_ite textOf, ← hem, ← hid, ← hau]
    refine if_congr Iff.rfl rfl ?_
    by_cases hkf : k = "flow"
    · simp only [hkf, true_and, if_true]
      exact textOf_vlessFlow hfl
    · rw [if_neg hkf, if_neg (mt And.left hkf)]
      rfl
  have hse : "flow" ≠ secretKey (protocol ib) := fun heq =>
    absurd (heq ▸ secretKey_mem : "flow" ∈ ["id", "password", "auth"]) (by decide)
  constructor
  · intro hall
    refine ⟨?_, ?_, fun k hk hks => ?_, ?_⟩
    · rw [← hem, ← hid, ← hau]
      exact exists_built.1 ⟨built, h⟩
    · have hk : secretKey (protocol ib) ∈ credentialKeys :=
        (show ∀ k ∈ ["id", "password", "auth"], k ∈ credentialKeys by decide) _ secretKey_mem
      rw [← hall _ hk, hge _ hk, if_pos rfl]
    · have hkc := (show ∀ k ∈ ["id", "password", "auth", "method"], k ∈ credentialKeys ∧ k ≠ "flow" by decide) k hk
      rw [← hall k hkc.1, hge k hkc.1, if_neg hks, if_neg hkc.2]
    · rw [← hall _ (by decide), hge _ (by decide), if_neg hse, if_pos rfl]
  intro hkept k hk
  rw [hge k hk]
  split_ifs with hks hkf
  · rw [hks, hkept.secret]
  · rw [hkf, hkept.flow]
  · have hkr : ∀ k ∈ credentialKeys, k ≠ "flow" → k ∈ ["id", "password", "auth", "method"] := by decide
    rw [hkept.rest k (hkr k hk hkf) hks]

section

variable (hin : inboundsOf env.template = .ok ibs) (hsn : withTemplateUsers env users = .ok snapshot)
  (hpa : trimSpace env.templatePath ≠ "") (hfree : e ∉ users.map (trimSpace ·.email)) (hne : e ≠ "")
include hin hsn hpa hfree hne

/-- The snapshot has the folded user for the email, unless it is blacklisted, and no other. -/
theorem mem_snapshot (hem : trimSpace user.email = e) (hm : e ∈ emailsOf (ibs.flatMap readClients)) :
    user ∈ snapshot ↔ e ∉ env.blacklistedAdmins.map trimSpace ∧ foldedUser env ibs e = some user := by
  obtain ⟨template, hr, hgin⟩ := inboundsOf_eq_ok.1 hin
  rw [withTemplateUsers, map_eq_ok] at hsn
  obtain ⟨listed, hli, rfl⟩ := hsn
  rw [templateUserSnapshot, if_neg hpa, hr] at hli
  simp only [Except.mapError, ok_bind, templateUsers, listUsers, hgin] at hli
  cases hli
  have hnot : user ∉ users := fun hu => hfree (hem ▸ mem_map_of_mem hu)
  simp only [mem_append, hnot, false_or, mem_insertionSort, mem_filter, mem_filterMap, mem_map, decide_eq_true_eq]
  constructor
  · rintro ⟨⟨_, ⟨e', he', rfl⟩, hco⟩, -, hbl⟩
    obtain ⟨hue, htr⟩ := foldedUser_email he' hco
    obtain rfl : e = e' := hem.symm.trans htr
    exact ⟨hue ▸ hbl, hco⟩
  · rintro ⟨hbl, hfo⟩
    have he' := mem_emailsInOrder.2 ⟨hne, hm⟩
    rw [(foldedUser_email he' hfo).1]
    exact ⟨⟨_, ⟨e, he', rfl⟩, hfo⟩, by simpa using hfree, by simpa using hbl⟩

theorem mem_generated_email (hli : hasClientList ib = true) (hm : e ∈ emailsOf (ibs.flatMap readClients)) :
    c ∈ generatedClients env.ext snapshot ib ∧ email c = e ↔ e ∉ env.blacklistedAdmins.map trimSpace ∧
      ∃ user built, foldedUser env ibs e = some user ∧ buildClient env.ext ib (configToParams user) = .ok built ∧
        c = cleanLegacy built := by
  rw [generatedClients, if_pos hli]
  constructor
  · rintro ⟨hc, hem⟩
    obtain ⟨built, hbu, rfl⟩ := mem_map.1 hc
    obtain ⟨user, hu, hcli⟩ := mem_filterMap.1 (mem_filter.1 hbu).1
    rcases hb : buildClient env.ext ib (configToParams user) with err | c
    · rw [hb] at hcli
      cases hcli
    rw [hb] at hcli
    cases hcli
    rw [email_cleanLegacy, email_built hb] at hem
    obtain ⟨hbl, hfo⟩ := (mem_snapshot hin hsn hpa hfree hne hem hm).1 (distinctUsers_subset _ _ user hu).1
    exact ⟨hbl, user, _, hfo, hb, rfl⟩
  · rintro ⟨hbl, user, built, hfo, hb, rfl⟩
    have he' := mem_emailsInOrder.2 ⟨hne, hm⟩
    obtain ⟨hue, htr⟩ := foldedUser_email he' hfo
    have hsna := (mem_snapshot hin hsn hpa hfree hne htr hm).2 ⟨hbl, hfo⟩
    obtain ⟨v, hv, hve⟩ := exists_distinctUser [] hsna (hue ▸ hne) not_mem_nil
    have hvf := (mem_snapshot hin hsn hpa hfree hne (hve ▸ htr) hm).1 (distinctUsers_subset _ _ v hv).1
    obtain rfl : user = v := Option.some.inj (hfo.symm.trans hvf.2)
    have hbe : email built = e := (email_built hb).trans htr
    refine ⟨mem_map.2 ⟨built, mem_filter.2 ⟨mem_filterMap.2 ⟨user, hv, ?_⟩, ?_⟩, rfl⟩, ?_⟩
    · rw [hb]
      rfl
    · simpa [hbe] using hne
    · rw [email_cleanLegacy, hbe]

theorem retains_iff (hib : ib ∈ ibs) (hgen : (namedClients ib').Perm (generatedClients env.ext snapshot ib)) :
    Retains e ib ib' ↔ ∀ c ∈ readClients ib, email c = e →
      e ∉ env.blacklistedAdmins.map trimSpace ∧ Kept env.ext (templateClients ibs e) e ib c := by
  refine forall₃_congr fun c hc hem => ?_
  have hli := hasClientList_of_mem hc
  have hm : e ∈ emailsOf (ibs.flatMap readClients) := ⟨c, mem_flatMap.2 ⟨ib, hib, hc⟩, hem⟩
  have hmem (c' : RawMap) : c' ∈ readClients ib' ∧ email c' = e ↔ e ∉ env.blacklistedAdmins.map trimSpace ∧
      ∃ user built, foldedUser env ibs e = some user ∧ buildClient env.ext ib (configToParams user) = .ok built ∧
        c' = cleanLegacy built := by
    rw [← mem_generated_email hin hsn hpa hfree hne hli hm, ← hgen.mem_iff, namedClients, mem_filter]
    refine and_congr_left fun he => (and_iff_left ?_).symm
    simpa [he] using hne
  obtain ⟨user, hfo, hue⟩ := rawClientToVPNUserConfig_merged env.truncate (mem_emailsInOrder.2 ⟨hne, hm⟩)
  obtain ⟨hid, hau, hfl⟩ := foldedUser_eq hfo
  have hke {built : RawMap} (hb : buildClient env.ext ib (configToParams user) = .ok built) :=
    kept_iff (c := c) hue hid hau hfl hb
  constructor
  · rintro ⟨⟨c', hc', he'⟩, hall⟩
    obtain ⟨hbl, user', built, hfo', hb, rfl⟩ := (hmem c').1 ⟨hc', he'⟩
    obtain rfl := Option.some.inj (hfo.symm.trans hfo')
    exact ⟨hbl, (hke hb).1 (hall _ hc' he')⟩
  rintro ⟨hbl, hkept⟩
  obtain ⟨built, hb⟩ : ∃ built, buildClient env.ext ib (configToParams user) = .ok built := by
    rw [exists_built]
    simpa only [configToParams, hue, hid, hau] using hkept.buildable
  refine ⟨⟨_, (hmem _).2 ⟨hbl, user, _, hfo, hb, rfl⟩⟩, fun c' hc' he' => ?_⟩
  obtain ⟨-, user', built, hfo', hb', rfl⟩ := (hmem c').1 ⟨hc', he'⟩
  obtain rfl := Option.some.inj (hfo.symm.trans hfo')
  exact (hke hb').2 hkept

end

theorem retained_iff {file : Option Raw} (hsn : withTemplateUsers env users = .ok snapshot)
    (hgen : GeneratedFor env snapshot file) (hpa : trimSpace env.templatePath ≠ "")
    (hfree : e ∉ users.map (trimSpace ·.email)) (hne : e ≠ "") :
    Retained env.template file e ↔ Rebuildable env e := by
  obtain ⟨ibs, changed, hin, hcha, hrou⟩ := hgen
  simp only [Retained, Rebuildable, hin, hcha, Except.ok.injEq, exists_and_left, exists_eq_left']
  refine forall₂_iff_forall_mem ?_
  rw [forall₂_iff_zip] at hrou ⊢
  exact ⟨hrou.1, fun hp => retains_iff hin hsn hpa hfree hne (of_mem_zip hp).1 (hrou.2 hp)⟩

/-- The hash file has the hash of the users, and no dirty flag is left. -/
def Skips (env : AdapterEnv) (fails : Faults) (m : Machine) (users : List VPNUserConfig) : Prop :=
  m.hash = some (calculateStateHash env users) ∧ fails .readHash = false ∧
    (m.dirty = true → fails .restart = false ∧ fails .removeDirty = false)

theorem healDirty_clean : (m.healDirty fails).dirty = false ↔
    (m.dirty = true → fails .restart = false ∧ fails .removeDirty = false) := by
  unfold healDirty
  cases hdi : m.dirty <;> cases fails .restart <;> simp [hdi]

theorem skips_iff : Skips env fails m users ↔ (m.healDirty fails).hash = some (calculateStateHash env users) ∧
    fails .readHash = false ∧ (m.healDirty fails).dirty = false := by
  rw [Skips, healDirty_clean, (hotStep_healDirty m fails).hash]

/-- After `SyncUsers` returned nil the clients of an email that the template lists and no user of the database has
keep their credentials if and only if these are such as are rebuilt. Of a sync that is skipped by the hash, the config
is what was generated for the snapshot. -/
theorem template_user_retained_iff (env : AdapterEnv) (fails : Faults) (m : Machine) (users : List VPNUserConfig)
    (orphans : Bool) (e : String) (hpat : trimSpace env.templatePath ≠ "") (hem : e ≠ "")
    (hfree : e ∉ users.map (trimSpace ·.email))
    (hskip : ∀ snapshot, withTemplateUsers env users = .ok snapshot → Skips env fails m snapshot →
      GeneratedFor env snapshot m.file)
    (hok : (m.run env ⟨.syncUsers users orphans, fails⟩).2 = none) :
    Retained env.template (m.run env ⟨.syncUsers users orphans, fails⟩).1.file e ↔ Rebuildable env e := by
  have hpa : env.templatePath ≠ "" := by
    rintro h
    rw [h] at hpat
    exact hpat (by decide)
  rcases hsn : withTemplateUsers env users with err | snapshot
  · simp [run, syncUsers, hsn] at hok
  obtain ⟨hrun, herr⟩ := run_syncUsers fails orphans hsn
  refine retained_iff hsn ?_ hpat hfree hem
  have hf := (hotStep_healDirty m fails).file
  rw [hrun]
  unfold syncSnapshot at herr ⊢
  by_cases hsk : Skips env fails m snapshot
  · rw [if_pos (skips_iff.1 hsk), hf]
    exact hskip snapshot hsn hsk
  rw [if_neg (mt skips_iff.2 hsk), writeDesired, if_pos hpa, hf] at herr ⊢
  rcases hraw : regenerateConfig env fails m.file snapshot with err | raw
  · rw [hraw] at herr
    exact absurd ((herr _).2 rfl) (by simp [hok])
  obtain ⟨template, ibs, changed, hr, hgin, hcha, hrou⟩ := regenerateConfig_eq_ok hraw
  rw [file_applyDesired]
  exact ⟨ibs, changed, inboundsOf_eq_ok.2 ⟨template, hr, hgin⟩, hcha, hrou.imp fun _ _ h => .of_eq h.named⟩

def listedEnv : AdapterEnv :=
  { vlessEnv with template := vlessConfig [.obj [("email", .str "a"), ("id", .str "id-a")]] }

theorem template_user_retained_listed :
    Retained listedEnv.template
      ((Machine.started none).run listedEnv ⟨.syncUsers [otherUser] true, noFaults⟩).1.file "a" := by
  refine (template_user_retained_iff listedEnv noFaults (started none) [otherUser] true "a" (by decide) (by decide)
    (by decide) (fun _ _ h => ?_) (by decide +kernel)).2 ⟨_, rfl, fun ib hib c hc _ => ?_⟩
  · cases h.1
  obtain rfl := mem_singleton.1 hib
  obtain rfl := mem_singleton.1 hc
  exact ⟨by decide, by decide +kernel, by decide +kernel, by decide +kernel, by decide +kernel⟩

def cipherEnv : AdapterEnv :=
  { vlessEnv with template := some (.obj [("inbounds", .arr [.obj [("tag", .str "in"), ("protocol", .str "shadowsocks"),
    ("settings", .obj [("clients", .arr [.obj [("email", .str "a"), ("password", .str "p"), ("method", .str "m")]])])]])]) }

def methodsOf (file : Option Raw) : Except Failure (List (List (String × String))) :=
  (inboundsOf file).map (·.map fun ib => (readClients ib).map fun c => (email c, getString c "method"))

/-- The method of a Shadowsocks client of the template is lost. -/
theorem template_method_lost :
    methodsOf cipherEnv.template = .ok [[("a", "m")]] ∧
      ((Machine.started none).run cipherEnv ⟨.syncUsers [] true, noFaults⟩).2 = none ∧
      methodsOf ((Machine.started none).run cipherEnv ⟨.syncUsers [] true, noFaults⟩).1.file = .ok [[("a", "")]] := by
  decide +kernel

/-! The orphan circuit breaker. It is asked after the config has been generated and the running process updated,
so a sync that it aborts has changed the config, unless that was the generated one already. -/

/-- More live users than the threshold allows are outside the snapshot. -/
def TooManyOrphans (env : AdapterEnv) (fails : Faults) (file : Option Raw) (users : List VPNUserConfig) : Prop :=
  orphanThreshold (liveEmails env fails file).length <
    (orphansOf (liveEmails env fails file) (desiredEmails users)).length

/-- The sync is skipped, or the breaker lets it pass. -/
def Quiet (env : AdapterEnv) (fails : Faults) (m : Machine) (users : List VPNUserConfig) : Prop :=
  Skips env fails m users ∨ ¬ TooManyOrphans env fails m.file users

variable {live desired : List String} {r l t : Nat}

theorem orphanStage_trips (fails : Faults) (m : Machine) (old : RawMap)
    (hma : orphanThreshold live.length < (orphansOf live desired).length) :
    orphanStage fails true m old live desired =
      (m, .error (thresholdExceeded (orphansOf live desired).length live.length (orphanThreshold live.length))) := by
  have hso : orphansOf live desired ≠ [] := fun h => by simp [h] at hma
  rw [orphanStage, if_pos rfl, removeOrphanUsers, if_neg hso, if_pos hma]

theorem of_orphanStage_threshold {old : RawMap} {m' : Machine}
    (h : orphanStage fails true m old live desired = (m', .error (thresholdExceeded r l t))) :
    orphanThreshold live.length < (orphansOf live desired).length := by
  rw [orphanStage, if_pos rfl] at h
  unfold removeOrphanUsers at h
  dsimp only at h
  split_ifs at h with hn hma
  · simp at h
  · exact hma
  split at h
  · simp [thresholdExceeded] at h
  · split_ifs at h <;> simp at h

/-- What the sync reads on its way to the breaker can be read, and the config can be generated and written. -/
structure Legible (env : AdapterEnv) (fails : Faults) (file : Option Raw) (users : List VPNUserConfig) : Prop where
  generated : ∃ raw, regenerateConfig env fails file users = .ok raw
  completes : Completes env fails file users false

/-- A sync that gets there with too many orphans is aborted with the config written. -/
theorem syncSnapshot_trips (hpa : env.templatePath ≠ "") (hleg : Legible env fails m.file users)
    (hqu : ¬ Quiet env fails m users) :
    ∃ raw m' r l t, regenerateConfig env fails m.file users = .ok raw ∧ m'.file = some raw ∧
      m.syncSnapshot env fails users true = (m', .error (thresholdExceeded r l t)) := by
  obtain ⟨hnot, hma⟩ := not_or.1 hqu
  rw [skips_iff] at hnot
  obtain ⟨raw, hraw⟩ := hleg.generated
  have hhe := hotStep_healDirty m fails
  generalize hwri : { m.healDirty fails with file := some raw } = m1
  have hf : m1.file = some raw := hwri ▸ rfl
  obtain ⟨desired, adds, removals, _, _, hdes, hpl, -⟩ := applyDesired_of_completes hleg.completes hraw hf
  have hst := orphanStage_trips fails (m1.hotUpdate fails adds removals).1 (readOrNil (fails .readOld) m.file)
    (not_not.1 hma)
  refine ⟨raw, (m1.hotUpdate fails adds removals).1,
    (orphansOf (liveEmails env fails m.file) (desiredEmails users)).length, (liveEmails env fails m.file).length,
    orphanThreshold (liveEmails env fails m.file).length, hraw, hotStep_hotUpdate.file.trans hf, ?_⟩
  unfold syncSnapshot
  rw [if_neg hnot, writeDesired, if_pos hpa, hhe.file, hraw]
  dsimp only
  rw [hwri, applyDesired, if_neg (by simp [hleg.completes.readDesired]), hf, hdes]
  dsimp only
  rw [hpl]
  dsimp only
  rw [hst]

theorem not_quiet_of_threshold (hpa : env.templatePath ≠ "")
    (h : (m.syncSnapshot env fails users true).2 = .error (thresholdExceeded r l t)) : ¬ Quiet env fails m users := by
  rintro (hsk | hfew)
  · rw [syncSnapshot, if_pos (skips_iff.1 hsk)] at h
    cases h
  rcases syncSnapshot_cases hpa with ⟨heq, -⟩ | ⟨_, _, heq⟩ | ⟨raw, hraw, heq⟩ <;> rw [heq] at h
  · cases h
  · simp [thresholdExceeded] at h
  rcases applyDesired_cases with ⟨_, _, hend⟩ | ⟨_, _, _, -, -, -, m2, -, ⟨e, hst, hend⟩ | ⟨_, -, hend⟩⟩ <;> rw [hend] at h
  · simp [thresholdExceeded] at h
  · rw [Except.error.inj h] at hst
    exact hfew (of_orphanStage_threshold hst)
  · cases h

/-- In the config that is generated for emails without spaces around them nobody is an orphan. -/
theorem orphans_generated (htri : ∀ u ∈ users, trimSpace u.email = u.email)
    (hraw : regenerateConfig env fails m.file users = .ok raw) (hf : m.file = some raw) :
    ¬ TooManyOrphans env fails m.file users := by
  have hno : orphansOf (liveEmails env fails m.file) (desiredEmails users) = [] := by
    refine filter_eq_nil_iff.2 fun e he => ?_
    obtain ⟨-, hne, t, hmem⟩ := mem_liveEmails.1 he
    obtain ⟨_, ib, -, -, -, c, hc, hem⟩ := (mem_generated hraw (p := (t, e))).1 ⟨hf ▸ hmem, hne⟩
    obtain ⟨-, u, hu, huem, heq⟩ := mem_generatedClients hc
    rw [htri u hu, hem] at heq
    simp only [decide_not, Bool.not_eq_true', decide_eq_false_iff_not, not_not]
    exact mem_filter.2 ⟨mem_map.2 ⟨u, hu, heq⟩, by simpa using hne⟩
  rw [TooManyOrphans, hno]
  exact Nat.not_lt_zero _

/-- The process has the same clients in every inbound. -/
def SameClientSets (rt rt' : Runtime) : Prop := ∀ t c, c ∈ rt t ↔ c ∈ rt' t

/-- If the breaker aborts the call, config and process are as before. -/
def Protects (env : AdapterEnv) (m : Machine) (step : AdapterStep) : Prop :=
  ∀ r l t, (m.run env step).2 = some (thresholdExceeded r l t) →
    (m.run env step).1.file = m.file ∧ SameClientSets (m.run env step).1.runtime m.runtime

section

variable {step : AdapterStep} {m' : Machine} (hpa : env.templatePath ≠ "") (hf : m'.file = m.file)
  (hst : (m.run env step).1 = (m'.syncSnapshot env fails users true).1)
  (her : ∀ e, (m.run env step).2 = some e ↔ (m'.syncSnapshot env fails users true).2 = .error e)
include hpa her

theorem protects_of_quiet (hqu : Quiet env fails m' users) : Protects env m step := fun _ _ _ h =>
  absurd hqu (not_quiet_of_threshold hpa ((her _).1 h))

include hst hf

theorem quiet_of_protects (hleg : Legible env fails m.file users) (htri : ∀ u ∈ users, trimSpace u.email = u.email)
    (hpro : Protects env m step) : Quiet env fails m' users := by
  by_contra hqu
  obtain ⟨raw, m2, r, l, t, hraw, hfile, heq⟩ := syncSnapshot_trips hpa (hf.symm ▸ hleg) hqu
  obtain ⟨hsa, -⟩ := hpro r l t ((her _).2 (by rw [heq]))
  rw [hst, heq, hfile] at hsa
  exact hqu (.inr (orphans_generated htri hraw (hf.trans hsa.symm)))

end

/-- A call that is skipped or has few orphans protects config and process. If all it reads is legible and the emails
have no spaces around them, it protects them only then. -/
theorem breaker_protects_iff (env : AdapterEnv) (hpath : env.templatePath ≠ "") (fails : Faults) (m : Machine)
    (users : List VPNUserConfig) :
    (∀ snapshot, withTemplateUsers env users = .ok snapshot →
      (Quiet env fails m snapshot → Protects env m ⟨.syncUsers users true, fails⟩) ∧
      (Legible env fails m.file snapshot → (∀ u ∈ snapshot, trimSpace u.email = u.email) →
        Protects env m ⟨.syncUsers users true, fails⟩ → Quiet env fails m snapshot)) ∧
    (Quiet env fails (m.invalidateHash fails) users → Protects env m ⟨.reconcileUsers users, fails⟩) ∧
    (Legible env fails m.file users → (∀ u ∈ users, trimSpace u.email = u.email) →
      Protects env m ⟨.reconcileUsers users, fails⟩ → Quiet env fails (m.invalidateHash fails) users) := by
  have her (e : Failure) : (m.run env ⟨.reconcileUsers users, fails⟩).2 = some e ↔
      ((m.invalidateHash fails).syncSnapshot env fails users true).2 = .error e := by
    simp only [Machine.run, reconcileUsers]
    rcases ((m.invalidateHash fails).syncSnapshot env fails users true).2 with e' | result <;> simp
  refine ⟨fun snapshot hsna => ?_, protects_of_quiet hpath her, quiet_of_protects hpath rfl rfl her⟩
  obtain ⟨hst, her'⟩ := run_syncUsers (m := m) fails true hsna
  exact ⟨protects_of_quiet hpath her', quiet_of_protects hpath rfl hst her'⟩

/-! Eleven live users, and a snapshot with another one. -/

def elevenClients : Option Raw :=
  vlessConfig (elevenUsers.map fun u => .obj [("email", .str u.email), ("id", .str u.uuid)])

/-- A snapshot that keeps all live users does not trip the breaker. -/
theorem breaker_protects_iff_same_users :
    Protects vlessEnv (Machine.started elevenClients) ⟨.reconcileUsers elevenUsers, noFaults⟩ := by
  refine (breaker_protects_iff vlessEnv (by decide) noFaults _ elevenUsers).2.1 (.inr ?_)
  unfold TooManyOrphans
  decide +kernel

/-- The breaker trips, but by then the config has lost the eleven users and the process has gained the new one. -/
theorem breaker_trips_after_change :
    ∃ r l t, ((Machine.started elevenClients).run vlessEnv ⟨.syncUsers [otherUser] true, noFaults⟩).2 =
        some (thresholdExceeded r l t) ∧
      ((Machine.started elevenClients).run vlessEnv ⟨.syncUsers [otherUser] true, noFaults⟩).1.file ≠
        (Machine.started elevenClients).file ∧
      ¬ SameClientSets ((Machine.started elevenClients).run vlessEnv ⟨.syncUsers [otherUser] true, noFaults⟩).1.runtime
        (Machine.started elevenClients).runtime := by
  refine ⟨11, 11, 10, by decide +kernel, by decide +kernel, fun h => ?_⟩
  have hz := h "in" (runtimeForm (some [("email", .str "z"), ("id", .str "id-z")]))
  revert hz
  decide +kernel

end Xraytool.Xray
