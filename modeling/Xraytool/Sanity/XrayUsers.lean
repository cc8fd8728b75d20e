import Xraytool.Spec.XrayAdapter

/-! Reading back what was written to a raw config: the clients of an inbound after `SetClients`, the inbounds
after `SetInbounds`, and what a write leaves alone. -/

namespace Xraytool.Xray

open Fallible List Assoc RawMap

variable {m ib ib' : RawMap} {key key' : String} {value : Raw} {cfg cfg' : RawMap}

theorem RawMap.get_set_of_ne (h : key' ≠ key) : (m.set key value).get key' = m.get key' := by
  cases m with
  | none => rfl
  | some fields => simp [set, get, lookup_put, h]

theorem RawMap.get_set_self (hm : m ≠ none) : (m.set key value).get key = some value := by
  cases m with
  | none => exact absurd rfl hm
  | some fields => simp [set, get, lookup_put]

theorem unmarshal_marshalMap : unmarshalMap (marshalMap m) = .ok m := by
  cases m <;> rfl

theorem unmarshal_marshalMaps {maps : List RawMap} : unmarshalMaps (marshalMaps maps) = .ok (some maps) := by
  have hit : (maps.map marshalMap).mapM unmarshalMap = .ok maps := by
    rw [mapM_eq_ok, forall₂_map_left_iff, forall₂_same]
    exact fun m _ => unmarshal_marshalMap
  rw [marshalMaps, unmarshalMaps, hit]
  rfl

theorem getInbounds_setInbounds {ibs : List RawMap}
    (h : setInbounds cfg ibs = .ok cfg') : getInbounds cfg' = .ok ibs := by
  unfold setInbounds at h
  split_ifs at h with hnil
  cases h
  rw [getInbounds, get_set_self hnil]
  simp only [unmarshal_marshalMaps]
  rfl

theorem setInbounds_setInbounds {ibs ibs' : List RawMap}
    (h : setInbounds cfg ibs = .ok cfg') : setInbounds cfg' ibs' = setInbounds cfg ibs' := by
  cases cfg with
  | none => cases h
  | some fields =>
    cases h
    simp [setInbounds, RawMap.set, put_put]

theorem listKey_put {settings : List (String × Raw)} (h : listKey settings = some key) :
    listKey (put settings key value) = some key := by
  have hhas (k : String) : has (put settings key value) k = (k == key || has settings k) := by
    rw [has, lookup_put]
    split_ifs with hk <;> simp [hk, has]
  unfold listKey at h ⊢
  simp only [find?_cons, find?_nil, hhas] at h ⊢
  cases hc : has settings "clients" with
  | true =>
    rw [hc] at h
    simp at h ⊢
    exact h
  | false =>
    rw [hc] at h
    cases hu : has settings "users" with
    | true =>
      rw [hu] at h
      obtain rfl : "users" = key := by simpa using h
      simp
    | false => simp [hu] at h

theorem settings_of_hasClientList (h : hasClientList ib = true) :
    ib ≠ none ∧ ∃ settings key, parseSettings ib = .ok settings ∧ listKey settings = some key := by
  rw [hasClientList, clientsKey] at h
  cases hs : parseSettings ib with
  | error e => simp [hs] at h
  | ok settings =>
    cases hk : listKey settings with
    | none => simp [hs, hk] at h
    | some key =>
      refine ⟨?_, settings, key, rfl, hk⟩
      rintro rfl
      obtain rfl : [] = settings := by simpa [parseSettings, RawMap.get] using hs
      simp [listKey, has] at hk

variable {cs : List RawMap} {params : ClientParams} {ext : Externals} {built : RawMap}

theorem hasClientList_of_getClients (h : getClients ib = .ok (some cs)) : hasClientList ib = true := by
  rw [getClients, bind_eq_ok] at h
  obtain ⟨settings, hs, h⟩ := h
  cases hk : listKey settings with
  | none => simp [hk] at h
  | some key =>
    have hmem : key ∈ ["clients", "users"] := mem_of_find?_eq_some hk
    have hne : key ≠ "" := by
      rintro rfl
      simp at hmem
    simp [hasClientList, clientsKey, hs, hk, hne]

theorem settings_of_getClients (h : getClients ib = .ok (some cs)) :
    ib ≠ none ∧ ∃ settings key, parseSettings ib = .ok settings ∧ listKey settings = some key :=
  settings_of_hasClientList (hasClientList_of_getClients h)

variable {new : List RawMap} {c c' : RawMap} {k : String}

/-- `SetClients` on an inbound that has a list, be it `null`, writes the list and nothing else. -/
theorem setClients_eq (h : hasClientList ib = true) :
    ∃ settings key, parseSettings ib = .ok settings ∧ listKey settings = some key ∧ ∀ new,
      setClients ib new = .ok (ib.set "settings" (.obj (put settings key (marshalMaps (new.map cleanLegacy))))) ∧
      parseSettings (ib.set "settings" (.obj (put settings key (marshalMaps (new.map cleanLegacy))))) =
        .ok (put settings key (marshalMaps (new.map cleanLegacy))) := by
  obtain ⟨hne, settings, key, hs, hk⟩ := settings_of_hasClientList h
  refine ⟨settings, key, hs, hk, fun new => ⟨?_, ?_⟩⟩
  · rw [setClients, hs, ok_bind, hk, Option.getD_some]
  · rw [parseSettings, get_set_self hne]
    rfl

section

variable (h : hasClientList ib = true) (hset : setClients ib new = .ok ib')
include h hset

/-- The list is read back without legacy fields, and no other key of the inbound changes. -/
theorem setClients_of_hasClientList :
    getClients ib' = .ok (some (new.map cleanLegacy)) ∧ (∀ k ≠ "settings", ib'.get k = ib.get k) ∧
      ∃ settings, parseSettings ib' = .ok settings := by
  obtain ⟨settings, key, -, hk, hnew⟩ := setClients_eq h
  obtain ⟨heq, hpa⟩ := hnew new
  obtain rfl := ok_unique hset heq
  refine ⟨?_, fun k hkey => get_set_of_ne hkey, _, hpa⟩
  rw [getClients, hpa]
  simp only [bind, Except.bind, listKey_put hk, lookup_put, if_true, Option.getD_some, unmarshal_marshalMaps]
  rfl

theorem setClients_setClients {new' : List RawMap} : setClients ib' new' = setClients ib new' := by
  obtain ⟨settings, key, -, hk, hnew⟩ := setClients_eq h
  obtain rfl := ok_unique hset (hnew new).1
  rw [(hnew new').1, setClients, (hnew new).2, ok_bind, listKey_put hk]
  cases ib <;> simp [RawMap.set, put_put]

end

theorem setClients_spec (h : getClients ib = .ok (some cs)) (hset : setClients ib new = .ok ib') :
    getClients ib' = .ok (some (new.map cleanLegacy)) ∧ (∀ k ≠ "settings", ib'.get k = ib.get k) ∧
      ∃ settings, parseSettings ib' = .ok settings :=
  setClients_of_hasClientList (hasClientList_of_getClients h) hset

theorem get_cleanLegacy : (cleanLegacy c).get k = if k = "hy2_obfs" ∨ k = "hy2_auth" then none else c.get k := by
  have hc : (c.getD []).lookup k = c.get k := by cases c <;> rfl
  rw [cleanLegacy, RawMap.get, Option.bind_some, lookup_drop, lookup_drop, hc]
  split_ifs <;> simp_all

theorem getString_congr (h : c.get key = c'.get key) : getString c key = getString c' key := by
  rw [getString, getString, h]

theorem email_congr (hadd : c.get "email" = c'.get "email") (hna : c.get "name" = c'.get "name") :
    email c = email c' := by
  rw [email, email, getString_congr hadd, getString_congr hna]

@[simp] theorem email_cleanLegacy (c : RawMap) : email (cleanLegacy c) = email c :=
  email_congr (by simp [get_cleanLegacy]) (by simp [get_cleanLegacy])

theorem lookup_metadataFields (h : k ∉ ["email", "subfile", "expire", "limit"]) :
    (metadataFields params).lookup k = none := by
  simp only [mem_cons, not_mem_nil, or_false, not_or] at h
  obtain ⟨h1, h2, h3, h4⟩ := h
  unfold metadataFields
  cases params.limit <;> split_ifs <;> simp [Assoc.lookup_put, Assoc.lookup_cons, h1, h2, h3, h4]

theorem lookup_metadataFields_email : (metadataFields params).lookup "email" = some (.str params.email) := by
  unfold metadataFields
  cases params.limit <;> split_ifs <;> simp [lookup_put]

def passwordOf (uuid auth : String) : String := if auth = "" then uuid else auth

def hysteriaSecret (ext : Externals) (email uuid auth : String) : String :=
  if auth = "" ∨ ext.isUUID auth then buildDeterministicHy2Pass ext uuid email else auth

def secretAt (ext : Externals) (protocol email uuid auth : String) : String :=
  if protocol ∈ ["trojan", "shadowsocks"] then passwordOf uuid auth
  else if protocol ∈ ["hysteria", "hysteria2", "hy2"] then hysteriaSecret ext email uuid auth
  else uuid

def secretKey (protocol : String) : String :=
  if protocol ∈ ["trojan", "shadowsocks"] then "password"
  else if protocol ∈ ["hysteria", "hysteria2", "hy2"] then "auth"
  else "id"

/-- A client can be built: the protocol is known, and the secret is not empty where it is not a derived one. -/
def Buildable (protocol secret : String) : Prop :=
  protocol ∈ ["hysteria", "hysteria2", "hy2"] ∨
    protocol ∈ ["vless", "xhttp", "splithttp", "vmess", "trojan", "shadowsocks"] ∧ secret ≠ ""

instance (protocol secret : String) : Decidable (Buildable protocol secret) :=
  inferInstanceAs (Decidable (_ ∨ _ ∧ _))

section

variable {protocol flow : String} {fields : List (String × Raw)}

theorem requireUUID_eq_ok {rest : List (String × Raw)} :
    requireUUID protocol params rest = .ok fields ↔ params.uuid ≠ "" ∧ fields = ("id", .str params.uuid) :: rest := by
  unfold requireUUID
  split_ifs with h <;> simp [h, eq_comm]

/-- A protocol adds the secret to the metadata, and VLESS the flow. -/
theorem credentials_eq_ok : credentials ext protocol flow params = .ok fields ↔
    Buildable protocol (secretAt ext protocol params.email params.uuid params.auth) ∧
      fields = (secretKey protocol, .str (secretAt ext protocol params.email params.uuid params.auth)) ::
        if protocol = "vless" ∧ flow ≠ "" then [("flow", .str flow)] else [] := by
  by_cases hid : protocol ∈ ["vless", "xhttp", "splithttp", "vmess"]
  · simp only [mem_cons, not_mem_nil, or_false] at hid
    rcases hid with rfl | rfl | rfl | rfl <;> simp [credentials, requireUUID_eq_ok, Buildable, secretAt, secretKey]
  rw [mem_cons, not_or] at hid
  have hnv : ¬ (protocol = "vless" ∧ flow ≠ "") := fun h => hid.1 h.1
  rw [credentials, if_neg hid.1, if_neg hid.2, if_neg hnv, secretAt, secretKey]
  by_cases hpas : protocol ∈ ["trojan", "shadowsocks"]
  · simp only [if_pos hpas]
    rw [← passwordOf]
    generalize passwordOf params.uuid params.auth = secret
    simp only [mem_cons, not_mem_nil, or_false] at hpas
    rcases hpas with rfl | rfl <;> split_ifs with hem <;> simp [Buildable, hem, eq_comm (a := fields)]
  simp only [if_neg hpas]
  by_cases hhys : protocol ∈ ["hysteria", "hysteria2", "hy2"]
  · simp only [if_pos hhys, Except.ok.injEq]
    exact eq_comm.trans (and_iff_right (.inl hhys)).symm
  · simp_all [Buildable]

theorem lookup_credentials (h : credentials ext protocol flow params = .ok fields) : fields.lookup k =
    if k = secretKey protocol then some (.str (secretAt ext protocol params.email params.uuid params.auth))
    else if k = "flow" ∧ protocol = "vless" ∧ flow ≠ "" then some (.str flow) else none := by
  rw [(credentials_eq_ok.1 h).2, Assoc.lookup_cons]
  refine if_congr Iff.rfl rfl ?_
  split_ifs with hvl hfl hfl
  · rw [Assoc.lookup_cons, if_pos hfl.1]
  · rw [Assoc.lookup_cons, if_neg fun hk => hfl ⟨hk, hvl⟩]
    rfl
  · exact absurd hfl.2 hvl
  · rfl

theorem exists_built : (∃ built, buildClient ext ib params = .ok built) ↔
    Buildable (Xray.protocol ib) (secretAt ext (Xray.protocol ib) params.email params.uuid params.auth) := by
  simp only [buildClient, map_eq_ok, credentials_eq_ok]
  exact ⟨fun ⟨_, _, h, _⟩ => h.1, fun h => ⟨_, _, ⟨h, rfl⟩, rfl⟩⟩

theorem secretKey_mem : secretKey protocol ∈ ["id", "password", "auth"] := by
  unfold secretKey
  split_ifs <;> decide

theorem secretKey_notMem : secretKey protocol ∉ ["email", "subfile", "expire", "limit"] := by
  unfold secretKey
  split_ifs <;> decide

end

section

variable (h : buildClient ext ib params = .ok built)
include h

/-- Beside the metadata a built client has the secret of its protocol, and a flow if that is VLESS. -/
theorem get_built (hk : k ∉ ["email", "subfile", "expire", "limit"]) : built.get k =
    if k = secretKey (protocol ib) then some (.str (secretAt ext (protocol ib) params.email params.uuid params.auth))
    else if k = "flow" ∧ protocol ib = "vless" ∧ vlessFlow ib params ≠ "" then some (.str (vlessFlow ib params))
    else none := by
  rw [buildClient, map_eq_ok] at h
  obtain ⟨fields, hfie, rfl⟩ := h
  rw [RawMap.get, Option.bind_some, Assoc.lookup_append, lookup_metadataFields hk, Option.none_or,
    lookup_credentials hfie]

theorem get_built_metadata (hk : k ∈ ["email", "subfile", "expire", "limit"]) :
    built.get k = (metadataFields params).lookup k := by
  have hke : k ∉ ["id", "password", "auth"] ∧ k ≠ "flow" := by
    revert k
    decide
  have hsec : k ≠ secretKey (protocol ib) := fun heq => hke.1 (heq ▸ secretKey_mem)
  rw [buildClient, map_eq_ok] at h
  obtain ⟨fields, hfie, rfl⟩ := h
  rw [RawMap.get, Option.bind_some, Assoc.lookup_append, lookup_credentials hfie, if_neg hsec,
    if_neg (mt And.left hke.2), Option.or_none]

/-- It has neither a name nor a legacy field. -/
theorem get_built_none (hk : k ∈ ["name", "hy2_auth", "hy2_obfs"]) : built.get k = none := by
  have hke : k ∉ ["email", "subfile", "expire", "limit"] ∧ k ≠ "flow" ∧ k ∉ ["id", "password", "auth"] := by
    revert k
    decide
  have hsec : k ≠ secretKey (protocol ib) := fun heq => hke.2.2 (heq ▸ secretKey_mem)
  rw [get_built h hke.1, if_neg hsec, if_neg (mt And.left hke.2.1)]

theorem email_built : email built = trimSpace params.email := by
  rw [email, getString, getString, get_built_metadata h (by decide), lookup_metadataFields_email,
    get_built_none h (by decide)]
  split_ifs with he
  · rfl
  · exact (not_not.1 he).symm

theorem cleanLegacy_built : (cleanLegacy built).Same built := by
  intro k
  rw [get_cleanLegacy]
  split_ifs with hk
  · rcases hk with rfl | rfl <;> exact (get_built_none h (by decide)).symm
  · rfl

end

/-- Of the settings, a client depends only on whether they can be read. -/
theorem buildClient_congr (ext : Externals) (params : ClientParams) (hke : ∀ k ≠ "settings", ib'.get k = ib.get k)
    {s s' : List (String × Raw)} (hs : parseSettings ib = .ok s) (hs' : parseSettings ib' = .ok s') :
    buildClient ext ib' params = buildClient ext ib params := by
  have hpro : protocol ib' = protocol ib := by
    rw [protocol, protocol, rawString, rawString, hke _ (by decide)]
  have hstr : streamSettings ib' = streamSettings ib := by
    rw [streamSettings, streamSettings, hke _ (by decide)]
  have hht : isHTTPTransport ib' = isHTTPTransport ib := by rw [isHTTPTransport, isHTTPTransport, hstr]
  have hxt : hasXTLS ib' = hasXTLS ib := by
    rw [hasXTLS, hasXTLS, hstr, hs, hs']
    cases streamSettings ib <;> rfl
  have hfl : vlessFlow ib' params = vlessFlow ib params := by rw [vlessFlow, vlessFlow, hht, hxt]
  rw [buildClient, buildClient, hpro, hfl]

/-! What the changes of `users.go` make of each inbound, and the pairs of inbound tag and email that a config
and the running process hold. -/

variable {ibs clients : List RawMap} {pay : List TaggedClient} {file : Option Raw} {ioFails : Bool} {raw : Raw}
  {byTag : List (String × RawMap)} {emails : List String} {tagged : TaggedClient}

theorem readClients_of_some (h : getClients ib = .ok (some clients)) : readClients ib = clients := by
  rw [readClients, h]

theorem readClients_of_none (h : getClients ib = .ok none) : readClients ib = [] := by
  rw [readClients, h]

theorem tag_congr (h : ib'.get "tag" = ib.get "tag") : tag ib' = tag ib := by
  rw [tag, tag, rawString, rawString, h]

theorem protocol_congr (h : ib'.get "protocol" = ib.get "protocol") : protocol ib' = protocol ib := by
  rw [protocol, protocol, rawString, rawString, h]

theorem inboundsOf_eq_ok : inboundsOf file = .ok ibs ↔
    ∃ cfg, readConfig file = .ok cfg ∧ getInbounds cfg = .ok ibs := by
  cases file with
  | none => simp [inboundsOf, readConfig]
  | some raw => rw [inboundsOf, readConfig, bind_eq_ok]

theorem inboundsOf_marshalMap : inboundsOf (some (marshalMap cfg)) = getInbounds cfg := by
  rw [inboundsOf, unmarshal_marshalMap]
  rfl

theorem readOrNil_of_ok {fails : Bool} (h : readConfig file = .ok cfg) :
    readOrNil fails file = if fails then none else cfg := by
  rw [readOrNil, h]

theorem modifyWith_eq_ok {α : Type} {change : RawMap → Except Failure (RawMap × α)} {out : α} :
    modifyWith ioFails file change = .ok (raw, out) ↔
      ioFails = false ∧ ∃ cfg cfg', readConfig file = .ok cfg ∧ change cfg = .ok (cfg', out) ∧ raw = marshalMap cfg' := by
  cases file with
  | none => simp [modifyWith, readConfig]
  | some old =>
    simp only [modifyWith, readConfig, bind_eq_ok, Prod.exists]
    constructor
    · rintro ⟨cfg, hcfg, cfg', out', hcha, h⟩
      split at h
      · contradiction
      rename_i hio
      cases h
      exact ⟨by simpa using hio, cfg, cfg', hcfg, hcha, rfl⟩
    · rintro ⟨rfl, cfg, cfg', hcfg, hcha, rfl⟩
      exact ⟨cfg, hcfg, cfg', out, hcha, rfl⟩

/-- The inbounds have tags, no two the same. -/
def DistinctTags (file : Option Raw) : Prop :=
  ∃ inbounds, inboundsOf file = .ok inbounds ∧ (inbounds.map tag).Nodup ∧ "" ∉ inbounds.map tag

/-- The inbound has other clients and is the same otherwise. -/
structure WithClients (clients : List RawMap) (ib ib' : RawMap) : Prop where
  keys : ∀ k ≠ "settings", ib'.get k = ib.get k
  clients : readClients ib' = clients

namespace WithClients

variable {clients : List RawMap}

theorem tag_eq (h : WithClients clients ib ib') : tag ib' = tag ib := tag_congr (h.keys _ (by decide))

theorem setClients {new : List RawMap} (hli : hasClientList ib = true) (hset : setClients ib new = .ok ib') :
    WithClients (new.map cleanLegacy) ib ib' := by
  obtain ⟨hr, hke, -⟩ := setClients_of_hasClientList hli hset
  exact ⟨hke, readClients_of_some hr⟩

end WithClients

theorem replaceClient_of_absent {clients : List RawMap} {new : RawMap} (h : ∀ c ∈ clients, email c ≠ email new) :
    replaceClient clients new = clients ++ [new] := by
  rw [replaceClient, filter_eq_self.2 fun c hc => decide_eq_true (.inr (h c hc))]

theorem addToInbound_withClients (h : addToInbound byTag ib = .ok ib') :
    (ib' = ib ∧ (byTag.lookup (tag ib) = none ∨ getClients ib = .ok none)) ∨
      ∃ new, byTag.lookup (tag ib) = some new ∧ getClients ib = .ok (some (readClients ib)) ∧
        WithClients ((replaceClient (readClients ib) new).map cleanLegacy) ib ib' := by
  rw [addToInbound] at h
  cases hnew : byTag.lookup (tag ib) with
  | none =>
    rw [hnew] at h
    exact .inl ⟨(Except.ok.inj h).symm, .inl rfl⟩
  | some new =>
    rw [hnew] at h
    obtain ⟨clients, hcli, h⟩ := bind_eq_ok.1 h
    rw [mapError_eq_ok] at hcli
    cases clients with
    | none => exact .inl ⟨(Except.ok.inj h).symm, .inr hcli⟩
    | some clients =>
      refine .inr ⟨new, rfl, ?_, ?_⟩
      · rw [readClients_of_some hcli, hcli]
      · rw [readClients_of_some hcli]
        exact WithClients.setClients (hasClientList_of_getClients hcli) (mapError_eq_ok.1 h)

theorem addToInbound_tag (h : addToInbound byTag ib = .ok ib') : tag ib' = tag ib := by
  rcases addToInbound_withClients h with ⟨rfl, -⟩ | ⟨_, -, -, hwi⟩
  · rfl
  · exact hwi.tag_eq

theorem removeAllFromInbound_withClients (h : removeAllFromInbound emails ib = .ok ib') :
    ib' = ib ∧ readClients ib = [] ∨
      WithClients (((readClients ib).filter (email · ∉ emails)).map cleanLegacy) ib ib' := by
  obtain ⟨clients, hcli, h⟩ := bind_eq_ok.1 h
  cases clients with
  | none => exact .inl ⟨(Except.ok.inj h).symm, readClients_of_none hcli⟩
  | some clients =>
    rw [readClients_of_some hcli]
    exact .inr (WithClients.setClients (hasClientList_of_getClients hcli) h)

theorem removeFromInbound_eq {addr : String} : removeFromInbound addr = removeAllFromInbound [addr] := by
  have hfil (clients : List RawMap) : clients.filter (email · ≠ addr) = clients.filter (email · ∉ [addr]) :=
    filter_congr fun c _ => by simp only [mem_singleton]
  funext ib
  unfold removeFromInbound removeAllFromInbound
  cases getClients ib with
  | error e => rfl
  | ok clients =>
    cases clients with
    | none => rfl
    | some clients => exact congrArg (setClients ib) (hfil clients)

theorem removeUserFromAllInbounds_eq {addr : String} :
    removeUserFromAllInbounds cfg addr = removeUsersFromAllInbounds cfg [addr] := by
  rw [removeUserFromAllInbounds, removeUsersFromAllInbounds, removeFromInbound_eq]

theorem buildForAllInbounds_cons_eq_ok : buildForAllInbounds ext params (ib :: ibs) = .ok pay ↔
    ((hasClientList ib = false ∨ tag ib = "") ∧ buildForAllInbounds ext params ibs = .ok pay) ∨
      (hasClientList ib = true ∧ tag ib ≠ "") ∧ ∃ built rest, buildClient ext ib params = .ok built ∧
        buildForAllInbounds ext params ibs = .ok rest ∧ pay = ⟨tag ib, built⟩ :: rest := by
  rw [buildForAllInbounds]
  by_cases hsk : hasClientList ib = false ∨ tag ib = ""
  · have hnot : ¬ (hasClientList ib = true ∧ tag ib ≠ "") := by
      rintro ⟨hl, ht⟩
      rcases hsk with h | h
      · simp [hl] at h
      · exact ht h
    simp [hsk, hnot]
  · have hc : ¬ (!hasClientList ib || decide (tag ib = "")) = true := by simpa using hsk
    rw [if_neg hc]
    push Not at hsk
    simp only [bind_eq_ok, mapError_eq_ok, Except.ok.injEq]
    constructor
    · rintro ⟨built, hb, rest, hr, rfl⟩
      exact .inr ⟨⟨by simpa using hsk.1, hsk.2⟩, built, rest, hb, hr, rfl⟩
    rintro (⟨h | h, -⟩ | ⟨-, built, rest, hb, hr, rfl⟩)
    · exact absurd h hsk.1
    · exact absurd h hsk.2
    · exact ⟨built, hb, rest, hr, rfl⟩

section

variable (h : buildForAllInbounds ext params ibs = .ok pay)
include h

theorem tags_payload : (pay.map TaggedClient.tag).Sublist (ibs.map tag) := by
  induction ibs generalizing pay with
  | nil =>
    cases h
    exact Sublist.refl _
  | cons ib ibs ih =>
    rcases buildForAllInbounds_cons_eq_ok.1 h with ⟨-, hre⟩ | ⟨-, built, rest, -, hre, rfl⟩
    · exact (ih hre).cons _
    · exact (ih hre).cons_cons _

theorem mem_payload (hmem : ib ∈ ibs) (hli : hasClientList ib = true) (htag : tag ib ≠ "") :
    ∃ built, buildClient ext ib params = .ok built ∧ ⟨tag ib, built⟩ ∈ pay := by
  induction ibs generalizing pay with
  | nil => simp at hmem
  | cons first ibs ih =>
    rcases mem_cons.1 hmem with rfl | hmem
    · rcases buildForAllInbounds_cons_eq_ok.1 h with ⟨h | h, -⟩ | ⟨-, built, rest, hb, -, rfl⟩
      · simp [hli] at h
      · exact absurd h htag
      · exact ⟨built, hb, mem_cons_self⟩
    · rcases buildForAllInbounds_cons_eq_ok.1 h with ⟨-, hre⟩ | ⟨-, _, rest, -, hre, rfl⟩
      · exact ih hre hmem
      · obtain ⟨built, hb, hin⟩ := ih hre hmem
        exact ⟨built, hb, mem_cons_of_mem _ hin⟩

end

variable {recorded : List (String × List String)} {missing : List TaggedClient}

section

variable {β : Type} {f : List RawMap → β} {g : List RawMap → Except Failure (List (String × β))}
  {ents : List (String × β)}

def taggedEntry (f : List RawMap → β) (ib : RawMap) : Option (String × β) :=
  match getClients ib with
  | .ok (some clients) => if tag ib = "" then none else some (tag ib, f clients)
  | _ => none

/-- A pass over the inbounds that maps tags to what `f` makes of the clients. -/
theorem taggedEntries_eq_ok (hnil : g [] = .ok []) (hco : ∀ ib rest, g (ib :: rest) = do
      let clients ← (getClients ib).mapError (.wrap ("inbound " ++ quoted (tag ib)))
      let ents ← g rest
      match clients with
      | none => .ok ents
      | some clients => if tag ib = "" then .ok ents else .ok ((tag ib, f clients) :: ents)) :
    g ibs = .ok ents ↔ (∀ ib ∈ ibs, ∃ clients, getClients ib = .ok clients) ∧ ibs.filterMap (taggedEntry f) = ents := by
  induction ibs generalizing ents with
  | nil => simp [hnil]
  | cons ib ibs ih =>
    simp only [hco, bind_eq_ok, mapError_eq_ok, forall_mem_cons, filterMap_cons, taggedEntry]
    constructor
    · rintro ⟨clients, hc, rest, hre, h⟩
      obtain ⟨hr, rfl⟩ := ih.1 hre
      refine ⟨⟨⟨clients, hc⟩, hr⟩, ?_⟩
      rw [hc]
      cases clients with
      | none => exact Except.ok.inj h
      | some clients =>
        split_ifs at h ⊢ <;> exact Except.ok.inj h
    · rintro ⟨⟨⟨clients, hc⟩, hr⟩, rfl⟩
      refine ⟨clients, hc, _, ih.2 ⟨hr, rfl⟩, ?_⟩
      rw [hc]
      cases clients with
      | none => rfl
      | some clients =>
        split_ifs <;> rfl

theorem taggedEntry_eq_some {entry : String × β} : taggedEntry f ib = some entry ↔
    ∃ clients, getClients ib = .ok (some clients) ∧ tag ib ≠ "" ∧ (tag ib, f clients) = entry := by
  unfold taggedEntry
  split
  · next clients hc =>
    simp [hc]
  · next hc =>
    exact iff_of_false nofun fun ⟨clients, hcli, _⟩ => hc clients hcli

theorem tags_entries : ((ibs.filterMap (taggedEntry f)).map Prod.fst).Sublist (ibs.map tag) := by
  induction ibs with
  | nil => exact Sublist.refl _
  | cons ib ibs ih =>
    rcases hen : taggedEntry f ib with _ | entry
    · rw [filterMap_cons_none hen]
      exact ih.cons _
    obtain ⟨clients, -, -, rfl⟩ := taggedEntry_eq_some.1 hen
    rw [filterMap_cons_some hen]
    exact ih.cons_cons _

theorem mem_entries (hmem : ib ∈ ibs) (htag : tag ib ≠ "") (hcli : getClients ib = .ok (some clients)) :
    (tag ib, f clients) ∈ ibs.filterMap (taggedEntry f) :=
  mem_filterMap.2 ⟨ib, hmem, taggedEntry_eq_some.2 ⟨clients, hcli, htag, rfl⟩⟩

end

theorem recordedEmails_eq_ok : recordedEmails ibs = .ok recorded ↔
    (∀ ib ∈ ibs, ∃ clients, getClients ib = .ok clients) ∧
      ibs.filterMap (taggedEntry fun clients => (clients.map email).filter (· ≠ "")) = recorded :=
  taggedEntries_eq_ok rfl fun _ _ => rfl

theorem tags_recorded (h : recordedEmails ibs = .ok recorded) : (recorded.map Prod.fst).Sublist (ibs.map tag) := by
  obtain ⟨-, rfl⟩ := recordedEmails_eq_ok.1 h
  exact tags_entries

/-- Every inbound could be read, and those with clients are recorded under their tags. -/
theorem mem_recorded (h : recordedEmails ibs = .ok recorded) (hmem : ib ∈ ibs) (htag : tag ib ≠ "") :
    ∃ clients, getClients ib = .ok clients ∧
      ∀ cs, clients = some cs → (tag ib, (cs.map email).filter (· ≠ "")) ∈ recorded := by
  obtain ⟨hr, rfl⟩ := recordedEmails_eq_ok.1 h
  obtain ⟨clients, hc⟩ := hr ib hmem
  exact ⟨clients, hc, fun cs hcs => mem_entries hmem htag (hcs ▸ hc)⟩

theorem isMissing_iff {byTag : List (String × List String)} (htag : tagged.tag ≠ "") (hcli : tagged.client ≠ none)
    (hema : byTag.lookup tagged.tag = some ((clients.map email).filter (· ≠ ""))) :
    isMissing byTag tagged = true ↔ email tagged.client ≠ "" ∧ ∀ c ∈ clients, email c ≠ email tagged.client := by
  rw [isMissing, hema, Option.getD_some, decide_eq_true_iff]
  constructor
  · rintro ⟨-, -, hne, hnot⟩
    refine ⟨hne, fun c hc heq => hnot (mem_filter.2 ⟨mem_map.2 ⟨c, hc, heq⟩, ?_⟩)⟩
    simpa using hne
  rintro ⟨hne, hn⟩
  refine ⟨htag, hcli, hne, fun hin => ?_⟩
  obtain ⟨c, hc, heq⟩ := mem_map.1 (mem_filter.1 hin).1
  exact hn c hc heq

theorem of_mem_payload (h : buildForAllInbounds ext params ibs = .ok pay) (hmem : tagged ∈ pay) :
    ∃ ib ∈ ibs, hasClientList ib = true ∧ tag ib = tagged.tag ∧ tagged.tag ≠ "" ∧
      buildClient ext ib params = .ok tagged.client := by
  induction ibs generalizing pay with
  | nil =>
    cases h
    simp at hmem
  | cons ib ibs ih =>
    rcases buildForAllInbounds_cons_eq_ok.1 h with ⟨-, hre⟩ | ⟨⟨hli, htag⟩, built, rest, hbu, hre, rfl⟩
    · obtain ⟨found, hfo, hsp⟩ := ih hre hmem
      exact ⟨found, mem_cons_of_mem _ hfo, hsp⟩
    rcases mem_cons.1 hmem with rfl | hmem
    · exact ⟨ib, mem_cons_self, hli, rfl, htag, hbu⟩
    · obtain ⟨found, hfo, hsp⟩ := ih hre hmem
      exact ⟨found, mem_cons_of_mem _ hfo, hsp⟩

def emailsOf (clients : List RawMap) : Set String := {e | ∃ c ∈ clients, email c = e}

/-- The pairs of a tag and an email that the inbounds list. -/
def members (inbounds : List RawMap) : Set (String × String) :=
  {p | ∃ ib ∈ inbounds, tag ib = p.1 ∧ p.2 ∈ emailsOf (readClients ib)}

def fileMembers (file : Option Raw) : Set (String × String) :=
  {p | ∃ inbounds, inboundsOf file = .ok inbounds ∧ p ∈ members inbounds}

def payloadMembers (payload : List TaggedClient) : Set (String × String) :=
  {p | ∃ tagged ∈ payload, tagged.tag = p.1 ∧ email tagged.client = p.2}

theorem fileMembers_of_ok (h : inboundsOf file = .ok ibs) : fileMembers file = members ibs := by
  ext p
  constructor
  · rintro ⟨ibs', h', hp⟩
    obtain rfl := ok_unique h h'
    exact hp
  · exact fun hp => ⟨ibs, h, hp⟩

theorem emailsOf_append {l l' : List RawMap} : emailsOf (l ++ l') = emailsOf l ∪ emailsOf l' := by
  ext e
  simp [emailsOf, or_and_right, exists_or]

theorem emailsOf_map {f : RawMap → RawMap} (hf : ∀ c, email (f c) = email c) (l : List RawMap) :
    emailsOf (l.map f) = emailsOf l := by
  simp [emailsOf, hf]

theorem emailsOf_replaceClient (l : List RawMap) (new : RawMap) :
    emailsOf (replaceClient l new) = insert (email new) (emailsOf l) := by
  ext e
  simp only [emailsOf, replaceClient, mem_append, mem_filter, mem_singleton, decide_eq_true_eq, Set.mem_ofPred_eq,
    Set.mem_insert_iff]
  constructor
  · rintro ⟨c, ⟨hc, -⟩ | rfl, rfl⟩
    · exact .inr ⟨c, hc, rfl⟩
    · exact .inl rfl
  rintro (rfl | ⟨c, hc, rfl⟩)
  · exact ⟨new, .inr rfl, rfl⟩
  by_cases he : email c = email new
  · exact ⟨new, .inr rfl, he.symm⟩
  · exact ⟨c, .inl ⟨hc, .inr he⟩, rfl⟩

theorem emailsOf_filter (l : List RawMap) (emails : List String) :
    emailsOf (l.filter (email · ∉ emails)) = {e ∈ emailsOf l | e ∉ emails} := by
  ext e
  simp only [emailsOf, mem_filter, decide_eq_true_eq, Set.mem_ofPred_eq]
  constructor
  · rintro ⟨c, ⟨hc, hnot⟩, rfl⟩
    exact ⟨⟨c, hc, rfl⟩, hnot⟩
  · rintro ⟨⟨c, hc, rfl⟩, hnot⟩
    exact ⟨c, ⟨hc, hnot⟩, rfl⟩

/-- What a loop over the inbounds does to the pairs, given the emails that a round leaves in its inbound. -/
theorem members_of_forall₂ {f : RawMap → Set String} {ibs' : List RawMap}
    (h : Forall₂ (fun ib ib' => tag ib' = tag ib ∧ emailsOf (readClients ib') = f ib) ibs ibs')
    {p : String × String} : p ∈ members ibs' ↔ ∃ ib ∈ ibs, tag ib = p.1 ∧ p.2 ∈ f ib := by
  refine exists_mem_iff_of_forall₂ (h.imp fun ib ib' hro => ?_)
  rw [hro.1, hro.2]

section

variable (hin : getInbounds cfg = .ok ibs)
include hin

theorem members_removeUsers (h : removeUsersFromAllInbounds cfg emails = .ok cfg') :
    ∃ ibs', getInbounds cfg' = .ok ibs' ∧ members ibs' = {p ∈ members ibs | p.2 ∉ emails} := by
  rw [removeUsersFromAllInbounds, hin, ok_bind, bind_eq_ok] at h
  obtain ⟨ibs', hrou, hset⟩ := h
  refine ⟨ibs', getInbounds_setInbounds hset, ?_⟩
  have hall : Forall₂ (fun ib ib' => tag ib' = tag ib ∧
      emailsOf (readClients ib') = {e ∈ emailsOf (readClients ib) | e ∉ emails}) ibs ibs' := by
    refine (mapM_eq_ok.1 hrou).imp fun ib ib' hro => ?_
    rcases removeAllFromInbound_withClients hro with ⟨rfl, hnil⟩ | hwi
    · refine ⟨rfl, ?_⟩
      simp [hnil, emailsOf]
    · refine ⟨hwi.tag_eq, ?_⟩
      rw [hwi.clients, emailsOf_map email_cleanLegacy, emailsOf_filter]
  ext p
  rw [members_of_forall₂ hall]
  constructor
  · rintro ⟨ib, hib, htag, he, hnot⟩
    exact ⟨⟨ib, hib, htag, he⟩, hnot⟩
  · rintro ⟨⟨ib, hib, htag, he⟩, hnot⟩
    exact ⟨ib, hib, htag, he, hnot⟩

theorem missingClientPayload_eq_ok (h : missingClientPayload cfg pay = .ok missing) :
    ∃ recorded, recordedEmails ibs = .ok recorded ∧ missing = pay.filter (isMissing (Assoc.ofList recorded)) := by
  rw [missingClientPayload, hin, ok_bind, bind_eq_ok] at h
  obtain ⟨recorded, hrec, h⟩ := h
  exact ⟨recorded, hrec, (Except.ok.inj h).symm⟩

/-- Whether or not something is missing, the config is what the loop of `AddUserToInbounds` makes of it. -/
theorem placeMissing_rounds (h : Machine.placeMissing cfg pay = .ok (cfg', missing)) :
    (∃ recorded, recordedEmails ibs = .ok recorded ∧ missing = pay.filter (isMissing (Assoc.ofList recorded))) ∧
    ∃ ibs', getInbounds cfg' = .ok ibs' ∧
      Forall₂ (fun ib ib' => addToInbound (taggedClientMap missing) ib = .ok ib') ibs ibs' ∧
      (cfg' = cfg ∨ setInbounds cfg ibs' = .ok cfg') := by
  rw [Machine.placeMissing, bind_eq_ok] at h
  obtain ⟨found, hfo, h⟩ := h
  have hsp := missingClientPayload_eq_ok hin (mapError_eq_ok.1 hfo)
  split at h
  · rename_i hnil
    cases h
    rw [hnil] at hsp
    exact ⟨hsp, ibs, hin, forall₂_same.2 fun ib _ => rfl, .inl rfl⟩
  · obtain ⟨placed, hpla, h⟩ := bind_eq_ok.1 h
    cases h
    rw [mapError_eq_ok, addUserToInbounds, hin, ok_bind, bind_eq_ok] at hpla
    obtain ⟨ibs', hrou, hset⟩ := hpla
    exact ⟨hsp, ibs', getInbounds_setInbounds hset, mapM_eq_ok.1 hrou, .inr hset⟩

end

theorem placeUser_eq_ok {user : VPNUserConfig} {missing : List TaggedClient}
    (h : Machine.placeUser ext user cfg = .ok (cfg', missing)) :
    ∃ ibs pay, getInbounds cfg = .ok ibs ∧
      buildForAllInbounds ext (configToParams user) ibs = .ok pay ∧ Machine.placeMissing cfg pay = .ok (cfg', missing) := by
  obtain ⟨ibs, hin, h⟩ := bind_eq_ok.1 h
  obtain ⟨pay, hpay, h⟩ := bind_eq_ok.1 h
  rw [mapError_eq_ok] at hpay
  split_ifs at h
  exact ⟨ibs, pay, hin, hpay, h⟩

/-- No client inbound has the list `null`. -/
def NoNullList (inbounds : List RawMap) : Prop := ∀ ib ∈ inbounds, hasClientList ib = true → getClients ib ≠ .ok none

theorem mem_taggedClientMap {byTag : List TaggedClient} {t : String} {c : RawMap}
    (h : (taggedClientMap byTag).lookup t = some c) : ⟨t, c⟩ ∈ byTag := by
  obtain ⟨⟨t', c'⟩, hmem, heq⟩ := mem_map.1 (Assoc.mem_of_lookup_ofList h)
  obtain ⟨rfl, rfl⟩ := Prod.mk.inj heq
  exact hmem

/-- The pairs after the clients of one user were placed: also those of the clients that were missing, unless
an inbound with the list `null` was passed over. -/
theorem members_placeMissing (hin : getInbounds cfg = .ok ibs) (hpay : buildForAllInbounds ext params ibs = .ok pay)
    (h : Machine.placeMissing cfg pay = .ok (cfg', missing)) :
    ∃ ibs', getInbounds cfg' = .ok ibs' ∧ members ibs ⊆ members ibs' ∧
      members ibs' ⊆ members ibs ∪ payloadMembers missing ∧
      (NoNullList ibs → payloadMembers missing ⊆ members ibs') := by
  obtain ⟨⟨recorded, -, hmis⟩, ibs', hin', hrou, -⟩ := placeMissing_rounds hin h
  have hro : Forall₂ (fun ib ib' => tag ib' = tag ib ∧ emailsOf (readClients ib') =
      {e | e ∈ emailsOf (readClients ib) ∨ ∃ new, (taggedClientMap missing).lookup (tag ib) = some new ∧
        getClients ib ≠ .ok none ∧ email new = e}) ibs ibs' := by
    refine hrou.imp fun ib ib' hadd => ?_
    rcases addToInbound_withClients hadd with ⟨rfl, hsk⟩ | ⟨new, hnew, hcli, hwi⟩
    · refine ⟨rfl, ?_⟩
      rcases hsk with hsk | hsk <;> simp [hsk]
    refine ⟨hwi.tag_eq, ?_⟩
    rw [hwi.clients, emailsOf_map email_cleanLegacy, emailsOf_replaceClient]
    ext e
    simp [hnew, hcli, or_comm, eq_comm]
  refine ⟨ibs', hin', ?_, ?_, ?_⟩
  · rintro p ⟨ib, hib, htag, he⟩
    exact (members_of_forall₂ hro).2 ⟨ib, hib, htag, .inl he⟩
  · intro p hp
    obtain ⟨ib, hib, htag, he | ⟨new, hnew, -, he⟩⟩ := (members_of_forall₂ hro).1 hp
    · exact .inl ⟨ib, hib, htag, he⟩
    · exact .inr ⟨_, mem_taggedClientMap hnew, htag, he⟩
  · rintro hli p ⟨tagged, htagg, ht, he⟩
    obtain ⟨ib, hib, hlis, htag, -, hbu⟩ := of_mem_payload hpay (mem_of_mem_filter (hmis ▸ htagg))
    obtain ⟨new, hnew⟩ := Assoc.exists_lookup_ofList (k := tag ib) (l := missing.map fun t => (t.tag, t.client))
      (by rw [htag, map_map]; exact mem_map_of_mem htagg)
    -- whichever client of the tag was placed last, it is one of the same user
    have hem : email new = email tagged.client := by
      have hin : ⟨tag ib, new⟩ ∈ pay := mem_of_mem_filter (hmis ▸ mem_taggedClientMap hnew)
      obtain ⟨_, -, -, -, -, hbu'⟩ := of_mem_payload hpay hin
      exact (email_built hbu').trans (email_built hbu).symm
    refine (members_of_forall₂ hro).2 ⟨ib, hib, htag.trans ht, .inr ?_⟩
    exact ⟨new, hnew, hli ib hib hlis, hem.trans he⟩

def vlessConfig (clients : List Raw) : Option Raw :=
  some (.obj [("inbounds", .arr [.obj [("tag", .str "in"), ("protocol", .str "vless"),
    ("settings", .obj [("clients", .arr clients)])]])])

def nullConfig : Option Raw :=
  some (.obj [("inbounds", .arr [.obj [("tag", .str "in"), ("protocol", .str "vless"),
    ("settings", .obj [("clients", .null)])]])])

theorem distinctTags_vlessConfig {clients : List Raw} : DistinctTags (vlessConfig clients) :=
  ⟨_, rfl, (by decide : ["in"].Nodup), (by decide : "" ∉ ["in"])⟩

end Xraytool.Xray
