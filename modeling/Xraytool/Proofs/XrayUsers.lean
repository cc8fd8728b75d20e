import Xraytool.Sanity.XrayQueries

/-! An applied upsert and the config it leaves. `AddUser` takes a user for present in an inbound as soon as a client of
that email is there. -/

namespace Xraytool.Xray

open Fallible List

variable {ext : Externals} {user : VPNUserConfig} {params : ClientParams} {ib ib' : RawMap} {inbounds : List RawMap}
  {pay : List TaggedClient}

/-- The clients with the email of the user, as the engine reads emails: without surrounding spaces. -/
def clientsOf (user : VPNUserConfig) (clients : List RawMap) : List RawMap :=
  clients.filter fun c => email c = trimSpace user.email

/-- Exactly one of the clients has the user's email, and it is what `BuildClient` makes of the user here. -/
def Installed (ext : Externals) (user : VPNUserConfig) (ib : RawMap) (clients : List RawMap) : Prop :=
  ∃ c built, clientsOf user clients = [c] ∧ buildClient ext ib (configToParams user) = .ok built ∧ c.Same built

def InForceAt (ext : Externals) (user : VPNUserConfig) (ib : RawMap) : Prop :=
  hasClientList ib = true → ∃ clients, getClients ib = .ok (some clients) ∧ Installed ext user ib clients

/-- The user is installed in every client inbound of the file. -/
def InForce (ext : Externals) (user : VPNUserConfig) (file : Option Raw) : Prop :=
  ∃ inbounds, inboundsOf file = .ok inbounds ∧ ∀ ib ∈ inbounds, InForceAt ext user ib

/-- A client inbound that `AddUser` leaves right: its list is not `null`, and it has no client with the email,
which is not only spaces, or the user is installed already. -/
def ReadyAt (ext : Externals) (user : VPNUserConfig) (ib : RawMap) : Prop :=
  hasClientList ib = true → ∃ clients, getClients ib = .ok (some clients) ∧
    (trimSpace user.email ≠ "" ∧ clientsOf user clients = [] ∨ Installed ext user ib clients)

def Ready (ext : Externals) (user : VPNUserConfig) (file : Option Raw) : Prop :=
  ∃ inbounds, inboundsOf file = .ok inbounds ∧ ∀ ib ∈ inbounds, ReadyAt ext user ib

variable {clients : List RawMap}

theorem clientsOf_eq_nil : clientsOf user clients = [] ↔ ∀ c ∈ clients, email c ≠ trimSpace user.email := by
  rw [clientsOf, filter_eq_nil_iff]
  simp only [decide_eq_true_eq]

theorem inForceAt_iff_of_present (hcli : getClients ib = .ok (some clients))
    (h : ¬ (trimSpace user.email ≠ "" ∧ clientsOf user clients = [])) :
    InForceAt ext user ib ↔ ReadyAt ext user ib := by
  constructor
  · intro hfo hli
    obtain ⟨cs, hcs, hin⟩ := hfo hli
    exact ⟨cs, hcs, .inr hin⟩
  intro hre hli
  obtain ⟨cs, hcs, hin⟩ := hre hli
  obtain rfl : clients = cs := Option.some.inj (ok_unique hcli hcs)
  exact ⟨clients, hcs, hin.resolve_left h⟩

theorem inForceAt_iff_of_nil (hcli : getClients ib = .ok none) : InForceAt ext user ib ↔ ReadyAt ext user ib := by
  simp [InForceAt, ReadyAt, hcli]

variable {built : RawMap} {byTag : List (String × RawMap)} {recorded : List (String × List String)} {ioFails : Bool}
  {file : Option Raw} {raw : Raw}

theorem clientsOf_added (hbu : buildClient ext ib (configToParams user) = .ok built)
    (habs : clientsOf user clients = []) :
    clientsOf user ((replaceClient clients built).map cleanLegacy) = [cleanLegacy built] := by
  have hem := email_built hbu
  have hn := clientsOf_eq_nil.1 habs
  have hold : (map cleanLegacy (clients.filter fun c => email c = "" ∨ email c ≠ email built)).filter
      (fun c => email c = trimSpace user.email) = [] := by
    rw [filter_eq_nil_iff]
    intro c hc
    obtain ⟨c', hc', rfl⟩ := mem_map.1 hc
    simpa using hn c' (mem_of_mem_filter hc')
  rw [clientsOf, replaceClient, map_append, filter_append, hold]
  simp [hem, configToParams]

theorem inForceAt_of_added (hcli : getClients ib = .ok (some clients))
    (hbu : buildClient ext ib (configToParams user) = .ok built) (habs : clientsOf user clients = [])
    (hset : setClients ib (replaceClient clients built) = .ok ib') :
    InForceAt ext user ib' := by
  intro _
  obtain ⟨hr, hke, settings', hs'⟩ := setClients_spec hcli hset
  obtain ⟨-, settings, _, hs, -⟩ := settings_of_getClients hcli
  refine ⟨_, hr, cleanLegacy built, built, clientsOf_added hbu habs, ?_, cleanLegacy_built hbu⟩
  rw [buildClient_congr ext _ hke hs hs', hbu]

theorem addToInbound_of_none (h : byTag.lookup (tag ib) = none) : addToInbound byTag ib = .ok ib := by
  rw [addToInbound, h]

theorem addToInbound_of_nil (h : getClients ib = .ok none) : addToInbound byTag ib = .ok ib := by
  rw [addToInbound, h]
  cases byTag.lookup (tag ib) <;> rfl

theorem addToInbound_of_some {new : RawMap} (hnew : byTag.lookup (tag ib) = some new)
    (h : getClients ib = .ok (some clients)) :
    addToInbound byTag ib =
      (setClients ib (replaceClient clients new)).mapError (.wrap ("inbound " ++ quoted (tag ib))) := by
  rw [addToInbound, hnew, h]
  rfl

/-- An inbound gets the built client where its email, which is not only spaces, has none; otherwise it stays. -/
inductive AddRound (ext : Externals) (user : VPNUserConfig) (ib : RawMap) : RawMap → Prop
  | kept (list : Option (List RawMap)) (hlist : getClients ib = .ok list)
    (h : ∀ clients, list = some clients → ¬ (trimSpace user.email ≠ "" ∧ clientsOf user clients = []) ∧
      ∃ built, buildClient ext ib (configToParams user) = .ok built) : AddRound ext user ib ib
  | added (clients : List RawMap) (built ib' : RawMap) (hlist : getClients ib = .ok (some clients))
    (hready : trimSpace user.email ≠ "" ∧ clientsOf user clients = [])
    (hbu : buildClient ext ib (configToParams user) = .ok built)
    (hset : setClients ib (replaceClient clients built) = .ok ib') :
    AddRound ext user ib ib'

section

variable (hnodup : (inbounds.map tag).Nodup) (hmem : ib ∈ inbounds) (htag : tag ib ≠ "")
  (hpayload : buildForAllInbounds ext (configToParams user) inbounds = .ok pay)
  (hrecorded : recordedEmails inbounds = .ok recorded)
include hnodup hmem htag hpayload hrecorded

/-- The payload has the built client under the tag of an inbound with a list, and it is missing there exactly if the
email, which is not only spaces, has no client. -/
theorem lookup_missing (hcli : getClients ib = .ok (some clients)) :
    ∃ built, buildClient ext ib (configToParams user) = .ok built ∧
      (taggedClientMap (pay.filter (isMissing (Assoc.ofList recorded)))).lookup (tag ib) =
        if trimSpace user.email ≠ "" ∧ clientsOf user clients = [] then some built else none := by
  have hpa : (((pay.filter (isMissing (Assoc.ofList recorded))).map fun t => (t.tag, t.client)).map
      Prod.fst).Nodup := by
    rw [map_map]
    exact hnodup.sublist ((filter_sublist.map _).trans (tags_payload hpayload))
  have hl (c : RawMap) : (taggedClientMap (pay.filter (isMissing (Assoc.ofList recorded)))).lookup (tag ib) = some c ↔
        ⟨tag ib, c⟩ ∈ pay.filter (isMissing (Assoc.ofList recorded)) := by
    rw [taggedClientMap, Assoc.lookup_ofList hpa, mem_map]
    constructor
    · rintro ⟨⟨t, c'⟩, ht, heq⟩
      obtain ⟨rfl, rfl⟩ := Prod.mk.inj heq
      exact ht
    · exact fun ht => ⟨_, ht, rfl⟩
  obtain ⟨built, hbu, hin⟩ := mem_payload hpayload hmem (hasClientList_of_getClients hcli) htag
  have hema : (Assoc.ofList recorded).lookup (tag ib) = some ((clients.map email).filter (· ≠ "")) := by
    obtain ⟨clients', hcli', hrec⟩ := mem_recorded hrecorded hmem htag
    obtain rfl := ok_unique hcli hcli'
    exact (Assoc.lookup_ofList (hnodup.sublist (tags_recorded hrecorded))).2 (hrec clients rfl)
  have huni : ∀ c, ⟨tag ib, c⟩ ∈ pay → c = built := fun c hc => by
    have hinj := inj_on_of_nodup_map (hnodup.sublist (tags_payload hpayload)) hc hin rfl
    exact (TaggedClient.mk.inj hinj).2
  have hne : built ≠ none := by
    rintro rfl
    exact absurd (get_built_metadata hbu (k := "email") (by decide)) (by simp [RawMap.get, lookup_metadataFields_email])
  have hmi : isMissing (Assoc.ofList recorded) ⟨tag ib, built⟩ = true ↔
      trimSpace user.email ≠ "" ∧ clientsOf user clients = [] := by
    rw [clientsOf_eq_nil, isMissing_iff htag hne hema]
    rw [email_built hbu]
    rfl
  refine ⟨built, hbu, ?_⟩
  split_ifs with hre
  · rw [hl, mem_filter]
    exact ⟨hin, hmi.2 hre⟩
  rw [Option.eq_none_iff_forall_not_mem]
  intro c hc
  obtain ⟨hc, hm⟩ := mem_filter.1 ((hl c).1 hc)
  exact hre (hmi.1 (huni c hc ▸ hm))

theorem addRound (hadd : addToInbound (taggedClientMap (pay.filter (isMissing (Assoc.ofList recorded)))) ib = .ok ib') :
    AddRound ext user ib ib' := by
  obtain ⟨list, hlist, -⟩ := mem_recorded hrecorded hmem htag
  -- an inbound with a nil list is passed over, whatever the payload has for its tag
  cases list with
  | none =>
    cases hadd.symm.trans (addToInbound_of_nil hlist)
    exact .kept none hlist (by simp)
  | some clients =>
    obtain ⟨built, hbu, hby⟩ := lookup_missing hnodup hmem htag hpayload hrecorded hlist
    by_cases hready : trimSpace user.email ≠ "" ∧ clientsOf user clients = []
    · rw [if_pos hready] at hby
      exact .added clients built _ hlist hready hbu (mapError_eq_ok.1 ((addToInbound_of_some hby hlist).symm.trans hadd))
    rw [if_neg hready] at hby
    cases hadd.symm.trans (addToInbound_of_none hby)
    refine .kept _ hlist ?_
    rintro _ ⟨⟩
    exact ⟨hready, built, hbu⟩

end

theorem AddRound.inForceAt_iff (h : AddRound ext user ib ib') : InForceAt ext user ib' ↔ ReadyAt ext user ib := by
  rcases h with ⟨- | clients, hlist, hpr⟩ | ⟨clients, built, _, hlist, hready, hbu, hset⟩
  · exact inForceAt_iff_of_nil hlist
  · exact inForceAt_iff_of_present hlist (hpr clients rfl).1
  · exact iff_of_true (inForceAt_of_added hlist hbu hready.2 hset) fun _ => ⟨clients, hlist, .inl hready⟩

theorem placeUser_rounds {cfg cfg' : RawMap} {missing : List TaggedClient} (hinb : getInbounds cfg = .ok inbounds)
    (hno : (inbounds.map tag).Nodup) (hem : "" ∉ inbounds.map tag)
    (h : Machine.placeUser ext user cfg = .ok (cfg', missing)) :
    ∃ changed, getInbounds cfg' = .ok changed ∧ Forall₂ (AddRound ext user) inbounds changed ∧
      (cfg' = cfg ∨ setInbounds cfg changed = .ok cfg') := by
  obtain ⟨_, pay, hin, hpay, h⟩ := placeUser_eq_ok h
  obtain rfl := ok_unique hinb hin
  obtain ⟨⟨recorded, hrec, rfl⟩, changed, hin', hrou, hset⟩ := placeMissing_rounds hinb h
  refine ⟨changed, hin', ?_, hset⟩
  rw [forall₂_iff_zip] at hrou ⊢
  refine ⟨hrou.1, fun hpa => ?_⟩
  have hib := (of_mem_zip hpa).1
  exact addRound hno hib (fun ht => hem (ht ▸ mem_map_of_mem hib)) hpay hrec (hrou.2 hpa)

theorem addUser_eq_ok (h : addUser ext ioFails file user = .ok raw) :
    ∃ cfg cfg' missing, readConfig file = .ok cfg ∧ Machine.placeUser ext user cfg = .ok (cfg', missing) ∧
      raw = marshalMap cfg' := by
  unfold addUser at h
  split at h
  · contradiction
  obtain ⟨⟨_, missing⟩, hmod, rfl⟩ := map_eq_ok.1 h
  obtain ⟨-, cfg, cfg', hcfg, hcha, rfl⟩ := modifyWith_eq_ok.1 (mapError_eq_ok.1 hmod)
  exact ⟨cfg, cfg', missing, hcfg, hcha, rfl⟩

theorem addUser_rounds (hta : DistinctTags file) (h : addUser ext ioFails file user = .ok raw) :
    ∃ inbounds changed, inboundsOf file = .ok inbounds ∧ inboundsOf (some raw) = .ok changed ∧
      (inbounds.map tag).Nodup ∧ Forall₂ (AddRound ext user) inbounds changed := by
  obtain ⟨inbounds, hinb, hno, hem⟩ := hta
  obtain ⟨cfg, cfg', _, hcfg, hcha, rfl⟩ := addUser_eq_ok h
  obtain ⟨cfg0, hcfg0, hin⟩ := inboundsOf_eq_ok.1 hinb
  obtain rfl := ok_unique hcfg hcfg0
  obtain ⟨changed, hin', hrou, -⟩ := placeUser_rounds hin hno hem hcha
  exact ⟨inbounds, changed, hinb, inboundsOf_marshalMap.trans hin', hno, hrou⟩

theorem addUser_inForce_iff (hta : DistinctTags file) (h : addUser ext ioFails file user = .ok raw) :
    InForce ext user (some raw) ↔ Ready ext user file := by
  obtain ⟨inbounds, changed, hinb, hcha, -, hrou⟩ := addUser_rounds hta h
  simp only [InForce, Ready, hcha, hinb, Except.ok.injEq, exists_eq_left']
  exact forall_mem_iff_of_forall₂ (hrou.imp fun _ _ => AddRound.inForceAt_iff)

structure AddedTo (user : VPNUserConfig) (ib ib' : RawMap) : Prop where
  keys : ∀ k ≠ "settings", ib'.get k = ib.get k
  /-- a list that is passed over was `null` before -/
  null : getClients ib' = .ok none → getClients ib = .ok none
  reached : ∀ clients, getClients ib' = .ok (some clients) → trimSpace user.email ≠ "" → clientsOf user clients ≠ []
  single : (clientsOf user (readClients ib)).length ≤ 1 → (clientsOf user (readClients ib')).length ≤ 1
  /-- where the user is added, the other clients lose the fields of an older format -/
  others : ib' = ib ∨ clientsOf user (readClients ib) = [] ∧
    (readClients ib').filter (email · ≠ trimSpace user.email) = (readClients ib).map cleanLegacy

theorem addedTo_of_set (hcl : getClients ib = .ok (some clients)) (habs : clientsOf user clients = [])
    (hbu : buildClient ext ib (configToParams user) = .ok built)
    (hset : setClients ib (replaceClient clients built) = .ok ib') :
    AddedTo user ib ib' := by
  obtain ⟨hr, hke, -⟩ := setClients_spec hcl hset
  have hone := clientsOf_added hbu habs
  have hno := clientsOf_eq_nil.1 habs
  have hem := email_built hbu
  refine ⟨hke, fun hn => ?_, fun clients' hcl' _ => ?_, fun _ => ?_, .inr ?_⟩
  · rw [hr] at hn
    cases hn
  · obtain rfl := Option.some.inj (ok_unique hr hcl')
    rw [hone]
    exact cons_ne_nil _ _
  · rw [readClients_of_some hr, hone]
    rfl
  rw [readClients_of_some hcl, readClients_of_some hr]
  have hall : replaceClient clients built = clients ++ [built] :=
    replaceClient_of_absent fun c hc => by rw [hem]; exact hno c hc
  have hkept : (clients.map cleanLegacy).filter (email · ≠ trimSpace user.email) = clients.map cleanLegacy := by
    refine filter_eq_self.2 fun c hc => ?_
    obtain ⟨c, hc', rfl⟩ := mem_map.1 hc
    simpa using hno c hc'
  refine ⟨habs, ?_⟩
  rw [hall, map_append, filter_append, hkept]
  simp [hem, configToParams]

theorem AddRound.addedTo (h : AddRound ext user ib ib') : AddedTo user ib ib' := by
  rcases h with ⟨list, hlist, hpr⟩ | ⟨clients, built, _, hlist, hready, hbu, hset⟩
  · refine ⟨fun _ _ => rfl, id, fun clients hcl hne hn => ?_, id, .inl rfl⟩
    exact (hpr clients (ok_unique hlist hcl)).1 ⟨hne, hn⟩
  · exact addedTo_of_set hlist hready.2 hbu hset

theorem AddRound.eq_of_addedTo {ib'' : RawMap} (hadd : AddedTo user ib ib') (h : AddRound ext user ib' ib'') :
    ib'' = ib' := by
  rcases h with _ | ⟨clients, built, _, hlist, hready, -⟩
  · rfl
  · exact absurd hready.2 (hadd.reached clients hlist hready.1)

theorem addUser_again {ioFails' : Bool} {raw' : Raw} (hta : DistinctTags file)
    (h : addUser ext ioFails file user = .ok raw) (h' : addUser ext ioFails' (some raw) user = .ok raw') :
    raw' = raw := by
  obtain ⟨inbounds, hinb, hno, hem⟩ := hta
  obtain ⟨cfg, cfg', _, hcfg, hcha, rfl⟩ := addUser_eq_ok h
  obtain ⟨cfg1, cfg'', _, hcfg', hcha', rfl⟩ := addUser_eq_ok h'
  obtain rfl := ok_unique unmarshal_marshalMap hcfg'
  obtain ⟨cfg0, hcfg0, hin⟩ := inboundsOf_eq_ok.1 hinb
  obtain rfl := ok_unique hcfg hcfg0
  congr 1
  obtain ⟨changed, hin', hrou, rfl | hset⟩ := placeUser_rounds hin hno hem hcha
  · exact (Prod.mk.inj (ok_unique hcha' hcha)).1
  have htags : changed.map tag = inbounds.map tag :=
    map_eq_map_of_forall₂ (hrou.imp fun _ _ hr => tag_congr (hr.addedTo.keys _ (by decide)))
  obtain ⟨changed', -, hrou', hor⟩ := placeUser_rounds hin' (htags ▸ hno) (htags ▸ hem) hcha'
  have hsame : changed' = changed := by
    refine (forall₂_eq_eq_eq.le _ _ ?_).symm
    rw [forall₂_iff_zip] at hrou' ⊢
    refine ⟨hrou'.1, fun hpa => ?_⟩
    obtain ⟨ib, -, hr⟩ := exists_of_forall₂_left hrou.flip (of_mem_zip hpa).1
    exact (AddRound.eq_of_addedTo hr.addedTo (hrou'.2 hpa)).symm
  rcases hor with rfl | hset'
  · rfl
  · rw [hsame, setInbounds_setInbounds hset] at hset'
    exact ok_unique hset' hset

/-- Of the inbounds for clients only one with the list `null` is left without the user. -/
theorem AddRound.reached_iff (hem : trimSpace user.email ≠ "") (h : AddRound ext user ib ib') :
    (hasClientList ib' = true → clientsOf user (readClients ib') ≠ []) ↔
      (hasClientList ib = true → getClients ib ≠ .ok none) := by
  cases h with
  | kept list hlist h =>
    refine forall_congr' fun _ => ?_
    rcases list with _ | cs
    · simp [readClients, hlist, clientsOf]
    · simpa [readClients, hlist, hem] using (h cs rfl).1
  | added cs built _ hlist hready hbu hset =>
    have hcl := (setClients_spec hlist hset).1
    refine iff_of_true (fun _ => ?_) fun _ => ?_
    · rw [readClients_of_some hcl, clientsOf_added hbu hready.2]
      exact cons_ne_nil _ _
    · simp [hlist]

/-- What the node with its config does to the slave's store is what the slave of the replication model does,
where the engine fails as the adapter fails on this config. -/
def Node.engineFails (env : NodeEnv) (node : Node) : JournalEvent → SlaveOp → Bool
  | .upsert user, .addUser => (addUser env.ext (env.fails .addUser) node.file user).toBool = false
  | .remove address, .removeUser =>
    (removeUser env.isProtected (env.fails .removeUser) node.file address).toBool = false
  | _, op => env.fails op

variable {rev : Int} {node : Node} {env : NodeEnv}

theorem applyEvent_refines {event : JournalEvent} :
    ((node.applyEvent env rev event).1.slave, (node.applyEvent env rev event).2) =
      node.slave.applyEvent (node.engineFails env event) rev event := by
  have hma (sl : Slave) : sl.markApplied (node.engineFails env event) rev = sl.markApplied env.fails rev := by
    cases event <;> rfl
  have hse : node.engineFails env event .alreadyApplied = env.fails .alreadyApplied := by cases event <;> rfl
  unfold Node.applyEvent Slave.applyEvent
  rw [hse]
  by_cases hfa : env.fails .alreadyApplied = true
  · simp only [if_pos hfa]
  by_cases hin : rev ∈ node.slave.inbox
  · simp only [if_neg hfa, if_pos hin]
  simp only [if_neg hfa, if_neg hin]
  cases event with
  | upsert user =>
    dsimp only
    rw [hma]
    by_cases hem : user.email = ""
    · simp [hem]
    cases hadd : addUser env.ext (env.fails .addUser) node.file user <;>
      cases hup : env.fails .upsertDesired <;>
      simp [hem, Node.engineFails, hadd, hup, Except.toBool]
  | remove addr =>
    dsimp only
    rw [hma]
    by_cases hem : addr = ""
    · simp [hem]
    cases hrm : removeUser env.isProtected (env.fails .removeUser) node.file addr <;>
      cases hup : env.fails .removeDesired <;>
      simp [hem, Node.engineFails, hrm, hup, Except.toBool]
  | artifact kind data =>
    rw [hma]
    cases hart : env.fails .applyArtifact <;> simp [Node.engineFails, hart]
  | resnapshot reason => rfl

/-- `ApplyEvent` returned nil on an upsert: the revision was in the inbox already and nothing happened, or
`AddUser` wrote the file. -/
theorem applyEvent_upsert_ok (h : (node.applyEvent env rev (.upsert user)).2 = true) :
    (rev ∈ node.slave.inbox ∧ (node.applyEvent env rev (.upsert user)).1.file = node.file) ∨
      (rev ∉ node.slave.inbox ∧ ∃ raw, addUser env.ext (env.fails .addUser) node.file user = .ok raw ∧
        (node.applyEvent env rev (.upsert user)).1.file = some raw) := by
  unfold Node.applyEvent at h ⊢
  by_cases hfa : env.fails .alreadyApplied = true
  · simp [hfa] at h
  by_cases hin : rev ∈ node.slave.inbox
  · exact .inl ⟨hin, by simp only [if_neg hfa, if_pos hin]⟩
  refine .inr ⟨hin, ?_⟩
  simp only [if_neg hfa, if_neg hin] at h ⊢
  by_cases hem : user.email = ""
  · simp [hem] at h
  simp only [if_neg hem] at h ⊢
  cases hadd : addUser env.ext (env.fails .addUser) node.file user with
  | error e => simp [hadd] at h
  | ok raw =>
    refine ⟨raw, rfl, ?_⟩
    dsimp only
    split <;> rfl

/-- The state before the event from which the upsert comes into force. -/
def Node.Ready (ext : Externals) (user : VPNUserConfig) (revision : Int) (node : Node) : Prop :=
  if revision ∈ node.slave.inbox then InForce ext user node.file else Xray.Ready ext user node.file

/-- After `ApplyEvent` of an upsert returned nil, each client inbound has exactly one client of the user, the
one that `BuildClient` makes, if and only if the node was ready for it. -/
theorem upsert_in_force_iff (env : NodeEnv) (node : Node) (revision : Int) (user : VPNUserConfig)
    (htags : DistinctTags node.file) (hok : (node.applyEvent env revision (.upsert user)).2 = true) :
    InForce env.ext user (node.applyEvent env revision (.upsert user)).1.file ↔
      node.Ready env.ext user revision := by
  unfold Node.Ready
  rcases applyEvent_upsert_ok hok with ⟨hin, hf⟩ | ⟨hnew, raw, hadd, hf⟩
  · rw [if_pos hin, hf]
  · rw [if_neg hnew, hf]
    exact addUser_inForce_iff htags hadd

/-! An inbound with one client of the email `a@x`, and an event that brings another UUID. -/

def quietEnv : NodeEnv where
  ext := noExternals
  isProtected := fun _ => false
  fails := fun _ => false
  applyArtifact := fun _ _ file => file

def freshNode (clients : List Raw) : Node := ⟨{}, vlessConfig clients⟩

def movedUser : VPNUserConfig := { email := "a@x", uuid := "new" }

theorem upsert_in_force_iff_no_clients :
    InForce quietEnv.ext movedUser ((freshNode []).applyEvent quietEnv 1 (.upsert movedUser)).1.file := by
  refine (upsert_in_force_iff quietEnv (freshNode []) 1 movedUser distinctTags_vlessConfig (by decide)).2 ?_
  refine ⟨_, rfl, fun ib hib _ => ?_⟩
  obtain rfl := mem_singleton.1 hib
  exact ⟨[], rfl, .inl ⟨by decide, rfl⟩⟩

/-- The client with the old UUID stays, and the event counts as applied. -/
theorem stale_client_survives_upsert :
    DistinctTags (freshNode [.obj [("email", .str "a@x"), ("id", .str "old")]]).file ∧
      ((freshNode [.obj [("email", .str "a@x"), ("id", .str "old")]]).applyEvent quietEnv 1
        (.upsert movedUser)).2 = true ∧
      ¬ InForce quietEnv.ext movedUser ((freshNode [.obj [("email", .str "a@x"), ("id", .str "old")]]).applyEvent
        quietEnv 1 (.upsert movedUser)).1.file := by
  refine ⟨distinctTags_vlessConfig, by decide, ?_⟩
  rintro ⟨inbounds, hinb, hfo⟩
  cases hinb
  obtain ⟨clients, hcli, c, built, hone, hbu, hsa⟩ := hfo _ mem_cons_self rfl
  obtain rfl := Option.some.inj (Except.ok.inj hcli)
  obtain rfl := (cons.inj hone).1
  cases hbu
  exact absurd (hsa "id") (by decide)

/-! The three ways in which `users.go` collects the clients of an email. The index and the search merge the same
clients; the list has an entry for each email but the empty one, where the email appears first. -/

variable {cs : List RawMap}

theorem lookup_indexed (address : String) :
    ((cs.foldl indexClient []).lookup address).getD [] = cs.filter (email · = address) := by
  induction cs using reverseRecOn with
  | nil => rfl
  | append_singleton cs c ih =>
    rw [foldl_append, filter_append, ← ih]
    rw [foldl_cons, foldl_nil, indexClient, Assoc.lookup_put]
    by_cases hem : email c = address
    · simp [hem]
    · simp [hem, Ne.symm hem]

/-- The index of an email in the list of all emails is that of its first appearance. -/
theorem emailsInOrder_first : (emailsInOrder cs).Pairwise fun e e' =>
    (cs.map email).idxOf e < (cs.map email).idxOf e' := by
  induction cs using reverseRecOn with
  | nil => exact .nil
  | append_singleton cs c ih =>
    have hmem {e : String} (he : e ∈ emailsInOrder cs) : e ∈ cs.map email := mem_map.2 (mem_emailsInOrder.1 he).2
    have hold : (emailsInOrder cs).Pairwise fun e e' =>
        ((cs ++ [c]).map email).idxOf e < ((cs ++ [c]).map email).idxOf e' := by
      refine ih.imp_of_mem fun he he' hlt => ?_
      rwa [map_append, idxOf_append_of_mem (hmem he), idxOf_append_of_mem (hmem he')]
    rw [emailsInOrder_snoc]
    split_ifs with hsk
    · exact hold
    · refine pairwise_append.2 ⟨hold, pairwise_singleton _ _, fun e he e' he' => ?_⟩
      rw [mem_singleton.1 he']
      have hnew : email c ∉ cs.map email := fun hin =>
        hsk (or_iff_not_imp_left.2 fun hne => mem_emailsInOrder.2 ⟨hne, mem_map.1 hin⟩)
      rw [map_append, idxOf_append_of_mem (hmem he), idxOf_append_of_notMem hnew]
      exact (idxOf_lt_length_of_mem (hmem he)).trans_le (Nat.le_add_right _ _)

/-- The index answers as the search does, and the list is the answers of the index for the non-empty emails of the
clients, in the order of first appearance. -/
theorem index_search_list_agree (cfg : RawMap) :
    (∀ address, (buildUserIndex cfg).map (· address) = findUser cfg address) ∧
    ((listUsers cfg).map (·.map some) = do
      let inbounds ← getInbounds cfg
      let index ← buildUserIndex cfg
      .ok ((emailsInOrder (inbounds.flatMap readClients)).map index)) ∧
    ∀ clients, ((emailsInOrder clients).Pairwise fun e e' =>
        (clients.map email).idxOf e < (clients.map email).idxOf e') ∧
      ∀ e, e ∈ emailsInOrder clients ↔ e ≠ "" ∧ e ∈ clients.map email := by
  refine ⟨fun address => ?_, ?_, fun clients => ⟨emailsInOrder_first, fun e => ?_⟩⟩
  · rw [buildUserIndex, findUser]
    cases getInbounds cfg with
    | error err => rfl
    | ok ibs =>
      simp only [ok_bind, Except.map, lookup_indexed, filter_flatMap]
  · rw [buildUserIndex, listUsers]
    cases getInbounds cfg with
    | error err => rfl
    | ok ibs =>
      simp only [ok_bind, Except.map, lookup_indexed, map_map]
      refine congrArg _ (map_congr_left fun e he => ?_)
      obtain ⟨c, hc, hem⟩ := (mem_emailsInOrder.1 he).2
      rw [if_neg (ne_nil_of_mem (mem_filter.2 ⟨hc, by simpa using hem⟩))]
      rfl
  · rw [mem_emailsInOrder, mem_map]
    rfl

/-- A client without an email is found under the empty one and is not in the list. -/
theorem anonymous_not_listed : ∃ cfg c, findUser cfg "" = .ok (some c) ∧ listUsers cfg = .ok [] :=
  ⟨some [("inbounds", .arr [.obj [("settings", .obj [("clients", .arr [.obj [("id", .str "x")]])])]])], _, rfl, rfl⟩

end Xraytool.Xray
