import Mathlib.Data.List.Dedup
import Xraytool.Sanity.XrayUsers

/-! What the queries of `users.go` answer, in terms of the pairs of tag and email that a config lists. A user merged
from several inbounds keeps its email, so the live users of a sync are the emails of the config. -/

namespace Xraytool.Xray

open Fallible List

variable {ib cfg : RawMap} {ibs : List RawMap} {file : Option Raw} {key : String} {c : RawMap}

theorem trimSpace_getString : trimSpace (getString c key) = getString c key := by
  unfold getString
  split
  · exact trimSpace_idem
  · exact trimSpace_idem
  · decide

theorem trimSpace_email (c : RawMap) : trimSpace (email c) = email c := by
  unfold email
  dsimp only
  split <;> exact trimSpace_getString

def textOf : Option Raw → String
  | some (.str value) => trimSpace value
  | some (.num literal) => trimSpace literal
  | _ => ""

theorem getString_eq : getString c key = textOf (c.get key) := rfl

/-- An email is read from these values of the keys `email` and `name`. -/
def Names (e : String) (address name : Option Raw) : Prop := textOf address = e ∨ textOf address = "" ∧ textOf name = e

variable {e key : String} {cs : List RawMap} {emails : List String} {pay : List TaggedClient}
  {k : String}

theorem names_iff (he : e ≠ "") (c : RawMap) : email c = e ↔ Names e (c.get "email") (c.get "name") := by
  unfold email Names
  rw [getString_eq, getString_eq]
  dsimp only
  split_ifs with h
  · simp [h]
  rw [not_not.1 h]
  constructor
  · exact fun hn => .inr ⟨rfl, hn⟩
  rintro (h0 | ⟨-, hn⟩)
  · exact absurd h0.symm he
  · exact hn

theorem textOf_of_empty {raw : Raw} (h : isRawMessageEmpty raw = true) : textOf (some raw) = "" := by
  have h : raw = .null ∨ raw = .str "" := by simpa [isRawMessageEmpty] using h
  rcases h with rfl | rfl
  · rfl
  · decide

theorem mergeValue_of_text (merged : Option Raw) (h : textOf (c.get key) ≠ "") :
    mergeValue key merged c = c.get key := by
  unfold mergeValue
  rcases hc : c.get key with _ | value
  · simp [hc, textOf] at h
  dsimp only
  split_ifs with hem
  · rw [hc] at h
    exact absurd (textOf_of_empty hem) h
  · rfl

theorem textOf_mergeValue (merged : Option Raw) (h : textOf (c.get key) = "") :
    textOf (mergeValue key merged c) = textOf merged ∨ textOf (mergeValue key merged c) = "" := by
  unfold mergeValue
  rcases hc : c.get key with _ | value
  · exact .inl rfl
  rw [hc] at h
  dsimp only
  split_ifs
  · rcases merged with _ | old
    · exact .inr h
    · exact .inl rfl
  · exact .inr h

theorem names_mergeValue (he : e ≠ "") {addr name : Option Raw} (h : Names e addr name ∨ textOf addr = "")
    (hc : email c = e) : Names e (mergeValue "email" addr c) (mergeValue "name" name c) := by
  rcases (names_iff he c).1 hc with hadd | ⟨hadd, hna⟩
  · left
    rw [mergeValue_of_text _ (hadd ▸ he), hadd]
  rw [mergeValue_of_text name (hna ▸ he)]
  rcases textOf_mergeValue addr hadd with hsa | hn
  · rcases h with (h | ⟨h, -⟩) | h
    · exact .inl (hsa.trans h)
    · exact .inr ⟨hsa.trans h, hna⟩
    · exact .inr ⟨hsa.trans h, hna⟩
  · exact .inr ⟨hn, hna⟩

theorem names_fold (he : e ≠ "") (hall : ∀ c ∈ cs, email c = e) {addr name : Option Raw} (h : Names e addr name) :
    Names e (cs.foldl (mergeValue "email") addr) (cs.foldl (mergeValue "name") name) := by
  induction cs generalizing addr name with
  | nil => exact h
  | cons c cs ih =>
    refine ih (fun c hc => hall c (mem_cons_of_mem _ hc)) ?_
    exact names_mergeValue he (.inl h) (hall c mem_cons_self)

theorem lookup_filterMap {keys : List String} {value : String → Option Raw} (hno : keys.Nodup) :
    (keys.filterMap fun key => (value key).map fun v => (key, v)).lookup k = if k ∈ keys then value k else none := by
  induction keys with
  | nil => rfl
  | cons key keys ih =>
    obtain ⟨hnew, hno⟩ := nodup_cons.1 hno
    rcases hv : value key with _ | v
    · rw [filterMap_cons_none (by rw [hv]; rfl), ih hno]
      by_cases hk : k = key
      · subst hk
        simp [hnew, hv]
      · simp [hk]
    · rw [filterMap_cons_some (b := (key, v)) (by rw [hv]; rfl), Assoc.lookup_cons, ih hno]
      by_cases hk : k = key
      · subst hk
        simp [hv]
      · simp [hk]

theorem get_of_not_mem_keys (h : k ∉ c.keys) : c.get k = none := by
  rcases c with _ | fields
  · rfl
  rw [RawMap.get, Option.bind_some, lookup_eq_none_iff]
  intro field hfi
  have hne : k ≠ field.1 := fun heq => h (heq ▸ mem_map_of_mem hfi)
  simpa using hne

theorem get_mergeClients : (mergeClients cs).get k = cs.foldl (mergeValue k) none := by
  rw [mergeClients, RawMap.get, Option.bind_some, lookup_filterMap (nodup_dedup _)]
  split_ifs with hk
  · rfl
  -- no client has the key
  have hn : ∀ c ∈ cs, c.get k = none := fun c hc =>
    get_of_not_mem_keys fun hin => hk (mem_dedup.2 (mem_flatMap.2 ⟨c, hc, hin⟩))
  clear hk
  induction cs with
  | nil => rfl
  | cons c cs ih =>
    rw [foldl_cons, mergeValue, hn c mem_cons_self]
    exact ih fun c hc => hn c (mem_cons_of_mem _ hc)

/-- The text of the last value of the key that is neither `null` nor empty. -/
def lastText (cs : List RawMap) (k : String) : String :=
  textOf ((cs.filterMap (·.get k)).filter (!isRawMessageEmpty ·)).getLast?

/-- The last `auth`, or if that has no text the last password. -/
def lastSecret (cs : List RawMap) : String :=
  if lastText cs "auth" = "" then lastText cs "password" else lastText cs "auth"

theorem getString_mergeClients : getString (mergeClients cs) k = lastText cs k := by
  rw [getString_eq, get_mergeClients, lastText]
  induction cs using reverseRecOn with
  | nil => rfl
  | append_singleton cs c ih =>
    rw [foldl_append, foldl_cons, foldl_nil, filterMap_append, filter_append, mergeValue]
    rcases hc : c.get k with _ | value
    · simpa [hc] using ih
    rcases hem : isRawMessageEmpty value with _ | _
    · simp [hc, hem]
    · -- an empty value is only taken where there is none, and has no text
      have hor (merged : Option Raw) : textOf (some (merged.getD value)) = textOf merged := by
        cases merged
        · exact textOf_of_empty hem
        · rfl
      simpa [hc, hem, hor] using ih

theorem textOf_fold (hall : ∀ c ∈ cs, textOf (c.get key) = "") {merged : Option Raw} (h : textOf merged = "") :
    textOf (cs.foldl (mergeValue key) merged) = "" := by
  induction cs generalizing merged with
  | nil => exact h
  | cons c cs ih =>
    obtain ⟨hc, hre⟩ := forall_mem_cons.1 hall
    refine ih hre ?_
    rcases textOf_mergeValue merged hc with hsa | hn
    · exact hsa.trans h
    · exact hn

theorem email_eq_empty : email c = "" ↔ textOf (c.get "email") = "" ∧ textOf (c.get "name") = "" := by
  unfold email
  rw [getString_eq, getString_eq]
  dsimp only
  split_ifs with h
  · simp [h]
  · simp [not_not.1 h]

theorem email_mergeClients (hne : cs ≠ []) (hall : ∀ c ∈ cs, email c = e) : email (mergeClients cs) = e := by
  by_cases he : e = ""
  · subst he
    rw [email_eq_empty, get_mergeClients, get_mergeClients]
    exact ⟨textOf_fold (fun c hc => (email_eq_empty.1 (hall c hc)).1) rfl,
      textOf_fold (fun c hc => (email_eq_empty.1 (hall c hc)).2) rfl⟩
  · rw [names_iff he, get_mergeClients, get_mergeClients]
    rcases cs with _ | ⟨c, cs⟩
    · exact absurd rfl hne
    · refine names_fold he (fun c hc => hall c (mem_cons_of_mem _ hc)) ?_
      exact names_mergeValue he (.inr rfl) (hall c mem_cons_self)

theorem emailsInOrder_snoc : emailsInOrder (cs ++ [c]) =
    if email c = "" ∨ email c ∈ emailsInOrder cs then emailsInOrder cs else emailsInOrder cs ++ [email c] := by
  rw [emailsInOrder, foldl_append]
  rfl

theorem mem_emailsInOrder : e ∈ emailsInOrder cs ↔ e ≠ "" ∧ e ∈ emailsOf cs := by
  induction cs using reverseRecOn with
  | nil => simp [emailsInOrder, emailsOf]
  | append_singleton cs c ih =>
    have hsn : e ∈ emailsOf (cs ++ [c]) ↔ e ∈ emailsOf cs ∨ email c = e := by simp [emailsOf, or_and_right, exists_or]
    rw [emailsInOrder_snoc, hsn]
    split_ifs with hsk
    · grind
    · grind

theorem rawClientToVPNUserConfig_merged (truncate : String → Int) (h : e ∈ emailsInOrder cs) :
    ∃ u, rawClientToVPNUserConfig truncate (mergeClients (cs.filter (email · = e))) = some u ∧ u.email = e := by
  obtain ⟨hne, c, hc, hem⟩ := mem_emailsInOrder.1 h
  have hmer : email (mergeClients (cs.filter (email · = e))) = e := by
    refine email_mergeClients ?_ fun c hc => by simpa using (mem_filter.1 hc).2
    exact ne_nil_of_mem (mem_filter.2 ⟨hc, by simpa using hem⟩)
  have htr : trimSpace e = e := hem ▸ trimSpace_email c
  unfold rawClientToVPNUserConfig
  simp only [hmer, htr, if_neg hne]
  exact ⟨_, rfl, rfl⟩

theorem listUsers_emails {truncate : String → Int} {rawUsers : List RawMap} (hin : getInbounds cfg = .ok ibs)
    (h : listUsers cfg = .ok rawUsers) :
    (rawUsers.filterMap (rawClientToVPNUserConfig truncate)).map (·.email) =
      emailsInOrder (ibs.flatMap readClients) := by
  rw [listUsers, hin, ok_bind] at h
  cases h
  have hall (e : String) (he : e ∈ emailsInOrder (ibs.flatMap readClients)) :=
    rawClientToVPNUserConfig_merged truncate he
  generalize emailsInOrder (ibs.flatMap readClients) = order at hall ⊢
  induction order with
  | nil => rfl
  | cons e order ih =>
    obtain ⟨u, hu, hem⟩ := hall e mem_cons_self
    rw [map_cons, filterMap_cons_some hu, map_cons, hem, ih fun e he => hall e (mem_cons_of_mem _ he)]

theorem mem_emailsOf_flatMap : e ∈ emailsOf (ibs.flatMap readClients) ↔ ∃ t, (t, e) ∈ members ibs := by
  simp only [emailsOf, members, mem_flatMap, Set.mem_ofPred_eq]
  constructor
  · rintro ⟨c, ⟨ib, hib, hc⟩, rfl⟩
    exact ⟨tag ib, ib, hib, rfl, c, hc, rfl⟩
  · rintro ⟨_, ib, hib, -, c, hc, rfl⟩
    exact ⟨c, ⟨ib, hib, hc⟩, rfl⟩

theorem mem_liveEmails {env : AdapterEnv} {fails : Faults} :
    e ∈ Machine.liveEmails env fails file ↔ fails .listUsers = false ∧ e ≠ "" ∧ ∃ t, (t, e) ∈ fileMembers file := by
  unfold Machine.liveEmails
  rcases hcfg : readConfig file with err | cfg
  · have hn : ∀ t, (t, e) ∉ fileMembers file := fun t ⟨ibs, hin, _⟩ => by
      obtain ⟨cfg, hcfg', -⟩ := inboundsOf_eq_ok.1 hin
      rw [hcfg] at hcfg'
      contradiction
    simp [bind, Except.bind, hn]
  rw [ok_bind]
  rcases hin : getInbounds cfg with err | ibs
  · have hn : ∀ t, (t, e) ∉ fileMembers file := fun t ⟨ibs, hin', _⟩ => by
      obtain ⟨cfg', hcfg', hin'⟩ := inboundsOf_eq_ok.1 hin'
      obtain rfl := ok_unique hcfg hcfg'
      rw [hin] at hin'
      contradiction
    simp [listUsers, hin, bind, Except.bind, hn]
  obtain ⟨rawUsers, hli⟩ : ∃ rawUsers, listUsers cfg = .ok rawUsers := by
    rw [listUsers, hin]
    exact ⟨_, rfl⟩
  rw [hli, fileMembers_of_ok (inboundsOf_eq_ok.2 ⟨cfg, hcfg, hin⟩)]
  dsimp only
  split_ifs with hfa
  · simp [hfa]
  · rw [listUsers_emails hin hli, mem_emailsInOrder, mem_emailsOf_flatMap]
    simp [hfa]

theorem userExists_iff (hin : getInbounds cfg = .ok ibs) {addr : String} :
    userExists cfg addr = true ↔ ∃ t, (t, addr) ∈ members ibs := by
  have hany : userExists cfg addr = ibs.any fun ib => (readClients ib).any (email · = addr) := by
    rw [userExists, hin]
    dsimp only
    congr 1
    funext ib
    rw [readClients]
    rcases getClients ib with e | _ | cs <;> rfl
  rw [hany]
  simp only [any_eq_true, decide_eq_true_eq]
  constructor
  · rintro ⟨ib, hib, c, hc, he⟩
    exact ⟨tag ib, ib, hib, rfl, c, hc, he⟩
  · rintro ⟨_, ib, hib, -, c, hc, he⟩
    exact ⟨ib, hib, c, hc, he⟩

theorem mem_tagsFor {addr t : String} : t ∈ tagsFor ibs addr ↔ t ≠ "" ∧ (t, addr) ∈ members ibs := by
  unfold tagsFor
  simp only [mem_filter, mem_map, any_eq_true, decide_eq_true_eq]
  constructor
  · rintro ⟨⟨ib, ⟨hib, c, hc, he⟩, rfl⟩, hne⟩
    exact ⟨hne, ib, hib, rfl, c, hc, he⟩
  · rintro ⟨hne, ib, hib, rfl, c, hc, he⟩
    exact ⟨⟨ib, ⟨hib, c, hc, he⟩, rfl⟩, hne⟩

theorem inboundTagsForUsers_eq_ok {tags : List (String × List String)} (hin : getInbounds cfg = .ok ibs)
    (h : inboundTagsForUsers cfg emails = .ok tags) {t : String} :
    (∃ ts, (e, ts) ∈ tags ∧ t ∈ ts) ↔ e ∈ emails ∧ t ≠ "" ∧ (t, e) ∈ members ibs := by
  rw [inboundTagsForUsers, hin, ok_bind] at h
  cases h
  rw [← mem_tagsFor]
  constructor
  · rintro ⟨ts, hen, ht⟩
    obtain ⟨e', he', heq⟩ := mem_map.1 (mem_of_mem_filter hen)
    obtain ⟨rfl, rfl⟩ := Prod.mk.inj heq
    exact ⟨mem_dedup.1 he', ht⟩
  · rintro ⟨he, ht⟩
    refine ⟨_, mem_filter.2 ⟨mem_map.2 ⟨e, mem_dedup.2 he, rfl⟩, ?_⟩, ht⟩
    simpa using ne_nil_of_mem ht

theorem desiredClients_cons_eq_ok : desiredClients emails (ib :: ibs) = .ok pay ↔
      (tag ib = "" ∧ desiredClients emails ibs = .ok pay) ∨
      tag ib ≠ "" ∧ ∃ cs rest, getClients ib = .ok cs ∧ desiredClients emails ibs = .ok rest ∧
        pay = ((cs.getD []).filter fun c => email c ≠ "" ∧ email c ∈ emails).map (TaggedClient.mk (tag ib)) ++
          rest := by
  rw [desiredClients]
  split_ifs with htag
  · simp [htag]
  simp only [bind_eq_ok, mapError_eq_ok, Except.ok.injEq]
  constructor
  · rintro ⟨cs, hc, rest, hr, rfl⟩
    exact .inr ⟨htag, cs, rest, hc, hr, rfl⟩
  rintro (⟨ht, -⟩ | ⟨-, cs, rest, hc, hr, rfl⟩)
  · exact absurd ht htag
  · exact ⟨cs, hc, rest, hr, rfl⟩

theorem getD_getClients {cs : Option (List RawMap)} (h : getClients ib = .ok cs) : cs.getD [] = readClients ib := by
  rcases cs with _ | cs
  · exact (readClients_of_none h).symm
  · exact (readClients_of_some h).symm

theorem mem_desiredClients (h : desiredClients emails ibs = .ok pay) {tagged : TaggedClient} :
    tagged ∈ pay ↔ tagged.tag ≠ "" ∧ email tagged.client ≠ "" ∧ email tagged.client ∈ emails ∧
      ∃ ib ∈ ibs, tag ib = tagged.tag ∧ tagged.client ∈ readClients ib := by
  induction ibs generalizing pay with
  | nil =>
    cases h
    simp
  | cons ib ibs ih =>
    rcases desiredClients_cons_eq_ok.1 h with ⟨htag, hre⟩ | ⟨htag, cs, rest, hcli, hre, rfl⟩
    · rw [ih hre]
      constructor
      · rintro ⟨ht, he, hin, found, hfo, hsp⟩
        exact ⟨ht, he, hin, found, mem_cons_of_mem _ hfo, hsp⟩
      rintro ⟨ht, he, hin, found, hfo, heq, hc⟩
      rcases mem_cons.1 hfo with rfl | hfo
      · exact absurd (heq.symm.trans htag) ht
      · exact ⟨ht, he, hin, found, hfo, heq, hc⟩
    · rw [mem_append, ih hre, getD_getClients hcli, mem_map]
      constructor
      · rintro (⟨c, hc, rfl⟩ | ⟨ht, he, hin, found, hfo, hsp⟩)
        · obtain ⟨hc, hlis⟩ := mem_filter.1 hc
          obtain ⟨he, hin⟩ := of_decide_eq_true hlis
          exact ⟨htag, he, hin, ib, mem_cons_self, rfl, hc⟩
        · exact ⟨ht, he, hin, found, mem_cons_of_mem _ hfo, hsp⟩
      · rintro ⟨ht, he, hin, found, hfo, heq, hc⟩
        rcases mem_cons.1 hfo with rfl | hfo
        · obtain ⟨t, c⟩ := tagged
          obtain rfl : tag found = t := heq
          exact .inl ⟨c, mem_filter.2 ⟨hc, decide_eq_true ⟨he, hin⟩⟩, rfl⟩
        · exact .inr ⟨ht, he, hin, found, hfo, heq, hc⟩

/-! What `MergeUsers` generates: the clients with an email that each inbound of the template gets depend on the
snapshot only through the parameters of its users, and not at all on the Reality keys put in before. -/

variable {ext : Externals} {users : List VPNUserConfig} {ib ib' tmpl cfg : RawMap}
  {ibs ibs' : List RawMap}

def namedClients (ib : RawMap) : List RawMap := (readClients ib).filter (email · ≠ "")

/-- The same inbounds with the same clients with an email, in any order. -/
def SameClients (inbounds inbounds' : List RawMap) : Prop :=
  List.Forall₂ (fun ib ib' => tag ib = tag ib' ∧ (namedClients ib).Perm (namedClients ib')) inbounds inbounds'

theorem readClients_of_not_hasClientList (h : hasClientList ib = false) : readClients ib = [] := by
  unfold readClients
  rcases hc : getClients ib with e | _ | cs
  · rfl
  · rfl
  · rw [hasClientList_of_getClients hc] at h
    contradiction

theorem hasClientList_of_mem {c : RawMap} (hc : c ∈ readClients ib) : hasClientList ib = true := by
  by_contra hli
  rw [readClients_of_not_hasClientList (by simpa using hli)] at hc
  cases hc

def generatedClients (ext : Externals) (users : List VPNUserConfig) (ib : RawMap) : List RawMap :=
  if hasClientList ib then ((buildDynamicClients ext ib users).filter (email · ≠ "")).map cleanLegacy else []

theorem mergeInbound_of_unlisted (hli : hasClientList ib = false) : mergeInbound ext users ib = .ok ib := by
  simp [mergeInbound, hli]

theorem mergeInbound_of_listed (hli : hasClientList ib = true) :
    mergeInbound ext users ib = .ok ib' ↔ (∃ cs, getClients ib = .ok cs) ∧
      setClients ib ((readClients ib).filter (email · = "") ++ buildDynamicClients ext ib users) = .ok ib' := by
  simp only [mergeInbound, hli, Bool.not_true, Bool.false_eq_true, if_false, bind_eq_ok, mapError_eq_ok]
  constructor
  · rintro ⟨cs, hcli, hset⟩
    rw [getD_getClients hcli] at hset
    exact ⟨⟨cs, hcli⟩, hset⟩
  rintro ⟨⟨cs, hcli⟩, hset⟩
  rw [← getD_getClients hcli] at hset
  exact ⟨cs, hcli, hset⟩

theorem mergeInbound_eq_ok (h : mergeInbound ext users ib = .ok ib') :
    hasClientList ib = false ∧ ib' = ib ∨ hasClientList ib = true ∧
      WithClients (((readClients ib).filter (email · = "") ++ buildDynamicClients ext ib users).map cleanLegacy)
        ib ib' := by
  rcases hli : hasClientList ib with _ | _
  · exact .inl ⟨rfl, ok_unique h (mergeInbound_of_unlisted hli)⟩
  · exact .inr ⟨rfl, WithClients.setClients hli ((mergeInbound_of_listed hli).1 h).2⟩

theorem mergeInbound_tag (h : mergeInbound ext users ib = .ok ib') : tag ib' = tag ib := by
  rcases mergeInbound_eq_ok h with ⟨-, rfl⟩ | ⟨-, hwi⟩
  · rfl
  · exact hwi.tag_eq

theorem filter_map_cleanLegacy (p : String → Bool) {l : List RawMap} :
    (l.map cleanLegacy).filter (fun c => p (email c)) = (l.filter fun c => p (email c)).map cleanLegacy := by
  rw [filter_map]
  congr 1
  exact filter_congr fun c _ => by simp

theorem mergeInbound_named (h : mergeInbound ext users ib = .ok ib') :
    namedClients ib' = generatedClients ext users ib := by
  unfold namedClients generatedClients
  rcases mergeInbound_eq_ok h with ⟨hli, rfl⟩ | ⟨hli, hwi⟩
  · simp [hli, readClients_of_not_hasClientList hli]
  rw [hwi.clients, if_pos hli, filter_map_cleanLegacy (fun e => decide (e ≠ "")), filter_append]
  have hano : ((readClients ib).filter (email · = "")).filter (fun c => decide (email c ≠ "")) = [] := by
    rw [filter_filter, filter_eq_nil_iff]
    intro c _
    simp
  rw [hano, nil_append]

/-- Merging fails on an inbound whose clients cannot be read, whatever the users. -/
theorem mergeInbound_succeeds (h : hasClientList ib = true → ∃ cs, getClients ib = .ok cs) :
    ∃ ib', mergeInbound ext users ib = .ok ib' := by
  rcases hli : hasClientList ib with _ | _
  · exact ⟨ib, mergeInbound_of_unlisted hli⟩
  · obtain ⟨settings, key, -, -, hset⟩ := setClients_eq hli
    exact ⟨_, (mergeInbound_of_listed hli).2 ⟨h hli, (hset _).1⟩⟩

theorem getInbounds_clone : getInbounds (some (tmpl.getD [])) = getInbounds tmpl := by
  cases tmpl <;> rfl

theorem mergeUsers_eq_ok (h : mergeUsers ext tmpl users = .ok cfg) :
    ∃ ibs ibs', getInbounds tmpl = .ok ibs ∧ getInbounds cfg = .ok ibs' ∧
      Forall₂ (fun ib ib' => mergeInbound ext users ib = .ok ib') ibs ibs' := by
  rw [mergeUsers, getInbounds_clone] at h
  simp only [bind_eq_ok, mapError_eq_ok] at h
  obtain ⟨ibs, hin, merged, hmer, hset⟩ := h
  exact ⟨ibs, merged, hin, getInbounds_setInbounds hset, mapM_eq_ok.1 hmer⟩

theorem mergeUsers_succeeds {users' : List VPNUserConfig} (h : mergeUsers ext tmpl users = .ok cfg) :
    ∃ cfg', mergeUsers ext tmpl users' = .ok cfg' := by
  obtain ⟨ibs, ibs', hin, -, hrou⟩ := mergeUsers_eq_ok h
  obtain ⟨merged, hmer⟩ : ∃ merged, ibs.mapM (mergeInbound ext users') = .ok merged := by
    have hr := exists_mapM_eq_ok.1 ⟨ibs', mapM_eq_ok.2 hrou⟩
    refine exists_mapM_eq_ok.2 fun ib hib => mergeInbound_succeeds fun hli => ?_
    obtain ⟨ib', hib'⟩ := hr ib hib
    exact ((mergeInbound_of_listed hli).1 hib').1
  rw [mergeUsers, getInbounds_clone, hin]
  simp only [Except.mapError, ok_bind, hmer, setInbounds]
  exact ⟨_, rfl⟩

theorem distinctUsers_subset (seen : List String) (users : List VPNUserConfig) :
    ∀ u ∈ distinctUsers seen users, u ∈ users ∧ u.email ≠ "" ∧ u.email ∉ seen := by
  induction users generalizing seen with
  | nil => simp [distinctUsers]
  | cons v users ih =>
    intro u hu
    rw [distinctUsers] at hu
    split_ifs at hu with hsk
    · obtain ⟨hin, hsp⟩ := ih seen u hu
      exact ⟨mem_cons_of_mem _ hin, hsp⟩
    push Not at hsk
    rcases mem_cons.1 hu with rfl | hu
    · exact ⟨mem_cons_self, hsk⟩
    · obtain ⟨hin, hne, hse⟩ := ih _ u hu
      exact ⟨mem_cons_of_mem _ hin, hne, fun h => hse (mem_cons_of_mem _ h)⟩

theorem distinctUsers_nodup (seen : List String) (users : List VPNUserConfig) :
    ((distinctUsers seen users).map (·.email)).Nodup := by
  induction users generalizing seen with
  | nil => simp [distinctUsers]
  | cons v users ih =>
    rw [distinctUsers]
    split_ifs
    · exact ih seen
    rw [map_cons, nodup_cons]
    refine ⟨fun h => ?_, ih _⟩
    obtain ⟨u, hu, heq⟩ := mem_map.1 h
    exact (distinctUsers_subset _ _ u hu).2.2 (heq ▸ mem_cons_self)

variable {u : VPNUserConfig} {env : AdapterEnv}

theorem exists_distinctUser (seen : List String) (hu : u ∈ users) (hne : u.email ≠ "") (hse : u.email ∉ seen) :
    ∃ v ∈ distinctUsers seen users, v.email = u.email := by
  induction users generalizing seen with
  | nil => simp at hu
  | cons v users ih =>
    rw [distinctUsers]
    split_ifs with hsk
    · rcases mem_cons.1 hu with rfl | hu
      · exact absurd hsk (not_or.2 ⟨hne, hse⟩)
      · exact ih seen hu hse
    by_cases hv : v.email = u.email
    · exact ⟨v, mem_cons_self, hv⟩
    rcases mem_cons.1 hu with rfl | hu
    · exact absurd rfl hv
    · obtain ⟨w, hw, heq⟩ := ih (v.email :: seen) hu (by simp [hse, Ne.symm hv])
      exact ⟨w, mem_cons_of_mem _ hw, heq⟩

/-- The fields of a user that the state hash covers. -/
def hashedFields (u : VPNUserConfig) : List String × Int :=
  ([u.email, u.uuid, u.auth, u.subfile, u.expire, u.flow], u.maxDevices)

variable {v : VPNUserConfig} {users' : List VPNUserConfig} {keys : RealityKeys} {tmpl' : RawMap} {fails : Faults}
  {file : Option Raw} {raw : Raw}

theorem email_of_hashedFields (h : hashedFields u = hashedFields v) : u.email = v.email :=
  (cons.inj (Prod.mk.inj h).1).1

def Consistent (users : List VPNUserConfig) : Prop :=
  ∀ u ∈ users, ∀ v ∈ users, u.email = v.email → hashedFields u = hashedFields v

theorem configToParams_congr (h : hashedFields u = hashedFields v) : configToParams u = configToParams v := by
  simp only [hashedFields, Prod.mk.injEq, cons.injEq, and_true] at h
  obtain ⟨⟨hem, huu, hau, hsub, hexp, hfl⟩, hli⟩ := h
  simp [configToParams, hem, huu, hau, hsub, hexp, hfl, hli]

theorem mem_distinctParams (hconsistent : Consistent users) {params : ClientParams} :
    params ∈ (distinctUsers [] users).map configToParams ↔ ∃ u ∈ users, u.email ≠ "" ∧ configToParams u = params := by
  rw [mem_map]
  constructor
  · rintro ⟨u, hu, rfl⟩
    obtain ⟨hin, hne, -⟩ := distinctUsers_subset _ _ u hu
    exact ⟨u, hin, hne, rfl⟩
  rintro ⟨u, hu, hne, rfl⟩
  obtain ⟨v, hv, heq⟩ := exists_distinctUser [] hu hne not_mem_nil
  exact ⟨v, hv, configToParams_congr (hconsistent v (distinctUsers_subset _ _ v hv).1 u hu heq)⟩

theorem distinctParams_nodup : ((distinctUsers [] users).map configToParams).Nodup := by
  refine Nodup.of_map ClientParams.email ?_
  rw [map_map]
  exact distinctUsers_nodup [] users

section

variable (hconsistent : Consistent users) (hperm : (users.map hashedFields).Perm (users'.map hashedFields))
include hconsistent hperm

theorem Consistent.of_perm : Consistent users' := by
  intro u hu v hv heq
  obtain ⟨u', hu', hufi⟩ := mem_map.1 (hperm.mem_iff.2 (mem_map_of_mem hu))
  obtain ⟨v', hv', hvfi⟩ := mem_map.1 (hperm.mem_iff.2 (mem_map_of_mem hv))
  rw [← hufi, ← hvfi]
  exact hconsistent u' hu' v' hv' ((email_of_hashedFields hufi).trans (heq.trans (email_of_hashedFields hvfi).symm))

theorem generatedClients_perm : (generatedClients ext users ib).Perm (generatedClients ext users' ib) := by
  have hpar : ((distinctUsers [] users).map configToParams).Perm ((distinctUsers [] users').map configToParams) := by
    have htra {a b : List VPNUserConfig} (hab : (a.map hashedFields).Perm (b.map hashedFields))
        {params : ClientParams} (h : ∃ u ∈ a, u.email ≠ "" ∧ configToParams u = params) :
        ∃ u ∈ b, u.email ≠ "" ∧ configToParams u = params := by
      obtain ⟨u, hu, hne, rfl⟩ := h
      obtain ⟨v, hv, hfie⟩ := mem_map.1 (hab.mem_iff.1 (mem_map_of_mem hu))
      exact ⟨v, hv, email_of_hashedFields hfie ▸ hne, configToParams_congr hfie⟩
    refine (perm_ext_iff_of_nodup distinctParams_nodup distinctParams_nodup).2 fun params => ?_
    rw [mem_distinctParams hconsistent, mem_distinctParams (hconsistent.of_perm hperm)]
    exact ⟨htra hperm, htra hperm.symm⟩
  have hdyn (users : List VPNUserConfig) : buildDynamicClients ext ib users =
      ((distinctUsers [] users).map configToParams).filterMap fun params => (buildClient ext ib params).toOption := by
    rw [buildDynamicClients, filterMap_map]
    rfl
  unfold generatedClients
  split_ifs
  · rw [hdyn, hdyn]
    exact ((hpar.filterMap _).filter _).map _
  · exact Perm.refl _

end

/-- The inbound has other Reality keys and is the same otherwise. -/
structure Rekeyed (ib ib' : RawMap) : Prop where
  keys : ∀ k ≠ "streamSettings", ib'.get k = ib.get k
  stream : ∀ k ≠ "realitySettings", (streamSettings ib').map (·.get k) = (streamSettings ib).map (·.get k)

namespace Rekeyed

theorem refl (ib : RawMap) : Rekeyed ib ib := ⟨fun _ _ => rfl, fun _ _ => rfl⟩

section

variable (h : Rekeyed ib ib')
include h

theorem tag_eq : tag ib' = tag ib := tag_congr (h.keys _ (by decide))

theorem protocol_eq : protocol ib' = protocol ib := protocol_congr (h.keys _ (by decide))

theorem parseSettings_eq : parseSettings ib' = parseSettings ib := by
  rw [parseSettings, parseSettings, h.keys _ (by decide)]

theorem hasClientList_eq : hasClientList ib' = hasClientList ib := by
  rw [hasClientList, hasClientList, clientsKey, clientsKey, h.parseSettings_eq]

theorem getClients_eq : getClients ib' = getClients ib := by
  rw [getClients, getClients, h.parseSettings_eq]

theorem readClients_eq : readClients ib' = readClients ib := by
  rw [readClients, readClients, h.getClients_eq]

/-- Both have stream settings or none has, and then all but the keys agree. -/
theorem stream_cases : streamSettings ib = none ∧ streamSettings ib' = none ∨
    ∃ stream stream', streamSettings ib = some stream ∧ streamSettings ib' = some stream' ∧
      ∀ k ≠ "realitySettings", stream'.get k = stream.get k := by
  have hstr := h.stream
  rcases hs : streamSettings ib with _ | stream
  · rcases hs' : streamSettings ib' with _ | stream'
    · exact .inl ⟨rfl, rfl⟩
    · have hnet := hstr "network" (by decide)
      simp [hs, hs'] at hnet
  · rcases hs' : streamSettings ib' with _ | stream'
    · have hnet := hstr "network" (by decide)
      simp [hs, hs'] at hnet
    · refine .inr ⟨stream, stream', rfl, rfl, fun k hk => ?_⟩
      have hk := hstr k hk
      rw [hs, hs'] at hk
      exact Option.some.inj hk

theorem isHTTPTransport_eq : isHTTPTransport ib' = isHTTPTransport ib := by
  unfold isHTTPTransport
  rcases h.stream_cases with ⟨hs, hs'⟩ | ⟨stream, stream', hs, hs', hget⟩
  · rw [hs, hs']
  · simp only [hs, hs', hget "network" (by decide)]

theorem hasXTLS_eq : hasXTLS ib' = hasXTLS ib := by
  unfold hasXTLS
  rw [h.parseSettings_eq]
  rcases h.stream_cases with ⟨hs, hs'⟩ | ⟨stream, stream', hs, hs', hget⟩
  · rw [hs, hs']
  have hte {k : String} (hk : k ≠ "realitySettings") : rawString stream' k = rawString stream k := by
    rw [rawString, rawString, hget k hk]
  rw [hs, hs']
  rcases parseSettings ib with e | settings
  · rfl
  · simp only [hte (k := "network") (by decide), hte (k := "security") (by decide)]

theorem buildClient_eq (params : ClientParams) : buildClient ext ib' params = buildClient ext ib params := by
  have hfl : vlessFlow ib' params = vlessFlow ib params := by
    rw [vlessFlow, vlessFlow, h.isHTTPTransport_eq, h.hasXTLS_eq]
  rw [buildClient, buildClient, h.protocol_eq, hfl]

theorem generatedClients_eq : generatedClients ext users ib' = generatedClients ext users ib := by
  unfold generatedClients buildDynamicClients
  rw [h.hasClientList_eq]
  simp only [h.buildClient_eq]

end

end Rekeyed

theorem rekeyed_injectInbound (h : injectInbound keys ib = some ib') : Rekeyed ib ib' := by
  unfold injectInbound at h
  rcases hs : streamSettings ib with _ | stream
  · simp [hs] at h
  simp only [hs] at h
  split at h
  · split_ifs at h
    cases h
    have hne : ib ≠ none := by
      rintro rfl
      simp [streamSettings, RawMap.get] at hs
    refine ⟨fun k hk => RawMap.get_set_of_ne hk, fun k hk => ?_⟩
    rw [hs, streamSettings, RawMap.get_set_self hne]
    simp only [Option.map_some, unmarshal_marshalMap, RawMap.get_set_of_ne hk]
  · contradiction

theorem rekeyed_injectRealityKeys {cfg' : RawMap} (hin : getInbounds cfg = .ok ibs)
    (h : injectRealityKeys keys cfg = .ok cfg') :
    ∃ ibs', getInbounds cfg' = .ok ibs' ∧ Forall₂ Rekeyed ibs ibs' := by
  rw [injectRealityKeys, hin, ok_bind] at h
  split_ifs at h
  · refine ⟨_, getInbounds_setInbounds h, ?_⟩
    rw [forall₂_map_right_iff, forall₂_same]
    intro ib _
    rcases hib : injectInbound keys ib with _ | ib'
    · exact Rekeyed.refl ib
    · exact rekeyed_injectInbound hib
  · cases h
    exact ⟨ibs, hin, forall₂_same.2 fun ib _ => Rekeyed.refl ib⟩

section

variable (h : Machine.keyedTemplate env tmpl = .ok tmpl')
include h

theorem keyedTemplate_eq_ok : tmpl' = tmpl ∨ ∃ keys, injectRealityKeys keys tmpl = .ok tmpl' := by
  unfold Machine.keyedTemplate at h
  by_cases hpa : env.realityKeysPath = ""
  · rw [if_pos hpa] at h
    exact .inl (Except.ok.inj h).symm
  rw [if_neg hpa] at h
  rcases hke : env.realityKeys with e | keys
  · simp only [hke] at h
    split_ifs at h
    exact .inl (Except.ok.inj h).symm
  · simp only [hke] at h
    exact .inr ⟨keys, mapError_eq_ok.1 h⟩

theorem rekeyed_keyedTemplate (hin' : getInbounds tmpl' = .ok ibs') :
    ∃ ibs, getInbounds tmpl = .ok ibs ∧ Forall₂ Rekeyed ibs ibs' := by
  rcases keyedTemplate_eq_ok h with rfl | ⟨keys, hke⟩
  · exact ⟨ibs', hin', forall₂_same.2 fun ib _ => Rekeyed.refl ib⟩
  rcases hin : getInbounds tmpl with e | ibs
  · rw [injectRealityKeys, hin] at hke
    contradiction
  obtain ⟨ibs1, hin1, hall⟩ := rekeyed_injectRealityKeys hin hke
  obtain rfl := ok_unique hin' hin1
  exact ⟨ibs, rfl, hall⟩

end

def Generates (ext : Externals) (users : List VPNUserConfig) (ib ib' : RawMap) : Prop :=
  ∃ keyed, Rekeyed ib keyed ∧ mergeInbound ext users keyed = .ok ib'

namespace Generates

theorem tag_eq (h : Generates ext users ib ib') : tag ib' = tag ib := by
  obtain ⟨keyed, hke, hme⟩ := h
  exact (mergeInbound_tag hme).trans hke.tag_eq

theorem named (h : Generates ext users ib ib') : namedClients ib' = generatedClients ext users ib := by
  obtain ⟨keyed, hke, hme⟩ := h
  rw [mergeInbound_named hme, hke.generatedClients_eq]

end Generates

theorem getInbounds_preserve {existing merged : RawMap} {key : String} (h : key ≠ "inbounds") :
    getInbounds (Machine.preserve existing merged key) = getInbounds merged := by
  unfold Machine.preserve
  split
  · rw [getInbounds, getInbounds, RawMap.get_set_of_ne h.symm]
  · rfl

theorem regenerateConfig_eq_ok (h : Machine.regenerateConfig env fails file users = .ok raw) :
    ∃ tmpl ibs ibs', readConfig env.template = .ok tmpl ∧ getInbounds tmpl = .ok ibs ∧
      inboundsOf (some raw) = .ok ibs' ∧ Forall₂ (Generates env.ext users) ibs ibs' := by
  unfold Machine.regenerateConfig at h
  simp only [bind_eq_ok, mapError_eq_ok] at h
  obtain ⟨tmpl, htem, keyed, hke, merged, hmer, h⟩ := h
  split_ifs at h
  cases h
  obtain ⟨keyedInbounds, ibs', hin, hin', hrou⟩ := mergeUsers_eq_ok hmer
  obtain ⟨ibs, htemp, hrek⟩ := rekeyed_keyedTemplate hke hin
  refine ⟨tmpl, ibs, ibs', htem, htemp, ?_, forall₂_comp hrek hrou⟩
  rw [inboundsOf_marshalMap]
  simp only [foldl_cons, foldl_nil]
  rw [getInbounds_preserve (by decide), getInbounds_preserve (by decide), hin']

theorem mem_generatedClients {c : RawMap} (h : c ∈ generatedClients ext users ib) :
    email c ≠ "" ∧ ∃ u ∈ users, u.email ≠ "" ∧ trimSpace u.email = email c := by
  rw [generatedClients] at h
  split_ifs at h
  · obtain ⟨built, hbu, rfl⟩ := mem_map.1 h
    obtain ⟨hdyn, hne⟩ := mem_filter.1 hbu
    obtain ⟨u, hu, hcli⟩ := mem_filterMap.1 hdyn
    obtain ⟨hin, hem, -⟩ := distinctUsers_subset _ _ u hu
    rw [email_cleanLegacy]
    refine ⟨by simpa using hne, u, hin, hem, ?_⟩
    rcases hb : buildClient ext ib (configToParams u) with err | c
    · rw [hb] at hcli
      contradiction
    rw [hb] at hcli
    cases hcli
    rw [email_built hb]
    rfl
  · contradiction

/-- The pairs of a tag and an email for which the template generates a client. -/
def templateMembers (env : AdapterEnv) (users : List VPNUserConfig) : Set (String × String) :=
  {p | ∃ inbounds ib, inboundsOf env.template = .ok inbounds ∧ ib ∈ inbounds ∧ tag ib = p.1 ∧
    p.2 ∈ emailsOf (generatedClients env.ext users ib)}

theorem mem_generated (h : Machine.regenerateConfig env fails file users = .ok raw) {p : String × String} :
    p ∈ fileMembers (some raw) ∧ p.2 ≠ "" ↔ p ∈ templateMembers env users := by
  obtain ⟨tmpl, ibs, ibs', hr, hin, hin', hrou⟩ := regenerateConfig_eq_ok h
  have htem : inboundsOf env.template = .ok ibs := inboundsOf_eq_ok.2 ⟨tmpl, hr, hin⟩
  have hna (ib' : RawMap) : p.2 ∈ emailsOf (readClients ib') ∧ p.2 ≠ "" ↔ p.2 ∈ emailsOf (namedClients ib') := by
    simp only [emailsOf, namedClients, mem_filter, decide_eq_true_eq, Set.mem_ofPred_eq]
    constructor
    · rintro ⟨⟨c, hc, he⟩, hne⟩
      exact ⟨c, ⟨hc, he ▸ hne⟩, he⟩
    · rintro ⟨c, ⟨hc, hne⟩, he⟩
      exact ⟨⟨c, hc, he⟩, he ▸ hne⟩
  have hro : (∃ ib' ∈ ibs', tag ib' = p.1 ∧ p.2 ∈ emailsOf (namedClients ib')) ↔
      ∃ ib ∈ ibs, tag ib = p.1 ∧ p.2 ∈ emailsOf (generatedClients env.ext users ib) :=
    exists_mem_iff_of_forall₂ (hrou.imp fun ib ib' hgen => by rw [hgen.tag_eq, hgen.named])
  rw [fileMembers_of_ok hin']
  constructor
  · rintro ⟨⟨ib', hib', ht, he⟩, hne⟩
    obtain ⟨ib, hib, ht, he⟩ := hro.1 ⟨ib', hib', ht, (hna ib').1 ⟨he, hne⟩⟩
    exact ⟨ibs, ib, htem, hib, ht, he⟩
  rintro ⟨ibs1, ib, hin1, hib, ht, he⟩
  obtain rfl := ok_unique htem hin1
  obtain ⟨ib', hib', ht, he⟩ := hro.2 ⟨ib, hib, ht, he⟩
  obtain ⟨he, hne⟩ := (hna ib').2 he
  exact ⟨⟨ib', hib', ht, he⟩, hne⟩

end Xraytool.Xray
