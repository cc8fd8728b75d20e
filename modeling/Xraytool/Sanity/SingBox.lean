import Xraytool.Spec.SingBox

/-! What the operations of the Sing-box plugin do to the emails of an inbound, and what a call can leave behind: a
failing call may have changed the bans in memory and nothing else. -/

namespace Xraytool.SingBox

open Transition List Assoc
open Xray (Raw Failure)

variable {value : Raw} {key key' t : String} {existing : Object} {recs : List (String × List Object)}

variable {record : Object}

theorem mapString_put : mapString (put record key value) key' =
      if key' = key then mapString [(key, value)] key else mapString record key' := by
  unfold mapString
  rw [lookup_put]
  split_ifs with h
  · rw [Assoc.lookup_cons, if_pos rfl]
  · rfl

theorem mapString_cons :
    mapString ((key, value) :: record) key' = if key' = key then mapString [(key, value)] key
      else mapString record key' := by
  unfold mapString
  rw [Assoc.lookup_cons, Assoc.lookup_cons, if_pos rfl]
  split_ifs <;> rfl

theorem mapString_str {text : String} : mapString [(key, .str text)] key = trimSpace text := by
  simp [mapString]

theorem trimSpace_mapString : trimSpace (mapString record key) = mapString record key := by
  unfold mapString
  split
  · exact trimSpace_idem
  · decide

theorem trimSpace_userEmail : trimSpace (userEmail record) = userEmail record := by
  unfold userEmail
  split_ifs <;> exact trimSpace_mapString

variable {record ib : Object} {addr : String} {user : VPNUserConfig} {change : Object → Object}
  {users : List VPNUserConfig}

theorem userEmail_congr {record' : Object} (hna : mapString record' "name" = mapString record "name")
    (hem : mapString record' "email" = mapString record "email") : userEmail record' = userEmail record := by
  rw [userEmail, userEmail, hna, hem]

theorem userEmail_of_name (hna : mapString record "name" = addr) (h : addr ≠ "") : userEmail record = addr := by
  rw [userEmail, hna, if_pos h]

theorem userEmail_putMetadata : userEmail (put record "xraytool" value) = userEmail record := by
  apply userEmail_congr
  all_goals rw [mapString_put, if_neg (by decide)]

theorem mapString_userRecord : mapString (userRecordForInbound ib user) "name" = trimSpace user.email := by
  unfold userRecordForInbound
  rw [cons_append, mapString_cons, if_pos rfl, mapString_str]

theorem userEmail_userRecord (h : trimSpace user.email ≠ "") :
    userEmail (userRecordForInbound ib user) = trimSpace user.email :=
  userEmail_of_name mapString_userRecord h

theorem mapString_merge_of_absent {repl : Object} (h : ∀ entry ∈ repl, entry.1 ≠ key)
    (hkey : key ≠ "xraytool") : mapString (mergeUserRecord existing repl) key = mapString existing key := by
  induction repl generalizing existing with
  | nil => rfl
  | cons entry repl ih =>
    obtain ⟨hen, hre⟩ := forall_mem_cons.1 h
    unfold mergeUserRecord at ih ⊢
    rw [foldl_cons, ih hre]
    split_ifs
    · rw [mapString_put, if_neg hkey]
    · rw [mapString_put, if_neg (Ne.symm hen)]

theorem name_notMem_credentials (ib : Object) (user : VPNUserConfig) :
    ∀ entry ∈ (userRecordForInbound ib user).tail, entry.1 ≠ "name" := by
  intro entry hen
  unfold userRecordForInbound at hen
  simp only [cons_append, tail_cons, mem_append] at hen
  rcases hen with hen | hen
  · split_ifs at hen <;> simp at hen <;> rcases hen with rfl | rfl <;> simp
  · split_ifs at hen <;> simp at hen <;> subst hen <;> simp

theorem mapString_merge_userRecord (existing ib : Object) (user : VPNUserConfig) :
    mapString (mergeUserRecord existing (userRecordForInbound ib user)) "name" = trimSpace user.email := by
  have hta := name_notMem_credentials ib user
  rcases hrec : userRecordForInbound ib user with - | ⟨⟨key, value⟩, rest⟩
  · simp [userRecordForInbound] at hrec
  rw [hrec, tail_cons] at hta
  obtain ⟨rfl, rfl⟩ : key = "name" ∧ value = .str user.email := by
    simp only [userRecordForInbound, cons_append, cons.injEq, Prod.mk.injEq] at hrec
    exact ⟨hrec.1.1.symm, hrec.1.2.symm⟩
  have hme : mergeUserRecord existing (("name", .str user.email) :: rest) =
      mergeUserRecord (put existing "name" (.str user.email)) rest := rfl
  rw [hme, mapString_merge_of_absent hta (by decide), mapString_put, if_pos rfl, mapString_str]

theorem userEmail_merge (h : trimSpace user.email ≠ "") :
    userEmail (mergeUserRecord existing (userRecordForInbound ib user)) = trimSpace user.email :=
  userEmail_of_name (mapString_merge_userRecord existing ib user) h

def emailsOf (inbound : Object) : List String := (inboundUsers inbound).map userEmail

theorem inboundUsers_write {users : List Object} : inboundUsers (writeInboundUsers ib users) = users := by
  unfold inboundUsers writeInboundUsers
  rw [lookup_put, if_pos rfl]
  induction users with
  | nil => rfl
  | cons user users ih => simpa [asObject] using ih

theorem emailsOf_write {users : List Object} : emailsOf (writeInboundUsers ib users) = users.map userEmail := by
  rw [emailsOf, inboundUsers_write]

theorem mem_emailsOf : addr ∈ emailsOf ib ↔ ∃ user ∈ inboundUsers ib, userEmail user = addr := mem_map

theorem any_userEmail {users : List Object} : users.any (userEmail · = addr) ↔ addr ∈ users.map userEmail := by
  simp [any_eq_true]

theorem trimSpace_of_mem (h : addr ∈ emailsOf ib) : trimSpace addr = addr := by
  obtain ⟨user, -, rfl⟩ := mem_emailsOf.1 h
  exact trimSpace_userEmail

theorem map_updateFirst {p : Object → Bool} (h : ∀ record, p record → userEmail (change record) = userEmail record)
    {recs : List Object} : (updateFirst p change recs).map userEmail = recs.map userEmail := by
  induction recs with
  | nil => rfl
  | cons record recs ih =>
    unfold updateFirst
    split_ifs with hp
    · rw [map_cons, map_cons, h record hp]
    · rw [map_cons, map_cons, ih]

theorem emailsOf_addToInbound (h : trimSpace user.email ≠ "") : emailsOf (addToInbound user ib) =
      if user.email ∈ emailsOf ib then emailsOf ib else emailsOf ib ++ [trimSpace user.email] := by
  unfold addToInbound
  rw [emailsOf_write]
  by_cases hmem : user.email ∈ emailsOf ib
  · rw [if_pos (any_userEmail.2 hmem), if_pos hmem]
    refine map_updateFirst (fun record hrec => ?_)
    rw [userEmail_merge h, trimSpace_of_mem hmem]
    exact (of_decide_eq_true hrec).symm
  · rw [if_neg (mt any_userEmail.1 hmem), if_neg hmem, map_append, map_singleton, userEmail_userRecord h]
    rfl

theorem mem_addToInbound (h : trimSpace user.email ≠ "") :
    addr ∈ emailsOf (addToInbound user ib) ↔ addr ∈ emailsOf ib ∨ addr = trimSpace user.email := by
  rw [emailsOf_addToInbound h]
  split_ifs with hmem
  · refine ⟨Or.inl, fun hor => hor.elim id fun heq => ?_⟩
    rw [heq, trimSpace_of_mem hmem]
    exact hmem
  · simp

/-- The index of the bulk call points at records of the indexed email. -/
def Indexed (users : List Object) (index : List (String × Nat)) : Prop :=
  ∀ address i, index.lookup address = some i → ∃ user, users[i]? = some user ∧ userEmail user = trimSpace address

theorem indexed_indexByEmail {users : List Object} : Indexed users (indexByEmail users) := by
  intro addr i h
  obtain ⟨entry, hen, heq⟩ := mem_map.1 (mem_of_lookup_ofList h)
  obtain ⟨rfl, rfl⟩ := Prod.mk.inj heq
  refine ⟨entry.1, ?_, trimSpace_userEmail.symm⟩
  exact mem_zipIdx_iff_getElem?.1 (mem_filter.1 hen).1

theorem map_modify_of_userEmail {users : List Object} {i : Nat} {user : Object} (hi : users[i]? = some user)
    (h : userEmail (change user) = userEmail user) : (users.modify i change).map userEmail = users.map userEmail := by
  apply ext_getElem?
  intro j
  by_cases hj : i = j
  · subst hj
    simp [hi, h]
  · simp [hj]

variable {acc : List Object × List (String × Nat)} {ibs : List Object} {tags : List String} {doc : Object}
  {p p' : Plugin} {env : PluginEnv}

theorem addInBulk_spec (hin : Indexed acc.1 acc.2) (h : trimSpace user.email ≠ "") :
    Indexed (addInBulk ib acc user).1 (addInBulk ib acc user).2 ∧
      ∀ addr, addr ∈ (addInBulk ib acc user).1.map userEmail ↔
        addr ∈ acc.1.map userEmail ∨ addr = trimSpace user.email := by
  obtain ⟨users, index⟩ := acc
  unfold addInBulk
  rcases hl : index.lookup user.email with - | i
  · refine ⟨fun addr i hi => ?_, fun addr => ?_⟩
    · rw [lookup_put] at hi
      split_ifs at hi with hadd
      · cases hi
        refine ⟨_, getElem?_concat_length, ?_⟩
        rw [userEmail_userRecord h, hadd]
      · obtain ⟨record, hrec, heq⟩ := hin addr i hi
        exact ⟨record, List.getElem?_append_left (List.getElem?_eq_some_iff.1 hrec).1 ▸ hrec, heq⟩
    · simp [userEmail_userRecord h]
  · obtain ⟨record, hrec, heq⟩ := hin user.email i hl
    have hsa : (users.modify i (mergeUserRecord · (userRecordForInbound ib user))).map userEmail =
        users.map userEmail := by
      refine map_modify_of_userEmail hrec ?_
      rw [userEmail_merge h, heq]
    refine ⟨fun addr j hj => ?_, fun addr => ?_⟩
    · obtain ⟨other, ho, hadd⟩ := hin addr j hj
      have hmap : (users.map userEmail)[j]? = some (trimSpace addr) := by rw [getElem?_map, ho]; simp [hadd]
      rw [← hsa, getElem?_map] at hmap
      obtain ⟨new, hnew, hem⟩ := Option.map_eq_some_iff.1 hmap
      exact ⟨new, hnew, hem⟩
    · rw [hsa]
      refine ⟨Or.inl, fun hor => hor.elim id fun heq' => ?_⟩
      rw [heq', ← heq]
      exact mem_map_of_mem (mem_of_getElem? hrec)

theorem foldl_addInBulk (h : ∀ user ∈ users, trimSpace user.email ≠ "") (hin : Indexed acc.1 acc.2) :
    addr ∈ (users.foldl (addInBulk ib) acc).1.map userEmail ↔
      addr ∈ acc.1.map userEmail ∨ ∃ user ∈ users, addr = trimSpace user.email := by
  induction users generalizing acc with
  | nil => simp
  | cons user users ih =>
    obtain ⟨hu, hre⟩ := forall_mem_cons.1 h
    obtain ⟨hin', hmem⟩ := addInBulk_spec hin hu
    rw [foldl_cons, ih hre hin', hmem]
    simp [or_assoc]

theorem mem_addAllToInbound (h : ∀ user ∈ users, trimSpace user.email ≠ "") :
    addr ∈ emailsOf (addAllToInbound users ib) ↔ addr ∈ emailsOf ib ∨ ∃ user ∈ users, addr = trimSpace user.email := by
  unfold addAllToInbound
  rw [emailsOf_write]
  exact foldl_addInBulk h indexed_indexByEmail

variable {emails : List String} {cand : Object}

theorem mem_removeFromInbound :
    addr ∈ emailsOf (removeFromInbound emails ib) ↔ addr ∈ emailsOf ib ∧ addr ∉ emails := by
  unfold removeFromInbound
  rw [emailsOf_write, mem_map, mem_emailsOf]
  refine ⟨?_, ?_⟩
  · rintro ⟨user, hu, rfl⟩
    rw [mem_filter] at hu
    exact ⟨⟨user, hu.1, rfl⟩, of_decide_eq_true hu.2⟩
  · rintro ⟨⟨user, hu, rfl⟩, hnot⟩
    exact ⟨user, mem_filter.2 ⟨hu, decide_eq_true hnot⟩, rfl⟩

theorem emailsOf_updateMetadata : emailsOf (updateMetadata addr key value ib) = emailsOf ib := by
  unfold updateMetadata
  rw [emailsOf_write, map_map]
  refine map_congr_left fun user _ => ?_
  dsimp only [Function.comp_apply]
  split_ifs
  · exact userEmail_putMetadata
  · rfl

theorem inboundUsers_restoreInbound
    (h : ∀ record ∈ (recs.lookup (mapString ib "tag")).getD [], userEmail record = addr) :
    inboundUsers (restoreInbound addr recs ib) = inboundUsers ib ++
      if addr ∈ emailsOf ib then [] else ((recs.lookup (mapString ib "tag")).getD []).take 1 := by
  unfold restoreInbound
  generalize (recs.lookup (mapString ib "tag")).getD [] = found at h
  have hpresent (ib : Object) (found : List Object) (hmem : addr ∈ emailsOf ib) :
      found.foldl (fun ib record => if (inboundUsers ib).any (userEmail · = addr) then ib
        else writeInboundUsers ib (inboundUsers ib ++ [record])) ib = ib := by
    induction found with
    | nil => rfl
    | cons record found ih => rwa [foldl_cons, if_pos (any_userEmail.2 hmem)]
  split_ifs with hmem
  · rw [hpresent ib found hmem, append_nil]
  rcases found with - | ⟨record, found⟩
  · simp
  -- the other records of the tag find the user present
  rw [foldl_cons, if_neg (mt any_userEmail.1 hmem), hpresent, inboundUsers_write]
  · rfl
  · rw [emailsOf_write, map_append, map_singleton, h record mem_cons_self]
    simp

theorem mem_restoreInbound
    (h : ∀ record ∈ (recs.lookup (mapString ib "tag")).getD [], userEmail record = addr) {other : String} :
    other ∈ emailsOf (restoreInbound addr recs ib) ↔ other ∈ emailsOf ib ∨
      other = addr ∧ (recs.lookup (mapString ib "tag")).getD [] ≠ [] := by
  rw [emailsOf, inboundUsers_restoreInbound h, map_append, mem_append]
  refine or_congr_right' fun hnot => ?_
  rcases hfo : (recs.lookup (mapString ib "tag")).getD [] with - | ⟨record, found⟩
  · simp
  rw [hfo] at h
  split_ifs with hmem
  · have hoth : other ≠ addr := fun heq => hnot (heq ▸ hmem)
    simp [hoth]
  · simp [h record mem_cons_self]

theorem banRecords_eq_nil (h : ∀ ib ∈ ibs, addr ∉ emailsOf ib) : banRecords addr ibs = [] := by
  unfold banRecords
  induction ibs with
  | nil => rfl
  | cons ib ibs ih =>
    obtain ⟨hinb, hre⟩ := forall_mem_cons.1 h
    have hn : (inboundUsers ib).filter (userEmail · = addr) = [] := by
      rw [filter_eq_nil_iff]
      intro user hu heq
      exact hinb (mem_emailsOf.2 ⟨user, hu, of_decide_eq_true heq⟩)
    rw [foldl_cons, if_pos hn]
    exact ih hre

theorem lookup_banRecords : ((banRecords addr ibs).lookup t).getD [] =
      (ibs.filter (mapString · "tag" = t)).flatMap fun ib =>
        (inboundUsers ib).filter (userEmail · = addr) := by
  unfold banRecords
  induction ibs using reverseRecOn with
  | nil => rfl
  | append_singleton ibs ib ih =>
    rw [foldl_append, foldl_cons, foldl_nil, filter_append, flatMap_append, ← ih]
    by_cases ht : mapString ib "tag" = t
    · rw [filter_cons_of_pos (by simpa using ht), filter_nil, flatMap_singleton]
      by_cases hn : (inboundUsers ib).filter (userEmail · = addr) = []
      · rw [if_pos hn, hn, append_nil]
      · rw [if_neg hn, lookup_put, if_pos ht.symm, Option.getD_some, ht]
    · rw [filter_cons_of_neg (by simpa using ht), filter_nil, flatMap_nil, append_nil]
      by_cases hn : (inboundUsers ib).filter (userEmail · = addr) = []
      · rw [if_pos hn]
      · rw [if_neg hn, lookup_put, if_neg (Ne.symm ht)]

theorem userEmail_of_banRecords (h : record ∈ ((banRecords addr ibs).lookup t).getD []) : userEmail record = addr := by
  rw [lookup_banRecords, mem_flatMap] at h
  obtain ⟨ib, -, hrec⟩ := h
  exact of_decide_eq_true (mem_filter.1 hrec).2

theorem lookup_desiredUsers (h : (desiredUsers users).lookup addr = some user) :
    addr ≠ "" ∧ trimSpace user.email = addr ∧ ∃ listed ∈ users, trimSpace listed.email = addr := by
  obtain ⟨listed, hlis, heq⟩ := mem_map.1 (mem_of_lookup_ofList h)
  obtain ⟨rfl, rfl⟩ := Prod.mk.inj heq
  obtain ⟨hmem, hne⟩ := mem_filter.1 hlis
  exact ⟨of_decide_eq_true hne, trimSpace_idem, listed, hmem, rfl⟩

theorem mem_sortedKeys {α : Type} {m : List (String × α)} {v : α} (h : m.lookup key = some v) : key ∈ sortedKeys m := by
  unfold sortedKeys
  rw [mem_insertionSort]
  exact mem_map_of_mem (mem_of_lookup h)

theorem has_desiredUsers (hne : addr ≠ "") :
    has (desiredUsers users) addr ↔ ∃ user ∈ users, trimSpace user.email = addr := by
  refine ⟨fun h => ?_, ?_⟩
  · obtain ⟨user, hu⟩ := Option.isSome_iff_exists.1 h
    exact (lookup_desiredUsers hu).2.2
  rintro ⟨user, hu, rfl⟩
  refine Option.isSome_iff_exists.2 (exists_lookup_ofList ?_)
  rw [map_map]
  exact mem_map.2 ⟨user, mem_filter.2 ⟨hu, decide_eq_true hne⟩, rfl⟩

/-- A sync brings the listed emails, and keeps the others if orphans stay. -/
theorem mem_syncInbound {orphans : Bool} (hne : addr ≠ "") :
    addr ∈ emailsOf (syncInbound (desiredUsers users) orphans ib) ↔
      (∃ user ∈ users, trimSpace user.email = addr) ∨ orphans = false ∧ addr ∈ emailsOf ib := by
  unfold syncInbound
  rw [emailsOf_write, map_append, map_append, mem_append, mem_append, ← has_desiredUsers hne]
  have hwan (key : String) (user : VPNUserConfig) (hu : (desiredUsers users).lookup key = some user) :
      userEmail ((((recordsByEmail (inboundUsers ib)).lookup key).map
        (mergeUserRecord · (userRecordForInbound ib user))).getD (userRecordForInbound ib user)) = key := by
    obtain ⟨hke, hem, -⟩ := lookup_desiredUsers hu
    have huse : trimSpace user.email ≠ "" := hem ▸ hke
    rcases (recordsByEmail (inboundUsers ib)).lookup key with - | existing
    · exact (userEmail_userRecord huse).trans hem
    · exact (userEmail_merge huse).trans hem
  constructor
  · rintro ((hbl | hw) | ho)
    · obtain ⟨user, hu, rfl⟩ := mem_map.1 hbl
      exact absurd (of_decide_eq_true (mem_filter.1 hu).2) hne
    · obtain ⟨record, hrec, rfl⟩ := mem_map.1 hw
      obtain ⟨key, -, hkey⟩ := mem_filterMap.1 hrec
      obtain ⟨user, hu, rfl⟩ := Option.map_eq_some_iff.1 hkey
      rw [hwan key user hu]
      exact .inl (Option.isSome_iff_exists.2 ⟨user, hu⟩)
    · right
      split_ifs at ho with horp
      · simp at ho
      refine ⟨by simpa using horp, ?_⟩
      obtain ⟨record, hrec, rfl⟩ := mem_map.1 ho
      obtain ⟨key, -, hkey⟩ := mem_filterMap.1 hrec
      split_ifs at hkey
      obtain ⟨user, hu, heq⟩ := mem_map.1 (mem_of_lookup_ofList hkey)
      obtain ⟨-, rfl⟩ := Prod.mk.inj heq
      exact mem_map_of_mem (mem_filter.1 hu).1
  · intro h
    by_cases hdes : has (desiredUsers users) addr
    · obtain ⟨user, hu⟩ := Option.isSome_iff_exists.1 hdes
      refine .inl (.inr (mem_map.2 ⟨_, mem_filterMap.2 ⟨addr, mem_sortedKeys hu, ?_⟩, hwan addr user hu⟩))
      rw [hu]
      rfl
    · obtain ⟨rfl, hmem⟩ := h.resolve_left hdes
      obtain ⟨user, hu, heq⟩ := mem_emailsOf.1 hmem
      obtain ⟨record, hrec⟩ : ∃ record, (recordsByEmail (inboundUsers ib)).lookup addr = some record := by
        refine exists_lookup_ofList ?_
        rw [map_map]
        exact mem_map.2 ⟨user, mem_filter.2 ⟨hu, by simpa [heq] using hne⟩, heq⟩
      obtain ⟨found, -, hpair⟩ := mem_map.1 (mem_of_lookup_ofList hrec)
      obtain ⟨hkey, rfl⟩ := Prod.mk.inj hpair
      refine .inr (mem_map.2 ⟨found, ?_, hkey⟩)
      exact mem_filterMap.2 ⟨addr, mem_sortedKeys hrec, by rw [if_neg hdes, hrec]⟩

def inboundsOf (document : Object) : List Object := (inboundItems document).filterMap asObject

/-- A change of the users of an inbound, which is still the same inbound. -/
def KeepsKind (change : Object → Object) : Prop :=
  ∀ inbound key, key ≠ "users" → mapString (change inbound) key = mapString inbound key

theorem keepsKind_write (users : Object → List Object) : KeepsKind fun ib => writeInboundUsers ib (users ib) := by
  intro ib key hkey
  unfold writeInboundUsers
  rw [mapString_put, if_neg hkey]

theorem keepsKind_restoreInbound : KeepsKind (restoreInbound addr recs) := by
  intro ib key hkey
  unfold restoreInbound
  generalize (recs.lookup (mapString ib "tag")).getD [] = found
  induction found generalizing ib with
  | nil => rfl
  | cons record found ih =>
    rw [foldl_cons, ih]
    split_ifs
    · rfl
    · exact keepsKind_write (fun ib => inboundUsers ib ++ [record]) ib key hkey

theorem KeepsKind.isManaged (h : KeepsKind change) (tags : List String) (ib : Object) :
    isManaged tags (change ib) = isManaged tags ib := by
  unfold SingBox.isManaged supportedInbound
  rw [h ib "type" (by decide), h ib "tag" (by decide)]

theorem asObject_updateItem (tags : List String) (change : Object → Object) (item : Raw) :
    asObject (updateItem tags change item) =
      (asObject item).map fun ib => if isManaged tags ib then change ib else ib := by
  unfold updateItem
  rcases hit : asObject item with - | ib
  · exact hit
  · rfl

theorem inboundItems_updateManaged (tags : List String) (change : Object → Object) (doc : Object) :
    inboundItems (updateManaged tags change doc) = (inboundItems doc).map (updateItem tags change) := by
  unfold updateManaged
  split
  · next items hit => simp [inboundItems, hit, lookup_put]
  next hn =>
  have hem : inboundItems doc = [] := by
    unfold inboundItems
    split
    · next items hit => exact absurd hit (hn items)
    · rfl
  rw [hem, map_nil]

theorem inboundsOf_updateManaged : inboundsOf (updateManaged tags change doc) =
      (inboundsOf doc).map fun ib => if isManaged tags ib then change ib else ib := by
  unfold inboundsOf
  rw [inboundItems_updateManaged, filterMap_map, map_filterMap]
  exact filterMap_congr fun item _ => asObject_updateItem tags change item

/-- The candidate has the inbounds of the document, with the managed ones changed. -/
structure Edited (tags : List String) (change : Object → Object) (doc cand : Object) : Prop where
  kind : KeepsKind change
  inbounds : inboundsOf cand = (inboundsOf doc).map fun ib => if isManaged tags ib then change ib else ib

theorem edited_updateManaged (h : KeepsKind change) : Edited tags change doc (updateManaged tags change doc) :=
  ⟨h, inboundsOf_updateManaged⟩

theorem edited_refl : Edited tags id doc doc := ⟨fun _ _ _ => rfl, by simp⟩

theorem Edited.managed (h : Edited tags change doc cand) :
    managedInbounds cand tags = (managedInbounds doc tags).map change := by
  change (inboundsOf cand).filter (isManaged tags) = ((inboundsOf doc).filter (isManaged tags)).map change
  rw [h.inbounds]
  induction inboundsOf doc with
  | nil => rfl
  | cons ib ibs ih =>
    rw [map_cons]
    by_cases hman : isManaged tags ib
    · rw [if_pos hman, filter_cons_of_pos (by rw [h.kind.isManaged]; exact hman), filter_cons_of_pos hman, map_cons, ih]
    · rw [if_neg hman, filter_cons_of_neg hman, filter_cons_of_neg hman, ih]

def inboundsAt (document : Object) (t : String) : List Object := (inboundsOf document).filter (mapString · "tag" = t)

theorem Edited.at (h : Edited tags change doc cand) :
    inboundsAt cand t = (inboundsAt doc t).map fun ib => if isManaged tags ib then change ib else ib := by
  unfold inboundsAt
  rw [h.inbounds, filter_map]
  refine congrArg (map _) (filter_congr fun ib _ => ?_)
  dsimp only [Function.comp_apply]
  split_ifs
  · rw [h.kind ib "tag" (by decide)]
  · rfl

namespace Plugin

variable {env : PluginEnv} {fails : Faults} {p : Plugin} {source : Except Failure Object} {mutate : Mutation}

/-- What a call leaves: either the old file, with bans that the change may have touched, or the candidate. -/
theorem commit_cases {r : Except Failure Unit} (h : p.commit env fails source mutate = (p', r)) :
    (r ≠ .ok () ∧ p'.file = p.file ∧ (p'.running = p.running ∨ p'.running = p.file) ∧
      (p'.banned = p.banned ∨ ∃ doc, source = .ok doc ∧ p'.banned = (mutate p.banned doc).1)) ∨
    ∃ doc cand, source = .ok doc ∧ mutate p.banned doc = (p'.banned, .ok cand) ∧ p'.file = some (.obj cand) ∧
      (p'.running = some (.obj cand) ∨ r ≠ .ok () ∧ p'.running = p.running) := by
  unfold commit at h
  rcases source with e | doc
  · cases h
    exact .inl ⟨by simp, rfl, .inl rfl, .inl rfl⟩
  dsimp only at h
  rcases hm : mutate p.banned doc with ⟨banned, e | cand⟩
  · rw [hm] at h
    cases h
    exact .inl ⟨by simp, rfl, .inl rfl, .inr ⟨doc, rfl, by rw [hm]⟩⟩
  rw [hm] at h
  have hban : banned = (mutate p.banned doc).1 := by rw [hm]
  unfold writeAndReload at h
  split_ifs at h with hch hw hrel hres hag hag
  · cases h
    exact .inl ⟨by simp, rfl, .inl rfl, .inr ⟨doc, rfl, hban⟩⟩
  · cases h
    exact .inl ⟨by simp, rfl, .inl rfl, .inr ⟨doc, rfl, hban⟩⟩
  · cases h
    exact .inr ⟨doc, cand, rfl, hm, rfl, .inr ⟨by simp, rfl⟩⟩
  · cases h
    exact .inr ⟨doc, cand, rfl, hm, rfl, .inl rfl⟩
  · cases h
    exact .inl ⟨by simp, rfl, .inl rfl, .inr ⟨doc, rfl, hban⟩⟩
  · cases h
    exact .inl ⟨by simp, rfl, .inr rfl, .inr ⟨doc, rfl, hban⟩⟩
  · cases h
    exact .inr ⟨doc, cand, rfl, hm, rfl, .inl rfl⟩

end Plugin

theorem decodeConfig_eq_ok {raw : Raw} : decodeConfig raw = .ok doc ↔ raw = .obj doc := by
  cases raw <;> simp [decodeConfig]

theorem readDocument_eq_ok {fails : Bool} {what path : String} {file : Option Raw}
    (h : readDocument fails what path file = .ok doc) : file = some (.obj doc) := by
  unfold readDocument at h
  rcases file with - | raw
  · cases h
  split_ifs at h
  rw [decodeConfig_eq_ok.1 h]

/-- The records kept for an email are records of this email. -/
def Faithful (banned : Banned) : Prop :=
  ∀ address records, banned.lookup address = some records →
    ∀ t, ∀ record ∈ (records.lookup t).getD [], userEmail record = address

/-- The emails whose bans are lifted by a call. -/
def PluginCall.lifts : PluginCall → List String
  | .addUser user => [user.email]
  | .addUsersBulk users => (users.takeWhile fun user => trimSpace user.email ≠ "").map (·.email)
  | .removeUser addr | .unbanUser addr => [trimSpace addr]
  | .removeUsersBulk emails => (emails.map trimSpace).filter (· ≠ "")
  | .syncUsers users _ => (desiredUsers users).map Prod.fst
  | .setExpire _ _ | .setLimit _ _ | .banUser _ | .restart => []

/-- The email is in a managed inbound after the call. -/
def PluginCall.Lists (call : PluginCall) (banned : Banned) (ib : Object) (e : String) : Prop := match call with
  | .addUser user => e ∈ emailsOf ib ∨ e = trimSpace user.email
  | .addUsersBulk users => e ∈ emailsOf ib ∨ ∃ user ∈ users, e = trimSpace user.email
  | .removeUser addr | .banUser addr => e ∈ emailsOf ib ∧ e ≠ trimSpace addr
  | .removeUsersBulk emails => e ∈ emailsOf ib ∧ e ∉ emails.map trimSpace
  | .unbanUser addr => e ∈ emailsOf ib ∨ e = trimSpace addr ∧
      (((banned.lookup (trimSpace addr)).getD []).lookup (mapString ib "tag")).getD [] ≠ []
  | .syncUsers users orphans =>
    (∃ user ∈ users, trimSpace user.email = e) ∨ orphans = false ∧ e ∈ emailsOf ib
  | .setExpire _ _ | .setLimit _ _ | .restart => e ∈ emailsOf ib

def PluginCall.Bans (call : PluginCall) (tags : List String) (doc : Object) (banned banned' : Banned) : Prop :=
  match call with
  | .banUser addr => banned' =
      if banRecords (trimSpace addr) (managedInbounds doc tags) = [] then banned
      else Assoc.put banned (trimSpace addr) (banRecords (trimSpace addr) (managedInbounds doc tags))
  | call => banned' = banned ∨ banned' = call.lifts.foldl Assoc.drop banned

namespace Plugin

variable (env : PluginEnv) (p : Plugin) (call : PluginCall)

/-- The document that a call changes: a sync starts from the template, if there is one. -/
def Source (doc : Object) : Prop := p.file = some (.obj doc) ∨
  (∃ users orphans, call = .syncUsers users orphans) ∧ env.templatePath ≠ "" ∧ env.template = some (.obj doc)

/-- The managed inbounds are changed as the call says. -/
def Edits (doc cand : Object) : Prop := ∃ change, Edited env.managedInboundTags change doc cand ∧
  (Faithful p.banned → ∀ ib, ∀ e ≠ "", e ∈ emailsOf (change ib) ↔ call.Lists p.banned ib e)

/-- What a call can leave: the old file, also if there was nothing to do, or the edited document. -/
def Outcome (p' : Plugin) (r : Except Failure Unit) : Prop :=
  (p'.file = p.file ∧ (p'.running = p.running ∨ p'.running = p.file) ∧ (r = .ok () → call.lifts = []) ∧
    (p'.banned = p.banned ∨ ∃ doc, p.Source env call doc ∧
      call.Bans env.managedInboundTags doc p.banned p'.banned)) ∨
  ∃ doc cand, p.Source env call doc ∧ p.Edits env call doc cand ∧
    call.Bans env.managedInboundTags doc p.banned p'.banned ∧ p'.file = some (.obj cand) ∧
    (p'.running = some (.obj cand) ∨ r ≠ .ok () ∧ p'.running = p.running)

end Plugin

namespace Plugin

variable {call : PluginCall} {fails : Faults} {mutate : Mutation} {r : Except Failure Unit}

theorem outcome_refl (hr : r = .ok () → call.lifts = []) : Outcome env p call p r := .inl ⟨rfl, .inl rfl, hr, .inl rfl⟩

theorem outcome_commit {source : Except Failure Object} (hc : p.commit env fails source mutate = (p', r))
    (hsource : ∀ doc, source = .ok doc → p.Source env call doc)
    (hbans : ∀ doc, call.Bans env.managedInboundTags doc p.banned (mutate p.banned doc).1)
    (hcand : ∀ doc cand, (mutate p.banned doc).2 = .ok cand → p.Edits env call doc cand) :
    Outcome env p call p' r := by
  rcases commit_cases hc with ⟨hr, hf, hrun, hban⟩ | ⟨doc, cand, hs, hm, hf, hrun⟩
  · refine .inl ⟨hf, hrun, fun hok => absurd hok hr, hban.imp_right ?_⟩
    rintro ⟨doc, hs, hban⟩
    exact ⟨doc, hsource doc hs, hban ▸ hbans doc⟩
  have hban := hbans doc
  rw [hm] at hban
  exact .inr ⟨doc, cand, hsource doc hs, hcand doc cand (by rw [hm]), hban, hf, hrun⟩

theorem outcome_mutateConfig (hc : p.mutateConfig env fails mutate = (p', r))
    (hbans : ∀ doc, call.Bans env.managedInboundTags doc p.banned (mutate p.banned doc).1)
    (hcand : ∀ doc cand, (mutate p.banned doc).2 = .ok cand → p.Edits env call doc cand) :
    Outcome env p call p' r :=
  outcome_commit hc (fun _ hs => .inl (readDocument_eq_ok hs)) hbans hcand

theorem outcome_updateUserMetadata (hc : p.updateUserMetadata env fails addr key value = (p', r))
    (hba : ∀ doc, call.Bans env.managedInboundTags doc p.banned p.banned)
    (hli : ∀ ib e, call.Lists p.banned ib e ↔ e ∈ emailsOf ib) : Outcome env p call p' r := by
  unfold updateUserMetadata at hc
  split_ifs at hc
  · cases hc
    exact outcome_refl (by simp)
  refine outcome_mutateConfig hc (fun doc => ?_) fun doc cand hm => ?_
  · split_ifs <;> exact hba doc
  split_ifs at hm
  cases hm
  exact ⟨_, edited_updateManaged (keepsKind_write _), fun _ ib e _ => by rw [emailsOf_updateMetadata, hli]⟩

theorem outcome_dropUsers (hc : p.dropUsers env fails emails = (p', r))
    (hba : ∀ doc, call.Bans env.managedInboundTags doc p.banned (emails.foldl drop p.banned))
    (hli : ∀ ib, ∀ e ≠ "", call.Lists p.banned ib e ↔ e ∈ emailsOf ib ∧ e ∉ emails) :
    Outcome env p call p' r := by
  refine outcome_mutateConfig hc hba fun doc cand hm => ?_
  cases hm
  exact ⟨_, edited_updateManaged (keepsKind_write _), fun _ ib e he => by rw [mem_removeFromInbound, hli ib e he]⟩

theorem run_outcome (env : PluginEnv) (p : Plugin) (step : PluginStep) (hre : step.call ≠ .restart) :
    Outcome env p step.call (p.run env step).1 (p.run env step).2 := by
  rcases hc : p.run env step with ⟨p', r⟩
  obtain ⟨call, fails⟩ := step
  dsimp only [run] at hc hre ⊢
  cases call with
  | addUser user =>
    dsimp only [addUser] at hc
    split_ifs at hc with hbl
    · cases hc
      exact outcome_refl (by simp)
    refine outcome_mutateConfig hc (fun doc => ?_) fun doc cand hm => ?_
    · split_ifs
      · exact .inl rfl
      · exact .inr rfl
    split_ifs at hm
    cases hm
    exact ⟨_, edited_updateManaged (keepsKind_write _), fun _ ib e _ => mem_addToInbound hbl⟩
  | addUsersBulk users =>
    dsimp only [addUsersBulk] at hc
    split at hc
    · next hn =>
      cases hc
      exact outcome_refl fun _ => by rw [hn]; rfl
    refine outcome_mutateConfig hc (fun doc => ?_) fun doc cand hm => ?_
    · split_ifs
      · exact .inl rfl
      · exact .inr rfl
      · exact .inr rfl
    · split_ifs at hm with hn hbl
      cases hm
      exact ⟨_, edited_updateManaged (keepsKind_write _), fun _ ib e _ => mem_addAllToInbound (by simpa using hbl)⟩
  | removeUser addr =>
    dsimp only [removeUser] at hc
    split_ifs at hc
    · cases hc
      exact outcome_refl (by simp)
    · exact outcome_dropUsers hc (fun _ => .inr rfl) fun ib e _ => by simp [PluginCall.Lists]
  | removeUsersBulk emails =>
    dsimp only [removeUsersBulk] at hc
    split_ifs at hc with hn
    · cases hc
      exact outcome_refl fun _ => hn
    · exact outcome_dropUsers hc (fun _ => .inr rfl) fun ib e he => by simp [PluginCall.Lists, he]
  | setExpire addr expire | setLimit addr limit =>
    exact outcome_updateUserMetadata hc (fun _ => .inl rfl) fun _ _ => Iff.rfl
  | banUser addr =>
    dsimp only [banUser] at hc
    split_ifs at hc
    · cases hc
      exact outcome_refl (by simp)
    refine outcome_mutateConfig hc (fun doc => rfl) fun doc cand hm => ?_
    cases hm
    refine ⟨_, edited_updateManaged (keepsKind_write _), fun _ ib e _ => ?_⟩
    rw [mem_removeFromInbound, mem_singleton]
    rfl
  | unbanUser addr =>
    dsimp only [unbanUser] at hc
    split_ifs at hc
    · cases hc
      exact outcome_refl (by simp)
    refine outcome_mutateConfig hc (fun doc => ?_) fun doc cand hm => ?_
    · split
      · exact .inl rfl
      · exact .inl rfl
      · exact .inr rfl
    · split at hm
      · next hl =>
        cases hm
        exact ⟨id, edited_refl, fun _ ib e _ => by simp [PluginCall.Lists, hl]⟩
      · next hl =>
        cases hm
        exact ⟨id, edited_refl, fun _ ib e _ => by simp [PluginCall.Lists, hl]⟩
      · next recs _ hl =>
        cases hm
        refine ⟨_, edited_updateManaged keepsKind_restoreInbound, fun hfai ib e _ => ?_⟩
        rw [mem_restoreInbound (hfai _ recs hl _), PluginCall.Lists, hl]
        rfl
  | syncUsers users orphans =>
    refine outcome_commit hc (fun doc hs => ?_) (fun doc => ?_) fun doc cand hm => ?_
    · unfold syncSource at hs
      split_ifs at hs with hr htem
      · exact .inr ⟨⟨users, orphans, rfl⟩, htem, readDocument_eq_ok hs⟩
      · exact .inl (readDocument_eq_ok hs)
    · split_ifs
      · exact .inl rfl
      · exact .inr rfl
    · split_ifs at hm
      cases hm
      exact ⟨_, edited_updateManaged (keepsKind_write _), fun _ ib e he => mem_syncInbound he⟩
  | restart => exact absurd rfl hre

end Plugin

namespace Faithful

variable {banned : Banned}

theorem foldl_drop (h : Faithful banned) (emails : List String) : Faithful (emails.foldl drop banned) := by
  intro other recs hl
  rw [lookup_foldl_drop] at hl
  split_ifs at hl
  exact h other recs hl

theorem put_banRecords (h : Faithful banned) (addr : String) (ibs : List Object) :
    Faithful (put banned addr (banRecords addr ibs)) := by
  intro other recs hl t record hrec
  rw [lookup_put] at hl
  split_ifs at hl with ho
  · cases hl
    rw [ho]
    exact userEmail_of_banRecords hrec
  · exact h other recs hl t record hrec

theorem bans {call : PluginCall} {tags : List String} {banned' : Banned} (h : Faithful banned)
    (hb : call.Bans tags doc banned banned') : Faithful banned' := by
  unfold PluginCall.Bans at hb
  split at hb
  · rw [hb]
    split_ifs
    · exact h
    · exact h.put_banRecords _ _
  · rcases hb with rfl | rfl
    · exact h
    · exact h.foldl_drop _

theorem run (h : Faithful p.banned) (env : PluginEnv) (step : PluginStep) : Faithful (p.run env step).1.banned := by
  by_cases hre : step.call = .restart
  · rw [Plugin.run, hre]
    exact fun addr recs hl => by cases hl
  rcases p.run_outcome env step hre with ⟨-, -, -, heq | ⟨doc, -, hb⟩⟩ | ⟨doc, cand, -, -, hb, -⟩
  · rwa [heq]
  · exact h.bans hb
  · exact h.bans hb

end Faithful

theorem faithful_nil {banned : Banned} (h : banned = []) : Faithful banned := by
  intro addr recs hl
  rw [h] at hl
  cases hl

theorem faithful_of_run {tr : List PluginStep} (h : Faithful p.banned)
    (hrun : Run (stepsTo (pluginStep env)) p tr p') : Faithful p'.banned := by
  refine hrun.invariant (fun p => Faithful p.banned) h fun p step p' hp hs => ?_
  cases hs
  exact hp.run env step

def oneInbound : Raw :=
  .obj [("inbounds", .arr [.obj [("type", .str "vless"), ("tag", .str "in"),
    ("users", .arr [.obj [("name", .str "a"), ("uuid", .str "id-a")]])]])]

def oneInboundEnv : PluginEnv :=
  { configPath := "config.json", templatePath := "", template := none, managedInboundTags := [] }

def oneInboundPlugin : Plugin := { file := some oneInbound, running := some oneInbound, banned := [] }

end Xraytool.SingBox
