import Mathlib
import Xraytool.Lib.Separated
import Xraytool.Sanity.XraySync

/-! The `.hash` file as a cache of the state that `config.json` was generated from. A call that changes the clients in
the file removes the hash or writes a new one, unless a sync fails after it has written the file or cannot replace the
hash file. -/

namespace Xraytool.Xray

open Fallible Transition Machine List

/-- No hashed field has a character that separates the fields and the users in the text. -/
def Plain (users : List VPNUserConfig) : Prop :=
  ∀ u ∈ users, ∀ s ∈ (hashedFields u).1, '|' ∉ s.toList ∧ ';' ∉ s.toList

/-- How often the character that ends a field occurs in it: `|`, or `;` for the flow. -/
def separators (p : ClientParams) : List Nat :=
  [p.email, p.uuid, p.auth, p.subfile, p.expire].map (·.toList.count '|') ++ [p.flow.toList.count ';']

/-- Users at one place of the two lists have as many separators in each field. -/
def SameSeparators (users users' : List VPNUserConfig) : Prop :=
  ∀ p ∈ users.zip users', separators (configToParams p.1) = separators (configToParams p.2)

theorem not_mem_toString_int (n : Int) {c : Char} (hdi : c.isDigit = false) (hsi : c ≠ '-') :
    c ∉ (toString n).toList := by
  have hnat (k : Nat) : c ∉ k.repr.toList := fun h => by
    rw [Nat.toList_repr] at h
    rw [Nat.isDigit_of_mem_toDigits (by omega) (by omega) h] at hdi
    contradiction
  rw [Int.toString_eq_repr, Int.repr_eq_if]
  split_ifs
  · exact hnat _
  rw [String.toList_append, mem_append]
  rintro (h | h)
  · exact hsi (by simpa using h)
  · exact hnat _ h

variable {u v : VPNUserConfig} {file : Option Raw}

theorem toList_userText : (userText u).toList =
    'u' :: ':' :: (u.email.toList ++ '|' :: (u.uuid.toList ++ '|' :: (u.auth.toList ++ '|' :: (u.subfile.toList ++
      '|' :: (u.expire.toList ++ '|' :: ((toString u.maxDevices).toList ++ '|' :: (u.flow.toList ++ [';']))))))) := by
  unfold userText
  simp

theorem hashedFields_of_userText {rest rest' : List Char}
    (hse : separators (configToParams u) = separators (configToParams v))
    (h : (userText u).toList ++ rest = (userText v).toList ++ rest') : hashedFields u = hashedFields v ∧ rest = rest' := by
  simp only [separators, configToParams, map_cons, map_nil, cons_append, nil_append, cons.injEq, and_true] at hse
  obtain ⟨hem, huu, hau, hsub, hexp, hfl⟩ := hse
  have hbar (n : Int) : (toString n).toList.count '|' = 0 :=
    count_eq_zero.2 (not_mem_toString_int n (by decide) (by decide))
  simp only [toList_userText, cons_append, append_assoc, nil_append, cons.injEq, true_and] at h
  obtain ⟨hem, h⟩ := Separated.eq_of_count hem h
  obtain ⟨huu, h⟩ := Separated.eq_of_count huu h
  obtain ⟨hau, h⟩ := Separated.eq_of_count hau h
  obtain ⟨hsub, h⟩ := Separated.eq_of_count hsub h
  obtain ⟨hexp, h⟩ := Separated.eq_of_count hexp h
  obtain ⟨hli, h⟩ := Separated.eq_of_count ((hbar _).trans (hbar _).symm) h
  obtain ⟨hfl, h⟩ := Separated.eq_of_count hfl h
  simp only [String.toList_inj] at hem huu hau hsub hexp hli hfl
  exact ⟨by simp [hashedFields, hem, huu, hau, hsub, hexp, hfl, Int.repr_injective hli], h⟩

variable {env : AdapterEnv} {users users' snapshot : List VPNUserConfig} {m m' : Machine} {fails : Faults}

theorem Plain.sameSeparators (h : Plain users) (h' : Plain users') : SameSeparators users users' := by
  have hno {l : List VPNUserConfig} {u : VPNUserConfig} (hl : Plain l) (hu : u ∈ l) :
      separators (configToParams u) = [0, 0, 0, 0, 0, 0] := by
    have hfie := hl u hu
    simp only [hashedFields, mem_cons, not_mem_nil, or_false, forall_eq_or_imp, forall_eq] at hfie
    simp [separators, configToParams, count_eq_zero.2, hfie]
  intro p hp
  rw [hno h (of_mem_zip hp).1, hno h' (of_mem_zip hp).2]

/-- From the text of the users their fields can be read off, in the order of the text, if one knows how many separators
are in each. -/
theorem hashedFields_of_text (hse : SameSeparators users users')
    (h : (users.map userText).flatMap String.toList = (users'.map userText).flatMap String.toList) :
    users.map hashedFields = users'.map hashedFields := by
  induction users generalizing users' with
  | nil =>
    rcases users' with _ | ⟨v, users'⟩
    · rfl
    · simp [toList_userText] at h
  | cons u users ih =>
    rcases users' with _ | ⟨v, users'⟩
    · simp [toList_userText] at h
    rw [map_cons, map_cons, flatMap_cons, flatMap_cons] at h
    obtain ⟨hfie, h⟩ := hashedFields_of_userText (hse (u, v) mem_cons_self) h
    rw [map_cons, map_cons, hfie, ih (fun p hp => hse p (mem_cons_of_mem _ hp)) h]

/-- What `calculateStateHash` feeds to the hash function. -/
def hashInput (env : AdapterEnv) (users : List VPNUserConfig) : String :=
  stateHead env ++ String.join ((env.sortUsers users).map userText)

/-- The hash of a snapshot is no collision with that of the users. -/
def NoCollision (env : AdapterEnv) (users snapshot : List VPNUserConfig) : Prop :=
  calculateStateHash env snapshot = calculateStateHash env users → hashInput env snapshot = hashInput env users

theorem sortedFields_of_input (hse : SameSeparators (env.sortUsers users) (env.sortUsers users'))
    (h : hashInput env users = hashInput env users') :
    (env.sortUsers users).map hashedFields = (env.sortUsers users').map hashedFields := by
  unfold hashInput at h
  rw [← String.toList_inj, String.toList_append, String.toList_append, append_cancel_left_eq, String.toList_join,
    String.toList_join] at h
  exact hashedFields_of_text hse h

/-- The order of the users in the text is that of some sort, so equal hashes say that the fields agree up to
their order. -/
theorem perm_of_hash (hso : ∀ users, (env.sortUsers users).Perm users) (hpl : Plain users) (hpl' : Plain users')
    (hcol : NoCollision env users' users) (h : calculateStateHash env users = calculateStateHash env users') :
    (users.map hashedFields).Perm (users'.map hashedFields) := by
  have hsor {l : List VPNUserConfig} (hl : Plain l) : Plain (env.sortUsers l) := fun u hu => hl u ((hso l).mem_iff.1 hu)
  refine ((hso users).map _).symm.trans ?_
  rw [sortedFields_of_input ((hsor hpl).sameSeparators (hsor hpl')) (hcol h)]
  exact (hso users').map _

theorem sortedParams_of_perm (hso : ∀ users, (env.sortUsers users).Perm users)
    (hord : ∀ users, (env.sortUsers users).Pairwise (·.email ≤ ·.email)) (hdi : (users.map (·.email)).Nodup)
    (h : (users.map configToParams).Perm (users'.map configToParams)) :
    (env.sortUsers users).map configToParams = (env.sortUsers users').map configToParams := by
  have hperm := (((hso users).map configToParams).trans h).trans ((hso users').map configToParams).symm
  have hno : (((env.sortUsers users).map configToParams).map (·.email)).Nodup := by
    rw [map_map]
    exact ((hso users).map _).nodup_iff.2 hdi
  have hpai (l : List VPNUserConfig) : ((env.sortUsers l).map configToParams).Pairwise (·.email ≤ ·.email) :=
    pairwise_map.2 (hord l)
  refine hperm.eq_of_pairwise (fun p q hp hq hle hle' => ?_) (hpai users) (hpai users')
  exact inj_on_of_nodup_map hno hp (hperm.mem_iff.2 hq) (le_antisymm hle hle')

/-- Two lists of users that give one input agree in all that a client is built of, up to their order, if and only if
in the order of their emails they have as many separators in each field. -/
theorem hash_input_determines_users (env : AdapterEnv) (users users' : List VPNUserConfig)
    (hsort : ∀ users, (env.sortUsers users).Perm users)
    (hsorted : ∀ users, (env.sortUsers users).Pairwise (·.email ≤ ·.email)) (hdistinct : (users.map (·.email)).Nodup)
    (h : hashInput env users = hashInput env users') :
    (users.map configToParams).Perm (users'.map configToParams) ↔
      SameSeparators (env.sortUsers users) (env.sortUsers users') := by
  refine ⟨fun hperm p hp => ?_, fun hse => ?_⟩
  · have hpar := Separated.map_eq_map_iff_forall₂.1 (sortedParams_of_perm hsort hsorted hdistinct hperm)
    exact congrArg separators ((forall₂_iff_zip.1 hpar).2 hp)
  · refine ((hsort users).map _).symm.trans (.trans (.of_eq ?_) ((hsort users').map _))
    have hfie := Separated.map_eq_map_iff_forall₂.1 (sortedFields_of_input hse h)
    exact Separated.map_eq_map_iff_forall₂.2 (hfie.imp fun _ _ => configToParams_congr)

theorem hash_input_determines_two :
    hashInput vlessEnv [{ otherUser with uuid := "a;b" }, { email := "a" }] =
        hashInput vlessEnv [{ email := "a" }, { otherUser with uuid := "a;b" }] ∧
      ([{ otherUser with uuid := "a;b" }, { email := "a" }].map configToParams).Perm
        ([{ email := "a" }, { otherUser with uuid := "a;b" }].map configToParams) :=
  ⟨by decide +kernel, (hash_input_determines_users vlessEnv _ _ (fun users => users.perm_insertionSort _)
    (fun users => users.pairwise_insertionSort _) (by decide +kernel) (by decide +kernel)).2
    (by unfold SameSeparators; decide +kernel)⟩

/-- A separator in a field moves the border between the email and the id. -/
theorem hash_input_collides :
    hashInput vlessEnv [{ email := "a|b", uuid := "c" }] = hashInput vlessEnv [{ email := "a", uuid := "b|c" }] ∧
      ¬ ([{ email := "a|b", uuid := "c" }].map configToParams).Perm
        ([{ email := "a", uuid := "b|c" }].map configToParams) := by
  refine ⟨by decide +kernel, fun hperm => ?_⟩
  have hemail := congrArg ClientParams.email (singleton_perm_singleton.1 hperm)
  exact absurd hemail (by decide)

/-- The clients with an email in `config.json` are those that `MergeUsers` makes of the template. -/
def Matches (env : AdapterEnv) (users : List VPNUserConfig) (file : Option Raw) : Prop :=
  ∃ template merged inbounds inbounds', readConfig env.template = .ok template ∧
    mergeUsers env.ext template users = .ok merged ∧ getInbounds merged = .ok inbounds' ∧
    inboundsOf file = .ok inbounds ∧ SameClients inbounds inbounds'

theorem matches_regenerated {raw : Raw} (h : regenerateConfig env fails file users = .ok raw) :
    Matches env users (some raw) := by
  obtain ⟨tmpl, ibs, generated, hr, hin, hgene, hrou⟩ := regenerateConfig_eq_ok h
  obtain ⟨merged, hmer⟩ : ∃ merged, ibs.mapM (mergeInbound env.ext users) = .ok merged := by
    refine exists_mapM_eq_ok.2 fun ib hib => mergeInbound_succeeds fun hli => ?_
    obtain ⟨ib', -, keyed, hke, hme⟩ := exists_of_forall₂_left hrou hib
    rw [← hke.getClients_eq]
    exact ((mergeInbound_of_listed (hke.hasClientList_eq.trans hli)).1 hme).1
  obtain ⟨cfg, hset⟩ : ∃ cfg, setInbounds (some (tmpl.getD [])) merged = .ok cfg := ⟨_, rfl⟩
  refine ⟨tmpl, cfg, generated, merged, hr, ?_, getInbounds_setInbounds hset, hgene, ?_⟩
  · rw [mergeUsers, getInbounds_clone, hin]
    simp only [Except.mapError, ok_bind, hmer, hset]
  refine (forall₂_fork hrou (mapM_eq_ok.1 hmer)).imp ?_
  rintro ib' merged' ⟨ib, hgen, hme⟩
  refine ⟨hgen.tag_eq.trans (mergeInbound_tag hme).symm, ?_⟩
  rw [hgen.named, mergeInbound_named hme]

theorem SameClients.trans {a b c : List RawMap} (h : SameClients a b) (h' : SameClients b c) : SameClients a c := by
  refine (forall₂_comp h h').imp ?_
  rintro ib ib'' ⟨ib', ⟨htag, hpe⟩, htag', hpe'⟩
  exact ⟨htag.trans htag', hpe.trans hpe'⟩

theorem Matches.of_perm (h : Matches env users file) (hcon : Consistent users)
    (hpe : (users.map hashedFields).Perm (users'.map hashedFields)) : Matches env users' file := by
  obtain ⟨tmpl, merged, ibs, ibs', hr, hmer, hin', hin, hsa⟩ := h
  obtain ⟨merged2, hmer2⟩ := mergeUsers_succeeds hmer
  obtain ⟨templateIn, _, htem, hin1, hrou⟩ := mergeUsers_eq_ok hmer
  obtain rfl := ok_unique hin' hin1
  obtain ⟨templateIn', ibs2, htem', hin2, hrou2⟩ := mergeUsers_eq_ok hmer2
  obtain rfl := ok_unique htem htem'
  refine ⟨tmpl, merged2, ibs, ibs2, hr, hmer2, hin2, hin, hsa.trans ?_⟩
  refine (forall₂_fork hrou hrou2).imp ?_
  rintro ib1 ib2 ⟨ib, h1, h2⟩
  refine ⟨(mergeInbound_tag h1).trans (mergeInbound_tag h2).symm, ?_⟩
  rw [mergeInbound_named h1, mergeInbound_named h2]
  exact generatedClients_perm hcon hpe

theorem Matches.rekeyed {file' : Option Raw} {ibs ibs' : List RawMap} (h : Matches env users file)
    (hin : inboundsOf file = .ok ibs) (hin' : inboundsOf file' = .ok ibs')
    (hrek : Forall₂ Rekeyed ibs ibs') : Matches env users file' := by
  obtain ⟨tmpl, merged, ibs0, mergedIn, hr, hmer, hmerg, hin0, hsa⟩ := h
  obtain rfl := ok_unique hin hin0
  refine ⟨tmpl, merged, ibs', mergedIn, hr, hmer, hmerg, hin', SameClients.trans ?_ hsa⟩
  refine hrek.flip.imp fun ib' ib hke => ⟨hke.tag_eq, ?_⟩
  rw [namedClients, namedClients, hke.readClients_eq]

/-- A snapshot that can be told from the users by its hash. -/
structure Hashable (env : AdapterEnv) (users snapshot : List VPNUserConfig) : Prop where
  plain : Plain snapshot
  consistent : Consistent snapshot
  noCollision : NoCollision env users snapshot

/-- A hash in the file is that of a snapshot which the config matches. -/
def HashSound (env : AdapterEnv) (users : List VPNUserConfig) (m : Machine) : Prop :=
  ∀ h, m.hash = some h → ∃ snapshot, Hashable env users snapshot ∧ h = calculateStateHash env snapshot ∧
    Matches env snapshot m.file

theorem HashSound.of_none (h : m.hash = none) : HashSound env users m := fun _ hso => by
  rw [h] at hso
  contradiction

theorem HashSound.of_same (hsound : HashSound env users m) (hf : m'.file = m.file) (hha : m'.hash = m.hash) :
    HashSound env users m' := by
  intro h hso
  rw [hf]
  exact hsound h (hha ▸ hso)

/-- A sync from which the hash comes out right: there is no hash before, or the sync completes and can write
its hash. -/
def SyncKeepsHash (env : AdapterEnv) (users : List VPNUserConfig) (fails : Faults) (m : Machine)
    (snapshot : List VPNUserConfig) (removeOrphans : Bool) : Prop :=
  Hashable env users snapshot ∧
    (m.hash = none ∨ fails .openHash = false ∧ Completes env fails m.file snapshot removeOrphans)

/-- The calls that keep the hash right, as far as `users` are concerned. -/
def KeepsHash (env : AdapterEnv) (users : List VPNUserConfig) (m : Machine) (step : AdapterStep) : Prop :=
  (m.hash = none ∨ step.fails .removeHash = false) ∧
    match step.call with
    | .syncUsers added removeOrphans => ∀ snapshot, withTemplateUsers env added = .ok snapshot →
      SyncKeepsHash env users step.fails m snapshot removeOrphans
    | .reconcileUsers snapshot => Hashable env users snapshot
    | _ => True

section

variable (hremove : m.hash = none ∨ fails .removeHash = false)
include hremove

theorem hash_invalidateHash (hha : m'.hash = m.hash) : (m'.invalidateHash fails).hash = none := by
  rw [invalidateHash]
  rcases hremove with h | h
  · simp [hha, h]
  · simp [h]

theorem hashSound_afterAdd (hha : m'.hash = m.hash)
    (old : RawMap) (pay : List TaggedClient) : HashSound env users (m'.afterAdd env fails old pay) := by
  obtain ⟨m1, hs, heq⟩ := afterAdd_eq
  rw [heq]
  exact HashSound.of_none (hash_invalidateHash hremove (hs.hash.trans hha))

theorem hashSound_afterRemove (hha : m'.hash = m.hash)
    (old : RawMap) (tags : List (String × List String)) : HashSound env users (m'.afterRemove env fails old tags) := by
  have hrem : HotStep ∅ m' (m'.hotRemoveAll fails .update tags) := hotStep_hotRemoveAll m'
  exact HashSound.of_none (hash_invalidateHash hremove (hotStep_rebuildHysteria.hash.trans (hrem.hash.trans hha)))

theorem hashSound_setField (hsound : HashSound env users m)
    (name : String) (update : RawMap → Except Failure RawMap) (addr : String) :
    HashSound env users (m.setField name update fails addr).1 := by
  unfold setField
  dsimp only
  rcases hmod : modifyWith (fails .modify) m.file fun cfg =>
    if !userExists cfg addr then .ok (cfg, false) else (update cfg).map (·, true) with e | ⟨raw, found⟩
  · exact hsound
  obtain ⟨-, cfg, cfg', hcfg, hcha, rfl⟩ := modifyWith_eq_ok.1 hmod
  rcases found with _ | _
  · -- not found: the file is written back as it was
    have hsa : cfg' = cfg := by
      split_ifs at hcha with hexi
      · exact (Prod.mk.inj (Except.ok.inj hcha)).1.symm
      · obtain ⟨_, -, heq⟩ := map_eq_ok.1 hcha
        simp at heq
    intro h hso
    obtain ⟨snap, hsnap, hh, tmpl, merged, ibs, ibs', hr, hmer, hin', hin, hcli⟩ := hsound h hso
    refine ⟨snap, hsnap, hh, tmpl, merged, ibs, ibs', hr, hmer, hin', ?_, hcli⟩
    obtain ⟨cfg1, hcfg1, hin1⟩ := inboundsOf_eq_ok.1 hin
    obtain rfl := ok_unique hcfg hcfg1
    rw [← hin1, ← hsa]
    exact inboundsOf_marshalMap
  · exact HashSound.of_none (hash_invalidateHash hremove rfl)

end

theorem hashSound_written {raw : Raw} {old : RawMap} (hsnap : Hashable env users snapshot)
    (hraw : regenerateConfig env fails file snapshot = .ok raw) (hf : m.file = some raw)
    (hha : m.hash = none ∨ fails .openHash = false) : HashSound env users
      ((m.rebuildHysteriaInbounds env fails old).writeHash fails (calculateStateHash env snapshot)) := by
  have hhys : HotStep (hysteriaMembers m.file) m (m.rebuildHysteriaInbounds env fails old) := hotStep_rebuildHysteria
  intro h hso
  simp only [writeHash, hhys.hash] at hso
  have hst : ((m.rebuildHysteriaInbounds env fails old).writeHash fails (calculateStateHash env snapshot)).file =
      some raw := hhys.file.trans hf
  rw [hst]
  split_ifs at hso with hop hw
  · rcases hha with hn | hok
    · rw [hn] at hso
      contradiction
    · rw [hok] at hop
      contradiction
  · cases hso
    exact ⟨snapshot, hsnap, rfl, matches_regenerated hraw⟩

theorem hashSound_sync {orphans : Bool} (hpa : env.templatePath ≠ "") (hsound : HashSound env users m)
    (hke : SyncKeepsHash env users fails m snapshot orphans) :
    HashSound env users (m.syncSnapshot env fails snapshot orphans).1 := by
  have hhe := hotStep_healDirty m fails
  obtain ⟨hsnap, hha⟩ := hke
  rcases syncSnapshot_cases hpa with ⟨heq, -⟩ | ⟨_, _, heq⟩ | ⟨raw, hraw, heq⟩
  · rw [heq]
    exact hsound.of_same hhe.file hhe.hash
  · rw [heq]
    exact hsound.of_same hhe.file hhe.hash
  rw [heq]
  rcases hha with hn | ⟨hop, hcom⟩
  · -- an error leaves the file without a hash
    have hbef : (m.healDirty fails).hash = none := hhe.hash.trans hn
    rcases applyDesired_cases with ⟨_, _, hend⟩ | ⟨_, _, _, -, -, -, m2, hs, ⟨_, -, hend⟩ | ⟨_, -, hend⟩⟩ <;> rw [hend]
    · exact HashSound.of_none hbef
    · exact HashSound.of_none (hs.hash.trans hbef)
    · exact hashSound_written hsnap hraw hs.file (.inl (hs.hash.trans hbef))
  · obtain ⟨_, _, _, m2, _, -, -, -, hf, -, hend⟩ :=
      applyDesired_of_completes (m := { m.healDirty fails with file := some raw }) hcom hraw rfl
    rw [hend]
    exact hashSound_written hsnap hraw hf (.inr hop)

section

variable (hsound : HashSound env users m)
include hsound

theorem HashSound.of_hotStep {S : Set (String × String)} (hs : HotStep S m m') :
    HashSound env users m' := hsound.of_same hs.file hs.hash

/-- Where the file stays, it makes no difference whether the hash could be removed. -/
theorem HashSound.invalidateHash : HashSound env users (m.invalidateHash fails) := by
  by_cases hremove : fails .removeHash = true
  · exact hsound.of_same rfl (by rw [Machine.invalidateHash, if_pos hremove])
  · exact HashSound.of_none (by rw [Machine.invalidateHash, if_neg hremove])

theorem hashSound_banUser (addr : String) : HashSound env users (m.banUser fails addr).1 := by
  rcases banUser_cases with ⟨_, heq⟩ | ⟨_, tags, -, -, ⟨-, heq⟩ | ⟨-, heq⟩ | ⟨_, heq⟩⟩ <;> rw [heq]
  · exact hsound
  · exact hsound
  · exact (hsound.of_hotStep (hotStep_hotRemove (S := ∅) m)).invalidateHash
  · exact hsound.of_hotStep ((hotStep_hotRemove (S := ∅) m).trans (hotStep_markDirty _))

theorem hashSound_unbanUser (addr : String) : HashSound env users (m.unbanUser env fails addr).1 := by
  rcases unbanUser_cases with ⟨_, heq⟩ | ⟨_, _, _, -, -, -, heq | ⟨_, heq⟩⟩ <;> rw [heq]
  · exact hsound
  · exact (hsound.of_hotStep hotStep_hotAdd).invalidateHash
  · exact hsound.of_hotStep (hotStep_hotAdd.trans (hotStep_markDirty _))

theorem hashSound_syncRealityKeys (keys : Option RealityKeys) : HashSound env users (m.syncRealityKeys fails keys).1 := by
  rcases syncRealityKeys_cases with heq | ⟨newKeys, cfg, cfg', m1, hcfg, hinj, hs, heq⟩
  · rw [heq]
    exact hsound
  have hrek : HashSound env users { m with file := some (marshalMap cfg') } := by
    intro h hso
    obtain ⟨snap, hsnap, hh, hmat⟩ := hsound h hso
    obtain ⟨ibs, hin⟩ : ∃ ibs, inboundsOf m.file = .ok ibs := by
      obtain ⟨_, _, ibs, _, -, -, -, hin, -⟩ := hmat
      exact ⟨ibs, hin⟩
    obtain ⟨cfg1, hcfg1, hin1⟩ := inboundsOf_eq_ok.1 hin
    obtain rfl := ok_unique hcfg hcfg1
    obtain ⟨ibs', hin', hke⟩ := rekeyed_injectRealityKeys hin1 hinj
    exact ⟨snap, hsnap, hh, hmat.rekeyed hin (inboundsOf_marshalMap.trans hin') hke⟩
  rcases heq with heq | heq <;> rw [heq]
  · exact hrek.of_hotStep hs
  · exact (hrek.of_hotStep hs).invalidateHash

end

theorem hashSound_run {step : AdapterStep} (hpa : env.templatePath ≠ "") (hsound : HashSound env users m)
    (hke : KeepsHash env users m step) : HashSound env users (m.run env step).1 := by
  obtain ⟨call, fails⟩ := step
  obtain ⟨hremove, hc⟩ := hke
  have hhe := hotStep_healDirty m fails
  have hhea : HashSound env users (m.healDirty fails) := hsound.of_hotStep hhe
  cases call with
  | addUser user =>
    exact updated_addUser.elim hsound hhea fun _ _ pay _ _ => hashSound_afterAdd hremove (by exact hhe.hash) _ pay
  | addUsersBulk added =>
    exact updated_addUsersBulk.elim hsound hhea fun _ _ pay _ _ => hashSound_afterAdd hremove (by exact hhe.hash) _ pay
  | removeUser addr =>
    exact updated_removeUser.elim hsound hhea fun _ _ _ _ _ => hashSound_afterRemove hremove (by exact hhe.hash) _ _
  | removeUsersBulk emails =>
    exact updated_removeUsersBulk.elim hsound hhea fun _ _ tags _ _ =>
      hashSound_afterRemove hremove (by exact hhe.hash) _ tags
  | setExpire addr expire | setLimit addr limit => exact hashSound_setField hremove hsound _ _ addr
  | banUser addr => exact hashSound_banUser hsound addr
  | unbanUser addr => exact hashSound_unbanUser hsound addr
  | syncUsers added orphans =>
    rcases hsna : withTemplateUsers env added with e | snap
    · rw [run_syncUsers_error hsna]
      exact hsound
    · rw [(run_syncUsers fails orphans hsna).1]
      exact hashSound_sync hpa hsound (hc snap hsna)
  | reconcileUsers snap =>
    -- the hash is removed first, so nothing is asked of the sync
    have hn : (m.invalidateHash fails).hash = none := hash_invalidateHash hremove rfl
    exact hashSound_sync hpa (HashSound.of_none hn) ⟨hc, .inl hn⟩
  | syncRealityKeys keys => exact hashSound_syncRealityKeys hsound keys

/-- In a run of guarded calls a hash of plain users says that the config matches them, and a sync of them that
finds the hash changes nothing. -/
theorem hash_sound_in_guarded_runs (hpath : env.templatePath ≠ "") (hsort : ∀ users, (env.sortUsers users).Perm users)
    {m₀ : Machine} {tr : List AdapterStep} (hinit : HashSound env users m₀)
    (hrun : Run (Guarded (KeepsHash env users) (stepsTo (adapterStep env))) m₀ tr m) (hplain : Plain users)
    (hhash : m.hash = some (calculateStateHash env users)) (hclean : m.dirty = false) :
    Matches env users m.file ∧ ∀ fails removeOrphans, fails .readHash = false →
      m.syncSnapshot env fails users removeOrphans = (m, .ok ⟨0, 0⟩) := by
  have hsound : HashSound env users m := by
    refine hrun.invariant_of_guard (HashSound env users) hinit fun s step s' hs hg hst => ?_
    cases hst
    exact hashSound_run hpath hs hg
  refine ⟨?_, fun fails removeOrphans hr => ?_⟩
  · obtain ⟨snapshot, hsnap, heq, hmat⟩ := hsound _ hhash
    exact hmat.of_perm hsnap.consistent (perm_of_hash hsort hsnap.plain hplain hsnap.noCollision heq.symm)
  have hhe : m.healDirty fails = m := by rw [healDirty, hclean]; rfl
  rw [syncSnapshot, hhe]
  exact if_pos ⟨hhash, hr, hclean⟩

/-! A sync that would remove eleven of eleven users is aborted, but the config without them is written. -/

theorem SameClients.lengths {a b : List RawMap} (h : SameClients a b) :
    a.map (fun ib => (namedClients ib).length) = b.map (fun ib => (namedClients ib).length) := by
  induction h with
  | nil => rfl
  | cons hro _ ih => rw [map_cons, map_cons, hro.2.length_eq, ih]

theorem hash_sound_in_guarded_runs_sync :
    Matches vlessEnv elevenUsers
      ((Machine.started (vlessConfig [])).run vlessEnv ⟨.syncUsers elevenUsers true, noFaults⟩).1.file := by
  have hpl : Plain elevenUsers := by unfold Plain; decide +kernel
  have hcon : Consistent elevenUsers := by unfold Consistent; decide +kernel
  have hsna : withTemplateUsers vlessEnv elevenUsers = .ok elevenUsers := by decide +kernel
  have hrun : Run (Guarded (KeepsHash vlessEnv elevenUsers) (stepsTo (adapterStep vlessEnv)))
      (Machine.started (vlessConfig [])) [⟨.syncUsers elevenUsers true, noFaults⟩]
      ((Machine.started (vlessConfig [])).run vlessEnv ⟨.syncUsers elevenUsers true, noFaults⟩).1 := by
    refine Run.cons ⟨⟨.inl rfl, fun snapshot hr => ?_⟩, rfl⟩ .nil
    obtain rfl := ok_unique hsna hr
    exact ⟨⟨hpl, hcon, fun _ => rfl⟩, .inl rfl⟩
  exact (hash_sound_in_guarded_runs (by decide) (fun users => users.perm_insertionSort _)
    (HashSound.of_none rfl) hrun hpl (by decide +kernel) (by decide +kernel)).1

/-- After the aborted sync the hash of the eleven users is still there, and a sync of them is skipped, while the
config has no client. -/
theorem aborted_sync_keeps_hash : ∃ m, Run (stepsTo (adapterStep vlessEnv)) (Machine.started (vlessConfig []))
    [⟨.syncUsers elevenUsers true, noFaults⟩, ⟨.syncUsers [] true, noFaults⟩] m ∧
      m.hash = some (calculateStateHash vlessEnv elevenUsers) ∧ m.dirty = false ∧
      (m.run vlessEnv ⟨.syncUsers elevenUsers true, noFaults⟩).2 = none ∧
      ¬ Matches vlessEnv elevenUsers (m.run vlessEnv ⟨.syncUsers elevenUsers true, noFaults⟩).1.file ∧
      ¬ Matches vlessEnv elevenUsers m.file := by
  refine ⟨_, Run.cons rfl (Run.cons rfl .nil), by decide +kernel, by decide +kernel, by decide +kernel, ?_, ?_⟩
  all_goals
    rintro ⟨template, merged, inbounds, inbounds', hr, hmer, hin', hin, hsa⟩
    have hlen := hsa.lengths
    have hma : ((readConfig vlessEnv.template >>= (mergeUsers vlessEnv.ext · elevenUsers)) >>= getInbounds).map
        (·.map fun ib => (namedClients ib).length) = .ok (inbounds'.map fun ib => (namedClients ib).length) := by
      simp only [hr, hmer, hin', ok_bind, Except.map]
    have hfo := congrArg (Except.map (map fun ib => (namedClients ib).length)) hin
    rw [Except.map, hlen, ← hma] at hfo
    revert hfo
    decide +kernel

end Xraytool.Xray
