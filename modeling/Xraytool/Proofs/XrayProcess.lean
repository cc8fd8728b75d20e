import Xraytool.Sanity.XrayRuntime

/-! The `.dirty` flag. After each call that adds or removes users the process is equal to the config or the flag is set,
as long as the config takes every client sent to the process. An inbound whose client list is `null` does not. -/

namespace Xraytool.Xray

open Fallible Transition Machine

variable {env : AdapterEnv} {fails : Faults} {m : Machine} {ibs ibs' : List RawMap}
  {pay : List TaggedClient} {old : RawMap} {rt : Runtime}

/-- The process is equal to the config, or the flag remembers that it may not be. -/
def InStep (m : Machine) : Prop := m.dirty = true ∨ m.runtime = runtimeOf m.file

theorem InStep.healDirty (h : InStep m) : InStep (m.healDirty fails) := by
  unfold Machine.healDirty
  split_ifs
  · exact .inr rfl
  · exact h

theorem inStep_rebuilt (hin : inboundsOf m.file = .ok ibs) (hno : (ibs.map tag).Nodup)
    (h : m.dirty = true ∨ m.runtime = clientsAt ibs) :
    InStep ((m.rebuildHysteriaInbounds env fails old).invalidateHash fails) := by
  have hf : (m.rebuildHysteriaInbounds env fails old).file = m.file := hotStep_rebuildHysteria.file
  obtain ⟨hdi, hrun⟩ := rebuildHysteria_inStep hin hno
  refine h.imp (fun h => hdi.trans h) fun h => ?_
  show (m.rebuildHysteriaInbounds env fails old).runtime = runtimeOf (m.rebuildHysteriaInbounds env fails old).file
  rw [hrun h, hf, runtimeOf_of_ok hin]

theorem inStep_afterAdd (hw : fails .writeDirty = false) (hin : inboundsOf m.file = .ok ibs)
    (hno : (ibs.map tag).Nodup) (hbef : m.dirty = true ∨ m.runtime = rt)
    (hpla : clientsAt ibs = pay.foldl Runtime.add rt) : InStep (m.afterAdd env fails old pay) := by
  have hf : (m.sendAdded fails pay).file = m.file := hotStep_sendAdded.file
  refine inStep_rebuilt (hf ▸ hin) hno ?_
  unfold sendAdded
  dsimp only
  split_ifs with hnil hok
  · refine hbef.imp id fun h => ?_
    rw [h, hpla, hnil]
    rfl
  · refine hbef.imp id fun h => ?_
    rw [hpla, ← h]
    exact addClients_ok hok
  · exact .inl (dirty_rebuildInboundTags (by simp [markDirty, hw]))

theorem inStep_afterRemove {ents : List (String × List String)} (hw : fails .writeDirty = false)
    (hin : inboundsOf m.file = .ok ibs) (hno : (ibs.map tag).Nodup)
    (hbef : m.dirty = true ∨ m.runtime = rt)
    (hdro : ∀ t, clientsAt ibs t =
      (rt t).filter fun c => ∀ entry ∈ ents, ¬ (email c = trimSpace entry.1 ∧ t ∈ entry.2)) :
    InStep (m.afterRemove env fails old ents) := by
  have hf : (m.hotRemoveAll fails .update ents).file = m.file := (hotStep_hotRemoveAll (S := ∅) m).file
  refine inStep_rebuilt (hf ▸ hin) hno ?_
  rcases hbef with h | h
  · exact .inl (dirty_hotRemoveAll ents h)
  refine (runtime_hotRemoveAll hw ents m).imp id fun hrem => ?_
  funext t
  rw [hrem t, h, hdro t]

/-- The calls in question, with the flag file writable. A call that adds users finds no inbound whose list is
`null`. -/
def Remembers (m : Machine) (step : AdapterStep) : Prop :=
  step.fails .writeDirty = false ∧
    match step.call with
    | .addUser _ | .addUsersBulk _ => ∀ inbounds, inboundsOf m.file = .ok inbounds → NoNullList inbounds
    | .removeUser _ | .removeUsersBulk _ => True
    | _ => False

theorem inStep_run {step : AdapterStep} (hta : DistinctTags m.file) (h : InStep m) (hg : Remembers m step) :
    DistinctTags (m.run env step).1.file ∧ InStep (m.run env step).1 := by
  obtain ⟨call, fails⟩ := step
  obtain ⟨hw, hc⟩ := hg
  have hhe := hotStep_healDirty m fails
  have hhea : DistinctTags (m.healDirty fails).file ∧ InStep (m.healDirty fails) := ⟨hhe.file ▸ hta, h.healDirty⟩
  obtain ⟨ibs, hin, hno, hem⟩ := id hta
  have hbef : (m.healDirty fails).dirty = true ∨ (m.healDirty fails).runtime = clientsAt ibs := by
    refine h.healDirty.imp id fun hsa => ?_
    rw [hsa, hhe.file, runtimeOf_of_ok hin]
  have hr {cfg : RawMap} (hcfg : readConfig m.file = .ok cfg) : getInbounds cfg = .ok ibs := by
    obtain ⟨cfg', hcfg', hin'⟩ := inboundsOf_eq_ok.1 hin
    rwa [ok_unique hcfg hcfg']
  have hdis {cfg' : RawMap} {ibs' : List RawMap} (hin' : getInbounds cfg' = .ok ibs')
      (hta' : ibs'.map tag = ibs.map tag) : DistinctTags (some (marshalMap cfg')) :=
    ⟨ibs', inboundsOf_marshalMap.trans hin', hta' ▸ hno, hta' ▸ hem⟩
  let P (m : Machine) : Prop := DistinctTags m.file ∧ InStep m
  cases call with
  | addUser user =>
    refine updated_addUser.elim (P := P) ⟨hta, h⟩ hhea fun cfg cfg' missing hcfg hpl => ?_
    obtain ⟨ibs1, pay, hin1, hpay, hmis⟩ := placeUser_eq_ok hpl
    obtain rfl := Except.ok.inj ((hr hcfg).symm.trans hin1)
    obtain ⟨ibs', hin', hta', -, hpla⟩ := clientsAt_placeMissing hin1 hno (hc _ hin) hpay hmis
    refine ⟨?_, inStep_afterAdd hw (inboundsOf_marshalMap.trans hin') (hta' ▸ hno) hbef hpla⟩
    rw [file_afterAdd]
    exact hdis hin' hta'
  | addUsersBulk users =>
    refine updated_addUsersBulk.elim (P := P) ⟨hta, h⟩ hhea fun cfg cfg' pay hcfg hpl => ?_
    obtain ⟨rfl, rfl⟩ := Prod.ext_iff.1 (Except.ok.inj hpl)
    obtain ⟨ibs', added, hin', hta', had, hpla⟩ := clientsAt_placeInBulk users (cfg, []) (hr hcfg) hno (hc _ hin)
    rw [had]
    refine ⟨?_, inStep_afterAdd hw (inboundsOf_marshalMap.trans hin') (hta' ▸ hno) hbef hpla⟩
    rw [file_afterAdd]
    exact hdis hin' hta'
  | removeUser addr =>
    refine updated_removeUser.elim (P := P) ⟨hta, h⟩ hhea fun cfg cfg' tags hcfg hdr => ?_
    obtain ⟨ibs', hin', hta', hdro⟩ := clientsAt_dropUser (hr hcfg) hem hdr
    refine ⟨?_, inStep_afterRemove hw (inboundsOf_marshalMap.trans hin') (hta' ▸ hno) hbef hdro⟩
    rw [file_afterRemove]
    exact hdis hin' hta'
  | removeUsersBulk emails =>
    refine updated_removeUsersBulk.elim (P := P) ⟨hta, h⟩ hhea fun cfg cfg' tags hcfg hdr => ?_
    obtain ⟨ibs', hin', hta', hdro⟩ := clientsAt_dropUsers (hr hcfg) hem hdr
    refine ⟨?_, inStep_afterRemove hw (inboundsOf_marshalMap.trans hin') (hta' ▸ hno) hbef hdro⟩
    rw [file_afterRemove]
    exact hdis hin' hta'
  | _ => exact hc.elim

/-- In a run of such calls, started with the process equal to the config, it is equal after every call or the flag is
set. -/
theorem failed_update_remembered {m₀ : Machine} {tr : List AdapterStep} (htags : DistinctTags m₀.file)
    (hinit : m₀.runtime = runtimeOf m₀.file) (hrun : Run (Guarded Remembers (stepsTo (adapterStep env))) m₀ tr m) :
    m.dirty = true ∨ ∀ t, m.runtime t = runtimeOf m.file t := by
  have hst : DistinctTags m.file ∧ InStep m := by
    refine hrun.invariant_of_guard (fun m => DistinctTags m.file ∧ InStep m) ⟨htags, .inr hinit⟩ ?_
    rintro s step _ ⟨htags, hs⟩ hg hrun
    cases hrun
    exact inStep_run htags hs hg
  exact hst.2.imp id fun h t => congrFun h t

/-! An added user, where the call succeeds, and where the list of the inbound is `null`. -/

theorem failed_update_remembered_added :
    ((Machine.started (vlessConfig [])).run vlessEnv ⟨.addUser otherUser, noFaults⟩).1.runtime "in" =
      runtimeOf ((Machine.started (vlessConfig [])).run vlessEnv ⟨.addUser otherUser, noFaults⟩).1.file "in" := by
  have hg : Remembers (Machine.started (vlessConfig [])) ⟨.addUser otherUser, noFaults⟩ := by
    refine ⟨rfl, fun inbounds hin ib hib _ hnu => ?_⟩
    cases hin
    obtain rfl := List.mem_singleton.1 hib
    exact absurd (show (some [] : Option (List RawMap)) = none from Except.ok.inj hnu) (by simp)
  have hrun : Run (Guarded Remembers (stepsTo (adapterStep vlessEnv))) (Machine.started (vlessConfig []))
      [⟨.addUser otherUser, noFaults⟩]
      ((Machine.started (vlessConfig [])).run vlessEnv ⟨.addUser otherUser, noFaults⟩).1 :=
    Run.cons ⟨hg, rfl⟩ .nil
  rcases failed_update_remembered distinctTags_vlessConfig rfl hrun with h | h
  · exact absurd h (by decide +kernel)
  · exact h "in"

/-- The config passes over the inbound, the process does not, and the flag is not set. -/
theorem update_of_null_list_forgotten : ∃ m, Run (stepsTo (adapterStep vlessEnv)) (Machine.started nullConfig)
    [⟨.addUser otherUser, noFaults⟩] m ∧ DistinctTags nullConfig ∧ m.dirty = false ∧
      m.runtime "in" ≠ runtimeOf m.file "in" := by
  refine ⟨_, Run.cons rfl .nil, ⟨_, rfl, (by decide : ["in"].Nodup), (by decide : "" ∉ ["in"])⟩, by decide +kernel, ?_⟩
  decide +kernel

/-! A soft ban and its end. `UnbanUser` folds the clients of the email into one parameter set and builds it anew for
every inbound with a list, so the process is as before where each of these had that one client. -/

open List

variable {e : String} {ib cfg c built : RawMap} {params : ClientParams} {ext : Externals} {l : List RawMap}

/-- For each email the same clients, whatever the order of the emails and of the fields. -/
def SameByEmail (l l' : List RawMap) : Prop :=
  ∀ e, Forall₂ RawMap.Same (l.filter (email · = e)) (l'.filter (email · = e))

/-- The fields that the process sees of a client of the email: the email, the secret that the protocol takes of the
last id, auth and password among all clients of the email, and Vision where it applies. -/
structure Shows (ext : Externals) (cs : List RawMap) (e : String) (ib c : RawMap) : Prop where
  address : c.get "email" = some (.str e)
  buildable : Buildable (protocol ib) (secretAt ext (protocol ib) e (lastText cs "id") (lastSecret cs))
  secret : c.get (secretKey (protocol ib)) =
    some (.str (secretAt ext (protocol ib) e (lastText cs "id") (lastSecret cs)))
  flow : c.get "flow" = if protocol ib = "vless" ∧ isHTTPTransport ib = false ∧ hasXTLS ib = true
    then some (.str "xtls-rprx-vision") else none
  rest : ∀ k ∉ ["email", secretKey (protocol ib), "flow", "subfile", "expire", "limit", "hy2_auth", "hy2_obfs"],
    c.get k = none

def clientsNamed (inbounds : List RawMap) (e : String) : List RawMap :=
  inbounds.flatMap fun ib => (readClients ib).filter (email · = e)

/-- The inbound has one client of the email, with these fields. -/
def RestoredAt (ext : Externals) (cs : List RawMap) (e : String) (ib : RawMap) : Prop :=
  ∃ c, (readClients ib).filter (email · = e) = [c] ∧ Shows ext cs e ib c

theorem sameByEmail_refl (l : List RawMap) : SameByEmail l l := fun _ => forall₂_same.2 fun _ _ _ => rfl

theorem sameByEmail_replaced (hc : email c = e) :
    SameByEmail (l.filter (email · ≠ e) ++ [c]) l ↔ Forall₂ RawMap.Same [c] (l.filter (email · = e)) := by
  have hfil (e' : String) : (l.filter (email · ≠ e) ++ [c]).filter (email · = e') =
      if e' = e then [c] else l.filter (email · = e') := by
    rw [filter_append, filter_filter]
    split_ifs with he
    · subst he
      rw [filter_eq_nil_iff.2 (by simp), filter_cons_of_pos (by simpa using hc)]
      rfl
    · rw [filter_cons_of_neg (by simpa [hc] using Ne.symm he), filter_nil, append_nil]
      exact filter_congr fun c' _ => by grind
  constructor
  · intro h
    have he := h e
    rwa [hfil, if_pos rfl] at he
  intro h e'
  rw [hfil]
  split_ifs with he
  · exact he ▸ h
  · exact sameByEmail_refl l e'

theorem buildForAllInbounds_succeeds (h : ∀ ib ∈ ibs, hasClientList ib = true → ∃ built,
    buildClient ext ib params = .ok built) : ∃ pay, buildForAllInbounds ext params ibs = .ok pay := by
  induction ibs with
  | nil => exact ⟨[], rfl⟩
  | cons ib ibs ih =>
    obtain ⟨pay, hpay⟩ := ih fun ib hib => h ib (mem_cons_of_mem _ hib)
    by_cases hsk : hasClientList ib = true ∧ tag ib ≠ ""
    · obtain ⟨built, hb⟩ := h ib mem_cons_self hsk.1
      exact ⟨_, buildForAllInbounds_cons_eq_ok.2 (.inr ⟨hsk, built, pay, hb, hpay, rfl⟩)⟩
    · rw [not_and_or, Bool.not_eq_true, not_not] at hsk
      exact ⟨pay, buildForAllInbounds_cons_eq_ok.2 (.inl ⟨hsk, hpay⟩)⟩

section

variable {cs : List RawMap}

theorem uuid_unbanParams : (Machine.unbanParams (mergeClients cs)).uuid = lastText cs "id" := getString_mergeClients

theorem auth_unbanParams : (Machine.unbanParams (mergeClients cs)).auth = lastSecret cs := by
  simp only [Machine.unbanParams, lastSecret, getString_mergeClients]

variable (hem : email (mergeClients cs) = e)
  (hb : buildClient ext ib (Machine.unbanParams (mergeClients cs)) = .ok built)
include hem hb

theorem shows_iff : (runtimeForm built).Same (runtimeForm c) ↔ Shows ext cs e ib c := by
  have hfl : vlessFlow ib (Machine.unbanParams (mergeClients cs)) =
      if isHTTPTransport ib = false ∧ hasXTLS ib = true then "xtls-rprx-vision" else "" := by
    unfold vlessFlow Machine.unbanParams
    cases isHTTPTransport ib <;> cases hasXTLS ib <;> rfl
  have had : built.get "email" = some (.str e) := by
    rw [get_built_metadata hb (by decide), lookup_metadataFields_email, ← hem]
    rfl
  have hse : secretKey (protocol ib) ∉ ["email", "flow", "subfile", "expire", "limit", "hy2_auth", "hy2_obfs"] :=
    (show ∀ k ∈ ["id", "password", "auth"], k ∉ _ by decide) _ secretKey_mem
  have hge {k : String} (hk : k ∉ ["email", "subfile", "expire", "limit"]) : built.get k =
      if k = secretKey (protocol ib) then
        some (.str (secretAt ext (protocol ib) e (lastText cs "id") (lastSecret cs)))
      else if k = "flow" ∧ protocol ib = "vless" ∧ isHTTPTransport ib = false ∧ hasXTLS ib = true then
        some (.str "xtls-rprx-vision") else none := by
    rw [get_built hb hk, auth_unbanParams, uuid_unbanParams, hfl,
      show (Machine.unbanParams (mergeClients cs)).email = e from hem]
    by_cases hvi : isHTTPTransport ib = false ∧ hasXTLS ib = true <;> simp [hvi]
  rw [same_runtimeForm]
  constructor
  · intro h
    refine ⟨(h _ (by decide)).symm.trans had, ?_, ?_, ?_, fun k hk => ?_⟩
    · rw [← uuid_unbanParams, ← auth_unbanParams, ← hem]
      exact exists_built.1 ⟨built, hb⟩
    · rw [← h _ (by simp_all), hge secretKey_notMem, if_pos rfl]
    · rw [← h _ (by decide), hge (by decide), if_neg fun h => hse (by simp [← h])]
      simp
    · simp only [mem_cons, not_mem_nil, or_false, not_or] at hk
      rw [← h k (by simp_all), hge (by simp_all), if_neg hk.2.1, if_neg (mt And.left hk.2.2.1)]
  intro hsh k hk
  by_cases hke : k = "email"
  · rw [hke, had, hsh.address]
  rw [hge (by simp_all)]
  split_ifs with hks hkf
  · rw [hks, hsh.secret]
  · rw [hkf.1, hsh.flow, if_pos hkf.2]
  by_cases hk' : k = "flow"
  · rw [hk', hsh.flow, if_neg fun h => hkf ⟨hk', h⟩]
  · rw [hsh.rest k (by simp_all)]

/-- The built client stands for those of the email exactly if there is one of them and it is the same. -/
theorem restoredAt_iff (hno : (ibs.map tag).Nodup) (hib : ib ∈ ibs) (he : email (runtimeForm built) = e) :
    SameByEmail ((clientsAt ibs (tag ib)).filter (email · ≠ e) ++ [runtimeForm built]) (clientsAt ibs (tag ib)) ↔
      RestoredAt ext cs e ib := by
  have hfil : (clientsAt ibs (tag ib)).filter (email · = e) = ((readClients ib).filter (email · = e)).map runtimeForm := by
    rw [clientsAt_of_mem hno hib, filter_map]
    simp [Function.comp_def]
  rw [sameByEmail_replaced he, hfil, forall₂_map_right_iff, forall₂_cons_left_iff]
  constructor
  · rintro ⟨c, rest, hs, hrest, hl⟩
    cases hrest
    exact ⟨c, hl, (shows_iff hem hb).1 hs⟩
  rintro ⟨c, hl, hs⟩
  exact ⟨c, [], (shows_iff hem hb).2 hs, .nil, hl⟩

end

namespace Machine

section

variable (hr : readConfig m.file = .ok cfg) (hin : getInbounds cfg = .ok ibs)
include hr hin

theorem runtime_banUser (hem : "" ∉ ibs.map tag) (hne : e ≠ "") (htr : trimSpace e = e) (hrt : m.runtime = clientsAt ibs) :
    (m.banUser noFaults e).1.file = m.file ∧
      ∀ t, (m.banUser noFaults e).1.runtime t = (clientsAt ibs t).filter (email · ≠ e) := by
  have hrun (t : String) : (m.hotRemove noFaults .update e (tagsFor ibs e)).runtime t =
      (clientsAt ibs t).filter (email · ≠ e) := by
    rw [runtime_hotRemove, hrt]
    refine filter_congr fun c hc => ?_
    have ht : t ≠ "" := by
      rintro rfl
      rw [clientsAt_of_not_mem hem] at hc
      cases hc
    have hm : email c = e → t ∈ tagsFor ibs e := fun he => mem_tagsFor.2 ⟨ht, he ▸ mem_clientsAt hc⟩
    grind [noFaults]
  have hok : removeSucceeds noFaults .update e (tagsFor ibs e) = true := by simp [removeSucceeds, htr, hne, noFaults]
  unfold banUser
  rw [if_neg (by simp [noFaults]), hr]
  simp only [inboundTagsForUser, hin, ok_bind, hok, if_true]
  split_ifs with hnil
  · refine ⟨rfl, fun t => ?_⟩
    rw [← hrun, hnil, runtime_hotRemove]
    simp
  · exact ⟨(hotStep_hotRemove (S := ∅) m).file, hrun⟩

theorem addClients_noFaults (hno : (ibs.map tag).Nodup) (hpay : buildForAllInbounds ext params ibs = .ok pay)
    {i : Nat} {rt : Runtime} : (addClients noFaults (m.hasProtocol noFaults) i pay rt).2 = true := by
  have hknown : ∀ tagged ∈ pay, m.hasProtocol noFaults tagged.tag = true := by
    intro tagged htag
    obtain ⟨ib, hib, -, ht, -, hb⟩ := of_mem_payload hpay htag
    rw [hasProtocol, readOrNil_of_ok hr, noFaults, if_neg (by decide), hin]
    rcases hfind : ibs.reverse.find? (tag · = tagged.tag) with _ | found
    · exact absurd ht (by simpa using find?_eq_none.1 hfind ib (by simpa using hib))
    have hf : found ∈ ibs := by simpa using mem_of_find?_eq_some hfind
    have htf : tag found = tagged.tag := by simpa using find?_some hfind
    obtain rfl := inj_on_of_nodup_map hno hf hib (htf.trans ht.symm)
    have hpr : protocol found ≠ "" := by
      intro hp
      rw [buildClient, hp] at hb
      simp [credentials, Except.map] at hb
    simpa [hfind] using hpr
  clear hpay hr hin
  induction pay generalizing i rt with
  | nil => rfl
  | cons tagged pay ih =>
    rw [addClients, if_pos (by simp [hknown tagged mem_cons_self, noFaults])]
    exact ih fun t ht => hknown t (mem_cons_of_mem _ ht)

variable (hfound : clientsNamed ibs e ≠ [])
include hfound

omit hr in
theorem findUser_found : findUser cfg e = .ok (some (mergeClients (clientsNamed ibs e))) := by
  rw [findUser, hin, ok_bind]
  exact congrArg Except.ok (if_neg hfound)

theorem unbanUser_of_error {err : Failure}
    (hpay : buildForAllInbounds env.ext (unbanParams (mergeClients (clientsNamed ibs e))) ibs = .error err) :
    (m.unbanUser env noFaults e).1 = m := by
  unfold unbanUser
  rw [if_neg (by simp [noFaults]), hr]
  simp only [findUser_found hin hfound, hin, ok_bind, hpay]

theorem runtime_unbanUser (hno : (ibs.map tag).Nodup)
    (hpay : buildForAllInbounds env.ext (unbanParams (mergeClients (clientsNamed ibs e))) ibs = .ok pay) :
    (m.unbanUser env noFaults e).1.runtime = pay.foldl Runtime.add m.runtime := by
  have hok : (addClients noFaults (m.hasProtocol noFaults) 0 pay m.runtime).2 = true :=
    addClients_noFaults hr hin hno hpay
  rw [← addClients_ok hok]
  unfold unbanUser
  rw [if_neg (by simp [noFaults]), hr]
  simp only [findUser_found hin hfound, hin, ok_bind, hpay, hotAdd, hok, if_true, invalidateHash]

end

end Machine

theorem clientsAt_of_unlisted {t : String} (h : ¬ ∃ ib ∈ ibs, hasClientList ib = true ∧ tag ib = t) :
    clientsAt ibs t = [] := by
  rw [eq_nil_iff_forall_not_mem]
  intro c hc
  obtain ⟨ib, hib, htag, c₀, hc₀, -⟩ := mem_clientsAt hc
  exact h ⟨ib, hib, hasClientList_of_mem hc₀, htag⟩

/-- With the process equal to the config and no call failing, a ban and an unban of an email of the config leave the
process equal to it if and only if every inbound with a list is one that the unban restores. -/
theorem ban_unban_restores_iff (env : AdapterEnv) (m : Machine) (e : String) (inbounds : List RawMap)
    (htags : DistinctTags m.file) (hin : inboundsOf m.file = .ok inbounds) (hrt : m.runtime = runtimeOf m.file)
    (hne : e ≠ "") (hlisted : e ∈ emailsOf (inbounds.flatMap readClients)) :
    (∀ t, SameByEmail (((m.banUser noFaults e).1.unbanUser env noFaults e).1.runtime t) (runtimeOf m.file t)) ↔
      ∀ ib ∈ inbounds, hasClientList ib = true → RestoredAt env.ext (clientsNamed inbounds e) e ib := by
  obtain ⟨ibs, hin', hno, hem⟩ := htags
  obtain rfl := ok_unique hin hin'
  obtain ⟨cfg, hr, hg⟩ := inboundsOf_eq_ok.1 hin
  rw [runtimeOf_of_ok hin] at hrt ⊢
  obtain ⟨c, hc, hce⟩ := hlisted
  obtain ⟨ib₀, hib₀, hc⟩ := mem_flatMap.1 hc
  have htr : trimSpace e = e := hce ▸ trimSpace_email c
  obtain ⟨hf, hban⟩ := Machine.runtime_banUser hr hg hem hne htr hrt
  have hfo : clientsNamed inbounds e ≠ [] :=
    ne_nil_of_mem (mem_flatMap.2 ⟨ib₀, hib₀, mem_filter.2 ⟨hc, by simpa using hce⟩⟩)
  have hmer : (unbanParams (mergeClients (clientsNamed inbounds e))).email = e := by
    refine email_mergeClients hfo fun c hc => ?_
    obtain ⟨ib, -, hc⟩ := mem_flatMap.1 hc
    simpa using (mem_filter.1 hc).2
  have hbu {ib built : RawMap}
      (hb : buildClient env.ext ib (unbanParams (mergeClients (clientsNamed inbounds e))) = .ok built) :
      email (runtimeForm built) = e := by
    rw [email_runtimeForm, email_built hb, hmer, htr]
  rcases hpay : buildForAllInbounds env.ext (unbanParams (mergeClients (clientsNamed inbounds e))) inbounds with err | pay
  · rw [Machine.unbanUser_of_error (hf ▸ hr) hg hfo hpay]
    refine iff_of_false (fun h => ?_) fun h => ?_
    · have hlo := h (tag ib₀) e
      rw [hban, filter_filter, filter_eq_nil_iff.2 (by simp), forall₂_nil_left_iff, clientsAt_of_mem hno hib₀] at hlo
      exact filter_eq_nil_iff.1 hlo _ (mem_map_of_mem hc) (by simpa using hce)
    obtain ⟨pay, hp⟩ := buildForAllInbounds_succeeds fun ib hib hli => by
      obtain ⟨c, -, hs⟩ := h ib hib hli
      rw [exists_built, uuid_unbanParams, auth_unbanParams, hmer]
      exact hs.buildable
    rw [hpay] at hp
    cases hp
  rw [Machine.runtime_unbanUser (hf ▸ hr) hg hfo hno hpay]
  have hat {ib : RawMap} (hib : ib ∈ inbounds) (hli : hasClientList ib = true) :
      SameByEmail (pay.foldl Runtime.add (m.banUser noFaults e).1.runtime (tag ib)) (clientsAt inbounds (tag ib)) ↔
        RestoredAt env.ext (clientsNamed inbounds e) e ib := by
    obtain ⟨built, hb, hp⟩ := mem_payload hpay hib hli fun ht => hem (ht ▸ mem_map_of_mem hib)
    rw [foldl_add_of_mem (hno.sublist (tags_payload hpay)) hp, hban, addTo_of_absent,
      restoredAt_iff hmer hb hno hib (hbu hb)]
    intro c hc
    rw [← email_runtimeForm built, hbu hb]
    simpa using (mem_filter.1 hc).2
  refine ⟨fun h ib hib hli => (hat hib hli).1 (h (tag ib)), fun h t => ?_⟩
  by_cases ht : ∃ ib ∈ inbounds, hasClientList ib = true ∧ tag ib = t
  · obtain ⟨ib, hib, hli, rfl⟩ := ht
    exact (hat hib hli).2 (h ib hib hli)
  -- no client is built for another tag, and none is in the config
  rw [foldl_add_of_not_mem, hban, clientsAt_of_unlisted ht]
  · exact sameByEmail_refl []
  intro hin
  obtain ⟨tagged, htag, rfl⟩ := mem_map.1 hin
  obtain ⟨ib, hib, hli, heq, -⟩ := of_mem_payload hpay htag
  exact ht ⟨ib, hib, hli, heq⟩

theorem ban_unban_restores_vless :
    SameByEmail ((((Machine.started (vlessConfig [.obj [("email", .str "a"), ("id", .str "u")]])).banUser
      noFaults "a").1.unbanUser vlessEnv noFaults "a").1.runtime "in")
      (runtimeOf (vlessConfig [.obj [("email", .str "a"), ("id", .str "u")]]) "in") := by
  refine (ban_unban_restores_iff vlessEnv (.started (vlessConfig [.obj [("email", .str "a"), ("id", .str "u")]])) "a" _
    distinctTags_vlessConfig rfl rfl (by decide) ⟨_, mem_cons_self, by decide⟩).2 (fun ib hib _ => ?_) _
  obtain rfl := mem_singleton.1 hib
  refine ⟨_, rfl, rfl, by decide +kernel, rfl, rfl, fun k hk => ?_⟩
  change k ∉ ["email", "id", "flow", "subfile", "expire", "limit", "hy2_auth", "hy2_obfs"] at hk
  simp only [mem_cons, not_or] at hk
  rw [RawMap.get, Option.bind_some, Assoc.lookup_cons, if_neg hk.1, Assoc.lookup_cons, if_neg hk.2.1]
  rfl

def firstOnly : Option Raw :=
  some (.obj [("inbounds", .arr [.obj [("tag", .str "in"), ("protocol", .str "vless"),
    ("settings", .obj [("clients", .arr [.obj [("email", .str "a"), ("id", .str "u")]])])],
    .obj [("tag", .str "other"), ("protocol", .str "vless"), ("settings", .obj [("clients", .arr [])])]])])

/-- The unban puts the user into an inbound that never had them. -/
theorem unban_adds_member :
    DistinctTags firstOnly ∧ ((Machine.started firstOnly).banUser noFaults "a").2 = .ok () ∧
      (((Machine.started firstOnly).banUser noFaults "a").1.unbanUser vlessEnv noFaults "a").2 = .ok () ∧
      (runtimeOf firstOnly "other").map email = [] ∧
      ((((Machine.started firstOnly).banUser noFaults "a").1.unbanUser vlessEnv noFaults "a").1.runtime
        "other").map email = ["a"] := by
  refine ⟨⟨_, rfl, ?_⟩, ?_⟩ <;> decide +kernel

end Xraytool.Xray
