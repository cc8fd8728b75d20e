import Xraytool.Sanity.XraySync

/-! The clients of the running process as lists: a change of the config by the adapter, followed by the calls that
go with it, keeps the process equal to the config. -/

namespace Xraytool.Xray

open Fallible List Function Machine Xray.Runtime

variable {env : AdapterEnv} {fails : Faults} {m : Machine} {ext : Externals} {params : ClientParams}
  {ibs ibs' : List RawMap} {cfg cfg' : RawMap} {pay missing : List TaggedClient} {rt : Runtime}

def clientsAt (inbounds : List RawMap) (t : String) : List RawMap :=
  ((inbounds.filter (tag · = t)).flatMap readClients).map runtimeForm

theorem runtimeOf_of_ok {file : Option Raw} (h : inboundsOf file = .ok ibs) : runtimeOf file = clientsAt ibs := by
  funext t
  rw [runtimeOf, h]
  rfl

variable {ib : RawMap} {tagged : TaggedClient} {ents : List (String × List String)}

theorem clientsAt_of_mem (hno : (ibs.map tag).Nodup) (hib : ib ∈ ibs) :
    clientsAt ibs (tag ib) = (readClients ib).map runtimeForm := by
  have hone : ibs.filter (tag · = tag ib) = [ib] := by
    induction ibs with
    | nil => simp at hib
    | cons first ibs ih =>
      obtain ⟨hfi, hre⟩ := nodup_cons.1 hno
      rcases mem_cons.1 hib with rfl | hib
      · rw [filter_cons_of_pos (by simp), filter_eq_nil_iff.2]
        intro other ho heq
        exact hfi (mem_map.2 ⟨other, ho, by simpa using heq⟩)
      rw [filter_cons_of_neg, ih hre hib]
      intro heq
      exact hfi (mem_map.2 ⟨ib, hib, (of_decide_eq_true heq).symm⟩)
  rw [clientsAt, hone]
  simp

variable {t : String} {c : RawMap} {emails : List String}

theorem clientsAt_of_not_mem (h : t ∉ ibs.map tag) : clientsAt ibs t = [] := by
  rw [clientsAt, filter_eq_nil_iff.2]
  · rfl
  · intro ib hib heq
    exact h (mem_map.2 ⟨ib, hib, by simpa using heq⟩)

theorem mem_clientsAt (h : c ∈ clientsAt ibs t) : (t, email c) ∈ members ibs := by
  obtain ⟨c0, hc0, rfl⟩ := mem_map.1 h
  obtain ⟨ib, hib, hc⟩ := mem_flatMap.1 hc0
  obtain ⟨hib, ht⟩ := mem_filter.1 hib
  exact ⟨ib, hib, by simpa using ht, c0, hc, (email_runtimeForm c0).symm⟩

theorem addTo_of_absent {cs : List RawMap} (h : ∀ c' ∈ cs, email c' ≠ email c) :
    addTo cs c = cs ++ [runtimeForm c] := by
  refine if_neg ?_
  rintro ⟨-, hany⟩
  obtain ⟨c', hc', he⟩ := any_eq_true.1 hany
  exact h c' hc' (of_decide_eq_true he)

theorem foldl_add_of_not_mem (h : t ∉ pay.map TaggedClient.tag) : (pay.foldl add rt) t = rt t := by
  induction pay generalizing rt with
  | nil => rfl
  | cons tagged pay ih =>
    rw [map_cons, mem_cons, not_or] at h
    rw [foldl_cons, ih h.2, add_eq, update_of_ne h.1]

theorem foldl_add_of_mem (hno : (pay.map TaggedClient.tag).Nodup) (h : tagged ∈ pay) :
    (pay.foldl add rt) tagged.tag = addTo (rt tagged.tag) tagged.client := by
  induction pay generalizing rt with
  | nil => simp at h
  | cons first pay ih =>
    obtain ⟨hfi, hre⟩ := nodup_cons.1 hno
    rw [foldl_cons]
    rcases mem_cons.1 h with rfl | h
    · rw [foldl_add_of_not_mem hfi, add_eq, update_self]
    · have hne : tagged.tag ≠ first.tag := fun heq => hfi (heq ▸ mem_map_of_mem h)
      rw [ih hre h, add_eq, update_of_ne hne]

theorem Machine.addClients_ok {known : String → Bool} {i : Nat} (h : (addClients fails known i pay rt).2 = true) :
    (addClients fails known i pay rt).1 = pay.foldl add rt := by
  induction pay generalizing i rt with
  | nil => rfl
  | cons tagged pay ih =>
    rw [addClients] at h ⊢
    split_ifs at h ⊢
    exact ih h

theorem addToInbound_clients {ib' : RawMap} {recorded : List (String × List String)}
    (hno : (ibs.map tag).Nodup) (hli : NoNullList ibs) (hib : ib ∈ ibs)
    (hpay : buildForAllInbounds ext params ibs = .ok pay)
    (hreco : recordedEmails ibs = .ok recorded)
    (hmis : missing = pay.filter (isMissing (Assoc.ofList recorded)))
    (hadd : addToInbound (taggedClientMap missing) ib = .ok ib') :
    (readClients ib').map runtimeForm = (missing.foldl add (clientsAt ibs)) (tag ib) := by
  have hta : (missing.map TaggedClient.tag).Nodup := by
    rw [hmis]
    exact hno.sublist ((filter_sublist.map _).trans (tags_payload hpay))
  rcases addToInbound_withClients hadd with ⟨rfl, hsk⟩ | ⟨new, hnew, hcli, hwi⟩
  · -- nothing was placed, and nothing was to be placed
    rw [foldl_add_of_not_mem, clientsAt_of_mem hno hib]
    intro hin
    rcases hsk with hn | hnu
    · obtain ⟨new, hnew⟩ := Assoc.exists_lookup_ofList (k := tag ib') (l := missing.map fun t => (t.tag, t.client))
        (by rwa [map_map])
      rw [taggedClientMap, hnew] at hn
      contradiction
    · obtain ⟨tagged, htagg, heq⟩ := mem_map.1 hin
      obtain ⟨other, ho, hlis, ht, -, -⟩ := of_mem_payload hpay (mem_of_mem_filter (hmis ▸ htagg))
      obtain rfl := inj_on_of_nodup_map hno ho hib (ht.trans heq)
      exact hli other hib hlis hnu
  · have hpla : ⟨tag ib, new⟩ ∈ missing := mem_taggedClientMap hnew
    have habs : ∀ c ∈ readClients ib, email c ≠ email new := by
      have hmi : isMissing (Assoc.ofList recorded) ⟨tag ib, new⟩ = true := (mem_filter.1 (hmis ▸ hpla)).2
      rw [isMissing, decide_eq_true_iff] at hmi
      obtain ⟨htag, -, hne, hnot⟩ := hmi
      obtain ⟨cs, hcli', hrec⟩ := mem_recorded hreco hib htag
      obtain rfl := ok_unique hcli hcli'
      rw [(Assoc.lookup_ofList (hno.sublist (tags_recorded hreco))).2 (hrec _ rfl), Option.getD_some] at hnot
      intro c hc heq
      exact hnot (mem_filter.2 ⟨mem_map.2 ⟨c, hc, heq⟩, by simpa using hne⟩)
    have hfo : (missing.foldl add (clientsAt ibs)) (tag ib) = addTo (clientsAt ibs (tag ib)) new :=
      foldl_add_of_mem hta hpla
    rw [hfo, clientsAt_of_mem hno hib, addTo_of_absent, hwi.clients, replaceClient_of_absent habs]
    · simp [comp_def]
    intro c hc
    obtain ⟨c0, hc0, rfl⟩ := mem_map.1 hc
    rw [email_runtimeForm]
    exact habs c0 hc0

theorem clientsAt_placeMissing (hin : getInbounds cfg = .ok ibs) (hno : (ibs.map tag).Nodup)
    (hli : NoNullList ibs) (hpay : buildForAllInbounds ext params ibs = .ok pay)
    (h : placeMissing cfg pay = .ok (cfg', missing)) :
    ∃ ibs', getInbounds cfg' = .ok ibs' ∧ ibs'.map tag = ibs.map tag ∧ NoNullList ibs' ∧
      clientsAt ibs' = missing.foldl add (clientsAt ibs) := by
  obtain ⟨⟨recorded, hrec, hmis⟩, ibs', hin', hrou, -⟩ := placeMissing_rounds hin h
  have hta : ibs'.map tag = ibs.map tag := map_eq_map_of_forall₂ (hrou.imp fun _ _ hadd => addToInbound_tag hadd)
  refine ⟨ibs', hin', hta, ?_, ?_⟩
  · intro ib' hib' hlis hnu
    obtain ⟨ib, hib, hadd⟩ := exists_of_forall₂_left hrou.flip hib'
    rcases addToInbound_withClients hadd with ⟨rfl, -⟩ | ⟨new, -, -, hwi⟩
    · exact hli ib' hib hlis hnu
    have hcli := hwi.clients
    simp [readClients_of_none hnu, replaceClient] at hcli
  · funext t
    by_cases ht : t ∈ ibs.map tag
    · obtain ⟨ib, hib, rfl⟩ := mem_map.1 ht
      obtain ⟨ib', hib', hadd⟩ := exists_of_forall₂_left hrou hib
      rw [← addToInbound_clients hno hli hib hpay hrec hmis hadd, ← addToInbound_tag hadd,
        clientsAt_of_mem (hta ▸ hno) hib']
    · rw [clientsAt_of_not_mem (hta ▸ ht), foldl_add_of_not_mem, clientsAt_of_not_mem ht]
      intro hin
      obtain ⟨tagged, htag, rfl⟩ := mem_map.1 hin
      obtain ⟨ib, hib, -, heq, -, -⟩ := of_mem_payload hpay (mem_of_mem_filter (hmis ▸ htag))
      exact ht (mem_map.2 ⟨ib, hib, heq⟩)

/-- One user of a bulk: it is skipped, or its missing clients are placed. -/
theorem placeInBulk_cases (ext : Externals) (acc : RawMap × List TaggedClient) (user : VPNUserConfig) :
    placeInBulk ext acc user = acc ∨ ∃ ibs pay cfg' missing, getInbounds acc.1 = .ok ibs ∧
      buildForAllInbounds ext (configToParams user) ibs = .ok pay ∧
      placeMissing acc.1 pay = .ok (cfg', missing) ∧
      placeInBulk ext acc user = (cfg', acc.2 ++ missing) := by
  unfold placeInBulk
  split_ifs
  · exact .inl rfl
  rcases hin : getInbounds acc.1 with e | ibs
  · exact .inl rfl
  rcases hpay : buildForAllInbounds ext (configToParams user) ibs with e | pay
  · refine .inl ?_
    simp only [ok_bind, hpay]
    rfl
  rcases hpl : placeMissing acc.1 pay with e | ⟨cfg', missing⟩
  · refine .inl ?_
    simp only [ok_bind, hpay, hpl]
  · refine .inr ⟨ibs, pay, cfg', missing, rfl, hpay, hpl, ?_⟩
    simp only [ok_bind, hpay, hpl]

theorem clientsAt_placeInBulk (users : List VPNUserConfig) (acc : RawMap × List TaggedClient)
    (hin : getInbounds acc.1 = .ok ibs) (hno : (ibs.map tag).Nodup) (hli : NoNullList ibs) :
    ∃ ibs' added, getInbounds (users.foldl (placeInBulk ext) acc).1 = .ok ibs' ∧
      ibs'.map tag = ibs.map tag ∧ (users.foldl (placeInBulk ext) acc).2 = acc.2 ++ added ∧
      clientsAt ibs' = added.foldl add (clientsAt ibs) := by
  induction users generalizing acc ibs with
  | nil => exact ⟨ibs, [], hin, rfl, (append_nil _).symm, rfl⟩
  | cons user users ih =>
    rw [foldl_cons]
    rcases placeInBulk_cases ext acc user with hsa | ⟨ibs1, pay, cfg', missing, hin1, hpay, hpl, heq⟩
    · rw [hsa]
      exact ih acc hin hno hli
    obtain rfl := ok_unique hin hin1
    obtain ⟨ibs2, hin2, hta2, hli2, hcli2⟩ := clientsAt_placeMissing hin hno hli hpay hpl
    rw [heq]
    obtain ⟨ibs', added, hin', hta, had, hcli⟩ := ih (cfg', acc.2 ++ missing) hin2 (hta2 ▸ hno) hli2
    refine ⟨ibs', missing ++ added, hin', hta.trans hta2, ?_, ?_⟩
    · rw [had, append_assoc]
    · rw [foldl_append, ← hcli2, hcli]

theorem clientsAt_removeUsers (hin : getInbounds cfg = .ok ibs) (h : removeUsersFromAllInbounds cfg emails = .ok cfg') :
    ∃ ibs', getInbounds cfg' = .ok ibs' ∧ ibs'.map tag = ibs.map tag ∧
      ∀ t, clientsAt ibs' t = (clientsAt ibs t).filter (email · ∉ emails) := by
  rw [removeUsersFromAllInbounds, hin, ok_bind, bind_eq_ok] at h
  obtain ⟨ibs', hrou, hset⟩ := h
  have hall : Forall₂ (fun ib ib' => tag ib' = tag ib ∧
      (readClients ib').map runtimeForm = ((readClients ib).map runtimeForm).filter (email · ∉ emails))
      ibs ibs' := by
    refine (mapM_eq_ok.1 hrou).imp fun ib ib' hro => ?_
    rcases removeAllFromInbound_withClients hro with ⟨rfl, hnil⟩ | hwi
    · simp [hnil]
    refine ⟨hwi.tag_eq, ?_⟩
    rw [hwi.clients, filter_map]
    simp [comp_def]
  refine ⟨ibs', getInbounds_setInbounds hset, map_eq_map_of_forall₂ (hall.imp fun _ _ h => h.1), fun t => ?_⟩
  clear hrou hset hin
  induction hall with
  | nil => rfl
  | @cons ib ib' _ _ hro _ ih =>
    obtain ⟨htag, hcli⟩ := hro
    unfold clientsAt at ih ⊢
    by_cases ht : tag ib = t
    · rw [filter_cons_of_pos (by simpa [htag] using ht), filter_cons_of_pos (by simpa using ht),
        flatMap_cons, flatMap_cons, map_append, map_append, filter_append, hcli, ih]
    · rw [filter_cons_of_neg (by simpa [htag] using ht), filter_cons_of_neg (by simpa using ht), ih]

section

variable (hentries : ∀ e t, (∃ ts, (e, ts) ∈ ents ∧ t ∈ ts) ↔ e ∈ emails ∧ t ≠ "" ∧ (t, e) ∈ members ibs)
include hentries

theorem removed_iff (ht : t ≠ "") (hc : c ∈ clientsAt ibs t) :
    email c ∉ emails ↔ ∀ entry ∈ ents, ¬ (email c = trimSpace entry.1 ∧ t ∈ entry.2) := by
  constructor
  · rintro hnot ⟨e, ts⟩ hen ⟨he, hts⟩
    obtain ⟨hin, -, ib, -, -, c', -, he'⟩ := (hentries e t).1 ⟨ts, hen, hts⟩
    obtain rfl : email c' = e := he'
    have htr := trimSpace_email c'
    exact hnot (by rw [he, htr]; exact hin)
  · intro hall hin
    obtain ⟨ts, hen, hts⟩ := (hentries (email c) t).2 ⟨hin, ht, mem_clientsAt hc⟩
    exact hall _ hen ⟨(trimSpace_email c).symm, hts⟩

theorem clientsAt_dropped (hempty : "" ∉ ibs.map tag)
    (hcli : ∀ t, clientsAt ibs' t = (clientsAt ibs t).filter (email · ∉ emails)) (t : String) :
    clientsAt ibs' t =
      (clientsAt ibs t).filter fun c => ∀ entry ∈ ents, ¬ (email c = trimSpace entry.1 ∧ t ∈ entry.2) := by
  rw [hcli]
  refine filter_congr fun c hc => ?_
  have ht : t ≠ "" := by
    rintro rfl
    rw [clientsAt_of_not_mem hempty] at hc
    contradiction
  rw [Bool.eq_iff_iff, decide_eq_true_iff, decide_eq_true_iff]
  exact removed_iff hentries ht hc

end

section

variable (hin : getInbounds cfg = .ok ibs) (hempty : "" ∉ ibs.map tag)
include hin hempty

theorem clientsAt_dropUser {addr : String} {tags : List String} (h : dropUser addr cfg = .ok (cfg', tags)) :
    ∃ ibs', getInbounds cfg' = .ok ibs' ∧ ibs'.map tag = ibs.map tag ∧
      ∀ t, clientsAt ibs' t = (clientsAt ibs t).filter fun c =>
        ∀ entry ∈ [(addr, tags)], ¬ (email c = trimSpace entry.1 ∧ t ∈ entry.2) := by
  unfold dropUser at h
  split_ifs at h
  · cases h
    exact ⟨ibs, hin, rfl, fun t => by simp⟩
  obtain ⟨found, hfo, h⟩ := bind_eq_ok.1 h
  obtain ⟨cfg1, hrem, h⟩ := bind_eq_ok.1 h
  cases h
  rw [mapError_eq_ok, inboundTagsForUser, hin, ok_bind] at hfo
  cases hfo
  rw [removeUserFromAllInbounds_eq] at hrem
  obtain ⟨ibs', hin', hta, hcli⟩ := clientsAt_removeUsers hin hrem
  refine ⟨ibs', hin', hta, clientsAt_dropped (fun e t => ?_) hempty hcli⟩
  rw [← mem_tagsFor]
  constructor
  · rintro ⟨ts, hen, ht⟩
    obtain ⟨rfl, rfl⟩ := Prod.mk.inj (mem_singleton.1 hen)
    exact ⟨mem_singleton_self _, ht⟩
  rintro ⟨he, ht⟩
  obtain rfl := mem_singleton.1 he
  exact ⟨_, mem_singleton_self _, ht⟩

theorem clientsAt_dropUsers {tags : List (String × List String)} (h : dropUsers emails cfg = .ok (cfg', tags)) :
    ∃ ibs', getInbounds cfg' = .ok ibs' ∧ ibs'.map tag = ibs.map tag ∧
      ∀ t, clientsAt ibs' t = (clientsAt ibs t).filter fun c =>
        ∀ entry ∈ tags, ¬ (email c = trimSpace entry.1 ∧ t ∈ entry.2) := by
  unfold dropUsers at h
  dsimp only at h
  split_ifs at h
  · cases h
    exact ⟨ibs, hin, rfl, fun t => by simp⟩
  obtain ⟨found, hfo, h⟩ := bind_eq_ok.1 h
  obtain ⟨cfg1, hrem, h⟩ := bind_eq_ok.1 h
  cases h
  rw [mapError_eq_ok] at hfo
  obtain ⟨ibs', hin', hta, hcli⟩ := clientsAt_removeUsers hin hrem
  exact ⟨ibs', hin', hta, clientsAt_dropped (fun e t => inboundTagsForUsers_eq_ok hin hfo) hempty hcli⟩

end

namespace Machine

variable {phase : Phase}

theorem runtime_hotRemove_ok {addr : String} {tags : List String} (hok : removeSucceeds fails phase addr tags = true)
    (m : Machine) (t : String) : (m.hotRemove fails phase addr tags).runtime t =
      (m.runtime t).filter fun c => ¬ (email c = trimSpace addr ∧ t ∈ tags) := by
  rw [runtime_hotRemove]
  rcases of_decide_eq_true hok with rfl | ⟨hne, hno⟩
  · simp
  · refine filter_congr fun c _ => ?_
    grind

theorem dirty_hotRemoveAll (ents : List (String × List String)) (h : m.dirty = true) :
    (m.hotRemoveAll fails phase ents).dirty = true := by
  refine foldlRecOn (motive := fun m => dirty m = true) ents _ h fun m hm entry _ => ?_
  have hsa : (m.hotRemove fails phase entry.1 entry.2).dirty = true := by
    rw [← hm, hotRemove]
    split_ifs <;> rfl
  split_ifs
  · exact hsa
  · rw [markDirty, hsa]
    rfl

/-- The hot removals are all done, or the flag remembers that one of them was not. -/
theorem runtime_hotRemoveAll (hw : fails .writeDirty = false) (ents : List (String × List String)) (m : Machine) :
    (m.hotRemoveAll fails phase ents).dirty = true ∨ ∀ t, (m.hotRemoveAll fails phase ents).runtime t =
      (m.runtime t).filter fun c => ∀ entry ∈ ents, ¬ (email c = trimSpace entry.1 ∧ t ∈ entry.2) := by
  induction ents generalizing m with
  | nil => exact .inr fun t => by simp [hotRemoveAll]
  | cons entry ents ih =>
    by_cases hok : removeSucceeds fails phase entry.1 entry.2 = true
    · have hfi : m.hotRemoveAll fails phase (entry :: ents) =
          (m.hotRemove fails phase entry.1 entry.2).hotRemoveAll fails phase ents := by
        rw [hotRemoveAll, foldl_cons]
        rw [if_pos hok]
        rfl
      rw [hfi]
      refine (ih (m.hotRemove fails phase entry.1 entry.2)).imp id fun h t => ?_
      rw [h t, runtime_hotRemove_ok hok, filter_filter]
      refine filter_congr fun c _ => ?_
      rw [Bool.eq_iff_iff, Bool.and_eq_true, decide_eq_true_iff, decide_eq_true_iff, decide_eq_true_iff,
        forall_mem_cons, and_comm]
    · refine .inl ?_
      rw [hotRemoveAll, foldl_cons]
      rw [if_neg hok]
      exact dirty_hotRemoveAll ents (by simp [markDirty, hw])

theorem dirty_rebuildInboundTags {rems : List (String × List String)} (h : m.dirty = true) :
    (m.rebuildInboundTags fails phase pay rems).dirty = true := by
  refine foldlRecOn (motive := fun m => dirty m = true) _ _ h fun m hm t _ => ?_
  unfold rebuildInbound
  split
  · exact hm
  split
  · exact hm
  split_ifs
  · rw [markDirty, hm]
    rfl
  · exact hm

/-- A hysteria inbound is rebuilt from the config, so nothing changes where the process is equal to it already. -/
theorem rebuildHysteria_inStep {old : RawMap} (hin : inboundsOf m.file = .ok ibs) (hno : (ibs.map tag).Nodup) :
    (m.rebuildHysteriaInbounds env fails old).dirty = m.dirty ∧
      (m.runtime = clientsAt ibs → (m.rebuildHysteriaInbounds env fails old).runtime = clientsAt ibs) := by
  obtain ⟨rt, heq, -⟩ := rebuildHysteria_eq env fails old m
  refine ⟨by rw [heq], fun h => ?_⟩
  unfold rebuildHysteriaInbounds
  rcases hr : getInbounds (readOrNil (fails .readHysteria) m.file) with e | found
  · exact h
  refine foldlRecOn (motive := fun m => runtime m = clientsAt ibs) found _ h fun m' hm' ib hib => ?_
  split_ifs
  · exact hm'
  obtain rfl := ok_unique hin ((getInbounds_readOrNil hr).resolve_left (ne_nil_of_mem hib))
  rw [hm', rebuild, ← clientsAt_of_mem hno hib, update_eq_self]

end Machine

end Xraytool.Xray
