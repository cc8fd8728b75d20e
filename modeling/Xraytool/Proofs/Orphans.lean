import Xraytool.Proofs.StateHash

/-! Orphans in the running process. A sync finds the users to remove in `config.json`, so it reaches every client of the
process as long as the file lists them all. A sync that takes clients out of the file alone breaks this. -/

namespace Xraytool.Xray

open Fallible Transition Machine List

variable {env : AdapterEnv} {fails : Faults} {m m' : Machine} {users snapshot : List VPNUserConfig}
  {orphans : Bool} {S : Set (String × String)}

/-- The config lists every client of the process that has an email. -/
def Covered (m : Machine) : Prop := ∀ p ∈ m.runtime.members, p.2 ≠ "" → p ∈ fileMembers m.file

theorem Covered.of_hotStep (h : Covered m) (hs : HotStep S m m') (hS : ∀ p ∈ S, p.2 ≠ "" → p ∈ fileMembers m.file) :
    Covered m' := by
  intro p hp hne
  rw [hs.file]
  rcases hs.runtime hp with hp | hp
  · exact h p hp hne
  · exact hS p hp hne

theorem Covered.healDirty (h : Covered m) : Covered (m.healDirty fails) :=
  h.of_hotStep (hotStep_healDirty m _) fun _ hp _ => hp

theorem Covered.invalidateHash (h : Covered m) : Covered (m.invalidateHash fails) := h

theorem Covered.writeHash (h : Covered m) (text : String) : Covered (m.writeHash fails text) := h

theorem covered_started (h : m.runtime = runtimeOf m.file) : Covered m := fun p hp _ => by
  rwa [h, members_runtimeOf] at hp

variable {file : Option Raw} {p : String × String}

theorem trimSpace_of_fileMembers (h : p ∈ fileMembers file) : trimSpace p.2 = p.2 := by
  obtain ⟨_, -, ib, -, -, c, -, he⟩ := h
  rw [← he]
  exact trimSpace_email c

theorem covered_addUser {user : VPNUserConfig} (h : Covered m)
    (hli : ∀ ibs, inboundsOf m.file = .ok ibs → NoNullList ibs) :
    Covered (m.addUserLocked env fails user).1 := by
  refine updated_addUser.elim h h.healDirty fun cfg cfg' missing hcfg hpl => ?_
  have hhe := hotStep_healDirty m fails
  obtain ⟨ibs, pay, hin, hpay, hmis⟩ := placeUser_eq_ok hpl
  have hf : inboundsOf m.file = .ok ibs := inboundsOf_eq_ok.2 ⟨cfg, hcfg, hin⟩
  obtain ⟨ibs', hin', hke, -, hpla⟩ := members_placeMissing hin hpay hmis
  have hnew : fileMembers (some (marshalMap cfg')) = members ibs' :=
    fileMembers_of_ok (inboundsOf_marshalMap.trans hin')
  have hwri : Covered { m.healDirty fails with file := some (marshalMap cfg') } := fun p hp hne => by
    have hold := h.healDirty p hp hne
    rw [hhe.file, fileMembers_of_ok hf] at hold
    exact hnew ▸ hke hold
  obtain ⟨m1, hs, haf⟩ := afterAdd_eq
  rw [haf]
  refine (hwri.of_hotStep hs ?_).invalidateHash
  rintro p (hp | hp) -
  · exact hnew ▸ hpla (hli ibs hf) hp
  · exact hp

theorem covered_removeUser {addr : String} (h : Covered m) (hans : ∀ t, fails (.remove .update addr t) = false)
    (htag : ("", addr) ∉ fileMembers m.file) : Covered (m.removeUserLocked env fails addr).1 := by
  refine updated_removeUser.elim h h.healDirty fun cfg cfg' tags hcfg hdr => ?_
  have hhe := hotStep_healDirty m fails
  have hrem : Covered (({ m.healDirty fails with file := some (marshalMap cfg') }).hotRemoveAll fails .update
      [(addr, tags)]) := by
    intro p hp hne
    obtain ⟨hin, hnot⟩ := members_hotRemoveAll hp
    have hold := h.healDirty p hin hne
    rw [hhe.file] at hold
    have htr := trimSpace_of_fileMembers hold
    obtain ⟨ibs, hf, hlis⟩ := hold
    obtain ⟨cfg1, hcfg1, hinb⟩ := inboundsOf_eq_ok.1 hf
    obtain rfl := ok_unique hcfg hcfg1
    obtain ⟨ibs', hin', hmem, hta⟩ := dropUser_eq_ok hdr hinb
    rw [(hotStep_hotRemoveAll (S := ∅) _).file]
    refine ⟨ibs', inboundsOf_marshalMap.trans hin', ?_⟩
    rw [hmem]
    refine ⟨hlis, fun heq => ?_⟩
    -- the pairs of the removed email are those that the process was told to remove
    have ht : p.1 ≠ "" := fun ht => htag ⟨ibs, hf, by rw [← ht, ← heq]; exact hlis⟩
    refine hnot (addr, tags) mem_cons_self ⟨?_, ?_, (hta p.1).2 ⟨ht, heq ▸ hlis⟩, hans p.1⟩
    · rw [← heq, htr]
      exact hne
    · rw [← heq, htr]
  exact (hrem.of_hotStep hotStep_rebuildHysteria fun p hp _ => hysteriaMembers_subset hp).invalidateHash

/-- Every call on the running process succeeds. -/
structure ProcessAnswers (fails : Faults) : Prop where
  add : ∀ i, fails (.add i) = false
  remove : ∀ phase address t, fails (.remove phase address t) = false
  rebuild : ∀ phase t, fails (.rebuild phase t) = false
  rebuildHysteria : ∀ t, fails (.rebuildHysteria t) = false

/-- A sync that loses sight of nobody: it goes through all stages, and a client that it takes out of the config is an
orphan that it removes. -/
structure SyncTracks (env : AdapterEnv) (fails : Faults) (file : Option Raw) (users : List VPNUserConfig)
    (removeOrphans : Bool) : Prop where
  readOld : fails .readOld = false
  listUsers : fails .listUsers = false
  completes : Completes env fails file users removeOrphans
  dropped : ∀ p ∈ fileMembers file, p.2 ≠ "" →
    p ∈ templateMembers env users ∨ removeOrphans = true ∧ p.1 ≠ "" ∧ p.2 ∉ desiredEmails users

/-- An orphan that only the old config lists is gone after the stage that removes orphans. -/
theorem not_mem_orphanStage {m2 : Machine} {removed : Nat} (hans : ProcessAnswers fails)
    (htra : SyncTracks env fails file users orphans)
    (hst : orphanStage fails orphans m (readOrNil (fails .readOld) file) (liveEmails env fails file)
      (desiredEmails users) = (m2, .ok removed))
    (hne : p.2 ≠ "") (hold : p ∈ fileMembers file) (hnew : p ∉ fileMembers m.file)
    (hgen : p ∉ templateMembers env users) : p ∉ m2.runtime.members := by
  intro hp
  have htr := trimSpace_of_fileMembers hold
  obtain ⟨ibs, hf, hlis⟩ := id hold
  obtain ⟨cfg, hcfg, hin⟩ := inboundsOf_eq_ok.1 hf
  have hr : getInbounds (readOrNil (fails .readOld) file) = .ok ibs := by
    rw [readOrNil_of_ok hcfg, htra.readOld]
    exact hin
  rcases members_orphanStage (hans.remove .orphans) hst hr hp with h | ⟨-, hnot⟩
  · exact hnew h
  rcases htra.dropped p hold hne with h | ⟨hro, ht, hund⟩
  · exact hgen h
  · exact hnot ⟨hro, ht, hlis, htr, hne, mem_liveEmails.2 ⟨htra.listUsers, hne, p.1, hold⟩, hund⟩

theorem covered_applyDesired {raw : Raw} (hraw : regenerateConfig env fails file users = .ok raw)
    (hf : m.file = some raw) (hbef : ∀ p ∈ m.runtime.members, p.2 ≠ "" → p ∈ fileMembers file)
    (hans : ProcessAnswers fails) (htra : SyncTracks env fails file users orphans) :
    Covered (m.applyDesired env fails (readOrNil (fails .readOld) file) (liveEmails env fails file) users
      orphans 0).1 := by
  obtain ⟨desired, adds, rems, m2, removed, hdes, hpl, hst, hf2, -, hend⟩ :=
    applyDesired_of_completes htra.completes hraw hf
  have hupd : HotStep (payloadMembers adds ∪ fileMembers m.file) m (m.hotUpdate fails adds rems).1 := hotStep_hotUpdate
  have horp : HotStep (fileMembers (m.hotUpdate fails adds rems).1.file) (m.hotUpdate fails adds rems).1
      (orphanStage fails orphans (m.hotUpdate fails adds rems).1 (readOrNil (fails .readOld) file)
        (liveEmails env fails file) (desiredEmails users)).1 := hotStep_orphanStage
  rw [hst, hupd.file, hf] at horp
  have had : payloadMembers adds ⊆ fileMembers (some raw) := by
    obtain ⟨-, -, ibs', -, -, hin', -⟩ := regenerateConfig_eq_ok hraw
    obtain ⟨cfg, hcfg, hinb⟩ := inboundsOf_eq_ok.1 hin'
    obtain rfl := ok_unique hdes hcfg
    rw [fileMembers_of_ok hin']
    exact members_syncPlan hinb hpl
  have hcov : Covered m2 := by
    intro p hp hne
    rw [hf2]
    by_contra hmis
    have hold : p ∈ fileMembers file := by
      rcases horp.runtime hp with hp | hp
      · rcases hupd.runtime hp with hp | hp | hp
        · exact hbef p hp hne
        · exact absurd (had hp) hmis
        · exact absurd (hf ▸ hp) hmis
      · exact absurd hp hmis
    refine not_mem_orphanStage hans htra hst hne hold ?_ (fun hp => ?_) hp
    · rw [hupd.file, hf]
      exact hmis
    · exact hmis ((mem_generated hraw).2 hp).1
  rw [hend]
  exact (hcov.of_hotStep hotStep_rebuildHysteria fun p hp _ => hysteriaMembers_subset hp).writeHash _

theorem covered_sync (hpa : env.templatePath ≠ "") (h : Covered m) (hans : ProcessAnswers fails)
    (htra : SyncTracks env fails m.file users orphans) :
    Covered (m.syncSnapshot env fails users orphans).1 := by
  have hhe := hotStep_healDirty m fails
  rcases syncSnapshot_cases hpa with ⟨heq, -⟩ | ⟨_, _, heq⟩ | ⟨raw, hraw, heq⟩ <;>
    rw [heq]
  · exact h.healDirty
  · exact h.healDirty
  · refine covered_applyDesired hraw rfl (fun p hp hne => ?_) hans htra
    have hold := h.healDirty p hp hne
    rwa [hhe.file] at hold

theorem Matches.mem (h : Matches env users file) (hp : p ∈ fileMembers file) (hne : p.2 ≠ "") :
    ∃ u ∈ users, trimSpace u.email = p.2 := by
  obtain ⟨tmpl, merged, ibs, mergedIn, -, hmer, hmerg, hin, hsa⟩ := h
  obtain ⟨templateIn, _, -, hin1, hrou⟩ := mergeUsers_eq_ok hmer
  obtain rfl := ok_unique hmerg hin1
  rw [fileMembers_of_ok hin] at hp
  obtain ⟨ib, hib, -, c, hc, he⟩ := hp
  obtain ⟨ib', hib', -, hpe⟩ := exists_of_forall₂_left hsa hib
  obtain ⟨ib0, -, hme⟩ := exists_of_forall₂_left hrou.flip hib'
  have hna : c ∈ namedClients ib' := hpe.mem_iff.1 (mem_filter.2 ⟨hc, by simpa [he] using hne⟩)
  rw [mergeInbound_named hme] at hna
  obtain ⟨-, u, hu, -, heq⟩ := mem_generatedClients hna
  exact ⟨u, hu, heq.trans he⟩

theorem matches_of_sync (hpa : env.templatePath ≠ "") (hso : ∀ users, (env.sortUsers users).Perm users)
    (hsou : HashSound env users m) (hpl : Plain users)
    (hok : ∃ result, (m.syncSnapshot env fails users orphans).2 = .ok result) :
    Matches env users (m.syncSnapshot env fails users orphans).1.file := by
  obtain ⟨result, hok⟩ := hok
  have hhe := hotStep_healDirty m fails
  rcases syncSnapshot_cases hpa with ⟨heq, hha, -⟩ | ⟨_, _, heq⟩ | ⟨raw, hraw, heq⟩
  · rw [heq, hhe.file]
    obtain ⟨snap, hsnap, hsa, hmat⟩ := hsou _ hha
    exact hmat.of_perm hsnap.consistent (perm_of_hash hso hsnap.plain hpl hsnap.noCollision hsa.symm)
  · rw [heq] at hok
    contradiction
  rw [heq] at hok ⊢
  rcases applyDesired_cases with ⟨_, _, hend⟩ | ⟨_, _, _, -, -, -, m2, hs, ⟨_, -, hend⟩ | ⟨_, -, hend⟩⟩
  · rw [hend] at hok
    contradiction
  · rw [hend] at hok
    contradiction
  have hf : (m2.rebuildHysteriaInbounds env fails (readOrNil (fails .readOld) m.file)).file = some raw :=
    hotStep_rebuildHysteria.file.trans hs.file
  rw [hend, writeHash]
  exact hf ▸ matches_regenerated hraw

/-- The calls that lose sight of nobody in the process, and whose hashes are no collisions with that of `target`. -/
def Tracks (env : AdapterEnv) (target : List VPNUserConfig) (m : Machine) (step : AdapterStep) : Prop :=
  ProcessAnswers step.fails ∧ KeepsHash env target m step ∧
    match step.call with
    | .addUser _ => ∀ inbounds, inboundsOf m.file = .ok inbounds → NoNullList inbounds
    | .removeUser address => ("", address) ∉ fileMembers m.file
    | .syncUsers users removeOrphans => ∀ snapshot, withTemplateUsers env users = .ok snapshot →
      SyncTracks env step.fails m.file snapshot removeOrphans
    | _ => False

theorem covered_run {step : AdapterStep} (hpa : env.templatePath ≠ "") (h : Covered m)
    (htra : Tracks env snapshot m step) :
    Covered (m.run env step).1 := by
  obtain ⟨call, fails⟩ := step
  obtain ⟨hans, -, hc⟩ := htra
  cases call with
  | addUser user => exact covered_addUser h hc
  | removeUser addr => exact covered_removeUser h (hans.remove .update addr) hc
  | syncUsers users orphans =>
    rcases hsna : withTemplateUsers env users with e | snap
    · rw [run_syncUsers_error hsna]
      exact h
    · rw [(run_syncUsers fails orphans hsna).1]
      exact covered_sync hpa h hans (hc snap hsna)
  | _ => exact hc.elim

/-- In a run of such calls a sync with orphan removal that returns nil leaves only emails of its snapshot in the
process. -/
theorem orphans_leave_process (hpath : env.templatePath ≠ "") (hsort : ∀ users, (env.sortUsers users).Perm users)
    {m₀ : Machine} {tr : List AdapterStep} (hinit : m₀.runtime = runtimeOf m₀.file) (hhash : HashSound env snapshot m₀)
    (hrun : Run (Guarded (Tracks env snapshot) (stepsTo (adapterStep env))) m₀ tr m)
    (htracks : Tracks env snapshot m ⟨.syncUsers users true, fails⟩) (hsnapshot : withTemplateUsers env users = .ok snapshot)
    (hnil : (m.run env ⟨.syncUsers users true, fails⟩).2 = none) :
    ∀ p ∈ (m.run env ⟨.syncUsers users true, fails⟩).1.runtime.members, p.2 ≠ "" →
      ∃ u ∈ snapshot, trimSpace u.email = p.2 := by
  obtain ⟨hcov, hso⟩ : Covered m ∧ HashSound env snapshot m := by
    refine hrun.invariant_of_guard (fun m => Covered m ∧ HashSound env snapshot m) ⟨covered_started hinit, hhash⟩ ?_
    rintro s step _ ⟨hcov, hso⟩ hg hs
    cases hs
    exact ⟨covered_run hpath hcov hg, hashSound_run hpath hso hg.2.1⟩
  have haf := covered_run hpath hcov htracks
  obtain ⟨hst, her⟩ := run_syncUsers (m := m) fails true hsnapshot
  have hok : ∃ result, (m.syncSnapshot env fails snapshot true).2 = .ok result := by
    rcases hres : (m.syncSnapshot env fails snapshot true).2 with e | result
    · rw [(her e).2 hres] at hnil
      cases hnil
    · exact ⟨result, rfl⟩
  have hmat := matches_of_sync hpath hsort hso (htracks.2.1.2 snapshot hsnapshot).1.plain hok
  rw [← hst] at hmat
  exact fun p hp hne => hmat.mem (haf p hp hne) hne

/-! One client in config and process, and a snapshot with another user. -/

def oneClient : Option Raw := vlessConfig [.obj [("email", .str "a"), ("id", .str "id-a")]]

theorem fileMembers_oneClient (hp : p ∈ fileMembers oneClient) : p = ("in", "a") := by
  obtain ⟨ibs, hin, ib, hib, ht, c, hc, he⟩ := hp
  cases hin
  obtain rfl := mem_singleton.1 hib
  obtain rfl := mem_singleton.1 (show c ∈ ([some [("email", .str "a"), ("id", .str "id-a")]] : List RawMap) from hc)
  exact Prod.ext ht.symm he.symm

theorem tracks_oneClient :
    Tracks vlessEnv [otherUser] (Machine.started oneClient) ⟨.syncUsers [otherUser] true, noFaults⟩ := by
  have hsna : withTemplateUsers vlessEnv [otherUser] = .ok [otherUser] := by decide +kernel
  refine ⟨⟨fun _ => rfl, fun _ _ _ => rfl, fun _ _ => rfl, fun _ => rfl⟩, ⟨.inl rfl, fun snapshot h => ?_⟩,
    fun snapshot h => ⟨rfl, rfl, ⟨rfl, ?_, ?_, fun _ => ?_⟩, fun p hp _ => ?_⟩⟩ <;>
    obtain rfl := ok_unique hsna h
  · exact ⟨⟨by unfold Plain; decide +kernel, by unfold Consistent; decide +kernel, fun _ => rfl⟩, .inl rfl⟩
  · intro ibs hin ib hib _
    cases hin
    obtain rfl := mem_singleton.1 hib
    exact ⟨_, rfl⟩
  · intro cfg hcfg
    cases hcfg
    refine ⟨_, rfl, fun ib hib => ?_⟩
    obtain rfl := mem_singleton.1 hib
    exact ⟨_, rfl⟩
  · decide +kernel
  · obtain rfl := fileMembers_oneClient hp
    exact .inr ⟨rfl, by decide, by decide⟩

theorem orphans_leave_process_oneClient :
    ("in", "a") ∉ ((Machine.started oneClient).run vlessEnv ⟨.syncUsers [otherUser] true, noFaults⟩).1.runtime.members := by
  intro hp
  obtain ⟨u, hu, he⟩ := orphans_leave_process (by decide) (fun users => users.perm_insertionSort _)
    (show (Machine.started oneClient).runtime = runtimeOf oneClient from rfl) (HashSound.of_none rfl) .nil tracks_oneClient
    (show withTemplateUsers vlessEnv [otherUser] = .ok [otherUser] by decide +kernel) (by decide +kernel) _ hp (by decide)
  obtain rfl := mem_singleton.1 hu
  revert he
  decide

/-- After a sync without orphan removal the config does not list the client any more, and the sync that is to remove
it returns nil without looking. -/
theorem orphan_survives_sync : ∃ m, Run (stepsTo (adapterStep vlessEnv)) (Machine.started oneClient)
    [⟨.syncUsers [otherUser] false, noFaults⟩] m ∧
      withTemplateUsers vlessEnv [otherUser] = .ok [otherUser] ∧
      (m.run vlessEnv ⟨.syncUsers [otherUser] true, noFaults⟩).2 = none ∧
      ("in", "a") ∈ (m.run vlessEnv ⟨.syncUsers [otherUser] true, noFaults⟩).1.runtime.members := by
  refine ⟨_, Run.cons rfl .nil, by decide +kernel, by decide +kernel, ?_⟩
  unfold Runtime.members emailsOf
  decide +kernel

end Xraytool.Xray
