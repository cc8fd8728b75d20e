import Xraytool.Sanity.XrayAdapter

/-! One synchronization, taken apart: where it ends early, what it has done by then, and what a sync that
returns nil has done. -/

namespace Xraytool.Xray.Machine

open Fallible List

variable {env : AdapterEnv} {fails : Faults} {m m' : Machine} {old : RawMap} {live : List String}
  {users : List VPNUserConfig} {orphans b : Bool} {added : Nat} {rems : List (String × List String)}
  {adds : List TaggedClient} {e : Failure} {raw : Raw}

theorem hotStep_hotUpdate : HotStep (payloadMembers adds ∪ fileMembers m.file) m (m.hotUpdate fails adds rems).1 := by
  have hrem : HotStep (payloadMembers adds ∪ fileMembers m.file) m (m.hotRemoveAll fails .update rems) :=
    hotStep_hotRemoveAll m
  have hf := hrem.file
  unfold hotUpdate
  dsimp only
  generalize m.hotRemoveAll fails .update rems = m1 at hrem hf
  have had : HotStep (payloadMembers adds ∪ fileMembers m.file) m (m1.hotAdd fails adds).1 :=
    hrem.trans (hotStep_hotAdd.mono Set.subset_union_left)
  split_ifs
  · exact had
  · refine (had.trans (hotStep_markDirty _)).trans (hotStep_rebuildInboundTags.mono ?_)
    rw [← hf]
    exact Set.subset_union_right
  · refine hrem.trans (hotStep_rebuildInboundTags.mono ?_)
    rw [hf]
    exact Set.subset_union_right
  · exact hrem

variable {desired : List String} {ibs : List RawMap} {file : Option Raw}

theorem hotStep_removeOrphanUsers : HotStep (fileMembers m.file) m (m.removeOrphanUsers fails old live desired).1 := by
  unfold removeOrphanUsers
  dsimp only
  split_ifs
  · exact HotStep.refl _ m
  · exact HotStep.refl _ m
  split
  · exact HotStep.refl _ m
  rename_i tags _
  have hrem : HotStep (fileMembers m.file) m (m.hotRemoveAll fails .orphans tags) := hotStep_hotRemoveAll m
  have hf := hrem.file
  split_ifs
  · refine hrem.trans ?_
    rw [← hf]
    exact hotStep_rebuildInboundTags
  · exact hrem

theorem hotStep_orphanStage : HotStep (fileMembers m.file) m (orphanStage fails orphans m old live desired).1 := by
  unfold orphanStage
  split_ifs
  · exact hotStep_removeOrphanUsers
  · exact HotStep.refl _ m

/-- How the part of a sync after the writing of the config goes. -/
theorem applyDesired_cases :
    (∃ context cause, m.applyDesired env fails old live users orphans added = (m, .error (.wrap context cause))) ∨
    ∃ desired adds rems, fails .readDesired = false ∧ readConfig m.file = .ok desired ∧
      syncPlan env old desired users = .ok (adds, rems) ∧
      ∃ m2, HotStep (payloadMembers adds ∪ fileMembers m.file) m m2 ∧
        ((∃ e, orphanStage fails orphans (m.hotUpdate fails adds rems).1 old live (desiredEmails users) =
            (m2, .error e) ∧
          m.applyDesired env fails old live users orphans added = (m2, .error e)) ∨
        ∃ removed, orphanStage fails orphans (m.hotUpdate fails adds rems).1 old live (desiredEmails users) =
            (m2, .ok removed) ∧
          m.applyDesired env fails old live users orphans added =
            ((m2.rebuildHysteriaInbounds env fails old).writeHash fails (calculateStateHash env users),
              .ok ⟨added + (m.hotUpdate fails adds rems).2, removed⟩)) := by
  unfold applyDesired
  by_cases hr : fails .readDesired = true
  · rw [if_pos hr]
    exact .inl ⟨_, _, rfl⟩
  rw [if_neg hr]
  rcases hdes : readConfig m.file with e | desired
  · exact .inl ⟨_, _, rfl⟩
  dsimp only
  rcases hpl : syncPlan env old desired users with e | ⟨adds, rems⟩
  · obtain ⟨context, cause, rfl⟩ : ∃ context cause, e = .wrap context cause := by
      unfold syncPlan at hpl
      split_ifs at hpl
      rcases hpay : desiredUserClientPayload desired (desiredEmails users) with e' | pay
      · rw [hpay] at hpl
        exact ⟨_, _, (Except.error.inj hpl).symm⟩
      rw [hpay] at hpl
      rcases hdi : diffClientPayload old pay with e' | diff
      · simp only [Except.mapError, hdi, ok_bind] at hpl
        exact ⟨_, _, (Except.error.inj hpl).symm⟩
      · simp only [Except.mapError, hdi, ok_bind] at hpl
        contradiction
    exact .inl ⟨_, _, rfl⟩
  · refine .inr ⟨desired, adds, rems, by simpa using hr, rfl, hpl, ?_⟩
    have hupd : HotStep (payloadMembers adds ∪ fileMembers m.file) m (m.hotUpdate fails adds rems).1 :=
      hotStep_hotUpdate
    have horp : HotStep (payloadMembers adds ∪ fileMembers m.file) (m.hotUpdate fails adds rems).1
        (orphanStage fails orphans (m.hotUpdate fails adds rems).1 old live (desiredEmails users)).1 := by
      refine hotStep_orphanStage.mono ?_
      rw [hupd.file]
      exact Set.subset_union_right
    dsimp only
    rcases hst : orphanStage fails orphans (m.hotUpdate fails adds rems).1 old live (desiredEmails users)
      with ⟨m2, e | removed⟩
    · rw [hst] at horp
      exact ⟨m2, hupd.trans horp, .inl ⟨e, rfl, rfl⟩⟩
    · rw [hst] at horp
      exact ⟨m2, hupd.trans horp, .inr ⟨removed, rfl, rfl⟩⟩

theorem file_applyDesired : (m.applyDesired env fails old live users orphans added).1.file = m.file := by
  rcases applyDesired_cases with ⟨_, _, heq⟩ | ⟨_, _, _, -, -, -, m2, hs, ⟨_, -, heq⟩ | ⟨_, -, heq⟩⟩ <;> rw [heq]
  · exact hs.file
  · exact hotStep_rebuildHysteria.file.trans hs.file

def Readable (file : Option Raw) : Prop :=
  ∀ cfg, readConfig file = .ok cfg → ∃ inbounds, getInbounds cfg = .ok inbounds ∧
    ∀ ib ∈ inbounds, ∃ clients, getClients ib = .ok clients

def ReadableTags (file : Option Raw) : Prop :=
  ∀ inbounds, inboundsOf file = .ok inbounds → ∀ ib ∈ inbounds, tag ib ≠ "" → ∃ clients, getClients ib = .ok clients

theorem desiredClients_succeeds (emails : List String) (h : ∀ ib ∈ ibs, tag ib ≠ "" → ∃ cs, getClients ib = .ok cs) :
    ∃ pay, desiredClients emails ibs = .ok pay := by
  induction ibs with
  | nil => exact ⟨[], rfl⟩
  | cons ib ibs ih =>
    obtain ⟨rest, hre⟩ := ih fun ib hib => h ib (mem_cons_of_mem _ hib)
    by_cases htag : tag ib = ""
    · exact ⟨rest, desiredClients_cons_eq_ok.2 (.inl ⟨htag, hre⟩)⟩
    · obtain ⟨cs, hcli⟩ := h ib mem_cons_self htag
      exact ⟨_, desiredClients_cons_eq_ok.2 (.inr ⟨htag, cs, rest, hcli, hre, rfl⟩)⟩

theorem previousClients_eq_ok {previous : List (String × List (String × RawMap))} :
    previousClients ibs = .ok previous ↔ (∀ ib ∈ ibs, ∃ cs, getClients ib = .ok cs) ∧
      ibs.filterMap (taggedEntry fun cs =>
        Assoc.ofList ((cs.filter (email · ≠ "")).map fun c => (email c, c))) = previous :=
  taggedEntries_eq_ok rfl fun _ _ => rfl

theorem getInbounds_old (h : Readable file) :
    ∃ ibs, getInbounds (readOrNil b file) = .ok ibs ∧ ∀ ib ∈ ibs, ∃ cs, getClients ib = .ok cs := by
  rcases hcfg : readConfig file with e | cfg
  · rw [readOrNil, hcfg]
    exact ⟨[], rfl, by simp⟩
  rw [readOrNil_of_ok hcfg]
  split_ifs
  · exact ⟨[], rfl, by simp⟩
  · exact h cfg hcfg

theorem diffClientPayload_succeeds (pay : List TaggedClient) (hin : getInbounds old = .ok ibs)
    (h : ∀ ib ∈ ibs, ∃ cs, getClients ib = .ok cs) :
    ∃ diff, diffClientPayload old pay = .ok diff := by
  have hpre := previousClients_eq_ok.2 ⟨h, rfl⟩
  unfold diffClientPayload
  split_ifs
  · exact ⟨_, rfl⟩
  · simp only [hin, hpre, ok_bind]
    exact ⟨_, rfl⟩

theorem orphanStage_succeeds (fails : Faults) (hin : getInbounds old = .ok ibs)
    (hthr : orphans = true → (orphansOf live desired).length ≤ orphanThreshold live.length)
    (m : Machine) : ∃ m2 removed, orphanStage fails orphans m old live desired = (m2, .ok removed) := by
  unfold orphanStage
  split_ifs with hro
  · have hfew := hthr hro
    simp only [removeOrphanUsers, inboundTagsForUsers, hin, ok_bind]
    split_ifs
    · exact ⟨_, _, rfl⟩
    · omega
    · exact ⟨_, _, rfl⟩
    · exact ⟨_, _, rfl⟩
  · exact ⟨_, _, rfl⟩

/-- A sync whose config is written returns nil, if what it reads can be read and the orphans are not too many. -/
theorem applyDesired_succeeds (hr : fails .readDesired = false) (hdes : ReadableTags m.file)
    (hcfg : ∃ ibs, inboundsOf m.file = .ok ibs) (hold : Readable file)
    (hthr : orphans = true → (orphansOf live (desiredEmails users)).length ≤ orphanThreshold live.length) :
    ∃ result, (m.applyDesired env fails (readOrNil b file) live users orphans added).2 = .ok result := by
  obtain ⟨ibs, hin⟩ := hcfg
  obtain ⟨desired, hcon, hinb⟩ := inboundsOf_eq_ok.1 hin
  obtain ⟨oldInbounds, hol, holdR⟩ := getInbounds_old (b := b) hold
  obtain ⟨pay, hpay⟩ := desiredClients_succeeds (desiredEmails users) (hdes ibs hin)
  obtain ⟨diff, hdi⟩ := diffClientPayload_succeeds pay hol holdR
  have hpl : ∃ diff, syncPlan env (readOrNil b file) desired users = .ok diff := by
    unfold syncPlan
    split_ifs
    · exact ⟨_, rfl⟩
    · simp only [desiredUserClientPayload, hinb, ok_bind, hpay, Except.mapError, hdi]
      exact ⟨_, rfl⟩
  obtain ⟨⟨adds, rems⟩, hpl⟩ := hpl
  obtain ⟨m2, removed, hst⟩ := orphanStage_succeeds fails hol hthr
    (m.hotUpdate fails adds rems).1
  unfold applyDesired
  rw [if_neg (by simp [hr]), hcon]
  dsimp only
  rw [hpl]
  dsimp only
  rw [hst]
  exact ⟨_, rfl⟩

/-- A sync with a template: it is skipped or fails before it writes, or goes on with the config it has written. -/
theorem syncSnapshot_cases (hpa : env.templatePath ≠ "") :
    (m.syncSnapshot env fails users orphans = (m.healDirty fails, .ok ⟨0, 0⟩) ∧
      m.hash = some (calculateStateHash env users) ∧ (m.healDirty fails).dirty = false) ∨
    (∃ context cause, m.syncSnapshot env fails users orphans = (m.healDirty fails, .error (.wrap context cause))) ∨
    ∃ raw, regenerateConfig env fails m.file users = .ok raw ∧ m.syncSnapshot env fails users orphans =
        ({ m.healDirty fails with file := some raw }).applyDesired env fails (readOrNil (fails .readOld) m.file)
          (liveEmails env fails m.file) users orphans 0 := by
  have hhe := hotStep_healDirty m fails
  unfold syncSnapshot
  dsimp only
  split_ifs with hsk
  · exact .inl ⟨rfl, hhe.hash ▸ hsk.1, hsk.2.2⟩
  rw [writeDesired, if_pos hpa, hhe.file]
  rcases hraw : regenerateConfig env fails m.file users with e | raw
  · exact .inr (.inl ⟨_, _, rfl⟩)
  · exact .inr (.inr ⟨raw, rfl, rfl⟩)

theorem readableTags_generated (htem : ReadableTags env.template)
    (h : regenerateConfig env fails file users = .ok raw) : ReadableTags (some raw) := by
  obtain ⟨tmpl, ibs, ibs', hr, hin, hin', hrou⟩ := regenerateConfig_eq_ok h
  have hta := htem ibs (inboundsOf_eq_ok.2 ⟨tmpl, hr, hin⟩)
  intro found hfo
  obtain rfl := ok_unique hin' hfo
  clear hin hin' hfo h
  induction hrou with
  | nil => simp
  | @cons ib ib' _ _ hro _ ih =>
    intro ib1 hib1 htag
    rcases mem_cons.1 hib1 with rfl | hib1
    · have htag' : tag ib ≠ "" := hro.tag_eq ▸ htag
      obtain ⟨cs, hcli⟩ := hta ib mem_cons_self htag'
      obtain ⟨keyed, hke, hme⟩ := hro
      rcases hli : hasClientList keyed with _ | _
      · rcases mergeInbound_eq_ok hme with ⟨-, rfl⟩ | ⟨hli', -⟩
        · exact ⟨cs, hke.getClients_eq.trans hcli⟩
        · rw [hli] at hli'
          contradiction
      · unfold mergeInbound at hme
        simp only [hli, Bool.not_true, Bool.false_eq_true, if_false, bind_eq_ok, mapError_eq_ok] at hme
        obtain ⟨existing, -, hset⟩ := hme
        exact ⟨_, (setClients_of_hasClientList hli hset).1⟩
    · exact ih (fun ib hib => hta ib (mem_cons_of_mem _ hib)) ib1 hib1 htag

/-- What a sync meets after it has written the config: everything it reads can be read, and the orphans pass
the circuit breaker. -/
structure Completes (env : AdapterEnv) (fails : Faults) (file : Option Raw) (users : List VPNUserConfig)
    (removeOrphans : Bool) : Prop where
  readDesired : fails .readDesired = false
  template : ReadableTags env.template
  config : Readable file
  orphans : removeOrphans = true → (orphansOf (liveEmails env fails file) (desiredEmails users)).length ≤
    orphanThreshold (liveEmails env fails file).length

theorem applyDesired_of_completes (hcom : Completes env fails file users orphans)
    (hraw : regenerateConfig env fails file users = .ok raw) (hm : m.file = some raw) :
    ∃ desired adds rems m2 removed, readConfig (some raw) = .ok desired ∧
      syncPlan env (readOrNil (fails .readOld) file) desired users = .ok (adds, rems) ∧
      orphanStage fails orphans (m.hotUpdate fails adds rems).1 (readOrNil (fails .readOld) file)
        (liveEmails env fails file) (desiredEmails users) = (m2, .ok removed) ∧
      m2.file = some raw ∧ m2.hash = m.hash ∧
      m.applyDesired env fails (readOrNil (fails .readOld) file) (liveEmails env fails file) users orphans 0 =
        ((m2.rebuildHysteriaInbounds env fails (readOrNil (fails .readOld) file)).writeHash fails
          (calculateStateHash env users), .ok ⟨0 + (m.hotUpdate fails adds rems).2, removed⟩) := by
  obtain ⟨-, ibs, ibs', -, -, hin', -⟩ := regenerateConfig_eq_ok hraw
  obtain ⟨result, hok⟩ : ∃ result, (m.applyDesired env fails (readOrNil (fails .readOld) file)
      (liveEmails env fails file) users orphans 0).2 = .ok result := by
    refine applyDesired_succeeds hcom.readDesired ?_ ?_ hcom.config hcom.orphans
    · rw [hm]
      exact readableTags_generated hcom.template hraw
    · exact ⟨ibs', hm ▸ hin'⟩
  rcases applyDesired_cases with
    ⟨_, _, heq⟩ | ⟨desired, adds, rems, -, hdes, hpl, m2, hs, ⟨_, -, heq⟩ | ⟨removed, hst, heq⟩⟩
  · rw [heq] at hok
    contradiction
  · rw [heq] at hok
    contradiction
  · exact ⟨desired, adds, rems, m2, removed, hm ▸ hdes, hpl, hst, hs.file.trans hm, hs.hash, heq⟩

theorem members_syncPlan {desired : RawMap} (hin : getInbounds desired = .ok ibs)
    (h : syncPlan env old desired users = .ok (adds, rems)) : payloadMembers adds ⊆ members ibs := by
  unfold syncPlan at h
  split_ifs at h
  · cases h
    rintro p ⟨tagged, htagg, -⟩
    simp at htagg
  obtain ⟨pay, hpay, hdi⟩ := bind_eq_ok.1 h
  rw [mapError_eq_ok] at hpay hdi
  rw [desiredUserClientPayload, hin, ok_bind] at hpay
  have hsub : adds ⊆ pay := by
    unfold diffClientPayload at hdi
    split_ifs at hdi
    · cases hdi
      exact Subset.refl _
    obtain ⟨_, -, hdi⟩ := bind_eq_ok.1 hdi
    obtain ⟨_, -, hdi⟩ := bind_eq_ok.1 hdi
    cases hdi
    exact filter_subset_self _
  rintro p ⟨tagged, htagg, ht, he⟩
  obtain ⟨-, -, -, ib, hib, htag, hc⟩ := (mem_desiredClients hpay).1 (hsub htagg)
  exact ⟨ib, hib, htag.trans ht, tagged.client, hc, he⟩

/-- Orphans that the old config lists in a tagged inbound leave the process, unless the new config has them. -/
theorem members_orphanStage {m2 : Machine} {removed : Nat} {p : String × String}
    (hans : ∀ addr t, fails (.remove .orphans addr t) = false)
    (hst : orphanStage fails orphans m old live desired = (m2, .ok removed))
    (hin : getInbounds old = .ok ibs) (hp : p ∈ m2.runtime.members) :
    p ∈ fileMembers m.file ∨ p ∈ m.runtime.members ∧ ¬ (orphans = true ∧ p.1 ≠ "" ∧ p ∈ members ibs ∧
      trimSpace p.2 = p.2 ∧ p.2 ≠ "" ∧ p.2 ∈ live ∧ p.2 ∉ desired) := by
  unfold orphanStage at hst
  split_ifs at hst with hro
  · unfold removeOrphanUsers at hst
    dsimp only at hst
    split_ifs at hst with hn hma
    · obtain ⟨rfl, -⟩ := Prod.mk.inj hst
      refine .inr ⟨hp, ?_⟩
      rintro ⟨-, -, -, -, -, hli, hnot⟩
      have horp : p.2 ∈ orphansOf live desired := mem_filter.2 ⟨hli, by simpa using hnot⟩
      rw [hn] at horp
      contradiction
    · simp at hst
    rcases hta : inboundTagsForUsers old (orphansOf live desired) with e | tags
    · rw [hta] at hst
      simp at hst
    rw [hta] at hst
    dsimp only at hst
    have hrem : HotStep (fileMembers m.file) m (m.hotRemoveAll fails .orphans tags) := hotStep_hotRemoveAll m
    have hgo : p ∈ (m.hotRemoveAll fails .orphans tags).runtime.members →
        p ∈ m.runtime.members ∧ ¬ (orphans = true ∧ p.1 ≠ "" ∧ p ∈ members ibs ∧
          trimSpace p.2 = p.2 ∧ p.2 ≠ "" ∧ p.2 ∈ live ∧ p.2 ∉ desired) := by
      intro hp
      obtain ⟨hold, hnot⟩ := members_hotRemoveAll hp
      refine ⟨hold, ?_⟩
      rintro ⟨-, ht, hlis, htr, hne, hli, hund⟩
      have horp : p.2 ∈ orphansOf live desired := mem_filter.2 ⟨hli, by simpa using hund⟩
      obtain ⟨ts, hen, hts⟩ := (inboundTagsForUsers_eq_ok hin hta (t := p.1)).2 ⟨horp, ht, hlis⟩
      exact hnot _ hen ⟨by rw [htr]; exact hne, htr.symm, hts, hans _ _⟩
    split_ifs at hst with hfai
    · obtain ⟨rfl, -⟩ := Prod.mk.inj hst
      rcases hotStep_rebuildInboundTags.runtime hp with hp | hp
      · exact .inr (hgo hp)
      · rw [hrem.file] at hp
        exact .inl hp
    · obtain ⟨rfl, -⟩ := Prod.mk.inj hst
      exact .inr (hgo hp)
  · obtain ⟨rfl, -⟩ := Prod.mk.inj hst
    exact .inr ⟨hp, fun h => hro h.1⟩

theorem run_syncUsers_error (h : withTemplateUsers env users = .error e) :
    (m.run env ⟨.syncUsers users orphans, fails⟩).1 = m := by
  simp only [Machine.run, syncUsers, h]

theorem run_syncUsers {snap : List VPNUserConfig} (fails : Faults) (orphans : Bool)
    (h : withTemplateUsers env users = .ok snap) :
    (m.run env ⟨.syncUsers users orphans, fails⟩).1 = (m.syncSnapshot env fails snap orphans).1 ∧
      ∀ e, (m.run env ⟨.syncUsers users orphans, fails⟩).2 = some e ↔
        (m.syncSnapshot env fails snap orphans).2 = .error e := by
  refine ⟨by simp only [Machine.run, syncUsers, h], fun e => ?_⟩
  simp only [Machine.run, syncUsers, h]
  rcases (m.syncSnapshot env fails snap orphans).2 with e' | result <;> simp

end Xraytool.Xray.Machine
