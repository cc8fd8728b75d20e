import Xraytool.Sanity.XrayQueries

/-! What the hot updates of the adapter can do: they leave the files alone, and the running process gains at
most the pairs of tag and email of the clients sent to it or of the inbounds rebuilt. -/

namespace Xraytool.Xray

open Fallible List Set

variable {env : AdapterEnv} {fails : Faults} {m m' m'' : Machine} {S S' : Set (String × String)}
  {pay : List TaggedClient} {file : Option Raw} {ibs : List RawMap}

def Runtime.members (rt : Runtime) : Set (String × String) := {p | p.2 ∈ emailsOf (rt p.1)}

variable {c : RawMap} {rt : Runtime}

theorem runtimeForm_eq_filter : runtimeForm c = some ((c.getD []).filter fun field =>
    field.1 ∉ ["subfile", "expire", "limit"] ∧ field.1 ≠ "hy2_auth" ∧ field.1 ≠ "hy2_obfs") := by
  rw [runtimeForm, forXrayAPI, cleanLegacy, Option.getD_some, Assoc.drop, Assoc.drop, filter_filter, filter_filter]
  congr 2
  funext field
  simp [Bool.and_assoc, Bool.and_comm]

@[simp] theorem runtimeForm_cleanLegacy {c : RawMap} : runtimeForm (cleanLegacy c) = runtimeForm c := by
  rw [runtimeForm, runtimeForm]
  congr 1
  rw [cleanLegacy, cleanLegacy, Option.getD_some]
  congr 1
  simp only [Assoc.drop, filter_filter, ne_eq]
  congr 1
  funext field
  by_cases h1 : field.1 = "hy2_auth" <;> by_cases h2 : field.1 = "hy2_obfs" <;> simp [h1, h2]

theorem get_runtimeForm {k : String} (hk : k ∉ ["subfile", "expire", "limit", "hy2_auth", "hy2_obfs"]) :
    (runtimeForm c).get k = c.get k := by
  rw [runtimeForm_eq_filter, RawMap.get, Option.bind_some,
    Assoc.lookup_filter _ (fun k => k ∉ ["subfile", "expire", "limit"] ∧ k ≠ "hy2_auth" ∧ k ≠ "hy2_obfs")
      (by simp at hk ⊢; tauto)]
  cases c <;> rfl

theorem same_runtimeForm {c' : RawMap} : (runtimeForm c).Same (runtimeForm c') ↔
    ∀ k ∉ ["subfile", "expire", "limit", "hy2_auth", "hy2_obfs"], c.get k = c'.get k := by
  constructor
  · intro h k hk
    rw [← get_runtimeForm hk, h k, get_runtimeForm hk]
  intro h k
  by_cases hk : k ∈ ["subfile", "expire", "limit", "hy2_auth", "hy2_obfs"]
  · have hn (c : RawMap) : (runtimeForm c).get k = none := by
      rw [runtimeForm_eq_filter, RawMap.get, Option.bind_some, lookup_eq_none_iff]
      intro field hfi
      have hne : k ≠ field.1 := by
        rintro rfl
        simp at hfi hk
        tauto
      simpa using hne
    rw [hn, hn]
  · rw [get_runtimeForm hk, get_runtimeForm hk, h k hk]

@[simp] theorem email_runtimeForm (c : RawMap) : email (runtimeForm c) = email c :=
  email_congr (get_runtimeForm (by decide)) (get_runtimeForm (by decide))

theorem members_update (rt : Runtime) (t : String) (cs : List RawMap) (p : String × String) :
    p ∈ Runtime.members (Function.update rt t cs) ↔ if p.1 = t then p.2 ∈ emailsOf cs else p ∈ rt.members := by
  rw [Runtime.members, mem_ofPred_eq, Function.update_apply]
  split_ifs <;> rfl

/-- What a call that adds a client makes of the clients of its inbound. -/
def addTo (clients : List RawMap) (c : RawMap) : List RawMap :=
  if email c ≠ "" ∧ clients.any (email · = email c) then clients else clients ++ [runtimeForm c]

variable {tagged : TaggedClient}

theorem Runtime.add_eq : rt.add tagged = Function.update rt tagged.tag (addTo (rt tagged.tag) tagged.client) := by
  unfold Runtime.add addTo
  split_ifs
  · rw [Function.update_eq_self]
  · rfl

theorem emailsOf_addTo {cs : List RawMap} : emailsOf (addTo cs c) = insert (email c) (emailsOf cs) := by
  unfold addTo
  split_ifs with href
  · -- refused because the email is there already
    obtain ⟨c', hc', he⟩ := any_eq_true.1 href.2
    have hin : email c ∈ emailsOf cs := ⟨c', hc', of_decide_eq_true he⟩
    rw [insert_eq_of_mem hin]
  · rw [emailsOf_append]
    simp [emailsOf, or_comm, eq_comm]

theorem members_add : (rt.add tagged).members = insert (tagged.tag, email tagged.client) rt.members := by
  ext p
  rw [Runtime.add_eq, members_update, emailsOf_addTo, mem_insert_iff, mem_insert_iff, Prod.ext_iff]
  split_ifs with ht
  · simp [ht, Runtime.members]
  · simp [ht]

theorem members_rebuild (rt : Runtime) (t : String) (ib : RawMap) (p : String × String) :
    p ∈ (rt.rebuild t ib).members ↔ if p.1 = t then p.2 ∈ emailsOf (readClients ib) else p ∈ rt.members := by
  rw [Runtime.rebuild, members_update, emailsOf_map email_runtimeForm]

theorem members_runtimeOf (file : Option Raw) : (runtimeOf file).members = fileMembers file := by
  ext p
  rcases hin : inboundsOf file with e | ibs
  · simp [Runtime.members, runtimeOf, hin, fileMembers, emailsOf]
  rw [fileMembers_of_ok hin]
  simp only [Runtime.members, runtimeOf, hin, mem_ofPred_eq, emailsOf_map email_runtimeForm]
  simp only [emailsOf, members, mem_flatMap, mem_filter, decide_eq_true_eq, mem_ofPred_eq]
  constructor
  · rintro ⟨c, ⟨ib, ⟨hib, ht⟩, hc⟩, he⟩
    exact ⟨ib, hib, ht, c, hc, he⟩
  · rintro ⟨ib, hib, ht, c, hc, he⟩
    exact ⟨c, ⟨ib, ⟨hib, ht⟩, hc⟩, he⟩

/-- The files stay, and the process gains at most the pairs of `S`. -/
structure HotStep (S : Set (String × String)) (m m' : Machine) : Prop where
  file : m'.file = m.file
  hash : m'.hash = m.hash
  runtime : m'.runtime.members ⊆ m.runtime.members ∪ S

namespace HotStep

theorem refl (S : Set (String × String)) (m : Machine) : HotStep S m m := ⟨rfl, rfl, subset_union_left⟩

theorem trans (h : HotStep S m m') (h' : HotStep S m' m'') : HotStep S m m'' where
  file := h'.file.trans h.file
  hash := h'.hash.trans h.hash
  runtime := h'.runtime.trans (union_subset h.runtime subset_union_right)

theorem mono (h : HotStep S m m') (hS : S ⊆ S') : HotStep S' m m' :=
  ⟨h.file, h.hash, h.runtime.trans (union_subset_union_right _ hS)⟩

theorem foldl {α : Type} {f : Machine → α → Machine} {l : List α} (hm : m.file = file)
    (hf : ∀ m x, x ∈ l → m.file = file → HotStep S m (f m x)) : HotStep S m (l.foldl f m) := by
  induction l generalizing m with
  | nil => exact refl S m
  | cons x l ih =>
    have hx := hf m x mem_cons_self hm
    exact hx.trans (ih (hx.file.trans hm) fun m y hy => hf m y (mem_cons_of_mem _ hy))

end HotStep

namespace Machine

theorem runtime_markDirty : (m.markDirty fails).runtime = m.runtime := rfl

theorem hotStep_markDirty (m : Machine) : HotStep S m (m.markDirty fails) := ⟨rfl, rfl, subset_union_left⟩

theorem hotStep_healDirty (m : Machine) (fails : Faults) : HotStep (fileMembers m.file) m (m.healDirty fails) := by
  unfold healDirty
  split_ifs
  · refine ⟨rfl, rfl, ?_⟩
    rw [members_runtimeOf]
    exact subset_union_right
  · exact HotStep.refl _ m

variable {rt : Runtime} {tags : List String} {addr : String} {phase : Phase}

theorem members_addClients {known : String → Bool} {i : Nat} :
    (addClients fails known i pay rt).1.members ⊆ rt.members ∪ payloadMembers pay := by
  induction pay generalizing i rt with
  | nil => exact subset_union_left
  | cons tagged rest ih =>
    have hre : payloadMembers rest ⊆ payloadMembers (tagged :: rest) :=
      fun p ⟨found, hfo, hp⟩ => ⟨found, mem_cons_of_mem _ hfo, hp⟩
    rw [addClients]
    split_ifs
    · refine ih.trans (union_subset ?_ (hre.trans subset_union_right))
      rw [members_add]
      apply insert_subset
      · exact .inr ⟨tagged, mem_cons_self, rfl, rfl⟩
      · exact subset_union_left
    · exact ih.trans (union_subset_union_right _ hre)

theorem hotStep_hotAdd : HotStep (payloadMembers pay) m (m.hotAdd fails pay).1 := ⟨rfl, rfl, members_addClients⟩

variable {p : String × String} {t : String} {old : RawMap} {user : VPNUserConfig}

/-- The calls that succeed take the clients of the email out of their inbounds. -/
theorem runtime_hotRemove (t : String) : (m.hotRemove fails phase addr tags).runtime t = (m.runtime t).filter fun c =>
      ¬ (trimSpace addr ≠ "" ∧ email c = trimSpace addr ∧ t ∈ tags ∧ fails (.remove phase addr t) = false) := by
  unfold hotRemove
  split_ifs with hem
  · simp [hem]
  dsimp only
  generalize m.runtime = rt
  induction tags generalizing rt with
  | nil => simp
  | cons first tags ih =>
    rw [foldl_cons, ih]
    split_ifs with hf
    · refine filter_congr fun c _ => ?_
      grind
    rw [Runtime.remove, Function.update_apply]
    split_ifs with heq
    · rw [heq, filter_filter]
      refine filter_congr fun c _ => ?_
      grind
    · simp [heq]

theorem members_hotRemove : p ∈ (m.hotRemove fails phase addr tags).runtime.members ↔ p ∈ m.runtime.members ∧
      ¬ (trimSpace addr ≠ "" ∧ p.2 = trimSpace addr ∧ p.1 ∈ tags ∧ fails (.remove phase addr p.1) = false) := by
  simp only [Runtime.members, emailsOf, mem_ofPred_eq, runtime_hotRemove, mem_filter, decide_eq_true_eq]
  constructor
  · rintro ⟨c, ⟨hc, hnot⟩, he⟩
    exact ⟨⟨c, hc, he⟩, he ▸ hnot⟩
  · rintro ⟨⟨c, hc, he⟩, hnot⟩
    exact ⟨c, ⟨hc, he ▸ hnot⟩, he⟩

theorem hotStep_hotRemove (m : Machine) : HotStep S m (m.hotRemove fails phase addr tags) := by
  refine ⟨?_, ?_, fun p hp => .inl (members_hotRemove.1 hp).1⟩
  · unfold hotRemove
    split_ifs <;> rfl
  · unfold hotRemove
    split_ifs <;> rfl

variable {tagsByEmail : List (String × List String)} {cfg cfg' : RawMap}

theorem hotStep_hotRemoveAll (m : Machine) : HotStep S m (m.hotRemoveAll fails phase tagsByEmail) := by
  refine HotStep.foldl rfl fun m entry _ _ => ?_
  split_ifs
  · exact hotStep_hotRemove m
  · exact (hotStep_hotRemove m).trans (hotStep_markDirty _)

theorem members_hotRemoveAll (hp : p ∈ (m.hotRemoveAll fails phase tagsByEmail).runtime.members) :
    p ∈ m.runtime.members ∧ ∀ entry ∈ tagsByEmail, ¬ (trimSpace entry.1 ≠ "" ∧ p.2 = trimSpace entry.1 ∧
      p.1 ∈ entry.2 ∧ fails (.remove phase entry.1 p.1) = false) := by
  induction tagsByEmail generalizing m with
  | nil => exact ⟨hp, by simp⟩
  | cons entry rest ih =>
    rw [hotRemoveAll, foldl_cons] at hp
    obtain ⟨hfi, hre⟩ := ih hp
    have hrem : p ∈ (m.hotRemove fails phase entry.1 entry.2).runtime.members := by
      split_ifs at hfi
      · exact hfi
      · rwa [runtime_markDirty] at hfi
    obtain ⟨hin, hnot⟩ := members_hotRemove.1 hrem
    refine ⟨hin, fun e he => ?_⟩
    rcases mem_cons.1 he with rfl | he
    · exact hnot
    · exact hre e he

theorem getInbounds_readOrNil {b : Bool} (h : getInbounds (readOrNil b file) = .ok ibs) :
    ibs = [] ∨ inboundsOf file = .ok ibs := by
  rcases hcfg : readConfig file with e | cfg
  · rw [readOrNil, hcfg] at h
    exact .inl (Except.ok.inj h).symm
  rw [readOrNil_of_ok hcfg] at h
  split_ifs at h
  · exact .inl (Except.ok.inj h).symm
  · exact .inr (inboundsOf_eq_ok.2 ⟨cfg, hcfg, h⟩)

theorem members_rebuild_subset {ib : RawMap} (hib : ib ∈ ibs) (ht : tag ib = t)
    (hin : inboundsOf file = .ok ibs) : (rt.rebuild t ib).members ⊆ rt.members ∪ fileMembers file := by
  intro p hp
  rw [members_rebuild] at hp
  split_ifs at hp with heq
  · rw [fileMembers_of_ok hin]
    exact .inr ⟨ib, hib, ht.trans heq.symm, hp⟩
  · exact .inl hp

theorem hotStep_rebuildInbound : HotStep (fileMembers m.file) m (m.rebuildInbound fails phase t) := by
  unfold rebuildInbound
  split
  · exact HotStep.refl _ m
  rename_i ibs hin
  split
  · exact HotStep.refl _ m
  rename_i ib hib
  split_ifs
  · exact hotStep_markDirty m
  rcases getInbounds_readOrNil hin with rfl | hin
  · simp at hib
  · have htag : tag ib = t := by simpa using find?_some hib
    exact ⟨rfl, rfl, members_rebuild_subset (mem_of_find?_eq_some hib) htag hin⟩

theorem hotStep_rebuildInboundTags {rems : List (String × List String)} :
    HotStep (fileMembers m.file) m (m.rebuildInboundTags fails phase pay rems) := by
  refine HotStep.foldl rfl fun m' t _ hm' => ?_
  rw [← hm']
  exact hotStep_rebuildInbound

def hysteriaMembers (file : Option Raw) : Set (String × String) :=
  {p | ∃ inbounds ib, inboundsOf file = .ok inbounds ∧ ib ∈ inbounds ∧ isHysteria ib = true ∧ tag ib = p.1 ∧
    p.2 ∈ emailsOf (readClients ib)}

theorem hysteriaMembers_subset : hysteriaMembers file ⊆ fileMembers file :=
  fun _ ⟨ibs, ib, hin, hib, _, ht, he⟩ => ⟨ibs, hin, ib, hib, ht, he⟩

/-- The pairs of the hysteria inbounds that differ from those of the old config. -/
def rebuiltMembers (env : AdapterEnv) (old : RawMap) (file : Option Raw) : Set (String × String) :=
  {p | ∃ inbounds ib, inboundsOf file = .ok inbounds ∧ ib ∈ inbounds ∧ isHysteria ib = true ∧
    unchangedInbound env old ib = false ∧ tag ib = p.1 ∧ p.2 ∈ emailsOf (readClients ib)}

theorem rebuildHysteria_eq (env : AdapterEnv) (fails : Faults) (old : RawMap) (m : Machine) :
    ∃ rt, m.rebuildHysteriaInbounds env fails old = { m with runtime := rt } ∧
      rt.members ⊆ m.runtime.members ∪ rebuiltMembers env old m.file := by
  unfold rebuildHysteriaInbounds
  rcases hr : getInbounds (readOrNil (fails .readHysteria) m.file) with e | ibs
  · exact ⟨_, rfl, subset_union_left⟩
  refine foldlRecOn (motive := fun m' => ∃ rt, m' = { m with runtime := rt } ∧
    rt.members ⊆ m.runtime.members ∪ rebuiltMembers env old m.file) ibs _ ⟨_, rfl, subset_union_left⟩ ?_
  rintro _ ⟨rt, rfl, hrt⟩ ib hib
  split_ifs with hsk
  · exact ⟨rt, rfl, hrt⟩
  refine ⟨_, rfl, fun p hp => ?_⟩
  rw [members_rebuild] at hp
  split_ifs at hp with heq
  · simp only [Bool.or_eq_true, not_or, Bool.not_eq_true, Bool.not_eq_eq_eq_not] at hsk
    have hin := (getInbounds_readOrNil hr).resolve_left (ne_nil_of_mem hib)
    exact .inr ⟨ibs, ib, hin, hib, by simpa using hsk.1.1.1, hsk.1.2, heq.symm, hp⟩
  · exact hrt hp

theorem hotStep_rebuildHysteria : HotStep (hysteriaMembers m.file) m (m.rebuildHysteriaInbounds env fails old) := by
  obtain ⟨rt, heq, hrt⟩ := rebuildHysteria_eq env fails old m
  rw [heq]
  refine ⟨rfl, rfl, hrt.trans (union_subset_union_right _ ?_)⟩
  exact fun _ ⟨ibs, ib, hin, hib, hhy, _, hp⟩ => ⟨ibs, ib, hin, hib, hhy, hp⟩

theorem hotStep_sendAdded : HotStep (payloadMembers pay ∪ fileMembers m.file) m (m.sendAdded fails pay) := by
  have hadd : HotStep (payloadMembers pay ∪ fileMembers m.file) m (m.hotAdd fails pay).1 :=
    hotStep_hotAdd.mono subset_union_left
  unfold sendAdded
  dsimp only
  split_ifs
  · exact HotStep.refl _ m
  · exact hadd
  · exact hadd.trans ((hotStep_markDirty _).trans (hotStep_rebuildInboundTags.mono subset_union_right))

/-- What follows the writing of added clients, up to the removal of the hash. -/
theorem afterAdd_eq : ∃ m1, HotStep (payloadMembers pay ∪ fileMembers m.file) m m1 ∧
      m.afterAdd env fails old pay = m1.invalidateHash fails := by
  have hse : HotStep (payloadMembers pay ∪ fileMembers m.file) m (m.sendAdded fails pay) := hotStep_sendAdded
  refine ⟨_, hse.trans (hotStep_rebuildHysteria.mono ?_), rfl⟩
  rw [hse.file]
  exact hysteriaMembers_subset.trans subset_union_right

theorem file_afterAdd : (m.afterAdd env fails old pay).file = m.file := by
  obtain ⟨m1, hs, heq⟩ := afterAdd_eq
  rw [heq]
  exact hs.file

theorem dropUser_eq_ok (h : dropUser addr cfg = .ok (cfg', tags)) (hin : getInbounds cfg = .ok ibs) :
    ∃ ibs', getInbounds cfg' = .ok ibs' ∧ members ibs' = {p ∈ members ibs | p.2 ≠ addr} ∧
      ∀ t, t ∈ tags ↔ t ≠ "" ∧ (t, addr) ∈ members ibs := by
  unfold dropUser at h
  split_ifs at h with hexi
  · -- nobody has the email
    cases h
    have hn (t : String) : (t, addr) ∉ members ibs := fun hp => by
      rw [(userExists_iff hin).2 ⟨t, hp⟩] at hexi
      contradiction
    refine ⟨ibs, hin, ?_, fun t => ?_⟩
    · ext p
      refine ⟨fun hp => ⟨hp, fun he => hn p.1 (he ▸ hp)⟩, And.left⟩
    · simp [hn]
  · obtain ⟨found, hfo, h⟩ := bind_eq_ok.1 h
    obtain ⟨cfg1, hrem, h⟩ := bind_eq_ok.1 h
    cases h
    rw [mapError_eq_ok, inboundTagsForUser, hin, ok_bind] at hfo
    cases hfo
    rw [removeUserFromAllInbounds_eq] at hrem
    obtain ⟨ibs', hin', hmem⟩ := members_removeUsers hin hrem
    refine ⟨ibs', hin', ?_, fun t => mem_tagsFor⟩
    rw [hmem]
    simp

theorem file_afterRemove {tags : List (String × List String)} : (m.afterRemove env fails old tags).file = m.file := by
  have hrem : HotStep ∅ m (m.hotRemoveAll fails .update tags) := hotStep_hotRemoveAll m
  exact hotStep_rebuildHysteria.file.trans hrem.file

/-- What a call that makes `change` to the config leaves: it has not written, or `after` followed the writing. -/
def Updated {α : Type} (fails : Faults) (m : Machine) (change : RawMap → Except Failure (RawMap × α))
    (after : RawMap → α → Machine → Machine) (m' : Machine) : Prop :=
  m' = m ∨ m' = m.healDirty fails ∨ ∃ cfg cfg' out, readConfig m.file = .ok cfg ∧ change cfg = .ok (cfg', out) ∧
    m' = after (readOrNil (fails .readOld) m.file) out { m.healDirty fails with file := some (marshalMap cfg') }

section

variable {α : Type} {change : RawMap → Except Failure (RawMap × α)} {after : RawMap → α → Machine → Machine}

theorem Updated.elim {P : Machine → Prop} (hu : Updated fails m change after m') (h : P m) (hhe : P (m.healDirty fails))
    (hwr : ∀ cfg cfg' out, readConfig m.file = .ok cfg → change cfg = .ok (cfg', out) →
      P (after (readOrNil (fails .readOld) m.file) out { m.healDirty fails with file := some (marshalMap cfg') })) :
    P m' := by
  rcases hu with rfl | rfl | ⟨cfg, cfg', out, hcfg, hch, rfl⟩
  · exact h
  · exact hhe
  · exact hwr cfg cfg' out hcfg hch

theorem updated_updateConfig {name : String} : Updated fails m change after (m.updateConfig fails name change after).1 := by
  unfold updateConfig
  dsimp only
  split
  · exact .inr (.inl rfl)
  next raw out hmod =>
  rw [(hotStep_healDirty m fails).file] at hmod ⊢
  obtain ⟨-, cfg, cfg', hcfg, hch, rfl⟩ := modifyWith_eq_ok.1 hmod
  exact .inr (.inr ⟨cfg, cfg', out, hcfg, hch, rfl⟩)

end

theorem updated_addUser : Updated fails m (placeUser env.ext user) (afterAdd env fails)
    (m.addUserLocked env fails user).1 := by
  unfold addUserLocked
  split_ifs
  · exact .inl rfl
  · exact updated_updateConfig

theorem updated_addUsersBulk {users : List VPNUserConfig} : Updated fails m
    (fun cfg => .ok (users.foldl (placeInBulk env.ext) (cfg, []))) (afterAdd env fails)
    (m.addUsersBulkLocked env fails users).1 := by
  unfold addUsersBulkLocked
  split_ifs
  · exact .inl rfl
  · exact updated_updateConfig

theorem updated_removeUser : Updated fails m (dropUser addr) (fun old tags => afterRemove env fails old [(addr, tags)])
    (m.removeUserLocked env fails addr).1 := by
  unfold removeUserLocked
  split_ifs
  · exact .inl rfl
  · exact .inl rfl
  · exact updated_updateConfig

theorem updated_removeUsersBulk {emails : List String} : Updated fails m
    (dropUsers (emails.filter fun e => e ≠ "" ∧ !isProtected env e)) (afterRemove env fails)
    (m.removeUsersBulkLocked env fails emails).1 := by
  unfold removeUsersBulkLocked
  dsimp only
  split_ifs
  · exact .inl rfl
  · exact updated_updateConfig

/-- `BanUser` calls the process only for the tags of the user in the config. -/
theorem banUser_cases : (∃ e, m.banUser fails addr = (m, .error e)) ∨
    ∃ cfg tags, readConfig m.file = .ok cfg ∧ inboundTagsForUser cfg addr = .ok tags ∧
      ((tags = [] ∧ m.banUser fails addr = (m, .ok ())) ∨
      (removeSucceeds fails .update addr tags = true ∧
        m.banUser fails addr = ((m.hotRemove fails .update addr tags).invalidateHash fails, .ok ())) ∨
      ∃ e, m.banUser fails addr = ((m.hotRemove fails .update addr tags).markDirty fails, .error e)) := by
  unfold banUser
  by_cases hr : fails .readOld = true
  · rw [if_pos hr]
    exact .inl ⟨_, rfl⟩
  rw [if_neg hr]
  rcases readConfig m.file with e | cfg
  · exact .inl ⟨_, rfl⟩
  dsimp only
  rcases hta : inboundTagsForUser cfg addr with e | tags
  · exact .inl ⟨_, rfl⟩
  refine .inr ⟨cfg, tags, rfl, hta, ?_⟩
  dsimp only
  split_ifs with hn hok
  · exact .inl ⟨hn, rfl⟩
  · exact .inr (.inl ⟨hok, rfl⟩)
  · exact .inr (.inr ⟨_, rfl⟩)

theorem unbanUser_cases : (∃ e, m.unbanUser env fails addr = (m, .error e)) ∨
    ∃ cfg rawUser pay, readConfig m.file = .ok cfg ∧ findUser cfg addr = .ok (some rawUser) ∧
      (getInbounds cfg >>= buildForAllInbounds env.ext (unbanParams rawUser)) = .ok pay ∧
      (m.unbanUser env fails addr = ((m.hotAdd fails pay).1.invalidateHash fails, .ok ()) ∨
      ∃ e, m.unbanUser env fails addr = ((m.hotAdd fails pay).1.markDirty fails, .error e)) := by
  unfold unbanUser
  by_cases hr : fails .readOld = true
  · rw [if_pos hr]
    exact .inl ⟨_, rfl⟩
  rw [if_neg hr]
  rcases readConfig m.file with e | cfg
  · exact .inl ⟨_, rfl⟩
  dsimp only
  rcases hfi : findUser cfg addr with e | _ | rawUser
  · exact .inl ⟨_, rfl⟩
  · exact .inl ⟨_, rfl⟩
  dsimp only
  rcases hpay : getInbounds cfg >>= buildForAllInbounds env.ext (unbanParams rawUser) with e | pay
  · exact .inl ⟨_, rfl⟩
  refine .inr ⟨cfg, rawUser, pay, rfl, hfi, hpay, ?_⟩
  dsimp only
  split_ifs
  · exact .inl rfl
  · exact .inr ⟨_, rfl⟩

/-- `SyncRealityKeys` fails before it writes, or it has put the keys into the config and rebuilt inbounds. -/
theorem syncRealityKeys_cases {keys : Option RealityKeys} : (m.syncRealityKeys fails keys).1 = m ∨
    ∃ newKeys cfg cfg' m1, readConfig m.file = .ok cfg ∧ injectRealityKeys newKeys cfg = .ok cfg' ∧
      HotStep (fileMembers (some (marshalMap cfg'))) { m with file := some (marshalMap cfg') } m1 ∧
      ((m.syncRealityKeys fails keys).1 = m1 ∨ (m.syncRealityKeys fails keys).1 = m1.invalidateHash fails) := by
  unfold syncRealityKeys
  rcases keys with _ | keys
  · exact .inl rfl
  dsimp only
  by_cases hinv : keys.privateKey = "" ∨ keys.publicKey = "" ∨ keys.shortIDs = []
  · rw [if_pos hinv]
    exact .inl rfl
  rw [if_neg hinv]
  rcases hmod : modifyWith (fails .modify) m.file fun cfg => (injectRealityKeys keys cfg).map (·, ()) with e | ⟨raw, out⟩
  · exact .inl rfl
  obtain ⟨-, cfg, _, hcfg, hcha, rfl⟩ := modifyWith_eq_ok.1 hmod
  obtain ⟨cfg', hinj, heq⟩ := map_eq_ok.1 hcha
  obtain ⟨rfl, -⟩ := Prod.mk.inj heq
  refine .inr ⟨keys, cfg, cfg', ?_⟩
  dsimp only
  split_ifs
  · exact ⟨_, hcfg, hinj, HotStep.refl _ _, .inl rfl⟩
  rcases inboundsOf (some (marshalMap cfg')) with e | ibs
  · exact ⟨_, hcfg, hinj, HotStep.refl _ _, .inl rfl⟩
  refine ⟨_, hcfg, hinj, ?_, .inr rfl⟩
  refine HotStep.foldl rfl fun m1 t _ hm1 => ?_
  have hreb : HotStep (fileMembers m1.file) m1 (m1.rebuildInbound fails .update t) := hotStep_rebuildInbound
  rw [hm1] at hreb
  exact hreb

end Machine

def vlessEnv : AdapterEnv where
  ext := noExternals
  configPath := "config.json"
  templatePath := "template.json"
  template := vlessConfig []
  templateText := some "template"
  realityRotation := false
  realityKeysPath := ""
  realityKeys := .error .io
  keysText := none
  blacklistedAdmins := []
  sortUsers := fun users => users.insertionSort fun u v => u.email ≤ v.email
  truncate := fun _ => 0
  sameText := fun ib ib' => ib == ib'

def Machine.started (file : Option Raw) : Machine := ⟨file, none, false, runtimeOf file⟩

def noFaults : Faults := fun _ => false

def elevenUsers : List VPNUserConfig :=
  ["a", "b", "c", "d", "e", "f", "g", "h", "i", "j", "k"].map fun name => { email := name, uuid := "id-" ++ name }

def otherUser : VPNUserConfig := { email := "z", uuid := "id-z" }

end Xraytool.Xray
