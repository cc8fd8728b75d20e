import Xraytool.Sanity.SingBox

/-! A soft ban of the Sing-box plugin can be lifted. While it lasts, the inbound holds the email or its records are in
memory; a call that fails after it changed the bans can lose them, and so does a restart. -/

namespace Xraytool.SingBox

open Transition List
open Xray (Raw Failure)

/-- One inbound has the tag, and it holds the email. -/
def HoldsAt (file : Option Raw) (t e : String) : Prop :=
  ∃ document ∈ file.bind asObject, (inboundsAt document t).length = 1 ∧
    ∃ inbound ∈ inboundsAt document t, e ∈ emailsOf inbound

instance (file : Option Raw) (t e : String) : Decidable (HoldsAt file t e) :=
  inferInstanceAs (Decidable (∃ document ∈ file.bind asObject, (inboundsAt document t).length = 1 ∧
    ∃ inbound ∈ inboundsAt document t, e ∈ emailsOf inbound))

variable {e t : String} {tags : List String} {doc ib : Object} {file : Option Raw}

theorem holdsAt_iff : HoldsAt file t e ↔
    ∃ doc ib, file = some (.obj doc) ∧ inboundsAt doc t = [ib] ∧ e ∈ emailsOf ib := by
  unfold HoldsAt
  refine ⟨?_, ?_⟩
  · rintro ⟨doc, hf, hone, ib, hmem, he⟩
    obtain ⟨only, hon⟩ := length_eq_one_iff.1 hone
    obtain rfl : ib = only := by simpa [hon] using hmem
    refine ⟨doc, ib, ?_, hon, he⟩
    obtain ⟨raw, hraw, hobj⟩ := Option.bind_eq_some_iff.1 hf
    cases raw <;> cases hobj
    exact hraw
  · rintro ⟨doc, ib, rfl, hat, he⟩
    exact ⟨doc, rfl, by rw [hat]; rfl, ib, by rw [hat]; exact mem_singleton_self ib, he⟩

/-- The inbound holds the email, or the ban of the email can put it back. -/
def Restorable (tags : List String) (t e : String) (file : Option Raw) (banned : Banned) : Prop :=
  ∃ document inbound, file = some (.obj document) ∧ inboundsAt document t = [inbound] ∧
    (e ∈ emailsOf inbound ∨
      isManaged tags inbound ∧ (∀ other ∈ managedInbounds document tags, e ∉ emailsOf other) ∧
        ∃ records, banned.lookup e = some records ∧ (records.lookup t).getD [] ≠ [])

theorem mem_managedInbounds_of_at (hat : inboundsAt doc t = [ib]) (hman : isManaged tags ib) :
    ib ∈ managedInbounds doc tags := by
  have hmem : ib ∈ inboundsAt doc t := hat ▸ mem_singleton_self ib
  exact mem_filter.2 ⟨(mem_filter.1 hmem).1, hman⟩

theorem tag_of_at (hat : inboundsAt doc t = [ib]) : mapString ib "tag" = t := by
  have hmem : ib ∈ inboundsAt doc t := hat ▸ mem_singleton_self ib
  exact of_decide_eq_true (mem_filter.1 hmem).2

theorem at_edited {change : Object → Object} {cand : Object} (hed : Edited tags change doc cand)
    (hat : inboundsAt doc t = [ib]) :
    inboundsAt cand t = [if isManaged tags ib then change ib else ib] := by
  rw [hed.at, hat, map_singleton]

theorem HoldsAt.restorable (h : HoldsAt file t e) (banned : Banned) : Restorable tags t e file banned := by
  obtain ⟨doc, ib, hf, hat, hmem⟩ := holdsAt_iff.1 h
  exact ⟨doc, ib, hf, hat, .inl hmem⟩

namespace Restorable

variable {cand : Object} {banned banned' : Banned} {change : Object → Object}

theorem of_lookup (h : Restorable tags t e file banned)
    (hl : banned'.lookup e = banned.lookup e) : Restorable tags t e file banned' := by
  obtain ⟨doc, ib, hf, hat, hor⟩ := h
  exact ⟨doc, ib, hf, hat, by rwa [hl]⟩

section

variable (h : Restorable tags t e (some (.obj doc)) banned) (hed : Edited tags change doc cand)
include h hed

theorem update (hsa : ∀ ib, e ∈ emailsOf (change ib) ↔ e ∈ emailsOf ib)
    (hl : banned'.lookup e = banned.lookup e) : Restorable tags t e (some (.obj cand)) banned' := by
  obtain ⟨doc', ib, hf, hat, hor⟩ := h
  obtain rfl : doc = doc' := by simpa using hf
  refine ⟨_, _, rfl, at_edited hed hat, ?_⟩
  rcases hor with hmem | ⟨hman, hn, hrec⟩
  · left
    split_ifs
    · exact (hsa ib).2 hmem
    · exact hmem
  · right
    rw [if_pos hman, hed.kind.isManaged, hed.managed, hl]
    refine ⟨hman, fun other ho => ?_, hrec⟩
    obtain ⟨old, hold, rfl⟩ := mem_map.1 ho
    exact mt (hsa old).1 (hn old hold)

theorem holdsAt_update (had : ∀ ib, mapString ib "tag" = t →
      (e ∈ emailsOf ib ∨ ∃ recs, banned.lookup e = some recs ∧ (recs.lookup t).getD [] ≠ []) →
        e ∈ emailsOf (change ib)) :
    HoldsAt (some (.obj cand)) t e := by
  obtain ⟨doc', ib, hf, hat, hor⟩ := h
  obtain rfl : doc = doc' := by simpa using hf
  refine holdsAt_iff.2 ⟨_, _, rfl, at_edited hed hat, ?_⟩
  split_ifs with hman
  · exact had ib (tag_of_at hat) (hor.imp_right fun hban => hban.2.2)
  rcases hor with hmem | ⟨hman', -⟩
  · exact hmem
  · exact absurd hman' hman

theorem ban_self (hrem : ∀ ib, e ∉ emailsOf (change ib)) : Restorable tags t e (some (.obj cand))
      (if banRecords e (managedInbounds doc tags) = [] then banned else
        Assoc.put banned e (banRecords e (managedInbounds doc tags))) := by
  obtain ⟨doc', ib, hf, hat, hor⟩ := h
  obtain rfl : doc = doc' := by simpa using hf
  refine ⟨_, _, rfl, at_edited hed hat, ?_⟩
  by_cases hman : isManaged tags ib
  · right
    rw [if_pos hman, hed.kind.isManaged, hed.managed]
    refine ⟨hman, fun other ho => ?_, ?_⟩
    · obtain ⟨old, -, rfl⟩ := mem_map.1 ho
      exact hrem old
    rcases hor with hmem | ⟨-, hn, hrec⟩
    · have hfo : ((banRecords e (managedInbounds doc tags)).lookup t).getD [] ≠ [] := by
        obtain ⟨user, hu, heq⟩ := mem_emailsOf.1 hmem
        rw [lookup_banRecords]
        refine ne_nil_of_mem (mem_flatMap.2 ⟨ib, ?_, mem_filter.2 ⟨hu, by simpa using heq⟩⟩)
        exact mem_filter.2 ⟨mem_managedInbounds_of_at hat hman, by simpa using tag_of_at hat⟩
      have hrec : banRecords e (managedInbounds doc tags) ≠ [] := by
        intro heq
        rw [heq] at hfo
        exact hfo rfl
      rw [if_neg hrec, Assoc.lookup_put, if_pos rfl]
      exact ⟨_, rfl, hfo⟩
    · rw [if_pos (banRecords_eq_nil hn)]
      exact hrec
  · left
    rw [if_neg hman]
    exact hor.resolve_right fun hban => hman hban.1

end

theorem ban_failed (h : Restorable tags t e file banned) (hfile : file = some (.obj doc)) :
    Restorable tags t e file (if banRecords e (managedInbounds doc tags) = [] then banned else
      Assoc.put banned e (banRecords e (managedInbounds doc tags))) := by
  obtain ⟨doc', ib, hf, hat, hmem | ⟨-, hn, -⟩⟩ := id h
  · exact (holdsAt_iff.2 ⟨doc', ib, hf, hat, hmem⟩).restorable _
  obtain rfl : doc = doc' := by simpa using hfile.symm.trans hf
  rw [if_pos (banRecords_eq_nil hn)]
  exact h

end Restorable

/-- A call between a ban and its end: no removal of the email, no restart, and no failure of a call that adds the
email or lifts its ban. -/
def KeepsRecords (env : PluginEnv) (e : String) (p : Plugin) (step : PluginStep) : Prop :=
  match step.call with
  | .addUser user => user.email = e → (p.run env step).2 = .ok ()
  | .addUsersBulk users => e ∈ users.map (·.email) → (p.run env step).2 = .ok ()
  | .unbanUser address => trimSpace address = e → (p.run env step).2 = .ok ()
  | .removeUser address => trimSpace address ≠ e
  | .removeUsersBulk emails => e ∉ emails.map trimSpace
  | .syncUsers _ _ | .restart => False
  | .setExpire _ _ | .setLimit _ _ | .banUser _ => True

instance (env : PluginEnv) (e : String) (p : Plugin) (step : PluginStep) : Decidable (KeepsRecords env e p step) := by
  unfold KeepsRecords
  cases step.call <;> dsimp only <;> infer_instance

variable {env : PluginEnv} {p p' : Plugin} {step : PluginStep} {call : PluginCall}

theorem PluginCall.Bans.lookup {banned banned' : Banned} (h : call.Bans tags doc banned banned')
    (hban : ∀ addr, call = .banUser addr → trimSpace addr ≠ e) (hl : e ∉ call.lifts) :
    banned'.lookup e = banned.lookup e := by
  unfold PluginCall.Bans at h
  split at h
  · rw [h]
    split_ifs
    · rfl
    · rw [Assoc.lookup_put, if_neg (hban _ rfl).symm]
  · rcases h with rfl | rfl
    · rfl
    · rw [Assoc.lookup_foldl_drop, if_neg hl]

/-- Such a call bans the email, leaves it alone or brings it back. -/
theorem KeepsRecords.cases (he : trimSpace e = e) (h : KeepsRecords env e p step) :
    (∃ addr, step.call = .banUser addr ∧ trimSpace addr = e) ∨
    (∀ addr, step.call = .banUser addr → trimSpace addr ≠ e) ∧
      (e ∉ step.call.lifts ∧ (∀ ib, step.call.Lists p.banned ib e ↔ e ∈ emailsOf ib) ∨
        (e ∈ step.call.lifts → (p.run env step).2 = .ok ()) ∧ ∀ ib, (e ∈ emailsOf ib ∨
          (((p.banned.lookup e).getD []).lookup (mapString ib "tag")).getD [] ≠ []) →
            step.call.Lists p.banned ib e) := by
  obtain ⟨call, fails⟩ := step
  cases call with
  | addUser user =>
    refine .inr ⟨by simp, ?_⟩
    by_cases hmem : e = trimSpace user.email
    · exact .inr ⟨fun hl => h (mem_singleton.1 hl).symm, fun _ _ => .inr hmem⟩
    · refine .inl ⟨fun hl => hmem ?_, fun ib => or_iff_left hmem⟩
      rw [← mem_singleton.1 hl, he]
  | addUsersBulk users =>
    refine .inr ⟨by simp, ?_⟩
    by_cases hmem : ∃ user ∈ users, e = trimSpace user.email
    · exact .inr ⟨fun hl => h (map_subset _ (takeWhile_subset _) hl), fun _ _ => .inr hmem⟩
    refine .inl ⟨fun hl => hmem ?_, fun ib => or_iff_left hmem⟩
    obtain ⟨user, hu, rfl⟩ := mem_map.1 hl
    exact ⟨user, takeWhile_subset _ hu, he.symm⟩
  | removeUser addr =>
    exact .inr ⟨by simp, .inl ⟨fun hl => h (mem_singleton.1 hl).symm, fun ib => and_iff_left (Ne.symm h)⟩⟩
  | removeUsersBulk emails =>
    exact .inr ⟨by simp, .inl ⟨fun hl => h (mem_of_mem_filter hl), fun ib => and_iff_left h⟩⟩
  | setExpire addr expire | setLimit addr limit =>
    exact .inr ⟨by simp, .inl ⟨not_mem_nil, fun _ => Iff.rfl⟩⟩
  | banUser addr =>
    by_cases hadd : trimSpace addr = e
    · exact .inl ⟨addr, rfl, hadd⟩
    · exact .inr ⟨by simpa using hadd, .inl ⟨not_mem_nil, fun ib => and_iff_left (Ne.symm hadd)⟩⟩
  | unbanUser addr =>
    refine .inr ⟨by simp, ?_⟩
    by_cases hadd : trimSpace addr = e
    · exact .inr ⟨fun _ => h hadd, fun ib hor => hor.imp_right fun hrec => ⟨hadd.symm, hadd ▸ hrec⟩⟩
    · exact .inl ⟨fun hl => hadd (mem_singleton.1 hl).symm, fun ib => or_iff_left fun hse => hadd hse.1.symm⟩
  | syncUsers users orphans | restart => exact h.elim

theorem KeepsRecords.source (h : KeepsRecords env e p step) (hs : p.Source env step.call doc) :
    p.file = some (.obj doc) := by
  rcases hs with hf | ⟨⟨users, orphans, hca⟩, -⟩
  · exact hf
  · rw [KeepsRecords, hca] at h
    exact h.elim

theorem Restorable.run (he : trimSpace e = e) (hne : e ≠ "")
    (h : Restorable env.managedInboundTags t e p.file p.banned) (hfai : Faithful p.banned)
    (hke : KeepsRecords env e p step) :
    Restorable env.managedInboundTags t e (p.run env step).1.file (p.run env step).1.banned := by
  have hre : step.call ≠ .restart := fun hre => by
    rw [KeepsRecords, hre] at hke
    exact hke
  rcases p.run_outcome env step hre with ⟨hf, -, hok, hban⟩ | ⟨doc, cand, hs, ⟨change, hed, hli⟩, hban, hf, -⟩
  · rw [hf]
    rcases hban with heq | ⟨doc, hs, hban⟩
    · rwa [heq]
    rcases hke.cases he with ⟨addr, hca, rfl⟩ | ⟨hnot, hca⟩
    · rw [hca] at hban
      rw [hban]
      exact h.ban_failed (hke.source hs)
    refine h.of_lookup (hban.lookup hnot fun hl => ?_)
    rcases hca with ⟨hnl, -⟩ | ⟨hrun, -⟩
    · exact hnl hl
    · rw [hok (hrun hl)] at hl
      cases hl
  · rw [hke.source hs] at h
    rw [hf]
    rcases hke.cases he with ⟨addr, hca, rfl⟩ | ⟨hnot, ⟨hnl, hsa⟩ | ⟨-, hbr⟩⟩
    · rw [hca] at hban
      rw [hban]
      refine h.ban_self hed fun ib hmem => ?_
      have hlis := (hli hfai ib _ hne).1 hmem
      rw [hca] at hlis
      exact hlis.2 rfl
    · exact h.update hed (fun ib => (hli hfai ib e hne).trans (hsa ib)) (hban.lookup hnot hnl)
    · refine (h.holdsAt_update hed fun ib htag hor => ?_).restorable _
      refine (hli hfai ib e hne).2 (hbr ib (hor.imp_right ?_))
      rintro ⟨recs, hl, hrec⟩
      rwa [hl, htag]

/-- A ban of the email that is lifted: the records go back, if the inbound does not hold the email anyway. -/
theorem Restorable.holdsAt_of_unban {addr : String} {fails : Faults} (hne : e ≠ "")
    (h : Restorable env.managedInboundTags t e p.file p.banned) (hfai : Faithful p.banned) (hadd : trimSpace addr = e)
    (hc : p.run env ⟨.unbanUser addr, fails⟩ = (p', .ok ())) : HoldsAt p'.file t e := by
  have hout := p.run_outcome env ⟨.unbanUser addr, fails⟩ (by simp)
  rw [hc] at hout
  rcases hout with ⟨-, -, hok, -⟩ | ⟨doc, cand, hf | ⟨⟨_, _, hca⟩, -⟩, ⟨change, hed, hli⟩, -, hf', -⟩
  · cases hok rfl
  · rw [hf] at h
    rw [hf']
    refine h.holdsAt_update hed fun ib htag hor => (hli hfai ib e hne).2 (hor.imp_right ?_)
    rintro ⟨recs, hl, hrec⟩
    refine ⟨hadd.symm, ?_⟩
    rwa [hadd, hl, htag]
  · cases hca

/-- After a ban the email is back in every inbound that held it, once the ban is lifted: however calls for other
emails fail in between, and however often the email is banned. -/
theorem soft_ban_can_be_lifted {env : PluginEnv} {t e address address' : String} {p₀ p p₁ p₂ p₃ : Plugin}
    {tr tr' : List PluginStep} {fails fails' : Faults} (hstart : p₀.banned = [])
    (hrun : Run (stepsTo (pluginStep env)) p₀ tr p) (hheld : HoldsAt p.file t e) (haddress : trimSpace address = e)
    (hban : p.run env ⟨.banUser address, fails⟩ = (p₁, .ok ()))
    (hkeeps : Run (Guarded (KeepsRecords env e) (stepsTo (pluginStep env))) p₁ tr' p₂)
    (haddress' : trimSpace address' = e) (hunban : p₂.run env ⟨.unbanUser address', fails'⟩ = (p₃, .ok ())) :
    HoldsAt p₃.file t e := by
  have he : trimSpace e = e := by rw [← haddress, trimSpace_idem]
  have hne : e ≠ "" := by
    rintro rfl
    dsimp only [Plugin.run, Plugin.banUser] at hban
    rw [if_pos haddress] at hban
    cases hban
  have hfai : Faithful p.banned := faithful_of_run (faithful_nil hstart) hrun
  have hstep (p : Plugin) (step : PluginStep) (h : KeepsRecords env e p step)
      (hp : Faithful p.banned ∧ Restorable env.managedInboundTags t e p.file p.banned) :
      Faithful (p.run env step).1.banned ∧
        Restorable env.managedInboundTags t e (p.run env step).1.file (p.run env step).1.banned :=
    ⟨hp.1.run env step, hp.2.run he hne hp.1 h⟩
  have hbann := hstep p ⟨.banUser address, fails⟩ trivial ⟨hfai, hheld.restorable p.banned⟩
  rw [hban] at hbann
  have hend := hkeeps.invariant_of_guard
    (fun p => Faithful p.banned ∧ Restorable env.managedInboundTags t e p.file p.banned) hbann
    (fun p step p' hp hg hs => by
      cases hs
      exact hstep p step hg hp)
  exact hend.2.holdsAt_of_unban hne hend.1 haddress' hunban

/-- The user is added again under its email with a space, banned once more, and the ban of another email fails. -/
def bannedAgain : List PluginStep :=
  [⟨.addUser { email := "a " }, (· = .reload)⟩, ⟨.banUser "a", fun _ => false⟩, ⟨.banUser "b", (· = .check)⟩]

theorem soft_ban_can_be_lifted_twice :
    ∃ p₁ p₂ p₃ : Plugin, oneInboundPlugin.run oneInboundEnv ⟨.banUser " a", fun _ => false⟩ = (p₁, .ok ()) ∧
      Run (Guarded (KeepsRecords oneInboundEnv "a") (stepsTo (pluginStep oneInboundEnv))) p₁ bannedAgain p₂ ∧
      p₂.run oneInboundEnv ⟨.unbanUser "a", fun _ => false⟩ = (p₃, .ok ()) ∧ HoldsAt p₃.file "in" "a" := by
  let p₁ := (oneInboundPlugin.run oneInboundEnv ⟨.banUser " a", fun _ => false⟩).1
  have hban : oneInboundPlugin.run oneInboundEnv ⟨.banUser " a", fun _ => false⟩ = (p₁, .ok ()) :=
    Prod.ext rfl (by decide +kernel)
  obtain ⟨p₂, hke, hun⟩ : ∃ p₂, Run (Guarded (KeepsRecords oneInboundEnv "a") (stepsTo (pluginStep oneInboundEnv)))
      p₁ bannedAgain p₂ ∧ (p₂.run oneInboundEnv ⟨.unbanUser "a", fun _ => false⟩).2 = .ok () :=
    Run.exists_of_guardedExec (by decide +kernel)
  have hun' : p₂.run oneInboundEnv ⟨.unbanUser "a", fun _ => false⟩ = (_, .ok ()) := Prod.ext rfl hun
  exact ⟨p₁, p₂, _, hban, hke, hun',
    soft_ban_can_be_lifted rfl .nil (by decide +kernel) (by decide) hban hke (by decide) hun'⟩

/-- The plugin is started again during the ban: the email is gone for good. -/
theorem restart_makes_ban_permanent :
    ∃ p₁ p₂ p₃ : Plugin, HoldsAt oneInboundPlugin.file "in" "a" ∧
      oneInboundPlugin.run oneInboundEnv ⟨.banUser "a", fun _ => false⟩ = (p₁, .ok ()) ∧
      Run (stepsTo (pluginStep oneInboundEnv)) p₁ [⟨.restart, fun _ => false⟩] p₂ ∧
      p₂.run oneInboundEnv ⟨.unbanUser "a", fun _ => false⟩ = (p₃, .ok ()) ∧ ¬ HoldsAt p₃.file "in" "a" := by
  refine ⟨(oneInboundPlugin.run oneInboundEnv ⟨.banUser "a", fun _ => false⟩).1, _, _, by decide +kernel,
    Prod.ext rfl (by decide +kernel), .cons rfl .nil, Prod.ext rfl ?_, ?_⟩
  · decide +kernel
  · decide +kernel

/-! The records of a user in the managed inbounds. `BanUser` keeps the records that it removes by tag, and
`UnbanUser` puts the first record of a tag back into each inbound with the tag. -/

variable {record : Object} {recs : List (String × List Object)} {p : Plugin} {env : PluginEnv} {mutate : Mutation}

def recordsOf (addr : String) (ib : Object) : List Object := (inboundUsers ib).filter (userEmail · = addr)

theorem recordsOf_eq_nil : recordsOf addr ib = [] ↔ addr ∉ emailsOf ib := by
  rw [recordsOf, filter_eq_nil_iff, mem_emailsOf]
  simp

theorem mutateConfig_noFault {banned : Banned} {cand : Object} (hf : p.file = some (.obj doc))
    (h : mutate p.banned doc = (banned, .ok cand)) :
    p.mutateConfig env (fun _ => false) mutate = (⟨some (.obj cand), some (.obj cand), banned⟩, .ok ()) := by
  unfold Plugin.mutateConfig Plugin.commit
  have hr : readDocument false "config" env.configPath (some (.obj doc)) = .ok doc := rfl
  rw [hf, hr]
  dsimp only
  rw [h]
  rfl

/-- The records of the user that are kept under a tag after `BanUser`. -/
def keptUnder (p : Plugin) (ibs : List Object) (addr t : String) : List Object :=
  if ∀ ib ∈ ibs, recordsOf addr ib = [] then (((p.banned.lookup addr).getD []).lookup t).getD []
  else (ibs.filter (mapString · "tag" = t)).flatMap (recordsOf addr)

variable {ibs : List Object} {t : String}

theorem banRecords_eq_nil_iff : banRecords addr ibs = [] ↔ ∀ ib ∈ ibs, recordsOf addr ib = [] := by
  refine ⟨fun h ib hmem => ?_, fun h => banRecords_eq_nil fun ib hmem => recordsOf_eq_nil.1 (h ib hmem)⟩
  have hn : ((banRecords addr ibs).lookup (mapString ib "tag")).getD [] = [] := by rw [h]; rfl
  rw [lookup_banRecords, flatMap_eq_nil_iff] at hn
  exact hn ib (mem_filter.2 ⟨hmem, by simp⟩)

theorem lookup_banned : ((((if banRecords addr ibs = [] then p.banned
      else Assoc.put p.banned addr (banRecords addr ibs)).lookup addr).getD []).lookup t).getD [] =
      keptUnder p ibs addr t := by
  unfold keptUnder
  split_ifs with hn hrec hrec
  · rfl
  · exact absurd (banRecords_eq_nil_iff.1 hn) hrec
  · exact absurd (banRecords_eq_nil_iff.2 hrec) hn
  · rw [Assoc.lookup_put, if_pos rfl, Option.getD_some, lookup_banRecords]
    rfl

theorem userEmail_of_keptUnder (hban : Faithful p.banned)
    (h : record ∈ keptUnder p ibs addr t) : userEmail record = addr := by
  unfold keptUnder at h
  split_ifs at h
  · rcases hl : p.banned.lookup addr with - | recs
    · rw [hl] at h
      cases h
    · rw [hl] at h
      exact hban addr recs hl t record h
  · obtain ⟨ib, -, hrec⟩ := mem_flatMap.1 h
    exact of_decide_eq_true (mem_filter.1 hrec).2

theorem perm_replaced {found : List Object} :
    (inboundUsers ib).Perm (inboundUsers (removeFromInbound [addr] ib) ++ found) ↔ (recordsOf addr ib).Perm found := by
  have hsp := filter_append_perm (fun user => decide (userEmail user ∉ [addr])) (inboundUsers ib)
  have hrec : (inboundUsers ib).filter (fun user => !decide (userEmail user ∉ [addr])) =
      recordsOf addr ib := filter_congr fun user _ => by simp
  rw [hrec] at hsp
  unfold removeFromInbound
  rw [inboundUsers_write]
  exact Iff.trans ⟨hsp.trans, hsp.symm.trans⟩ (perm_append_left_iff _)

/-- The records are found again after a ban: each inbound has the first record that is kept under its tag, and no
other. -/
def Recoverable (p : Plugin) (ibs : List Object) (addr : String) : Prop :=
  ∀ ib ∈ ibs, recordsOf addr ib = (keptUnder p ibs addr (mapString ib "tag")).take 1

theorem perm_take_one {α : Type} {l m : List α} : l.Perm (m.take 1) ↔ l = m.take 1 := by
  rcases m with - | ⟨a, m⟩
  · rw [take_nil, perm_nil]
  · exact perm_singleton

theorem unbanUser_noFault (hf : p.file = some (.obj doc)) (hadd : trimSpace addr ≠ "") :
    ∃ after, (p.unbanUser env (fun _ => false) addr).1.file = some (.obj after) ∧
      managedInbounds after env.managedInboundTags = (managedInbounds doc env.managedInboundTags).map
        (restoreInbound (trimSpace addr) ((p.banned.lookup (trimSpace addr)).getD [])) := by
  unfold Plugin.unbanUser
  rw [if_neg hadd]
  rcases hl : p.banned.lookup (trimSpace addr) with - | ⟨- | ⟨entry, recs⟩⟩
  · rw [mutateConfig_noFault hf (by rw [hl])]
    exact ⟨doc, rfl, (map_id' _).symm⟩
  · rw [mutateConfig_noFault hf (by rw [hl])]
    exact ⟨doc, rfl, (map_id' _).symm⟩
  · rw [mutateConfig_noFault hf (by rw [hl])]
    exact ⟨_, rfl, (edited_updateManaged keepsKind_restoreInbound).managed⟩

/-- A ban and an unban leave every managed inbound with the same records exactly where each inbound has the one
record that the unban finds under its tag. -/
theorem ban_unban_inverse_iff (env : PluginEnv) (addr : String) (hf : p.file = some (.obj doc))
    (hbann : Faithful p.banned) :
    ∃ after, ((p.banUser env (fun _ => false) addr).1.unbanUser env (fun _ => false) addr).1.file =
        some (.obj after) ∧
      (Forall₂ (fun old new => (inboundUsers old).Perm (inboundUsers new))
          (managedInbounds doc env.managedInboundTags) (managedInbounds after env.managedInboundTags) ↔
        trimSpace addr = "" ∨ Recoverable p (managedInbounds doc env.managedInboundTags) (trimSpace addr)) := by
  by_cases hadd : trimSpace addr = ""
  · rw [Plugin.banUser, if_pos hadd, Plugin.unbanUser, if_pos hadd]
    exact ⟨doc, hf, iff_of_true (forall₂_same.2 fun _ _ => .refl _) (.inl hadd)⟩
  have hban : (p.banUser env (fun _ => false) addr).1 = _ :=
    congrArg Prod.fst ((if_neg hadd).trans (mutateConfig_noFault hf rfl))
  obtain ⟨after, haf, hman⟩ := unbanUser_noFault (congrArg Plugin.file hban) hadd
  refine ⟨after, haf, ?_⟩
  have hke : KeepsKind (removeFromInbound [trimSpace addr]) := keepsKind_write _
  rw [hman, (edited_updateManaged hke).managed, map_map, forall₂_map_right_iff, forall₂_same, or_iff_right hadd, hban]
  refine forall₂_congr fun ib _ => ?_
  have htag : mapString (removeFromInbound [trimSpace addr] ib) "tag" = mapString ib "tag" := hke ib "tag" (by decide)
  have hkep : _ = keptUnder p (managedInbounds doc env.managedInboundTags) (trimSpace addr)
    (mapString ib "tag") := lookup_banned
  have habs : trimSpace addr ∉ emailsOf (removeFromInbound [trimSpace addr] ib) := fun hmem =>
    (mem_removeFromInbound.1 hmem).2 (by simp)
  rw [Function.comp_apply, inboundUsers_restoreInbound, if_neg habs, perm_replaced, htag, hkep, perm_take_one]
  intro record hrec
  rw [htag, hkep] at hrec
  exact userEmail_of_keptUnder hbann hrec

theorem ban_unban_inverse_oneInbound :
    ∃ doc after, oneInboundPlugin.file = some (.obj doc) ∧
      ((oneInboundPlugin.banUser oneInboundEnv (fun _ => false) "a").1.unbanUser oneInboundEnv
        (fun _ => false) "a").1.file =
        some (.obj after) ∧
      Forall₂ (fun old new => (inboundUsers old).Perm (inboundUsers new)) (managedInbounds doc [])
        (managedInbounds after []) := by
  obtain ⟨after, haf, hiff⟩ := ban_unban_inverse_iff (p := oneInboundPlugin) oneInboundEnv "a" rfl (faithful_nil rfl)
  refine ⟨_, after, rfl, haf, hiff.2 (.inr ?_)⟩
  unfold Recoverable
  decide +kernel

def untagged : Object :=
  [("inbounds", .arr [.obj [("type", .str "vless"), ("users", .arr [.obj [("name", .str "a"), ("uuid", .str "id-a")]])],
    .obj [("type", .str "vless"), ("users", .arr [])]])]

/-- The unban puts the record of the first inbound into the second, too. -/
theorem ban_unban_untagged :
    ∃ after, (((⟨some (.obj untagged), none, []⟩ : Plugin).banUser oneInboundEnv (fun _ => false) "a").1.unbanUser
        oneInboundEnv (fun _ => false) "a").1.file = some (.obj after) ∧
      ¬ Forall₂ (fun old new => (inboundUsers old).Perm (inboundUsers new)) (managedInbounds untagged [])
        (managedInbounds after []) := by
  refine ⟨_, rfl, ?_⟩
  decide +kernel

variable {users : List VPNUserConfig} {source : Object} {p' : Plugin} {fails : Faults}

/-- The user stands in a managed inbound with the tag. -/
def ListedAt (tags : List String) (doc : Object) (t addr : String) : Prop :=
  ∃ ib ∈ managedInbounds doc tags, mapString ib "tag" = t ∧ addr ∈ emailsOf ib

theorem syncSource_eq_ok (h : p.syncSource env fails = .ok doc) :
    (if env.templatePath ≠ "" then env.template else p.file) = some (.obj doc) := by
  unfold Plugin.syncSource at h
  split_ifs at h with hf htem
  · rw [if_pos htem, readDocument_eq_ok h]
  · rw [if_neg htem, readDocument_eq_ok h]

theorem keepsKind_syncInbound : KeepsKind (syncInbound (desiredUsers users) false) := keepsKind_write _

theorem managedInbounds_synced (h : p.syncUsers env fails users false = (p', .ok ())) :
    ∃ source after, (if env.templatePath ≠ "" then env.template else p.file) = some (.obj source) ∧
      p'.file = some (.obj after) ∧ managedInbounds after env.managedInboundTags =
        (managedInbounds source env.managedInboundTags).map (syncInbound (desiredUsers users) false) := by
  rcases Plugin.commit_cases h with ⟨hr, -⟩ | ⟨source, after, hsou, hm, hf, -⟩
  · exact absurd rfl hr
  refine ⟨source, after, syncSource_eq_ok hsou, hf, ?_⟩
  split_ifs at hm
  · exact absurd (congrArg Prod.snd hm) (by simp)
  obtain rfl := Except.ok.inj (congrArg Prod.snd hm)
  exact (edited_updateManaged keepsKind_syncInbound).managed

/-- After a sync that keeps the orphans a named user of the deployed config is where it was exactly if the sync lists
it or the document that it starts from has it there; without a template this is the deployed config. -/
theorem sync_keeps_iff {deployed : Object} (hf : p.file = some (.obj deployed))
    (hsou : (if env.templatePath ≠ "" then env.template else p.file) = some (.obj source))
    (hta : ∀ t, t ∈ (managedInbounds deployed env.managedInboundTags).map (mapString · "tag") →
      t ∈ (managedInbounds source env.managedInboundTags).map (mapString · "tag"))
    (h : p.syncUsers env fails users false = (p', .ok ())) :
    ∃ after, p'.file = some (.obj after) ∧
      (∀ t addr, addr ≠ "" → ListedAt env.managedInboundTags deployed t addr →
        (ListedAt env.managedInboundTags after t addr ↔
          (∃ user ∈ users, trimSpace user.email = addr) ∨ ListedAt env.managedInboundTags source t addr)) ∧
      (env.templatePath = "" → Forall₂ (fun old new => ∀ addr ≠ "", addr ∈ emailsOf old → addr ∈ emailsOf new)
        (managedInbounds deployed env.managedInboundTags) (managedInbounds after env.managedInboundTags)) := by
  obtain ⟨source', after, hsou', haf, hman⟩ := managedInbounds_synced h
  obtain rfl : source = source' := by simpa using hsou.symm.trans hsou'
  refine ⟨after, haf, fun t addr hne hold => ?_, fun htem => ?_⟩
  · unfold ListedAt
    rw [hman]
    refine ⟨?_, ?_⟩
    · rintro ⟨_, hnew, hat, hmem⟩
      obtain ⟨ib, hinb, rfl⟩ := mem_map.1 hnew
      rw [keepsKind_syncInbound ib "tag" (by decide)] at hat
      exact ((mem_syncInbound hne).1 hmem).imp_right fun hmem => ⟨ib, hinb, hat, hmem.2⟩
    · intro hke
      -- an inbound of the tag that has the user, if there is one
      obtain ⟨ib, hinb, hat, hmem⟩ : ∃ ib ∈ managedInbounds source env.managedInboundTags,
          mapString ib "tag" = t ∧ ((∃ user ∈ users, trimSpace user.email = addr) ∨ false = false ∧
            addr ∈ emailsOf ib) := by
        rcases hke with hlis | ⟨ib, hinb, hat, hmem⟩
        · obtain ⟨old, hmem, rfl, -⟩ := hold
          obtain ⟨ib, hinb, hat⟩ := mem_map.1 (hta _ (mem_map_of_mem hmem))
          exact ⟨ib, hinb, hat, .inl hlis⟩
        · exact ⟨ib, hinb, hat, .inr ⟨rfl, hmem⟩⟩
      refine ⟨_, mem_map_of_mem hinb, ?_, (mem_syncInbound hne).2 hmem⟩
      rw [keepsKind_syncInbound ib "tag" (by decide), hat]
  · rw [if_neg (not_not.2 htem), hf] at hsou
    cases hsou
    rw [hman, forall₂_map_right_iff, forall₂_same]
    exact fun ib _ addr hne hmem => (mem_syncInbound hne).2 (.inr ⟨rfl, hmem⟩)

theorem sync_keeps_oneInbound :
    ∃ p' deployed after, oneInboundPlugin.syncUsers oneInboundEnv (fun _ => false) [] false = (p', .ok ()) ∧
      oneInboundPlugin.file = some (.obj deployed) ∧ p'.file = some (.obj after) ∧ ListedAt [] deployed "in" "a" ∧
      ListedAt [] after "in" "a" := by
  have hsy : oneInboundPlugin.syncUsers oneInboundEnv (fun _ => false) [] false = (_, .ok ()) :=
    Prod.ext rfl (by decide +kernel)
  obtain ⟨after, haf, hke, -⟩ := sync_keeps_iff rfl rfl (fun _ ht => ht) hsy
  refine ⟨_, _, after, hsy, rfl, haf, ?_, (hke "in" "a" (by decide) ?_).2 (.inr ?_)⟩
  all_goals
    unfold ListedAt
    decide +kernel

/-- With a template that has no users yet, the deployed user is lost. -/
theorem sync_from_template_loses :
    ∃ p' deployed after, oneInboundPlugin.syncUsers
        ⟨"config.json", "template.json", some (.obj [("inbounds", .arr [.obj [("type", .str "vless"),
          ("tag", .str "in")]])]), []⟩
        (fun _ => false) [] false = (p', .ok ()) ∧
      oneInboundPlugin.file = some (.obj deployed) ∧ p'.file = some (.obj after) ∧ ListedAt [] deployed "in" "a" ∧
      ¬ ListedAt [] after "in" "a" := by
  refine ⟨_, _, _, Prod.ext rfl (by decide +kernel), rfl, rfl, ?_⟩
  unfold ListedAt
  decide +kernel

/-- The tag and the type of each inbound, in their order, and the whole inbound where it is not managed. -/
def layout (tags : List String) (document : Object) : List (String × String × Option Object) :=
  (inboundsOf document).map fun inbound =>
    (mapString inbound "tag", mapString inbound "type", if isManaged tags inbound then none else some inbound)

theorem Edited.layout {tags : List String} {cand : Object} {change : Object → Object}
    (h : Edited tags change doc cand) : layout tags cand = layout tags doc := by
  unfold SingBox.layout
  rw [h.inbounds, map_map]
  refine map_congr_left fun ib _ => ?_
  dsimp only [Function.comp_apply]
  by_cases hman : isManaged tags ib
  · simp only [hman, if_true, h.kind.isManaged, h.kind ib "tag" (by decide), h.kind ib "type" (by decide)]
  · rw [if_neg hman]

/-- The config has the layout of `deployed`, or of the template if there is one. -/
def LaidOut (env : PluginEnv) (deployed : Object) (file : Option Raw) : Prop := ∃ doc base, file = some (.obj doc) ∧
  layout env.managedInboundTags doc = layout env.managedInboundTags base ∧
  (base = deployed ∨ env.templatePath ≠ "" ∧ env.template = some (.obj base))

theorem laidOut_run {deployed : Object} (h : LaidOut env deployed p.file) :
    LaidOut env deployed (p.run env step).1.file := by
  by_cases hre : step.call = .restart
  · rw [Plugin.run, hre]
    exact h
  rcases p.run_outcome env step hre with ⟨hf, -⟩ | ⟨doc, cand, hsou, ⟨change, hed, -⟩, -, hf, -⟩ <;> rw [hf]
  · exact h
  rcases hsou with hdoc | ⟨-, htem⟩
  · obtain ⟨doc', base, heq, hlay, hba⟩ := h
    obtain rfl : doc = doc' := by simpa [hdoc] using heq
    exact ⟨cand, base, rfl, hed.layout.trans hlay, hba⟩
  · exact ⟨cand, doc, rfl, hed.layout, .inr htem⟩

/-- In every run, whichever calls fail and wherever, the config keeps the inbounds of the deployed config or of the
template: their order, tags and types, and the whole of each inbound that is not managed. -/
theorem layout_kept (env : PluginEnv) (p p' : Plugin) (deployed : Object) (tr : List PluginStep)
    (hfile : p.file = some (.obj deployed)) (hrun : Run (stepsTo (pluginStep env)) p tr p') :
    LaidOut env deployed p'.file := by
  refine hrun.invariant (LaidOut env deployed ·.file) ⟨deployed, deployed, hfile, rfl, .inl rfl⟩ fun p step p' hp hs => ?_
  cases hs
  exact laidOut_run hp

theorem layout_kept_unreloaded : ∃ p' deployed, Run (stepsTo (pluginStep oneInboundEnv)) oneInboundPlugin
      [⟨.removeUser "a", (· = .reload)⟩, ⟨.syncUsers [] true, fun _ => false⟩] p' ∧
    oneInboundPlugin.file = some (.obj deployed) ∧ LaidOut oneInboundEnv deployed p'.file :=
  ⟨_, _, .cons rfl (.cons rfl .nil), rfl, layout_kept _ _ _ _ _ rfl (.cons rfl (.cons rfl .nil))⟩

end Xraytool.SingBox
