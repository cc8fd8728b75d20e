import Xraytool.Spec.AutoBalancer

/-! Where the profile of an auto-balancer sends a destination. The compiler rewrites rules by the tag they name and keeps
outbounds by their protocol, so a decision is kept if the two agree. -/

namespace Xraytool.AutoBalancer

open List Option

inductive Target where
  | outbound (outbound : Outbound)
  | balancer (tag : String)
  deriving DecidableEq

/-- What becomes of a target of the base profile. -/
def Target.balanced (balancerTag : String) : Target → Target
  | .outbound o => if isNonProxyProtocol o.protocol then .outbound o else .balancer balancerTag
  | .balancer _ => .balancer balancerTag

variable {δ : Type}

def Rule.target (outbounds : List Outbound) (rule : Rule δ) : Option Target :=
  match rule.outboundTag.filter (· != "") with
  | some tag => (outbounds.find? (·.tag = tag)).map .outbound
  | none => rule.balancerTag.map .balancer

/-- Xray's routing: the first rule that applies, and without one the first outbound. -/
def Profile.target (p : Profile δ) (d : δ) : Option Target :=
  match p.rules.find? (·.applies d) with
  | some rule => rule.target p.outbounds
  | none => p.outbounds.head?.map .outbound

/-- The outbound that a rule names has one of the three tags if it is no proxy, and only then; without a rule, it is a
proxy, and no rule leads to a balancer. -/
def Agrees (p : Profile δ) (d : δ) : Prop :=
  ∀ o, p.target d = some (.outbound o) →
    if p.rules.any (·.applies d) then o.tag ∈ keptTags ↔ isNonProxyProtocol o.protocol
    else ¬isNonProxyProtocol o.protocol ∧ ¬p.rules.any Rule.isBalancerRule

variable {hasAddress : String → δ → Bool} {id tag : String} {members : List Member} {base : Profile δ} {d : δ}
  {rule : Rule δ} {o : Outbound} {target : Target} {outbounds outbounds' : List Outbound}

theorem generatedTag_notMem_keptTags {serverID : String} {index : Nat} : generatedTag id serverID index ∉ keptTags := by
  intro h
  have hhe : (generatedTag id serverID index).toList.head? ∈ keptTags.map (·.toList.head?) := mem_map_of_mem h
  simp [generatedTag, keptTags] at hhe

theorem find_outbound (htag : tag ∈ keptTags) (hfi : base.outbounds.find? (·.tag = tag) = some o)
    (ho : isNonProxyProtocol o.protocol) :
    (compileBalancer hasAddress id members base).outbounds.find? (·.tag = tag) = some o := by
  have hmem : (members.mapIdx fun index value =>
      { value.endpoint with tag := generatedTag id value.id index }).find? (·.tag = tag) = none := by
    rw [find?_eq_none]
    intro outbound hout heq
    obtain ⟨index, _, rfl⟩ := mem_mapIdx.1 hout
    exact generatedTag_notMem_keptTags (of_decide_eq_true heq ▸ htag)
  have hke : (supportingOutbounds base).find? (·.tag = tag) = some o := by
    obtain ⟨htag, before, after, hsp, hbef⟩ := find?_eq_some_iff_append.1 hfi
    rw [supportingOutbounds, find?_filter, hsp, find?_append, find?_eq_none.2, none_or, find?_cons_of_pos]
    · simpa [ho] using htag
    · intro outbound hout
      simpa using fun _ => by simpa using hbef outbound hout
  unfold compileBalancer
  dsimp only
  split_ifs <;> simp [find?_append, hmem, hke]

theorem head_outbounds (hasAddress : String → δ → Bool) (id : String) (base : Profile δ) (hmem : members ≠ []) :
    ∃ (value : Member) (tag : String), (compileBalancer hasAddress id members base).outbounds.head? =
      some { value.endpoint with tag := tag } := by
  obtain ⟨value, rest, rfl⟩ := exists_cons_of_ne_nil hmem
  refine ⟨value, generatedTag id value.id 0, ?_⟩
  unfold compileBalancer
  dsimp only
  split_ifs <;> simp [mapIdx_cons]

theorem find_rule (hdns : ∀ ip ∈ base.dnsIPs, hasAddress ip d = false) :
    (compileBalancer hasAddress id members base).rules.find? (·.applies d) =
      ((base.rules.find? (·.applies d)).map (.rewritten ("autobalancer_" ++ id))).or
        (if base.rules.any Rule.isBalancerRule then none
          else some { applies := fun _ => true, balancerTag := some ("autobalancer_" ++ id) }) := by
  have hru : (compileBalancer hasAddress id members base).rules.find? (·.applies d) =
      (routingForBalancer base ("autobalancer_" ++ id)).find? (·.applies d) := by
    unfold compileBalancer ensureFullConfigCompatibility
    split_ifs
    · rfl
    · rw [find?_cons_of_neg]
      simpa using hdns
  have happ (rule : Rule δ) : (rule.rewritten ("autobalancer_" ++ id)).applies = rule.applies := by
    unfold Rule.rewritten
    split_ifs <;> rfl
  rw [hru, routingForBalancer, find?_append, find?_map]
  simp only [Function.comp_def, happ]
  split_ifs <;> rfl

theorem target_rewritten_iff (h : rule.target outbounds = some target)
    (hfi : ∀ tag o, tag ∈ keptTags → outbounds.find? (·.tag = tag) = some o → isNonProxyProtocol o.protocol →
      outbounds'.find? (·.tag = tag) = some o) :
    (rule.rewritten tag).target outbounds' = some (target.balanced tag) ↔
      ∀ o, target = .outbound o → (o.tag ∈ keptTags ↔ isNonProxyProtocol o.protocol) := by
  unfold Rule.target at h
  split at h
  · next named hna =>
    obtain ⟨o, ho, rfl⟩ := map_eq_some_iff.1 h
    obtain ⟨hso, hne⟩ := filter_eq_some_iff.1 hna
    obtain rfl : o.tag = named := by simpa using find?_some ho
    by_cases hke : o.tag ∈ keptTags <;> by_cases hpr : isNonProxyProtocol o.protocol
    · simpa [Rule.rewritten, Rule.target, Target.balanced, filter_some, hne, hso, hke, hpr] using
        hfi _ o hke ho hpr
    all_goals simp [Rule.rewritten, Rule.target, Target.balanced, filter_some, hne, hso, hke, hpr]
  · next hn =>
    obtain ⟨old, hold, rfl⟩ := map_eq_some_iff.1 h
    unfold Rule.rewritten
    split_ifs <;> simp [Rule.target, Target.balanced, hn, hold]

/-- The profile of a balancer keeps the decision of its base for a destination, a proxy or a balancer becoming the new
balancer, exactly if tag and protocol agree there. -/
theorem decision_kept_iff (hasAddress : String → δ → Bool) (id : String) (members : List Member) (base : Profile δ)
    (d : δ) (hmembers : members ≠ []) (hdns : ∀ ip ∈ base.dnsIPs, hasAddress ip d = false) :
    (∀ target ∈ base.target d, (compileBalancer hasAddress id members base).target d =
      some (target.balanced ("autobalancer_" ++ id))) ↔ Agrees base d := by
  unfold Agrees Profile.target
  rw [find_rule hdns]
  rcases hru : base.rules.find? (·.applies d) with _ | rule <;> rw [hru]
  · have hany : base.rules.any (·.applies d) = false := by simpa using hru
    obtain ⟨value, tag, hfi⟩ := head_outbounds hasAddress id base hmembers
    rcases base.outbounds.head? with _ | o
    · simp
    have hne : isNonProxyProtocol o.protocol → ¬{ value.endpoint with tag := tag } = o := by
      rintro ho rfl
      rw [value.proxy] at ho
      contradiction
    by_cases hbal : base.rules.any Rule.isBalancerRule <;> by_cases ho : isNonProxyProtocol o.protocol <;>
      simp [hany, hbal, hfi, ho, hne, Target.balanced, Rule.target]
  · have hany : base.rules.any (·.applies d) = true := by rw [← isSome_find?, hru]; rfl
    simp only [hany, if_true, map_some, some_or]
    constructor
    · intro h o ho
      exact (target_rewritten_iff ho fun _ _ => find_outbound).1 (h _ ho) o rfl
    · intro h target htar
      exact (target_rewritten_iff htar fun _ _ => find_outbound).2 fun o ho => h o (ho ▸ htar)

/-! Two of the outbounds are no proxies, one of them under a tag of its own. -/

def homeProfile : Profile String where
  outbounds := [⟨"proxy", "vless", ""⟩, ⟨"direct", "freedom", ""⟩, ⟨"lan", "freedom", ""⟩]
  rules := [{ applies := (· == "bank"), outboundTag := some "direct" },
    { applies := (· == "printer"), outboundTag := some "lan" }]

def twoMembers : List Member :=
  [⟨"s1", ⟨"proxy", "vless", ""⟩, by decide +kernel⟩, ⟨"s2", ⟨"proxy", "trojan", ""⟩, by decide +kernel⟩]

theorem decision_kept_iff_bank : homeProfile.target "bank" = some (.outbound ⟨"direct", "freedom", ""⟩) ∧
    ∀ target ∈ homeProfile.target "bank", (compileBalancer (· == ·) "b" twoMembers homeProfile).target "bank" =
      some (target.balanced "autobalancer_b") := by
  have htar : homeProfile.target "bank" = some (.outbound ⟨"direct", "freedom", ""⟩) := by decide +kernel
  refine ⟨htar, (decision_kept_iff _ _ _ _ _ (cons_ne_nil _ _) (forall_mem_nil _)).2 fun o ho => ?_⟩
  cases ho
  decide +kernel

theorem decision_lost : (homeProfile.outbounds.map (·.tag)).Nodup ∧
    homeProfile.target "printer" = some (.outbound ⟨"lan", "freedom", ""⟩) ∧
    (compileBalancer (· == ·) "b" twoMembers homeProfile).target "printer" = some (.balancer "autobalancer_b") := by
  decide +kernel

end Xraytool.AutoBalancer
