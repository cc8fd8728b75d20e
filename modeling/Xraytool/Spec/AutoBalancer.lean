import Xraytool.Spec.Strings

/-! The profile that the template compiler of the auto-balancer plugin makes of a base profile and the members
(`compileBalancer`): the outbounds, the routing rules and the addresses of the DNS servers. What a rule matches is a
parameter, and so is whether a destination has an address. -/

namespace Xraytool.AutoBalancer

/-- An outbound; a missing tag is empty, and `settings` are the other fields. -/
structure Outbound where
  tag : String
  protocol : String
  settings : String := ""
  deriving DecidableEq

structure Rule (δ : Type) where
  applies : δ → Bool
  ip : Option (List String) := none
  outboundTag : Option String := none
  balancerTag : Option String := none

structure Profile (δ : Type) where
  outbounds : List Outbound
  rules : List (Rule δ)
  /-- `dnsServerIPs` -/
  dnsIPs : List String := []

def isNonProxyProtocol (value : String) : Bool := toLower (trimSpace value) ∈ ["", "freedom", "blackhole", "dns"]

/-- A resolved member; the endpoint of a server is a proxy (`decodeProxyOutbound`, `selectedProxyOutbound`). -/
structure Member where
  id : String
  endpoint : Outbound
  proxy : isNonProxyProtocol endpoint.protocol = false

def sanitizeTagPart (value : String) : String :=
  String.ofList (value.toList.map fun char => if char.isAlphanum then char else '_')

def generatedTag (balancerID serverID : String) (index : Nat) : String :=
  "ab_" ++ sanitizeTagPart balancerID ++ "_" ++ sanitizeTagPart serverID ++ "_" ++ toString (index + 1)

variable {δ : Type}

def supportingOutbounds (profile : Profile δ) : List Outbound :=
  profile.outbounds.filter fun outbound => isNonProxyProtocol outbound.protocol

def hasOutboundTag (outbounds : List Outbound) (tag : String) : Bool := outbounds.any (·.tag = tag)

/-- The tags of rules that are left as they are. -/
def keptTags : List String := ["direct", "block", "dns-out"]

def Rule.rewritten (balancerTag : String) (rule : Rule δ) : Rule δ :=
  if rule.outboundTag.any (· ∉ keptTags) then { rule with outboundTag := none, balancerTag := some balancerTag }
  else { rule with balancerTag := rule.balancerTag.map fun _ => balancerTag }

def Rule.isBalancerRule (rule : Rule δ) : Bool := rule.outboundTag.any (· ∉ keptTags) || rule.balancerTag.isSome

def routingForBalancer (profile : Profile δ) (balancerTag : String) : List (Rule δ) :=
  profile.rules.map (.rewritten balancerTag) ++
    if profile.rules.any Rule.isBalancerRule then []
    -- the networks tcp and udp, which is every destination
    else [{ applies := fun _ => true, balancerTag := some balancerTag }]

def hasDirectDNSRule : List (Rule δ) → List String → Bool
  | [], _ => false
  | rule :: rules, wanted =>
    match rule.outboundTag, rule.ip with
    | some "direct", some ips =>
      let wanted := wanted.filter (· ∉ ips)
      wanted = [] || hasDirectDNSRule rules wanted
    | _, _ => hasDirectDNSRule rules wanted

def ensureFullConfigCompatibility (hasAddress : String → δ → Bool) (dnsIPs : List String) (rules : List (Rule δ)) :
    List (Rule δ) :=
  if dnsIPs = [] ∨ hasDirectDNSRule rules dnsIPs then rules
  else { applies := fun d => dnsIPs.any (hasAddress · d), ip := some dnsIPs, outboundTag := some "direct" } :: rules

/-- The rest of `compileBalancer`, from the resolved members on. -/
def compileBalancer (hasAddress : String → δ → Bool) (id : String) (members : List Member) (profile : Profile δ) :
    Profile δ where
  outbounds :=
    let outbounds := members.mapIdx (fun index value =>
      { value.endpoint with tag := generatedTag id value.id index }) ++ supportingOutbounds profile
    if hasOutboundTag outbounds "direct" then outbounds else outbounds ++ [{ tag := "direct", protocol := "freedom" }]
  rules := ensureFullConfigCompatibility hasAddress profile.dnsIPs (routingForBalancer profile ("autobalancer_" ++ id))
  dnsIPs := profile.dnsIPs

end Xraytool.AutoBalancer
