import Mathlib
import Xraytool.Sanity.XraySync

/-! When two users give the same client, and when a synchronisation leaves a client alone. A client is made of the
subscription file, the end, the limit and one secret, which the protocol of the inbound chooses. -/

namespace Xraytool.Xray

open Fallible List

variable {ext : Externals} {ib : RawMap} {p q : ClientParams}

theorem lookup_metadataFields_optional (params : ClientParams) :
    (metadataFields params).lookup "subfile" = (if params.subfile ≠ "" then some (.str params.subfile) else none) ∧
    (metadataFields params).lookup "expire" = (if params.expire ≠ "" then some (.str params.expire) else none) ∧
    (metadataFields params).lookup "limit" = params.limit.map fun limit => .num (toString limit) := by
  unfold metadataFields
  cases params.limit <;> split_ifs <;> simp [Assoc.lookup_put, Assoc.lookup_cons]

theorem optional_text_inj {a b : String}
    (h : (if a ≠ "" then some (Json.str (ν := String) a) else none) = if b ≠ "" then some (.str b) else none) : a = b := by
  split_ifs at h with ha hb hb
  · simpa using h
  · simp only [ne_eq, not_not] at ha hb
    rw [ha, hb]

/-- For the same email and flow, two users give the same client exactly if they agree in what it is made of. -/
theorem same_built_iff {built : RawMap} (hem : p.email = q.email) (hfl : p.flow = q.flow)
    (hbu : buildClient ext ib p = .ok built) :
    (∃ built', buildClient ext ib q = .ok built' ∧ built.Same built') ↔
      p.subfile = q.subfile ∧ p.expire = q.expire ∧ p.limit = q.limit ∧
        secretAt ext (protocol ib) p.email p.uuid p.auth = secretAt ext (protocol ib) q.email q.uuid q.auth := by
  have hvl : vlessFlow ib p = vlessFlow ib q := by rw [vlessFlow, vlessFlow, hfl]
  constructor
  · rintro ⟨built', hbu', hsa⟩
    have hme {k : String} (hk : k ∈ ["email", "subfile", "expire", "limit"]) :
        (metadataFields p).lookup k = (metadataFields q).lookup k := by
      rw [← get_built_metadata hbu hk, ← get_built_metadata hbu' hk]
      exact hsa k
    obtain ⟨hsub, hexp, hli⟩ := lookup_metadataFields_optional p
    obtain ⟨hsub', hexp', hli'⟩ := lookup_metadataFields_optional q
    rw [hme (by decide)] at hsub hexp hli
    refine ⟨optional_text_inj (hsub.symm.trans hsub'), optional_text_inj (hexp.symm.trans hexp'), ?_, ?_⟩
    · exact Option.map_injective (fun a b hab => Int.repr_injective (Json.num.inj hab)) (hli.symm.trans hli')
    have hsec := hsa (secretKey (protocol ib))
    rw [get_built hbu secretKey_notMem, get_built hbu' secretKey_notMem, if_pos rfl, if_pos rfl] at hsec
    simpa using hsec
  · rintro ⟨hsub, hexp, hli, hsec⟩
    have hme : metadataFields p = metadataFields q := by
      rw [metadataFields, metadataFields, hem, hsub, hexp, hli]
    refine ⟨built, ?_, fun _ => rfl⟩
    rw [buildClient, map_eq_ok] at hbu ⊢
    obtain ⟨fields, hfie, rfl⟩ := hbu
    rw [credentials_eq_ok, hsec, hvl] at hfie
    exact ⟨fields, credentials_eq_ok.2 hfie, by rw [hme]⟩

theorem sameClient_of_same {c c' : RawMap} (h : c.Same c') : sameClient c c' = true := by
  rw [sameClient, all_eq_true]
  intro key _
  simpa using h key

variable {ibs : List RawMap} {previous : List (String × List (String × RawMap))}

theorem clientChange_keep {cs : List RawMap} {c built : RawMap} (hno : (ibs.map tag).Nodup)
    (hpre : previousClients ibs = .ok previous) (hmem : ib ∈ ibs)
    (hcli : getClients ib = .ok (some cs))
    (hone : cs.filter (email · = email built) = [c]) (hsa : c.Same built) :
    clientChange (Assoc.ofList previous) ⟨tag ib, built⟩ = .keep := by
  unfold clientChange
  split
  · rfl
  rename_i hsk
  push Not at hsk
  obtain ⟨htag, -, hadd⟩ := hsk
  have hc : c ∈ cs ∧ email c = email built := by
    have hc : c ∈ cs.filter (email · = email built) := by simp [hone]
    simpa using hc
  obtain ⟨-, rfl⟩ := Machine.previousClients_eq_ok.1 hpre
  have hkey : email built ∈ (((cs.filter (email · ≠ "")).map fun c => (email c, c)).map Prod.fst) := by
    simp only [map_map, mem_map, mem_filter, decide_eq_true_eq]
    exact ⟨c, ⟨hc.1, hc.2 ▸ hadd⟩, hc.2⟩
  obtain ⟨found, hfo⟩ := Assoc.exists_lookup_ofList hkey
  have heq : found = c := by
    obtain ⟨c', hc', heq⟩ := mem_map.1 (Assoc.mem_of_lookup_ofList hfo)
    obtain ⟨hadd', rfl⟩ := Prod.mk.inj heq
    have hin : c' ∈ cs.filter (email · = email built) := by
      simp [hadd', mem_of_mem_filter hc']
    rw [hone] at hin
    exact mem_singleton.1 hin
  rw [(Assoc.lookup_ofList (hno.sublist tags_entries)).2 (mem_entries hmem htag hcli), Option.getD_some, hfo, heq]
  dsimp only
  rw [if_pos (sameClient_of_same hsa)]

end Xraytool.Xray
