import Mathlib.Data.Finset.Max
import Mathlib.Tactic.Linarith
import Xraytool.Lib.Mirror
import Xraytool.Spec.Antifraud
import Xraytool.Spec.Workers

/-! Bans and the cleaner. The cleaner deletes by email what it has found expired earlier, and a ban that `enforce` has
stored in the meantime goes with it. -/

namespace Xraytool

open Fallible Transition List

variable {bannedAt expiresAt : Time} {fails : Bool}

theorem upsertBan_rows {s : Store} {email : String} :
    (∃ b ∈ (s.upsertBan email bannedAt expiresAt).bans.rows, b.email = email ∧ b.expiresAt = expiresAt) ∧
      ∀ b ∈ s.bans.rows, b.email ≠ email → b ∈ (s.upsertBan email bannedAt expiresAt).bans.rows := by
  unfold Store.upsertBan
  cases hins : s.bans.insert ⟨s.bans.nextKey (·.id), email, bannedAt, expiresAt⟩ with
  | some bans =>
    obtain ⟨-, hro⟩ := Table.insert_eq_some hins
    rw [hro]
    exact ⟨⟨_, mem_append_right _ (mem_singleton_self _), rfl, rfl⟩, fun b hb _ => mem_append_left _ hb⟩
  | none =>
    -- the id is new, so the violated index is the one on the email
    obtain ⟨b, hb, hem⟩ : ∃ b ∈ s.bans.rows, b.email = email := by
      by_contra hn
      obtain ⟨bans, hba, -⟩ := Table.insert_of_fresh (t := s.bans)
        (r := ⟨s.bans.nextKey (·.id), email, bannedAt, expiresAt⟩) fun b hb hcl => by
          rcases hcl with hid | hem
          · exact absurd hid (Table.key_lt_nextKey hb).ne
          · exact hn ⟨b, hb, hem⟩
      rw [hba] at hins
      cases hins
    dsimp only
    constructor
    · exact ⟨_, (Table.mem_updateWhere _).2 ⟨b, hb, if_pos (by simpa using hem)⟩, hem, rfl⟩
    · intro b hb hne
      exact (Table.mem_updateWhere _).2 ⟨b, hb, if_neg (by simpa using hne)⟩

/-- The emails whose bans the cleaner has found expired and is not yet through with. -/
def CleanerPoint.pending : CleanerPoint → List String
  | .idle => []
  | .findSubscription email rest | .findUser email _ rest | .unbanUser email rest | .deleteBan email rest
  | .clearBan email rest => email :: rest

/-- No ban is stored for an email that the cleaner is not yet through with. -/
def StoresApart (st : BanScene) : Time × BanAction → Prop
  | (_, .enforceCall fails) => match st.analyzer with
    | .upsert email _ _ => fails = false → email ∉ st.cleaner.pending
    | _ => True
  | _ => True

instance (st : BanScene) (l : Time × BanAction) : Decidable (StoresApart st l) := by
  unfold StoresApart
  split
  · split <;> infer_instance
  · infer_instance

/-- A ban that was stored and has not expired is in the database, and in the ban store unless the analyzer is about to
put it there; the cleaner has not found it. -/
structure BanKept (st : BanScene) (email : String) (expiresAt : Time) : Prop where
  row : ∃ b ∈ st.store.bans.rows, b.email = email ∧ b.expiresAt = expiresAt
  entry : st.bans.lookup email = some expiresAt ∨ st.analyzer = .setBan email expiresAt
  fresh : email ∉ st.cleaner.pending

structure BansKept (st : BanScene) (now : Time) : Prop where
  kept : ∀ email expiresAt, st.enforced.lookup email = some expiresAt → now < expiresAt → BanKept st email expiresAt
  setting : ∀ email expiresAt, st.analyzer = .setBan email expiresAt → st.enforced.lookup email = some expiresAt

variable {st st' : BanScene} {now now' : Time}

theorem BansKept.mono (h : BansKept st now) (hle : now ≤ now') : BansKept st now' :=
  ⟨fun email expiresAt he hlt => h.kept email expiresAt he (hle.trans_lt hlt), h.setting⟩

/-- The analyzer has moved and is not about to change the ban store, before or after. -/
theorem BansKept.ofAnalyzer (h : BansKept st now) {analyzer : EnforcePoint}
    (hold : ∀ email expiresAt, st.analyzer ≠ .setBan email expiresAt)
    (hnew : ∀ email expiresAt, analyzer ≠ .setBan email expiresAt) : BansKept { st with analyzer := analyzer } now := by
  refine ⟨fun email expiresAt he hlt => ?_, fun email expiresAt hset => absurd hset (hnew email expiresAt)⟩
  have hke := h.kept email expiresAt he hlt
  exact { hke with entry := .inl (hke.entry.resolve_right (hold email expiresAt)) }

variable {email : String}

section

variable (h : BansKept st now)
include h

theorem BansKept.ofCleaner {cleaner : CleanerPoint} (hsub : cleaner.pending ⊆ st.cleaner.pending) :
    BansKept { st with cleaner := cleaner } now := by
  refine { h with kept := fun email expiresAt he hlt => ?_ }
  have hke := h.kept email expiresAt he hlt
  exact { hke with fresh := fun hmem => hke.fresh (hsub hmem) }

theorem BansKept.upsert (hpo : st.analyzer = .upsert email bannedAt expiresAt) (hap : email ∉ st.cleaner.pending) :
    BansKept { st with
      store := st.store.upsertBan email bannedAt expiresAt
      analyzer := .setBan email expiresAt
      enforced := Assoc.put st.enforced email expiresAt } now := by
  obtain ⟨hnew, hold⟩ := upsertBan_rows
  refine ⟨fun email' expiresAt' he hlt => ?_, fun email' expiresAt' hset => ?_⟩
  · rw [Assoc.lookup_put] at he
    split_ifs at he with heq
    · cases he
      rw [heq]
      exact ⟨hnew, .inr rfl, hap⟩
    obtain ⟨⟨b, hb, rfl, rfl⟩, hen, hfr⟩ := h.kept email' expiresAt' he hlt
    rw [hpo] at hen
    exact ⟨⟨b, hold b hb heq, rfl, rfl⟩, hen.imp_right nofun, hfr⟩
  · obtain ⟨rfl, rfl⟩ := EnforcePoint.setBan.inj hset
    exact Assoc.lookup_put.trans (if_pos rfl)

theorem BansKept.setBan (hpo : st.analyzer = .setBan email expiresAt) :
    BansKept { st with bans := Assoc.put st.bans email expiresAt, analyzer := .banUser email } now := by
  refine ⟨fun email' expiresAt' he hlt => ?_, fun _ _ hset => by cases hset⟩
  have hke := h.kept email' expiresAt' he hlt
  refine { hke with entry := .inl ?_ }
  rw [Assoc.lookup_put]
  split_ifs with heq
  · rw [heq, h.setting email expiresAt hpo] at he
    exact he
  rcases hke.entry with hen | hset
  · exact hen
  · exact absurd (EnforcePoint.setBan.inj (hset.symm.trans hpo)).1 heq

theorem BansKept.enforceCall (hg : StoresApart st (now, .enforceCall fails)) (hs : st.enforceCall fails = some st') :
    BansKept st' now := by
  unfold BanScene.enforceCall at hs
  unfold StoresApart at hg
  split at hs
  · cases hs
  · rename_i email bannedAt expiresAt hpo
    rw [hpo] at hg
    split_ifs at hs with hfa
    · cases hs
      exact h.ofAnalyzer (by simp [hpo]) (by simp)
    · cases hs
      exact h.upsert hpo (hg (by simpa using hfa))
  · rename_i email expiresAt hpo
    cases hs
    exact h.setBan hpo
  · rename_i email hpo
    cases hs
    exact h.ofAnalyzer (by simp [hpo]) (by simp)

end

theorem pending_next (rest : List String) : (CleanerPoint.next rest).pending = rest := by
  cases rest <;> rfl

theorem pending_afterLookup {α : Type} {rest : List String} {found : Except Err α} {go : α → CleanerPoint}
    (hgo : ∀ a, (go a).pending = email :: rest) :
    (CleanerPoint.afterLookup email rest found go).pending ⊆ email :: rest := by
  unfold CleanerPoint.afterLookup
  split
  · rw [hgo]
    exact Subset.refl _
  split_ifs
  · exact Subset.refl _
  · rw [pending_next]
    exact subset_cons_self _ _

/-- The cleaner goes on with bans it has found before; what it deletes is one of them. -/
theorem BansKept.cleanerCall (h : BansKept st now) (hs : st.cleanerCall now fails = some st') : BansKept st' now := by
  have hnext {email : String} {rest : List String} : (CleanerPoint.next rest).pending ⊆ email :: rest := by
    rw [pending_next]
    exact subset_cons_self _ _
  unfold BanScene.cleanerCall at hs
  split at hs <;> rename_i hpo
  · cases hs
  · cases hs
    exact h.ofCleaner (hpo ▸ pending_afterLookup fun _ => rfl)
  · cases hs
    exact h.ofCleaner (hpo ▸ pending_afterLookup fun _ => by split_ifs <;> rfl)
  · cases hs
    refine h.ofCleaner ?_
    rw [hpo]
    split_ifs
    · exact hnext
    · exact Subset.refl _
  · split_ifs at hs
    · cases hs
      exact h.ofCleaner (hpo ▸ hnext)
    cases hs
    refine { h with kept := fun email' expiresAt' he hlt => ?_ }
    obtain ⟨⟨b, hb, rfl, rfl⟩, hen, hfr⟩ := h.kept email' expiresAt' he hlt
    rw [hpo] at hfr
    exact ⟨⟨b, mem_filter.2 ⟨hb, by simpa using ne_of_not_mem_cons hfr⟩, rfl, rfl⟩, hen, hfr⟩
  · cases hs
    refine { h with kept := fun email' expiresAt' he hlt => ?_ }
    obtain ⟨hrow, hen, hfr⟩ := h.kept email' expiresAt' he hlt
    rw [hpo] at hfr
    refine ⟨hrow, hen.imp_left fun hen => ?_, fun hmem => hfr (hnext hmem)⟩
    exact Assoc.lookup_drop.trans ((if_neg (ne_of_not_mem_cons hfr)).trans hen)

theorem BansKept.step {l : Time × BanAction} (h : BansKept st st.clock) (hg : StoresApart st l)
    (hs : banStep st l = some st') : BansKept st' st'.clock := by
  obtain ⟨now, action⟩ := l
  unfold banStep at hs
  split_ifs at hs with hcl
  obtain ⟨next, hne, rfl⟩ := Option.map_eq_some_iff.1 hs
  have hnow : BansKept st now := h.mono (not_lt.1 hcl)
  suffices hke : BansKept next now from
    ⟨fun email expiresAt he hlt => { hke.kept email expiresAt he hlt with }, hke.setting⟩
  cases action with
  | enforce email banDuration =>
    unfold BanAction.perform at hne
    dsimp only at hne
    split_ifs at hne with hid
    cases hne
    exact hnow.ofAnalyzer (by simp [hid]) (by simp)
  | enforceCall fails => exact hnow.enforceCall hg hne
  | processExpired fails =>
    unfold BanAction.perform at hne
    dsimp only at hne
    split_ifs at hne
    · cases hne
      exact hnow.ofCleaner (nil_subset _)
    cases hne
    refine { hnow with kept := fun email expiresAt he hlt => ?_ }
    have hke := hnow.kept email expiresAt he hlt
    refine { hke with fresh := fun hmem => ?_ }
    -- the row that was found is the one of the ban, which has not expired
    rw [pending_next] at hmem
    obtain ⟨b, hb, hem⟩ := mem_map.1 hmem
    obtain ⟨b', hb', hem', rfl⟩ := hke.row
    obtain ⟨hb, hexp⟩ := mem_filter.1 hb
    obtain rfl := st.store.bans.eq_of_clash hb hb' (.inr (hem.trans hem'.symm))
    exact absurd (of_decide_eq_true hexp) (not_le.2 hlt)
  | cleanerCall fails => exact hnow.cleanerCall hne

/-- In a run in which no ban is stored for an email while the cleaner has it in hand, once the analyzer is through, a ban
that it has stored and that has not expired is in the database and in the ban store. -/
theorem fresh_ban_kept (st₀ st : BanScene) (tr : List (Time × BanAction)) (hidle : st₀.analyzer = .idle)
    (hnone : st₀.enforced = []) (hrun : Run (Guarded StoresApart (stepsTo banStep)) st₀ tr st)
    (hended : st.analyzer = .idle) (email : String) (expiresAt : Time)
    (henforced : st.enforced.lookup email = some expiresAt) (hfresh : st.clock < expiresAt) :
    (∃ b ∈ st.store.bans.rows, b.email = email ∧ b.expiresAt = expiresAt) ∧ st.bans.lookup email = some expiresAt := by
  have hke : BansKept st st.clock := by
    refine hrun.invariant_of_guard (fun st => BansKept st st.clock) ?_ fun _ _ _ h hG hs => h.step hG hs
    refine ⟨fun email expiresAt he => ?_, fun email expiresAt hset => ?_⟩
    · rw [hnone] at he
      cases he
    · rw [hidle] at hset
      cases hset
  obtain ⟨hrow, hen, -⟩ := hke.kept email expiresAt henforced hfresh
  rw [hended] at hen
  exact ⟨hrow, hen.resolve_right nofun⟩

/-! An expired ban, no longer of any subscription. -/

def staleBan : BanScene where
  store := { bans := .single ⟨1, "a", 0, 10⟩ }
  bans := [("a", 10)]
  clock := 10

def liftedThenBanned : List (Time × BanAction) :=
  [(10, .processExpired false), (10, .cleanerCall false), (11, .cleanerCall false), (11, .cleanerCall false),
    (12, .enforce "a" 60), (12, .enforceCall false), (12, .enforceCall false), (12, .enforceCall false)]

theorem fresh_ban_kept_after : ∃ st, Run (Guarded StoresApart (stepsTo banStep)) staleBan liftedThenBanned st ∧
    st.clock < 72 ∧ (∃ b ∈ st.store.bans.rows, b.email = "a" ∧ b.expiresAt = 72) ∧ st.bans.lookup "a" = some 72 := by
  exact Run.exists_of_guardedExec_imp
    (P := fun st => st.analyzer = .idle ∧ st.enforced.lookup "a" = some 72 ∧ st.clock < 72) (by decide)
    fun st hrun ⟨hen, henf, hcl⟩ => ⟨hcl, fresh_ban_kept staleBan st _ rfl rfl hrun hen "a" 72 henf hcl⟩

/-- The cleaner has read the old ban when the new one is enforced. -/
def bannedThenLifted : List (Time × BanAction) :=
  [(10, .processExpired false), (11, .enforce "a" 60), (11, .enforceCall false), (11, .enforceCall false),
    (11, .enforceCall false), (12, .cleanerCall false), (12, .cleanerCall false), (12, .cleanerCall false)]

/-- Both are through, and the new ban is neither in the database nor in the ban store. -/
theorem fresh_ban_deleted : ∃ st, Run (stepsTo banStep) staleBan bannedThenLifted st ∧
    st.analyzer = .idle ∧ st.cleaner = .idle ∧ st.enforced.lookup "a" = some 71 ∧ st.clock = 12 ∧
      st.store.bans.rows = [] ∧ st.bans.lookup "a" = none :=
  Run.exists_of_exec (by decide)

/-! The kernel's cache and the map of an antifraud provider. Two calls on one email may call the sink in another order
than they changed the map, and then the cache keeps the wrong answer. -/

open Mirror Assoc

/-- An email as the cache stores it: not empty, and no space around it. -/
def Canonical (email : String) : Prop := trimSpace email = email ∧ email ≠ ""

instance (email : String) : Decidable (Canonical email) := by
  unfold Canonical
  infer_instance

/-- The email of an update and whether it is banned then. -/
def SinkCall.change : SinkCall → String × Bool
  | .pushBanUpdate email _ => (email, true)
  | .pushUnban email => (email, false)

def changes (runs : List SinkRun) : List (String × Bool) := runs.flatMap fun run => run.updates.map SinkCall.change

/-- The emails that the provider is called with are canonical, where it does not make them so. A ban is lifted without a
sink only if the cache does not have it. An update reaches the cache while it is true, or while one that says the
opposite is on its way, or after the sink was removed if it is an unban. -/
def InOrder (provider : BanProvider) (m : BanMirror) : MirrorLabel → Prop
  | .call (.ban _ email _) => provider = .banStore → Canonical email
  | .call (.unban email) => (provider = .banStore → Canonical email) ∧ (m.sink = false →
      Assoc.has m.cache.bans (trimSpace email) = false ∨ (trimSpace email, false) ∈ changes m.inFlight)
  | .call (.setSink _ _ _) => True
  | .tell index _ => ∀ u ∈ m.nextUpdate index, Assoc.has m.bans u.1.change.1 = u.1.change.2 ∨
      (u.1.change.1, !u.1.change.2) ∈ changes u.2 ∨ m.sink = false ∧ u.1.change.2 = false

instance (provider : BanProvider) (m : BanMirror) (l : MirrorLabel) : Decidable (InOrder provider m l) := by
  unfold InOrder
  split <;> infer_instance

/-- Until `t` the clock is read and no ban expires. -/
def MirrorLabel.Lasts (t : Time) : MirrorLabel → Prop
  | .call (.ban now _ expiresAt) => now ≤ t ∧ t < expiresAt
  | .call (.unban _) => True
  | .call (.setSink now _ _) => now ≤ t
  | .tell _ now => now ≤ t

def SinkCall.Lasts (t : Time) : SinkCall → Prop
  | .pushBanUpdate email bannedUntil => Canonical email ∧ t < bannedUntil
  | .pushUnban email => Canonical email

variable {u : SinkCall} {now : Time} {provider : BanProvider}

theorem has_apply {t : Time} (hu : u.Lasts t) (hnow : now ≤ t) (c : LocalBanCache) (email : String) :
    has (u.apply now c).bans email = if email = u.change.1 then u.change.2 else has c.bans email := by
  cases u with
  | pushBanUpdate email' bannedUntil =>
    obtain ⟨⟨htr, hne⟩, hla⟩ := hu
    have hpa : ¬ bannedUntil ≤ now := not_le.2 (hnow.trans_lt hla)
    rw [SinkCall.apply, LocalBanCache.pushBanUpdate, htr, if_neg hne, if_neg hpa]
    exact has_put
  | pushUnban email' =>
    obtain ⟨htr, hne⟩ := hu
    rw [SinkCall.apply, LocalBanCache.pushUnban, htr, if_neg hne]
    exact has_drop

theorem lasts_apply {t : Time} (hu : u.Lasts t) {c : LocalBanCache} (hc : ∀ e ∈ c.bans, t < e.2) :
    ∀ e ∈ (u.apply now c).bans, t < e.2 := by
  have hun (email : String) : ∀ e ∈ (c.pushUnban email).bans, t < e.2 := by
    unfold LocalBanCache.pushUnban
    split_ifs
    · exact hc
    · exact fun e he => hc e (mem_filter.1 he).1
  cases u with
  | pushBanUpdate email bannedUntil =>
    rw [SinkCall.apply, LocalBanCache.pushBanUpdate]
    split_ifs
    · exact hc
    · exact hun _
    intro e he
    rcases of_mem_put he with rfl | he
    · exact hu.2
    · exact hc e he
  | pushUnban email => exact hun email

structure Mirrored (t : Time) (m : BanMirror) : Prop where
  follows : Follows (Assoc.has m.bans) (Assoc.has m.cache.bans) (changes m.inFlight) m.sink
  bans : ∀ e ∈ m.bans, Canonical e.1 ∧ t < e.2
  cached : ∀ e ∈ m.cache.bans, t < e.2
  told : ∀ run ∈ m.inFlight, ∀ u ∈ run.updates, u.Lasts t

variable {t : Time} {m m' : BanMirror} {updates : List SinkCall} {locked : Bool} {email : String}

/-- A mutex section is left with updates for the sink: it is enough that the copy follows once they are on their way. -/
theorem Mirrored.andTell (hba : ∀ e ∈ m.bans, Canonical e.1 ∧ t < e.2) (hcac : ∀ e ∈ m.cache.bans, t < e.2)
    (hto : ∀ run ∈ m.inFlight, ∀ u ∈ run.updates, u.Lasts t) (hnew : ∀ u ∈ updates, u.Lasts t)
    (hfol : ∀ pending, changes m.inFlight ⊆ pending → (m.sink = true → ∀ u ∈ updates, u.change ∈ pending) →
      Follows (has m.bans) (has m.cache.bans) pending m.sink) :
    Mirrored t (m.andTell updates locked) := by
  unfold BanMirror.andTell
  split_ifs with hqu
  · refine ⟨hfol _ (Subset.refl _) fun hsi u hu => ?_, hba, hcac, hto⟩
    rcases hqu with hfa | rfl
    · rw [hsi] at hfa
      cases hfa
    · cases hu
  · refine ⟨hfol _ ?_ fun _ u hu => ?_, hba, hcac, fun run hrun => ?_⟩
    · rw [changes, changes, flatMap_append]
      exact subset_append_left _ _
    · rw [changes, flatMap_append]
      exact mem_append_right _ (by simpa using ⟨u, hu, rfl⟩)
    · rcases mem_append.1 hrun with hrun | hrun
      · exact hto run hrun
      · obtain rfl := mem_singleton.1 hrun
        exact hnew

variable {expiresAt : Time} {left : List SinkRun} {index : Nat}

theorem Mirrored.ban (h : Mirrored t m) (hem : Canonical email) (hla : t < expiresAt) : Mirrored t
      ({ m with bans := put m.bans email expiresAt }.andTell [.pushBanUpdate email expiresAt] false) := by
  refine .andTell (fun e he => ?_) h.cached h.told (fun u hu => ?_) fun pending hsub hse => ?_
  · rcases of_mem_put he with rfl | he
    · exact ⟨hem, hla⟩
    · exact h.bans e he
  · obtain rfl := mem_singleton.1 hu
    exact ⟨hem, hla⟩
  · exact h.follows.write (fun email' => has_put) hsub
      (fun hsi => hse hsi _ (mem_singleton_self _)) fun _ hfa => absurd hfa (by simp)

theorem Mirrored.unban (h : Mirrored t m) (hem : Canonical email)
    (hkn : m.sink = false → has m.cache.bans email = false ∨ (email, false) ∈ changes m.inFlight) :
    Mirrored t ({ m with bans := drop m.bans email }.andTell [.pushUnban email] false) := by
  refine .andTell (fun e he => h.bans e (mem_filter.1 he).1) h.cached h.told (fun u hu => ?_)
    fun pending hsub hse => ?_
  · obtain rfl := mem_singleton.1 hu
    exact hem
  · exact h.follows.write (fun email' => has_drop) hsub
      (fun hsi => hse hsi _ (mem_singleton_self _)) fun hsi _ => hkn hsi

theorem Mirrored.setSink (h : Mirrored t m) (sink : Bool) {order : List (String × Time)} (hor : order.Perm m.bans) :
    Mirrored t ({ m with sink := sink }.andTell (replay order) locked) := by
  refine .andTell h.bans h.cached h.told (fun u hu => ?_) fun pending hsub hse => ?_
  · obtain ⟨e, he, rfl⟩ := mem_map.1 hu
    exact h.bans e (hor.mem_iff.1 he)
  cases sink with
  | false => exact h.follows.unlink hsub
  | true =>
    refine h.follows.link hsub fun email hhas => ?_
    obtain ⟨expiresAt, hmem⟩ := mem_of_has hhas
    exact hse rfl (.pushBanUpdate email expiresAt) (mem_map.2 ⟨_, hor.mem_iff.2 hmem, rfl⟩)

theorem canonical_trimSpace (h : trimSpace email ≠ "") : Canonical (trimSpace email) := ⟨trimSpace_idem, h⟩

theorem Mirrored.pushUnban (h : Mirrored t m) (hkn : m.sink = false →
      has m.cache.bans (trimSpace email) = false ∨ (trimSpace email, false) ∈ changes m.inFlight) :
    Mirrored t (ExternalBanState.pushUnban email m) := by
  unfold ExternalBanState.pushUnban
  split_ifs with hem
  · exact h
  · exact h.unban (canonical_trimSpace hem) hkn

theorem Mirrored.pushBan (h : Mirrored t m) (hnow : now ≤ t) (hla : t < expiresAt) :
    Mirrored t (ExternalBanState.pushBan now email expiresAt m) := by
  unfold ExternalBanState.pushBan
  split_ifs with hem hpa
  · exact h
  · exact absurd (hnow.trans_lt hla) (not_lt.2 hpa)
  · exact h.ban (canonical_trimSpace hem) hla

theorem Mirrored.perform {c : BanCall} (h : Mirrored t m) (hl : (MirrorLabel.call c).Lasts t)
    (hg : InOrder provider m (.call c)) (hs : provider.perform c m = some m') : Mirrored t m' := by
  cases c with
  | ban now email expiresAt =>
    cases provider with
    | banStore =>
      cases hs
      exact h.ban (hg rfl) hl.2
    | external =>
      cases hs
      exact h.pushBan hl.1 hl.2
  | unban email =>
    obtain ⟨hcan, hkn⟩ := hg
    cases provider with
    | banStore =>
      cases hs
      rw [(hcan rfl).1] at hkn
      exact h.unban (hcan rfl) hkn
    | external =>
      cases hs
      exact h.pushUnban hkn
  | setSink now sink order =>
    cases provider with
    | banStore =>
      simp only [BanProvider.perform, BanStore.setSink] at hs
      split_ifs at hs with hpe
      cases hs
      exact h.setSink sink hpe
    | external =>
      cases hs
      -- no ban has expired
      have hall : (m.bans.filter fun e => decide (now < e.2)) = m.bans :=
        filter_eq_self.2 fun e he => decide_eq_true (lt_of_le_of_lt hl (h.bans e he).2)
      unfold ExternalBanState.setSink
      rw [hall]
      exact h.setSink sink (perm_insertionSort _ _)

/-- The update is the next one of a call in flight, and everything else stays on its way. -/
theorem nextUpdate_eq_some (h : m.nextUpdate index = some (u, left)) :
    (∃ run ∈ m.inFlight, u ∈ run.updates) ∧ (∀ c ∈ changes m.inFlight, c = u.change ∨ c ∈ changes left) ∧
      ∀ run ∈ left, ∀ v ∈ run.updates, ∃ run' ∈ m.inFlight, v ∈ run'.updates := by
  obtain ⟨run, hrun, h⟩ := Option.bind_eq_some_iff.1 h
  have hmem : run ∈ m.inFlight := mem_of_getElem? hrun
  split at h
  · cases h
  rename_i update rest hupd
  cases h
  have hre : ∀ v ∈ rest, v ∈ run.updates := fun v hv => hupd ▸ mem_cons_of_mem _ hv
  refine ⟨⟨run, hmem, by simp [hupd]⟩, fun c hc => ?_, fun run' hrun' v hv => ?_⟩
  · obtain ⟨run', hrun', hc⟩ := mem_flatMap.1 hc
    rcases Pool.eq_or_mem_replace hrun hrun' with rfl | hst
    · rw [hupd, map_cons, mem_cons] at hc
      rcases hc with rfl | hc
      · exact .inl rfl
      refine .inr (mem_flatMap.2 ⟨{ run' with updates := rest }, Pool.mem_replace ?_, hc⟩)
      rw [if_neg (by rintro rfl; cases hc)]
      exact mem_singleton_self _
    · exact .inr (mem_flatMap.2 ⟨run', hst, hc⟩)
  · rcases Pool.of_mem_replace hrun' with hle | hold
    · split_ifs at hle
      · cases hle
      · obtain rfl := mem_singleton.1 hle
        exact ⟨run, hmem, hre v hv⟩
    · exact ⟨run', hold, hv⟩

theorem Mirrored.tell (h : Mirrored t m) (hnow : now ≤ t) (hg : InOrder provider m (.tell index now))
    (hne : m.nextUpdate index = some (u, left)) :
    Mirrored t { m with cache := u.apply now m.cache, inFlight := left } := by
  obtain ⟨⟨run, hrun, hu⟩, hoth, hle⟩ := nextUpdate_eq_some hne
  have hla : u.Lasts t := h.told run hrun u hu
  refine ⟨?_, h.bans, lasts_apply hla h.cached, fun run' hrun' v hv => ?_⟩
  · exact h.follows.deliver (has_apply hla hnow m.cache) hoth (hg _ hne)
  · obtain ⟨run'', hrun'', hv⟩ := hle run' hrun' v hv
    exact h.told run'' hrun'' v hv

theorem Mirrored.step {l : MirrorLabel} (h : Mirrored t m) (hl : l.Lasts t) (hg : InOrder provider m l)
    (hs : mirrorStep provider m l = some m') : Mirrored t m' := by
  cases l with
  | call c =>
    simp only [mirrorStep] at hs
    split_ifs at hs
    exact h.perform hl hg hs
  | tell index now =>
    obtain ⟨⟨u, left⟩, hne, rfl⟩ := Option.map_eq_some_iff.1 hs
    exact h.tell hl hg hne

/-- If updates reach the cache in order, and no ban expires before `t`, then with all calls returned and a sink
installed the cache reports exactly the emails that the provider holds a ban for. -/
theorem cache_of_provider (provider : BanProvider) (t : Time) (tr : List MirrorLabel) (m : BanMirror)
    (hrun : Run (Guarded (InOrder provider) (stepsTo (mirrorStep provider))) {} tr m) (hlasts : ∀ l ∈ tr, l.Lasts t)
    (hrest : m.inFlight = []) (hsink : m.sink = true) (now : Time) (hnow : now ≤ t) (email : String)
    (hemail : Canonical email) : m.cache.isBanned now email = true ↔ Assoc.has m.bans email = true := by
  have hmir : Mirrored t m := by
    refine (hrun.guard_labels hlasts).invariant_of_guard (Mirrored t) ?_ fun _ _ _ h hG hs => h.step hG.2 hG.1 hs
    exact ⟨Follows.start, fun e he => absurd he not_mem_nil, fun e he => absurd he not_mem_nil,
      fun run hrun => absurd hrun not_mem_nil⟩
  have hfol := hmir.follows
  rw [hrest, hsink] at hfol
  rw [← hfol.eq_of_rest email, LocalBanCache.isBanned, hemail.1, if_neg hemail.2, has]
  cases hl : m.cache.bans.lookup email with
  | none => simp
  | some expiresAt =>
    have := hnow.trans_lt (hmir.cached _ (mem_of_lookup hl))
    simpa using this

def twoBans : List MirrorLabel :=
  [.call (.setSink 0 true []), .call (.ban 0 "a" 100), .call (.ban 0 "b" 100), .tell 0 1, .call (.unban "a"), .tell 1 1,
    .tell 0 2]

theorem cache_of_provider_two : ∃ m,
    Run (Guarded (InOrder .banStore) (stepsTo (mirrorStep .banStore))) {} twoBans m ∧ Assoc.has m.bans "b" = true ∧
      (m.cache.isBanned 3 "b" = true ↔ Assoc.has m.bans "b" = true) := by
  refine Run.exists_of_guardedExec_imp (P := fun m => m.inFlight = [] ∧ m.sink = true ∧ has m.bans "b" = true)
    (by decide) fun m hrun ⟨hre, hsi, hhe⟩ => ?_
  have hla : ∀ l ∈ twoBans, l.Lasts 50 := by simp [twoBans, MirrorLabel.Lasts]
  exact ⟨hhe, cache_of_provider .banStore 50 twoBans m hrun hla hre hsi 3 (by decide) "b" (by decide)⟩

def overtaken : List MirrorLabel :=
  [.call (.setSink 0 true []), .call (.ban 0 "a" 100), .call (.unban "a"), .tell 1 0, .tell 0 0]

/-- With either provider the cache at rest bans an email that the provider does not. -/
theorem ban_resurrected :
    (∃ m, Run (stepsTo (mirrorStep .banStore)) {} overtaken m ∧
      m.inFlight = [] ∧ m.sink = true ∧ m.cache.isBanned 0 "a" = true ∧ Assoc.has m.bans "a" = false) ∧
    ∃ m, Run (stepsTo (mirrorStep .external)) {} overtaken m ∧
      m.inFlight = [] ∧ m.sink = true ∧ m.cache.isBanned 0 "a" = true ∧ Assoc.has m.bans "a" = false :=
  ⟨Run.exists_of_exec (by decide), Run.exists_of_exec (by decide)⟩

end Xraytool

/-! The bans of the antifraud plugin are sound for its window. The windows are pruned by the time of the event that
comes in, which may be late; still no two entries of a window are further apart than the TTL. -/

namespace Xraytool.Antifraud

open Transition List

/-- An event of the trace saw the address at that time. -/
def Seen (cfg : Config) (tr : List Label) (email ipHash : String) (t : Time) : Prop :=
  ∃ now upsertFails e, Label.event now upsertFails e ∈ tr ∧ e.email = email ∧ e.ipHash cfg = ipHash ∧
    e.observedAt now = t

theorem Seen.mono {cfg : Config} {tr tr' : List Label} {email ipHash : String} {t : Time}
    (h : Seen cfg tr email ipHash t) (hsub : tr ⊆ tr') : Seen cfg tr' email ipHash t := by
  obtain ⟨now, upsertFails, e, hmem, hre⟩ := h
  exact ⟨now, upsertFails, e, hsub hmem, hre⟩

/-- The addresses of one user after a trace. -/
structure Window (cfg : Config) (tr : List Label) (email : String) (clock : Time) (u : UserIPState) : Prop where
  seen : ∀ p ∈ u.entries, Seen cfg tr email p.1 p.2
  past : ∀ p ∈ u.entries, p.2 ≤ clock
  span : ∀ p ∈ u.entries, ∀ q ∈ u.entries, q.2 - p.2 ≤ cfg.ipTTL

variable {cfg : Config} {tr tr' : List Label} {email ipHash : String} {clock now t : Time} {u u' : UserIPState}

namespace Window

theorem empty : Window cfg tr email clock {} :=
  ⟨fun _ h => absurd h not_mem_nil, fun _ h => absurd h not_mem_nil, fun _ h => absurd h not_mem_nil⟩

section

variable (h : Window cfg tr email clock u)
include h

theorem mono (htr : tr ⊆ tr') (hcl : clock ≤ now) : Window cfg tr' email now u :=
  ⟨fun p hp => (h.seen p hp).mono htr, fun p hp => (h.past p hp).trans hcl, h.span⟩

theorem of_subset (hsub : u'.entries ⊆ u.entries) : Window cfg tr email clock u' :=
  ⟨fun p hp => h.seen p (hsub hp), fun p hp => h.past p (hsub hp), fun p hp q hq => h.span p (hsub hp) q (hsub hq)⟩

theorem prune (cutoff : Time) : Window cfg tr email clock (u.prune cutoff) := h.of_subset (filter_subset_self _)

end

end Window

theorem UserIPState.of_mem_see {p : String × Time} (h : p ∈ (u.see ipHash t).entries) :
    p = (ipHash, t) ∨ p ∈ u.entries := by
  unfold UserIPState.see at h
  split at h
  · split_ifs at h
    · exact Assoc.Map.of_mem_put h
    · exact .inr h
  · exact Assoc.Map.of_mem_put h

/-- A late event widens the window to no more than the TTL. -/
theorem Window.observe (h : Window cfg tr email clock u) (hcl : clock ≤ now) (hse : Seen cfg tr email ipHash t)
    (hfr : now - cfg.ipTTL ≤ t) (hnow : t ≤ now) :
    Window cfg tr email now ((u.see ipHash t).prune (t - cfg.ipTTL)) := by
  have hmem : ∀ p ∈ ((u.see ipHash t).prune (t - cfg.ipTTL)).entries,
      (p = (ipHash, t) ∨ p ∈ u.entries) ∧ t - cfg.ipTTL ≤ p.2 := by
    intro p hp
    obtain ⟨hp, hke⟩ := mem_filter.1 hp
    exact ⟨UserIPState.of_mem_see hp, by simpa using hke⟩
  have hpa : ∀ p ∈ ((u.see ipHash t).prune (t - cfg.ipTTL)).entries, p.2 ≤ now := by
    intro p hp
    rcases (hmem p hp).1 with rfl | hp
    · exact hnow
    · exact (h.past p hp).trans hcl
  refine ⟨fun p hp => ?_, hpa, fun p hp q hq => ?_⟩
  · rcases (hmem p hp).1 with rfl | hp
    · exact hse
    · exact h.seen p hp
  rcases (hmem p hp).1 with rfl | hold
  · -- `p` is the new event, at most the TTL old
    have := hpa q hq
    linarith
  rcases (hmem q hq).1 with rfl | hold'
  · -- what is older than the TTL before the new event has been pruned
    have := (hmem p hp).2
    linarith
  · exact h.span p hold q hold'

def Windows (cfg : Config) (tr : List Label) (a : Analyzer) : Prop :=
  ∀ p ∈ a.state, Window cfg tr p.1 a.clock p.2

variable {a : Analyzer}

theorem Windows.ipsOf (h : Windows cfg tr a) (email : String) :
    Window cfg tr email a.clock (a.state.ipsOf email) := by
  unfold State.ipsOf
  cases hl : a.state.lookup email with
  | none => exact .empty
  | some u => exact h _ (Assoc.mem_of_lookup hl)

theorem observedAt_le (e : Event) (now : Time) : e.observedAt now ≤ now := by
  unfold Event.observedAt
  dsimp only
  generalize (if e.occurredAt = Time.zero then now else e.occurredAt) = occurredAt
  split_ifs with hla
  · exact le_rfl
  · exact not_lt.1 hla

theorem Windows.addHashedEvent (h : Windows cfg tr a) (hcl : a.clock ≤ now)
    (hse : Seen cfg tr email ipHash t) (hfr : now - cfg.ipTTL ≤ t) (hnow : t ≤ now) :
    (∀ p ∈ (a.state.addHashedEvent email ipHash cfg.ipTTL t).1, Window cfg tr p.1 now p.2) ∧
      ∃ u, Window cfg tr email now u ∧ (a.state.addHashedEvent email ipHash cfg.ipTTL t).2 = u.size := by
  have hold : ∀ p ∈ a.state, Window cfg tr p.1 now p.2 := fun p hp => (h p hp).mono (Subset.refl _) hcl
  unfold State.addHashedEvent
  split_ifs with hem
  · exact ⟨hold, _, (h.ipsOf email).mono (Subset.refl _) hcl, rfl⟩
  have hnew := (h.ipsOf email).observe hcl hse hfr hnow
  refine ⟨fun p hp => ?_, _, hnew, rfl⟩
  rcases mem_append.1 hp with hp | hp
  · exact hold p (mem_filter.1 hp).1
  · obtain rfl := mem_singleton.1 hp
    exact hnew

/-- An event keeps the windows; if it enforces a ban, it has counted more addresses than the limit in one of them. -/
theorem Windows.handleEvent {upsertFails : Bool} {e : Event} (h : Windows cfg tr a)
    (hcl : a.clock ≤ now) (hin : .event now upsertFails e ∈ tr) :
    (∀ p ∈ (handleEvent cfg now upsertFails e a).1.state, Window cfg tr p.1 now p.2) ∧
      ((handleEvent cfg now upsertFails e a).2 = true → 0 ≤ cfg.ipTTL ∧ ∃ u, Window cfg tr e.email now u ∧
        int64 (cfg.maxIPs * (getDeviceLimit a.limits e.email).1) < u.size) := by
  have hold : ∀ p ∈ a.state, Window cfg tr p.1 now p.2 := fun p hp => (h p hp).mono (Subset.refl _) hcl
  have hse : Seen cfg tr e.email (e.ipHash cfg) (e.observedAt now) := ⟨now, upsertFails, e, hin, rfl, rfl, rfl⟩
  have hnow := observedAt_le e now
  have hqu {P : Prop} (h : false = true) : P := absurd h Bool.false_ne_true
  unfold Antifraud.handleEvent
  by_cases hban : isBanned a.bans e.email now
  · rw [if_pos hban]
    exact ⟨hold, hqu⟩
  by_cases hsta : e.observedAt now < now - cfg.ipTTL
  · rw [if_neg hban, if_pos hsta]
    exact ⟨hold, hqu⟩
  by_cases hinv : ¬ e.isHashed ∧ e.ipHash cfg = ""
  · rw [if_neg hban, if_neg hsta, if_pos hinv]
    exact ⟨hold, hqu⟩
  obtain ⟨hst, u, hwin, hco⟩ := h.addHashedEvent hcl hse (not_lt.1 hsta) hnow
  rcases hadd : a.state.addHashedEvent e.email (e.ipHash cfg) cfg.ipTTL (e.observedAt now) with ⟨state, count⟩
  rcases hli : getDeviceLimit a.limits e.email with ⟨devices, limits⟩
  rw [hadd] at hst hco
  dsimp only at hco ⊢
  split_ifs with hrep hov
  · exact ⟨hst, False.elim⟩
  · exact ⟨hst, False.elim⟩
  · refine ⟨?_, fun _ => ⟨by linarith [not_lt.1 hsta], u, hwin, hco ▸ hov⟩⟩
    unfold enforce
    split_ifs
    · exact hst
    · exact hst
  · exact ⟨hst, False.elim⟩

theorem Windows.step {a a' : Analyzer} {l : Label} (h : Windows cfg tr a) (hs : step cfg a l = some a') :
    Windows cfg (tr ++ [l]) a' := by
  have hmo : Windows cfg (tr ++ [l]) a := fun p hp => (h p hp).mono (subset_append_left _ _) le_rfl
  unfold Antifraud.step at hs
  cases l with
  | event now upsertFails e =>
    dsimp only at hs
    split_ifs at hs with hcl
    cases hs
    exact (hmo.handleEvent (not_lt.1 hcl) (by simp)).1
  | clean now =>
    cases hs
    intro p hp
    obtain ⟨q, hq, rfl⟩ := mem_map.1 (mem_filter.1 hp).1
    exact (hmo q hq).prune _
  | setLimits limits | setBans bans =>
    cases hs
    exact hmo

theorem windows_of_run {a0 a : Analyzer} (hin : a0.state = []) (hrun : Run (stepsTo (step cfg)) a0 tr a) :
    Windows cfg tr a := by
  induction hrun with
  | nil =>
    intro p hp
    rw [hin] at hp
    exact absurd hp not_mem_nil
  | snoc _ hs ih => exact ih.step hs

/-- Instants no two of which are further apart than `d` lie in one interval of that length. -/
theorem exists_interval {l : List Time} {d : Int} (hsp : ∀ x ∈ l, ∀ y ∈ l, y - x ≤ d) :
    ∃ start, ∀ x ∈ l, start ≤ x ∧ x ≤ start + d := by
  rcases l.eq_nil_or_concat with rfl | ⟨l, last, rfl⟩
  · exact ⟨0, fun x hx => absurd hx not_mem_nil⟩
  obtain ⟨first, hfi, hmin⟩ := (l.concat last).toFinset.exists_min_image id ⟨last, by simp⟩
  refine ⟨first, fun x hx => ⟨hmin x (mem_toFinset.2 hx), ?_⟩⟩
  have := hsp first (mem_toFinset.1 hfi) x hx
  linarith

/-- An event that enforces a ban ends a run in which more addresses of the user than the base limit times their devices
were seen within one interval no longer than the TTL, unless that product overflows. -/
theorem banned_within_window (cfg : Config) (a₀ a : Analyzer) (tr : List Label) (hinit : a₀.state = [])
    (hrun : Run (stepsTo (step cfg)) a₀ tr a) (now : Time) (hclock : a.clock ≤ now) (upsertFails : Bool) (e : Event)
    (hfits : cfg.maxIPs * (getDeviceLimit a.limits e.email).1 < 9223372036854775808)
    (hban : (handleEvent cfg now upsertFails e a).2 = true) :
    ∃ start stop : Time, start ≤ stop ∧ stop - start ≤ cfg.ipTTL ∧ ∃ hashes : List String, hashes.Nodup ∧
      cfg.maxIPs * (getDeviceLimit a.limits e.email).1 < hashes.length ∧
      ∀ h ∈ hashes, ∃ t, start ≤ t ∧ t ≤ stop ∧ Seen cfg (tr ++ [.event now upsertFails e]) e.email h t := by
  have hwind : Windows cfg (tr ++ [.event now upsertFails e]) a := fun p hp =>
    (windows_of_run hinit hrun p hp).mono (subset_append_left _ _) le_rfl
  obtain ⟨httl, u, hwin, hco⟩ := (hwind.handleEvent hclock (by simp)).2 hban
  obtain ⟨start, hst⟩ := exists_interval (l := u.entries.map Prod.snd) fun x hx y hy => by
    obtain ⟨p, hp, rfl⟩ := mem_map.1 hx
    obtain ⟨q, hq, rfl⟩ := mem_map.1 hy
    exact hwin.span p hp q hq
  refine ⟨start, start + cfg.ipTTL, by linarith, by linarith, u.entries.map Prod.fst, u.distinct, ?_, fun h hh => ?_⟩
  · rw [length_map]
    exact (le_int64 hfits).trans_lt hco
  obtain ⟨p, hp, rfl⟩ := mem_map.1 hh
  obtain ⟨hlo, hhi⟩ := hst p.2 (mem_map_of_mem hp)
  exact ⟨p.2, hlo, hhi, hwin.seen p hp⟩

/-! One address is allowed. A second one, seen at 2, is reported at 6, after one that was seen at 5. -/

def oneAddress : Config := { ipTTL := 10, maxIPs := 1, banDuration := 60, hashIP := id }

def lateEvent : Event := { email := "u", ip := "y", isHashed := true, occurredAt := 2 }

theorem banned_within_window_late : ∃ a tr, Run (stepsTo (step oneAddress)) {} tr a ∧
    (handleEvent oneAddress 6 false lateEvent a).2 = true ∧
      ∃ start stop : Time, start ≤ stop ∧ stop - start ≤ oneAddress.ipTTL ∧ ∃ hashes : List String, hashes.Nodup ∧
        oneAddress.maxIPs * (getDeviceLimit a.limits lateEvent.email).1 < hashes.length ∧
        ∀ h ∈ hashes, ∃ t, start ≤ t ∧ t ≤ stop ∧
          Seen oneAddress (tr ++ [.event 6 false lateEvent]) lateEvent.email h t := by
  have hrun : Run (stepsTo (step oneAddress)) {} [.event 5 false { lateEvent with ip := "x", occurredAt := 5 }]
      { state := [("u", ⟨[("x", 5)], by decide⟩)], limits := [("u", 1)], clock := 5 } := .snoc .nil rfl
  exact ⟨_, _, hrun, by decide,
    banned_within_window oneAddress {} _ _ rfl hrun 6 (by decide) false lateEvent (by decide) (by decide)⟩

/-- With three addresses for each of 2 ^ 62 devices the first address is one too many. -/
theorem banned_at_first_address :
    let cfg : Config := { oneAddress with maxIPs := 3 }
    let a : Analyzer := { limits := [("u", 4611686018427387904)] }
    (handleEvent cfg 6 false lateEvent a).2 = true ∧
      ¬ ∃ start stop : Time, start ≤ stop ∧ stop - start ≤ cfg.ipTTL ∧ ∃ hashes : List String, hashes.Nodup ∧
        cfg.maxIPs * (getDeviceLimit a.limits "u").1 < hashes.length ∧
        ∀ h ∈ hashes, ∃ t, start ≤ t ∧ t ≤ stop ∧ Seen cfg [.event 6 false lateEvent] "u" h t := by
  refine ⟨by decide, fun ⟨_, _, _, _, hashes, hno, hmany, hse⟩ => ?_⟩
  have hone : hashes ⊆ ["y"] := fun h hh => by
    obtain ⟨t, -, -, now, _, e, hmem, -, rfl, -⟩ := hse h hh
    cases mem_singleton.1 hmem
    exact mem_singleton_self _
  have hle : hashes.length ≤ 1 := (hno.subperm hone).length_le
  have hmany : (13835058055282163712 : Int) < hashes.length := hmany
  omega

end Xraytool.Antifraud
