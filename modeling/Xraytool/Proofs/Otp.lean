import Mathlib.Tactic.Linarith
import Xraytool.Lib.Quota
import Xraytool.Spec.Otp

/-! How often a code can be guessed. Both stores keep the limits, two codes in a period of the ttl and three wrong codes
for each, in the entry of the subject, which the third wrong code deletes. -/

namespace Xraytool.Otp

open Transition List Option Memory Cache Prod

variable {η : Type} {T : Int} {entry : Option (Entry η)} {e : Entry η} {codes : List (Time × Nat)} {clock now : Time}

/-- The last code issued to the subject has expired. -/
def AfterLast (T : Int) (codes : List (Time × Nat)) (now : Time) : Prop := ∀ c ∈ codes.head?, c.1 + T < now

/-- The entry of the last code. Its counters do not fall behind what happened, and the first code of an entry came after
the last code of the entry before it. -/
def Live (T : Int) (e : Entry η) : List (Time × Nat) → Prop
  | [] => False
  | (t, wrong) :: rest =>
    e.expiresAt = t + T ∧ wrong ≤ e.attempts ∧ e.attempts < 3 ∧ 1 ≤ e.requests ∧ (e.requests = 1 → AfterLast T rest t)

theorem Live.counters (h : Live T e codes) : e.attempts < 3 ∧ 1 ≤ e.requests := by
  cases codes with
  | nil => exact h.elim
  | cons c rest => exact ⟨h.2.2.1, h.2.2.2.1⟩

/-- What the entry of a subject says about the codes issued to it. -/
structure Limited (T : Int) (entry : Option (Entry η)) (codes : List (Time × Nat)) (clock : Time) : Prop where
  sorted : (codes.map Prod.fst).Pairwise fun a b => b ≤ a
  past : ∀ c ∈ codes, c.1 ≤ clock
  spaced : Quota.Spaced 2 T (codes.map Prod.fst)
  wrong : ∀ c ∈ codes, c.2 ≤ 3
  entry : ∀ e ∈ entry, e.expiresAt < clock ∨ Live T e codes

/-- At most two codes in any period of length `T`, and at most three wrong codes compared with each. -/
def Bounded (T : Int) (codes : List (Time × Nat)) : Prop :=
  (∀ start : Int, ((codes.map Prod.fst).filter fun t => start ≤ t ∧ t ≤ start + T).length ≤ 2) ∧ ∀ c ∈ codes, c.2 ≤ 3

theorem Limited.bounded (h : Limited T entry codes clock) : Bounded T codes :=
  ⟨fun start => h.spaced.length_filter_le h.sorted start, h.wrong⟩

theorem limited_nil : Limited T (none : Option (Entry η)) [] clock where
  sorted := Pairwise.nil
  past := by simp
  spaced := Quota.spaced_nil
  wrong := by simp
  entry := by simp

section

variable (h : Limited T entry codes clock)
include h

theorem Limited.mono (hle : clock ≤ now) : Limited T entry codes now :=
  { h with
    past := fun c hc => (h.past c hc).trans hle
    entry := fun e he => (h.entry e he).imp_left fun hlt => hlt.trans_le hle }

theorem Limited.filter (keep : Entry η → Bool) : Limited T (entry.filter keep) codes clock :=
  { h with entry := fun e he => h.entry e (filter_eq_some_iff.1 he).1 }

theorem Limited.forget : Limited T (none : Option (Entry η)) codes clock :=
  { h with entry := by simp }

end

theorem Entry.expired_iff : e.expired now = true ↔ e.expiresAt < now := decide_eq_true_iff

theorem Entry.renew_of_expired (h : e.expired now = true) :
    e.renew now = { e with requests := 0, attempts := 0 } := if_pos h

theorem Entry.renew_of_live (h : ¬ e.expired now = true) : e.renew now = e := if_neg h

section

variable (h : Limited T entry codes now)
include h

theorem Limited.live (he : e ∈ entry) (hli : ¬ e.expired now = true) : Live T e codes :=
  (h.entry e he).resolve_left fun hlt => hli (Entry.expired_iff.2 hlt)

theorem Limited.renew (he : e ∈ entry ∨ e.expired now = true) : Limited T (some (e.renew now)) codes now := by
  refine { h with entry := fun e' he' => ?_ }
  cases he'
  by_cases hexp : e.expired now = true
  · rw [Entry.renew_of_expired hexp]
    exact .inl (Entry.expired_iff.1 hexp)
  · rw [Entry.renew_of_live hexp]
    exact h.entry e (he.resolve_right hexp)

/-- What the counter of requests allows: a new code comes after the last but one has expired. -/
theorem Limited.spaced_cons (he : e ∈ entry ∨ e.expired now = true)
    (hla : e.expired now = true → AfterLast T codes now) (hreq : (e.renew now).requests < 2) :
    Quota.Spaced 2 T (now :: codes.map fst) := by
  refine h.spaced.cons two_pos fun b hb => ?_
  cases codes with
  | nil => simp at hb
  | cons c rest =>
    cases rest with
    | nil => simp at hb
    | cons c' rest =>
      obtain rfl : c'.1 = b := by simpa using hb
      have hsor : c'.1 ≤ c.1 := rel_of_pairwise_cons h.sorted (by simp)
      by_cases hexp : e.expired now = true
      · have := hla hexp c rfl
        linarith
      -- the entry has served one code, so the one before it belongs to an earlier entry
      obtain ⟨-, -, -, hpos, hfi⟩ := h.live (he.resolve_right hexp) hexp
      rw [Entry.renew_of_live hexp] at hreq
      have := hfi (by omega) c' rfl
      have := h.past c (by simp)
      linarith

theorem Limited.setCode (he : e ∈ entry ∨ e.expired now = true)
    (hla : e.expired now = true → AfterLast T codes now) (hreq : (e.renew now).requests < 2)
    (pay : String) (code : η) :
    Limited T (some ((e.renew now).setCode now T pay code)) ((now, 0) :: codes) now where
  sorted := by
    rw [map_cons, pairwise_cons]
    refine ⟨fun t ht => ?_, h.sorted⟩
    obtain ⟨c, hc, rfl⟩ := mem_map.1 ht
    exact h.past c hc
  past := by
    rw [forall_mem_cons]
    exact ⟨le_rfl, h.past⟩
  spaced := h.spaced_cons he hla hreq
  wrong := by
    rw [forall_mem_cons]
    exact ⟨Nat.zero_le _, h.wrong⟩
  entry := by
    intro e' he'
    cases he'
    refine .inr ⟨rfl, Nat.zero_le _, ?_, Nat.succ_le_succ (Nat.zero_le _), fun hfi => ?_⟩
    · by_cases hexp : e.expired now = true
      · rw [Entry.renew_of_expired hexp]
        exact Nat.zero_lt_succ _
      · rw [Entry.renew_of_live hexp]
        exact (h.live (he.resolve_right hexp) hexp).counters.1
    · by_cases hexp : e.expired now = true
      · exact hla hexp
      · -- an entry that has not expired has served a code before
        rw [Entry.renew_of_live hexp] at hfi
        have hpos := (h.live (he.resolve_right hexp) hexp).counters.2
        have : e.requests + 1 = 1 := hfi
        omega

end

variable {entry' : Option (Entry η)} {v : Verdict} {code : η}

theorem Limited.wrongCode (h : Limited T entry codes now) (he : e ∈ entry) (hli : ¬ e.expired now = true)
    (hen : ∀ e' ∈ entry', e' = { e with attempts := e.attempts + 1 } ∧ e.attempts + 1 < 3) :
    Limited T entry' (compared true codes) now := by
  have hla := h.live he hli
  cases codes with
  | nil => exact hla.elim
  | cons c rest =>
    obtain ⟨t, wrong⟩ := c
    obtain ⟨hexp, hco, hatt, hpos, hfi⟩ := hla
    refine ⟨h.sorted, ?_, h.spaced, ?_, fun e' he' => ?_⟩
    · exact forall_mem_cons.2 ⟨h.past (t, wrong) (by simp), fun c hc => h.past c (by simp [hc])⟩
    · refine forall_mem_cons.2 ⟨?_, fun c hc => h.wrong c (by simp [hc])⟩
      change wrong + 1 ≤ 3
      omega
    · obtain ⟨rfl, hlt⟩ := hen e' he'
      exact .inr ⟨hexp, Nat.succ_le_succ hco, hlt, hpos, hfi⟩

theorem compared_false : compared false codes = codes := by
  cases codes <;> rfl

variable {e' : Entry η}

/-- A comparison either removes the entry without a wrong code, or it counts one and removes the entry at the third. -/
theorem Entry.check_cases [DecidableEq η] (h : e.check now code = (v, e')) : (v.isWrong = false ∧ v.removes = true) ∨
      (¬ e.expired now = true ∧ v.isWrong = true ∧
        (v.removes = false → e' = { e with attempts := e.attempts + 1 } ∧ e.attempts + 1 < 3)) := by
  unfold Entry.check at h
  by_cases hexp : e.expired now = true
  · rw [if_pos hexp, Prod.mk.injEq] at h
    obtain ⟨rfl, -⟩ := h
    exact .inl ⟨rfl, rfl⟩
  rw [if_neg hexp] at h
  by_cases hco : e.code = code
  · rw [if_pos hco, Prod.mk.injEq] at h
    obtain ⟨rfl, -⟩ := h
    exact .inl ⟨rfl, rfl⟩
  rw [if_neg hco, Prod.mk.injEq] at h
  obtain ⟨rfl, rfl⟩ := h
  refine .inr ⟨hexp, ?_, fun hst => ⟨rfl, ?_⟩⟩
  · split_ifs <;> rfl
  split_ifs at hst with hth
  · cases hst
  · exact not_le.1 hth

theorem Limited.check [DecidableEq η] (h : Limited T entry codes now) (he : e ∈ entry)
    (hch : e.check now code = (v, e')) :
    Limited T (if v.removes then none else some e') (compared v.isWrong codes) now := by
  rcases Entry.check_cases hch with ⟨hwr, hrem⟩ | ⟨hli, hwr, hst⟩
  · rw [hwr, compared_false, if_pos hrem]
    exact h.forget
  rw [hwr]
  refine h.wrongCode he hli fun e'' he'' => ?_
  cases hrem : v.removes with
  | true => simp [hrem] at he''
  | false =>
    obtain rfl : e' = e'' := by simpa [hrem] using he''
    exact hst hrem

/-- What a request makes of the entry of its subject: a missing entry is created, its counters are renewed, and below
the limit a code is set. -/
def Serves (ttl : Int) (now : Time) (entry : Option (Entry η)) (ok : Bool) (entry' : Option (Entry η)) : Prop :=
  ∃ e : Entry η, (entry = some e ∨ entry = none ∧ e.expiresAt = Time.zero) ∧
    ((ok = false ∧ entry' = some (e.renew now)) ∨
      ∃ payload code, (e.renew now).requests < 2 ∧ ok = true ∧
        entry' = some ((e.renew now).setCode now ttl payload code))

theorem Limited.serves {ok : Bool} (h : Limited T entry codes now) (hze : Time.zero < now)
    (hla : (∀ e ∈ entry, e.expired now = true) → AfterLast T codes now) (hser : Serves T now entry ok entry') :
    Limited T entry' (issued now ok codes) now := by
  obtain ⟨e, he, hca⟩ := hser
  have hba : e ∈ entry ∨ e.expired now = true := by
    refine he.imp id fun hnew => Entry.expired_iff.2 ?_
    rw [hnew.2]
    exact hze
  rcases hca with ⟨rfl, rfl⟩ | ⟨pay, code, hreq, rfl, rfl⟩
  · exact h.renew hba
  refine h.setCode hba (fun hexp => hla fun e' he' => ?_) hreq pay code
  rcases he with rfl | ⟨rfl, -⟩
  · exact Option.some.inj he' ▸ hexp
  · cases he'

def Verifies [DecidableEq η] (code : η) (now : Time) (entry : Option (Entry η)) (v : Verdict)
    (entry' : Option (Entry η)) : Prop :=
  (entry = none ∧ v = .absent ∧ entry' = none) ∨
    ∃ e e', entry = some e ∧ e.check now code = (v, e') ∧ entry' = if v.removes then none else some e'

theorem Limited.verifies [DecidableEq η] (h : Limited T entry codes now)
    (hver : Verifies code now entry v entry') : Limited T entry' (compared v.isWrong codes) now := by
  rcases hver with ⟨-, rfl, rfl⟩ | ⟨e, e', he, hch, rfl⟩
  · rw [Verdict.isWrong, compared_false]
    exact h.forget
  · exact h.check he hch

/-- A code is requested with the one ttl, while the store is not full, and for a subject without an entry that has not
expired only when the last code issued to it has expired. -/
def Waits (T : Int) (subject : String) (full : Bool) (entry : Option (Entry η)) (codes : List (Time × Nat))
    (now : Time) : Call → Prop
  | .issue subject' _ ttl _ => full = false ∧ (subject' = subject →
      ttl = T ∧ ((∀ e ∈ entry, e.expired now = true) → AfterLast T codes now))
  | _ => True

section Plugin

variable {m m' : Memory} {subject : String}

def Memory.entryOf (m : Memory) (subject : String) : Option (Entry String) := (m.get subject).map (·.toEntry)

def Memory.Waits (T : Int) (subject : String) (st : Tracked Memory) (l : Time × Call) : Prop :=
  Otp.Waits T subject (Memory.maxEntries ≤ st.store.size) (st.store.entryOf subject) st.codes l.1 l.2

theorem Memory.entryOf_sweepLocked (m : Memory) (now : Time) (subject : String) :
    (m.sweepLocked now).entryOf subject = (m.entryOf subject).filter fun e => !e.expired now := by
  rw [entryOf, sweepLocked, Assoc.Map.get_filter, entryOf]
  cases m.get subject with
  | none => rfl
  | some item => cases hexp : item.expired now <;> simp [Option.filter, hexp]

variable {item : MemoryEntry} {result : Except Err String} {l : Time × Call} {ttl : Int}

theorem Memory.entryOf_put {subject' : String} : entryOf (m.put subject item) subject' =
      if subject' = subject then some item.toEntry else m.entryOf subject' := by
  rw [entryOf, Assoc.Map.get_put, entryOf]
  split_ifs <;> rfl

/-- While the map is not full a new entry takes no other one's place. -/
theorem Memory.ensure_spec (hsi : m.size < maxEntries) (h : m.ensure subject = (m', item)) :
    (∀ subject', subject' ≠ subject → m'.entryOf subject' = m.entryOf subject') ∧
    (m.entryOf subject = some item.toEntry ∨ m.entryOf subject = none ∧ item.expiresAt = Time.zero) := by
  unfold ensure at h
  split at h
  · rename_i item0 hit
    obtain ⟨rfl, rfl⟩ := mk.inj h
    exact ⟨fun _ _ => rfl, .inl (by rw [entryOf, hit]; rfl)⟩
  rename_i hn
  obtain ⟨rfl, rfl⟩ := mk.inj h
  refine ⟨fun subject' hne => ?_, .inr ⟨by rw [entryOf, hn]; rfl, rfl⟩⟩
  rw [entryOf_put, if_neg hne, evictOneLocked, if_pos hsi]

/-- A request is refused as invalid, or it serves its subject after the sweep. -/
theorem Memory.issueOTP_spec {pay : String} {code : Option String}
    (hsi : m.size < maxEntries) (h : m.issueOTP now subject pay ttl code = (result, m')) :
    (result.isOk = false ∧ m' = m) ∨
    Serves ttl now ((m.sweepLocked now).entryOf subject) result.isOk (m'.entryOf subject) ∧
      ∀ subject', subject' ≠ subject → m'.entryOf subject' = (m.sweepLocked now).entryOf subject' := by
  unfold issueOTP at h
  split at h
  · obtain ⟨rfl, rfl⟩ := mk.inj h
    exact .inl ⟨rfl, rfl⟩
  rcases hens : (m.sweepLocked now).ensure subject with ⟨m1, item⟩
  rw [hens] at h
  have hsi : (m.sweepLocked now).size < maxEntries := (m.size_filter_le _).trans_lt hsi
  obtain ⟨hoth, hit⟩ := ensure_spec hsi hens
  have hput (item' : MemoryEntry) (subject' : String) (hne : subject' ≠ subject) :
      entryOf (m1.put subject item') subject' = (m.sweepLocked now).entryOf subject' := by
    rw [entryOf_put, if_neg hne, hoth subject' hne]
  have hse (item' : MemoryEntry) : entryOf (m1.put subject item') subject = some item'.toEntry := by
    rw [entryOf_put, if_pos rfl]
  right
  dsimp only at h
  split at h
  · obtain ⟨rfl, rfl⟩ := mk.inj h
    exact ⟨⟨item.toEntry, hit, .inl ⟨rfl, hse _⟩⟩, hput _⟩
  rename_i hreq
  split at h
  · obtain ⟨rfl, rfl⟩ := mk.inj h
    exact ⟨⟨item.toEntry, hit, .inl ⟨rfl, hse _⟩⟩, hput _⟩
  rename_i code'
  obtain ⟨rfl, rfl⟩ := mk.inj h
  exact ⟨⟨item.toEntry, hit, .inr ⟨pay, code', not_le.1 hreq, rfl, hse _⟩⟩, hput _⟩

theorem Memory.verifyOTP_spec {code : String} (h : m.verifyOTP now subject code = (v, m')) :
    Verifies code now (m.entryOf subject) v (m'.entryOf subject) ∧
      ∀ subject', subject' ≠ subject → m'.entryOf subject' = m.entryOf subject' := by
  unfold verifyOTP at h
  split at h
  · rename_i hn
    obtain ⟨rfl, rfl⟩ := mk.inj h
    have hen : m.entryOf subject = none := by rw [entryOf, hn]; rfl
    exact ⟨.inl ⟨hen, rfl, hen⟩, fun _ _ => rfl⟩
  rename_i item hit
  rcases hch : item.check now code with ⟨v', e'⟩
  rw [hch] at h
  obtain ⟨rfl, rfl⟩ := mk.inj h
  have hen : m.entryOf subject = some item.toEntry := by rw [entryOf, hit]; rfl
  refine ⟨.inr ⟨item.toEntry, e', hen, hch, ?_⟩, fun subject' hne => ?_⟩
  · cases hrem : v'.removes
    · rw [if_neg Bool.false_ne_true, if_neg Bool.false_ne_true, entryOf_put, if_pos rfl]
    · rw [if_pos rfl, if_pos rfl, entryOf, Assoc.Map.get_filter_ne, if_pos rfl]
      rfl
  · split_ifs
    · rw [entryOf, Assoc.Map.get_filter_ne, if_neg hne]
      rfl
    · rw [entryOf_put, if_neg hne]

theorem limited_memoryStep {st st' : Tracked Memory}
    (h : Limited T (st.store.entryOf subject) st.codes st.clock ∧ Time.zero < st.clock)
    (hwa : Memory.Waits T subject st l) (hs : memoryStep subject st l = some st') :
    Limited T (st'.store.entryOf subject) st'.codes st'.clock ∧ Time.zero < st'.clock := by
  obtain ⟨now, call⟩ := l
  unfold memoryStep at hs
  split at hs
  · cases hs
  rename_i hcl
  have hnow := h.1.mono (not_lt.1 hcl)
  have hze := h.2.trans_le (not_lt.1 hcl)
  dsimp only at hnow hze hs
  split at hs
  · rename_i subject' pay ttl code
    rcases his : st.store.issueOTP now subject' pay ttl code with ⟨result, store⟩
    rw [his] at hs
    cases hs
    refine ⟨?_, hze⟩
    have hsi : st.store.size < maxEntries := not_le.1 (of_decide_eq_false hwa.1)
    rcases issueOTP_spec hsi his with ⟨hfai, rfl⟩ | ⟨hser, hoth⟩
    · rw [hfai, issued, if_neg Bool.false_ne_true, ite_self]
      exact hnow
    -- the sweep before the request takes expired entries only
    have hsw := entryOf_sweepLocked st.store now subject
    by_cases hsub : subject' = subject
    · subst hsub
      obtain ⟨rfl, hla⟩ := hwa.2 rfl
      rw [if_pos rfl]
      refine Limited.serves (hsw ▸ hnow.filter _) hze (fun hall => hla fun e he => ?_) hser
      by_contra hli
      exact hli (hall e (hsw ▸ filter_eq_some_iff.2 ⟨he, by simpa using hli⟩))
    · rw [if_neg hsub, hoth subject (Ne.symm hsub), hsw]
      exact hnow.filter _
  · rename_i subject' code
    rcases hver : st.store.verifyOTP now subject' code with ⟨v, store⟩
    rw [hver] at hs
    cases hs
    refine ⟨?_, hze⟩
    obtain ⟨hveri, hoth⟩ := verifyOTP_spec hver
    by_cases hsub : subject' = subject
    · subst hsub
      rw [if_pos rfl]
      exact hnow.verifies hveri
    · rw [if_neg hsub, hoth subject (Ne.symm hsub)]
      exact hnow
  · cases hs

end Plugin

section BuiltIn

variable {c c' : Cache η} {hmac : String → η} {blank : η} {subject : String}

def Cache.Waits (T : Int) (subject : String) (st : Tracked (Cache η)) (l : Time × Call) : Prop :=
  Otp.Waits T subject (st.store.maxSize ≤ st.store.order.size) (st.store.order.get subject) st.codes l.1 l.2

variable {identifier identifier' : String}

theorem Cache.get_toFront : (c.toFront identifier e).order.get identifier' =
      if identifier' = identifier then some e else c.order.get identifier' :=
  Assoc.Map.get_putFront

theorem Cache.get_delete :
    (c.delete identifier).order.get identifier' = if identifier' = identifier then none else c.order.get identifier' :=
  Assoc.Map.get_filter_ne

theorem Cache.getOrCreate_spec (hsi : c.order.size < c.maxSize) (h : c.getOrCreate blank subject = (c', e)) :
    (∀ subject', subject' ≠ subject → c'.order.get subject' = c.order.get subject') ∧
    (c.order.get subject = some e ∨ c.order.get subject = none ∧ e.expiresAt = Time.zero) := by
  unfold getOrCreate at h
  split at h
  · rename_i e0 he
    obtain ⟨rfl, rfl⟩ := Prod.mk.inj h
    exact ⟨fun subject' hne => by rw [get_toFront, if_neg hne], .inl he⟩
  rename_i hn
  obtain ⟨rfl, rfl⟩ := Prod.mk.inj h
  refine ⟨fun subject' hne => ?_, .inr ⟨hn, rfl⟩⟩
  rw [get_toFront, if_neg hne, evictOldest, if_neg (not_le.2 hsi)]

theorem Cache.request_spec {pay code : String} (hsi : c.order.size < c.maxSize)
    (h : c.requestOTPWithPayload hmac blank now subject pay ttl code = (result, c')) :
    Serves ttl now (c.order.get subject) result.isOk (c'.order.get subject) ∧
      ∀ subject', subject' ≠ subject → c'.order.get subject' = c.order.get subject' := by
  unfold requestOTPWithPayload at h
  rcases hcre : c.getOrCreate blank subject with ⟨c1, e⟩
  rw [hcre] at h
  obtain ⟨hoth, he⟩ := getOrCreate_spec hsi hcre
  have hput (e' : Entry η) (subject' : String) (hne : subject' ≠ subject) :
      (c1.toFront subject e').order.get subject' = c.order.get subject' := by
    rw [get_toFront, if_neg hne, hoth subject' hne]
  have hse (e' : Entry η) : (c1.toFront subject e').order.get subject = some e' := by
    rw [get_toFront, if_pos rfl]
  dsimp only at h
  split at h
  · obtain ⟨rfl, rfl⟩ := Prod.mk.inj h
    exact ⟨⟨e, he, .inl ⟨rfl, hse _⟩⟩, hput _⟩
  rename_i hreq
  obtain ⟨rfl, rfl⟩ := Prod.mk.inj h
  exact ⟨⟨e, he, .inr ⟨pay, hmac code, not_le.1 hreq, rfl, hse _⟩⟩, hput _⟩

variable [DecidableEq η]

theorem Cache.verifyOTP_spec {code : String} (h : c.verifyOTP hmac now subject code = (v, c')) :
    Verifies (hmac code) now (c.order.get subject) v (c'.order.get subject) ∧
      ∀ subject', subject' ≠ subject → c'.order.get subject' = c.order.get subject' := by
  unfold verifyOTP at h
  split at h
  · rename_i hn
    obtain ⟨rfl, rfl⟩ := Prod.mk.inj h
    exact ⟨.inl ⟨hn, rfl, hn⟩, fun _ _ => rfl⟩
  rename_i e he
  rcases hch : e.check now (hmac code) with ⟨v', e'⟩
  rw [hch] at h
  obtain ⟨rfl, rfl⟩ := Prod.mk.inj h
  refine ⟨.inr ⟨e, e', he, hch, ?_⟩, fun subject' hne => ?_⟩
  · cases hrem : v'.removes
    · rw [if_neg Bool.false_ne_true, if_neg Bool.false_ne_true, get_toFront, if_pos rfl]
    · rw [if_pos rfl, if_pos rfl, get_delete, if_pos rfl]
  split_ifs
  · rw [get_delete, if_neg hne]
  · rw [get_toFront, if_neg hne]

theorem limited_cacheStep {st st' : Tracked (Cache η)}
    (h : Limited T (st.store.order.get subject) st.codes st.clock ∧ Time.zero < st.clock)
    (hwa : Cache.Waits T subject st l) (hs : cacheStep hmac blank subject st l = some st') :
    Limited T (st'.store.order.get subject) st'.codes st'.clock ∧ Time.zero < st'.clock := by
  obtain ⟨now, call⟩ := l
  unfold cacheStep at hs
  split at hs
  · cases hs
  rename_i hcl
  have hnow := h.1.mono (not_lt.1 hcl)
  have hze := h.2.trans_le (not_lt.1 hcl)
  dsimp only at hnow hze hs
  split at hs
  · rename_i subject' pay ttl code
    rcases his : st.store.requestOTPWithPayload hmac blank now subject' pay ttl code with ⟨result, store⟩
    rw [his] at hs
    cases hs
    refine ⟨?_, hze⟩
    obtain ⟨hser, hoth⟩ := request_spec (not_le.1 (of_decide_eq_false hwa.1)) his
    by_cases hsub : subject' = subject
    · subst hsub
      obtain ⟨rfl, hla⟩ := hwa.2 rfl
      rw [if_pos rfl]
      exact hnow.serves hze hla hser
    · rw [if_neg hsub, hoth subject (Ne.symm hsub)]
      exact hnow
  · cases hs
  · rename_i subject' code
    rcases hver : st.store.verifyOTP hmac now subject' code with ⟨v, store⟩
    rw [hver] at hs
    cases hs
    refine ⟨?_, hze⟩
    obtain ⟨hveri, hoth⟩ := verifyOTP_spec hver
    by_cases hsub : subject' = subject
    · subst hsub
      rw [if_pos rfl]
      exact hnow.verifies hveri
    · rw [if_neg hsub, hoth subject (Ne.symm hsub)]
      exact hnow
  · cases hs
    refine ⟨?_, hze⟩
    have hsw : (st.store.sweepExpired now).order.get subject =
        (st.store.order.get subject).filter fun e => !e.expired now := Assoc.Map.get_filter
    rw [hsw]
    exact hnow.filter _

/-- In every run of either store that meets the guard, at most two codes are issued to the subject in any period of
length `T`, and at most three wrong codes are compared with each of them. -/
theorem codes_bounded (hmac : String → η) (blank : η) (subject : String) (T : Int) (maxSize : Nat) (start : Time)
    (hstart : Time.zero < start) :
    (∀ tr st, Run (Guarded (Memory.Waits T subject) (stepsTo (memoryStep subject))) (Memory.opened start) tr st →
      Bounded T st.codes) ∧
    (∀ tr st, Run (Guarded (Cache.Waits T subject) (stepsTo (cacheStep hmac blank subject)))
      (Cache.opened maxSize start) tr st → Bounded T st.codes) := by
  constructor
  · intro tr st hrun
    have hlim := hrun.invariant_of_guard
      (fun st => Limited T (st.store.entryOf subject) st.codes st.clock ∧ Time.zero < st.clock)
      ⟨limited_nil, hstart⟩ fun st l st' h hwa hs => limited_memoryStep h hwa hs
    exact hlim.1.bounded
  · intro tr st hrun
    have hlim := hrun.invariant_of_guard
      (fun st => Limited T (st.store.order.get subject) st.codes st.clock ∧ Time.zero < st.clock)
      ⟨limited_nil, hstart⟩ fun st l st' h hwa hs => limited_cacheStep h hwa hs
    exact hlim.1.bounded

end BuiltIn

instance (T : Int) (subject : String) (full : Bool) (entry : Option (Entry η)) (codes : List (Time × Nat)) (now : Time)
    (call : Call) : Decidable (Waits T subject full entry codes now call) := by
  unfold Waits AfterLast
  split <;> infer_instance

instance (T : Int) (subject : String) (st : Tracked Memory) (l : Time × Call) :
    Decidable (Memory.Waits T subject st l) := inferInstanceAs (Decidable (Otp.Waits ..))

instance (T : Int) (subject : String) (st : Tracked (Cache η)) (l : Time × Call) :
    Decidable (Cache.Waits T subject st l) := inferInstanceAs (Decidable (Otp.Waits ..))

/-! A subject that uses up its attempts, and asks again after the last code has expired. -/

def askLater : List (Time × Call) :=
  [(100, .issue "a" "" 5 (some "111111")), (101, .verify "a" "0"), (102, .issue "a" "" 5 (some "222222")),
    (103, .issue "a" "" 5 (some "333333")), (104, .verify "a" "1"), (104, .verify "a" "2"),
    (108, .issue "a" "" 5 (some "444444"))]

theorem codes_bounded_later :
    (∃ st, Run (Guarded (Memory.Waits 5 "a") (stepsTo (memoryStep "a"))) (Memory.opened 100) askLater st ∧
      st.codes = [(108, 0), (102, 2), (100, 1)] ∧ Bounded 5 st.codes) ∧
    ∃ st, Run (Guarded (Cache.Waits 5 "a") (stepsTo (cacheStep id "" "a"))) (Cache.opened 10000 100) askLater st ∧
      st.codes = [(108, 0), (102, 2), (100, 1)] ∧ Bounded 5 st.codes := by
  obtain ⟨hmem, hca⟩ := codes_bounded id "" "a" 5 10000 100 (by decide)
  exact ⟨Run.exists_of_guardedExec_imp (by decide +kernel) fun st hrun hco => ⟨hco, hmem _ _ hrun⟩,
    Run.exists_of_guardedExec_imp (by decide +kernel) fun st hrun hco => ⟨hco, hca _ _ hrun⟩⟩

/-! Two codes, three wrong guesses, and the entry is gone with its counters: the next code comes at once. -/

def askAgain : List (Time × Call) :=
  [(100, .issue "a" "" 5 (some "111111")), (100, .issue "a" "" 5 (some "222222")), (101, .verify "a" "0"),
    (101, .verify "a" "1"), (101, .verify "a" "2"), (101, .issue "a" "" 5 (some "333333"))]

theorem third_code_issued :
    (∃ st, Run (stepsTo (memoryStep "a")) (Memory.opened 100) askAgain st ∧ ¬ Bounded 5 st.codes) ∧
    ∃ st, Run (stepsTo (cacheStep id "" "a")) (Cache.opened 10000 100) askAgain st ∧ ¬ Bounded 5 st.codes := by
  have hth (codes : List (Time × Nat)) (hco : codes = [(101, 0), (100, 3), (100, 0)]) : ¬ Bounded 5 codes := by
    rintro ⟨hwin, -⟩
    subst hco
    exact absurd (hwin 100) (by decide)
  exact ⟨Run.exists_of_exec_imp (by decide +kernel) fun st _ => hth st.codes,
    Run.exists_of_exec_imp (by decide +kernel) fun st _ => hth st.codes⟩

/-! Concurrent verifications of one identifier. Two of them that have found the entry before either deletes it both
accept its code, and one that has found an entry accepts its code after a later code was issued. -/

variable {η : Type}

/-- A section under the lock of an entry works on the entry in the map, and a comparison has no accepting call beside
it. -/
def Alone (st : Scene η) (l : Time × Action) : Prop := match l.2 with
  | .advance i _ => match st.calls[i]? with
    | some (.setCode entry _ _) => st.items = some entry
    | some (.compare entry _) => st.items = some entry ∧ ∀ call ∈ st.calls, call.accepts = false
    | _ => True
  | _ => True

instance (st : Scene η) (l : Time × Action) : Decidable (Alone st l) := by
  unfold Alone
  split
  · split <;> infer_instance
  · infer_instance

/-- The entry in the map has no code, or the latest one, and if that was accepted somebody is about to delete it. -/
structure Single (st : Scene η) : Prop where
  clock : Time.zero < st.clock
  cell : ∀ c ∈ st.current, c.expiresAt = Time.zero ∨ (c.serial = st.issued ∧
    (st.issued ∈ st.accepted.map Prod.fst → ∃ call ∈ st.calls, call.accepts = true))
  known : ∀ a ∈ st.accepted, a.1 ≤ st.issued ∧ a.1 = a.2
  once : (st.accepted.map Prod.fst).Nodup

variable {st st' : Scene η} {now : Time} {i entry : Nat} {cell : Cell η} {next : List CallPoint}

section

variable (h : Single st)
include h

theorem Single.tick (hnow : st.clock ≤ now) : Single { st with clock := now } :=
  { h with clock := h.clock.trans_le hnow }

theorem Single.begin (call : CallPoint) : Single { st with calls := st.calls ++ [call] } := by
  refine { h with cell := fun c hc => (h.cell c hc).imp_right ?_ }
  rintro ⟨hser, hpen⟩
  refine ⟨hser, fun hacc => ?_⟩
  obtain ⟨call', hca, hacce⟩ := hpen hacc
  exact ⟨call', mem_append_left _ hca, hacce⟩

theorem Single.goOn {point : CallPoint} (hi : st.calls[i]? = some point) (hpo : point.accepts = false)
    (next : List CallPoint) : Single (st.goOn i next) := by
  refine { h with cell := fun c hc => (h.cell c hc).imp_right ?_ }
  rintro ⟨hser, hpen⟩
  refine ⟨hser, fun hacce => ?_⟩
  obtain ⟨call, hca, hacc⟩ := hpen hacce
  rcases Pool.eq_or_mem_replace hi hca with rfl | hca
  · rw [hpo] at hacc
    cases hacc
  · exact ⟨call, hca, hacc⟩

theorem Single.drop (calls : List CallPoint) : Single { st with items := none, calls := calls } := by
  refine { h with cell := fun c hc => ?_ }
  cases hc

theorem Single.update (hit : st.items = some entry) (hce : st.heap[entry]? = some cell) {e : Entry η}
    (he : e.expiresAt = cell.expiresAt) : Single { st with heap := st.heap.set entry { cell with toEntry := e } } := by
  refine { h with cell := fun c hc => ?_ }
  obtain ⟨hlt, -⟩ := List.getElem?_eq_some_iff.1 hce
  obtain rfl : { cell with toEntry := e } = c := by
    simpa [Scene.current, hit, List.getElem?_set_self hlt] using hc
  have hold := h.cell cell (by simp [Scene.current, hit, hce])
  rwa [← he] at hold

end

theorem Entry.expiresAt_renew {e : Entry η} : (e.renew now).expiresAt = e.expiresAt := by
  unfold Entry.renew
  split_ifs <;> rfl

theorem Entry.expiresAt_check [DecidableEq η] (e : Entry η) (now : Time) (code : η) :
    (e.check now code).2.expiresAt = e.expiresAt := by
  unfold Entry.check
  split_ifs <;> rfl

variable {code : η}

theorem Entry.expired_of_accepted [DecidableEq η] {e : Entry η} {pay : String}
    (h : (e.check now code).1 = .accepted pay) : e.expired now = false := by
  unfold Entry.check at h
  split_ifs at h with hexp
  all_goals simp_all

section

variable (h : Single st)
include h

theorem Single.create (blank : η) :
    Single { st with heap := st.heap ++ [{ code := blank }], items := some st.heap.length } := by
  refine { h with cell := fun c hc => .inl ?_ }
  obtain rfl : ({ code := blank } : Cell η) = c := by simpa [Scene.current] using hc
  rfl

theorem Single.issue (hit : st.items = some entry) (hce : st.heap[entry]? = some cell) (e : Entry η) :
    Single { st with heap := st.heap.set entry ⟨e, st.issued + 1⟩, issued := st.issued + 1 } := by
  refine ⟨h.clock, fun c hc => .inr ?_, fun a ha => ?_, h.once⟩
  · obtain ⟨hlt, -⟩ := List.getElem?_eq_some_iff.1 hce
    obtain rfl : ⟨e, st.issued + 1⟩ = c := by simpa [Scene.current, hit, List.getElem?_set_self hlt] using hc
    refine ⟨rfl, fun hacc => ?_⟩
    obtain ⟨a, ha, hser⟩ := mem_map.1 hacc
    have := (h.known a ha).1
    dsimp only at hser
    omega
  · have := h.known a ha
    dsimp only
    omega

theorem single_getOrCreate {blank : η} {pay : String} {ttl : Int}
    (hi : st.calls[i]? = some (.getOrCreate pay ttl)) : Single (st.getOrCreate blank i pay ttl) := by
  unfold Scene.getOrCreate
  split
  · exact h.goOn hi rfl _
  · exact (h.create blank).goOn hi rfl _

theorem single_setCode {pay : String} {ttl : Int}
    (hi : st.calls[i]? = some (.setCode entry pay ttl)) (hit : st.items = some entry)
    (hce : st.heap[entry]? = some cell) : Single (st.setCode now i entry pay ttl code cell) := by
  unfold Scene.setCode
  dsimp only
  split
  · exact (h.update hit hce Entry.expiresAt_renew).goOn hi rfl _
  · exact (h.issue hit hce _).goOn hi rfl _

theorem single_get {code : String} (hi : st.calls[i]? = some (.get code)) : Single (st.get i code) := by
  unfold Scene.get
  split
  · exact h.goOn hi rfl _
  · exact h.goOn hi rfl _

/-- A code that is accepted is the latest one, and was not accepted before. -/
theorem Single.accept (hce : cell ∈ st.current) (hli : cell.expired st.clock = false)
    (hn : ∀ call ∈ st.calls, call.accepts = false) {pay : String} :
    Single ({ st with accepted := (cell.serial, st.issued) :: st.accepted }.goOn i [.delete (.accepted pay)]) := by
  obtain ⟨hser, hpen⟩ : cell.serial = st.issued ∧ _ := by
    refine (h.cell cell hce).resolve_left fun hze => ?_
    have hexp : cell.expired st.clock = true := decide_eq_true (hze.trans_lt h.clock)
    rw [hli] at hexp
    cases hexp
  have hnew : st.issued ∉ st.accepted.map Prod.fst := by
    intro hacce
    obtain ⟨call, hca, hacc⟩ := hpen hacce
    rw [hn call hca] at hacc
    cases hacc
  refine ⟨h.clock, fun c hc => ?_, ?_, ?_⟩
  · obtain rfl : cell = c := some.inj (mem_def.1 hce ▸ hc)
    exact .inr ⟨hser, fun _ => ⟨_, Pool.mem_replace (mem_singleton_self _), rfl⟩⟩
  · exact forall_mem_cons.2 ⟨⟨hser.le, hser⟩, h.known⟩
  · refine nodup_cons.2 ⟨?_, h.once⟩
    rwa [hser]

theorem single_compare [DecidableEq η] {given : String}
    (hi : st.calls[i]? = some (.compare entry given)) (hit : st.items = some entry)
    (hn : ∀ call ∈ st.calls, call.accepts = false) (hce : st.heap[entry]? = some cell) :
    Single (st.compare st.clock i entry code cell) := by
  unfold Scene.compare
  have hupd := h.update hit hce (Entry.expiresAt_check cell.toEntry st.clock code)
  rcases hch : cell.check st.clock code with ⟨verdict, e⟩
  rw [hch] at hupd
  cases verdict with
  | wrong | absent | exceeded => exact hupd.goOn hi rfl _
  | accepted pay =>
    obtain ⟨hlt, -⟩ := List.getElem?_eq_some_iff.1 hce
    have hli : cell.expired st.clock = false := Entry.expired_of_accepted (congrArg Prod.fst hch)
    have hexp : e.expiresAt = cell.expiresAt := by
      rw [← Entry.expiresAt_check cell.toEntry st.clock code, hch]
    refine hupd.accept (?_ : ({ cell with toEntry := e } : Cell η) ∈ _) ?_ hn
    · simp [Scene.current, hit, List.getElem?_set_self hlt]
    · unfold Entry.expired at hli ⊢
      rwa [hexp]

theorem single_sweepExpired : Single (st.sweepExpired now) := by
  unfold Scene.sweepExpired
  split
  · split_ifs
    · exact h.drop _
    · exact h
  · exact h

theorem single_raceStep [DecidableEq η] {hmac : String → η} {blank : η} {l : Time × Action}
    (hal : Alone st l) (hs : raceStep hmac blank st l = some st') : Single st' := by
  obtain ⟨now, action⟩ := l
  unfold raceStep at hs
  dsimp only at hs
  split at hs
  · cases hs
  rename_i hcl
  replace h := h.tick (not_lt.1 hcl)
  cases action with
  | requestOTPWithPayload pay ttl | verifyOTP code =>
    cases hs
    exact h.begin _
  | sweepExpired =>
    cases hs
    exact single_sweepExpired h
  | advance i code =>
    unfold Alone at hal
    dsimp only at hs hal
    split at hs
    · rename_i pay ttl hi
      cases hs
      exact single_getOrCreate h hi
    · rename_i entry pay ttl hi
      rw [hi] at hal
      obtain ⟨cell, hce, rfl⟩ := map_eq_some_iff.1 hs
      exact single_setCode h hi hal hce
    · rename_i code' hi
      cases hs
      exact single_get h hi
    · rename_i entry code' hi
      rw [hi] at hal
      obtain ⟨cell, hce, rfl⟩ := map_eq_some_iff.1 hs
      exact single_compare h hi hal.1 hal.2 hce
    · cases hs
      exact h.drop _
    · cases hs

end

/-- In every run that meets the guard each code is accepted at most once, and only while it is the latest one. -/
theorem accepted_once [DecidableEq η] (hmac : String → η) (blank : η) (start : Time) (hstart : Time.zero < start)
    (tr : List (Time × Action)) (st : Scene η)
    (hrun : Run (Guarded Alone (stepsTo (raceStep hmac blank))) { clock := start } tr st) :
    (st.accepted.map Prod.fst).Nodup ∧ ∀ a ∈ st.accepted, a.1 = a.2 := by
  have hsin : Single st := by
    refine hrun.invariant_of_guard Single ?_ fun st l st' h hal hs => single_raceStep h hal hs
    exact ⟨hstart, by simp [Scene.current], by simp, nodup_nil⟩
  exact ⟨hsin.once, fun a ha => (hsin.known a ha).2⟩

/-! Two codes, each accepted by one of two verifications. -/

def requests (t : Time) (i : Nat) (code : String) : List (Time × Action) :=
  [(t, .requestOTPWithPayload "" 5), (t, .advance i ""), (t, .advance i code)]

def goOn (t : Time) (calls : List Nat) : List (Time × Action) := calls.map fun i => (t, .advance i "")

def oneByOne : List (Time × Action) :=
  requests 1 0 "111111" ++ [(2, .verifyOTP "111111"), (2, .verifyOTP "111111")] ++ goOn 2 [0, 0, 0, 0] ++
    requests 3 0 "222222" ++ [(3, .verifyOTP "222222")] ++ goOn 3 [0, 0]

theorem accepted_once_each : ∃ st, Run (Guarded Alone (stepsTo (raceStep id ""))) { clock := 0 } oneByOne st ∧
    st.accepted = [(2, 2), (1, 1)] ∧ (st.accepted.map Prod.fst).Nodup := by
  exact Run.exists_of_guardedExec_imp (by decide +kernel) fun st hrun hacc =>
    ⟨hacc, (accepted_once id "" 0 (by decide) _ st hrun).1⟩

/-! Two verifications find the entry, both accept, and both return. -/

def sideBySide : List (Time × Action) :=
  requests 1 0 "111111" ++ [(2, .verifyOTP "111111"), (2, .verifyOTP "111111")] ++ goOn 2 [0, 1, 0, 1, 0, 0]

/-- A verification that has found the entry. Three wrong codes delete it, and a new code is issued; then the code of the
deleted entry is accepted. -/
def afterDeletion : List (Time × Action) :=
  requests 1 0 "111111" ++ [(2, .verifyOTP "111111")] ++ goOn 2 [0] ++ [(2, .verifyOTP "0")] ++ goOn 2 [1, 1] ++
    [(2, .verifyOTP "0")] ++ goOn 2 [1, 1] ++ [(2, .verifyOTP "0")] ++ goOn 2 [1, 1, 1] ++ requests 3 1 "222222" ++
    goOn 3 [0, 0]

theorem accepted_twice :
    (∃ st, Run (stepsTo (raceStep id "")) { clock := 0 } sideBySide st ∧
      st.accepted = [(1, 1), (1, 1)] ∧ st.calls = []) ∧
    ∃ st, Run (stepsTo (raceStep id "")) { clock := 0 } afterDeletion st ∧ st.accepted = [(1, 2)] ∧ st.calls = [] :=
  ⟨Run.exists_of_exec (by decide +kernel), Run.exists_of_exec (by decide +kernel)⟩

end Xraytool.Otp
