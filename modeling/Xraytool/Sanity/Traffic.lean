import Xraytool.Spec.Traffic

/-! What a pass of `UpdateLocalStorage` does to the totals of one user, one direction at a time: it adds the gain of the
summed counters over the last raw value, or leaves the user alone if there is nothing to report. -/

namespace Xraytool

namespace Traffic

open Tally List

def counter (d : Direction) (email : String) (stats : List TrafficStat) : Int :=
  total TrafficStat.email (TrafficStat.count · d) email stats

@[simp] theorem counter_nil {d : Direction} {email : String} : counter d email [] = 0 := rfl

variable {d : Direction} {stats : List TrafficStat} {email : String} {stat : TrafficStat} {sample : LiveSample}
  {user : UserState}

theorem counter_cons :
    counter d email (stat :: stats) = (if stat.email = email then stat.count d else 0) + counter d email stats := rfl

def share (up down : Nat) : Direction → Nat
  | .up => up
  | .down => down

theorem counter_grow {up down : Nat} {email' : String} : counter d email (grow email' up down stats) =
      counter d email stats + if email' = email then (share up down d : Int) else 0 := by
  induction stats with
  | nil => cases d <;> simp [grow, counter_cons, share, TrafficStat.count]
  | cons stat stats ih =>
    rw [grow]
    by_cases hst : stat.email = email'
    · rw [if_pos hst, counter_cons, counter_cons, ← hst]
      by_cases hem : stat.email = email
      · cases d <;> simp only [hem, share, TrafficStat.count, if_true] <;> omega
      · simp [hem]
    · rw [if_neg hst, counter_cons, ih, counter_cons]
      omega

def held (d : Direction) (email : String) (merged : List (String × TrafficStat)) : Int :=
  ((merged.lookup email).getD {}).count d

def Filed (merged : List (String × TrafficStat)) : Prop :=
  ∀ e ∈ merged, e.2.email = e.1 ∧ merged.lookup e.1 = some e.2

theorem held_mergeStat {merged : List (String × TrafficStat)} : held d email (mergeStat merged stat) =
    if stat.email = email then int64 (held d email merged + stat.count d) else held d email merged := by
  unfold held mergeStat
  rw [Assoc.lookup_put]
  by_cases h : email = stat.email
  · subst h
    cases d <;> simp [TrafficStat.count]
  · simp [h, Ne.symm h]

variable {merged : List (String × TrafficStat)} {results : List (String × Except String (List TrafficStat))}
  {rawStats : List TrafficStat}

theorem filed_mergeStat (h : Filed merged) : Filed (mergeStat merged stat) := by
  intro e he
  unfold mergeStat at he ⊢
  rw [Assoc.lookup_put]
  simp only [Assoc.put, mem_append, mem_singleton, Assoc.drop, mem_filter, decide_eq_true_eq] at he
  rcases he with ⟨he, hne⟩ | rfl
  · rw [if_neg hne]
    exact h e he
  · simp

/-- Sums that wrap on the way end at the wrapped sum. -/
theorem held_foldl (h : int64 (held d email merged) = held d email merged) :
    held d email (stats.foldl mergeStat merged) = int64 (held d email merged + counter d email stats) := by
  induction stats generalizing merged with
  | nil => simpa using h.symm
  | cons stat stats ih =>
    have hmer : int64 (held d email (mergeStat merged stat)) = held d email (mergeStat merged stat) := by
      rw [held_mergeStat]
      split_ifs
      · exact int64_int64
      · exact h
    rw [foldl_cons, ih hmer, held_mergeStat, counter_cons]
    split_ifs
    · rw [int64_add, add_assoc]
    · rw [zero_add]

theorem filed_foldl (h : Filed merged) (stats : List TrafficStat) : Filed (stats.foldl mergeStat merged) := by
  induction stats generalizing merged with
  | nil => exact h
  | cons stat stats ih => exact ih (filed_mergeStat h)

def Answered (results : List (String × Except String (List TrafficStat))) (stats : List (List TrafficStat)) : Prop :=
  results.map Prod.snd = stats.map Except.ok

theorem mergeResult_errors (results : List (String × Except String (List TrafficStat)))
    (acc : List (String × TrafficStat) × List String) :
    ∃ errs, (results.foldl mergeResult acc).2 = acc.2 ++ errs ∧ (errs = [] → ∃ stats, Answered results stats) := by
  induction results generalizing acc with
  | nil => exact ⟨[], by simp, fun _ => ⟨[], rfl⟩⟩
  | cons result results ih =>
    obtain ⟨id, answer⟩ := result
    obtain ⟨errs, her, hok⟩ := ih (mergeResult acc (id, answer))
    cases answer with
    | error err =>
      refine ⟨("engine \"" ++ id ++ "\": " ++ err) :: errs, ?_, nofun⟩
      rw [foldl_cons, her]
      simp [mergeResult]
    | ok stats =>
      refine ⟨errs, her, fun hn => ?_⟩
      obtain ⟨rest, hre⟩ := hok hn
      exact ⟨stats :: rest, congrArg (Except.ok stats :: ·) hre⟩

theorem mergeResult_answered {stats : List (List TrafficStat)} (h : Answered results stats)
    (acc : List (String × TrafficStat) × List String) :
    (results.foldl mergeResult acc).1 = stats.flatten.foldl mergeStat acc.1 := by
  induction results generalizing acc stats with
  | nil =>
    obtain rfl : stats = [] := by simpa [Answered] using h
    rfl
  | cons result results ih =>
    obtain ⟨id, answer⟩ := result
    cases stats with
    | nil => simp [Answered] at h
    | cons first rest =>
      obtain ⟨rfl, hre⟩ : answer = .ok first ∧ Answered results rest := by simpa [Answered] using h
      rw [foldl_cons, ih hre, flatten_cons, foldl_append]
      rfl

/-- The sum of the counters of an email, as an `int64` holds it. -/
def reported (d : Direction) (email : String) (stats : List (List TrafficStat)) : Int :=
  int64 (counter d email stats.flatten)

/-- Without an error `QueryStats` reports the sum over the engines, at most once for each email. -/
theorem queryStats_ok (h : queryStats results = (rawStats, none)) : ∃ stats, Answered results stats ∧
      (∀ stat ∈ rawStats, ∀ d, stat.count d = reported d stat.email stats) ∧
      ∀ email, email ∉ rawStats.map (·.email) → ∀ d, reported d email stats = 0 := by
  unfold queryStats at h
  split at h
  · cases h
  obtain ⟨rfl, her⟩ := Prod.mk.inj h
  split at her
  case isFalse => cases her
  rename_i hn
  obtain ⟨errs, hall, hans⟩ := mergeResult_errors results ([], [])
  obtain ⟨stats, hst⟩ := hans (by simpa [hn] using hall)
  have hmer := mergeResult_answered hst ([], [])
  have hfi : Filed (stats.flatten.foldl mergeStat []) := filed_foldl (by simp [Filed]) stats.flatten
  have hhe (d : Direction) (email : String) :
      held d email (stats.flatten.foldl mergeStat []) = reported d email stats := by
    have hze : held d email [] = 0 := by cases d <;> rfl
    rw [held_foldl (by rw [hze]; rfl), hze, zero_add, reported]
  rw [hmer]
  refine ⟨stats, hst, fun stat hsta d => ?_, fun email hem d => ?_⟩
  · obtain ⟨e, he, rfl⟩ := mem_map.1 ((mem_insertionSort _).1 hsta)
    obtain ⟨hkey, hl⟩ := hfi e he
    rw [← hhe, held, hkey, hl, Option.getD_some]
  have hn : (stats.flatten.foldl mergeStat []).lookup email = none := by
    rw [lookup_eq_none_iff]
    intro e he
    have hne : email ≠ e.1 := by
      rintro rfl
      refine hem (mem_map.2 ⟨e.2, (mem_insertionSort _).2 (mem_map_of_mem he), (hfi e he).1⟩)
    simpa using hne
  rw [← hhe, held, hn]
  cases d <;> rfl

def cumulativeAt (d : Direction) (email : String) (users : List (String × UserState)) : Int :=
  ((users.lookup email).getD {}).cumulative d

def lastRawAt (d : Direction) (email : String) (users : List (String × UserState)) : Int :=
  ((users.lookup email).getD {}).lastRaw d

theorem addRaw_eq {cumulative lastRaw raw : Int} :
    addRaw cumulative lastRaw raw = int64 (cumulative + gain lastRaw raw) := by
  unfold addRaw gain
  split_ifs
  · exact add_int64
  · rfl

theorem cumulative_sampled :
    (user.sampled sample).cumulative d = int64 (user.cumulative d + gain (user.lastRaw d) (sample.count d)) := by
  cases d <;> exact addRaw_eq

theorem lastRaw_sampled : (user.sampled sample).lastRaw d = sample.count d := by
  cases d <;> rfl

theorem updateUser_at (d : Direction) (email : String) (users : List (String × UserState)) (sample : LiveSample) :
    cumulativeAt d email (updateUser users sample) =
        (if sample.email = email then
          int64 (cumulativeAt d email users + gain (lastRawAt d email users) (sample.count d))
        else cumulativeAt d email users) ∧
      lastRawAt d email (updateUser users sample) =
        if sample.email = email then sample.count d else lastRawAt d email users := by
  unfold cumulativeAt lastRawAt updateUser
  rw [Assoc.lookup_put]
  by_cases h : email = sample.email
  · subst h
    simp [cumulative_sampled, lastRaw_sampled]
  · simp [h, Ne.symm h]

/-- Samples of a user that all have one value count it once. -/
theorem update_at {raw : Int} {samples : List LiveSample}
    (h : ∀ sample ∈ samples, sample.email = email → sample.count d = raw) (users : List (String × UserState)) :
    (email ∈ samples.map (·.email) → cumulativeAt d email (samples.foldl updateUser users) =
          int64 (cumulativeAt d email users + gain (lastRawAt d email users) raw) ∧
        lastRawAt d email (samples.foldl updateUser users) = raw) ∧
      (email ∉ samples.map (·.email) →
        cumulativeAt d email (samples.foldl updateUser users) = cumulativeAt d email users ∧
          lastRawAt d email (samples.foldl updateUser users) = lastRawAt d email users) := by
  induction samples generalizing users with
  | nil => simp
  | cons sample samples ih =>
    obtain ⟨hin, hout⟩ := ih (fun s hs => h s (mem_cons_of_mem _ hs)) (updateUser users sample)
    obtain ⟨hcum, hla⟩ := updateUser_at d email users sample
    rw [foldl_cons, map_cons, mem_cons]
    by_cases hsam : sample.email = email
    · have hraw := h sample (by simp) hsam
      rw [if_pos hsam, hraw] at hcum hla
      refine ⟨fun _ => ?_, fun hno => absurd (.inl hsam.symm) hno⟩
      -- the rest repeats the value, which gains nothing
      by_cases hre : email ∈ samples.map (·.email)
      · rw [(hin hre).1, (hin hre).2, hcum, hla, gain_self, add_zero, int64_int64]
        exact ⟨rfl, rfl⟩
      · rw [(hout hre).1, (hout hre).2]
        exact ⟨hcum, hla⟩
    · rw [if_neg hsam] at hcum hla
      rw [hcum, hla] at hin hout
      refine ⟨fun hyes => hin ?_, fun hno => hout fun hre => hno (.inr hre)⟩
      exact hyes.resolve_left fun heq => hsam heq.symm

theorem liveSamples_spec {users : Option (List String)} {count : Direction → String → Int}
    (hst : ∀ stat ∈ rawStats, ∀ d, stat.count d = count d stat.email)
    (hn : ∀ email, email ∉ rawStats.map (·.email) → ∀ d, count d email = 0) :
    (∀ sample ∈ liveSamples rawStats users, sample.email ≠ "" ∧ ∀ d, sample.count d = count d sample.email) ∧
      ∀ email, email ≠ "" → email ∉ (liveSamples rawStats users).map (·.email) → ∀ d, count d email = 0 := by
  have hrep : ∀ sample ∈ rawStats.filter fun stat => stat.email ≠ "",
      sample.email ≠ "" ∧ ∀ d, sample.count d = count d sample.email := by
    intro sample hsam
    obtain ⟨hmem, hne⟩ := mem_filter.1 hsam
    exact ⟨by simpa using hne, hst sample hmem⟩
  have hunr : ∀ email, email ≠ "" → email ∉ (rawStats.filter fun stat => stat.email ≠ "").map (·.email) →
      ∀ d, count d email = 0 := by
    intro email hne hno
    refine hn email fun hmem => hno ?_
    obtain ⟨stat, hsta, rfl⟩ := mem_map.1 hmem
    exact mem_map_of_mem (mem_filter.2 ⟨hsta, by simpa using hne⟩)
  unfold liveSamples
  cases users with
  | none => exact ⟨hrep, hunr⟩
  | some users =>
    refine ⟨fun sample hsam => ?_, fun email hne hno => ?_⟩
    · rcases mem_append.1 hsam with hsam | hsam
      · exact hrep sample hsam
      · obtain ⟨email, hem, rfl⟩ := mem_map.1 hsam
        obtain ⟨-, hco⟩ := mem_filter.1 hem
        obtain ⟨hne, hnew⟩ := of_decide_eq_true hco
        refine ⟨hne, fun d => ?_⟩
        rw [hunr email hne hnew d]
        cases d <;> rfl
    · refine hunr email hne fun hmem => hno ?_
      rw [map_append, mem_append]
      exact .inl hmem

/-- What a successful pass does to a user, given what the engines have counted. -/
theorem updateLocalStorage_ok {env : StorageEnv} {state state' : State} (h : updateLocalStorage env state = .ok state') :
    ∃ stats, Answered env.results stats ∧ ∀ d email, (email ≠ "" ∧
          cumulativeAt d email state'.users = int64 (cumulativeAt d email state.users +
            gain (lastRawAt d email state.users) (reported d email stats)) ∧
          lastRawAt d email state'.users = reported d email stats) ∨
        ((email ≠ "" → reported d email stats = 0) ∧
          cumulativeAt d email state'.users = cumulativeAt d email state.users ∧
          lastRawAt d email state'.users = lastRawAt d email state.users) := by
  unfold updateLocalStorage at h
  split_ifs at h
  split at h
  · cases h
  split at h
  · cases h
  rename_i rawStats hqu
  split at h
  · cases h
  split at h
  · cases h
  cases h
  obtain ⟨stats, hans, hrep, hre⟩ := queryStats_ok hqu
  obtain ⟨hsamp, huns⟩ := liveSamples_spec hrep hre
  refine ⟨stats, hans, fun d email => ?_⟩
  have hraw : ∀ sample ∈ liveSamples rawStats env.users, sample.email = email →
      sample.count d = reported d email stats := by
    rintro sample hsam rfl
    exact (hsamp sample hsam).2 d
  obtain ⟨hin, hout⟩ := update_at hraw state.users
  by_cases hmem : email ∈ (liveSamples rawStats env.users).map (·.email)
  · obtain ⟨sample, hsam, rfl⟩ := mem_map.1 hmem
    exact .inl ⟨(hsamp sample hsam).1, hin hmem⟩
  · exact .inr ⟨fun hne => huns email hne hmem d, hout hmem⟩

end Traffic

end Xraytool
