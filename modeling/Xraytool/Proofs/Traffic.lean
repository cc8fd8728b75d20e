import Mathlib.Data.List.Dedup
import Xraytool.Sanity.Traffic

/-! Totals against the traffic that really flowed. The reader of the summed counters takes every drop for a restart of
all of them, so where one engine restarts and another goes on, the traffic of the other is counted again. -/

namespace Xraytool

namespace Traffic

open Tally Transition List

def summed (d : Direction) (email : String) (engines : List Counting) : Int :=
  (engines.map fun e => counter d email e.stats).sum

def summedBefore (d : Direction) (email : String) (engines : List Counting) : Int :=
  (engines.map fun e => counter d email e.counted).sum

variable {stats : List (List TrafficStat)}

theorem counter_flatten {d : Direction} {email : String} :
    counter d email stats.flatten = (stats.map (counter d email)).sum := by
  induction stats with
  | nil => rfl
  | cons first rest ih =>
    rw [flatten_cons, counter, total_append, map_cons, sum_cons]
    exact congrArg (_ + ·) ih

variable {failed : List (Nat × String)} {d : Direction} {email : String}

theorem answered_eq {engines : List Counting}
    (h : Answered (answers engines failed) stats) : stats = engines.map (·.stats) := by
  have hst : stats = engines.zipIdx.map (·.1.stats) := by
    rw [Answered, answers, map_map] at h
    refine Fallible.eq_map_of_map_ok (fun e b hb => ?_) h
    rw [Function.comp_apply] at hb
    split at hb
    · cases hb
    · exact (Except.ok.inj hb).symm
  calc stats = (engines.zipIdx.map Prod.fst).map (·.stats) := by rw [hst, map_map]; rfl
    _ = engines.map (·.stats) := by rw [zipIdx_map_fst]

/-- Of one user and direction: the last raw value covers what is counted, and the total with what is new since the last
sample is within the real traffic. -/
structure Covered (st : Accounts) (d : Direction) (email : String) : Prop where
  counted : ∀ e ∈ st.engines, 0 ≤ counter d email e.counted ∧ counter d email e.counted ≤ counter d email e.stats
  lastRaw : 0 ≤ lastRawAt d email st.state.users ∧
    lastRawAt d email st.state.users ≤ cumulativeAt d email st.state.users
  counted_le : email ≠ "" → summedBefore d email st.engines ≤ lastRawAt d email st.state.users
  flowed : cumulativeAt d email st.state.users + (summed d email st.engines - summedBefore d email st.engines) ≤
    counter d email st.flowed

variable {st : Accounts}

theorem summedBefore_le (h : Covered st d email) :
    0 ≤ summedBefore d email st.engines ∧ summedBefore d email st.engines ≤ summed d email st.engines := by
  refine ⟨sum_nonneg fun n hn => ?_, sum_le_sum fun e he => (h.counted e he).2⟩
  obtain ⟨e, he, rfl⟩ := mem_map.1 hn
  exact (h.counted e he).1

variable {n : Nat} {state : State} {env : StorageEnv}

theorem Covered.modify (h : Covered st d email) {e : Counting} (hn : st.engines[n]? = some e)
    {change : Counting → Counting} {flowed : List TrafficStat}
    (hcou : ∀ e ∈ st.engines, 0 ≤ counter d email (change e).counted ∧
      counter d email (change e).counted ≤ counter d email (change e).stats)
    (hle : counter d email (change e).counted ≤ counter d email e.counted)
    (hflo : counter d email (change e).stats - counter d email (change e).counted + counter d email st.flowed ≤
      counter d email e.stats - counter d email e.counted + counter d email flowed) :
    Covered { st with engines := st.engines.modify n change, flowed := flowed } d email := by
  have hst : summed d email (st.engines.modify n change) =
      summed d email st.engines + (counter d email (change e).stats - counter d email e.stats) := sum_modify _ change hn
  have hbef : summedBefore d email (st.engines.modify n change) =
      summedBefore d email st.engines + (counter d email (change e).counted - counter d email e.counted) :=
    sum_modify _ change hn
  refine ⟨forall_mem_modify n h.counted hcou, h.lastRaw, fun hne => ?_, ?_⟩
  · have := h.counted_le hne
    simp only [hbef]
    omega
  have := h.flowed
  simp only [hst, hbef]
  omega

theorem covered_traffic (h : Covered st d email) (hn : n < st.engines.length) (email' : String) (up down : Nat) :
    Covered { st with
      engines := st.engines.modify n fun e => { e with stats := grow email' up down e.stats }
      flowed := grow email' up down st.flowed } d email := by
  refine h.modify (getElem?_eq_getElem hn) (fun e he => ?_) (le_refl _) ?_
  · have := h.counted e he
    simp only [counter_grow]
    split_ifs <;> omega
  · simp only [counter_grow]
    omega

theorem covered_restart (h : Covered st d email) (n : Nat) :
    Covered { st with engines := st.engines.modify n fun e => { e with stats := [], counted := [] } } d email := by
  cases hn : st.engines[n]? with
  | none =>
    rw [modify_eq_self (getElem?_eq_none_iff.1 hn)]
    exact h
  | some e =>
    have he := h.counted e (mem_of_getElem? hn)
    refine h.modify hn (fun _ _ => ⟨le_refl 0, le_refl 0⟩) ?_ ?_
    · simpa using he.1
    · simpa using he.2

/-- A drop is seen only where nothing counted is left. -/
def Accounts.DropRestarted (st : Accounts) (d : Direction) (email : String) : Prop :=
  summed d email st.engines < lastRawAt d email st.state.users → summedBefore d email st.engines = 0

/-- What is reported of a user whose traffic fits an `int64` is the sum. -/
theorem reported_eq (h : Covered st d email) (hfit : counter d email st.flowed < 9223372036854775808) (hne : email ≠ "") :
    reported d email (st.engines.map (·.stats)) = summed d email st.engines := by
  have hsum : counter d email (st.engines.map (·.stats)).flatten = summed d email st.engines := by
    rw [counter_flatten, map_map]
    rfl
  have hbou := summedBefore_le h
  have hle := h.counted_le hne
  have hla := h.lastRaw
  have hflo := h.flowed
  rw [reported, hsum, int64_of_fits ⟨by omega, by omega⟩]

theorem covered_sample (h : Covered st d email) (hfit : counter d email st.flowed < 9223372036854775808)
    (hdr : email ≠ "" → st.DropRestarted d email) (henv : env.results = answers st.engines failed)
    (hok : updateLocalStorage env st.state = .ok state) :
    Covered { st with state := state, engines := st.engines.map fun e => { e with counted := e.stats } } d email := by
  obtain ⟨stats, hans, hpa⟩ := updateLocalStorage_ok hok
  rw [henv] at hans
  obtain rfl := answered_eq hans
  have hst : summed d email (st.engines.map fun e => { e with counted := e.stats }) = summed d email st.engines := by
    rw [summed, map_map]
    rfl
  have hbef : summedBefore d email (st.engines.map fun e => { e with counted := e.stats }) =
      summed d email st.engines := by
    rw [summedBefore, map_map]
    rfl
  have hbou := summedBefore_le h
  have hflo := h.flowed
  have hla := h.lastRaw
  have hcou : ∀ e ∈ st.engines.map fun e : Counting => { e with counted := e.stats },
      0 ≤ counter d email e.counted ∧ counter d email e.counted ≤ counter d email e.stats := by
    intro e' he'
    obtain ⟨e, he, rfl⟩ := mem_map.1 he'
    have hold := h.counted e he
    exact ⟨hold.1.trans hold.2, le_refl _⟩
  rcases hpa d email with ⟨hne, hcum, hraw⟩ | ⟨hn, hcum, hraw⟩
  · have hga := gain_le_fresh (h.counted_le hne) (hdr hne)
    have hnew : summed d email st.engines ≤ cumulativeAt d email st.state.users +
        gain (lastRawAt d email st.state.users) (summed d email st.engines) := by
      unfold gain
      split_ifs <;> omega
    rw [reported_eq h hfit hne] at hcum hraw
    rw [int64_of_fits ⟨by omega, by omega⟩] at hcum
    refine ⟨hcou, ?_, fun _ => ?_, ?_⟩
    · simp only [hraw, hcum]
      omega
    · simp only [hraw, hbef, le_refl]
    · simp only [hcum, hst, hbef]
      omega
  · refine ⟨hcou, ?_, fun hne => ?_, ?_⟩
    · simpa only [hraw, hcum] using hla
    · simp only [hraw, hbef, ← reported_eq h hfit hne, hn hne]
      exact hla.1
    · simp only [hcum, hst, hbef]
      omega

def fresh (ids : List String) : Accounts where
  engines := ids.map fun id => { id := id }

theorem covered_fresh {ids : List String} : Covered (fresh ids) d email := by
  have hze : ∀ e ∈ (fresh ids).engines, e.stats = [] ∧ e.counted = [] := by
    intro e he
    obtain ⟨id, -, rfl⟩ := mem_map.1 he
    exact ⟨rfl, rfl⟩
  have hsum (f : Counting → Int) (hf : ∀ e ∈ (fresh ids).engines, f e = 0) : ((fresh ids).engines.map f).sum = 0 := by
    rw [map_congr_left hf]
    simp
  have hst : summed d email (fresh ids).engines = 0 := hsum _ fun e he => by simp [(hze e he).1]
  have hbef : summedBefore d email (fresh ids).engines = 0 := hsum _ fun e he => by simp [(hze e he).2]
  refine ⟨fun e he => by simp [hze e he], ?_, fun _ => ?_, ?_⟩
  · cases d <;> exact ⟨le_refl 0, le_refl 0⟩
  · rw [hbef]
    cases d <;> exact le_refl 0
  · rw [hst, hbef]
    cases d <;> exact le_refl 0

variable {l : AccountLabel} {st' : Accounts}

theorem bounds_step (hs : stepsTo accountStep st l st') : counter d email st.flowed ≤ counter d email st'.flowed ∧
    (cumulativeAt d email st.state.users < 9223372036854775808 →
      cumulativeAt d email st'.state.users < 9223372036854775808) := by
  cases l with
  | traffic engine email' up down =>
    simp only [stepsTo, accountStep, Option.ite_none_right_eq_some, Option.some.injEq] at hs
    obtain ⟨-, rfl⟩ := hs
    rw [counter_grow]
    exact ⟨by split_ifs <;> omega, id⟩
  | restart engine =>
    cases hs
    exact ⟨le_refl _, id⟩
  | sample now failed users fails =>
    simp only [stepsTo, accountStep] at hs
    split at hs <;> cases hs
    · exact ⟨le_refl _, id⟩
    rename_i state hok
    obtain ⟨_, -, hpa⟩ := updateLocalStorage_ok hok
    refine ⟨le_refl _, fun h => ?_⟩
    rcases hpa d email with ⟨-, hcum, -⟩ | ⟨-, hcum, -⟩ <;> rw [hcum]
    · exact int64_lt
    · exact h

theorem covered_step (h : Covered st d email) (hfit : counter d email st'.flowed < 9223372036854775808)
    (hdr : ∀ now failed users fails, l = .sample now failed users fails → email ≠ "" → st.DropRestarted d email)
    (hs : stepsTo accountStep st l st') : Covered st' d email := by
  cases l with
  | traffic engine email' up down =>
    simp only [stepsTo, accountStep, Option.ite_none_right_eq_some, Option.some.injEq] at hs
    obtain ⟨hlt, rfl⟩ := hs
    exact covered_traffic h hlt email' up down
  | restart engine =>
    cases hs
    exact covered_restart h engine
  | sample now failed users fails =>
    simp only [stepsTo, accountStep] at hs
    split at hs
    · cases hs
      exact h
    rename_i state hok
    cases hs
    exact covered_sample h hfit (hdr now failed users fails rfl) rfl hok

/-- The total is an `int64`, and while the traffic that flowed fits one too, it is covered. -/
structure Bounded (st : Accounts) (d : Direction) (email : String) : Prop where
  total : cumulativeAt d email st.state.users < 9223372036854775808
  covered : counter d email st.flowed < 9223372036854775808 → Covered st d email

theorem bounded_fresh {ids : List String} : Bounded (fresh ids) d email :=
  ⟨by cases d <;> exact Int.ofNat_lt.2 (Nat.zero_lt_succ _), fun _ => covered_fresh⟩

theorem bounded_step (h : Bounded st d email)
    (hdr : Covered st d email → ∀ now failed users fails, l = .sample now failed users fails → email ≠ "" →
      st.DropRestarted d email)
    (hs : stepsTo accountStep st l st') : Bounded st' d email := by
  refine ⟨(bounds_step hs).2 h.total, fun hfit => ?_⟩
  have hcov := h.covered ((bounds_step hs).1.trans_lt hfit)
  exact covered_step hcov hfit (hdr hcov) hs

theorem Bounded.cumulative_le (h : Bounded st d email) :
    cumulativeAt d email st.state.users ≤ counter d email st.flowed := by
  by_cases hfit : counter d email st.flowed < 9223372036854775808
  · have hbou := summedBefore_le (h.covered hfit)
    have hflo := (h.covered hfit).flowed
    omega
  · exact h.total.le.trans (not_lt.1 hfit)

/-- A sample finds the sum of a user below the last raw value only if every engine that was counted for the user has
restarted since the last sample. -/
def AccountLabel.DropsRestarted (st : Accounts) : AccountLabel → Prop
  | .sample _ _ _ _ => ∀ u ∈ st.state.users, ∀ d ∈ [Direction.up, .down],
    summed d u.1 st.engines < u.2.lastRaw d → ∀ e ∈ st.engines, counter d u.1 e.counted = 0
  | .traffic _ _ _ _ | .restart _ => True

instance (st : Accounts) (l : AccountLabel) : Decidable (l.DropsRestarted st) := by
  unfold AccountLabel.DropsRestarted
  split <;> infer_instance

theorem dropRestarted_of_guard (h : Covered st d email) (hl : l.DropsRestarted st) {now : Int}
    {users : Option (List String)} {fails : StorageOp → Option String}
    (hsam : l = .sample now failed users fails) : st.DropRestarted d email := by
  subst hsam
  intro hlt
  have hbou := summedBefore_le h
  unfold lastRawAt at hlt
  cases hloo : st.state.users.lookup email with
  | none =>
    rw [hloo] at hlt
    cases d <;> simp only [Option.getD_none, UserState.lastRaw] at hlt <;> omega
  | some user =>
    rw [hloo] at hlt
    have hze := hl (email, user) (Assoc.mem_of_lookup hloo) d (by cases d <;> simp) hlt
    rw [summedBefore, map_congr_left hze]
    simp

/-- In a run whose samples see a drop only of restarted engines, no total exceeds the traffic that really flowed. -/
theorem never_over_counted {ids : List String} {tr : List AccountLabel} {st : Accounts}
    (h : Run (Guarded AccountLabel.DropsRestarted (stepsTo accountStep)) (fresh ids) tr st) (d : Direction)
    (email : String) : cumulativeAt d email st.state.users ≤ counter d email st.flowed := by
  refine Bounded.cumulative_le (h.invariant_of_guard (Bounded · d email) bounded_fresh ?_)
  intro st l st' hst hl hs
  exact bounded_step hst (fun hcov _ _ _ _ hsam _ => dropRestarted_of_guard hcov hl hsam) hs

def sampled : AccountLabel := .sample 0 [] none fun _ => none

theorem never_over_counted_restarts : ∃ st,
    Run (Guarded AccountLabel.DropsRestarted (stepsTo accountStep)) (fresh ["xray", "sing-box"])
      [.traffic 0 "a@x" 100 0, .traffic 1 "a@x" 50 0, sampled, .restart 0, .restart 1, .traffic 1 "a@x" 7 0, sampled]
      st ∧ cumulativeAt .up "a@x" st.state.users = 157 ∧ 157 ≤ counter .up "a@x" st.flowed := by
  exact Run.exists_of_guardedExec_imp (by decide +kernel) fun st hrun hcum =>
    ⟨hcum, hcum ▸ never_over_counted hrun .up "a@x"⟩

/-- One engine restarts, and the traffic of the other is counted again. -/
theorem survivor_counted_again : ∃ st, Run (stepsTo accountStep) (fresh ["xray", "sing-box"])
    [.traffic 0 "a@x" 100 0, .traffic 1 "a@x" 50 0, sampled, .restart 0, sampled] st ∧
    cumulativeAt .up "a@x" st.state.users = 200 ∧ counter .up "a@x" st.flowed = 150 :=
  Run.exists_of_exec (by decide +kernel)

def Accounts.Exact (st : Accounts) (d : Direction) (email : String) : Prop :=
  summedBefore d email st.engines = 0 ∨ summedBefore d email st.engines = lastRawAt d email st.state.users

theorem Accounts.Exact.dropRestarted (h : Covered st d email) (hex : st.Exact d email) : st.DropRestarted d email := by
  intro hlt
  have hbou := summedBefore_le h
  rcases hex with hze | hla
  · exact hze
  · omega

/-- One engine, and the cover of a user with what was counted exactly. -/
structure Alone (st : Accounts) (d : Direction) (email : String) : Prop where
  single : ∃ e, st.engines = [e]
  bounded : Bounded st d email
  exact : counter d email st.flowed < 9223372036854775808 → email ≠ "" → st.Exact d email

theorem exact_sample (h : Covered st d email) (hfit : counter d email st.flowed < 9223372036854775808)
    (hne : email ≠ "") (henv : env.results = answers st.engines failed)
    (hok : updateLocalStorage env st.state = .ok state) :
    Accounts.Exact
      { st with state := state, engines := st.engines.map fun e => { e with counted := e.stats } } d email := by
  obtain ⟨stats, hans, hpa⟩ := updateLocalStorage_ok hok
  rw [henv] at hans
  obtain rfl := answered_eq hans
  have hbef : summedBefore d email (st.engines.map fun e => { e with counted := e.stats }) =
      reported d email (st.engines.map (·.stats)) := by
    rw [reported_eq h hfit hne, summedBefore, map_map]
    rfl
  unfold Accounts.Exact
  rw [hbef]
  rcases hpa d email with ⟨-, -, hraw⟩ | ⟨hn, -, -⟩
  · exact .inr hraw.symm
  · exact .inl (hn hne)

theorem alone_step (h : Alone st d email) (hs : stepsTo accountStep st l st') : Alone st' d email := by
  obtain ⟨hflo, htot⟩ : counter d email st.flowed ≤ counter d email st'.flowed ∧ _ := bounds_step hs
  have hcov : Bounded st' d email := by
    refine ⟨htot h.bounded.total, fun hfit => ?_⟩
    have hold := h.bounded.covered (hflo.trans_lt hfit)
    exact covered_step hold hfit (fun _ _ _ _ _ hne => (h.exact (hflo.trans_lt hfit) hne).dropRestarted hold) hs
  obtain ⟨e, he⟩ := h.single
  cases l with
  | traffic engine email' up down =>
    simp only [stepsTo, accountStep, Option.ite_none_right_eq_some, Option.some.injEq] at hs
    obtain ⟨hlt, rfl⟩ := hs
    obtain rfl : engine = 0 := by simpa [he] using hlt
    refine ⟨⟨_, by rw [he]; rfl⟩, hcov, fun hfit hne => ?_⟩
    have hex := h.exact (hflo.trans_lt hfit) hne
    simp only [Accounts.Exact, summedBefore, he] at hex ⊢
    exact hex
  | restart engine =>
    cases hs
    cases engine with
    | zero => exact ⟨⟨_, by rw [he]; rfl⟩, hcov, fun _ _ => .inl (by simp [summedBefore, he])⟩
    | succ n =>
      have hsa : st.engines.modify (n + 1) (fun e => { e with stats := [], counted := [] }) = st.engines :=
        modify_eq_self (by simp [he])
      refine ⟨⟨e, hsa.trans he⟩, hcov, fun hfit hne => ?_⟩
      have hex := h.exact hfit hne
      simp only [Accounts.Exact, hsa] at hex ⊢
      exact hex
  | sample now failed users fails =>
    simp only [stepsTo, accountStep] at hs
    split at hs
    · cases hs
      exact h
    rename_i state hok
    cases hs
    exact ⟨⟨_, by rw [he]; rfl⟩, hcov, fun hfit hne => exact_sample (h.bounded.covered hfit) hfit hne rfl hok⟩

/-- With a single engine the reset detection is sound, whatever restarts there are. -/
theorem single_engine_covered {id : String} {tr : List AccountLabel}
    (h : Run (stepsTo accountStep) (fresh [id]) tr st) :
    cumulativeAt d email st.state.users ≤ counter d email st.flowed := by
  have hin : Alone (fresh [id]) d email := ⟨⟨_, rfl⟩, bounded_fresh, fun _ _ => .inl (by simp [summedBefore, fresh])⟩
  exact (h.invariant (Alone · d email) hin fun _ _ _ hst hs => alone_step hst hs).bounded.cumulative_le

theorem single_engine_covered_restart : ∃ st, Run (stepsTo accountStep) (fresh ["xray"])
      [.traffic 0 "a@x" 100 0, sampled, .restart 0, .traffic 0 "a@x" 30 0, sampled] st ∧
    cumulativeAt .up "a@x" st.state.users = 130 ∧ 130 ≤ counter .up "a@x" st.flowed :=
  Run.exists_of_exec_imp (P := fun st => cumulativeAt .up "a@x" st.state.users = 130) (by decide +kernel)
    fun st hrun hcu => ⟨hcu, hcu ▸ single_engine_covered hrun⟩

/-! One counter of one engine, read by `Update`. Traffic is missed only where a restart hides it: what it wipes out was
not sampled, or the new counter has overtaken the old one by the next sample. -/

inductive CounterEvent where
  | traffic (up down : Nat)
  | restart
  | sample (now : Int)

/-- The counter of a user and what its reader has made of it. -/
structure Metered where
  state : State
  live : TrafficStat
  /-- what of the counter was in the last sample, nothing after a restart -/
  counted : TrafficStat
  flowed : TrafficStat
  samples : List LiveSample := []

def TrafficStat.grown (stat : TrafficStat) (up down : Nat) : TrafficStat :=
  { stat with up := stat.up + up, down := stat.down + down }

def meterStep (email : String) (m : Metered) : CounterEvent → Metered
  | .traffic up down => { m with live := m.live.grown up down, flowed := m.flowed.grown up down }
  | .restart => { m with live := {}, counted := {} }
  | .sample now =>
    let sample := { m.live with email := email }
    { m with state := update m.state [sample] now, counted := sample, samples := m.samples ++ [sample] }

/-- The last value of each stretch without a drop. -/
def stretchEnds : List Int → List Int
  | [] => []
  | [x] => [x]
  | x :: y :: rest => if y < x then x :: stretchEnds (y :: rest) else stretchEnds (y :: rest)

theorem sum_stretchEnds_snoc {xs : List Int} {x : Int} (hx : 0 ≤ x) :
    (stretchEnds (xs ++ [x])).sum = (stretchEnds xs).sum + gain (xs.getLastD 0) x := by
  induction xs using stretchEnds.induct with
  | case1 => simp [stretchEnds, gain, hx]
  | case2 y =>
    by_cases hlt : x < y
    · simp [stretchEnds, gain, hlt, not_le.2 hlt]
    · simp [stretchEnds, gain, hlt, not_lt.1 hlt]
  | case3 y z rest hlt ih =>
    simp_all [stretchEnds]
    omega
  | case4 y z rest hge ih =>
    simp only [cons_append, stretchEnds, if_neg hge]
    exact ih

variable {m : Metered} {e : CounterEvent} {stat : TrafficStat}

/-- A restart wipes out nothing that was not sampled, and the next sample is below the last one. -/
def Metered.Shows (m : Metered) (email : String) (d : Direction) : CounterEvent → Prop
  | .traffic _ _ => True
  | .restart => m.live.count d = m.counted.count d
  | .sample _ => m.counted.count d = lastRawAt d email m.state.users ∨ m.live.count d < lastRawAt d email m.state.users

/-- No restart hides growth between two samples. -/
def NoneHidden (email : String) (d : Direction) : Metered → List CounterEvent → Prop
  | _, [] => True
  | m, e :: events => m.Shows email d e ∧ NoneHidden email d (meterStep email m e) events

theorem count_grown {up down : Nat} : (stat.grown up down).count d = stat.count d + share up down d := by
  cases d <;> rfl

theorem count_zero : ({} : TrafficStat).count d = 0 := by
  cases d <;> rfl

theorem count_named : { stat with email := email }.count d = stat.count d := by
  cases d <;> rfl

theorem update_sample {sample : LiveSample} {now : Int} (h : sample.email = email) :
    cumulativeAt d email (update state [sample] now).users =
        int64 (cumulativeAt d email state.users + gain (lastRawAt d email state.users) (sample.count d)) ∧
      lastRawAt d email (update state [sample] now).users = sample.count d := by
  have hat := updateUser_at d email state.users sample
  rwa [if_pos h, if_pos h] at hat

/-- The sum of the ends of the stretches. -/
def Metered.observed (m : Metered) (d : Direction) : Int := (stretchEnds (m.samples.map (·.count d))).sum

/-- The real traffic that is neither in the observed stretches nor new in the counter. -/
def Metered.missed (m : Metered) (d : Direction) : Int :=
  m.flowed.count d - (m.observed d + (m.live.count d - m.counted.count d))

structure Metered.Sound (m : Metered) (email : String) (d : Direction) : Prop where
  counted : 0 ≤ m.counted.count d ∧ m.counted.count d ≤ m.live.count d
  lastRaw : 0 ≤ lastRawAt d email m.state.users ∧
    (m.counted.count d = lastRawAt d email m.state.users ∨ m.counted.count d = 0)
  sampled : lastRawAt d email m.state.users = (m.samples.map (·.count d)).getLastD 0
  total : cumulativeAt d email m.state.users = int64 (m.observed d)
  observed : 0 ≤ m.observed d
  missed : 0 ≤ m.missed d

theorem observed_sample (h : m.Sound email d) {now : Int} : (meterStep email m (.sample now)).observed d =
    m.observed d + gain (lastRawAt d email m.state.users) (m.live.count d) := by
  have hli := h.counted.1.trans h.counted.2
  simp only [Metered.observed, meterStep, map_append, map_singleton, count_named]
  rw [h.sampled, sum_stretchEnds_snoc hli]

theorem missed_step (h : m.Sound email d) : m.observed d ≤ (meterStep email m e).observed d ∧
      m.missed d ≤ (meterStep email m e).missed d ∧
      (m.Shows email d e → (meterStep email m e).missed d = m.missed d) := by
  have hcou := h.counted
  have hla := h.lastRaw
  cases e with
  | traffic up down =>
    simp only [meterStep, Metered.missed, Metered.observed, count_grown]
    omega
  | restart =>
    simp only [meterStep, Metered.missed, Metered.observed, count_zero, Metered.Shows]
    omega
  | sample now =>
    simp only [Metered.missed, observed_sample h, Metered.Shows]
    simp only [meterStep, count_named, gain]
    split_ifs <;> omega

theorem sound_step (h : m.Sound email d) : (meterStep email m e).Sound email d := by
  have hobs := h.observed.trans (missed_step (e := e) h).1
  have hmis := h.missed.trans (missed_step (e := e) h).2.1
  have hcou := h.counted
  cases e with
  | traffic up down =>
    refine { h with counted := ?_, missed := hmis }
    simp only [meterStep, count_grown]
    omega
  | restart =>
    refine ⟨?_, ⟨h.lastRaw.1, .inr count_zero⟩, h.sampled, h.total, hobs, hmis⟩
    simp only [meterStep, count_zero, le_refl, and_self]
  | sample now =>
    have hli := hcou.1.trans hcou.2
    refine ⟨?_, ?_, ?_, ?_, hobs, hmis⟩
    · exact ⟨hli, le_refl _⟩
    · simp only [meterStep, update_sample, count_named]
      exact ⟨hli, .inl trivial⟩
    · simp [meterStep, update_sample]
    · rw [observed_sample h]
      simp only [meterStep, update_sample, count_named, h.total, int64_add]

variable {events : List CounterEvent}

theorem sound_run (h : m.Sound email d) : (events.foldl (meterStep email) m).Sound email d := by
  induction events generalizing m with
  | nil => exact h
  | cons e events ih => exact ih (sound_step h)

theorem observed_run (h : m.Sound email d) : m.observed d ≤ (events.foldl (meterStep email) m).observed d := by
  induction events generalizing m with
  | nil => exact le_refl _
  | cons e events ih => exact (missed_step h).1.trans (ih (sound_step h))

theorem missed_run (h : m.Sound email d) (hsh : NoneHidden email d m events) :
    (events.foldl (meterStep email) m).missed d = m.missed d := by
  induction events generalizing m with
  | nil => rfl
  | cons e events ih => exact (ih (sound_step h) hsh.2).trans ((missed_step h).2.2 hsh.1)

theorem sound_start (hnew : state.users.lookup email = none) :
    let start : Metered := ⟨state, {}, {}, {}, []⟩
    start.Sound email d ∧ start.missed d = 0 := by
  have hcum : cumulativeAt d email state.users = 0 := by rw [cumulativeAt, hnew]; cases d <;> rfl
  have hla : lastRawAt d email state.users = 0 := by rw [lastRawAt, hnew]; cases d <;> rfl
  have hmis : Metered.missed ⟨state, {}, {}, {}, []⟩ d = 0 := by
    simp [Metered.missed, Metered.observed, stretchEnds, count_zero]
  exact ⟨⟨by simp [count_zero], by simp [hla, count_zero], hla, hcum, le_refl 0, hmis.ge⟩, hmis⟩

/-- A counter that starts at zero, after the first `n` events of a history. -/
def metered (email : String) (state : State) (events : List CounterEvent) (n : Nat) : Metered :=
  (events.take n).foldl (meterStep email) ⟨state, {}, {}, {}, []⟩

theorem observed_mono (hnew : state.users.lookup email = none) {n k : Nat} (h : n ≤ k) :
    (metered email state events n).observed d ≤ (metered email state events k).observed d := by
  obtain ⟨rest, hre⟩ := take_prefix_take_left (l := events) h
  rw [metered, metered, ← hre, foldl_append]
  exact observed_run (sound_run (sound_start hnew).1)

/-- For every history of a counter that starts at zero, whatever else the state holds: at each moment the total is the sum
of the ends of the stretches, the next step does not lower it, it does not exceed the real traffic, and right after a
sample it is equal to it if no restart has hidden growth. This is so exactly if the sum of the ends is an `int64`. -/
theorem counter_reset_law (email : String) (state : State) (hnew : state.users.lookup email = none)
    (events : List CounterEvent) (d : Direction) :
    (∀ n, let m := metered email state events n
      cumulativeAt d email m.state.users = m.observed d ∧
        cumulativeAt d email m.state.users ≤
          cumulativeAt d email (metered email state events (n + 1)).state.users ∧
        cumulativeAt d email m.state.users ≤ m.flowed.count d ∧
        ∀ now, (events.take n).getLast? = some (.sample now) →
          NoneHidden email d ⟨state, {}, {}, {}, []⟩ (events.take n) →
          cumulativeAt d email m.state.users = m.flowed.count d) ↔
      (metered email state events events.length).observed d < 9223372036854775808 := by
  obtain ⟨hso, hze⟩ := sound_start (d := d) hnew
  have hrun (n : Nat) : (metered email state events n).Sound email d := sound_run hso
  constructor
  · intro hlaw
    rw [← (hlaw events.length).1, (hrun _).total]
    exact int64_lt
  intro hfit
  have hle (n : Nat) : (metered email state events n).observed d ≤
      (metered email state events events.length).observed d := by
    rw [metered, take_eq_take_min]
    exact observed_mono hnew (min_le_right _ _)
  have htot (n : Nat) : cumulativeAt d email (metered email state events n).state.users =
      (metered email state events n).observed d := by
    have hobs := (hrun n).observed
    rw [(hrun n).total, int64_of_fits ⟨by omega, (hle n).trans_lt hfit⟩]
  intro n
  dsimp only
  have hcou := (hrun n).counted
  have hmis := (hrun n).missed
  refine ⟨htot n, ?_, ?_, fun now hla hsh => ?_⟩
  · rw [htot, htot]
    exact observed_mono hnew (Nat.le_succ n)
  · rw [htot]
    unfold Metered.missed at hmis
    omega
  have hall : (metered email state events n).missed d = 0 := (missed_run hso hsh).trans hze
  have hli : (metered email state events n).counted.count d = (metered email state events n).live.count d := by
    obtain ⟨before, hbe⟩ := getLast?_eq_some_iff.1 hla
    simp only [metered, hbe, foldl_append, foldl_cons, foldl_nil, meterStep, count_named]
  rw [htot]
  unfold Metered.missed at hall
  omega

/-- Ten bytes are sampled, three more after a restart, and then the counter overtakes the last sample unseen. -/
theorem counter_reset_law_overtaken :
    let events : List CounterEvent :=
      [.traffic 10 0, .sample 1, .restart, .traffic 3 0, .sample 2, .restart, .traffic 5 0]
    (metered "u" {} events 7).observed .up = 13 ∧
      cumulativeAt .up "u" (metered "u" {} events 7).state.users ≤ (metered "u" {} events 7).flowed.count .up :=
  ⟨by decide, ((counter_reset_law "u" {} rfl _ .up).2 (by decide) 7).2.2.1⟩

/-- One byte after a restart takes the largest total below zero. -/
theorem counter_reset_wraps :
    let events : List CounterEvent := [.traffic 9223372036854775807 0, .sample 1, .restart, .traffic 1 0, .sample 2]
    cumulativeAt .up "u" (metered "u" {} events 2).state.users = 9223372036854775807 ∧
      cumulativeAt .up "u" (metered "u" {} events 5).state.users = -9223372036854775808 := by
  decide

/-! The two aggregations of the cluster's traffic, by the timer of the master and on a report of a slave. Both save for
each user the local counters, with the combined count of the slaves added to the download, but only the second tests for
a user that is nil. -/

variable {slaveTotals : List (String × Int)} {users : Loaded} {known : List (String × UserState)}

/-- What is saved for a user, given the local counters and the count of the slaves. -/
def clusterUser (user : Option UserState) (slave : Option Int) : Option UserState :=
  if user.isSome ∨ slave.isSome then
    some { cumulativeUp := (user.getD {}).cumulativeUp
           cumulativeDown := int64 ((user.getD {}).cumulativeDown + slave.getD 0) }
  else none

theorem mem_keys {α : Type} {l : List (String × α)} : email ∈ l.map Prod.fst ↔ (l.lookup email).isSome := by
  induction l with
  | nil => simp
  | cons e l ih =>
    rw [Assoc.lookup_cons, map_cons, mem_cons, ih]
    split_ifs with h <;> simp [h]

theorem lookup_saved {all : List String} (hall : all.Nodup) {merged : String → MergedUser}
    (hmer : ∀ email, (merged email).email = email) {order : MergedUser → MergedUser → Prop} [DecidableRel order]
    {save : MergedUser → UserState} :
    (Assoc.ofList (((all.map merged).insertionSort order).map fun user => (user.email, save user))).lookup email =
      if email ∈ all then some (save (merged email)) else none := by
  have hke : ((((all.map merged).insertionSort order).map fun user => (user.email, save user)).map Prod.fst).Nodup := by
    rw [map_map, ((perm_insertionSort _ _).map _).nodup_iff, map_map]
    simpa [Function.comp_def, hmer] using hall
  ext v
  rw [Assoc.lookup_ofList hke]
  simp only [mem_map, mem_insertionSort, exists_exists_and_eq_and, hmer, Prod.mk.injEq]
  split_ifs with h <;> simp [h]

theorem cumulative_nil (h : ∃ u ∈ users, u.2 = none) : cumulative users = none := by
  obtain ⟨u, hu, hnil⟩ := h
  induction users with
  | nil => cases hu
  | cons first rest ih =>
    rw [cumulative, mapM_cons]
    rcases mem_cons.1 hu with rfl | hre
    · rw [hnil]
      rfl
    · have hrest : rest.mapM _ = none := ih hre
      rw [hrest]
      cases first.2 <;> rfl

def pointers (known : List (String × UserState)) : Loaded := known.map fun e => (e.1, some e.2)

theorem exists_known (h : ∀ u ∈ users, u.2 ≠ none) : ∃ known, users = pointers known := by
  induction users with
  | nil => exact ⟨[], rfl⟩
  | cons first rest ih =>
    obtain ⟨known, rfl⟩ := ih fun u hu => h u (mem_cons_of_mem _ hu)
    obtain ⟨email, _ | user⟩ := first
    · exact absurd rfl (h _ mem_cons_self)
    · exact ⟨(email, user) :: known, rfl⟩

theorem cumulative_pointers : cumulative (pointers known) = some (known.map fun e =>
    ⟨e.1, e.2.cumulativeUp, e.2.cumulativeDown, int64 (e.2.cumulativeUp + e.2.cumulativeDown)⟩) := by
  induction known with
  | nil => rfl
  | cons e known ih =>
    have hrest : (pointers known).mapM _ = some _ := ih
    rw [pointers, map_cons, cumulative, mapM_cons, ← pointers, hrest]
    rfl

theorem lookup_generateClusterStats (hkeys : (known.map Prod.fst).Nodup) (hdis : (slaveTotals.map Prod.fst).Nodup) :
    ∃ saved, generateClusterStats (pointers known) slaveTotals = some saved ∧
      ∀ email, saved.lookup email = clusterUser (known.lookup email) (slaveTotals.lookup email) := by
  have hloc : Assoc.ofList ((known.map fun e => CumulativeUser.mk e.1 e.2.cumulativeUp e.2.cumulativeDown
      (int64 (e.2.cumulativeUp + e.2.cumulativeDown))).map fun user => (user.email, user)) = known.map fun e =>
      (e.1, ⟨e.1, e.2.cumulativeUp, e.2.cumulativeDown, int64 (e.2.cumulativeUp + e.2.cumulativeDown)⟩) := by
    rw [map_map]
    exact Assoc.ofList_eq_self (by rwa [map_map])
  refine ⟨_, by rw [generateClusterStats, cumulative_pointers]; rfl, fun email => ?_⟩
  rw [mergeWithSlaves, hloc, Assoc.ofList_eq_self hdis]
  refine (lookup_saved (nodup_dedup _) fun _ => rfl).trans ?_
  simp only [mem_dedup, mem_append, mem_keys, Assoc.lookup_map, Option.isSome_map, clusterUser]
  cases known.lookup email <;> rfl

theorem lookup_addTotals {users : List (String × UserState)} (hdis : (slaveTotals.map Prod.fst).Nodup)
    (hne : ∀ total ∈ slaveTotals, total.1 ≠ "") :
    ((slaveTotals.map fun total => (total.1, (0 : Int), total.2)).foldl addTotal users).lookup email =
      match slaveTotals.lookup email with
      | none => users.lookup email
      | some slave => some (let user := (users.lookup email).getD {}
        { user with
          cumulativeUp := int64 (user.cumulativeUp + 0), cumulativeDown := int64 (user.cumulativeDown + slave) }) := by
  induction slaveTotals generalizing users with
  | nil => rfl
  | cons total totals ih =>
    obtain ⟨addr, slave⟩ := total
    rw [map_cons, nodup_cons] at hdis
    rw [map_cons, foldl_cons, ih hdis.2 fun t ht => hne t (mem_cons_of_mem _ ht), Assoc.lookup_cons,
      addTotal, if_neg (hne _ mem_cons_self), Assoc.lookup_put]
    by_cases h : email = addr
    · subst h
      have hn : totals.lookup email = none := by
        rw [← Option.not_isSome_iff_eq_none, ← mem_keys]
        exact hdis.1
      simp [hn]
    · simp [h]

/-- The counters of a user in memory. -/
def UserState.IsInt64 (user : UserState) : Prop :=
  int64 user.cumulativeUp = user.cumulativeUp ∧ int64 user.cumulativeDown = user.cumulativeDown

instance (user : UserState) : Decidable user.IsInt64 := inferInstanceAs (Decidable (_ ∧ _))

theorem lookup_syncClusterTraffic (hkeys : (known.map Prod.fst).Nodup) (hint : ∀ e ∈ known, e.2.IsInt64)
    (hdis : (slaveTotals.map Prod.fst).Nodup) (hne : ∀ total ∈ slaveTotals, total.1 ≠ "") :
    (syncClusterTraffic (pointers known) (slaveTotals.map fun total => (total.1, 0, total.2))).lookup email =
      clusterUser (known.lookup email) (slaveTotals.lookup email) := by
  have hloc : ((pointers known).filterMap fun e => e.2.map fun user =>
      (e.1, ({ cumulativeUp := user.cumulativeUp, cumulativeDown := user.cumulativeDown } : UserState))) =
      known.map fun e => (e.1, { cumulativeUp := e.2.cumulativeUp, cumulativeDown := e.2.cumulativeDown }) := by
    rw [pointers, filterMap_map]
    exact congrFun filterMap_eq_map known
  rw [syncClusterTraffic, hloc, lookup_addTotals hdis hne, Assoc.ofList_eq_self (by rwa [map_map]), Assoc.lookup_map]
  cases hus : known.lookup email with
  | none => cases slaveTotals.lookup email <;> simp [clusterUser, int64]
  | some user =>
    have hin := hint _ (Assoc.mem_of_lookup hus)
    cases slaveTotals.lookup email <;> simp [clusterUser, hin.1, hin.2]

end Traffic

end Xraytool

/-! The totals of the cluster. A report replaces the rows of its node, and the aggregation adds the rows of every entry
of the configured list. An entry with spaces around it is accepted at the connection under its trimmed name. -/

namespace Xraytool.ReplicaStats

open Fallible List

def totalOf (rows : List Row) (email : String) : Option Int :=
  let own := rows.filter fun row => row.email == email
  if own = [] then none else some (own.map (·.total)).sum

/-- What the cluster has used for an email: the last totals of every node that may connect. The key of the table gives each
node one row. -/
def expectedTotal (allowedNodes : List String) (s : StatsStore) (email : String) : Option Int :=
  totalOf (s.stats.rows.filter fun row => nodeAllowed allowedNodes row.nodeID) email

def TotalsFit (allowedNodes : List String) (s : StatsStore) : Prop :=
  ∀ email, ∀ total ∈ expectedTotal allowedNodes s email, -9223372036854775808 ≤ total ∧ total < 9223372036854775808

variable {allowedNodes : List String} {s : StatsStore} {now : Time} {email : String} {rows : List Row}

theorem get_addRow {combined : Totals} {row : Row} : (addRow combined row).get email =
    if email = row.email then some (int64 ((combined.get row.email).getD 0 + row.total)) else combined.get email :=
  Assoc.Map.get_put

theorem get_foldl_addRow : (rows.foldl addRow {}).get email = (totalOf rows email).map int64 := by
  induction rows using reverseRecOn with
  | nil => rfl
  | append_singleton rows row ih =>
    rw [foldl_append, foldl_cons, foldl_nil, get_addRow]
    by_cases hem : email = row.email
    · subst hem
      have hbef : ((totalOf rows row.email).map int64).getD 0 =
          int64 ((rows.filter fun r => r.email == row.email).map (·.total)).sum := by
        dsimp only [totalOf]
        split_ifs with hnil
        · rw [hnil]
          rfl
        · rfl
      rw [if_pos rfl, ih, hbef, int64_add]
      simp [totalOf, filter_append]
    · rw [if_neg hem, ih]
      simp [totalOf, filter_append, Ne.symm hem]

theorem collect_eq {maxAge : Int} : (collectReplicaStats (fun _ => false) now allowedNodes maxAge s).1 =
      (allowedNodes.flatMap (rowsOf s)).foldl addRow {} := by
  have hfo (acc : Totals × SlaveReport) : (allowedNodes.foldl (collectNode (fun _ => false) now maxAge s) acc).1 =
        (allowedNodes.flatMap (rowsOf s)).foldl addRow acc.1 := by
    induction allowedNodes generalizing acc with
    | nil => rfl
    | cons node nodes ih =>
      rw [foldl_cons, ih, flatMap_cons, foldl_append]
      rfl
  exact hfo _

theorem totalOf_perm {rows' : List Row} (h : rows.Perm rows') : totalOf rows email = totalOf rows' email := by
  have hown := h.filter fun row => row.email == email
  simp only [totalOf]
  rw [(hown.map (·.total)).sum_eq]
  by_cases hnil : rows.filter (fun row => row.email == email) = []
  · rw [hnil] at hown
    rw [if_pos hnil, if_pos (perm_nil.1 hown.symm)]
  rw [if_neg hnil, if_neg]
  intro hnil'
  rw [hnil'] at hown
  exact hnil (perm_nil.1 hown)

theorem nodeAllowed_iff (h : ∀ node ∈ allowedNodes, trimSpace node = node) :
    nodeAllowed allowedNodes nodeID = true ↔ nodeID ∈ allowedNodes := by
  simp only [nodeAllowed, any_eq_true, beq_iff_eq]
  constructor
  · rintro ⟨node, hno, rfl⟩
    rwa [h node hno]
  · exact fun hno => ⟨nodeID, hno, h nodeID hno⟩

theorem nodup_rows : s.stats.rows.Nodup :=
  s.stats.distinct.imp fun hcl heq => hcl ⟨congrArg Row.nodeID heq, congrArg Row.email heq⟩

/-- With a list in normal form the rows added are those of the accepted nodes, each once. -/
theorem flatMap_rowsOf_perm (hnod : allowedNodes.Nodup) (htri : ∀ node ∈ allowedNodes, trimSpace node = node) :
    (allowedNodes.flatMap (rowsOf s)).Perm (s.stats.rows.filter fun row => nodeAllowed allowedNodes row.nodeID) := by
  have hpa : (allowedNodes.flatMap (rowsOf s)).Nodup := by
    refine nodup_flatMap.2 ⟨fun node _ => nodup_rows.filter _, hnod.imp fun hne row hrow hrow' => ?_⟩
    have hno := (mem_filter.1 hrow).2
    have hno' := (mem_filter.1 hrow').2
    exact hne ((beq_iff_eq.1 hno).symm.trans (beq_iff_eq.1 hno'))
  refine (perm_ext_iff_of_nodup hpa (nodup_rows.filter _)).2 fun row => ?_
  simp only [rowsOf, mem_flatMap, mem_filter, beq_iff_eq, nodeAllowed_iff htri]
  constructor
  · rintro ⟨node, hno, hrow, rfl⟩
    exact ⟨hrow, hno⟩
  · rintro ⟨hrow, hno⟩
    exact ⟨row.nodeID, hno, hrow, rfl⟩

def oneRow (nodeID : String) : StatsStore := { stats := .single ⟨nodeID, "user", 1⟩ }

theorem expectedTotal_oneRow :
    expectedTotal allowedNodes (oneRow nodeID) "user" = if nodeAllowed allowedNodes nodeID then some 1 else none := by
  simp only [expectedTotal, oneRow, Table.single, filter_cons, filter_nil]
  split_ifs <;> rfl

/-- The row is added once for each entry with the name of its node. -/
theorem flatMap_oneRow : allowedNodes.flatMap (rowsOf (oneRow nodeID)) =
      replicate (allowedNodes.count nodeID) ⟨nodeID, "user", 1⟩ := by
  induction allowedNodes with
  | nil => rfl
  | cons node nodes ih =>
    rw [flatMap_cons, ih]
    by_cases hno : nodeID = node
    · subst hno
      rw [count_cons_self, replicate_succ]
      simp [rowsOf, oneRow, Table.single]
    · rw [count_cons_of_ne (Ne.symm hno)]
      simp [rowsOf, oneRow, Table.single, hno]

theorem totalOf_replicate {n : Nat} : totalOf (replicate n ⟨nodeID, "user", 1⟩) "user" =
    if n = 0 then none else some (n : Int) := by
  unfold totalOf
  simp

theorem totalsFit_oneRow : TotalsFit allowedNodes (oneRow nodeID) := by
  intro email total hto
  have hone : total = 1 := by
    simp only [expectedTotal, oneRow, Table.single, filter_cons, filter_nil, totalOf] at hto
    split_ifs at hto <;> simp_all
  omega

/-- The totals of the cluster are right for every content of the table exactly when the configured list is in normal form.
A list in memory has an `int` as its length. -/
theorem cluster_totals_iff (allowedNodes : List String) (hlen : allowedNodes.length < 9223372036854775808) :
    (∀ now maxAge s, TotalsFit allowedNodes s → ∀ email,
      (collectReplicaStats (fun _ => false) now allowedNodes maxAge s).1.get email = expectedTotal allowedNodes s email) ↔
      allowedNodes.Nodup ∧ ∀ node ∈ allowedNodes, trimSpace node = node := by
  constructor
  · intro hri
    have hon : ∀ node ∈ allowedNodes, nodeAllowed allowedNodes node = true ∧ allowedNodes.count node = 1 := by
      intro node hno
      have hone := hri 0 0 (oneRow node) totalsFit_oneRow "user"
      have hpos := count_pos_iff.2 hno
      rw [collect_eq, get_foldl_addRow, flatMap_oneRow, totalOf_replicate, if_neg (Nat.ne_of_gt hpos),
        expectedTotal_oneRow, Option.map_some] at hone
      have hle : allowedNodes.count node ≤ allowedNodes.length := count_le_length
      rw [int64_of_fits (by omega)] at hone
      split_ifs at hone with hall
      exact ⟨hall, by exact_mod_cast Option.some.inj hone⟩
    constructor
    · refine nodup_iff_count_le_one.2 fun node => ?_
      by_cases hno : node ∈ allowedNodes
      · rw [(hon node hno).2]
      · rw [count_eq_zero.2 hno]
        exact Nat.zero_le 1
    · intro node hno
      obtain ⟨node', -, hno'⟩ := any_eq_true.1 (hon node hno).1
      rw [← beq_iff_eq.1 hno', trimSpace_idem]
  · rintro ⟨hnod, htri⟩ now maxAge s hfit email
    rw [collect_eq, get_foldl_addRow, totalOf_perm (flatMap_rowsOf_perm hnod htri), ← expectedTotal]
    cases hto : expectedTotal allowedNodes s email with
    | none => rfl
    | some total => rw [Option.map_some, int64_of_fits (hfit email total hto)]

def twoSlaves : StatsStore where
  stats := ⟨[⟨"slave-a", "user", 100⟩, ⟨"slave-b", "user", 50⟩], by decide⟩

theorem totalsFit_twoSlaves : TotalsFit ["slave-a", "slave-b"] twoSlaves := by
  intro email total hto
  have hrows : (twoSlaves.stats.rows.filter fun row => nodeAllowed ["slave-a", "slave-b"] row.nodeID) =
      twoSlaves.stats.rows := by decide
  rw [expectedTotal, hrows] at hto
  by_cases hem : "user" = email <;> simp [totalOf, twoSlaves, hem] at hto
  omega

theorem cluster_totals_two_slaves :
    (collectReplicaStats (fun _ => false) 0 ["slave-a", "slave-b"] 0 twoSlaves).1.get "user" = some 150 := by
  have hri := (cluster_totals_iff ["slave-a", "slave-b"] (by decide)).2 ⟨by decide, by decide⟩ 0 0 twoSlaves
    totalsFit_twoSlaves "user"
  rw [hri]
  decide

/-- A slave that is listed twice is counted twice, and one listed with a space is accepted and not counted. -/
theorem cluster_totals_off :
    (collectReplicaStats (fun _ => false) 0 ["slave-a", "slave-a"] 0 twoSlaves).1.get "user" = some 200 ∧
      expectedTotal ["slave-a", "slave-a"] twoSlaves "user" = some 100 ∧
      (collectReplicaStats (fun _ => false) 0 ["slave-a", " slave-b"] 0 twoSlaves).1.get "user" = some 100 ∧
      nodeAllowed ["slave-a", " slave-b"] "slave-b" = true ∧
      expectedTotal ["slave-a", " slave-b"] twoSlaves "user" = some 150 := by decide

def rowsFor (nodeID : String) (points : List (String × Int)) : List Row := points.map fun p => ⟨nodeID, p.1, p.2⟩

theorem createRows_ok {fails : StatsOp → Bool} {points : List (String × Int)} {t t' : Table Row Row.Clash}
    (h : createRows fails nodeID points t = .ok t') : t'.rows = t.rows ++ rowsFor nodeID points := by
  induction points generalizing t with
  | nil =>
    cases h
    simp [rowsFor]
  | cons point points ih =>
    rw [createRows] at h
    split_ifs at h
    obtain ⟨t1, h1, h⟩ := bind_eq_ok.1 h
    obtain ⟨-, h1⟩ := issue_eq_ok.1 h1
    split at h1
    · rename_i t2 hins
      cases h1
      simp [ih h, (Table.insert_eq_some hins).2, rowsFor]
    · cases h1

structure Report where
  now : Time
  nodeID : String
  points : List (String × Int)
  fails : StatsOp → Bool

structure Reported where
  store : StatsStore := {}
  /-- the last accepted report of each node -/
  last : Assoc.Map String (List (String × Int)) := {}

def reportStep (st : Reported) (r : Report) : Reported :=
  match replaceReplicaStats r.fails r.now r.nodeID r.points st.store with
  | .ok s => ⟨s, st.last.put r.nodeID r.points⟩
  | .error _ => st

def Reported.lastRows (st : Reported) (node : String) : List Row := rowsFor node ((st.last.get node).getD [])

def Reported.Current (st : Reported) : Prop := ∀ node, rowsOf st.store node = st.lastRows node

theorem current_reportStep {st : Reported} {r : Report} (h : st.Current) : (reportStep st r).Current := by
  intro node
  unfold reportStep
  split
  · rename_i s hok
    simp only [replaceReplicaStats, transaction_eq_ok, bind_eq_ok, issue_eq_ok] at hok
    obtain ⟨-, -, kept, ⟨-, hke⟩, stats, hro, -, -, -, hs⟩ := hok
    cases hke
    cases hs
    rw [rowsOf, createRows_ok hro, filter_append, Table.deleteWhere, filter_filter, Reported.lastRows,
      Assoc.Map.get_put]
    split_ifs with hno
    · subst hno
      simp [rowsFor, filter_map, Function.comp_def]
    · have hnil : (rowsFor r.nodeID r.points).filter (fun row => row.nodeID == node) = [] := by
        simp [rowsFor, filter_map, Function.comp_def, Ne.symm hno]
      rw [hnil, append_nil, ← Reported.lastRows, ← h, rowsOf]
      refine filter_congr fun row _ => ?_
      by_cases hrow : row.nodeID = node <;> simp [hrow, hno]
  · exact h node

/-- After any reports, whichever fail and wherever, the totals are those of the last accepted report of every configured
entry. -/
theorem collect_last_reports (reports : List Report) (allowedNodes : List String) (now : Time) (maxAge : Int)
    (email : String) : (collectReplicaStats (fun _ => false) now allowedNodes maxAge
        (reports.foldl reportStep {}).store).1.get email =
      (totalOf (allowedNodes.flatMap (reports.foldl reportStep {}).lastRows) email).map int64 := by
  have hcu : (reports.foldl reportStep {}).Current :=
    foldlRecOn (motive := Reported.Current) reports _ (fun _ => rfl) fun _ h _ _ => current_reportStep h
  rw [collect_eq, get_foldl_addRow, funext hcu]

end Xraytool.ReplicaStats
