import Xraytool.Sanity.Replication

/-! A slave that has applied the highest revision of the journal has its users. The invariant: the slave's copy is fresh
from the revision it has reached on, the frames in flight lead it on without a gap, and nothing above what it has
acknowledged is deleted. -/

namespace Xraytool

open Transition

theorem nodeAllowed_trimmed {nodes : List String} {nodeID : String} (h : nodeAllowed nodes nodeID) :
    trimSpace nodeID = nodeID := by
  obtain ⟨allowed, -, heq⟩ := List.any_eq_true.1 h
  obtain rfl : trimSpace allowed = nodeID := by simpa using heq
  exact trimSpace_idem

/-- What the phase of a session knows of the revision `E` that the frames in flight lead to. -/
def Phase.Knows (l : Log JournalEvent) (k E lastSent : Int) : Phase → Prop
  | .decide _ => E = max lastSent k
  | .capture => True
  | .read R => 0 ≤ R ∧ E ≤ max R k ∧ max R k ≤ l.top
  | .stream batch => E = max lastSent k ∧ l.Consecutive E batch

structure Session.Sound (ss : Session) (l : Log JournalEvent) (k c : Int) (sl : Slave) (E hi : Int) : Prop where
  hi_le : hi ≤ c
  stream : Stream l k (sl.reached k) sl ss.inFlight E hi ss.activeSnapshot
  phase : ss.phase.Knows l k E ss.lastSent

variable {E k lastSent : Int} {l : Log JournalEvent} {p : Phase}

theorem Phase.Knows.snoc (h : p.Knows l k E lastSent) {r : Int} {x : JournalEvent} (hr : l.top < r) :
    p.Knows (l.snoc r x hr) k E lastSent := by
  cases p with
  | decide initialized => exact h
  | capture => trivial
  | read R =>
    obtain ⟨hR, hE, htop⟩ := h
    refine ⟨hR, hE, ?_⟩
    rw [Log.top_snoc]
    omega
  | stream batch => exact ⟨h.1, h.2.snoc hr⟩

theorem Phase.Knows.prune (h : p.Knows l k E lastSent) {k' : Int} (hk : k ≤ k') (hE : k' ≤ E) :
    p.Knows l k' E lastSent := by
  cases p with
  | decide initialized =>
    have : E = max lastSent k := h
    show E = max lastSent k'
    omega
  | capture => trivial
  | read R =>
    obtain ⟨hR, hE', htop⟩ := h
    exact ⟨hR, by omega, by omega⟩
  | stream batch =>
    obtain ⟨hE', hba⟩ := h
    exact ⟨by omega, hba⟩

section Session

variable {m : Master} {k c E hi : Int} {sl : Slave} {ss ss' : Session}

section

variable (h : ss.Sound m.journal k c sl E hi)
include h

theorem Session.Sound.decide (hs : ss.decide m = some ss') : ss'.Sound m.journal k c sl E hi := by
  obtain ⟨lastSent, phase, inFlight, active⟩ := ss
  cases phase with
  | decide initialized =>
    cases hs
    refine { h with phase := ?_ }
    have hE : E = max lastSent k := h.phase
    split_ifs
    · trivial
    · exact ⟨hE, trivial⟩
  | capture | read R | stream batch => cases hs

/-- The captured revision is at or after everything sent, also when the outbox is empty and it is 0. -/
theorem Session.Sound.capture (hret : Retained m k)
    (hA : sl.reached k ≤ m.journal.top) (hs : ss.capture m = some ss') : ss'.Sound m.journal k c sl E hi := by
  obtain ⟨lastSent, phase, inFlight, active⟩ := ss
  cases phase with
  | decide initialized | read R | stream batch => cases hs
  | capture =>
    cases hs
    have hE := (h.stream.bounds hA).2
    exact ⟨h.hi_le, h.stream, hret.latest_nonneg, hret.latest.symm ▸ hE, hret.latest.le⟩

/-- The state is read after the revision was captured, so it may already hold later events. -/
theorem Session.Sound.readState {now : Int} {artifacts : List (String × String)}
    (hnow : c < now) (hs : ss.readState m now artifacts = some ss') :
    ∃ E', ss'.Sound m.journal k now sl E' now := by
  obtain ⟨lastSent, phase, inFlight, active⟩ := ss
  cases phase with
  | decide initialized | capture | stream batch => cases hs
  | read R =>
    cases hs
    obtain ⟨hR, hE, htop⟩ := h.phase
    have hvi : stageAll (fun _ => none) (foldUsers m.journal.entries) =
        m.journal.viewAt JournalEvent.write m.journal.top := by
      rw [stageAll_foldUsers, Log.viewAt_of_top_le _ le_rfl]
    have hsn : Pending m.journal k E hi (snapshotFrames R now (foldUsers m.journal.entries) artifacts)
        (max R k) now := by
      rw [snapshotFrames_eq, ← List.append_nil (snapshotRest _ _ _ _)]
      exact .snapshot ⟨hR, hE, htop, le_rfl⟩ hvi (h.hi_le.trans_lt hnow) (.done _ _)
    exact ⟨max R k, le_rfl, h.stream.append hsn, rfl, trivial⟩

theorem Session.Sound.readBatch (hret : Retained m k)
    (hs : ss.readBatch m = some ss') : ss'.Sound m.journal k c sl E hi := by
  obtain ⟨lastSent, phase, inFlight, active⟩ := ss
  cases phase with
  | decide initialized | capture | read R => cases hs
  | stream batch =>
    cases batch with
    | cons row batch => cases hs
    | nil =>
      cases hs
      have hE : E = max lastSent k := h.phase.1
      refine ⟨h.hi_le, h.stream, hE, ?_⟩
      rw [hret.eventsAfter, ← hE]
      exact m.journal.consecutive_filter E 500

theorem Session.Sound.sendNext (hs : ss.sendNext = some ss') : ∃ E', ss'.Sound m.journal k c sl E' hi := by
  obtain ⟨lastSent, phase, inFlight, active⟩ := ss
  cases phase with
  | decide initialized | capture | read R => cases hs
  | stream batch =>
    cases batch with
    | nil => cases hs
    | cons row batch =>
      obtain ⟨r, ev⟩ := row
      obtain ⟨hE, hne, hba⟩ := h.phase
      have hk : max r k = r := by
        have := hne.lt
        omega
      have hse : ∀ ev', ev' = ev → Session.Sound
          ⟨r, .stream batch, inFlight ++ [.event r ev'], active⟩ m.journal k c sl r hi := by
        rintro ev' rfl
        exact ⟨h.hi_le, h.stream.append (.event hne (.done r hi)), hk.symm, hba⟩
      cases ev with
      | resnapshot reason =>
        cases hs
        exact ⟨E, h.hi_le, h.stream, trivial⟩
      | upsert user | remove email | artifact kind data => cases hs; exact ⟨r, hse _ rfl⟩

end

end Session

structure Cluster.Inv (cfg : ClusterConfig) (s : Cluster) (k : Int) : Prop where
  retained : Retained s.master k
  slave : s.slave.Sound s.master.journal k s.clock
  acked : Acked s.master cfg.nodeID (s.slave.reached k)
  acks : ∀ a ∈ s.acks, 0 ≤ a ∧ a ≤ s.slave.reached k
  session : ∀ ss ∈ s.session, ∃ E hi, ss.Sound s.master.journal k s.clock s.slave E hi

namespace Cluster.Inv

variable {cfg : ClusterConfig} {s s' : Cluster} {k : Int}

theorem reached_le_top (h : s.Inv cfg k) : s.slave.reached k ≤ s.master.journal.top := h.slave.fresh.le_top

theorem reached_nonneg (h : s.Inv cfg k) : 0 ≤ s.slave.reached k := h.retained.nonneg.trans (le_max_right _ _)

theorem append (h : s.Inv cfg k) {r : Int} {ev : JournalEvent} (hr : s.master.journal.top < r) :
    Inv cfg { s with master := s.master.append r ev hr } k where
  retained := h.retained.append hr
  slave := ⟨h.slave.fresh.snoc hr, h.slave.inbox, h.slave.staging⟩
  acked := ⟨h.acked.rows, h.acked.own⟩
  acks := h.acks
  session := by
    intro ss hss
    obtain ⟨E, hi, hso⟩ := h.session ss hss
    exact ⟨E, hi, hso.hi_le, hso.stream.snoc hr, hso.phase.snoc hr⟩

/-- Retention stays below what the slave has reached, so it changes nothing in the stream to it. -/
theorem prune (hall : nodeAllowed cfg.allowedNodes cfg.nodeID) (h : s.Inv cfg k) :
    ∃ k', Inv cfg { s with master := s.master.pruneAcknowledged cfg.allowedNodes } k' ∧ k ≤ k' := by
  have hac : Acked (s.master.pruneAcknowledged cfg.allowedNodes) cfg.nodeID (s.slave.reached k) := by
    refine ⟨?_, ?_⟩ <;> rw [pruneAcknowledged_replicas]
    · exact h.acked.rows
    · exact h.acked.own
  have hmo : ∀ k', k ≤ k' → k' ≤ s.slave.reached k → Retained (s.master.pruneAcknowledged cfg.allowedNodes) k' →
      Inv cfg { s with master := s.master.pruneAcknowledged cfg.allowedNodes } k' := by
    intro k' hk hle hret
    have hre : s.slave.reached k' = s.slave.reached k := by
      simp only [Slave.reached] at hle ⊢
      omega
    refine ⟨hret, ?_, ?_, ?_, ?_⟩
    · rw [pruneAcknowledged_journal]
      exact ⟨hre ▸ h.slave.fresh, hre ▸ h.slave.inbox, h.slave.staging⟩
    · exact hre ▸ hac
    · exact hre ▸ h.acks
    intro ss hss
    obtain ⟨E, hi, hso⟩ := h.session ss hss
    have hE := (hso.stream.bounds h.reached_le_top).1
    rw [pruneAcknowledged_journal]
    exact ⟨E, hi, hso.hi_le, hre ▸ hso.stream.prune hk hle, hso.phase.prune hk (hle.trans hE)⟩
  rcases h.retained.prune cfg.allowedNodes with hret | ⟨minimum, hmin, -, -, hret⟩
  · exact ⟨k, hmo k le_rfl (le_max_right _ _) hret, le_rfl⟩
  · refine ⟨_, hmo _ (le_max_left _ _) (max_le (le_max_right _ _) ?_) hret, le_max_left _ _⟩
    exact (min_le_left _ _).trans (h.acked.minimum_le_own hall hmin)

theorem setMaster (h : s.Inv cfg k) {m : Master} (hj : m.journal = s.master.journal) (hret : Retained m k)
    (hac : Acked m cfg.nodeID (s.slave.reached k)) : Inv cfg { s with master := m } k :=
  ⟨hret, hj ▸ h.slave, hac, h.acks, hj ▸ h.session⟩

theorem setSession (h : s.Inv cfg k) {ss : Session} {hi : Int}
    (hss : ss.Sound s.master.journal k s.clock s.slave E hi) : Inv cfg { s with session := some ss } k := by
  refine { h with session := ?_ }
  rintro ss' ⟨⟩
  exact ⟨E, hi, hss⟩

theorem connect (hall : nodeAllowed cfg.allowedNodes cfg.nodeID) (h : s.Inv cfg k) : Inv cfg { s with
      master := s.master.markReplicaConnected cfg.nodeID
      session := some { lastSent := s.slave.appliedRevision, phase := .decide s.slave.initialized } } k := by
  have hm := h.setMaster markReplicaConnected_journal (h.retained.connected cfg.nodeID)
    (h.acked.connected (nodeAllowed_trimmed hall) h.reached_nonneg)
  exact hm.setSession ⟨le_rfl, ⟨s.clock, h.slave.staging, .done _ _⟩, rfl⟩

/-- A frame reaches the slave: the session may end at any call of it. -/
theorem deliver (h : s.Inv cfg k) {fails : SlaveOp → Bool} (hs : s.deliver fails = some s') :
    s'.Inv cfg k ∧ s.slave.reached k ≤ s'.slave.reached k := by
  unfold Cluster.deliver at hs
  split at hs
  · rename_i ss hss
    split at hs
    · cases hs
    rename_i frame rest hfl
    cases hs
    obtain ⟨E, hi, hso⟩ := h.session ss hss
    have hd := Stream.deliver fails h.slave hso.hi_le (hfl ▸ hso.stream)
    refine ⟨⟨h.retained, hd.sound, h.acked.mono hd.reached, ?_, ?_⟩, hd.reached⟩
    · intro a ha
      rcases List.mem_append.1 ha with ha | ha
      · exact ⟨(h.acks a ha).1, (h.acks a ha).2.trans hd.reached⟩
      · exact hd.ack a (by simpa using ha)
    · intro ss' hss'
      split_ifs at hss' with hal
      · cases hss'
        exact ⟨E, hi, hso.hi_le, hd.stream hal, hso.phase⟩
      · cases hss'
  · cases hs

theorem sessionStep (h : s.Inv cfg k) {f : Session → Option Session} {c : Int} (hc : s.clock ≤ c)
    (hf : ∀ ss ss' E hi, ss.Sound s.master.journal k s.clock s.slave E hi → f ss = some ss' →
      ∃ E' hi', ss'.Sound s.master.journal k c s.slave E' hi')
    (hs : ((s.session.bind f).map fun ss => { s with session := some ss, clock := c }) = some s') :
    s'.Inv cfg k ∧ s.slave.reached k ≤ s'.slave.reached k := by
  obtain ⟨ss', hbi, rfl⟩ := Option.map_eq_some_iff.1 hs
  obtain ⟨ss, hss, hfss⟩ := Option.bind_eq_some_iff.1 hbi
  obtain ⟨E, hi, hso⟩ := h.session ss hss
  refine ⟨{ h with slave := ⟨h.slave.fresh, h.slave.inbox, h.slave.staging.mono hc⟩, session := ?_ }, le_rfl⟩
  rintro _ ⟨⟩
  exact hf ss ss' E hi hso hfss

/-- Every step keeps the invariant, and the slave never falls behind what it has reached. -/
theorem step (hall : nodeAllowed cfg.allowedNodes cfg.nodeID) (h : s.Inv cfg k) {e : ClusterLabel}
    (hs : clusterStep cfg s e = some s') : ∃ k', s'.Inv cfg k' ∧ s.slave.reached k ≤ s'.slave.reached k' := by
  cases e with
  | append r ev =>
    simp only [clusterStep] at hs
    split_ifs at hs with hr
    cases hs
    exact ⟨k, h.append hr, le_rfl⟩
  | otherConnects node =>
    simp only [clusterStep] at hs
    split_ifs at hs with hno
    cases hs
    exact ⟨k, h.setMaster markReplicaConnected_journal (h.retained.connected node)
      (h.acked.connected (nodeAllowed_trimmed hno.2) h.reached_nonneg), le_rfl⟩
  | otherAcknowledges node r =>
    simp only [clusterStep] at hs
    split_ifs at hs with hno
    cases hs
    obtain ⟨a, ha⟩ := Option.isSome_iff_exists.1 (AList.lookup_isSome.2 hno.2)
    exact ⟨k, h.setMaster acknowledgeReplica_journal (h.retained.acknowledged node r)
      (h.acked.acknowledged (h.acked.rows node a ha).1 (.inl hno.2) fun heq => absurd heq hno.1), le_rfl⟩
  | prune =>
    cases hs
    obtain ⟨k', h', hle⟩ := h.prune hall
    exact ⟨k', h', max_le_max le_rfl hle⟩
  | connect =>
    simp only [clusterStep] at hs
    split_ifs at hs
    cases hs
    exact ⟨k, h.connect hall, le_rfl⟩
  | decide => exact ⟨k, h.sessionStep le_rfl (fun _ _ _ _ hss hf => ⟨_, _, hss.decide hf⟩) hs⟩
  | capture =>
    exact ⟨k, h.sessionStep le_rfl (fun _ _ _ _ hss hf => ⟨_, _, hss.capture h.retained h.reached_le_top hf⟩) hs⟩
  | readState now artifacts =>
    simp only [clusterStep] at hs
    split_ifs at hs with hnow
    refine ⟨k, h.sessionStep hnow.le (fun _ _ _ _ hss hf => ?_) hs⟩
    obtain ⟨E', hss'⟩ := hss.readState hnow hf
    exact ⟨E', now, hss'⟩
  | readBatch => exact ⟨k, h.sessionStep le_rfl (fun _ _ _ _ hss hf => ⟨_, _, hss.readBatch h.retained hf⟩) hs⟩
  | sendNext =>
    refine ⟨k, h.sessionStep le_rfl (fun _ _ _ hi hss hf => ?_) hs⟩
    obtain ⟨E', hss'⟩ := hss.sendNext hf
    exact ⟨E', hi, hss'⟩
  | deliver fails => exact ⟨k, h.deliver hs⟩
  | ackArrives =>
    simp only [clusterStep] at hs
    split at hs
    · cases hs
    rename_i r rest hac
    cases hs
    obtain ⟨hpos, hle⟩ := h.acks r (by simp [hac])
    have hm := h.setMaster acknowledgeReplica_journal (h.retained.acknowledged cfg.nodeID r)
      (h.acked.acknowledged (nodeAllowed_trimmed hall) (.inr hpos) fun _ => hle)
    exact ⟨k, { hm with acks := fun a ha => h.acks a (by simp [hac, ha]) }, le_rfl⟩
  | ackLost =>
    simp only [clusterStep] at hs
    split at hs
    · cases hs
    rename_i r rest hac
    cases hs
    exact ⟨k, { h with acks := fun a ha => h.acks a (by simp [hac, ha]) }, le_rfl⟩
  | cut =>
    cases hs
    exact ⟨k, { h with session := by rintro ss ⟨⟩ }, le_rfl⟩

theorem init : Inv cfg {} 0 where
  retained := ⟨le_rfl, le_rfl, rfl⟩
  slave := ⟨fun _ => ⟨0, le_rfl, le_rfl, rfl⟩, by simp, fun key hkey => absurd hkey (AList.notMem_empty key)⟩
  acked := ⟨by simp, by simp⟩
  acks := by simp
  session := by simp

end Cluster.Inv

theorem run_reached {cfg : ClusterConfig} (hall : nodeAllowed cfg.allowedNodes cfg.nodeID) {s s' : Cluster}
    {tr : List ClusterLabel} (h : s.Inv cfg k) (hrun : Run (stepsTo (clusterStep cfg)) s tr s') :
    ∃ k', s'.Inv cfg k' ∧ s.slave.reached k ≤ s'.slave.reached k' :=
  hrun.invariant (fun t => ∃ k', t.Inv cfg k' ∧ s.slave.reached k ≤ t.slave.reached k') ⟨k, h, le_rfl⟩
    fun t e t' ⟨_, hinv, hle⟩ hs => by
      obtain ⟨k', hinv', hle'⟩ := hinv.step hall hs
      exact ⟨k', hinv', hle.trans hle'⟩

/-- In every run of a master and an allowed slave: if at some moment the slave has applied the snapshot or the
event with the revision that is the highest of the journal at the end, then at the end its desired users are
those of the whole journal, the last writer of an email winning, whatever is still in flight. -/
theorem desired_users_converge (cfg : ClusterConfig) (hallowed : nodeAllowed cfg.allowedNodes cfg.nodeID)
    (tr tr' : List ClusterLabel) (s s' : Cluster) (hrun : Run (stepsTo (clusterStep cfg)) {} tr s)
    (hrun' : Run (stepsTo (clusterStep cfg)) s tr' s')
    (happlied : s.slave.appliedRevision = s'.master.journal.top ∨ s'.master.journal.top ∈ s.slave.inbox)
    (email : String) (user : VPNUserConfig) :
    ⟨email, user⟩ ∈ s'.slave.desired.entries ↔ s'.master.journal.view JournalEvent.write email = some user := by
  obtain ⟨k, hinv, -⟩ := run_reached hallowed Cluster.Inv.init hrun
  obtain ⟨k', hinv', hle⟩ := run_reached hallowed hinv hrun'
  have htop : s'.master.journal.top ≤ s.slave.reached k := by
    rcases happlied with happ | hin
    · exact happ ▸ le_max_left _ _
    · exact hinv.slave.inbox _ hin
  have hvi : s'.slave.users = s'.master.journal.view JournalEvent.write :=
    (hinv'.slave.fresh.mono (htop.trans hle)).eq_view
  rw [← hvi, ← AList.mem_lookup_iff]
  rfl

/-- A snapshot of revision 1 that already holds the removal at revision 2, a cut, and the removal again. -/
theorem desired_users_converge_overlap :
    ∃ s, Run (stepsTo (clusterStep ⟨[" a", "a"], "a"⟩)) {}
        [.append 1 (.upsert { email := "x" }), .connect, .decide, .capture, .append 2 (.remove "x"),
          .append 3 (.upsert { email := "y" }), .readState 1 [], .deliver fun _ => false,
          .deliver fun _ => false, .deliver fun _ => false, .cut, .connect, .decide, .readBatch, .sendNext,
          .deliver fun _ => false, .sendNext, .deliver fun _ => false] s ∧
      ((⟨"y", { email := "y" }⟩ : Σ _ : String, VPNUserConfig) ∈ s.slave.desired.entries ↔
        s.master.journal.view JournalEvent.write "y" = some { email := "y" }) := by
  exact Run.exists_of_exec_imp (P := fun s => s.slave.appliedRevision = s.master.journal.top) (by decide)
    fun s hrun happ => desired_users_converge _ (by decide) _ [] s s hrun .nil (.inl happ) _ _

/-- At every moment of every run what the slave has of an email is what the journal said of it at some moment `t`, and
everything the slave has applied, the master has taken for acknowledged or retention has deleted is at or before `t`. -/
theorem slave_reflects_acknowledged (cfg : ClusterConfig) (hallowed : nodeAllowed cfg.allowedNodes cfg.nodeID)
    (tr : List ClusterLabel) (s : Cluster) (hrun : Run (stepsTo (clusterStep cfg)) {} tr s) (email : String) :
    ∃ t, s.slave.users email = s.master.journal.viewAt JournalEvent.write t email ∧ t ≤ s.master.journal.top ∧
      s.slave.appliedRevision ≤ t ∧ (∀ a, s.master.replicas.lookup cfg.nodeID = some a → a ≤ t) ∧
      ∀ row ∈ s.master.journal.entries, row ∉ s.master.outbox → row.1 ≤ t := by
  obtain ⟨k, hinv, -⟩ := run_reached hallowed Cluster.Inv.init hrun
  obtain ⟨t, hle, htop, heq⟩ := hinv.slave.fresh email
  refine ⟨t, heq, htop, (le_max_left _ _).trans hle, fun a ha => (hinv.acked.own a ha).trans hle, fun row hrow hout => ?_⟩
  have hk : row.1 ≤ k := by
    by_contra hlt
    exact hout (by simpa [hinv.retained.outbox, hrow] using hlt)
  exact hk.trans ((le_max_right _ _).trans hle)

theorem slave_reflects_acknowledged_pruned :
    ∃ s, Run (stepsTo (clusterStep ⟨["a"], "a"⟩)) {} ([.append 1 (.upsert { email := "x" }), .connect, .decide, .capture,
        .readState 1 []] ++ List.replicate 3 (.deliver fun _ => false) ++ [.ackArrives, .prune]) s ∧
      s.master.outbox = [] ∧ ∃ t, s.slave.users "x" = s.master.journal.viewAt JournalEvent.write t "x" ∧
        ∀ row ∈ s.master.journal.entries, row.1 ≤ t := by
  refine Run.exists_of_exec_imp (P := fun s => s.master.outbox = []) (by decide) fun s hrun hout => ⟨hout, ?_⟩
  obtain ⟨t, heq, -, -, -, hrow⟩ := slave_reflects_acknowledged _ (by decide) _ s hrun "x"
  exact ⟨t, heq, fun row hr => hrow row hr (by simp [hout])⟩

/-! When a reconnecting slave gets no snapshot, is the rest of the journal still there for it? `Connect` compares the
slave's revision with the oldest one in the outbox, which says nothing once the outbox is empty. -/

open List

/-- The `n`-th page of events of a session that starts at revision `r`. -/
def Master.page (m : Master) : Int → Nat → List OutboxRow
  | r, 0 => m.eventsAfter r 500
  | r, n + 1 => m.page (((m.eventsAfter r 500).getLast?.map (·.1)).getD r) n

/-- Everything appended after `r` is still in the outbox and comes up in some page read from `r` on. -/
def HistoryAvailable (m : Master) (r : Int) : Prop :=
  ∀ row ∈ m.journal.entries, r < row.1 → row ∈ m.outbox ∧ ∃ n, row ∈ m.page r n

theorem masterStep_retained {n n' : MasterNode} {e : MasterLabel} (h : ∃ k, Retained n.store k)
    (hs : masterStep n e = some n') : ∃ k, Retained n'.store k := by
  obtain ⟨k, h⟩ := h
  cases e with
  | append r ev =>
    simp only [masterStep] at hs
    split_ifs at hs with hr
    cases hs
    exact ⟨k, h.append hr⟩
  | connect nodeID =>
    simp only [masterStep] at hs
    split_ifs at hs
    cases hs
    exact ⟨k, h.connected nodeID⟩
  | acknowledge nodeID r =>
    simp only [masterStep] at hs
    split_ifs at hs
    cases hs
    exact ⟨k, h.acknowledged nodeID r⟩
  | prune =>
    cases hs
    rcases h.prune n.allowedNodes with h | ⟨minimum, -, -, -, h⟩
    · exact ⟨k, h⟩
    · exact ⟨_, h⟩
  | restart nodes => cases hs; exact ⟨k, h⟩

theorem run_retained {tr : List MasterLabel} {n : MasterNode}
    (h : Run (stepsTo masterStep) {} tr n) : ∃ k, Retained n.store k :=
  h.invariant (fun n => ∃ k, Retained n.store k) ⟨0, le_rfl, le_rfl, rfl⟩ fun _ _ _ hI hs =>
    masterStep_retained hI hs

/-- Paging through a sorted outbox reaches every row: a page that misses it ends before it. -/
theorem exists_page {m : Master} (hs : m.outbox.Pairwise fun row row' => row.1 < row'.1) {row : OutboxRow}
    (hrow : row ∈ m.outbox) (r : Int) (hr : r < row.1) : ∃ n, row ∈ m.page r n := by
  -- induction on the number of rows still to be read
  induction hlen : (m.outbox.filter fun row => r < row.1).length using Nat.strong_induction_on generalizing r with
  | _ len ih =>
    subst hlen
    set rest := m.outbox.filter fun row => r < row.1 with hre
    have hmem : row ∈ rest := mem_filter.2 ⟨hrow, by simpa using hr⟩
    have hpa : m.eventsAfter r 500 = rest.take 500 := rfl
    by_cases hin : row ∈ rest.take 500
    · exact ⟨0, hin⟩
    have hdr : row ∈ rest.drop 500 := by
      rw [← take_append_drop 500 rest] at hmem
      exact (mem_append.1 hmem).resolve_left hin
    obtain ⟨pre, last, hla⟩ : ∃ pre last, rest.take 500 = pre ++ [last] := by
      have hne : rest.take 500 ≠ [] := by
        intro hnil
        rcases take_eq_nil_iff.1 hnil with h | h
        · cases h
        · simp [h] at hmem
      exact ⟨_, _, (dropLast_append_getLast hne).symm⟩
    have hsr : rest.Pairwise fun row row' => row.1 < row'.1 := hs.filter _
    have hlt : last.1 < row.1 := by
      rw [← take_append_drop 500 rest, pairwise_append] at hsr
      exact hsr.2.2 last (by simp [hla]) row hdr
    have hlas : last ∈ rest := mem_of_mem_take (by simp [hla] : last ∈ rest.take 500)
    have hlastr : r < last.1 := by simpa using (mem_filter.1 hlas).2
    -- the last row of this page is not read again, so the next call has fewer rows
    have hle : (m.outbox.filter fun row => last.1 < row.1).length < rest.length := by
      have hsub : (m.outbox.filter fun row => last.1 < row.1).Sublist rest :=
        monotone_filter_right _ fun a ha => by simp at ha ⊢; omega
      refine lt_of_le_of_ne hsub.length_le fun heq => ?_
      rw [← hsub.eq_of_length heq] at hlas
      simp at hlas
    obtain ⟨n, hn⟩ := ih _ hle last.1 hlt rfl
    exact ⟨n + 1, by simpa [Master.page, hpa, hla] using hn⟩

/-- In every run of the master, restarts with other allowed nodes included: where `Connect` decides that an
initialised slave at revision `r` needs no snapshot, the history after `r` is available iff the outbox is
not empty or nothing was ever appended after `r`. -/
theorem history_available_iff (tr : List MasterLabel) (n : MasterNode) (h : Run (stepsTo masterStep) {} tr n)
    (r : Int) (hdec : n.store.needsSnapshot true r = false) :
    HistoryAvailable n.store r ↔ n.store.outbox ≠ [] ∨ ∀ row ∈ n.store.journal.entries, row.1 ≤ r := by
  obtain ⟨k, hret⟩ := run_retained h
  constructor
  · intro hav
    by_contra hno
    rw [not_or, not_not, not_forall] at hno
    obtain ⟨hem, row, hrow⟩ := hno
    rw [Classical.not_imp, not_le] at hrow
    have hin := (hav row hrow.1 hrow.2).1
    simp [hem] at hin
  · rintro (hne | hall) row hrow hr
    · obtain ⟨hk, hold⟩ := hret.oldest hne
      have hpos : 0 < n.store.oldestRevision := hret.nonneg.trans_lt hk
      simp only [Master.needsSnapshot, Bool.not_true, Bool.false_or, Bool.and_eq_false_iff,
        decide_eq_false_iff_not] at hdec
      have hle : n.store.oldestRevision ≤ row.1 := by omega
      have hin : row ∈ n.store.outbox := hret.mem_outbox.2 ⟨hrow, hk.trans_le hle⟩
      exact ⟨hin, exists_page hret.sorted hin r hr⟩
    · exact absurd (hall row hrow) (not_le.2 hr)

theorem history_available_iff_one_event :
    ∃ n, Run (stepsTo masterStep) {} [.restart ["a"], .append 1 (.upsert { email := "x" }), .connect "a"] n ∧
      n.store.needsSnapshot true 0 = false ∧ HistoryAvailable n.store 0 := by
  exact Run.exists_of_exec_imp (P := fun n => n.store.needsSnapshot true 0 = false ∧ n.store.outbox ≠ [])
    (by decide) fun n hrun ⟨hdec, hne⟩ => ⟨hdec, (history_available_iff _ n hrun 0 hdec).2 (.inl hne)⟩

/-- Node `b` is at revision 1 when it is taken off the allowed nodes; `a` acknowledges revision 2 and the
outbox is pruned empty; `b` comes back, gets no snapshot, and the removal at revision 2 is gone. -/
theorem history_lost :
    ∃ n, Run (stepsTo masterStep) {}
        [.restart ["a", "b"], .append 1 (.upsert { email := "x" }), .connect "a", .connect "b",
          .acknowledge "a" 1, .acknowledge "b" 1, .restart ["a"], .append 2 (.remove "x"), .acknowledge "a" 2,
          .prune, .restart ["a", "b"], .connect "b"] n ∧
      n.store.needsSnapshot true 1 = false ∧ ¬ HistoryAvailable n.store 1 := by
  refine Run.exists_of_exec_imp (P := fun n => n.store.needsSnapshot true 1 = false ∧
      (2, .remove "x") ∈ n.store.journal.entries ∧ n.store.outbox = [])
    (by decide) fun n hrun ⟨hdec, hmem, hem⟩ => ⟨hdec, fun hav => ?_⟩
  have hin := (hav _ hmem (by decide)).1
  simp [hem] at hin

end Xraytool
