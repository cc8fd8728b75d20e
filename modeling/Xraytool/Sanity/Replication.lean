import Xraytool.Spec.Replication

/-! What the outbox still holds. Retention only ever deletes a lower part of the journal, so the outbox is the part
above some revision (`Retained`). `Acked` bounds what one node has acknowledged. -/

namespace Xraytool

open List Master

/-- The outbox holds exactly the journal above revision `k`. -/
structure Retained (m : Master) (k : Int) : Prop where
  nonneg : 0 ≤ k
  le_top : k ≤ m.journal.top
  outbox : m.outbox = m.journal.entries.filter fun row => k < row.1

namespace Retained

variable {m : Master} {k : Int}

section

variable (h : Retained m k)
include h

theorem mem_outbox {row : OutboxRow} : row ∈ m.outbox ↔ row ∈ m.journal.entries ∧ k < row.1 := by
  rw [h.outbox, mem_filter, decide_eq_true_eq]

theorem sorted : m.outbox.Pairwise fun row row' => row.1 < row'.1 := by
  rw [h.outbox]
  exact m.journal.sorted.filter _

theorem append {r : Int} {ev : JournalEvent} (hr : m.journal.top < r) : Retained (m.append r ev hr) k := by
  refine ⟨h.nonneg, ?_, ?_⟩
  · have := h.le_top
    show k ≤ (m.journal.snoc r ev hr).top
    rw [Log.top_snoc]
    omega
  · have hk : k < r := h.le_top.trans_lt hr
    simp [Master.append, Log.snoc, h.outbox, filter_append, hk]

/-- Retention deletes up to the smallest acknowledged revision, if every allowed node has one. -/
theorem prune (nodes : List String) : Retained (m.pruneAcknowledged nodes) k ∨
      ∃ minimum, m.minimumAcknowledged nodes (-1) = some minimum ∧ nodes ≠ [] ∧ 0 < minimum ∧
        Retained (m.pruneAcknowledged nodes) (max k (min minimum m.journal.top)) := by
  unfold pruneAcknowledged
  split_ifs with hnil
  · exact .inl h
  split
  · exact .inl h
  rename_i minimum hmin
  split_ifs with hpos
  · exact .inl h
  refine .inr ⟨minimum, hmin, by simpa using hnil, by omega, ?_, ?_, ?_⟩
  · have := h.nonneg
    omega
  · exact max_le h.le_top (min_le_right _ _)
  rw [h.outbox, filter_filter]
  refine filter_congr fun row hrow => ?_
  have htop := Log.le_top hrow
  by_cases h1 : row.1 ≤ minimum
  · simp [h1, htop]
  · have hlt : min minimum m.journal.top < row.1 := lt_of_le_of_lt (min_le_left _ _) (not_le.1 h1)
    simp [h1, hlt]

/-- An unread journal is above `k`; its last revision is the latest one, 0 if it is empty. -/
theorem latest : max m.latestRevision k = m.journal.top := by
  refine le_antisymm (max_le ?_ h.le_top) (Log.top_le.2 ⟨h.nonneg.trans (le_max_right _ _), fun row hrow => ?_⟩)
  · unfold latestRevision
    cases hl : m.outbox.getLast? with
    | none => exact m.journal.top_nonneg
    | some row => exact Log.le_top (h.mem_outbox.1 (mem_of_getLast? hl)).1
  · rcases le_or_gt row.1 k with hk | hk
    · exact le_max_of_le_right hk
    · have hmem := h.mem_outbox.2 ⟨hrow, hk⟩
      obtain ⟨pre, last, hsp⟩ : ∃ pre last, m.outbox = pre ++ [last] :=
        ⟨_, _, (dropLast_append_getLast (ne_nil_of_mem hmem)).symm⟩
      have hs := h.sorted
      rw [hsp] at hmem hs
      have hla : row.1 ≤ last.1 := by
        rcases mem_append.1 hmem with hp | hp
        · exact (pairwise_append.1 hs).2.2 row hp last (mem_singleton_self _) |>.le
        · rw [mem_singleton.1 hp]
      exact le_max_of_le_left (by simpa [latestRevision, hsp] using hla)

theorem oldest (hne : m.outbox ≠ []) : k < m.oldestRevision ∧ ∀ row ∈ m.outbox, m.oldestRevision ≤ row.1 := by
  obtain ⟨row, rest, hsp⟩ := exists_cons_of_ne_nil hne
  have hold : m.oldestRevision = row.1 := by simp [oldestRevision, hsp]
  rw [hold]
  refine ⟨(h.mem_outbox.1 (by simp [hsp])).2, fun row' hrow' => ?_⟩
  have hs := h.sorted
  rw [hsp] at hrow' hs
  rcases mem_cons.1 hrow' with rfl | hr
  · exact le_rfl
  · exact ((pairwise_cons.1 hs).1 row' hr).le

theorem latest_nonneg : 0 ≤ m.latestRevision := by
  unfold latestRevision
  cases hl : m.outbox.getLast? with
  | none => exact le_rfl
  | some row => exact (m.journal.pos row (h.mem_outbox.1 (mem_of_getLast? hl)).1).le

/-- A page read after `r` is the journal after `r` and after what has been deleted. -/
theorem eventsAfter (r : Int) :
    m.eventsAfter r 500 = (m.journal.entries.filter fun row => max r k < row.1).take 500 := by
  unfold Master.eventsAfter
  rw [h.outbox, filter_filter]
  simp only [max_lt_iff, Bool.decide_and]
  rfl

end

end Retained

@[simp] theorem markReplicaConnected_journal {m : Master} {node : String} :
    (m.markReplicaConnected node).journal = m.journal := by
  unfold markReplicaConnected
  split <;> rfl

@[simp] theorem acknowledgeReplica_journal {m : Master} {node : String} {r : Int} :
    (m.acknowledgeReplica node r).journal = m.journal := by
  unfold acknowledgeReplica
  split
  · rfl
  · split_ifs <;> rfl

@[simp] theorem pruneAcknowledged_journal {m : Master} {nodes : List String} :
    (m.pruneAcknowledged nodes).journal = m.journal := by
  unfold pruneAcknowledged
  split_ifs
  · rfl
  split
  · rfl
  · split_ifs <;> rfl

theorem pruneAcknowledged_replicas {m : Master} : (m.pruneAcknowledged nodes).replicas = m.replicas := by
  unfold pruneAcknowledged
  split_ifs
  · rfl
  split
  · rfl
  · split_ifs <;> rfl

variable {k : Int} {m : Master}

theorem Retained.connected (h : Retained m k) (node : String) : Retained (m.markReplicaConnected node) k := by
  unfold markReplicaConnected
  split <;> exact { h with }

theorem Retained.acknowledged (h : Retained m k) (node : String) (r : Int) :
    Retained (m.acknowledgeReplica node r) k := by
  unfold acknowledgeReplica
  split
  · exact { h with }
  · split_ifs <;> exact { h with }

/-- Nodes are recorded under trimmed names, and `nodeID` has acknowledged at most `A`. -/
structure Acked (m : Master) (nodeID : String) (A : Int) : Prop where
  rows : ∀ node a, m.replicas.lookup node = some a → trimSpace node = node ∧ 0 ≤ a
  own : ∀ a, m.replicas.lookup nodeID = some a → a ≤ A

namespace Acked

variable {m : Master} {nodeID : String} {A : Int}

theorem mono (h : Acked m nodeID A) {A' : Int} (hA : A ≤ A') : Acked m nodeID A' :=
  ⟨h.rows, fun a ha => (h.own a ha).trans hA⟩

variable {r b : Int} {node : String}

section

variable (h : Acked m nodeID A) (hnode : trimSpace node = node)
include h hnode

theorem insert (hr : 0 ≤ r) (hown : node = nodeID → r ≤ A) :
    Acked { m with replicas := m.replicas.insert node r } nodeID A := by
  constructor
  · intro n a ha
    by_cases hn : n = node
    · subst hn
      obtain rfl : r = a := by simpa using ha
      exact ⟨hnode, hr⟩
    · exact h.rows n a (by simpa [AList.lookup_insert_ne hn] using ha)
  · intro a ha
    by_cases hn : nodeID = node
    · subst hn
      obtain rfl : r = a := by simpa using ha
      exact hown rfl
    · exact h.own a (by simpa [AList.lookup_insert_ne hn] using ha)

theorem connected (hA : 0 ≤ A) : Acked (m.markReplicaConnected node) nodeID A := by
  unfold markReplicaConnected
  split
  · exact h.insert hnode le_rfl fun _ => hA
  · exact h

theorem acknowledged (hr : node ∈ m.replicas ∨ 0 ≤ r) (hown : node = nodeID → r ≤ A) :
    Acked (m.acknowledgeReplica node r) nodeID A := by
  unfold acknowledgeReplica
  split
  · rename_i hn
    exact h.insert hnode (hr.resolve_left (AList.lookup_eq_none.1 hn)) hown
  rename_i a ha
  split_ifs with hlt
  · exact h.insert hnode ((h.rows node a ha).2.trans hlt.le) hown
  · exact h

end

/-- The loop over the nodes ends at or below the row of every one of them. -/
theorem minimum_le (h : Acked m nodeID A) {minimum : Int} (hb : m.minimumAcknowledged nodes minimum = some b) :
    (0 ≤ minimum → b ≤ minimum) ∧ ∀ node ∈ nodes, ∃ a, m.replicas.lookup node = some a ∧ b ≤ a := by
  induction nodes generalizing minimum with
  | nil =>
    cases hb
    simp
  | cons node nodes ih =>
    unfold minimumAcknowledged at hb
    split at hb
    · cases hb
    rename_i a ha
    obtain ⟨hle, hre⟩ := ih hb
    have ha0 : 0 ≤ a := (h.rows node a ha).2
    have hba : b ≤ a ∧ (0 ≤ minimum → b ≤ minimum) := by
      split_ifs at hle with hlow
      · omega
      · omega
    refine ⟨hba.2, fun n hn => ?_⟩
    rcases mem_cons.1 hn with rfl | hn
    · exact ⟨a, ha, hba.1⟩
    · exact hre n hn

/-- While `nodeID` is allowed, the bound of retention is at most what it has acknowledged: if the list of
nodes has it with blanks around it, its row is not found and nothing is deleted. -/
theorem minimum_le_own (h : Acked m nodeID A)
    (hall : nodeAllowed nodes nodeID) (hb : m.minimumAcknowledged nodes (-1) = some b) : b ≤ A := by
  obtain ⟨allowed, hmem, heq⟩ := any_eq_true.1 hall
  obtain ⟨a, ha, hba⟩ := (h.minimum_le hb).2 allowed hmem
  have htr : allowed = nodeID := (h.rows allowed a ha).1.symm.trans (by simpa using heq)
  exact hba.trans (h.own a (htr ▸ ha))

end Acked

/-! What one frame does to a slave, in terms of the map from emails to desired users. -/

open Function JournalEvent Slave

def Slave.users (sl : Slave) : String → Option VPNUserConfig := fun email => sl.desired.lookup email

def Slave.stagedUsers (sl : Slave) (id : Int) : String → Option VPNUserConfig :=
  fun email => sl.staging.lookup (id, email)

def stageAll (D : String → Option VPNUserConfig) (users : List VPNUserConfig) : String → Option VPNUserConfig :=
  users.foldl (fun D u => Function.update D u.email (some u)) D

variable {sl : Slave} {user : VPNUserConfig} {id : Int}

theorem users_put (user : VPNUserConfig) :
    ({ sl with desired := sl.desired.insert user.email user } : Slave).users =
      Log.put sl.users (upsert user).write := by
  funext email
  by_cases he : email = user.email
  · subst he
    simp [users, Log.put, write]
  · simp [users, Log.put, write, update_of_ne he, AList.lookup_insert_ne he]

theorem users_drop (email : String) : ({ sl with desired := sl.desired.erase email } : Slave).users =
      Log.put sl.users (remove email).write := by
  funext e
  by_cases he : e = email
  · subst he
    simp [users, Log.put, write]
  · simp [users, Log.put, write, update_of_ne he, AList.lookup_erase_ne he]

/-- `ApplyEvent` of a new event: it fails before the desired users, or writes them and then records the
event, or fails to record it. -/
theorem applyEvent_cases (sl : Slave) (fails : SlaveOp → Bool) {r : Int} (ev : JournalEvent) (hr : r ∉ sl.inbox) :
    sl.applyEvent fails r ev = (sl, false) ∨
      ∃ sl', sl'.users = Log.put sl.users ev.write ∧ sl'.staging = sl.staging ∧ sl'.inbox = sl.inbox ∧
        sl'.appliedRevision = sl.appliedRevision ∧
        (sl.applyEvent fails r ev = (sl', false) ∨
          sl.applyEvent fails r ev = ({ sl' with inbox := sl'.inbox ++ [r], appliedRevision := r }, true)) := by
  have hma : ∀ sl' : Slave, sl'.inbox = sl.inbox → sl'.markApplied fails r = (sl', false) ∨
      sl'.markApplied fails r = ({ sl' with inbox := sl'.inbox ++ [r], appliedRevision := r }, true) := by
    intro sl' hin
    unfold markApplied
    rw [hin, if_neg hr]
    split_ifs <;> simp
  unfold applyEvent
  by_cases hfa : fails .alreadyApplied
  · rw [if_pos hfa]; exact .inl rfl
  rw [if_neg hfa, if_neg hr]
  cases ev with
  | upsert user =>
    by_cases hbad : user.email = "" ∨ fails .addUser ∨ fails .upsertDesired
    · exact .inl (if_pos hbad)
    · simp only [if_neg hbad]
      exact .inr ⟨_, users_put user, rfl, rfl, rfl, hma _ rfl⟩
  | remove email =>
    by_cases hbad : email = "" ∨ fails .removeUser ∨ fails .removeDesired
    · exact .inl (if_pos hbad)
    · simp only [if_neg hbad]
      exact .inr ⟨_, users_drop email, rfl, rfl, rfl, hma _ rfl⟩
  | resnapshot reason => exact .inl rfl
  | artifact kind data =>
    by_cases hbad : fails .applyArtifact
    · exact .inl (if_pos hbad)
    · simp only [if_neg hbad]
      exact .inr ⟨sl, rfl, rfl, rfl, rfl, hma _ rfl⟩

theorem stagedUsers_stageUser :
    (sl.stageUser id user).stagedUsers id = update (sl.stagedUsers id) user.email (some user) := by
  funext email
  by_cases he : email = user.email
  · subst he
    simp [stagedUsers, stageUser]
  · have hne : (id, email) ≠ (id, user.email) := by simp [he]
    simp [stagedUsers, stageUser, update_of_ne he, AList.lookup_insert_ne hne]

theorem lookup_staged {email : String} : (sl.staged id).lookup email = sl.stagedUsers id email := by
  unfold staged stagedUsers
  rw [AList.lookup_to_alist, AList.lookup]
  induction sl.staging.entries with
  | nil => rfl
  | cons row rows ih =>
    obtain ⟨⟨id', email'⟩, user⟩ := row
    by_cases hid : id' = id
    · subst hid
      rw [filter_cons_of_pos (by simp), map_cons]
      by_cases he : email = email'
      · subst he; simp
      · rw [dlookup_cons_ne _ _ he, dlookup_cons_ne _ _ (by simp [he]), ih]
    · rw [filter_cons_of_neg (by simpa using hid), ih, dlookup_cons_ne _ _ (by simp [Ne.symm hid])]

theorem users_activateSnapshot {id r : Int} : (sl.activateSnapshot id r).users = sl.stagedUsers id :=
  funext fun _ => lookup_staged

/-- No staged user has an identifier above `lo`. -/
def Slave.StagedUpTo (sl : Slave) (lo : Int) : Prop := ∀ key ∈ sl.staging, key.1 ≤ lo

variable {id lo : Int}

theorem stagedUsers_of_lt (h : sl.StagedUpTo lo) (hid : lo < id) : sl.stagedUsers id = fun _ => none := by
  funext email
  exact AList.lookup_eq_none.2 fun hmem => absurd (h _ hmem) (not_le.2 hid)

theorem Slave.StagedUpTo.mono {hi : Int} (h : sl.StagedUpTo lo) (hle : lo ≤ hi) : sl.StagedUpTo hi :=
  fun key hkey => (h key hkey).trans hle

theorem Slave.StagedUpTo.stageUser (h : sl.StagedUpTo id) : (sl.stageUser id user).StagedUpTo id := by
  intro key hkey
  rcases (AList.mem_insert _).1 hkey with rfl | hkey
  · exact le_rfl
  · exact h key hkey

theorem Slave.StagedUpTo.activateSnapshot (h : sl.StagedUpTo lo) (id r : Int) :
    (sl.activateSnapshot id r).StagedUpTo lo := fun key hkey =>
  h key (AList.keys_subset_keys_of_entries_subset_entries (filter_subset_self _) hkey)

theorem stageAll_append {D : String → Option VPNUserConfig} {us vs : List VPNUserConfig} :
    stageAll D (us ++ vs) = stageAll (stageAll D us) vs := foldl_append

theorem stageAll_congr {D D' : String → Option VPNUserConfig} (us : List VPNUserConfig) {e : String}
    (h : D e = D' e) : stageAll D us e = stageAll D' us e := by
  induction us generalizing D D' with
  | nil => exact h
  | cons u us ih =>
    refine ih ?_
    by_cases he : e = u.email
    · simp [he]
    · simp [update_of_ne he, h]

theorem stageAll_filter (D : String → Option VPNUserConfig) (us : List VPNUserConfig) (email e : String) :
    stageAll D (us.filter fun u => u.email ≠ email) e = if e = email then D e else stageAll D us e := by
  induction us generalizing D with
  | nil => simp [stageAll]
  | cons u us ih =>
    by_cases hu : u.email = email
    · rw [filter_cons_of_neg (by simpa using hu), ih]
      split_ifs with he
      · rfl
      · exact stageAll_congr us (update_of_ne (fun h => he (h.trans hu)) _ _).symm
    · rw [filter_cons_of_pos (by simpa using hu)]
      refine (ih (update D u.email (some u))).trans ?_
      split_ifs with he
      · exact update_of_ne (fun h => hu (h.symm.trans he)) _ _
      · rfl

theorem stageAll_foldUsers {l : Log JournalEvent} :
    stageAll (fun _ => none) (foldUsers l.entries) = l.view write := by
  unfold foldUsers Log.view
  induction l.entries using reverseRecOn with
  | nil => rfl
  | append_singleton rows row ih =>
    rw [foldl_append, foldl_append, foldl_cons, foldl_nil, foldl_cons, foldl_nil, ← ih]
    obtain ⟨r, ev⟩ := row
    cases ev with
    | upsert user =>
      funext e
      simp only [stageAll_append, write, Log.put]
      by_cases he : e = user.email
      · simp [stageAll, he]
      · refine (update_of_ne he _ _).trans ?_
        rw [stageAll_filter, if_neg he, update_of_ne he]
    | remove email =>
      funext e
      simp only [stageAll_filter, write, Log.put, update_apply]
    | resnapshot reason => rfl
    | artifact kind data => rfl

/-! The frames between a master and its slave. `A` is the revision the slave's copy has reached, `k` the revision up to
which the journal has been pruned. The frames in flight lead the copy from `A` to `E`. A snapshot of an emptied outbox
names revision 0, so what it reaches is `max R k`. -/

/-- A snapshot that names revision `R`, holds the users of moment `t` and reaches past `A`. -/
structure Carries (l : Log JournalEvent) (k A R t : Int) : Prop where
  nonneg : 0 ≤ R
  reaches : A ≤ max R k
  le : max R k ≤ t
  le_top : t ≤ l.top

def snapshotRest (R id : Int) (users : List VPNUserConfig) (artifacts : List (String × String)) : List Frame :=
  users.map (.snapshotUser R) ++ artifacts.map (fun a => .snapshotArtifact R a.1 a.2) ++ [.snapshotEnd R id]

variable {artifacts : List (String × String)}

variable {users : List VPNUserConfig}

theorem snapshotFrames_eq {R id : Int} :
    snapshotFrames R id users artifacts = .snapshotBegin R id :: snapshotRest R id users artifacts := by
  simp [snapshotFrames, snapshotRest]

/-- Whole frames that lead a copy from `A` to `E`; the identifiers of their snapshots grow from `lo` to `hi`. -/
inductive Pending (l : Log JournalEvent) (k : Int) : Int → Int → List Frame → Int → Int → Prop
  | done (A lo : Int) : Pending l k A lo [] A lo
  | event {A lo r E hi : Int} {ev : JournalEvent} {Q : List Frame} (next : l.Next A r ev)
      (rest : Pending l k r lo Q E hi) : Pending l k A lo (.event r ev :: Q) E hi
  | snapshot {A lo R id t E hi : Int} {users : List VPNUserConfig} {artifacts : List (String × String)}
      {Q : List Frame} (carries : Carries l k A R t)
      (users_eq : stageAll (fun _ => none) users = l.viewAt JournalEvent.write t) (lt : lo < id)
      (rest : Pending l k (max R k) id Q E hi) :
      Pending l k A lo (.snapshotBegin R id :: (snapshotRest R id users artifacts ++ Q)) E hi

/-- The frames in flight to a slave, by the snapshot it has open. With one open they start with the rest of
that snapshot. -/
def Stream (l : Log JournalEvent) (k A : Int) (sl : Slave) (frames : List Frame) (E hi : Int) : Option Int → Prop
  | none => ∃ lo, sl.StagedUpTo lo ∧ Pending l k A lo frames E hi
  | some id => sl.StagedUpTo id ∧ ∃ R t users artifacts Q,
      frames = snapshotRest R id users artifacts ++ Q ∧ Carries l k A R t ∧
        stageAll (sl.stagedUsers id) users = l.viewAt JournalEvent.write t ∧ Pending l k (max R k) id Q E hi

section Pending

variable {l : Log JournalEvent} {k A lo E hi : Int} {Q : List Frame} {Q' : List Frame} {E' hi' : Int}

theorem Pending.bounds (h : Pending l k A lo Q E hi) (hA : A ≤ l.top) : A ≤ E ∧ E ≤ l.top ∧ lo ≤ hi := by
  induction h with
  | done A lo => exact ⟨le_rfl, hA, le_rfl⟩
  | event next _ ih =>
    have := ih (Log.le_top next.mem)
    have := next.lt
    omega
  | snapshot carries _ _ _ ih =>
    have := ih (carries.le.trans carries.le_top)
    have := carries.reaches
    omega

theorem Pending.append (h : Pending l k A lo Q E hi) (h' : Pending l k E hi Q' E' hi') :
    Pending l k A lo (Q ++ Q') E' hi' := by
  induction h with
  | done A lo => exact h'
  | event next _ ih => exact .event next (ih h')
  | snapshot carries users_eq lt _ ih =>
    rw [cons_append, append_assoc]
    exact .snapshot carries users_eq lt (ih h')

variable {R r t k' : Int} {x : JournalEvent}

theorem Carries.snoc (h : Carries l k A R t) (hr : l.top < r) : Carries (l.snoc r x hr) k A R t :=
  { h with le_top := by rw [Log.top_snoc]; have := h.le_top; omega }

theorem Pending.snoc (h : Pending l k A lo Q E hi) (hr : l.top < r) : Pending (l.snoc r x hr) k A lo Q E hi := by
  induction h with
  | done A lo => exact .done A lo
  | event next _ ih => exact .event (next.snoc hr) ih
  | snapshot carries users_eq lt _ ih =>
    exact .snapshot (carries.snoc hr) (users_eq.trans (Log.viewAt_snoc _ hr carries.le_top).symm) lt ih

theorem Carries.prune (h : Carries l k A R t) (hk : k ≤ k') (hA : k' ≤ A) :
    Carries l k' A R t ∧ max R k' = max R k := by
  have := h.reaches
  have hmax : max R k' = max R k := by omega
  exact ⟨⟨h.nonneg, by omega, by rw [hmax]; exact h.le, h.le_top⟩, hmax⟩

theorem Pending.prune (h : Pending l k A lo Q E hi) (hk : k ≤ k') (hA : k' ≤ A) : Pending l k' A lo Q E hi := by
  induction h with
  | done A lo => exact .done A lo
  | event next _ ih => exact .event next (ih (hA.trans next.lt.le))
  | snapshot carries users_eq lt _ ih =>
    obtain ⟨hc, hmax⟩ := carries.prune hk hA
    refine .snapshot hc users_eq lt ?_
    rw [hmax]
    exact ih (hA.trans carries.reaches)

end Pending

section Stream

variable {l : Log JournalEvent} {k A E hi : Int} {sl : Slave} {Q : List Frame} {active : Option Int}

section

variable (h : Stream l k A sl Q E hi active)
include h

theorem Stream.bounds (hA : A ≤ l.top) : A ≤ E ∧ E ≤ l.top := by
  cases active with
  | none =>
    obtain ⟨lo, -, hp⟩ := h
    exact ⟨(hp.bounds hA).1, (hp.bounds hA).2.1⟩
  | some id =>
    obtain ⟨-, R, t, users, artifacts, Q', -, hc, -, hp⟩ := h
    have := hp.bounds (hc.le.trans hc.le_top)
    exact ⟨hc.reaches.trans this.1, this.2.1⟩

theorem Stream.append (h' : Pending l k E hi Q' E' hi') : Stream l k A sl (Q ++ Q') E' hi' active := by
  cases active with
  | none =>
    obtain ⟨lo, hst, hp⟩ := h
    exact ⟨lo, hst, hp.append h'⟩
  | some id =>
    obtain ⟨hst, R, t, users, artifacts, Q1, rfl, hc, hu, hp⟩ := h
    exact ⟨hst, R, t, users, artifacts, Q1 ++ Q', by rw [append_assoc], hc, hu, hp.append h'⟩

theorem Stream.snoc {r : Int} {x : JournalEvent} (hr : l.top < r) : Stream (l.snoc r x hr) k A sl Q E hi active := by
  cases active with
  | none =>
    obtain ⟨lo, hst, hp⟩ := h
    exact ⟨lo, hst, hp.snoc hr⟩
  | some id =>
    obtain ⟨hst, R, t, users, artifacts, Q', hQ, hc, hu, hp⟩ := h
    exact ⟨hst, R, t, users, artifacts, Q', hQ, hc.snoc hr, hu.trans (Log.viewAt_snoc _ hr hc.le_top).symm, hp.snoc hr⟩

theorem Stream.prune {k' : Int} (hk : k ≤ k') (hA : k' ≤ A) : Stream l k' A sl Q E hi active := by
  cases active with
  | none =>
    obtain ⟨lo, hst, hp⟩ := h
    exact ⟨lo, hst, hp.prune hk hA⟩
  | some id =>
    obtain ⟨hst, R, t, users, artifacts, Q', hQ, hc, hu, hp⟩ := h
    obtain ⟨hc', hmax⟩ := hc.prune hk hA
    refine ⟨hst, R, t, users, artifacts, Q', hQ, hc', hu, ?_⟩
    rw [hmax]
    exact hp.prune hk (hA.trans hc.reaches)

end

end Stream

/-- What the slave's copy has reached. -/
def Slave.reached (sl : Slave) (k : Int) : Int := max sl.appliedRevision k

/-- The state of a slave between frames, whether or not a session is open; `c` is the time of the last
snapshot. -/
structure Slave.Sound (sl : Slave) (l : Log JournalEvent) (k c : Int) : Prop where
  fresh : l.Fresh JournalEvent.write sl.users (sl.reached k)
  inbox : ∀ r ∈ sl.inbox, r ≤ sl.reached k
  staging : sl.StagedUpTo c

/-- What a slave in state `sl` makes of a frame followed by `rest`: it loses nothing, acknowledges only what
it has reached, and can take the rest if the session goes on. -/
structure FrameDelivered (l : Log JournalEvent) (k c E hi : Int) (rest : List Frame) (sl : Slave) (r : Received) :
    Prop where
  sound : r.slave.Sound l k c
  reached : sl.reached k ≤ r.slave.reached k
  ack : ∀ a ∈ r.ack, 0 ≤ a ∧ a ≤ r.slave.reached k
  stream : r.alive = true → Stream l k (r.slave.reached k) r.slave rest E hi r.activeSnapshot

section Delivery

variable {l : Log JournalEvent} {k c E hi : Int} {sl : Slave} {rest : List Frame} (fails : SlaveOp → Bool)

theorem delivered_refused (h : sl.Sound l k c) (active : Option Int) :
    FrameDelivered l k c E hi rest sl ⟨sl, active, none, false⟩ :=
  ⟨h, le_rfl, by simp, by simp⟩

variable {r R id t : Int} {active : Option Int}

/-- The session goes on from a delivered frame, or dies on sending the acknowledgement. -/
theorem delivered_acknowledge {sl' : Slave} (h : sl'.Sound l k c) (hr : sl.reached k ≤ sl'.reached k) (hpos : 0 ≤ r)
    (hle : r ≤ sl'.reached k) (hstr : Stream l k (sl'.reached k) sl' rest E hi active) :
    FrameDelivered l k c E hi rest sl (acknowledge sl' fails active r) := by
  unfold acknowledge
  split_ifs
  · exact ⟨h, hr, by simp, by simp⟩
  · exact ⟨h, hr, by simp [hpos, hle], fun _ => hstr⟩

section

variable (h : sl.Sound l k c)
include h

/-- An event: the copy takes the write even when recording it fails, and is then redelivered the event. -/
theorem delivered_event {lo : Int} {ev : JournalEvent} (hne : l.Next (sl.reached k) r ev) (hst : sl.StagedUpTo lo)
    (hp : Pending l k r lo rest E hi) : FrameDelivered l k c E hi rest sl (sl.receive fails none (.event r ev)) := by
  have hnew : r ∉ sl.inbox := fun hr => absurd (h.inbox r hr) (not_le.2 hne.lt)
  have hfr := h.fresh.deliver hne
  rcases applyEvent_cases sl fails ev hnew with heq | ⟨sl', hu, hsta, hin, happ, heq | heq⟩
  · simp only [Slave.receive, heq]
    exact delivered_refused h none
  · have hre : sl'.reached k = sl.reached k := by simp [Slave.reached, happ]
    simp only [Slave.receive, heq, Bool.false_eq_true, if_false]
    refine ⟨⟨?_, ?_, fun key hkey => h.staging key (hsta ▸ hkey)⟩, hre.ge, by simp, by simp⟩
    · rw [hu, hre]
      exact hfr.mono hne.lt.le
    · rw [hin, hre]
      exact h.inbox
  · set sl1 : Slave := { sl' with inbox := sl'.inbox ++ [r], appliedRevision := r } with hsl1
    have hk : k ≤ sl.reached k := le_max_right _ _
    have hre : sl1.reached k = r := max_eq_left (hk.trans hne.lt.le)
    have hu1 : sl1.users = Log.put sl.users ev.write := hu
    have hsta1 : sl1.staging = sl.staging := hsta
    have hso : sl1.Sound l k c := by
      refine ⟨?_, fun r' hr' => ?_, fun key hkey => h.staging key (hsta1 ▸ hkey)⟩
      · rw [hre, hu1]
        exact hfr
      rw [hre]
      rcases mem_append.1 hr' with hr' | hr'
      · exact (h.inbox r' (hin ▸ hr')).trans hne.lt.le
      · exact (mem_singleton.1 hr').le
    simp only [Slave.receive, heq, if_true]
    refine delivered_acknowledge fails hso ?_ (l.pos _ hne.mem).le hre.ge
      ⟨lo, fun key hkey => hst key (hsta1 ▸ hkey), ?_⟩
    · rw [hre]
      exact hne.lt.le
    · rw [hre]
      exact hp

/-- The end of a snapshot: the staged users replace the copy, also when telling the engine fails. -/
theorem delivered_end (hst : sl.StagedUpTo id) (hc : Carries l k (sl.reached k) R t)
    (hu : sl.stagedUsers id = l.viewAt JournalEvent.write t) (hp : Pending l k (max R k) id rest E hi) :
    FrameDelivered l k c E hi rest sl (sl.receive fails (some id) (.snapshotEnd R id)) := by
  have hre : (sl.activateSnapshot id R).reached k = max R k := rfl
  have hso : (sl.activateSnapshot id R).Sound l k c := by
    refine ⟨?_, fun r hr => ?_, h.staging.activateSnapshot id R⟩
    · rw [users_activateSnapshot, hu, hre]
      exact (Log.fresh_viewAt hc.le_top).mono hc.le
    · exact (h.inbox r hr).trans hc.reaches
  unfold Slave.receive
  simp only [ne_eq, not_true_eq_false, false_or]
  split_ifs
  · exact delivered_refused h _
  · exact ⟨hso, hc.reaches, by simp, by simp⟩
  · exact delivered_acknowledge fails hso hc.reaches hc.nonneg (le_max_left _ _)
      ⟨id, hst.activateSnapshot id R, hp⟩

theorem delivered_user {u : VPNUserConfig}
    {Q : List Frame} (hst : sl.StagedUpTo id) (hid : id ≤ c) (hc : Carries l k (sl.reached k) R t)
    (hu : stageAll (sl.stagedUsers id) (u :: users) = l.viewAt JournalEvent.write t)
    (hp : Pending l k (max R k) id Q E hi) :
    FrameDelivered l k c E hi (snapshotRest R id users artifacts ++ Q) sl
      (sl.receive fails (some id) (.snapshotUser R u)) := by
  unfold Slave.receive
  dsimp only
  split_ifs
  · exact delivered_refused h _
  refine ⟨⟨h.fresh, h.inbox, hst.stageUser.mono hid⟩, le_rfl, by simp,
    fun _ => ⟨hst.stageUser, R, t, users, artifacts, Q, rfl, hc, ?_, hp⟩⟩
  rw [stagedUsers_stageUser]
  exact hu

theorem Stream.deliver {frame : Frame} (hhi : hi ≤ c) (hs : Stream l k (sl.reached k) sl (frame :: rest) E hi active) :
    FrameDelivered l k c E hi rest sl (sl.receive fails active frame) := by
  cases active with
  | none =>
    obtain ⟨lo, hst, hp⟩ := hs
    cases hp with
    | event hne hre => exact delivered_event fails h hne hst hre
    | snapshot hc hu hlt hre =>
      refine ⟨h, le_rfl, by simp [Slave.receive], fun _ => ?_⟩
      refine ⟨hst.mono hlt.le, _, _, _, _, _, rfl, hc, ?_, hre⟩
      show stageAll (sl.stagedUsers _) _ = _
      rw [stagedUsers_of_lt hst hlt]
      exact hu
  | some id =>
    obtain ⟨hst, R, t, users, artifacts, Q, hQ, hc, hu, hp⟩ := hs
    have hid : id ≤ c := (hp.bounds (hc.le.trans hc.le_top)).2.2.trans hhi
    cases users with
    | cons u users =>
      obtain ⟨rfl, rfl⟩ : frame = .snapshotUser R u ∧ rest = snapshotRest R id users artifacts ++ Q := by
        simpa [snapshotRest] using hQ
      exact delivered_user fails h hst hid hc hu hp
    | nil => cases artifacts with
      | cons a artifacts =>
        obtain ⟨rfl, rfl⟩ : frame = .snapshotArtifact R a.1 a.2 ∧ rest = snapshotRest R id [] artifacts ++ Q := by
          simpa [snapshotRest] using hQ
        unfold Slave.receive
        simp only [reduceCtorEq, false_or]
        split_ifs
        · exact delivered_refused h _
        · exact ⟨h, le_rfl, by simp, fun _ => ⟨hst, R, t, [], artifacts, Q, rfl, hc, hu, hp⟩⟩
      | nil =>
        obtain ⟨rfl, rfl⟩ : frame = .snapshotEnd R id ∧ rest = Q := by simpa [snapshotRest] using hQ
        exact delivered_end fails h hst hc hu hp

end

end Delivery
end Xraytool
