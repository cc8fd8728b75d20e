import Mathlib.Algebra.Ring.Int.Defs
import Xraytool.Sanity.Sessions
import Xraytool.Sanity.Time

/-! A completed payment under concurrent calls. The updates exclude a completed row in their own statement, but
`UpdateExternalID` writes back the status it has read with the rest of the row. -/

namespace Xraytool.Sessions

open ReadCommitted Transition List Function Note

variable {ι : Type} [DecidableEq ι] {s s' : System ι} {e : Statement ι} {i : ι} {b₀ : String}

def replayStatus (status : String) : Note → String
  | .statusSet status => status
  | _ => status

def statusColumn : Column ι Payment String where
  row := Rows.payment
  value := Payment.status
  replay := replayStatus
  row_commit := fun _ _ => rfl
  row_rollback := fun _ _ => rfl

def Note.isStatusSet : Note → Bool
  | .statusSet _ => true
  | _ => false

def Note.isCompletion : Note → Bool
  | .completed _ => true
  | _ => false

/-- The calls that change the status ask for `completed`. -/
def AskCompleted (calls : ι → Call) : Prop := ∀ i status, (calls i).asksFor = some status → status = "completed"

/-- A row that is saved as a whole still has the status that was read; a status update of a completed row does not
expect `completed`, and it can read the row it has completed. -/
def KeepsCompleted (s : System ι) (e : Statement ι) : Prop :=
  match (s.sessions e.tx).point with
  | .savePayment payment => (s.rows.payment.read e.tx).status = payment.status
  | .updateStatus _ expected => (s.rows.payment.read e.tx).status = "completed" → "completed" ∉ expected
  | .findUpdated => e.fails = false
  | _ => True

variable {notes : List Note} {f : Payment → Payment} {point : Point} {rows : Rows ι} {acct : Account}
  {plans : Table Plan Plan.Clash} {status : String} {r : Renewal} {call : Call}

theorem isStatusSet_of_only {kinds : List NoteKind} (h : Only kinds notes) (hki : .status ∉ kinds) :
    ∀ note ∈ notes, note.isStatusSet = false := by
  intro note hno
  have hkin := h note hno
  cases note <;> first | rfl | exact absurd hkin hki

theorem silent_status (h : ∀ note ∈ notes, note.isStatusSet = false) :
    (statusColumn : Column ι Payment String).Silent notes := by
  refine Column.silent_of_forall fun note hno b => ?_
  have hnot := h note hno
  cases note <;> first | rfl | contradiction

theorem status_paymentWrite (h : paymentWrite (s.sessions e.tx).point = some (f, notes)) (hke : KeepsCompleted s e) :
    (f (s.rows.payment.read e.tx)).status = notes.foldl replayStatus (s.rows.payment.read e.tx).status := by
  unfold KeepsCompleted at hke
  rcases hpo : (s.sessions e.tx).point <;> rw [hpo] at h hke <;>
    simp only [paymentWrite, reduceCtorEq] at h
  · cases h
    exact hke.symm
  · cases h
    rfl
  · next payment status =>
    cases h
    split_ifs
    · have hsil : (statusColumn : Column ι Payment String).Silent (complete payment).2 :=
        silent_status (isStatusSet_of_only completions_complete.only (by decide))
      exact (hsil status).symm
    · rfl

theorem status_step (h : statusColumn.Follows b₀ s) (hke : KeepsCompleted s e) (hs : step s e = some s') :
    statusColumn.Follows b₀ s' := by
  refine Column.follows_step h hs (fun rows point notes _ hexe => ?_) fun r =>
    Column.savepoint_other h r rfl (fun b note hnot => ?_) fun _ _ => rfl
  · cases touches_of_execute hexe with
    | nothing hno => exact Column.skip h rfl (silent_status (isStatusSet_of_only hno.only (by decide)))
    | user hw _ => exact Column.skip h rfl (silent_status (isStatusSet_of_only (only_userWrite hw) (by decide)))
    | subscription hw _ =>
      exact Column.skip h rfl (silent_status (isStatusSet_of_only (only_subscriptionWrite hw) (by decide)))
    | payment hw hrow => exact Serial.write h hrow (status_paymentWrite hw hke)
    | rewards => exact Column.skip h rfl fun _ => rfl
  · cases note <;> first | rfl | contradiction

theorem replayStatus_of_forall {journal : List Note} (hall : ∀ status, .statusSet status ∈ journal → status = "completed") :
    (∃ note ∈ journal, note.isStatusSet = true) → journal.foldl replayStatus b₀ = "completed" := by
  induction journal using reverseRecOn with
  | nil => simp
  | append_singleton journal note ih =>
    intro hset
    rw [foldl_append, foldl_cons, foldl_nil]
    cases note with
    | statusSet status => exact hall status (by simp)
    | _ =>
      refine ih (fun status hsta => hall status (by simp [hsta])) ?_
      simpa [isStatusSet] using hset

/-- A transaction that has not touched the status, or has set it and executed the completion once. -/
inductive CompletesOnce : List Note → Prop
  | without {notes : List Note} : notes.filter Note.isStatusSet = [] → notes.filter Note.isCompletion = [] →
      CompletesOnce notes
  | completing {notes : List Note} : notes.filter Note.isStatusSet = [.statusSet "completed"] →
      (notes.filter Note.isCompletion).length = 1 → CompletesOnce notes

theorem filter_charged : r.charged.filter isStatusSet = [] ∧ r.charged.filter isCompletion = [] := by
  unfold Renewal.charged
  split_ifs <;> exact ⟨rfl, rfl⟩

theorem filter_note {terms : Terms} :
    [terms.note].filter isStatusSet = [] ∧ [terms.note].filter isCompletion = [] := by
  unfold Terms.note
  split <;> exact ⟨rfl, rfl⟩

theorem completesOnce_renewal (hpay : r.payment = none)
    (h : RenewalAt plans r [] .commit notes) : CompletesOnce notes := by
  cases h with
  | renewed =>
    have hcom : r.completion true = [] := by rw [Renewal.completion, hpay]
    refine .without ?_ ?_ <;> simp only [filter_append, filter_charged, filter_note, hcom] <;> rfl

theorem completesOnce_completion {payment : Payment}
    (h : CompletionAt plans payment [.statusSet "completed"] .commit notes) : CompletesOnce notes := by
  cases h with
  | renewal hpla hren =>
    cases hren with
    | renewed => refine .completing ?_ ?_ <;> simp only [filter_append, filter_charged, filter_note] <;> rfl
  | renewalFailed | credited | unneeded => exact .completing rfl rfl

theorem completesOnce_of_callAt
    (h : CallAt False plans call .commit notes)
    (hask : ∀ status, call.asksFor = some status → status = "completed") : CompletesOnce notes := by
  cases h with
  | renewal hren => exact completesOnce_renewal rfl hren
  | statusOnly hc hunr => exact (hunr (hask _ hc)).elim
  | completion _ hcom => exact completesOnce_completion hcom
  | saved | unchanged | adjusted | hasReward | rewarded | edited => exact .without rfl rfl

theorem CompletesOnce.statusSet (h : CompletesOnce notes) (hsta : .statusSet status ∈ notes) :
    status = "completed" := by
  have hmem : Note.statusSet status ∈ notes.filter Note.isStatusSet := mem_filter.2 ⟨hsta, rfl⟩
  cases h with
  | without hn => simp [hn] at hmem
  | completing hone => simpa [hone] using hmem

omit [DecidableEq ι] in
theorem length_completions {commits : List (ι × List Note)} (h : ∀ c ∈ commits, CompletesOnce c.2) :
    ((commits.flatMap Prod.snd).filter isCompletion).length =
      ((commits.flatMap Prod.snd).filter isStatusSet).length := by
  induction commits with
  | nil => rfl
  | cons c commits ih =>
    rw [flatMap_cons, filter_append, filter_append, length_append, length_append,
      ih fun c hc => h c (mem_cons_of_mem _ hc)]
    cases h c mem_cons_self with
    | without hset hcom => rw [hset, hcom]
    | completing hset hcom => rw [hset, hcom, length_singleton]

/-- A transaction that has set the status holds the row, and nobody has committed a completion. -/
def Pending (s : System ι) : Prop :=
  ∀ i, (∃ note ∈ s.notesOf i, note.isStatusSet = true) →
    s.rows.payment.HeldBy i ∧ s.rows.payment.committed.status ≠ "completed"

theorem pending_proceed (h : Pending s) (hrow : rows.payment = s.rows.payment)
    (hno : ∀ note ∈ notes, note.isStatusSet = true → note ∈ s.notesOf i) :
    Pending (s.proceed i rows point notes) := by
  intro j hj
  rw [notesOf_proceed] at hj
  dsimp only [System.proceed]
  rw [hrow]
  refine h j ?_
  by_cases hji : j = i
  · subst hji
    rw [update_self] at hj
    obtain ⟨note, hnot, hset⟩ := hj
    exact ⟨note, hno note hnot hset, hset⟩
  · rwa [update_of_ne hji] at hj

theorem pending_write (h : Pending s) (hrow : s.rows.payment.write i f = some rows.payment)
    (hno : (∃ note ∈ notes, note.isStatusSet = true) → s.rows.payment.committed.status ≠ "completed") :
    Pending (s.proceed i rows point notes) := by
  obtain ⟨hfr, hrow⟩ := Row.write_eq_some.1 hrow
  intro j hj
  rw [notesOf_proceed] at hj
  dsimp only [System.proceed]
  rw [hrow]
  by_cases hji : j = i
  · subst hji
    rw [update_self] at hj
    exact ⟨⟨_, rfl⟩, hno hj⟩
  · rw [update_of_ne hji] at hj
    exact absurd (hfr j (h j hj).1) hji

theorem pending_end (h : Pending s) (hrow : ¬ s.rows.payment.HeldBy i → s'.rows.payment = s.rows.payment)
    (hno : s'.notesOf = update s.notesOf i []) : Pending s' := by
  intro j hj
  rw [hno] at hj
  have hji : j ≠ i := by
    rintro rfl
    simp at hj
  rw [update_of_ne hji] at hj
  have hold := h j hj
  rwa [hrow fun hi => hji (hold.1.unique hi)]

variable {plans : Table Plan Plan.Clash} {calls : ι → Call} {unread : Prop}

/-- A status update is the first statement of its transaction that writes. -/
theorem notes_updateStatus (h : CallAt unread plans call point notes)
    {new : List Note} (hw : paymentWrite point = some (f, new)) (hset : .statusSet status ∈ new) :
    notes = [] ∧ call.asksFor = some status := by
  have hren {r : Renewal} {base : List Note} (h : RenewalAt plans r base point notes) : paymentWrite point = none := by
    cases h <;> rfl
  cases h with
  | renewal h => rw [hren h] at hw; contradiction
  | completion _ h =>
    cases h with
    | renewal _ h => rw [hren h] at hw; contradiction
    | _ => contradiction
  | savePayment => cases hw; contradiction
  | updateStatus =>
    cases hw
    cases mem_singleton.1 hset
    exact ⟨rfl, rfl⟩
  | updateStatusIfNotCompleted =>
    cases hw
    refine ⟨rfl, ?_⟩
    rcases mem_cons.1 hset with heq | hset
    · cases heq
      rfl
    split_ifs at hset
    · have := isStatusSet_of_only completions_complete.only (by decide) _ hset
      contradiction
    · contradiction
  | _ => contradiction

theorem not_completed_of_execute
    (hexe : execute e.tx e.now s.rows (s.sessions e.tx).point = some (.next rows point notes))
    (hke : KeepsCompleted s e) (hw : paymentWrite (s.sessions e.tx).point = some (f, notes))
    (hset : .statusSet "completed" ∈ notes) : (s.rows.payment.read e.tx).status ≠ "completed" := by
  unfold KeepsCompleted at hke
  rcases hpo : (s.sessions e.tx).point <;> rw [hpo] at hexe hw hke <;>
    simp only [paymentWrite, reduceCtorEq] at hw
  · cases hw
    contradiction
  · next status expected =>
    dsimp only [execute] at hexe
    split at hexe
    · next hma =>
      cases hw
      cases mem_singleton.1 hset
      intro hcom
      have hexp := hke hcom
      simp only [Store.updateStatusWhere, hcom, Bool.and_eq_true] at hma
      by_cases hnil : expected = []
      · simp [hnil] at hma
      · simp [length_pos_iff.2 hnil, hexp] at hma
    · cases hexe
      contradiction
  · dsimp only [execute] at hexe
    split at hexe
    · next hma =>
      intro hcom
      simp [Store.ifNotCompletedWhere, hcom] at hma
    · cases hexe
      contradiction

theorem pending_step (h : Pending s) (hfol : statusColumn.Follows b₀ s) (hnot : Noted unread plans calls s)
    (hask : AskCompleted calls) (hke : KeepsCompleted s e) (hs : step s e = some s') : Pending s' := by
  cases moves_of_step hs with
  | commit => exact pending_end h Row.commit_of_not_held notesOf_commit
  | abort => exact pending_end h Row.rollback_of_not_held notesOf_proceed
  | @statement rows point notes hfa hexe =>
    have ho (hnew : ∀ note ∈ notes, note.isStatusSet = false) :
        ∀ note ∈ s.notesOf e.tx ++ notes, note.isStatusSet = true → note ∈ s.notesOf e.tx := by
      intro note hno hset
      rcases mem_append.1 hno with hno | hno
      · exact hno
      · rw [hnew note hno] at hset
        contradiction
    cases touches_of_execute hexe with
    | nothing hnotes => exact pending_proceed h rfl (ho (isStatusSet_of_only hnotes.only (by decide)))
    | user hw _ => exact pending_proceed h rfl (ho (isStatusSet_of_only (only_userWrite hw) (by decide)))
    | subscription hw _ =>
      exact pending_proceed h rfl (ho (isStatusSet_of_only (only_subscriptionWrite hw) (by decide)))
    | rewards => exact pending_proceed h rfl (ho (by simp))
    | payment hw hrow =>
      refine pending_write h hrow fun ⟨note, hno, hset⟩ => ?_
      rcases mem_append.1 hno with hno | hno
      · exact (h e.tx ⟨note, hno, hset⟩).2
      -- the status is set now; the row has been read as it is committed
      cases note with
      | statusSet status =>
        obtain ⟨hnil, hc⟩ := notes_updateStatus (hnot.sessions e.tx) hw hno
        obtain rfl := hask e.tx status hc
        have hr : (s.rows.payment.read e.tx).status = s.rows.payment.committed.status := by
          refine (Serial.read hfol e.tx).trans ?_
          rw [hnil]
          rfl
        rw [← hr]
        exact not_completed_of_execute hexe hke hw hno
      | _ => contradiction
  | savepoint hpo hpay =>
    refine pending_proceed h rfl fun note hno hset => ?_
    rcases mem_append.1 hno with hno | hno
    · exact mem_of_mem_filter hno
    · rw [isStatusSet_of_only completions_completion.only (by decide) note hno] at hset
      contradiction
  | unread | unlimited => exact pending_proceed h rfl fun note hno _ => hno

structure CompletedInv (account : Account) (calls : ι → Call) (s : System ι) : Prop where
  follows : statusColumn.Follows account.payment.status s
  noted : Noted False account.plans calls s
  pending : Pending s
  once : (s.journal.filter Note.isStatusSet).length ≤ 1

omit [DecidableEq ι] in
theorem completesOnce_journal (h : Noted False acct.plans calls s) (hask : AskCompleted calls) :
    ∀ c ∈ s.commits, CompletesOnce c.2 :=
  fun c hc => completesOnce_of_callAt (h.commits c hc) (hask c.1)

theorem completed_of_journal (hfol : statusColumn.Follows acct.payment.status s)
    (hno : Noted False acct.plans calls s) (hask : AskCompleted calls)
    (hset : ∃ note ∈ s.journal, note.isStatusSet = true) : s.rows.payment.committed.status = "completed" := by
  have hcom := hfol.committed
  refine hcom.trans (replayStatus_of_forall (fun status hsta => ?_) hset)
  obtain ⟨c, hc, hnot⟩ := mem_flatMap.1 hsta
  exact (completesOnce_journal hno hask c hc).statusSet hnot

theorem completedInv_step (h : CompletedInv acct calls s) (hask : AskCompleted calls)
    (hke : KeepsCompleted s e) (hs : step s e = some s') : CompletedInv acct calls s' := by
  have hr : (s.sessions e.tx).point = .findUpdated → e.fails = true → False := by
    intro hpo hfa
    rw [KeepsCompleted, hpo] at hke
    rw [hfa] at hke
    contradiction
  refine ⟨status_step h.follows hke hs, noted_step h.noted hs hr,
    pending_step h.pending h.follows h.noted hask hke hs, ?_⟩
  cases moves_of_step hs with
  | commit hpo =>
    have hc := h.noted.sessions e.tx
    rw [hpo] at hc
    rw [journal_commit, filter_append, length_append]
    cases completesOnce_of_callAt hc (hask e.tx) with
    | without hset =>
      rw [hset]
      exact h.once
    | completing hset =>
      -- the transaction holds the row, so no completion has been committed
      have hmem : ∃ note ∈ s.notesOf e.tx, note.isStatusSet = true := by
        have hfil : statusSet "completed" ∈ (s.notesOf e.tx).filter isStatusSet := by rw [hset]; simp
        exact ⟨_, mem_filter.1 hfil⟩
      have hn : s.journal.filter isStatusSet = [] := by
        refine filter_eq_nil_iff.2 fun note hno hnot => ?_
        exact (h.pending e.tx hmem).2 (completed_of_journal h.follows h.noted hask ⟨note, hno, hnot⟩)
      rw [hset, hn]
      exact le_refl 1
  | _ => exact h.once

/-- In every run of status updates that ask for `completed`, with any other calls between them, that keeps to the
condition: once one of them is committed, the stored status is `completed` and the completion has been executed once. -/
theorem completed_stays (account : Account) (calls : ι → Call) (hasks : AskCompleted calls) (tr : List (Statement ι))
    (s : System ι) (h : Run (Guarded KeepsCompleted (stepsTo step)) (initial account calls) tr s)
    (i : ι) (notes : List Note) (hcommitted : (i, notes) ∈ s.commits) (hset : .statusSet "completed" ∈ notes) :
    s.rows.payment.committed.status = "completed" ∧ (s.journal.filter Note.isCompletion).length = 1 := by
  have hin : CompletedInv account calls (initial account calls) :=
    ⟨Serial.start account.payment, noted_initial, fun i hi => by simp [notesOf_initial] at hi, Nat.zero_le 1⟩
  have hinv := h.invariant_of_guard (CompletedInv account calls) hin
    fun _ _ _ hinv hke hs => completedInv_step hinv hasks hke hs
  have hjou : statusSet "completed" ∈ s.journal := mem_flatMap.2 ⟨_, hcommitted, hset⟩
  refine ⟨completed_of_journal hinv.follows hinv.noted hasks ⟨_, hjou, rfl⟩, ?_⟩
  have hpos : 0 < (s.journal.filter isStatusSet).length := length_pos_of_mem (mem_filter.2 ⟨hjou, rfl⟩)
  have hlen := length_completions (completesOnce_journal hinv.noted hasks)
  have hon := hinv.once
  unfold System.journal at *
  omega

instance (s : System ι) (e : Statement ι) : Decidable (KeepsCompleted s e) := by
  unfold KeepsCompleted
  generalize (s.sessions e.tx).point = point
  induction point using Point.casesOn <;> infer_instance

/-- The next statements of these transactions, none of which fails. -/
def inTurn (txs : List ι) : List (Statement ι) := txs.map (⟨·, 0, false⟩)

def idAndCompletions : Fin 3 → Call
  | 0 => .updateExternalID "x2"
  | 1 => .updatePaymentStatus "completed" []
  | 2 => .processExternalPaymentStatus "x1" "CONFIRMED"

theorem askCompleted_idAndCompletions : AskCompleted idAndCompletions := by
  intro i status h
  match i, h with
  | 1, h => exact (Option.some.inj h).symm
  | 2, h => exact (Option.some.inj h).symm

/-- The callback reads the payment before it is completed; its own update finds it completed. -/
theorem completed_stays_two_updates : ∃ s,
    Run (Guarded KeepsCompleted (stepsTo step)) (initial hundred idAndCompletions)
      (inTurn [2, 1, 1, 1, 1, 0, 2, 2, 0, 0]) s ∧
    s.rows.payment.committed.status = "completed" ∧ (s.journal.filter Note.isCompletion).length = 1 := by
  exact Run.exists_of_guardedExec_imp (P := fun s => ∃ c ∈ s.commits, .statusSet "completed" ∈ c.2)
    (by decide +kernel) fun s hrun ⟨c, hmem, hset⟩ =>
      completed_stays hundred idAndCompletions askCompleted_idAndCompletions _ s hrun c.1 c.2 hmem hset

/-- The new external id is written with the status read before the completion, which can then be repeated. -/
theorem saved_row_undoes_completion :
    (∃ s, Run (stepsTo step) (initial hundred idAndCompletions)
      (inTurn [0, 2, 1, 1, 1, 1, 0, 0]) s ∧ s.commits.map Prod.fst = [1, 0] ∧
      s.rows.payment.committed.status = "pending") ∧
    ∃ s, Run (stepsTo step) (initial hundred idAndCompletions)
      (inTurn [0, 2, 1, 1, 1, 1, 0, 0, 2, 2, 2]) s ∧ s.commits.map Prod.fst = [1, 0, 2] ∧
      (s.journal.filter Note.isCompletion).length = 2 ∧ s.rows.user.committed.balance = 300 :=
  ⟨Run.exists_of_exec (by decide +kernel), Run.exists_of_exec (by decide +kernel)⟩

/-! The balance of a user under concurrent calls. The statements that move money are relative, so they are serial in the
order of their commits; the profile requests write back the balance they have read with the rest of the row. -/

variable {b₀ : Int}

def replayBalance (balance : Int) : Note → Int
  | .credited amount => balance + amount
  | .debited price => balance - price
  | _ => balance

def balanceColumn : Column ι User Int where
  row := Rows.user
  value := User.balance
  replay := replayBalance
  row_commit := fun _ _ => rfl
  row_rollback := fun _ _ => rfl

def credits (journal : List Note) : List Int :=
  journal.filterMap fun
    | .credited amount => some amount
    | _ => none

def debits (journal : List Note) : List Int :=
  journal.filterMap fun
    | .debited price => some price
    | _ => none

theorem replayBalance_journal {journal : List Note} {balance : Int} :
    journal.foldl replayBalance balance = balance + (credits journal).sum - (debits journal).sum := by
  induction journal generalizing balance with
  | nil => simp [credits, debits]
  | cons note journal ih =>
    rw [List.foldl_cons, ih]
    cases note <;> simp [replayBalance, credits, debits] <;> omega

/-- `AdjustBalance` does not hit its zero clamp. -/
def Unclamped (s : System ι) (e : Statement ι) : Prop :=
  match (s.sessions e.tx).point with
  | .adjustBalance amount => 0 ≤ (s.rows.user.read e.tx).balance + amount
  | .creditPayment payment => 0 ≤ (s.rows.user.read e.tx).balance + payment.amount
  | _ => True

/-- A row that is saved as a whole still has the balance that was read. -/
def SavesBalance (s : System ι) (e : Statement ι) : Prop :=
  match (s.sessions e.tx).point with
  | .saveUser user => (s.rows.user.read e.tx).balance = user.balance
  | _ => True

theorem silent_balance {kinds : List NoteKind} (h : Only kinds notes) (hki : .balance ∉ kinds) :
    (balanceColumn : Column ι User Int).Silent notes := by
  refine Column.silent_of_forall fun note hno b => ?_
  have hkin := h note hno
  cases note <;> first | rfl | exact absurd hkin hki

theorem balance_userWrite {f : User → User} (h : userWrite (s.sessions e.tx).point = some (f, notes))
    (hcl : Unclamped s e) (hsa : SavesBalance s e) :
    (f (s.rows.user.read e.tx)).balance = notes.foldl replayBalance (s.rows.user.read e.tx).balance := by
  unfold Unclamped at hcl
  unfold SavesBalance at hsa
  rcases hpo : (s.sessions e.tx).point <;> rw [hpo] at h hcl hsa <;>
    simp only [userWrite, reduceCtorEq] at h <;> cases h
  · rfl
  · exact if_neg (by simpa using hcl)
  · exact if_neg (by simpa using hcl)
  · rfl
  · exact hsa.symm

theorem balance_step (h : balanceColumn.Follows b₀ s) (hcl : Unclamped s e) (hsa : SavesBalance s e)
    (hs : step s e = some s') : balanceColumn.Follows b₀ s' := by
  refine Column.follows_step h hs (fun rows point notes _ hexe => ?_) fun r =>
    Column.savepoint_other h r rfl (fun b note hnot => ?_) fun _ _ => rfl
  · cases touches_of_execute hexe with
    | nothing hno => exact Column.skip h rfl (silent_balance hno.only (by decide))
    | user hw hrow => exact Serial.write h hrow (balance_userWrite hw hcl hsa)
    | subscription hw _ => exact Column.skip h rfl (silent_balance (only_subscriptionWrite hw) (by decide))
    | payment hw _ => exact Column.skip h rfl (silent_balance (only_paymentWrite hw) (by decide))
    | rewards => exact Column.skip h rfl fun _ => rfl
  · cases note <;> first | rfl | contradiction

/-- What a committed call has credited and debited. A referral reward that exists is not credited again, and a status
update credits at most one payment. -/
def Call.Moved (call : Call) (notes : List Note) : Prop :=
  match call with
  | .autoRenewSubscription _ price _ _ => credits notes = [] ∧ debits notes = if 0 < price then [price] else []
  | .adjustBalance amount => credits notes = [amount] ∧ debits notes = []
  | .addReferralReward _ reward => (credits notes = [reward] ∨ credits notes = []) ∧ debits notes = []
  | .updatePaymentStatus _ _ | .processExternalPaymentStatus _ _ => (credits notes).length ≤ 1 ∧ debits notes = []
  | .updateExternalID _ | .editProfile _ => credits notes = [] ∧ debits notes = []

theorem credits_note {terms : Terms} : credits [terms.note] = [] ∧ debits [terms.note] = [] := by
  unfold Terms.note
  split <;> exact ⟨rfl, rfl⟩

variable {r : Renewal} {notes' : List Note} {call : Call}

theorem credits_completion {succeeded : Bool} :
    credits (r.completion succeeded) = [] ∧ debits (r.completion succeeded) = [] := by
  unfold Renewal.completion
  split <;> exact ⟨rfl, rfl⟩

theorem credits_append : credits (notes ++ notes') = credits notes ++ credits notes' := List.filterMap_append

theorem debits_append : debits (notes ++ notes') = debits notes ++ debits notes' := List.filterMap_append

theorem moved_renewal {base : List Note} (h : RenewalAt plans r base .commit notes) :
    credits notes = credits base ∧ debits notes = debits base ++
      if 0 < r.planTotalPrice then [r.planTotalPrice] else [] := by
  cases h with
  | @renewed terms =>
    simp only [credits_append, debits_append, credits_note, credits_completion, Renewal.charged]
    split_ifs <;> simp [credits, debits]

theorem moved_completion {payment : Payment} (h : CompletionAt plans payment [.statusSet "completed"] .commit notes) :
    (credits notes).length ≤ 1 ∧ debits notes = [] := by
  cases h with
  | renewal hpla hren =>
    obtain ⟨hcre, hdeb⟩ := moved_renewal hren
    rw [hcre, hdeb]
    exact ⟨by decide, rfl⟩
  | renewalFailed =>
    rw [credits_append, debits_append, credits_completion.1, credits_completion.2]
    exact ⟨by decide, rfl⟩
  | credited => exact ⟨le_refl 1, rfl⟩
  | unneeded => exact ⟨Nat.zero_le 1, rfl⟩

theorem moved_of_asksFor {status : String} (hask : call.asksFor = some status)
    (h : (credits notes).length ≤ 1 ∧ debits notes = []) : call.Moved notes := by
  cases call with
  | updatePaymentStatus | processExternalPaymentStatus => exact h
  | _ => contradiction

theorem moved_of_callAt {unread : Prop} (h : CallAt unread plans call .commit notes) : call.Moved notes := by
  cases h with
  | renewal hren => exact moved_renewal hren
  | saved | edited | adjusted => exact ⟨rfl, rfl⟩
  | unchanged hask | statusOnly hask => exact moved_of_asksFor hask ⟨Nat.zero_le 1, rfl⟩
  | completion hask hcom => exact moved_of_asksFor hask (moved_completion hcom)
  | hasReward => exact ⟨.inr rfl, rfl⟩
  | rewarded => exact ⟨.inl rfl, rfl⟩

/-- In every run whose adjustments are not clamped and whose whole-row saves still find the balance they have read, the
committed balance is the initial one with all committed credits and debits, and these are those of the committed calls. -/
theorem balance_conserved (account : Account) (calls : ι → Call) (tr : List (Statement ι)) (s : System ι)
    (h : Run (Guarded (fun s e => Unclamped s e ∧ SavesBalance s e) (stepsTo step)) (initial account calls) tr s) :
    s.rows.user.committed.balance = account.user.balance + (credits s.journal).sum - (debits s.journal).sum ∧
      ∀ c ∈ s.commits, (calls c.1).Moved c.2 := by
  have hin : balanceColumn.Follows account.user.balance (initial account calls) := Serial.start account.user
  have hser := h.invariant_of_guard (balanceColumn.Follows account.user.balance) hin
    fun _ _ _ hfol hg hs => balance_step hfol hg.1 hg.2 hs
  have hno := h.invariant_of_guard (Noted True account.plans calls) noted_initial
    fun _ _ _ hno _ hs => noted_step hno hs fun _ _ => trivial
  refine ⟨?_, fun c hc => moved_of_callAt (hno.commits c hc)⟩
  rw [← replayBalance_journal]
  exact hser.committed

instance (s : System ι) (e : Statement ι) : Decidable (Unclamped s e) := by
  unfold Unclamped
  split <;> infer_instance

instance (s : System ι) (e : Statement ι) : Decidable (SavesBalance s e) := by
  unfold SavesBalance
  split <;> infer_instance

def creditAndEdit : Bool → Call
  | false => .adjustBalance 50
  | true => .editProfile (.setMetadata "cash_available" (.bool true))

theorem balance_conserved_read_after_credit : ∃ s,
    Run (Guarded (fun s e => Unclamped s e ∧ SavesBalance s e) (stepsTo step)) (initial hundred creditAndEdit)
      (inTurn [false, false, true, true, true]) s ∧
    s.rows.user.committed.balance = 100 + (credits s.journal).sum - (debits s.journal).sum ∧ credits s.journal = [50] := by
  exact Run.exists_of_guardedExec_imp (P := fun s => credits s.journal = [50]) (by decide +kernel)
    fun s hrun hcre => ⟨(balance_conserved hundred creditAndEdit _ s hrun).1, hcre⟩

/-- The request reads the row before the credit and saves it after the credit has been committed. -/
theorem saved_row_undoes_credit : ∃ s,
    Run (Guarded Unclamped (stepsTo step)) (initial hundred creditAndEdit)
      (inTurn [true, false, false, true, true]) s ∧
    s.commits.map Prod.fst = [false, true] ∧ credits s.journal = [50] ∧ debits s.journal = [] ∧
    s.rows.user.committed.balance = 100 :=
  Run.exists_of_guardedExec (by decide +kernel)

variable {rows' : Rows ι} {now : Time} {point' : Point} {user : User}

/-- What the transaction still adds or saves is no debt. -/
def Point.Solvent : Point → Prop
  | .countRewards _ reward | .addBalance _ reward => 0 ≤ reward
  | .saveUser user => 0 ≤ user.balance
  | _ => True

theorem balance_apply {edit : ProfileEdit} {user' : User} (h : edit.apply user = some user') :
    user'.balance = user.balance := by
  cases edit <;> dsimp only [ProfileEdit.apply, setMetadata, linkTelegramAccount, linkEmailAccount] at h <;>
    repeat' split at h
  all_goals first | contradiction | (cases h; rfl)

theorem solvent_next (hba : 0 ≤ (rows.user.read i).balance) (hpo : point.Solvent)
    (h : execute i now rows point = some (.next rows' point' notes)) : point'.Solvent := by
  cases point with
  | findUser edit =>
    dsimp only [execute] at h
    split at h
    · next hed =>
      cases h
      exact hba.trans_eq (balance_apply hed).symm
    · cases h
  | _ => grind [execute, complete, Renewal.charge, Point.Solvent, Option.map_eq_some_iff]

theorem solvent_userWrite {f : User → User} {notes' : List Note} (hba : 0 ≤ (rows.user.read i).balance)
    (hpo : point.Solvent) (hw : userWrite point = some (f, notes))
    (h : execute i now rows point = some (.next rows' point' notes')) : 0 ≤ (f (rows.user.read i)).balance := by
  have hadj (amount : Int) : 0 ≤ ((rows.user.read i).adjust amount).balance := by
    dsimp only [User.adjust]
    split_ifs <;> omega
  cases point <;> simp only [userWrite, reduceCtorEq] at hw <;> cases hw
  · -- the UPDATE has the price in its condition
    dsimp only [execute] at h
    split_ifs at h with hpr
    · exact Int.sub_nonneg_of_le hpr
    · cases h
  · exact hadj _
  · exact hadj _
  · exact Int.add_nonneg hba hpo
  · exact hpo

def System.Solvent (s : System ι) : Prop := s.rows.user.All (0 ≤ ·.balance) ∧ ∀ i, (s.sessions i).point.Solvent

theorem System.Solvent.update (h : s.Solvent) (hpo : point.Solvent) (j : ι) :
    (update s.sessions i ⟨point, notes⟩ j).point.Solvent := by
  rw [update_apply]
  split_ifs
  · exact hpo
  · exact h.2 j

theorem solvent_step (h : s.Solvent) (hs : step s e = some s') : s'.Solvent := by
  cases moves_of_step hs with
  | commit => exact ⟨h.1.commit, h.update trivial⟩
  | abort => exact ⟨h.1.rollback, h.update trivial⟩
  | savepoint | unread | unlimited => exact ⟨h.1, h.update trivial⟩
  | statement _ hexe =>
    refine ⟨?_, h.update (solvent_next (h.1.2 _) (h.2 _) hexe)⟩
    cases touches_of_execute hexe with
    | user hw hrow => exact h.1.write hrow (solvent_userWrite (h.1.2 _) (h.2 _) hw hexe)
    | _ => exact h.1

/-- No balance is ever negative, committed or seen by a transaction, whatever calls overlap and whichever fail. -/
theorem balance_never_negative (account : Account) (calls : ι → Call) (tr : List (Statement ι)) (s : System ι)
    (hba : 0 ≤ account.user.balance)
    (hre : ∀ i paymentID reward, calls i = .addReferralReward paymentID reward → 0 ≤ reward)
    (h : Run (stepsTo step) (initial account calls) tr s) :
    0 ≤ s.rows.user.committed.balance ∧ ∀ i, 0 ≤ (s.rows.user.read i).balance := by
  have hin : (initial account calls).Solvent := by
    refine ⟨⟨hba, fun _ => hba⟩, fun i => ?_⟩
    change (calls i).entry.Solvent
    cases hca : calls i with
    | addReferralReward paymentID reward => exact hre i paymentID reward hca
    | _ => trivial
  exact (h.invariant System.Solvent hin fun _ _ _ hsol hs => solvent_step hsol hs).1

/-- A price of 80 twice, on a balance of 100. -/
def renewTwice : Bool → Call := fun _ => .autoRenewSubscription none 80 (some 5) 3

theorem balance_never_negative_two : ∃ s, Run (stepsTo step) (initial hundred renewTwice)
      (inTurn [false, true, true]) s ∧ 0 ≤ s.rows.user.committed.balance ∧
    (s.rows.user.read true).balance = 20 :=
  Run.exists_of_exec_imp (P := fun s => (s.rows.user.read true).balance = 20) (by decide +kernel) fun s hrun hba =>
    ⟨(balance_never_negative hundred renewTwice _ s (by decide) (by intro _ _ _ h; cases h) hrun).1, hba⟩

/-! The end of a subscription under concurrent renewals. `AutoRenewSubscription` reads the end without a lock and writes
the new one later, so a renewal committed between is lost. -/

open Time

variable {e₀ : Time}

def replayEndsAt (endsAt : Option Time) : Note → Option Time
  | .extended months => endsAt.map (Time.addDate · 0 months 0)
  | .renewedUntil endsAt => some endsAt
  | _ => endsAt

def endsAtColumn : Column ι Subscription (Option Time) where
  row := Rows.subscription
  value := Subscription.endsAt
  replay := replayEndsAt
  row_commit := fun _ _ => rfl
  row_rollback := fun _ _ => rfl

/-- A renewal that writes the new end still finds the end that it has read. -/
def UpdatesFresh (s : System ι) (e : Statement ι) : Prop :=
  match (s.sessions e.tx).point with
  | .update _ sub _ => (s.rows.subscription.read e.tx).endsAt = sub.endsAt
  | _ => True

/-- Every call renews by a plan, call `i` by `m i` months. -/
def PlanRenewals (plans : Table Plan Plan.Clash) (calls : ι → Call) (m : ι → Int) : Prop :=
  ∀ i, 0 ≤ m i ∧ ∃ plan ∈ plans.rows, plan.months = m i ∧ ∃ price newEndsAt maxDevices,
    calls i = .autoRenewSubscription (some plan.id) price newEndsAt maxDevices

/-- The terms that a renewal carries with it come from an end not before `e₀`. -/
def FromEnd (e₀ : Time) : Point → Prop
  | .findPlan _ sub _ => ∃ endsAt, sub.endsAt = some endsAt ∧ e₀ ≤ endsAt
  | .debit _ sub terms | .update _ sub terms => ∃ endsAt plan, sub.endsAt = some endsAt ∧ terms.plan = some plan ∧
    terms.endsAt = Time.addDate endsAt 0 plan.months 0
  | _ => True

variable {m : ι → Int}
  {unread : Prop} {i : ι} {r : Renewal} {endsAt now : Time}

omit [DecidableEq ι] in
theorem renewalAt_of_noted (hca : PlanRenewals plans calls m) (h : CallAt unread plans (calls i) point notes) :
    (∃ committed, point = .ended committed) ∨ ∃ r : Renewal, r.payment = none ∧ RenewalAt plans r [] point notes ∧
        ∀ terms, r.Gives plans terms → ∃ plan, terms.plan = some plan ∧ plan.months = m i := by
  obtain ⟨-, plan, hpl, hmon, price, newEndsAt, maxDevices, hc⟩ := hca i
  rw [hc] at h
  cases h with
  | ended => exact .inl ⟨_, rfl⟩
  | renewal hren =>
    refine .inr ⟨_, rfl, hren, fun terms hgi => ?_⟩
    obtain ⟨found, hfo, hte⟩ := hgi
    obtain ⟨hmem, hid⟩ := Table.first_eq_some hfo
    have hsa : found = plan := plans.eq_of_clash hmem hpl (.inl (by simpa using hid))
    exact ⟨found, hte, hsa ▸ hmon⟩
  | unchanged hask | statusOnly hask | completion hask => contradiction

omit [DecidableEq ι] in
theorem replayEndsAt_renewal (hca : PlanRenewals plans calls m) (h : CallAt unread plans (calls i) .commit notes)
    (t : Time) : notes.foldl replayEndsAt (some t) = some (addDate t 0 (m i) 0) := by
  obtain ⟨_, hen⟩ | ⟨r, hpay, hren, hmon⟩ := renewalAt_of_noted hca h
  · contradiction
  cases hren with
  | @renewed terms hgi =>
    obtain ⟨plan, hpl, hm⟩ := hmon terms hgi
    have hcha : r.charged.foldl replayEndsAt (some t) = some t := by
      unfold Renewal.charged
      split_ifs <;> rfl
    have hno : terms.note = .extended (m i) := by rw [Terms.note, hpl, ← hm]
    have hcom : r.completion true = [] := by rw [Renewal.completion, hpay]
    rw [hcom, hno, append_nil, nil_append, foldl_append, hcha]
    rfl

omit [DecidableEq ι] in
/-- The journal of renewals advances the end once for each of them. -/
theorem replayEndsAt_commits {commits : List (ι × List Note)} (t : Time)
    (h : ∀ c ∈ commits, ∀ t, c.2.foldl replayEndsAt (some t) = some (addDate t 0 (m c.1) 0)) :
    (commits.flatMap Prod.snd).foldl replayEndsAt (some t) =
      some ((commits.map Prod.fst).foldl (fun t i => addDate t 0 (m i) 0) t) := by
  induction commits generalizing t with
  | nil => rfl
  | cons c commits ih =>
    rw [flatMap_cons, foldl_append, h c mem_cons_self]
    exact ih _ fun c hc => h c (mem_cons_of_mem _ hc)

omit [DecidableEq ι] in
theorem le_advanced (hm : ∀ i, 0 ≤ m i) (order : List ι) (t : Time) :
    t ≤ order.foldl (fun t i => addDate t 0 (m i) 0) t := by
  induction order generalizing t with
  | nil => exact Int.le_refl t
  | cons i order ih => exact Int.le_trans (le_addDate t (hm i)) (ih _)

theorem committed_endsAt (hfol : endsAtColumn.Follows (some e₀) s) (hno : Noted True plans calls s)
    (hca : PlanRenewals plans calls m) : s.rows.subscription.committed.endsAt =
      some ((s.commits.map Prod.fst).foldl (fun t i => addDate t 0 (m i) 0) e₀) :=
  hfol.committed.trans
    (replayEndsAt_commits e₀ fun c hc => replayEndsAt_renewal hca (hno.commits c hc))

theorem silent_endsAt {kinds : List NoteKind} (h : Only kinds notes) (hki : .renewal ∉ kinds) :
    (endsAtColumn : Column ι Subscription (Option Time)).Silent notes := by
  refine Column.silent_of_forall fun note hno b => ?_
  have hkin := h note hno
  cases note <;> first | rfl | exact absurd hkin hki

theorem endsAt_subscriptionWrite {f : Subscription → Subscription} (hfro : FromEnd e₀ (s.sessions e.tx).point)
    (hfr : UpdatesFresh s e) (h : subscriptionWrite e.now (s.sessions e.tx).point = some (f, notes)) :
    (f (s.rows.subscription.read e.tx)).endsAt = notes.foldl replayEndsAt (s.rows.subscription.read e.tx).endsAt := by
  unfold UpdatesFresh at hfr
  rcases hpo : (s.sessions e.tx).point <;> rw [hpo] at h hfr hfro <;>
    simp only [subscriptionWrite, reduceCtorEq] at h
  · next r sub terms =>
    cases h
    obtain ⟨endsAt, plan, hsub, hpl, hte⟩ := hfro
    have hno : terms.note = .extended plan.months := by rw [Terms.note, hpl]
    rw [hfr, hsub, hno]
    exact congrArg some hte
  · next r sub plan =>
    cases h
    have hsil : (endsAtColumn : Column ι Subscription (Option Time)).Silent (r.completion true) :=
      silent_endsAt completions_completion.only (by decide)
    exact (hsil _).symm

theorem endsAt_step (h : endsAtColumn.Follows (some e₀) s) (hfr : FromEnd e₀ (s.sessions e.tx).point)
    (hfre : UpdatesFresh s e) (hs : step s e = some s') : endsAtColumn.Follows (some e₀) s' := by
  refine Column.follows_step h hs (fun rows point notes _ hexe => ?_) fun r =>
    Column.savepoint_subscription h r rfl fun b note hnot => ?_
  · cases touches_of_execute hexe with
    | nothing hno => exact Column.skip h rfl (silent_endsAt hno.only (by decide))
    | user hw _ => exact Column.skip h rfl (silent_endsAt (only_userWrite hw) (by decide))
    | subscription hw hrow => exact Serial.write h hrow (endsAt_subscriptionWrite hfr hfre hw)
    | payment hw _ => exact Column.skip h rfl (silent_endsAt (only_paymentWrite hw) (by decide))
    | rewards => exact Column.skip h rfl fun _ => rfl
  · cases note <;> first | rfl | contradiction

theorem fromEnd_charge {sub : Subscription} {plan : Plan} (hsub : sub.endsAt = some endsAt) (hnow : now < endsAt) :
    FromEnd e₀ (r.charge sub ⟨renewedEndsAt now sub plan, some plan⟩) := by
  have hte : renewedEndsAt now sub plan = addDate endsAt 0 plan.months 0 := by
    rw [renewedEndsAt, hsub]
    dsimp only
    rw [if_pos hnow]
  unfold Renewal.charge
  split_ifs <;> exact ⟨endsAt, plan, hsub, rfl, hte⟩

theorem fromEnd_execute {rows rows' : Rows ι} {point' : Point} {new : List Note}
    (hren : RenewalAt plans r [] point notes)
    (hpl : ∀ terms, r.Gives plans terms → ∃ plan, terms.plan = some plan) (hfr : FromEnd e₀ point)
    (hr : (rows.subscription.read i).endsAt = some endsAt ∨ point ≠ .findSubscription r) (hend : e₀ ≤ endsAt)
    (hnow : now < e₀) (hexe : execute i now rows point = some (.next rows' point' new)) : FromEnd e₀ point' := by
  cases hren with
  | findSubscription =>
    dsimp only [execute] at hexe
    split at hexe
    · cases hexe
      exact ⟨endsAt, hr.resolve_right (by simp), hend⟩
    · next hn _ =>
      obtain ⟨plan, hte⟩ := hpl ⟨0, none⟩ (by rw [Renewal.Gives, hn])
      contradiction
    · cases hexe
  | findPlan =>
    obtain ⟨endsAt, hsub, hle⟩ := hfr
    dsimp only [execute] at hexe
    split at hexe
    · cases hexe
      exact fromEnd_charge hsub (Int.lt_of_lt_of_le hnow hle)
    · cases hexe
  | debit =>
    dsimp only [execute] at hexe
    split_ifs at hexe
    · obtain ⟨row, hrow, heq⟩ := Option.map_eq_some_iff.1 hexe
      cases heq
      exact hfr
    · cases hexe
  | update | updateMetadata =>
    obtain ⟨row, hrow, heq⟩ := Option.map_eq_some_iff.1 hexe
    cases heq
    trivial
  | resetNotifications =>
    dsimp only [execute] at hexe
    split at hexe <;> cases hexe <;> trivial
  | renewed => contradiction

structure ExtensionInv (plans : Table Plan Plan.Clash) (calls : ι → Call) (e₀ : Time) (s : System ι) : Prop where
  follows : endsAtColumn.Follows (some e₀) s
  noted : Noted True plans calls s
  terms : ∀ i, FromEnd e₀ (s.sessions i).point

theorem extensionInv_step (h : ExtensionInv plans calls e₀ s) (hca : PlanRenewals plans calls m)
    (hfr : UpdatesFresh s e) (hnow : e.now < e₀) (hs : step s e = some s') : ExtensionInv plans calls e₀ s' := by
  refine ⟨endsAt_step h.follows (h.terms e.tx) hfr hs, noted_step h.noted hs fun _ _ => trivial, fun i => ?_⟩
  have hpro {rows : Rows ι} {point : Point} {notes : List Note} (hpo : FromEnd e₀ point) :
      FromEnd e₀ ((s.proceed e.tx rows point notes).sessions i).point := by
    by_cases hi : i = e.tx
    · subst hi
      simpa [System.proceed] using hpo
    · simpa [System.proceed, hi] using h.terms i
  have hend := le_advanced (fun i => (hca i).1) (s.commits.map Prod.fst) e₀
  have hcom := committed_endsAt h.follows h.noted hca
  cases moves_of_step hs with
  | commit =>
    by_cases hi : i = e.tx
    · subst hi
      simp [System.commit, FromEnd]
    · simpa [System.commit, hi] using h.terms i
  | abort | savepoint | unread | unlimited => exact hpro trivial
  | @statement rows point notes hfa hexe =>
    refine hpro ?_
    obtain ⟨_, hen⟩ | ⟨r, hpay, hren, hmon⟩ := renewalAt_of_noted hca (h.noted.sessions e.tx)
    · rw [hen] at hexe
      contradiction
    refine fromEnd_execute hren (fun terms hgi => (hmon terms hgi).imp fun _ h => h.1) (h.terms e.tx) ?_
      hend hnow hexe
    -- the first statement of the call reads what is committed
    by_cases hfi : (s.sessions e.tx).point = .findSubscription r
    · left
      rw [hfi] at hren
      have hnil : s.notesOf e.tx = [] := by
        generalize s.notesOf e.tx = notes at hren
        cases hren
        rfl
      refine (Serial.read h.follows e.tx).trans ?_
      rw [hnil]
      exact hcom
    · exact .inr hfi

/-- In every run of plan renewals that begin before the end `e₀` and whose updates still find the end they have read, the
committed end is `e₀` advanced by the months of all committed renewals, in the order of their commits. -/
theorem paid_extensions_add_up (account : Account) (calls : ι → Call) (m : ι → Int)
    (hcalls : PlanRenewals account.plans calls m) (e₀ : Time) (hend : account.subscription.endsAt = some e₀)
    (tr : List (Statement ι)) (hfuture : ∀ e ∈ tr, e.now < e₀) (s : System ι)
    (h : Run (Guarded UpdatesFresh (stepsTo step)) (initial account calls) tr s) :
    ∃ order : List ι, order.Nodup ∧ (∀ i, i ∈ order ↔ (s.sessions i).point = .ended true) ∧
      s.rows.subscription.committed.endsAt = some (order.foldl (fun t i => Time.addDate t 0 (m i) 0) e₀) := by
  have hst : endsAtColumn.Follows (some e₀) (initial account calls) := by
    rw [← hend]
    exact Serial.start account.subscription
  have hte (i : ι) : FromEnd e₀ ((initial account calls).sessions i).point := by
    obtain ⟨-, plan, -, -, price, newEndsAt, maxDevices, hc⟩ := hcalls i
    simp [initial, hc, Call.entry, FromEnd]
  have hinv := (h.guard_labels hfuture).invariant_of_guard (ExtensionInv account.plans calls e₀)
    ⟨hst, noted_initial, hte⟩
    fun _ _ _ hinv hg hs => extensionInv_step hinv hcalls hg.1 hg.2 hs
  exact ⟨s.commits.map Prod.fst, hinv.noted.once, hinv.noted.committed, committed_endsAt hinv.follows hinv.noted hcalls⟩

instance (s : System ι) (e : Statement ι) : Decidable (UpdatesFresh s e) := by
  unfold UpdatesFresh
  generalize (s.sessions e.tx).point = point
  induction point using Point.casesOn <;> infer_instance

/-! A subscription until 1 January 2026, and two renewals, by one month and by three. -/

def twoPlans : Account :=
  { hundred with
    subscription := { hundred.subscription with endsAt := some (1767225600 * Time.second) }
    plans := ⟨[{ id := 1, months := 1 }, { id := 3, months := 3 }], by simp [Plan.Clash]⟩ }

def twoRenewals : Bool → Call
  | false => .autoRenewSubscription (some 1) 0 none 3
  | true => .autoRenewSubscription (some 3) 50 none 3

def months : Bool → Int
  | false => 1
  | true => 3

theorem planRenewals_twoRenewals : PlanRenewals twoPlans.plans twoRenewals months := by
  rintro (- | -)
  · exact ⟨by decide, { id := 1, months := 1 }, by decide, rfl, 0, none, 3, rfl⟩
  · exact ⟨by decide, { id := 3, months := 3 }, by decide, rfl, 50, none, 3, rfl⟩

def oneAfterTheOther : List (Statement Bool) :=
  inTurn [false, false, false, false, false, false, true, true, true, true, true, true, true]

theorem paid_extensions_add_up_two : ∃ s,
    Run (Guarded UpdatesFresh (stepsTo step)) (initial twoPlans twoRenewals) oneAfterTheOther s ∧
    s.rows.subscription.committed.endsAt.map Time.formatDay = some "01.05.2026" ∧
    ∃ order : List Bool, order.Nodup ∧ (∀ i, i ∈ order ↔ (s.sessions i).point = .ended true) ∧
      s.rows.subscription.committed.endsAt =
        some (order.foldl (fun t i => Time.addDate t 0 (months i) 0) (1767225600 * Time.second)) := by
  exact Run.exists_of_guardedExec_imp (by decide +kernel) fun s hrun hen =>
    ⟨hen, paid_extensions_add_up twoPlans twoRenewals months planRenewals_twoRenewals _ rfl _ (by decide) s hrun⟩

/-- Both renewals read the same end; the month of the first one is lost. -/
theorem concurrent_renewal_lost : ∃ s,
    Run (stepsTo step) (initial twoPlans twoRenewals)
      (inTurn [false, true, false, false, false, false, false, true, true, true, true, true, true]) s ∧
    s.commits.map Prod.fst = [false, true] ∧ s.rows.subscription.committed.endsAt.map Time.formatDay = some "01.04.2026" ∧
    ∀ order ∈ [[false, true], [true, false]], s.rows.subscription.committed.endsAt ≠
      some (order.foldl (fun t i => Time.addDate t 0 (months i) 0) (1767225600 * Time.second)) :=
  Run.exists_of_exec (by decide +kernel)

end Xraytool.Sessions
