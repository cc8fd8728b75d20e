import Xraytool.Spec.Sessions

/-! What one statement does to the concurrent calls: a transaction goes on, commits, or is rolled back, as a whole or to
the savepoint of a renewal. A column stays what the journal says if every statement does to it what it notes. -/

namespace Xraytool.Sessions

open ReadCommitted List Option Function Sessions.System

variable {ι : Type} [DecidableEq ι] {s s' : System ι} {e : Statement ι} {i : ι} {rows rows' : Rows ι} {now : Time}
  {point point' : Point} {notes : List Note}

def Point.renewal : Point → Option Renewal
  | .findSubscription r | .findPlan r _ _ | .debit r _ _ | .update r _ _ | .resetNotifications r _ _
  | .updateMetadata r _ _ => some r
  | _ => none

def System.notesOf (s : System ι) (i : ι) : List Note := (s.sessions i).notes

omit [DecidableEq ι] in
theorem notesOf_initial {acct : Account} {calls : ι → Call} : (initial acct calls).notesOf = fun _ => [] := rfl

theorem notesOf_proceed : (s.proceed i rows point notes).notesOf = update s.notesOf i notes := by
  funext j
  by_cases hj : j = i
  · rw [hj, update_self, notesOf, proceed]
    simp
  · rw [update_of_ne hj, notesOf, proceed]
    simp [hj, notesOf]

theorem notesOf_commit : (s.commit i).notesOf = update s.notesOf i [] := by
  funext j
  by_cases hj : j = i
  · rw [hj, update_self, notesOf, commit]
    simp
  · rw [update_of_ne hj, notesOf, commit]
    simp [hj, notesOf]

theorem journal_commit : (s.commit i).journal = s.journal ++ s.notesOf i := by
  simp [journal, commit, notesOf]

/-- The notes of a renewal that is rolled back to its savepoint. -/
def savepointNotes (notes : List Note) (r : Renewal) : List Note :=
  notes.filter (!·.isRenewal) ++ r.completion false

inductive Moves (s : System ι) (e : Statement ι) : System ι → Prop
  | commit : (s.sessions e.tx).point = .commit → Moves s e (s.commit e.tx)
  | abort : Moves s e (s.abort e.tx)
  | statement {rows : Rows ι} {point : Point} {notes : List Note} : e.fails = false →
      execute e.tx e.now s.rows (s.sessions e.tx).point = some (.next rows point notes) →
      Moves s e (s.proceed e.tx rows point (s.notesOf e.tx ++ notes))
  | savepoint {r : Renewal} {payment : Payment} : (s.sessions e.tx).point.renewal = some r → r.payment = some payment →
      Moves s e (s.proceed e.tx { s.rows with subscription := s.rows.subscription.rollback e.tx } .commit
        (savepointNotes (s.notesOf e.tx) r))
  | unread : (s.sessions e.tx).point = .findUpdated → e.fails = true →
      Moves s e (s.proceed e.tx s.rows .commit (s.notesOf e.tx))
  | unlimited {payment : Payment} {planID : Int} : (s.sessions e.tx).point = .findLatest payment planID →
      Moves s e (s.proceed e.tx s.rows (.findSubscription (extension payment planID 3)) (s.notesOf e.tx))

theorem moves_renewalFailed {r : Renewal} (h : (s.sessions e.tx).point.renewal = some r) :
    Moves s e (s.renewalFailed e.tx r) := by
  unfold renewalFailed
  split
  · exact .abort
  · next payment hpay => exact .savepoint h hpay

theorem moves_failed (h : (s.sessions e.tx).point = .findUpdated → e.fails = true) : Moves s e (s.failed e.tx) := by
  unfold failed
  dsimp only
  split
  case h_7 hpo => exact .unread hpo (h hpo)
  case h_8 hpo => exact .unlimited hpo
  case h_9 => exact .abort
  all_goals exact moves_renewalFailed (by simp_all [Point.renewal])

theorem moves_of_step (h : step s e = some s') : Moves s e s' := by
  unfold step at h
  dsimp only at h
  split at h
  · contradiction
  · next hpo =>
    cases h
    split_ifs
    · exact .abort
    · exact .commit hpo
  · split_ifs at h with hfa
    · cases h
      exact moves_failed fun _ => hfa
    · obtain ⟨answer, hans, rfl⟩ := map_eq_some_iff.1 h
      rcases answer with ⟨rows, point, notes⟩ | -
      · exact .statement (by simpa using hfa) hans
      -- reading back the payment just updated has no error of its own
      refine moves_failed fun hpo => ?_
      rw [hpo, execute] at hans
      simp at hans

def userWrite : Point → Option ((User → User) × List Note)
  | .debit r _ _ => some (.debit r.planTotalPrice, [.debited r.planTotalPrice])
  | .creditPayment payment => some (.adjust payment.amount,
    [.credited payment.amount, .completed (some (.credit payment.id payment.userID payment.amount))])
  | .adjustBalance amount => some (.adjust amount, [.credited amount])
  | .addBalance _ reward => some (fun user => { user with balance := user.balance + reward }, [.credited reward])
  | .saveUser user => some (fun _ => user, [])
  | _ => none

def subscriptionWrite (now : Time) : Point → Option ((Subscription → Subscription) × List Note)
  | .update r _ terms => some (activateRow now terms.endsAt r.maxDevices, [terms.note])
  | .updateMetadata r sub plan => some (writeMetadata now (renewedMetadata sub plan), r.completion true)
  | _ => none

def paymentWrite : Point → Option ((Payment → Payment) × List Note)
  | .savePayment payment => some (fun _ => payment, [])
  | .updateStatus status _ => some (.setStatus status, [.statusSet status])
  | .updateStatusIfNotCompleted payment status =>
    some (.setStatus status, .statusSet status :: if status = "completed" then (complete payment).2 else [])
  | _ => none

def Completions (notes : List Note) : Prop := ∀ note ∈ notes, ∃ effect, note = .completed effect

theorem completions_nil : Completions [] := fun _ h => by contradiction

theorem completions_completion {r : Renewal} {succeeded : Bool} : Completions (r.completion succeeded) := by
  unfold Renewal.completion
  split
  · exact completions_nil
  · intro note hno
    exact ⟨_, mem_singleton.1 hno⟩

theorem completions_complete {payment : Payment} : Completions (complete payment).2 := by
  unfold complete
  split
  · exact completions_nil
  split_ifs
  · exact completions_nil
  · intro note hno
    exact ⟨_, mem_singleton.1 hno⟩

inductive NoteKind where
  | balance
  | renewal
  | status
  | completion
  deriving DecidableEq

def Note.kind : Note → NoteKind
  | .credited _ | .debited _ => .balance
  | .extended _ | .renewedUntil _ => .renewal
  | .statusSet _ => .status
  | .completed _ => .completion

def Only (kinds : List NoteKind) (notes : List Note) : Prop := ∀ note ∈ notes, note.kind ∈ kinds

theorem Completions.only (h : Completions notes) : Only [.completion] notes := by
  intro note hno
  obtain ⟨effect, rfl⟩ := h note hno
  exact mem_singleton_self _

theorem only_userWrite {f : User → User} (h : userWrite point = some (f, notes)) :
    Only [.balance, .completion] notes := by
  cases point <;> simp only [userWrite, reduceCtorEq] at h <;> cases h <;> simp [Only, Note.kind]

theorem only_subscriptionWrite {f : Subscription → Subscription} (h : subscriptionWrite now point = some (f, notes)) :
    Only [.renewal, .completion] notes := by
  cases point <;> simp only [subscriptionWrite, reduceCtorEq] at h
  · next r sub terms =>
    cases h
    intro note hno
    rw [mem_singleton.1 hno, Terms.note]
    split <;> simp [Note.kind]
  · next r sub plan =>
    cases h
    exact fun note hno => mem_cons_of_mem _ (completions_completion.only note hno)

theorem only_paymentWrite {f : Payment → Payment} (h : paymentWrite point = some (f, notes)) :
    Only [.status, .completion] notes := by
  cases point <;> simp only [paymentWrite, reduceCtorEq] at h <;> cases h
  · simp [Only]
  · simp [Only, Note.kind]
  intro note hno
  rcases mem_cons.1 hno with rfl | hno
  · exact mem_cons_self
  split_ifs at hno
  · exact mem_cons_of_mem _ (completions_complete.only note hno)
  · contradiction

/-- A statement writes one row or none. -/
inductive Touches (i : ι) (now : Time) (rows : Rows ι) (point : Point) : Rows ι → List Note → Prop
  | nothing {notes : List Note} : Completions notes → Touches i now rows point rows notes
  | user {f : User → User} {row : Row ι User} {notes : List Note} : userWrite point = some (f, notes) →
      rows.user.write i f = some row → Touches i now rows point { rows with user := row } notes
  | subscription {f : Subscription → Subscription} {row : Row ι Subscription} {notes : List Note} :
      subscriptionWrite now point = some (f, notes) → rows.subscription.write i f = some row →
      Touches i now rows point { rows with subscription := row } notes
  | payment {f : Payment → Payment} {row : Row ι Payment} {notes : List Note} : paymentWrite point = some (f, notes) →
      rows.payment.write i f = some row → Touches i now rows point { rows with payment := row } notes
  | rewards {rewards : Int → Row ι Bool} : Touches i now rows point { rows with rewards := rewards } []

theorem touches_of_execute (h : execute i now rows point = some (.next rows' point' notes)) :
    Touches i now rows point rows' notes := by
  cases point with
  | findSubscription r =>
    dsimp only [execute] at h
    split at h <;> cases h <;> exact .nothing completions_nil
  | findPlan r sub planID | findUser edit =>
    dsimp only [execute] at h
    split at h <;> cases h
    exact .nothing completions_nil
  | debit r sub terms =>
    dsimp only [execute] at h
    split_ifs at h
    · obtain ⟨row, hrow, heq⟩ := map_eq_some_iff.1 h
      cases heq
      exact .user rfl hrow
    · cases h
  | update r sub terms | updateMetadata r sub plan =>
    obtain ⟨row, hrow, heq⟩ := map_eq_some_iff.1 h
    cases heq
    exact .subscription rfl hrow
  | resetNotifications r sub terms =>
    dsimp only [execute] at h
    split at h <;> cases h
    · exact .nothing completions_nil
    · exact .nothing completions_completion
  | findPayment extID | findLatest payment planID =>
    cases h
    exact .nothing completions_nil
  | savePayment payment =>
    obtain ⟨row, hrow, heq⟩ := map_eq_some_iff.1 h
    cases heq
    exact .payment rfl hrow
  | updateStatus status expected =>
    dsimp only [execute] at h
    split at h
    · obtain ⟨row, hrow, heq⟩ := map_eq_some_iff.1 h
      cases heq
      exact .payment rfl hrow
    · cases h
      exact .nothing completions_nil
  | findUpdated =>
    cases h
    exact .nothing completions_complete
  | findByExternalID extID mappedStatus | countRewards paymentID reward =>
    dsimp only [execute] at h
    split_ifs at h <;> cases h <;> exact .nothing completions_nil
  | updateStatusIfNotCompleted payment mappedStatus =>
    dsimp only [execute] at h
    split at h
    · obtain ⟨row, hrow, heq⟩ := map_eq_some_iff.1 h
      cases heq
      refine .payment ?_ hrow
      rw [paymentWrite]
      split_ifs <;> rfl
    · cases h
      exact .nothing completions_nil
  | creditPayment payment | adjustBalance amount | addBalance paymentID reward | saveUser user =>
    obtain ⟨row, hrow, heq⟩ := map_eq_some_iff.1 h
    cases heq
    exact .user rfl hrow
  | createReward paymentID =>
    dsimp only [execute] at h
    split_ifs at h
    · cases h
    obtain ⟨row, hrow, heq⟩ := map_eq_some_iff.1 h
    cases heq
    exact .rewards
  | commit | ended committed => contradiction

/-- A column of one of the rows, and what a note says about it. -/
structure Column (ι ρ β : Type) [DecidableEq ι] where
  row : Rows ι → Row ι ρ
  value : ρ → β
  replay : β → Note → β
  row_commit : ∀ rows i, row (rows.commit i) = (row rows).commit i
  row_rollback : ∀ rows i, row (rows.rollback i) = (row rows).rollback i

namespace Column

variable {ρ β : Type} {c : Column ι ρ β} {b₀ : β}

/-- The committed value is the journal replayed from `b₀`, and so is the value that each transaction sees. -/
def Follows (c : Column ι ρ β) (b₀ : β) (s : System ι) : Prop :=
  Serial c.value c.replay b₀ (c.row s.rows) s.notesOf s.journal

def Silent (c : Column ι ρ β) (notes : List Note) : Prop := ∀ b, notes.foldl c.replay b = b

theorem silent_of_forall (h : ∀ note ∈ notes, ∀ b, c.replay b note = b) : c.Silent notes := by
  intro b
  induction notes with
  | nil => rfl
  | cons note notes ih =>
    rw [foldl_cons, h note mem_cons_self]
    exact ih fun note hno => h note (mem_cons_of_mem _ hno)

section

variable (h : c.Follows b₀ s)
include h

theorem skip (hrow : c.row rows = c.row s.rows) (hno : c.Silent notes) :
    Serial c.value c.replay b₀ (c.row rows) (update s.notesOf i (s.notesOf i ++ notes)) s.journal := by
  rw [hrow]
  refine Serial.skip h fun b => ?_
  rw [foldl_append]
  exact hno _

/-- The column follows the journal after a step if it does after a statement and after a return to the savepoint of a
renewal. -/
theorem follows_step (hs : step s e = some s')
    (hsta : ∀ rows point notes, e.fails = false → execute e.tx e.now s.rows (s.sessions e.tx).point =
      some (.next rows point notes) →
      Serial c.value c.replay b₀ (c.row rows) (update s.notesOf e.tx (s.notesOf e.tx ++ notes)) s.journal)
    (hsav : ∀ r, Serial c.value c.replay b₀ (c.row { s.rows with subscription := s.rows.subscription.rollback e.tx })
      (update s.notesOf e.tx (savepointNotes (s.notesOf e.tx) r)) s.journal) :
    c.Follows b₀ s' := by
  have hsa : update s.notesOf e.tx (s.notesOf e.tx) = s.notesOf := update_eq_self _ _
  cases moves_of_step hs with
  | commit =>
    rw [Follows, notesOf_commit, journal_commit]
    exact (c.row_commit s.rows e.tx).symm ▸ Serial.commit h
  | abort =>
    rw [Follows, abort, notesOf_proceed]
    exact (c.row_rollback s.rows e.tx).symm ▸ Serial.rollback h fun _ => rfl
  | statement hfa hexe =>
    rw [Follows, notesOf_proceed]
    exact hsta _ _ _ hfa hexe
  | savepoint =>
    rw [Follows, notesOf_proceed]
    exact hsav _
  | unread | unlimited =>
    rw [Follows, notesOf_proceed, hsa]
    exact h

theorem savepoint_other (r : Renewal)
    (hrow : c.row { s.rows with subscription := s.rows.subscription.rollback i } = c.row s.rows)
    (hren : ∀ b note, note.isRenewal = true → c.replay b note = b)
    (hcom : ∀ b effect, c.replay b (.completed effect) = b) :
    Serial c.value c.replay b₀ (c.row { s.rows with subscription := s.rows.subscription.rollback i })
      (update s.notesOf i (savepointNotes (s.notesOf i) r)) s.journal := by
  rw [hrow]
  refine Serial.skip h fun b => ?_
  have hfil (notes : List Note) (b : β) : (notes.filter (!·.isRenewal)).foldl c.replay b = notes.foldl c.replay b := by
    induction notes generalizing b with
    | nil => rfl
    | cons note notes ih =>
      by_cases hno : note.isRenewal = true
      · rw [filter_cons_of_neg (by simp [hno]), ih, foldl_cons, hren b note hno]
      · rw [filter_cons_of_pos (by simp [hno]), foldl_cons, foldl_cons, ih]
  rw [savepointNotes, foldl_append, hfil, Renewal.completion]
  split
  · rfl
  · exact hcom _ _

/-- A column of the subscription that only renewals change. -/
theorem savepoint_subscription (r : Renewal)
    (hrow : c.row { s.rows with subscription := s.rows.subscription.rollback i } = (c.row s.rows).rollback i)
    (ho : ∀ b note, note.isRenewal = false → c.replay b note = b) :
    Serial c.value c.replay b₀ (c.row { s.rows with subscription := s.rows.subscription.rollback i })
      (update s.notesOf i (savepointNotes (s.notesOf i) r)) s.journal := by
  rw [hrow]
  refine Serial.rollback h (silent_of_forall fun note hno b => ho b note ?_)
  rw [savepointNotes, Renewal.completion, mem_append] at hno
  rcases hno with hno | hno
  · simpa using of_mem_filter hno
  split at hno
  · simp at hno
  · rw [mem_singleton.1 hno]
    rfl

end

end Column

/-! What a call has noted when its transaction comes to a statement, and so what the journal says of a committed call.
-/

variable {new base : List Note} {plans : Table Plan Plan.Clash} {r : Renewal}

def Renewal.charged (r : Renewal) : List Note :=
  if 0 < r.planTotalPrice then [.debited r.planTotalPrice] else []

/-- The terms are those of the plan asked for, if one is. -/
def Renewal.Gives (plans : Table Plan Plan.Clash) (r : Renewal) (terms : Terms) : Prop :=
  match r.planID with
  | some planID => ∃ plan, plans.first (fun _ _ => false) (·.id == planID) = some plan ∧ terms.plan = some plan
  | none => terms.plan = none

/-- The notes in the course of a renewal; `base` are those before it. -/
inductive RenewalAt (plans : Table Plan Plan.Clash) (r : Renewal) (base : List Note) : Point → List Note → Prop
  | findSubscription : RenewalAt plans r base (.findSubscription r) base
  | findPlan {sub : Subscription} {planID : Int} : r.planID = some planID →
      RenewalAt plans r base (.findPlan r sub planID) base
  | debit {sub : Subscription} {terms : Terms} : r.Gives plans terms → 0 < r.planTotalPrice →
      RenewalAt plans r base (.debit r sub terms) base
  | update {sub : Subscription} {terms : Terms} : r.Gives plans terms →
      RenewalAt plans r base (.update r sub terms) (base ++ r.charged)
  | resetNotifications {sub : Subscription} {terms : Terms} : r.Gives plans terms →
      RenewalAt plans r base (.resetNotifications r sub terms) (base ++ r.charged ++ [terms.note])
  | updateMetadata {sub : Subscription} {terms : Terms} {plan : Plan} : r.Gives plans terms →
      RenewalAt plans r base (.updateMetadata r sub plan) (base ++ r.charged ++ [terms.note])
  | renewed {terms : Terms} : r.Gives plans terms →
      RenewalAt plans r base .commit (base ++ r.charged ++ [terms.note] ++ r.completion true)

/-- The notes in the course of a completion. -/
inductive CompletionAt (plans : Table Plan Plan.Clash) (payment : Payment) (base : List Note) :
    Point → List Note → Prop
  | findLatest {planID : Int} : payment.planID = some planID →
      CompletionAt plans payment base (.findLatest payment planID) base
  | renewal {planID current : Int} {point : Point} {notes : List Note} : payment.planID = some planID →
      RenewalAt plans (extension payment planID current) base point notes → CompletionAt plans payment base point notes
  | renewalFailed {planID current : Int} : payment.planID = some planID →
      CompletionAt plans payment base .commit (base ++ (extension payment planID current).completion false)
  | creditPayment : payment.planID = none → CompletionAt plans payment base (.creditPayment payment) base
  | credited : payment.planID = none → CompletionAt plans payment base .commit (base ++
      [.credited payment.amount, .completed (some (.credit payment.id payment.userID payment.amount))])
  | unneeded : payment.planID = none → CompletionAt plans payment base .commit (base ++ [.completed none])

def Call.asksFor : Call → Option String
  | .updatePaymentStatus status _ => some status
  | .processExternalPaymentStatus _ status => some (mapExternalStatus status)
  | _ => none

/-- The notes of a call at each of its statements. Whether a payment may be completed without its effect, after a failed
read, is `unread`. -/
inductive CallAt (unread : Prop) (plans : Table Plan Plan.Clash) : Call → Point → List Note → Prop
  | ended {call : Call} {committed : Bool} : CallAt unread plans call (.ended committed) []
  | renewal {planID : Option Int} {price : Int} {newEndsAt : Option Time} {maxDevices : Int} {point : Point}
      {notes : List Note} : RenewalAt plans ⟨planID, price, newEndsAt, maxDevices, none⟩ [] point notes →
      CallAt unread plans (.autoRenewSubscription planID price newEndsAt maxDevices) point notes
  | findPayment {extID : String} : CallAt unread plans (.updateExternalID extID) (.findPayment extID) []
  | savePayment {extID : String} {payment : Payment} :
      CallAt unread plans (.updateExternalID extID) (.savePayment payment) []
  | saved {extID : String} : CallAt unread plans (.updateExternalID extID) .commit []
  | updateStatus {status : String} {expected : List String} :
      CallAt unread plans (.updatePaymentStatus status expected) (.updateStatus status expected) []
  | findUpdated {expected : List String} :
      CallAt unread plans (.updatePaymentStatus "completed" expected) .findUpdated [.statusSet "completed"]
  | findByExternalID {extID status : String} : CallAt unread plans (.processExternalPaymentStatus extID status)
      (.findByExternalID extID (mapExternalStatus status)) []
  | updateStatusIfNotCompleted {extID status : String} {payment : Payment} :
      CallAt unread plans (.processExternalPaymentStatus extID status)
        (.updateStatusIfNotCompleted payment (mapExternalStatus status)) []
  | unchanged {call : Call} {status : String} : call.asksFor = some status → CallAt unread plans call .commit []
  | statusOnly {call : Call} {status : String} : call.asksFor = some status → (status = "completed" → unread) →
      CallAt unread plans call .commit [.statusSet status]
  | completion {call : Call} {payment : Payment} {point : Point} {notes : List Note} : call.asksFor = some "completed" →
      CompletionAt plans payment [.statusSet "completed"] point notes → CallAt unread plans call point notes
  | adjustBalance {amount : Int} : CallAt unread plans (.adjustBalance amount) (.adjustBalance amount) []
  | adjusted {amount : Int} : CallAt unread plans (.adjustBalance amount) .commit [.credited amount]
  | countRewards {paymentID reward : Int} :
      CallAt unread plans (.addReferralReward paymentID reward) (.countRewards paymentID reward) []
  | hasReward {paymentID reward : Int} : CallAt unread plans (.addReferralReward paymentID reward) .commit []
  | addBalance {paymentID reward : Int} :
      CallAt unread plans (.addReferralReward paymentID reward) (.addBalance paymentID reward) []
  | createReward {paymentID reward : Int} :
      CallAt unread plans (.addReferralReward paymentID reward) (.createReward paymentID) [.credited reward]
  | rewarded {paymentID reward : Int} : CallAt unread plans (.addReferralReward paymentID reward) .commit [.credited reward]
  | findUser {edit : ProfileEdit} : CallAt unread plans (.editProfile edit) (.findUser edit) []
  | saveUser {edit : ProfileEdit} {user : User} : CallAt unread plans (.editProfile edit) (.saveUser user) []
  | edited {edit : ProfileEdit} : CallAt unread plans (.editProfile edit) .commit []

variable {unread : Prop} {call : Call} {payment : Payment} {terms : Terms} {r' : Renewal}

theorem callAt_entry : CallAt unread plans call call.entry [] := by
  cases call with
  | autoRenewSubscription => exact .renewal .findSubscription
  | updateExternalID => exact .findPayment
  | updatePaymentStatus => exact .updateStatus
  | processExternalPaymentStatus => exact .findByExternalID
  | adjustBalance => exact .adjustBalance
  | addReferralReward => exact .countRewards
  | editProfile => exact .findUser

theorem renewalAt_charge {sub : Subscription} (h : r.Gives plans terms) :
    RenewalAt plans r base (r.charge sub terms) base := by
  unfold Renewal.charge
  split_ifs with hpr
  · exact .debit h hpr
  have hcha : base ++ r.charged = base := by rw [Renewal.charged, if_neg hpr, append_nil]
  nth_rewrite 2 [← hcha]
  exact .update h

theorem renewalAt_execute (h : RenewalAt plans r base point notes) (hpl : rows.plans = plans)
    (hexe : execute i now rows point = some (.next rows' point' new)) :
    RenewalAt plans r base point' (notes ++ new) := by
  cases h with
  | findSubscription =>
    dsimp only [execute] at hexe
    split at hexe
    · next planID _ hpla =>
      cases hexe
      rw [append_nil]
      exact .findPlan hpla
    · next endsAt hpla _ =>
      cases hexe
      rw [append_nil]
      refine renewalAt_charge ?_
      rw [Renewal.Gives, hpla]
    · cases hexe
  | findPlan hpla =>
    dsimp only [execute] at hexe
    split at hexe
    · next plan hplan =>
      cases hexe
      rw [append_nil]
      refine renewalAt_charge ?_
      rw [Renewal.Gives, hpla]
      exact ⟨plan, hpl ▸ hplan, rfl⟩
    · cases hexe
  | debit hte hpr =>
    dsimp only [execute] at hexe
    split_ifs at hexe
    · obtain ⟨row, hrow, heq⟩ := map_eq_some_iff.1 hexe
      cases heq
      have hcha : [Note.debited r.planTotalPrice] = r.charged := by rw [Renewal.charged, if_pos hpr]
      rw [hcha]
      exact .update hte
    · cases hexe
  | update hte =>
    obtain ⟨row, hrow, heq⟩ := map_eq_some_iff.1 hexe
    cases heq
    exact .resetNotifications hte
  | resetNotifications hte =>
    dsimp only [execute] at hexe
    split at hexe <;> cases hexe
    · rw [append_nil]
      exact .updateMetadata hte
    · exact .renewed hte
  | updateMetadata hte =>
    obtain ⟨row, hrow, heq⟩ := map_eq_some_iff.1 hexe
    cases heq
    exact .renewed hte
  | renewed => contradiction

theorem completionAt_complete :
    CompletionAt plans payment base (complete payment).1 (base ++ (complete payment).2) := by
  unfold complete
  split
  · next planID hpla =>
    rw [append_nil]
    exact .findLatest hpla
  next hpla =>
  split_ifs
  · rw [append_nil]
    exact .creditPayment hpla
  · exact .unneeded hpla

theorem completionAt_execute (h : CompletionAt plans payment base point notes) (hpl : rows.plans = plans)
    (hexe : execute i now rows point = some (.next rows' point' new)) :
    CompletionAt plans payment base point' (notes ++ new) := by
  cases h with
  | findLatest hpla =>
    cases hexe
    rw [append_nil]
    exact .renewal hpla .findSubscription
  | renewal hpla hren => exact .renewal hpla (renewalAt_execute hren hpl hexe)
  | renewalFailed | credited | unneeded => contradiction
  | creditPayment hpla =>
    obtain ⟨row, hrow, heq⟩ := map_eq_some_iff.1 hexe
    cases heq
    exact .credited hpla

theorem callAt_statusSet {status : String} (hask : call.asksFor = some status) :
    CallAt unread plans call (if status = "completed" then complete payment else (.commit, [])).1
      (.statusSet status :: (if status = "completed" then complete payment else (.commit, [])).2) := by
  split_ifs with hcom
  · subst hcom
    exact .completion hask completionAt_complete
  · exact .statusOnly hask fun h => absurd h hcom

theorem callAt_execute (h : CallAt unread plans call point notes) (hpl : rows.plans = plans)
    (hexe : execute i now rows point = some (.next rows' point' new)) :
    CallAt unread plans call point' (notes ++ new) := by
  cases h with
  | ended | saved | unchanged | statusOnly | adjusted | hasReward | rewarded | edited => contradiction
  | renewal hren => exact .renewal (renewalAt_execute hren hpl hexe)
  | findPayment =>
    cases hexe
    exact .savePayment
  | savePayment | adjustBalance | addBalance | saveUser =>
    obtain ⟨row, hrow, heq⟩ := map_eq_some_iff.1 hexe
    cases heq
    first | exact .saved | exact .adjusted | exact .createReward | exact .edited
  | @updateStatus status expected =>
    dsimp only [execute] at hexe
    split at hexe
    · obtain ⟨row, hrow, heq⟩ := map_eq_some_iff.1 hexe
      by_cases hcom : status = "completed"
      · subst hcom
        cases heq
        exact .findUpdated
      rw [if_neg hcom] at heq
      cases heq
      exact .statusOnly rfl fun h => absurd h hcom
    · cases hexe
      exact .unchanged rfl
  | findUpdated =>
    cases hexe
    exact .completion rfl completionAt_complete
  | findByExternalID =>
    dsimp only [execute] at hexe
    split_ifs at hexe <;> cases hexe
    · exact .unchanged rfl
    · exact .updateStatusIfNotCompleted
  | updateStatusIfNotCompleted =>
    dsimp only [execute] at hexe
    split at hexe
    · obtain ⟨row, hrow, heq⟩ := map_eq_some_iff.1 hexe
      cases heq
      exact callAt_statusSet rfl
    · cases hexe
      exact .unchanged rfl
  | completion hask hcomp => exact .completion hask (completionAt_execute hcomp hpl hexe)
  | countRewards =>
    dsimp only [execute] at hexe
    split_ifs at hexe <;> cases hexe
    · exact .hasReward
    · exact .addBalance
  | createReward =>
    dsimp only [execute] at hexe
    split_ifs at hexe
    · cases hexe
    obtain ⟨row, hrow, heq⟩ := map_eq_some_iff.1 hexe
    cases heq
    exact .rewarded
  | findUser =>
    dsimp only [execute] at hexe
    split at hexe <;> cases hexe
    exact .saveUser

theorem renewal_of_renewalAt (h : RenewalAt plans r base point notes) (hpo : point.renewal = some r') : r' = r := by
  cases h <;> first | exact (some.inj hpo).symm | contradiction

theorem isRenewal_note : terms.note.isRenewal = true := by
  unfold Terms.note
  split <;> rfl

/-- A renewal that charges nothing leaves what was noted before it. -/
theorem savepointNotes_of_renewalAt (h : RenewalAt plans r base point notes)
    (hpo : point.renewal = some r') (hpr : r.planTotalPrice ≤ 0) (hba : ∀ note ∈ base, note.isRenewal = false) :
    savepointNotes notes r = base ++ r.completion false := by
  have hcha : r.charged = [] := if_neg (by omega)
  have hfil : base.filter (!·.isRenewal) = base := filter_eq_self.2 fun note hno => by simp [hba note hno]
  unfold savepointNotes
  cases h with
  | findSubscription | findPlan | debit => rw [hfil]
  | update => rw [hcha, append_nil, hfil]
  | resetNotifications | updateMetadata =>
    rw [hcha, append_nil, filter_append, hfil, filter_singleton]
    simp [isRenewal_note]
  | renewed => contradiction

theorem callAt_savepoint (h : CallAt unread plans call point notes) (hpo : point.renewal = some r)
    (hpay : r.payment = some payment) : CallAt unread plans call .commit (savepointNotes notes r) := by
  cases h with
  | renewal hren =>
    obtain rfl := renewal_of_renewalAt hren hpo
    contradiction
  | completion hask hcom =>
    cases hcom with
    | renewal hpla hren =>
      obtain rfl := renewal_of_renewalAt hren hpo
      rw [savepointNotes_of_renewalAt hren hpo (le_refl 0) (by simp [Note.isRenewal])]
      exact .completion hask (.renewalFailed hpla)
    | _ => contradiction
  | _ => contradiction

theorem callAt_unread (h : CallAt unread plans call .findUpdated notes) (hunr : unread) :
    CallAt unread plans call .commit notes := by
  cases h with
  | renewal hren => cases hren
  | findUpdated => exact .statusOnly rfl fun _ => hunr
  | completion _ hcom =>
    cases hcom with
    | renewal _ hren => cases hren

theorem callAt_unlimited {planID : Int} (h : CallAt unread plans call (.findLatest payment planID) notes) :
    CallAt unread plans call (.findSubscription (extension payment planID 3)) notes := by
  cases h with
  | renewal hren => cases hren
  | completion hask hcom =>
    cases hcom with
    | findLatest hpla => exact .completion hask (.renewal hpla .findSubscription)
    | renewal _ hren => cases hren

/-- Every call in progress and every committed call has noted what it should; a call commits at most once. -/
structure Noted (unread : Prop) (plans : Table Plan Plan.Clash) (calls : ι → Call) (s : System ι) : Prop where
  table : s.rows.plans = plans
  sessions : ∀ i, CallAt unread plans (calls i) (s.sessions i).point (s.notesOf i)
  commits : ∀ c ∈ s.commits, CallAt unread plans (calls c.1) .commit c.2
  once : (s.commits.map Prod.fst).Nodup
  committed : ∀ i, i ∈ s.commits.map Prod.fst ↔ (s.sessions i).point = .ended true

omit [DecidableEq ι] in
theorem noted_initial {acct : Account} {calls : ι → Call} : Noted unread acct.plans calls (initial acct calls) := by
  refine ⟨rfl, fun i => callAt_entry, fun c hc => ?_, nodup_nil, fun i => ?_⟩
  · contradiction
  · rcases hca : calls i <;> simp [initial, hca, Call.entry]

variable {calls : ι → Call}

theorem Noted.proceed (h : Noted unread plans calls s) (hpl : rows.plans = plans)
    (hop : (s.sessions i).point ≠ .ended true) (hpo : point ≠ .ended true)
    (hc : CallAt unread plans (calls i) point notes) : Noted unread plans calls (s.proceed i rows point notes) := by
  refine ⟨hpl, fun j => ?_, h.commits, h.once, fun j => ?_⟩
  · rw [notesOf_proceed]
    by_cases hj : j = i
    · subst hj
      simpa [System.proceed] using hc
    · simpa [System.proceed, hj] using h.sessions j
  · by_cases hj : j = i
    · subst hj
      simp only [System.proceed, Function.update_self, hpo, iff_false]
      exact fun hmem => hop ((h.committed j).1 hmem)
    · simpa [System.proceed, hj] using h.committed j

theorem Noted.commit (h : Noted unread plans calls s) (hpo : (s.sessions i).point = .commit) :
    Noted unread plans calls (s.commit i) := by
  have hfr : i ∉ s.commits.map Prod.fst := by
    rw [h.committed i, hpo]
    simp
  have hca := h.sessions i
  rw [hpo] at hca
  refine ⟨h.table, fun j => ?_, fun c hc => ?_, ?_, fun j => ?_⟩
  · rw [notesOf_commit]
    by_cases hj : j = i
    · subst hj
      simpa [System.commit] using CallAt.ended
    · simpa [System.commit, hj] using h.sessions j
  · rcases mem_append.1 hc with hc | hc
    · exact h.commits c hc
    · rw [mem_singleton.1 hc]
      exact hca
  · simp only [System.commit, map_append, map_cons, map_nil]
    exact nodup_append.2 ⟨h.once, nodup_singleton i, fun j hj k hk hjk =>
      hfr (mem_singleton.1 hk ▸ hjk ▸ hj)⟩
  · by_cases hj : j = i
    · subst hj
      simp [System.commit]
    · simpa [System.commit, hj] using h.committed j

theorem plans_execute (h : execute i now rows point = some (.next rows' point' notes)) : rows'.plans = rows.plans := by
  cases touches_of_execute h <;> rfl

theorem ne_ended_charge (r : Renewal) (sub : Subscription) (terms : Terms) : r.charge sub terms ≠ .ended true := by
  unfold Renewal.charge
  split_ifs <;> simp

theorem ne_ended_complete (payment : Payment) : (complete payment).1 ≠ .ended true := by
  unfold complete
  split
  · simp
  · split_ifs <;> simp

theorem ne_ended_execute : execute i now rows point ≠ some (.next rows' (.ended true) notes) := by
  intro h
  have hcha := ne_ended_charge
  have hcom := ne_ended_complete
  cases point <;> simp only [execute, map_eq_some_iff] at h <;> (repeat' split at h) <;> simp_all

theorem open_of_step (h : step s e = some s') : (s.sessions e.tx).point ≠ .ended true := by
  intro hpo
  rw [step, hpo] at h
  contradiction

theorem noted_step (h : Noted unread plans calls s) (hs : step s e = some s')
    (hr : (s.sessions e.tx).point = .findUpdated → e.fails = true → unread) : Noted unread plans calls s' := by
  have hop := open_of_step hs
  have hc := h.sessions e.tx
  cases moves_of_step hs with
  | commit hpo => exact h.commit hpo
  | abort => exact h.proceed h.table hop (by simp) .ended
  | statement hfa hexe =>
    refine h.proceed ((plans_execute hexe).trans h.table) hop ?_ (callAt_execute hc h.table hexe)
    rintro rfl
    exact ne_ended_execute hexe
  | savepoint hpo hpay => exact h.proceed h.table hop (by simp) (callAt_savepoint hc hpo hpay)
  | unread hpo hfa =>
    rw [hpo] at hc
    exact h.proceed h.table hop (by simp) (callAt_unread hc (hr hpo hfa))
  | unlimited hpo =>
    rw [hpo] at hc
    exact h.proceed h.table hop (by simp) (callAt_unlimited hc)

def hundred : Account where
  user := { id := "u1", balance := 100 }
  subscription := { id := "s1", userID := "u1", email := "a", uuid := "id-a" }
  payment := { id := 1, userID := "u1", amount := 100, status := "pending", method := "card", externalID := some "x1" }

end Xraytool.Sessions
