import Xraytool.Sanity.Panel

/-! What a replication snapshot contains. The filter of blocked emails is complete only when the queries behind
it succeed, and it is not applied to the users of the template. -/

namespace Xraytool

open List

variable {env : SnapshotEnv} {s : Store} {email : String}

def Store.bannedAt (s : Store) (now : Time) (email : String) : Bool := (s.findActiveBans now).any (·.email == email)

def Store.Refused (s : Store) (now : Time) (email : String) : Prop := s.ownerBlocked email ∨ s.bannedAt now email

/-- The filter of a snapshot knows the email: the queries that would report it have succeeded. -/
def Filtered (env : SnapshotEnv) (s : Store) (email : String) : Prop :=
  (env.fails .findUsers = false ∧ env.fails .findSubscriptionsAgain = false ∧ s.ownerBlocked email) ∨
    (env.fails .findActiveBans = false ∧ s.bannedAt env.now email)

theorem ownerBlocked_iff : s.ownerBlocked email ↔
    ∃ sub ∈ s.subscriptions.rows, sub.email = email ∧ ∃ u ∈ s.users.rows, u.id = sub.userID ∧ u.isBlocked := by
  simp [Store.ownerBlocked]

theorem mem_blockedEmails (hem : email ≠ "") : email ∈ blockedEmails env s ↔ Filtered env s email := by
  have hban : email ∈ (if env.fails .findActiveBans then [] else (s.findActiveBans env.now).map (·.email)) ↔
      env.fails .findActiveBans = false ∧ s.bannedAt env.now email := by
    cases env.fails .findActiveBans <;> simp [Store.bannedAt]
  rw [blockedEmails, mem_append, hban, Filtered]
  refine or_congr ?_ Iff.rfl
  by_cases hlo : env.fails .findUsers ∨ env.fails .findSubscriptionsAgain
  · -- a query failed, so no owner is looked at
    have hnil : env.fails .findUsers ∨ (s.users.rows.filter (·.isBlocked)).map (·.id) = [] ∨
        env.fails .findSubscriptionsAgain := by tauto
    rcases hlo with h | h <;> simp [h]
  · simp only [not_or, Bool.not_eq_true] at hlo
    by_cases hids : (s.users.rows.filter (·.isBlocked)).map (·.id) = []
    · rw [if_pos (.inr (.inl hids)), ownerBlocked_iff]
      simp only [map_eq_nil_iff, filter_eq_nil_iff] at hids
      simp only [not_mem_nil, false_iff, not_and]
      rintro - - ⟨sub, -, -, u, hu, -, hb⟩
      exact hids u hu hb
    · rw [if_neg (by simp [hlo, hids]), ownerBlocked_iff]
      simp only [mem_map, mem_filter, Bool.and_eq_true, contains_iff_mem, bne_iff_ne, hlo, true_and]
      constructor
      · rintro ⟨sub, ⟨hsub, ⟨u, ⟨hu, hb⟩, hid⟩, -⟩, rfl⟩
        exact ⟨sub, hsub, rfl, u, hu, hid, hb⟩
      · rintro ⟨sub, hsub, rfl, u, hu, hid, hb⟩
        exact ⟨sub, ⟨hsub, ⟨u, ⟨hu, hb⟩, hid⟩, hem⟩, rfl⟩

def Listed (env : SnapshotEnv) (s : Store) (sub : Subscription) : Prop :=
  sub ∈ s.subscriptions.rows ∧ replicated sub ∧ ¬ Filtered env s sub.email

theorem replicated_email {sub : Subscription} (h : replicated sub) : sub.email ≠ "" := by
  simp only [replicated, Bool.and_eq_true, bne_iff_ne] at h
  exact h.1.1

variable {user : VPNUserConfig} {users : List VPNUserConfig}

theorem mem_databaseUsers :
    user ∈ databaseUsers env s ↔ ∃ sub, Listed env s sub ∧ subscriptionToVPNUserConfig env.ext sub = user := by
  simp only [databaseUsers, mem_map, mem_filter, Bool.and_eq_true, Bool.not_eq_true',
    contains_eq_mem, decide_eq_false_iff_not, Listed]
  constructor
  · rintro ⟨sub, ⟨hsub, hrep, hblo⟩, rfl⟩
    exact ⟨sub, ⟨hsub, hrep, fun h => hblo ((mem_blockedEmails (replicated_email hrep)).2 h)⟩, rfl⟩
  · rintro ⟨sub, ⟨hsub, hrep, hfil⟩, rfl⟩
    exact ⟨sub, ⟨hsub, hrep, fun h => hfil ((mem_blockedEmails (replicated_email hrep)).1 h)⟩, rfl⟩

@[simp] theorem mem_byEmail {users : List VPNUserConfig} {user : VPNUserConfig} :
    user ∈ byEmail users ↔ user ∈ users := mem_insertionSort _

theorem emails_addUnseen : email ∈ (addUnseen users user).map (·.email) ↔
      email ∈ users.map (·.email) ∨ (email ≠ "" ∧ user.email = email) := by
  unfold addUnseen
  split
  · rename_i h
    constructor
    · exact .inl
    rintro (hmem | ⟨hne, rfl⟩)
    · exact hmem
    · exact h.resolve_left hne
  · rename_i h
    rw [not_or] at h
    simp only [map_append, mem_append, map_cons, map_nil, mem_singleton]
    constructor
    · rintro (hmem | rfl)
      · exact .inl hmem
      · exact .inr ⟨h.1, rfl⟩
    rintro (hmem | ⟨-, rfl⟩)
    · exact .inl hmem
    · exact .inr rfl

theorem emails_foldl_addUnseen {added : List VPNUserConfig} : email ∈ (added.foldl addUnseen users).map (·.email) ↔
      email ∈ users.map (·.email) ∨ (email ≠ "" ∧ email ∈ added.map (·.email)) := by
  induction added generalizing users with
  | nil => simp
  | cons user added ih =>
    rw [foldl_cons, ih, emails_addUnseen, map_cons, mem_cons, eq_comm (a := email)]
    tauto

/-- The email of a template user that is neither blacklisted nor taken by a row. -/
def TemplateListed (env : SnapshotEnv) (s : Store) (email : String) : Prop :=
  email ≠ "" ∧ (∃ template, env.template = some template ∧ ∃ user ∈ template, user.email = email) ∧
    (∀ admin ∈ env.blacklistedAdmins, trimSpace admin ≠ email) ∧
    ∀ sub, Listed env s sub → trimSpace sub.email ≠ email

theorem emails_databaseUsers :
    email ∈ (databaseUsers env s).map (·.email) ↔ ∃ sub, Listed env s sub ∧ sub.email = email := by
  simp only [mem_map, mem_databaseUsers]
  constructor
  · rintro ⟨_, ⟨sub, hsub, rfl⟩, rfl⟩
    exact ⟨sub, hsub, rfl⟩
  · rintro ⟨sub, hsub, rfl⟩
    exact ⟨_, ⟨sub, hsub, rfl⟩, rfl⟩

theorem emails_templateUsers {tmpl : List VPNUserConfig} (htem : env.template = some tmpl) (hem : email ≠ "") :
    email ∈ (templateUsers env tmpl (databaseUsers env s)).map (·.email) ↔ TemplateListed env s email := by
  simp only [templateUsers, TemplateListed, htem, mem_map, mem_byEmail, mem_filter, Bool.and_eq_true,
    Bool.not_eq_true', contains_eq_mem, decide_eq_false_iff_not, mem_databaseUsers]
  constructor
  · rintro ⟨user, ⟨hu, hman, hbl⟩, rfl⟩
    refine ⟨hem, ⟨tmpl, rfl, user, hu, rfl⟩, ?_, ?_⟩
    · exact fun admin had heq => hbl ⟨admin, had, heq⟩
    · exact fun sub hsub heq => hman ⟨_, ⟨sub, hsub, rfl⟩, heq⟩
  · rintro ⟨-, ⟨_, ⟨⟩, user, hu, rfl⟩, hbl, hman⟩
    refine ⟨user, ⟨hu, ?_, ?_⟩, rfl⟩
    · rintro ⟨_, ⟨sub, hsub, rfl⟩, heq⟩
      exact hman sub hsub heq
    · rintro ⟨admin, had, heq⟩
      exact hbl admin had heq

/-- A snapshot lists the rows that pass the filter and the template users whose emails are free. -/
theorem emails_snapshot (h : buildSnapshot env s = .ok users) :
    email ∈ users.map (·.email) ↔ (∃ sub, Listed env s sub ∧ sub.email = email) ∨ TemplateListed env s email := by
  have hsor (users : List VPNUserConfig) :
      email ∈ (byEmail users).map (·.email) ↔ email ∈ users.map (·.email) := by simp
  unfold buildSnapshot at h
  split at h
  · cases h
  split at h
  · rename_i htem
    cases h
    rw [hsor, emails_databaseUsers]
    simp [TemplateListed, htem]
  · rename_i tmpl htem
    split at h
    · cases h
    cases h
    rw [hsor, emails_foldl_addUnseen, emails_databaseUsers]
    refine or_congr Iff.rfl ?_
    constructor
    · rintro ⟨hem, hmem⟩
      exact (emails_templateUsers htem hem).1 hmem
    · intro hlis
      exact ⟨hlis.1, (emails_templateUsers htem hlis.1).2 hlis⟩

theorem buildSnapshot_fails_iff : (¬ ∃ users, buildSnapshot env s = .ok users) ↔
    env.fails .findSubscriptions ∨ (env.template.isSome ∧ env.fails .templateUsers) := by
  unfold buildSnapshot
  cases env.fails .findSubscriptions <;> cases env.template <;> cases env.fails .templateUsers <;> simp

/-- A snapshot that is built has no refused email exactly when the queries behind the filter that would report
the refused rows succeed, and no refused email is taken over from the template. -/
theorem snapshot_excludes_refused_iff (env : SnapshotEnv) (s : Store) :
    (∀ users, buildSnapshot env s = .ok users → ∀ user ∈ users, ¬ s.Refused env.now user.email) ↔
      env.fails .findSubscriptions ∨ (env.template.isSome ∧ env.fails .templateUsers) ∨
        ((∀ sub ∈ s.subscriptions.rows, replicated sub → s.Refused env.now sub.email → Filtered env s sub.email) ∧
          ∀ email, s.Refused env.now email → ¬ TemplateListed env s email) := by
  rw [← or_assoc, ← buildSnapshot_fails_iff]
  constructor
  · intro h
    by_cases hbu : ∃ users, buildSnapshot env s = .ok users
    · obtain ⟨users, hus⟩ := hbu
      have hcl : ∀ email ∈ users.map (·.email), ¬ s.Refused env.now email := by
        intro email hem
        obtain ⟨user, hu, rfl⟩ := mem_map.1 hem
        exact h users hus user hu
      refine .inr ⟨?_, ?_⟩
      · intro sub hsub hrep href
        by_contra hfil
        exact hcl sub.email ((emails_snapshot hus).2 (.inl ⟨sub, ⟨hsub, hrep, hfil⟩, rfl⟩)) href
      · exact fun email href hlis => hcl email ((emails_snapshot hus).2 (.inr hlis)) href
    · exact .inl hbu
  · rintro (hfa | ⟨hro, htem⟩) users hus user hu href
    · exact hfa ⟨users, hus⟩
    · rcases (emails_snapshot hus).1 (mem_map_of_mem hu) with ⟨sub, hsub, heq⟩ | hlis
      · rw [← heq] at href
        exact hsub.2.2 (hro sub hsub.1 hsub.2.1 href)
      · exact htem _ href hlis

def blockedOwnerStore : Store where
  users := .single { id := "u1", isBlocked := true }
  subscriptions := .single { id := "s1", userID := "u1", email := "a@x", uuid := "uuid-1", status := "active" }

def lostFilterEnv : SnapshotEnv where
  ext := noExternals
  fails op := decide (op = .findUsers)

theorem blocked_user_replicated :
    ∃ users, buildSnapshot lostFilterEnv blockedOwnerStore = .ok users ∧
      ∃ user ∈ users, blockedOwnerStore.Refused lostFilterEnv.now user.email := by
  refine ⟨_, rfl, _, mem_cons_self, .inl ?_⟩
  decide

/-! The journal after a change of one user. The event is built from the database before the row is written, so journal
and row agree only when the change does not show in the replicated user. -/

open Fallible Keyed UserManagement

section Entry

variable {added : List VPNUserConfig} {sub : Subscription}

theorem nodup_addUnseen (h : (users.map (·.email)).Nodup) : ((addUnseen users user).map (·.email)).Nodup := by
  unfold addUnseen
  split
  · exact h
  rename_i hfr
  rw [not_or] at hfr
  rw [map_append, nodup_append]
  refine ⟨h, by simp, ?_⟩
  rintro email hmem _ hsin rfl
  rw [map_singleton, mem_singleton] at hsin
  exact hfr.2 (hsin ▸ hmem)

theorem nodup_foldl_addUnseen (h : (users.map (·.email)).Nodup) :
    ((added.foldl addUnseen users).map (·.email)).Nodup := by
  induction added generalizing users with
  | nil => exact h
  | cons user added ih => exact ih (nodup_addUnseen h)

theorem entry_addUnseen (hem : email ≠ "") : entry VPNUserConfig.email (addUnseen users user) email =
      (entry VPNUserConfig.email users email).or (entry VPNUserConfig.email [user] email) := by
  unfold addUnseen
  split
  · rename_i h
    by_cases heq : user.email = email
    · -- the email is taken
      have hmem : email ∈ users.map (·.email) := heq ▸ h.resolve_left (heq ▸ hem)
      obtain ⟨other, ho⟩ := Option.ne_none_iff_exists'.1 (mt entry_eq_none.1 (not_not.2 hmem))
      simp [ho]
    · have hn : entry VPNUserConfig.email [user] email = none := by simp [entry, heq]
      simp [hn]
  · exact entry_append

theorem entry_foldl_addUnseen (hem : email ≠ "") : entry VPNUserConfig.email (added.foldl addUnseen users) email =
      (entry VPNUserConfig.email users email).or (entry VPNUserConfig.email added email) := by
  induction added generalizing users with
  | nil => simp [entry]
  | cons user added ih =>
    have hco : entry VPNUserConfig.email (user :: added) email =
        (entry VPNUserConfig.email [user] email).or (entry VPNUserConfig.email added email) := entry_append (l := [user])
    rw [foldl_cons, ih, entry_addUnseen hem, hco, Option.or_assoc]

theorem nodup_databaseUsers : ((databaseUsers env s).map (·.email)).Nodup := by
  have hdis : s.subscriptions.rows.Pairwise fun a b => a.email ≠ b.email :=
    s.subscriptions.distinct.imp fun h heq => h (.inr (.inl heq))
  exact pairwise_map.2 (pairwise_map.2 (hdis.filter _))

def templateEntry (env : SnapshotEnv) (s : Store) (email : String) : Option VPNUserConfig :=
  env.template.bind fun template => entry VPNUserConfig.email (templateUsers env template (databaseUsers env s)) email

theorem entry_snapshot (h : buildSnapshot env s = .ok users) (hem : email ≠ "") :
    entry VPNUserConfig.email users email =
      (entry VPNUserConfig.email (databaseUsers env s) email).or (templateEntry env s email) := by
  have hsor {users : List VPNUserConfig} (hno : (users.map (·.email)).Nodup) :
      entry VPNUserConfig.email (byEmail users) email = entry VPNUserConfig.email users email :=
    (entry_perm hno (perm_insertionSort _ _).symm).symm
  unfold buildSnapshot at h
  split at h
  · cases h
  split at h
  · rename_i htem
    cases h
    simp [hsor nodup_databaseUsers, templateEntry, htem]
  rename_i tmpl htem
  split at h
  · cases h
  cases h
  rw [hsor (nodup_foldl_addUnseen nodup_databaseUsers), entry_foldl_addUnseen hem,
    templateEntry, htem, Option.bind_some]

theorem entry_of_listed (h : Listed env s sub) :
    entry VPNUserConfig.email (databaseUsers env s) sub.email = some (subscriptionToVPNUserConfig env.ext sub) :=
  (entry_eq_some nodup_databaseUsers).2 ⟨mem_databaseUsers.2 ⟨sub, h, rfl⟩, rfl⟩

theorem entry_of_not_listed (hsub : sub ∈ s.subscriptions.rows) (h : ¬ Listed env s sub) :
    entry VPNUserConfig.email (databaseUsers env s) sub.email = none := by
  rw [entry_eq_none, emails_databaseUsers]
  rintro ⟨sub', hlis, heq⟩
  -- the email is unique, so the listed row would be this one
  have hsa : sub' = sub := s.subscriptions.eq_of_clash hlis.1 hsub (.inr (.inl heq))
  exact h (hsa ▸ hlis)

/-- A snapshot is determined by the rows and the template: its emails are distinct and in order, they are those of the rows
that pass the filter and the free ones of the template, and each of these rows is listed as it is stored. -/
theorem snapshot_canonical (env : SnapshotEnv) (s : Store) (users : List VPNUserConfig)
    (h : buildSnapshot env s = .ok users) : (users.map (·.email)).Nodup ∧ users.Pairwise (·.email ≤ ·.email) ∧
      (∀ email, email ∈ users.map (·.email) ↔
        (∃ sub, Listed env s sub ∧ sub.email = email) ∨ TemplateListed env s email) ∧
      ∀ sub, Listed env s sub → subscriptionToVPNUserConfig env.ext sub ∈ users := by
  have hby : ∃ base, byEmail base = users ∧ (base.map (·.email)).Nodup := by
    unfold buildSnapshot at h
    split at h
    · cases h
    split at h
    · exact ⟨_, Except.ok.inj h, nodup_databaseUsers⟩
    split at h
    · cases h
    · exact ⟨_, Except.ok.inj h, nodup_foldl_addUnseen nodup_databaseUsers⟩
  obtain ⟨base, rfl, hno⟩ := hby
  have hnod : ((byEmail base).map (·.email)).Nodup := ((perm_insertionSort _ base).map _).nodup_iff.2 hno
  refine ⟨hnod, pairwise_insertionSort _ base, fun _ => emails_snapshot h, fun sub hli => ?_⟩
  have hent := entry_snapshot h (replicated_email hli.2.1)
  rw [entry_of_listed hli, Option.some_or] at hent
  exact ((entry_eq_some hnod).1 hent).1

theorem snapshot_canonical_one : ∃ users, buildSnapshot lostFilterEnv blockedOwnerStore = .ok users ∧
    (users.map (·.email)).Nodup :=
  ⟨_, rfl, (snapshot_canonical lostFilterEnv blockedOwnerStore _ rfl).1⟩

end Entry

def Master.lastEvent (m : Master) (email : String) : Option JournalEvent :=
  (m.journal.entries.reverse.find? fun e => e.2.write.map Prod.fst == some email).map (·.2)

theorem lastEvent_publish {m : Master} {event : JournalEvent} {email : String} (h : event.write.map Prod.fst = some email) :
    (m.publish event).lastEvent email = some event := by
  have hent : (m.publish event).journal.entries = m.journal.entries ++ [(m.journal.top + 1, event)] := rfl
  simp [Master.lastEvent, hent, h]

/-- The last journal event for the email is an upsert of the row now stored. -/
def Agrees (ext : Externals) (h : Host) (email : String) : Prop :=
  ∃ row, h.store.findLatestByEmail email = .ok row ∧
    h.replication.lastEvent email = some (.upsert (subscriptionToVPNUserConfig ext row))

structure AllSucceed (env : UserEnv) : Prop where
  service : ∀ op, env.fails op = false
  snapshot : ∀ op, env.snapshot.fails op = false

/-- A change that leaves the indexed columns of a row alone. -/
def KeepsIdentity (change : Subscription → Subscription) : Prop :=
  ∀ sub, (change sub).id = sub.id ∧ (change sub).email = sub.email ∧ (change sub).uuid = sub.uuid

section Change

variable {env : UserEnv} {h h' : Host} {sub : Subscription} {change : Subscription → Subscription}

def stamped (now : Time) (sub : Subscription) : Subscription := { sub with updatedAt := now }

theorem changeRow_row (hok : AllSucceed env) (hcha : KeepsIdentity change) (hsub : sub ∈ h.store.subscriptions.rows) :
    (changeRow env sub.email change h.store).findLatestByEmail sub.email =
      .ok (stamped env.snapshot.now (change sub)) := by
  obtain ⟨hid, hem, huu⟩ := hcha sub
  have hrow : (change sub).overwrite env.snapshot.now sub = stamped env.snapshot.now (change sub) := by
    simp [Subscription.overwrite, stamped, ← hid, ← hem, ← huu]
  have hmem : stamped env.snapshot.now (change sub) ∈
      (h.store.saveSubscription env.snapshot.now (change sub)).subscriptions.rows := by
    refine (Table.mem_updateWhere (Subscription.keeps_overwrite _ _)).2 ⟨sub, hsub, ?_⟩
    rw [if_pos (beq_iff_eq.2 hid.symm), hrow]
  rw [changeRow, hok.service, issue_false, findLatestByEmail_of_mem hsub]
  dsimp only
  rw [hok.service, if_neg Bool.false_ne_true, ← hem]
  exact findLatestByEmail_of_mem hmem

/-- What a change records: the entry of the email in a snapshot of the database before the row is written. -/
theorem changeUser_lastEvent {email : String} (hem : email ≠ "") (hcha : changeUser env email change false h = .ok h') :
    h'.store = changeRow env email change h.store ∧ h'.replication.lastEvent email = some
        (match (entry VPNUserConfig.email (databaseUsers env.snapshot h.store) email).or
            (templateEntry env.snapshot h.store email) with
          | some user => .upsert user
          | none => .remove email) := by
  simp only [changeUser, publishChange, publishCurrentUser, bind_eq_ok, issue_eq_ok, Except.ok.injEq] at hcha
  obtain ⟨published, ⟨-, -, users, hus, -, rfl⟩, rfl⟩ := hcha
  refine ⟨rfl, ?_⟩
  rw [← entry_snapshot hus hem]
  refine lastEvent_publish ?_
  change (match entry VPNUserConfig.email users email with
    | some user => JournalEvent.upsert user
    | none => .remove email).write.map Prod.fst = some email
  cases hen : entry VPNUserConfig.email users email with
  | none => rfl
  | some user => exact congrArg some (of_entry hen).2

/-- With every call succeeding, an active row of an unblocked owner is listed unless it has no UUID or is banned. -/
theorem listed_iff (hok : AllSucceed env) (hsub : sub ∈ h.store.subscriptions.rows) (hact : sub.status = "active")
    (how : h.store.ownerBlocked sub.email = false) (hem : sub.email ≠ "") :
    Listed env.snapshot h.store sub ↔ sub.uuid ≠ "" ∧ h.store.bannedAt env.snapshot.now sub.email = false := by
  simp [Listed, hsub, replicated, hact, hem, Filtered, hok.snapshot, how]

/-- After a change the journal agrees with the row exactly when the user recorded from the old row, or from the
template if the row is not listed, is the user of the new row. -/
theorem changeUser_agrees_iff (hok : AllSucceed env) (hcha : KeepsIdentity change)
    (hsub : sub ∈ h.store.subscriptions.rows) (hact : sub.status = "active")
    (how : h.store.ownerBlocked sub.email = false) (hem : sub.email ≠ "")
    (hchan : changeUser env sub.email change false h = .ok h') :
    Agrees env.snapshot.ext h' sub.email ↔ (sub.uuid ≠ "" ∧ h.store.bannedAt env.snapshot.now sub.email = false ∧
        subscriptionToVPNUserConfig env.snapshot.ext (change sub) = subscriptionToVPNUserConfig env.snapshot.ext sub) ∨
      (¬ (sub.uuid ≠ "" ∧ h.store.bannedAt env.snapshot.now sub.email = false) ∧
        templateEntry env.snapshot h.store sub.email =
          some (subscriptionToVPNUserConfig env.snapshot.ext (change sub))) := by
  obtain ⟨hst, hla⟩ := changeUser_lastEvent hem hchan
  have hrow := changeRow_row hok hcha hsub
  have hsh : subscriptionToVPNUserConfig env.snapshot.ext (stamped env.snapshot.now (change sub)) =
      subscriptionToVPNUserConfig env.snapshot.ext (change sub) := rfl
  have hagr : Agrees env.snapshot.ext h' sub.email ↔ h'.replication.lastEvent sub.email =
      some (.upsert (subscriptionToVPNUserConfig env.snapshot.ext (change sub))) := by
    rw [Agrees, hst, hrow]
    simp [hsh]
  rw [hagr, hla, ← listed_iff hok hsub hact how hem, ← and_assoc, ← listed_iff hok hsub hact how hem]
  by_cases hlis : Listed env.snapshot h.store sub
  · rw [entry_of_listed hlis]
    simp [hlis, eq_comm]
  · rw [entry_of_not_listed hsub hlis]
    cases templateEntry env.snapshot h.store sub.email <;> simp [hlis]

end Change

variable {ext : Externals} {expire : String} {limit : Int} {sub : Subscription}

theorem keepsIdentity_expireRow : KeepsIdentity (expireRow ext expire) := by
  intro sub
  unfold expireRow
  split
  · exact ⟨rfl, rfl, rfl⟩
  · split <;> exact ⟨rfl, rfl, rfl⟩

theorem keepsIdentity_limitRow : KeepsIdentity (limitRow limit) := fun _ => ⟨rfl, rfl, rfl⟩

/-- The end of a subscription as the replicated user shows it. -/
def endText (sub : Subscription) : String := (sub.endsAt.map Time.formatDay).getD ""

theorem expireRow_shown :
    subscriptionToVPNUserConfig ext (expireRow ext expire sub) = subscriptionToVPNUserConfig ext sub ↔
      getMetadataString sub.metadata "expire" ≠ "" ∨ endText (expireRow ext expire sub) = endText sub := by
  obtain ⟨endsAt, hrow⟩ : ∃ endsAt, expireRow ext expire sub = { sub with endsAt := endsAt } := by
    unfold expireRow
    split
    · exact ⟨_, rfl⟩
    split
    · exact ⟨_, rfl⟩
    · exact ⟨sub.endsAt, rfl⟩
  rw [hrow]
  by_cases hme : getMetadataString sub.metadata "expire" = ""
  · simp [subscriptionToVPNUserConfig, hme, endText]
  · simp [subscriptionToVPNUserConfig, hme]

theorem limitRow_shown : subscriptionToVPNUserConfig ext (limitRow limit sub) = subscriptionToVPNUserConfig ext sub ↔
      limit = sub.maxDevices := by
  have hrow : subscriptionToVPNUserConfig ext (limitRow limit sub) =
      { subscriptionToVPNUserConfig ext sub with maxDevices := limit } := rfl
  constructor
  · exact congrArg VPNUserConfig.maxDevices
  · rintro rfl
    rfl

/-- After `SetExpire` or `UpdateLimit` of a stored active subscription of an unblocked user, all calls having
succeeded, the journal agrees with the row exactly when the change does not show in the user of the row: the
limit is the old one, or the end reads the same to the day or is overridden by the metadata. A row without UUID
or with a ban is not listed; then the template decides. -/
theorem journal_agrees_iff (env : UserEnv) (h h' : Host) (sub : Subscription) (hok : AllSucceed env)
    (hsub : sub ∈ h.store.subscriptions.rows) (hactive : sub.status = "active")
    (howner : h.store.ownerBlocked sub.email = false) :
    (∀ req : SetExpireRequest, requestEmail req.email req.name = sub.email → req.skipDB = false →
      setExpire env req h = .ok h' →
      (Agrees env.snapshot.ext h' sub.email ↔
        (sub.uuid ≠ "" ∧ h.store.bannedAt env.snapshot.now sub.email = false ∧
          (getMetadataString sub.metadata "expire" ≠ "" ∨
            endText (expireRow env.snapshot.ext req.expire sub) = endText sub)) ∨
        (¬ (sub.uuid ≠ "" ∧ h.store.bannedAt env.snapshot.now sub.email = false) ∧
          templateEntry env.snapshot h.store sub.email =
            some (subscriptionToVPNUserConfig env.snapshot.ext (expireRow env.snapshot.ext req.expire sub))))) ∧
    (∀ (req : UpdateLimitRequest) (limit : Rat), requestEmail req.email req.name = sub.email → req.skipDB = false →
      req.limit = some limit → updateLimit env req h = .ok h' →
      (Agrees env.snapshot.ext h' sub.email ↔
        (sub.uuid ≠ "" ∧ h.store.bannedAt env.snapshot.now sub.email = false ∧
          (Number.float limit).toInt = sub.maxDevices) ∨
        (¬ (sub.uuid ≠ "" ∧ h.store.bannedAt env.snapshot.now sub.email = false) ∧
          templateEntry env.snapshot h.store sub.email =
            some (subscriptionToVPNUserConfig env.snapshot.ext (limitRow (Number.float limit).toInt sub))))) := by
  constructor
  · intro req hreq hsk hset
    rw [setExpire, hreq, hsk] at hset
    split at hset
    · cases hset
    rename_i hgi
    rw [not_or] at hgi
    rw [changeUser_agrees_iff hok keepsIdentity_expireRow hsub hactive howner hgi.1 hset, expireRow_shown]
  · intro req limit hreq hsk hli hset
    rw [updateLimit, hreq, hsk, hli] at hset
    dsimp only at hset
    split at hset
    · cases hset
    · rename_i hem
      rw [changeUser_agrees_iff hok keepsIdentity_limitRow hsub hactive howner hem hset, limitRow_shown]

def limitedSub : Subscription where
  id := "s1"
  userID := "u1"
  email := "a@x"
  uuid := "uuid-1"
  status := "active"

def limitedHost : Host where
  store := {
    users := .single { id := "u1" }
    subscriptions := .single limitedSub }
  replication := {}

def quietEnv : UserEnv where
  snapshot := { ext := noExternals }

theorem journal_agrees_iff_same_limit :
    ∃ h', updateLimit quietEnv { email := "a@x", limit := some 3 } limitedHost = .ok h' ∧
      Agrees quietEnv.snapshot.ext h' "a@x" := by
  refine ⟨_, rfl, ?_⟩
  have hiff := (journal_agrees_iff quietEnv limitedHost _ limitedSub ⟨fun _ => rfl, fun _ => rfl⟩
    mem_cons_self rfl (by decide)).2 { email := "a@x", limit := some 3 } 3 rfl rfl rfl rfl
  exact hiff.2 (.inl (by decide))

/-- The limit is raised to 5; the row has it, and the last event still says 3. -/
theorem journal_disagrees_after_limit :
    ∃ h', updateLimit quietEnv { email := "a@x", limit := some 5 } limitedHost = .ok h' ∧
      ¬ Agrees quietEnv.snapshot.ext h' "a@x" := by
  refine ⟨_, rfl, ?_⟩
  rintro ⟨row, hrow, hla⟩
  have hfi : row = { limitedSub with maxDevices := 5 } := ok_unique hrow rfl
  subst hfi
  revert hla
  decide

end Xraytool
