import Xraytool.Sanity.Payments
import Xraytool.Spec.Identity

/-! One account for each identity. Neither a Telegram id nor an email has a unique index, and a link does not take the
mutex of registrations. Nor does a registration notice a Telegram username that is an email, a failed lookup, or a
Telegram id that changes when it is read as a float64. -/

namespace Xraytool.Identity

open ReadCommitted Transition List Option Versions Function Identity.Scene

variable {u : User} {email : String} {id : String}

theorem foundBy_telegram : foundBy "telegram" id u = match u.metadata.lookup "telegram_id" with
      | some (.num n) => n == .float (parseInt64 id) || n == .int (parseInt64 id)
      | some (.str t) => t == id
      | _ => false := rfl

theorem foundBy_web :
    foundBy "web" email u = (u.metadata.lookup "email" == some (.str email) || u.username == email) := rfl

theorem lookup_decoded {key : String} :
    (decoded u).metadata.lookup key = (u.metadata.lookup key).map Json.readBack := lookup_readBackFields

/-- The Telegram id of the row is not changed when it is read. -/
def Exact (u : User) : Prop :=
  ∀ n, u.metadata.lookup "telegram_id" = some (.num (.int n)) → float64OfInt n = n

theorem exact_decoded : Exact (decoded u) := by
  intro n hn
  rw [lookup_decoded, map_eq_some_iff] at hn
  obtain ⟨v, -, hv⟩ := hn
  cases v with
  | num m => cases m <;> cases hv
  | _ => cases hv

theorem foundBy_web_decoded : foundBy "web" email (decoded u) = foundBy "web" email u := by
  rw [foundBy_web, foundBy_web, lookup_decoded]
  rcases u.metadata.lookup "email" with - | v
  · rfl
  · cases v <;> rfl

theorem foundBy_telegram_decoded (h : Exact u) : foundBy "telegram" id (decoded u) = foundBy "telegram" id u := by
  rw [foundBy_telegram, foundBy_telegram, lookup_decoded]
  rcases hv : u.metadata.lookup "telegram_id" with - | v
  · rfl
  cases v with
  | num n =>
    cases n with
    | float q => rfl
    | int n =>
      simp only [map_some, Json.readBack, Number.readBack, h n hv]
      rw [Bool.eq_iff_iff]
      simp
  | _ => rfl

/-- A row with a number is found by the text of this number only. -/
theorem foundBy_number {n m : Int64} (h : u.metadata.lookup "telegram_id" = some (.num (.int n.toInt)))
    (hm : foundBy "telegram" (toString m.toInt) u = true) : m = n := by
  rw [foundBy_telegram, h, parseInt64_toString (Int64.le_toInt m) (Int64.toInt_lt m)] at hm
  simp only [Bool.or_eq_true, beq_iff_eq, reduceCtorEq, false_or, Number.int.injEq] at hm
  exact (Int64.toInt_inj.1 hm).symm

structure OneAccount (f : String → Option User) : Prop where
  keyed : ∀ k u, f k = some u → u.id = k
  exact : ∀ k u, f k = some u → Exact u
  telegram : ∀ n : Int64, Single (foundBy "telegram" (toString n.toInt)) f
  web : ∀ email, email ≠ "" → Single (foundBy "web" email) f

variable {f : String → Option User} {k : String}

theorem OneAccount.erase (h : OneAccount f) (k : String) : OneAccount (update f k none) :=
  ⟨fun k' u hu => h.keyed k' u (update_none_eq_some hu).2, fun k' u hu => h.exact k' u (update_none_eq_some hu).2,
    fun n => (h.telegram n).erase k, fun email he => (h.web email he).erase k⟩

theorem OneAccount.write (h : OneAccount f) (hid : u.id = k) (hex : Exact u)
    (htel : ∀ n : Int64, foundBy "telegram" (toString n.toInt) u = true →
      ∀ k' u', k' ≠ k → f k' = some u' → foundBy "telegram" (toString n.toInt) u' = false)
    (hweb : ∀ email, email ≠ "" → foundBy "web" email u = true →
      ∀ k' u', k' ≠ k → f k' = some u' → foundBy "web" email u' = false) :
    OneAccount (update f k (some u)) := by
  refine ⟨fun k' u' hu' => ?_, fun k' u' hu' => ?_, fun n => (h.telegram n).write (htel n),
    fun email he => (h.web email he).write (hweb email he)⟩
  all_goals by_cases hk : k' = k
  · rw [hk, update_self] at hu'
    rw [hk, ← hid, ← Option.some.inj hu']
  · rw [update_of_ne hk] at hu'
    exact h.keyed k' u' hu'
  · rw [hk, update_self] at hu'
    rwa [← Option.some.inj hu']
  · rw [update_of_ne hk] at hu'
    exact h.exact k' u' hu'

def Reads (f : String → Option User) (u : User) : Prop := ∃ row, f u.id = some row ∧ u = decoded row

variable {linked webUser tgUser u' : User} {email k' id plat tgUserID : String}

theorem Reads.telegram (h : OneAccount f) (hr : Reads f u) (n : Int64)
    (hu : foundBy "telegram" (toString n.toInt) u = true) (hk : k' ≠ u.id) (hu' : f k' = some u') :
    foundBy "telegram" (toString n.toInt) u' = false := by
  obtain ⟨row, hrow, hdec⟩ := hr
  rw [hdec, foundBy_telegram_decoded (h.exact _ row hrow)] at hu
  exact (h.telegram n).eq_false hrow hu hk hu'

theorem Reads.web (h : OneAccount f) (hr : Reads f u) (he : email ≠ "") (hu : foundBy "web" email u = true)
    (hk : k' ≠ u.id) (hu' : f k' = some u') : foundBy "web" email u' = false := by
  obtain ⟨row, hrow, hdec⟩ := hr
  rw [hdec, foundBy_web_decoded] at hu
  exact (h.web email he).eq_false hrow hu hk hu'

theorem Reads.exact (hr : Reads f u) : Exact u := by
  obtain ⟨row, -, hdec⟩ := hr
  rw [hdec]
  exact exact_decoded

/-- A Telegram id is kept by the decoder, and the username of its registration is no one's email. -/
def Registration.Fits (f : String → Option User) : Registration → Prop
  | .telegram _ telegramID username _ => float64OfInt telegramID.toInt = telegramID.toInt ∧
    (username ≠ "" → ∀ k u, f k = some u → foundBy "web" username u = false)
  | .web _ _ => True

theorem OneAccount.register (h : OneAccount f) {r : Registration}
    (hnew : ∀ k u, f k = some u → foundBy r.platform r.id u = false) (hfi : r.Fits f) :
    OneAccount (update f r.user.id (some r.user)) := by
  cases r with
  | telegram uid telegramID username telegramUsername =>
    obtain ⟨hex, huse⟩ := hfi
    refine h.write rfl (fun n hn => ?_) (fun n hn k' u' _ hu' => ?_) fun email he hem k' u' _ hu' => ?_
    · obtain rfl := Number.int.inj (Json.num.inj (Option.some.inj hn))
      exact hex
    · obtain rfl := foundBy_number rfl hn
      exact hnew k' u' hu'
    · obtain rfl : username = email := beq_iff_eq.1 hem
      exact huse he k' u' hu'
  | web uid addr =>
    refine h.write rfl (fun n hn => by cases hn) (fun n hn => ?_) fun email he hem k' u' _ hu' => ?_
    · cases hn
    have hadd : addr = email := by
      rw [foundBy_web] at hem
      simpa [Registration.user, lookup_cons] using hem
    obtain rfl := hadd
    exact hnew k' u' hu'

theorem takeTelegram_eq_ok (h : takeTelegram tgUser webUser = .ok linked) :
    linked.id = webUser.id ∧ linked.username = webUser.username ∧
      linked.metadata.lookup "email" = webUser.metadata.lookup "email" ∧
      linked.metadata.lookup "telegram_id" = tgUser.metadata.lookup "telegram_id" := by
  unfold takeTelegram at h
  split at h
  · cases h
  · cases h
  rename_i id hid
  rw [hid]
  split at h
  all_goals
    cases h
    simp [Assoc.lookup_put]

theorem OneAccount.linkTelegram (h : OneAccount f) (hweb : Reads f webUser) (htg : Reads f tgUser)
    (hne : webUser.id ≠ tgUser.id) (hta : takeTelegram tgUser webUser = .ok linked) :
    OneAccount (update (update f linked.id (some linked)) tgUser.id none) := by
  obtain ⟨hid, huse, hem, htel⟩ := takeTelegram_eq_ok hta
  rw [hid, update_comm hne]
  have htel (id : String) : foundBy "telegram" id linked = foundBy "telegram" id tgUser := by
    rw [foundBy_telegram, htel, foundBy_telegram]
  have hsa (email : String) : foundBy "web" email linked = foundBy "web" email webUser := by
    rw [foundBy_web, hem, huse, foundBy_web]
  refine (h.erase tgUser.id).write hid (fun n hn => ?_) (fun n hn k' u' hk hu' => ?_)
    fun email he hem k' u' hk hu' => ?_
  · exact htg.exact n (by rw [← hn, (takeTelegram_eq_ok hta).2.2.2])
  · -- without the Telegram account no row is found by its id
    rw [htel] at hn
    exact htg.telegram h n hn (update_none_eq_some hu').1 (update_none_eq_some hu').2
  · rw [hsa] at hem
    exact hweb.web h he hem hk (update_none_eq_some hu').2

theorem OneAccount.linkEmail (h : OneAccount f) (htg : Reads f tgUser)
    (hno : email ≠ "" → ∀ k' u', k' ≠ tgUser.id → f k' = some u' → foundBy "web" email u' = false) :
    OneAccount (update f tgUser.id (some (tgUser.putEmail email))) := by
  have htel (id : String) : foundBy "telegram" id (tgUser.putEmail email) = foundBy "telegram" id tgUser := by
    rw [foundBy_telegram, User.putEmail, Assoc.lookup_put, if_neg (by decide), foundBy_telegram]
  refine h.write rfl (fun n hn => ?_) (fun n hn k' u' hk hu' => ?_) fun addr he hem k' u' hk hu' => ?_
  · rw [User.putEmail, Assoc.lookup_put, if_neg (by decide)] at hn
    exact htg.exact n hn
  · rw [htel] at hn
    exact htg.telegram h n hn hk hu'
  rw [foundBy_web, User.putEmail, Assoc.lookup_put, if_pos rfl, Bool.or_eq_true] at hem
  rcases hem with hem | huse
  · obtain rfl : email = addr := by simpa using hem
    exact hno he k' u' hk hu'
  refine htg.web h he ?_ hk hu'
  rw [foundBy_web, Bool.or_eq_true]
  exact .inr huse

variable {st st' : Scene} {i j : Nat} {point now : Point} {r : Registration}

/-- The calls at work: the registration with the mutex, and the links. -/
def Scene.inside (st : Scene) : List Nat := st.mutex.toList ++ st.links

def Scene.view (st : Scene) (i : Nat) : String → Option User := fun k => st.users.get i k

def Scene.Admits (st : Scene) (i : Nat) : Registration → Prop
  | .telegram _ telegramID username _ => float64OfInt telegramID.toInt = telegramID.toInt ∧
    (username ≠ "" → st.users.select i (foundBy "web" username) = [])
  | .web _ _ => True

instance (st : Scene) (i : Nat) (r : Registration) : Decidable (st.Admits i r) := by
  cases r <;> unfold Scene.Admits <;> infer_instance

/-- A call goes to work when no other is at work, and a registration looks up its account without an error and only if
it is admitted. -/
def Careful (st : Scene) (l : Nat × Action) : Prop := match l.2, st.calls l.1 with
  | .linkTelegramAccount _ _, _ | .linkEmailAccount _ _, _ | .statement _, .lock _ => st.inside = []
  | .statement _, .find r => st.Admits l.1 r
  | .failure, .find _ => False
  | _, _ => True

instance (st : Scene) (l : Nat × Action) : Decidable (Careful st l) := by
  unfold Careful
  split <;> infer_instance

def Point.working : Point → Bool
  | .idle | .lock _ => false
  | _ => true

def Point.holds : Point → Bool
  | .createSubscription _ | .commitCreate _ | .deleteTgUser _ | .updateTgUser _ | .commitLink => true
  | _ => false

/-- What the call is about to write before it commits. -/
def Point.pending : Point → List (String × Option User)
  | .create r => [(r.user.id, some r.user)]
  | .updateWebUser linked tgUserID => [(linked.id, some linked), (tgUserID, none)]
  | .deleteTgUser tgUserID => [(tgUserID, none)]
  | .requireBareWeb linked webUserID | .deleteWebUser linked webUserID => [(webUserID, none), (linked.id, some linked)]
  | .updateTgUser linked => [(linked.id, some linked)]
  | _ => []

/-- The table as the call will see it when it commits. -/
def planned (f : String → Option User) (point : Point) : String → Option User :=
  point.pending.foldl (fun f w => Function.update f w.1 w.2) f

def Knows (f : String → Option User) : Point → Prop
  | .findTgUser webUser _ => Reads f webUser
  | .requireBareTg webUser tgUser => Reads f webUser ∧ Reads f tgUser ∧ webUser.id ≠ tgUser.id
  | .findByEmail tgUser _ => Reads f tgUser
  | _ => True

/-- Only one call is at work, and what it has planned leaves one account for each identity. -/
structure Separate (st : Scene) : Prop where
  solo : ∀ a ∈ st.inside, ∀ b ∈ st.inside, a = b
  inside : ∀ j, (st.calls j).working = true → j ∈ st.inside
  held : ∀ k j, (st.users.row k).HeldBy j → (st.calls j).holds = true
  committed : OneAccount fun k => (st.users.row k).committed
  plans : ∀ j, (st.calls j).working = true → OneAccount (planned (st.view j) (st.calls j))
  knows : ∀ j, (st.calls j).working = true → Knows (st.view j) (st.calls j)

theorem Point.working_of_holds (h : point.holds = true) : point.working = true := by
  cases point <;> first | rfl | cases h

section

variable (h : Separate st) (hcall : st.calls i = now) (hi : now.working = true)
include h hcall hi

theorem Separate.plan : OneAccount (planned (st.view i) now) := hcall ▸ h.plans i (hcall ▸ hi)

theorem Separate.sees (hpen : now.pending = []) : OneAccount (st.view i) := by
  have hpl := h.plan hcall hi
  rwa [planned, hpen] at hpl

theorem Separate.known : Knows (st.view i) now := hcall ▸ h.knows i (hcall ▸ hi)

theorem Separate.step (hca : st'.calls = update st.calls i point)
    (hso : ∀ a ∈ st'.inside, ∀ b ∈ st'.inside, a = b) (hins : point.working = true → i ∈ st'.inside)
    (htou : st.users.Touched i st'.users) (hhe : ∀ k, (st'.users.row k).HeldBy i → point.holds = true)
    (hcom : OneAccount fun k => (st'.users.row k).committed)
    (hpl : point.working = true → OneAccount (planned (st'.view i) point))
    (hkn : point.working = true → Knows (st'.view i) point) : Separate st' := by
  have hse : st'.calls i = point := by rw [hca, update_self]
  have hoth (j : Nat) (hj : j ≠ i) : st'.calls j = st.calls j := by rw [hca, update_of_ne hj]
  -- no other call is at work
  have hal (j : Nat) (hj : (st'.calls j).working = true) : j = i := by
    by_contra hne
    rw [hoth j hne] at hj
    exact hne (h.solo j (h.inside j hj) i (h.inside i (hcall ▸ hi)))
  refine ⟨hso, fun j hj => ?_, fun k j hk => ?_, hcom, fun j hj => ?_, fun j hj => ?_⟩
  · obtain rfl := hal j hj
    exact hins (hse ▸ hj)
  · by_cases hji : j = i
    · subst hji
      rw [hse]
      exact hhe k hk
    · rw [(htou k).eq_of_held' hk hji] at hk
      rw [hoth j hji]
      exact h.held k j hk
  · obtain rfl := hal j hj
    rw [hse] at hj ⊢
    exact hpl hj
  · obtain rfl := hal j hj
    rw [hse] at hj ⊢
    exact hkn hj

theorem Separate.goTo (hho : now.holds = true → point.holds = true)
    (hpl : OneAccount (planned (st.view i) point)) (hkn : Knows (st.view i) point) :
    Separate (st.goTo i point) :=
  h.step hcall hi rfl h.solo (fun _ => h.inside i (hcall ▸ hi)) (.refl i _)
    (fun k hk => hho (hcall ▸ h.held k i hk)) h.committed (fun _ => hpl) fun _ => hkn

end

theorem Scene.inside_leave : (st.leave i).inside = st.inside.filter (· ≠ i) := by
  unfold inside leave
  cases st.mutex with
  | none => rfl
  | some j => by_cases hj : j = i <;> simp [Option.filter, hj]

section

variable (h : Separate st)
include h

theorem Separate.solo_leave (i : Nat) : ∀ a ∈ (st.leave i).inside, ∀ b ∈ (st.leave i).inside, a = b := by
  rw [inside_leave]
  exact fun a ha b hb => h.solo a (mem_of_mem_filter ha) b (mem_of_mem_filter hb)

theorem Separate.leave (hcall : st.calls i = now) (hi : now.working = true)
    (hfr : now.holds = false) : Separate (st.leave i) := by
  refine h.step hcall hi rfl (h.solo_leave i) (fun hp => by cases hp) (.refl i _) (fun k hk => ?_) h.committed
    (fun hp => by cases hp) fun hp => by cases hp
  rw [← hcall, h.held k i hk] at hfr
  cases hfr

theorem Separate.committed_rollback (i : Nat) : OneAccount fun k => ((st.users.rollback i).row k).committed := by
  have hsa : (fun k => ((st.users.rollback i).row k).committed) = fun k => (st.users.row k).committed :=
    funext pends_rollback.committed
  rw [hsa]
  exact h.committed

section

variable (hcall : st.calls i = now) (hi : now.working = true)
include hcall hi

theorem Separate.abort : Separate (st.abort i) :=
  h.step hcall hi rfl (h.solo_leave i) (fun hp => by cases hp) pends_rollback.touched
    (fun _ hk => absurd hk Row.not_held_release) (h.committed_rollback i) (fun hp => by cases hp)
    fun hp => by cases hp

theorem Separate.fallBack : Separate ((st.rollback i).goTo i .findAgain) := by
  refine h.step hcall hi rfl h.solo (fun _ => h.inside i (hcall ▸ hi)) pends_rollback.touched
    (fun _ hk => absurd hk Row.not_held_release) (h.committed_rollback i) (fun _ => ?_) fun _ => trivial
  have hvi : ((st.rollback i).goTo i .findAgain).view i = fun k => ((st.users.rollback i).row k).committed :=
    funext fun k => get_of_not_held Row.not_held_release
  rw [hvi]
  exact h.committed_rollback i

theorem Separate.committed_commit (hpen : now.pending = []) :
    OneAccount fun k => ((st.users.commit i).row k).committed := by
  have hsa : (fun k => ((st.users.commit i).row k).committed) = st.view i :=
    funext fun k => Versions.committed_commit _ i k
  rw [hsa]
  exact h.sees hcall hi hpen

theorem Separate.commitLink (hpen : now.pending = []) : Separate ((st.commit i).leave i) :=
  h.step hcall hi rfl (h.solo_leave i) (fun hp => by cases hp) (touched_commit _ i)
    (fun _ hk => absurd hk Row.not_held_release) (h.committed_commit hcall hi hpen) (fun hp => by cases hp)
    fun hp => by cases hp

theorem Separate.commitCreate (hpen : now.pending = []) : Separate ((st.commit i).goTo i .unlock) := by
  refine h.step hcall hi rfl h.solo (fun _ => h.inside i (hcall ▸ hi)) (touched_commit _ i)
    (fun _ hk => absurd hk Row.not_held_release) (h.committed_commit hcall hi hpen) (fun _ => ?_) fun _ => trivial
  have hvi : ((st.commit i).goTo i .unlock).view i = fun k => ((st.users.commit i).row k).committed :=
    funext fun k => get_of_not_held Row.not_held_release
  rw [hvi]
  exact h.committed_commit hcall hi hpen

theorem Separate.write {v : Option User} {users : Versions Nat String User}
    (hw : st.users.write i k v = some users) (hpen : now.pending = (k, v) :: point.pending)
    (hho : point.holds = true)
    (hkn : Knows ((({ st with users := users } : Scene).goTo i point).view i) point) :
    Separate (({ st with users := users } : Scene).goTo i point) := by
  have hpl := h.plan hcall hi
  refine h.step hcall hi rfl h.solo (fun _ => h.inside i (hcall ▸ hi)) (pends_write hw).touched (fun _ _ => hho) ?_
    (fun _ => ?_) fun _ => hkn
  · have hsa : (fun k' => (users.row k').committed) = fun k' => (st.users.row k').committed :=
      funext (pends_write hw).committed
    change OneAccount fun k' => (users.row k').committed
    rw [hsa]
    exact h.committed
  · have hvi : (({ st with users := users } : Scene).goTo i point).view i = update (st.view i) k v :=
      get_write hw
    rw [planned, hvi]
    rwa [planned, hpen, foldl_cons] at hpl

end

theorem Separate.update {user : User} (hs : st.update i user point = some st')
    (hcall : st.calls i = now) (hi : now.working = true) (hpen : now.pending = (user.id, some user) :: point.pending)
    (hho : point.holds = true) (hkn : ∀ f, Knows f point) : Separate st' := by
  obtain ⟨users, hw, rfl⟩ := map_eq_some_iff.1 hs
  exact h.write hcall hi hw hpen hho (hkn _)

theorem Separate.deleteUserAndData {uid : String}
    (hs : st.deleteUserAndData i uid point = some st') (hcall : st.calls i = now) (hi : now.working = true)
    (hpen : now.pending = (uid, none) :: point.pending) (hho : point.holds = true)
    (hkn : ∀ f, Knows f point) : Separate st' := by
  unfold Scene.deleteUserAndData at hs
  split at hs
  · rename_i hn
    cases hs
    refine h.goTo hcall hi (fun _ => hho) ?_ (hkn _)
    -- there is nothing to delete
    have hpl := h.plan hcall hi
    rw [planned, hpen, foldl_cons] at hpl
    have hsa : Function.update (st.view i) uid none = st.view i := by
      rw [update_eq_self_iff]
      exact hn.symm
    rwa [hsa] at hpl
  · obtain ⟨users, hw, rfl⟩ := map_eq_some_iff.1 hs
    exact h.write hcall hi hw hpen hho (hkn _)

theorem Separate.enter (hem : st.inside = []) (hus : st'.users = st.users)
    (hca : st'.calls = Function.update st.calls i point) (hins : st'.inside = [i]) (hpen : point.pending = [])
    (hkn : ∀ f, Knows f point) : Separate st' := by
  have hid (j : Nat) : ¬ (st.calls j).working = true := by
    intro hj
    have := h.inside j hj
    rw [hem] at this
    cases this
  have hfr (k : String) (j : Nat) : ¬ (st.users.row k).HeldBy j := fun hk =>
    hid j (Point.working_of_holds (h.held k j hk))
  have hse (j : Nat) (hj : (st'.calls j).working = true) : j = i := by
    by_contra hne
    rw [hca, update_of_ne hne] at hj
    exact hid j hj
  have hpo : st'.calls i = point := by rw [hca, update_self]
  refine ⟨?_, fun j hj => ?_, fun k j hk => ?_, hus.symm ▸ h.committed, fun j hj => ?_, fun j hj => ?_⟩
  · rw [hins]
    intro a ha b hb
    rw [mem_singleton.1 ha, mem_singleton.1 hb]
  · rw [hse j hj, hins]
    exact mem_singleton_self i
  · rw [hus] at hk
    exact absurd hk (hfr k j)
  · obtain rfl := hse j hj
    have hvi : st'.view j = fun k => (st.users.row k).committed := by
      unfold view
      rw [hus]
      exact funext fun k => get_of_not_held (hfr k j)
    rw [hpo, hvi, planned, hpen]
    exact h.committed
  · obtain rfl := hse j hj
    rw [hpo]
    exact hkn _

end

variable {pick : Nat}

theorem not_found (h : st.findByPlatformID i plat id pick = none) (hu : st.view i k = some u) :
    foundBy plat id u = false := by
  unfold findByPlatformID at h
  rw [map_eq_none_iff, getElem?_eq_none_iff] at h
  rw [← Bool.not_eq_true]
  intro hfo
  have hmem : u ∈ st.users.select i (foundBy plat id) := mem_select.2 ⟨k, hu, hfo⟩
  exact absurd (Nat.mod_lt pick (length_pos_of_mem hmem)) (Nat.not_lt.2 h)

theorem found_row (h : st.findByPlatformID i plat id pick = some u) :
    ∃ k row, st.view i k = some row ∧ foundBy plat id row = true ∧ u = decoded row := by
  obtain ⟨row, hrow, rfl⟩ := map_eq_some_iff.1 h
  obtain ⟨k, hk, hfo⟩ := mem_select.1 (mem_of_getElem? hrow)
  exact ⟨k, row, hk, hfo, rfl⟩

theorem Scene.Admits.fits (h : st.Admits i r) : r.Fits (st.view i) := by
  cases r with
  | web uid email => trivial
  | telegram uid telegramID username telegramUsername =>
    refine ⟨h.1, fun hne k u hu => ?_⟩
    rw [← Bool.not_eq_true]
    intro hfo
    have hmem := mem_select.2 ⟨k, hu, hfo⟩
    rw [h.2 hne] at hmem
    cases hmem

theorem OneAccount.reads (h : OneAccount f) (hrow : f k = some u) : Reads f (decoded u) := by
  refine ⟨u, ?_, rfl⟩
  change f u.id = some u
  rwa [h.keyed k u hrow]

section

variable (h : Separate st)
include h

theorem separate_find (hcall : st.calls i = .find r) (hadm : st.Admits i r)
    (hs : st.issue i pick (.find r) = some st') : Separate st' := by
  have hpl : OneAccount (st.view i) := h.sees hcall rfl rfl
  rw [issue] at hs
  split at hs
  · cases hs
    exact h.goTo hcall rfl id hpl trivial
  rename_i hn
  cases hs
  exact h.goTo hcall rfl id (hpl.register (fun k u hu => not_found hn hu) hadm.fits) trivial

theorem separate_create (hcall : st.calls i = .create r) (hs : st.create i r = some st') : Separate st' := by
  obtain ⟨users, hw, rfl⟩ := map_eq_some_iff.1 hs
  split_ifs
  · exact h.fallBack hcall rfl
  · exact h.write hcall rfl hw rfl rfl trivial

theorem separate_findTgUser (hcall : st.calls i = .findTgUser webUser tgUserID)
    (hs : st.issue i pick (.findTgUser webUser tgUserID) = some st') : Separate st' := by
  have hpl : OneAccount (st.view i) := h.sees hcall rfl rfl
  have hweb : Reads (st.view i) webUser := h.known hcall rfl
  rw [issue] at hs
  split at hs
  · cases hs
    exact h.abort hcall rfl
  rename_i tgUser htg
  obtain ⟨row, hrow, rfl⟩ := map_eq_some_iff.1 htg
  split_ifs at hs with href
  · cases hs
    exact h.abort hcall rfl
  · cases hs
    refine h.goTo hcall rfl id hpl ⟨hweb, hpl.reads hrow, fun hsa => href (.inl hsa)⟩

theorem separate_requireBareTg (hcall : st.calls i = .requireBareTg webUser tgUser)
    (hs : st.issue i pick (.requireBareTg webUser tgUser) = some st') : Separate st' := by
  have hpl : OneAccount (st.view i) := h.sees hcall rfl rfl
  obtain ⟨hweb, htg, hne⟩ : Knows (st.view i) (.requireBareTg webUser tgUser) := h.known hcall rfl
  rw [issue] at hs
  split at hs
  · cases hs
    exact h.abort hcall rfl
  rename_i linked hta
  cases hs
  exact h.goTo hcall rfl id (hpl.linkTelegram hweb htg hne hta) trivial

theorem separate_findLinked (hcall : st.calls i = .findLinked tgUserID email)
    (hs : st.issue i pick (.findLinked tgUserID email) = some st') : Separate st' := by
  have hpl : OneAccount (st.view i) := h.sees hcall rfl rfl
  rw [issue] at hs
  split at hs
  · cases hs
    exact h.abort hcall rfl
  rename_i tgUser htg
  obtain ⟨row, hrow, rfl⟩ := map_eq_some_iff.1 htg
  split_ifs at hs
  · cases hs
    exact h.abort hcall rfl
  · cases hs
    exact h.goTo hcall rfl id hpl (hpl.reads hrow)

theorem separate_findByEmail (hcall : st.calls i = .findByEmail tgUser email)
    (hs : st.issue i pick (.findByEmail tgUser email) = some st') : Separate st' := by
  have hpl : OneAccount (st.view i) := h.sees hcall rfl rfl
  have htg : Reads (st.view i) tgUser := h.known hcall rfl
  rw [issue] at hs
  split at hs
  · rename_i hn
    cases hs
    exact h.goTo hcall rfl (fun _ => rfl) (hpl.linkEmail htg fun _ k' u' _ hu' => not_found hn hu') trivial
  rename_i webUser hfo
  split_ifs at hs with href
  · cases hs
    exact h.abort hcall rfl
  cases hs
  refine h.goTo hcall rfl id ?_ trivial
  obtain ⟨k, row, hrow, hem, rfl⟩ := found_row hfo
  obtain rfl : row.id = k := hpl.keyed k row hrow
  have hne : tgUser.id ≠ row.id := fun hsa => href (.inl hsa.symm)
  -- the account that has the email is deleted first
  have htg : Reads (update (st.view i) row.id none) tgUser := by
    obtain ⟨tgRow, htgR, hdec⟩ := htg
    exact ⟨tgRow, by rwa [update_of_ne hne], hdec⟩
  refine (hpl.erase row.id).linkEmail htg fun he k' u' _ hu' => ?_
  obtain ⟨hk, hu'⟩ := update_none_eq_some hu'
  exact (hpl.web email he).eq_false hrow hem hk hu'

theorem separate_issue (hcar : Careful st (i, .statement pick))
    (hs : st.issue i pick (st.calls i) = some st') : Separate st' := by
  unfold Careful at hcar
  generalize hcall : st.calls i = now at hcar hs
  cases now with
  | idle => cases hs
  | lock r =>
    rw [issue] at hs
    split_ifs at hs
    cases hs
    refine h.enter hcar rfl rfl ?_ rfl fun _ => trivial
    rw [(append_eq_nil_iff.1 hcar).2]
    rfl
  | find r => exact separate_find h hcall hcar hs
  | create r => exact separate_create h hcall hs
  | createSubscription r =>
    cases hs
    exact h.goTo hcall rfl (fun _ => rfl) (h.sees hcall rfl rfl) trivial
  | commitCreate r =>
    cases hs
    exact h.commitCreate hcall rfl rfl
  | findAgain =>
    cases hs
    exact h.goTo hcall rfl id (h.sees hcall rfl rfl) trivial
  | unlock =>
    cases hs
    exact h.leave hcall rfl rfl
  | findWebUser webUserID tgUserID =>
    rw [issue] at hs
    have hpl : OneAccount (st.view i) := h.sees hcall rfl rfl
    split at hs
    · cases hs
      exact h.abort hcall rfl
    rename_i row hrow
    cases hs
    exact h.goTo hcall rfl id hpl (hpl.reads hrow)
  | findTgUser webUser tgUserID => exact separate_findTgUser h hcall hs
  | requireBareTg webUser tgUser => exact separate_requireBareTg h hcall hs
  | updateWebUser linked tgUserID | updateTgUser linked => exact h.update hs hcall rfl rfl rfl fun _ => trivial
  | deleteTgUser tgUserID | deleteWebUser linked webUserID =>
    exact h.deleteUserAndData hs hcall rfl rfl rfl fun _ => trivial
  | findLinked tgUserID email => exact separate_findLinked h hcall hs
  | findByEmail tgUser email => exact separate_findByEmail h hcall hs
  | requireBareWeb linked webUserID =>
    cases hs
    have hpl := h.plan hcall rfl
    exact h.goTo hcall rfl id hpl trivial
  | commitLink =>
    cases hs
    exact h.commitLink hcall rfl rfl

theorem separate_fail (hcar : Careful st (i, .failure)) (hs : st.fail i (st.calls i) = some st') : Separate st' := by
  unfold Careful at hcar
  generalize hcall : st.calls i = now at hcar hs
  cases now with
  | idle | lock r | unlock => cases hs
  | find r => exact hcar.elim
  | create r | createSubscription r | commitCreate r =>
    cases hs
    exact h.fallBack hcall rfl
  | findAgain =>
    cases hs
    exact h.goTo hcall rfl id (h.sees hcall rfl rfl) trivial
  | _ =>
    cases hs
    exact h.abort hcall rfl

theorem Separate.arrive (hid : st.calls i = .idle) (r : Registration) : Separate (st.goTo i (.lock r)) := by
  have hca (j : Nat) (hj : ((st.goTo i (.lock r)).calls j).working = true) :
      (st.goTo i (.lock r)).calls j = st.calls j := by
    by_cases hji : j = i
    · subst hji
      change (Function.update st.calls j (.lock r) j).working = true at hj
      rw [update_self] at hj
      cases hj
    · exact update_of_ne hji _ _
  refine ⟨h.solo, fun j hj => h.inside j (hca j hj ▸ hj), fun k j hk => ?_, h.committed, fun j hj => ?_, fun j hj => ?_⟩
  · have hho := h.held k j hk
    have hji : j ≠ i := by
      rintro rfl
      rw [hid] at hho
      cases hho
    change (Function.update st.calls i (.lock r) j).holds = true
    rwa [update_of_ne hji]
  · rw [hca j hj]
    exact h.plans j (hca j hj ▸ hj)
  · rw [hca j hj]
    exact h.knows j (hca j hj ▸ hj)

theorem Separate.link (hem : st.inside = []) (hpen : point.pending = [])
    (hkn : ∀ f, Knows f point) : Separate (st.link i point) := by
  refine h.enter hem rfl rfl ?_ hpen hkn
  obtain ⟨hmu, hli⟩ := append_eq_nil_iff.1 hem
  change st.mutex.toList ++ i :: st.links = [i]
  rw [hmu, hli]
  rfl

theorem separate_identityStep {l : Nat × Action} (hcar : Careful st l)
    (hs : identityStep st l = some st') : Separate st' := by
  obtain ⟨i, action⟩ := l
  unfold identityStep at hs
  cases action with
  | registerTelegramUser uid telegramID username telegramUsername | findOrCreateWebUser uid email =>
    dsimp only at hs
    split_ifs at hs with hid
    cases hs
    exact h.arrive hid _
  | linkTelegramAccount webUserID tgUserID | linkEmailAccount tgUserID email =>
    dsimp only at hs
    split_ifs at hs with hid
    cases hs
    exact h.link hcar rfl fun _ => trivial
  | statement pick => exact separate_issue h hcar hs
  | failure => exact separate_fail h hcar hs

end

/-- Where a run begins: no call is in progress, and the table has one account for each identity. -/
structure Started (st : Scene) : Prop where
  inside : st.inside = []
  users : ∀ k, (st.users.row k).uncommitted = none
  idle : ∀ i, st.calls i = .idle
  accounts : OneAccount fun k => (st.users.row k).committed

theorem Started.separate (h : Started st) : Separate st := by
  have hid (j : Nat) : ¬ (st.calls j).working = true := by
    rw [h.idle]
    exact Bool.false_ne_true
  refine ⟨?_, fun j hj => absurd hj (hid j), ?_, h.accounts, fun j hj => absurd hj (hid j),
    fun j hj => absurd hj (hid j)⟩
  · rw [h.inside]
    exact fun a ha => by cases ha
  rintro k j ⟨v, hv⟩
  rw [h.users] at hv
  cases hv

/-- In every careful run no two accounts have one Telegram id, and no two are found by one email. -/
theorem one_account_per_identity (st₀ st : Scene) (tr : List (Nat × Action)) (hstart : Started st₀)
    (hrun : Run (Guarded Careful (stepsTo identityStep)) st₀ tr st) :
    (∀ n : Int64, Single (foundBy "telegram" (toString n.toInt)) fun k => (st.users.row k).committed) ∧
      ∀ email, email ≠ "" → Single (foundBy "web" email) fun k => (st.users.row k).committed := by
  have hsep : Separate st := hrun.invariant_of_guard Separate hstart.separate
    fun st l st' h hcar hs => separate_identityStep h hcar hs
  exact ⟨hsep.committed.telegram, hsep.committed.web⟩

/-! No accounts yet. -/

def emptyScene : Scene where
  users := .ofRows (·.id) []

theorem emptyScene_started : Started emptyScene := by
  refine ⟨rfl, fun _ => rfl, fun _ => rfl, fun k u hu => ?_, fun k u hu => ?_, fun n k k' u u' hu => ?_,
    fun email he k k' u u' hu => ?_⟩
  all_goals cases hu

def statements (i n : Nat) : List (Nat × Action) := List.replicate n (i, .statement 0)

def registers (i : Nat) (action : Action) : List (Nat × Action) := (i, action) :: statements i 6

/-- A Telegram account is linked to a web account, and then the Telegram user registers again. -/
def linkAndReturn : List (Nat × Action) :=
  registers 0 (.registerTelegramUser "t" 7 "bob" "") ++ registers 1 (.findOrCreateWebUser "w" "a@x") ++
    [(2, .linkTelegramAccount "w" "t")] ++ statements 2 6 ++ [(3, .registerTelegramUser "t2" 7 "bob" "")] ++
    statements 3 3

theorem one_account_per_identity_linked : ∃ st,
    Run (Guarded Careful (stepsTo identityStep)) emptyScene linkAndReturn st ∧
    (st.users.row "w").committed.any (foundBy "telegram" "7") = true ∧ st.calls 3 = .idle ∧
    Single (foundBy "telegram" (toString (7 : Int64).toInt)) fun k => (st.users.row k).committed := by
  exact Run.exists_of_guardedExec_imp
    (P := fun st => (st.users.row "w").committed.any (foundBy "telegram" "7") = true ∧ st.calls 3 = .idle)
    (by decide +kernel) fun st hrun ⟨hfo, hid⟩ =>
      ⟨hfo, hid, (one_account_per_identity emptyScene st linkAndReturn emptyScene_started hrun).1 7⟩

def Scene.shares (st : Scene) (platform id k k' : String) : Bool :=
  (st.users.row k).committed.any (foundBy platform id) && (st.users.row k').committed.any (foundBy platform id)

/-- The second link has read the Telegram account before the first one deletes it. -/
def twoLinks : List (Nat × Action) :=
  registers 0 (.registerTelegramUser "t" 7 "bob" "") ++ registers 1 (.findOrCreateWebUser "w1" "a@x") ++
    registers 2 (.findOrCreateWebUser "w2" "b@x") ++
    [(3, .linkTelegramAccount "w1" "t"), (4, .linkTelegramAccount "w2" "t")] ++ statements 3 3 ++ statements 4 3 ++
    statements 3 3 ++ statements 4 3

/-- The web account is registered between the lookup of a link and its update. -/
def linkAroundRegistration : List (Nat × Action) :=
  registers 0 (.registerTelegramUser "t" 7 "bob" "") ++ [(3, .linkEmailAccount "t" "a@x")] ++ statements 3 2 ++
    registers 1 (.findOrCreateWebUser "w" "a@x") ++ statements 3 2

def emailAsUsername : List (Nat × Action) :=
  registers 0 (.findOrCreateWebUser "w" "a@x") ++ registers 1 (.registerTelegramUser "t" 7 "a@x" "")

def failedLookup : List (Nat × Action) :=
  registers 0 (.findOrCreateWebUser "w1" "a@x") ++ [(1, .findOrCreateWebUser "w2" "a@x")] ++ statements 1 1 ++
    [(1, .failure)] ++ statements 1 4

/-- The link saves a Telegram id that it has read as a float64. -/
def roundedID : List (Nat × Action) :=
  registers 0 (.registerTelegramUser "t1" 9007199254740992 "bob" "") ++
    registers 1 (.registerTelegramUser "t2" 9007199254740993 "eve" "") ++ [(2, .linkEmailAccount "t2" "a@x")] ++
    statements 2 4

/-- Two accounts with one Telegram id, and two with one email: by two links, by a link and a registration, and by calls
one after the other. -/
theorem identity_shared : Started emptyScene ∧
    (∃ st, Run (stepsTo identityStep) emptyScene twoLinks st ∧ st.shares "telegram" "7" "w1" "w2" = true) ∧
    (∃ st, Run (stepsTo identityStep) emptyScene linkAroundRegistration st ∧ st.shares "web" "a@x" "t" "w" = true) ∧
    (∃ st, Run (stepsTo identityStep) emptyScene emailAsUsername st ∧ st.shares "web" "a@x" "w" "t" = true) ∧
    (∃ st, Run (stepsTo identityStep) emptyScene failedLookup st ∧ st.shares "web" "a@x" "w1" "w2" = true) ∧
    ∃ st, Run (stepsTo identityStep) emptyScene roundedID st ∧
      st.shares "telegram" "9007199254740992" "t1" "t2" = true :=
  ⟨emptyScene_started, Run.exists_of_exec (by decide +kernel), Run.exists_of_exec (by decide +kernel),
    Run.exists_of_exec (by decide +kernel), Run.exists_of_exec (by decide +kernel),
    Run.exists_of_exec (by decide +kernel)⟩

end Xraytool.Identity
