import Xraytool.Spec.MultiEngine

/-! Every operation of `MultiEngine` that follows the router calls the same engines for a user, each with the users
that are routed to it. -/

namespace Xraytool

open Fallible List
open Xray (Failure)

variable {ids : List String} {x addr source : String} {user : VPNUserConfig} {users : List VPNUserConfig}
  {providers selected : List EngineProvider} {engine : EngineProvider}

theorem mem_normalizeEngineIDs : x ∈ normalizeEngineIDs ids ↔ x ≠ "" ∧ ∃ id ∈ ids, normalizeEngineID id = x := by
  unfold normalizeEngineIDs
  induction ids using reverseRecOn with
  | nil => simp
  | append_singleton ids id ih =>
    rw [foldl_append, foldl_cons, foldl_nil]
    split_ifs with h
    · rw [ih]
      refine and_congr_right fun hx => ⟨fun ⟨id', hid', heq⟩ => ⟨id', by simp [hid'], heq⟩, ?_⟩
      rintro ⟨id', hid', rfl⟩
      rcases mem_append.1 hid' with hid' | hid'
      · exact ⟨id', hid', rfl⟩
      · obtain rfl := mem_singleton.1 hid'
        exact (ih.1 (h.resolve_left hx)).2
    · grind

/-- A list asks for engines. -/
abbrev Asks (ids : List String) : Prop := ∃ id ∈ ids, normalizeEngineID id ≠ ""

abbrev Names (ids : List String) (engine : EngineProvider) : Prop :=
  ∃ id ∈ ids, normalizeEngineID id = normalizeEngineID engine.id

/-- The override of the subscription decides, then the ids of the plan where the mode uses them. -/
def RoutedTo (router : Option RoutingMode) (user : VPNUserConfig) (engine : EngineProvider) : Prop :=
  ∀ mode ∈ router, if Asks user.subscriptionEngineIDs then Names user.subscriptionEngineIDs engine
    else mode ≠ .broadcast → Asks user.planEngineIDs → Names user.planEngineIDs engine

instance (router : Option RoutingMode) (user : VPNUserConfig) (engine : EngineProvider) :
    Decidable (RoutedTo router user engine) := by
  unfold RoutedTo
  infer_instance

theorem normalizeEngineIDs_ne_nil : normalizeEngineIDs ids ≠ [] ↔ Asks ids := by
  rw [ne_eq, eq_nil_iff_forall_not_mem]
  simp only [mem_normalizeEngineIDs, not_forall, not_not]
  exact ⟨fun ⟨_, hx, id, hid, heq⟩ => ⟨id, hid, heq ▸ hx⟩, fun ⟨id, hid, h⟩ => ⟨_, h, id, hid, rfl⟩⟩

namespace MultiEngine

variable {m : MultiEngine}

theorem normalized_ne (h : engine ∈ m.engines) : normalizeEngineID engine.id ≠ "" := by
  intro heq
  refine m.named engine h ?_
  rw [normalizeEngineID, toLower, ← String.toList_inj, String.toList_ofList] at heq
  exact String.toList_inj.1 (map_eq_nil_iff.1 heq)

theorem selectProviders_eq_ok (h : selectProviders m.engines (normalizeEngineIDs ids) addr source = .ok selected) :
    selected = m.engines.filter (Names ids ·) := by
  unfold selectProviders at h
  dsimp only at h
  split_ifs at h
  rw [← Except.ok.inj h]
  refine filter_congr fun engine heng => decide_eq_decide.2 ?_
  rw [mem_normalizeEngineIDs]
  exact and_iff_right (normalized_ne heng)

theorem planned_eq_ok (h : (if normalizeEngineIDs ids ≠ [] then
      selectProviders m.engines (normalizeEngineIDs ids) addr source else .ok m.engines) = .ok selected) :
    selected = m.engines.filter fun engine => Asks ids → Names ids engine := by
  split_ifs at h with hids
  · rw [selectProviders_eq_ok h]
    exact filter_congr fun engine _ => decide_eq_decide.2 ⟨fun h _ => h, fun h => h (normalizeEngineIDs_ne_nil.1 hids)⟩
  · rw [← Except.ok.inj h, eq_comm, filter_eq_self]
    exact fun engine _ => decide_eq_true fun hask => absurd (normalizeEngineIDs_ne_nil.2 hask) hids

theorem selected_eq_ok (h : m.selected user = .ok selected) :
    selected = m.engines.filter (RoutedTo m.router user ·) := by
  unfold MultiEngine.selected at h
  rcases hrou : m.router with - | mode
  · rw [hrou] at h
    rw [← Except.ok.inj h]
    simp [RoutedTo]
  rw [hrou] at h
  simp only [RoutedTo, Option.mem_def, Option.some.injEq, forall_eq']
  by_cases hask : Asks user.subscriptionEngineIDs
  · simp only [if_pos hask]
    exact selectProviders_eq_ok ((if_pos (normalizeEngineIDs_ne_nil.2 hask)).symm.trans h)
  simp only [if_neg hask]
  replace h := (if_neg (mt normalizeEngineIDs_ne_nil.1 hask)).symm.trans h
  cases mode with
  | broadcast =>
    rw [← Except.ok.inj h]
    simp
  | byPlan | bySubscriptionOverride =>
    rw [planned_eq_ok h]
    simp

theorem trimSpace_nodup : (m.engines.map (trimSpace ·.id)).Nodup := by
  refine Nodup.of_map toLower ?_
  rw [map_map]
  exact m.distinct

theorem mem_routed (h : engine ∈ m.engines) :
    trimSpace engine.id ∈ (m.engines.filter (RoutedTo m.router user ·)).map (trimSpace ·.id) ↔
      RoutedTo m.router user engine := by
  refine ⟨fun hmem => ?_, fun hrou => mem_map_of_mem (mem_filter.2 ⟨h, decide_eq_true hrou⟩)⟩
  obtain ⟨other, ho, heq⟩ := mem_map.1 hmem
  obtain ⟨ho, hrou⟩ := mem_filter.1 ho
  obtain rfl : other = engine := inj_on_of_nodup_map trimSpace_nodup ho h heq
  exact of_decide_eq_true hrou

theorem routedEngines_eq (hre : m.engines ≠ []) (h : m.selected user = .ok selected) :
    m.routedEngines user = .ok (m.engines.filter (RoutedTo m.router user ·)) := by
  obtain rfl := selected_eq_ok h
  have hch : ∀ entry ∈ (m.engines.filter (RoutedTo m.router user ·)).zipIdx, m.checkSelected entry = .ok () := by
    intro entry hen
    have heng := mem_of_mem_filter (fst_mem_of_mem_zipIdx hen)
    rw [checkSelected, if_neg (m.named _ heng), if_neg (not_not.2 (mem_map_of_mem heng))]
  obtain ⟨units, hun⟩ := exists_mapM_eq_ok.2 fun entry hen => ⟨(), hch entry hen⟩
  unfold routedEngines ready
  rw [if_neg hre, h, ok_bind, ok_bind]
  by_cases hn : m.engines.filter (RoutedTo m.router user ·) = []
  · rw [if_pos hn, hn]
  rw [if_neg hn, hun, ok_bind]
  exact congrArg _ (filter_congr fun engine heng => decide_eq_decide.2 (mem_routed heng))

theorem foldl_update {targets : List EngineProvider} {batches : String → List VPNUserConfig}
    (h : (targets.map (trimSpace ·.id)).Nodup) :
    targets.foldl (fun batches target =>
      Function.update batches (trimSpace target.id) (batches (trimSpace target.id) ++ [user])) batches x =
      if x ∈ targets.map (trimSpace ·.id) then batches x ++ [user] else batches x := by
  induction targets generalizing batches with
  | nil => rfl
  | cons target targets ih =>
    rw [map_cons, nodup_cons] at h
    rw [foldl_cons, ih h.2]
    by_cases hx : x = trimSpace target.id
    · subst hx
      simp [h.1]
    · simp [hx]

theorem userBatches_eq (hre : m.engines ≠ []) (h : ∀ user ∈ users, ∃ selected, m.selected user = .ok selected) :
    ∃ batches, m.userBatches users = .ok batches ∧
      ∀ engine ∈ m.engines, batches (trimSpace engine.id) = users.filter (RoutedTo m.router · engine) := by
  unfold userBatches
  induction users using reverseRecOn with
  | nil => exact ⟨_, rfl, fun _ _ => rfl⟩
  | append_singleton users user ih =>
    obtain ⟨batches, hbat, hfil⟩ := ih fun user hu => h user (by simp [hu])
    obtain ⟨selected, hsel⟩ := h user (by simp)
    rw [foldlM_append, hbat, ok_bind, foldlM_cons, routedEngines_eq hre hsel]
    refine ⟨_, rfl, fun engine heng => ?_⟩
    rw [foldl_update (trimSpace_nodup.sublist (filter_sublist.map _)), hfil engine heng, filter_append]
    simp only [mem_routed heng]
    split_ifs with hrou <;> simp [hrou]

/-- For users that the router accepts, every operation calls the engines that the users are routed to, each with its
users in their order; a sync and a reconciliation call the other engines, too. -/
theorem engine_routing_consistent (m : MultiEngine) (users : List VPNUserConfig) (hready : m.engines ≠ [])
    (h : ∀ user ∈ users, ∃ selected, m.selected user = .ok selected) :
    (∀ user ∈ users, m.addUser user = .ok ((m.engines.filter (RoutedTo m.router user ·)).map (⟨·, .addUser, [user]⟩)) ∧
      m.buildClientLinks user =
        .ok ((m.engines.filter (RoutedTo m.router user ·)).map (⟨·, .buildClientLinks, [user]⟩))) ∧
    m.addUsersBulk users = .ok ((m.engines.map fun engine =>
      ⟨engine, .addUsersBulk, users.filter (RoutedTo m.router · engine)⟩).filter (·.users ≠ [])) ∧
    (∀ orphans, m.syncUsers users orphans = .ok (m.engines.map fun engine =>
      ⟨engine, .syncUsers orphans, users.filter (RoutedTo m.router · engine)⟩)) ∧
    m.reconcileUsers users = .ok (m.engines.map fun engine => ⟨engine,
      if engine.reconciles then .reconcileUsers else .syncUsers true, users.filter (RoutedTo m.router · engine)⟩) := by
  obtain ⟨batches, hbat, hfil⟩ := userBatches_eq hready h
  have hok : m.ready = .ok () := if_neg hready
  have hca (method : EngineProvider → EngineMethod) :
      m.engines.map (fun engine => (⟨engine, method engine, batches (trimSpace engine.id)⟩ : EngineRequest)) =
        m.engines.map fun engine => ⟨engine, method engine, users.filter (RoutedTo m.router · engine)⟩ :=
    map_congr_left fun engine heng => by rw [hfil engine heng]
  refine ⟨fun user hu => ?_, ?_, fun orphans => ?_, ?_⟩
  · obtain ⟨selected, hsel⟩ := h user hu
    rw [addUser, buildClientLinks, routedEngines_eq hready hsel]
    exact ⟨rfl, rfl⟩
  · unfold addUsersBulk
    rw [hok, ok_bind]
    split_ifs with hus
    · simp [hus]
    · rw [hbat, ok_bind, hca fun _ => .addUsersBulk]
  · rw [syncUsers, hok, ok_bind, hbat, ok_bind, hca fun _ => .syncUsers orphans]
  · rw [reconcileUsers, hok, ok_bind, hbat, ok_bind,
      hca fun engine => if engine.reconciles then .reconcileUsers else .syncUsers true]

/-! Two engines; the user `a` is moved to the second one. -/

def twoEngines : MultiEngine where
  engines := [{ id := "xray", reconciles := true }, { id := " Sing-box" }]
  router := some .byPlan
  named := by decide +kernel
  distinct := by decide +kernel

theorem engine_routing_consistent_two :
    twoEngines.syncUsers [{ email := "a", subscriptionEngineIDs := ["SING-BOX "] }, { email := "b" }] false =
      .ok [⟨{ id := "xray", reconciles := true }, .syncUsers false, [{ email := "b" }]⟩,
        ⟨{ id := " Sing-box" }, .syncUsers false,
          [{ email := "a", subscriptionEngineIDs := ["SING-BOX "] }, { email := "b" }]⟩] := by
  refine ((engine_routing_consistent twoEngines _ (by decide) fun user hu => ?_).2.2.1 false).trans ?_
  · rcases mem_pair.1 hu with rfl | rfl
    · exact ⟨[{ id := " Sing-box" }], by decide +kernel⟩
    · exact ⟨_, rfl⟩
  · decide +kernel

end MultiEngine

end Xraytool
