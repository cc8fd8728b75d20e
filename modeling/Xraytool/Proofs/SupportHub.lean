import Xraytool.Sanity.SupportChat
import Xraytool.Spec.SupportHub

/-! The channels of the hub's clients. A client leaves the map in the step that closes its channel and never comes back,
unless the loop takes its unregister request before its register request. -/

namespace Xraytool.SupportHub

open Transition List Hub

def ClientOp.usesChannel : ClientOp → Bool
  | .send _ | .close => true
  | _ => false

def Hub.held (h : Hub) : List Client := h.register ++ h.clients.map (·.client)

/-- No channel is used after it was closed. -/
def Disciplined (log : List (Client × ClientOp)) : Prop :=
  log.Pairwise fun a b => a.2 = .close → b.2.usesChannel = true → b.1 ≠ a.1

/-- What a step of the hub does with its clients. -/
structure Handles (h h' : Hub) (ops : List (Client × ClientOp)) : Prop where
  nodup : h'.held.Nodup
  subset : h'.held ⊆ h.held
  register : h'.register ⊆ h.register
  unregister : h'.unregister ⊆ h.unregister
  clients : ∀ e ∈ ops, e.1 ∈ h.held ∨ e.1 ∈ h.unregister
  uses : ∀ e ∈ ops, e.2.usesChannel = true → e.1 ∈ h.held
  disciplined : Disciplined ops
  closed : ∀ c, (c, .close) ∈ ops → c ∉ h'.held
  taken : ∀ c, (c, .unregister) ∈ ops → c ∉ h'.clients.map (·.client)

section Steps

variable {h h' : Hub} {ops : List (Client × ClientOp)}

/-- A step that drops the clients that `keep` does not hold, and closes the channels of no others. -/
theorem handles_drop (keep : Registered → Bool) (hno : h.held.Nodup) (hreg : h'.register = h.register)
    (hunr : h'.unregister ⊆ h.unregister)
    (hcli : h'.clients.map (·.client) = (h.clients.filter keep).map (·.client))
    (hus : ((ops.filter (·.2.usesChannel)).map (·.1)).Sublist (h.clients.map (·.client)))
    (hclo : ∀ r ∈ h.clients, (r.client, .close) ∈ ops → keep r = false)
    (hta : ∀ e ∈ ops, e.2.usesChannel = false → e.1 ∈ h.unregister ∧ e.1 ∉ h'.clients.map (·.client)) :
    Handles h h' ops := by
  obtain ⟨-, hmap, hdis⟩ := nodup_append.1 hno
  have hhe : h'.held.Sublist h.held := by
    rw [held, held, hreg, hcli]
    exact (Sublist.refl _).append (filter_sublist.map _)
  have huse (e : Client × ClientOp) (he : e ∈ ops) (hop : e.2.usesChannel = true) : e.1 ∈ h.clients.map (·.client) :=
    hus.subset (mem_map_of_mem (mem_filter.2 ⟨he, hop⟩))
  refine ⟨hhe.nodup hno, hhe.subset, hreg ▸ Subset.refl _, hunr, fun e he => ?_,
    fun e he hop => mem_append_right _ (huse e he hop), ?_, fun c hc hmem => ?_, fun c hc => (hta _ hc rfl).2⟩
  · cases hop : e.2.usesChannel with
    | true => exact .inl (mem_append_right _ (huse e he hop))
    | false => exact .inr (hta e he hop).1
  · have hdist := pairwise_filter.1 (pairwise_map.1 (hus.nodup hmap))
    refine hdist.imp fun hne hcl huse => (hne ?_ huse).symm
    rw [hcl]
    rfl
  · obtain ⟨r, hr, rfl⟩ := mem_map.1 (huse (c, .close) hc rfl)
    rw [held, hreg, hcli, mem_append] at hmem
    rcases hmem with hmem | hmem
    · exact hdis _ hmem _ (mem_map_of_mem hr) rfl
    obtain ⟨r', hr', heq⟩ := mem_map.1 hmem
    obtain ⟨hr', hke⟩ := mem_filter.1 hr'
    rw [inj_on_of_nodup_map hmap hr' hr heq, hclo r hr hc] at hke
    cases hke

theorem filter_closings {l : List Registered} :
    ((l.map fun r => (r.client, ClientOp.close)).filter (·.2.usesChannel)).map (·.1) = l.map (·.client) := by
  rw [filter_eq_self.2 (by simp [ClientOp.usesChannel])]
  simp

theorem handles_disconnectUser (hno : h.held.Nodup) {uid : String} :
    Handles h (h.disconnectUser uid) (h.closings uid) := by
  refine handles_drop (·.client.userID ≠ uid) hno rfl (Subset.refl _) rfl ?_ (fun r _ hr => ?_) fun e he hop => ?_
  · rw [closings, filter_closings]
    exact filter_sublist.map _
  · obtain ⟨r', hr', heq⟩ := mem_map.1 hr
    have hid := (mem_filter.1 hr').2
    rw [(Prod.mk.inj heq).1] at hid
    simpa using hid
  · obtain ⟨r, -, rfl⟩ := mem_map.1 he
    cases hop

variable {msg : BroadcastMsg} {r : Registered}

theorem client_of_deliver {r' : Registered} (hdel : msg.deliver r = some r') : r'.client = r.client := by
  unfold BroadcastMsg.deliver at hdel
  split_ifs at hdel
  · cases hdel
    rfl
  · cases hdel
    rfl

theorem uses_of_mem_operations {e : Client × ClientOp} (he : e ∈ msg.operations r) : e.2.usesChannel = true := by
  unfold BroadcastMsg.operations at he
  split_ifs at he
  · rw [mem_singleton.1 he]
    rfl
  · rw [mem_singleton.1 he]
    rfl
  · cases he

theorem handles_broadcast (hno : h.held.Nodup) (hreg : h'.register = h.register)
    (hunr : h'.unregister = h.unregister) (hcli : h'.clients = h.clients.filterMap msg.deliver) :
    Handles h h' (h.clients.flatMap msg.operations) := by
  refine handles_drop (fun r => (msg.deliver r).isSome) hno hreg (hunr ▸ Subset.refl _) ?_ ?_
    (fun r hr hcl => ?_) fun e he hop => ?_
  · rw [hcli]
    induction h.clients with
    | nil => rfl
    | cons r l ih =>
      cases hr : msg.deliver r with
      | none => simpa [hr] using ih
      | some r' => simpa [hr, client_of_deliver hr] using ih
  · induction h.clients with
    | nil => exact .slnil
    | cons r l ih =>
      rw [flatMap_cons, filter_append, map_append, map_cons]
      unfold BroadcastMsg.operations
      split_ifs
      · exact ih.cons_cons _
      · exact ih.cons_cons _
      · exact ih.cons _
  · obtain ⟨r', hr', hop⟩ := mem_flatMap.1 hcl
    unfold BroadcastMsg.operations at hop
    split_ifs at hop with hse hro
    · simp at hop
    · have heq : r.client = r'.client := by simpa using hop
      have hmap := (nodup_append.1 hno).2.1
      rw [inj_on_of_nodup_map hmap hr hr' heq]
      simp [BroadcastMsg.deliver, hse, hro]
    · cases hop
  · obtain ⟨r, -, he⟩ := mem_flatMap.1 he
    rw [uses_of_mem_operations he] at hop
    cases hop

theorem handles_turn {t : Turn} (hno : h.held.Nodup) (htu : h.turn t = some h') : Handles h h' (h.operations t) := by
  unfold turn at htu
  split_ifs at htu
  cases t with
  | register =>
    dsimp only at htu
    split at htu
    · cases htu
    next client rest hreg =>
    cases htu
    have hpe : (rest ++ (h.clients ++ [({ client := client } : Registered)]).map (·.client)).Perm h.held := by
      rw [held, hreg, map_append, ← append_assoc]
      exact perm_append_singleton _ _
    refine ⟨hpe.nodup_iff.2 hno, hpe.subset, ?_, Subset.refl _, ?_, ?_, ?_, ?_, ?_⟩
    all_goals simp [operations, held, hreg, ClientOp.usesChannel, Disciplined]
  | unregister =>
    dsimp only at htu
    split at htu
    · cases htu
    next client rest hunr =>
    cases htu
    have hgo : client ∉ (h.clients.filter (·.client ≠ client)).map (·.client) := by simp
    refine handles_drop (·.client ≠ client) hno rfl ?_ rfl ?_ (fun r _ hr => ?_) fun e he hop => ?_
    · rw [hunr]
      exact subset_cons_self _ _
    all_goals simp only [operations, hunr] at *
    · split_ifs with hmem
      · simpa [ClientOp.usesChannel] using hmem
      · simp [ClientOp.usesChannel]
    · split_ifs at hr
      · simpa using hr
      · simp at hr
    · have heq : e.1 = client := by split_ifs at he <;> aesop
      rw [heq]
      exact ⟨mem_cons_self, hgo⟩
  | broadcast =>
    dsimp only at htu
    split at htu
    · cases htu
    next msg rest hbro =>
    cases htu
    rw [operations, hbro]
    exact handles_broadcast hno rfl rfl rfl
  | stop =>
    cases htu
    refine handles_drop (fun _ => false) hno rfl (Subset.refl _) (by simp) ?_ (fun _ _ _ => rfl) ?_
    · rw [operations, filter_closings]
    · simp [operations, ClientOp.usesChannel]

end Steps

/-- The loop takes no unregister request of a client whose register request still waits. -/
def RegisteredFirst (st : HubRun) : HubEvent → Prop
  | .turn .unregister => ∀ client ∈ st.hub.unregister.head?, client ∉ st.hub.register
  | _ => True

instance (st : HubRun) (e : HubEvent) : Decidable (RegisteredFirst st e) := by
  unfold RegisteredFirst
  split <;> infer_instance

structure Ordered (st : HubRun) : Prop where
  nodup : st.hub.held.Nodup
  held : ∀ c ∈ st.hub.held, c ∈ st.opened
  waiting : ∀ c ∈ st.hub.unregister, c ∈ st.opened
  logged : ∀ e ∈ st.log, e.1 ∈ st.opened
  disciplined : Disciplined st.log
  closed : ∀ c, (c, .close) ∈ st.log → c ∉ st.hub.held

section Runs

variable {st st' : HubRun} {e : HubEvent}

theorem Ordered.handles (h : Ordered st) {hub : Hub} {ops : List (Client × ClientOp)} (hops : Handles st.hub hub ops) :
    Ordered { st with hub := hub, log := st.log ++ ops } where
  nodup := hops.nodup
  held c hc := h.held c (hops.subset hc)
  waiting c hc := h.waiting c (hops.unregister hc)
  logged e he := by
    rcases mem_append.1 he with he | he
    · exact h.logged e he
    · exact (hops.clients e he).elim (h.held _) (h.waiting _)
  disciplined := by
    refine pairwise_append.2 ⟨h.disciplined, hops.disciplined, fun a ha b hb hcl huse heq => ?_⟩
    refine h.closed a.1 ?_ (heq ▸ hops.uses b hb huse)
    rw [← hcl]
    exact ha
  closed c hc := by
    rcases mem_append.1 hc with hc | hc
    · exact fun hmem => h.closed c hc (hops.subset hmem)
    · exact hops.closed c hc

theorem held_take (h : Hub) (id : Nat) : held { h with clients := h.clients.map (·.take id) } = h.held := by
  simp only [held, map_map]
  congr 1
  refine map_congr_left fun r _ => ?_
  simp only [Function.comp_apply, Registered.take]
  split_ifs <;> rfl

theorem ordered_step (h : Ordered st) (hs : hubStep st e = some st') : Ordered st' := by
  cases e with
  | serve client =>
    obtain ⟨⟨hfr, -⟩, hs⟩ := Option.ite_none_right_eq_some.1 hs
    cases hs
    have hnew : client ∉ st.opened := fun hmem => hfr client hmem rfl
    have hpe : ((st.hub.register ++ [client]) ++ st.hub.clients.map (·.client)).Perm (client :: st.hub.held) := by
      rw [append_assoc]
      exact perm_middle
    have hmem (c : Client) (hc : c ∈ (st.hub.register ++ [client]) ++ st.hub.clients.map (·.client)) :
        c = client ∨ c ∈ st.hub.held := mem_cons.1 (hpe.subset hc)
    refine ⟨?_, fun c hc => ?_, fun c hc => mem_append_left _ (h.waiting c hc),
      fun e he => mem_append_left _ (h.logged e he), h.disciplined, fun c hc hhe => ?_⟩
    · exact hpe.nodup_iff.2 (nodup_cons.2 ⟨fun hmem => hnew (h.held _ hmem), h.nodup⟩)
    · rcases hmem c hc with rfl | hc
      · exact mem_append_right _ mem_cons_self
      · exact mem_append_left _ (h.held c hc)
    rcases hmem c hhe with rfl | hhe
    · exact hnew (h.logged _ hc)
    · exact h.closed c hc hhe
  | leave client =>
    obtain ⟨⟨hope, -⟩, hs⟩ := Option.ite_none_right_eq_some.1 hs
    cases hs
    refine { h with waiting := fun c hc => ?_ }
    rcases mem_append.1 hc with hc | hc
    · exact h.waiting c hc
    · rw [mem_singleton.1 hc]
      exact hope
  | enqueueBroadcast msg =>
    cases hs
    unfold enqueueBroadcast
    split_ifs
    · exact { h with }
    · exact h
  | disconnectUser uid =>
    cases hs
    exact h.handles (handles_disconnectUser h.nodup)
  | turn t =>
    obtain ⟨hub, htu, rfl⟩ := Option.map_eq_some_iff.1 hs
    exact h.handles (handles_turn h.nodup htu)
  | write id =>
    cases hs
    have hhe := held_take st.hub id
    exact ⟨hhe ▸ h.nodup, hhe ▸ h.held, h.waiting, h.logged, h.disciplined, hhe ▸ h.closed⟩

theorem ordered_start : Ordered {} := ⟨nodup_nil, nofun, nofun, nofun, .nil, nofun⟩

/-- A client whose unregister request has been taken is not held. -/
def Gone (st : HubRun) : Prop := ∀ c, (c, .unregister) ∈ st.log → c ∉ st.hub.held

theorem gone_step (h : Ordered st) (hgo : Gone st) (hg : RegisteredFirst st e) (hs : hubStep st e = some st') :
    Gone st' := by
  have hst {hub : Hub} {ops : List (Client × ClientOp)} (hops : Handles st.hub hub ops)
      (hnew : ∀ c, (c, .unregister) ∈ ops → c ∉ st.hub.register) :
      Gone { st with hub := hub, log := st.log ++ ops } := by
    intro c hc hhe
    rcases mem_append.1 hc with hc | hc
    · exact hgo c hc (hops.subset hhe)
    rcases mem_append.1 hhe with hhe | hhe
    · exact hnew c hc (hops.register hhe)
    · exact hops.taken c hc hhe
  cases e with
  | serve client =>
    obtain ⟨⟨hfr, -⟩, hs⟩ := Option.ite_none_right_eq_some.1 hs
    cases hs
    intro c hc hhe
    rw [held, append_assoc, mem_append, mem_append, mem_singleton] at hhe
    rcases hhe with hhe | rfl | hhe
    · exact hgo c hc (mem_append_left _ hhe)
    · exact hfr c (h.logged _ hc) rfl
    · exact hgo c hc (mem_append_right _ hhe)
  | leave client =>
    obtain ⟨-, hs⟩ := Option.ite_none_right_eq_some.1 hs
    cases hs
    exact hgo
  | enqueueBroadcast msg =>
    cases hs
    unfold enqueueBroadcast
    split_ifs <;> exact hgo
  | disconnectUser uid =>
    cases hs
    exact hst (handles_disconnectUser h.nodup) (by simp [closings])
  | write id =>
    cases hs
    intro c hc
    rw [held_take]
    exact hgo c hc
  | turn t =>
    obtain ⟨hub, htu, rfl⟩ := Option.map_eq_some_iff.1 hs
    refine hst (handles_turn h.nodup htu) fun c hc => ?_
    cases t with
    | register | stop => simp [operations] at hc
    | broadcast =>
      dsimp only [operations] at hc
      split at hc
      · cases hc
      · obtain ⟨r, -, hop⟩ := mem_flatMap.1 hc
        cases uses_of_mem_operations hop
    | unregister =>
      dsimp only [operations] at hc
      split at hc
      · cases hc
      next client rest hunr =>
      have heq : c = client := by split_ifs at hc <;> simpa using hc
      rw [heq]
      exact hg client (by rw [hunr]; rfl)

end Runs

/-- In every run no channel is closed twice or sent on after it was closed. In a run in which no unregister request is
taken before the register request of its client, a client both of whose requests were taken is not in the map. -/
theorem hub_channel_discipline {tr : List HubEvent} {st : HubRun} (hrun : Run (stepsTo hubStep) {} tr st) :
    Disciplined st.log ∧ (Run (Guarded RegisteredFirst (stepsTo hubStep)) {} tr st →
      ∀ c, (c, .register) ∈ st.log → (c, .unregister) ∈ st.log → c ∉ st.hub.clients.map (·.client)) := by
  have hord := hrun.invariant Ordered ordered_start fun _ _ _ h hs => ordered_step h hs
  refine ⟨hord.disciplined, fun hgua c _ hunr hmem => ?_⟩
  have hgo := hgua.invariant_of_guard (fun st => Ordered st ∧ Gone st) ⟨ordered_start, nofun⟩
    fun st e _ h (hg : RegisteredFirst st e) hs => ⟨ordered_step h.1 hs, gone_step h.1 h.2 hg hs⟩
  exact hgo.2 c hunr (mem_append_right _ hmem)

def servedClient : List HubEvent :=
  [.serve ⟨0, "u", .client⟩, .turn .register, .enqueueBroadcast { data := .userUnbanned "v" }, .turn .broadcast,
   .leave ⟨0, "u", .client⟩, .turn .unregister]

theorem hub_channel_discipline_served :
    ∃ st, Run (Guarded RegisteredFirst (stepsTo hubStep)) {} servedClient st ∧
      st.log = [(⟨0, "u", .client⟩, .register), (⟨0, "u", .client⟩, .send (.userUnbanned "v")),
        (⟨0, "u", .client⟩, .unregister), (⟨0, "u", .client⟩, .close)] ∧
      Disciplined st.log ∧ ⟨0, "u", .client⟩ ∉ st.hub.clients.map (·.client) := by
  refine Run.exists_of_guardedExec_imp (by decide) fun st hrun hlog => ⟨hlog, ?_⟩
  obtain ⟨hdis, hgo⟩ := hub_channel_discipline hrun.of_guarded
  exact ⟨hdis, hgo hrun _ (by simp [hlog]) (by simp [hlog])⟩

/-- A client leaves before the loop has taken its register request, and the loop takes the unregister request first. -/
theorem client_leaked :
    ∃ st, Run (stepsTo hubStep) {} [.serve ⟨0, "u", .client⟩, .leave ⟨0, "u", .client⟩, .turn .unregister, .turn .register]
        st ∧
      st.log = [(⟨0, "u", .client⟩, .unregister), (⟨0, "u", .client⟩, .register)] ∧
      st.hub.clients.map (·.client) = [⟨0, "u", .client⟩] := Run.exists_of_exec (by decide)

/-! `DisconnectUser` removes the clients of a banned user that are in the map of the hub. A socket that has passed the
check of the ban is not there yet, and the loop registers it later. -/

open SupportChat Fallible Option Subset

def Banned (p : Settings) (s : Scene) (userID : String) : Prop :=
  ∃ ban ∈ s.chat.store.bans.rows, ban.userIDHash = banHash p.plugin.keys userID ∧ ban.active s.now

instance (p : Settings) (s : Scene) (userID : String) : Decidable (Banned p s userID) := by
  unfold Banned
  infer_instance

variable {uid : String}

theorem banHash_inj {keys : Keys} {uid' : String} : banHash keys uid = banHash keys uid' ↔ uid = uid' := by
  simp [banHash]

section Bans

variable {p : Settings} {s : Scene} {uid : String}

theorem not_banned_of_checkBan {refusal : BanView → Refusal}
    (h : checkBan p.plugin s.now uid refusal s.chat = .ok ()) : ¬ Banned p s uid := by
  rintro ⟨ban, hban, hha, hact⟩
  unfold checkBan isUserBanned at h
  split at h
  · cases h
  · cases h
  next hch =>
  split at hch
  · next hfi =>
    have hn := Table.first_eq_none.1 hfi ban hban
    simp [hha, hact] at hn
  next row _ =>
  obtain ⟨_, _, hso⟩ := map_eq_ok.1 hch
  cases hso

theorem banned_of_tick {d : Nat} (h : Banned p { s with now := s.now + d } uid) : Banned p s uid := by
  obtain ⟨ban, hban, hha, hact⟩ := h
  refine ⟨ban, hban, hha, ?_⟩
  unfold SupportBan.active at hact ⊢
  cases hexp : ban.expiresAt with
  | none => rfl
  | some t =>
    rw [hexp] at hact
    simp only [all_some, decide_eq_true_eq] at hact ⊢
    exact lt_of_le_of_lt (Int.le_add_of_nonneg_right (Int.natCast_nonneg d)) hact

variable {draw : Draw} {adminID : String} {out : SupportChat.Outcome}

theorem banned_of_ban {req : CreateBanReq}
    (hout : (Request.adminCreateBan (some req)).handle p.plugin draw adminID s.chat = .ok out)
    (hne : uid ≠ req.userID) (h : Banned p { s with chat := out.chat } uid) : Banned p s uid := by
  obtain ⟨_, _, hout⟩ := bind_eq_ok.1 hout
  obtain ⟨req', hreq, hout⟩ := bind_eq_ok.1 hout
  cases hreq
  obtain ⟨_, _, hout⟩ := bind_eq_ok.1 hout
  obtain ⟨store, hban, hout⟩ := bind_eq_ok.1 hout
  cases hout
  obtain ⟨bans, hins, hst⟩ := bind_eq_ok.1 (mapError_eq_ok.1 hban)
  cases hst
  obtain ⟨ban, hmem, hha, hact⟩ := h
  have hro := (Table.insert_eq_some (inserted_eq_ok.1 (mapError_eq_ok.1 hins))).2
  rw [hro, mem_append, mem_singleton] at hmem
  rcases hmem with hmem | rfl
  · exact ⟨ban, (Table.mem_deleteWhere.1 hmem).1, hha, hact⟩
  · exact absurd (banHash_inj.1 hha).symm hne

theorem banned_of_unban {target : String}
    (hout : (Request.adminDeleteBan target).handle p.plugin draw adminID s.chat = .ok out)
    (h : Banned p { s with chat := out.chat } uid) : Banned p s uid := by
  obtain ⟨_, _, hout⟩ := bind_eq_ok.1 hout
  obtain ⟨_, _, hout⟩ := bind_eq_ok.1 hout
  cases hout
  obtain ⟨ban, hmem, hha, hact⟩ := h
  exact ⟨ban, (Table.mem_deleteWhere.1 hmem).1, hha, hact⟩

end Bans

def Task.opens : Task → Option String
  | .upgrade userID _ => some userID
  | .register client => some client.userID
  | _ => none

def Task.disconnects : Task → Option String
  | .disconnect req _ => some req.userID
  | _ => none

/-- A socket of the user is being opened, or waits for the loop. -/
def Opening (s : Scene) (userID : String) : Prop :=
  (∃ task ∈ s.tasks, task.opens = some userID) ∨ ∃ client ∈ s.hub.register, client.userID = userID

instance (s : Scene) (userID : String) : Decidable (Opening s userID) := by
  unfold Opening
  infer_instance

def Connected (s : Scene) (userID : String) : Prop := ∃ r ∈ s.hub.clients, r.client.userID = userID

def Disconnecting (s : Scene) (userID : String) : Prop := ∃ task ∈ s.tasks, task.disconnects = some userID

/-- A banned user whom no request is about to disconnect has no socket. -/
def Cut (p : Settings) (s : Scene) (userID : String) : Prop :=
  Banned p s userID → ¬ Disconnecting s userID → ¬ Opening s userID ∧ ¬ Connected s userID

/-- The step opens no socket for the user, bans nobody and leaves the requests that disconnect them. -/
structure Kept (p : Settings) (s s' : Scene) (userID : String) : Prop where
  banned : Banned p s' userID → Banned p s userID
  disconnecting : Disconnecting s userID → Disconnecting s' userID
  sockets : Opening s' userID ∨ Connected s' userID → Opening s userID ∨ Connected s userID

theorem Kept.cut {p : Settings} {s s' : Scene} (h : Kept p s s' uid) (hcut : Cut p s uid) : Cut p s' uid := by
  intro hban hdi
  obtain ⟨hope, hcon⟩ := hcut (h.banned hban) fun hd => hdi (h.disconnecting hd)
  have hn := fun hs => (h.sockets hs).elim hope hcon
  exact ⟨fun ho => hn (.inl ho), fun hc => hn (.inr hc)⟩

/-- When a user with a ban is disconnected no socket of theirs is being opened, and an administrator with a ban opens
none. -/
def NoneOpening (p : Settings) (s : Scene) : Label → Prop
  | .advance i _ => match s.tasks[i]? with
    | some (.disconnect req _) => Banned p s req.userID → ¬ Opening s req.userID
    | some (.accept userID .admin) => ¬ Banned p s userID
    | _ => True
  | _ => True

instance (p : Settings) (s : Scene) (l : Label) : Decidable (NoneOpening p s l) := by
  unfold NoneOpening
  split
  · split <;> infer_instance
  · infer_instance

/-- A turn of the loop registers clients that wait for it, and adds none that wait. -/
theorem turn_sockets {h h' : Hub} {t : Turn} (htu : h.turn t = some h') : h'.register ⊆ h.register ∧
      ∀ r ∈ h'.clients, r.client ∈ h.register ∨ ∃ r0 ∈ h.clients, r0.client = r.client := by
  unfold Hub.turn at htu
  split_ifs at htu
  cases t with
  | register =>
    dsimp only at htu
    split at htu
    · cases htu
    next client rest hreg =>
    cases htu
    rw [hreg]
    refine ⟨subset_cons_self _ _, fun r hr => ?_⟩
    rcases mem_append.1 hr with hr | hr
    · exact .inr ⟨r, hr, rfl⟩
    · rw [mem_singleton.1 hr]
      exact .inl mem_cons_self
  | unregister =>
    dsimp only at htu
    split at htu
    · cases htu
    · cases htu
      exact ⟨refl _, fun r hr => .inr ⟨r, mem_of_mem_filter hr, rfl⟩⟩
  | broadcast =>
    dsimp only at htu
    split at htu
    · cases htu
    next msg rest _ =>
    cases htu
    refine ⟨refl _, fun r hr => ?_⟩
    obtain ⟨r0, hr0, hdel⟩ := mem_filterMap.1 hr
    refine .inr ⟨r0, hr0, ?_⟩
    unfold BroadcastMsg.deliver at hdel
    split_ifs at hdel
    all_goals
      cases hdel
      rfl
  | stop =>
    cases htu
    exact ⟨refl _, fun r hr => absurd hr not_mem_nil⟩

section Steps

variable {p : Settings} {s s' : Scene} {uid : String} {i : Nat} {task : Task} {next : List Task}

theorem kept_add (hop : task.opens = none) : Kept p s { s with tasks := s.tasks ++ [task] } uid where
  banned h := h
  disconnecting := fun ⟨t, ht, heq⟩ => ⟨t, mem_append_left _ ht, heq⟩
  sockets h := by
    rcases h with (⟨t, ht, heq⟩ | hque) | hcon
    · rcases mem_append.1 ht with ht | ht
      · exact .inl (.inl ⟨t, ht, heq⟩)
      · rw [mem_singleton.1 ht, hop] at heq
        cases heq
    · exact .inl (.inr hque)
    · exact .inr hcon

theorem kept_hub {hub : Hub} (hreg : hub.register ⊆ s.hub.register)
    (hcli : ∀ r ∈ hub.clients, r.client ∈ s.hub.register ∨ ∃ r0 ∈ s.hub.clients, r0.client = r.client) :
    Kept p s { s with hub := hub } uid where
  banned h := h
  disconnecting h := h
  sockets h := by
    rcases h with (hop | ⟨client, hclie, heq⟩) | ⟨r, hr, heq⟩
    · exact .inl (.inl hop)
    · exact .inl (.inr ⟨client, hreg hclie, heq⟩)
    rcases hcli r hr with hque | ⟨r0, hr0, hsa⟩
    · exact .inl (.inr ⟨r.client, hque, heq⟩)
    · exact .inr ⟨r0, hr0, by rw [hsa]; exact heq⟩

theorem kept_task (s' : Scene) (hi : s.tasks[i]? = some task) (hdi : task.disconnects ≠ some uid)
    (hban : Banned p s' uid → Banned p s uid) (hne : ∀ t ∈ next, t.opens = some uid → Opening s uid)
    (hreg : ∀ client ∈ s'.hub.register, client.userID = uid → Opening s uid)
    (hcli : s'.hub.clients ⊆ s.hub.clients) :
    Kept p s { s' with tasks := Pool.replace s.tasks i next } uid where
  banned := hban
  disconnecting := by
    rintro ⟨t, ht, heq⟩
    rcases Pool.eq_or_mem_replace hi ht with rfl | ht
    · exact absurd heq hdi
    · exact ⟨t, ht, heq⟩
  sockets h := by
    rcases h with (⟨t, ht, heq⟩ | ⟨client, hclie, heq⟩) | ⟨r, hr, heq⟩
    · rcases Pool.of_mem_replace ht with ht | ht
      · exact .inl (hne t ht heq)
      · exact .inl (.inl ⟨t, ht, heq⟩)
    · exact .inl (hreg client hclie heq)
    · exact .inr ⟨r, hcli hr, heq⟩

theorem kept_quiet (hi : s.tasks[i]? = some task) (hdi : task.disconnects ≠ some uid)
    (hne : ∀ t ∈ next, t.opens = some uid → Opening s uid) :
    Kept p s { s with tasks := Pool.replace s.tasks i next } uid :=
  kept_task _ hi hdi (fun h => h) hne (fun client hcli heq => .inr ⟨client, hcli, heq⟩) (refl _)

variable {draw : Draw} {role : Role} {req : CreateBanReq} {adminID : String}

theorem not_banned_of_accept (hi : s.tasks[i]? = some (.accept uid role))
    (hg : NoneOpening p s (.advance i draw)) (hacc : accept p s.now uid role s.chat = .ok ()) :
    ¬ Banned p s uid := by
  cases role with
  | admin =>
    simp only [NoneOpening, hi] at hg
    exact hg
  | client =>
    obtain ⟨_, _, hacc⟩ := bind_eq_ok.1 hacc
    obtain ⟨_, _, hacc⟩ := bind_eq_ok.1 hacc
    exact not_banned_of_checkBan hacc

theorem cut_accept {opened : String} (hi : s.tasks[i]? = some (.accept opened role)) (hcut : Cut p s uid)
    (hg : NoneOpening p s (.advance i draw)) (hacc : accept p s.now opened role s.chat = .ok ()) :
    Cut p { s with tasks := Pool.replace s.tasks i [.upgrade opened role] } uid := by
  by_cases heq : opened = uid
  · subst heq
    have hfr := not_banned_of_accept hi hg hacc
    exact fun hban => (hfr hban).elim
  refine Kept.cut (kept_quiet hi nofun fun t ht hop => ?_) hcut
  rw [mem_singleton.1 ht] at hop
  exact absurd (some.inj hop) heq

theorem cut_ban {out : SupportChat.Outcome} (hi : s.tasks[i]? = some (.ban req adminID)) (hcut : Cut p s uid)
    (hout : (Request.adminCreateBan (some req)).handle p.plugin draw adminID s.chat = .ok out) :
    Cut p { s with chat := out.chat, tasks := Pool.replace s.tasks i [.disconnect req adminID] } uid := by
  by_cases heq : uid = req.userID
  · subst heq
    intro _ hdi
    exact absurd ⟨_, Pool.mem_replace mem_cons_self, rfl⟩ hdi
  refine Kept.cut (kept_task { s with chat := out.chat } hi nofun (banned_of_ban hout heq)
    (fun t ht hop => ?_) (fun client hcli hid => .inr ⟨client, hcli, hid⟩) (refl _)) hcut
  rw [mem_singleton.1 ht] at hop
  cases hop

theorem cut_disconnect {msg : BroadcastMsg} (hi : s.tasks[i]? = some (.disconnect req adminID))
    (hcut : Cut p s uid) (hg : NoneOpening p s (.advance i draw)) :
    Cut p { s with hub := s.hub.disconnectUser req.userID, tasks := Pool.replace s.tasks i [.notify msg] } uid := by
  have hne : ∀ t ∈ [Task.notify msg], t.opens = some uid → Opening s uid := by
    intro t ht hop
    rw [mem_singleton.1 ht] at hop
    cases hop
  by_cases heq : req.userID = uid
  · subst heq
    simp only [NoneOpening, hi] at hg
    intro hban _
    refine ⟨fun hope => hg hban ?_, ?_⟩
    · rcases hope with ⟨t, ht, hop⟩ | hque
      · rcases Pool.of_mem_replace ht with ht | ht
        · exact hne t ht hop
        · exact .inl ⟨t, ht, hop⟩
      · exact .inr hque
    · rintro ⟨r, hr, hid⟩
      have ho := (mem_filter.1 hr).2
      simp [hid] at ho
  · refine Kept.cut (kept_task { s with hub := s.hub.disconnectUser req.userID } hi
      (fun h => heq (some.inj h)) (fun h => h) hne (fun client hcli hid => .inr ⟨client, hcli, hid⟩)
      fun _ => mem_of_mem_filter) hcut

theorem kept_register {client : Client} (hi : s.tasks[i]? = some (.register client)) :
    Kept p s { s with hub := { s.hub with register := s.hub.register ++ [client] }
                      tasks := Pool.replace s.tasks i [.read client] } uid := by
  refine kept_task { s with hub := { s.hub with register := s.hub.register ++ [client] } } hi nofun
    (fun h => h) (fun t ht hop => ?_) (fun other ho hid => ?_) (refl _)
  · rw [mem_singleton.1 ht] at hop
    cases hop
  rcases mem_append.1 ho with ho | ho
  · exact .inr ⟨other, ho, hid⟩
  · rw [mem_singleton.1 ho] at hid
    exact .inl ⟨.register client, mem_of_getElem? hi, congrArg some hid⟩

theorem cut_advance (hi : s.tasks[i]? = some task) (hcut : Cut p s uid)
    (hg : NoneOpening p s (.advance i draw)) (hadv : task.advance p draw s = some (s', next)) :
    Cut p { s' with tasks := Pool.replace s.tasks i next } uid := by
  have hend : ∀ t ∈ ([] : List Task), t.opens = some uid → Opening s uid := fun _ ht => absurd ht not_mem_nil
  cases task with
  | accept opened role =>
    dsimp only [Task.advance] at hadv
    split at hadv
    · next hacc =>
      cases hadv
      exact cut_accept (s := s) hi hcut hg hacc
    · cases hadv
      exact (kept_quiet hi nofun hend).cut hcut
  | upgrade opened role =>
    cases hadv
    refine Kept.cut (kept_task _ hi nofun (fun h => h) (fun t ht hop => ?_)
      (fun client hcli hid => .inr ⟨client, hcli, hid⟩) (refl _)) hcut
    rw [mem_singleton.1 ht] at hop
    exact .inl ⟨.upgrade opened role, mem_of_getElem? hi, hop⟩
  | register client =>
    obtain ⟨_, hadv⟩ := ite_none_right_eq_some.1 hadv
    cases hadv
    exact (kept_register hi).cut hcut
  | read client =>
    cases hadv
    refine Kept.cut (kept_quiet hi nofun fun t ht hop => ?_) hcut
    rw [mem_singleton.1 ht] at hop
    cases hop
  | unregister client =>
    obtain ⟨_, hadv⟩ := ite_none_right_eq_some.1 hadv
    cases hadv
    exact Kept.cut (kept_task _ hi nofun (fun h => h) hend
      (fun client hcli hid => .inr ⟨client, hcli, hid⟩) (refl _)) hcut
  | ban req adminID =>
    dsimp only [Task.advance] at hadv
    split at hadv
    · next out hout =>
      cases hadv
      exact cut_ban (s := s) hi hcut hout
    · cases hadv
      exact (kept_quiet hi nofun hend).cut hcut
  | disconnect req adminID =>
    cases hadv
    exact cut_disconnect (s := s) hi hcut hg
  | unban target adminID =>
    dsimp only [Task.advance] at hadv
    split at hadv
    · next out hout =>
      cases hadv
      refine Kept.cut (kept_task _ hi nofun (banned_of_unban hout) (fun t ht hop => ?_)
        (fun client hcli hid => .inr ⟨client, hcli, hid⟩) (refl _)) hcut
      rw [mem_singleton.1 ht] at hop
      cases hop
    · cases hadv
      exact (kept_quiet hi nofun hend).cut hcut
  | notify msg =>
    cases hadv
    refine Kept.cut (kept_task _ hi nofun (fun h => h) hend (fun client hcli hid => .inr ⟨client, ?_, hid⟩) ?_) hcut
    · unfold Hub.enqueueBroadcast at hcli
      split_ifs at hcli
      · exact hcli
      · exact hcli
    · unfold Hub.enqueueBroadcast
      split_ifs
      · exact refl _
      · exact refl _

theorem cut_fail (hi : s.tasks[i]? = some task) (hcut : Cut p s uid) (hfa : task.fail = some next) :
    Cut p { s with tasks := Pool.replace s.tasks i next } uid := by
  obtain ⟨hdi, rfl⟩ : task.disconnects = none ∧ next = [] := by
    cases task <;> cases hfa <;> exact ⟨rfl, rfl⟩
  refine (kept_quiet hi (fun h => ?_) fun _ ht => absurd ht not_mem_nil).cut hcut
  rw [hdi] at h
  cases h

theorem cut_step {l : Label} (hcut : Cut p s uid) (hg : NoneOpening p s l) (hs : step p s l = some s') :
    Cut p s' uid := by
  cases l with
  | connect opened role | createBan req adminID | deleteBan target adminID | send msg =>
    cases hs
    exact (kept_add rfl).cut hcut
  | advance i draw =>
    obtain ⟨task, hi, hs⟩ := bind_eq_some_iff.1 hs
    obtain ⟨⟨s', next⟩, hadv, hs⟩ := bind_eq_some_iff.1 hs
    cases hs
    exact cut_advance hi hcut hg hadv
  | fail i =>
    obtain ⟨task, hi, hs⟩ := bind_eq_some_iff.1 hs
    obtain ⟨next, hfa, hs⟩ := bind_eq_some_iff.1 hs
    cases hs
    exact cut_fail hi hcut hfa
  | turn t =>
    obtain ⟨hub, htu, hs⟩ := bind_eq_some_iff.1 hs
    cases hs
    obtain ⟨hreg, hcli⟩ := turn_sockets htu
    exact (kept_hub hreg hcli).cut hcut
  | write id =>
    cases hs
    refine Kept.cut (kept_hub (refl _) fun r hr => ?_) hcut
    obtain ⟨r0, hr0, rfl⟩ := mem_map.1 hr
    refine .inr ⟨r0, hr0, ?_⟩
    unfold Registered.take
    split_ifs
    · rfl
    · rfl
  | tick d =>
    cases hs
    exact Kept.cut ⟨banned_of_tick, fun h => h, fun h => h⟩ hcut

end Steps

theorem cut_empty (p : Settings) (uid : String) : Cut p {} uid := fun ⟨_, hban, _⟩ => absurd hban not_mem_nil

/-- In a run in which no socket of a banned user is being opened when they are disconnected, and no banned administrator
opens one, a banned user whose ban request has returned has no client in the hub and none that waits for it. -/
theorem banned_users_disconnected (p : Settings) {s₀ : Scene} (hstart : ∀ userID, Cut p s₀ userID) {tr : List Label}
    {s : Scene} (hrun : Run (Guarded (NoneOpening p) (stepsTo (step p))) s₀ tr s) {userID : String}
    (hbanned : Banned p s userID) (hreturned : ∀ req adminID, .disconnect req adminID ∈ s.tasks → req.userID ≠ userID) :
    (∀ r ∈ s.hub.clients, r.client.userID ≠ userID) ∧ ∀ client ∈ s.hub.register, client.userID ≠ userID := by
  have hcut := hrun.invariant_of_guard (fun s => ∀ userID, Cut p s userID) hstart
    fun _ _ _ hcut hg hs userID => cut_step (hcut userID) hg hs
  have hdi : ¬ Disconnecting s userID := by
    rintro ⟨task, hta, heq⟩
    cases task with
    | disconnect req adminID => exact hreturned req adminID hta (some.inj heq)
    | _ => cases heq
  obtain ⟨hope, hcon⟩ := hcut userID hbanned hdi
  exact ⟨fun r hr heq => hcon ⟨r, hr, heq⟩, fun client hcli heq => hope (.inr ⟨client, hcli, heq⟩)⟩

def socketSettings : Settings where
  plugin := { keys := { active := "k" }, mediaRoot := "/m", isAdminUser := (· == "root") }

/-- The request or socket at this place goes on. -/
def goOn (i : Nat) : Label := .advance i ⟨0, "1", "2"⟩

def bannedAfter : List Label :=
  [.connect "u" .client, goOn 0, goOn 0, goOn 0, .turn .register, .createBan { userID := "u" } "root", goOn 1, goOn 1]

theorem banned_users_disconnected_connected :
    ∃ s, Run (Guarded (NoneOpening socketSettings) (stepsTo (step socketSettings))) {} bannedAfter s ∧
      Banned socketSettings s "u" ∧
      (∀ r ∈ s.hub.clients, r.client.userID ≠ "u") ∧ ∀ client ∈ s.hub.register, client.userID ≠ "u" := by
  exact Run.exists_of_guardedExec_imp
    (P := fun s => Banned socketSettings s "u" ∧ ∀ task ∈ s.tasks, task.disconnects = none) (by decide +kernel)
    fun s hrun ⟨hban, hta⟩ =>
      ⟨hban, banned_users_disconnected socketSettings (cut_empty socketSettings) hrun hban
        fun req adminID hmem => nomatch hta _ hmem⟩

/-- The check of the ban passes, the ban is stored and the user disconnected, and then the socket is registered. -/
def bannedMeanwhile : List Label :=
  [.connect "u" .client, goOn 0, .createBan { userID := "u" } "root", goOn 1, goOn 1, goOn 1, goOn 0, goOn 0,
   .turn .broadcast, .turn .register]

def adminBanned : List Label :=
  [.createBan { userID := "root" } "root", goOn 0, goOn 0, goOn 0, .connect "root" .admin, goOn 0, goOn 0, goOn 0,
   .turn .broadcast, .turn .register]

/-- The ban request has returned and the loop has nothing left to do, and the banned user has a client in the hub. -/
theorem banned_user_connected :
    (∃ s, Run (stepsTo (step socketSettings)) {} bannedMeanwhile s ∧ Banned socketSettings s "u" ∧
      s.tasks = [.read ⟨0, "u", .client⟩] ∧ s.hub.register = [] ∧ s.hub.unregister = [] ∧ s.hub.broadcast = [] ∧
      s.hub.clients.map (·.client.userID) = ["u"]) ∧
    ∃ s, Run (stepsTo (step socketSettings)) {} adminBanned s ∧ Banned socketSettings s "root" ∧
      s.tasks = [.read ⟨0, "root", .admin⟩] ∧ s.hub.register = [] ∧ s.hub.unregister = [] ∧ s.hub.broadcast = [] ∧
      s.hub.clients.map (·.client.userID) = ["root"] :=
  ⟨Run.exists_of_exec (by decide +kernel), Run.exists_of_exec (by decide +kernel)⟩

end Xraytool.SupportHub
