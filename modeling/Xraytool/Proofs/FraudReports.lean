import Xraytool.Spec.Antifraud

/-! Anti-fraud reports are not lost: an event leaves the outbox of the slave when the master has its receipt. They can
be counted twice: there is no receipt for what a sink has accepted before a failure or a stop of the master, and two
streams may bring the same events at once. -/

namespace Xraytool.FraudOutbox

open Transition List Ingest Scene Pool

namespace Ingest

def fed : Ingest → List FraudEvent
  | .fraudSink _ fed _ => fed
  | .markFraudReceived _ pending => pending
  | _ => []

def rest : Ingest → List FraudEvent
  | .fraudSink _ _ rest => rest
  | _ => []

def claims (ingest : Ingest) : List String := ids ingest.fed ++ ids ingest.rest

end Ingest

/-- An ingestion that has handed an event over goes on until the receipts are stored, and receipts are not looked up for
an event that another ingestion is handing over. -/
def Orderly (st : Scene) : Action → Prop
  | .advance i => match st.ingests[i]? with
    | some (.unreceivedFraudEvents events) => ∀ ingest ∈ st.ingests, ∀ e ∈ events, e.id ∉ ingest.claims
    | _ => True
  | .fail i processed => ∀ ingest ∈ st.ingests[i]?, ingest.fed = [] ∧ processed = false
  | .restartMaster => ∀ ingest ∈ st.ingests, ingest.fed = []
  | _ => True

instance (st : Scene) (a : Action) : Decidable (Orderly st a) := by
  unfold Orderly
  split
  · split <;> infer_instance
  all_goals infer_instance

variable {st st' : Scene} {i k : Nat} {e : FraudEvent} {evs fed rest pending : List FraudEvent} {next : List Ingest}

theorem mem_ids_of_mem (h : e ∈ evs) : e.id ∈ ids evs := mem_map_of_mem h

/-- The steps of the slave and of the frames and acknowledgements on their way. -/
def Action.outside : Action → Bool
  | .receive _ | .advance _ | .fail _ _ | .restartMaster => false
  | _ => true

/-- They leave the ingestions alone and what the master has accepted and stored, and send no acknowledgement. -/
structure SameMaster (st st' : Scene) : Prop where
  ingests : st'.ingests = st.ingests
  receipts : st'.receipts = st.receipts
  accepted : st'.accepted = st.accepted
  acks : st'.acks ⊆ st.acks

theorem SameMaster.refl (st : Scene) : SameMaster st st := ⟨rfl, rfl, rfl, Subset.refl _⟩

variable {a : Action}

theorem sameMaster_fraudStep (hout : a.outside = true) (hs : fraudStep st a = some st') : SameMaster st st' := by
  cases a with
  | reportFraudEvents now evs =>
    simp only [fraudStep, enqueueFraudEvents] at hs
    split at hs
    · cases hs
      split_ifs
      · exact ⟨rfl, rfl, rfl, Subset.refl _⟩
      · exact .refl st
    · cases hs
  | flushFraudOutbox =>
    cases hs
    unfold flushFraudOutbox
    split
    · exact .refl st
    · exact ⟨rfl, rfl, rfl, Subset.refl _⟩
  | acknowledgeFraudEvents k =>
    obtain ⟨eventIDs, -, rfl⟩ := Option.map_eq_some_iff.1 hs
    exact ⟨rfl, rfl, rfl, eraseIdx_subset⟩
  | loseFrame k =>
    cases hs
    exact ⟨rfl, rfl, rfl, Subset.refl _⟩
  | loseAck k =>
    cases hs
    exact ⟨rfl, rfl, rfl, eraseIdx_subset⟩
  | restartSlave =>
    cases hs
    exact ⟨rfl, rfl, rfl, nil_subset _⟩
  | _ => cases hout

/-- What an ingestion has handed over was accepted, and the rest of its frame has receipts. -/
def Ingest.Backed (accepted receipts : List String) : Ingest → Prop
  | .unreceivedFraudEvents _ => True
  | .fraudSink events fed rest =>
    (∀ e ∈ fed, e.id ∈ accepted) ∧ ∀ e ∈ events, e ∈ fed ∨ e ∈ rest ∨ e.id ∈ receipts
  | .markFraudReceived events pending => (∀ e ∈ pending, e.id ∈ accepted) ∧ ∀ e ∈ events, e ∈ pending ∨ e.id ∈ receipts
  | .acknowledge events => ∀ e ∈ events, e.id ∈ receipts

variable {ingest : Ingest}

theorem Ingest.Backed.mono {accepted accepted' receipts receipts' : List String}
    (h : ingest.Backed accepted receipts) (hacc : accepted ⊆ accepted') (hrec : receipts ⊆ receipts') :
    ingest.Backed accepted' receipts' := by
  cases ingest with
  | unreceivedFraudEvents evs => trivial
  | fraudSink evs fed rest =>
    exact ⟨fun e he => hacc (h.1 e he), fun e he => (h.2 e he).imp_right (Or.imp_right (@hrec _))⟩
  | markFraudReceived evs pending =>
    exact ⟨fun e he => hacc (h.1 e he), fun e he => (h.2 e he).imp_right (@hrec _)⟩
  | acknowledge evs => exact fun e he => hrec (h e he)

/-- What is acknowledged has a receipt, and what has a receipt was accepted. -/
structure Stored (st : Scene) : Prop where
  receipts : st.receipts ⊆ st.accepted
  acks : ∀ ack ∈ st.acks, ack ⊆ st.receipts
  ingests : ∀ ingest ∈ st.ingests, ingest.Backed st.accepted st.receipts

namespace Stored

theorem goOn (h : Stored st) (hne : ∀ ingest ∈ next, ingest.Backed st.accepted st.receipts) :
    Stored (st.goOn i next) := by
  refine { h with ingests := fun ingest hing => ?_ }
  rcases of_mem_replace hing with hnew | hold
  · exact hne ingest hnew
  · exact h.ingests ingest hold

theorem accept (h : Stored st) (e : FraudEvent) : Stored (st.accept e) := by
  have hgr : st.accepted ⊆ st.accepted ++ [e.id] := subset_append_left _ _
  exact ⟨fun id hid => hgr (h.receipts hid), h.acks,
    fun ingest hing => (h.ingests ingest hing).mono hgr (Subset.refl _)⟩

theorem mark (h : Stored st) (hpen : ∀ e ∈ pending, e.id ∈ st.accepted) :
    Stored { st with receipts := st.receipts ++ (ids pending).filter fun id => id ∉ st.receipts } := by
  have hgr : st.receipts ⊆ st.receipts ++ (ids pending).filter fun id => id ∉ st.receipts := subset_append_left _ _
  refine ⟨fun id hid => ?_, fun ack hack => Subset.trans (h.acks ack hack) hgr,
    fun ingest hing => (h.ingests ingest hing).mono (Subset.refl _) hgr⟩
  rcases mem_append.1 hid with hold | hnew
  · exact h.receipts hold
  · obtain ⟨e, he, rfl⟩ := mem_map.1 (mem_filter.1 hnew).1
    exact hpen e he

end Stored

theorem mem_receipts_of_mark (he : e ∈ pending) :
    e.id ∈ st.receipts ++ (ids pending).filter fun id => id ∉ st.receipts := by
  by_cases hold : e.id ∈ st.receipts
  · exact mem_append_left _ hold
  · exact mem_append_right _ (mem_filter.2 ⟨mem_ids_of_mem he, by simpa using hold⟩)

theorem stored_advance (h : Stored st) (hi : st.ingests[i]? = some ingest) : Stored (st.advance i ingest) := by
  have hbac := h.ingests ingest (mem_of_getElem? hi)
  unfold advance
  split
  · rename_i evs
    -- an event that is left out of the pending ones has a receipt
    have hre : ∀ e ∈ evs, e ∈ evs.filter (fun e => e.id ∉ st.receipts) ∨ e.id ∈ st.receipts := by
      intro e he
      by_cases hrec : e.id ∈ st.receipts
      · exact .inr hrec
      · exact .inl (mem_filter.2 ⟨he, by simpa using hrec⟩)
    split
    · rename_i hn
      refine h.goOn (forall_mem_singleton.2 fun e he => ?_)
      rcases hre e he with hpen | hrec
      · rw [hn] at hpen
        cases hpen
      · exact hrec
    · exact h.goOn (forall_mem_singleton.2 ⟨by simp, fun e he => .inr (hre e he)⟩)
  · rename_i evs fed e rest
    refine (h.accept e).goOn (forall_mem_singleton.2 ⟨fun e' he' => ?_, fun e' he' => ?_⟩)
    · rcases mem_append.1 he' with hfed | hnew
      · exact mem_append_left _ (hbac.1 e' hfed)
      · obtain rfl := mem_singleton.1 hnew
        exact mem_append_right _ (mem_singleton_self _)
    · rcases hbac.2 e' he' with hfed | hre | hrec
      · exact .inl (mem_append_left _ hfed)
      · rcases mem_cons.1 hre with rfl | hre
        · exact .inl (mem_append_right _ (mem_singleton_self _))
        · exact .inr (.inl hre)
      · exact .inr (.inr hrec)
  · refine h.goOn (forall_mem_singleton.2 ⟨hbac.1, fun e he => ?_⟩)
    rcases hbac.2 e he with hfed | hnil | hrec
    · exact .inl hfed
    · cases hnil
    · exact .inr hrec
  · refine (h.mark hbac.1).goOn (forall_mem_singleton.2 fun e he => ?_)
    rcases hbac.2 e he with hpen | hrec
    · exact mem_receipts_of_mark hpen
    · exact mem_append_left _ hrec
  · rename_i evs
    have hse : Stored { st with acks := st.acks ++ [ids evs] } := by
      refine { h with acks := fun ack hack => ?_ }
      rcases mem_append.1 hack with hold | hnew
      · exact h.acks ack hold
      obtain rfl := mem_singleton.1 hnew
      intro id hid
      obtain ⟨e, he, rfl⟩ := mem_map.1 hid
      exact hbac e he
    exact hse.goOn (forall_mem_nil _)

theorem stored_fail (h : Stored st) {processed : Bool} : Stored (st.fail i processed ingest) := by
  unfold fail
  split
  · refine Stored.goOn ?_ (forall_mem_nil _)
    split_ifs
    · exact h.accept _
    · exact h
  · exact h.goOn (forall_mem_nil _)

theorem Stored.same (h : Stored st) (hsa : SameMaster st st') : Stored st' := by
  refine ⟨?_, fun ack hack => ?_, ?_⟩
  · rw [hsa.receipts, hsa.accepted]
    exact h.receipts
  · rw [hsa.receipts]
    exact h.acks ack (hsa.acks hack)
  · rw [hsa.ingests, hsa.accepted, hsa.receipts]
    exact h.ingests

theorem stored_fraudStep (h : Stored st) (hs : fraudStep st a = some st') : Stored st' := by
  by_cases hout : a.outside = true
  · exact h.same (sameMaster_fraudStep hout hs)
  cases a with
  | receive k =>
    obtain ⟨evs, -, rfl⟩ := Option.map_eq_some_iff.1 hs
    unfold receive
    split_ifs
    · refine { h with ingests := fun ingest hing => ?_ }
      rcases mem_append.1 hing with hold | hnew
      · exact h.ingests ingest hold
      · obtain rfl := mem_singleton.1 hnew
        trivial
    · exact { h with }
  | advance i =>
    obtain ⟨ingest, hi, rfl⟩ := Option.map_eq_some_iff.1 hs
    exact stored_advance h hi
  | fail i processed =>
    obtain ⟨ingest, -, rfl⟩ := Option.map_eq_some_iff.1 hs
    exact stored_fail h
  | restartMaster =>
    cases hs
    exact { h with ingests := forall_mem_nil _ }
  | _ => exact absurd rfl hout

theorem outbox_fraudStep (hste : fraudStep st a = some st') (he : e ∈ st.outbox) (hgo : e ∉ st'.outbox) :
    ∃ ack ∈ st.acks, e.id ∈ ack := by
  have hke {s : Scene} (h : s.outbox = st.outbox) (hs : s = st') : False := hgo (hs ▸ h ▸ he)
  cases a with
  | reportFraudEvents now evs =>
    simp only [fraudStep, enqueueFraudEvents] at hste
    split at hste
    · cases hste
      split_ifs at hgo
      · exact absurd (mem_append_left _ he) hgo
      · exact absurd he hgo
    · cases hste
  | flushFraudOutbox =>
    refine (hke ?_ (Option.some.inj hste)).elim
    unfold flushFraudOutbox
    split <;> rfl
  | receive k =>
    obtain ⟨evs, -, hst⟩ := Option.map_eq_some_iff.1 hste
    refine (hke ?_ hst).elim
    unfold receive
    split_ifs <;> rfl
  | advance i =>
    obtain ⟨ingest, -, hst⟩ := Option.map_eq_some_iff.1 hste
    refine (hke ?_ hst).elim
    unfold advance
    split
    · split <;> rfl
    all_goals rfl
  | fail i processed =>
    obtain ⟨ingest, -, hst⟩ := Option.map_eq_some_iff.1 hste
    refine (hke ?_ hst).elim
    unfold fail
    split
    · split_ifs <;> rfl
    · rfl
  | acknowledgeFraudEvents k =>
    obtain ⟨eventIDs, hack, rfl⟩ := Option.map_eq_some_iff.1 hste
    refine ⟨eventIDs, mem_of_getElem? hack, ?_⟩
    by_contra hid
    exact hgo (mem_filter.2 ⟨he, by simpa using hid⟩)
  | loseFrame k | loseAck k | restartSlave | restartMaster =>
    cases hste
    exact absurd he hgo

/-- The ids of a batch differ, as those of the outbox do. -/
structure Batches (st : Scene) : Prop where
  outbox : (ids st.outbox).Nodup
  used : ids st.outbox ⊆ st.used
  frames : ∀ events ∈ st.frames, (ids events).Nodup
  lookups : ∀ events, .unreceivedFraudEvents events ∈ st.ingests → (ids events).Nodup

theorem ids_stamp {now : Time} : ids (evs.map (·.stamp now)) = ids evs := by
  rw [ids, map_map]
  rfl

theorem batches_enqueue {now : Time} (h : Batches st) (hs : st.enqueueFraudEvents now evs = some st') :
    Batches st' := by
  unfold enqueueFraudEvents at hs
  split at hs
  · rename_i hnew
    cases hs
    split_ifs
    · have hids : ids (st.outbox ++ evs.map (·.stamp now)) = ids st.outbox ++ ids evs := by
        rw [ids, map_append]
        exact congrArg _ ids_stamp
      refine ⟨?_, ?_, h.frames, h.lookups⟩
      · rw [hids, nodup_append']
        exact ⟨h.outbox, hnew.1, fun id hold hid => (hnew.2 id hid).2 (h.used hold)⟩
      rw [hids]
      refine append_subset.2 ⟨Subset.trans h.used (subset_append_left _ _), ?_⟩
      exact subset_append_right _ _
    · exact h
  · cases hs

theorem Batches.goOn (h : Batches st) (hne : ∀ evs, .unreceivedFraudEvents evs ∉ next) : Batches (st.goOn i next) := by
  refine { h with lookups := fun evs heve => ?_ }
  rcases of_mem_replace heve with hnew | hold
  · exact absurd hnew (hne evs)
  · exact h.lookups evs hold

theorem batches_fraudStep (h : Batches st) (hs : fraudStep st a = some st') : Batches st' := by
  cases a with
  | reportFraudEvents now evs => exact batches_enqueue h hs
  | flushFraudOutbox =>
    cases hs
    unfold flushFraudOutbox
    split
    · exact h
    refine { h with frames := fun evs heve => ?_ }
    rcases mem_append.1 heve with hold | hnew
    · exact h.frames evs hold
    · obtain rfl := mem_singleton.1 hnew
      exact h.outbox.sublist ((take_sublist 100 _).map _)
  | receive k =>
    obtain ⟨evs, heve, rfl⟩ := Option.map_eq_some_iff.1 hs
    have hfra : ∀ evs ∈ st.frames.eraseIdx k, (ids evs).Nodup := fun evs heve => h.frames evs (mem_of_mem_eraseIdx heve)
    unfold receive
    split_ifs
    · refine ⟨h.outbox, h.used, hfra, fun evs' hl => ?_⟩
      rcases mem_append.1 hl with hold | hnew
      · exact h.lookups evs' hold
      · obtain rfl := unreceivedFraudEvents.inj (mem_singleton.1 hnew)
        exact h.frames evs' (mem_of_getElem? heve)
    · exact { h with frames := hfra }
  | advance i =>
    obtain ⟨ingest, -, rfl⟩ := Option.map_eq_some_iff.1 hs
    unfold advance
    split
    · split
      · exact h.goOn (by simp)
      · exact h.goOn (by simp)
    · exact Batches.goOn { h with } (by simp)
    · exact h.goOn (by simp)
    · exact Batches.goOn { h with } (by simp)
    · exact Batches.goOn { h with } (by simp)
  | fail i processed =>
    obtain ⟨ingest, -, rfl⟩ := Option.map_eq_some_iff.1 hs
    unfold fail
    split
    · split_ifs
      · exact Batches.goOn { h with } (by simp)
      · exact h.goOn (by simp)
    · exact h.goOn (by simp)
  | acknowledgeFraudEvents k =>
    obtain ⟨eventIDs, -, rfl⟩ := Option.map_eq_some_iff.1 hs
    have hsub : (ids (st.outbox.filter fun e => e.id ∉ eventIDs)).Sublist (ids st.outbox) := filter_sublist.map _
    exact ⟨h.outbox.sublist hsub, fun id hid => h.used (hsub.subset hid), h.frames, h.lookups⟩
  | loseFrame k =>
    cases hs
    exact { h with frames := fun evs heve => h.frames evs (mem_of_mem_eraseIdx heve) }
  | loseAck k | restartSlave =>
    cases hs
    exact { h with }
  | restartMaster =>
    cases hs
    exact ⟨h.outbox, h.used, forall_mem_nil _, by simp⟩

/-- What was accepted has a receipt or is with the one ingestion that has handed it over. -/
structure Once (st : Scene) : Prop where
  nodup : st.accepted.Nodup
  known : ∀ id ∈ st.accepted, id ∈ st.receipts ∨ ∃ ingest ∈ st.ingests, id ∈ ids ingest.fed
  claims : (st.ingests.flatMap Ingest.claims).Nodup
  rest : ∀ ingest ∈ st.ingests, ∀ id ∈ ids ingest.rest, id ∉ st.accepted

theorem mem_claims_of_fed {id : String} (h : id ∈ ids ingest.fed) : id ∈ ingest.claims := mem_append_left _ h

theorem mem_claims_of_rest {id : String} (h : id ∈ ids ingest.rest) : id ∈ ingest.claims := mem_append_right _ h

section

variable (h : Once st)
include h

theorem Once.goOn (hi : st.ingests[i]? = some ingest) (hne : (next.flatMap Ingest.claims).Sublist ingest.claims)
    (hfed : ∀ id ∈ ids ingest.fed, id ∈ st.receipts ∨ ∃ ingest' ∈ next, id ∈ ids ingest'.fed)
    (hre : ∀ ingest' ∈ next, ids ingest'.rest ⊆ ids ingest.rest) : Once (st.goOn i next) := by
  have hmem := mem_of_getElem? hi
  have hcla : ingest.claims.Nodup := (nodup_flatMap.1 h.claims).1 ingest hmem
  refine ⟨h.nodup, fun id hid => ?_, ?_, fun ingest' hing' id hid => ?_⟩
  · rcases h.known id hid with hrec | ⟨ingest', hing', hid'⟩
    · exact .inl hrec
    · rcases eq_or_mem_replace hi hing' with rfl | hst
      · refine (hfed id hid').imp_right fun ⟨ingest'', hnew, hid''⟩ => ?_
        exact ⟨ingest'', mem_replace hnew, hid''⟩
      · exact .inr ⟨ingest', hst, hid'⟩
  · exact nodup_flatMap_replace h.claims hi (hcla.sublist hne) fun x hx => .inl (hne.subset hx)
  · rcases of_mem_replace hing' with hnew | hold
    · exact h.rest ingest hmem id (hre ingest' hnew hid)
    · exact h.rest ingest' hold id hid

theorem Once.lookup (hi : st.ingests[i]? = some (.unreceivedFraudEvents evs)) (heve : (ids evs).Nodup)
    (hfre : ∀ ingest ∈ st.ingests, ∀ e ∈ evs, e.id ∉ ingest.claims) :
    Once (st.goOn i [.fraudSink evs [] (evs.filter fun e => e.id ∉ st.receipts)]) := by
  set pending := evs.filter fun e => e.id ∉ st.receipts with hpen
  have hcla : [Ingest.fraudSink evs [] pending].flatMap Ingest.claims = ids pending := by
    simp [Ingest.claims, Ingest.fed, Ingest.rest, ids]
  have hfr (id : String) (hid : id ∈ ids pending) : id ∉ st.receipts ∧ ∀ ingest ∈ st.ingests, id ∉ ingest.claims := by
    obtain ⟨e, he, rfl⟩ := mem_map.1 hid
    obtain ⟨he, hrec⟩ := mem_filter.1 he
    exact ⟨by simpa using hrec, fun ingest hing => hfre ingest hing e he⟩
  refine ⟨h.nodup, fun id hid => ?_, ?_, fun ingest hing id hid => ?_⟩
  · rcases h.known id hid with hrec | ⟨ingest, hing, hid'⟩
    · exact .inl hrec
    · rcases eq_or_mem_replace hi hing with rfl | hst
      · cases hid'
      · exact .inr ⟨ingest, hst, hid'⟩
  · refine nodup_flatMap_replace h.claims hi ?_ fun id hid => .inr ?_
    · rw [hcla]
      exact heve.sublist (filter_sublist.map _)
    · rw [hcla] at hid
      exact (hfr id hid).2
  · rcases of_mem_replace hing with hnew | hold
    · obtain rfl := mem_singleton.1 hnew
      intro hacc
      rcases h.known id hacc with hrec | ⟨ingest, hing, hfed⟩
      · exact (hfr id hid).1 hrec
      · exact (hfr id hid).2 ingest hing (mem_claims_of_fed hfed)
    · exact h.rest ingest hold id hid

theorem Once.feed (hi : st.ingests[i]? = some (.fraudSink evs fed (e :: rest))) :
    Once ((st.accept e).goOn i [.fraudSink evs (fed ++ [e]) rest]) := by
  have hmem := mem_of_getElem? hi
  have hse : e.id ∈ (fraudSink evs fed (e :: rest)).claims :=
    mem_claims_of_rest (mem_ids_of_mem (mem_cons_self ..))
  have hsa : (fraudSink evs (fed ++ [e]) rest).claims = (fraudSink evs fed (e :: rest)).claims := by
    simp [Ingest.claims, Ingest.fed, Ingest.rest, ids]
  have hno : (fraudSink evs fed (e :: rest)).claims.Nodup := (nodup_flatMap.1 h.claims).1 _ hmem
  refine ⟨?_, fun id hid => ?_, ?_, fun ingest hing id hid => ?_⟩
  · refine nodup_append'.2 ⟨h.nodup, nodup_singleton _, ?_⟩
    exact disjoint_singleton.2 (h.rest _ hmem _ (mem_ids_of_mem (mem_cons_self ..)))
  · rcases mem_append.1 hid with hold | hnew
    · rcases h.known id hold with hrec | ⟨ingest, hing, hfed⟩
      · exact .inl hrec
      · rcases eq_or_mem_replace hi hing with rfl | hst
        · refine .inr ⟨_, mem_replace (mem_singleton_self _), ?_⟩
          simpa [Ingest.fed, ids] using .inl (mem_map.1 hfed)
        · exact .inr ⟨ingest, hst, hfed⟩
    · obtain rfl := mem_singleton.1 hnew
      exact .inr ⟨_, mem_replace (mem_singleton_self _), by simp [Ingest.fed, ids]⟩
  · refine nodup_flatMap_replace h.claims hi ?_ fun id hid => .inl ?_
    · simpa [hsa] using hno
    · simpa [hsa] using hid
  · change id ∉ st.accepted ++ [e.id]
    rw [mem_append, not_or]
    rcases mem_replace_iff.1 hing with hnew | ho
    · obtain rfl := mem_singleton.1 hnew
      refine ⟨h.rest _ hmem id (mem_cons_of_mem _ hid), fun hid' => ?_⟩
      obtain rfl := mem_singleton.1 hid'
      exact (nodup_cons.1 hno.of_append_right).1 hid
    · refine ⟨h.rest ingest (mem_of_mem_others ho) id hid, fun hid' => ?_⟩
      obtain rfl := mem_singleton.1 hid'
      exact not_mem_of_mem_others h.claims hi hse ho (mem_claims_of_rest hid)

theorem once_advance (hbat : Batches st) (hi : st.ingests[i]? = some ingest)
    (hord : Orderly st (.advance i)) : Once (st.advance i ingest) := by
  cases ingest with
  | unreceivedFraudEvents evs =>
    simp only [Orderly, hi] at hord
    rw [advance]
    split
    · refine h.goOn hi ?_ (forall_mem_nil _) (by simp [Ingest.rest, ids])
      simp [Ingest.claims, Ingest.fed, Ingest.rest, ids]
    · exact h.lookup hi (hbat.lookups evs (mem_of_getElem? hi)) hord
  | fraudSink evs fed rest =>
    cases rest with
    | cons e rest => exact h.feed hi
    | nil =>
      refine h.goOn hi ?_ (fun id hid => .inr ⟨_, mem_singleton_self _, hid⟩) (by simp [Ingest.rest, ids])
      simp [Ingest.claims, Ingest.fed, Ingest.rest, ids]
  | markFraudReceived evs pending =>
    have hma : Once { st with receipts := st.receipts ++ (ids pending).filter fun id => id ∉ st.receipts } :=
      { h with known := fun id hid => (h.known id hid).imp_left (mem_append_left _) }
    refine hma.goOn hi ?_ (fun id hid => .inl ?_) (by simp [Ingest.rest, ids])
    · simp [Ingest.claims, Ingest.fed, Ingest.rest, ids]
    · obtain ⟨e, he, rfl⟩ := mem_map.1 hid
      exact mem_receipts_of_mark he
  | acknowledge evs =>
    have hse : Once { st with acks := st.acks ++ [ids evs] } := { h with }
    exact hse.goOn hi (by simp) (by simp [Ingest.fed, ids]) (by simp)

theorem once_fail (hi : st.ingests[i]? = some ingest) (hfed : ingest.fed = []) : Once (st.fail i false ingest) := by
  have hgo : Once (st.goOn i []) := by
    refine h.goOn hi (by simp) (fun id hid => ?_) (by simp)
    rw [hfed] at hid
    cases hid
  unfold fail
  split
  · exact hgo
  · exact hgo

theorem Once.same (hsa : SameMaster st st') : Once st' := by
  refine ⟨?_, ?_, ?_, ?_⟩
  · rw [hsa.accepted]
    exact h.nodup
  · rw [hsa.accepted, hsa.receipts, hsa.ingests]
    exact h.known
  · rw [hsa.ingests]
    exact h.claims
  · rw [hsa.ingests, hsa.accepted]
    exact h.rest

theorem once_fraudStep (hbat : Batches st) (hord : Orderly st a) (hs : fraudStep st a = some st') : Once st' := by
  by_cases hout : a.outside = true
  · exact h.same (sameMaster_fraudStep hout hs)
  cases a with
  | receive k =>
    obtain ⟨evs, -, rfl⟩ := Option.map_eq_some_iff.1 hs
    unfold receive
    split_ifs
    · refine ⟨h.nodup, fun id hid => (h.known id hid).imp_right ?_, ?_, fun ingest hing => ?_⟩
      · exact fun ⟨ingest, hing, hfed⟩ => ⟨ingest, mem_append_left _ hing, hfed⟩
      · simpa [claims, fed, rest, ids] using h.claims
      · rcases mem_append.1 hing with hold | hnew
        · exact h.rest ingest hold
        · obtain rfl := mem_singleton.1 hnew
          exact forall_mem_nil _
    · exact { h with }
  | advance i =>
    obtain ⟨ingest, hi, rfl⟩ := Option.map_eq_some_iff.1 hs
    exact once_advance h hbat hi hord
  | fail i processed =>
    obtain ⟨ingest, hi, rfl⟩ := Option.map_eq_some_iff.1 hs
    obtain ⟨hfed, rfl⟩ := hord ingest hi
    exact once_fail h hi hfed
  | restartMaster =>
    cases hs
    refine ⟨h.nodup, fun id hid => .inl ?_, nodup_nil, forall_mem_nil _⟩
    -- what is handed over and not yet stored would be lost here
    refine (h.known id hid).resolve_right fun ⟨ingest, hing, hfed⟩ => ?_
    rw [hord ingest hing] at hfed
    cases hfed
  | _ => exact absurd rfl hout

end

/-- In every run an event that leaves the outbox was accepted and has its receipt, and in every run that meets the guard
no event is accepted twice. -/
theorem fraud_events_counted (tr : List Action) (st : Scene) :
    (Run (stepsTo fraudStep) {} tr st → ∀ a st', fraudStep st a = some st' →
      ∀ e ∈ st.outbox, e ∉ st'.outbox → e.id ∈ st.accepted ∧ e.id ∈ st.receipts) ∧
    (Run (Guarded Orderly (stepsTo fraudStep)) {} tr st → st.accepted.Nodup) := by
  constructor
  · intro hrun a st' hs e he hgo
    have hsto : Stored st := hrun.invariant Stored
      ⟨nil_subset _, forall_mem_nil _, forall_mem_nil _⟩ fun _ _ _ h hs => stored_fraudStep h hs
    obtain ⟨ack, hack, hid⟩ := outbox_fraudStep hs he hgo
    have hrec := hsto.acks ack hack hid
    exact ⟨hsto.receipts hrec, hrec⟩
  · intro hrun
    have hon : Once st ∧ Batches st := by
      refine hrun.invariant_of_guard (fun st => Once st ∧ Batches st) ⟨?_, ?_⟩ fun st a st' h hord hs =>
        ⟨once_fraudStep h.1 h.2 hord hs, batches_fraudStep h.2 hs⟩
      · exact ⟨nodup_nil, forall_mem_nil _, nodup_nil, forall_mem_nil _⟩
      · exact ⟨nodup_nil, nil_subset _, forall_mem_nil _, by simp⟩
    exact hon.1.nodup

/-! Two events of which the acknowledgement is lost once. -/

def observed (id : String) : FraudEvent := ⟨id, "a@x", "h", 1, ""⟩

/-- The events go to the master, which takes the first steps of their handling. -/
def sends (steps : Nat) : List Action := [.flushFraudOutbox, .receive 0] ++ replicate steps (.advance 0)

def ackLost : List Action :=
  .reportFraudEvents 1 [observed "1", observed "2"] :: (sends 6 ++ [.loseAck 0, .restartMaster] ++ sends 2)

theorem fraud_events_counted_ackLost :
    ∃ st, Run (Guarded Orderly (stepsTo fraudStep)) {} ackLost st ∧ Run (stepsTo fraudStep) {} ackLost st ∧
      st.accepted = ["1", "2"] ∧ st.accepted.Nodup ∧ ∃ st', fraudStep st (.acknowledgeFraudEvents 0) = some st' ∧
        observed "1" ∈ st.outbox ∧ observed "1" ∉ st'.outbox ∧ "1" ∈ st.accepted ∧ "1" ∈ st.receipts := by
  refine Run.exists_of_guardedExec_imp (P := fun st => st.accepted = ["1", "2"] ∧
      st.outbox = [observed "1", observed "2"] ∧ st.acks = [["1", "2"]])
    (by decide +kernel) fun st hrun ⟨hacc, hout, hac⟩ => ?_
  have hfr : Run (stepsTo fraudStep) {} ackLost st := hrun.of_guarded
  have hs : fraudStep st (.acknowledgeFraudEvents 0) = some (st.acknowledgeFraudEvents 0 ["1", "2"]) := by
    rw [fraudStep, hac]
    rfl
  have hth : observed "1" ∈ st.outbox := by rw [hout]; decide
  have hgo : observed "1" ∉ (st.acknowledgeFraudEvents 0 ["1", "2"]).outbox := by
    change observed "1" ∉ st.outbox.filter fun e => e.id ∉ ["1", "2"]
    rw [hout]
    decide
  obtain ⟨hsto, hno⟩ := fraud_events_counted ackLost st
  exact ⟨hfr, hacc, hno hrun, _, hs, hth, hgo, hsto hfr _ _ hs _ hth hgo⟩

/-! The sink takes the first event of a frame and refuses the second: its queue is full. The frame comes again. -/

def sinkFull : List Action :=
  .reportFraudEvents 1 [observed "1", observed "2"] :: (sends 2 ++ [.fail 0 false] ++ sends 6)

theorem counted_twice : ∃ st, Run (stepsTo fraudStep) {} sinkFull st ∧ st.accepted = ["1", "1", "2"] ∧
    st.receipts = ["1", "2"] := Run.exists_of_exec (by decide +kernel)

end Xraytool.FraudOutbox
