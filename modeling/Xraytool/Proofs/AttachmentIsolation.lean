import Xraytool.Sanity.SupportChat

/-! Attachments stay with their uploaders. A message takes any attachment its request names, so what a user names in
their own conversation they obtain, whoever uploaded it. -/

namespace Xraytool.SupportChat

open Fallible Transition List Option

theorem decoded_eq_ok {α : Type} {body : Option α} {req : α} : decoded body = .ok req ↔ body = some req := by
  cases body <;> simp [decoded]

variable {c : Chat} {conv : ConversationView} {p : Plugin} {convID uid : String} {att : Attachment} {s : ChatStore}

theorem requestedConversation_eq_ok (h : requestedConversation p convID c = .ok conv) :
    getConversation p.keys convID c.store = .ok conv := by
  obtain ⟨_, _, h⟩ := bind_eq_ok.1 h
  exact mapError_eq_ok.1 h

theorem ownConversation_eq_ok (h : ownConversation p uid convID c = .ok conv) :
    getConversation p.keys convID c.store = .ok conv ∧ conv.userID = uid := by
  obtain ⟨conv', hco, h⟩ := bind_eq_ok.1 h
  obtain ⟨_, how, h⟩ := bind_eq_ok.1 h
  cases h
  exact ⟨requestedConversation_eq_ok hco, require_eq_ok.1 how⟩

structure Confined (p : Plugin) (userID : String) (outcome : Outcome) : Prop where
  isolated : Isolated p outcome.chat.store
  reply : ∀ att ∈ outcome.chat.store.attachments.rows, outcome.reply.shows p outcome.chat.store att →
    MayHave p userID att
  events : ∀ event ∈ outcome.events, ∀ target ∈ event.target, ∀ att ∈ outcome.chat.store.attachments.rows,
    event.message.shows att → MayHave p target att

theorem Confined.quiet {reply : Reply} (h : Isolated p c.store) (hre : ∀ att, reply.shows p c.store att = false) :
    Confined p uid { chat := c, reply := reply } where
  isolated := h
  reply att _ hsh := absurd hsh (by simp [hre att])
  events _ hev := absurd hev not_mem_nil

variable {msg : MessageOutput} {l : Label} {outcome : Outcome} {scene : Scene}

theorem linked_of_shows {hydr : Attachment → Except Err AttachmentView} {messageID : String}
    (hatt : att ∈ s.attachments.rows)
    (hr : (s.attachments.rows.filter fun row => row.messageID == some messageID).mapM hydr = .ok msg.attachments)
    (hsh : msg.shows att) (hhyd : ∀ row view, hydr row = .ok view → view.id = row.id) :
    att.messageID = some messageID := by
  obtain ⟨view, hvi, hid⟩ := any_eq_true.1 hsh
  obtain ⟨row, hrow, hok⟩ := exists_of_forall₂_left (mapM_eq_ok.1 hr).flip hvi
  obtain ⟨hmem, hli⟩ := mem_filter.1 hrow
  have hsa : row.id = att.id := (hhyd row view hok).symm.trans (beq_iff_eq.1 hid)
  obtain rfl : row = att := s.attachments.eq_of_clash hmem hatt hsa
  exact beq_iff_eq.1 hli

theorem mayHave_of_createMessage {s' : ChatStore} {msgID senderRole text : String} {now : Time} {ids : List String}
    (h : Isolated p s') (hcre : createMessage p.keys msgID now convID senderRole text ids s = .ok (s', .ok msg))
    (hco : getConversation p.keys convID s = .ok conv) (hatt : att ∈ s'.attachments.rows) (hsh : msg.shows att) :
    MayHave p conv.userID att := by
  obtain ⟨_, hmes, _, hcon, _, hre⟩ := createMessage_eq_ok hcre
  obtain ⟨attachments, hr, rfl⟩ := map_eq_ok.1 hre.symm
  split_ifs at hr
  · rw [attachmentsOf] at hr
    have hli := linked_of_shows hatt hr hsh fun _ _ hok => (hydrateAttachment_id hok).1
    obtain ⟨_, row, hrow, hid, how⟩ := getConversation_eq_ok hco
    obtain ⟨row', hrow', hid', how'⟩ :
        ∃ row' ∈ s'.conversations.rows, row'.id = convID ∧ conv.userID ∈ owner p.keys row' := by
      rw [hcon]
      refine ⟨_, (Table.mem_updateWhere _).2 ⟨row, hrow, rfl⟩, ?_⟩
      rw [if_pos (beq_iff_eq.2 hid)]
      exact ⟨hid, (owner_touch ..).symm ▸ how⟩
    have hmsg : newMessage p.keys msgID now convID senderRole text ∈ s'.messages.rows := by
      rw [hmes]
      exact mem_append_right _ (mem_singleton.2 rfl)
    exact h.linked att hatt _ hmsg row' hrow' hli hid'.symm _ how'
  · cases hr
    cases hsh

theorem mayHave_of_listMessages {msgs : List MessageOutput} (h : Isolated p s)
    (hli : listMessages p.keys convID s = .ok msgs) (hco : getConversation p.keys convID s = .ok conv)
    (hatt : att ∈ s.attachments.rows) (hsh : msgs.any (·.shows att)) : MayHave p conv.userID att := by
  obtain ⟨msg, hmsg, hsh⟩ := any_eq_true.1 hsh
  obtain ⟨row, hrow, hok⟩ := exists_of_forall₂_left (mapM_eq_ok.1 hli).flip hmsg
  obtain ⟨hmem, hin⟩ := mem_filter.1 ((mem_insertionSort _).1 hrow)
  obtain ⟨text, _, hok⟩ := bind_eq_ok.1 hok
  obtain ⟨attachments, hr, hok⟩ := bind_eq_ok.1 hok
  cases hok
  have hlin := linked_of_shows hatt hr hsh fun _ _ hok => (hydrateAttachment_id (mapError_eq_ok.1 hok)).1
  exact h.of_message hmem (beq_iff_eq.1 hin ▸ hco) hatt hlin

theorem mayHave_of_admin (h : p.requestIsAdmin uid) : MayHave p uid att := fun _ _ => .inr (.inr h)

section Handlers

variable {p : Plugin} {draw : Draw} {uid convID : String} {c c' : Chat} {outcome : Outcome} {conv : ConversationView}
  {body : Option CreateMessageReq} {now : Time}

theorem unused_createConversation {id id' subj : String} {s' : ChatStore} (hid : Unused p id' s) (hne : id ≠ id')
    (h : createConversation p.keys id now uid subj s = .ok (s', conv)) :
    Unused p id' s' ∧ s'.attachments = s.attachments ∧ conv.id = id ∧ conv.userID = uid ∧
      ∃ row ∈ s'.conversations.rows, row.id = id ∧ row = newConversation p.keys id now uid subj := by
  obtain ⟨convs, hins, hs'⟩ := bind_eq_ok.1 h
  cases hs'
  have hro := (Table.insert_eq_some (inserted_eq_ok.1 (mapError_eq_ok.1 hins))).2
  obtain ⟨hem, hco, hms, hat, hbl⟩ := hid
  refine ⟨⟨hem, fun row hrow => ?_, hms, hat, hbl⟩, rfl, rfl, rfl, _, ?_, rfl, rfl⟩
  · rw [hro, mem_append, mem_singleton] at hrow
    rcases hrow with hrow | rfl
    · exact hco row hrow
    · exact hne
  · rw [hro]
    exact mem_append_right _ (mem_singleton.2 rfl)

section

variable (h : Isolated p c.store)
include h

theorem confined_createConversation {body : Option CreateConversationReq}
    (hfresh : draw.Fresh p c.store) (hown : ∀ req ∈ body, Attachable p uid req.attachments c.store)
    (hok : handleClientCreateConversation p draw uid body c = .ok outcome) : Confined p uid outcome := by
  simp only [handleClientCreateConversation, bind_eq_ok, mapError_eq_ok] at hok
  obtain ⟨_, _, _, _, req, hreq, _, _, _, _, ⟨s, conv⟩, hcre, hok⟩ := hok
  have hs := isolated_createConversation h hfresh.1 hcre
  obtain ⟨hunu, hat, hid, hu, _⟩ := unused_createConversation hfresh.2.1 hfresh.2.2 hcre
  -- the conversation the message finds is the new one
  have how : ∀ view, getConversation p.keys conv.id s = .ok view → view.userID = uid := by
    intro view hvi
    obtain ⟨_, row, hrow, hrid, hin⟩ := getConversation_eq_ok hvi
    obtain ⟨_, _, _, _, new, hnew, hnid, rfl⟩ := unused_createConversation hfresh.2.1 hfresh.2.2 hcre
    obtain rfl := s.conversations.eq_of_clash hrow hnew (hrid.trans (hid.trans hnid.symm))
    exact owner_new hin
  have hatta : ∀ view, getConversation p.keys conv.id s = .ok view → Attachable p view.userID req.attachments s := by
    intro view hvi att hatt hids
    rw [how view hvi]
    exact hown req (decoded_eq_ok.1 hreq) att (hat ▸ hatt) hids
  split at hok
  · cases hok
    exact .quiet hs fun _ => rfl
  · next s' err hmsg =>
    cases hok
    exact .quiet (isolated_createMessage hs hunu hatta hmsg) fun _ => rfl
  next s' msg hmsg =>
  cases hok
  have hs' := isolated_createMessage hs hunu hatta hmsg
  obtain ⟨⟨view, hvi⟩, _⟩ := createMessage_eq_ok hmsg
  refine ⟨hs', fun att hatt hsh => ?_, fun _ hev => absurd hev not_mem_nil⟩
  exact how view hvi ▸ mayHave_of_createMessage hs' hmsg hvi hatt hsh

theorem confined_postMessage {senderRole : String} {target : Option String}
    (hid : Unused p draw.uuid c.store) (hco : getConversation p.keys convID c.store = .ok conv)
    (hown : ∀ req ∈ body, Attachable p conv.userID req.attachments c.store)
    (htar : ∀ user ∈ target, user = conv.userID) (hu : conv.userID = uid ∨ p.requestIsAdmin uid)
    (hok : postMessage p draw conv senderRole body target c = .ok outcome) : Confined p uid outcome := by
  simp only [postMessage, bind_eq_ok, mapError_eq_ok] at hok
  obtain ⟨_, _, req, hreq, _, _, ⟨s, msg⟩, hcre, hok⟩ := hok
  rw [(getConversation_eq_ok hco).1] at hcre
  have hs := isolated_createMessage h hid (fun view hvi => by
    cases hco.symm.trans hvi
    exact hown req (decoded_eq_ok.1 hreq)) hcre
  cases msg with
  | error err =>
    cases hok
    exact .quiet hs fun _ => rfl
  | ok msg =>
    cases hok
    have hha : ∀ att ∈ s.attachments.rows, msg.shows att → MayHave p conv.userID att :=
      fun att hatt hsh => mayHave_of_createMessage hs hcre hco hatt hsh
    refine ⟨hs, fun att hatt hsh => ?_, fun event hev user hu' att hatt hsh => ?_⟩
    · rcases hu with rfl | had
      · exact hha att hatt hsh
      · exact mayHave_of_admin had
    obtain rfl := mem_singleton.1 hev
    rw [htar user hu']
    exact hha att hatt hsh

theorem confined_createMessage (hfresh : draw.Fresh p c.store)
    (hown : ∀ req ∈ body, Attachable p uid req.attachments c.store)
    (hok : handleClientCreateMessage p draw uid convID body c = .ok outcome) : Confined p uid outcome := by
  obtain ⟨_, _, hok⟩ := bind_eq_ok.1 hok
  obtain ⟨_, _, hok⟩ := bind_eq_ok.1 hok
  obtain ⟨conv, hco, hok⟩ := bind_eq_ok.1 hok
  obtain ⟨hget, how⟩ := ownConversation_eq_ok hco
  exact confined_postMessage h hfresh.1 hget (how ▸ hown) (fun _ hn => absurd hn (not_mem_none _))
    (.inl how) hok

theorem confined_adminCreateMessage (hfresh : draw.Fresh p c.store) (had : p.requestIsAdmin uid)
    (hown : ∀ req ∈ body, ∀ conv ∈ (getConversation p.keys convID c.store).toOption,
      Attachable p conv.userID req.attachments c.store)
    (hok : handleAdminCreateMessage p draw convID body c = .ok outcome) : Confined p uid outcome := by
  obtain ⟨conv, hco, hok⟩ := bind_eq_ok.1 hok
  have hget := requestedConversation_eq_ok hco
  exact confined_postMessage h hfresh.1 hget (fun req hreq => hown req hreq conv (mem_toOption.2 hget))
    (fun user hu => (some.inj hu).symm) (.inr had) hok

theorem confined_deleteConversation (hok : deleteConversationFiles p convID c = .ok c') : Isolated p c'.store := by
  obtain ⟨⟨s, files⟩, hdel, hok⟩ := bind_eq_ok.1 hok
  cases hok
  exact h.within (within_deleteConversation hdel)

theorem confined_listedMessages {readerRole : String} (hco : getConversation p.keys convID c.store = .ok conv)
    (hu : conv.userID = uid ∨ p.requestIsAdmin uid) :
    Confined p uid (listedMessages p now convID readerRole c) := by
  have hs := h.within (within_markMessagesRead now convID readerRole)
  unfold listedMessages
  dsimp only
  split
  · exact .quiet hs fun _ => rfl
  next msgs hli =>
  refine ⟨hs, fun att hatt hsh => ?_, fun _ hev => absurd hev not_mem_nil⟩
  rcases hu with rfl | had
  · exact mayHave_of_listMessages hs hli hco hatt hsh
  · exact mayHave_of_admin had

theorem claimBlob_eq_ok {skey key content : String}
    (hkey : Unused p skey c.store) (hcl : claimBlob p skey uid content c = .ok (c', key)) :
    Isolated p c'.store ∧ c'.store.attachments = c.store.attachments ∧
      (∀ id, Unused p id c.store → skey ≠ id → Unused p id c'.store) ∧
      ∃ blob ∈ c'.store.blobs.rows, blob.storageKey = key ∧ blob.uploaderIDHash = uploaderHash p.keys uid := by
  unfold claimBlob at hcl
  dsimp only at hcl
  split at hcl
  · next blob hfi =>
    cases hcl
    have hha := find?_some hfi
    simp only [Bool.and_eq_true, beq_iff_eq] at hha
    exact ⟨h, rfl, fun _ hid _ => hid, blob, mem_of_find?_eq_some hfi, rfl, hha.1⟩
  · obtain ⟨_, _, hcl⟩ := bind_eq_ok.1 hcl
    obtain ⟨s, hcre, hcl⟩ := bind_eq_ok.1 hcl
    cases hcl
    rw [mapError_eq_ok] at hcre
    have hs := isolated_createAttachmentBlob h hkey hcre
    obtain ⟨blobs, hins, hs'⟩ := bind_eq_ok.1 hcre
    cases hs'
    have hro := (Table.insert_eq_some (inserted_eq_ok.1 hins)).2
    refine ⟨hs, rfl, fun id hid hne => ?_,
      ⟨skey, uploaderHash p.keys uid, attachmentContentDigest p.keys uid content⟩, ?_, rfl, rfl⟩
    · obtain ⟨hem, hco, hms, hat, hblo⟩ := hid
      refine ⟨hem, hco, hms, hat, fun blob hbl => ?_⟩
      rw [hro, mem_append, mem_singleton] at hbl
      rcases hbl with hbl | rfl
      · exact hblo blob hbl
      · exact hne
    · rw [hro]
      exact mem_append_right _ (mem_singleton.2 rfl)

theorem confined_upload {form : UploadForm} (hfresh : draw.Fresh p c.store)
    (hok : handleUploadAttachment p draw uid form c = .ok outcome) : Confined p uid outcome := by
  simp only [handleUploadAttachment, bind_eq_ok] at hok
  obtain ⟨_, _, _, _, ⟨name, mimeType, content⟩, _, ⟨c', key⟩, hcl, hok⟩ := hok
  obtain ⟨hc', hat, hke, blob, hbl, rfl, hha⟩ := claimBlob_eq_ok h hfresh.2.1 hcl
  have hid := hke draw.uuid hfresh.1 hfresh.2.2.symm
  split at hok
  · cases hok
    exact .quiet hc' fun _ => rfl
  next s hcre =>
  cases hok
  refine ⟨isolated_createAttachment hc' hid hbl hha hcre, fun att hatt hsh => ?_, fun _ hev => absurd hev not_mem_nil⟩
  obtain ⟨attachments, hins, hs⟩ := bind_eq_ok.1 hcre
  cases hs
  rw [(Table.insert_eq_some (inserted_eq_ok.1 hins)).2, mem_append, mem_singleton] at hatt
  rcases hatt with hatt | rfl
  · exact absurd (beq_iff_eq.1 hsh) (hid.2.2.2.1 att hatt).1
  · exact fun author haut => .inl (uploader_new haut)

/-- A download shows an attachment of a conversation of the user, or one they uploaded, and the others with its file. -/
theorem confined_download {attID : String}
    (hok : handleDownloadAttachment p uid attID c = .ok outcome) : Confined p uid outcome := by
  simp only [handleDownloadAttachment, bind_eq_ok, mapError_eq_ok] at hok
  obtain ⟨_, _, _, _, ⟨row, view⟩, hget, _, hmay, hok⟩ := hok
  obtain ⟨hrow, hid, hvi⟩ := getAttachment_eq_ok.1 hget
  have hupl : view.uploaderID ∈ uploader p.keys row := mem_uploader.2 ⟨view, hvi, rfl⟩
  have hha : MayHave p uid row := by
    have hmay := require_eq_ok.1 hmay
    unfold mayDownload at hmay
    split at hmay
    · next messageID hlin =>
      rcases Bool.or_eq_true_iff.1 hmay with had | how
      · exact mayHave_of_admin had
      unfold userOwnsAttachment at how
      rw [hlin] at how
      dsimp only at how
      split at how
      · cases how
      next msg hmsg =>
      split at how
      · cases how
      next conv hco =>
      have hmid : msg.id = messageID := by simpa using find?_some hmsg
      have hli : row.messageID = some msg.id := by
        rw [hmid, ← (hydrateAttachment_id hvi).2]
        exact (filter_eq_some_iff.1 hlin).1
      exact beq_iff_eq.1 how ▸ h.of_message (mem_of_find?_eq_some hmsg) hco hrow hli
    · intro author haut
      rw [some.inj (haut.symm.trans hupl)]
      exact .inl (beq_iff_eq.1 hmay)
  split at hok
  · cases hok
  cases hok
  refine ⟨h, fun att hatt hsh author haut => ?_, fun _ hev => absurd hev not_mem_nil⟩
  rcases Bool.or_eq_true_iff.1 hsh with hsa | hsha
  · obtain rfl : att = row := c.store.attachments.eq_of_clash hatt hrow ((beq_iff_eq.1 hsa).trans hid.symm)
    exact hha author haut
  obtain ⟨served, hser, hsha⟩ := any_eq_true.1 hsha
  simp only [Bool.and_eq_true, beq_iff_eq] at hsha
  obtain ⟨⟨hsid, hso⟩, hpl⟩ := hsha
  obtain rfl : served = row := c.store.attachments.eq_of_clash hser hrow (hsid.trans hid.symm)
  obtain ⟨place, hf⟩ := isSome_iff_exists.1 hso
  have := h.shared served hrow att hatt place hf (hpl ▸ hf) _ hupl author haut
  exact this ▸ hha _ hupl

end

end Handlers

/-- Administrators put no attachment of one user into the conversation of another. -/
def AdminsKeepApart (p : Plugin) (scene : Scene) (l : Label) : Prop :=
  match l.request with
  | .adminCreateMessage convID (some req) =>
    ∀ conv ∈ (getConversation p.keys convID scene.chat.store).toOption,
      Attachable p conv.userID req.attachments scene.chat.store
  | _ => True

/-- A message of a client names attachments of that client. -/
def NamesOwn (p : Plugin) (scene : Scene) (l : Label) : Prop :=
  match l.request with
  | .createConversation (some req) => Attachable p l.userID req.attachments scene.chat.store
  | .createMessage _ (some req) => Attachable p l.userID req.attachments scene.chat.store
  | _ => True

instance (p : Plugin) (scene : Scene) (l : Label) : Decidable (AdminsKeepApart p scene l) := by
  unfold AdminsKeepApart
  split <;> infer_instance

instance (p : Plugin) (scene : Scene) (l : Label) : Decidable (NamesOwn p scene l) := by
  unfold NamesOwn
  split <;> infer_instance

section

variable (h : Isolated p scene.chat.store) (hfresh : l.draw.Fresh p scene.chat.store)
  (hadmins : AdminsKeepApart p scene l) (hown : NamesOwn p scene l)
include h hfresh hadmins hown

theorem confined_handle (hok : l.request.handle p l.draw l.userID scene.chat = .ok outcome) :
    Confined p l.userID outcome := by
  obtain ⟨uid, request, draw⟩ := l
  cases request with
  | createConversation body =>
    refine confined_createConversation h hfresh (fun req hreq => ?_) hok
    cases hreq
    exact hown
  | listConversations | getConversation convID | banStatus | adminListConversations filter =>
    obtain ⟨_, _, hok⟩ := bind_eq_ok.1 hok
    obtain ⟨view, _, hok⟩ := bind_eq_ok.1 hok
    cases hok
    exact .quiet h fun _ => rfl
  | deleteConversation convID =>
    simp only [Request.handle, handleClientDeleteConversation, bind_eq_ok, mapError_eq_ok] at hok
    obtain ⟨_, _, _, _, _, _, c, hdel, hok⟩ := hok
    cases hok
    exact .quiet (confined_deleteConversation h hdel) fun _ => rfl
  | listMessages convID =>
    obtain ⟨_, _, hok⟩ := bind_eq_ok.1 hok
    obtain ⟨conv, hco, hok⟩ := bind_eq_ok.1 hok
    cases hok
    obtain ⟨hget, how⟩ := ownConversation_eq_ok hco
    exact confined_listedMessages h hget (.inl how)
  | createMessage convID body =>
    refine confined_createMessage h hfresh (fun req hreq => ?_) hok
    cases hreq
    exact hown
  | upload form => exact confined_upload h hfresh hok
  | download attID => exact confined_download h hok
  | adminListMessages convID =>
    obtain ⟨_, had, hok⟩ := bind_eq_ok.1 hok
    obtain ⟨conv, hco, hok⟩ := bind_eq_ok.1 hok
    cases hok
    exact confined_listedMessages h (requestedConversation_eq_ok hco) (.inr (require_eq_ok.1 had))
  | adminCreateMessage convID body =>
    obtain ⟨_, had, hok⟩ := bind_eq_ok.1 hok
    refine confined_adminCreateMessage h hfresh (require_eq_ok.1 had) (fun req hreq => ?_) hok
    cases hreq
    exact hadmins
  | adminPatchStatus convID body =>
    simp only [Request.handle, handleAdminPatchStatus, bind_eq_ok, mapError_eq_ok] at hok
    obtain ⟨_, _, _, _, status, _, _, _, s, hsta, hok⟩ := hok
    cases hok
    exact .quiet (h.within (within_updateStatus hsta)) fun _ => rfl
  | adminDeleteConversation convID =>
    obtain ⟨_, _, hok⟩ := bind_eq_ok.1 hok
    obtain ⟨_, _, hok⟩ := bind_eq_ok.1 hok
    obtain ⟨c, hdel, hok⟩ := bind_eq_ok.1 hok
    cases hok
    exact .quiet (confined_deleteConversation h (mapError_eq_ok.1 hdel)) fun _ => rfl
  | adminCreateBan body =>
    simp only [Request.handle, handleAdminCreateBan, bind_eq_ok, mapError_eq_ok] at hok
    obtain ⟨_, _, req, _, _, _, s, hban, hok⟩ := hok
    cases hok
    exact .quiet (h.within (within_banUser hban)) fun _ => rfl
  | adminDeleteBan banned =>
    obtain ⟨_, _, hok⟩ := bind_eq_ok.1 hok
    obtain ⟨_, _, hok⟩ := bind_eq_ok.1 hok
    cases hok
    exact .quiet (h.within within_bans) fun _ => rfl

theorem confined_serve : Confined p l.userID (serve p l.draw l.userID l.request scene.chat) := by
  unfold serve
  split
  · next hok => exact confined_handle h hfresh hadmins hown hok
  · exact .quiet h fun _ => rfl

end

theorem Confined.mayHave (h : Confined p uid outcome) {e : String × Attachment}
    (he : e ∈ outcome.obtained p uid) : MayHave p e.1 e.2 := by
  rcases mem_append.1 he with he | he
  · obtain ⟨att, hatt, rfl⟩ := mem_map.1 he
    obtain ⟨hrow, hsh⟩ := mem_filter.1 hatt
    exact h.reply att hrow hsh
  obtain ⟨event, hev, he⟩ := mem_flatMap.1 he
  split at he
  · exact absurd he not_mem_nil
  next target htar =>
  obtain ⟨att, hatt, rfl⟩ := mem_map.1 he
  obtain ⟨hrow, hsh⟩ := mem_filter.1 hatt
  exact h.events event hev target htar att hrow hsh

/-- In a run from an isolated store in which users name their own attachments alone, and administrators keep those of
users apart, whatever a user obtained is their own or that of an administrator. -/
theorem attachments_isolated (p : Plugin) {chat : Chat} (hstart : Isolated p chat.store) {tr : List Label} {scene : Scene}
    (hrun : Run (Guarded (fun scene l => AdminsKeepApart p scene l ∧ NamesOwn p scene l) (stepsTo (step p)))
      { chat := chat } tr scene) :
    ∀ e ∈ scene.obtained, p.requestIsAdmin e.1 = false →
      ∀ author ∈ uploader p.keys e.2, author = e.1 ∨ p.requestIsAdmin author := by
  have hinv := hrun.invariant_of_guard
    (fun scene => Isolated p scene.chat.store ∧ ∀ e ∈ scene.obtained, MayHave p e.1 e.2)
    ⟨hstart, fun _ he => absurd he not_mem_nil⟩ (by
      rintro scene l scene' ⟨hiso, hobt⟩ ⟨hadmins, hown⟩ hs
      unfold stepsTo step at hs
      split_ifs at hs with hfresh
      cases hs
      have hse := confined_serve hiso hfresh hadmins hown
      refine ⟨hse.isolated, fun e he => ?_⟩
      rcases mem_append.1 he with he | he
      · exact hobt e he
      · exact hse.mayHave he)
  intro e he hu author haut
  rcases hinv.2 e he author haut with hsel | had | had
  · exact .inl hsel
  · exact .inr had
  · exact absurd had (by simp [hu])

def twoUsers : Plugin where
  keys := { active := "k" }
  mediaRoot := "/m"
  isAdminUser := (· == "root")

def answered : List Label :=
  [⟨"a", .upload (.file "x" "t" "secret"), { uuid := "1", uuid' := "2" }⟩,
   ⟨"a", .createConversation (some ⟨"s", "m", ["1"]⟩), { uuid := "3", uuid' := "4" }⟩,
   ⟨"root", .upload (.file "y" "t" "help"), { uuid := "5", uuid' := "6" }⟩,
   ⟨"root", .adminCreateMessage "3" (some ⟨"m", ["5"]⟩), { uuid := "7", uuid' := "8" }⟩,
   ⟨"a", .download "5", { uuid := "9", uuid' := "0" }⟩]

theorem attachments_isolated_answered :
    ∃ scene, Run (Guarded (fun scene l => AdminsKeepApart twoUsers scene l ∧ NamesOwn twoUsers scene l)
        (stepsTo (step twoUsers))) {} answered scene ∧
      (scene.obtained.map fun e => (e.1, e.2.id)) =
        [("a", "1"), ("a", "1"), ("root", "5"), ("root", "5"), ("a", "5"), ("a", "5")] ∧
      ∀ e ∈ scene.obtained, twoUsers.requestIsAdmin e.1 = false →
        ∀ author ∈ uploader twoUsers.keys e.2, author = e.1 ∨ twoUsers.requestIsAdmin author := by
  exact Run.exists_of_guardedExec_imp (by decide +kernel) fun scene hrun hobt =>
    ⟨hobt, attachments_isolated twoUsers isolated_empty hrun⟩

/-- One user uploads a file, another opens a conversation with it. -/
def takeover : List Label :=
  [⟨"a", .upload (.file "x" "t" "secret"), { uuid := "1", uuid' := "2" }⟩,
   ⟨"b", .createConversation (some ⟨"s", "m", ["1"]⟩), { uuid := "3", uuid' := "4" }⟩]

/-- The other user has read the metadata of the file, and may download it. -/
theorem foreign_attachment_obtained :
    ∃ scene, Run (Guarded (AdminsKeepApart twoUsers) (stepsTo (step twoUsers))) {} takeover scene ∧
      (∃ e ∈ scene.obtained, e.1 = "b" ∧ uploader twoUsers.keys e.2 = some "a" ∧
        twoUsers.requestIsAdmin "a" = false ∧ twoUsers.requestIsAdmin "b" = false) ∧
      (serve twoUsers { uuid := "5", uuid' := "6" } "b" (.download "1") scene.chat).reply =
        .file "1" "t" "inline; filename=\"x\"" (some (.data "secret")) := by
  exact Run.exists_of_guardedExec (by decide +kernel)

end Xraytool.SupportChat
