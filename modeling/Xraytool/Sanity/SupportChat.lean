import Xraytool.Spec.SupportRequests

/-! What opens a ciphertext, where a storage key is on the disk, and what the queries of the support chat read. -/

namespace Xraytool.SupportChat

open Fallible List

variable {c : Option Cipher} {plaintext purpose recordID conversationID : String} {keys : Keys} {att : Attachment}
  {key : MasterKey} {conv : Conversation} {file : File}

theorem openField_eq_ok :
    openField key purpose recordID c = .ok plaintext ↔ c = some (.field key purpose recordID plaintext) := by
  rcases c with _ | ⟨key', purpose', recordID', text⟩ | ⟨key', conversationID', text⟩
  · simp [openField]
  · by_cases h : key' = key ∧ purpose' = purpose ∧ recordID' = recordID
    · obtain ⟨rfl, rfl, rfl⟩ := h
      simp [openField]
    · have : (.field key' purpose' recordID' text : Cipher) ≠ .field key purpose recordID plaintext := by
        rintro ⟨⟩
        exact h ⟨rfl, rfl, rfl⟩
      simp [openField, h, this]
  · simp [openField]

/-- Keys that open the ciphertext agree on its plaintext, so which of them comes first does not matter. -/
theorem tryKeys_eq_ok {decrypt : MasterKey → Except Err String}
    (hag : ∀ {key key' text text'}, decrypt key = .ok text → decrypt key' = .ok text' → text = text')
    {keys : List MasterKey} {lastErr : Err} :
    tryKeys decrypt keys lastErr = .ok plaintext ↔ ∃ key ∈ keys, decrypt key = .ok plaintext := by
  induction keys generalizing lastErr with
  | nil => simp [tryKeys]
  | cons key keys ih =>
    cases hkey : decrypt key with
    | error err => simp [tryKeys, hkey, ih]
    | ok text =>
      simp only [tryKeys, hkey, Except.ok.injEq, mem_cons]
      constructor
      · rintro rfl
        exact ⟨key, .inl rfl, hkey⟩
      · rintro ⟨key', _, hkey'⟩
        exact hag hkey hkey'

theorem decryptField_eq_ok : decryptField keys purpose recordID c = .ok plaintext ↔
      ∃ key ∈ keys.all, c = some (.field key purpose recordID plaintext) := by
  rw [decryptField, mapError_eq_ok, tryKeys_eq_ok]
  · simp only [openField_eq_ok]
  intro key key' text text' h h'
  rw [openField_eq_ok] at h h'
  cases h.symm.trans h'
  rfl

theorem hydrateConversation_legacy (hversion : conv.encryptionVersion < currentEncryptionVersion) :
    hydrateConversation keys conv = .ok (conv.view conv.legacyUserID conv.legacySubject) := by
  rw [hydrateConversation, if_pos hversion]

theorem hydrateConversation_eq_ok {view : ConversationView}
    (hversion : currentEncryptionVersion ≤ conv.encryptionVersion) :
    hydrateConversation keys conv = .ok view ↔ ∃ uid subj,
      decryptField keys "conversation-user-id" conv.id conv.userIDCiphertext = .ok uid ∧
      decryptField keys "conversation-subject" conv.id conv.subjectCiphertext = .ok subj ∧
      conv.view uid subj = view := by
  rw [hydrateConversation, if_neg (Nat.not_lt.2 hversion)]
  simp only [bind_eq_ok, pure, Except.pure, Except.ok.injEq, exists_and_left]

theorem hydrateAttachment_legacy (hversion : att.encryptionVersion < currentEncryptionVersion) :
    hydrateAttachment keys att = .ok ⟨att.id, att.messageID, att.legacyUploaderID, att.legacyFileName,
      att.legacyMimeType, att.legacySize⟩ := by
  rw [hydrateAttachment, if_pos hversion]

section

variable (hversion : currentEncryptionVersion ≤ att.encryptionVersion)
include hversion

theorem hydrateAttachment_eq_ok {view : AttachmentView} :
    hydrateAttachment keys att = .ok view ↔ ∃ uploaderID fileName mimeType sizeText size,
      decryptField keys "attachment-uploader-id" att.id att.uploaderIDCiphertext = .ok uploaderID ∧
      decryptField keys "attachment-file-name" att.id att.fileNameCiphertext = .ok fileName ∧
      decryptField keys "attachment-mime-type" att.id att.mimeTypeCiphertext = .ok mimeType ∧
      decryptField keys "attachment-size" att.id att.sizeCiphertext = .ok sizeText ∧
      parseInt sizeText = some size ∧
      ⟨att.id, att.messageID, uploaderID, fileName, mimeType, size⟩ = view := by
  rw [hydrateAttachment, if_neg (Nat.not_lt.2 hversion)]
  simp only [bind_eq_ok]
  constructor
  · rintro ⟨uploaderID, hupl, fileName, hna, mimeType, hmi, sizeText, hte, h⟩
    split at h
    · cases h
    · next size hsi => exact ⟨_, _, _, _, size, hupl, hna, hmi, hte, hsi, Except.ok.inj h⟩
  · rintro ⟨uploaderID, fileName, mimeType, sizeText, size, hupl, hna, hmi, hte, hsi, rfl⟩
    refine ⟨uploaderID, hupl, fileName, hna, mimeType, hmi, sizeText, hte, ?_⟩
    rw [hsi]
    rfl

theorem decryptMedia_eq_ok {content : Content} :
    decryptMedia keys att file = .ok content ↔ file = .stream keys.active (attachmentStorageKey att) content := by
  rw [decryptMedia, if_pos hversion]
  cases file with
  | ctr key nonce text => simp [decryptAttachmentStream]
  | stream key skey text =>
    by_cases h : key = keys.active ∧ skey = attachmentStorageKey att
    · obtain ⟨rfl, rfl⟩ := h
      simp [decryptAttachmentStream]
    have hne : (.stream key skey text : File) ≠ .stream keys.active (attachmentStorageKey att) content := by
      rintro ⟨⟩
      exact h ⟨rfl, rfl⟩
    simp [decryptAttachmentStream, h, hne]

end

theorem cleanParts_snoc {name : String} (hem : name ≠ "") (hdot : name ≠ ".") (hup : name ≠ "..") (absolute : Bool)
    (parts done : List String) :
    cleanParts absolute (parts ++ [name]) done = cleanParts absolute parts done ++ [name] := by
  induction parts generalizing done with
  | nil => simp [cleanParts, hem, hdot, hup]
  | cons part parts ih =>
    rw [cons_append]
    unfold cleanParts
    split
    · exact ih done
    split
    · cases done with
      | nil => exact ih _
      | cons top done =>
        dsimp only
        split
        · exact ih _
        · exact ih _
    · exact ih _

theorem length_bin {skey : String} : 4 ≤ (skey ++ ".bin").length := by
  rw [String.length_append]
  exact Nat.le_add_left 4 _

theorem exists_blobLocation {p : Plugin} : ∃ directory, ∀ skey, blobLocation p skey = directory ++ [skey ++ ".bin"] := by
  have hna : ∀ skey name : String, name.length < 4 → skey ++ ".bin" ≠ name := by
    intro skey name hlen h
    exact absurd (h ▸ length_bin) (Nat.not_le.2 hlen)
  by_cases habs : (cleanPath p.mediaRoot).absolute
  · exact ⟨(cleanPath p.mediaRoot).parts, fun skey => by simp [blobLocation, attachmentStoragePath, Path.locate, habs]⟩
  refine ⟨cleanParts true (p.cwd ++ (cleanPath p.mediaRoot).parts) [], fun skey => ?_⟩
  simp only [blobLocation, attachmentStoragePath, Path.locate, habs]
  rw [if_neg (by simp), ← append_assoc]
  exact cleanParts_snoc (hna _ _ (by decide)) (hna _ _ (by decide)) (hna _ _ (by decide)) ..

theorem blobLocation_inj {p : Plugin} {skey skey' : String} :
    blobLocation p skey = blobLocation p skey' ↔ skey = skey' := by
  obtain ⟨directory, hdir⟩ := exists_blobLocation (p := p)
  constructor
  · intro h
    rw [hdir, hdir] at h
    have hla := singleton_inj.1 (append_cancel_left h)
    exact String.append_left_inj ".bin" |>.1 hla
  · rintro rfl
    rfl

/-! Whose the attachments of a store are, and the operations that keep every user's attachments out of the
conversations of others. -/

open Option

def owner (keys : Keys) (conv : Conversation) : Option String :=
  (hydrateConversation keys conv).toOption.map (·.userID)

def uploader (keys : Keys) (att : Attachment) : Option String :=
  (hydrateAttachment keys att).toOption.map (·.uploaderID)

variable {uid author id subj : String}

theorem mem_owner : uid ∈ owner keys conv ↔ ∃ view, hydrateConversation keys conv = .ok view ∧ view.userID = uid := by
  simp only [owner, Option.mem_map, mem_toOption]

theorem mem_uploader :
    author ∈ uploader keys att ↔ ∃ view, hydrateAttachment keys att = .ok view ∧ view.uploaderID = author := by
  simp only [uploader, Option.mem_map, mem_toOption]

/-- The owner is read from columns that neither a new message nor a new status writes. -/
theorem owner_congr {conv' : Conversation} (hid : conv'.id = conv.id)
    (hver : conv'.encryptionVersion = conv.encryptionVersion) (hleg : conv'.legacyUserID = conv.legacyUserID)
    (hus : conv'.userIDCiphertext = conv.userIDCiphertext)
    (hsub : conv'.subjectCiphertext = conv.subjectCiphertext) : owner keys conv' = owner keys conv := by
  ext uid
  rw [← mem_def, ← mem_def, mem_owner, mem_owner]
  rcases Nat.lt_or_ge conv.encryptionVersion currentEncryptionVersion with hv | hv
  · rw [hydrateConversation_legacy hv, hydrateConversation_legacy (hver ▸ hv)]
    simp [Conversation.view, hleg]
  simp only [hydrateConversation_eq_ok hv, hydrateConversation_eq_ok (hver ▸ hv), hid, hus, hsub]
  constructor
  · rintro ⟨_, ⟨user, subj, hu, hs, rfl⟩, rfl⟩
    exact ⟨_, ⟨user, subj, hu, hs, rfl⟩, rfl⟩
  · rintro ⟨_, ⟨user, subj, hu, hs, rfl⟩, rfl⟩
    exact ⟨_, ⟨user, subj, hu, hs, rfl⟩, rfl⟩

@[simp] theorem owner_touch {keys : Keys} {now : Time} {conv : Conversation} :
    owner keys (conv.touch now) = owner keys conv := owner_congr rfl rfl rfl rfl rfl

@[simp] theorem owner_setStatus {keys : Keys} {now : Time} {status : String} {conv : Conversation} :
    owner keys (conv.setStatus now status) = owner keys conv := owner_congr rfl rfl rfl rfl rfl

theorem owner_new {now : Time} (h : author ∈ owner keys (newConversation keys id now uid subj)) : author = uid := by
  obtain ⟨view, hvi, rfl⟩ := mem_owner.1 h
  obtain ⟨user, _, hu, _, rfl⟩ := (hydrateConversation_eq_ok le_rfl).1 hvi
  obtain ⟨key, _, hsea⟩ := decryptField_eq_ok.1 hu
  cases hsea
  rfl

/-- The link to a message is not part of what says whose an attachment is. -/
@[simp] theorem uploader_link {keys : Keys} {messageID : String} {att : Attachment} :
    uploader keys (att.link messageID) = uploader keys att := by
  ext author
  rw [← mem_def, ← mem_def, mem_uploader, mem_uploader]
  rcases Nat.lt_or_ge att.encryptionVersion currentEncryptionVersion with hv | hv
  · have hv' : (att.link messageID).encryptionVersion < currentEncryptionVersion := hv
    rw [hydrateAttachment_legacy hv, hydrateAttachment_legacy hv']
    simp [Attachment.link]
  have hv' : currentEncryptionVersion ≤ (att.link messageID).encryptionVersion := hv
  simp only [hydrateAttachment_eq_ok hv, hydrateAttachment_eq_ok hv']
  constructor
  · rintro ⟨_, ⟨user, name, mime, text, size, hu, hn, hm, ht, hs, rfl⟩, rfl⟩
    exact ⟨_, ⟨user, name, mime, text, size, hu, hn, hm, ht, hs, rfl⟩, rfl⟩
  · rintro ⟨_, ⟨user, name, mime, text, size, hu, hn, hm, ht, hs, rfl⟩, rfl⟩
    exact ⟨_, ⟨user, name, mime, text, size, hu, hn, hm, ht, hs, rfl⟩, rfl⟩

@[simp] theorem mediaLocation_link {p : Plugin} {messageID : String} {att : Attachment} :
    mediaLocation p (att.link messageID) = mediaLocation p att := rfl

variable {view : AttachmentView} {s : ChatStore} {size : Int}

theorem hydrateAttachment_id (h : hydrateAttachment keys att = .ok view) :
    view.id = att.id ∧ view.messageID = att.messageID := by
  rcases Nat.lt_or_ge att.encryptionVersion currentEncryptionVersion with hv | hv
  · rw [hydrateAttachment_legacy hv] at h
    cases h
    exact ⟨rfl, rfl⟩
  · obtain ⟨_, _, _, _, _, _, _, _, _, _, rfl⟩ := (hydrateAttachment_eq_ok hv).1 h
    exact ⟨rfl, rfl⟩

theorem uploader_new {skey name mimeType : String}
    (h : author ∈ uploader keys (newAttachment keys id skey uid name mimeType size)) : author = uid := by
  obtain ⟨view, hvi, rfl⟩ := mem_uploader.1 h
  obtain ⟨user, _, _, _, _, hu, _, _, _, _, rfl⟩ := (hydrateAttachment_eq_ok le_rfl).1 hvi
  obtain ⟨key, _, hsea⟩ := decryptField_eq_ok.1 hu
  cases hsea
  rfl

theorem hydrateConversation_id {view : ConversationView} (h : hydrateConversation keys conv = .ok view) :
    view.id = conv.id := by
  rcases Nat.lt_or_ge conv.encryptionVersion currentEncryptionVersion with hv | hv
  · rw [hydrateConversation_legacy hv] at h
    cases h
    rfl
  · obtain ⟨_, _, _, _, rfl⟩ := (hydrateConversation_eq_ok hv).1 h
    rfl

theorem getConversation_eq_ok {view : ConversationView} (h : getConversation keys id s = .ok view) :
    view.id = id ∧ ∃ conv ∈ s.conversations.rows, conv.id = id ∧ view.userID ∈ owner keys conv := by
  obtain ⟨conv, hco, hvi⟩ := bind_eq_ok.1 h
  rw [found_eq_ok] at hco
  rw [mapError_eq_ok] at hvi
  have hid : conv.id = id := by simpa using find?_some hco
  exact ⟨(hydrateConversation_id hvi).trans hid, conv, mem_of_find?_eq_some hco, hid, mem_owner.2 ⟨view, hvi, rfl⟩⟩

@[simp] theorem require_eq_ok {q : Prop} [Decidable q] {refusal : Refusal} {u : Unit} :
    require q refusal = .ok u ↔ q := by
  unfold require
  split <;> simp_all

theorem getAttachment_eq_ok : getAttachment keys id s = .ok (att, view) ↔
      att ∈ s.attachments.rows ∧ att.id = id ∧ hydrateAttachment keys att = .ok view := by
  constructor
  · intro h
    obtain ⟨row, hfi, h⟩ := bind_eq_ok.1 h
    obtain ⟨_, hvi, h⟩ := bind_eq_ok.1 h
    cases h
    rw [found_eq_ok] at hfi
    have hid : att.id = id := by simpa using find?_some hfi
    exact ⟨mem_of_find?_eq_some hfi, hid, mapError_eq_ok.1 hvi⟩
  · rintro ⟨hatt, hid, hvi⟩
    have hso : (s.attachments.rows.find? fun att => att.id == id).isSome := find?_isSome.2 ⟨att, hatt, beq_iff_eq.2 hid⟩
    obtain ⟨row, hfi⟩ := isSome_iff_exists.1 hso
    have hrow : row.id = id := by simpa using find?_some hfi
    obtain rfl : row = att := s.attachments.eq_of_clash (mem_of_find?_eq_some hfi) hatt (hrow.trans hid.symm)
    exact bind_eq_ok.2 ⟨row, found_eq_ok.2 hfi, bind_eq_ok.2 ⟨view, mapError_eq_ok.2 hvi, rfl⟩⟩

theorem inserted_eq_ok {ρ : Type} {clash : ρ → ρ → Prop} [DecidableRel clash] {t t' : Table ρ clash} {r : ρ} :
    inserted t r = .ok t' ↔ t.insert r = some t' := by
  unfold inserted
  split <;> simp_all

/-- The user may have the attachment: it is their own, or the uploader or they are an administrator. -/
def MayHave (p : Plugin) (userID : String) (att : Attachment) : Prop :=
  ∀ author ∈ uploader p.keys att, author = userID ∨ p.requestIsAdmin author ∨ p.requestIsAdmin userID

instance (p : Plugin) (userID : String) (att : Attachment) : Decidable (MayHave p userID att) :=
  inferInstanceAs (Decidable (∀ author ∈ uploader p.keys att, _))

/-- No attachment is in the conversation of a user who may not have it, and no file belongs to two users. -/
structure Isolated (p : Plugin) (s : ChatStore) : Prop where
  linked : ∀ att ∈ s.attachments.rows, ∀ msg ∈ s.messages.rows, ∀ conv ∈ s.conversations.rows,
    att.messageID = some msg.id → msg.conversationID = conv.id → ∀ userID ∈ owner p.keys conv, MayHave p userID att
  shared : ∀ att ∈ s.attachments.rows, ∀ att' ∈ s.attachments.rows, ∀ place ∈ mediaLocation p att,
    place ∈ mediaLocation p att' → ∀ author ∈ uploader p.keys att, ∀ author' ∈ uploader p.keys att', author = author'
  blobs : ∀ blob ∈ s.blobs.rows, ∀ att ∈ s.attachments.rows,
    blobLocation p blob.storageKey ∈ mediaLocation p att →
    ∀ author ∈ uploader p.keys att, blob.uploaderIDHash = uploaderHash p.keys author

theorem isolated_empty {p : Plugin} : Isolated p {} where
  linked _ hatt := absurd hatt not_mem_nil
  shared _ hatt := absurd hatt not_mem_nil
  blobs _ hbl := absurd hbl not_mem_nil

/-- The rows of the second store come from rows of the first with the same owners, links and files. -/
structure Within (p : Plugin) (s s' : ChatStore) : Prop where
  conversations : ∀ conv' ∈ s'.conversations.rows, ∃ conv ∈ s.conversations.rows,
    conv'.id = conv.id ∧ owner p.keys conv' = owner p.keys conv
  messages : ∀ msg' ∈ s'.messages.rows, ∃ msg ∈ s.messages.rows,
    msg'.id = msg.id ∧ msg'.conversationID = msg.conversationID
  attachments : s'.attachments.rows ⊆ s.attachments.rows
  blobs : s'.blobs.rows ⊆ s.blobs.rows

namespace Isolated

variable {p : Plugin} {s s' : ChatStore}

theorem within (h : Isolated p s) (hw : Within p s s') : Isolated p s' where
  linked att hatt msg' hmsg' conv' hco' hli hin uid hu := by
    obtain ⟨conv, hco, hcid, how⟩ := hw.conversations conv' hco'
    obtain ⟨msg, hmsg, hmid, hmc⟩ := hw.messages msg' hmsg'
    exact h.linked att (hw.attachments hatt) msg hmsg conv hco (hmid ▸ hli) (hmc ▸ hcid ▸ hin) uid
      (how ▸ hu)
  shared att hatt att' hatt' := h.shared att (hw.attachments hatt) att' (hw.attachments hatt')
  blobs blob hbl att hatt := h.blobs blob (hw.blobs hbl) att (hw.attachments hatt)

/-- The owner of the conversation of a message may have its attachments. -/
theorem of_message (h : Isolated p s) {msg : Message} {conv : ConversationView} (hmsg : msg ∈ s.messages.rows)
    (hco : getConversation p.keys msg.conversationID s = .ok conv) (hatt : att ∈ s.attachments.rows)
    (hli : att.messageID = some msg.id) : MayHave p conv.userID att := by
  obtain ⟨_, row, hrow, hid, how⟩ := getConversation_eq_ok hco
  exact h.linked att hatt msg hmsg row hrow hli hid.symm _ how

end Isolated

section Operations

variable {p : Plugin} {s s' : ChatStore}

theorem within_bans {bans : Table SupportBan SupportBan.Clash} : Within p s { s with bans := bans } :=
  ⟨fun conv h => ⟨conv, h, rfl, rfl⟩, fun msg h => ⟨msg, h, rfl, rfl⟩, fun _ h => h, fun _ h => h⟩

theorem within_markMessagesRead (now : Time) (convID readerRole : String) :
    Within p s (markMessagesRead now convID readerRole s) where
  conversations conv h := ⟨conv, h, rfl, rfl⟩
  messages msg' h := by
    obtain ⟨msg, hmsg, heq⟩ := Table.exists_of_mem_updateWhere (fun msg => (msg.id, msg.conversationID))
      (Message.keeps_read now) (fun _ => rfl) h
    obtain ⟨hid, hco⟩ := Prod.mk.inj heq
    exact ⟨msg, hmsg, hid.symm, hco.symm⟩
  attachments _ h := h
  blobs _ h := h

variable {id uid msgID : String} {now : Time} {ids : List String}

theorem within_updateStatus {status : String} (h : updateStatus now id status s = .ok s') : Within p s s' := by
  unfold updateStatus at h
  split at h <;> cases h
  refine ⟨fun conv' hco' => ?_, fun msg hmsg => ⟨msg, hmsg, rfl, rfl⟩, fun _ h => h, fun _ h => h⟩
  obtain ⟨conv, hco, heq⟩ := Table.exists_of_mem_updateWhere (fun conv => (conv.id, owner p.keys conv))
    (Conversation.keeps_setStatus now status) (fun conv => by rw [owner_setStatus]; rfl) hco'
  obtain ⟨hid, how⟩ := Prod.mk.inj heq
  exact ⟨conv, hco, hid.symm, how.symm⟩

theorem within_deleteConversation {mediaRoot : String} {files : List Path}
    (h : deleteConversation id mediaRoot s = .ok (s', files)) : Within p s s' := by
  obtain ⟨conv, _, h⟩ := bind_eq_ok.1 h
  cases h
  exact ⟨fun conv h => ⟨conv, mem_of_mem_filter h, rfl, rfl⟩, fun msg h => ⟨msg, mem_of_mem_filter h, rfl, rfl⟩,
    filter_subset_self _, filter_subset_self _⟩

theorem within_banUser {reason bannedBy : String} {expiresAt : Option Time}
    (h : banUser p.keys id uid reason bannedBy expiresAt s = .ok s') : Within p s s' := by
  obtain ⟨bans, _, h⟩ := bind_eq_ok.1 h
  cases h
  exact within_bans

theorem isolated_createConversation {conv : ConversationView} (h : Isolated p s)
    (hid : Unused p id s) (hcre : createConversation p.keys id now uid subj s = .ok (s', conv)) :
    Isolated p s' := by
  obtain ⟨convs, hins, hs'⟩ := bind_eq_ok.1 hcre
  cases hs'
  have hro := (Table.insert_eq_some (inserted_eq_ok.1 (mapError_eq_ok.1 hins))).2
  refine { h with linked := fun att hatt msg hmsg conv hco hli hin => ?_ }
  rw [hro, mem_append, mem_singleton] at hco
  rcases hco with hco | rfl
  · exact h.linked att hatt msg hmsg conv hco hli hin
  · exact absurd hin (hid.2.2.1 msg hmsg).2

variable {reply : Except Err MessageOutput} {convID senderRole text : String}

theorem createMessage_eq_ok (h : createMessage keys msgID now convID senderRole text ids s = .ok (s', reply)) :
    (∃ conv, getConversation keys convID s = .ok conv) ∧
    s'.messages.rows = s.messages.rows ++ [newMessage keys msgID now convID senderRole text] ∧
    s'.attachments = s.attachments.updateWhere (fun att => ids.contains att.id) (.link msgID) Attachment.keeps_link ∧
    s'.conversations = s.conversations.updateWhere (fun conv => conv.id == convID) (.touch now)
      (Conversation.keeps_touch now) ∧
    s'.blobs = s.blobs ∧
    reply = (if 0 < ids.length then attachmentsOf keys msgID s' else .ok []).map fun attachments =>
      ⟨msgID, convID, senderRole, text, none, now, attachments⟩ := by
  obtain ⟨conv, hco, h⟩ := bind_eq_ok.1 h
  obtain ⟨msgs, hmes, h⟩ := bind_eq_ok.1 h
  cases h
  exact ⟨⟨conv, mapError_eq_ok.1 hco⟩, (Table.insert_eq_some (inserted_eq_ok.1 (mapError_eq_ok.1 hmes))).2,
    rfl, rfl, rfl, rfl⟩

/-- The attachments may be linked to a message of a conversation of this user. -/
def Attachable (p : Plugin) (userID : String) (ids : List String) (s : ChatStore) : Prop :=
  ∀ att ∈ s.attachments.rows, att.id ∈ ids → MayHave p userID att

instance (p : Plugin) (userID : String) (ids : List String) (s : ChatStore) : Decidable (Attachable p userID ids s) :=
  inferInstanceAs (Decidable (∀ att ∈ s.attachments.rows, _))

theorem mem_linked {att' : Attachment}
    (h : att' ∈ (s.attachments.updateWhere (fun att => ids.contains att.id) (.link msgID) Attachment.keeps_link).rows) :
    ∃ att ∈ s.attachments.rows, uploader p.keys att' = uploader p.keys att ∧
      mediaLocation p att' = mediaLocation p att ∧
      (att.id ∈ ids ∧ att'.messageID = some msgID ∨ att'.messageID = att.messageID) := by
  obtain ⟨att, hatt, rfl⟩ := (Table.mem_updateWhere _).1 h
  refine ⟨att, hatt, ?_⟩
  split
  · next hids => exact ⟨uploader_link .., mediaLocation_link .., .inl ⟨by simpa using hids, rfl⟩⟩
  · exact ⟨rfl, rfl, .inr rfl⟩

theorem isolated_createMessage (h : Isolated p s) (hid : Unused p msgID s)
    (hown : ∀ conv, getConversation p.keys convID s = .ok conv → Attachable p conv.userID ids s)
    (hcre : createMessage p.keys msgID now convID senderRole text ids s = .ok (s', reply)) : Isolated p s' := by
  obtain ⟨⟨view, hvi⟩, hmes, hatta, hcon, hblo, _⟩ := createMessage_eq_ok hcre
  obtain ⟨_, found, hfo, hfid, how⟩ := getConversation_eq_ok hvi
  refine ⟨fun att' hatt' msg hmsg conv' hco' hli hin uid hu author haut => ?_,
    fun att1 hatt1 att2 hatt2 place h1 h2 => ?_, fun blob hbl att' hatt' hpl => ?_⟩
  · rw [hatta] at hatt'
    rw [hcon] at hco'
    obtain ⟨att, hatt, hup, _, hca⟩ := mem_linked (p := p) hatt'
    obtain ⟨conv, hco, heq⟩ := Table.exists_of_mem_updateWhere (fun conv => (conv.id, owner p.keys conv))
      (Conversation.keeps_touch now) (fun conv => by rw [owner_touch]; rfl) hco'
    obtain ⟨hconvI, hconvO⟩ := Prod.mk.inj heq
    rw [hup] at haut
    rw [← hconvI] at hin
    rw [← hconvO] at hu
    rw [hmes, mem_append, mem_singleton] at hmsg
    rcases hmsg with hmsg | rfl
    · -- the link to an older message is an older link
      rcases hca with ⟨_, hnew⟩ | hold
      · exact absurd (some.inj (hli.symm.trans hnew)) (hid.2.2.1 msg hmsg).1
      · exact h.linked att hatt msg hmsg conv hco (hold ▸ hli) hin uid hu author haut
    · rcases hca with ⟨hids, _⟩ | hold
      · obtain rfl : conv = found := s.conversations.eq_of_clash hco hfo (hin.symm.trans hfid.symm)
        obtain rfl : view.userID = uid := some.inj (how.symm.trans hu)
        exact hown view hvi att hatt hids author haut
      · exact absurd (hold.symm.trans hli) (hid.2.2.2.1 att hatt).2.1
  · rw [hatta] at hatt1 hatt2
    obtain ⟨att, hatt, hup, hloc, _⟩ := mem_linked (p := p) hatt1
    obtain ⟨att', hatt', hup', hloc', _⟩ := mem_linked (p := p) hatt2
    rw [hup, hup']
    exact h.shared att hatt att' hatt' place (hloc ▸ h1) (hloc' ▸ h2)
  · rw [hatta] at hatt'
    rw [hblo] at hbl
    obtain ⟨att, hatt, hup, hloc, _⟩ := mem_linked (p := p) hatt'
    rw [hup]
    exact h.blobs blob hbl att hatt (hloc ▸ hpl)

theorem mediaLocation_new (id skey uid name mimeType : String) (size : Int) :
    mediaLocation p (newAttachment p.keys id skey uid name mimeType size) =
      some (blobLocation p (if skey ≠ "" then skey else id)) := rfl

theorem isolated_createAttachmentBlob {skey : String} {contentDigest : BlindIndex} (h : Isolated p s)
    (hkey : Unused p skey s)
    (hcre : createAttachmentBlob p.keys skey uid contentDigest s = .ok s') : Isolated p s' := by
  obtain ⟨blobs, hins, hs'⟩ := bind_eq_ok.1 hcre
  cases hs'
  have hro := (Table.insert_eq_some (inserted_eq_ok.1 hins)).2
  refine { h with blobs := fun blob hbl att hatt hpl => ?_ }
  rw [hro, mem_append, mem_singleton] at hbl
  rcases hbl with hbl | rfl
  · exact h.blobs blob hbl att hatt hpl
  · exact absurd hpl (hkey.2.2.2.1 att hatt).2.2

/-- An attachment to a blob of its uploader shares the file with attachments of the same uploader only. -/
theorem isolated_createAttachment {name mimeType : String} {blob : AttachmentBlob} (h : Isolated p s)
    (hid : Unused p id s) (hbl : blob ∈ s.blobs.rows) (hha : blob.uploaderIDHash = uploaderHash p.keys uid)
    (hcre : createAttachment p.keys id blob.storageKey uid name mimeType size s = .ok s') : Isolated p s' := by
  obtain ⟨attachments, hins, hs'⟩ := bind_eq_ok.1 hcre
  cases hs'
  have hro := (Table.insert_eq_some (inserted_eq_ok.1 hins)).2
  have hpl := mediaLocation_new (p := p) id blob.storageKey uid name mimeType size
  -- the uploader of an older attachment with the file of the new one
  have hold : ∀ att ∈ s.attachments.rows, ∀ author ∈ uploader p.keys att,
      blobLocation p (if blob.storageKey ≠ "" then blob.storageKey else id) ∈ mediaLocation p att → author = uid := by
    intro att hatt author haut hf
    split_ifs at hf with hkey
    · have := hha.symm.trans (h.blobs blob hbl att hatt hf author haut)
      exact (BlindIndex.mk.inj this).2.2.symm
    · exact absurd hf (hid.2.2.2.1 att hatt).2.2
  refine ⟨fun att hatt msg hmsg conv hco hli => ?_, fun att hatt att' hatt' place hf hf' => ?_,
    fun other ho att hatt hf author haut => ?_⟩
  · rw [hro, mem_append, mem_singleton] at hatt
    rcases hatt with hatt | rfl
    · exact h.linked att hatt msg hmsg conv hco hli
    · cases hli
  · rw [hro, mem_append, mem_singleton] at hatt hatt'
    rcases hatt with hatt | rfl <;> rcases hatt' with hatt' | rfl
    · exact h.shared att hatt att' hatt' place hf hf'
    · intro author haut author' haut'
      obtain rfl := some.inj (hpl.symm.trans hf')
      rw [uploader_new haut']
      exact hold att hatt author haut hf
    · intro author haut author' haut'
      obtain rfl := some.inj (hpl.symm.trans hf)
      rw [uploader_new haut]
      exact (hold att' hatt' author' haut' hf').symm
    · intro author haut author' haut'
      rw [uploader_new haut, uploader_new haut']
  · rw [hro, mem_append, mem_singleton] at hatt
    rcases hatt with hatt | rfl
    · exact h.blobs other ho att hatt hf author haut
    have hkey := blobLocation_inj.1 (some.inj (hpl.symm.trans hf))
    rw [uploader_new haut]
    split_ifs at hkey with hem
    · rw [s.blobs.eq_of_clash ho hbl (.inl hkey.symm), hha]
    · exact absurd hkey.symm (hid.2.2.2.2 other ho)

end Operations

end Xraytool.SupportChat
