import Xraytool.Lib.Conversion
import Xraytool.Sanity.SupportChat
import Xraytool.Spec.SupportMigration

/-! The migration of the support chat reads an attachment from its old file, writes the new one and removes the old one
in three steps, any of which may be the last before a crash. -/

namespace Xraytool.SupportMigration

open SupportChat Fallible Transition Conversion List Option Migration

def mediaContent (p : Plugin) (c : Chat) (att : Attachment) : Option Content :=
  ((mediaLocation p att).bind c.disk.get).bind fun file => (decryptMedia p.keys att file).toOption

/-- Each row reads as before, apart from the time of its last change. -/
structure Preserved (p : Plugin) (c₀ c : Chat) : Prop where
  conversations : ∀ conv₀ ∈ c₀.store.conversations.rows, ∀ view, hydrateConversation p.keys conv₀ = .ok view →
    ∃ conv ∈ c.store.conversations.rows, ∃ updatedAt,
      hydrateConversation p.keys conv = .ok { view with updatedAt := updatedAt }
  messages : ∀ msg₀ ∈ c₀.store.messages.rows, ∀ text, messageText p.keys msg₀ = .ok text →
    ∃ msg ∈ c.store.messages.rows, msg.id = msg₀.id ∧ msg.conversationID = msg₀.conversationID ∧
      messageText p.keys msg = .ok text
  attachments : ∀ att₀ ∈ c₀.store.attachments.rows, ∀ content, mediaContent p c₀ att₀ = some content →
    ∃ att ∈ c.store.attachments.rows, att.id = att₀.id ∧ att.messageID = att₀.messageID ∧
      mediaContent p c att = some content

/-- The keys open the messages of the first version. -/
def RightKeys (keys : Keys) (s : ChatStore) : Prop :=
  ∀ msg ∈ s.messages.rows, pendingMessage msg → ∃ text, decryptLegacy keys msg.conversationID msg.ciphertext = .ok text

def finalKey (att : Attachment) : String := if pendingAttachment att then att.id else attachmentStorageKey att

/-- Every attachment of the first version has a file of its own with a nonce, and its place is none of the new layout. -/
structure Migratable (p : Plugin) (c : Chat) : Prop where
  files : ∀ att ∈ c.store.attachments.rows, pendingAttachment att →
    att.nonce.isSome ∧ ((mediaLocation p att).bind c.disk.get).isSome
  apart : ∀ att ∈ c.store.attachments.rows, ∀ att' ∈ c.store.attachments.rows, pendingAttachment att →
    pendingAttachment att' → mediaLocation p att = mediaLocation p att' → att = att'
  layout : ∀ att ∈ c.store.attachments.rows, ∀ att' ∈ c.store.attachments.rows, pendingAttachment att →
    mediaLocation p att ≠ some (blobLocation p (finalKey att'))
  keys : ∀ att ∈ c.store.attachments.rows, ∀ att' ∈ c.store.attachments.rows, pendingAttachment att →
    ¬ pendingAttachment att' → attachmentStorageKey att' ≠ att.id

def ConversationKept (keys : Keys) (conv₀ conv : Conversation) : Prop :=
  conv = conv₀ ∨ pendingConversation conv₀ ∧ ∃ now, conv = convertConversation keys now conv₀ conv₀

def MessageKept (keys : Keys) (msg₀ msg : Message) : Prop :=
  msg = msg₀ ∨ pendingMessage msg₀ ∧ ∃ text,
    decryptLegacy keys msg₀.conversationID msg₀.ciphertext = .ok text ∧ msg = convertMessage keys msg₀ text msg₀

/-- The new file has what the old one had. -/
def NewFile (p : Plugin) (c₀ : Chat) (disk : Disk) (att : Attachment) : Prop :=
  ∃ file content, (mediaLocation p att).bind c₀.disk.get = some file ∧
    decryptStream p.keys.legacyAttachment att.nonce file = .ok content ∧
    disk.get (blobLocation p att.id) = some (.stream p.keys.active att.id content)

/-- The row and its file are the old ones, or the new ones. -/
def AttachmentKept (p : Plugin) (c₀ : Chat) (disk : Disk) (att₀ att : Attachment) : Prop :=
  (att = att₀ ∧ (mediaLocation p att₀).bind disk.get = (mediaLocation p att₀).bind c₀.disk.get) ∨
    (pendingAttachment att₀ ∧ att = convertAttachment p.keys att₀ att₀ ∧ NewFile p c₀ disk att₀)

variable {att att₀ : Attachment} {keys : Keys} {c₀ : Chat} {p : Plugin}

theorem pendingAttachment_iff : pendingAttachment att ↔ att.encryptionVersion < currentEncryptionVersion :=
  decide_eq_true_iff

variable {conv conv₀ : Conversation} {msg msg₀ : Message} {disk : Disk}

theorem ConversationKept.of_pending (h : ConversationKept keys conv₀ conv) (hpen : pendingConversation conv) :
    conv = conv₀ := by
  rcases h with h | ⟨_, now, rfl⟩
  · exact h
  · cases hpen

theorem MessageKept.of_pending (h : MessageKept keys msg₀ msg) (hpen : pendingMessage msg) : msg = msg₀ := by
  rcases h with h | ⟨_, text, _, rfl⟩
  · exact h
  · cases hpen

theorem AttachmentKept.of_pending (h : AttachmentKept p c₀ disk att₀ att) (hpen : pendingAttachment att) :
    att = att₀ ∧ (mediaLocation p att₀).bind disk.get = (mediaLocation p att₀).bind c₀.disk.get := by
  rcases h with h | ⟨_, rfl, _⟩
  · exact h
  · cases hpen

theorem AttachmentKept.id_eq (h : AttachmentKept p c₀ disk att₀ att) :
    att.id = att₀.id ∧ att.messageID = att₀.messageID := by
  rcases h with ⟨rfl, _⟩ | ⟨_, rfl, _⟩
  · exact ⟨rfl, rfl⟩
  · exact ⟨rfl, rfl⟩

theorem ConversationKept.reads (h : ConversationKept keys conv₀ conv) {view : ConversationView}
    (hvi : hydrateConversation keys conv₀ = .ok view) :
    ∃ updatedAt, hydrateConversation keys conv = .ok { view with updatedAt := updatedAt } := by
  rcases h with rfl | ⟨hpen, now, rfl⟩
  · exact ⟨view.updatedAt, hvi⟩
  have hv := (Bool.and_eq_true_iff.1 hpen).1
  rw [hydrateConversation_legacy (of_decide_eq_true hv)] at hvi
  cases hvi
  refine ⟨now, (hydrateConversation_eq_ok le_rfl).2 ⟨conv₀.legacyUserID, conv₀.legacySubject, ?_, ?_, rfl⟩⟩
  · exact decryptField_eq_ok.2 ⟨keys.active, mem_cons_self, rfl⟩
  · exact decryptField_eq_ok.2 ⟨keys.active, mem_cons_self, rfl⟩

theorem MessageKept.reads (h : MessageKept keys msg₀ msg) {text : String} (hte : messageText keys msg₀ = .ok text) :
    msg.id = msg₀.id ∧ msg.conversationID = msg₀.conversationID ∧ messageText keys msg = .ok text := by
  rcases h with rfl | ⟨hpen, plaintext, hpl, rfl⟩
  · exact ⟨rfl, rfl, hte⟩
  rw [messageText, if_neg (Nat.not_le.2 (of_decide_eq_true hpen)), hpl] at hte
  cases hte
  refine ⟨rfl, rfl, ?_⟩
  exact decryptField_eq_ok.2 ⟨keys.active, mem_cons_self, rfl⟩

theorem version_converted : currentEncryptionVersion ≤ (convertAttachment keys att att).encryptionVersion := Nat.le_refl _

theorem attachmentStorageKey_converted : attachmentStorageKey (convertAttachment keys att att) = att.id := by
  unfold attachmentStorageKey
  split <;> rfl

theorem mediaLocation_converted : mediaLocation p (convertAttachment p.keys att att) = some (blobLocation p att.id) := by
  rw [mediaLocation, if_pos version_converted, attachmentStorageKey_converted]

theorem AttachmentKept.reads {c : Chat} (h : AttachmentKept p c₀ c.disk att₀ att) {content : Content}
    (hcon : mediaContent p c₀ att₀ = some content) : mediaContent p c att = some content := by
  rcases h with ⟨rfl, hf⟩ | ⟨hpen, rfl, file, content', hf, hop, hnew⟩
  · rwa [mediaContent, hf]
  have hold : decryptMedia p.keys att₀ file = decryptStream p.keys.legacyAttachment att₀.nonce file :=
    if_neg (Nat.not_le.2 (pendingAttachment_iff.1 hpen))
  rw [mediaContent, hf, bind_some, hold, hop] at hcon
  cases hcon
  have hr : decryptMedia p.keys (convertAttachment p.keys att₀ att₀) (.stream p.keys.active att₀.id content) =
      .ok content := by
    rw [decryptMedia_eq_ok version_converted, attachmentStorageKey_converted]
  rw [mediaContent, mediaLocation_converted, bind_some, hnew, bind_some, hr]
  rfl

/-- What is known of the attachment in hand. -/
def PointKept (p : Plugin) (c₀ : Chat) (m : Migration) : Prop :=
  match m.point with
  | .published att => att ∈ c₀.store.attachments.rows ∧ pendingAttachment att ∧ att ∈ m.chat.store.attachments.rows ∧
      NewFile p c₀ m.chat.disk att
  | .updated att => att ∈ c₀.store.attachments.rows ∧ pendingAttachment att ∧
      convertAttachment p.keys att att ∈ m.chat.store.attachments.rows
  | .failed _ => False
  | _ => True

structure Kept (p : Plugin) (c₀ : Chat) (m : Migration) : Prop where
  conversations : List.Forall₂ (ConversationKept p.keys) c₀.store.conversations.rows m.chat.store.conversations.rows
  messages : List.Forall₂ (MessageKept p.keys) c₀.store.messages.rows m.chat.store.messages.rows
  attachments : List.Forall₂ (AttachmentKept p c₀ m.chat.disk) c₀.store.attachments.rows m.chat.store.attachments.rows
  point : PointKept p c₀ m

def pendingRows (s : ChatStore) : Nat :=
  3 * s.attachments.rows.countP pendingAttachment + s.messages.rows.countP pendingMessage +
    s.conversations.rows.countP pendingConversation

/-- The steps until the migration returns, at most. -/
def remaining (m : Migration) : Nat :=
  match m.point with
  | .running => pendingRows m.chat.store + 1
  | .published _ => pendingRows m.chat.store
  | .updated _ => pendingRows m.chat.store + 2
  | .done => 0
  | .idle => pendingRows m.chat.store + 2
  | .failed _ => pendingRows m.chat.store + 2

section Steps

variable {p : Plugin} {c₀ : Chat} {m m' : Migration} {id : String} {att : Attachment} {ρ : Type} {r : ρ}

theorem mem_of_find {key : ρ → String} {pending : ρ → Bool} {rows : List ρ}
    (h : rows.find? (fun r => key r == id && pending r) = some r) : r ∈ rows ∧ key r = id ∧ pending r := by
  have hr := find?_some h
  simp only [Bool.and_eq_true, beq_iff_eq] at hr
  exact ⟨mem_of_find?_eq_some h, hr⟩

theorem kept_initial : Kept p c₀ { chat := c₀ } where
  conversations := forall₂_same.2 fun _ _ => .inl rfl
  messages := forall₂_same.2 fun _ _ => .inl rfl
  attachments := forall₂_same.2 fun _ _ => .inl ⟨rfl, rfl⟩
  point := trivial

theorem Kept.preserved (h : Kept p c₀ m) : Preserved p c₀ m.chat where
  conversations conv₀ hco0 view hvi := by
    obtain ⟨conv, hco, hke⟩ := exists_of_forall₂_left h.conversations hco0
    exact ⟨conv, hco, hke.reads hvi⟩
  messages msg₀ hmsg0 text hte := by
    obtain ⟨msg, hmsg, hke⟩ := exists_of_forall₂_left h.messages hmsg0
    exact ⟨msg, hmsg, hke.reads hte⟩
  attachments att₀ hatt0 content hcon := by
    obtain ⟨att, hatt, hke⟩ := exists_of_forall₂_left h.attachments hatt0
    exact ⟨att, hatt, hke.id_eq.1, hke.id_eq.2, hke.reads hcon⟩

theorem kept_conversation {now : Time} (h : Kept p c₀ m) (hpo : m.point = .running)
    (hs : m.conversation p id now = some m') : Kept p c₀ m' ∧ remaining m' < remaining m := by
  unfold conversation at hs
  split at hs
  · next conv hfi =>
    cases hs
    obtain ⟨hco, _, hpen⟩ := mem_of_find hfi
    refine ⟨⟨forall₂_update h.conversations fun conv₀ hco0 row hrow hke hid => ?_, h.messages, h.attachments, ?_⟩,
      ?_⟩
    · obtain rfl : row = conv := m.chat.store.conversations.eq_of_clash hrow hco (beq_iff_eq.1 hid)
      obtain rfl := hke.of_pending hpen
      exact .inr ⟨hpen, now, rfl⟩
    · simp only [PointKept, hpo]
    have hlt := countP_update_lt (p := fun row => row.id == conv.id)
      (f := convertConversation p.keys now conv) (fun _ => rfl) hco (beq_self_eq_true _) hpen
    simp only [remaining, hpo, pendingRows, migrateConversation, Table.updateWhere]
    omega
  · cases hs

theorem kept_message (hkeys : RightKeys p.keys c₀.store) (h : Kept p c₀ m) (hpo : m.point = .running)
    (hs : m.message p id = some m') : Kept p c₀ m' ∧ remaining m' < remaining m := by
  unfold message at hs
  split at hs
  · next msg hfi =>
    obtain ⟨hmsg, _, hpen⟩ := mem_of_find hfi
    obtain ⟨msg₀, hmsg0, hke⟩ := exists_of_forall₂_left h.messages.flip hmsg
    obtain rfl := MessageKept.of_pending hke hpen
    obtain ⟨text, hte⟩ := hkeys msg hmsg0 hpen
    rw [migrateMessage, hte] at hs
    cases hs
    refine ⟨⟨h.conversations, forall₂_update h.messages fun _ _ row hrow hrowK hid => ?_, h.attachments, ?_⟩, ?_⟩
    · obtain rfl : row = msg := m.chat.store.messages.eq_of_clash hrow hmsg (beq_iff_eq.1 hid)
      obtain rfl := hrowK.of_pending hpen
      exact .inr ⟨hpen, text, hte, rfl⟩
    · simp only [PointKept, hpo]
    have hlt := countP_update_lt (p := fun row => row.id == msg.id)
      (f := convertMessage p.keys msg text) (fun _ => rfl) hmsg (beq_self_eq_true _) hpen
    simp only [remaining, hpo, pendingRows, Table.updateWhere]
    omega
  · cases hs

theorem mediaLocation_final (hpen : ¬ pendingAttachment att) :
    mediaLocation p att = some (blobLocation p (finalKey att)) := by
  rw [mediaLocation, if_pos (Nat.not_lt.1 fun hv => hpen (pendingAttachment_iff.2 hv)), finalKey, if_neg hpen]

/-- No attachment is at the place a pending one will have, unless it is that one converted. -/
theorem mediaLocation_ne_new (hready : Migratable p c₀) {att' : Attachment} (hatt : att ∈ c₀.store.attachments.rows)
    (hatt' : att' ∈ c₀.store.attachments.rows) (hpen : pendingAttachment att) :
    mediaLocation p att' ≠ some (blobLocation p att.id) := by
  by_cases hpen' : pendingAttachment att'
  · have := hready.layout att' hatt' att hatt hpen'
    rwa [finalKey, if_pos hpen] at this
  rw [mediaLocation_final hpen']
  intro hsa
  have hkey := blobLocation_inj.1 (some.inj hsa)
  rw [finalKey, if_neg hpen'] at hkey
  exact hready.keys att hatt att' hatt' hpen hpen' hkey

variable {at' : Option Location}

theorem bind_get_put {place : Location} {file : File} (h : at' ≠ some place) :
    at'.bind (disk.put place file).get = at'.bind disk.get := by
  cases at' with
  | none => rfl
  | some other =>
    rw [bind_some, bind_some, Assoc.Map.get_put, if_neg fun heq => h (congrArg some heq)]

theorem bind_get_remove (disk : Disk) {path : Path} (h : at' ≠ some (path.locate p.cwd)) :
    at'.bind (removeFile p.cwd path disk).get = at'.bind disk.get := by
  cases at' with
  | none => rfl
  | some other =>
    rw [bind_some, bind_some, removeFile, Assoc.Map.get_filter_ne, if_neg fun heq => h (congrArg some heq)]

theorem Kept.pending_attachment (h : Kept p c₀ m) (hatt : att ∈ m.chat.store.attachments.rows)
    (hpen : pendingAttachment att) : att ∈ c₀.store.attachments.rows ∧
      (mediaLocation p att).bind m.chat.disk.get = (mediaLocation p att).bind c₀.disk.get := by
  obtain ⟨att₀, hatt0, hke⟩ := exists_of_forall₂_left h.attachments.flip hatt
  obtain ⟨rfl, hf⟩ := AttachmentKept.of_pending hke hpen
  exact ⟨hatt0, hf⟩

theorem publishAttachment_eq_ok (hready : Migratable p c₀) (h : Kept p c₀ m)
    (hatt : att ∈ m.chat.store.attachments.rows) (hpen : pendingAttachment att) :
    ∃ file content, (mediaLocation p att).bind c₀.disk.get = some file ∧
      decryptStream p.keys.legacyAttachment att.nonce file = .ok content ∧
      publishAttachment p att m.chat.disk =
        .ok (m.chat.disk.put (blobLocation p att.id) (.stream p.keys.active att.id content)) := by
  obtain ⟨hatt0, hf⟩ := h.pending_attachment hatt hpen
  obtain ⟨hno, hso⟩ := hready.files att hatt0 hpen
  obtain ⟨file, hop⟩ := isSome_iff_exists.1 hso
  obtain ⟨nonce, hno⟩ := isSome_iff_exists.1 hno
  have hv : ¬ currentEncryptionVersion ≤ att.encryptionVersion := Nat.not_le.2 (pendingAttachment_iff.1 hpen)
  obtain ⟨content, hcon⟩ : ∃ content, decryptStream p.keys.legacyAttachment att.nonce file = .ok content := by
    rw [hno]
    cases file with
    | stream key skey content | ctr key nonce' content => exact ⟨_, rfl⟩
  refine ⟨file, content, hop, hcon, ?_⟩
  rw [hop, mediaLocation, if_neg hv] at hf
  split_ifs at hf with hem
  · cases hf
  rw [bind_some] at hf
  rw [publishAttachment, if_neg hem, migrateAttachmentFile, hf]
  exact bind_eq_ok.2 ⟨file, rfl, bind_eq_ok.2 ⟨content, mapError_eq_ok.2 hcon, rfl⟩⟩

theorem kept_publish (hready : Migratable p c₀) (h : Kept p c₀ m) (hpo : m.point = .running)
    (hs : m.publish p id = some m') : Kept p c₀ m' ∧ remaining m' < remaining m := by
  unfold publish at hs
  split at hs
  · next att hfi =>
    obtain ⟨hatt, _, hpen⟩ := mem_of_find hfi
    obtain ⟨hatt0, _⟩ := h.pending_attachment hatt hpen
    obtain ⟨file, content, hop, hcon, hpub⟩ := publishAttachment_eq_ok hready h hatt hpen
    rw [hpub] at hs
    cases hs
    refine ⟨⟨h.conversations, h.messages, ?_, hatt0, hpen, hatt, file, content, hop, hcon, ?_⟩, ?_⟩
    · refine forall₂_mono h.attachments fun other0 ho0 other ho hke => ?_
      rcases hke with ⟨rfl, hf⟩ | ⟨hpen', rfl, file', content', hop', hcon', hnew⟩
      · refine .inl ⟨rfl, ?_⟩
        rw [bind_get_put (mediaLocation_ne_new hready hatt0 ho0 hpen)]
        exact hf
      refine .inr ⟨hpen', rfl, file', content', hop', hcon', ?_⟩
      -- the attachment in hand is not converted yet
      have hne : other0.id ≠ att.id := by
        intro hid
        have hsa := m.chat.store.attachments.eq_of_clash ho hatt hid
        rw [← hsa] at hpen
        cases hpen
      rw [Assoc.Map.get_put, if_neg fun heq => hne (blobLocation_inj.1 heq)]
      exact hnew
    · rw [Assoc.Map.get_put, if_pos rfl]
    · simp only [remaining, hpo]
      exact Nat.lt_succ_self _
  · cases hs

theorem kept_update (h : Kept p c₀ m) (hs : m.update p = some m') :
    Kept p c₀ m' ∧ remaining m' < remaining m := by
  unfold update at hs
  split at hs
  · next att hpo =>
    cases hs
    have hha := h.point
    simp only [PointKept, hpo] at hha
    obtain ⟨hatt0, hpen, hatt, hnew⟩ := hha
    refine ⟨⟨h.conversations, h.messages, forall₂_update h.attachments fun other0 _ row hrow hke hid => ?_,
      hatt0, hpen, ?_⟩, ?_⟩
    · obtain rfl : row = att := m.chat.store.attachments.eq_of_clash hrow hatt (beq_iff_eq.1 hid)
      obtain ⟨rfl, _⟩ := hke.of_pending hpen
      exact .inr ⟨hpen, rfl, hnew⟩
    · refine (Table.mem_updateWhere keeps_convertAttachment).2 ⟨att, hatt, ?_⟩
      rw [if_pos (beq_self_eq_true _)]
    have hlt := countP_update_lt (p := fun row => row.id == att.id)
      (f := convertAttachment p.keys att) (fun _ => rfl) hatt (beq_self_eq_true _) hpen
    simp only [remaining, hpo, pendingRows, updateAttachment, Table.updateWhere]
    omega
  · cases hs

theorem mediaLocation_pending (hpen : pendingAttachment att) (hpa : (mediaLocation p att).isSome) :
    mediaLocation p att = some ((cleanPath att.legacyStoragePath).locate p.cwd) := by
  rw [mediaLocation, if_neg (Nat.not_le.2 (pendingAttachment_iff.1 hpen))] at hpa ⊢
  split_ifs at hpa ⊢
  · cases hpa
  · rfl

theorem kept_remove (hready : Migratable p c₀) (h : Kept p c₀ m) (hs : m.remove p = some m') :
    Kept p c₀ m' ∧ remaining m' < remaining m := by
  unfold remove at hs
  split at hs
  · next att hpo =>
    cases hs
    have hha := h.point
    simp only [PointKept, hpo] at hha
    obtain ⟨hatt0, hpen, hcon⟩ := hha
    have hpl : mediaLocation p att = some ((cleanPath att.legacyStoragePath).locate p.cwd) := by
      refine mediaLocation_pending hpen ?_
      obtain ⟨_, hso⟩ := hready.files att hatt0 hpen
      obtain ⟨file, hf⟩ := isSome_iff_exists.1 hso
      obtain ⟨place, hpl, _⟩ := bind_eq_some_iff.1 hf
      exact isSome_iff_exists.2 ⟨place, hpl⟩
    refine ⟨⟨h.conversations, h.messages, ?_, trivial⟩, by simp only [remaining, hpo]; omega⟩
    dsimp only [removeLegacyFile]
    split
    · exact h.attachments
    refine forall₂_mono h.attachments fun other0 ho0 other ho hke => ?_
    rcases hke with ⟨rfl, hf⟩ | ⟨hpen', rfl, file', content', hop', hcont', hnew⟩
    · refine .inl ⟨rfl, ?_⟩
      rw [bind_get_remove, hf]
      rw [← hpl]
      intro hsa
      by_cases hpen' : pendingAttachment other
      · -- the row in hand is converted, so this is another one
        obtain rfl := hready.apart other ho0 att hatt0 hpen' hpen hsa
        have := m.chat.store.attachments.eq_of_clash ho hcon rfl
        rw [this] at hpen'
        cases hpen'
      · exact hready.layout att hatt0 other ho0 hpen (hsa.symm.trans (mediaLocation_final hpen'))
    · refine .inr ⟨hpen', rfl, file', content', hop', hcont', ?_⟩
      have hne : (some (blobLocation p other0.id) : Option Location) ≠
          some ((cleanPath att.legacyStoragePath).locate p.cwd) := by
        rw [← hpl]
        have := hready.layout att hatt0 other0 ho0 hpen
        rw [finalKey, if_pos hpen'] at this
        exact this.symm
      have hget := bind_get_remove m.chat.disk hne
      exact hget.trans hnew
  · cases hs

section

variable (hkeys : RightKeys p.keys c₀.store) (hready : Migratable p c₀)
include hkeys hready

theorem kept_step {l : Label} (h : Kept p c₀ m) (hs : m.step p l = some m') :
    Kept p c₀ m' ∧ (m.point ≠ .done → l ≠ .crash → remaining m' < remaining m) := by
  cases l with
  | start =>
    have hs : m.start = some m' := hs
    unfold start at hs
    split at hs
    all_goals cases hs
    all_goals refine ⟨⟨h.conversations, h.messages, h.attachments, trivial⟩, fun hnot => ?_⟩
    all_goals next hpo => first | exact absurd hpo hnot | simp [remaining, hpo]
  | crash =>
    have hs : m.crash = some m' := hs
    unfold crash at hs
    split at hs
    all_goals cases hs
    all_goals exact ⟨⟨h.conversations, h.messages, h.attachments, trivial⟩, fun _ hcr => absurd rfl hcr⟩
  | update => exact (kept_update h hs).imp_right fun hlt _ _ => hlt
  | remove => exact (kept_remove hready h hs).imp_right fun hlt _ _ => hlt
  | conversation id now =>
    obtain ⟨hpo, hs⟩ := ite_none_right_eq_some.1 hs
    exact (kept_conversation h hpo hs).imp_right fun hlt _ _ => hlt
  | message id =>
    obtain ⟨⟨hpo, _⟩, hs⟩ := ite_none_right_eq_some.1 hs
    exact (kept_message hkeys h hpo hs).imp_right fun hlt _ _ => hlt
  | publish id =>
    obtain ⟨⟨hpo, _⟩, hs⟩ := ite_none_right_eq_some.1 hs
    exact (kept_publish hready h hpo hs).imp_right fun hlt _ _ => hlt
  | finish =>
    obtain ⟨⟨hpo, _⟩, hs⟩ := ite_none_right_eq_some.1 hs
    cases hs
    refine ⟨⟨h.conversations, h.messages, h.attachments, trivial⟩, fun _ _ => ?_⟩
    simp only [remaining, hpo]
    omega

theorem kept_run {tr : List Label} (hrun : Run (stepsTo (Migration.step p)) { chat := c₀ } tr m) : Kept p c₀ m :=
  hrun.invariant (Kept p c₀) kept_initial fun _ _ _ h hs => (kept_step hkeys hready h hs).1

end

end Steps

section Completion

variable {p : Plugin} {c₀ : Chat} {m : Migration}

theorem exists_find {key : ρ → String} {pending : ρ → Bool} {rows : List ρ} (hr : r ∈ rows)
    (hpen : pending r) : ∃ r', rows.find? (fun r' => key r' == key r && pending r') = some r' :=
  isSome_iff_exists.1 (find?_isSome.2 ⟨r, hr, by simp [hpen]⟩)

theorem exists_pending {pending : ρ → Bool} {rows : List ρ} (h : ¬ rows.all fun r => !pending r) :
    ∃ r ∈ rows, pending r := by
  simpa using h

/-- A migration that is not done can go on. -/
theorem exists_step (hdo : m.point ≠ .done) : ∃ l m', l ≠ .crash ∧ m.step p l = some m' := by
  cases hpo : m.point with
  | done => exact absurd hpo hdo
  | idle | failed err => exact ⟨.start, _, nofun, by rw [Migration.step, start, hpo]⟩
  | published att => exact ⟨.update, _, nofun, by rw [Migration.step, update, hpo]⟩
  | updated att => exact ⟨.remove, _, nofun, by rw [Migration.step, remove, hpo]⟩
  | running =>
    by_cases hco : conversationsDone m.chat.store
    · by_cases hms : messagesDone m.chat.store
      · by_cases hat : attachmentsDone m.chat.store
        · exact ⟨.finish, _, nofun, if_pos ⟨hpo, hat⟩⟩
        · rw [attachmentsDone, hms, Bool.true_and] at hat
          obtain ⟨att, hatt, hpen⟩ := exists_pending hat
          obtain ⟨att', hfi⟩ := exists_find hatt hpen
          obtain ⟨m', hs⟩ : ∃ m', m.publish p att.id = some m' := by
            rw [publish, hfi]
            dsimp only
            split <;> exact ⟨_, rfl⟩
          exact ⟨.publish att.id, m', nofun, (if_pos ⟨hpo, hms⟩).trans hs⟩
      · rw [messagesDone, hco, Bool.true_and] at hms
        obtain ⟨msg, hmsg, hpen⟩ := exists_pending hms
        obtain ⟨msg', hfi⟩ := exists_find hmsg hpen
        obtain ⟨m', hs⟩ : ∃ m', m.message p msg.id = some m' := by
          rw [message, hfi]
          dsimp only
          split <;> exact ⟨_, rfl⟩
        exact ⟨.message msg.id, m', nofun, (if_pos ⟨hpo, hco⟩).trans hs⟩
    · obtain ⟨conv, hcon, hpen⟩ := exists_pending hco
      obtain ⟨conv', hfi⟩ := exists_find hcon hpen
      obtain ⟨m', hs⟩ : ∃ m', m.conversation p conv.id 0 = some m' := by
        rw [conversation, hfi]
        exact ⟨_, rfl⟩
      exact ⟨.conversation conv.id 0, m', nofun, (if_pos hpo).trans hs⟩

section

variable (hkeys : RightKeys p.keys c₀.store) (hready : Migratable p c₀) (h : Kept p c₀ m)
include hkeys hready h

theorem completes : ∃ tr m', Run (stepsTo (Migration.step p)) m tr m' ∧ .crash ∉ tr ∧ m'.point = .done := by
  -- by the number of steps left
  induction hn : remaining m using Nat.strong_induction_on generalizing m with
  | _ n ih =>
    by_cases hdo : m.point = .done
    · exact ⟨[], m, .nil, not_mem_nil, hdo⟩
    obtain ⟨l, m1, hl, hs⟩ := exists_step hdo
    obtain ⟨hke, hlt⟩ := kept_step hkeys hready h hs
    obtain ⟨tr, m', hrun, hcr, hdo'⟩ := ih _ (hn ▸ hlt hdo hl) hke rfl
    exact ⟨l :: tr, m', .cons hs hrun, by simp [Ne.symm hl, hcr], hdo'⟩

/-- Along a run without a crash every step is paid by `remaining`. -/
theorem length_le_remaining {tr : List Label} {m' : Migration} (hrun : Run
    (Guarded (fun m l => m.point ≠ .done ∧ l ≠ .crash) (stepsTo (Migration.step p))) m tr m') :
    Kept p c₀ m' ∧ tr.length + remaining m' ≤ remaining m := by
  induction hrun with
  | nil => exact ⟨h, (Nat.zero_add _).le⟩
  | snoc _ hs ih =>
    obtain ⟨hke, hlt⟩ := kept_step hkeys hready ih.1 hs.2
    have hlt := hlt hs.1.1 hs.1.2
    rw [length_append, length_singleton]
    exact ⟨hke, by omega⟩

end

end Completion

/-- If every attachment of the first version has a file of its own outside the new layout, then whatever crashes came
before, no run of the migration returns an error, every row reads as it did at first, and the migration can be
completed. Without another crash it is: the runs up to its end are bounded, and none of them stops short of it. -/
theorem migration_loses_nothing (p : Plugin) (c₀ : Chat) (hkeys : RightKeys p.keys c₀.store) (hready : Migratable p c₀)
    {tr : List Label} {m : Migration} (hrun : Run (stepsTo (Migration.step p)) { chat := c₀ } tr m) :
    (∀ err, m.point ≠ .failed err) ∧ Preserved p c₀ m.chat ∧
      (∃ tr' m', Run (stepsTo (Migration.step p)) m tr' m' ∧ .crash ∉ tr' ∧ m'.point = .done ∧
        Preserved p c₀ m'.chat) ∧
      ∃ n, ∀ tr' m', Run (Guarded (fun m l => m.point ≠ .done ∧ l ≠ .crash) (stepsTo (Migration.step p))) m tr' m' →
        tr'.length ≤ n ∧ (m'.point = .done ∨ ∃ l m'', l ≠ .crash ∧ m'.step p l = some m'') := by
  have h := kept_run hkeys hready hrun
  refine ⟨fun err hfai => ?_, h.preserved, ?_, remaining m, fun tr' m' hrun' => ⟨?_, ?_⟩⟩
  · have hha := h.point
    simp only [PointKept, hfai] at hha
  · obtain ⟨tr', m', hrun', hcr, hdo⟩ := completes hkeys hready h
    exact ⟨tr', m', hrun', hcr, hdo, (kept_run hkeys hready (hrun.trans hrun')).preserved⟩
  · have := (length_le_remaining hkeys hready h hrun').2
    omega
  · exact or_iff_not_imp_left.2 exists_step

def mediaPlugin : Plugin where
  keys := { active := "k" }
  mediaRoot := "/m"
  isAdminUser _ := false

def legacyAttachment (id path : String) : Attachment := { id := id, nonce := some "n", legacyStoragePath := path }

def legacyFile : File := .ctr "k" "n" (.data "text")

def legacyChat : Chat where
  store :=
    { conversations := .single { id := "c", legacyUserID := "u", legacySubject := "s" }
      messages := .single { id := "m", conversationID := "c", senderRole := "client",
                            ciphertext := some (.legacy "k" "c" "hi") }
      attachments := .single (legacyAttachment "a" "/old/a") }
  disk := ({} : Disk).put ["old", "a"] legacyFile

def crashed : List Label := [.start, .conversation "c" 5, .message "m", .publish "a", .crash]

theorem migration_loses_nothing_crashed :
    RightKeys mediaPlugin.keys legacyChat.store ∧ Migratable mediaPlugin legacyChat ∧
      ∃ m, Run (stepsTo (Migration.step mediaPlugin)) { chat := legacyChat } crashed m ∧
        Preserved mediaPlugin legacyChat m.chat ∧
        (∃ tr' m', Run (stepsTo (Migration.step mediaPlugin)) m tr' m' ∧ .crash ∉ tr' ∧ m'.point = .done ∧
          Preserved mediaPlugin legacyChat m'.chat) ∧
        ∃ n, ∀ tr' m', Run (Guarded (fun m l => m.point ≠ .done ∧ l ≠ .crash) (stepsTo (Migration.step mediaPlugin))) m
            tr' m' →
          tr'.length ≤ n ∧ (m'.point = .done ∨ ∃ l m'', l ≠ .crash ∧ m'.step mediaPlugin l = some m'') := by
  have hkeys : RightKeys mediaPlugin.keys legacyChat.store := by
    intro msg hmsg _
    obtain rfl := mem_singleton.1 hmsg
    exact ⟨"hi", by decide +kernel⟩
  have hready : Migratable mediaPlugin legacyChat := by
    refine ⟨fun att hatt _ => ?_, fun att hatt att' hatt' _ _ _ => ?_, fun att hatt att' hatt' _ => ?_,
      fun att hatt att' hatt' _ hfi => ?_⟩
    · obtain rfl := mem_singleton.1 hatt
      decide +kernel
    · rw [mem_singleton.1 hatt, mem_singleton.1 hatt']
    · obtain rfl := mem_singleton.1 hatt
      obtain rfl := mem_singleton.1 hatt'
      decide +kernel
    · obtain rfl := mem_singleton.1 hatt'
      exact absurd rfl hfi
  exact ⟨hkeys, hready, Run.exists_of_exec_imp (P := fun m => m.point = .idle) (by decide +kernel) fun m hrun _ =>
    (migration_loses_nothing mediaPlugin legacyChat hkeys hready hrun).2⟩

def sharedFile : Chat where
  store := { attachments :=
    (Table.single (legacyAttachment "a" "/old/a")).insert (legacyAttachment "b" "/old/a") |>.getD .empty }
  disk := ({} : Disk).put ["old", "a"] legacyFile

/-- An attachment whose file has the name of the new one. -/
def coinciding : Chat where
  store := { attachments := .single (legacyAttachment "a" "/m/a.bin") }
  disk := ({} : Disk).put ["m", "a.bin"] legacyFile

/-- Once the first of two attachments is migrated the second has no file any more, and a crash after the new file
replaced the old one lets the next run take it for the old one. -/
theorem migration_loses_files :
    (sharedFile.store.attachments.rows.map (mediaContent mediaPlugin sharedFile) =
        [some (.data "text"), some (.data "text")] ∧
      ∃ m, Run (stepsTo (Migration.step mediaPlugin)) { chat := sharedFile }
          [.start, .publish "a", .update, .remove, .publish "b"] m ∧
        m.point = .failed (.wrap "open legacy attachment b" .notFound)) ∧
    (coinciding.store.attachments.rows.map (mediaContent mediaPlugin coinciding) = [some (.data "text")] ∧
      ∃ m, Run (stepsTo (Migration.step mediaPlugin)) { chat := coinciding }
          [.start, .publish "a", .crash, .start, .publish "a", .update, .remove, .finish] m ∧
        m.point = .done ∧ m.chat.store.attachments.rows.map (mediaContent mediaPlugin m.chat) = [some .garbled]) := by
  refine ⟨⟨by decide +kernel, Run.exists_of_exec (by decide +kernel)⟩, by decide +kernel,
    Run.exists_of_exec (by decide +kernel)⟩

end Xraytool.SupportMigration
