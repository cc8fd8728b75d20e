import Xraytool.Spec.Repository

/-! The store of the support chat: its rows, the encryption of their fields and the queries over them. Encryption is
ideal: a ciphertext is the term of what was sealed under which key and opens under that key alone, a blind index the
term of what was indexed. `encryption_version` tells the current format from the first one, whose metadata is plain. -/

namespace Xraytool.SupportChat

open Fallible

def currentEncryptionVersion : Nat := 2

abbrev MasterKey := String

/-- The active key of the store and the legacy ones, which are only read with. -/
structure Keys where
  active : MasterKey
  legacy : List MasterKey := []
  deriving DecidableEq

variable (keys : Keys)

/-- `allCryptos`. -/
def Keys.all : List MasterKey := keys.active :: keys.legacy

/-- `legacyAttachmentCrypto`. -/
def Keys.legacyAttachment : MasterKey := keys.legacy.head?.getD keys.active

/-- A ciphertext with its nonce. -/
inductive Cipher where
  /-- `EncryptField` -/
  | field (key : MasterKey) (purpose recordID plaintext : String)
  /-- `Encrypt`, the first version of a message -/
  | legacy (key : MasterKey) (conversationID plaintext : String)
  deriving DecidableEq

structure BlindIndex where
  key : MasterKey
  space : String
  value : String
  deriving DecidableEq

/-- `DecryptField` with one key; an empty column does not open either. -/
def openField (key : MasterKey) (purpose recordID : String) : Option Cipher → Except Err String
  | some (.field key' purpose' recordID' plaintext) =>
    if key' = key ∧ purpose' = purpose ∧ recordID' = recordID then .ok plaintext
    else .error (.wrap "field decryption failed" .storage)
  | _ => .error (.wrap "field decryption failed" .storage)

/-- `Decrypt` with one key. -/
def openLegacy (key : MasterKey) (conversationID : String) : Option Cipher → Except Err String
  | some (.legacy key' conversationID' plaintext) =>
    if key' = key ∧ conversationID' = conversationID then .ok plaintext
    else .error (.wrap "decryption failed" .storage)
  | _ => .error (.wrap "decryption failed" .storage)

/-- The first key that opens the ciphertext, else the error of the last one. -/
def tryKeys (decrypt : MasterKey → Except Err String) : List MasterKey → Err → Except Err String
  | [], lastErr => .error lastErr
  | key :: keys, _ => match decrypt key with
    | .ok plaintext => .ok plaintext
    | .error err => tryKeys decrypt keys err

def decryptField (purpose recordID : String) (c : Option Cipher) : Except Err String :=
  (tryKeys (fun key => openField key purpose recordID c) keys.all .storage).mapError (.wrap ("decrypt " ++ purpose))

def decryptLegacy (conversationID : String) (c : Option Cipher) : Except Err String :=
  (tryKeys (fun key => openLegacy key conversationID c) keys.all .storage).mapError (.wrap "decrypt legacy record")

/-- The bytes of an attachment. Decryption with a wrong key or nonce where nothing is authenticated gives other bytes,
unless there are none. -/
inductive Content where
  | data (text : String)
  | garbled
  deriving DecidableEq

inductive File where
  /-- `EncryptAttachmentStream` -/
  | stream (key : MasterKey) (storageKey : String) (content : Content)
  /-- `EncryptStream`, the first version: AES-CTR without authentication -/
  | ctr (key : MasterKey) (nonce : String) (content : Content)
  deriving DecidableEq

def decryptAttachmentStream (key : MasterKey) (storageKey : String) : File → Except Err Content
  | .stream key' storageKey' content =>
    if key' = key ∧ storageKey' = storageKey then .ok content
    else .error (.wrap "attachment authentication failed" .storage)
  | .ctr .. => .error (.text "unsupported attachment encryption format")

/-- `DecryptStream`; `none` is a nonce of the wrong size. -/
def decryptStream (key : MasterKey) (nonce : Option String) (file : File) : Except Err Content :=
  match nonce with
  | none => .error (.text "invalid legacy attachment nonce size")
  | some nonce => match file with
    | .ctr key' nonce' content =>
      .ok (if content = .data "" ∨ (key' = key ∧ nonce' = nonce) then content else .garbled)
    | .stream .. => .ok .garbled

/-- A cleaned path. -/
structure Path where
  absolute : Bool
  parts : List String
  deriving DecidableEq

/-- The elements of a path, those already cleaned in reverse. -/
def cleanParts (absolute : Bool) : List String → List String → List String
  | [], done => done.reverse
  | part :: rest, done =>
    if part = "" ∨ part = "." then cleanParts absolute rest done
    else if part = ".." then match done with
      | top :: done => if top = ".." then cleanParts absolute rest (".." :: top :: done) else cleanParts absolute rest done
      | [] => cleanParts absolute rest (if absolute then [] else [".."])
    else cleanParts absolute rest (part :: done)

def cleanPath (text : String) : Path :=
  let absolute := hasPrefix text "/"
  ⟨absolute, cleanParts absolute (splitChar text '/') []⟩

/-- `filepath.Join` with a storage key, which has no separators. -/
def attachmentStoragePath (mediaRoot storageKey : String) : Path :=
  let root := cleanPath mediaRoot
  { root with parts := root.parts ++ [storageKey ++ ".bin"] }

/-- The elements from the root of the file system. -/
abbrev Location := List String

/-- The file a path names for a process in a working directory; links are left out. -/
def Path.locate (cwd : Location) (path : Path) : Location :=
  if path.absolute then path.parts else cleanParts true (cwd ++ path.parts) []

abbrev Disk := Assoc.Map Location File

/-- `os.Remove`; a missing file is no error that matters. -/
def removeFile (cwd : Location) (path : Path) (disk : Disk) : Disk := disk.filter fun e => e.1 ≠ path.locate cwd

structure Conversation where
  id : String
  status : String := "open"
  createdAt : Time := 0
  updatedAt : Time := 0
  closedAt : Option Time := none
  userIDCiphertext : Option Cipher := none
  userIDHash : Option BlindIndex := none
  subjectCiphertext : Option Cipher := none
  encryptionVersion : Nat := 0
  legacyUserID : String := ""
  legacySubject : String := ""
  deriving DecidableEq

structure Message where
  id : String
  conversationID : String
  senderRole : String
  ciphertext : Option Cipher
  encryptionVersion : Nat := 0
  readAt : Option Time := none
  createdAt : Time := 0
  deriving DecidableEq

structure Attachment where
  id : String
  messageID : Option String := none
  /-- of the first version -/
  nonce : Option String := none
  storageKey : String := ""
  uploaderIDCiphertext : Option Cipher := none
  uploaderIDHash : Option BlindIndex := none
  fileNameCiphertext : Option Cipher := none
  mimeTypeCiphertext : Option Cipher := none
  sizeCiphertext : Option Cipher := none
  encryptionVersion : Nat := 0
  legacyUploaderID : String := ""
  legacyFileName : String := ""
  legacyMimeType : String := ""
  legacySize : Int := 0
  legacyStoragePath : String := ""
  deriving DecidableEq

structure AttachmentBlob where
  storageKey : String
  uploaderIDHash : BlindIndex
  contentDigest : BlindIndex
  deriving DecidableEq

structure SupportBan where
  id : String
  userIDHash : BlindIndex
  userIDCiphertext : Option Cipher
  reasonCiphertext : Option Cipher := none
  bannedByCiphertext : Option Cipher := none
  expiresAt : Option Time := none
  deriving DecidableEq

def Conversation.Clash (a b : Conversation) : Prop := a.id = b.id
def Message.Clash (a b : Message) : Prop := a.id = b.id
def Attachment.Clash (a b : Attachment) : Prop := a.id = b.id
def AttachmentBlob.Clash (a b : AttachmentBlob) : Prop :=
  a.storageKey = b.storageKey ∨ (a.uploaderIDHash = b.uploaderIDHash ∧ a.contentDigest = b.contentDigest)
def SupportBan.Clash (a b : SupportBan) : Prop := a.id = b.id

instance : DecidableRel Conversation.Clash := fun a b => inferInstanceAs (Decidable (a.id = b.id))
instance : DecidableRel Message.Clash := fun a b => inferInstanceAs (Decidable (a.id = b.id))
instance : DecidableRel Attachment.Clash := fun a b => inferInstanceAs (Decidable (a.id = b.id))
instance : DecidableRel AttachmentBlob.Clash := fun a b => inferInstanceAs (Decidable (a.storageKey = b.storageKey ∨ _))
instance : DecidableRel SupportBan.Clash := fun a b => inferInstanceAs (Decidable (a.id = b.id))

instance : Std.Symm Conversation.Clash := ⟨fun _ _ h => Eq.symm h⟩
instance : Std.Symm Message.Clash := ⟨fun _ _ h => Eq.symm h⟩
instance : Std.Symm Attachment.Clash := ⟨fun _ _ h => Eq.symm h⟩
instance : Std.Symm AttachmentBlob.Clash := ⟨fun _ _ h => h.imp Eq.symm fun ⟨h, h'⟩ => ⟨h.symm, h'.symm⟩⟩

structure ChatStore where
  conversations : Table Conversation Conversation.Clash := .empty
  messages : Table Message Message.Clash := .empty
  attachments : Table Attachment Attachment.Clash := .empty
  blobs : Table AttachmentBlob AttachmentBlob.Clash := .empty
  bans : Table SupportBan SupportBan.Clash := .empty
  deriving DecidableEq

def inserted {ρ : Type} {clash : ρ → ρ → Prop} [DecidableRel clash] (t : Table ρ clash) (r : ρ) :
    Except Err (Table ρ clash) :=
  match t.insert r with
  | some t => .ok t
  | none => .error .duplicate

structure ConversationView where
  id : String
  userID : String
  subject : String
  status : String
  createdAt : Time
  updatedAt : Time
  closedAt : Option Time
  deriving DecidableEq

def Conversation.view (conv : Conversation) (userID subject : String) : ConversationView :=
  ⟨conv.id, userID, subject, conv.status, conv.createdAt, conv.updatedAt, conv.closedAt⟩

def newConversation (id : String) (now : Time) (userID subject : String) : Conversation where
  id := id
  createdAt := now
  updatedAt := now
  userIDCiphertext := some (.field keys.active "conversation-user-id" id userID)
  userIDHash := some ⟨keys.active, "conversation-user-id", userID⟩
  subjectCiphertext := some (.field keys.active "conversation-subject" id subject)
  encryptionVersion := currentEncryptionVersion

def createConversation (id : String) (now : Time) (userID subject : String) (s : ChatStore) :
    Except Err (ChatStore × ConversationView) := do
  let conv := newConversation keys id now userID subject
  let conversations ← (inserted s.conversations conv).mapError (.wrap "create conversation")
  return ({ s with conversations := conversations }, conv.view userID subject)

def hydrateConversation (conv : Conversation) : Except Err ConversationView :=
  if conv.encryptionVersion < currentEncryptionVersion then
    .ok (conv.view conv.legacyUserID conv.legacySubject)
  else do
    let userID ← decryptField keys "conversation-user-id" conv.id conv.userIDCiphertext
    let subject ← decryptField keys "conversation-subject" conv.id conv.subjectCiphertext
    return conv.view userID subject

def getConversation (id : String) (s : ChatStore) : Except Err ConversationView := do
  let conv ← found (s.conversations.rows.find? fun conv => conv.id == id)
  (hydrateConversation keys conv).mapError (.wrap "decrypt conversation")

structure ConversationFilter where
  userID : Option String := none
  status : Option String := none

/-- The `WHERE` of `ListConversations`. -/
def ConversationFilter.selects (filter : ConversationFilter) (conv : Conversation) : Bool :=
  filter.userID.all (fun userID => conv.userIDHash == some ⟨keys.active, "conversation-user-id", userID⟩ ||
    decide (conv.encryptionVersion < currentEncryptionVersion) && conv.legacyUserID == userID) &&
    filter.status.all fun status => conv.status == status

def listConversations (filter : ConversationFilter) (s : ChatStore) : Except Err (List ConversationView) :=
  ((s.conversations.rows.filter (filter.selects keys)).insertionSort fun a b => b.updatedAt ≤ a.updatedAt).mapM fun conv =>
    (hydrateConversation keys conv).mapError (.wrap ("decrypt conversation " ++ conv.id))

structure AttachmentView where
  id : String
  messageID : Option String
  uploaderID : String
  fileName : String
  mimeType : String
  size : Int
  deriving DecidableEq

def hydrateAttachment (att : Attachment) : Except Err AttachmentView :=
  if att.encryptionVersion < currentEncryptionVersion then
    .ok ⟨att.id, att.messageID, att.legacyUploaderID, att.legacyFileName, att.legacyMimeType, att.legacySize⟩
  else do
    let uploaderID ← decryptField keys "attachment-uploader-id" att.id att.uploaderIDCiphertext
    let fileName ← decryptField keys "attachment-file-name" att.id att.fileNameCiphertext
    let mimeType ← decryptField keys "attachment-mime-type" att.id att.mimeTypeCiphertext
    let sizeText ← decryptField keys "attachment-size" att.id att.sizeCiphertext
    match parseInt sizeText with
    | none => .error (.wrap "parse attachment size" .storage)
    | some size => return ⟨att.id, att.messageID, uploaderID, fileName, mimeType, size⟩

def attachmentContentDigest (uploaderID contentHash : String) : BlindIndex :=
  ⟨keys.active, "attachment-content-digest:" ++ uploaderID, contentHash⟩

def uploaderHash (uploaderID : String) : BlindIndex := ⟨keys.active, "attachment-uploader-id", uploaderID⟩

def findAttachmentBlob (uploaderID : String) (contentDigest : BlindIndex) (s : ChatStore) : Option AttachmentBlob :=
  s.blobs.rows.find? fun blob => blob.uploaderIDHash == uploaderHash keys uploaderID && blob.contentDigest == contentDigest

def createAttachmentBlob (storageKey uploaderID : String) (contentDigest : BlindIndex) (s : ChatStore) :
    Except Err ChatStore := do
  let blobs ← inserted s.blobs ⟨storageKey, uploaderHash keys uploaderID, contentDigest⟩
  return { s with blobs := blobs }

def newAttachment (attachmentID storageKey uploaderID fileName mimeType : String) (size : Int) : Attachment where
  id := attachmentID
  storageKey := storageKey
  uploaderIDCiphertext := some (.field keys.active "attachment-uploader-id" attachmentID uploaderID)
  uploaderIDHash := some (uploaderHash keys uploaderID)
  fileNameCiphertext := some (.field keys.active "attachment-file-name" attachmentID fileName)
  mimeTypeCiphertext := some (.field keys.active "attachment-mime-type" attachmentID mimeType)
  sizeCiphertext := some (.field keys.active "attachment-size" attachmentID (toString size))
  encryptionVersion := currentEncryptionVersion

def createAttachment (attachmentID storageKey uploaderID fileName mimeType : String) (size : Int) (s : ChatStore) :
    Except Err ChatStore := do
  let attachments ← inserted s.attachments (newAttachment keys attachmentID storageKey uploaderID fileName mimeType size)
  return { s with attachments := attachments }

def attachmentStorageKey (att : Attachment) : String := if att.storageKey ≠ "" then att.storageKey else att.id

def getAttachment (id : String) (s : ChatStore) : Except Err (Attachment × AttachmentView) := do
  let att ← found (s.attachments.rows.find? fun att => att.id == id)
  let view ← (hydrateAttachment keys att).mapError (.wrap "decrypt attachment")
  return (att, view)

def linkedTo (messageID : Option String) : Option String := messageID.filter (· ≠ "")

def userOwnsAttachment (userID : String) (att : AttachmentView) (s : ChatStore) : Bool :=
  match linkedTo att.messageID with
  | none => att.uploaderID == userID
  | some messageID => match s.messages.rows.find? fun msg => msg.id == messageID with
    | none => false
    | some msg => match getConversation keys msg.conversationID s with
      | .error _ => false
      | .ok conv => conv.userID == userID

structure MessageOutput where
  id : String
  conversationID : String
  senderRole : String
  text : String
  readAt : Option Time
  createdAt : Time
  attachments : List AttachmentView
  deriving DecidableEq

def Attachment.link (messageID : String) (att : Attachment) : Attachment := { att with messageID := some messageID }

theorem Attachment.keeps_link {messageID : String} : Table.Keeps Attachment.Clash (Attachment.link messageID) :=
  fun _ _ => ⟨fun h => h, fun h => h⟩

def Conversation.touch (now : Time) (conv : Conversation) : Conversation := { conv with updatedAt := now }

theorem Conversation.keeps_touch (now : Time) : Table.Keeps Conversation.Clash (Conversation.touch now) :=
  fun _ _ => ⟨fun h => h, fun h => h⟩

def newMessage (msgID : String) (now : Time) (convID senderRole text : String) : Message where
  id := msgID
  conversationID := convID
  senderRole := senderRole
  ciphertext := some (.field keys.active "message-body" msgID text)
  encryptionVersion := currentEncryptionVersion
  createdAt := now

def attachmentsOf (messageID : String) (s : ChatStore) : Except Err (List AttachmentView) :=
  (s.attachments.rows.filter fun att => att.messageID == some messageID).mapM (hydrateAttachment keys)

/-- The message is stored and the attachments linked to it in one transaction; the reply is read after that. Whose the
attachments are is not asked. -/
def createMessage (msgID : String) (now : Time) (convID senderRole text : String) (attachmentIDs : List String)
    (s : ChatStore) : Except Err (ChatStore × Except Err MessageOutput) := do
  let _ ← (getConversation keys convID s).mapError (.wrap "conversation not found")
  let messages ← (inserted s.messages (newMessage keys msgID now convID senderRole text)).mapError (.wrap "save message")
  let s := { s with
    messages := messages
    attachments := s.attachments.updateWhere (fun att => attachmentIDs.contains att.id) (.link msgID)
      Attachment.keeps_link
    conversations := s.conversations.updateWhere (fun conv => conv.id == convID) (.touch now)
      (Conversation.keeps_touch now) }
  let attachments := if 0 < attachmentIDs.length then attachmentsOf keys msgID s else .ok []
  return (s, attachments.map fun attachments => ⟨msgID, convID, senderRole, text, none, now, attachments⟩)

def messageText (msg : Message) : Except Err String :=
  if currentEncryptionVersion ≤ msg.encryptionVersion then decryptField keys "message-body" msg.id msg.ciphertext
  else decryptLegacy keys msg.conversationID msg.ciphertext

def listMessages (convID : String) (s : ChatStore) : Except Err (List MessageOutput) :=
  ((s.messages.rows.filter fun msg => msg.conversationID == convID).insertionSort
    fun a b => a.createdAt ≤ b.createdAt).mapM fun msg => do
      let text ← (messageText keys msg).mapError (.wrap ("decrypt message " ++ msg.id))
      let attachments ← (s.attachments.rows.filter fun att => att.messageID == some msg.id).mapM fun att =>
        (hydrateAttachment keys att).mapError (.wrap ("decrypt attachment " ++ att.id))
      return ⟨msg.id, msg.conversationID, msg.senderRole, text, msg.readAt, msg.createdAt, attachments⟩

def Message.read (now : Time) (msg : Message) : Message := { msg with readAt := some now }

theorem Message.keeps_read (now : Time) : Table.Keeps Message.Clash (Message.read now) :=
  fun _ _ => ⟨fun h => h, fun h => h⟩

def markMessagesRead (now : Time) (convID readerRole : String) (s : ChatStore) : ChatStore :=
  let targetRole := if readerRole = "admin" then "client" else "admin"
  let unread := fun msg : Message => msg.conversationID == convID && msg.senderRole == targetRole && msg.readAt.isNone
  { s with messages := s.messages.updateWhere unread (.read now) (Message.keeps_read now) }

def Conversation.setStatus (now : Time) (status : String) (conv : Conversation) : Conversation :=
  { conv with
    status := status
    updatedAt := now
    closedAt := if status = "closed" ∨ status = "resolved" then some now else none }

theorem Conversation.keeps_setStatus (now : Time) (status : String) :
    Table.Keeps Conversation.Clash (Conversation.setStatus now status) := fun _ _ => ⟨fun h => h, fun h => h⟩

def updateStatus (now : Time) (id status : String) (s : ChatStore) : Except Err ChatStore :=
  if s.conversations.rows.any fun conv => conv.id == id then
    .ok { s with
      conversations := s.conversations.updateWhere (fun conv => conv.id == id) (.setStatus now status)
        (Conversation.keeps_setStatus now status) }
  else .error .notFound

/-- The attachments of the messages of a conversation. -/
def conversationAttachments (convID : String) (s : ChatStore) : List Attachment :=
  let msgIDs := (s.messages.rows.filter fun msg => msg.conversationID == convID).map (·.id)
  s.attachments.rows.filter fun att => att.messageID.any msgIDs.contains

/-- No attachment besides the listed ones has the storage key. -/
def unreferenced (storageKey : String) (attIDs : List String) (s : ChatStore) : Bool :=
  s.attachments.rows.all fun att => !((att.storageKey == storageKey || att.id == storageKey) && !attIDs.contains att.id)

def fileOf (mediaStoragePath : String) (att : Attachment) : Option Path :=
  if currentEncryptionVersion ≤ att.encryptionVersion ∧ mediaStoragePath ≠ "" then
    some (attachmentStoragePath mediaStoragePath (attachmentStorageKey att))
  else if att.legacyStoragePath ≠ "" then some (cleanPath att.legacyStoragePath) else none

/-- The transaction of `DeleteConversation`: the rows go, and the files of the blobs without another attachment are to be
removed after it. -/
def deleteConversation (id mediaStoragePath : String) (s : ChatStore) : Except Err (ChatStore × List Path) := do
  let _ ← found (s.conversations.rows.find? fun conv => conv.id == id)
  let attachments := conversationAttachments id s
  let attIDs := attachments.map (·.id)
  let orphans := attachments.filter fun att => unreferenced (attachmentStorageKey att) attIDs s
  return ({ s with
    conversations := s.conversations.deleteWhere fun conv => conv.id == id
    messages := s.messages.deleteWhere fun msg => msg.conversationID == id
    attachments := s.attachments.deleteWhere fun att => attIDs.contains att.id
    blobs := s.blobs.deleteWhere fun blob => (orphans.map attachmentStorageKey).contains blob.storageKey },
    orphans.filterMap (fileOf mediaStoragePath))

def banHash (userID : String) : BlindIndex := ⟨keys.active, "support-ban-user-id", userID⟩

def newBan (id userID reason bannedBy : String) (expiresAt : Option Time) : SupportBan where
  id := id
  userIDHash := banHash keys userID
  userIDCiphertext := some (.field keys.active "support-ban-user-id" id userID)
  reasonCiphertext := if reason ≠ "" then some (.field keys.active "support-ban-reason" id reason) else none
  bannedByCiphertext := if bannedBy ≠ "" then some (.field keys.active "support-ban-banned-by" id bannedBy) else none
  expiresAt := expiresAt

/-- `BanUser`: the ban replaces the one there is. -/
def banUser (id userID reason bannedBy : String) (expiresAt : Option Time) (s : ChatStore) : Except Err ChatStore := do
  let kept := s.bans.deleteWhere fun ban => ban.userIDHash == banHash keys userID
  let bans ← (inserted kept (newBan keys id userID reason bannedBy expiresAt)).mapError (.wrap "save support ban")
  return { s with bans := bans }

def unbanUser (userID : String) (s : ChatStore) : ChatStore :=
  { s with bans := s.bans.deleteWhere fun ban => ban.userIDHash == banHash keys userID }

structure BanView where
  id : String
  userID : String
  reason : String
  bannedBy : String
  expiresAt : Option Time
  deriving DecidableEq

/-- A column of a ban; an empty one stays empty. -/
def decryptOptional (purpose context recordID : String) : Option Cipher → Except Err String
  | none => .ok ""
  | some c => (decryptField keys purpose recordID (some c)).mapError (.wrap context)

def hydrateBan (ban : SupportBan) : Except Err BanView := do
  let userID ← decryptOptional keys "support-ban-user-id" "decrypt ban user id" ban.id ban.userIDCiphertext
  let reason ← decryptOptional keys "support-ban-reason" "decrypt ban reason" ban.id ban.reasonCiphertext
  let bannedBy ← decryptOptional keys "support-ban-banned-by" "decrypt ban author" ban.id ban.bannedByCiphertext
  return ⟨ban.id, userID, reason, bannedBy, ban.expiresAt⟩

def SupportBan.active (now : Time) (ban : SupportBan) : Bool := ban.expiresAt.all (now < ·)

/-- `IsUserBanned`: the ban the index of the active key finds. -/
def isUserBanned (now : Time) (userID : String) (s : ChatStore) : Except Err (Option BanView) :=
  match s.bans.first (fun a b => a.id < b.id) fun ban => ban.userIDHash == banHash keys userID && ban.active now with
  | none => .ok none
  | some ban => (hydrateBan keys ban).map some

end Xraytool.SupportChat
