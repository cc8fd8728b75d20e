import Xraytool.Spec.SupportRequests

/-! `MigrateLegacyData`: the rows of the first version of the support chat are rewritten in the current format one by
one, conversations, then messages, then attachments with their files. Each statement and each file operation is a step;
between any two the process may crash, and a later start begins from the top. `Find` has no order, so any row may be the
next. -/

namespace Xraytool.SupportMigration

open SupportChat

/-- The rows of the first loop. -/
def pendingConversation (conv : Conversation) : Bool :=
  conv.encryptionVersion < currentEncryptionVersion && (conv.legacyUserID ≠ "" || conv.legacySubject ≠ "")

def pendingMessage (msg : Message) : Bool := msg.encryptionVersion < currentEncryptionVersion

def pendingAttachment (att : Attachment) : Bool := att.encryptionVersion < currentEncryptionVersion

variable (keys : Keys)

/-- The columns `migrateConversation` writes, for the row it has read. -/
def convertConversation (now : Time) (conv row : Conversation) : Conversation :=
  { row with
    updatedAt := now
    userIDCiphertext := some (.field keys.active "conversation-user-id" conv.id conv.legacyUserID)
    userIDHash := some ⟨keys.active, "conversation-user-id", conv.legacyUserID⟩
    subjectCiphertext := some (.field keys.active "conversation-subject" conv.id conv.legacySubject)
    encryptionVersion := currentEncryptionVersion
    legacyUserID := ""
    legacySubject := "" }

def convertMessage (msg : Message) (plaintext : String) (row : Message) : Message :=
  { row with
    ciphertext := some (.field keys.active "message-body" msg.id plaintext)
    encryptionVersion := currentEncryptionVersion }

def convertAttachment (att row : Attachment) : Attachment :=
  { row with
    uploaderIDCiphertext := some (.field keys.active "attachment-uploader-id" att.id att.legacyUploaderID)
    uploaderIDHash := some (uploaderHash keys att.legacyUploaderID)
    fileNameCiphertext := some (.field keys.active "attachment-file-name" att.id att.legacyFileName)
    mimeTypeCiphertext := some (.field keys.active "attachment-mime-type" att.id att.legacyMimeType)
    sizeCiphertext := some (.field keys.active "attachment-size" att.id (toString att.legacySize))
    encryptionVersion := currentEncryptionVersion
    legacyUploaderID := ""
    legacyFileName := ""
    legacyMimeType := ""
    legacySize := 0
    legacyStoragePath := ""
    storageKey := att.id
    nonce := none }

theorem keeps_convertConversation (keys : Keys) (now : Time) (conv : Conversation) :
    Table.Keeps Conversation.Clash (convertConversation keys now conv) := fun _ _ => ⟨id, id⟩

theorem keeps_convertMessage {keys : Keys} {msg : Message} {plaintext : String} :
    Table.Keeps Message.Clash (convertMessage keys msg plaintext) := fun _ _ => ⟨id, id⟩

theorem keeps_convertAttachment {keys : Keys} {att : Attachment} :
    Table.Keeps Attachment.Clash (convertAttachment keys att) := fun _ _ => ⟨id, id⟩

def migrateConversation (now : Time) (conv : Conversation) (s : ChatStore) : ChatStore :=
  { s with
    conversations := s.conversations.updateWhere (fun row => row.id == conv.id) (convertConversation keys now conv)
      (keeps_convertConversation keys now conv) }

def migrateMessage (msg : Message) (s : ChatStore) : Except Err ChatStore := do
  let plaintext ← (decryptLegacy keys msg.conversationID msg.ciphertext).mapError
    (.wrap ("decrypt legacy message " ++ msg.id))
  return { s with
    messages := s.messages.updateWhere (fun row => row.id == msg.id) (convertMessage keys msg plaintext)
      keeps_convertMessage }

/-- `migrateAttachmentFile`, up to the rename that publishes the encrypted file. The temporary file has a name of its own
and is left out. -/
def migrateAttachmentFile (p : Plugin) (att : Attachment) (disk : Disk) : Except Err Disk := do
  let file ← (found (disk.get ((cleanPath att.legacyStoragePath).locate p.cwd))).mapError
    (.wrap ("open legacy attachment " ++ att.id))
  let content ← (decryptStream p.keys.legacyAttachment att.nonce file).mapError
    (.wrap ("decrypt legacy attachment " ++ att.id))
  return disk.put (blobLocation p att.id) (.stream p.keys.active att.id content)

/-- `migrateAttachment` up to the row. -/
def publishAttachment (p : Plugin) (att : Attachment) (disk : Disk) : Except Err Disk :=
  if att.legacyStoragePath = "" then .error (.text ("legacy attachment " ++ att.id ++ " has no storage path"))
  else migrateAttachmentFile p att disk

def updateAttachment (att : Attachment) (s : ChatStore) : ChatStore :=
  { s with
    attachments := s.attachments.updateWhere (fun row => row.id == att.id) (convertAttachment keys att)
      keeps_convertAttachment }

/-- The old file goes, unless it has the name of the new one. -/
def removeLegacyFile (p : Plugin) (att : Attachment) (disk : Disk) : Disk :=
  if cleanPath att.legacyStoragePath = attachmentStoragePath p.mediaRoot att.id then disk
  else removeFile p.cwd (cleanPath att.legacyStoragePath) disk

/-- Where the migration is. -/
inductive Point where
  /-- not started, or stopped by a crash -/
  | idle
  /-- between two rows -/
  | running
  /-- the new file of an attachment is in place -/
  | published (att : Attachment)
  /-- its row is rewritten -/
  | updated (att : Attachment)
  | failed (err : Err)
  | done
  deriving DecidableEq

structure Migration where
  chat : Chat
  point : Point := .idle
  deriving DecidableEq

inductive Label where
  | start
  | conversation (id : String) (now : Time)
  | message (id : String)
  | publish (id : String)
  | update
  | remove
  | finish
  | crash
  deriving DecidableEq

namespace Migration

def start (m : Migration) : Option Migration :=
  match m.point with
  | .idle => some { m with point := .running }
  | .failed _ => some { m with point := .running }
  | .done => some { m with point := .running }
  | _ => none

def crash (m : Migration) : Option Migration :=
  match m.point with
  | .running => some { m with point := .idle }
  | .published _ => some { m with point := .idle }
  | .updated _ => some { m with point := .idle }
  | _ => none

def conversation (p : Plugin) (id : String) (now : Time) (m : Migration) : Option Migration :=
  match m.chat.store.conversations.rows.find? fun conv => conv.id == id && pendingConversation conv with
  | some conv => some { m with chat := { m.chat with store := migrateConversation p.keys now conv m.chat.store } }
  | none => none

def conversationsDone (s : ChatStore) : Bool := s.conversations.rows.all fun conv => !pendingConversation conv

def messagesDone (s : ChatStore) : Bool := conversationsDone s && s.messages.rows.all fun msg => !pendingMessage msg

def attachmentsDone (s : ChatStore) : Bool := messagesDone s && s.attachments.rows.all fun att => !pendingAttachment att

def message (p : Plugin) (id : String) (m : Migration) : Option Migration :=
  match m.chat.store.messages.rows.find? fun msg => msg.id == id && pendingMessage msg with
  | some msg => match migrateMessage p.keys msg m.chat.store with
    | .ok s => some { m with chat := { m.chat with store := s } }
    | .error err => some { m with point := .failed err }
  | none => none

def publish (p : Plugin) (id : String) (m : Migration) : Option Migration :=
  match m.chat.store.attachments.rows.find? fun att => att.id == id && pendingAttachment att with
  | some att => match publishAttachment p att m.chat.disk with
    | .ok disk => some { chat := { m.chat with disk := disk }, point := .published att }
    | .error err => some { m with point := .failed err }
  | none => none

def update (p : Plugin) (m : Migration) : Option Migration :=
  match m.point with
  | .published att =>
    some { chat := { m.chat with store := updateAttachment p.keys att m.chat.store }, point := .updated att }
  | _ => none

def remove (p : Plugin) (m : Migration) : Option Migration :=
  match m.point with
  | .updated att => some { chat := { m.chat with disk := removeLegacyFile p att m.chat.disk }, point := .running }
  | _ => none

def step (p : Plugin) (m : Migration) : Label → Option Migration
  | .start => m.start
  | .crash => m.crash
  | .update => m.update p
  | .remove => m.remove p
  | .conversation id now => if m.point = .running then m.conversation p id now else none
  | .message id => if m.point = .running ∧ conversationsDone m.chat.store then m.message p id else none
  | .publish id => if m.point = .running ∧ messagesDone m.chat.store then m.publish p id else none
  | .finish => if m.point = .running ∧ attachmentsDone m.chat.store then some { m with point := .done } else none

end Migration

end Xraytool.SupportMigration
