import Xraytool.Lib.Run
import Xraytool.Spec.SupportChat

/-! The HTTP handlers of the support chat over its store and media directory. A handler refuses and has no
effect, or it has an outcome: the new state, the reply and the messages queued for web sockets. -/

namespace Xraytool.SupportChat

open Fallible

structure Plugin where
  keys : Keys
  mediaRoot : String
  cwd : Location := []
  maxOpenPerUser : Int := 3
  /-- `IsAdmin` of the user an identity is resolved to -/
  isAdminUser : String → Bool

variable (p : Plugin)

def Plugin.requestIsAdmin (userID : String) : Bool := userID ≠ "" && p.isAdminUser userID

structure Chat where
  store : ChatStore := {}
  disk : Disk := {}
  deriving DecidableEq

/-- The clock and the two identifiers a request may draw. -/
structure Draw where
  now : Time := 0
  uuid : String
  uuid' : String
  deriving DecidableEq

inductive Refusal where
  | error (status : Nat) (text : String)
  /-- `banned_from_support` -/
  | banned (reason : String) (expiresAt : Option Time)
  deriving DecidableEq

inductive Reply where
  | refused (refusal : Refusal)
  | banStatus (ban : Option (String × Option Time))
  | created (conversationID : String) (createdAt : Time) (message : MessageOutput)
  | conversations (convs : List ConversationView)
  | conversation (conv : ConversationView)
  | message (msg : MessageOutput)
  | messages (msgs : List MessageOutput)
  | uploaded (id fileName mimeType : String)
  /-- the headers and the body of a download; no content is a body that does not decrypt -/
  | file (attachmentID mimeType disposition : String) (content : Option Content)
  | done (status : Nat)
  deriving DecidableEq

/-- A `new_message` queued for the clients of one user, or for the administrators. -/
structure Event where
  target : Option String
  message : MessageOutput
  deriving DecidableEq

structure Outcome where
  chat : Chat
  reply : Reply
  events : List Event := []
  deriving DecidableEq

def internalError : Refusal := .error 500 "Internal server error"

def require (p : Prop) [Decidable p] (refusal : Refusal) : Except Refusal Unit :=
  if p then .ok () else .error refusal

def authenticated (userID : String) : Except Refusal Unit := require (userID ≠ "") (.error 401 "Unauthorized")

/-- The ban check of a handler, with its answer to a banned user. -/
def checkBan (now : Time) (userID : String) (refusal : BanView → Refusal) (c : Chat) : Except Refusal Unit :=
  match isUserBanned p.keys now userID c.store with
  | .error _ => .error internalError
  | .ok (some ban) => .error (refusal ban)
  | .ok none => .ok ()

def bannedReply (ban : BanView) : Refusal := .banned ban.reason ban.expiresAt

def bannedText (_ : BanView) : Refusal := .error 403 "User is banned from support"

def decoded {α : Type} : Option α → Except Refusal α
  | some req => .ok req
  | none => .error (.error 400 "Invalid request body")

/-- The conversation a request names. -/
def requestedConversation (convID : String) (c : Chat) : Except Refusal ConversationView := do
  require (convID ≠ "") (.error 400 "Missing conversation ID")
  (getConversation p.keys convID c.store).mapError fun _ => .error 404 "Conversation not found"

/-- The same for a client, whose conversation it has to be. -/
def ownConversation (userID convID : String) (c : Chat) : Except Refusal ConversationView := do
  let conv ← requestedConversation p convID c
  require (conv.userID = userID) (.error 403 "Forbidden")
  return conv

structure CreateConversationReq where
  subject : String
  message : String
  attachments : List String := []

structure CreateMessageReq where
  text : String
  attachments : List String := []

/-- The limit of open conversations. -/
def checkOpen (userID : String) (c : Chat) : Except Refusal Unit :=
  if 0 < p.maxOpenPerUser then
    match listConversations p.keys { userID := some userID, status := some "open" } c.store with
    | .error _ => .error internalError
    | .ok openConvs =>
      require (openConvs.length < p.maxOpenPerUser) (.error 403 "Maximum number of open conversations reached")
  else .ok ()

def handleClientCreateConversation (draw : Draw) (userID : String) (body : Option CreateConversationReq) (c : Chat) :
    Except Refusal Outcome := do
  authenticated userID
  checkBan p draw.now userID bannedReply c
  let req ← decoded body
  require (¬ ((req.subject = "" ∨ req.message = "") ∧ req.attachments = []))
    (.error 400 "Subject and message or attachments are required")
  checkOpen p userID c
  let subject := if req.subject = "" then "Прикрепленный файл" else req.subject
  let (s, conv) ← (createConversation p.keys draw.uuid draw.now userID subject c.store).mapError fun _ => internalError
  match createMessage p.keys draw.uuid' draw.now conv.id "client" req.message req.attachments s with
  | .error _ => return { chat := { c with store := s }, reply := .refused internalError }
  | .ok (s, .error _) => return { chat := { c with store := s }, reply := .refused internalError }
  | .ok (s, .ok msg) => return { chat := { c with store := s }, reply := .created conv.id conv.createdAt msg }

def handleClientListConversations (userID : String) (c : Chat) : Except Refusal Outcome := do
  authenticated userID
  let convs ← (listConversations p.keys { userID := some userID } c.store).mapError fun _ => internalError
  return { chat := c, reply := .conversations convs }

def handleClientGetConversation (userID convID : String) (c : Chat) : Except Refusal Outcome := do
  authenticated userID
  let conv ← ownConversation p userID convID c
  return { chat := c, reply := .conversation conv }

/-- `DeleteConversation` with the removal of the files. -/
def deleteConversationFiles (convID : String) (c : Chat) : Except Err Chat := do
  let (s, files) ← deleteConversation convID p.mediaRoot c.store
  return { store := s, disk := files.foldl (fun disk path => removeFile p.cwd path disk) c.disk }

def handleClientDeleteConversation (draw : Draw) (userID convID : String) (c : Chat) : Except Refusal Outcome := do
  authenticated userID
  checkBan p draw.now userID bannedText c
  let _ ← ownConversation p userID convID c
  let c ← (deleteConversationFiles p convID c).mapError fun _ => internalError
  return { chat := c, reply := .done 200 }

/-- The messages are marked read before they are listed. -/
def listedMessages (now : Time) (convID readerRole : String) (c : Chat) : Outcome :=
  let s := markMessagesRead now convID readerRole c.store
  match listMessages p.keys convID s with
  | .error _ => { chat := { c with store := s }, reply := .refused internalError }
  | .ok msgs => { chat := { c with store := s }, reply := .messages msgs }

def handleClientListMessages (draw : Draw) (userID convID : String) (c : Chat) : Except Refusal Outcome := do
  authenticated userID
  let _ ← ownConversation p userID convID c
  return listedMessages p draw.now convID "client" c

/-- The message of a request, for the conversation as it was found. -/
def postMessage (draw : Draw) (conv : ConversationView) (senderRole : String) (body : Option CreateMessageReq)
    (target : Option String) (c : Chat) : Except Refusal Outcome := do
  require (conv.status ≠ "closed") (.error 403 "Conversation is closed")
  let req ← decoded body
  require (¬ (req.text = "" ∧ req.attachments = [])) (.error 400 "Text or attachments are required")
  let (s, msg) ← (createMessage p.keys draw.uuid draw.now conv.id senderRole req.text req.attachments c.store).mapError
    fun _ => internalError
  match msg with
  | .error _ => return { chat := { c with store := s }, reply := .refused internalError }
  | .ok msg => return { chat := { c with store := s }, reply := .message msg, events := [⟨target, msg⟩] }

def handleClientCreateMessage (draw : Draw) (userID convID : String) (body : Option CreateMessageReq) (c : Chat) :
    Except Refusal Outcome := do
  authenticated userID
  checkBan p draw.now userID bannedReply c
  let conv ← ownConversation p userID convID c
  postMessage p draw conv "client" body none c

def handleClientGetBanStatus (draw : Draw) (userID : String) (c : Chat) : Except Refusal Outcome := do
  authenticated userID
  let ban ← (isUserBanned p.keys draw.now userID c.store).mapError fun _ => internalError
  return { chat := c, reply := .banStatus (ban.map fun ban => (ban.reason, ban.expiresAt)) }

/-- The form of an upload: one that cannot be read, one without a file, or a file. Equal contents are those of equal
hashes. -/
inductive UploadForm where
  | invalid
  | missing
  | file (name contentType content : String)

def uploadedFile : UploadForm → Except Refusal (String × String × String)
  | .invalid => .error (.error 400 "File too large or invalid multipart form")
  | .missing => .error (.error 400 "Missing file")
  | .file name contentType content =>
    .ok (name, if contentType = "" then "application/octet-stream" else contentType, content)

/-- The file under a storage key. -/
def blobLocation (storageKey : String) : Location := (attachmentStoragePath p.mediaRoot storageKey).locate p.cwd

/-- The blob of an upload: one of the same content by the same user, or a new file. -/
def claimBlob (storageKey userID content : String) (c : Chat) : Except Refusal (Chat × String) :=
  let contentDigest := attachmentContentDigest p.keys userID content
  match findAttachmentBlob p.keys userID contentDigest c.store with
  | some blob => .ok (c, blob.storageKey)
  | none => do
    let localPath := blobLocation p storageKey
    require ((c.disk.get localPath).isNone) internalError
    -- no other upload comes between, so this fails on the storage key alone and the new file is removed again
    let s ← (createAttachmentBlob p.keys storageKey userID contentDigest c.store).mapError fun _ => internalError
    return ({ store := s, disk := c.disk.put localPath (.stream p.keys.active storageKey (.data content)) }, storageKey)

def handleUploadAttachment (draw : Draw) (userID : String) (form : UploadForm) (c : Chat) : Except Refusal Outcome := do
  authenticated userID
  checkBan p draw.now userID bannedText c
  let (name, mimeType, content) ← uploadedFile form
  let (c, storageKey) ← claimBlob p draw.uuid' userID content c
  match createAttachment p.keys draw.uuid storageKey userID name mimeType content.utf8ByteSize c.store with
  | .error _ => return { chat := c, reply := .refused internalError }
  | .ok s => return { chat := { c with store := s }, reply := .uploaded draw.uuid name mimeType }

/-- The file of an attachment; the empty path names none. -/
def mediaLocation (att : Attachment) : Option Location :=
  if currentEncryptionVersion ≤ att.encryptionVersion then some (blobLocation p (attachmentStorageKey att))
  else if att.legacyStoragePath = "" then none
  else some ((cleanPath att.legacyStoragePath).locate p.cwd)

/-- The key of an attachment: only the active one, or for the first version the first of the legacy keys. -/
def decryptMedia (keys : Keys) (att : Attachment) (file : File) : Except Err Content :=
  if currentEncryptionVersion ≤ att.encryptionVersion then
    decryptAttachmentStream keys.active (attachmentStorageKey att) file
  else decryptStream keys.legacyAttachment att.nonce file

/-- `strings.ReplaceAll` of a quote by an escaped one. -/
def escapeQuotes (text : String) : String :=
  String.ofList (text.toList.flatMap fun c => if c = '\"' then ['\\', c] else [c])

def contentDisposition (fileName : String) : String := "inline; filename=\"" ++ escapeQuotes fileName ++ "\""

/-- The user may have the attachment: that of a message its owner and administrators, another one its uploader. -/
def mayDownload (userID : String) (att : AttachmentView) (s : ChatStore) : Bool :=
  match linkedTo att.messageID with
  | some _ => p.requestIsAdmin userID || userOwnsAttachment p.keys userID att s
  | none => att.uploaderID == userID

def handleDownloadAttachment (userID attID : String) (c : Chat) : Except Refusal Outcome := do
  authenticated userID
  require (attID ≠ "") (.error 400 "Missing attachment ID")
  let (att, view) ← (getAttachment p.keys attID c.store).mapError fun _ => Refusal.error 404 "Attachment not found"
  require (mayDownload p userID view c.store) (.error 403 "Forbidden")
  match (mediaLocation p att).bind c.disk.get with
  | none => .error (.error 404 "File missing")
  | some file =>
    return { chat := c
             reply := .file attID view.mimeType (contentDisposition view.fileName) (decryptMedia p.keys att file).toOption }

def requireAdmin (userID : String) : Except Refusal Unit := require (p.requestIsAdmin userID) (.error 403 "Forbidden")

def handleAdminListConversations (filter : ConversationFilter) (c : Chat) : Except Refusal Outcome := do
  let convs ← (listConversations p.keys filter c.store).mapError fun _ => internalError
  return { chat := c, reply := .conversations convs }

def handleAdminListMessages (draw : Draw) (convID : String) (c : Chat) : Except Refusal Outcome := do
  let _ ← requestedConversation p convID c
  return listedMessages p draw.now convID "admin" c

/-- The message goes to the clients of the owner of the conversation. -/
def handleAdminCreateMessage (draw : Draw) (convID : String) (body : Option CreateMessageReq) (c : Chat) :
    Except Refusal Outcome := do
  let conv ← requestedConversation p convID c
  postMessage p draw conv "admin" body (some conv.userID) c

def handleAdminPatchStatus (draw : Draw) (convID : String) (body : Option String) (c : Chat) :
    Except Refusal Outcome := do
  require (convID ≠ "") (.error 400 "Missing conversation ID")
  let status ← decoded body
  require (status = "open" ∨ status = "closed" ∨ status = "resolved") (.error 400 "Invalid status")
  let s ← (updateStatus draw.now convID status c.store).mapError fun _ => internalError
  return { chat := { c with store := s }, reply := .done 200 }

def handleAdminDeleteConversation (convID : String) (c : Chat) : Except Refusal Outcome := do
  let _ ← requestedConversation p convID c
  let c ← (deleteConversationFiles p convID c).mapError fun _ => internalError
  return { chat := c, reply := .done 200 }

structure CreateBanReq where
  userID : String
  reason : String := ""
  expiresAt : Option Time := none
  deriving DecidableEq

def handleAdminCreateBan (draw : Draw) (adminID : String) (body : Option CreateBanReq) (c : Chat) :
    Except Refusal Outcome := do
  let req ← decoded body
  require (req.userID ≠ "") (.error 400 "Missing user_id")
  let s ← (banUser p.keys draw.uuid req.userID req.reason adminID req.expiresAt c.store).mapError fun _ => internalError
  return { chat := { c with store := s }, reply := .done 201 }

def handleAdminDeleteBan (userID : String) (c : Chat) : Except Refusal Outcome := do
  require (userID ≠ "") (.error 400 "Missing user_id")
  return { chat := { c with store := unbanUser p.keys userID c.store }, reply := .done 200 }

inductive Request where
  | createConversation (body : Option CreateConversationReq)
  | listConversations
  | getConversation (convID : String)
  | deleteConversation (convID : String)
  | listMessages (convID : String)
  | createMessage (convID : String) (body : Option CreateMessageReq)
  | banStatus
  | upload (form : UploadForm)
  | download (attID : String)
  | adminListConversations (filter : ConversationFilter)
  | adminListMessages (convID : String)
  | adminCreateMessage (convID : String) (body : Option CreateMessageReq)
  | adminPatchStatus (convID : String) (body : Option String)
  | adminDeleteConversation (convID : String)
  | adminCreateBan (body : Option CreateBanReq)
  | adminDeleteBan (userID : String)

/-- The routes of the plugin; those of administrators are behind `requireAdmin`. -/
def Request.handle (draw : Draw) (userID : String) (c : Chat) : Request → Except Refusal Outcome
  | .createConversation body => handleClientCreateConversation p draw userID body c
  | .listConversations => handleClientListConversations p userID c
  | .getConversation convID => handleClientGetConversation p userID convID c
  | .deleteConversation convID => handleClientDeleteConversation p draw userID convID c
  | .listMessages convID => handleClientListMessages p draw userID convID c
  | .createMessage convID body => handleClientCreateMessage p draw userID convID body c
  | .banStatus => handleClientGetBanStatus p draw userID c
  | .upload form => handleUploadAttachment p draw userID form c
  | .download attID => handleDownloadAttachment p userID attID c
  | .adminListConversations filter => do requireAdmin p userID; handleAdminListConversations p filter c
  | .adminListMessages convID => do requireAdmin p userID; handleAdminListMessages p draw convID c
  | .adminCreateMessage convID body => do requireAdmin p userID; handleAdminCreateMessage p draw convID body c
  | .adminPatchStatus convID body => do requireAdmin p userID; handleAdminPatchStatus draw convID body c
  | .adminDeleteConversation convID => do requireAdmin p userID; handleAdminDeleteConversation p convID c
  | .adminCreateBan body => do requireAdmin p userID; handleAdminCreateBan p draw userID body c
  | .adminDeleteBan banned => do requireAdmin p userID; handleAdminDeleteBan p banned c

/-- A refused request changes nothing. -/
def serve (draw : Draw) (userID : String) (request : Request) (c : Chat) : Outcome :=
  match request.handle p draw userID c with
  | .ok outcome => outcome
  | .error refusal => { chat := c, reply := .refused refusal }

def MessageOutput.shows (att : Attachment) (msg : MessageOutput) : Bool := msg.attachments.any fun view => view.id == att.id

/-- The reply has metadata of the attachment, or the content of its file. -/
def Reply.shows (p : Plugin) (s : ChatStore) (att : Attachment) : Reply → Bool
  | .created _ _ msg => msg.shows att
  | .message msg => msg.shows att
  | .messages msgs => msgs.any (·.shows att)
  | .uploaded id _ _ => att.id == id
  | .file id _ _ _ => att.id == id || s.attachments.rows.any fun served =>
      served.id == id && (mediaLocation p served).isSome && mediaLocation p served == mediaLocation p att
  | _ => false

/-- What an outcome shows to whom. Events without a target go to administrators. -/
def Outcome.obtained (userID : String) (outcome : Outcome) : List (String × Attachment) :=
  let rows := outcome.chat.store.attachments.rows
  (rows.filter fun att => outcome.reply.shows p outcome.chat.store att).map (userID, ·) ++
    outcome.events.flatMap fun event => match event.target with
      | none => []
      | some target => (rows.filter fun att => event.message.shows att).map (target, ·)

/-- The chat, and what was shown to users so far. -/
structure Scene where
  chat : Chat := {}
  obtained : List (String × Attachment) := []
  deriving DecidableEq

structure Label where
  userID : String
  request : Request
  draw : Draw

/-- The identifier is not yet in the store, nor is the file it would name. -/
def Unused (id : String) (s : ChatStore) : Prop :=
  id ≠ "" ∧ (∀ conv ∈ s.conversations.rows, conv.id ≠ id) ∧
    (∀ msg ∈ s.messages.rows, msg.id ≠ id ∧ msg.conversationID ≠ id) ∧
    (∀ att ∈ s.attachments.rows, att.id ≠ id ∧ att.messageID ≠ some id ∧
      mediaLocation p att ≠ some (blobLocation p id)) ∧
    ∀ blob ∈ s.blobs.rows, blob.storageKey ≠ id

instance (p : Plugin) (id : String) (s : ChatStore) : Decidable (Unused p id s) := inferInstanceAs (Decidable (_ ∧ _))

/-- `uuid.New` gives new identifiers. -/
def Draw.Fresh (draw : Draw) (s : ChatStore) : Prop :=
  Unused p draw.uuid s ∧ Unused p draw.uuid' s ∧ draw.uuid ≠ draw.uuid'

instance (p : Plugin) (draw : Draw) (s : ChatStore) : Decidable (draw.Fresh p s) := inferInstanceAs (Decidable (_ ∧ _))

def step (scene : Scene) (l : Label) : Option Scene :=
  if l.draw.Fresh p scene.chat.store then
    let outcome := serve p l.draw l.userID l.request scene.chat
    some ⟨outcome.chat, scene.obtained ++ outcome.obtained p l.userID⟩
  else none

end Xraytool.SupportChat

/-! Uploads and deletions of the support chat in progress at the same time. A transaction or an operation on a file is
one step of one request. Storage keys are drawn by `uuid.New`, so a key that was issued is never drawn again. -/

namespace Xraytool.SupportUploads

open SupportChat

/-- An upload after its form is read, with the identifier drawn for the attachment. -/
structure Upload where
  userID : String
  attachmentID : String
  name : String
  mimeType : String
  content : String
  deriving DecidableEq

def Upload.digest (keys : Keys) (u : Upload) : BlindIndex := attachmentContentDigest keys u.userID u.content

/-- What a request does next. -/
inductive Task where
  /-- `FindAttachmentBlob` -/
  | find (u : Upload)
  /-- the file of a new blob -/
  | write (u : Upload)
  /-- `CreateAttachmentBlob` -/
  | insertBlob (u : Upload) (storageKey : String)
  /-- `FindAttachmentBlob`, after the row of the blob was refused -/
  | findAgain (u : Upload) (storageKey : String)
  /-- the removal of the new file, for a blob that was found or for none -/
  | discard (u : Upload) (storageKey : String) (found : Option String)
  /-- `CreateAttachment` -/
  | insertAttachment (u : Upload) (storageKey : String)
  /-- the transaction of `DeleteConversation` -/
  | delete (convID : String)
  /-- the removals after it -/
  | removeFiles (paths : List Path)
  deriving DecidableEq

structure Scene where
  chat : Chat := {}
  tasks : List Task := []
  issued : List String := []
  deriving DecidableEq

/-- The next step of a request: what it leaves, and what is left of it. -/
def Task.advance (p : Plugin) (c : Chat) : Task → Option (Chat × List Task)
  | .find u => match findAttachmentBlob p.keys u.userID (u.digest p.keys) c.store with
    | some blob => some (c, [.insertAttachment u blob.storageKey])
    | none => some (c, [.write u])
  | .write _ => none
  | .insertBlob u storageKey => match createAttachmentBlob p.keys storageKey u.userID (u.digest p.keys) c.store with
    | .ok s => some ({ c with store := s }, [.insertAttachment u storageKey])
    | .error _ => some (c, [.findAgain u storageKey])
  | .findAgain u storageKey =>
    let blob := findAttachmentBlob p.keys u.userID (u.digest p.keys) c.store
    some (c, [.discard u storageKey (blob.map (·.storageKey))])
  | .discard u storageKey found =>
    some ({ c with disk := removeFile p.cwd (attachmentStoragePath p.mediaRoot storageKey) c.disk },
      found.toList.map (.insertAttachment u))
  | .insertAttachment u storageKey =>
    match createAttachment p.keys u.attachmentID storageKey u.userID u.name u.mimeType u.content.utf8ByteSize c.store with
    | .ok s => some ({ c with store := s }, [])
    | .error _ => some (c, [])
  | .delete convID => match deleteConversation convID p.mediaRoot c.store with
    | .ok (s, files) => some ({ c with store := s }, [.removeFiles files])
    | .error _ => some (c, [])
  | .removeFiles [] => some (c, [])
  | .removeFiles (path :: paths) => some ({ c with disk := removeFile p.cwd path c.disk }, [.removeFiles paths])

/-- The file of a new blob, created exclusively under the key that was drawn. -/
def Task.writeFile (p : Plugin) (storageKey : String) (c : Chat) : Task → Option (Chat × List Task)
  | .write u =>
    let place := blobLocation p storageKey
    if (c.disk.get place).isSome then some (c, [])
    else some ({ c with disk := c.disk.put place (.stream p.keys.active storageKey (.data u.content)) },
      [.insertBlob u storageKey])
  | _ => none

/-- What is left of a request after an operation of the database or on a file has failed. -/
def Task.fail : Task → List Task
  | .find _ => []
  | .write _ => []
  | .insertBlob u storageKey => [.findAgain u storageKey]
  | .findAgain u storageKey => [.discard u storageKey none]
  -- errors of `os.Remove` are ignored
  | .discard u _ found => found.toList.map (.insertAttachment u)
  | .insertAttachment _ _ => []
  | .delete _ => []
  | .removeFiles paths => [.removeFiles paths.tail]

inductive Label where
  | upload (u : Upload)
  | deleteConversation (convID : String)
  | advance (i : Nat)
  | fail (i : Nat)
  | write (i : Nat) (storageKey : String)
  /-- other requests of the chat -/
  | createConversation (id : String) (now : Time) (userID subject : String)
  | createMessage (msgID : String) (now : Time) (convID senderRole text : String) (attachmentIDs : List String)
  deriving DecidableEq

def step (p : Plugin) (s : Scene) : Label → Option Scene
  | .upload u => some { s with tasks := s.tasks ++ [.find u] }
  | .deleteConversation convID => some { s with tasks := s.tasks ++ [.delete convID] }
  | .advance i => do
    let task ← s.tasks[i]?
    let (chat, next) ← task.advance p s.chat
    return { s with chat := chat, tasks := Pool.replace s.tasks i next }
  | .fail i => do
    let task ← s.tasks[i]?
    return { s with tasks := Pool.replace s.tasks i task.fail }
  | .write i storageKey => do
    let task ← s.tasks[i]?
    let (chat, next) ← task.writeFile p storageKey s.chat
    if storageKey ≠ "" ∧ storageKey ∉ s.issued then
      return { chat := chat, tasks := Pool.replace s.tasks i next, issued := storageKey :: s.issued }
    else none
  | .createConversation id now userID subject =>
    match createConversation p.keys id now userID subject s.chat.store with
    | .ok (store, _) => some { s with chat := { s.chat with store := store } }
    | .error _ => none
  | .createMessage msgID now convID senderRole text attachmentIDs =>
    match createMessage p.keys msgID now convID senderRole text attachmentIDs s.chat.store with
    | .ok (store, _) => some { s with chat := { s.chat with store := store } }
    | .error _ => none

end Xraytool.SupportUploads
