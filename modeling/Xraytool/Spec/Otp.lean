import Xraytool.Lib.Run
import Xraytool.Spec.Repository

/-! One-time codes. The plugin `identity_memory` stores the code, the cache built into the API server its HMAC. What
they do to one entry is the same; they differ in how entries come and go. A random code is given by the caller of the
model. -/

namespace Xraytool.Otp

/-- `code` is what is stored of the code. -/
structure Entry (η : Type) where
  payload : String := ""
  code : η
  expiresAt : Time := Time.zero
  requests : Nat := 0
  attempts : Nat := 0
  deriving DecidableEq

/-- How a verification ends. A missing or expired code and a wrong one are answered alike. -/
inductive Verdict where
  | absent
  | accepted (payload : String)
  | wrong
  | exceeded
  deriving DecidableEq

/-- The code was compared and is not the right one. -/
def Verdict.isWrong : Verdict → Bool
  | .wrong | .exceeded => true
  | .absent | .accepted _ => false

namespace Entry

variable {η : Type}

def expired (e : Entry η) (now : Time) : Bool := e.expiresAt < now

/-- The counters start again once the previous code has expired. -/
def renew (now : Time) (e : Entry η) : Entry η := if e.expired now then { e with requests := 0, attempts := 0 } else e

def setCode (now : Time) (ttl : Int) (payload : String) (code : η) (e : Entry η) : Entry η :=
  { e with code := code, payload := payload, expiresAt := now + ttl, requests := e.requests + 1 }

/-- Compare a code with the entry. -/
def check [DecidableEq η] (now : Time) (code : η) (e : Entry η) : Verdict × Entry η :=
  if e.expired now then (.absent, e)
  else if e.code = code then (.accepted e.payload, e)
  else
    let e := { e with attempts := e.attempts + 1 }
    (if 3 ≤ e.attempts then .exceeded else .wrong, e)

end Entry

/-- Whether the entry leaves the store. -/
def Verdict.removes : Verdict → Bool
  | .wrong => false
  | .absent | .accepted _ | .exceeded => true

structure MemoryEntry extends Entry String where
  lastAccessed : Time := Time.zero
  deriving DecidableEq

abbrev Memory := Assoc.Map String MemoryEntry

namespace Memory

def maxEntries : Nat := 10000

def sweepLocked (now : Time) (m : Memory) : Memory := m.filter fun e => !e.2.expired now

/-- The loop over the entries: of two the one that was used less recently. -/
def oldest : Option (String × MemoryEntry) → String × MemoryEntry → Option (String × MemoryEntry)
  | none, e => some e
  | some found, e => if e.2.lastAccessed < found.2.lastAccessed then some e else some found

/-- At the limit the entry that was used least recently goes. -/
def evictOneLocked (m : Memory) : Memory :=
  if m.size < maxEntries then m
  else match m.entries.foldl oldest none with
    | some oldest => m.filter fun e => e.1 ≠ oldest.1
    | none => m

/-- The map with an entry for the subject, and that entry. -/
def ensure (subject : String) (m : Memory) : Memory × MemoryEntry :=
  match m.get subject with
  | some item => (m, item)
  | none =>
    let item : MemoryEntry := { code := "" }
    (m.evictOneLocked.put subject item, item)

/-- `IssueOTP`; `code` is what `generateCode` returns, `none` its error. -/
def issueOTP (now : Time) (subject payload : String) (ttl : Int) (code : Option String) (m : Memory) :
    Except Err String × Memory :=
  if subject = "" ∨ ttl ≤ 0 then (.error (.text "identity_memory: subject and positive ttl are required"), m)
  else
    let (m, item) := (m.sweepLocked now).ensure subject
    let item := { item with toEntry := item.renew now }
    if 2 ≤ item.requests then (.error (.text "identity request rate limited"), m.put subject item)
    else match code with
      | none => (.error (.wrap "identity_memory: generate OTP" .storage), m.put subject item)
      | some code =>
        (.ok code, m.put subject { toEntry := item.setCode now ttl payload code, lastAccessed := now })

def verifyOTP (now : Time) (subject code : String) (m : Memory) : Verdict × Memory :=
  match m.get subject with
  | none => (.absent, m)
  | some item =>
    let (verdict, entry) := item.check now code
    (verdict, if verdict.removes then m.filter fun e => e.1 ≠ subject
      else m.put subject { toEntry := entry, lastAccessed := now })

end Memory

/-! ### The cache of the API server -/

/-- `otpLRUCache`: the entries with their identifiers, the most recently used first. -/
structure Cache (η : Type) where
  maxSize : Nat := 10000
  order : Assoc.Map String (Entry η) := {}
  deriving DecidableEq

namespace Cache

variable {η : Type}

def delete (identifier : String) (c : Cache η) : Cache η := { c with order := c.order.filter fun e => e.1 ≠ identifier }

/-- The entry moves to the front, with a new value. -/
def toFront (identifier : String) (entry : Entry η) (c : Cache η) : Cache η :=
  { c with order := c.order.putFront identifier entry }

def evictOldest (c : Cache η) : Cache η := if c.maxSize ≤ c.order.size then { c with order := c.order.dropLast } else c

/-- `getOrCreate`; the entry is then at the front. `blank` is the HMAC of an entry without a code. -/
def getOrCreate (blank : η) (identifier : String) (c : Cache η) : Cache η × Entry η :=
  match c.order.get identifier with
  | some entry => (c.toFront identifier entry, entry)
  | none =>
    let entry : Entry η := { code := blank }
    (c.evictOldest.toFront identifier entry, entry)

def sweepExpired (now : Time) (c : Cache η) : Cache η := { c with order := c.order.filter fun e => !e.2.expired now }

/-- `requestOTPWithPayload`; `code` is what `generateOTPCode` returns. -/
def requestOTPWithPayload (hmac : String → η) (blank : η) (now : Time) (identifier payload : String) (ttl : Int)
    (code : String) (c : Cache η) : Except Err String × Cache η :=
  let (c, entry) := c.getOrCreate blank identifier
  let entry := entry.renew now
  if 2 ≤ entry.requests then (.error (.text "max requests reached"), c.toFront identifier entry)
  else (.ok code, c.toFront identifier (entry.setCode now ttl payload (hmac code)))

def verifyOTP [DecidableEq η] (hmac : String → η) (now : Time) (identifier code : String) (c : Cache η) :
    Verdict × Cache η :=
  match c.order.get identifier with
  | none => (.absent, c)
  | some entry =>
    let (verdict, entry) := entry.check now (hmac code)
    (verdict, if verdict.removes then c.delete identifier else c.toFront identifier entry)

end Cache

inductive Call where
  | issue (subject payload : String) (ttl : Int) (code : Option String)
  | verify (subject code : String)
  | sweep
  deriving DecidableEq

/-- A store and what has happened to one subject. -/
structure Tracked (σ : Type) where
  store : σ
  clock : Time
  /-- the codes issued to the subject, the latest first: when, and how many wrong codes were compared with it -/
  codes : List (Time × Nat) := []

/-- A store that has just been created. -/
def Memory.opened (start : Time) : Tracked Memory where
  store := {}
  clock := start

def Cache.opened {η : Type} (maxSize : Nat) (start : Time) : Tracked (Cache η) where
  store := { maxSize := maxSize }
  clock := start

def issued (now : Time) (succeeded : Bool) (codes : List (Time × Nat)) : List (Time × Nat) :=
  if succeeded then (now, 0) :: codes else codes

def compared (wrong : Bool) : List (Time × Nat) → List (Time × Nat)
  | [] => []
  | (t, n) :: codes => (t, if wrong then n + 1 else n) :: codes

/-- One call of the plugin. It has no sweeper of its own. -/
def memoryStep (subject : String) (st : Tracked Memory) (l : Time × Call) : Option (Tracked Memory) :=
  if l.1 < st.clock then none
  else match l.2 with
    | .issue subject' payload ttl code =>
      let (result, store) := st.store.issueOTP l.1 subject' payload ttl code
      some ⟨store, l.1, if subject' = subject then issued l.1 result.isOk st.codes else st.codes⟩
    | .verify subject' code =>
      let (verdict, store) := st.store.verifyOTP l.1 subject' code
      some ⟨store, l.1, if subject' = subject then compared verdict.isWrong st.codes else st.codes⟩
    | .sweep => none

/-- One call of the cache. The generation of a code does not fail. -/
def cacheStep {η : Type} [DecidableEq η] (hmac : String → η) (blank : η) (subject : String) (st : Tracked (Cache η))
    (l : Time × Call) : Option (Tracked (Cache η)) :=
  if l.1 < st.clock then none
  else match l.2 with
    | .issue subject' payload ttl (some code) =>
      let (result, store) := st.store.requestOTPWithPayload hmac blank l.1 subject' payload ttl code
      some ⟨store, l.1, if subject' = subject then issued l.1 result.isOk st.codes else st.codes⟩
    | .issue _ _ _ none => none
    | .verify subject' code =>
      let (verdict, store) := st.store.verifyOTP hmac l.1 subject' code
      some ⟨store, l.1, if subject' = subject then compared verdict.isWrong st.codes else st.codes⟩
    | .sweep => some { st with store := st.store.sweepExpired l.1, clock := l.1 }

/-! Concurrent calls of the OTP cache for one identifier. A call takes the lock of the cache to find its entry, then the
lock of the entry, and, where the entry is to go, the lock of the cache again. In between other calls run, and a call
keeps using the entry it has found, in the map or not. -/

/-- An `otpEntry` and the number of the code it has, 0 for none. -/
structure Cell (η : Type) extends Entry η where
  serial : Nat := 0
  deriving DecidableEq

/-- The next section of a call. An entry is given by its place among all that were created. -/
inductive CallPoint where
  -- requestOTPWithPayload
  | getOrCreate (payload : String) (ttl : Int)
  | setCode (entry : Nat) (payload : String) (ttl : Int)
  -- verifyOTP
  | get (code : String)
  | compare (entry : Nat) (code : String)
  | delete (verdict : Verdict)
  deriving DecidableEq

/-- The call is about to return true. -/
def CallPoint.accepts : CallPoint → Bool
  | .delete (.accepted _) => true
  | _ => false

/-- `items` is what the map has for the identifier. -/
structure Scene (η : Type) where
  clock : Time
  heap : List (Cell η) := []
  items : Option Nat := none
  calls : List CallPoint := []
  /-- how many codes were issued -/
  issued : Nat := 0
  /-- the codes that were accepted, each with the number of codes issued until then -/
  accepted : List (Nat × Nat) := []

namespace Scene

variable {η : Type}

def current (st : Scene η) : Option (Cell η) := st.items.bind fun entry => st.heap[entry]?

def goOn (st : Scene η) (i : Nat) (next : List CallPoint) : Scene η := { st with calls := Pool.replace st.calls i next }

def getOrCreate (blank : η) (i : Nat) (payload : String) (ttl : Int) (st : Scene η) : Scene η :=
  match st.items with
  | some entry => st.goOn i [.setCode entry payload ttl]
  | none =>
    let st' : Scene η := { st with heap := st.heap ++ [{ code := blank }], items := some st.heap.length }
    st'.goOn i [.setCode st.heap.length payload ttl]

/-- The section of `requestOTPWithPayload` under the lock of the entry; the call then returns. -/
def setCode (now : Time) (i entry : Nat) (payload : String) (ttl : Int) (code : η) (cell : Cell η) (st : Scene η) :
    Scene η :=
  let e := cell.renew now
  if 2 ≤ e.requests then { st with heap := st.heap.set entry { cell with toEntry := e } }.goOn i []
  else
    { st with
      heap := st.heap.set entry ⟨e.setCode now ttl payload code, st.issued + 1⟩
      issued := st.issued + 1 }.goOn i []

def get (i : Nat) (code : String) (st : Scene η) : Scene η :=
  match st.items with
  | some entry => st.goOn i [.compare entry code]
  | none => st.goOn i []

/-- The section of `verifyOTP` under the lock of the entry. -/
def compare [DecidableEq η] (now : Time) (i entry : Nat) (code : η) (cell : Cell η) (st : Scene η) : Scene η :=
  let (verdict, e) := cell.check now code
  let st := { st with heap := st.heap.set entry { cell with toEntry := e } }
  match verdict with
  | .wrong => st.goOn i []
  | .accepted _ => { st with accepted := (cell.serial, st.issued) :: st.accepted }.goOn i [.delete verdict]
  | .absent | .exceeded => st.goOn i [.delete verdict]

def delete (i : Nat) (st : Scene η) : Scene η := { st with items := none }.goOn i []

def sweepExpired (now : Time) (st : Scene η) : Scene η :=
  match st.current with
  | some cell => if cell.expired now then { st with items := none } else st
  | none => st

end Scene

inductive Action where
  | requestOTPWithPayload (payload : String) (ttl : Int)
  | verifyOTP (code : String)
  /-- the next section of a call; `code` is what `generateOTPCode` returns there -/
  | advance (i : Nat) (code : String)
  | sweepExpired
  deriving DecidableEq

def raceStep {η : Type} [DecidableEq η] (hmac : String → η) (blank : η) (st : Scene η) (l : Time × Action) :
    Option (Scene η) :=
  let (now, action) := l
  if now < st.clock then none
  else
    let st : Scene η := { st with clock := now }
    match action with
    | .requestOTPWithPayload payload ttl => some { st with calls := st.calls ++ [.getOrCreate payload ttl] }
    | .verifyOTP code => some { st with calls := st.calls ++ [.get code] }
    | .sweepExpired => some (st.sweepExpired now)
    | .advance i code =>
      match st.calls[i]? with
      | some (.getOrCreate payload ttl) => some (st.getOrCreate blank i payload ttl)
      | some (.setCode entry payload ttl) =>
        st.heap[entry]?.map fun cell => st.setCode now i entry payload ttl (hmac code) cell
      | some (.get code) => some (st.get i code)
      | some (.compare entry code) => st.heap[entry]?.map fun cell => st.compare now i entry (hmac code) cell
      | some (.delete _) => some (st.delete i)
      | none => none

end Xraytool.Otp
