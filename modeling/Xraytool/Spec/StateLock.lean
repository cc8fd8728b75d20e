import Xraytool.Lib.Run
import Xraytool.Spec.Repository

/-! The lock file of the traffic statistics. `withStateLock` creates the file exclusively, runs `fn` and removes the
file again; a file older than two minutes is taken to be left behind by a crash and is removed. Every operation goes by
the path and is one step of one caller. Callers are goroutines of any process. -/

namespace Xraytool.StateLock

def stateLockAttempts : Nat := 50

def stateLockStaleAfter : Int := 120 * Time.second

/-- A file at the path of the lock. The number tells apart the files created there one after the other. -/
structure LockFile where
  id : Nat
  modTime : Time
  deriving DecidableEq

/-- Where a caller of `withStateLock` is. -/
inductive Point where
  | idle
  /-- before the exclusive create -/
  | opening (attempt : Nat)
  /-- the create has found a file -/
  | looking (attempt : Nat)
  /-- before the removal of the file that was stale when it was looked at -/
  | removing (attempt : Nat) (file : LockFile)
  | waiting (attempt : Nat)
  /-- the file is created and still to be closed -/
  | closing (file : LockFile)
  /-- the close has failed, and the file is to be removed -/
  | discarding (file : LockFile)
  /-- in `fn` -/
  | running (file : LockFile)
  /-- before the deferred removal -/
  | releasing (file : LockFile) (err : Option Err)
  | returned (err : Option Err)
  | crashed
  deriving DecidableEq

namespace Point

/-- The file a caller has created and will remove. -/
def owns : Point → Option LockFile
  | closing f | discarding f | running f | releasing f _ => some f
  | _ => none

/-- The file of a live holder that has not finished `fn`. -/
def holding : Point → Option LockFile
  | closing f | running f => some f
  | _ => none

/-- The file a caller has found stale. -/
def foundStale : Point → Option LockFile
  | removing _ f => some f
  | _ => none

/-- The file a pending removal is meant for. -/
def removes : Point → Option LockFile
  | removing _ f | discarding f | releasing f _ => some f
  | _ => none

/-- Where a removal leads, whatever comes of it. -/
def afterRemoval : Point → Point
  | removing attempt _ =>
    if attempt + 1 < stateLockAttempts then opening (attempt + 1)
    else returned (some (.text "timeout waiting for stats lock file"))
  | discarding _ => returned (some (.wrap "close stats lock file" .storage))
  | releasing _ err => returned err
  | p => p

end Point

structure Scene where
  /-- the file at the path -/
  lock : Option LockFile := none
  clock : Time := 0
  /-- the number of the next file -/
  nextID : Nat := 0
  callers : List Point
  deriving DecidableEq

namespace Scene

def point (st : Scene) (i : Nat) : Point := st.callers.getD i .idle

def goTo (st : Scene) (i : Nat) (p : Point) : Scene := { st with callers := st.callers.set i p }

end Scene

inductive Label where
  | call (i : Nat) (mkdirFails : Bool)
  /-- the context is found to be done -/
  | cancelled (i : Nat) (err : Err)
  | openFile (i : Nat) (fails : Bool)
  | stat (i : Nat) (fails : Bool)
  | timer (i : Nat)
  | close (i : Nat) (fails : Bool)
  | fn (i : Nat) (err : Option Err)
  | remove (i : Nat) (fails : Bool)
  | crash (i : Nat)
  | tick (now : Time)
  deriving DecidableEq

/-- One step of `withStateLock` by one caller, a crash, or the passing of time. Time does not run past the age at which the
lock of a live holder is stale before the holder has finished `fn`. -/
def lockStep (statePath : String) (st : Scene) : Label → Option Scene
  | .call i mkdirFails => match st.point i with
    | .idle | .returned _ =>
      if statePath = "" then some (st.goTo i (.returned (some (.text "stats state path is empty"))))
      else if mkdirFails then some (st.goTo i (.returned (some (.wrap "creating stats lock directory" .storage))))
      else some (st.goTo i (.opening 0))
    | _ => none
  | .cancelled i err => match st.point i with
    | .opening _ | .waiting _ => some (st.goTo i (.returned (some err)))
    | _ => none
  | .openFile i fails => match st.point i with
    | .opening attempt =>
      if fails then some (st.goTo i (.returned (some (.wrap "create stats lock file" .storage))))
      else match st.lock with
        | some _ => some (st.goTo i (.looking attempt))
        | none =>
          let file : LockFile := ⟨st.nextID, st.clock⟩
          some { st.goTo i (.closing file) with lock := some file, nextID := st.nextID + 1 }
    | _ => none
  | .stat i fails => match st.point i with
    | .looking attempt => match st.lock with
      | some file =>
        if ¬ fails ∧ stateLockStaleAfter < st.clock - file.modTime then some (st.goTo i (.removing attempt file))
        else some (st.goTo i (.waiting attempt))
      -- the file is gone by now
      | none => some (st.goTo i (.waiting attempt))
    | _ => none
  | .timer i => match st.point i with
    | .waiting attempt =>
      if attempt + 1 < stateLockAttempts then some (st.goTo i (.opening (attempt + 1)))
      else some (st.goTo i (.returned (some (.text "timeout waiting for stats lock file"))))
    | _ => none
  | .close i fails => match st.point i with
    | .closing file => some (st.goTo i (if fails then .discarding file else .running file))
    | _ => none
  | .fn i err => match st.point i with
    | .running file => some (st.goTo i (.releasing file err))
    | _ => none
  -- the removal goes by the path, and its error is dropped
  | .remove i fails => match (st.point i).removes with
    | some _ =>
      let st' := st.goTo i (st.point i).afterRemoval
      some (if fails then st' else { st' with lock := none })
    | none => none
  | .crash i => some (st.goTo i .crashed)
  | .tick now =>
    if st.clock ≤ now ∧ ∀ p ∈ st.callers, ∀ file ∈ p.holding, now - file.modTime ≤ stateLockStaleAfter then
      some { st with clock := now }
    else none

end Xraytool.StateLock
