import Xraytool.Lib.Run
import Xraytool.Lib.Versions
import Xraytool.Spec.Repository

/-! Referral rewards under READ COMMITTED. On `payment.completed` the referral plugin reads the payment and its user,
and then `AddReferralReward` counts, credits and inserts in one transaction. Meanwhile administrators delete users with
their data; the statements of a deletion on subscriptions, devices and notifications are left out. -/

namespace Xraytool.Referral

open ReadCommitted

/-- A row of `users` with the column the plugin reads. -/
structure Account extends User where
  referredBy : Option String := none
  deriving DecidableEq

structure Reward where
  referrerID : String
  referredID : String
  paymentID : Int
  amount : Int
  deriving DecidableEq

/-- What the UPDATE of the balance did. -/
structure Credit where
  userID : String
  amount : Int
  deriving DecidableEq

/-- The statement a call issues next, with the local variables that are still used. -/
inductive Point where
  | idle
  -- `Handle`
  | findPayment (paymentID : Int)
  | findUser (payment : Payment)
  -- the transaction of `AddReferralReward`
  | countRewards (r : Reward)
  | credit (r : Reward)
  | insert (r : Reward) (credit : Option Credit)
  | commitReward (r : Reward) (credit : Option Credit)
  -- the transaction of `DeleteUserAndData`
  | deletePayments (userID : String)
  | deleteRewards (userID : String)
  | deleteUser (userID : String)
  | commitDelete (userID : String)
  deriving DecidableEq

/-- A row of `referral_rewards` that was committed, with the credit of its transaction. -/
structure Award where
  reward : Reward
  credit : Option Credit
  deriving DecidableEq

structure Scene where
  users : Versions Nat String Account
  payments : Versions Nat Int Payment
  /-- by their payment, which has a unique index -/
  rewards : Versions Nat Int Reward
  calls : Nat → Point := fun _ => .idle
  awards : List Award := []

namespace Scene

variable (st : Scene)

def goTo (i : Nat) (point : Point) : Scene := { st with calls := Function.update st.calls i point }

def commit (st : Scene) (i : Nat) : Scene :=
  { st with users := st.users.commit i, payments := st.payments.commit i, rewards := st.rewards.commit i }

def rollback (st : Scene) (i : Nat) : Scene :=
  { st with users := st.users.rollback i, payments := st.payments.rollback i, rewards := st.rewards.rollback i }

/-- The transaction of a reward is committed. -/
def award (i : Nat) (r : Reward) (credit : Option Credit) : Scene :=
  { st with
    users := st.users.commit i
    payments := st.payments.commit i
    rewards := st.rewards.commit i
    awards := st.awards ++ [⟨r, credit⟩] }

/-- The error ends the call; its transaction is rolled back. -/
def abort (i : Nat) : Scene := (st.rollback i).goTo i .idle

/-- What follows from the user of the payment: a quarter of the amount goes to the referrer. -/
def rewardFor (payment : Payment) (user : Account) : Option Reward :=
  user.referredBy.bind fun referrerID =>
    let reward := payment.amount.tdiv 4
    if 0 < reward then some ⟨referrerID, user.id, payment.id, reward⟩ else none

/-- The UPDATE of the balance. Its number of rows is not looked at. -/
def credit (i : Nat) (r : Reward) : Option Scene :=
  match st.users.get i r.referrerID with
  | none => some (st.goTo i (.insert r none))
  | some user =>
    (st.users.write i r.referrerID (some { user with balance := user.balance + r.amount })).map fun users =>
      { st with users := users }.goTo i (.insert r (some ⟨user.id, r.amount⟩))

/-- The INSERT waits for a transaction that has the payment in its index, and fails if the payment has a reward. -/
def insert (i : Nat) (r : Reward) (credit : Option Credit) : Option Scene :=
  (st.rewards.write i r.paymentID (some r)).map fun rewards =>
    if (st.rewards.get i r.paymentID).isSome then st.abort i
    else { st with rewards := rewards }.goTo i (.commitReward r credit)

def deleteUser (i : Nat) (userID : String) : Option Scene :=
  match st.users.get i userID with
  | none => some (st.goTo i (.commitDelete userID))
  | some _ => (st.users.write i userID none).map fun users => { st with users := users }.goTo i (.commitDelete userID)

def issue (i : Nat) (st : Scene) : Point → Option Scene
  | .idle => none
  | .findPayment paymentID => match st.payments.get i paymentID with
    | none => some (st.goTo i .idle)
    | some payment => some (st.goTo i (.findUser payment))
  | .findUser payment => match (st.users.get i payment.userID).bind (rewardFor payment) with
    | none => some (st.goTo i .idle)
    | some r => some (st.goTo i (.countRewards r))
  | .countRewards r =>
    some (if (st.rewards.get i r.paymentID).isSome then st.goTo i .idle else st.goTo i (.credit r))
  | .credit r => st.credit i r
  | .insert r credit => st.insert i r credit
  | .commitReward r credit => some ((st.award i r credit).goTo i .idle)
  | .deletePayments userID =>
    (st.payments.change i (·.userID == userID) fun _ => none).map fun payments =>
      { st with payments := payments }.goTo i (.deleteRewards userID)
  | .deleteRewards userID =>
    (st.rewards.change i (fun r => r.referrerID == userID || r.referredID == userID) fun _ => none).map fun rewards =>
      { st with rewards := rewards }.goTo i (.deleteUser userID)
  | .deleteUser userID => st.deleteUser i userID
  | .commitDelete _ => some ((st.commit i).goTo i .idle)

end Scene

inductive Action where
  | paymentCompleted (paymentID : Int)
  | deleteUserAndData (userID : String)
  | statement
  | failure
  deriving DecidableEq

def referralStep (st : Scene) (l : Nat × Action) : Option Scene :=
  let (i, action) := l
  match action with
  | .paymentCompleted paymentID => if st.calls i = .idle then some (st.goTo i (.findPayment paymentID)) else none
  | .deleteUserAndData userID => if st.calls i = .idle then some (st.goTo i (.deletePayments userID)) else none
  | .statement => st.issue i (st.calls i)
  | .failure => some (st.abort i)

end Xraytool.Referral
