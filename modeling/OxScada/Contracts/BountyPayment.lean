import OxScada.Bytes.Buffer
import OxScada.Runs.Reachable

/-! The contract that pays bounties. A payment or a withdrawal hands control to foreign code,
which may call the contract again before it returns. Each such call has a frame that keeps the
storage it began with, and a call that fails restores it. -/

namespace OxScada.Contracts
open OxScada.Bytes OxScada.Runs

abbrev Address := ℕ

inductive BountyStatus where
  | Open | Claimed | Completed | Paid | Expired | Disputed | Cancelled
  deriving DecidableEq

structure Bounty where
  issueNumber : ℕ := 0
  amount : ℕ := 0
  token : Address := 0
  status : BountyStatus := .Open
  claimant : Address := 0
  claimedAt : ℕ := 0
  claimTimeout : ℕ := 0
  metadata : Text := []
  isAgentFriendly : Bool := false
  createdAt : ℕ := 0
  createdBy : Address := 0

structure Payment where
  issueNumber : ℕ := 0
  prNumber : ℕ := 0
  recipients : List Address := []
  amounts : List ℕ := []
  paidAt : ℕ := 0

structure BountyPaid where
  issueNumber : ℕ
  prNumber : ℕ
  recipient : Address
  amount : ℕ
  token : Address

/-- The storage of the contract, with the log of its `BountyPaid` events. -/
structure Storage where
  bounties : ℕ → Bounty
  payments : ℕ → Payment
  issueNumbers : List ℕ
  defaultClaimTimeout : ℕ
  paused : Bool
  totalBountiesRegistered : ℕ
  totalPaidOut : ℕ
  /-- The guard of the functions that are not reentrant. -/
  entered : Bool
  paid : List BountyPaid

inductive Role where
  | admin | maintainer | payout
  deriving DecidableEq

/-- What a call reads of its surroundings. The roles are those of the sender, a token may refuse
to tell the balance, and a block after the first has a positive timestamp. -/
structure Message where
  sender : Address
  hasRole : Role → Bool
  timestamp : ℕ
  timestamp_pos : 0 < timestamp
  balance : ℕ
  tokenBalance : Option ℕ

inductive Revert where
  | message (text : String)
  | unauthorized
  | reentrant
  | overflow
  | token
  deriving DecidableEq

def require (condition : Prop) [Decidable condition] (text : String) : Except Revert Unit :=
  if condition then .ok () else .error (.message text)

def checkedAdd (a b : ℕ) : Except Revert ℕ := if a + b < 2 ^ 256 then .ok (a + b) else .error .overflow

namespace Storage

def start : Storage where
  bounties := fun _ => {}
  payments := fun _ => {}
  issueNumbers := []
  defaultClaimTimeout := 14 * 86400
  paused := false
  totalBountiesRegistered := 0
  totalPaidOut := 0
  entered := false
  paid := []

/-! ### Modifiers -/

def onlyRole (msg : Message) (role : Role) : Except Revert Unit := if msg.hasRole role then .ok () else .error .unauthorized

section Functions
variable (st : Storage) (msg : Message)

def whenNotPaused : Except Revert Unit := require (st.paused = false) "Contract is paused"

variable (issueNumber : ℕ)

def bountyExists : Except Revert Unit :=
  require (0 < (st.bounties issueNumber).createdAt) "Bounty does not exist"

def nonReentrant : Except Revert Unit := if st.entered then .error .reentrant else .ok ()

def setBounty (bounty : Bounty) : Storage :=
  { st with bounties := Function.update st.bounties issueNumber bounty }

/-! ### Bounties -/

def registerBounty (issueNumber amount : ℕ) (token : Address) (metadata : Text) (isAgentFriendly : Bool) : Except Revert Storage := do
  onlyRole msg .maintainer
  st.whenNotPaused
  require (0 < issueNumber) "Invalid issue number"
  require (0 < amount) "Amount must be greater than 0"
  require ((st.bounties issueNumber).createdAt = 0) "Bounty already exists"
  let totalBountiesRegistered ← checkedAdd st.totalBountiesRegistered 1
  return { st.setBounty issueNumber
      { issueNumber, amount, token, metadata, isAgentFriendly
        claimTimeout := st.defaultClaimTimeout
        createdAt := msg.timestamp
        createdBy := msg.sender } with
    issueNumbers := st.issueNumbers ++ [issueNumber]
    totalBountiesRegistered }

def claimBounty (claimant : Address) : Except Revert Storage := do
  onlyRole msg .payout
  st.whenNotPaused
  st.bountyExists issueNumber
  let bounty := st.bounties issueNumber
  require (bounty.status = .Open) "Bounty not available"
  require (claimant ≠ 0) "Invalid claimant address"
  let _expiresAt ← checkedAdd msg.timestamp bounty.claimTimeout
  return st.setBounty issueNumber { bounty with status := .Claimed, claimant, claimedAt := msg.timestamp }

def expireClaim : Except Revert Storage := do
  st.bountyExists issueNumber
  let bounty := st.bounties issueNumber
  require (bounty.status = .Claimed) "Bounty not claimed"
  let expiresAt ← checkedAdd bounty.claimedAt bounty.claimTimeout
  require (expiresAt ≤ msg.timestamp) "Claim has not expired yet"
  return st.setBounty issueNumber { bounty with status := .Open, claimant := 0, claimedAt := 0 }

/-! ### Payments -/

/-- The effects of both payments, which come before the transfers. -/
def finalize (issueNumber prNumber : ℕ) (recipients : List Address) (amounts : List ℕ) (total : ℕ) : Except Revert Storage := do
  let totalPaidOut ← checkedAdd st.totalPaidOut total
  return { st.setBounty issueNumber { st.bounties issueNumber with status := .Paid } with
    entered := true
    payments := Function.update st.payments issueNumber
      { issueNumber, prNumber, recipients, amounts, paidAt := msg.timestamp }
    totalPaidOut }

def checkBalance (token : Address) (amount : ℕ) : Except Revert Unit :=
  if token = 0 then require (amount ≤ msg.balance) "Insufficient contract balance"
  else match msg.tokenBalance with
    | some balance => require (amount ≤ balance) "Insufficient token balance"
    | none => .error .token

def payBounty (issueNumber prNumber : ℕ) (recipient : Address) : Except Revert (Storage × List (Address × ℕ)) := do
  onlyRole msg .payout
  st.whenNotPaused
  st.nonReentrant
  st.bountyExists issueNumber
  let bounty := st.bounties issueNumber
  require (bounty.status = .Claimed) "Bounty not claimed"
  require (bounty.claimant = recipient) "Recipient must be the claimant"
  require (recipient ≠ 0) "Invalid recipient"
  let st ← st.finalize msg issueNumber prNumber [recipient] [bounty.amount] bounty.amount
  checkBalance msg bounty.token bounty.amount
  return (st, [(recipient, bounty.amount)])

def sumAmounts : ℕ → List ℕ → Except Revert ℕ
  | totalAmount, [] => .ok totalAmount
  | totalAmount, amount :: rest => do
    let totalAmount ← checkedAdd totalAmount amount
    sumAmounts totalAmount rest

def payBountyMultiple (issueNumber prNumber : ℕ) (recipients : List Address) (amounts : List ℕ) :
    Except Revert (Storage × List (Address × ℕ)) := do
  onlyRole msg .payout
  st.whenNotPaused
  st.nonReentrant
  st.bountyExists issueNumber
  require (recipients.length = amounts.length) "Arrays length mismatch"
  require (0 < recipients.length) "No recipients specified"
  let bounty := st.bounties issueNumber
  require (bounty.status = .Claimed) "Bounty not claimed"
  let totalAmount ← sumAmounts 0 amounts
  require (totalAmount = bounty.amount) "Total amounts must equal bounty amount"
  checkBalance msg bounty.token totalAmount
  let st ← st.finalize msg issueNumber prNumber recipients amounts totalAmount
  return (st, recipients.zip amounts)

/-! ### Disputes -/

def disputeBounty : Except Revert Storage := do
  onlyRole msg .maintainer
  st.bountyExists issueNumber
  let bounty := st.bounties issueNumber
  require (bounty.status = .Claimed ∨ bounty.status = .Completed) "Can only dispute claimed or completed bounties"
  return st.setBounty issueNumber { bounty with status := .Disputed }

def resolveDispute (inFavorOfClaimant : Bool) : Except Revert Storage := do
  onlyRole msg .maintainer
  st.bountyExists issueNumber
  let bounty := st.bounties issueNumber
  require (bounty.status = .Disputed) "Bounty not disputed"
  if inFavorOfClaimant then return st.setBounty issueNumber { bounty with status := .Claimed }
  else return st.setBounty issueNumber { bounty with status := .Open, claimant := 0, claimedAt := 0 }

def cancelBounty : Except Revert Storage := do
  onlyRole msg .maintainer
  st.bountyExists issueNumber
  let bounty := st.bounties issueNumber
  require (bounty.status ≠ .Paid) "Cannot cancel paid bounty"
  return st.setBounty issueNumber { bounty with status := .Cancelled }

/-! ### Administration -/

def setDefaultClaimTimeout (newTimeout : ℕ) : Except Revert Storage := do
  onlyRole msg .maintainer
  require (86400 ≤ newTimeout ∧ newTimeout ≤ 30 * 86400) "Invalid timeout range"
  return { st with defaultClaimTimeout := newTimeout }

def setPaused (paused : Bool) : Except Revert Storage := do
  onlyRole msg .admin
  return { st with paused }

def withdrawNative (recipient : Address) (amount : ℕ) : Except Revert Unit := do
  onlyRole msg .admin
  require (recipient ≠ 0) "Invalid recipient"
  require (amount ≤ msg.balance) "Insufficient balance"

def withdrawToken (recipient : Address) : Except Revert Unit := do
  onlyRole msg .admin
  require (recipient ≠ 0) "Invalid recipient"

end Functions

end Storage

/-! ### Calls -/

inductive BountyCall where
  | registerBounty (issueNumber amount : ℕ) (token : Address) (metadata : Text) (isAgentFriendly : Bool)
  | claimBounty (issueNumber : ℕ) (claimant : Address)
  | expireClaim (issueNumber : ℕ)
  | payBounty (issueNumber prNumber : ℕ) (recipient : Address)
  | payBountyMultiple (issueNumber prNumber : ℕ) (recipients : List Address) (amounts : List ℕ)
  | disputeBounty (issueNumber : ℕ) (reason : Text)
  | resolveDispute (issueNumber : ℕ) (inFavorOfClaimant : Bool)
  | cancelBounty (issueNumber : ℕ) (reason : Text)
  | setDefaultClaimTimeout (newTimeout : ℕ)
  | pause
  | unpause
  | withdrawNative (recipient : Address) (amount : ℕ)
  | withdrawToken (token recipient : Address) (amount : ℕ)

/-- What a frame does once the foreign code returns: foreign code that called the contract goes
on by itself, a withdrawal is done, and a payment has transfers left, the first of which is the
one that returns. -/
inductive Pending where
  | foreign
  | withdrawal
  | payment (issueNumber prNumber : ℕ) (transfers : List (Address × ℕ))

structure Frame where
  saved : Storage
  pending : Pending

structure BountyPayment where
  storage : Storage
  frames : List Frame

namespace BountyPayment

def run (st : Storage) (msg : Message) : BountyCall → Except Revert (Storage × Option Pending)
  | .registerBounty issueNumber amount token metadata isAgentFriendly =>
    (st.registerBounty msg issueNumber amount token metadata isAgentFriendly).map (·, none)
  | .claimBounty issueNumber claimant => (st.claimBounty msg issueNumber claimant).map (·, none)
  | .expireClaim issueNumber => (st.expireClaim msg issueNumber).map (·, none)
  | .payBounty issueNumber prNumber recipient =>
    (st.payBounty msg issueNumber prNumber recipient).map fun result => (result.1, some (.payment issueNumber prNumber result.2))
  | .payBountyMultiple issueNumber prNumber recipients amounts =>
    (st.payBountyMultiple msg issueNumber prNumber recipients amounts).map fun result =>
      (result.1, some (.payment issueNumber prNumber result.2))
  | .disputeBounty issueNumber _ => (st.disputeBounty msg issueNumber).map (·, none)
  | .resolveDispute issueNumber inFavorOfClaimant => (st.resolveDispute msg issueNumber inFavorOfClaimant).map (·, none)
  | .cancelBounty issueNumber _ => (st.cancelBounty msg issueNumber).map (·, none)
  | .setDefaultClaimTimeout newTimeout => (st.setDefaultClaimTimeout msg newTimeout).map (·, none)
  | .pause => (st.setPaused msg true).map (·, none)
  | .unpause => (st.setPaused msg false).map (·, none)
  | .withdrawNative recipient amount => (Storage.withdrawNative msg recipient amount).map fun _ => (st, some .withdrawal)
  | .withdrawToken _ recipient _ => (Storage.withdrawToken msg recipient).map fun _ => (st, some .withdrawal)

inductive BountyAct where
  | call (msg : Message) (call : BountyCall)
  /-- A contract that is not this one begins to run. -/
  | foreignBegins
  /-- The foreign code of the innermost frame returns, or fails. -/
  | returns (success : Bool)

def transferred (st : Storage) (issueNumber prNumber : ℕ) (transfer : Address × ℕ) : Storage :=
  { st with paid := st.paid ++ [⟨issueNumber, prNumber, transfer.1, transfer.2, (st.bounties issueNumber).token⟩] }

def resume (st : Storage) (saved : Storage) : Pending → Storage × List Frame
  | .foreign | .withdrawal => (st, [])
  | .payment _ _ [] => ({ st with entered := false }, [])
  | .payment issueNumber prNumber [transfer] => ({ transferred st issueNumber prNumber transfer with entered := false }, [])
  | .payment issueNumber prNumber (transfer :: next :: rest) =>
    (transferred st issueNumber prNumber transfer, [⟨saved, .payment issueNumber prNumber (next :: rest)⟩])

def step (s : BountyPayment) : BountyAct → Option BountyPayment
  | .call msg call =>
    match run s.storage msg call with
    | .error _ => some s
    | .ok (st, none) => some { s with storage := st }
    | .ok (st, some pending) => some ⟨st, ⟨s.storage, pending⟩ :: s.frames⟩
  | .foreignBegins => some { s with frames := ⟨s.storage, .foreign⟩ :: s.frames }
  | .returns success =>
    match s.frames with
    | [] => none
    | frame :: rest =>
      if success then
        let result := resume s.storage frame.saved frame.pending
        some ⟨result.1, result.2 ++ rest⟩
      else some ⟨frame.saved, rest⟩

def start : BountyPayment := ⟨.start, []⟩

end BountyPayment

end OxScada.Contracts
