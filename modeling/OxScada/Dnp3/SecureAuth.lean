import OxScada.Dnp3.AppLayer

/-! Secure Authentication v5 on the outstation side: challenges for critical requests, and
the verification of the replies. The keyed hash is a parameter. -/

namespace OxScada.Dnp3
open OxScada.Bytes OxScada.Js

inductive HashName where
  | sha1 | sha256
  deriving DecidableEq, Repr

abbrev Hmac := HashName → Buffer → Buffer → Buffer

inductive Sav5MacAlgorithm where
  | hmacSha1Trunc10 | hmacSha256Trunc8 | hmacSha256Trunc16 | hmacSha1Trunc8
  deriving DecidableEq, Repr

def Sav5MacAlgorithm.code : Sav5MacAlgorithm → UInt8
  | hmacSha1Trunc10 => 2
  | hmacSha256Trunc8 => 3
  | hmacSha256Trunc16 => 4
  | hmacSha1Trunc8 => 5

def Sav5MacAlgorithm.spec : Sav5MacAlgorithm → HashName × ℕ
  | hmacSha1Trunc10 => (.sha1, 10)
  | hmacSha256Trunc8 => (.sha256, 8)
  | hmacSha256Trunc16 => (.sha256, 16)
  | hmacSha1Trunc8 => (.sha1, 8)

def challengeReasonCritical : UInt8 := 1

structure Sav5Challenge where
  challengeSeq : ℕ
  userNumber : ℕ
  macAlgorithm : Sav5MacAlgorithm
  reason : UInt8
  challengeData : Buffer
  deriving DecidableEq, Repr

structure Sav5Reply where
  challengeSeq : ℕ
  userNumber : ℕ
  mac : Buffer
  deriving DecidableEq, Repr

def encodeChallengeObject (c : Sav5Challenge) : Buffer :=
  writeUIntLE 4 c.challengeSeq ++ writeUIntLE 2 c.userNumber ++ [c.macAlgorithm.code, c.reason] ++ c.challengeData

def decodeReplyObject (buf : Buffer) : Except String Sav5Reply :=
  if buf.length < 6 then .error "SAv5 reply object too short"
  else .ok ⟨readUIntLE (buf.take 4), readUIntLE ((buf.drop 4).take 2), buf.drop 6⟩

def computeMac (hmac : Hmac) (key : Buffer) (challenge : Sav5Challenge) (challengeFragment criticalAsdu : Buffer) :
    Buffer :=
  let spec := challenge.macAlgorithm.spec
  (hmac spec.1 key
    (challengeFragment ++ if challenge.reason = challengeReasonCritical then criticalAsdu else [])).take spec.2

def macEquals (a b : Buffer) : Bool := a.length = b.length ∧ a.length ≠ 0 ∧ a = b

/-- A challenge that waits for its reply. `serial` numbers the challenges without wrapping,
which `challengeSeq` does after 2^32 of them. -/
structure PendingChallenge where
  challenge : Sav5Challenge
  expectedUserNumber : ℕ
  expectedAppSeq : ℕ
  challengeFragment : Option Buffer := none
  criticalAsdu : Buffer
  issuedAt : ℤ
  serial : ℕ
  deriving DecidableEq, Repr

structure Sav5Outstation where
  controlDirectionKeys : ℕ → Option Buffer := fun _ => none
  pending : ℕ → Option PendingChallenge := fun _ => none
  csqCounter : ℕ := 0
  defaultAlgorithm : Sav5MacAlgorithm := .hmacSha256Trunc16
  challengeTimeoutMs : ℤ := 5000
  keyed : ∀ association, ∀ p ∈ pending association, (controlDirectionKeys p.expectedUserNumber).isSome := by simp

def Sav5Outstation.unkeyed : Sav5Outstation := {}

inductive Sav5VerifyError where
  | noPendingChallenge | csqMismatch | appSeqMismatch | challengeExpired | challengeFragmentNotBound
  | unexpectedUser | unknownUser | macMismatch
  deriving DecidableEq, Repr

structure VerifiedAsdu where
  criticalAsdu : Buffer
  userNumber : ℕ
  deriving DecidableEq, Repr

namespace Sav5Outstation
variable (sa : Sav5Outstation)

def setControlDirectionKey (userNumber : ℕ) (key : Buffer) : Except String Sav5Outstation :=
  if userNumber < 1 ∨ 0xffff < userNumber then .error "SAv5 user number must be in the range 1..65535"
  else if key.length < 16 then .error "SAv5 Control Direction Session Key must be at least 16 bytes"
  else
    .ok { sa with
      controlDirectionKeys := Function.update sa.controlDirectionKeys userNumber (some key)
      keyed := by
        intro association p hp
        by_cases huser : p.expectedUserNumber = userNumber
        · rw [huser, Function.update_self]
          rfl
        · rw [Function.update_of_ne huser]
          exact sa.keyed association p hp }

def hasUser (userNumber : ℕ) : Bool := (sa.controlDirectionKeys userNumber).isSome

variable (association : ℕ)

def clearAssociation : Sav5Outstation :=
  { sa with
    pending := Function.update sa.pending association none
    keyed := by
      intro other p hp
      by_cases hsame : other = association
      · rw [hsame, Function.update_self] at hp
        cases hp
      · rw [Function.update_of_ne hsame] at hp
        exact sa.keyed other p hp }

/-- `pending.set` with a challenge for a user that has a key. -/
def wait (p : PendingChallenge)
    (huser : (sa.controlDirectionKeys p.expectedUserNumber).isSome) : Sav5Outstation :=
  { sa with
    pending := Function.update sa.pending association (some p)
    keyed := by
      intro other q hq
      by_cases hsame : other = association
      · rw [hsame, Function.update_self] at hq
        obtain rfl := Option.some.inj hq
        exact huser
      · rw [Function.update_of_ne hsame] at hq
        exact sa.keyed other q hq }

theorem clearAssociation_pending :
    (sa.clearAssociation association).pending = Function.update sa.pending association none := rfl

theorem wait_pending (p : PendingChallenge)
    (huser : (sa.controlDirectionKeys p.expectedUserNumber).isSome) :
    (sa.wait association p huser).pending = Function.update sa.pending association (some p) := rfl

/-- Whether a challenge that was issued at `issuedAt` is past its deadline. -/
def expired (issuedAt now : ℤ) : Bool := sa.challengeTimeoutMs < now - issuedAt

def issueChallenge (expectedUserNumber association : ℕ) (criticalAsdu nonce : Buffer) (now : ℤ)
    (appSeq : ℕ) : Except String (Sav5Challenge × Sav5Outstation) :=
  if huser : (sa.controlDirectionKeys expectedUserNumber).isSome then
    if (sa.pending association).any fun existing => !sa.expired existing.issuedAt now then
      .error s!"SAv5: association {association} is already waiting for a reply"
    else
      let challenge : Sav5Challenge :=
        ⟨(sa.csqCounter + 1) % 2 ^ 32, 0, sa.defaultAlgorithm, challengeReasonCritical, nonce⟩
      let p : PendingChallenge :=
        { challenge := challenge
          expectedUserNumber := expectedUserNumber
          expectedAppSeq := appSeq
          criticalAsdu := criticalAsdu
          issuedAt := now
          serial := sa.csqCounter + 1 }
      .ok (challenge, { sa.wait association p huser with csqCounter := sa.csqCounter + 1 })
  else .error s!"SAv5: unknown user {expectedUserNumber}"

def bindChallengeFragment (fragment : Buffer) : Except String Sav5Outstation :=
  match hpending : sa.pending association with
  | none => .error s!"SAv5: no pending challenge for association {association}"
  | some p =>
    let body := encodeChallengeObject p.challenge
    if fragment.length < body.length ∨ fragment.drop (fragment.length - body.length) ≠ body then
      .error "SAv5 challenge fragment does not contain the pending challenge body"
    else .ok (sa.wait association { p with challengeFragment := some fragment } (sa.keyed association p hpending))

def checkReply (hmac : Hmac) (sa : Sav5Outstation) (p : PendingChallenge) (reply : Sav5Reply) (replyAppSeq : ℕ)
    (now : ℤ) : Except Sav5VerifyError VerifiedAsdu :=
  if replyAppSeq % 16 ≠ p.expectedAppSeq then .error .appSeqMismatch
  else if p.challenge.challengeSeq ≠ reply.challengeSeq then .error .csqMismatch
  else if reply.userNumber ≠ p.expectedUserNumber then .error .unexpectedUser
  else if sa.expired p.issuedAt now then .error .challengeExpired
  else
    match p.challengeFragment with
    | none => .error .challengeFragmentNotBound
    | some challengeFragment =>
      match sa.controlDirectionKeys reply.userNumber with
      | none => .error .unknownUser
      | some key =>
        if macEquals (computeMac hmac key p.challenge challengeFragment p.criticalAsdu) reply.mac = false then
          .error .macMismatch
        else .ok ⟨p.criticalAsdu, reply.userNumber⟩

/-- A reply is judged, and its challenge is used up whatever comes of it. -/
def verifyReply (hmac : Hmac) (sa : Sav5Outstation) (reply : Sav5Reply) (association replyAppSeq : ℕ) (now : ℤ) :
    Except Sav5VerifyError VerifiedAsdu × Sav5Outstation :=
  match sa.pending association with
  | none => (.error .noPendingChallenge, sa)
  | some p => (checkReply hmac sa p reply replyAppSeq now, sa.clearAssociation association)

/-- Whether the association waits for a reply. A lost challenge is dropped at its deadline. -/
def isWaiting (now : ℤ) : Bool × Sav5Outstation :=
  match sa.pending association with
  | none => (false, sa)
  | some p => if sa.expired p.issuedAt now then (false, sa.clearAssociation association) else (true, sa)

end Sav5Outstation

def isCriticalFunction (func : UInt8) : Bool :=
  func ∈ [FunctionCode.select, FunctionCode.operate, FunctionCode.directOperate, FunctionCode.directOperateNr,
    FunctionCode.coldRestart, FunctionCode.warmRestart, FunctionCode.enableUnsolicited,
    FunctionCode.disableUnsolicited, FunctionCode.write]

end OxScada.Dnp3
