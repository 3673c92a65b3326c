import RaftReplica.Message
import RaftReplica.Peer.Basic
import RaftReplica.Time.Clock

/-!
# Calls to peers

A call goes to a peer that is connected and ends in exactly one way: with the reply, with the remote's
refusal, at its deadline, or by being cancelled. A response that is only there when the deadline
passes comes too late. A cancellation wins over a response of the same time and loses to the deadline
of the same time, unless it came before the call.
-/

namespace RaftReplica

/-- What bounds a call. Times are nanoseconds. -/
structure CallLimits where
  timeout : Nat
  /-- When calls are called off, if they are. -/
  cancelledAt : Option Nat

/-- The end of a call. -/
structure CallEnd where
  time : Nat
  result : Except PeerError Reply

/-- What a remote gives back, and when. -/
structure Response where
  time : Nat
  result : Except Status Reply

namespace CallLimits

/-- When a call made at `now` is given up. -/
def deadline (limits : CallLimits) (now : Nat) : Nat := Clock.wakeTime (now + limits.timeout)

/-- How a call to a connected peer ends if nobody calls it off. -/
def endOf (limits : CallLimits) (name : String) (now : Nat) (response : Option Response) : CallEnd :=
  let deadline := limits.deadline now
  match response with
  | none => ⟨deadline, .error (.deadlineExceeded name)⟩
  | some response =>
    if deadline ≤ response.time then ⟨deadline, .error (.deadlineExceeded name)⟩
    else
      match response.result with
      | .ok reply => ⟨response.time, .ok reply⟩
      | .error status => ⟨response.time, .error (.rpc name status.received)⟩

/-- How a call to a connected peer ends. -/
def conclude (limits : CallLimits) (name : String) (now : Nat) (response : Option Response) :
    CallEnd :=
  let ended := limits.endOf name now response
  match limits.cancelledAt with
  | none => ended
  | some time =>
    let expired := ended.time = limits.deadline now
    if time ≤ now ∨ time < ended.time ∨ (time = ended.time ∧ ¬ expired) then
      ⟨max time now, .error (.cancelled name)⟩
    else ended

end CallLimits

/-! ## Remotes -/

/-- How a remote treats what it is asked. -/
inductive Conduct where
  | grant
  | deny
  /-- It always gives the same replies. -/
  | reply (vote : VoteReply) (append : AppendReply)
  | refuse (status : Status)
  | silent

/-- A remote of known conduct, and how long it takes to respond. -/
structure Remote where
  name : String
  delay : Nat
  conduct : Conduct

namespace Remote

/-- The reply of a remote that consents or does not. -/
def consent (remote : Remote) (granted : Bool) : Request → Reply
  | .vote request => .vote ⟨remote.name, request.term, granted⟩
  | .append request =>
    let index := if granted then request.prevLogIndex + request.entries.length else 0
    .append ⟨remote.name, request.term, granted, index, request.leaderCommit⟩

/-- What the remote gives back, if it gives back anything. -/
def resultOf? (remote : Remote) (request : Request) : Option (Except Status Reply) :=
  match remote.conduct, request with
  | .grant, request => some (.ok (remote.consent true request))
  | .deny, request => some (.ok (remote.consent false request))
  | .reply vote _, .vote _ => some (.ok (.vote vote))
  | .reply _ append, .append _ => some (.ok (.append append))
  | .refuse status, _ => some (.error status)
  | .silent, _ => none

/-- What the remote gives back to a request that it gets at `now`. -/
def respond? (remote : Remote) (now : Nat) (request : Request) : Option Response :=
  (remote.resultOf? request).map fun result => ⟨now + remote.delay, result⟩

/-- A call to a remote that sits on a seat. -/
def call (remote : Remote) (seat : Seat) (limits : CallLimits) (request : Request) (now : Nat) :
    CallEnd :=
  if seat.connected then limits.conclude seat.peer.name now (remote.respond? now request)
  else ⟨now, .error .notConnected⟩

/-- Calls to remotes, each made when the one before has ended. -/
def callInTurn (limits : CallLimits) (request : Request) :
    (now : Nat) → List (Seat × Remote) → List (Except PeerError Reply)
  | _, [] => []
  | now, (seat, remote) :: rest =>
    let ended := remote.call seat limits request now
    ended.result :: callInTurn limits request ended.time rest

end Remote

end RaftReplica
