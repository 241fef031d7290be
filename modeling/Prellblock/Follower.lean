import Prellblock.Env
import Prellblock.State

/-!
# The follower's handlers (`praftbft/follower.rs`)

`handle_prepare_message`, `handle_append_message`, `handle_commit_message(_inner)` and
`request_view_change`, as functions of the replica's mutable state. Each handler first runs
its checks, every one of which returns early; the checks are an `Except Abort` chain here, in
the order of the source, and only when all pass does the handler write the round state.
-/

namespace Prellblock
set_option autoImplicit false

/-- The mutable parts of a replica: its follower state, the blocks written to storage and to the
world state, and the queue of `(arrival, transaction)` pairs. -/
structure Node where
  followerState : FollowerState
  blocks : List Block
  queue : List (Nat × SignedTransaction)
  worldState : List Block
deriving DecidableEq

/-- A replica as `PRaftBFT::new` starts it. -/
def Node.new (window : Nat) : Node := ⟨FollowerState.new window, [], [], []⟩

/-- Where a handler panics. -/
inductive PanicSite
  /-- `supermajority_reached` with fewer than four peers. -/
  | tooFewPeers
  /-- `round_state_mut(block_number).unwrap()`. -/
  | roundStateMut
  /-- The buffered message is not a Commit (`unreachable!()`). -/
  | unreachable
  /-- The slot retired by `round_states.increment` is not `Committed`. -/
  | retiredNotCommitted
  /-- The slot retired by `round_states.increment` still buffers a Commit. -/
  | retiredBuffered
  /-- `handle_message` on an acknowledgement (`unimplemented!()`). -/
  | unimplemented
deriving DecidableEq

/-- How one step of a replica ends. -/
inductive Reply
  | ok (response : ConsensusMessage)
  | err (error : Error)
  | panic (site : PanicSite)
  /-- Suspended in `follower_state_in_block`: the message is for a later height. -/
  | waits
  /-- A background step, which has no reply. -/
  | done
deriving DecidableEq

/-- A step's result: the replica afterwards, the messages it broadcast, and its reply. -/
structure Handled where
  node : Node
  broadcasts : List ConsensusMessage
  reply : Reply

/-- How a handler's checks stop it before it writes the round state. -/
inductive Abort
  /-- `return Err(error)`. -/
  | reject (error : Error)
  /-- `self.request_view_change(follower_state).await; return Err(error)`. -/
  | faulty (error : Error)
  /-- A Commit before its Append: keep it in its slot and return `WrongPhase`. -/
  | buffer (blockNumber : Nat) (message : ConsensusMessage) (current : PhaseName)
  | panic (site : PanicSite)
deriving DecidableEq

/-- One check of a handler: go on when `c` holds, stop with `a` otherwise. -/
def check (c : Bool) (a : Abort) : Except Abort Unit := if c then .ok () else .error a

/-- A follower-state call under `?`. -/
def liftError {α : Type} (x : Except Error α) : Except Abort α := x.mapError .reject

/-- `follower_state_in_block`: a handler for `blockNumber` runs once the committed height has
reached `blockNumber - 1`; before that it waits. -/
def followerStateInBlock (fs : FollowerState) (blockNumber : Nat) : Bool :=
  blockNumber ≤ fs.blockNumber + 1

/-- `if !self.supermajority_reached(len) { self.request_view_change(..); return Err(..) }`. -/
def checkSupermajority (env : Env) (number : Nat) : Except Abort Unit :=
  match env.supermajorityReached number with
  | none => .error (.panic .tooFewPeers)
  | some false => .error (.faulty .notEnoughSignatures)
  | some true => .ok ()

/-- The loop over a signature map (lines 134-147 and 316-329): an entry whose signature does
not verify requests a view change; a signer that is not an RPU is returned by `?` alone. -/
def verifySignatures (env : Env) (message : ConsensusMessage) :
    List (PeerId × Signature) → Except Abort Unit
  | [] => .ok ()
  | (peerId, signature) :: rest =>
    if !env.verify peerId message signature then .error (.faulty .invalidSignature)
    else if !env.verifyIsRpu peerId then .error (.reject .permissionDenied)
    else verifySignatures env message rest

/-- The loop over an Append's transactions (lines 157-175): a bad client signature or a
refused permission requests a view change. -/
def verifyTransactions (env : Env) : List SignedTransaction → Except Abort Unit
  | [] => .ok ()
  | tx :: rest =>
    if !env.verifyTransaction tx then .error (.faulty .invalidSignature)
    else if !env.verifyPermission tx.signer tx.payload then .error (.faulty .permissionDenied)
    else verifyTransactions env rest

namespace Node

/-- `PRaftBFT::request_view_change`: move the next term's view phase to `ViewChanging` (a
refusal of `set_view_phase` is only logged) and broadcast `ViewChange` for that term. -/
def requestViewChange (node : Node) : Node × List ConsensusMessage :=
  let requested := node.followerState.leaderTerm + 1
  let fs := match node.followerState.setViewPhase requested (.viewChanging ⟨.empty⟩) with
    | .ok fs => fs
    | .error _ => node.followerState
  ({ node with followerState := fs }, [.viewChange requested])

/-- Carry out a stopped handler's early return. -/
def abort (node : Node) : Abort → Handled
  | .reject error => ⟨node, [], .err error⟩
  | .faulty error => ⟨node.requestViewChange.1, node.requestViewChange.2, .err error⟩
  | .buffer blockNumber message current =>
    match node.followerState.updateRoundState blockNumber
        (fun rs => { rs with bufferedCommitMessage := some message }) with
    | some fs => ⟨{ node with followerState := fs }, [], .err (.wrongPhase current .append)⟩
    | none => ⟨node, [], .panic .roundStateMut⟩
  | .panic site => ⟨node, [], .panic site⟩

/-- Lines 331-363 of `handle_commit_message_inner`: mark the slot committed, retire the oldest
slot, advance the committed height, and write the block to storage, queue and world state. -/
def commitBlock (node : Node) (blockNumber : Nat) (blockHash : BlockHash) (body : Body)
    (signatures : SignatureList) : Handled :=
  match node.followerState.updateRoundState blockNumber
      (fun rs => { rs with phase := .committed blockHash }) with
  | none => ⟨node, [], .panic .roundStateMut⟩
  | some fs =>
    let retired := fs.roundStates.increment {}
    let fs := { fs with roundStates := retired.2 }
    if !retired.1.phase.isCommitted then
      ⟨{ node with followerState := fs }, [], .panic .retiredNotCommitted⟩
    else if retired.1.bufferedCommitMessage.isSome then
      ⟨{ node with followerState := fs }, [], .panic .retiredBuffered⟩
    else
      let block : Block := { body, signatures }
      ⟨{ followerState := { fs with blockNumber }
         blocks := node.blocks ++ [block]
         queue := node.queue.filter fun e => !block.body.transactions.contains e.2
         worldState := node.worldState ++ [block] }, [], .ok .ackCommit⟩

end Node

/-- The checks of `handle_prepare_message` (lines 46-60). -/
def prepareChecks (env : Env) (fs : FollowerState) (peerId : PeerId) (leaderTerm : Nat)
    (blockNumber : Nat) : Except Abort Unit := do
  check (env.isCurrentLeader leaderTerm peerId) (.reject (.wrongLeader peerId))
  liftError (fs.verifyMessageMeta leaderTerm blockNumber)
  let roundState ← liftError (fs.roundState blockNumber)
  check (roundState.phase == .waiting)
    (.reject (.wrongPhase roundState.phase.toPhaseName .waiting))

/-- `PRaftBFT::handle_prepare_message`. -/
def handlePrepareMessage (env : Env) (node : Node) (peerId : PeerId) (leaderTerm : Nat)
    (blockNumber : Nat) (blockHash : BlockHash) : Handled :=
  if !followerStateInBlock node.followerState blockNumber then ⟨node, [], .waits⟩ else
  match prepareChecks env node.followerState peerId leaderTerm blockNumber with
  | .error abort => node.abort abort
  | .ok () =>
    let fs := node.followerState
    match fs.updateRoundState blockNumber
        (fun rs => { rs with phase := .prepare ⟨env.leader fs.leaderTerm, blockHash⟩ }) with
    | none => ⟨node, [], .panic .roundStateMut⟩
    | some fs' =>
      ⟨{ node with followerState := fs' }, [], .ok (.ackPrepare fs.leaderTerm blockNumber blockHash)⟩

/-- Lines 101-113 of `handle_append_message`: the round's meta, from its Prepare, or made
afresh when the Prepare was missed. -/
def appendMeta (env : Env) (fs : FollowerState) (phase : Phase) (blockHash : BlockHash) :
    Except Abort PhaseMeta :=
  match phase with
  | .prepare meta => .ok meta
  | .waiting => .ok { leader := env.leader fs.leaderTerm, blockHash }
  | _ => .error (.reject (.wrongPhase phase.toPhaseName .prepare))

/-- The body an Append proposes (lines 180-184). Those lines omit the `leader_term` of `block.rs`;
it is the message's term, made the follower's by `verify_message_meta` (spec §4.3 step 5). -/
def appendBody (fs : FollowerState) (leaderTerm : Nat) (blockNumber : Nat)
    (data : List SignedTransaction) : Body where
  leaderTerm := leaderTerm
  height := blockNumber
  prevBlockHash := fs.lastBlockHash
  transactions := data

/-- The checks of `handle_append_message` (lines 92-187); on success, the round's meta and the
validated body. -/
def appendChecks (env : Env) (fs : FollowerState) (peerId : PeerId) (leaderTerm : Nat)
    (blockNumber : Nat) (blockHash : BlockHash) (ackprepareSignatures : SignatureList)
    (data : List SignedTransaction) : Except Abort (PhaseMeta × Body) := do
  check (env.isCurrentLeader leaderTerm peerId) (.reject (.wrongLeader peerId))
  liftError (fs.verifyMessageMeta leaderTerm blockNumber)
  let roundState ← liftError (fs.roundState blockNumber)
  let meta ← appendMeta env fs roundState.phase blockHash
  check (blockHash == meta.blockHash) (.reject .changedBlockHash)
  check (blockNumber == fs.blockNumber + 1) (.reject (.wrongBlockNumber blockNumber))
  checkSupermajority env ackprepareSignatures.len
  verifySignatures env (.ackPrepare leaderTerm blockNumber blockHash) ackprepareSignatures.entries
  check (!data.isEmpty) (.faulty .emptyBlock)
  verifyTransactions env data
  let body := appendBody fs leaderTerm blockNumber data
  check (blockHash == env.hash body) (.reject .wrongBlockHash)
  pure (meta, body)

/-- Lines 271-296 of `handle_commit_message_inner`: the Append the Commit confirms; a Commit
that arrives before its Append is kept in the slot. -/
def commitRound (phase : Phase) (blockNumber : Nat) (message : ConsensusMessage) :
    Except Abort (PhaseMeta × Body) :=
  match phase with
  | .waiting | .prepare _ => .error (.buffer blockNumber message phase.toPhaseName)
  | .append meta body => .ok (meta, body)
  | .committed _ => .error (.reject (.wrongPhase .committed .append))

/-- The checks of `handle_commit_message_inner` (lines 262-329); on success, the body to commit. -/
def commitChecks (env : Env) (fs : FollowerState) (peerId : PeerId) (leaderTerm : Nat)
    (blockNumber : Nat) (blockHash : BlockHash) (ackappendSignatures : SignatureList) :
    Except Abort Body := do
  check (env.isCurrentLeader leaderTerm peerId) (.reject (.wrongLeader peerId))
  liftError (fs.verifyMessageMeta leaderTerm blockNumber)
  let roundState ← liftError (fs.roundState blockNumber)
  let (meta, body) ← commitRound roundState.phase blockNumber
    (.commit leaderTerm blockNumber blockHash ackappendSignatures)
  check (blockHash == meta.blockHash) (.reject .changedBlockHash)
  check (blockNumber == fs.blockNumber + 1) (.reject (.wrongBlockNumber blockNumber))
  checkSupermajority env ackappendSignatures.len
  verifySignatures env (.ackAppend leaderTerm blockNumber blockHash) ackappendSignatures.entries
  pure body

/-- `PRaftBFT::handle_commit_message_inner`. -/
def handleCommitMessageInner (env : Env) (node : Node) (peerId : PeerId)
    (leaderTerm : Nat) (blockNumber : Nat) (blockHash : BlockHash)
    (ackappendSignatures : SignatureList) : Handled :=
  match commitChecks env node.followerState peerId leaderTerm blockNumber blockHash
      ackappendSignatures with
  | .error abort => node.abort abort
  | .ok body => node.commitBlock blockNumber blockHash body ackappendSignatures

/-- `PRaftBFT::handle_commit_message`. -/
def handleCommitMessage (env : Env) (node : Node) (peerId : PeerId) (leaderTerm : Nat)
    (blockNumber : Nat) (blockHash : BlockHash) (ackappendSignatures : SignatureList) :
    Handled :=
  if !followerStateInBlock node.followerState blockNumber then ⟨node, [], .waits⟩ else
  handleCommitMessageInner env node peerId leaderTerm blockNumber blockHash ackappendSignatures

/-- The reply of an Append that applied a buffered Commit: the Commit's result is only logged,
but its panic unwinds the Append. -/
def Reply.afterBufferedCommit (inner : Reply) (ackappend : ConsensusMessage) : Reply :=
  match inner with
  | .panic site => .panic site
  | _ => .ok ackappend

/-- `PRaftBFT::handle_append_message`. -/
def handleAppendMessage (env : Env) (node : Node) (peerId : PeerId) (leaderTerm : Nat)
    (blockNumber : Nat) (blockHash : BlockHash) (ackprepareSignatures : SignatureList)
    (data : List SignedTransaction) : Handled :=
  if !followerStateInBlock node.followerState blockNumber then ⟨node, [], .waits⟩ else
  match appendChecks env node.followerState peerId leaderTerm blockNumber blockHash
      ackprepareSignatures data with
  | .error abort => node.abort abort
  | .ok (meta, body) =>
    let fs := node.followerState
    match fs.roundStates.get blockNumber with
    | none => ⟨node, [], .panic .roundStateMut⟩
    | some roundState =>
      let node' := { node with followerState :=
        { fs with roundStates := fs.roundStates.set blockNumber { phase := .append meta body } } }
      let ackappend := ConsensusMessage.ackAppend fs.leaderTerm blockNumber blockHash
      match roundState.bufferedCommitMessage with
      | none => ⟨node', [], .ok ackappend⟩
      | some (.commit bufferedLeaderTerm bufferedBlockNumber bufferedBlockHash
          bufferedAckappendSignatures) =>
        let inner := handleCommitMessageInner env node' peerId bufferedLeaderTerm
          bufferedBlockNumber bufferedBlockHash bufferedAckappendSignatures
        ⟨inner.node, inner.broadcasts, inner.reply.afterBufferedCommit ackappend⟩
      | some _ => ⟨node', [], .panic .unreachable⟩

end Prellblock
