import Prellblock.Follower

/-!
# A replica as a state machine

`handle_message` dispatches a verified envelope to the handlers of `follower.rs`; the two
view-change handlers it calls are not in the sources and are modelled from the spec (§4.5).
With `take_transactions` (`mod.rs`) and one round of the censorship watchdog, they make the
inputs of a replica. A run feeds it a list of inputs; a message for a later height leaves the
replica unchanged at that point (its handler waits), and its later delivery is a later input.
-/

namespace Prellblock
set_option autoImplicit false

/-- `PRaftBFT::handle_view_change`, from the spec (§4.5 step 2): it is not in the sources. -/
def handleViewChange (env : Env) (node : Node) (peerId : PeerId) (signature : Signature)
    (newLeaderTerm : Nat) : Handled :=
  let fs := node.followerState
  if newLeaderTerm ≤ fs.leaderTerm then ⟨node, [], .err .wrongLeaderTerm⟩ else
  let collected := match fs.viewPhase newLeaderTerm with
    | .waiting => some (SignatureList.empty.insert peerId signature)
    | .viewChanging meta => some (meta.messages.insert peerId signature)
    | .changed => none
  match collected with
  | none => ⟨node, [], .err .viewPhaseConflict⟩
  | some messages =>
    let node' := { node with
      followerState := fs.putViewPhase newLeaderTerm (.viewChanging ⟨messages⟩) }
    match env.supermajorityReached messages.len with
    | none => ⟨node', [], .panic .tooFewPeers⟩
    | some reached =>
      ⟨node', if reached && env.leader newLeaderTerm == env.identity
        then [.newView newLeaderTerm messages] else [], .ok .ackViewChange⟩

/-- The checks of `PRaftBFT::handle_new_view`, from the spec (§4.5 step 3): a higher term and a
supermajority of valid ViewChange signatures by RPUs. -/
def newViewChecks (env : Env) (fs : FollowerState) (leaderTerm : Nat)
    (viewChangeSignatures : SignatureList) : Except Abort Unit := do
  check (fs.leaderTerm < leaderTerm) (.reject .wrongLeaderTerm)
  check (env.supermajorityReached viewChangeSignatures.len == some true)
    (.reject .notEnoughSignatures)
  check (viewChangeSignatures.entries.all fun e =>
      env.verify e.1 (.viewChange leaderTerm) e.2 && env.verifyIsRpu e.1)
    (.reject .invalidSignature)

/-- `PRaftBFT::handle_new_view`. Modelled from the spec (§4.5 step 3): the function is not in
the sources. -/
def handleNewView (env : Env) (node : Node) (leaderTerm : Nat)
    (viewChangeSignatures : SignatureList) : Handled :=
  match newViewChecks env node.followerState leaderTerm viewChangeSignatures with
  | .error abort => node.abort abort
  | .ok () => ⟨{ node with followerState := node.followerState.installView leaderTerm }, [],
      .ok .ackNewView⟩

/-- The dispatch of `handle_message` on a verified message from `peerId`. -/
def handleConsensusMessage (env : Env) (node : Node) (peerId : PeerId) (signature : Signature) :
    ConsensusMessage → Handled
  | .prepare leaderTerm blockNumber blockHash =>
    handlePrepareMessage env node peerId leaderTerm blockNumber blockHash
  | .append leaderTerm blockNumber blockHash ackprepareSignatures data =>
    handleAppendMessage env node peerId leaderTerm blockNumber blockHash ackprepareSignatures data
  | .commit leaderTerm blockNumber blockHash ackappendSignatures =>
    handleCommitMessage env node peerId leaderTerm blockNumber blockHash ackappendSignatures
  | .viewChange newLeaderTerm => handleViewChange env node peerId signature newLeaderTerm
  | .newView leaderTerm viewChangeSignatures =>
    handleNewView env node leaderTerm viewChangeSignatures
  | _ => ⟨node, [], .panic .unimplemented⟩

/-- `PRaftBFT::handle_message`: only RPUs are heard, and only under a valid signature. -/
def handleMessage (env : Env) (node : Node) (message : Signed) : Handled :=
  if !env.peers.contains message.signer then ⟨node, [], .err (.invalidPeer message.signer)⟩
  else if !env.verify message.signer message.message message.signature then
    ⟨node, [], .err .invalidSignature⟩
  else handleConsensusMessage env node message.signer message.signature message.message

/-- `CENSORSHIP_TIMEOUT`: ten seconds. -/
def censorshipTimeout : Nat := 10000

/-- One round of `PRaftBFT::censorship_checker` whose wait ran out at time `now` without a new
view: a view change is requested when a queued transaction is older than the timeout. -/
def censorshipChecker (node : Node) (now : Nat) : Handled :=
  if node.queue.any fun e => now - e.1 > censorshipTimeout then
    ⟨node.requestViewChange.1, node.requestViewChange.2, .done⟩
  else ⟨node, [], .done⟩

/-- `PRaftBFT::take_transactions`: queue a batch, stamped with its arrival time. -/
def takeTransactions (node : Node) (now : Nat) (transactions : List SignedTransaction) :
    Handled :=
  ⟨{ node with queue := node.queue ++ transactions.map fun tx => (now, tx) }, [], .done⟩

/-- What drives a replica: a message from a peer, a batch from a client, or the watchdog. -/
inductive Input
  | message (message : Signed)
  | takeTransactions (now : Nat) (transactions : List SignedTransaction)
  | censorshipTimeout (now : Nat)

/-- One step of a replica. -/
def step (env : Env) (node : Node) : Input → Handled
  | .message message => handleMessage env node message
  | .takeTransactions now transactions => takeTransactions node now transactions
  | .censorshipTimeout now => censorshipChecker node now

/-- One step of a run: the replica before it, the input, and the result. -/
structure Event where
  pre : Node
  input : Input
  out : Handled

/-- The events of a run. -/
def run (env : Env) : Node → List Input → List Event
  | _, [] => []
  | node, input :: inputs => ⟨node, input, step env node input⟩ :: run env (step env node input).node inputs

/-- The replica at the end of a run. -/
def exec (env : Env) : Node → List Input → Node
  | node, [] => node
  | node, input :: inputs => exec env (step env node input).node inputs

/-- The replicas a run from `PRaftBFT::new` reaches. -/
inductive Reachable (env : Env) : Node → Prop
  | new (window : Nat) : Reachable env (Node.new window)
  | step {node : Node} (input : Input) : Reachable env node → Reachable env (step env node input).node

end Prellblock
