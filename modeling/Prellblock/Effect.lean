import Prellblock.Invariant

/-!
# What one step does to a replica that keeps the invariant

`Effect` lists, once, every effect a step can have on a replica whose rounds satisfy `Inv`:
a step writes nothing of the rounds, the height or the chain (`frame`), or it buffers a Commit,
prepares, appends, commits, appends and applies a buffered Commit, or installs a new view; in
each case the lemma records what the step checked. `step_effect` proves this of every step,
`Effect.inv` that each effect keeps the invariant, and `reachable_inv` that the invariant holds
in every reachable replica. The run-level results of the later modules are case analyses of
`Effect` and never unfold a handler.
-/

namespace Prellblock
set_option autoImplicit false

/-- An acknowledgement, which `handle_message` does not handle. -/
def ConsensusMessage.isAck : ConsensusMessage → Bool
  | .ackPrepare .. | .ackAppend .. | .ackCommit | .ackViewChange | .ackNewView => true
  | _ => false

/-- The reply of a step that writes no round: it acknowledges no round, and it panics only on a
roster of fewer than four peers, or on an acknowledgement. -/
def QuietReply (input : Input) : Reply → Prop
  | .ok (.ackPrepare ..) | .ok (.ackAppend ..) | .ok .ackCommit => False
  | .panic .tooFewPeers => True
  | .panic .unimplemented => ∃ p m σ, input = .message ⟨p, m, σ⟩ ∧ m.isAck = true
  | .panic _ => False
  | _ => True

/-- The effects of one step from `node` on `input`. -/
inductive Effect (env : Env) (node : Node) (input : Input) : Handled → Prop
  | frame {r : Handled}
      (roundStates : r.node.followerState.roundStates = node.followerState.roundStates)
      (leaderTerm : r.node.followerState.leaderTerm = node.followerState.leaderTerm)
      (blockNumber : r.node.followerState.blockNumber = node.followerState.blockNumber)
      (blocks : r.node.blocks = node.blocks) (worldState : r.node.worldState = node.worldState)
      (reply : QuietReply input r.reply) : Effect env node input r
  | buffer {p : PeerId} {σ : Signature} {t : Nat} {h : BlockHash} {sigs : SignatureList}
      {rs : RoundState}
      (input_eq : input =
        .message ⟨p, .commit t (node.followerState.blockNumber + 1) h sigs, σ⟩)
      (leader : env.isCurrentLeader t p = true) (term : t = node.followerState.leaderTerm)
      (slot : node.followerState.roundStates.get (node.followerState.blockNumber + 1) = some rs)
      (phase : rs.phase = .waiting ∨ ∃ meta, rs.phase = .prepare meta) :
      Effect env node input ⟨{ node with followerState := { node.followerState with
        roundStates := node.followerState.roundStates.set (node.followerState.blockNumber + 1)
          { rs with bufferedCommitMessage :=
            (some (.commit t (node.followerState.blockNumber + 1) h sigs)) } } },
        [], .err (.wrongPhase rs.phase.toPhaseName .append)⟩
  | prepare {p : PeerId} {σ : Signature} {t : Nat} {h : BlockHash} {rs : RoundState}
      (input_eq : input = .message ⟨p, .prepare t (node.followerState.blockNumber + 1) h, σ⟩)
      (leader : env.isCurrentLeader t p = true) (term : t = node.followerState.leaderTerm)
      (slot : node.followerState.roundStates.get (node.followerState.blockNumber + 1) = some rs)
      (phase : rs.phase = .waiting) :
      Effect env node input ⟨{ node with followerState := { node.followerState with
        roundStates := node.followerState.roundStates.set (node.followerState.blockNumber + 1)
          { rs with phase := .prepare ⟨env.leader node.followerState.leaderTerm, h⟩ } } },
        [], .ok (.ackPrepare node.followerState.leaderTerm (node.followerState.blockNumber + 1) h)⟩
  | append {p : PeerId} {σ : Signature} {t : Nat} {h : BlockHash} {sigs : SignatureList}
      {data : List SignedTransaction} {meta : PhaseMeta} {body : Body} {rs : RoundState}
      (input_eq : input =
        .message ⟨p, .append t (node.followerState.blockNumber + 1) h sigs data, σ⟩)
      (accepted : AppendAccepted env node.followerState p t (node.followerState.blockNumber + 1)
        h sigs data meta body)
      (slot : node.followerState.roundStates.get (node.followerState.blockNumber + 1) = some rs)
      (buffered : rs.bufferedCommitMessage = none) :
      Effect env node input ⟨{ node with followerState := { node.followerState with
        roundStates := node.followerState.roundStates.set (node.followerState.blockNumber + 1)
          { phase := .append meta body } } },
        [], .ok (.ackAppend node.followerState.leaderTerm (node.followerState.blockNumber + 1) h)⟩
  | appendCommit {p : PeerId} {σ : Signature} {t : Nat} {h : BlockHash} {sigs : SignatureList}
      {data : List SignedTransaction} {meta : PhaseMeta} {body : Body} {rs : RoundState}
      {t' : Nat} {h' : BlockHash} {sigs' : SignatureList}
      (input_eq : input =
        .message ⟨p, .append t (node.followerState.blockNumber + 1) h sigs data, σ⟩)
      (accepted : AppendAccepted env node.followerState p t (node.followerState.blockNumber + 1)
        h sigs data meta body)
      (slot : node.followerState.roundStates.get (node.followerState.blockNumber + 1) = some rs)
      (buffered : rs.bufferedCommitMessage =
        some (.commit t' (node.followerState.blockNumber + 1) h' sigs'))
      (committed : CommitAccepted env { node.followerState with
        roundStates := node.followerState.roundStates.set (node.followerState.blockNumber + 1)
          { phase := .append meta body } } p t' (node.followerState.blockNumber + 1) h' sigs'
        body) :
      Effect env node input
        ⟨(Node.commitBlock { node with followerState := { node.followerState with
          roundStates := node.followerState.roundStates.set (node.followerState.blockNumber + 1)
            { phase := .append meta body } } }
          (node.followerState.blockNumber + 1) h' body sigs').node,
        [], .ok (.ackAppend node.followerState.leaderTerm (node.followerState.blockNumber + 1) h)⟩
  | appendAbort {p : PeerId} {σ : Signature} {t : Nat} {h : BlockHash} {sigs : SignatureList}
      {data : List SignedTransaction} {meta : PhaseMeta} {body : Body} {rs : RoundState}
      {m : ConsensusMessage} {a : Abort}
      (input_eq : input =
        .message ⟨p, .append t (node.followerState.blockNumber + 1) h sigs data, σ⟩)
      (accepted : AppendAccepted env node.followerState p t (node.followerState.blockNumber + 1)
        h sigs data meta body)
      (slot : node.followerState.roundStates.get (node.followerState.blockNumber + 1) = some rs)
      (buffered : rs.bufferedCommitMessage = some m) (plain : a.Plain) :
      Effect env node input
        (let node' : Node := { node with followerState := { node.followerState with
          roundStates := node.followerState.roundStates.set (node.followerState.blockNumber + 1)
            { phase := .append meta body } } }
        ⟨(node'.abort a).node, (node'.abort a).broadcasts, (node'.abort a).reply.afterBufferedCommit
          (.ackAppend node.followerState.leaderTerm (node.followerState.blockNumber + 1) h)⟩)
  | commit {p : PeerId} {σ : Signature} {t : Nat} {h : BlockHash} {sigs : SignatureList}
      {body : Body}
      (input_eq : input =
        .message ⟨p, .commit t (node.followerState.blockNumber + 1) h sigs, σ⟩)
      (accepted : CommitAccepted env node.followerState p t (node.followerState.blockNumber + 1)
        h sigs body) :
      Effect env node input (node.commitBlock (node.followerState.blockNumber + 1) h body sigs)
  | newView {p : PeerId} {σ : Signature} {t : Nat} {sigs : SignatureList}
      (input_eq : input = .message ⟨p, .newView t sigs, σ⟩)
      (term : node.followerState.leaderTerm < t) (valid : SignaturesValid env (.viewChange t) sigs) :
      Effect env node input
        ⟨{ node with followerState := node.followerState.installView t }, [], .ok .ackNewView⟩

/-! ## Every step has an effect -/

section Step
variable {env : Env} {node : Node}

theorem requestViewChange_frame (node : Node) :
    node.requestViewChange.1.followerState.roundStates = node.followerState.roundStates ∧
      node.requestViewChange.1.followerState.leaderTerm = node.followerState.leaderTerm ∧
      node.requestViewChange.1.followerState.blockNumber = node.followerState.blockNumber ∧
      node.requestViewChange.1.blocks = node.blocks ∧
      node.requestViewChange.1.worldState = node.worldState := by
  rcases requestViewChange_fst node with h | h <;> rw [h] <;> exact ⟨rfl, rfl, rfl, rfl, rfl⟩

theorem abort_frame (node : Node) {a : Abort} (ha : a.Plain) :
    (node.abort a).node.followerState.roundStates = node.followerState.roundStates ∧
      (node.abort a).node.followerState.leaderTerm = node.followerState.leaderTerm ∧
      (node.abort a).node.followerState.blockNumber = node.followerState.blockNumber ∧
      (node.abort a).node.blocks = node.blocks ∧
      (node.abort a).node.worldState = node.worldState := by
  rcases abort_node_of_plain ha with h | h <;> rw [h]
  · exact ⟨rfl, rfl, rfl, rfl, rfl⟩
  · exact requestViewChange_frame node

theorem Effect.of_abort (input : Input) {a : Abort} (ha : a.Plain) :
    Effect env node input (node.abort a) := by
  cases a with
  | reject e => exact .frame rfl rfl rfl rfl rfl trivial
  | faulty e =>
    obtain ⟨h₁, h₂, h₃, h₄, h₅⟩ := requestViewChange_frame node
    exact .frame h₁ h₂ h₃ h₄ h₅ trivial
  | buffer => exact ha.elim
  | panic site =>
    obtain rfl : site = .tooFewPeers := ha
    exact .frame rfl rfl rfl rfl rfl trivial

/-- The buffered Commit an accepted Append applies finds the Append in its slot, so it is
applied or rejected, never buffered again. -/
theorem handleAppendMessage_effect (hi : Inv env node.followerState) (p : PeerId) (σ : Signature)
    (t n : Nat) (h : BlockHash) (sigs : SignatureList) (data : List SignedTransaction) :
    Effect env node (.message ⟨p, .append t n h sigs data, σ⟩)
      (handleAppendMessage env node p t n h sigs data) := by
  rcases handleAppendMessage_cases env node p t n h sigs data with
    ⟨-, hr⟩ | ⟨a, ha, hr⟩ | ⟨meta, body, rs, hacc, hrs, hcase⟩
  · rw [hr]
    exact .frame rfl rfl rfl rfl rfl trivial
  · rw [hr]
    exact .of_abort _ ha
  obtain rfl := hacc.number
  have hnext := hi.next rs hrs
  rcases hcase with ⟨hbuf, hr⟩ | ⟨t', n', h', sigs', hbuf, hr⟩ | ⟨m, hbuf, hm, hr⟩ <;> rw [hr]
  · exact .append rfl hacc hrs hbuf
  · obtain ⟨-, _, _, _, hc⟩ := hnext.buffered _ hbuf
    cases hc
    rcases handleCommitMessageInner_cases env _ p t' (node.followerState.blockNumber + 1) h' sigs'
      with ⟨a, ha, hr'⟩ | ⟨rs', -, -, -, hrs', hph', -⟩ | ⟨body', hcacc, hr'⟩
    · rw [hr']
      exact .appendAbort rfl hacc hrs hbuf ha
    · rcases hph' with hph' | ⟨_, hph'⟩ <;> simp [RingBuffer.eq_of_get_set_self _ hrs hrs'] at hph'
    · obtain ⟨rs', meta', hrs', hph', -⟩ := hcacc.slot
      cases RingBuffer.eq_of_get_set_self _ hrs hrs'
      cases hph'
      have hc := commitBlock_eq (hi.append hacc) hrs' rfl h' sigs'
      have hb := congrArg Handled.broadcasts hc
      have hrp := congrArg Handled.reply hc
      simp only at hb hrp
      rw [hr', hb, hrp]
      exact .appendCommit rfl hacc hrs hbuf hcacc
  · obtain ⟨-, _, _, _, rfl⟩ := hnext.buffered m hbuf
    exact absurd rfl (hm _ _ _ _)

theorem handleCommitMessage_effect (p : PeerId) (σ : Signature) (t n : Nat) (h : BlockHash)
    (sigs : SignatureList) :
    Effect env node (.message ⟨p, .commit t n h sigs, σ⟩)
      (handleCommitMessage env node p t n h sigs) := by
  rcases handleCommitMessage_cases env node p t n h sigs with ⟨-, hr⟩ | ⟨hn, hr⟩ <;> rw [hr]
  · exact .frame rfl rfl rfl rfl rfl trivial
  rcases handleCommitMessageInner_cases env node p t n h sigs with
    ⟨a, ha, hr'⟩ | ⟨rs, hl, ht, hlt, hrs, hph, hr'⟩ | ⟨body, hcacc, hr'⟩ <;> rw [hr']
  · exact .of_abort _ ha
  · obtain rfl : n = node.followerState.blockNumber + 1 := by omega
    rw [abort_buffer_eq hrs]
    exact .buffer rfl hl ht hrs hph
  · obtain rfl := hcacc.number
    exact .commit rfl hcacc

theorem handleConsensusMessage_effect (hi : Inv env node.followerState) (p : PeerId)
    (σ : Signature) (m : ConsensusMessage) :
    Effect env node (.message ⟨p, m, σ⟩) (handleConsensusMessage env node p σ m) := by
  cases m with
  | prepare t n h =>
    rcases handlePrepareMessage_cases env node p t n h with
      ⟨-, hr⟩ | ⟨a, ha, hr⟩ | ⟨rs, hl, ht, rfl, hrs, hph, hr⟩ <;>
      simp only [handleConsensusMessage, hr]
    · exact .frame rfl rfl rfl rfl rfl trivial
    · exact .of_abort _ ha
    · exact .prepare rfl hl ht hrs hph
  | append t n h sigs data => exact handleAppendMessage_effect hi p σ t n h sigs data
  | commit t n h sigs => exact handleCommitMessage_effect p σ t n h sigs
  | viewChange t =>
    simp only [handleConsensusMessage]
    rcases handleViewChange_cases env node p t σ with ⟨hn, hr | hr⟩ | ⟨-, _, hn, hr | hr⟩ <;>
      exact .frame (by simp [hn, FollowerState.putViewPhase]) (by simp [hn, FollowerState.putViewPhase])
        (by simp [hn, FollowerState.putViewPhase]) (by simp [hn]) (by simp [hn])
        (by simp [hr, QuietReply])
  | newView t sigs =>
    simp only [handleConsensusMessage]
    rcases handleNewView_cases env node t sigs with ⟨a, ha, hr⟩ | ⟨ht, hv, hr⟩ <;> rw [hr]
    · exact .of_abort _ ha
    · exact .newView rfl ht hv
  | ackPrepare | ackAppend | ackCommit | ackViewChange | ackNewView =>
    exact .frame rfl rfl rfl rfl rfl ⟨_, _, _, rfl, rfl⟩

theorem step_effect (hi : Inv env node.followerState) (input : Input) :
    Effect env node input (step env node input) := by
  cases input with
  | message message =>
    obtain ⟨p, m, σ⟩ := message
    simp only [step, handleMessage]
    split_ifs
    · exact .frame rfl rfl rfl rfl rfl trivial
    · exact .frame rfl rfl rfl rfl rfl trivial
    · exact handleConsensusMessage_effect hi p σ m
  | takeTransactions now transactions => exact .frame rfl rfl rfl rfl rfl trivial
  | censorshipTimeout now =>
    simp only [step, censorshipChecker]
    split_ifs
    · obtain ⟨h₁, h₂, h₃, h₄, h₅⟩ := requestViewChange_frame node
      exact .frame h₁ h₂ h₃ h₄ h₅ trivial
    · exact .frame rfl rfl rfl rfl rfl trivial

end Step

/-! ## The invariant holds in every reachable replica -/

section Inv
variable {env : Env} {node : Node}

theorem Inv.abort {a : Abort} (hi : Inv env node.followerState) (ha : a.Plain) :
    Inv env (node.abort a).node.followerState := by
  rcases abort_node_of_plain ha with h | h <;> rw [h]
  · exact hi
  · exact requestViewChange_inv hi

theorem Effect.inv {input : Input} {r : Handled} (he : Effect env node input r)
    (hi : Inv env node.followerState) : Inv env r.node.followerState := by
  cases he with
  | frame hr ht hb => exact hi.congr ht hb hr
  | buffer _ _ _ hrs hph => exact hi.buffer hrs hph _ _ _
  | prepare _ _ _ hrs => exact hi.prepare hrs _
  | append _ hacc => exact hi.append hacc
  | appendCommit _ hacc _ _ hcacc =>
    obtain ⟨rs', meta', hrs', hph', -⟩ := hcacc.slot
    rw [commitBlock_eq (hi.append hacc) hrs' hph']
    exact (hi.append hacc).commit _
  | appendAbort _ hacc _ _ ha => exact (hi.append hacc).abort ha
  | commit _ hcacc =>
    obtain ⟨rs, meta, hrs, hph, -⟩ := hcacc.slot
    rw [commitBlock_eq hi hrs hph]
    exact hi.commit _
  | newView => exact hi.installView _

theorem step_inv (hi : Inv env node.followerState) (input : Input) :
    Inv env (step env node input).node.followerState :=
  (step_effect hi input).inv hi

theorem reachable_inv (h : Reachable env node) : Inv env node.followerState := by
  induction h with
  | new window => exact Inv.new env window
  | step input _ ih => exact step_inv ih input

end Inv

end Prellblock
