import Prellblock.Checks

/-!
# What each handler can do

One lemma per handler lists every way a call can end, in every replica state: it waits, it
takes a plain early return, it buffers a Commit, or its checks pass and it makes its writes.
Everything later is derived from these lemmas and never unfolds a handler. The first result
drawn from them is that a rejection is atomic: an `Err` reply leaves the replica as it was, but
for a buffered Commit and, when the handler requested a view change, the next term's view phase.
-/

namespace Prellblock
set_option autoImplicit false

theorem eq_of_inBlock {fs : FollowerState} {n : Nat}
    (h₁ : followerStateInBlock fs n = true) (h₂ : fs.blockNumber < n) : n = fs.blockNumber + 1 := by
  simp only [followerStateInBlock, decide_eq_true_eq] at h₁
  exact Nat.le_antisymm h₁ h₂

theorem lt_of_not_inBlock {fs : FollowerState} {n : Nat}
    (h : ¬followerStateInBlock fs n = true) : fs.blockNumber + 1 < n := by
  simp only [followerStateInBlock, decide_eq_true_eq] at h
  omega

/-! ## Early returns -/

section Abort
variable {node : Node}

/-- `request_view_change` writes the next term's view phase, or nothing when it is refused. -/
theorem requestViewChange_fst (node : Node) :
    node.requestViewChange.1 = node ∨ node.requestViewChange.1 = { node with followerState :=
      (node.followerState.putViewPhase (node.followerState.leaderTerm + 1) (.viewChanging ⟨.empty⟩)) } := by
  simp only [Node.requestViewChange, FollowerState.setViewPhase]
  split_ifs
  · exact .inr rfl
  · exact .inl rfl

theorem abort_node_of_plain {a : Abort} (ha : a.Plain) :
    (node.abort a).node = node ∨ (node.abort a).node = node.requestViewChange.1 := by
  cases a <;> simp [Node.abort, Abort.Plain] at ha ⊢

theorem abort_buffer_eq {n : Nat} {m : ConsensusMessage} {c : PhaseName} {rs : RoundState}
    (hrs : node.followerState.roundStates.get n = some rs) :
    node.abort (.buffer n m c) = ⟨{ node with followerState := { node.followerState with
      roundStates := node.followerState.roundStates.set n
        { rs with bufferedCommitMessage := some m } } }, [], .err (.wrongPhase c .append)⟩ := by
  simp [Node.abort, FollowerState.updateRoundState, hrs]

end Abort

/-! ## The round handlers -/

section Handlers
variable (env : Env) (node : Node) (p : PeerId) (t n : Nat) (h : BlockHash)

theorem handlePrepareMessage_cases :
    (node.followerState.blockNumber + 1 < n ∧
      handlePrepareMessage env node p t n h = ⟨node, [], .waits⟩) ∨
    (∃ a, a.Plain ∧ handlePrepareMessage env node p t n h = node.abort a) ∨
    ∃ rs, env.isCurrentLeader t p = true ∧ t = node.followerState.leaderTerm ∧
      n = node.followerState.blockNumber + 1 ∧ node.followerState.roundStates.get n = some rs ∧
      rs.phase = .waiting ∧
      handlePrepareMessage env node p t n h =
        ⟨{ node with followerState := { node.followerState with
            roundStates := node.followerState.roundStates.set n
              { rs with phase := .prepare ⟨env.leader node.followerState.leaderTerm, h⟩ } } },
          [], .ok (.ackPrepare node.followerState.leaderTerm n h)⟩ := by
  unfold handlePrepareMessage
  by_cases hb : followerStateInBlock node.followerState n = true
  · simp only [hb, Bool.not_true, Bool.false_eq_true, ↓reduceIte]
    cases hc : prepareChecks env node.followerState p t n with
    | error a => exact .inr (.inl ⟨a, abortsIn_prepareChecks chainAborts_plain _ _ _ _ _ a hc, rfl⟩)
    | ok u =>
      obtain ⟨hl, ht, hlt, rs, hrs, hph⟩ := prepareChecks_eq_ok.mp hc
      refine .inr (.inr ⟨rs, hl, ht, eq_of_inBlock hb hlt, hrs, hph, ?_⟩)
      simp [FollowerState.updateRoundState, hrs]
  · exact .inl ⟨lt_of_not_inBlock hb, by simp [hb]⟩

theorem handleCommitMessageInner_cases (sigs : SignatureList) :
    (∃ a, a.Plain ∧ handleCommitMessageInner env node p t n h sigs = node.abort a) ∨
    (∃ rs, env.isCurrentLeader t p = true ∧ t = node.followerState.leaderTerm ∧
      node.followerState.blockNumber < n ∧ node.followerState.roundStates.get n = some rs ∧
      (rs.phase = .waiting ∨ ∃ meta, rs.phase = .prepare meta) ∧
      handleCommitMessageInner env node p t n h sigs =
        node.abort (.buffer n (.commit t n h sigs) rs.phase.toPhaseName)) ∨
    ∃ body, CommitAccepted env node.followerState p t n h sigs body ∧
      handleCommitMessageInner env node p t n h sigs = node.commitBlock n h body sigs := by
  unfold handleCommitMessageInner
  cases hc : commitChecks env node.followerState p t n h sigs with
  | error a =>
    rcases commitChecks_eq_error hc with ha | ⟨hl, ht, hlt, rs, hrs, hph, rfl⟩
    · exact .inl ⟨a, ha, rfl⟩
    · exact .inr (.inl ⟨rs, hl, ht, hlt, hrs, hph, rfl⟩)
  | ok body => exact .inr (.inr ⟨body, commitChecks_eq_ok.mp hc, rfl⟩)

theorem handleCommitMessage_cases (sigs : SignatureList) :
    (node.followerState.blockNumber + 1 < n ∧
      handleCommitMessage env node p t n h sigs = ⟨node, [], .waits⟩) ∨
    (n ≤ node.followerState.blockNumber + 1 ∧
      handleCommitMessage env node p t n h sigs = handleCommitMessageInner env node p t n h sigs) := by
  unfold handleCommitMessage
  by_cases hb : followerStateInBlock node.followerState n = true
  · exact .inr ⟨by simpa [followerStateInBlock] using hb, by simp [hb]⟩
  · exact .inl ⟨lt_of_not_inBlock hb, by simp [hb]⟩

/-- An accepted Append writes its slot (`node'`) and then applies a buffered Commit, if any. -/
theorem handleAppendMessage_cases (sigs : SignatureList) (data : List SignedTransaction) :
    (node.followerState.blockNumber + 1 < n ∧
      handleAppendMessage env node p t n h sigs data = ⟨node, [], .waits⟩) ∨
    (∃ a, a.Plain ∧ handleAppendMessage env node p t n h sigs data = node.abort a) ∨
    ∃ meta body rs, AppendAccepted env node.followerState p t n h sigs data meta body ∧
      node.followerState.roundStates.get n = some rs ∧
      let node' : Node := { node with followerState := { node.followerState with
        roundStates := node.followerState.roundStates.set n { phase := .append meta body } } }
      let ackappend := ConsensusMessage.ackAppend node.followerState.leaderTerm n h
      (rs.bufferedCommitMessage = none ∧
        handleAppendMessage env node p t n h sigs data = ⟨node', [], .ok ackappend⟩) ∨
      (∃ t' n' h' sigs', rs.bufferedCommitMessage = some (.commit t' n' h' sigs') ∧
        handleAppendMessage env node p t n h sigs data =
          ⟨(handleCommitMessageInner env node' p t' n' h' sigs').node,
            (handleCommitMessageInner env node' p t' n' h' sigs').broadcasts,
            (handleCommitMessageInner env node' p t' n' h' sigs').reply.afterBufferedCommit
              ackappend⟩) ∨
      (∃ m, rs.bufferedCommitMessage = some m ∧ (∀ t' n' h' sigs', m ≠ .commit t' n' h' sigs') ∧
        handleAppendMessage env node p t n h sigs data = ⟨node', [], .panic .unreachable⟩) := by
  unfold handleAppendMessage
  by_cases hb : followerStateInBlock node.followerState n = true
  · simp only [hb, Bool.not_true, Bool.false_eq_true, ↓reduceIte]
    rcases hc : appendChecks env node.followerState p t n h sigs data with a | ⟨meta, body⟩
    · exact .inr (.inl ⟨a, abortsIn_appendChecks chainAborts_plain _ _ _ _ _ _ _ _ a hc, rfl⟩)
    · have hacc := appendChecks_eq_ok.mp hc
      obtain ⟨rs, hrs, -⟩ := hacc.slot
      refine .inr (.inr ⟨meta, body, rs, hacc, hrs, ?_⟩)
      simp only [hrs]
      rcases hbuf : rs.bufferedCommitMessage with _ | m
      · exact .inl ⟨rfl, rfl⟩
      · cases m with
        | commit t' n' h' sigs' => exact .inr (.inl ⟨t', n', h', sigs', rfl, rfl⟩)
        | _ => exact .inr (.inr ⟨_, rfl, fun _ _ _ _ h => (by cases h), rfl⟩)
  · exact .inl ⟨lt_of_not_inBlock hb, by simp [hb]⟩

theorem handleViewChange_cases (σ : Signature) :
    ((handleViewChange env node p σ t).node = node ∧
      ((handleViewChange env node p σ t).reply = .err .wrongLeaderTerm ∨
        (handleViewChange env node p σ t).reply = .err .viewPhaseConflict)) ∨
    (node.followerState.leaderTerm < t ∧ ∃ messages,
      (handleViewChange env node p σ t).node = { node with followerState :=
        (node.followerState.putViewPhase t (.viewChanging ⟨messages⟩)) } ∧
      ((handleViewChange env node p σ t).reply = .panic .tooFewPeers ∨
        (handleViewChange env node p σ t).reply = .ok .ackViewChange)) := by
  unfold handleViewChange
  dsimp only
  split_ifs with ht
  · exact .inl ⟨rfl, .inl rfl⟩
  · cases node.followerState.viewPhase t with
    | changed => exact .inl ⟨rfl, .inr rfl⟩
    | waiting =>
      refine .inr ⟨by omega, SignatureList.empty.insert p σ, ?_⟩
      dsimp only
      split <;> simp
    | viewChanging meta =>
      refine .inr ⟨by omega, meta.messages.insert p σ, ?_⟩
      dsimp only
      split <;> simp

/-- A refused ViewChange writes and broadcasts nothing. -/
theorem handleViewChange_of_err (σ : Signature) {e : Error}
    (h : (handleViewChange env node p σ t).reply = .err e) :
    handleViewChange env node p σ t = ⟨node, [], .err e⟩ := by
  unfold handleViewChange at h ⊢
  dsimp only at h ⊢
  split_ifs at h ⊢
  · cases h; rfl
  · cases hv : node.followerState.viewPhase t with
    | changed => simp only [hv] at h ⊢; cases h; rfl
    | waiting | viewChanging => simp only [hv] at h; split at h <;> cases h

theorem handleNewView_cases (sigs : SignatureList) :
    (∃ a, a.Plain ∧ handleNewView env node t sigs = node.abort a) ∨
    (node.followerState.leaderTerm < t ∧ SignaturesValid env (.viewChange t) sigs ∧
      handleNewView env node t sigs =
        ⟨{ node with followerState := node.followerState.installView t }, [], .ok .ackNewView⟩) := by
  unfold handleNewView
  cases hc : newViewChecks env node.followerState t sigs with
  | error a => exact .inl ⟨a, abortsIn_newViewChecks (fun _ => trivial) _ _ _ _ a hc, rfl⟩
  | ok u => exact .inr ⟨(newViewChecks_eq_ok.mp hc).1, (newViewChecks_eq_ok.mp hc).2, rfl⟩

end Handlers

theorem commitBlock_reply_ne_err (node : Node) (n : Nat) (h : BlockHash) (body : Body)
    (sigs : SignatureList) (e : Error) : (node.commitBlock n h body sigs).reply ≠ .err e := by
  unfold Node.commitBlock
  split
  · simp
  · dsimp only
    split_ifs <;> simp

theorem afterBufferedCommit_ne_err (r : Reply) (m : ConsensusMessage) (e : Error) :
    r.afterBufferedCommit m ≠ .err e := by
  cases r <;> simp [Reply.afterBufferedCommit]

/-! ## Rejection is atomic -/

/-- What a rejected message may change: its slot's buffered Commit, for a Commit refused with
`WrongPhase`, and the next term's view phase, when it ran `request_view_change`. -/
structure RejectFrame (node : Node) (r : Handled) (message : ConsensusMessage) (error : Error) :
    Prop where
  blocks : r.node.blocks = node.blocks
  queue : r.node.queue = node.queue
  worldState : r.node.worldState = node.worldState
  leaderTerm : r.node.followerState.leaderTerm = node.followerState.leaderTerm
  blockNumber : r.node.followerState.blockNumber = node.followerState.blockNumber
  roundStates : r.node.followerState.roundStates = node.followerState.roundStates ∨
    ∃ t n h sigs rs, message = .commit t n h sigs ∧
      node.followerState.roundStates.get n = some rs ∧
      (rs.phase = .waiting ∨ ∃ meta, rs.phase = .prepare meta) ∧
      error = .wrongPhase rs.phase.toPhaseName .append ∧
      r.node.followerState.roundStates =
        node.followerState.roundStates.set n { rs with bufferedCommitMessage := some message }
  viewPhase : r.broadcasts = [] ∧
      r.node.followerState.viewStates = node.followerState.viewStates ∨
    r.broadcasts = [.viewChange (node.followerState.leaderTerm + 1)] ∧
      (error.isLeaderFault = true ∨ error = .permissionDenied) ∧
      ∀ t, t ≠ node.followerState.leaderTerm + 1 →
        r.node.followerState.viewPhase t = node.followerState.viewPhase t

namespace RejectFrame
variable {node : Node} {m : ConsensusMessage} {e : Error}

theorem refl (node : Node) (reply : Reply) (m : ConsensusMessage) (e : Error) :
    RejectFrame node ⟨node, [], reply⟩ m e :=
  ⟨rfl, rfl, rfl, rfl, rfl, .inl rfl, .inl ⟨rfl, rfl⟩⟩

theorem of_plain {a : Abort} (ha : a.Plain) (h : (node.abort a).reply = .err e) :
    RejectFrame node (node.abort a) m e := by
  cases a with
  | faulty e' =>
    cases h
    show RejectFrame node ⟨node.requestViewChange.1, [_], _⟩ m e
    rcases requestViewChange_fst node with h' | h' <;> rw [h']
    · exact ⟨rfl, rfl, rfl, rfl, rfl, .inl rfl, .inr ⟨rfl, ha, fun _ _ => rfl⟩⟩
    · exact ⟨rfl, rfl, rfl, rfl, rfl, .inl rfl, .inr ⟨rfl, ha, fun t ht => by simp [ht]⟩⟩
  | buffer => exact ha.elim
  | reject | panic => exact refl node _ m e

end RejectFrame

/-- A rejected message leaves the replica as it was, but for the two writes `RejectFrame`
allows. -/
theorem rejection_atomic (env : Env) (node : Node) (peerId : PeerId) (signature : Signature)
    (message : ConsensusMessage) (error : Error)
    (h : (handleConsensusMessage env node peerId signature message).reply = .err error) :
    RejectFrame node (handleConsensusMessage env node peerId signature message) message error := by
  cases message with
  | prepare t n hash =>
    rcases handlePrepareMessage_cases env node peerId t n hash with
      ⟨-, hr⟩ | ⟨a, ha, hr⟩ | ⟨rs, -, -, -, -, -, hr⟩ <;>
      simp only [handleConsensusMessage, hr] at h ⊢
    · cases h
    · exact .of_plain ha h
    · cases h
  | append t n hash sigs data =>
    rcases handleAppendMessage_cases env node peerId t n hash sigs data with
      ⟨-, hr⟩ | ⟨a, ha, hr⟩ | ⟨meta, body, rs, -, -, ⟨-, hr⟩ | ⟨t', n', h', sigs', -, hr⟩ | ⟨m, -, -, hr⟩⟩ <;>
      simp only [handleConsensusMessage, hr] at h ⊢
    · cases h
    · exact .of_plain ha h
    · cases h
    · exact absurd h (afterBufferedCommit_ne_err _ _ _)
    · cases h
  | commit t n hash sigs =>
    simp only [handleConsensusMessage] at h ⊢
    rcases handleCommitMessage_cases env node peerId t n hash sigs with ⟨-, hr⟩ | ⟨-, hr⟩ <;>
      rw [hr] at h ⊢
    · cases h
    rcases handleCommitMessageInner_cases env node peerId t n hash sigs with
      ⟨a, ha, hr⟩ | ⟨rs, -, -, -, hrs, hph, hr⟩ | ⟨body, -, hr⟩ <;> rw [hr] at h ⊢
    · exact .of_plain ha h
    · rw [abort_buffer_eq hrs] at h ⊢
      cases h
      exact ⟨rfl, rfl, rfl, rfl, rfl, .inr ⟨t, n, hash, sigs, rs, rfl, hrs, hph, rfl, rfl⟩,
        .inl ⟨rfl, rfl⟩⟩
    · exact absurd h (commitBlock_reply_ne_err _ _ _ _ _ _)
  | viewChange t =>
    simp only [handleConsensusMessage] at h ⊢
    rw [handleViewChange_of_err env node peerId t signature h]
    exact .refl node _ _ error
  | newView t sigs =>
    simp only [handleConsensusMessage] at h ⊢
    rcases handleNewView_cases env node t sigs with ⟨a, ha, hr⟩ | ⟨-, -, hr⟩ <;> rw [hr] at h ⊢
    · exact .of_plain ha h
    · cases h
  | ackPrepare | ackAppend | ackCommit | ackViewChange | ackNewView => cases h

theorem rejection_atomic_buffered :
    (handleConsensusMessage Env.sample (Node.new 2) 1 0 (.commit 0 1 5 .empty)).reply =
      .err (.wrongPhase .waiting .append) ∧
    RejectFrame (Node.new 2)
      (handleConsensusMessage Env.sample (Node.new 2) 1 0 (.commit 0 1 5 .empty))
      (.commit 0 1 5 .empty) (.wrongPhase .waiting .append) :=
  ⟨by decide, rejection_atomic _ _ _ _ _ _ (by decide)⟩

end Prellblock
