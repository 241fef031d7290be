import Prellblock.Effect

/-!
# A Commit delivered before its Append

`handle_commit_message_inner` buffers a Commit whose slot is still `Waiting` or `Prepare`, and
`handle_append_message` applies the buffered Commit once it has written the Append. The lemmas
below say what each handler does to a replica whose next slot holds no buffered Commit, whatever
the messages carry: a Commit that fails the envelope, leader or term check writes nothing, one
that passes them is buffered in place, and the Append handler never moves the term. From these,
`commit_before_append_commutes` shows that the two deliveries end in the same replica.
-/

namespace Prellblock
set_option autoImplicit false

variable {env : Env}

theorem commitBlock_leaderTerm (x : Node) (n : Nat) (h : BlockHash) (body : Body)
    (sigs : SignatureList) :
    (x.commitBlock n h body sigs).node.followerState.leaderTerm = x.followerState.leaderTerm := by
  unfold Node.commitBlock FollowerState.updateRoundState
  cases x.followerState.roundStates.get n
  · rfl
  · dsimp only [Option.map]
    split_ifs <;> rfl

/-- A faulty, rejected or panicking return commutes with a write of the rounds. -/
theorem abort_roundStates_comm (x : Node) {a : Abort} (ha : a.Plain) (R : RingBuffer RoundState) :
    ({ x with followerState := { x.followerState with roundStates := R } }.abort a).node =
      { (x.abort a).node with followerState :=
        { (x.abort a).node.followerState with roundStates := R } } := by
  cases a with
  | reject => rfl
  | faulty =>
    simp only [Node.abort, Node.requestViewChange, FollowerState.setViewPhase,
      FollowerState.viewPhase_setRoundStates]
    split_ifs <;> rfl
  | buffer => exact ha.elim
  | panic => rfl

theorem handleMessage_of_valid {x : Node} {p : PeerId} {m : ConsensusMessage} {σ : Signature}
    (h₁ : env.peers.contains p = true) (h₂ : env.verify p m σ = true) :
    handleMessage env x ⟨p, m, σ⟩ = handleConsensusMessage env x p σ m := by
  simp only [handleMessage, h₁, h₂, Bool.not_true, Bool.false_eq_true, ↓reduceIte]

theorem handleMessage_of_invalid {x : Node} {p : PeerId} {m : ConsensusMessage} {σ : Signature}
    (h : ¬(env.peers.contains p = true ∧ env.verify p m σ = true)) :
    (handleMessage env x ⟨p, m, σ⟩).node = x := by
  unfold handleMessage
  split_ifs with h₁ h₂
  · rfl
  · rfl
  · exact absurd ⟨by simpa using h₁, by simpa using h₂⟩ h

theorem commitChecks_rejected {fs : FollowerState} {p : PeerId} {t : Nat} (n : Nat)
    (h : BlockHash) (sigs : SignatureList)
    (hl : ¬(env.isCurrentLeader t p = true ∧ t = fs.leaderTerm)) :
    ∃ e, commitChecks env fs p t n h sigs = .error (.reject e) := by
  by_cases hc : env.isCurrentLeader t p = true
  · have ht : t ≠ fs.leaderTerm := fun ht => hl ⟨hc, ht⟩
    simp [commitChecks, check, hc, liftError, FollowerState.verifyMessageMeta, ht, bind,
      Except.bind, Except.mapError]
  · simp [commitChecks, check, hc, bind, Except.bind]

theorem commitChecks_buffered {fs : FollowerState} {p : PeerId} {t : Nat} {h : BlockHash}
    {sigs : SignatureList} {rs : RoundState} (hl : env.isCurrentLeader t p = true)
    (ht : t = fs.leaderTerm) (hrs : fs.roundStates.get (fs.blockNumber + 1) = some rs)
    (hph : rs.phase = .waiting ∨ ∃ meta, rs.phase = .prepare meta) :
    commitChecks env fs p t (fs.blockNumber + 1) h sigs =
      .error (.buffer (fs.blockNumber + 1) (.commit t (fs.blockNumber + 1) h sigs)
        rs.phase.toPhaseName) := by
  subst ht
  rcases hph with hph | ⟨meta, hph⟩ <;>
    simp [commitChecks, check, hl, liftError, FollowerState.verifyMessageMeta,
      FollowerState.roundState, hrs, commitRound, hph, bind, Except.bind, Except.mapError,
      Nat.not_succ_le_self]

/-- Buffering a Commit in a slot above the committed height changes no check of an Append. -/
theorem appendChecks_buffered {fs : FollowerState} {n : Nat} {rs : RoundState}
    (hrs : fs.roundStates.get n = some rs) (hn : fs.blockNumber ≠ n)
    (b : Option ConsensusMessage) (p : PeerId) (t : Nat) (h : BlockHash) (sigs : SignatureList)
    (data : List SignedTransaction) :
    appendChecks env { fs with roundStates :=
        (fs.roundStates.set n { rs with bufferedCommitMessage := b }) } p t n h sigs data =
      appendChecks env fs p t n h sigs data := by
  have h₁ : ({ fs with roundStates := (fs.roundStates.set n
      { rs with bufferedCommitMessage := b }) } : FollowerState).roundState n =
        .ok { rs with bufferedCommitMessage := b } := by
    simp [FollowerState.roundState, RingBuffer.get_set_self _ _ (by simp [hrs] :
      (fs.roundStates.get n).isSome)]
  have h₂ : fs.roundState n = .ok rs := by simp [FollowerState.roundState, hrs]
  simp only [appendChecks, h₁, h₂, appendBody, FollowerState.lastBlockHash_set _ _ hn]
  rfl

/-- A Commit that fails the envelope, the leader or the term check leaves the replica as it
was. -/
theorem commit_rejected_node {x : Node} {p : PeerId} {σ : Signature} {t n : Nat}
    {h : BlockHash} {sigs : SignatureList}
    (hB : ¬(env.peers.contains p = true ∧ env.verify p (.commit t n h sigs) σ = true ∧
      env.isCurrentLeader t p = true ∧ t = x.followerState.leaderTerm)) :
    (handleMessage env x ⟨p, .commit t n h sigs, σ⟩).node = x := by
  by_cases he : env.peers.contains p = true ∧ env.verify p (.commit t n h sigs) σ = true
  · obtain ⟨e, hce⟩ := commitChecks_rejected n h sigs fun hl => hB ⟨he.1, he.2, hl⟩
    rw [handleMessage_of_valid he.1 he.2]
    simp only [handleConsensusMessage]
    rcases handleCommitMessage_cases env x p t n h sigs with ⟨-, hr⟩ | ⟨-, hr⟩ <;> rw [hr]
    simp only [handleCommitMessageInner, hce, Node.abort]
  · exact handleMessage_of_invalid he

/-- A Commit that passes them, for a `Waiting` or `Prepare` slot, is buffered there. -/
theorem commit_buffered_node {x : Node} {p : PeerId} {σ : Signature} {t n : Nat}
    {h : BlockHash} {sigs : SignatureList} {rs : RoundState}
    (hB : env.peers.contains p = true ∧ env.verify p (.commit t n h sigs) σ = true ∧
      env.isCurrentLeader t p = true ∧ t = x.followerState.leaderTerm)
    (hn : n = x.followerState.blockNumber + 1) (hrs : x.followerState.roundStates.get n = some rs)
    (hph : rs.phase = .waiting ∨ ∃ meta, rs.phase = .prepare meta) :
    (handleMessage env x ⟨p, .commit t n h sigs, σ⟩).node = { x with followerState :=
      { x.followerState with roundStates := (x.followerState.roundStates.set n
        { rs with bufferedCommitMessage := some (.commit t n h sigs) }) } } := by
  obtain ⟨h₁, h₂, hl, ht⟩ := hB
  subst hn
  rw [handleMessage_of_valid h₁ h₂]
  simp only [handleConsensusMessage, handleCommitMessage, followerStateInBlock, le_refl,
    decide_True, Bool.not_true, Bool.false_eq_true, ↓reduceIte, handleCommitMessageInner,
    commitChecks_buffered hl ht hrs hph, abort_buffer_eq hrs]

/-- No Append moves the term, whatever it applies. -/
theorem append_leaderTerm (x : Node) (p : PeerId) (σ : Signature) (t n : Nat) (h : BlockHash)
    (sigs : SignatureList) (data : List SignedTransaction) :
    (handleMessage env x ⟨p, .append t n h sigs data, σ⟩).node.followerState.leaderTerm =
      x.followerState.leaderTerm := by
  by_cases he : env.peers.contains p = true ∧ env.verify p (.append t n h sigs data) σ = true
  · rw [handleMessage_of_valid he.1 he.2]
    simp only [handleConsensusMessage]
    rcases handleAppendMessage_cases env x p t n h sigs data with ⟨-, hr⟩ | ⟨a, ha, hr⟩ |
      ⟨meta, body, rs, -, -, ⟨-, hr⟩ | ⟨t', n', h', sigs', -, hr⟩ | ⟨m, -, -, hr⟩⟩ <;> rw [hr]
    · exact (abort_frame x ha).2.1
    · rcases handleCommitMessageInner_cases env _ p t' n' h' sigs' with
        ⟨a, ha, hr'⟩ | ⟨rs', -, -, -, hrs', -, hr'⟩ | ⟨body', -, hr'⟩ <;> rw [hr']
      · exact (abort_frame _ ha).2.1
      · rw [abort_buffer_eq hrs']
      · exact commitBlock_leaderTerm _ _ _ _ _
  · rw [handleMessage_of_invalid he]

/-- A Commit delivered before its Append ends in the same replica as one delivered after it. -/
theorem commit_before_append_commutes (env : Env) (node : Node) {rs : RoundState}
    (hrs : node.followerState.roundStates.get (node.followerState.blockNumber + 1) = some rs)
    (hph : rs.phase = .waiting ∨ ∃ meta, rs.phase = .prepare meta)
    (hbuf : rs.bufferedCommitMessage = none)
    (pc : PeerId) (σc : Signature) (tc : Nat) (hc : BlockHash) (sigsc : SignatureList)
    (pa : PeerId) (σa : Signature) (ta : Nat) (ha : BlockHash) (sigsa : SignatureList)
    (data : List SignedTransaction) :
    exec env node [.message ⟨pc, .commit tc (node.followerState.blockNumber + 1) hc sigsc, σc⟩,
        .message ⟨pa, .append ta (node.followerState.blockNumber + 1) ha sigsa data, σa⟩] =
      exec env node
        [.message ⟨pa, .append ta (node.followerState.blockNumber + 1) ha sigsa data, σa⟩,
        .message ⟨pc, .commit tc (node.followerState.blockNumber + 1) hc sigsc, σc⟩] := by
  simp only [exec, step]
  by_cases hB : env.peers.contains pc = true ∧
      env.verify pc (.commit tc (node.followerState.blockNumber + 1) hc sigsc) σc = true ∧
      env.isCurrentLeader tc pc = true ∧ tc = node.followerState.leaderTerm
  swap
  · rw [commit_rejected_node hB, commit_rejected_node (by rwa [append_leaderTerm])]
  rw [commit_buffered_node hB rfl hrs hph]
  by_cases he : env.peers.contains pa = true ∧
      env.verify pa (.append ta (node.followerState.blockNumber + 1) ha sigsa data) σa = true
  swap
  · rw [handleMessage_of_invalid he, handleMessage_of_invalid he,
      commit_buffered_node hB rfl hrs hph]
  rw [handleMessage_of_valid he.1 he.2, handleMessage_of_valid he.1 he.2]
  simp only [handleConsensusMessage, handleAppendMessage, followerStateInBlock, le_refl,
    decide_True, Bool.not_true, Bool.false_eq_true, ↓reduceIte,
    appendChecks_buffered hrs (Nat.succ_ne_self _).symm]
  rcases hchk : appendChecks env node.followerState pa ta (node.followerState.blockNumber + 1) ha
    sigsa data with a | ⟨meta, body⟩
  · -- a rejected Append: it commutes with the buffering of the Commit
    have hp := abortsIn_appendChecks chainAborts_plain env node.followerState pa ta _ ha sigsa data a hchk
    obtain ⟨hR, hT, hN, -⟩ := abort_frame node hp
    dsimp only
    rw [abort_roundStates_comm _ hp, commit_buffered_node (hT ▸ hB) (by rw [hN]) (hR ▸ hrs) hph, hR]
  · -- an accepted Append, from the leader that sent the Commit
    have hacc := appendChecks_eq_ok.mp hchk
    have hpa : pa = pc := by
      rw [Env.isCurrentLeader_iff.mp hacc.leader, Env.isCurrentLeader_iff.mp hB.2.2.1, hacc.term,
        hB.2.2.2]
    subst hpa
    have hsome : (node.followerState.roundStates.get (node.followerState.blockNumber + 1)).isSome :=
      by simp [hrs]
    simp only [RingBuffer.get_set_self _ _ hsome, hrs, hbuf, RingBuffer.set_set]
    rw [handleMessage_of_valid hB.1 hB.2.1]
    simp only [handleConsensusMessage, handleCommitMessage, followerStateInBlock, le_refl,
      decide_True, Bool.not_true, Bool.false_eq_true, ↓reduceIte]

theorem commit_before_append_commutes_prepared :
    let node := (step Env.sample (Node.new 2) (.message ⟨1, .prepare 0 1 101, 0⟩)).node
    let rs : RoundState := { phase := .prepare ⟨1, 101⟩ }
    (node.followerState.roundStates.get (node.followerState.blockNumber + 1) = some rs ∧
      (rs.phase = .waiting ∨ ∃ meta, rs.phase = .prepare meta) ∧
      rs.bufferedCommitMessage = none) ∧
    exec Env.sample node
        [.message ⟨1, .commit 0 (node.followerState.blockNumber + 1) 101 .sample, 0⟩,
        .message ⟨1, .append 0 (node.followerState.blockNumber + 1) 101 .sample [⟨9, 5, 0⟩], 0⟩] =
      exec Env.sample node
        [.message ⟨1, .append 0 (node.followerState.blockNumber + 1) 101 .sample [⟨9, 5, 0⟩], 0⟩,
        .message ⟨1, .commit 0 (node.followerState.blockNumber + 1) 101 .sample, 0⟩] := by
  intro node rs
  have hrs : node.followerState.roundStates.get (node.followerState.blockNumber + 1) = some rs := by
    decide
  exact ⟨⟨hrs, .inr ⟨_, rfl⟩, rfl⟩, commit_before_append_commutes Env.sample node hrs
    (.inr ⟨_, rfl⟩) rfl 1 0 0 101 .sample 1 0 0 101 .sample [⟨9, 5, 0⟩]⟩

end Prellblock
