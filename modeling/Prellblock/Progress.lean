import Prellblock.Reorder
import Mathlib.Data.List.Permutation

/-!
# A leader's round commits

The safety results bound what a follower accepts; this module shows the bound is met. A round the
term's leader runs as it should (a Prepare, an Append and a Commit for the next height, with
valid signature supermajorities and transactions) is acknowledged and commits, in any of the six
orders the network may deliver its messages in.
-/

namespace Prellblock
set_option autoImplicit false

section Accepted
variable {env : Env} (node : Node) {p : PeerId} {h : BlockHash}

theorem handlePrepareMessage_accepted {rs : RoundState}
    (hl : env.isCurrentLeader node.followerState.leaderTerm p = true)
    (hrs : node.followerState.roundStates.get (node.followerState.blockNumber + 1) = some rs)
    (hph : rs.phase = .waiting) :
    handlePrepareMessage env node p node.followerState.leaderTerm
        (node.followerState.blockNumber + 1) h =
      ⟨{ node with followerState := { node.followerState with
          roundStates := node.followerState.roundStates.set (node.followerState.blockNumber + 1)
            { rs with phase := .prepare ⟨env.leader node.followerState.leaderTerm, h⟩ } } }, [],
        .ok (.ackPrepare node.followerState.leaderTerm
          (node.followerState.blockNumber + 1) h)⟩ := by
  have hc : prepareChecks env node.followerState p node.followerState.leaderTerm
      (node.followerState.blockNumber + 1) = .ok () :=
    prepareChecks_eq_ok.mpr ⟨hl, rfl, Nat.lt_succ_self _, rs, hrs, hph⟩
  simp [handlePrepareMessage, followerStateInBlock, hc, FollowerState.updateRoundState, hrs]

theorem handleAppendMessage_accepted {t n : Nat} {sigs : SignatureList}
    {data : List SignedTransaction} {meta : PhaseMeta} {body : Body} {rs : RoundState}
    (hacc : AppendAccepted env node.followerState p t n h sigs data meta body)
    (hrs : node.followerState.roundStates.get n = some rs)
    (hbuf : rs.bufferedCommitMessage = none) :
    handleAppendMessage env node p t n h sigs data =
      ⟨{ node with followerState := { node.followerState with
          roundStates := node.followerState.roundStates.set n { phase := .append meta body } } },
        [], .ok (.ackAppend node.followerState.leaderTerm n h)⟩ := by
  have hin : followerStateInBlock node.followerState n = true := by
    simp [followerStateInBlock, hacc.number]
  simp [handleAppendMessage, hin, appendChecks_eq_ok.mpr hacc, hrs, hbuf]

theorem handleCommitMessage_accepted {t : Nat} {sigs : SignatureList} {body : Body}
    (hacc : CommitAccepted env node.followerState p t (node.followerState.blockNumber + 1) h sigs
      body) :
    handleCommitMessage env node p t (node.followerState.blockNumber + 1) h sigs =
      node.commitBlock (node.followerState.blockNumber + 1) h body sigs := by
  simp [handleCommitMessage, followerStateInBlock, handleCommitMessageInner,
    commitChecks_eq_ok.mpr hacc]

end Accepted

theorem appendBody_set (fs : FollowerState) (rs : RoundState) (t : Nat)
    (data : List SignedTransaction) :
    appendBody { fs with roundStates := fs.roundStates.set (fs.blockNumber + 1) rs } t
        (fs.blockNumber + 1) data = appendBody fs t (fs.blockNumber + 1) data := by
  simp only [appendBody, FollowerState.lastBlockHash_set fs rs (Nat.succ_ne_self _).symm]

/-- A leader's round at the next height is acknowledged message by message and commits. -/
theorem leader_round_commits (env : Env) (node : Node) (hi : Inv env node.followerState)
    {rs : RoundState}
    (hrs : node.followerState.roundStates.get (node.followerState.blockNumber + 1) = some rs)
    (hph : rs.phase = .waiting) (hbuf : rs.bufferedCommitMessage = none) (p : PeerId)
    (hp : env.peers.contains p = true)
    (hl : env.isCurrentLeader node.followerState.leaderTerm p = true)
    (data : List SignedTransaction) (htx : TransactionsValid env data) (h : BlockHash)
    (hh : h = env.hash (appendBody node.followerState node.followerState.leaderTerm
      (node.followerState.blockNumber + 1) data))
    (sigsP sigsA : SignatureList)
    (hsP : SignaturesValid env
      (.ackPrepare node.followerState.leaderTerm (node.followerState.blockNumber + 1) h) sigsP)
    (hsA : SignaturesValid env
      (.ackAppend node.followerState.leaderTerm (node.followerState.blockNumber + 1) h) sigsA)
    (σ₁ σ₂ σ₃ : Signature)
    (hv₁ : env.verify p
      (.prepare node.followerState.leaderTerm (node.followerState.blockNumber + 1) h) σ₁ = true)
    (hv₂ : env.verify p (.append node.followerState.leaderTerm (node.followerState.blockNumber + 1)
      h sigsP data) σ₂ = true)
    (hv₃ : env.verify p
      (.commit node.followerState.leaderTerm (node.followerState.blockNumber + 1) h sigsA) σ₃ =
        true) :
    (run env node
        [.message ⟨p, .prepare node.followerState.leaderTerm (node.followerState.blockNumber + 1)
            h, σ₁⟩,
          .message ⟨p, .append node.followerState.leaderTerm (node.followerState.blockNumber + 1)
            h sigsP data, σ₂⟩,
          .message ⟨p, .commit node.followerState.leaderTerm (node.followerState.blockNumber + 1)
            h sigsA, σ₃⟩]).map (fun ev => ev.out.reply) =
      [.ok (.ackPrepare node.followerState.leaderTerm (node.followerState.blockNumber + 1) h),
        .ok (.ackAppend node.followerState.leaderTerm (node.followerState.blockNumber + 1) h),
        .ok .ackCommit] ∧
    (exec env node
        [.message ⟨p, .prepare node.followerState.leaderTerm (node.followerState.blockNumber + 1)
            h, σ₁⟩,
          .message ⟨p, .append node.followerState.leaderTerm (node.followerState.blockNumber + 1)
            h sigsP data, σ₂⟩,
          .message ⟨p, .commit node.followerState.leaderTerm (node.followerState.blockNumber + 1)
            h sigsA, σ₃⟩]).blocks =
      node.blocks ++ [⟨appendBody node.followerState node.followerState.leaderTerm
        (node.followerState.blockNumber + 1) data, sigsA⟩] ∧
    (exec env node
        [.message ⟨p, .prepare node.followerState.leaderTerm (node.followerState.blockNumber + 1)
            h, σ₁⟩,
          .message ⟨p, .append node.followerState.leaderTerm (node.followerState.blockNumber + 1)
            h sigsP data, σ₂⟩,
          .message ⟨p, .commit node.followerState.leaderTerm (node.followerState.blockNumber + 1)
            h sigsA, σ₃⟩]).followerState.blockNumber = node.followerState.blockNumber + 1 := by
  set fs := node.followerState
  set meta : PhaseMeta := ⟨env.leader fs.leaderTerm, h⟩
  set body := appendBody fs fs.leaderTerm (fs.blockNumber + 1) data
  -- the Prepare
  set node₁ : Node := { node with followerState := { fs with
    roundStates := fs.roundStates.set (fs.blockNumber + 1) { rs with phase := .prepare meta } } }
  have hs₁ : step env node (.message ⟨p, .prepare fs.leaderTerm (fs.blockNumber + 1) h, σ₁⟩) =
      ⟨node₁, [], .ok (.ackPrepare fs.leaderTerm (fs.blockNumber + 1) h)⟩ := by
    rw [step, handleMessage_of_valid hp hv₁]
    exact handlePrepareMessage_accepted node hl hrs hph
  -- the Append, which takes the Prepare's meta
  have hrs₁ : node₁.followerState.roundStates.get (fs.blockNumber + 1) =
      some { rs with phase := .prepare meta } :=
    RingBuffer.get_set_self _ _ (by simp [hrs])
  have hbody : appendBody node₁.followerState fs.leaderTerm (fs.blockNumber + 1) data = body :=
    appendBody_set fs _ _ data
  have hacc₂ : AppendAccepted env node₁.followerState p fs.leaderTerm (fs.blockNumber + 1) h sigsP
      data meta body :=
    ⟨hl, rfl, rfl, ⟨_, hrs₁, .inr rfl⟩, rfl, hsP, htx, hbody.symm, hh⟩
  set node₂ : Node := { node₁ with followerState := { node₁.followerState with
    roundStates := (node₁.followerState.roundStates.set (fs.blockNumber + 1)
      { phase := .append meta body }) } }
  have hs₂ : step env node₁
      (.message ⟨p, .append fs.leaderTerm (fs.blockNumber + 1) h sigsP data, σ₂⟩) =
      ⟨node₂, [], .ok (.ackAppend fs.leaderTerm (fs.blockNumber + 1) h)⟩ := by
    rw [step, handleMessage_of_valid hp hv₂]
    exact handleAppendMessage_accepted node₁ hacc₂ hrs₁ hbuf
  -- the Commit, of the Append's body
  have hi₂ : Inv env node₂.followerState := (hi.prepare hrs meta).append hacc₂
  have hrs₂ : node₂.followerState.roundStates.get (fs.blockNumber + 1) =
      some { phase := .append meta body } :=
    RingBuffer.get_set_self _ _ (by simp [hrs₁])
  have hs₃ : step env node₂
      (.message ⟨p, .commit fs.leaderTerm (fs.blockNumber + 1) h sigsA, σ₃⟩) =
      node₂.commitBlock (fs.blockNumber + 1) h body sigsA := by
    rw [step, handleMessage_of_valid hp hv₃]
    exact handleCommitMessage_accepted node₂ ⟨hl, rfl, rfl, ⟨_, meta, hrs₂, rfl, rfl⟩, hsA⟩
  have hc := commitBlock_eq hi₂ hrs₂ rfl h sigsA
  simp [run, exec, hs₁, hs₂, hs₃, hc]

theorem leader_round_commits_sample :
    Inv Env.sample (Node.new 2).followerState ∧
    (Node.new 2).followerState.roundStates.get 1 = some {} ∧
    Env.sample.isCurrentLeader 0 1 = true ∧ TransactionsValid Env.sample [⟨9, 5, 0⟩] ∧
    SignaturesValid Env.sample (.ackPrepare 0 1 101) .sample ∧
    SignaturesValid Env.sample (.ackAppend 0 1 101) .sample ∧
    (run Env.sample (Node.new 2) [.message ⟨1, .prepare 0 1 101, 0⟩,
        .message ⟨1, .append 0 1 101 .sample [⟨9, 5, 0⟩], 0⟩,
        .message ⟨1, .commit 0 1 101 .sample, 0⟩]).map (fun ev => ev.out.reply) =
      [.ok (.ackPrepare 0 1 101), .ok (.ackAppend 0 1 101), .ok .ackCommit] ∧
    (exec Env.sample (Node.new 2) [.message ⟨1, .prepare 0 1 101, 0⟩,
        .message ⟨1, .append 0 1 101 .sample [⟨9, 5, 0⟩], 0⟩,
        .message ⟨1, .commit 0 1 101 .sample, 0⟩]).blocks = [⟨⟨0, 1, 0, [⟨9, 5, 0⟩]⟩, .sample⟩] ∧
    (exec Env.sample (Node.new 2) [.message ⟨1, .prepare 0 1 101, 0⟩,
        .message ⟨1, .append 0 1 101 .sample [⟨9, 5, 0⟩], 0⟩,
        .message ⟨1, .commit 0 1 101 .sample, 0⟩]).followerState.blockNumber = 1 :=
  ⟨Inv.new _ 2, rfl, by decide, by decide, by decide, by decide,
    @leader_round_commits Env.sample (Node.new 2) (Inv.new _ 2) {} rfl rfl rfl 1 (by decide)
      (by decide) [⟨9, 5, 0⟩] (by decide) 101 rfl .sample .sample (by decide) (by decide) 0 0 0
      (by decide) (by decide) (by decide)⟩

/-! ## The round in any order -/

/-- The replica with the slot above its committed height replaced by `rs`. -/
def Node.setNext (node : Node) (rs : RoundState) : Node :=
  { node with followerState := { node.followerState with
      roundStates := node.followerState.roundStates.set (node.followerState.blockNumber + 1) rs } }

theorem Node.setNext_setNext (node : Node) (a b : RoundState) :
    (node.setNext a).setNext b = node.setNext b := by
  simp only [Node.setNext, RingBuffer.set_set]

theorem Node.get_setNext {node : Node} {rs : RoundState}
    (hrs : node.followerState.roundStates.get (node.followerState.blockNumber + 1) = some rs)
    (a : RoundState) :
    (node.setNext a).followerState.roundStates.get (node.followerState.blockNumber + 1) = some a :=
  RingBuffer.get_set_self _ _ (by simp [hrs])

section AnyOrder
variable {env : Env} (x : Node) {p : PeerId} {h : BlockHash} {σ : Signature} {rs : RoundState}

theorem prepareChecks_of_committed (fs : FollowerState) (t : Nat) {m : Nat}
    (hm : m ≤ fs.blockNumber) : ∃ e, prepareChecks env fs p t m = .error (.reject e) := by
  by_cases hc : env.isCurrentLeader t p = true
  · by_cases ht : t = fs.leaderTerm
    · subst ht
      simp [prepareChecks, check, hc, liftError, FollowerState.verifyMessageMeta, hm, bind,
        Except.bind, Except.mapError]
    · simp [prepareChecks, check, hc, liftError, FollowerState.verifyMessageMeta, ht, bind,
        Except.bind, Except.mapError]
  · simp [prepareChecks, check, hc, bind, Except.bind]

theorem prepareChecks_of_phase
    (hl : env.isCurrentLeader x.followerState.leaderTerm p = true)
    (hrs : x.followerState.roundStates.get (x.followerState.blockNumber + 1) = some rs)
    (hph : rs.phase ≠ .waiting) :
    prepareChecks env x.followerState p x.followerState.leaderTerm
        (x.followerState.blockNumber + 1) =
      .error (.reject (.wrongPhase rs.phase.toPhaseName .waiting)) := by
  simp [prepareChecks, check, hl, liftError, FollowerState.verifyMessageMeta,
    FollowerState.roundState, hrs, hph, bind, Except.bind, Except.mapError, Nat.not_succ_le_self]

theorem prepare_refused_node {t m : Nat} {e : Error}
    (hc : prepareChecks env x.followerState p t m = .error (.reject e)) :
    (step env x (.message ⟨p, .prepare t m h, σ⟩)).node = x := by
  by_cases he : env.peers.contains p = true ∧ env.verify p (.prepare t m h) σ = true
  · rw [step, handleMessage_of_valid he.1 he.2]
    simp only [handleConsensusMessage, handlePrepareMessage, hc]
    split_ifs <;> rfl
  · exact handleMessage_of_invalid he

theorem prepare_accepted_node (hp : env.peers.contains p = true)
    (hl : env.isCurrentLeader x.followerState.leaderTerm p = true)
    (hv : env.verify p
      (.prepare x.followerState.leaderTerm (x.followerState.blockNumber + 1) h) σ = true)
    (hrs : x.followerState.roundStates.get (x.followerState.blockNumber + 1) = some rs)
    (hph : rs.phase = .waiting) :
    (step env x (.message ⟨p, .prepare x.followerState.leaderTerm
        (x.followerState.blockNumber + 1) h, σ⟩)).node =
      x.setNext { rs with phase := .prepare ⟨env.leader x.followerState.leaderTerm, h⟩ } := by
  rw [step, handleMessage_of_valid hp hv, handleConsensusMessage,
    handlePrepareMessage_accepted x hl hrs hph]
  rfl

theorem AppendAccepted.of_round (hl : env.isCurrentLeader x.followerState.leaderTerm p = true)
    (hrs : x.followerState.roundStates.get (x.followerState.blockNumber + 1) = some rs)
    (hph : rs.phase = .waiting ∨
      rs.phase = .prepare ⟨env.leader x.followerState.leaderTerm, h⟩)
    {sigs : SignatureList}
    (hs : SignaturesValid env
      (.ackPrepare x.followerState.leaderTerm (x.followerState.blockNumber + 1) h) sigs)
    {data : List SignedTransaction} (htx : TransactionsValid env data) {body : Body}
    (hbody : body = appendBody x.followerState x.followerState.leaderTerm
      (x.followerState.blockNumber + 1) data) (hh : h = env.hash body) :
    AppendAccepted env x.followerState p x.followerState.leaderTerm
      (x.followerState.blockNumber + 1) h sigs data ⟨env.leader x.followerState.leaderTerm, h⟩
      body :=
  ⟨hl, rfl, rfl, ⟨rs, hrs, hph.imp (fun hw => ⟨hw, rfl⟩) id⟩, rfl, hs, htx, hbody, hh⟩

theorem append_plain_node {sigs : SignatureList} {data : List SignedTransaction}
    {meta : PhaseMeta} {body : Body} (hp : env.peers.contains p = true)
    (hv : env.verify p (.append x.followerState.leaderTerm (x.followerState.blockNumber + 1) h
      sigs data) σ = true)
    (hacc : AppendAccepted env x.followerState p x.followerState.leaderTerm
      (x.followerState.blockNumber + 1) h sigs data meta body)
    (hrs : x.followerState.roundStates.get (x.followerState.blockNumber + 1) = some rs)
    (hbuf : rs.bufferedCommitMessage = none) :
    (step env x (.message ⟨p, .append x.followerState.leaderTerm
        (x.followerState.blockNumber + 1) h sigs data, σ⟩)).node =
      x.setNext { phase := .append meta body } := by
  rw [step, handleMessage_of_valid hp hv, handleConsensusMessage,
    handleAppendMessage_accepted x hacc hrs hbuf]
  rfl

theorem append_buffered_node {sigs sigsA : SignatureList} {data : List SignedTransaction}
    {meta : PhaseMeta} {body : Body} (hp : env.peers.contains p = true)
    (hv : env.verify p (.append x.followerState.leaderTerm (x.followerState.blockNumber + 1) h
      sigs data) σ = true)
    (hacc : AppendAccepted env x.followerState p x.followerState.leaderTerm
      (x.followerState.blockNumber + 1) h sigs data meta body)
    (hrs : x.followerState.roundStates.get (x.followerState.blockNumber + 1) = some rs)
    (hbuf : rs.bufferedCommitMessage = some
      (.commit x.followerState.leaderTerm (x.followerState.blockNumber + 1) h sigsA))
    (hsA : SignaturesValid env
      (.ackAppend x.followerState.leaderTerm (x.followerState.blockNumber + 1) h) sigsA) :
    (step env x (.message ⟨p, .append x.followerState.leaderTerm
        (x.followerState.blockNumber + 1) h sigs data, σ⟩)).node =
      ((x.setNext { phase := .append meta body }).commitBlock (x.followerState.blockNumber + 1) h
        body sigsA).node := by
  have hin : followerStateInBlock x.followerState (x.followerState.blockNumber + 1) = true := by
    simp [followerStateInBlock]
  have hc : commitChecks env (x.setNext { phase := .append meta body }).followerState p
      x.followerState.leaderTerm (x.followerState.blockNumber + 1) h sigsA = .ok body :=
    commitChecks_eq_ok.mpr ⟨hacc.leader, rfl, rfl,
      ⟨_, meta, Node.get_setNext hrs _, rfl, hacc.hash_meta⟩, hsA⟩
  simp only [Node.setNext] at hc ⊢
  simp [step, handleMessage_of_valid hp hv, handleConsensusMessage, handleAppendMessage, hin,
    appendChecks_eq_ok.mpr hacc, hrs, hbuf, handleCommitMessageInner, hc]

theorem commit_accepted_node {sigs : SignatureList} {body : Body}
    (hp : env.peers.contains p = true)
    (hv : env.verify p
      (.commit x.followerState.leaderTerm (x.followerState.blockNumber + 1) h sigs) σ = true)
    (hacc : CommitAccepted env x.followerState p x.followerState.leaderTerm
      (x.followerState.blockNumber + 1) h sigs body) :
    (step env x (.message ⟨p, .commit x.followerState.leaderTerm
        (x.followerState.blockNumber + 1) h sigs, σ⟩)).node =
      (x.commitBlock (x.followerState.blockNumber + 1) h body sigs).node := by
  rw [step, handleMessage_of_valid hp hv, handleConsensusMessage,
    handleCommitMessage_accepted x hacc]

theorem commit_buffered_next {sigs : SignatureList} (hp : env.peers.contains p = true)
    (hl : env.isCurrentLeader x.followerState.leaderTerm p = true)
    (hv : env.verify p
      (.commit x.followerState.leaderTerm (x.followerState.blockNumber + 1) h sigs) σ = true)
    (hrs : x.followerState.roundStates.get (x.followerState.blockNumber + 1) = some rs)
    (hph : rs.phase = .waiting ∨ ∃ meta, rs.phase = .prepare meta) :
    (step env x (.message ⟨p, .commit x.followerState.leaderTerm
        (x.followerState.blockNumber + 1) h sigs, σ⟩)).node =
      x.setNext { rs with bufferedCommitMessage :=
        (some (.commit x.followerState.leaderTerm (x.followerState.blockNumber + 1) h sigs)) } :=
  commit_buffered_node ⟨hp, hv, hl, rfl⟩ rfl hrs hph

end AnyOrder

/-- Whichever order the round's messages arrive in, the follower ends where the leader's order
leaves it, with the Append's body written. -/
theorem leader_round_commits_in_any_order (env : Env) (node : Node)
    (hi : Inv env node.followerState) {rs : RoundState}
    (hrs : node.followerState.roundStates.get (node.followerState.blockNumber + 1) = some rs)
    (hph : rs.phase = .waiting) (hbuf : rs.bufferedCommitMessage = none) (p : PeerId)
    (hp : env.peers.contains p = true)
    (hl : env.isCurrentLeader node.followerState.leaderTerm p = true)
    (data : List SignedTransaction) (htx : TransactionsValid env data) (h : BlockHash)
    (hh : h = env.hash (appendBody node.followerState node.followerState.leaderTerm
      (node.followerState.blockNumber + 1) data))
    (sigsP sigsA : SignatureList)
    (hsP : SignaturesValid env
      (.ackPrepare node.followerState.leaderTerm (node.followerState.blockNumber + 1) h) sigsP)
    (hsA : SignaturesValid env
      (.ackAppend node.followerState.leaderTerm (node.followerState.blockNumber + 1) h) sigsA)
    (σ₁ σ₂ σ₃ : Signature)
    (hv₁ : env.verify p
      (.prepare node.followerState.leaderTerm (node.followerState.blockNumber + 1) h) σ₁ = true)
    (hv₂ : env.verify p (.append node.followerState.leaderTerm (node.followerState.blockNumber + 1)
      h sigsP data) σ₂ = true)
    (hv₃ : env.verify p
      (.commit node.followerState.leaderTerm (node.followerState.blockNumber + 1) h sigsA) σ₃ =
        true)
    (inputs : List Input)
    (hperm : inputs.Perm
      [.message ⟨p, .prepare node.followerState.leaderTerm (node.followerState.blockNumber + 1)
          h, σ₁⟩,
        .message ⟨p, .append node.followerState.leaderTerm (node.followerState.blockNumber + 1)
          h sigsP data, σ₂⟩,
        .message ⟨p, .commit node.followerState.leaderTerm (node.followerState.blockNumber + 1)
          h sigsA, σ₃⟩]) :
    exec env node inputs = exec env node
      [.message ⟨p, .prepare node.followerState.leaderTerm (node.followerState.blockNumber + 1)
          h, σ₁⟩,
        .message ⟨p, .append node.followerState.leaderTerm (node.followerState.blockNumber + 1)
          h sigsP data, σ₂⟩,
        .message ⟨p, .commit node.followerState.leaderTerm (node.followerState.blockNumber + 1)
          h sigsA, σ₃⟩] ∧
    (exec env node inputs).blocks =
      node.blocks ++ [⟨appendBody node.followerState node.followerState.leaderTerm
        (node.followerState.blockNumber + 1) data, sigsA⟩] := by
  have horders := List.mem_permutations'.mpr hperm
  simp only [List.permutations', List.permutations'Aux, List.flatMap_cons, List.flatMap_nil,
    List.map_cons, List.map_nil, List.cons_append, List.nil_append, List.append_nil,
    List.mem_cons, List.mem_singleton, List.not_mem_nil, or_false] at horders
  set fs := node.followerState
  set meta : PhaseMeta := ⟨env.leader fs.leaderTerm, h⟩
  set body := appendBody fs fs.leaderTerm (fs.blockNumber + 1) data
  have hget := Node.get_setNext hrs
  have hbody : ∀ a, body = appendBody (node.setNext a).followerState fs.leaderTerm
      (fs.blockNumber + 1) data := fun a => (appendBody_set fs a _ data).symm
  -- the slot values a delivery order passes through
  set aP : RoundState := { rs with phase := .prepare meta }
  set aA : RoundState := { phase := .append meta body }
  set aC : RoundState := { rs with
    bufferedCommitMessage := some (.commit fs.leaderTerm (fs.blockNumber + 1) h sigsA) }
  set aPC : RoundState := { aP with
    bufferedCommitMessage := some (.commit fs.leaderTerm (fs.blockNumber + 1) h sigsA) }
  set iP : Input := .message ⟨p, .prepare fs.leaderTerm (fs.blockNumber + 1) h, σ₁⟩
  set iA : Input := .message ⟨p, .append fs.leaderTerm (fs.blockNumber + 1) h sigsP data, σ₂⟩
  set iC : Input := .message ⟨p, .commit fs.leaderTerm (fs.blockNumber + 1) h sigsA, σ₃⟩
  have hacc₀ := AppendAccepted.of_round node hl hrs (.inl hph) hsP htx rfl hh
  have hiA : Inv env (node.setNext aA).followerState := hi.append hacc₀
  have hcommit : (node.setNext aA).commitBlock (fs.blockNumber + 1) h body sigsA = _ :=
    commitBlock_eq hiA (hget aA) rfl h sigsA
  set F := ((node.setNext aA).commitBlock (fs.blockNumber + 1) h body sigsA).node
  have hFbn : F.followerState.blockNumber = fs.blockNumber + 1 := by
    simp only [F, hcommit]
    rfl
  have hacc : ∀ a, a.phase = .waiting ∨ a.phase = .prepare meta →
      AppendAccepted env (node.setNext a).followerState p fs.leaderTerm (fs.blockNumber + 1) h
        sigsP data meta body :=
    fun a ha => AppendAccepted.of_round (node.setNext a) hl (hget a) ha hsP htx (hbody a) hh
  -- what each message does at each point
  have sP₀ : (step env node iP).node = node.setNext aP :=
    prepare_accepted_node node hp hl hv₁ hrs hph
  have sPC : (step env (node.setNext aC) iP).node = node.setNext aPC :=
    (prepare_accepted_node (node.setNext aC) hp hl hv₁ (hget aC) hph).trans
      (Node.setNext_setNext _ _ _)
  have sPA : (step env (node.setNext aA) iP).node = node.setNext aA :=
    prepare_refused_node _
      (prepareChecks_of_phase (node.setNext aA) hl (hget aA) (fun he => by cases he))
  have sPF : (step env F iP).node = F :=
    (prepareChecks_of_committed F.followerState fs.leaderTerm hFbn.ge).elim fun _ he =>
      prepare_refused_node F he
  have sA₀ : (step env node iA).node = node.setNext aA :=
    append_plain_node node hp hv₂ hacc₀ hrs hbuf
  have sAP : (step env (node.setNext aP) iA).node = node.setNext aA :=
    (append_plain_node (node.setNext aP) hp hv₂ (hacc aP (.inr rfl)) (hget aP) hbuf).trans
      (Node.setNext_setNext _ _ _)
  have sAC : (step env (node.setNext aC) iA).node = F :=
    (append_buffered_node (node.setNext aC) hp hv₂ (hacc aC (.inl hph)) (hget aC) rfl hsA).trans
      (by rw [Node.setNext_setNext]; rfl)
  have sAPC : (step env (node.setNext aPC) iA).node = F :=
    (append_buffered_node (node.setNext aPC) hp hv₂ (hacc aPC (.inr rfl)) (hget aPC) rfl
      hsA).trans
      (by rw [Node.setNext_setNext]; rfl)
  have sC₀ : (step env node iC).node = node.setNext aC :=
    commit_buffered_next node hp hl hv₃ hrs (.inl hph)
  have sCP : (step env (node.setNext aP) iC).node = node.setNext aPC :=
    (commit_buffered_next (node.setNext aP) hp hl hv₃ (hget aP) (.inr ⟨meta, rfl⟩)).trans
      (Node.setNext_setNext _ _ _)
  have sCA : (step env (node.setNext aA) iC).node = F :=
    commit_accepted_node (node.setNext aA) hp hv₃
      ⟨hl, rfl, rfl, ⟨_, meta, hget aA, rfl, rfl⟩, hsA⟩
  suffices hex : exec env node inputs = F by
    refine ⟨hex.trans ?_, ?_⟩
    · simp only [exec, sP₀, sAP, sCA]
    · rw [hex]
      simp only [F, hcommit]
      rfl
  rcases horders with rfl | rfl | rfl | rfl | rfl | rfl <;>
    simp only [exec, sP₀, sPC, sPA, sPF, sA₀, sAP, sAC, sAPC, sC₀, sCP, sCA]

theorem leader_round_commits_in_any_order_sample :
    Inv Env.sample (Node.new 2).followerState ∧
    (Node.new 2).followerState.roundStates.get 1 = some {} ∧
    Env.sample.isCurrentLeader 0 1 = true ∧ TransactionsValid Env.sample [⟨9, 5, 0⟩] ∧
    SignaturesValid Env.sample (.ackPrepare 0 1 101) .sample ∧
    SignaturesValid Env.sample (.ackAppend 0 1 101) .sample ∧
    List.Perm ([.message ⟨1, .commit 0 1 101 .sample, 0⟩,
        .message ⟨1, .append 0 1 101 .sample [⟨9, 5, 0⟩], 0⟩,
        .message ⟨1, .prepare 0 1 101, 0⟩] : List Input)
      [.message ⟨1, .prepare 0 1 101, 0⟩, .message ⟨1, .append 0 1 101 .sample [⟨9, 5, 0⟩], 0⟩,
        .message ⟨1, .commit 0 1 101 .sample, 0⟩] ∧
    exec Env.sample (Node.new 2) [.message ⟨1, .commit 0 1 101 .sample, 0⟩,
        .message ⟨1, .append 0 1 101 .sample [⟨9, 5, 0⟩], 0⟩,
        .message ⟨1, .prepare 0 1 101, 0⟩] =
      exec Env.sample (Node.new 2) [.message ⟨1, .prepare 0 1 101, 0⟩,
        .message ⟨1, .append 0 1 101 .sample [⟨9, 5, 0⟩], 0⟩,
        .message ⟨1, .commit 0 1 101 .sample, 0⟩] ∧
    (exec Env.sample (Node.new 2) [.message ⟨1, .commit 0 1 101 .sample, 0⟩,
        .message ⟨1, .append 0 1 101 .sample [⟨9, 5, 0⟩], 0⟩,
        .message ⟨1, .prepare 0 1 101, 0⟩]).blocks = [⟨⟨0, 1, 0, [⟨9, 5, 0⟩]⟩, .sample⟩] :=
  have hperm : List.Perm ([.message ⟨1, .commit 0 1 101 .sample, 0⟩,
      .message ⟨1, .append 0 1 101 .sample [⟨9, 5, 0⟩], 0⟩,
      .message ⟨1, .prepare 0 1 101, 0⟩] : List Input)
      [.message ⟨1, .prepare 0 1 101, 0⟩, .message ⟨1, .append 0 1 101 .sample [⟨9, 5, 0⟩], 0⟩,
        .message ⟨1, .commit 0 1 101 .sample, 0⟩] :=
    ((List.Perm.swap _ _ _).trans ((List.Perm.swap _ _ _).cons _)).trans (List.Perm.swap _ _ _)
  ⟨Inv.new _ 2, rfl, by decide, by decide, by decide, by decide, hperm,
    @leader_round_commits_in_any_order Env.sample (Node.new 2) (Inv.new _ 2) {} rfl rfl rfl 1
      (by decide) (by decide) [⟨9, 5, 0⟩] (by decide) 101 rfl .sample .sample (by decide)
      (by decide) 0 0 0 (by decide) (by decide) (by decide) _ hperm⟩

end Prellblock
