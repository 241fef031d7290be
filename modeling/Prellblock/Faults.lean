import Prellblock.Reorder

/-!
# Leader faults and view changes

`handle_append_message` and `handle_commit_message_inner` call `request_view_change` before
they return `NotEnoughSignatures`, `EmptyBlock` or `InvalidSignature`: whenever a verified
proposal is refused with one of these, the follower has moved the next term's view phase to
`ViewChanging` and broadcast `ViewChange` (`leader_fault_requests_view_change`). Two refusals for
a leader's fault skip the request: a hash that differs from the Prepare's (`ChangedBlockHash`),
and a signer of the signature map that is not an RPU, which `verify_is_rpu(..)?` returns as
`PermissionDenied` (`leader_fault_without_view_change`).
-/

namespace Prellblock
set_option autoImplicit false

/-- A Prepare, Append or Commit: what a leader sends. -/
def ConsensusMessage.isProposal : ConsensusMessage → Bool
  | .prepare .. | .append .. | .commit .. => true
  | _ => false

/-- An early return that reports a leader fault only with a view change request. -/
def Abort.Announced : Abort → Prop
  | .reject e => e.isLeaderFault = false
  | _ => True

theorem chainAborts_announced : ChainAborts Abort.Announced :=
  ⟨fun _ h => h, fun _ _ => trivial, trivial⟩

section Handlers
variable {env : Env} {node : Node} {e : Error}

/-- An early return reported with a leader fault error is a view change request. -/
theorem abort_of_leaderFault {a : Abort} (ha : a.Announced) (he : e.isLeaderFault = true)
    (h : (node.abort a).reply = .err e) :
    node.abort a = ⟨node.requestViewChange.1, node.requestViewChange.2, .err e⟩ := by
  cases a with
  | reject e' =>
    cases h
    simp [Abort.Announced, he] at ha
  | faulty e' =>
    cases h
    rfl
  | buffer n m c =>
    simp only [Node.abort] at h
    split at h <;> cases h
    exact absurd he (by simp [Error.isLeaderFault])
  | panic => cases h

theorem handlePrepareMessage_leaderFault {p : PeerId} {t n : Nat} {h : BlockHash}
    (he : e.isLeaderFault = true) (hr : (handlePrepareMessage env node p t n h).reply = .err e) :
    handlePrepareMessage env node p t n h =
      ⟨node.requestViewChange.1, node.requestViewChange.2, .err e⟩ := by
  unfold handlePrepareMessage at hr ⊢
  split_ifs at hr ⊢
  cases hc : prepareChecks env node.followerState p t n with
  | error a =>
    simp only [hc] at hr ⊢
    exact abort_of_leaderFault (abortsIn_prepareChecks chainAborts_announced _ _ _ _ _ a hc) he hr
  | ok u =>
    simp only [hc] at hr
    split at hr <;> cases hr

theorem handleCommitMessageInner_leaderFault {p : PeerId} {t n : Nat} {h : BlockHash}
    {sigs : SignatureList} (he : e.isLeaderFault = true)
    (hr : (handleCommitMessageInner env node p t n h sigs).reply = .err e) :
    handleCommitMessageInner env node p t n h sigs =
      ⟨node.requestViewChange.1, node.requestViewChange.2, .err e⟩ := by
  unfold handleCommitMessageInner at hr ⊢
  cases hc : commitChecks env node.followerState p t n h sigs with
  | error a =>
    simp only [hc] at hr ⊢
    exact abort_of_leaderFault (abortsIn_commitChecks chainAborts_announced (fun _ _ _ => trivial)
      _ _ _ _ _ _ _ a hc) he hr
  | ok body =>
    simp only [hc] at hr
    exact absurd hr (commitBlock_reply_ne_err _ _ _ _ _ _)

theorem handleAppendMessage_leaderFault {p : PeerId} {t n : Nat} {h : BlockHash}
    {sigs : SignatureList} {data : List SignedTransaction} (he : e.isLeaderFault = true)
    (hr : (handleAppendMessage env node p t n h sigs data).reply = .err e) :
    handleAppendMessage env node p t n h sigs data =
      ⟨node.requestViewChange.1, node.requestViewChange.2, .err e⟩ := by
  unfold handleAppendMessage at hr ⊢
  split_ifs at hr ⊢
  cases hc : appendChecks env node.followerState p t n h sigs data with
  | error a =>
    simp only [hc] at hr ⊢
    exact abort_of_leaderFault (abortsIn_appendChecks chainAborts_announced _ _ _ _ _ _ _ _ a hc)
      he hr
  | ok mb =>
    simp only [hc] at hr
    repeat' split at hr
    all_goals first | cases hr | exact absurd hr (afterBufferedCommit_ne_err _ _ _)

end Handlers

/-- A verified proposal refused with a leader-fault error is `request_view_change`'s step. -/
theorem leader_fault_requests_view_change (env : Env) (node : Node) (p : PeerId)
    (m : ConsensusMessage) (σ : Signature) (hm : m.isProposal = true)
    (hp : env.peers.contains p = true) (hv : env.verify p m σ = true) {e : Error}
    (he : e.isLeaderFault = true) (hr : (step env node (.message ⟨p, m, σ⟩)).reply = .err e) :
    step env node (.message ⟨p, m, σ⟩) =
      ⟨node.requestViewChange.1, node.requestViewChange.2, .err e⟩ := by
  simp only [step, handleMessage_of_valid hp hv] at hr ⊢
  cases m with
  | prepare t n h => exact handlePrepareMessage_leaderFault he hr
  | append t n h sigs data => exact handleAppendMessage_leaderFault he hr
  | commit t n h sigs =>
    rcases handleCommitMessage_cases env node p t n h sigs with ⟨-, hc⟩ | ⟨-, hc⟩ <;>
      simp only [handleConsensusMessage, hc] at hr ⊢
    · cases hr
    · exact handleCommitMessageInner_leaderFault he hr
  | _ => cases hm

theorem leader_fault_requests_view_change_empty :
    let m := ConsensusMessage.append 0 1 100 .sample []
    m.isProposal = true ∧ Env.sample.peers.contains 1 = true ∧ Env.sample.verify 1 m 0 = true ∧
      Error.emptyBlock.isLeaderFault = true ∧
      (step Env.sample (Node.new 2) (.message ⟨1, m, 0⟩)).reply = .err .emptyBlock ∧
      step Env.sample (Node.new 2) (.message ⟨1, m, 0⟩) =
        ⟨(Node.new 2).requestViewChange.1, (Node.new 2).requestViewChange.2, .err .emptyBlock⟩ := by
  intro m
  have hr : (step Env.sample (Node.new 2) (.message ⟨1, m, 0⟩)).reply = .err .emptyBlock := by
    decide
  exact ⟨rfl, rfl, rfl, rfl, hr, leader_fault_requests_view_change Env.sample (Node.new 2) 1 m 0
    rfl rfl rfl rfl hr⟩

/-- Two Appends refused for a leader's fault without a view change: a signer that is not an RPU,
and a hash that differs from the Prepare's. -/
theorem leader_fault_without_view_change :
    step Env.sample (Node.new 2)
        (.message ⟨1, .append 0 1 101 ⟨[(1, 0), (2, 0), (7, 0)], by decide⟩ [⟨9, 5, 0⟩], 0⟩) =
      ⟨Node.new 2, [], .err .permissionDenied⟩ ∧
    step Env.sample (step Env.sample (Node.new 2) (.message ⟨1, .prepare 0 1 101, 0⟩)).node
        (.message ⟨1, .append 0 1 102 .sample [⟨9, 5, 0⟩], 0⟩) =
      ⟨(step Env.sample (Node.new 2) (.message ⟨1, .prepare 0 1 101, 0⟩)).node, [],
        .err .changedBlockHash⟩ :=
  ⟨rfl, rfl⟩

/-! ## Terms only move forward -/

section Terms
variable {env : Env} {node : Node}

/-- A step keeps the follower's term, or accepts a NewView and moves to a higher one. -/
theorem Effect.leaderTerm {input : Input} {r : Handled} (he : Effect env node input r) :
    r.node.followerState.leaderTerm = node.followerState.leaderTerm ∨
      node.followerState.leaderTerm < r.node.followerState.leaderTerm ∧
        r.reply = .ok .ackNewView := by
  cases he with
  | frame _ ht => exact .inl ht
  | buffer | prepare | append => exact .inl rfl
  | appendCommit | commit => exact .inl (commitBlock_leaderTerm _ _ _ _ _)
  | appendAbort _ _ _ _ ha => exact .inl (abort_frame _ ha).2.1
  | newView _ ht => exact .inr ⟨ht, rfl⟩

/-- A follower's term never goes back: over any run, every step keeps the term or accepts a
NewView for a higher one, so the term at the end is at least the term at the start. -/
theorem leader_term_never_decreases (env : Env) (node : Node) (hi : Inv env node.followerState)
    (inputs : List Input) :
    (∀ ev ∈ run env node inputs,
      ev.out.node.followerState.leaderTerm = ev.pre.followerState.leaderTerm ∨
        ev.pre.followerState.leaderTerm < ev.out.node.followerState.leaderTerm ∧
          ev.out.reply = .ok .ackNewView) ∧
      node.followerState.leaderTerm ≤ (exec env node inputs).followerState.leaderTerm := by
  induction inputs generalizing node with
  | nil => exact ⟨fun _ h => absurd h (List.not_mem_nil _), le_rfl⟩
  | cons input inputs ih =>
    have hs := (step_effect hi input).leaderTerm
    obtain ⟨hrun, hle⟩ := ih _ (step_inv hi input)
    refine ⟨List.forall_mem_cons.mpr ⟨hs, hrun⟩, ?_⟩
    simp only [exec]
    rcases hs with hs | ⟨hs, -⟩ <;> omega

/-- A NewView for term 1 with a supermajority of ViewChange signatures, then a Prepare of the
old term: the first moves the term, the second keeps it. -/
theorem leader_term_never_decreases_sample :
    (∀ ev ∈ run Env.sample (Node.new 2)
        [.message ⟨2, .newView 1 .sample, 0⟩, .message ⟨1, .prepare 0 1 101, 0⟩],
      ev.out.node.followerState.leaderTerm = ev.pre.followerState.leaderTerm ∨
        ev.pre.followerState.leaderTerm < ev.out.node.followerState.leaderTerm ∧
          ev.out.reply = .ok .ackNewView) ∧
      (Node.new 2).followerState.leaderTerm ≤ (exec Env.sample (Node.new 2)
        [.message ⟨2, .newView 1 .sample, 0⟩,
          .message ⟨1, .prepare 0 1 101, 0⟩]).followerState.leaderTerm :=
  leader_term_never_decreases Env.sample (Node.new 2) (Inv.new _ 2) _

end Terms

end Prellblock
