import Prellblock.Progress

/-!
# Messages delivered again

A duplicated or replayed message is handled twice. Each delivery deserializes its own signature
maps, so the copy may iterate them in another order (`ConsensusMessage.Reordered`). Delivered
right after the first, it ends every run where one of the two copies alone would
(`duplicate_delivery_changes_nothing`). A message for a committed height is refused and changes
nothing (`committed_height_message_refused`). A repeated ViewChange is left out: the list that
models the follower's view phases gains a second entry.
-/

namespace Prellblock
set_option autoImplicit false

section Abort
variable {x : Node} {a a' : Abort}

@[simp] theorem FollowerState.leaderTerm_putViewPhase (fs : FollowerState) (t : Nat)
    (p : ViewPhase) :
    (fs.putViewPhase t p).leaderTerm = fs.leaderTerm := rfl

/-- `set_view_phase` does not write a term's `ViewChanging` twice. -/
theorem requestViewChange_idem (x : Node) :
    x.requestViewChange.1.requestViewChange.1 = x.requestViewChange.1 := by
  rcases requestViewChange_fst x with hx | hx <;> rw [hx]
  · exact hx
  · simp [Node.requestViewChange, FollowerState.setViewPhase, ViewPhase.rank]

theorem abort_viewStates (x : Node) (ha : a.Plain) :
    ∃ v, (x.abort a).node =
      { x with followerState := { x.followerState with viewStates := v } } := by
  rcases abort_node_of_plain ha with hx | hx
  · exact ⟨x.followerState.viewStates, hx⟩
  · rw [hx]
    rcases requestViewChange_fst x with hr | hr <;> rw [hr]
    · exact ⟨x.followerState.viewStates, rfl⟩
    · exact ⟨_, rfl⟩

/-- Two plain early returns in a row leave the replica where one of them alone does. -/
theorem abort_abort (ha : a.Plain) (ha' : a'.Plain) :
    ((x.abort a).node.abort a').node = (x.abort a).node ∨
      ((x.abort a).node.abort a').node = (x.abort a').node := by
  cases a' with
  | faulty e' =>
    cases a with
    | faulty e => exact .inl (requestViewChange_idem x)
    | buffer => exact ha.elim
    | reject | panic => exact .inr rfl
  | buffer => exact ha'.elim
  | reject | panic => exact .inl rfl

theorem abort_again (H H' : Node → Handled) (ha : a.Plain) (ha' : a'.Plain)
    (hH : H x = x.abort a)
    (hH' : ∀ v, H' { x with followerState := { x.followerState with viewStates := v } } =
      Node.abort { x with followerState := { x.followerState with viewStates := v } } a') :
    (H' (H x).node).node = (H x).node ∨ (H' (H x).node).node = (H' x).node := by
  obtain ⟨v, hv⟩ := abort_viewStates x ha
  rw [hH, hv, hH' v, ← hv, show H' x = x.abort a' from hH' x.followerState.viewStates]
  exact abort_abort ha ha'

end Abort

/-! ## Signature maps in another order -/

/-- A second copy of a message: its signature maps hold the same entries, in any order. -/
inductive ConsensusMessage.Reordered : ConsensusMessage → ConsensusMessage → Prop
  | append {t n h data} {sigs sigs' : SignatureList} : sigs.entries.Perm sigs'.entries →
      Reordered (.append t n h sigs data) (.append t n h sigs' data)
  | commit {t n h} {sigs sigs' : SignatureList} : sigs.entries.Perm sigs'.entries →
      Reordered (.commit t n h sigs) (.commit t n h sigs')
  | newView {t} {sigs sigs' : SignatureList} : sigs.entries.Perm sigs'.entries →
      Reordered (.newView t sigs) (.newView t sigs')
  | refl (m : ConsensusMessage) : Reordered m m

/-- A second copy of an envelope: the same sender and signature, the message reordered. -/
def Signed.Reordered (s s' : Signed) : Prop :=
  s.signer = s'.signer ∧ s.message.Reordered s'.message ∧ s.signature = s'.signature

section Reordered
variable {env : Env} {fs : FollowerState} {p : PeerId} {t n : Nat} {h : BlockHash}
  {sigs sigs' : SignatureList} (hp : sigs.entries.Perm sigs'.entries)
include hp

theorem SignaturesValid.perm {m : ConsensusMessage} (hv : SignaturesValid env m sigs) :
    SignaturesValid env m sigs' :=
  ⟨(show sigs'.len = sigs.len from hp.length_eq.symm) ▸ hv.1,
    fun e he => hv.2 e (hp.mem_iff.mpr he)⟩

theorem appendChecks_reordered {data : List SignedTransaction} {r : PhaseMeta × Body}
    (hc : appendChecks env fs p t n h sigs data = .ok r) :
    appendChecks env fs p t n h sigs' data = .ok r := by
  obtain ⟨meta, body⟩ := r
  have hacc := appendChecks_eq_ok.mp hc
  exact appendChecks_eq_ok.mpr { hacc with signatures := hacc.signatures.perm hp }

theorem commitChecks_reordered {body : Body} (hc : commitChecks env fs p t n h sigs = .ok body) :
    commitChecks env fs p t n h sigs' = .ok body := by
  have hacc := commitChecks_eq_ok.mp hc
  exact commitChecks_eq_ok.mpr { hacc with signatures := hacc.signatures.perm hp }

theorem newViewChecks_reordered : newViewChecks env fs t sigs' = newViewChecks env fs t sigs := by
  have hall : ∀ f : PeerId × Signature → Bool, sigs'.entries.all f = sigs.entries.all f :=
    fun f => Bool.eq_iff_iff.mpr (by simp only [List.all_eq_true, hp.mem_iff])
  simp only [newViewChecks, SignatureList.len, hp.length_eq, hall]

end Reordered

section Refusals
variable {env : Env} (p : PeerId) (t n : Nat) (h : BlockHash) (sigs : SignatureList)
  (data : List SignedTransaction)

theorem FollowerState.verifyMessageMeta_of_le {fs : FollowerState} (hn : n ≤ fs.blockNumber) :
    ∃ e, fs.verifyMessageMeta t n = .error e := by
  unfold FollowerState.verifyMessageMeta
  split_ifs
  · exact ⟨_, rfl⟩
  · exact ⟨_, rfl⟩

theorem appendChecks_of_committed (fs : FollowerState) (hn : n ≤ fs.blockNumber) :
    ∃ e, appendChecks env fs p t n h sigs data = .error (.reject e) := by
  obtain ⟨e, hm⟩ := FollowerState.verifyMessageMeta_of_le t n hn
  by_cases hl : env.isCurrentLeader t p = true <;>
    simp [appendChecks, check, hl, liftError, hm, bind, Except.bind, Except.mapError]

theorem appendChecks_of_appended (fs : FollowerState) {rs : RoundState} {meta : PhaseMeta}
    {body : Body} (hrs : fs.roundStates.get n = some rs) (hph : rs.phase = .append meta body) :
    ∃ e, appendChecks env fs p t n h sigs data = .error (.reject e) := by
  by_cases hl : env.isCurrentLeader t p = true
  · cases hm : fs.verifyMessageMeta t n <;>
      simp [appendChecks, check, hl, liftError, hm, FollowerState.roundState, hrs, hph, appendMeta,
        bind, Except.bind, Except.mapError]
  · simp [appendChecks, check, hl, bind, Except.bind]

theorem commitChecks_of_committed (fs : FollowerState) (hn : n ≤ fs.blockNumber) :
    ∃ e, commitChecks env fs p t n h sigs = .error (.reject e) := by
  obtain ⟨e, hm⟩ := FollowerState.verifyMessageMeta_of_le t n hn
  by_cases hl : env.isCurrentLeader t p = true <;>
    simp [commitChecks, check, hl, liftError, hm, bind, Except.bind, Except.mapError]

theorem newViewChecks_of_le {fs : FollowerState} (ht : t ≤ fs.leaderTerm) :
    newViewChecks env fs t sigs = .error (.reject .wrongLeaderTerm) := by
  simp [newViewChecks, check, Nat.not_lt.mpr ht, bind, Except.bind]

variable (x : Node)

theorem handlePrepareMessage_of_error {a : Abort}
    (hb : followerStateInBlock x.followerState n = true)
    (hc : prepareChecks env x.followerState p t n = .error a) :
    handlePrepareMessage env x p t n h = x.abort a := by
  simp [handlePrepareMessage, hb, hc]

theorem handleAppendMessage_of_error {a : Abort}
    (hb : followerStateInBlock x.followerState n = true)
    (hc : appendChecks env x.followerState p t n h sigs data = .error a) :
    handleAppendMessage env x p t n h sigs data = x.abort a := by
  simp [handleAppendMessage, hb, hc]

theorem handleCommitMessage_of_error {a : Abort}
    (hb : followerStateInBlock x.followerState n = true)
    (hc : commitChecks env x.followerState p t n h sigs = .error a) :
    handleCommitMessage env x p t n h sigs = x.abort a := by
  simp [handleCommitMessage, hb, handleCommitMessageInner, hc]

theorem handleNewView_of_error {a : Abort}
    (hc : newViewChecks env x.followerState t sigs = .error a) :
    handleNewView env x t sigs = x.abort a := by
  simp [handleNewView, hc]

theorem handlePrepareMessage_of_reject
    (hc : ∃ e, prepareChecks env x.followerState p t n = .error (.reject e)) :
    (handlePrepareMessage env x p t n h).node = x := by
  obtain ⟨e, hc⟩ := hc
  unfold handlePrepareMessage
  split_ifs <;> simp [hc, Node.abort]

theorem handleAppendMessage_of_reject
    (hc : ∃ e, appendChecks env x.followerState p t n h sigs data = .error (.reject e)) :
    (handleAppendMessage env x p t n h sigs data).node = x := by
  obtain ⟨e, hc⟩ := hc
  unfold handleAppendMessage
  split_ifs <;> simp [hc, Node.abort]

theorem handleCommitMessage_of_reject
    (hc : ∃ e, commitChecks env x.followerState p t n h sigs = .error (.reject e)) :
    (handleCommitMessage env x p t n h sigs).node = x := by
  obtain ⟨e, hc⟩ := hc
  unfold handleCommitMessage
  split_ifs <;> simp [handleCommitMessageInner, hc, Node.abort]

end Refusals

/-! ## Each handler, run twice -/

section Twice
variable {env : Env} (x : Node) (p : PeerId) (t n : Nat) (h : BlockHash)
  {sigs sigs' : SignatureList} (data : List SignedTransaction)

theorem handlePrepareMessage_twice :
    (handlePrepareMessage env (handlePrepareMessage env x p t n h).node p t n h).node =
      (handlePrepareMessage env x p t n h).node := by
  by_cases hb : followerStateInBlock x.followerState n = true
  · cases hc : prepareChecks env x.followerState p t n with
    | error a =>
      have ha := abortsIn_prepareChecks chainAborts_plain _ _ _ _ _ a hc
      exact (abort_again (handlePrepareMessage env · p t n h) (handlePrepareMessage env · p t n h)
        ha ha (handlePrepareMessage_of_error p t n h x hb hc)
        fun _ => handlePrepareMessage_of_error p t n h _ hb hc).elim id id
    | ok u =>
      obtain ⟨hl, rfl, hlt, rs, hrs, hph⟩ := prepareChecks_eq_ok.mp hc
      obtain rfl := eq_of_inBlock hb hlt
      rw [handlePrepareMessage_accepted x hl hrs hph]
      exact handlePrepareMessage_of_reject p _ _ h _ ⟨_, prepareChecks_of_phase
        (x.setNext { rs with phase := .prepare ⟨env.leader x.followerState.leaderTerm, h⟩ }) hl
        (Node.get_setNext hrs _) (by simp)⟩
  · simp [handlePrepareMessage, hb]

/-- The copy of an accepted Append is refused before its signature loop. -/
theorem handleAppendMessage_twice (hi : Inv env x.followerState)
    (hp : sigs.entries.Perm sigs'.entries) :
    (handleAppendMessage env (handleAppendMessage env x p t n h sigs data).node p t n h sigs'
      data).node = (handleAppendMessage env x p t n h sigs data).node ∨
    (handleAppendMessage env (handleAppendMessage env x p t n h sigs data).node p t n h sigs'
      data).node = (handleAppendMessage env x p t n h sigs' data).node := by
  by_cases hb : followerStateInBlock x.followerState n = true
  swap
  · exact .inl (by simp [handleAppendMessage, hb])
  cases hc : appendChecks env x.followerState p t n h sigs data with
  | error a =>
    cases hc' : appendChecks env x.followerState p t n h sigs' data with
    | error a' =>
      exact abort_again (handleAppendMessage env · p t n h sigs data)
        (handleAppendMessage env · p t n h sigs' data)
        (abortsIn_appendChecks chainAborts_plain _ _ _ _ _ _ _ _ a hc)
        (abortsIn_appendChecks chainAborts_plain _ _ _ _ _ _ _ _ a' hc')
        (handleAppendMessage_of_error p t n h sigs data x hb hc)
        fun _ => handleAppendMessage_of_error p t n h sigs' data _ hb hc'
    | ok r => cases hc.symm.trans (appendChecks_reordered hp.symm hc')
  | ok r =>
    refine .inl ?_
    obtain ⟨meta, body⟩ := r
    have hacc := appendChecks_eq_ok.mp hc
    obtain rfl := hacc.number
    obtain ⟨rs, hrs, -⟩ := hacc.slot
    have hslot := Node.get_setNext hrs { phase := .append meta body }
    rcases hbuf : rs.bufferedCommitMessage with _ | m
    · rw [handleAppendMessage_accepted x hacc hrs hbuf]
      exact handleAppendMessage_of_reject p t _ h sigs' data _
        (appendChecks_of_appended p t _ h sigs' data _ hslot rfl)
    obtain ⟨-, t', h', sigs'', rfl⟩ := (hi.next rs hrs).buffered m hbuf
    have hrun : (handleAppendMessage env x p t (x.followerState.blockNumber + 1) h sigs data).node =
        (handleCommitMessageInner env (x.setNext { phase := .append meta body }) p t'
          (x.followerState.blockNumber + 1) h' sigs'').node := by
      simp [handleAppendMessage, hb, hc, hrs, hbuf, Node.setNext]
    rw [hrun]
    cases hc'' : commitChecks env (x.setNext { phase := .append meta body }).followerState p t'
      (x.followerState.blockNumber + 1) h' sigs'' with
    | error a =>
      rcases commitChecks_eq_error hc'' with ha | ⟨-, -, -, rs', hrs', hph', -⟩
      · obtain ⟨v, hv⟩ := abort_viewStates (x.setNext { phase := .append meta body }) ha
        simp only [handleCommitMessageInner, hc'', hv]
        exact handleAppendMessage_of_reject p t _ h sigs' data _
          (appendChecks_of_appended p t _ h sigs' data _ hslot rfl)
      · cases hslot.symm.trans hrs'
        simp at hph'
    | ok body' =>
      obtain ⟨rs', meta', hrs', hph', -⟩ := (commitChecks_eq_ok.mp hc'').slot
      cases hslot.symm.trans hrs'
      cases hph'
      have hbn : ((x.setNext { phase := .append meta body }).commitBlock
          (x.followerState.blockNumber + 1) h' body sigs'').node.followerState.blockNumber =
            x.followerState.blockNumber + 1 :=
        congrArg (·.node.followerState.blockNumber)
          (commitBlock_eq (hi.append hacc) hslot rfl h' sigs'')
      simp only [handleCommitMessageInner, hc'']
      exact handleAppendMessage_of_reject p t _ h sigs' data _
        (appendChecks_of_committed p t _ h sigs' data _ hbn.ge)

/-- A Commit is applied, then refused; or buffered, then buffered again in the copy's order. -/
theorem handleCommitMessage_twice (hi : Inv env x.followerState)
    (hp : sigs.entries.Perm sigs'.entries) :
    (handleCommitMessage env (handleCommitMessage env x p t n h sigs).node p t n h sigs').node =
      (handleCommitMessage env x p t n h sigs).node ∨
    (handleCommitMessage env (handleCommitMessage env x p t n h sigs).node p t n h sigs').node =
      (handleCommitMessage env x p t n h sigs').node := by
  by_cases hb : followerStateInBlock x.followerState n = true
  swap
  · exact .inl (by simp [handleCommitMessage, hb])
  cases hc : commitChecks env x.followerState p t n h sigs with
  | error a =>
    rcases commitChecks_eq_error hc with ha | ⟨hl, rfl, hlt, rs, hrs, hph, rfl⟩
    · cases hc' : commitChecks env x.followerState p t n h sigs' with
      | error a' =>
        rcases commitChecks_eq_error hc' with ha' | ⟨hl, rfl, hlt, rs, hrs, hph, rfl⟩
        · exact abort_again (handleCommitMessage env · p t n h sigs)
            (handleCommitMessage env · p t n h sigs') ha ha'
            (handleCommitMessage_of_error p t n h sigs x hb hc)
            fun _ => handleCommitMessage_of_error p t n h sigs' _ hb hc'
        · obtain rfl := eq_of_inBlock hb hlt
          cases hc.symm.trans (commitChecks_buffered hl rfl hrs hph)
          exact ha.elim
      | ok body => cases hc.symm.trans (commitChecks_reordered hp.symm hc')
    refine .inr ?_
    obtain rfl := eq_of_inBlock hb hlt
    let rs' : RoundState := { rs with bufferedCommitMessage :=
      (some (.commit x.followerState.leaderTerm (x.followerState.blockNumber + 1) h sigs)) }
    let rs'' : RoundState := { rs with bufferedCommitMessage :=
      (some (.commit x.followerState.leaderTerm (x.followerState.blockNumber + 1) h sigs')) }
    have hrs' := Node.get_setNext hrs rs'
    rw [handleCommitMessage_of_error p _ _ h sigs x hb hc, abort_buffer_eq hrs,
      handleCommitMessage_of_error p _ _ h sigs' x hb (commitChecks_buffered hl (by rfl) hrs hph),
      abort_buffer_eq hrs]
    show (handleCommitMessage env (x.setNext rs') p _ _ h sigs').node = x.setNext rs''
    rw [handleCommitMessage_of_error p _ _ h sigs' (x.setNext rs') hb
        (commitChecks_buffered hl (by rfl) hrs' hph)]
    exact (congrArg Handled.node (abort_buffer_eq hrs')).trans (Node.setNext_setNext x rs' rs'')
  | ok body =>
    refine .inl ?_
    have hacc := commitChecks_eq_ok.mp hc
    obtain rfl := hacc.number
    obtain ⟨rs, meta, hrs, hph, -⟩ := hacc.slot
    rw [handleCommitMessage_accepted x hacc, commitBlock_eq hi hrs hph]
    exact handleCommitMessage_of_reject p t _ h sigs' _
      (commitChecks_of_committed p t _ h sigs' _ le_rfl)

theorem handleNewView_twice (hp : sigs.entries.Perm sigs'.entries) :
    (handleNewView env (handleNewView env x t sigs).node t sigs').node =
      (handleNewView env x t sigs).node := by
  have hre : ∀ y, handleNewView env y t sigs' = handleNewView env y t sigs := fun y => by
    simp only [handleNewView, newViewChecks_reordered hp]
  rw [hre]
  cases hc : newViewChecks env x.followerState t sigs with
  | error a =>
    have ha : a.Plain := abortsIn_newViewChecks (fun _ => trivial) _ _ _ _ a hc
    exact (abort_again (handleNewView env · t sigs) (handleNewView env · t sigs) ha ha
      (handleNewView_of_error t sigs x hc) fun _ => handleNewView_of_error t sigs _ hc).elim id id
  | ok u =>
    have h₁ : handleNewView env x t sigs =
        ⟨{ x with followerState := x.followerState.installView t }, [], .ok .ackNewView⟩ := by
      simp [handleNewView, hc]
    rw [h₁, handleNewView_of_error t sigs _ (newViewChecks_of_le t sigs le_rfl)]
    rfl

end Twice

theorem step_twice {env : Env} {node : Node} (hi : Inv env node.followerState)
    (message message' : Signed) (hm : ∀ t, message.message ≠ .viewChange t)
    (hre : message.Reordered message') :
    (step env (step env node (.message message)).node (.message message')).node =
      (step env node (.message message)).node ∨
    (step env (step env node (.message message)).node (.message message')).node =
      (step env node (.message message')).node := by
  obtain ⟨p, m, σ⟩ := message
  obtain ⟨p', m', σ'⟩ := message'
  obtain ⟨rfl, hre, rfl⟩ := hre
  by_cases he : env.peers.contains p = true ∧ env.verify p m σ = true
  swap
  · have h₁ : (step env node (.message ⟨p, m, σ⟩)).node = node := handleMessage_of_invalid he
    exact .inr (by rw [h₁])
  by_cases he' : env.peers.contains p = true ∧ env.verify p m' σ = true
  swap
  · exact .inl (handleMessage_of_invalid he')
  have hstep : ∀ y, step env y (.message ⟨p, m, σ⟩) = handleConsensusMessage env y p σ m :=
    fun _ => handleMessage_of_valid he.1 he.2
  have hstep' : ∀ y, step env y (.message ⟨p, m', σ⟩) = handleConsensusMessage env y p σ m' :=
    fun _ => handleMessage_of_valid he'.1 he'.2
  simp only [hstep, hstep']
  cases hre with
  | append hp => exact handleAppendMessage_twice node p _ _ _ _ hi hp
  | commit hp => exact handleCommitMessage_twice node p _ _ _ hi hp
  | newView hp => exact .inl (handleNewView_twice node _ hp)
  | refl =>
    cases m with
    | prepare t n h => exact .inl (handlePrepareMessage_twice node p t n h)
    | append t n h sigs data => exact handleAppendMessage_twice node p t n h data hi (.refl _)
    | commit t n h sigs => exact handleCommitMessage_twice node p t n h hi (.refl _)
    | viewChange t => exact absurd rfl (hm t)
    | newView t sigs => exact .inl (handleNewView_twice node t (.refl _))
    | _ => exact .inl rfl

/-- A message delivered twice, the copy's signature maps in any order, ends every run where one
of the two copies alone does. -/
theorem duplicate_delivery_changes_nothing (env : Env) (node : Node) (hr : Reachable env node)
    (pre post : List Input) (message message' : Signed)
    (hm : ∀ t, message.message ≠ .viewChange t) (hre : message.Reordered message') :
    ∃ once ∈ [message, message'],
      exec env node (pre ++ .message message :: .message message' :: post) =
        exec env node (pre ++ .message once :: post) := by
  induction pre generalizing node with
  | nil =>
    rcases step_twice (reachable_inv hr) message message' hm hre with h | h
    · exact ⟨message, List.mem_cons_self _ _, by simp only [List.nil_append, exec, h]⟩
    · exact ⟨message', List.mem_cons_of_mem _ (List.mem_singleton_self _),
        by simp only [List.nil_append, exec, h]⟩
  | cons input pre ih => exact ih _ (hr.step input)

/-- `SignatureList.sample`, listed in the reverse order. -/
def SignatureList.sampleReversed : SignatureList := ⟨[(3, 0), (2, 0), (1, 0)], by decide⟩

theorem duplicate_delivery_changes_nothing_sample :
    ∃ once ∈ [(⟨1, .append 0 1 101 .sample [⟨9, 5, 0⟩], 0⟩ : Signed),
        ⟨1, .append 0 1 101 .sampleReversed [⟨9, 5, 0⟩], 0⟩],
      exec Env.sample (Node.new 2) ([.message ⟨1, .prepare 0 1 101, 0⟩] ++
          .message ⟨1, .append 0 1 101 .sample [⟨9, 5, 0⟩], 0⟩ ::
          .message ⟨1, .append 0 1 101 .sampleReversed [⟨9, 5, 0⟩], 0⟩ ::
          [.message ⟨1, .commit 0 1 101 .sample, 0⟩]) =
        exec Env.sample (Node.new 2) ([.message ⟨1, .prepare 0 1 101, 0⟩] ++
          .message once :: [.message ⟨1, .commit 0 1 101 .sample, 0⟩]) :=
  duplicate_delivery_changes_nothing Env.sample (Node.new 2) (.new 2) _ _ _ _
    (fun _ => by simp) ⟨rfl, .append (by decide), rfl⟩

/-! ## A message for a committed height -/

/-- The height a Prepare, Append or Commit names. -/
def ConsensusMessage.roundHeight : ConsensusMessage → Option Nat
  | .prepare _ blockNumber _ | .append _ blockNumber .. | .commit _ blockNumber .. =>
    some blockNumber
  | _ => none

theorem handleMessage_envelope {env : Env} {x : Node} {p : PeerId} {m : ConsensusMessage}
    {σ : Signature} (h : ¬(env.peers.contains p = true ∧ env.verify p m σ = true)) :
    ∃ e, handleMessage env x ⟨p, m, σ⟩ = ⟨x, [], .err e⟩ := by
  unfold handleMessage
  split_ifs with h₁ h₂
  · exact ⟨_, rfl⟩
  · exact ⟨_, rfl⟩
  · exact absurd ⟨by simpa using h₁, by simpa using h₂⟩ h

/-- A Prepare, Append or Commit for a committed height is refused and changes nothing. -/
theorem committed_height_message_refused (env : Env) (node : Node) (message : Signed) (n : Nat)
    (hm : message.message.roundHeight = some n) (hn : n ≤ node.followerState.blockNumber) :
    ∃ e, step env node (.message message) = ⟨node, [], .err e⟩ := by
  obtain ⟨p, m, σ⟩ := message
  by_cases he : env.peers.contains p = true ∧ env.verify p m σ = true
  swap
  · exact handleMessage_envelope he
  have hb : followerStateInBlock node.followerState n = true := by
    simp only [followerStateInBlock, decide_eq_true_eq]
    omega
  show ∃ e, handleMessage env node ⟨p, m, σ⟩ = _
  rw [handleMessage_of_valid he.1 he.2]
  cases m with
  | prepare t k h =>
    obtain rfl : k = n := Option.some.inj hm
    obtain ⟨e, hc⟩ := prepareChecks_of_committed node.followerState t hn
    exact ⟨e, handlePrepareMessage_of_error p t k h node hb hc⟩
  | append t k h sigs data =>
    obtain rfl : k = n := Option.some.inj hm
    obtain ⟨e, hc⟩ := appendChecks_of_committed p t k h sigs data _ hn
    exact ⟨e, handleAppendMessage_of_error p t k h sigs data node hb hc⟩
  | commit t k h sigs =>
    obtain rfl : k = n := Option.some.inj hm
    obtain ⟨e, hc⟩ := commitChecks_of_committed p t k h sigs _ hn
    exact ⟨e, handleCommitMessage_of_error p t k h sigs node hb hc⟩
  | _ => cases hm

theorem committed_height_message_refused_sample :
    ∃ e, step Env.sample (exec Env.sample (Node.new 2)
        [.message ⟨1, .prepare 0 1 101, 0⟩,
          .message ⟨1, .append 0 1 101 .sample [⟨9, 5, 0⟩], 0⟩,
          .message ⟨1, .commit 0 1 101 .sample, 0⟩])
        (.message ⟨1, .commit 0 1 101 .sample, 0⟩) =
      ⟨exec Env.sample (Node.new 2)
        [.message ⟨1, .prepare 0 1 101, 0⟩,
          .message ⟨1, .append 0 1 101 .sample [⟨9, 5, 0⟩], 0⟩,
          .message ⟨1, .commit 0 1 101 .sample, 0⟩], [], .err e⟩ :=
  committed_height_message_refused Env.sample _ _ 1 rfl (by decide)

end Prellblock
