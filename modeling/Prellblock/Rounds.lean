import Prellblock.Effect
import Mathlib.Logic.Relation

/-!
# How the rounds of a follower move

A round's phase moves only forward, `Waiting → Prepare → Append → Committed` with the Prepare
optional, and only on a message from the leader of the follower's term; a Commit is buffered
only in a round that has not seen its Append, and only for that round's height. So none of the
follower's `unwrap`s, its `unreachable!()` and its assertions on the retired slot can fire: a
step on a Prepare, Append or Commit panics only where `supermajority_reached` does, on a roster
of fewer than four peers. A `NewView`, which resets rounds, is not a round message.
-/

namespace Prellblock
set_option autoImplicit false

/-- A Prepare, Append or Commit message. -/
def Input.isRound : Input → Bool
  | .message ⟨_, .prepare .., _⟩ | .message ⟨_, .append .., _⟩ | .message ⟨_, .commit .., _⟩ =>
    true
  | _ => false

/-- The input is a message whose sender leads term `t`. -/
def Input.fromLeader (env : Env) (t : Nat) : Input → Prop
  | .message m => env.isCurrentLeader t m.signer = true
  | _ => False

/-- The moves of a round's phase: it is prepared or appended from `Waiting`, appended with its
Prepare's meta, and committed with the hash of its Append. -/
inductive PhaseStep : Phase → Phase → Prop
  | prepare (meta : PhaseMeta) : PhaseStep .waiting (.prepare meta)
  | appendWaiting (meta : PhaseMeta) (body : Body) : PhaseStep .waiting (.append meta body)
  | appendPrepare (meta : PhaseMeta) (body : Body) : PhaseStep (.prepare meta) (.append meta body)
  | commit (meta : PhaseMeta) (body : Body) : PhaseStep (.append meta body) (.committed meta.blockHash)

/-- One step moves a slot only along `PhaseStep`, only on a message from the term's leader; a slot
entering the window is empty. -/
def SlotsMove (env : Env) (input : Input) (fs fs' : FollowerState) : Prop :=
  ∀ i rs', fs'.roundStates.get i = some rs' →
    (fs.roundStates.get i = none ∧ rs' = {}) ∨
    ∃ rs, fs.roundStates.get i = some rs ∧ Relation.ReflTransGen PhaseStep rs.phase rs'.phase ∧
      (rs.phase ≠ rs'.phase → input.fromLeader env fs.leaderTerm)

/-- A Commit is buffered only in a `Waiting` or `Prepare` slot, and only for that slot's height. -/
def BufferedEarly (fs : FollowerState) : Prop :=
  ∀ i rs m, fs.roundStates.get i = some rs → rs.bufferedCommitMessage = some m →
    (rs.phase = .waiting ∨ ∃ meta, rs.phase = .prepare meta) ∧ ∃ t h sigs, m = .commit t i h sigs

section Slots
variable {env : Env} {input : Input} {fs fs' : FollowerState}

theorem fromLeader_message {t : Nat} {p : PeerId} {m : ConsensusMessage} {σ : Signature}
    (h : env.isCurrentLeader t p = true) : (Input.message ⟨p, m, σ⟩).fromLeader env t := h

theorem SlotsMove.of_eq (h : fs'.roundStates = fs.roundStates) : SlotsMove env input fs fs' :=
  fun _ rs' hget => .inr ⟨rs', h ▸ hget, .refl, fun hne => absurd rfl hne⟩

theorem SlotsMove.set {j : Nat} {rs : RoundState} (x : RoundState)
    (hrs : fs.roundStates.get j = some rs)
    (h : fs'.roundStates = fs.roundStates.set j x)
    (hph : Relation.ReflTransGen PhaseStep rs.phase x.phase)
    (hl : rs.phase ≠ x.phase → input.fromLeader env fs.leaderTerm) : SlotsMove env input fs fs' := by
  intro i rs' hget
  rw [h, RingBuffer.get_set _ _ _ _ (by simp [hrs])] at hget
  split_ifs at hget with hij
  · cases hget
    exact .inr ⟨rs, hij ▸ hrs, hph, hl⟩
  · exact .inr ⟨rs', hget, .refl, fun hne => absurd rfl hne⟩

/-- The ring after a commit of the next slot, whose phase reached the Append of `meta`. -/
theorem SlotsMove.commit {rs : RoundState} {meta : PhaseMeta} {body : Body}
    (hi : Inv env fs) (hrs : fs.roundStates.get (fs.blockNumber + 1) = some rs)
    (hph : Relation.ReflTransGen PhaseStep rs.phase (.append meta body))
    (hl : input.fromLeader env fs.leaderTerm)
    (h : fs'.roundStates = ⟨fs.blockNumber + 1, { phase := .committed meta.blockHash } ::
      fs.roundStates.items.drop 2 ++ [({} : RoundState)]⟩) : SlotsMove env input fs fs' := by
  intro i rs' hget
  rw [h] at hget
  rcases lt_trichotomy i (fs.blockNumber + 1) with hlt | rfl | hgt
  · simp [RingBuffer.get, Nat.not_le.mpr hlt] at hget
  · simp only [RingBuffer.get, le_refl, if_true, Nat.sub_self, List.cons_append,
      List.getElem?_cons_zero, Option.some.injEq] at hget
    subst hget
    exact .inr ⟨rs, hrs, hph.tail (.commit meta body), fun _ => hl⟩
  · obtain rfl := hi.get_commit _ hgt hget
    cases hold : fs.roundStates.get i with
    | none => exact .inl ⟨rfl, rfl⟩
    | some rs₀ =>
      obtain rfl := hi.ahead i rs₀ hgt hold
      exact .inr ⟨{}, rfl, .refl, fun hne => absurd rfl hne⟩

end Slots

section Effects
variable {env : Env} {node : Node} {input : Input} {r : Handled}

theorem Inv.bufferedEarly {fs : FollowerState} (hi : Inv env fs) : BufferedEarly fs := by
  intro i rs m hrs hm
  obtain ⟨⟨h, slots, hring⟩, hnext, hahead⟩ := hi
  rcases lt_trichotomy i (fs.blockNumber + 1) with hlt | rfl | hgt
  · rw [hring] at hrs
    simp only [RingBuffer.get] at hrs
    split_ifs at hrs with hle
    · rw [show i - fs.blockNumber = 0 by omega, List.getElem?_cons_zero, Option.some.injEq] at hrs
      rw [← hrs] at hm
      cases hm
  · exact (hnext rs hrs).buffered m hm
  · rw [hahead i rs hgt hrs] at hm
    cases hm

theorem AppendAccepted.phaseStep {fs : FollowerState} {p : PeerId} {t : Nat} {h : BlockHash}
    {sigs : SignatureList} {data : List SignedTransaction} {meta : PhaseMeta} {body : Body}
    {rs : RoundState} (hacc : AppendAccepted env fs p t (fs.blockNumber + 1) h sigs data meta body)
    (hrs : fs.roundStates.get (fs.blockNumber + 1) = some rs) :
    PhaseStep rs.phase (.append meta body) := by
  obtain ⟨rs₀, hrs₀, hph⟩ := hacc.slot
  obtain rfl := Option.some.inj (hrs₀.symm.trans hrs)
  rcases hph with ⟨hph, -⟩ | hph <;> rw [hph]
  · exact .appendWaiting meta body
  · exact .appendPrepare meta body

/-- Writing a slot leaves the slots two and more places on unchanged. -/
theorem Inv.drop_set {fs : FollowerState} (hi : Inv env fs) (x : RoundState) :
    (fs.roundStates.set (fs.blockNumber + 1) x).items.drop 2 = fs.roundStates.items.drop 2 := by
  obtain ⟨⟨h, slots, hring⟩, -, -⟩ := hi
  rw [hring]
  cases slots <;> simp [RingBuffer.set]

theorem Effect.slotsMove (he : Effect env node input r) (hi : Inv env node.followerState)
    (hround : input.isRound = true) : SlotsMove env input node.followerState r.node.followerState := by
  cases he with
  | frame hr => exact .of_eq hr
  | buffer _ _ _ hrs => exact .set _ hrs rfl .refl fun hne => absurd rfl hne
  | prepare input_eq hl ht hrs hph =>
    subst input_eq
    refine .set _ hrs rfl (.single ?_) fun _ => fromLeader_message (ht ▸ hl)
    rw [hph]
    exact .prepare _
  | append input_eq hacc hrs =>
    subst input_eq
    exact .set { phase := .append _ _ } hrs rfl (.single (hacc.phaseStep hrs))
      fun _ => fromLeader_message (hacc.term ▸ hacc.leader)
  | appendCommit input_eq hacc hrs _ hcacc =>
    subst input_eq
    obtain ⟨rs', meta', hrs', hph', hh⟩ := hcacc.slot
    rw [commitBlock_eq (hi.append hacc) hrs' hph']
    cases RingBuffer.eq_of_get_set_self _ hrs hrs'
    cases hph'
    subst hh
    exact .commit hi hrs (.single (hacc.phaseStep hrs)) (fromLeader_message (hacc.term ▸ hacc.leader))
      (by rw [hi.drop_set])
  | appendAbort input_eq hacc hrs _ ha =>
    subst input_eq
    refine .set { phase := .append _ _ } hrs ?_ (.single (hacc.phaseStep hrs))
      fun _ => fromLeader_message (hacc.term ▸ hacc.leader)
    rcases abort_node_of_plain ha with h | h <;> dsimp only <;> rw [h]
    exact (requestViewChange_frame _).1
  | commit input_eq hcacc =>
    subst input_eq
    obtain ⟨rs, meta, hrs, hph, rfl⟩ := hcacc.slot
    rw [commitBlock_eq hi hrs hph]
    exact .commit hi hrs (by rw [hph]) (fromLeader_message (hcacc.term ▸ hcacc.leader)) rfl
  | newView input_eq => simp [input_eq, Input.isRound] at hround

theorem abort_reply_panic {a : Abort} {site : PanicSite} (ha : a.Plain)
    (h : (node.abort a).reply = .panic site) : site = .tooFewPeers := by
  cases a with
  | reject => cases h
  | faulty => cases h
  | buffer => exact ha.elim
  | panic site' =>
    cases h
    exact ha

theorem Effect.reply_panic (he : Effect env node input r) (hi : Inv env node.followerState)
    (hround : input.isRound = true) (site : PanicSite) (h : r.reply = .panic site) :
    site = .tooFewPeers := by
  cases he with
  | frame _ _ _ _ _ hq =>
    rw [h] at hq
    cases site with
    | tooFewPeers => rfl
    | unimplemented =>
      obtain ⟨p, m, σ, rfl, hm⟩ := hq
      cases m <;> simp [Input.isRound, ConsensusMessage.isAck] at hround hm
    | _ => exact hq.elim
  | appendAbort _ _ _ _ ha =>
    revert h
    dsimp only
    cases hr : (Node.abort _ _).reply <;> simp only [Reply.afterBufferedCommit, Reply.panic.injEq,
      reduceCtorEq, false_implies]
    rintro rfl
    exact abort_reply_panic ha hr
  | commit _ hcacc =>
    obtain ⟨rs, meta, hrs, hph, -⟩ := hcacc.slot
    rw [commitBlock_eq hi hrs hph] at h
    cases h
  | buffer | prepare | append | appendCommit | newView => cases h

end Effects

/-- In every reachable replica a Commit is buffered only in its own `Waiting` or `Prepare` slot,
and a round step moves slots forward, for the leader only, panicking only on a small roster. -/
theorem round_states_progress (env : Env) (node : Node) (hr : Reachable env node)
    (input : Input) (hround : input.isRound = true) :
    BufferedEarly node.followerState ∧
      SlotsMove env input node.followerState (step env node input).node.followerState ∧
      ∀ site, (step env node input).reply = .panic site → site = .tooFewPeers := by
  have hi := reachable_inv hr
  have he := step_effect hi input
  exact ⟨hi.bufferedEarly, he.slotsMove hi hround, he.reply_panic hi hround⟩

theorem round_states_progress_prepare :
    BufferedEarly (Node.new 2).followerState ∧
      SlotsMove Env.sample (.message ⟨1, .prepare 0 1 5, 0⟩) (Node.new 2).followerState
        (step Env.sample (Node.new 2) (.message ⟨1, .prepare 0 1 5, 0⟩)).node.followerState ∧
      ∀ site, (step Env.sample (Node.new 2) (.message ⟨1, .prepare 0 1 5, 0⟩)).reply =
        .panic site → site = .tooFewPeers :=
  round_states_progress Env.sample (Node.new 2) (.new 2) _ rfl

end Prellblock
