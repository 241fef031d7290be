import Prellblock.Effect

/-!
# The committed chain

What a follower hands to `block_storage.write_block` and `world_state.apply_block`. A step
writes no block or exactly one, at the height after the committed one and chained to
`last_block_hash()`, which then becomes the new block's hash; so any run from a state with the
invariant writes a contiguous chain (`committed_chain_integrity`). Each written block carries
its quorum evidence: the Commit that committed it, with a supermajority of valid AckAppend
signatures for the follower's term, and an earlier (or the same) step that accepted the Append
of its body (`commit_validity`).
-/

namespace Prellblock
set_option autoImplicit false

/-- One step's effect on the chain: nothing, or one block at the next height, chained to the
last hash, whose hash becomes the last hash. -/
def ChainStep (env : Env) (node node' : Node) : Prop :=
  (node'.blocks = node.blocks ∧ node'.worldState = node.worldState ∧
    node'.followerState.blockNumber = node.followerState.blockNumber ∧
    node'.followerState.lastBlockHash = node.followerState.lastBlockHash) ∨
  ∃ b : Block, node'.blocks = node.blocks ++ [b] ∧ node'.worldState = node.worldState ++ [b] ∧
    b.body.height = node.followerState.blockNumber + 1 ∧
    b.body.prevBlockHash = node.followerState.lastBlockHash ∧
    node'.followerState.blockNumber = node.followerState.blockNumber + 1 ∧
    node'.followerState.lastBlockHash = env.hash b.body

/-- `bs` extends a chain whose top block has height `n` and hash `last` up to height `n'` and
hash `last'`: each block is one higher than the one before and names its hash. -/
inductive Chain (env : Env) : Nat → BlockHash → List Block → Nat → BlockHash → Prop
  | nil (n : Nat) (last : BlockHash) : Chain env n last [] n last
  | cons {n : Nat} {last : BlockHash} {b : Block} {bs : List Block} {n' : Nat}
      {last' : BlockHash} (height : b.body.height = n + 1) (prev : b.body.prevBlockHash = last)
      (rest : Chain env (n + 1) (env.hash b.body) bs n' last') : Chain env n last (b :: bs) n' last'

section Step
variable {env : Env} {node : Node} {input : Input} {r : Handled}

theorem ChainStep.of_agree {node₀ node' : Node} (h : ChainStep env node₀ node')
    (hb : node₀.blocks = node.blocks) (hw : node₀.worldState = node.worldState)
    (hn : node₀.followerState.blockNumber = node.followerState.blockNumber)
    (hl : node₀.followerState.lastBlockHash = node.followerState.lastBlockHash) :
    ChainStep env node node' := by
  unfold ChainStep at h ⊢
  rwa [hb, hw, hn, hl] at h

theorem ChainStep.of_rounds {node' : Node}
    (hr : node'.followerState.roundStates = node.followerState.roundStates)
    (hn : node'.followerState.blockNumber = node.followerState.blockNumber)
    (hb : node'.blocks = node.blocks) (hw : node'.worldState = node.worldState) :
    ChainStep env node node' :=
  .inl ⟨hb, hw, hn, by simp only [FollowerState.lastBlockHash, hr, hn]⟩

theorem ChainStep.abort {node' : Node} {a : Abort} (ha : a.Plain) (h : ChainStep env node node') :
    ChainStep env node (node'.abort a).node := by
  obtain ⟨hr, -, hn, hb, hw⟩ := abort_frame node' ha
  have hl : (node'.abort a).node.followerState.lastBlockHash = node'.followerState.lastBlockHash := by
    simp only [FollowerState.lastBlockHash, hr, hn]
  unfold ChainStep at h ⊢
  rwa [hb, hw, hn, hl]

/-- Committing the next slot writes its Append's body. -/
theorem ChainStep.commit {rs : RoundState} {meta : PhaseMeta} {body : Body}
    (hi : Inv env node.followerState)
    (hrs : node.followerState.roundStates.get (node.followerState.blockNumber + 1) = some rs)
    (hph : rs.phase = .append meta body) (sigs : SignatureList) :
    ChainStep env node
      (node.commitBlock (node.followerState.blockNumber + 1) meta.blockHash body sigs).node := by
  have hslot := (hi.next rs hrs).append meta body hph
  rw [commitBlock_eq hi hrs hph]
  exact .inr ⟨⟨body, sigs⟩, rfl, rfl, hslot.height, hslot.prev, rfl,
    (lastBlockHash_of_ring rfl).trans hslot.hash.symm⟩

theorem Effect.chainStep (he : Effect env node input r) (hi : Inv env node.followerState) :
    ChainStep env node r.node := by
  cases he with
  | frame hr _ hn hb hw => exact .of_rounds hr hn hb hw
  | buffer | prepare | append => exact .inl ⟨rfl, rfl, rfl, FollowerState.lastBlockHash_set _ _ (by omega)⟩
  | appendCommit _ hacc _ _ hcacc =>
    obtain ⟨rs', meta', hrs', hph', rfl⟩ := hcacc.slot
    exact (ChainStep.commit (hi.append hacc) hrs' hph' _).of_agree rfl rfl rfl
      (FollowerState.lastBlockHash_set _ _ (by omega))
  | appendAbort _ _ _ _ ha =>
    exact .abort ha (.inl ⟨rfl, rfl, rfl, FollowerState.lastBlockHash_set _ _ (by omega)⟩)
  | commit _ hcacc =>
    obtain ⟨rs, meta, hrs, hph, rfl⟩ := hcacc.slot
    exact .commit hi hrs hph _
  | newView => exact .inl ⟨rfl, rfl, rfl, FollowerState.lastBlockHash_installView _ _⟩

end Step

/-- Every step writes no block or one at the next height, chained to the last hash, so the blocks
a run writes form a chain. -/
theorem committed_chain_integrity (env : Env) (node : Node) (hi : Inv env node.followerState)
    (inputs : List Input) :
    (∀ ev ∈ run env node inputs, ChainStep env ev.pre ev.out.node) ∧
      ∃ bs, (exec env node inputs).blocks = node.blocks ++ bs ∧
        (exec env node inputs).worldState = node.worldState ++ bs ∧
        Chain env node.followerState.blockNumber node.followerState.lastBlockHash bs
          (exec env node inputs).followerState.blockNumber
          (exec env node inputs).followerState.lastBlockHash := by
  induction inputs generalizing node with
  | nil => exact ⟨fun _ h => (List.not_mem_nil _ h).elim, [], by simp [exec], by simp [exec], .nil _ _⟩
  | cons input inputs ih =>
    have hs := (step_effect hi input).chainStep hi
    obtain ⟨hrun, bs, hb, hw, hc⟩ := ih _ (step_inv hi input)
    refine ⟨List.forall_mem_cons.mpr ⟨hs, hrun⟩, ?_⟩
    rcases hs with ⟨hb', hw', hn, hl⟩ | ⟨b, hb', hw', hh, hp, hn, hl⟩
    · exact ⟨bs, by rw [exec, hb, hb'], by rw [exec, hw, hw'], by rwa [← hn, ← hl]⟩
    · exact ⟨b :: bs, by simp [exec, hb, hb'], by simp [exec, hw, hw'],
        .cons hh hp (by rwa [← hn, ← hl])⟩

theorem committed_chain_integrity_sample :
    let run₁ := [Input.message ⟨1, .prepare 0 1 101, 0⟩,
      .message ⟨1, .append 0 1 101 .sample [⟨9, 5, 0⟩], 0⟩,
      .message ⟨1, .commit 0 1 101 .sample, 0⟩]
    (∀ ev ∈ run Env.sample (Node.new 2) run₁, ChainStep Env.sample ev.pre ev.out.node) ∧
      ∃ bs, (exec Env.sample (Node.new 2) run₁).blocks = (Node.new 2).blocks ++ bs ∧
        (exec Env.sample (Node.new 2) run₁).worldState = (Node.new 2).worldState ++ bs ∧
        Chain Env.sample (Node.new 2).followerState.blockNumber
          (Node.new 2).followerState.lastBlockHash bs
          (exec Env.sample (Node.new 2) run₁).followerState.blockNumber
          (exec Env.sample (Node.new 2) run₁).followerState.lastBlockHash :=
  committed_chain_integrity Env.sample (Node.new 2) (Inv.new _ 2) _

/-! ## The evidence a committed block carries -/

/-- `ev` is a step on an Append whose checks all passed with `body`. -/
def AcceptedAppendOf (env : Env) (ev : Event) (body : Body) : Prop :=
  ∃ p σ t n h sigs data meta, ev.input = .message ⟨p, .append t n h sigs data, σ⟩ ∧
    AppendAccepted env ev.pre.followerState p t n h sigs data meta body

/-- The Commit that `ev` applies: its own message, or the Commit buffered in the slot of the
Append it handles. -/
def CommitOf (ev : Event) (t n : Nat) (h : BlockHash) (sigs : SignatureList) : Prop :=
  (∃ p σ, ev.input = .message ⟨p, .commit t n h sigs, σ⟩) ∨
  ∃ p σ t' h' sigs' data rs, ev.input = .message ⟨p, .append t' n h' sigs' data, σ⟩ ∧
    ev.pre.followerState.roundStates.get n = some rs ∧
    rs.bufferedCommitMessage = some (.commit t n h sigs)

/-- Each Append in the next slot was accepted by a step of `history`. -/
def AppendHistory (env : Env) (history : List Event) (node : Node) : Prop :=
  ∀ rs meta body,
    node.followerState.roundStates.get (node.followerState.blockNumber + 1) = some rs →
    rs.phase = .append meta body → ∃ ev ∈ history, AcceptedAppendOf env ev body

/-- What a block written by `ev` carries: its Commit's hash, a supermajority of AckAppend
signatures, and the step that accepted its Append. -/
structure CommitValid (env : Env) (history : List Event) (ev : Event) (b : Block) : Prop where
  commit : CommitOf ev ev.pre.followerState.leaderTerm b.body.height (env.hash b.body)
    b.signatures
  slot : ev.out.node.followerState.roundStates.get b.body.height =
    some { phase := .committed (env.hash b.body) }
  quorum : supermajority env.peers.length ≤ b.signatures.len
  signatures : SignaturesValid env
    (.ackAppend ev.pre.followerState.leaderTerm b.body.height (env.hash b.body)) b.signatures
  append : ∃ ev' ∈ history ++ [ev], AcceptedAppendOf env ev' b.body

section Evidence
variable {env : Env} {node : Node} {input : Input} {r : Handled} {history : List Event}

theorem AppendHistory.new (window : Nat) : AppendHistory env [] (Node.new window) := by
  intro rs meta body hrs hph
  have := ((Inv.new env window).next rs hrs).notCommitted
  simp [Node.new, FollowerState.new, RingBuffer.get, List.getElem?_replicate] at hrs
  simp [← hrs.2] at hph

/-- A next slot that holds no Append needs no history. -/
theorem AppendHistory.of_not_append {node' : Node}
    (h : ∀ rs, node'.followerState.roundStates.get (node'.followerState.blockNumber + 1) = some rs →
      ∀ meta body, rs.phase ≠ .append meta body) : AppendHistory env history node' :=
  fun rs meta body hrs hph => absurd hph (h rs hrs meta body)

theorem AppendHistory.abort {node' : Node} {a : Abort} (ha : a.Plain)
    (h : AppendHistory env history node') : AppendHistory env history (node'.abort a).node := by
  obtain ⟨hr, -, hn, -⟩ := abort_frame node' ha
  intro rs meta body hrs
  rw [hr, hn] at hrs
  exact h rs meta body hrs

/-- After a commit the next slot is empty. -/
theorem AppendHistory.commit {rs : RoundState} {meta : PhaseMeta} {body : Body}
    {sigs : SignatureList} (hi : Inv env node.followerState)
    (hrs : node.followerState.roundStates.get (node.followerState.blockNumber + 1) = some rs)
    (hph : rs.phase = .append meta body) :
    AppendHistory env history
      (node.commitBlock (node.followerState.blockNumber + 1) meta.blockHash body sigs).node := by
  rw [commitBlock_eq hi hrs hph]
  refine .of_not_append fun rs' hrs' meta' body' => ?_
  rw [hi.get_commit _ (Nat.lt_succ_self _) hrs']
  exact fun h => by cases h

theorem Effect.appendHistory (he : Effect env node input r) (hi : Inv env node.followerState)
    (hh : AppendHistory env history node) : AppendHistory env (history ++ [⟨node, input, r⟩]) r.node := by
  have hself : ∀ {body : Body}, AcceptedAppendOf env ⟨node, input, r⟩ body →
      ∃ ev ∈ history ++ [⟨node, input, r⟩], AcceptedAppendOf env ev body :=
    fun h => ⟨_, List.mem_append_right _ (List.mem_singleton_self _), h⟩
  cases he with
  | frame hr _ hn =>
    intro rs meta body hrs hph
    rw [hr, hn] at hrs
    obtain ⟨ev, hev, hacc⟩ := hh rs meta body hrs hph
    exact ⟨ev, List.mem_append_left _ hev, hacc⟩
  | buffer _ _ _ hrs hph =>
    refine .of_not_append fun rs' hrs' meta body => ?_
    rw [RingBuffer.eq_of_get_set_self _ hrs hrs']
    rcases hph with hph | ⟨_, hph⟩ <;> simp [hph]
  | prepare _ _ _ hrs =>
    refine .of_not_append fun rs' hrs' meta body => ?_
    rw [RingBuffer.eq_of_get_set_self _ hrs hrs']
    simp
  | append input_eq hacc hrs =>
    intro rs' meta body hrs' hph
    rw [RingBuffer.eq_of_get_set_self _ hrs hrs'] at hph
    cases hph
    exact hself ⟨_, _, _, _, _, _, _, _, input_eq, hacc⟩
  | appendCommit _ hacc _ _ hcacc =>
    obtain ⟨rs', meta', hrs', hph', rfl⟩ := hcacc.slot
    exact .commit (hi.append hacc) hrs' hph'
  | appendAbort input_eq hacc hrs _ ha =>
    refine .abort ha fun rs' meta body hrs' hph => ?_
    rw [RingBuffer.eq_of_get_set_self _ hrs hrs'] at hph
    cases hph
    exact hself ⟨_, _, _, _, _, _, _, _, input_eq, hacc⟩
  | commit _ hcacc =>
    obtain ⟨rs, meta, hrs, hph, rfl⟩ := hcacc.slot
    exact .commit hi hrs hph
  | newView =>
    refine .of_not_append fun rs' hrs' meta body => ?_
    rw [show (node.followerState.installView _).roundStates = node.followerState.roundStates.map _
      from rfl, RingBuffer.get_map, Option.map_eq_some'] at hrs'
    obtain ⟨rs, hrs, rfl⟩ := hrs'
    simp [(hi.next rs hrs).notCommitted]

theorem ne_append_singleton {α : Type} {l : List α} {a : α} : l ≠ l ++ [a] := fun h => by
  simpa using congrArg List.length h

/-- A commit of the next slot writes the block of its Append and marks the slot committed. -/
theorem commitBlock_written (node : Node) {rs : RoundState} {meta : PhaseMeta} {body : Body}
    (hi : Inv env node.followerState)
    (hrs : node.followerState.roundStates.get (node.followerState.blockNumber + 1) = some rs)
    (hph : rs.phase = .append meta body) (sigs : SignatureList) :
    let node' := (node.commitBlock (node.followerState.blockNumber + 1) meta.blockHash body sigs).node
    node'.blocks = node.blocks ++ [⟨body, sigs⟩] ∧
      node'.followerState.roundStates.get (node.followerState.blockNumber + 1) =
        some { phase := .committed meta.blockHash } := by
  rw [commitBlock_eq hi hrs hph]
  simp [RingBuffer.get]

theorem Effect.commitValid (he : Effect env node input r) (hi : Inv env node.followerState)
    (hh : AppendHistory env history node) (b : Block) (hb : r.node.blocks = node.blocks ++ [b]) :
    CommitValid env history ⟨node, input, r⟩ b := by
  cases he with
  | frame _ _ _ hbl => exact absurd (hbl ▸ hb) ne_append_singleton
  | buffer | prepare | append | newView => exact absurd hb ne_append_singleton
  | appendAbort _ _ _ _ ha => exact absurd ((abort_frame _ ha).2.2.2.1 ▸ hb) ne_append_singleton
  | appendCommit input_eq hacc hrs hbuf hcacc =>
    rename_i p σ t h sigs data meta body rs t' h' sigs'
    obtain ⟨rs', meta', hrs', hph', rfl⟩ := hcacc.slot
    obtain rfl := RingBuffer.eq_of_get_set_self _ hrs hrs'
    cases hph'
    have hslot := hacc.appendSlot
    obtain ⟨hbw, hslotw⟩ := commitBlock_written { node with followerState :=
      { node.followerState with roundStates := (node.followerState.roundStates.set
        (node.followerState.blockNumber + 1) { phase := .append meta body }) } }
      (hi.append hacc) hrs' rfl sigs'
    obtain rfl := List.singleton_inj.mp (List.append_cancel_left (hbw.symm.trans hb))
    have hsig := hcacc.signatures
    rw [hcacc.term] at hbuf hsig
    refine ⟨.inr ⟨p, σ, t, h, sigs, data, rs, ?_, ?_, ?_⟩, ?_,
      (Env.supermajorityReached_true hcacc.signatures.1).2, ?_,
      ⟨_, List.mem_append_right _ (List.mem_singleton_self _), _, _, _, _, _, _, _, _, input_eq,
        hacc⟩⟩ <;> simp only [hslot.height, hslot.hash]
    · exact input_eq
    · exact hrs
    · exact hbuf
    · exact hslotw
    · exact hsig
  | commit input_eq hcacc =>
    rename_i p σ t h sigs body
    obtain ⟨rs, meta, hrs, hph, rfl⟩ := hcacc.slot
    have hslot := (hi.next rs hrs).append meta body hph
    obtain ⟨hbw, hslotw⟩ := commitBlock_written node hi hrs hph sigs
    obtain rfl := List.singleton_inj.mp (List.append_cancel_left (hbw.symm.trans hb))
    obtain ⟨ev, hev, hacc⟩ := hh rs meta _ hrs hph
    have hsig := hcacc.signatures
    rw [hcacc.term] at input_eq hsig
    refine ⟨.inl ⟨p, σ, ?_⟩, ?_, (Env.supermajorityReached_true hcacc.signatures.1).2, ?_,
      ⟨ev, List.mem_append_left _ hev, hacc⟩⟩ <;> simp only [hslot.height, hslot.hash]
    · exact input_eq
    · exact hslotw
    · exact hsig

end Evidence

theorem run_commitValid {env : Env} {node : Node} {history : List Event}
    (hi : Inv env node.followerState) (hh : AppendHistory env history node) (inputs : List Input) :
    ∀ pre ev post, run env node inputs = pre ++ ev :: post →
      ∀ b, ev.out.node.blocks = ev.pre.blocks ++ [b] → CommitValid env (history ++ pre) ev b := by
  induction inputs generalizing node history with
  | nil => intro pre ev post h; simp [run] at h
  | cons input inputs ih =>
    intro pre ev post h b hb
    have he := step_effect hi input
    cases pre with
    | nil =>
      obtain ⟨rfl, -⟩ := List.cons.inj h
      rw [List.append_nil]
      exact he.commitValid hi hh b hb
    | cons e pre =>
      simp only [run, List.cons_append, List.cons.injEq] at h
      obtain ⟨rfl, h⟩ := h
      simpa using ih (step_inv hi input) (he.appendHistory hi hh) pre ev post h b hb

/-- Every written block carries its Commit's hash, a supermajority of valid AckAppend signatures
for the follower's term, and its accepted Append. -/
theorem commit_validity (env : Env) (window : Nat) (inputs : List Input) (pre : List Event)
    (ev : Event) (post : List Event) (hrun : run env (Node.new window) inputs = pre ++ ev :: post)
    (b : Block) (hb : ev.out.node.blocks = ev.pre.blocks ++ [b]) : CommitValid env pre ev b := by
  simpa using run_commitValid (Inv.new env window) (AppendHistory.new window) inputs pre ev post
    hrun b hb

theorem commit_validity_sample :
    let e₁ : Event := ⟨Node.new 2, .message ⟨1, .prepare 0 1 101, 0⟩,
      step Env.sample (Node.new 2) (.message ⟨1, .prepare 0 1 101, 0⟩)⟩
    let e₂ : Event := ⟨e₁.out.node, .message ⟨1, .append 0 1 101 .sample [⟨9, 5, 0⟩], 0⟩,
      step Env.sample e₁.out.node (.message ⟨1, .append 0 1 101 .sample [⟨9, 5, 0⟩], 0⟩)⟩
    let e₃ : Event := ⟨e₂.out.node, .message ⟨1, .commit 0 1 101 .sample, 0⟩,
      step Env.sample e₂.out.node (.message ⟨1, .commit 0 1 101 .sample, 0⟩)⟩
    let b : Block := ⟨⟨0, 1, 0, [⟨9, 5, 0⟩]⟩, .sample⟩
    e₃.out.node.blocks = e₃.pre.blocks ++ [b] ∧ CommitValid Env.sample [e₁, e₂] e₃ b := by
  intro e₁ e₂ e₃ b
  have hb : e₃.out.node.blocks = e₃.pre.blocks ++ [b] := by decide
  exact ⟨hb, commit_validity Env.sample 2 [e₁.input, e₂.input, e₃.input] [e₁, e₂] e₃ [] rfl b hb⟩

/-! ## What a written block holds -/

/-- Every block at the end of a run from a state with the invariant was there at its start or
was written by a step of the run. -/
theorem mem_blocks_exec {env : Env} {node : Node} (hi : Inv env node.followerState)
    (inputs : List Input) {b : Block} (hb : b ∈ (exec env node inputs).blocks) :
    b ∈ node.blocks ∨ ∃ pre ev post, run env node inputs = pre ++ ev :: post ∧
      ev.out.node.blocks = ev.pre.blocks ++ [b] := by
  induction inputs generalizing node with
  | nil => exact .inl hb
  | cons input inputs ih =>
    rcases ih (step_inv hi input) hb with hb' | ⟨pre, ev, post, hrun, hev⟩
    · rcases (step_effect hi input).chainStep hi with ⟨hbl, -⟩ | ⟨b', hbl, -⟩
      · exact .inl (hbl ▸ hb')
      · rw [hbl, List.mem_append, List.mem_singleton] at hb'
        rcases hb' with hb' | rfl
        · exact .inl hb'
        · exact .inr ⟨[], _, _, rfl, hbl⟩
    · exact .inr ⟨_ :: pre, ev, post, by rw [run, hrun, List.cons_append], hev⟩

/-- Every written block holds a nonempty list of signed, permitted transactions. -/
theorem written_blocks_hold_valid_transactions (env : Env) (window : Nat) (inputs : List Input) :
    ∀ b ∈ (exec env (Node.new window) inputs).blocks,
      TransactionsValid env b.body.transactions := by
  intro b hb
  rcases mem_blocks_exec (Inv.new env window) inputs hb with hb' | ⟨pre, ev, post, hrun, hev⟩
  · exact absurd hb' (List.not_mem_nil _)
  · obtain ⟨ev', -, p, σ, t, n, h, sigs, data, meta, -, hacc⟩ :=
      (run_commitValid (Inv.new env window) (AppendHistory.new window) inputs pre ev post hrun b
        hev).append
    rw [hacc.body_eq]
    exact hacc.transactions

theorem written_blocks_hold_valid_transactions_sample :
    (⟨⟨0, 1, 0, [⟨9, 5, 0⟩]⟩, .sample⟩ : Block) ∈ (exec Env.sample (Node.new 2)
      [.message ⟨1, .prepare 0 1 101, 0⟩, .message ⟨1, .append 0 1 101 .sample [⟨9, 5, 0⟩], 0⟩,
        .message ⟨1, .commit 0 1 101 .sample, 0⟩]).blocks ∧
    TransactionsValid Env.sample [⟨9, 5, 0⟩] :=
  have hb : (⟨⟨0, 1, 0, [⟨9, 5, 0⟩]⟩, .sample⟩ : Block) ∈ (exec Env.sample (Node.new 2)
      [.message ⟨1, .prepare 0 1 101, 0⟩,
        .message ⟨1, .append 0 1 101 .sample [⟨9, 5, 0⟩], 0⟩,
        .message ⟨1, .commit 0 1 101 .sample, 0⟩]).blocks := by decide
  ⟨hb, written_blocks_hold_valid_transactions Env.sample 2 _ _ hb⟩

end Prellblock
