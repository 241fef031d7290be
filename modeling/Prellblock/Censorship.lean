import Prellblock.Outcomes

/-!
# The transaction queue and the censorship watchdog

`take_transactions` queues a batch with its arrival time; the commit of a block drops the
block's transactions, and no other step writes the queue. A queued transaction stays until a
block holds it, and a watchdog round that finds it older than `CENSORSHIP_TIMEOUT` requests a
view change. No handler reads the queue, so client batches never steer consensus.
-/

namespace Prellblock
set_option autoImplicit false

/-- The batch an input queues, stamped with its arrival time. -/
def Input.batch : Input → List (Nat × SignedTransaction)
  | .takeTransactions now transactions => transactions.map fun tx => (now, tx)
  | _ => []

/-- A step writes no block and queues `batch`, or writes one block and drops its transactions. -/
def QueueStep (node node' : Node) (batch : List (Nat × SignedTransaction)) : Prop :=
  (node'.blocks = node.blocks ∧ node'.queue = node.queue ++ batch) ∨
  ∃ b : Block, node'.blocks = node.blocks ++ [b] ∧
    node'.queue = node.queue.filter fun e => !b.body.transactions.contains e.2

section Handlers
variable {env : Env} (node : Node)

theorem QueueStep.of_keep {node' : Node} (hb : node'.blocks = node.blocks)
    (hq : node'.queue = node.queue) : QueueStep node node' [] :=
  .inl ⟨hb, by rw [hq, List.append_nil]⟩

theorem queueStep_abort (a : Abort) : QueueStep node (node.abort a).node [] := by
  cases a <;> simp only [Node.abort] <;> try split
  all_goals exact .of_keep node rfl rfl

theorem queueStep_commitBlock (n : Nat) (h : BlockHash) (body : Body) (sigs : SignatureList) :
    QueueStep node (node.commitBlock n h body sigs).node [] := by
  unfold Node.commitBlock
  split
  · exact .of_keep node rfl rfl
  · dsimp only
    split_ifs
    · exact .of_keep node rfl rfl
    · exact .of_keep node rfl rfl
    · exact .inr ⟨_, rfl, rfl⟩

theorem queueStep_handleCommitMessageInner (p : PeerId) (t n : Nat) (h : BlockHash)
    (sigs : SignatureList) :
    QueueStep node (handleCommitMessageInner env node p t n h sigs).node [] := by
  unfold handleCommitMessageInner
  split
  · exact queueStep_abort node _
  · exact queueStep_commitBlock node _ _ _ _

theorem queueStep_handleConsensusMessage (p : PeerId) (σ : Signature) (m : ConsensusMessage) :
    QueueStep node (handleConsensusMessage env node p σ m).node [] := by
  cases m with
  | prepare t n h =>
    rcases handlePrepareMessage_cases env node p t n h with ⟨-, hr⟩ | ⟨a, -, hr⟩ |
      ⟨rs, -, -, -, -, -, hr⟩ <;> simp only [handleConsensusMessage, hr] <;>
      first | exact .of_keep node rfl rfl | exact queueStep_abort node a
  | append t n h sigs data =>
    rcases handleAppendMessage_cases env node p t n h sigs data with ⟨-, hr⟩ | ⟨a, -, hr⟩ |
      ⟨meta, body, rs, -, -, ⟨-, hr⟩ | ⟨t', n', h', sigs', -, hr⟩ | ⟨m, -, -, hr⟩⟩ <;>
      simp only [handleConsensusMessage, hr] <;>
      first
        | exact .of_keep node rfl rfl
        | exact queueStep_abort node a
        | exact queueStep_handleCommitMessageInner _ _ _ _ _ _
  | commit t n h sigs =>
    rcases handleCommitMessage_cases env node p t n h sigs with ⟨-, hr⟩ | ⟨-, hr⟩ <;>
      simp only [handleConsensusMessage, hr] <;>
      first | exact .of_keep node rfl rfl | exact queueStep_handleCommitMessageInner node _ _ _ _ _
  | viewChange t =>
    rcases handleViewChange_cases env node p t σ with ⟨hn, -⟩ | ⟨-, _, hn, -⟩ <;>
      simp only [handleConsensusMessage, hn] <;> exact .of_keep node rfl rfl
  | newView t sigs =>
    rcases handleNewView_cases env node t sigs with ⟨a, -, hr⟩ | ⟨-, -, hr⟩ <;>
      simp only [handleConsensusMessage, hr] <;>
      first | exact .of_keep node rfl rfl | exact queueStep_abort node a
  | _ => exact .of_keep node rfl rfl

end Handlers

theorem queueStep_step (env : Env) (node : Node) (input : Input) :
    QueueStep node (step env node input).node input.batch := by
  cases input with
  | message msg =>
    simp only [step, handleMessage, Input.batch]
    split_ifs
    · exact .of_keep node rfl rfl
    · exact .of_keep node rfl rfl
    · exact queueStep_handleConsensusMessage node _ _ _
  | takeTransactions now transactions => exact .inl ⟨rfl, rfl⟩
  | censorshipTimeout now =>
    simp only [step, censorshipChecker, Input.batch]
    split_ifs <;> exact .of_keep node rfl rfl

theorem queued_until_committed (env : Env) (node : Node) (inputs : List Input) :
    ∃ bs, (exec env node inputs).blocks = node.blocks ++ bs ∧
      ∀ e ∈ node.queue, (∀ b ∈ bs, e.2 ∉ b.body.transactions) →
        e ∈ (exec env node inputs).queue := by
  induction inputs generalizing node with
  | nil => exact ⟨[], by simp [exec], fun e he _ => he⟩
  | cons input inputs ih =>
    obtain ⟨bs, hb, hq⟩ := ih (step env node input).node
    rcases queueStep_step env node input with ⟨hb', hq'⟩ | ⟨b, hb', hq'⟩
    · refine ⟨bs, by rw [exec, hb, hb'], fun e he hnc => hq e ?_ hnc⟩
      rw [hq']
      exact List.mem_append_left _ he
    · refine ⟨b :: bs, by simp [exec, hb, hb'], fun e he hnc => hq e ?_ fun b' hb'' => hnc b'
        (List.mem_cons_of_mem _ hb'')⟩
      rw [hq', List.mem_filter]
      exact ⟨he, by simpa using hnc b (List.mem_cons_self _ _)⟩

theorem batch_eq_nil_of_write {env : Env} {node : Node} {input : Input} {b : Block}
    (hb : (step env node input).node.blocks = node.blocks ++ [b]) : input.batch = [] := by
  cases input with
  | takeTransactions now transactions =>
    have := congrArg List.length hb
    simp [step, takeTransactions] at this
  | _ => rfl

theorem mem_queue_step_iff (env : Env) (node : Node) (input : Input)
    (e : Nat × SignedTransaction) (bs : List Block) :
    (e ∈ (step env node input).node.queue ∧ ∀ b ∈ bs, e.2 ∉ b.body.transactions) ↔
      (e ∈ node.queue ∧ ∀ b ∈ ((step env node input).node.blocks ++ bs).drop node.blocks.length,
        e.2 ∉ b.body.transactions) ∨
      (e ∈ input.batch ∧ ∀ b ∈ bs, e.2 ∉ b.body.transactions) := by
  rcases queueStep_step env node input with ⟨hb, hq⟩ | ⟨b, hb, hq⟩
  · rw [hb, hq, List.drop_left, List.mem_append, or_and_right]
  · rw [hb, hq, batch_eq_nil_of_write hb, List.append_assoc, List.drop_left, List.mem_filter]
    simp [and_assoc]

/-- An entry is queued at the end of a run iff it was queued at the start, or queued by a step,
and no block written after that holds its transaction. -/
theorem mem_queue_iff (env : Env) (node : Node) (inputs : List Input)
    (e : Nat × SignedTransaction) :
    e ∈ (exec env node inputs).queue ↔
      (e ∈ node.queue ∧ ∀ b ∈ (exec env node inputs).blocks.drop node.blocks.length,
        e.2 ∉ b.body.transactions) ∨
      ∃ ev ∈ run env node inputs, e ∈ ev.input.batch ∧
        ∀ b ∈ (exec env node inputs).blocks.drop ev.out.node.blocks.length,
          e.2 ∉ b.body.transactions := by
  induction inputs generalizing node with
  | nil => simp [exec, run]
  | cons input inputs ih =>
    obtain ⟨bs, hb, -⟩ := queued_until_committed env (step env node input).node inputs
    have hdrop : (exec env (step env node input).node inputs).blocks.drop
        (step env node input).node.blocks.length = bs := by
      rw [hb, List.drop_left]
    simp only [exec, run, ih, hdrop]
    rw [mem_queue_step_iff env node input e bs, hb, or_assoc, List.exists_mem_cons_iff, List.drop_left]

/-- A transaction queued at `now₀` and never committed is still queued, and a watchdog round
more than `CENSORSHIP_TIMEOUT` later requests a view change. -/
theorem censored_transaction_requests_view_change (env : Env) (node : Node) (now₀ : Nat)
    (transactions : List SignedTransaction) {tx : SignedTransaction} (htx : tx ∈ transactions)
    (inputs : List Input) (bs : List Block)
    (hbs : (exec env node (.takeTransactions now₀ transactions :: inputs)).blocks =
      node.blocks ++ bs)
    (hnc : ∀ b ∈ bs, tx ∉ b.body.transactions) (now : Nat)
    (hnow : now - now₀ > censorshipTimeout) :
    (now₀, tx) ∈ (exec env node (.takeTransactions now₀ transactions :: inputs)).queue ∧
      step env (exec env node (.takeTransactions now₀ transactions :: inputs))
          (.censorshipTimeout now) =
        ⟨(exec env node (.takeTransactions now₀ transactions :: inputs)).requestViewChange.1,
          (exec env node (.takeTransactions now₀ transactions :: inputs)).requestViewChange.2,
          .done⟩ := by
  obtain ⟨bs', hb', hq⟩ := queued_until_committed env
    (step env node (.takeTransactions now₀ transactions)).node inputs
  obtain rfl : bs' = bs := List.append_cancel_left (hb'.symm.trans hbs)
  have hmem : (now₀, tx) ∈ (exec env node (.takeTransactions now₀ transactions :: inputs)).queue :=
    hq _ (List.mem_append_right _ (List.mem_map_of_mem _ htx)) hnc
  have hold : (exec env node (.takeTransactions now₀ transactions :: inputs)).queue.any
      (fun e => now - e.1 > censorshipTimeout) = true :=
    List.any_eq_true.mpr ⟨_, hmem, decide_eq_true hnow⟩
  exact ⟨hmem, by simp only [step, censorshipChecker, hold, if_true]⟩

theorem censored_transaction_requests_view_change_sample :
    (⟨9, 5, 0⟩ : SignedTransaction) ∈ [⟨9, 5, 0⟩] ∧
    (exec Env.sample (Node.new 2) [.takeTransactions 0 [⟨9, 5, 0⟩],
      .message ⟨1, .prepare 0 1 101, 0⟩]).blocks = (Node.new 2).blocks ++ [] ∧
    (∀ b ∈ ([] : List Block), (⟨9, 5, 0⟩ : SignedTransaction) ∉ b.body.transactions) ∧
    20000 - 0 > censorshipTimeout ∧
    (0, ⟨9, 5, 0⟩) ∈ (exec Env.sample (Node.new 2) [.takeTransactions 0 [⟨9, 5, 0⟩],
      .message ⟨1, .prepare 0 1 101, 0⟩]).queue ∧
    step Env.sample (exec Env.sample (Node.new 2) [.takeTransactions 0 [⟨9, 5, 0⟩],
      .message ⟨1, .prepare 0 1 101, 0⟩]) (.censorshipTimeout 20000) =
      ⟨(exec Env.sample (Node.new 2) [.takeTransactions 0 [⟨9, 5, 0⟩],
          .message ⟨1, .prepare 0 1 101, 0⟩]).requestViewChange.1,
        (exec Env.sample (Node.new 2) [.takeTransactions 0 [⟨9, 5, 0⟩],
          .message ⟨1, .prepare 0 1 101, 0⟩]).requestViewChange.2, .done⟩ :=
  ⟨List.mem_singleton_self _, rfl, fun _ h => absurd h (List.not_mem_nil _), by decide,
    censored_transaction_requests_view_change Env.sample (Node.new 2) 0 _
      (List.mem_singleton_self _) [.message ⟨1, .prepare 0 1 101, 0⟩] [] rfl
      (fun _ h => absurd h (List.not_mem_nil _)) 20000 (by decide)⟩

/-! ## The queue does not steer consensus -/

/-- Two replicas that differ at most in their queues. -/
def Node.SameButQueue (x y : Node) : Prop :=
  x.followerState = y.followerState ∧ x.blocks = y.blocks ∧ x.worldState = y.worldState

def Handled.SameButQueue (r r' : Handled) : Prop :=
  r.node.SameButQueue r'.node ∧ r.broadcasts = r'.broadcasts ∧ r.reply = r'.reply

theorem Node.SameButQueue.eq {x y : Node} (h : x.SameButQueue y) :
    y = { x with queue := y.queue } := by
  obtain ⟨h₁, h₂, h₃⟩ := h
  cases x
  cases y
  simp_all

section Queue
variable (env : Env) (x : Node) (q : List (Nat × SignedTransaction)) (p : PeerId) (t n : Nat)
  (h : BlockHash)

theorem abort_sameButQueue (a : Abort) :
    (x.abort a).SameButQueue ({ x with queue := q }.abort a) := by
  cases a with
  | buffer n m c =>
    simp only [Node.abort]
    cases x.followerState.updateRoundState n _ <;> exact ⟨⟨rfl, rfl, rfl⟩, rfl, rfl⟩
  | _ => exact ⟨⟨rfl, rfl, rfl⟩, rfl, rfl⟩

theorem commitBlock_sameButQueue (body : Body) (sigs : SignatureList) :
    (x.commitBlock n h body sigs).SameButQueue
      ({ x with queue := q }.commitBlock n h body sigs) := by
  simp only [Node.commitBlock]
  cases x.followerState.updateRoundState n _ with
  | none => exact ⟨⟨rfl, rfl, rfl⟩, rfl, rfl⟩
  | some fs =>
    dsimp only
    split_ifs <;> exact ⟨⟨rfl, rfl, rfl⟩, rfl, rfl⟩

theorem handlePrepareMessage_sameButQueue :
    (handlePrepareMessage env x p t n h).SameButQueue
      (handlePrepareMessage env { x with queue := q } p t n h) := by
  unfold handlePrepareMessage
  split_ifs
  · exact ⟨⟨rfl, rfl, rfl⟩, rfl, rfl⟩
  cases prepareChecks env x.followerState p t n with
  | error a => exact abort_sameButQueue x q a
  | ok u =>
    dsimp only
    cases x.followerState.updateRoundState n _ <;> exact ⟨⟨rfl, rfl, rfl⟩, rfl, rfl⟩

theorem handleCommitMessageInner_sameButQueue (sigs : SignatureList) :
    (handleCommitMessageInner env x p t n h sigs).SameButQueue
      (handleCommitMessageInner env { x with queue := q } p t n h sigs) := by
  unfold handleCommitMessageInner
  cases commitChecks env x.followerState p t n h sigs with
  | error a => exact abort_sameButQueue x q a
  | ok body => exact commitBlock_sameButQueue x q n h body sigs

theorem handleCommitMessage_sameButQueue (sigs : SignatureList) :
    (handleCommitMessage env x p t n h sigs).SameButQueue
      (handleCommitMessage env { x with queue := q } p t n h sigs) := by
  unfold handleCommitMessage
  split_ifs
  · exact ⟨⟨rfl, rfl, rfl⟩, rfl, rfl⟩
  · exact handleCommitMessageInner_sameButQueue env x q p t n h sigs

theorem handleAppendMessage_sameButQueue (sigs : SignatureList) (data : List SignedTransaction) :
    (handleAppendMessage env x p t n h sigs data).SameButQueue
      (handleAppendMessage env { x with queue := q } p t n h sigs data) := by
  unfold handleAppendMessage
  split_ifs
  · exact ⟨⟨rfl, rfl, rfl⟩, rfl, rfl⟩
  cases appendChecks env x.followerState p t n h sigs data with
  | error a => exact abort_sameButQueue x q a
  | ok r =>
    dsimp only
    cases x.followerState.roundStates.get n with
    | none => exact ⟨⟨rfl, rfl, rfl⟩, rfl, rfl⟩
    | some rs =>
      dsimp only
      split
      · exact ⟨⟨rfl, rfl, rfl⟩, rfl, rfl⟩
      · obtain ⟨hn, hb, hr⟩ := handleCommitMessageInner_sameButQueue env
          { x with followerState := { x.followerState with
            roundStates := x.followerState.roundStates.set n { phase := .append r.1 r.2 } } }
          q p _ _ _ _
        exact ⟨hn, hb, by simp only [hr]⟩
      · exact ⟨⟨rfl, rfl, rfl⟩, rfl, rfl⟩

theorem handleViewChange_sameButQueue (σ : Signature) :
    (handleViewChange env x p σ t).SameButQueue
      (handleViewChange env { x with queue := q } p σ t) := by
  unfold handleViewChange
  dsimp only
  split_ifs
  · exact ⟨⟨rfl, rfl, rfl⟩, rfl, rfl⟩
  cases x.followerState.viewPhase t <;> dsimp only <;>
    first
    | exact ⟨⟨rfl, rfl, rfl⟩, rfl, rfl⟩
    | (cases env.supermajorityReached _ <;> exact ⟨⟨rfl, rfl, rfl⟩, rfl, rfl⟩)

theorem handleNewView_sameButQueue (sigs : SignatureList) :
    (handleNewView env x t sigs).SameButQueue (handleNewView env { x with queue := q } t sigs) := by
  unfold handleNewView
  cases newViewChecks env x.followerState t sigs with
  | error a => exact abort_sameButQueue x q a
  | ok u => exact ⟨⟨rfl, rfl, rfl⟩, rfl, rfl⟩

theorem handleMessage_sameButQueue (m : Signed) :
    (handleMessage env x m).SameButQueue (handleMessage env { x with queue := q } m) := by
  unfold handleMessage
  split_ifs
  · exact ⟨⟨rfl, rfl, rfl⟩, rfl, rfl⟩
  · exact ⟨⟨rfl, rfl, rfl⟩, rfl, rfl⟩
  cases m.message with
  | prepare t n h => exact handlePrepareMessage_sameButQueue env x q _ t n h
  | append t n h sigs data => exact handleAppendMessage_sameButQueue env x q _ t n h sigs data
  | commit t n h sigs => exact handleCommitMessage_sameButQueue env x q _ t n h sigs
  | viewChange t => exact handleViewChange_sameButQueue env x q _ t _
  | newView t sigs => exact handleNewView_sameButQueue env x q t sigs
  | _ => exact ⟨⟨rfl, rfl, rfl⟩, rfl, rfl⟩

end Queue

theorem Node.SameButQueue.handleMessage {x y : Node} (hxy : x.SameButQueue y) (env : Env)
    (m : Signed) : (handleMessage env x m).SameButQueue (handleMessage env y m) := by
  rw [hxy.eq]
  exact handleMessage_sameButQueue env x y.queue m

def Input.isMessage : Input → Bool
  | .message _ => true
  | _ => false

/-- What the peers see of a step: its broadcasts and its reply. -/
def Event.seen (ev : Event) : List ConsensusMessage × Reply := (ev.out.broadcasts, ev.out.reply)

/-- A run without watchdog rounds and the same run without its client batches give the same
replies and broadcasts, and end apart only in their queues. -/
theorem batches_never_steer_consensus (env : Env) (x y : Node) (hxy : x.SameButQueue y)
    (inputs : List Input) (hw : ∀ now, Input.censorshipTimeout now ∉ inputs) :
    ((run env x inputs).filter (·.input.isMessage)).map Event.seen =
      (run env y (inputs.filter Input.isMessage)).map Event.seen ∧
    (exec env x inputs).SameButQueue (exec env y (inputs.filter Input.isMessage)) := by
  induction inputs generalizing x y with
  | nil => exact ⟨rfl, hxy⟩
  | cons input inputs ih =>
    have hw' : ∀ now, Input.censorshipTimeout now ∉ inputs :=
      fun now hm => hw now (List.mem_cons_of_mem _ hm)
    cases input with
    | message m =>
      obtain ⟨hs, hb, hr⟩ := hxy.handleMessage env m
      obtain ⟨h₁, h₂⟩ := ih _ _ hs hw'
      have hm : (Input.message m).isMessage = true := rfl
      refine ⟨?_, h₂⟩
      simp only [run, step, List.filter_cons, hm, if_true, List.map_cons, h₁, Event.seen, hb, hr]
    | takeTransactions now transactions =>
      exact ih _ y ⟨hxy.1, hxy.2.1, hxy.2.2⟩ hw'
    | censorshipTimeout now => exact absurd (List.mem_cons_self _ _) (hw now)

theorem batches_never_steer_consensus_sample :
    ((run Env.sample (Node.new 2) [.takeTransactions 3 [⟨9, 5, 0⟩],
        .message ⟨1, .prepare 0 1 101, 0⟩]).filter (·.input.isMessage)).map Event.seen =
      (run Env.sample (Node.new 2) ([.takeTransactions 3 [⟨9, 5, 0⟩],
        .message ⟨1, .prepare 0 1 101, 0⟩].filter Input.isMessage)).map Event.seen ∧
    (exec Env.sample (Node.new 2) [.takeTransactions 3 [⟨9, 5, 0⟩],
        .message ⟨1, .prepare 0 1 101, 0⟩]).SameButQueue
      (exec Env.sample (Node.new 2) ([.takeTransactions 3 [⟨9, 5, 0⟩],
        .message ⟨1, .prepare 0 1 101, 0⟩].filter Input.isMessage)) :=
  batches_never_steer_consensus Env.sample _ _ ⟨rfl, rfl, rfl⟩ _ (by simp)

end Prellblock
