import Prellblock.Chain
import Prellblock.NonEquivocation
import Prellblock.Faults

/-!
# A network of replicas

The follower runs at every honest peer; Byzantine peers send anything under their own names, and
the leader's side is not in the sources, so any peer may propose anything. A history is the list
of deliveries so far; `Network.Reachable` admits a delivery whose message is authentic before it.
Signatures stay valid as a history grows, and the AckAppend signatures of every written block
were signed.
-/

namespace Prellblock
set_option autoImplicit false

/-- ViewChange and NewView, the messages a replica broadcasts. -/
def ConsensusMessage.isView : ConsensusMessage → Bool
  | .viewChange _ | .newView .. => true
  | _ => false

def Handled.signed (r : Handled) (m : ConsensusMessage) : Bool :=
  r.reply == .ok m || r.broadcasts.contains m

def ViewBroadcasts (r : Handled) : Prop := ∀ m ∈ r.broadcasts, m.isView = true

section Broadcasts
variable {env : Env}

theorem viewBroadcasts_nil (node : Node) (reply : Reply) : ViewBroadcasts ⟨node, [], reply⟩ :=
  fun _ h => (List.not_mem_nil _ h).elim

theorem viewBroadcasts_abort (node : Node) (a : Abort) : ViewBroadcasts (node.abort a) := by
  cases a with
  | faulty => simp [ViewBroadcasts, Node.abort, Node.requestViewChange, ConsensusMessage.isView]
  | buffer =>
    simp only [Node.abort]
    split <;> exact viewBroadcasts_nil _ _
  | _ => exact viewBroadcasts_nil _ _

theorem viewBroadcasts_commitBlock (node : Node) (n : Nat) (h : BlockHash) (body : Body)
    (sigs : SignatureList) : ViewBroadcasts (node.commitBlock n h body sigs) := by
  unfold Node.commitBlock
  split
  · exact viewBroadcasts_nil _ _
  · dsimp only
    split_ifs <;> exact viewBroadcasts_nil _ _

theorem viewBroadcasts_handleCommitMessageInner (node : Node) (p : PeerId) (t n : Nat)
    (h : BlockHash) (sigs : SignatureList) :
    ViewBroadcasts (handleCommitMessageInner env node p t n h sigs) := by
  unfold handleCommitMessageInner
  split
  · exact viewBroadcasts_abort _ _
  · exact viewBroadcasts_commitBlock _ _ _ _ _

theorem viewBroadcasts_handleAppendMessage (node : Node) (p : PeerId) (t n : Nat) (h : BlockHash)
    (sigs : SignatureList) (data : List SignedTransaction) :
    ViewBroadcasts (handleAppendMessage env node p t n h sigs data) := by
  rcases handleAppendMessage_cases env node p t n h sigs data with ⟨-, hr⟩ | ⟨a, -, hr⟩ |
    ⟨meta, body, rs, -, -, ⟨-, hr⟩ | ⟨t', n', h', sigs', -, hr⟩ | ⟨m, -, -, hr⟩⟩ <;> rw [hr] <;>
    first
      | exact viewBroadcasts_nil _ _
      | exact viewBroadcasts_abort _ _
      | exact viewBroadcasts_handleCommitMessageInner _ _ _ _ _ _

theorem viewBroadcasts_handleViewChange (node : Node) (p : PeerId) (σ : Signature) (t : Nat) :
    ViewBroadcasts (handleViewChange env node p σ t) := by
  intro m hm
  simp only [handleViewChange] at hm
  split_ifs at hm
  · exact absurd hm (List.not_mem_nil _)
  · repeat' split at hm
    all_goals simp_all [ConsensusMessage.isView]

theorem viewBroadcasts_step (env : Env) (node : Node) (input : Input) :
    ViewBroadcasts (step env node input) := by
  cases input with
  | message msg =>
    obtain ⟨p, m, σ⟩ := msg
    simp only [step, handleMessage]
    split_ifs
    · exact viewBroadcasts_nil _ _
    · exact viewBroadcasts_nil _ _
    cases m with
    | prepare t n h =>
      rcases handlePrepareMessage_cases env node p t n h with ⟨-, hr⟩ | ⟨a, -, hr⟩ |
        ⟨rs, -, -, -, -, -, hr⟩ <;> simp only [handleConsensusMessage, hr] <;>
        first | exact viewBroadcasts_nil _ _ | exact viewBroadcasts_abort _ _
    | append t n h sigs data => exact viewBroadcasts_handleAppendMessage _ _ _ _ _ _ _
    | commit t n h sigs =>
      rcases handleCommitMessage_cases env node p t n h sigs with ⟨-, hr⟩ | ⟨-, hr⟩ <;>
        simp only [handleConsensusMessage, hr] <;>
        first
          | exact viewBroadcasts_nil _ _
          | exact viewBroadcasts_handleCommitMessageInner _ _ _ _ _ _
    | viewChange t => exact viewBroadcasts_handleViewChange _ _ _ _
    | newView t sigs =>
      rcases handleNewView_cases env node t sigs with ⟨a, -, hr⟩ | ⟨-, -, hr⟩ <;>
        simp only [handleConsensusMessage, hr] <;>
        first | exact viewBroadcasts_nil _ _ | exact viewBroadcasts_abort _ _
    | _ => exact viewBroadcasts_nil _ _
  | takeTransactions => exact viewBroadcasts_nil _ _
  | censorshipTimeout now =>
    simp only [step, censorshipChecker]
    split_ifs
    · simp [ViewBroadcasts, Node.requestViewChange, ConsensusMessage.isView]
    · exact viewBroadcasts_nil _ _

theorem reply_of_signed_ackAppend {r : Handled} (hb : ViewBroadcasts r) {t n : Nat}
    {h : BlockHash} (hs : r.signed (.ackAppend t n h) = true) : r.reply = .ok (.ackAppend t n h) := by
  simp only [Handled.signed, Bool.or_eq_true, beq_iff_eq, List.elem_iff, List.contains] at hs
  rcases hs with hs | hs
  · exact hs
  · exact absurd (hb _ hs) (by simp [ConsensusMessage.isView])

end Broadcasts


section Runs
variable {env : Env}

theorem mem_run {node : Node} {inputs : List Input} {ev : Event} (h : ev ∈ run env node inputs) :
    ev.out = step env ev.pre ev.input ∧ ev.input ∈ inputs := by
  induction inputs generalizing node with
  | nil => exact absurd h (List.not_mem_nil _)
  | cons input inputs ih =>
    rcases List.mem_cons.mp h with rfl | h
    · exact ⟨rfl, List.mem_cons_self _ _⟩
    · exact (ih h).imp_right (List.mem_cons_of_mem _)

theorem run_append (node : Node) (xs ys : List Input) :
    run env node (xs ++ ys) = run env node xs ++ run env (exec env node xs) ys := by
  induction xs generalizing node with
  | nil => rfl
  | cons x xs ih => simp [run, exec, ih]

/-- A property of a replica and the steps before it that every step keeps. -/
theorem run_before (P : List Event → Node → Prop)
    (hstep : ∀ history node input, P history node →
      P (history ++ [⟨node, input, step env node input⟩]) (step env node input).node)
    {node : Node} {history : List Event} (h0 : P history node) (inputs : List Input) :
    ∀ {pre ev post}, run env node inputs = pre ++ ev :: post → P (history ++ pre) ev.pre := by
  induction inputs generalizing node history with
  | nil => intro pre ev post h; simp [run] at h
  | cons input inputs ih =>
    intro pre ev post h
    cases pre with
    | nil =>
      obtain ⟨rfl, -⟩ := List.cons.inj h
      simpa using h0
    | cons e pre =>
      simp only [run, List.cons_append, List.cons.injEq] at h
      obtain ⟨rfl, h⟩ := h
      simpa using ih (hstep history node input h0) h

def BufferHistory (history : List Event) (node : Node) : Prop :=
  ∀ rs m, node.followerState.roundStates.get (node.followerState.blockNumber + 1) = some rs →
    rs.bufferedCommitMessage = some m → ∃ ev ∈ history, ∃ p σ, ev.input = .message ⟨p, m, σ⟩

variable {node : Node} {history : List Event}

theorem BufferHistory.new (window : Nat) : BufferHistory [] (Node.new window) := by
  intro rs m hrs hm
  simp [Node.new, FollowerState.new, RingBuffer.get, List.getElem?_replicate] at hrs
  simp [← hrs.2] at hm

theorem BufferHistory.of_none {node' : Node}
    (h : ∀ rs, node'.followerState.roundStates.get (node'.followerState.blockNumber + 1) = some rs →
      rs.bufferedCommitMessage = none) : BufferHistory history node' :=
  fun rs m hrs hm => by simp [h rs hrs] at hm

theorem BufferHistory.mono (h : BufferHistory history node) (e : Event) :
    BufferHistory (history ++ [e]) node := fun rs m hrs hm =>
  let ⟨ev, hev, hin⟩ := h rs m hrs hm
  ⟨ev, List.mem_append_left _ hev, hin⟩

theorem BufferHistory.commit {rs : RoundState} {meta : PhaseMeta} {body : Body}
    {sigs : SignatureList} (hi : Inv env node.followerState)
    (hrs : node.followerState.roundStates.get (node.followerState.blockNumber + 1) = some rs)
    (hph : rs.phase = .append meta body) :
    BufferHistory history
      (node.commitBlock (node.followerState.blockNumber + 1) meta.blockHash body sigs).node := by
  rw [commitBlock_eq hi hrs hph]
  refine .of_none fun rs' hrs' => ?_
  rw [hi.get_commit _ (Nat.lt_succ_self _) hrs']

theorem Effect.bufferHistory {input : Input} {r : Handled} (he : Effect env node input r)
    (hi : Inv env node.followerState) (hh : BufferHistory history node) :
    BufferHistory (history ++ [⟨node, input, r⟩]) r.node := by
  cases he with
  | frame hr _ hn =>
    intro rs m hrs
    rw [hr, hn] at hrs
    exact hh.mono _ rs m hrs
  | buffer input_eq _ _ hrs =>
    intro rs' m hrs' hm
    rw [RingBuffer.eq_of_get_set_self _ hrs hrs'] at hm
    cases hm
    exact ⟨_, List.mem_append_right _ (List.mem_singleton_self _), _, _, input_eq⟩
  | prepare _ _ _ hrs =>
    intro rs' m hrs' hm
    rw [RingBuffer.eq_of_get_set_self _ hrs hrs'] at hm
    exact hh.mono _ _ m hrs hm
  | append _ _ hrs => exact .of_none fun rs' hrs' => by rw [RingBuffer.eq_of_get_set_self _ hrs hrs']
  | appendCommit _ hacc _ _ hcacc =>
    obtain ⟨rs', meta', hrs', hph', rfl⟩ := hcacc.slot
    exact .commit (hi.append hacc) hrs' hph'
  | appendAbort _ _ hrs _ ha =>
    obtain ⟨hr, -, hn, -⟩ := abort_frame _ ha
    refine .of_none fun rs' hrs' => ?_
    rw [hr, hn] at hrs'
    rw [RingBuffer.eq_of_get_set_self _ hrs hrs']
  | commit _ hcacc =>
    obtain ⟨rs, meta, hrs, hph, rfl⟩ := hcacc.slot
    exact .commit hi hrs hph
  | newView =>
    refine .of_none fun rs' hrs' => ?_
    rw [show (node.followerState.installView _).roundStates = node.followerState.roundStates.map _
      from rfl, RingBuffer.get_map, Option.map_eq_some'] at hrs'
    obtain ⟨rs, hrs, rfl⟩ := hrs'
    simp [(hi.next rs hrs).notCommitted]

/-- Before each step of a run from `PRaftBFT::new`: the invariant, and a buffered Commit that
was an earlier input. -/
theorem run_bufferHistory (window : Nat) (inputs : List Input) {pre : List Event} {ev : Event}
    {post : List Event} (h : run env (Node.new window) inputs = pre ++ ev :: post) :
    Inv env ev.pre.followerState ∧ BufferHistory pre ev.pre := by
  simpa using run_before (fun history node => Inv env node.followerState ∧ BufferHistory history node)
    (fun _ node input ⟨hi, hh⟩ => ⟨step_inv hi input, (step_effect hi input).bufferHistory hi hh⟩)
    ⟨Inv.new env window, BufferHistory.new window⟩ inputs h

end Runs

/-! ## The network -/

/-- A roster whose `byzantine` peers, at most the fault bound, behave arbitrarily. -/
structure Network where
  env : Env
  window : Nat
  byzantine : Finset PeerId
  byzantine_card : byzantine.card ≤ faultBound env.peers.length
  rpu_roster : ∀ p, env.verifyIsRpu p = true → p ∈ env.peers

structure Delivery where
  peer : PeerId
  input : Input

/-- The inputs delivered to `p` in the history `w`, oldest first. -/
def inputsOf (w : List Delivery) (p : PeerId) : List Input :=
  (w.filter fun d => d.peer == p).map Delivery.input

theorem inputsOf_append (w w' : List Delivery) (p : PeerId) :
    inputsOf (w ++ w') p = inputsOf w p ++ inputsOf w' p := by
  simp [inputsOf]

namespace Network
variable (net : Network)

def envOf (p : PeerId) : Env := { net.env with identity := p }

def runOf (w : List Delivery) (p : PeerId) : List Event :=
  run (net.envOf p) (Node.new net.window) (inputsOf w p)

def nodeOf (w : List Delivery) (p : PeerId) : Node :=
  exec (net.envOf p) (Node.new net.window) (inputsOf w p)

/-- `p` has signed `m` in `w`: a Byzantine peer anything, an honest one its own statements. -/
def signs (w : List Delivery) (p : PeerId) (m : ConsensusMessage) : Bool :=
  decide (p ∈ net.byzantine) || (net.runOf w p).any fun ev => ev.out.signed m

def signsAll (w : List Delivery) (sigs : SignatureList) (m : ConsensusMessage) : Bool :=
  sigs.entries.all fun e => net.signs w e.1 m

/-- A message deliverable after `w`: signed by its sender unless a proposal, and its signature
list signed by each signer. -/
def authentic (w : List Delivery) (msg : Signed) : Bool :=
  (msg.message.isProposal || net.signs w msg.signer msg.message) &&
    match msg.message with
    | .append t n h sigs _ => net.signsAll w sigs (.ackPrepare t n h)
    | .commit t n h sigs => net.signsAll w sigs (.ackAppend t n h)
    | .newView t sigs => net.signsAll w sigs (.viewChange t)
    | _ => true

def admissible (w : List Delivery) (d : Delivery) : Bool :=
  decide (d.peer ∉ net.byzantine) && match d.input with
    | .message msg => net.authentic w msg
    | _ => true

/-- The histories of the network: each delivery admissible after the ones before it. -/
inductive Reachable : List Delivery → Prop
  | nil : Reachable []
  | snoc {w : List Delivery} {d : Delivery} : Reachable w → net.admissible w d = true →
      Reachable (w ++ [d])

def admitsFrom (w : List Delivery) : List Delivery → Bool
  | [] => true
  | d :: ds => net.admissible w d && admitsFrom (w ++ [d]) ds

variable {net}

theorem Reachable.append {w : List Delivery} (hw : net.Reachable w) :
    ∀ {ds : List Delivery}, net.admitsFrom w ds = true → net.Reachable (w ++ ds)
  | [], _ => by simpa using hw
  | d :: ds, h => by
    simp only [admitsFrom, Bool.and_eq_true] at h
    simpa using (hw.snoc h.1).append h.2


variable {w : List Delivery} {p : PeerId} {m : ConsensusMessage}

theorem signs_append (h : net.signs w p m = true) (w' : List Delivery) :
    net.signs (w ++ w') p m = true := by
  simp only [signs, runOf, inputsOf_append, run_append, List.any_append, Bool.or_eq_true] at h ⊢
  tauto

theorem signsAll_append {sigs : SignatureList} (h : net.signsAll w sigs m = true)
    (w' : List Delivery) : net.signsAll (w ++ w') sigs m = true := by
  simp only [signsAll, List.all_eq_true] at h ⊢
  exact fun e he => signs_append (h e he) w'

theorem authentic_append {msg : Signed} (h : net.authentic w msg = true) (w' : List Delivery) :
    net.authentic (w ++ w') msg = true := by
  obtain ⟨p, m, σ⟩ := msg
  simp only [authentic, Bool.and_eq_true, Bool.or_eq_true] at h ⊢
  refine ⟨h.1.imp_right fun hs => signs_append hs w', ?_⟩
  cases m <;> simp only at h ⊢ <;> exact signsAll_append h.2 w'

theorem Reachable.authentic (hw : net.Reachable w) {msg : Signed}
    (h : Input.message msg ∈ inputsOf w p) : net.authentic w msg = true := by
  induction hw with
  | nil => exact absurd h (List.not_mem_nil _)
  | @snoc w d _ hd ih =>
    rw [inputsOf_append] at h
    rcases List.mem_append.mp h with h | h
    · exact authentic_append (ih h) _
    · simp only [inputsOf, List.filter_cons, List.filter_nil] at h
      split at h
      · obtain ⟨peer, input⟩ := d
        obtain rfl : input = .message msg := by simpa [eq_comm] using h
        simp only [admissible, Bool.and_eq_true] at hd
        exact authentic_append hd.2 _
      · exact absurd h (List.not_mem_nil _)

/-- A written block's AckAppend signatures are a valid supermajority whose signers signed it. -/
theorem Reachable.commit_signed (hw : net.Reachable w) {ev : Event} (hev : ev ∈ net.runOf w p)
    {b : Block} (hb : ev.out.node.blocks = ev.pre.blocks ++ [b]) :
    SignaturesValid net.env
        (.ackAppend ev.pre.followerState.leaderTerm b.body.height (net.env.hash b.body))
        b.signatures ∧
      net.signsAll w b.signatures
        (.ackAppend ev.pre.followerState.leaderTerm b.body.height (net.env.hash b.body)) = true := by
  obtain ⟨pre, post, hrun⟩ := List.append_of_mem hev
  have hv := run_commitValid (Inv.new _ net.window) (AppendHistory.new net.window) _ pre ev post
    hrun b hb
  have hsigned : ∀ {q σ}, Input.message ⟨q, .commit ev.pre.followerState.leaderTerm b.body.height
      (net.env.hash b.body) b.signatures, σ⟩ ∈ inputsOf w p →
      net.signsAll w b.signatures
        (.ackAppend ev.pre.followerState.leaderTerm b.body.height (net.env.hash b.body)) = true :=
    fun h => by simpa [authentic, ConsensusMessage.isProposal] using hw.authentic h
  refine ⟨hv.signatures, ?_⟩
  rcases hv.commit with ⟨q, σ, hin⟩ | ⟨q, σ, t', h', sigs', data, rs, -, hrs, hbuf⟩
  · exact hsigned (hin ▸ (mem_run hev).2)
  · obtain ⟨hi, hbh⟩ := run_bufferHistory net.window _ hrun
    have hstep := (mem_run hev).1
    have hheight : b.body.height = ev.pre.followerState.blockNumber + 1 := by
      rcases (step_effect hi ev.input).chainStep hi with ⟨hb', -⟩ | ⟨b', hb', -, hh, -⟩ <;>
        rw [← hstep, hb] at hb'
      · exact absurd hb'.symm ne_append_singleton
      · rwa [List.singleton_inj.mp (List.append_cancel_left hb')]
    obtain ⟨ev', hev', q', σ', hin⟩ := hbh rs _ (hheight ▸ hrs) hbuf
    exact hsigned (hin ▸ (mem_run (hrun ▸ List.mem_append_left _ hev')).2)

end Network

end Prellblock
