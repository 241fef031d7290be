import Prellblock.Effect

/-!
# A follower does not equivocate

For each term and height, a follower acknowledges at most one Prepare and at most one Append,
and when it acknowledges both they name the same hash. The follower keeps no record of its
replies; what makes this hold is that its state remembers every acknowledgement it gave: the
round is behind it (a lower term or a committed height), or it is the next round and the phase
of that round has taken the acknowledged hash (`Remembers`). Each step keeps what is remembered
and remembers its own reply, and a new acknowledgement needs the next round still `Waiting`, or
its Prepare with the same hash.
-/

namespace Prellblock
set_option autoImplicit false

/-- The phase of the round after the committed height. -/
def FollowerState.nextPhase (fs : FollowerState) : Option Phase :=
  (fs.roundStates.get (fs.blockNumber + 1)).map RoundState.phase

/-- The hash a round has taken, by its Prepare or its Append. -/
def Phase.taken : Phase → Option BlockHash
  | .prepare meta | .append meta _ => some meta.blockHash
  | _ => none

/-- Two replies of one follower, the first before the second, do not equivocate. -/
structure Consistent (r₁ r₂ : Reply) : Prop where
  prepare : ∀ t n h h', r₁ = .ok (.ackPrepare t n h) → r₂ ≠ .ok (.ackPrepare t n h')
  append : ∀ t n h h', r₁ = .ok (.ackAppend t n h) → r₂ ≠ .ok (.ackAppend t n h')
  prepareAppend : ∀ t n h h', r₁ = .ok (.ackPrepare t n h) → r₂ = .ok (.ackAppend t n h') → h = h'
  appendPrepare : ∀ t n h h', r₁ = .ok (.ackAppend t n h) → r₂ = .ok (.ackPrepare t n h') → h = h'

/-- What a follower state shows of a reply it gave: an acknowledged round is behind it, or it is
the next round and has taken the acknowledged hash (an acknowledged Append, in its Append). -/
structure Remembers (fs : FollowerState) (r : Reply) : Prop where
  prepare : ∀ t n h, r = .ok (.ackPrepare t n h) → t < fs.leaderTerm ∨ n ≤ fs.blockNumber ∨
    t = fs.leaderTerm ∧ n = fs.blockNumber + 1 ∧ ∃ p, fs.nextPhase = some p ∧ p.taken = some h
  append : ∀ t n h, r = .ok (.ackAppend t n h) → t < fs.leaderTerm ∨ n ≤ fs.blockNumber ∨
    t = fs.leaderTerm ∧ n = fs.blockNumber + 1 ∧
      ∃ meta body, fs.nextPhase = some (.append meta body) ∧ meta.blockHash = h

/-- A reply that acknowledges no Prepare and no Append. -/
def NotAck (r : Reply) : Prop := ∀ t n h, r ≠ .ok (.ackPrepare t n h) ∧ r ≠ .ok (.ackAppend t n h)

section Remembers
variable {fs fs' : FollowerState} {r r₀ : Reply}

theorem nextPhase_set {rs : RoundState} (hrs : fs.roundStates.get (fs.blockNumber + 1) = some rs)
    (x : RoundState) :
    { fs with roundStates := fs.roundStates.set (fs.blockNumber + 1) x }.nextPhase = some x.phase := by
  simp [FollowerState.nextPhase, RingBuffer.get_set _ _ _ _ (by simp [hrs] : (fs.roundStates.get
    (fs.blockNumber + 1)).isSome)]

theorem Remembers.congr (h : Remembers fs r) (ht : fs'.leaderTerm = fs.leaderTerm)
    (hb : fs'.blockNumber = fs.blockNumber) (hp : fs'.nextPhase = fs.nextPhase) :
    Remembers fs' r := by
  obtain ⟨h₁, h₂⟩ := h
  rw [← ht, ← hb, ← hp] at h₁ h₂
  exact ⟨h₁, h₂⟩

/-- A later term or a higher committed height puts every remembered round behind. -/
theorem Remembers.later (h : Remembers fs r)
    (hl : fs.leaderTerm < fs'.leaderTerm ∧ fs.blockNumber ≤ fs'.blockNumber ∨
      fs.leaderTerm ≤ fs'.leaderTerm ∧ fs.blockNumber < fs'.blockNumber) : Remembers fs' r where
  prepare t n hash hr := by rcases h.prepare t n hash hr with h | h | ⟨h, h', -⟩ <;> omega
  append t n hash hr := by rcases h.append t n hash hr with h | h | ⟨h, h', -⟩ <;> omega

/-- When the next round is `Waiting`, every remembered round is behind. -/
theorem Remembers.of_waiting (h : Remembers fs r) (hw : fs.nextPhase = some .waiting)
    (ht : fs'.leaderTerm = fs.leaderTerm) (hb : fs'.blockNumber = fs.blockNumber) :
    Remembers fs' r where
  prepare t n hash hr := by
    rcases h.prepare t n hash hr with h | h | ⟨-, -, p, hp, hh⟩
    · exact .inl (ht ▸ h)
    · exact .inr (.inl (hb ▸ h))
    · cases hw.symm.trans hp
      cases hh
  append t n hash hr := by
    rcases h.append t n hash hr with h | h | ⟨-, -, _, _, hp, -⟩
    · exact .inl (ht ▸ h)
    · exact .inr (.inl (hb ▸ h))
    · cases hw.symm.trans hp

/-- Appending after a Prepare keeps the hash the round has taken. -/
theorem Remembers.of_prepare {meta : PhaseMeta} {body : Body} (h : Remembers fs r)
    (hp : fs.nextPhase = some (.prepare meta)) (hp' : fs'.nextPhase = some (.append meta body))
    (ht : fs'.leaderTerm = fs.leaderTerm) (hb : fs'.blockNumber = fs.blockNumber) :
    Remembers fs' r where
  prepare t n hash hr := by
    rcases h.prepare t n hash hr with h | h | ⟨h, h', p, hq, hh⟩
    · exact .inl (ht ▸ h)
    · exact .inr (.inl (hb ▸ h))
    · cases hp.symm.trans hq
      exact .inr (.inr ⟨ht ▸ h, hb ▸ h', _, hp', hh⟩)
  append t n hash hr := by
    rcases h.append t n hash hr with h | h | ⟨-, -, _, _, hq, -⟩
    · exact .inl (ht ▸ h)
    · exact .inr (.inl (hb ▸ h))
    · cases hp.symm.trans hq

theorem Remembers.of_notAck (hr : NotAck r) : Remembers fs r :=
  ⟨fun _ _ _ h => absurd h ((hr _ _ _).1), fun _ _ _ h => absurd h ((hr _ _ _).2)⟩

theorem Consistent.of_notAck (hr : NotAck r) : Consistent r₀ r :=
  ⟨fun _ _ _ _ _ => (hr _ _ _).1, fun _ _ _ _ _ => (hr _ _ _).2,
    fun _ _ _ _ _ h => absurd h ((hr _ _ _).2), fun _ _ _ _ _ h => absurd h ((hr _ _ _).1)⟩

/-- A Prepare is acknowledged only in a `Waiting` round, which no acknowledgement took. -/
theorem Remembers.consistent_ackPrepare (h : Remembers fs r₀) (hw : fs.nextPhase = some .waiting)
    (hash : BlockHash) :
    Consistent r₀ (.ok (.ackPrepare fs.leaderTerm (fs.blockNumber + 1) hash)) where
  prepare t n h₀ _ hr he := by
    cases he
    rcases h.prepare _ _ h₀ hr with h | h | ⟨-, -, p, hp, hh⟩
    · omega
    · omega
    · cases hw.symm.trans hp
      cases hh
  append _ _ _ _ _ he := by cases he
  prepareAppend _ _ _ _ _ he := by cases he
  appendPrepare t n h₀ _ hr he := by
    cases he
    rcases h.append _ _ h₀ hr with h | h | ⟨-, -, _, _, hp, -⟩
    · omega
    · omega
    · cases hw.symm.trans hp

/-- An Append is acknowledged only in a `Waiting` round or a Prepare of the same hash. -/
theorem Remembers.consistent_ackAppend {hash : BlockHash} (h : Remembers fs r₀)
    (hw : fs.nextPhase = some .waiting ∨ ∃ meta, fs.nextPhase = some (.prepare meta) ∧
      meta.blockHash = hash) :
    Consistent r₀ (.ok (.ackAppend fs.leaderTerm (fs.blockNumber + 1) hash)) where
  prepare _ _ _ _ _ he := by cases he
  append t n h₀ _ hr he := by
    cases he
    rcases h.append _ _ h₀ hr with h | h | ⟨-, -, _, _, hp, -⟩
    · omega
    · omega
    · rcases hw with hw | ⟨_, hw, -⟩ <;> cases hw.symm.trans hp
  prepareAppend t n h₀ _ hr he := by
    cases he
    rcases h.prepare _ _ h₀ hr with h | h | ⟨-, -, p, hp, hh⟩
    · omega
    · omega
    · rcases hw with hw | ⟨meta, hw, hm⟩ <;> cases hw.symm.trans hp
      · cases hh
      · simp only [Phase.taken, Option.some.injEq] at hh
        exact hh.symm.trans hm
  appendPrepare _ _ _ _ _ he := by cases he

end Remembers

section Step
variable {env : Env} {node : Node} {input : Input} {r : Handled}

theorem nextPhase_of_get {fs : FollowerState} {rs : RoundState}
    (hrs : fs.roundStates.get (fs.blockNumber + 1) = some rs) : fs.nextPhase = some rs.phase := by
  simp [FollowerState.nextPhase, hrs]

theorem QuietReply.notAck {r : Reply} (hq : QuietReply input r) : NotAck r := fun _ _ _ =>
  ⟨fun he => by rw [he] at hq; exact hq, fun he => by rw [he] at hq; exact hq⟩

theorem notAck_err (e : Error) : NotAck (.err e) := fun _ _ _ => ⟨by simp, by simp⟩

theorem notAck_ok {m : ConsensusMessage} (hm : m = .ackCommit ∨ m = .ackNewView) : NotAck (.ok m) :=
  fun _ _ _ => by rcases hm with rfl | rfl <;> simp

/-- An accepted Append, written into the next slot, keeps what is remembered and remembers its
acknowledgement, which is consistent with every remembered reply. -/
theorem AppendAccepted.remembers {p : PeerId} {t : Nat} {h : BlockHash} {sigs : SignatureList}
    {data : List SignedTransaction} {meta : PhaseMeta} {body : Body} {rs : RoundState}
    (hacc : AppendAccepted env node.followerState p t (node.followerState.blockNumber + 1) h sigs
      data meta body)
    (hrs : node.followerState.roundStates.get (node.followerState.blockNumber + 1) = some rs) :
    let fs' := { node.followerState with roundStates := (node.followerState.roundStates.set
      (node.followerState.blockNumber + 1) { phase := .append meta body }) }
    let ack := Reply.ok (.ackAppend node.followerState.leaderTerm (node.followerState.blockNumber + 1) h)
    (∀ r₀, Remembers node.followerState r₀ → Remembers fs' r₀ ∧ Consistent r₀ ack) ∧
      Remembers fs' ack := by
  have hnew := nextPhase_set hrs { phase := .append meta body }
  obtain ⟨rs₀, hrs₀, hph⟩ := hacc.slot
  obtain rfl := Option.some.inj (hrs₀.symm.trans hrs)
  have hold := nextPhase_of_get hrs
  refine ⟨fun r₀ h₀ => ?_, fun _ _ _ he => (by cases he), fun _ _ _ he => ?_⟩
  · rcases hph with ⟨hw, -⟩ | hp
    · rw [hw] at hold
      exact ⟨h₀.of_waiting hold rfl rfl, h₀.consistent_ackAppend (.inl hold)⟩
    · rw [hp] at hold
      exact ⟨h₀.of_prepare hold hnew rfl rfl,
        h₀.consistent_ackAppend (.inr ⟨meta, hold, hacc.hash_meta.symm⟩)⟩
  · cases he
    exact .inr (.inr ⟨rfl, rfl, meta, body, hnew, hacc.hash_meta.symm⟩)

theorem Remembers.abort {node' : Node} {a : Abort} {r₀ : Reply} (ha : a.Plain)
    (h : Remembers node'.followerState r₀) : Remembers (node'.abort a).node.followerState r₀ := by
  obtain ⟨hr, ht, hb, -⟩ := abort_frame node' ha
  exact h.congr ht hb (by simp only [FollowerState.nextPhase, hr, hb])

/-- A buffered Commit that an Append applies but rejects changes nothing of what the Append's
acknowledgement remembers; a panic acknowledges nothing. -/
theorem remembers_afterBufferedCommit {fs₀ : FollowerState} {node' : Node} {a : Abort}
    {ack : ConsensusMessage} (ha : a.Plain)
    (hold : ∀ r₀, Remembers fs₀ r₀ → Remembers node'.followerState r₀ ∧ Consistent r₀ (.ok ack))
    (hnew : Remembers node'.followerState (.ok ack)) :
    (∀ r₀, Remembers fs₀ r₀ → Remembers (node'.abort a).node.followerState r₀ ∧
      Consistent r₀ ((node'.abort a).reply.afterBufferedCommit ack)) ∧
      Remembers (node'.abort a).node.followerState ((node'.abort a).reply.afterBufferedCommit ack) := by
  have hq : ∀ site, NotAck (.panic site) := fun _ _ _ _ => ⟨by simp, by simp⟩
  cases (node'.abort a).reply <;> simp only [Reply.afterBufferedCommit]
  all_goals first
    | exact ⟨fun r₀ h₀ => ⟨((hold r₀ h₀).1).abort ha, (hold r₀ h₀).2⟩, hnew.abort ha⟩
    | exact ⟨fun r₀ h₀ => ⟨((hold r₀ h₀).1).abort ha, .of_notAck (hq _)⟩, .of_notAck (hq _)⟩

theorem Effect.remembers (he : Effect env node input r) (hi : Inv env node.followerState) :
    (∀ r₀, Remembers node.followerState r₀ →
      Remembers r.node.followerState r₀ ∧ Consistent r₀ r.reply) ∧
      Remembers r.node.followerState r.reply := by
  cases he with
  | frame hr ht hb _ _ hq =>
    have hp : r.node.followerState.nextPhase = node.followerState.nextPhase := by
      simp only [FollowerState.nextPhase, hr, hb]
    exact ⟨fun r₀ h₀ => ⟨h₀.congr ht hb hp, .of_notAck hq.notAck⟩, .of_notAck hq.notAck⟩
  | buffer _ _ _ hrs =>
    exact ⟨fun r₀ h₀ => ⟨h₀.congr rfl rfl ((nextPhase_set hrs _).trans (nextPhase_of_get hrs).symm),
      .of_notAck (notAck_err _)⟩, .of_notAck (notAck_err _)⟩
  | prepare _ _ _ hrs hph =>
    have hw := nextPhase_of_get hrs
    rw [hph] at hw
    exact ⟨fun r₀ h₀ => ⟨h₀.of_waiting hw rfl rfl, h₀.consistent_ackPrepare hw _⟩,
      fun _ _ _ he => (by cases he; exact .inr (.inr ⟨rfl, rfl, _, nextPhase_set hrs _, rfl⟩)),
      fun _ _ _ he => by cases he⟩
  | append _ hacc hrs => exact hacc.remembers hrs
  | appendCommit _ hacc hrs _ hcacc =>
    obtain ⟨hold, -⟩ := hacc.remembers hrs
    obtain ⟨rs', meta', hrs', hph', -⟩ := hcacc.slot
    rw [commitBlock_eq (hi.append hacc) hrs' hph']
    refine ⟨fun r₀ h₀ => ⟨h₀.later (.inr ⟨le_rfl, Nat.lt_succ_self _⟩), (hold r₀ h₀).2⟩,
      fun _ _ _ he => (by cases he), fun _ _ _ he => ?_⟩
    cases he
    exact .inr (.inl le_rfl)
  | appendAbort _ hacc hrs _ ha =>
    obtain ⟨hold, hnew⟩ := hacc.remembers hrs
    exact remembers_afterBufferedCommit ha hold hnew
  | commit _ hcacc =>
    obtain ⟨rs, meta, hrs, hph, -⟩ := hcacc.slot
    rw [commitBlock_eq hi hrs hph]
    exact ⟨fun r₀ h₀ => ⟨h₀.later (.inr ⟨le_rfl, Nat.lt_succ_self _⟩),
      .of_notAck (notAck_ok (.inl rfl))⟩,
      .of_notAck (notAck_ok (.inl rfl))⟩
  | newView _ ht =>
    exact ⟨fun r₀ h₀ => ⟨h₀.later (.inl ⟨ht, le_rfl⟩), .of_notAck (notAck_ok (.inr rfl))⟩,
      .of_notAck (notAck_ok (.inr rfl))⟩

end Step

theorem run_consistent {env : Env} {node : Node} (hi : Inv env node.followerState)
    (history : List Reply) (hh : ∀ r₀ ∈ history, Remembers node.followerState r₀)
    (inputs : List Input) :
    (∀ r₀ ∈ history, ∀ ev ∈ run env node inputs, Consistent r₀ ev.out.reply) ∧
      (run env node inputs).Pairwise fun ev₁ ev₂ => Consistent ev₁.out.reply ev₂.out.reply := by
  induction inputs generalizing node history with
  | nil => exact ⟨fun _ _ _ h => (List.not_mem_nil _ h).elim, List.Pairwise.nil⟩
  | cons input inputs ih =>
    obtain ⟨hstep, hnew⟩ := (step_effect hi input).remembers hi
    obtain ⟨hrest, hpair⟩ := ih (step_inv hi input) ((step env node input).reply :: history)
      (List.forall_mem_cons.mpr ⟨hnew, fun r₀ h₀ => (hstep r₀ (hh r₀ h₀)).1⟩)
    refine ⟨fun r₀ h₀ => List.forall_mem_cons.mpr ⟨(hstep r₀ (hh r₀ h₀)).2,
      hrest r₀ (List.mem_cons_of_mem _ h₀)⟩, List.pairwise_cons.mpr ⟨hrest _ (List.mem_cons_self _ _), hpair⟩⟩

/-- From any state with the invariant, the replies of a run do not equivocate: for each term and
height at most one AckPrepare and at most one AckAppend, and both name the same hash. -/
theorem follower_non_equivocation (env : Env) (node : Node) (hi : Inv env node.followerState)
    (inputs : List Input) :
    (run env node inputs).Pairwise fun ev₁ ev₂ => Consistent ev₁.out.reply ev₂.out.reply :=
  (run_consistent hi [] (fun _ h => (List.not_mem_nil _ h).elim) inputs).2

theorem follower_non_equivocation_sample :
    (run Env.sample (Node.new 2) [.message ⟨1, .prepare 0 1 101, 0⟩,
      .message ⟨1, .append 0 1 101 .sample [⟨9, 5, 0⟩], 0⟩,
      .message ⟨1, .commit 0 1 101 .sample, 0⟩]).Pairwise fun ev₁ ev₂ =>
        Consistent ev₁.out.reply ev₂.out.reply :=
  follower_non_equivocation Env.sample (Node.new 2) (Inv.new _ 2) _

end Prellblock
