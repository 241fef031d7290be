import Prellblock.Node

/-!
# What the handlers' checks accept

One lemma per check chain says exactly when it passes (`AppendAccepted`, `CommitAccepted`, ...)
and which early return it may take; later proofs use these and never unfold a chain. The only
early return that writes state is the buffering of a Commit, and it comes only from
`commitChecks`, in a `Waiting` or `Prepare` slot.
-/

namespace Prellblock
set_option autoImplicit false

section Except
variable {ε α β : Type}

theorem except_bind_eq_ok {x : Except ε α} {f : α → Except ε β} {b : β} :
    x >>= f = .ok b ↔ ∃ a, x = .ok a ∧ f a = .ok b := by
  cases x <;> simp [bind, Except.bind]

theorem except_bind_eq_error {x : Except ε α} {f : α → Except ε β} {e : ε} :
    x >>= f = .error e ↔ x = .error e ∨ ∃ a, x = .ok a ∧ f a = .error e := by
  cases x <;> simp [bind, Except.bind]

theorem except_map_eq_ok {x : Except ε α} {f : α → β} {b : β} :
    f <$> x = .ok b ↔ ∃ a, x = .ok a ∧ f a = b := by
  cases x <;> simp [Functor.map, Except.map]

@[simp] theorem except_map_eq_error {x : Except ε α} {f : α → β} {e : ε} :
    f <$> x = .error e ↔ x = .error e := by
  cases x <;> simp [Functor.map, Except.map]

@[simp] theorem except_pure_eq_ok {a b : α} : (pure a : Except ε α) = .ok b ↔ a = b := by
  simp [pure, Except.pure]

@[simp] theorem except_pure_ne_error {a : α} {e : ε} : (pure a : Except ε α) ≠ .error e := by
  simp [pure, Except.pure]

end Except

@[simp] theorem check_eq_ok {c : Bool} {a : Abort} {u : Unit} : check c a = .ok u ↔ c = true := by
  cases c <;> simp [check]

@[simp] theorem check_eq_error {c : Bool} {a a' : Abort} :
    check c a = .error a' ↔ c = false ∧ a' = a := by
  cases c <;> simp [check, eq_comm]

@[simp] theorem liftError_eq_ok {α : Type} {x : Except Error α} {a : α} :
    liftError x = .ok a ↔ x = .ok a := by
  cases x <;> simp [liftError, Except.mapError]

@[simp] theorem liftError_eq_error {α : Type} {x : Except Error α} {a : Abort} :
    liftError x = .error a ↔ ∃ e, x = .error e ∧ a = .reject e := by
  cases x <;> simp [liftError, Except.mapError, eq_comm]

@[simp] theorem verifyMessageMeta_eq_ok {fs : FollowerState} {t : Nat} {n : Nat}
    {u : Unit} : fs.verifyMessageMeta t n = .ok u ↔ t = fs.leaderTerm ∧ fs.blockNumber < n := by
  unfold FollowerState.verifyMessageMeta
  split_ifs <;> simp_all

@[simp] theorem roundState_eq_ok {fs : FollowerState} {n : Nat} {rs : RoundState} :
    fs.roundState n = .ok rs ↔ fs.roundStates.get n = some rs := by
  unfold FollowerState.roundState
  split <;> simp_all

theorem appendMeta_eq_ok {env : Env} {fs : FollowerState} {phase : Phase} {h : BlockHash}
    {meta : PhaseMeta} :
    appendMeta env fs phase h = .ok meta ↔
      (phase = .waiting ∧ meta = ⟨env.leader fs.leaderTerm, h⟩) ∨ phase = .prepare meta := by
  cases phase <;> simp [appendMeta, eq_comm]

theorem checkSupermajority_eq_ok {env : Env} {k : Nat} {u : Unit} :
    checkSupermajority env k = .ok u ↔ env.supermajorityReached k = some true := by
  unfold checkSupermajority
  split <;> simp_all

theorem verifySignatures_eq_ok {env : Env} {m : ConsensusMessage} {l : List (PeerId × Signature)}
    {u : Unit} : verifySignatures env m l = .ok u ↔
      ∀ e ∈ l, env.verify e.1 m e.2 = true ∧ env.verifyIsRpu e.1 = true := by
  induction l with
  | nil => simp [verifySignatures]
  | cons e l ih =>
    obtain ⟨p, σ⟩ := e
    unfold verifySignatures
    split_ifs <;> simp_all

theorem verifyTransactions_eq_ok {env : Env} {l : List SignedTransaction} {u : Unit} :
    verifyTransactions env l = .ok u ↔
      ∀ tx ∈ l, env.verifyTransaction tx = true ∧ env.verifyPermission tx.signer tx.payload = true := by
  induction l with
  | nil => simp [verifyTransactions]
  | cons tx l ih =>
    unfold verifyTransactions
    split_ifs <;> simp_all

/-- A signature list passes the checks a handler makes on it: a supermajority of entries, each
signature valid on `message` and each signer an RPU. -/
def SignaturesValid (env : Env) (message : ConsensusMessage) (sigs : SignatureList) : Prop :=
  env.supermajorityReached sigs.len = some true ∧
    ∀ e ∈ sigs.entries, env.verify e.1 message e.2 = true ∧ env.verifyIsRpu e.1 = true

instance (env : Env) (message : ConsensusMessage) (sigs : SignatureList) :
    Decidable (SignaturesValid env message sigs) :=
  inferInstanceAs (Decidable (env.supermajorityReached sigs.len = some true ∧
    ∀ e ∈ sigs.entries, env.verify e.1 message e.2 = true ∧ env.verifyIsRpu e.1 = true))

/-- The transactions of an Append pass its checks: there are some, and each is signed and
permitted. -/
def TransactionsValid (env : Env) (data : List SignedTransaction) : Prop :=
  data ≠ [] ∧ ∀ tx ∈ data, env.verifyTransaction tx = true ∧
    env.verifyPermission tx.signer tx.payload = true

instance (env : Env) (data : List SignedTransaction) : Decidable (TransactionsValid env data) :=
  inferInstanceAs (Decidable (data ≠ [] ∧ ∀ tx ∈ data, env.verifyTransaction tx = true ∧
    env.verifyPermission tx.signer tx.payload = true))

/-- An Append that passes every check of `handle_append_message`, with the meta and body it
yields. -/
structure AppendAccepted (env : Env) (fs : FollowerState) (peerId : PeerId) (t : Nat)
    (n : Nat) (h : BlockHash) (sigs : SignatureList) (data : List SignedTransaction)
    (meta : PhaseMeta) (body : Body) : Prop where
  leader : env.isCurrentLeader t peerId = true
  term : t = fs.leaderTerm
  number : n = fs.blockNumber + 1
  slot : ∃ rs, fs.roundStates.get n = some rs ∧
    (rs.phase = .waiting ∧ meta = ⟨env.leader fs.leaderTerm, h⟩ ∨ rs.phase = .prepare meta)
  hash_meta : h = meta.blockHash
  signatures : SignaturesValid env (.ackPrepare t n h) sigs
  transactions : TransactionsValid env data
  body_eq : body = appendBody fs t n data
  hash_body : h = env.hash body

theorem appendChecks_eq_ok {env : Env} {fs : FollowerState} {peerId : PeerId} {t : Nat}
    {n : Nat} {h : BlockHash} {sigs : SignatureList} {data : List SignedTransaction}
    {meta : PhaseMeta} {body : Body} :
    appendChecks env fs peerId t n h sigs data = .ok (meta, body) ↔
      AppendAccepted env fs peerId t n h sigs data meta body := by
  simp only [appendChecks, except_bind_eq_ok, except_map_eq_ok, check_eq_ok, liftError_eq_ok,
    verifyMessageMeta_eq_ok, roundState_eq_ok, appendMeta_eq_ok, checkSupermajority_eq_ok,
    verifySignatures_eq_ok, verifyTransactions_eq_ok, beq_iff_eq, Bool.not_eq_true',
    List.isEmpty_eq_false, exists_const, except_pure_eq_ok, Prod.mk.injEq]
  constructor
  · rintro ⟨hl, ⟨ht, -⟩, rs, hrs, meta', hmeta, hh, hn, hsm, hsig, hd, htx, hb, rfl, rfl⟩
    exact ⟨hl, ht, hn, ⟨rs, hrs, hmeta⟩, hh, ⟨hsm, hsig⟩, ⟨hd, htx⟩, rfl, hb⟩
  · rintro ⟨hl, ht, hn, ⟨rs, hrs, hmeta⟩, hh, ⟨hsm, hsig⟩, ⟨hd, htx⟩, rfl, hb⟩
    exact ⟨hl, ⟨ht, hn ▸ Nat.lt_succ_self _⟩, rs, hrs, meta, hmeta, hh, hn, hsm, hsig, hd, htx, hb,
      rfl, rfl⟩

/-- A Commit that passes every check of `handle_commit_message_inner`: its slot holds the
Append it confirms, whose body is committed. -/
structure CommitAccepted (env : Env) (fs : FollowerState) (peerId : PeerId) (t : Nat)
    (n : Nat) (h : BlockHash) (sigs : SignatureList) (body : Body) : Prop where
  leader : env.isCurrentLeader t peerId = true
  term : t = fs.leaderTerm
  number : n = fs.blockNumber + 1
  slot : ∃ rs meta, fs.roundStates.get n = some rs ∧ rs.phase = .append meta body ∧
    h = meta.blockHash
  signatures : SignaturesValid env (.ackAppend t n h) sigs

theorem commitRound_eq_ok {phase : Phase} {n : Nat} {m : ConsensusMessage}
    {meta : PhaseMeta} {body : Body} :
    commitRound phase n m = .ok (meta, body) ↔ phase = .append meta body := by
  cases phase <;> simp [commitRound]

theorem commitChecks_eq_ok {env : Env} {fs : FollowerState} {peerId : PeerId} {t : Nat}
    {n : Nat} {h : BlockHash} {sigs : SignatureList} {body : Body} :
    commitChecks env fs peerId t n h sigs = .ok body ↔
      CommitAccepted env fs peerId t n h sigs body := by
  simp only [commitChecks, except_bind_eq_ok, check_eq_ok, liftError_eq_ok, Prod.exists,
    verifyMessageMeta_eq_ok, roundState_eq_ok, commitRound_eq_ok, checkSupermajority_eq_ok,
    verifySignatures_eq_ok, beq_iff_eq, exists_const, except_pure_eq_ok]
  constructor
  · rintro ⟨hl, ⟨ht, -⟩, rs, hrs, meta, body', hph, hh, hn, hsm, hsig, rfl⟩
    exact ⟨hl, ht, hn, ⟨rs, meta, hrs, hph, hh⟩, ⟨hsm, hsig⟩⟩
  · rintro ⟨hl, ht, hn, ⟨rs, meta, hrs, hph, hh⟩, ⟨hsm, hsig⟩⟩
    exact ⟨hl, ⟨ht, hn ▸ Nat.lt_succ_self _⟩, rs, hrs, meta, body, hph, hh, hn, hsm, hsig, rfl⟩

theorem prepareChecks_eq_ok {env : Env} {fs : FollowerState} {peerId : PeerId} {t : Nat}
    {n : Nat} {u : Unit} :
    prepareChecks env fs peerId t n = .ok u ↔
      env.isCurrentLeader t peerId = true ∧ t = fs.leaderTerm ∧ fs.blockNumber < n ∧
      ∃ rs, fs.roundStates.get n = some rs ∧ rs.phase = .waiting := by
  simp [prepareChecks, except_bind_eq_ok, and_assoc]

theorem newViewChecks_eq_ok {env : Env} {fs : FollowerState} {t : Nat}
    {sigs : SignatureList} {u : Unit} :
    newViewChecks env fs t sigs = .ok u ↔
      fs.leaderTerm < t ∧ SignaturesValid env (.viewChange t) sigs := by
  simp [newViewChecks, except_bind_eq_ok, SignaturesValid]

/-! ## The early returns -/

/-- The errors by which a follower reports a leader's fault: too few signatures, an empty block,
an invalid signature. -/
def Error.isLeaderFault : Error → Bool
  | .notEnoughSignatures | .emptyBlock | .invalidSignature => true
  | _ => false

/-- An early return that writes at most the next term's view phase: a view change only for a
leader fault or a refused permission, a panic only on a small roster. -/
def Abort.Plain : Abort → Prop
  | .reject _ => True
  | .faulty e => e.isLeaderFault = true ∨ e = .permissionDenied
  | .buffer .. => False
  | .panic site => site = .tooFewPeers

/-- Every early return of a check chain satisfies `P`. -/
def AbortsIn (P : Abort → Prop) {α : Type} (x : Except Abort α) : Prop := ∀ a, x = .error a → P a

/-- `P` holds of each early return the checks of `follower.rs` share: a rejection for an error
that is not a leader fault, a view change request, and the panic of a small roster. -/
structure ChainAborts (P : Abort → Prop) : Prop where
  reject : ∀ e, e.isLeaderFault = false → P (.reject e)
  faulty : ∀ e, e.isLeaderFault = true ∨ e = .permissionDenied → P (.faulty e)
  panic : P (.panic .tooFewPeers)

theorem chainAborts_plain : ChainAborts Abort.Plain := ⟨fun _ _ => trivial, fun _ h => h, rfl⟩

section AbortsIn
variable {P : Abort → Prop}

theorem AbortsIn.bind {α β : Type} {x : Except Abort α} {f : α → Except Abort β}
    (hx : AbortsIn P x) (hf : ∀ a, AbortsIn P (f a)) : AbortsIn P (x >>= f) := by
  intro a h
  rcases except_bind_eq_error.mp h with h | ⟨b, -, h⟩
  · exact hx a h
  · exact hf b a h

theorem abortsIn_check (c : Bool) {a : Abort} (h : P a) : AbortsIn P (check c a) := by
  intro a' h'
  obtain ⟨-, rfl⟩ := check_eq_error.mp h'
  exact h

theorem abortsIn_liftError {α : Type} {x : Except Error α}
    (h : ∀ e, x = .error e → P (.reject e)) : AbortsIn P (liftError x) := by
  intro a ha
  obtain ⟨e, he, rfl⟩ := liftError_eq_error.mp ha
  exact h e he

theorem abortsIn_pure {α : Type} (a : α) : AbortsIn P (pure a : Except Abort α) :=
  fun _ h => absurd h except_pure_ne_error

theorem verifyMessageMeta_error {fs : FollowerState} {t n : Nat} {e : Error}
    (h : fs.verifyMessageMeta t n = .error e) : e.isLeaderFault = false := by
  unfold FollowerState.verifyMessageMeta at h
  split_ifs at h <;> cases h <;> rfl

theorem roundState_error {fs : FollowerState} {n : Nat} {e : Error}
    (h : fs.roundState n = .error e) : e.isLeaderFault = false := by
  unfold FollowerState.roundState at h
  split at h <;> cases h
  rfl

theorem abortsIn_checkSupermajority (hP : ChainAborts P) (env : Env) (k : Nat) :
    AbortsIn P (checkSupermajority env k) := by
  intro a h
  unfold checkSupermajority at h
  split at h <;> cases h
  · exact hP.panic
  · exact hP.faulty _ (.inl rfl)

theorem abortsIn_verifySignatures (hP : ChainAborts P) (env : Env) (m : ConsensusMessage) :
    ∀ l, AbortsIn P (verifySignatures env m l)
  | [] => fun _ h => by cases h
  | (p, σ) :: l => by
    intro a h
    unfold verifySignatures at h
    split_ifs at h
    · cases h; exact hP.faulty _ (.inl rfl)
    · cases h; exact hP.reject _ rfl
    · exact abortsIn_verifySignatures hP env m l a h

theorem abortsIn_verifyTransactions (hP : ChainAborts P) (env : Env) :
    ∀ l, AbortsIn P (verifyTransactions env l)
  | [] => fun _ h => by cases h
  | tx :: l => by
    intro a h
    unfold verifyTransactions at h
    split_ifs at h
    · cases h; exact hP.faulty _ (.inl rfl)
    · cases h; exact hP.faulty _ (.inr rfl)
    · exact abortsIn_verifyTransactions hP env l a h

theorem abortsIn_appendMeta (hP : ChainAborts P) (env : Env) (fs : FollowerState) (phase : Phase)
    (h : BlockHash) : AbortsIn P (appendMeta env fs phase h) := by
  intro a ha
  cases phase <;> simp only [appendMeta] at ha <;> cases ha <;> exact hP.reject _ rfl

theorem abortsIn_commitRound (hP : ChainAborts P) (hbuffer : ∀ n m c, P (.buffer n m c))
    (phase : Phase) (n : Nat) (m : ConsensusMessage) : AbortsIn P (commitRound phase n m) := by
  intro a ha
  cases phase <;> simp only [commitRound] at ha <;> cases ha
  all_goals first | exact hbuffer _ _ _ | exact hP.reject _ rfl

/-- The meta checks every round handler starts with. -/
theorem abortsIn_liftError_meta (hP : ChainAborts P) (fs : FollowerState) (t n : Nat) :
    AbortsIn P (liftError (fs.verifyMessageMeta t n)) :=
  abortsIn_liftError fun _ h => hP.reject _ (verifyMessageMeta_error h)

theorem abortsIn_liftError_roundState (hP : ChainAborts P) (fs : FollowerState) (n : Nat) :
    AbortsIn P (liftError (fs.roundState n)) :=
  abortsIn_liftError fun _ h => hP.reject _ (roundState_error h)

theorem abortsIn_prepareChecks (hP : ChainAborts P) (env : Env) (fs : FollowerState)
    (peerId : PeerId) (t : Nat) (n : Nat) : AbortsIn P (prepareChecks env fs peerId t n) :=
  (abortsIn_check _ (hP.reject _ (by rfl))).bind fun _ => (abortsIn_liftError_meta hP _ _ _).bind fun _ =>
    (abortsIn_liftError_roundState hP _ _).bind fun _ => abortsIn_check _ (hP.reject _ (by rfl))

theorem abortsIn_appendChecks (hP : ChainAborts P) (env : Env) (fs : FollowerState)
    (peerId : PeerId) (t : Nat) (n : Nat) (h : BlockHash) (sigs : SignatureList)
    (data : List SignedTransaction) : AbortsIn P (appendChecks env fs peerId t n h sigs data) :=
  (abortsIn_check _ (hP.reject _ (by rfl))).bind fun _ => (abortsIn_liftError_meta hP _ _ _).bind fun _ =>
    (abortsIn_liftError_roundState hP _ _).bind fun _ => (abortsIn_appendMeta hP _ _ _ _).bind fun _ =>
    (abortsIn_check _ (hP.reject _ (by rfl))).bind fun _ => (abortsIn_check _ (hP.reject _ (by rfl))).bind fun _ =>
    (abortsIn_checkSupermajority hP _ _).bind fun _ => (abortsIn_verifySignatures hP _ _ _).bind fun _ =>
    (abortsIn_check _ (hP.faulty .emptyBlock (.inl rfl))).bind fun _ =>
    (abortsIn_verifyTransactions hP _ _).bind fun _ => (abortsIn_check _ (hP.reject _ (by rfl))).bind fun _ =>
    abortsIn_pure _

theorem abortsIn_commitChecks (hP : ChainAborts P) (hbuffer : ∀ n m c, P (.buffer n m c))
    (env : Env) (fs : FollowerState) (peerId : PeerId) (t : Nat) (n : Nat) (h : BlockHash)
    (sigs : SignatureList) : AbortsIn P (commitChecks env fs peerId t n h sigs) :=
  (abortsIn_check _ (hP.reject _ (by rfl))).bind fun _ => (abortsIn_liftError_meta hP _ _ _).bind fun _ =>
    (abortsIn_liftError_roundState hP _ _).bind fun _ =>
    (abortsIn_commitRound hP hbuffer _ _ _).bind fun _ =>
    (abortsIn_check _ (hP.reject _ (by rfl))).bind fun _ => (abortsIn_check _ (hP.reject _ (by rfl))).bind fun _ =>
    (abortsIn_checkSupermajority hP _ _).bind fun _ => (abortsIn_verifySignatures hP _ _ _).bind fun _ =>
    abortsIn_pure _

/-- A NewView is only rejected. -/
theorem abortsIn_newViewChecks (h : ∀ e, P (.reject e)) (env : Env) (fs : FollowerState) (t : Nat)
    (sigs : SignatureList) : AbortsIn P (newViewChecks env fs t sigs) :=
  (abortsIn_check _ (h _)).bind fun _ => (abortsIn_check _ (h _)).bind fun _ => abortsIn_check _ (h _)

end AbortsIn

/-- `commitChecks` buffers exactly a Commit that passes the leader and meta checks and finds its
slot `Waiting` or `Prepare`; every other early return is plain. -/
theorem commitChecks_eq_error {env : Env} {fs : FollowerState} {peerId : PeerId}
    {t : Nat} {n : Nat} {h : BlockHash} {sigs : SignatureList} {a : Abort}
    (ha : commitChecks env fs peerId t n h sigs = .error a) :
    a.Plain ∨ env.isCurrentLeader t peerId = true ∧ t = fs.leaderTerm ∧ fs.blockNumber < n ∧
      ∃ rs, fs.roundStates.get n = some rs ∧
        (rs.phase = .waiting ∨ ∃ meta, rs.phase = .prepare meta) ∧
        a = .buffer n (.commit t n h sigs) rs.phase.toPhaseName := by
  simp only [commitChecks, except_bind_eq_error, except_bind_eq_ok, check_eq_ok, Prod.exists,
    liftError_eq_ok, roundState_eq_ok] at ha
  rcases ha with ha | ⟨-, hl, ha | ⟨_, hm, ha | ⟨rs, hrs, ha | ⟨meta, body, -, ha⟩⟩⟩⟩
  · exact .inl (abortsIn_check _ trivial a ha)
  · exact .inl (abortsIn_liftError_meta chainAborts_plain _ _ _ a ha)
  · exact .inl (abortsIn_liftError_roundState chainAborts_plain _ _ a ha)
  · cases hph : rs.phase <;> rw [hph] at ha <;> simp only [commitRound] at ha <;> cases ha
    · exact .inr ⟨hl, (verifyMessageMeta_eq_ok.mp hm).1, (verifyMessageMeta_eq_ok.mp hm).2, rs, hrs,
        .inl hph, by rw [hph]⟩
    · exact .inr ⟨hl, (verifyMessageMeta_eq_ok.mp hm).1, (verifyMessageMeta_eq_ok.mp hm).2, rs, hrs,
        .inr ⟨_, hph⟩, by rw [hph]⟩
    · exact .inl trivial
  · rcases ha with ha | ⟨-, -, ha | ⟨-, -, ha | ⟨-, -, ha | ⟨-, -, ha⟩⟩⟩⟩
    · exact .inl (abortsIn_check _ trivial a ha)
    · exact .inl (abortsIn_check _ trivial a ha)
    · exact .inl (abortsIn_checkSupermajority chainAborts_plain _ _ a ha)
    · exact .inl (abortsIn_verifySignatures chainAborts_plain _ _ _ a ha)
    · exact absurd ha except_pure_ne_error

end Prellblock
