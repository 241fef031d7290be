import Prellblock.Outcomes

/-!
# The invariant of a follower's rounds

`Inv` says what the ring of a follower holds: the committed slot of the committed height, whose
hash `last_block_hash` reads, then the slot of the next height, then empty slots. Only the next
slot is ever written: the waiting rule and `verify_message_meta` admit no other height. A
Commit is buffered only in a `Waiting` or `Prepare` slot, and an `Append` slot holds the valid
body it was accepted with, for the next height and chained to the last hash. This module states
the invariant and proves that each write a handler makes keeps it.
-/

namespace Prellblock
set_option autoImplicit false

/-- What an accepted Append's slot holds: a valid body for height `n + 1`, chained to `last`. -/
structure AppendSlot (env : Env) (t : Nat) (n : Nat) (last : BlockHash)
    (meta : PhaseMeta) (body : Body) : Prop where
  term : body.leaderTerm = t
  height : body.height = n + 1
  prev : body.prevBlockHash = last
  hash : env.hash body = meta.blockHash
  transactions : TransactionsValid env body.transactions

/-- The slot of the height after the committed one. -/
structure NextSlot (env : Env) (t : Nat) (n : Nat) (last : BlockHash)
    (rs : RoundState) : Prop where
  buffered : ∀ m, rs.bufferedCommitMessage = some m →
    (rs.phase = .waiting ∨ ∃ meta, rs.phase = .prepare meta) ∧
      ∃ t' h sigs, m = .commit t' (n + 1) h sigs
  notCommitted : rs.phase.isCommitted = false
  append : ∀ meta body, rs.phase = .append meta body → AppendSlot env t n last meta body

/-- The invariant of a follower's ring of rounds. -/
structure Inv (env : Env) (fs : FollowerState) : Prop where
  ring : ∃ h slots, fs.roundStates = ⟨fs.blockNumber, { phase := .committed h } :: slots⟩
  next : ∀ rs, fs.roundStates.get (fs.blockNumber + 1) = some rs →
    NextSlot env fs.leaderTerm fs.blockNumber fs.lastBlockHash rs
  ahead : ∀ i rs, fs.blockNumber + 1 < i → fs.roundStates.get i = some rs → rs = {}

theorem nextSlot_default (env : Env) (t : Nat) (n : Nat) (last : BlockHash) :
    NextSlot env t n last {} where
  buffered _ h := by cases h
  notCommitted := rfl
  append _ _ h := by cases h

@[simp] theorem RingBuffer.get_mk_self {α : Type} (o : Nat) (a : α) (l : List α) :
    (RingBuffer.mk o (a :: l)).get o = some a := by
  simp [RingBuffer.get]

theorem RingBuffer.mem_of_get_cons {α : Type} {o i : Nat} {a x : α} {l : List α}
    (h : (RingBuffer.mk o (a :: l)).get i = some x) (hi : o < i) : x ∈ l := by
  simp only [RingBuffer.get, Nat.le_of_lt hi, if_true] at h
  obtain ⟨k, hk⟩ : ∃ k, i - o = k + 1 := ⟨i - o - 1, by omega⟩
  rw [hk, List.getElem?_cons_succ] at h
  exact List.getElem?_mem h

theorem lastBlockHash_of_ring {fs : FollowerState} {h : BlockHash} {slots : List RoundState}
    (hr : fs.roundStates = ⟨fs.blockNumber, { phase := .committed h } :: slots⟩) :
    fs.lastBlockHash = h := by
  simp [FollowerState.lastBlockHash, hr]

theorem Inv.new (env : Env) (window : Nat) : Inv env (FollowerState.new window) where
  ring := ⟨0, _, rfl⟩
  next rs h := by
    have : 0 < window ∧ rs = {} := by
      simpa [FollowerState.new, RingBuffer.get, List.getElem?_replicate, eq_comm] using h
    exact this.2 ▸ nextSlot_default _ _ _ _
  ahead i rs hi h := by
    rcases i with _ | k
    · cases hi
    · simp [FollowerState.new, RingBuffer.get, List.getElem?_replicate] at h
      exact h.2.symm

/-- The invariant reads only the term, the committed height and the ring. -/
theorem Inv.congr {env : Env} {fs fs' : FollowerState} (hi : Inv env fs)
    (ht : fs'.leaderTerm = fs.leaderTerm) (hb : fs'.blockNumber = fs.blockNumber)
    (hr : fs'.roundStates = fs.roundStates) : Inv env fs' := by
  have hl : fs'.lastBlockHash = fs.lastBlockHash := by
    simp only [FollowerState.lastBlockHash, hb, hr]
  obtain ⟨⟨h, slots, hring⟩, hnext, hahead⟩ := hi
  refine ⟨⟨h, slots, by rw [hr, hb, hring]⟩, ?_, ?_⟩
  · rw [ht, hb, hr, hl]
    exact hnext
  · rw [hb, hr]
    exact hahead

/-- Writing the next slot keeps the invariant when the new slot is a valid next slot. -/
theorem Inv.setNext {env : Env} {fs : FollowerState} {rs rs' : RoundState} (hi : Inv env fs)
    (hrs : fs.roundStates.get (fs.blockNumber + 1) = some rs)
    (hnext : NextSlot env fs.leaderTerm fs.blockNumber fs.lastBlockHash rs') :
    Inv env { fs with roundStates := fs.roundStates.set (fs.blockNumber + 1) rs' } := by
  have hget := fun j => RingBuffer.get_set fs.roundStates (fs.blockNumber + 1) j rs' (by simp [hrs])
  obtain ⟨⟨h, slots, hring⟩, -, hahead⟩ := hi
  have hlast : fs.lastBlockHash = h := lastBlockHash_of_ring hring
  have hring' : fs.roundStates.set (fs.blockNumber + 1) rs' =
      ⟨fs.blockNumber, { phase := .committed h } :: slots.set 0 rs'⟩ := by
    rw [hring]
    simp [RingBuffer.set]
  refine ⟨⟨h, slots.set 0 rs', hring'⟩, fun x hx => ?_, fun i x hi hx => ?_⟩
  · rw [hget] at hx
    simp only [if_true, Option.some.injEq] at hx
    subst hx
    have hl : ({ fs with roundStates := fs.roundStates.set (fs.blockNumber + 1) rs' } :
        FollowerState).lastBlockHash = h := lastBlockHash_of_ring hring'
    rw [hl, ← hlast]
    exact hnext
  · have hi' : fs.blockNumber + 1 < i := hi
    rw [hget, if_neg (show i ≠ fs.blockNumber + 1 by omega)] at hx
    exact hahead i x hi hx

/-! ## The writes of the handlers -/

section Writes
variable {env : Env} {fs : FollowerState} {rs : RoundState}

/-- The slots after the next one are empty. -/
theorem Inv.eq_of_mem_drop (hi : Inv env fs) {x : RoundState}
    (hx : x ∈ fs.roundStates.items.drop 2) : x = {} := by
  obtain ⟨⟨h, slots, hring⟩, -, hahead⟩ := hi
  rw [hring] at hx
  obtain ⟨j, hj⟩ := List.getElem?_of_mem hx
  refine hahead (fs.blockNumber + 2 + j) x (by omega) ?_
  rw [hring]
  simp only [RingBuffer.get, show fs.blockNumber ≤ fs.blockNumber + 2 + j by omega, if_true,
    show fs.blockNumber + 2 + j - fs.blockNumber = j + 2 by omega]
  simpa using hj

theorem AppendAccepted.appendSlot {p : PeerId} {t n : Nat} {h : BlockHash} {sigs : SignatureList}
    {data : List SignedTransaction} {meta : PhaseMeta} {body : Body}
    (hacc : AppendAccepted env fs p t n h sigs data meta body) :
    AppendSlot env fs.leaderTerm fs.blockNumber fs.lastBlockHash meta body where
  term := by rw [hacc.body_eq]; exact hacc.term
  height := by rw [hacc.body_eq]; exact hacc.number
  prev := by rw [hacc.body_eq]; rfl
  hash := hacc.hash_body.symm.trans hacc.hash_meta
  transactions := by rw [hacc.body_eq]; exact hacc.transactions

theorem Inv.buffer (hi : Inv env fs) (hrs : fs.roundStates.get (fs.blockNumber + 1) = some rs)
    (hph : rs.phase = .waiting ∨ ∃ meta, rs.phase = .prepare meta) (t : Nat) (h : BlockHash)
    (sigs : SignatureList) :
    Inv env { fs with
      roundStates := fs.roundStates.set (fs.blockNumber + 1)
        { rs with bufferedCommitMessage := some (.commit t (fs.blockNumber + 1) h sigs) } } :=
  hi.setNext hrs
    { buffered := fun _ hm => ⟨hph, t, h, sigs, (Option.some.inj hm).symm⟩
      notCommitted := (hi.next rs hrs).notCommitted
      append := fun meta body hb => by rcases hph with hph | ⟨_, hph⟩ <;> simp [hph] at hb }

theorem Inv.prepare (hi : Inv env fs) (hrs : fs.roundStates.get (fs.blockNumber + 1) = some rs)
    (meta : PhaseMeta) :
    Inv env { fs with
      roundStates := fs.roundStates.set (fs.blockNumber + 1) { rs with phase := .prepare meta } } :=
  hi.setNext hrs
    { buffered := fun m hm => ⟨.inr ⟨meta, rfl⟩, ((hi.next rs hrs).buffered m hm).2⟩
      notCommitted := rfl
      append := fun _ _ hb => by cases hb }

theorem Inv.append (hi : Inv env fs) {p : PeerId} {t : Nat} {h : BlockHash}
    {sigs : SignatureList} {data : List SignedTransaction} {meta : PhaseMeta} {body : Body}
    (hacc : AppendAccepted env fs p t (fs.blockNumber + 1) h sigs data meta body) :
    Inv env { fs with
      roundStates := fs.roundStates.set (fs.blockNumber + 1) { phase := .append meta body } } := by
  obtain ⟨rs, hrs, -⟩ := hacc.slot
  refine hi.setNext hrs ⟨fun _ hm => (by cases hm), rfl, ?_⟩
  rintro _ _ ⟨⟩
  exact hacc.appendSlot

/-- After a commit, the slots above the new committed height are empty. -/
theorem Inv.get_commit (hi : Inv env fs) (h : BlockHash) {i : Nat} {x : RoundState}
    (hi' : fs.blockNumber + 1 < i)
    (hx : (RingBuffer.mk (fs.blockNumber + 1) (({ phase := .committed h } : RoundState) ::
      fs.roundStates.items.drop 2 ++ [({} : RoundState)])).get i = some x) : x = {} := by
  rcases List.mem_append.mp (RingBuffer.mem_of_get_cons hx hi') with hx | hx
  · exact hi.eq_of_mem_drop hx
  · exact List.mem_singleton.mp hx

/-- The state `commitBlock_eq` computes keeps the invariant. -/
theorem Inv.commit (hi : Inv env fs) (h : BlockHash) :
    Inv env { fs with
      blockNumber := fs.blockNumber + 1
      roundStates := ⟨fs.blockNumber + 1,
        { phase := .committed h } :: fs.roundStates.items.drop 2 ++ [({} : RoundState)]⟩ } := by
  refine ⟨⟨h, _, rfl⟩, fun x hx => ?_, fun i x hi' hx => hi.get_commit h (Nat.lt_of_succ_lt hi') hx⟩
  rw [hi.get_commit h (Nat.lt_succ_self _) hx]
  exact nextSlot_default _ _ _ _

theorem Inv.installView (hi : Inv env fs) (t : Nat) : Inv env (fs.installView t) := by
  have hget : ∀ i x, (fs.installView t).roundStates.get i = some x →
      ∃ rs, fs.roundStates.get i = some rs ∧
        x = if rs.phase.isCommitted then rs else {} := fun i x hx => by
    rw [show (fs.installView t).roundStates = fs.roundStates.map _ from rfl, RingBuffer.get_map,
      Option.map_eq_some'] at hx
    obtain ⟨rs, hrs, rfl⟩ := hx
    exact ⟨rs, hrs, rfl⟩
  obtain ⟨⟨h, slots, hring⟩, hnext, hahead⟩ := hi
  refine ⟨⟨h, slots.map fun rs => if rs.phase.isCommitted then rs else {}, ?_⟩,
    fun x hx => ?_, fun i x hi' hx => ?_⟩
  · show fs.roundStates.map _ = _
    rw [hring]
    rfl
  · obtain ⟨rs, hrs, rfl⟩ := hget _ x hx
    simp only [(hnext rs hrs).notCommitted, Bool.false_eq_true, if_false]
    exact nextSlot_default _ _ _ _
  · obtain ⟨rs, hrs, rfl⟩ := hget i x hx
    rw [hahead i rs hi' hrs]
    rfl

end Writes

theorem requestViewChange_inv {env : Env} {node : Node} (hi : Inv env node.followerState) :
    Inv env node.requestViewChange.1.followerState := by
  rcases requestViewChange_fst node with h | h <;> rw [h]
  · exact hi
  · exact hi.congr rfl rfl rfl

/-- The commit path under the invariant: the next slot becomes the committed one. -/
theorem commitBlock_eq {env : Env} {node : Node} {rs : RoundState} {meta : PhaseMeta}
    {body : Body} (hi : Inv env node.followerState)
    (hrs : node.followerState.roundStates.get (node.followerState.blockNumber + 1) = some rs)
    (hph : rs.phase = .append meta body) (h : BlockHash) (sigs : SignatureList) :
    node.commitBlock (node.followerState.blockNumber + 1) h body sigs =
      ⟨{ followerState :=
          { node.followerState with
            blockNumber := node.followerState.blockNumber + 1
            roundStates := ⟨node.followerState.blockNumber + 1,
              { phase := .committed h } :: node.followerState.roundStates.items.drop 2 ++ [{}]⟩ }
         blocks := node.blocks ++ [⟨body, sigs⟩]
         queue := node.queue.filter fun e => !body.transactions.contains e.2
         worldState := node.worldState ++ [⟨body, sigs⟩] }, [], .ok .ackCommit⟩ := by
  have hbuf : rs.bufferedCommitMessage = none := by
    cases hb : rs.bufferedCommitMessage with
    | none => rfl
    | some m => rcases ((hi.next rs hrs).buffered m hb).1 with h' | ⟨_, h'⟩ <;> simp [hph] at h'
  obtain ⟨⟨h₀, slots, hring⟩, -, -⟩ := hi
  obtain ⟨⟨t, bn, ring, vs⟩, blocks, queue, ws⟩ := node
  simp only at hring hrs ⊢
  subst hring
  cases slots with
  | nil => simp [RingBuffer.get] at hrs
  | cons rs' rest =>
    simp [RingBuffer.get] at hrs
    subst hrs
    obtain ⟨phase, buffered⟩ := rs'
    simp only at hbuf
    subst hbuf
    simp [Node.commitBlock, FollowerState.updateRoundState, RingBuffer.get, RingBuffer.set,
      Phase.isCommitted]

end Prellblock
