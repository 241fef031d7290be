import Prellblock.Basic

/-!
# Round states, the ring of rounds, and the follower state

Modelled from the spec (§3, §4.3, §4.5): `praftbft/state.rs` and `praftbft/ring_buffer.rs` are
not in the sources. `follower.rs` reaches the follower state only through the functions of this
module, each named as it calls them. The ring holds the slot of the last committed height
followed by the slots in flight; the committed slot is where `last_block_hash` reads the hash of
the most recently committed block, since the commit path writes no other hash field.
-/

namespace Prellblock
set_option autoImplicit false

/-- `PhaseMeta`: the leader and hash a round was opened with. -/
structure PhaseMeta where
  leader : PeerId
  blockHash : BlockHash
deriving DecidableEq

/-- `Phase`, the per-height stage of a follower. -/
inductive Phase
  | waiting
  | prepare (meta : PhaseMeta)
  | append (meta : PhaseMeta) (body : Body)
  | committed (blockHash : BlockHash)
deriving DecidableEq

/-- `matches!(phase, Phase::Committed(..))`. -/
def Phase.isCommitted : Phase → Bool
  | .committed _ => true
  | _ => false

/-- `Phase::to_phase_name`. -/
def Phase.toPhaseName : Phase → PhaseName
  | .waiting => .waiting
  | .prepare _ => .prepare
  | .append _ _ => .append
  | .committed _ => .committed

/-- `RoundState`; its default is `RoundState::default()`. -/
structure RoundState where
  phase : Phase := .waiting
  bufferedCommitMessage : Option ConsensusMessage := none
deriving DecidableEq

/-- `ViewPhaseMeta`: the ViewChange signatures collected for a term. -/
structure ViewPhaseMeta where
  messages : SignatureList
deriving DecidableEq

/-- `ViewPhase`, the per-term stage of a view change. -/
inductive ViewPhase
  | waiting
  | viewChanging (meta : ViewPhaseMeta)
  | changed
deriving DecidableEq

/-- The order in which a term's view phase may move. -/
def ViewPhase.rank : ViewPhase → Nat
  | .waiting => 0
  | .viewChanging _ => 1
  | .changed => 2

/-- `RingBuffer`: slots for the consecutive heights from `offset` on, the oldest first. -/
structure RingBuffer (α : Type) where
  offset : Nat
  items : List α
deriving DecidableEq

namespace RingBuffer
variable {α : Type}

/-- `RingBuffer::get`: the slot of height `i`, if it lies in the window. -/
def get (r : RingBuffer α) (i : Nat) : Option α :=
  if r.offset ≤ i then r.items[i - r.offset]? else none

/-- Write the slot of height `i` (a no-op outside the window). -/
def set (r : RingBuffer α) (i : Nat) (a : α) : RingBuffer α :=
  if r.offset ≤ i then { r with items := r.items.set (i - r.offset) a } else r

/-- `RingBuffer::increment`: retire the oldest slot, returning it, and open `new` at the end. -/
def increment (r : RingBuffer α) (new : α) : α × RingBuffer α :=
  match r.items with
  | [] => (new, { offset := r.offset + 1, items := [] })
  | old :: rest => (old, { offset := r.offset + 1, items := rest ++ [new] })

def map (f : α → α) (r : RingBuffer α) : RingBuffer α := { r with items := r.items.map f }

@[simp] theorem set_offset (r : RingBuffer α) (i : Nat) (a : α) : (r.set i a).offset = r.offset := by
  unfold set; split <;> rfl

@[simp] theorem map_offset (f : α → α) (r : RingBuffer α) : (r.map f).offset = r.offset := rfl

theorem get_set (r : RingBuffer α) (i j : Nat) (a : α) (hi : (r.get i).isSome) :
    (r.set i a).get j = if j = i then some a else r.get j := by
  unfold get at *
  unfold set
  split at hi
  · rename_i hoff
    simp only [hoff, if_true]
    by_cases hji : j = i
    · subst j
      simp only [le_refl, hoff, if_true]
      obtain ⟨x, hx⟩ := Option.isSome_iff_exists.mp hi
      exact List.getElem?_set_self (List.getElem?_eq_some_iff.mp hx).1
    · simp only [hji, if_false]
      split
      · rw [List.getElem?_set_ne (by omega)]
      · rfl
  · simp at hi

theorem get_set_ne (r : RingBuffer α) {i j : Nat} (a : α) (h : j ≠ i) :
    (r.set i a).get j = r.get j := by
  unfold get set
  by_cases hi : r.offset ≤ i
  · simp only [hi, if_true]
    split
    · exact List.getElem?_set_ne (by omega)
    · rfl
  · simp only [hi, if_false]

theorem get_set_self (r : RingBuffer α) {i : Nat} (a : α) (hi : (r.get i).isSome) :
    (r.set i a).get i = some a := by
  rw [get_set r i i a hi, if_pos rfl]

theorem eq_of_get_set_self (r : RingBuffer α) {i : Nat} {a x y : α} (hx : r.get i = some x)
    (h : (r.set i a).get i = some y) : y = a :=
  (Option.some.inj ((get_set_self r a (by simp [hx])).symm.trans h)).symm

/-- A second write to a slot overwrites the first. -/
theorem set_set (r : RingBuffer α) (i : Nat) (a b : α) : (r.set i a).set i b = r.set i b := by
  unfold set
  split <;> simp_all

theorem get_map (f : α → α) (r : RingBuffer α) (i : Nat) :
    (r.map f).get i = (r.get i).map f := by
  unfold get map
  split <;> simp

@[simp] theorem increment_cons (offset : Nat) (old : α) (rest : List α) (new : α) :
    (RingBuffer.mk offset (old :: rest)).increment new = (old, ⟨offset + 1, rest ++ [new]⟩) := rfl

end RingBuffer

/-- `FollowerState`: the follower's term, its committed height, the ring of rounds and the view
phases by term (a `HashMap`, newest entry first). -/
structure FollowerState where
  leaderTerm : Nat
  blockNumber : Nat
  roundStates : RingBuffer RoundState
  viewStates : List (Nat × ViewPhase)
deriving DecidableEq

namespace FollowerState

/-- `FollowerState::new`: term 0 at the genesis height 0, whose slot is committed with the
all-zero hash, and `window` empty slots after it. -/
def new (window : Nat) : FollowerState where
  leaderTerm := 0
  blockNumber := 0
  roundStates := ⟨0, { phase := .committed 0 } :: List.replicate window {}⟩
  viewStates := []

/-- `FollowerState::verify_message_meta`: the message's term is the follower's, and its height
is above the committed one. -/
def verifyMessageMeta (fs : FollowerState) (leaderTerm : Nat)
    (blockNumber : Nat) : Except Error Unit :=
  if leaderTerm ≠ fs.leaderTerm then .error .wrongLeaderTerm
  else if blockNumber ≤ fs.blockNumber then .error (.wrongBlockNumber blockNumber)
  else .ok ()

/-- `FollowerState::round_state`. -/
def roundState (fs : FollowerState) (blockNumber : Nat) : Except Error RoundState :=
  match fs.roundStates.get blockNumber with
  | some roundState => .ok roundState
  | none => .error (.wrongBlockNumber blockNumber)

/-- `FollowerState::round_state_mut` and a write through it; `none` is the `unwrap` panic. -/
def updateRoundState (fs : FollowerState) (blockNumber : Nat)
    (f : RoundState → RoundState) : Option FollowerState :=
  (fs.roundStates.get blockNumber).map fun roundState =>
    { fs with roundStates := fs.roundStates.set blockNumber (f roundState) }

/-- `FollowerState::last_block_hash`: the hash in the committed slot of the committed height. -/
def lastBlockHash (fs : FollowerState) : BlockHash :=
  match fs.roundStates.get fs.blockNumber with
  | some { phase := .committed blockHash, .. } => blockHash
  | _ => 0

/-- The view phase of a term; a term without an entry is `Waiting`. -/
def viewPhase (fs : FollowerState) (leaderTerm : Nat) : ViewPhase :=
  (fs.viewStates.lookup leaderTerm).getD .waiting

/-- Record a term's view phase. -/
def putViewPhase (fs : FollowerState) (leaderTerm : Nat) (phase : ViewPhase) :
    FollowerState :=
  { fs with viewStates := (leaderTerm, phase) :: fs.viewStates }

/-- `FollowerState::set_view_phase`: a term's view phase only moves forward. -/
def setViewPhase (fs : FollowerState) (leaderTerm : Nat) (phase : ViewPhase) :
    Except Error FollowerState :=
  if (fs.viewPhase leaderTerm).rank < phase.rank then .ok (fs.putViewPhase leaderTerm phase)
  else .error .viewPhaseConflict

/-- Install a new term, as a valid NewView does (§4.5 step 3): every round that is not committed
is reset to `Waiting`, and the term's view phase becomes `Changed`. -/
def installView (fs : FollowerState) (leaderTerm : Nat) : FollowerState where
  leaderTerm := leaderTerm
  blockNumber := fs.blockNumber
  roundStates := fs.roundStates.map fun rs => if rs.phase.isCommitted then rs else {}
  viewStates := (leaderTerm, .changed) :: fs.viewStates

theorem lastBlockHash_set (fs : FollowerState) {i : Nat} (rs : RoundState)
    (h : fs.blockNumber ≠ i) :
    { fs with roundStates := fs.roundStates.set i rs }.lastBlockHash = fs.lastBlockHash := by
  simp only [lastBlockHash, RingBuffer.get_set_ne _ _ h]

theorem lastBlockHash_installView (fs : FollowerState) (t : Nat) :
    (fs.installView t).lastBlockHash = fs.lastBlockHash := by
  simp only [lastBlockHash, installView, RingBuffer.get_map]
  rcases fs.roundStates.get fs.blockNumber with _ | ⟨phase, buffered⟩
  · rfl
  · cases phase <;> rfl

@[simp] theorem viewPhase_setRoundStates (fs : FollowerState) (r : RingBuffer RoundState)
    (t : Nat) : { fs with roundStates := r }.viewPhase t = fs.viewPhase t := rfl

@[simp] theorem viewPhase_putViewPhase (fs : FollowerState) (t t' : Nat) (p : ViewPhase) :
    (fs.putViewPhase t p).viewPhase t' = if t' = t then p else fs.viewPhase t' := by
  by_cases h : t' = t <;> simp [viewPhase, putViewPhase, List.lookup_cons, h, beq_false_of_ne]

end FollowerState

end Prellblock
