import Mathlib.Data.List.Nodup

/-!
# The data model of PRaftBFT

Blocks and bodies (`consensus/block.rs`), the consensus messages and the errors the handlers
return. Keys, hashes and signatures are opaque values compared for equality; hashing and
signature checks are parameters of a replica (`Prellblock.Env`). Leader terms and block numbers
are the `u64` counters of the source, as `Nat`: no run comes near their overflow, and arrival
times are milliseconds.
-/

namespace Prellblock
set_option autoImplicit false

/-- A peer's public key, `pinxit::PeerId`. -/
abbrev PeerId := Nat
/-- An ed25519 signature, `pinxit::Signature`. -/
abbrev Signature := Nat
/-- A client transaction, opaque to the consensus core. -/
abbrev Transaction := Nat
/-- A Blake2b-512 digest; `BlockHash::default()`, the genesis hash, is `0`. -/
abbrev BlockHash := Nat

/-- `Signed<Transaction>`: a transaction with its client's signature. -/
structure SignedTransaction where
  signer : PeerId
  payload : Transaction
  signature : Signature
deriving DecidableEq

/-- A `HashMap<PeerId, Signature>`, listed in its iteration order: its keys are distinct. -/
structure SignatureList where
  entries : List (PeerId × Signature)
  nodup : (entries.map Prod.fst).Nodup
deriving DecidableEq

namespace SignatureList

/-- `HashMap::len`. -/
def len (m : SignatureList) : Nat := m.entries.length

def empty : SignatureList := ⟨[], List.nodup_nil⟩

/-- `HashMap::insert`: the new signature replaces the peer's old one. -/
def insert (m : SignatureList) (peerId : PeerId) (signature : Signature) : SignatureList :=
  ⟨(peerId, signature) :: m.entries.filter (fun e => e.1 != peerId), by
    refine List.nodup_cons.mpr ⟨?_, m.nodup.sublist ((List.filter_sublist _).map _)⟩
    simp⟩

end SignatureList

/-- `Body`: the signed-off content of a block, hashed by `Body::hash`. -/
structure Body where
  leaderTerm : Nat
  height : Nat
  prevBlockHash : BlockHash
  transactions : List SignedTransaction
deriving DecidableEq

/-- `Block`: a body with the AckAppend signatures that committed it. -/
structure Block where
  body : Body
  signatures : SignatureList
deriving DecidableEq

/-- `ConsensusMessage`, from the spec (§6): `message.rs` is not in the sources. -/
inductive ConsensusMessage
  | prepare (leaderTerm : Nat) (blockNumber : Nat) (blockHash : BlockHash)
  | ackPrepare (leaderTerm : Nat) (blockNumber : Nat) (blockHash : BlockHash)
  | append (leaderTerm : Nat) (blockNumber : Nat) (blockHash : BlockHash)
      (ackprepareSignatures : SignatureList) (data : List SignedTransaction)
  | ackAppend (leaderTerm : Nat) (blockNumber : Nat) (blockHash : BlockHash)
  | commit (leaderTerm : Nat) (blockNumber : Nat) (blockHash : BlockHash)
      (ackappendSignatures : SignatureList)
  | ackCommit
  | viewChange (newLeaderTerm : Nat)
  | newView (leaderTerm : Nat) (viewChangeSignatures : SignatureList)
  | ackViewChange
  | ackNewView
deriving DecidableEq

/-- `Signed<ConsensusMessage>`: a message in its sender's envelope. -/
structure Signed where
  signer : PeerId
  message : ConsensusMessage
  signature : Signature
deriving DecidableEq

/-- `PhaseName`, the phase reported in a `WrongPhase` error. -/
inductive PhaseName
  | waiting
  | prepare
  | append
  | committed
deriving DecidableEq

/-- `praftbft::Error`, from the spec (§7): `error.rs` is not in the sources. -/
inductive Error
  | wrongLeader (peerId : PeerId)
  | wrongLeaderTerm
  | wrongBlockNumber (blockNumber : Nat)
  | wrongBlockHash
  | changedBlockHash
  | wrongPhase (current expected : PhaseName)
  | notEnoughSignatures
  | emptyBlock
  | invalidSignature
  | invalidPeer (peerId : PeerId)
  | permissionDenied
  | viewPhaseConflict
deriving DecidableEq

end Prellblock
