import Prellblock.Basic
import Mathlib.Data.Finset.Card

/-!
# A replica's configuration and the quorum arithmetic

`Env` is what one replica is started with: the static roster, its own identity, and the
external collaborators it calls (hashing, signature and permission checks). The supermajority
predicate is `PRaftBFT::supermajority_reached` (`praftbft/mod.rs`); its two quorum facts,
intersection in an honest peer and reachability by the honest peers alone, are proved here.
-/

namespace Prellblock
set_option autoImplicit false

/-- A replica's static configuration: the roster in `peer_ids()` order, its identity, and the
collaborators it calls. -/
structure Env where
  peers : List PeerId
  sorted : peers.Pairwise (· < ·)
  identity : PeerId
  hash : Body → BlockHash
  verify : PeerId → ConsensusMessage → Signature → Bool
  verifyTransaction : SignedTransaction → Bool
  verifyIsRpu : PeerId → Bool
  verifyPermission : PeerId → Transaction → Bool

/-- The threshold `len * 2 / 3 + 1` of `supermajority_reached`. -/
def supermajority (len : Nat) : Nat := len * 2 / 3 + 1

/-- The number of Byzantine peers a roster of `n` tolerates. -/
def faultBound (n : Nat) : Nat := (n - 1) / 3

namespace Env

/-- `PRaftBFT::supermajority_reached`; `none` is its panic for fewer than four peers. -/
def supermajorityReached (env : Env) (number : Nat) : Option Bool :=
  if env.peers.length < 4 then none else some (decide (number ≥ supermajority env.peers.length))

/-- `PRaftBFT::leader`. Modelled from the spec (§4.1): the function is not in the sources; the
leader of term `t` is `peers_sorted[t mod n]`. -/
def leader (env : Env) (leaderTerm : Nat) : PeerId :=
  env.peers.getD (leaderTerm % env.peers.length) 0

/-- `PRaftBFT::is_current_leader`. Modelled from the spec (§4.3): the sender must be the leader
of the term the message names. -/
def isCurrentLeader (env : Env) (leaderTerm : Nat) (peerId : PeerId) : Bool :=
  peerId == env.leader leaderTerm

theorem nodup (env : Env) : env.peers.Nodup :=
  env.sorted.imp fun h => Nat.ne_of_lt h

theorem supermajorityReached_eq_some {env : Env} {number : Nat} {b : Bool}
    (h : env.supermajorityReached number = some b) :
    4 ≤ env.peers.length ∧ b = decide (number ≥ supermajority env.peers.length) := by
  unfold supermajorityReached at h
  split at h
  · cases h
  · exact ⟨by omega, (Option.some.inj h).symm⟩

theorem supermajorityReached_true {env : Env} {number : Nat}
    (h : env.supermajorityReached number = some true) :
    4 ≤ env.peers.length ∧ supermajority env.peers.length ≤ number := by
  obtain ⟨hn, hb⟩ := supermajorityReached_eq_some h
  exact ⟨hn, by simpa using hb.symm⟩

theorem supermajorityReached_of_le {env : Env} {number : Nat} (hn : 4 ≤ env.peers.length)
    (h : supermajority env.peers.length ≤ number) :
    env.supermajorityReached number = some true := by
  simp [supermajorityReached, h, Nat.not_lt.mpr hn]

theorem isCurrentLeader_iff {env : Env} {t : Nat} {p : PeerId} :
    env.isCurrentLeader t p = true ↔ p = env.leader t := by
  simp [isCurrentLeader]

/-- A roster of four RPUs, `1` to `4`, seen from replica `1`, with a toy hash and signatures
that always verify; only roster peers pass the RPU check. The witnesses run on this replica. -/
def sample : Env where
  peers := [1, 2, 3, 4]
  sorted := by decide
  identity := 1
  hash body := body.leaderTerm * 1000 + body.height * 100 + body.transactions.length +
    body.prevBlockHash
  verify _ _ _ := true
  verifyTransaction _ := true
  verifyIsRpu p := [1, 2, 3, 4].contains p
  verifyPermission _ _ := true

end Env

/-- Signatures of peers `1` to `3`, a supermajority of `Env.sample`. -/
def SignatureList.sample : SignatureList := ⟨[(1, 0), (2, 0), (3, 0)], by decide⟩

/-- Two supermajorities of `n ≥ 4` exceed `n` by more than the fault bound, and the honest
peers alone make a supermajority. -/
theorem supermajority_bounds {n : Nat} (hn : 4 ≤ n) :
    n + faultBound n + 1 ≤ 2 * supermajority n ∧ supermajority n ≤ n - faultBound n := by
  unfold supermajority faultBound
  omega

/-- Two sets of roster peers of supermajority size share more peers than the fault bound. -/
theorem card_inter_of_supermajority {n : Nat} (hn : 4 ≤ n) {roster A B : Finset PeerId}
    (hr : roster.card = n) (hA : A ⊆ roster) (hB : B ⊆ roster)
    (hqA : supermajority n ≤ A.card) (hqB : supermajority n ≤ B.card) :
    faultBound n + 1 ≤ (A ∩ B).card := by
  have hunion : (A ∪ B).card ≤ n := hr ▸ Finset.card_le_card (Finset.union_subset hA hB)
  have := Finset.card_union_add_card_inter A B
  have := (supermajority_bounds hn).1
  omega

/-- A set larger than the Byzantine set has an honest member. -/
theorem exists_honest_of_card_lt {S byzantine : Finset PeerId} (h : byzantine.card < S.card) :
    ∃ p ∈ S, p ∉ byzantine := by
  by_contra hall
  push_neg at hall
  exact absurd (Finset.card_le_card hall) (Nat.not_le.mpr h)

/-- Two supermajorities share an honest peer under the fault bound, and the honest peers alone
reach one. -/
theorem supermajority_quorums_intersect (env : Env) (hn : 4 ≤ env.peers.length)
    {A B : Finset PeerId} (hA : A ⊆ env.peers.toFinset) (hB : B ⊆ env.peers.toFinset)
    (hqA : env.supermajorityReached A.card = some true)
    (hqB : env.supermajorityReached B.card = some true) :
    faultBound env.peers.length + 1 ≤ (A ∩ B).card ∧
      (∀ byzantine : Finset PeerId, byzantine.card ≤ faultBound env.peers.length →
        ∃ p ∈ A ∩ B, p ∉ byzantine) ∧
      env.supermajorityReached (env.peers.length - faultBound env.peers.length) = some true := by
  have hr : env.peers.toFinset.card = env.peers.length := List.toFinset_card_of_nodup env.nodup
  have hinter := card_inter_of_supermajority hn hr hA hB
    (Env.supermajorityReached_true hqA).2 (Env.supermajorityReached_true hqB).2
  refine ⟨hinter, fun byzantine hbyz => exists_honest_of_card_lt (by omega), ?_⟩
  exact Env.supermajorityReached_of_le hn (supermajority_bounds hn).2

theorem supermajority_quorums_intersect_sample :
    faultBound Env.sample.peers.length + 1 ≤ (({1, 2, 3} : Finset PeerId) ∩ {2, 3, 4}).card ∧
      (∀ byzantine : Finset PeerId, byzantine.card ≤ faultBound Env.sample.peers.length →
        ∃ p ∈ ({1, 2, 3} : Finset PeerId) ∩ {2, 3, 4}, p ∉ byzantine) ∧
      Env.sample.supermajorityReached
        (Env.sample.peers.length - faultBound Env.sample.peers.length) = some true :=
  supermajority_quorums_intersect Env.sample (by decide) (by decide) (by decide) (by decide)
    (by decide)

end Prellblock
