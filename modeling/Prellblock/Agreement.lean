import Prellblock.Network

/-!
# Agreement

Two replicas that write a block at the same height in the same leader term write the same hash
(`agreement_within_term`): the two supermajorities of AckAppend signatures share an honest
signer, which acknowledged one Append for that term and height. Across a view change agreement
fails. A NewView resets every round that is not committed to `Waiting` (spec §4.5), and nothing
carries an appended block into the new term, so a Byzantine leader of the new term can have
another block committed at a height a replica has already committed (`fork_across_view_change`).
-/

namespace Prellblock
set_option autoImplicit false

/-- The peers a signature list names. -/
def SignatureList.signers (s : SignatureList) : Finset PeerId := (s.entries.map Prod.fst).toFinset

theorem SignatureList.card_signers (s : SignatureList) : s.signers.card = s.len := by
  rw [signers, List.toFinset_card_of_nodup s.nodup, List.length_map]
  rfl

theorem SignatureList.mem_signers {s : SignatureList} {p : PeerId} :
    p ∈ s.signers ↔ ∃ σ, (p, σ) ∈ s.entries := by
  simp [signers]

theorem pairwise_mem_cases {α : Type} {R : α → α → Prop} {l : List α} (h : l.Pairwise R)
    {a b : α} (ha : a ∈ l) (hb : b ∈ l) : a = b ∨ R a b ∨ R b a := by
  induction h with
  | nil => exact absurd ha (List.not_mem_nil _)
  | @cons x l hx _ ih =>
    rcases List.mem_cons.mp ha with rfl | ha' <;> rcases List.mem_cons.mp hb with rfl | hb'
    · exact .inl rfl
    · exact .inr (.inl (hx b hb'))
    · exact .inr (.inr (hx a ha'))
    · exact ih ha' hb'

namespace Network
variable {net : Network} {w : List Delivery}

/-- Two valid supermajorities of signatures share an honest signer. -/
theorem exists_honest_signer {m₁ m₂ : ConsensusMessage} {s₁ s₂ : SignatureList}
    (h₁ : SignaturesValid net.env m₁ s₁) (h₂ : SignaturesValid net.env m₂ s₂) :
    ∃ p ∈ s₁.signers ∩ s₂.signers, p ∉ net.byzantine := by
  have hsub : ∀ {m s}, SignaturesValid net.env m s → s.signers ⊆ net.env.peers.toFinset :=
    fun hv p hp => by
      obtain ⟨σ, he⟩ := SignatureList.mem_signers.mp hp
      exact List.mem_toFinset.mpr (net.rpu_roster p (hv.2 _ he).2)
  obtain ⟨hn, hq₁⟩ := Env.supermajorityReached_true h₁.1
  have hq₂ := (Env.supermajorityReached_true h₂.1).2
  have hinter := card_inter_of_supermajority hn (List.toFinset_card_of_nodup net.env.nodup)
    (hsub h₁) (hsub h₂) (by rwa [SignatureList.card_signers]) (by rwa [SignatureList.card_signers])
  exact exists_honest_of_card_lt (by have := net.byzantine_card; omega)

/-- An honest peer signs an AckAppend only by acknowledging an Append. -/
theorem signs_ackAppend {p : PeerId} (hp : p ∉ net.byzantine) {t n : Nat} {h : BlockHash}
    (hs : net.signs w p (.ackAppend t n h) = true) :
    ∃ ev ∈ net.runOf w p, ev.out.reply = .ok (.ackAppend t n h) := by
  simp only [signs, hp, decide_False, Bool.false_or, List.any_eq_true] at hs
  obtain ⟨ev, hev, hs⟩ := hs
  refine ⟨ev, hev, reply_of_signed_ackAppend ?_ hs⟩
  rw [(mem_run hev).1]
  exact viewBroadcasts_step _ _ _

/-- A replica acknowledges at most one Append per term and height. -/
theorem ackAppend_unique {p : PeerId} {ev₁ ev₂ : Event} (h₁ : ev₁ ∈ net.runOf w p)
    (h₂ : ev₂ ∈ net.runOf w p) {t n : Nat} {H₁ H₂ : BlockHash}
    (hr₁ : ev₁.out.reply = .ok (.ackAppend t n H₁)) (hr₂ : ev₂.out.reply = .ok (.ackAppend t n H₂)) :
    H₁ = H₂ := by
  have hpair : (net.runOf w p).Pairwise fun ev₁ ev₂ => Consistent ev₁.out.reply ev₂.out.reply :=
    (run_consistent (Inv.new _ _) [] (fun _ h => (List.not_mem_nil _ h).elim) _).2
  rcases pairwise_mem_cases hpair h₁ h₂ with rfl | hc | hc
  · simpa using hr₁.symm.trans hr₂
  · exact absurd hr₂ (hc.append t n H₁ H₂ hr₁)
  · exact absurd hr₁ (hc.append t n H₂ H₁ hr₂)

end Network

/-- Agreement within a term: two replicas of a reachable history that each write a block at the
same height while in the same leader term write blocks of the same hash. -/
theorem agreement_within_term (net : Network) {w : List Delivery} (hw : net.Reachable w)
    {i j : PeerId} {evi evj : Event} (hi : evi ∈ net.runOf w i) (hj : evj ∈ net.runOf w j)
    {bi bj : Block} (hbi : evi.out.node.blocks = evi.pre.blocks ++ [bi])
    (hbj : evj.out.node.blocks = evj.pre.blocks ++ [bj])
    (hterm : evi.pre.followerState.leaderTerm = evj.pre.followerState.leaderTerm)
    (hheight : bi.body.height = bj.body.height) :
    net.env.hash bi.body = net.env.hash bj.body := by
  obtain ⟨hvi, hsi⟩ := hw.commit_signed hi hbi
  obtain ⟨hvj, hsj⟩ := hw.commit_signed hj hbj
  obtain ⟨p, hp, honest⟩ := Network.exists_honest_signer hvi hvj
  have signed : ∀ {s : SignatureList} {m : ConsensusMessage}, net.signsAll w s m = true →
      p ∈ s.signers → net.signs w p m = true := fun hs hps => by
    obtain ⟨σ, he⟩ := SignatureList.mem_signers.mp hps
    exact List.all_eq_true.mp hs _ he
  obtain ⟨ev₁, h₁, hr₁⟩ := Network.signs_ackAppend honest (signed hsi (Finset.mem_inter.mp hp).1)
  obtain ⟨ev₂, h₂, hr₂⟩ := Network.signs_ackAppend honest (signed hsj (Finset.mem_inter.mp hp).2)
  rw [hterm, hheight] at hr₁
  exact Network.ackAppend_unique h₁ h₂ hr₁ hr₂

/-! ## Seven peers, two of them Byzantine -/

/-- Seven RPUs, `1` to `7`, under the toy hash of `Env.sample`. Every signature verifies: which
statements a peer signed is the network's to say (`Network.authentic`). -/
def Env.seven : Env where
  peers := [1, 2, 3, 4, 5, 6, 7]
  sorted := by decide
  identity := 1
  hash body := body.leaderTerm * 1000 + body.height * 100 + body.transactions.length +
    body.prevBlockHash
  verify _ _ _ := true
  verifyTransaction _ := true
  verifyIsRpu p := [1, 2, 3, 4, 5, 6, 7].contains p
  verifyPermission _ _ := true

/-- `Env.seven` with as many Byzantine peers as it tolerates, `1` and `2`: the leaders of terms 0
and 1. -/
def Network.seven : Network where
  env := Env.seven
  window := 2
  byzantine := {1, 2}
  byzantine_card := by decide
  rpu_roster p h := by simpa [Env.seven] using h

/-- The Byzantine peers with `3`, `4` and `5`. -/
def quorum₀ : SignatureList := ⟨[(1, 0), (2, 0), (3, 0), (4, 0), (5, 0)], by decide⟩

/-- The Byzantine peers with `4`, `5` and `6`. -/
def quorum₁ : SignatureList := ⟨[(1, 0), (2, 0), (4, 0), (5, 0), (6, 0)], by decide⟩

/-- Term 0 of `Network.seven`: its leader `1` has the block of hash 101 at height 1 prepared and
appended by `3`, `4` and `5`. -/
def termZeroRound : List Delivery :=
  [⟨3, .message ⟨1, .prepare 0 1 101, 0⟩⟩, ⟨4, .message ⟨1, .prepare 0 1 101, 0⟩⟩,
    ⟨5, .message ⟨1, .prepare 0 1 101, 0⟩⟩,
    ⟨3, .message ⟨1, .append 0 1 101 quorum₀ [⟨9, 5, 0⟩], 0⟩⟩,
    ⟨4, .message ⟨1, .append 0 1 101 quorum₀ [⟨9, 5, 0⟩], 0⟩⟩,
    ⟨5, .message ⟨1, .append 0 1 101 quorum₀ [⟨9, 5, 0⟩], 0⟩⟩]

theorem agreement_within_term_sample :
    let w := termZeroRound ++ [⟨3, .message ⟨1, .commit 0 1 101 quorum₀, 0⟩⟩,
      ⟨4, .message ⟨1, .commit 0 1 101 quorum₀, 0⟩⟩]
    let ev₃ := (Network.seven.runOf w 3).get ⟨2, by decide⟩
    let ev₄ := (Network.seven.runOf w 4).get ⟨2, by decide⟩
    let b : Block := ⟨⟨0, 1, 0, [⟨9, 5, 0⟩]⟩, quorum₀⟩
    Network.seven.Reachable w ∧ ev₃.out.node.blocks = ev₃.pre.blocks ++ [b] ∧
      ev₄.out.node.blocks = ev₄.pre.blocks ++ [b] ∧
      ev₃.pre.followerState.leaderTerm = ev₄.pre.followerState.leaderTerm ∧
      Network.seven.env.hash b.body = Network.seven.env.hash b.body := by
  intro w ev₃ ev₄ b
  have hw : Network.seven.Reachable w := List.nil_append w ▸ Network.Reachable.nil.append (by decide)
  have h₃ : ev₃.out.node.blocks = ev₃.pre.blocks ++ [b] := by decide
  have h₄ : ev₄.out.node.blocks = ev₄.pre.blocks ++ [b] := by decide
  have ht : ev₃.pre.followerState.leaderTerm = ev₄.pre.followerState.leaderTerm := by decide
  exact ⟨hw, h₃, h₄, ht, agreement_within_term Network.seven hw (List.get_mem _ _ _)
    (List.get_mem _ _ _) h₃ h₄ ht rfl⟩

/-- Every proposal of the history is sent by a Byzantine peer: the honest replicas only follow. -/
def Network.proposedByByzantine (net : Network) (w : List Delivery) : Bool :=
  w.all fun d => match d.input with
    | .message msg => !msg.message.isProposal || decide (msg.signer ∈ net.byzantine)
    | _ => true

/-- A fork across a view change: after term 0's round only `3` commits; `4`, `5` and `6` move to
term 1, whose leader `2` has them commit another block at height 1. -/
def forkHistory : List Delivery :=
  termZeroRound ++ [⟨3, .message ⟨1, .commit 0 1 101 quorum₀, 0⟩⟩] ++
  [⟨4, .takeTransactions 0 [⟨9, 5, 0⟩]⟩, ⟨4, .censorshipTimeout 20000⟩,
    ⟨5, .takeTransactions 0 [⟨9, 5, 0⟩]⟩, ⟨5, .censorshipTimeout 20000⟩,
    ⟨6, .takeTransactions 0 [⟨9, 5, 0⟩]⟩, ⟨6, .censorshipTimeout 20000⟩,
    ⟨4, .message ⟨2, .newView 1 quorum₁, 0⟩⟩, ⟨5, .message ⟨2, .newView 1 quorum₁, 0⟩⟩,
    ⟨6, .message ⟨2, .newView 1 quorum₁, 0⟩⟩,
    ⟨4, .message ⟨2, .prepare 1 1 1102, 0⟩⟩, ⟨5, .message ⟨2, .prepare 1 1 1102, 0⟩⟩,
    ⟨6, .message ⟨2, .prepare 1 1 1102, 0⟩⟩,
    ⟨4, .message ⟨2, .append 1 1 1102 quorum₁ [⟨9, 5, 0⟩, ⟨9, 6, 0⟩], 0⟩⟩,
    ⟨5, .message ⟨2, .append 1 1 1102 quorum₁ [⟨9, 5, 0⟩, ⟨9, 6, 0⟩], 0⟩⟩,
    ⟨6, .message ⟨2, .append 1 1 1102 quorum₁ [⟨9, 5, 0⟩, ⟨9, 6, 0⟩], 0⟩⟩,
    ⟨4, .message ⟨2, .commit 1 1 1102 quorum₁, 0⟩⟩]

/-- With two Byzantine peers of seven, which lead terms 0 and 1 and alone propose, the honest
replicas `3` and `4` write blocks of different hashes and different transactions at height 1. -/
theorem fork_across_view_change :
    Network.seven.Reachable forkHistory ∧ Network.seven.proposedByByzantine forkHistory = true ∧
      3 ∉ Network.seven.byzantine ∧ 4 ∉ Network.seven.byzantine ∧
      ∃ b₃ ∈ (Network.seven.nodeOf forkHistory 3).blocks,
        ∃ b₄ ∈ (Network.seven.nodeOf forkHistory 4).blocks,
          b₃.body.height = b₄.body.height ∧ b₃.body.transactions ≠ b₄.body.transactions ∧
            Network.seven.env.hash b₃.body ≠ Network.seven.env.hash b₄.body :=
  ⟨List.nil_append forkHistory ▸ Network.Reachable.nil.append (by decide), by decide, by decide,
    by decide, by decide⟩

end Prellblock
