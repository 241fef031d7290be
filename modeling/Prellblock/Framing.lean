import Prellblock.Basic
import Mathlib.Algebra.Group.Nat.Basic

/-!
# Length-prefixed frames

A request or a response travels as its length, a little-endian `u32`, then its bytes
(`balise/src/client/mod.rs`, `prellblock/src/api/server.rs`). A stream's `write` may take only a
prefix of its buffer: the list `accepts` says how many bytes each call takes. The client writes
with `write_all`, so the server reads back its payloads exactly; the server writes its header
with one `write` and drops the count, so a short write breaks the client's read.
-/

namespace Prellblock
set_option autoImplicit false

/-- The `std::io::Error` kinds the framing meets. -/
inductive IoError
  | unexpectedEof
  | writeZero
deriving DecidableEq

/-- How a framing step fails: an I/O error, or a length that `try_into` cannot make a `u32`. -/
inductive FrameError
  | io (error : IoError)
  | tryFromInt
deriving DecidableEq

/-- `u32::to_le_bytes`. -/
def toLeBytes (n : Nat) : List UInt8 :=
  [n, n / 256, n / 65536, n / 16777216].map fun k => UInt8.ofNat (k % 256)

/-- `u32::from_le_bytes` of the four bytes `read_exact` filled. -/
def fromLeBytes : List UInt8 → Nat
  | [b₀, b₁, b₂, b₃] => b₀.toNat + 256 * b₁.toNat + 65536 * b₂.toNat + 16777216 * b₃.toNat
  | _ => 0

/-- The bytes of one frame of `data`. -/
def frame (data : List UInt8) : List UInt8 := toLeBytes data.length ++ data

/-- `Read::read_exact` of `n` bytes from what is left of a stream. -/
def readExact (n : Nat) (input : List UInt8) : Except IoError (List UInt8 × List UInt8) :=
  if n ≤ input.length then .ok (input.take n, input.drop n) else .error .unexpectedEof

/-- `Write::write`: the stream takes the prefix of its choice; the rest of the choices are left. -/
def writeOnce : List Nat → List UInt8 → List UInt8 × List Nat
  | [], buf => (buf, [])
  | k :: ks, buf => (buf.take k, ks)

/-- `Write::write_all`; a call that takes nothing of a nonempty buffer is `WriteZero`. -/
def writeAll : List Nat → List UInt8 → Except IoError (List UInt8 × List Nat)
  | accepts, [] => .ok ([], accepts)
  | [], buf => .ok (buf, [])
  | k :: ks, buf =>
    if k = 0 then .error .writeZero else
    match writeAll ks (buf.drop k) with
    | .ok (w, accepts) => .ok (buf.take k ++ w, accepts)
    | .error e => .error e

/-- Lines 76-79 of `send_request`: the `u32` length, then the payload, each by `write_all`. -/
def writeFrame (accepts : List Nat) (data : List UInt8) :
    Except FrameError (List UInt8 × List Nat) :=
  if data.length < 2 ^ 32 then do
    let (w₁, accepts) ← (writeAll accepts (toLeBytes data.length)).mapError .io
    let (w₂, accepts) ← (writeAll accepts data).mapError .io
    pure (w₁ ++ w₂, accepts)
  else .error .tryFromInt

/-- Lines 81-86 of `send_request`: the response's length, then that many bytes. -/
def readFrame (input : List UInt8) : Except FrameError (List UInt8 × List UInt8) := do
  let (lenBuf, input) ← (readExact 4 input).mapError .io
  (readExact (fromLeBytes lenBuf) input).mapError .io

/-- `send_request`: the bytes it writes for `data`, and the response it reads from `input`. -/
def sendRequest (accepts : List Nat) (data : List UInt8) (input : List UInt8) :
    Except FrameError (List UInt8 × List UInt8) := do
  let (w, _) ← writeFrame accepts data
  let (res, _) ← readFrame input
  pure (w, res)

/-- Successive `Client::send_request`s on one pooled stream; the first error ends them. -/
def sendRequests : List Nat → List (List UInt8) → List UInt8 →
    Except FrameError (List UInt8 × List (List UInt8))
  | _, [], _ => .ok ([], [])
  | accepts, data :: rest, input => do
    let (w, accepts) ← writeFrame accepts data
    let (response, input) ← readFrame input
    let (ws, responses) ← sendRequests accepts rest input
    pure (w ++ ws, response :: responses)

/-- The bytes successive `send_request`s write on one pooled stream. -/
def writeFrames : List Nat → List (List UInt8) → Except FrameError (List UInt8 × List Nat)
  | accepts, [] => .ok ([], accepts)
  | accepts, data :: rest => do
    let (w, accepts) ← writeFrame accepts data
    let (ws, accepts) ← writeFrames accepts rest
    pure (w ++ ws, accepts)

/-- What the server's loop did: requests read, bytes written, how it ended (`none`: running). -/
structure Served where
  requests : List (List UInt8)
  written : List UInt8
  result : Option (Except FrameError Unit)

/-- `Server::handle_client` for `fuel` rounds; `handle` is `handle_request`, then `to_vec`. -/
def handleClient (handle : List UInt8 → List UInt8) : Nat → List Nat → List UInt8 → Served
  | 0, _, _ => ⟨[], [], none⟩
  | fuel + 1, accepts, input =>
    match readExact 4 input with
    | .error e => if e = .unexpectedEof then ⟨[], [], some (.ok ())⟩
      else ⟨[], [], some (.error (.io e))⟩
    | .ok (lenBuf, input) =>
      match readExact (fromLeBytes lenBuf) input with
      | .error e => ⟨[], [], some (.error (.io e))⟩
      | .ok (buf, input) =>
        let data := handle buf
        if data.length < 2 ^ 32 then
          let (w₁, accepts) := writeOnce accepts (toLeBytes data.length)
          match writeAll accepts data with
          | .error e => ⟨[buf], w₁, some (.error (.io e))⟩
          | .ok (w₂, accepts) =>
            let rest := handleClient handle fuel accepts input
            ⟨buf :: rest.requests, w₁ ++ w₂ ++ rest.written, rest.result⟩
        else ⟨[buf], [], some (.error .tryFromInt)⟩

theorem toNat_ofNat_mod (k : Nat) : (UInt8.ofNat (k % 256)).toNat = k % 256 :=
  UInt8.toNat_ofNat_of_lt (Nat.mod_lt _ (by decide))

@[simp] theorem toLeBytes_length (n : Nat) : (toLeBytes n).length = 4 := rfl

theorem fromLeBytes_toLeBytes {n : Nat} (h : n < 2 ^ 32) : fromLeBytes (toLeBytes n) = n := by
  simp only [toLeBytes, List.map, fromLeBytes, toNat_ofNat_mod]
  omega

theorem readExact_append (l rest : List UInt8) : readExact l.length (l ++ rest) = .ok (l, rest) := by
  simp [readExact]

theorem readFrame_frame {data : List UInt8} (h : data.length < 2 ^ 32) (rest : List UInt8) :
    readFrame (frame data ++ rest) = .ok (data, rest) := by
  have h₁ := readExact_append (toLeBytes data.length) (data ++ rest)
  simp only [toLeBytes_length] at h₁
  simp [readFrame, frame, h₁, fromLeBytes_toLeBytes h, readExact_append, Except.mapError, bind, Except.bind]

theorem writeAll_of_pos : ∀ {accepts : List Nat}, (∀ k ∈ accepts, 0 < k) → ∀ buf : List UInt8,
    ∃ r, (∀ k ∈ r, 0 < k) ∧ writeAll accepts buf = .ok (buf, r)
  | accepts, h, [] => ⟨accepts, h, by cases accepts <;> rfl⟩
  | [], _, _ :: _ => ⟨[], fun _ h => absurd h (List.not_mem_nil _), rfl⟩
  | k :: ks, h, b :: bs => by
    obtain ⟨r, hr, heq⟩ := writeAll_of_pos (fun k' hk' => h k' (List.mem_cons_of_mem _ hk'))
      ((b :: bs).drop k)
    refine ⟨r, hr, ?_⟩
    simp only [writeAll, Nat.pos_iff_ne_zero.mp (h k (List.mem_cons_self _ _)), if_false, heq,
      List.take_append_drop]

theorem writeFrame_of_pos {accepts : List Nat} (ha : ∀ k ∈ accepts, 0 < k) {data : List UInt8}
    (hd : data.length < 2 ^ 32) :
    ∃ r, (∀ k ∈ r, 0 < k) ∧ writeFrame accepts data = .ok (frame data, r) := by
  obtain ⟨a₁, ha₁, h₁⟩ := writeAll_of_pos ha (toLeBytes data.length)
  obtain ⟨a₂, ha₂, h₂⟩ := writeAll_of_pos ha₁ data
  refine ⟨a₂, ha₂, ?_⟩
  rw [writeFrame, if_pos hd]
  simp [h₁, h₂, Except.mapError, bind, Except.bind, pure, Except.pure, frame]

theorem writeFrames_of_pos {accepts : List Nat} (ha : ∀ k ∈ accepts, 0 < k) :
    ∀ {ps : List (List UInt8)}, (∀ p ∈ ps, p.length < 2 ^ 32) →
      ∃ r, writeFrames accepts ps = .ok ((ps.map frame).flatten, r)
  | [], _ => ⟨accepts, rfl⟩
  | p :: ps, hps => by
    obtain ⟨a₁, ha₁, h₁⟩ := writeFrame_of_pos ha (hps p (List.mem_cons_self _ _))
    obtain ⟨r, h₂⟩ := writeFrames_of_pos ha₁ fun q hq => hps q (List.mem_cons_of_mem _ hq)
    exact ⟨r, by simp [writeFrames, h₁, h₂, bind, Except.bind, pure, Except.pure]⟩

/-! ## The server's loop -/

section Server
variable (handle : List UInt8 → List UInt8)

theorem writeOnce_snd (accepts : List Nat) (buf : List UInt8) :
    (writeOnce accepts buf).2 = accepts.tail := by
  cases accepts <;> rfl

theorem handleClient_nil (fuel : Nat) (accepts : List Nat) :
    (handleClient handle fuel accepts []).requests = [] ∧
      (handleClient handle fuel accepts []).written = [] ∧
      (handleClient handle fuel accepts []).result = if fuel = 0 then none else some (.ok ()) := by
  cases fuel <;> simp [handleClient, readExact]

theorem handleClient_frame {data : List UInt8} (hd : data.length < 2 ^ 32)
    (hh : (handle data).length < 2 ^ 32) {accepts : List Nat} (ha : ∀ k ∈ accepts, 0 < k)
    (fuel : Nat) (rest : List UInt8) :
    ∃ accepts', (∀ k ∈ accepts', 0 < k) ∧
      handleClient handle (fuel + 1) accepts (frame data ++ rest) =
        ⟨data :: (handleClient handle fuel accepts' rest).requests,
          (writeOnce accepts (toLeBytes (handle data).length)).1 ++ handle data ++
            (handleClient handle fuel accepts' rest).written,
          (handleClient handle fuel accepts' rest).result⟩ := by
  have h₁ := readExact_append (toLeBytes data.length) (data ++ rest)
  simp only [toLeBytes_length] at h₁
  have htail := writeOnce_snd accepts (toLeBytes (handle data).length)
  rcases hwo : writeOnce accepts (toLeBytes (handle data).length) with ⟨w₁, a₁⟩
  rw [hwo] at htail
  obtain ⟨r, hr, h₂⟩ := writeAll_of_pos (fun k hk => ha k (List.mem_of_mem_tail (htail ▸ hk)))
    (handle data)
  refine ⟨r, hr, ?_⟩
  simp only [handleClient, frame, List.append_assoc, h₁, fromLeBytes_toLeBytes hd,
    readExact_append, hh, if_true, hwo, h₂]

end Server

/-- The server reads back exactly the client's payloads, in order, and ends with `Ok`. -/
theorem client_frames_parsed_by_server (handle : List UInt8 → List UInt8)
    (hhandle : ∀ b, (handle b).length < 2 ^ 32) (clientAccepts serverAccepts : List Nat)
    (hc : ∀ k ∈ clientAccepts, 0 < k) (hs : ∀ k ∈ serverAccepts, 0 < k)
    (ps : List (List UInt8)) (hps : ∀ p ∈ ps, p.length < 2 ^ 32) (fuel : Nat)
    (hfuel : ps.length < fuel) :
    (∃ r, writeFrames clientAccepts ps = .ok ((ps.map frame).flatten, r)) ∧
      (handleClient handle fuel serverAccepts (ps.map frame).flatten).requests = ps ∧
      (handleClient handle fuel serverAccepts (ps.map frame).flatten).result = some (.ok ()) := by
  refine ⟨writeFrames_of_pos hc hps, ?_⟩
  induction ps generalizing fuel serverAccepts with
  | nil =>
    obtain ⟨hr, -, hres⟩ := handleClient_nil handle fuel serverAccepts
    exact ⟨hr, by simpa [Nat.pos_iff_ne_zero.mp hfuel] using hres⟩
  | cons p ps ih =>
    obtain ⟨f, rfl⟩ : ∃ f, fuel = f + 1 := ⟨fuel - 1, by simp at hfuel; omega⟩
    obtain ⟨a, ha, h⟩ := handleClient_frame handle (hps p (List.mem_cons_self _ _)) (hhandle p) hs f
      (ps.map frame).flatten
    obtain ⟨hreq, hres⟩ := ih a ha (fun q hq => hps q (List.mem_cons_of_mem _ hq)) f
      (by simpa using hfuel)
    simp only [List.map_cons, List.flatten_cons, h, hreq, hres, and_self]

theorem client_frames_parsed_by_server_sample :
    (∀ _ : List UInt8, ([7] : List UInt8).length < 2 ^ 32) ∧ (∀ k ∈ [1], 0 < k) ∧
      (∀ k ∈ [3], 0 < k) ∧ (∀ p ∈ [[1, 2], [3]], (p : List UInt8).length < 2 ^ 32) ∧
      [[1, 2], [3]].length < 3 ∧
      (∃ r, writeFrames [1] [[1, 2], [3]] = .ok (([[1, 2], [3]].map frame).flatten, r)) ∧
      (handleClient (fun _ => [7]) 3 [3] ([[1, 2], [3]].map frame).flatten).requests =
        [[1, 2], [3]] ∧
      (handleClient (fun _ => [7]) 3 [3] ([[1, 2], [3]].map frame).flatten).result =
        some (.ok ()) :=
  ⟨fun _ => by decide, by decide, by decide, by decide, by decide,
    client_frames_parsed_by_server (fun _ => [7]) (fun _ => by simp) [1] [3] (by decide)
      (by decide) [[1, 2], [3]] (by decide) 3 (by decide)⟩

/-- When the header `write` takes all four bytes, the client reads exactly the response. -/
theorem client_reads_response_of_whole_header (handle : List UInt8 → List UInt8)
    {data : List UInt8} (hd : data.length < 2 ^ 32) (hh : (handle data).length < 2 ^ 32)
    (k : Nat) (hk : 4 ≤ k) {accepts : List Nat} (ha : ∀ k ∈ accepts, 0 < k) (fuel : Nat) :
    readFrame (handleClient handle (fuel + 1) (k :: accepts) (frame data)).written =
      .ok (handle data, []) := by
  have hka : ∀ k' ∈ k :: accepts, 0 < k' := fun k' hk' => by
    rcases List.mem_cons.mp hk' with rfl | hk'
    · omega
    · exact ha k' hk'
  obtain ⟨a, -, h⟩ := handleClient_frame handle hd hh hka fuel []
  rw [List.append_nil] at h
  have hw : (writeOnce (k :: accepts) (toLeBytes (handle data).length)).1 =
      toLeBytes (handle data).length := List.take_of_length_le (by simpa using hk)
  rw [h, hw, (handleClient_nil handle fuel a).2.1, List.append_nil]
  simpa using readFrame_frame hh []

theorem client_reads_response_of_whole_header_sample :
    ([1, 2] : List UInt8).length < 2 ^ 32 ∧ ([1, 2] : List UInt8).length < 2 ^ 32 ∧ 4 ≤ 4 ∧
      (∀ k ∈ ([] : List Nat), 0 < k) ∧
      readFrame (handleClient (fun b => b) 1 [4] (frame [1, 2])).written = .ok ([1, 2], []) :=
  ⟨by decide, by decide, le_refl 4, by decide,
    @client_reads_response_of_whole_header (fun b => b) [1, 2] (by decide) (by decide) 4
      (le_refl 4) [] (by decide) 0⟩

/-- A header `write` (line 73) that takes two bytes makes the client misread the length. -/
theorem short_header_write_breaks_response :
    handleClient (fun _ => [123, 34, 79, 107, 34, 58, 49, 125]) 2 [2] (frame [1]) =
        ⟨[[1]], [8, 0, 123, 34, 79, 107, 34, 58, 49, 125], some (.ok ())⟩ ∧
      readFrame (frame [123, 34, 79, 107, 34, 58, 49, 125]) =
        .ok ([123, 34, 79, 107, 34, 58, 49, 125], []) ∧
      sendRequest [] [1] [8, 0, 123, 34, 79, 107, 34, 58, 49, 125] = .error (.io .unexpectedEof) :=
  ⟨rfl, rfl, rfl⟩

/-! ## A pooled connection -/

theorem writeAll_suffix : ∀ {accepts : List Nat} {buf w : List UInt8} {r : List Nat},
    writeAll accepts buf = .ok (w, r) → r.IsSuffix accepts
  | _, [], _, _, h => by
    simp only [writeAll, Except.ok.injEq, Prod.mk.injEq] at h
    exact h.2 ▸ List.suffix_refl _
  | [], _ :: _, _, _, h => by
    simp only [writeAll, Except.ok.injEq, Prod.mk.injEq] at h
    exact h.2 ▸ List.nil_suffix
  | k :: ks, b :: bs, w, r, h => by
    simp only [writeAll] at h
    split_ifs at h
    split at h
    · rename_i w' r' hw
      simp only [Except.ok.injEq, Prod.mk.injEq] at h
      exact h.2 ▸ (writeAll_suffix hw).trans (List.suffix_cons _ _)
    · cases h

theorem writeOnce_header {accepts : List Nat} (ha : ∀ k ∈ accepts, 4 ≤ k) (n : Nat) :
    (writeOnce accepts (toLeBytes n)).1 = toLeBytes n := by
  cases accepts with
  | nil => rfl
  | cons k ks => exact List.take_of_length_le (by simpa using ha k (List.mem_cons_self _ _))

section Server
variable (handle : List UInt8 → List UInt8)

theorem handleClient_frame_whole {data : List UInt8} (hd : data.length < 2 ^ 32)
    (hh : (handle data).length < 2 ^ 32) {accepts : List Nat} (ha : ∀ k ∈ accepts, 4 ≤ k)
    (fuel : Nat) (rest : List UInt8) :
    ∃ accepts', (∀ k ∈ accepts', 4 ≤ k) ∧
      handleClient handle (fuel + 1) accepts (frame data ++ rest) =
        ⟨data :: (handleClient handle fuel accepts' rest).requests,
          frame (handle data) ++ (handleClient handle fuel accepts' rest).written,
          (handleClient handle fuel accepts' rest).result⟩ := by
  have h₁ := readExact_append (toLeBytes data.length) (data ++ rest)
  simp only [toLeBytes_length] at h₁
  have htail : ∀ k ∈ accepts.tail, 0 < k := fun k hk =>
    Nat.lt_of_lt_of_le (by decide) (ha k (List.mem_of_mem_tail hk))
  obtain ⟨r, -, h₂⟩ := writeAll_of_pos htail (handle data)
  refine ⟨r, fun k hk =>
    ha k (((writeAll_suffix h₂).trans (List.tail_suffix _)).subset hk), ?_⟩
  have hwo : writeOnce accepts (toLeBytes (handle data).length) =
      (toLeBytes (handle data).length, accepts.tail) :=
    Prod.ext (writeOnce_header ha _) (writeOnce_snd _ _)
  simp only [handleClient, frame, List.append_assoc, h₁, fromLeBytes_toLeBytes hd,
    readExact_append, hh, if_true, hwo, h₂]

theorem handleClient_written_whole (hhandle : ∀ b, (handle b).length < 2 ^ 32) :
    ∀ {accepts : List Nat}, (∀ k ∈ accepts, 4 ≤ k) → ∀ (ps : List (List UInt8)),
      (∀ p ∈ ps, p.length < 2 ^ 32) → ∀ fuel, ps.length < fuel →
      (handleClient handle fuel accepts (ps.map frame).flatten).written =
        ((ps.map handle).map frame).flatten
  | accepts, _, [], _, fuel, _ => (handleClient_nil handle fuel accepts).2.1
  | _, ha, p :: ps, hps, fuel + 1, hfuel => by
    obtain ⟨a, ha', h⟩ := handleClient_frame_whole handle (hps p (List.mem_cons_self _ _))
      (hhandle p) ha fuel (ps.map frame).flatten
    simp only [List.map_cons, List.flatten_cons, h]
    rw [handleClient_written_whole hhandle ha' ps (fun q hq => hps q (List.mem_cons_of_mem _ hq))
      fuel (by simpa using hfuel)]

end Server

theorem sendRequests_frames : ∀ {accepts : List Nat}, (∀ k ∈ accepts, 0 < k) →
    ∀ (ps responses : List (List UInt8)), (∀ p ∈ ps, p.length < 2 ^ 32) →
      (∀ r ∈ responses, r.length < 2 ^ 32) → ps.length = responses.length →
      sendRequests accepts ps (responses.map frame).flatten =
        .ok ((ps.map frame).flatten, responses)
  | _, _, [], [], _, _, _ => rfl
  | _, ha, p :: ps, r :: rs, hps, hrs, hlen => by
    obtain ⟨a, ha', hw⟩ := writeFrame_of_pos ha (hps p (List.mem_cons_self _ _))
    have hrest := sendRequests_frames ha' ps rs (fun q hq => hps q (List.mem_cons_of_mem _ hq))
      (fun q hq => hrs q (List.mem_cons_of_mem _ hq)) (by simpa using hlen)
    simp only [sendRequests, List.map_cons, List.flatten_cons, hw,
      readFrame_frame (hrs r (List.mem_cons_self _ _)), hrest, bind, Except.bind, pure,
      Except.pure]

/-- On a pooled connection each `send_request` reads the response to its own request. -/
theorem pooled_requests_read_their_responses (handle : List UInt8 → List UInt8)
    (hhandle : ∀ b, (handle b).length < 2 ^ 32) (clientAccepts serverAccepts : List Nat)
    (hc : ∀ k ∈ clientAccepts, 0 < k) (hs : ∀ k ∈ serverAccepts, 4 ≤ k)
    (ps : List (List UInt8)) (hps : ∀ p ∈ ps, p.length < 2 ^ 32) (fuel : Nat)
    (hfuel : ps.length < fuel) :
    (handleClient handle fuel serverAccepts (ps.map frame).flatten).written =
        ((ps.map handle).map frame).flatten ∧
      sendRequests clientAccepts ps
          (handleClient handle fuel serverAccepts (ps.map frame).flatten).written =
        .ok ((ps.map frame).flatten, ps.map handle) := by
  have hw := handleClient_written_whole handle hhandle hs ps hps fuel hfuel
  refine ⟨hw, ?_⟩
  rw [hw]
  exact sendRequests_frames hc ps (ps.map handle) hps (by simpa using fun p _ => hhandle p)
    (List.length_map _ _).symm

theorem pooled_requests_read_their_responses_sample :
    (∀ b : List UInt8, (7 :: b.take 1).length < 2 ^ 32) ∧ (∀ k ∈ [1], 0 < k) ∧
      (∀ k ∈ [4, 5], 4 ≤ k) ∧ (∀ p ∈ [[1, 2], [3]], (p : List UInt8).length < 2 ^ 32) ∧
      [[1, 2], [3]].length < 3 ∧
      (handleClient (fun b => 7 :: b.take 1) 3 [4, 5] ([[1, 2], [3]].map frame).flatten).written =
        (([[1, 2], [3]].map fun b => 7 :: b.take 1).map frame).flatten ∧
      sendRequests [1] [[1, 2], [3]]
          (handleClient (fun b => 7 :: b.take 1) 3 [4, 5] ([[1, 2], [3]].map frame).flatten).written =
        .ok (([[1, 2], [3]].map frame).flatten, [[7, 1], [7, 3]]) :=
  have hb : ∀ b : List UInt8, (7 :: b.take 1).length < 2 ^ 32 := fun b => by
    simp only [List.length_cons, List.length_take]
    exact Nat.lt_of_le_of_lt (Nat.succ_le_succ (Nat.min_le_left _ _)) (by decide)
  ⟨hb, by decide, by decide, by decide, by decide,
    pooled_requests_read_their_responses (fun b => 7 :: b.take 1) hb [1] [4, 5] (by decide)
      (by decide) [[1, 2], [3]] (by decide) 3 (by decide)⟩

/-! ## A request stream cut short -/

section Server
variable (handle : List UInt8 → List UInt8)

theorem handleClient_frames_append (hhandle : ∀ b, (handle b).length < 2 ^ 32) :
    ∀ {accepts : List Nat}, (∀ k ∈ accepts, 0 < k) → ∀ (ps : List (List UInt8)),
      (∀ p ∈ ps, p.length < 2 ^ 32) → ∀ (fuel : Nat) (tail : List UInt8),
      ∃ accepts', (∀ k ∈ accepts', 0 < k) ∧
        (handleClient handle (fuel + ps.length) accepts ((ps.map frame).flatten ++ tail)).requests =
          ps ++ (handleClient handle fuel accepts' tail).requests ∧
        (handleClient handle (fuel + ps.length) accepts ((ps.map frame).flatten ++ tail)).result =
          (handleClient handle fuel accepts' tail).result
  | accepts, ha, [], _, fuel, tail => ⟨accepts, ha, by simp, by simp⟩
  | _, ha, p :: ps, hps, fuel, tail => by
    obtain ⟨a, ha', h⟩ := handleClient_frame handle (hps p (List.mem_cons_self _ _)) (hhandle p)
      ha (fuel + ps.length) ((ps.map frame).flatten ++ tail)
    obtain ⟨a', ha'', hreq, hres⟩ := handleClient_frames_append hhandle ha' ps
      (fun q hq => hps q (List.mem_cons_of_mem _ hq)) fuel tail
    refine ⟨a', ha'', ?_, ?_⟩ <;>
      simp only [List.map_cons, List.flatten_cons, List.append_assoc, List.length_cons,
        ← Nat.add_assoc, h, hreq, hres, List.cons_append]

theorem handleClient_short (fuel : Nat) (accepts : List Nat) {tail : List UInt8}
    (ht : tail.length < 4) :
    handleClient handle (fuel + 1) accepts tail = ⟨[], [], some (.ok ())⟩ := by
  simp [handleClient, readExact, Nat.not_le.mpr ht]

theorem handleClient_cut (fuel : Nat) (accepts : List Nat) {n : Nat} (hn : n < 2 ^ 32)
    {part : List UInt8} (hpart : part.length < n) :
    handleClient handle (fuel + 1) accepts (toLeBytes n ++ part) =
      ⟨[], [], some (.error (.io .unexpectedEof))⟩ := by
  have h₁ := readExact_append (toLeBytes n) part
  simp only [toLeBytes_length] at h₁
  simp [handleClient, h₁, fromLeBytes_toLeBytes hn, readExact, Nat.not_le.mpr hpart]

end Server

/-- A stream cut inside a header ends the loop with `Ok`, inside a payload with `UnexpectedEof`;
every whole request before the cut is served. -/
theorem truncated_request_stream (handle : List UInt8 → List UInt8)
    (hhandle : ∀ b, (handle b).length < 2 ^ 32) (accepts : List Nat) (ha : ∀ k ∈ accepts, 0 < k)
    (ps : List (List UInt8)) (hps : ∀ p ∈ ps, p.length < 2 ^ 32) (fuel : Nat)
    (hfuel : ps.length < fuel) :
    (∀ tail : List UInt8, tail.length < 4 →
      (handleClient handle fuel accepts ((ps.map frame).flatten ++ tail)).requests = ps ∧
      (handleClient handle fuel accepts ((ps.map frame).flatten ++ tail)).result =
        some (.ok ())) ∧
    (∀ (n : Nat) (part : List UInt8), n < 2 ^ 32 → part.length < n →
      (handleClient handle fuel accepts ((ps.map frame).flatten ++ (toLeBytes n ++ part))).requests =
        ps ∧
      (handleClient handle fuel accepts ((ps.map frame).flatten ++ (toLeBytes n ++ part))).result =
        some (.error (.io .unexpectedEof))) := by
  obtain ⟨f, rfl⟩ : ∃ f, fuel = f + 1 + ps.length := ⟨fuel - ps.length - 1, by omega⟩
  constructor
  · intro tail ht
    obtain ⟨a, -, hreq, hres⟩ :=
      handleClient_frames_append handle hhandle ha ps hps (f + 1) tail
    simp only [hreq, hres, handleClient_short handle f a ht, List.append_nil, and_self]
  · intro n part hn hpart
    obtain ⟨a, -, hreq, hres⟩ := handleClient_frames_append handle hhandle ha ps hps (f + 1)
      (toLeBytes n ++ part)
    simp only [hreq, hres, handleClient_cut handle f a hn hpart, List.append_nil, and_self]

theorem truncated_request_stream_sample :
    (∀ _ : List UInt8, ([7] : List UInt8).length < 2 ^ 32) ∧ (∀ k ∈ [1], 0 < k) ∧
      (∀ p ∈ [[1, 2]], (p : List UInt8).length < 2 ^ 32) ∧ [[1, 2]].length < 2 ∧
      ([5, 0] : List UInt8).length < 4 ∧ 3 < 2 ^ 32 ∧ ([9] : List UInt8).length < 3 ∧
      (handleClient (fun _ => [7]) 2 [1] (([[1, 2]].map frame).flatten ++ [5, 0])).requests =
        [[1, 2]] ∧
      (handleClient (fun _ => [7]) 2 [1] (([[1, 2]].map frame).flatten ++ [5, 0])).result =
        some (.ok ()) ∧
      (handleClient (fun _ => [7]) 2 [1] (([[1, 2]].map frame).flatten ++ (toLeBytes 3 ++ [9]))).requests =
        [[1, 2]] ∧
      (handleClient (fun _ => [7]) 2 [1]
          (([[1, 2]].map frame).flatten ++ (toLeBytes 3 ++ [9]))).result =
        some (.error (.io .unexpectedEof)) :=
  have h := truncated_request_stream (fun _ => [7])
    (fun _ => show ([7] : List UInt8).length < 2 ^ 32 by decide) [1] (by decide) [[1, 2]]
    (by decide) 2 (by decide)
  ⟨fun _ => by decide, by decide, by decide, by decide, by decide, by decide, by decide,
    (h.1 [5, 0] (by decide)).1, (h.1 [5, 0] (by decide)).2,
    (h.2 3 [9] (by decide) (by decide)).1, (h.2 3 [9] (by decide) (by decide)).2⟩

end Prellblock
