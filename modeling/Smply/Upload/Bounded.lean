import Smply.Upload.Session

namespace Smply.Upload

variable {base high high' low low' : Nat}

inductive Spent {Hash : Type} (config : UploadConfig Hash) (state : UploadState) (response : UploadResponse) :
    Step × UploadState → Prop
  | ended (step : Step) (after : UploadState) (over_ : ∀ request, step ≠ .sendChunk request) :
      Spent config state response (step, after)
  | retried (more : state.retries < config.maxChunkRetries) : Spent config state response
      (.sendChunk { off := state.inFlightOff, length := state.inFlightLen, firstPacket := state.inFlightFirstPacket },
        { state with retries := state.retries + 1 })
  | restarted (more : state.restarts < config.maxRestarts) (after : UploadState)
      (restarts : after.restarts = state.restarts + 1) (stalls : after.consecutiveNoProgress = 0)
      (retries : after.retries = 0) : Spent config state response (sendFrom config after, after)
  | adopted (first : state.inFlightFirstPacket = true) (reported : Nat)
      (inside : 0 < reported ∧ reported < config.imageSize) (progressed : Bool) : Spent config state response
      (sendFrom config { state with
          confirmedOff := reported, progressed := progressed, firstPacketPending := false
          consecutiveNoProgress := 0, retries := 0 },
        { state with
          confirmedOff := reported, progressed := progressed, firstPacketPending := false
          consecutiveNoProgress := 0, retries := 0 })
  | advanced (first : state.inFlightFirstPacket = false) (reported : Nat)
      (inside : state.confirmedOff < reported ∧ reported < config.imageSize) : Spent config state response
      (sendFrom config { state with
          confirmedOff := reported, progressed := true, firstPacketPending := false
          consecutiveNoProgress := 0, retries := 0 },
        { state with
          confirmedOff := reported, progressed := true, firstPacketPending := false
          consecutiveNoProgress := 0, retries := 0 })
  | stalled (first : state.inFlightFirstPacket = false) (success : response.failure = none) (reported : Nat)
      (offset : response.off = some reported) (inside : 0 < reported ∧ reported < config.imageSize)
      (back : reported ≤ state.confirmedOff) (within : state.consecutiveNoProgress + 1 ≤ config.maxNoProgress)
      (progressed : Bool) : Spent config state response
      (sendFrom config { state with
          confirmedOff := reported, progressed := progressed, firstPacketPending := false
          consecutiveNoProgress := state.consecutiveNoProgress + 1, retries := 0 },
        { state with
          confirmedOff := reported, progressed := progressed, firstPacketPending := false
          consecutiveNoProgress := state.consecutiveNoProgress + 1, retries := 0 })

section
variable {Hash : Type} {config : UploadConfig Hash}

theorem onResponse_spent (state : UploadState) (response : UploadResponse) :
    Spent config state response (onResponse config state response) := by
  have answer := @onResponse_answer Hash config state response
  generalize onResponse config state response = result at answer ⊢
  cases answer with
  | resent _ _ more => exact .retried more
  | suspended | failed | completed => exact .ended _ _ nofun
  | restarted _ _ _ more => exact .restarted more _ rfl rfl rfl
  | adopted _ reported _ inside first => exact .adopted first reported inside true
  | advanced _ reported _ inside later further => exact .advanced later reported ⟨further, inside.2⟩
  | stalled success reported offset inside later back within =>
    exact .stalled later success reported offset inside back within true

end

/-- A request that was sent: the session as it waits for the answer, and the answer if one came. -/
structure Sent where
  waiting : UploadState
  answer : Option UploadResponse

/-- The requests a session sends, given what it is answered, until it completes, fails or is suspended. -/
def transcript {Hash : Type} (config : UploadConfig Hash) : List UploadResponse → UploadState → Step → List Sent
  | [], state, .sendChunk request => [⟨recordSent state request, none⟩]
  | response :: rest, state, .sendChunk request =>
    let waiting := recordSent state request
    let (step, after) := onResponse config waiting response
    ⟨waiting, some response⟩ :: transcript config rest after step
  | _, _, .complete _ _ | _, _, .fail _ | _, _, .suspend _ => []

inductive Opens {Hash : Type} (config : UploadConfig Hash) : UploadState → Step → Prop
  | fresh : Opens config {} (planNext config {})
  | resumed (state : UploadState) (suspended : state.phase = .suspended) :
      Opens config (resume config state).2 (resume config state).1

/-- The server takes back part of what it confirmed, outside a first packet's answer. -/
def Sent.rewound (sent : Sent) : Bool :=
  match sent.answer with
  | none => false
  | some response =>
    match response.failure, response.off with
    | none, some reported =>
      !sent.waiting.inFlightFirstPacket && decide (0 < reported) && decide (reported < sent.waiting.confirmedOff)
    | _, _ => false

/-- The most requests a server can draw out of a session that it rewinds at most so often. -/
def requestBound (imageSize : Nat) (maxChunkRetries maxRestarts maxNoProgress : UInt32) (rewinds : Nat) : Nat :=
  (maxRestarts.toNat + 1) * (rewinds + 1) * (imageSize + 1) * (maxNoProgress.toNat + 1) * (maxChunkRetries.toNat + 1)

section
variable {Hash : Type} (config : UploadConfig Hash)

def distance (waiting : UploadState) : Nat :=
  if waiting.inFlightFirstPacket then config.imageSize else config.imageSize - waiting.confirmedOff

/-- What a waiting session has left to spend, one digit for each budget: restarts, rewinds, bytes, stalls, retries. -/
def budgetLeft (rewinds left : Nat) (waiting : UploadState) : Nat :=
  ((((config.maxRestarts.toNat - waiting.restarts.toNat) * (rewinds + 1) + left) * (config.imageSize + 1) +
    distance config waiting) * (config.maxNoProgress.toNat + 1) +
    (config.maxNoProgress.toNat - waiting.consecutiveNoProgress.toNat)) * (config.maxChunkRetries.toNat + 1) +
    (config.maxChunkRetries.toNat - waiting.retries.toNat)

end

theorem digit_lt (small : low' ≤ base) (less : high' < high) :
    high' * (base + 1) + low' < high * (base + 1) + low := by
  have step : (high' + 1) * (base + 1) ≤ high * (base + 1) := Nat.mul_le_mul_right _ less
  rw [Nat.succ_mul] at step
  omega

theorem digit_lt_of_le (le : high' ≤ high) (less : low' < low) :
    high' * (base + 1) + low' < high * (base + 1) + low := by
  have step : high' * (base + 1) ≤ high * (base + 1) := Nat.mul_le_mul_right _ le
  omega

theorem digit_le (le : high' ≤ high) (less : low' ≤ low) : high' * (base + 1) + low' ≤ high * (base + 1) + low :=
  Nat.add_le_add (Nat.mul_le_mul_right _ le) less

section
variable {Hash : Type} {config : UploadConfig Hash}

theorem distance_le (waiting : UploadState) : distance config waiting ≤ config.imageSize := by
  unfold distance
  split <;> omega

theorem distance_inside {waiting : UploadState} (first : waiting.inFlightFirstPacket = false) :
    distance config waiting = config.imageSize - waiting.confirmedOff := by
  simp [distance, first]

theorem toNat_succ {count bound : UInt32} (more : count < bound) : (count + 1).toNat = count.toNat + 1 := by
  have less := UInt32.lt_iff_toNat_lt.mp more
  have top := bound.toNat_lt
  simp only [UInt32.toNat_add, UInt32.toNat_one]
  omega

theorem Spent.less {waiting : UploadState} {response : UploadResponse} {result : Step × UploadState}
    (spent : Spent config waiting response result) (narrow : config.maxNoProgress.toNat + 1 < 2 ^ 32)
    (steady : waiting.consecutiveNoProgress ≤ config.maxNoProgress) {request : UploadRequest}
    (sends : result.1 = .sendChunk request) {rewinds left left' : Nat} (small : left ≤ rewinds)
    (few : left' + (if (Sent.mk waiting (some response)).rewound then 1 else 0) ≤ left) :
    budgetLeft config rewinds left' (recordSent result.2 request) < budgetLeft config rewinds left waiting ∧
      (recordSent result.2 request).consecutiveNoProgress ≤ config.maxNoProgress := by
  have fewer := Nat.le_trans (Nat.le_add_right ..) few
  have stalls (count : Nat) : config.maxNoProgress.toNat - count ≤ config.maxNoProgress.toNat := Nat.sub_le ..
  have retries (count : Nat) : config.maxChunkRetries.toNat - count ≤ config.maxChunkRetries.toNat := Nat.sub_le ..
  cases spent with
  | ended _ _ over_ => exact absurd sends (over_ request)
  | retried more =>
    obtain rfl := Step.sendChunk.inj sends
    refine ⟨digit_lt_of_le (digit_le (digit_le (digit_le (Nat.le_refl _) fewer) (Nat.le_refl _)) (Nat.le_refl _)) ?_,
      steady⟩
    show config.maxChunkRetries.toNat - (waiting.retries + 1).toNat < _
    have less := UInt32.lt_iff_toNat_lt.mp more
    rw [toNat_succ more]
    omega
  | restarted more after restarts fresh =>
    refine ⟨digit_lt (retries _) (digit_lt (stalls _) (digit_lt (distance_le _) (digit_lt (by omega) ?_))), ?_⟩
    · show config.maxRestarts.toNat - after.restarts.toNat < _
      have less := UInt32.lt_iff_toNat_lt.mp more
      rw [restarts, toNat_succ more]
      omega
    · show after.consecutiveNoProgress ≤ _
      rw [fresh]
      exact UInt32.zero_le
  | adopted first reported =>
    obtain rfl := Step.sendChunk.inj sends
    refine ⟨digit_lt (retries _) (digit_lt (stalls _) (digit_lt_of_le (digit_le (Nat.le_refl _) fewer) ?_)),
      UInt32.zero_le⟩
    rw [distance_inside rfl]
    show config.imageSize - reported < _
    simp only [distance, first, ↓reduceIte]
    omega
  | advanced first reported =>
    obtain rfl := Step.sendChunk.inj sends
    refine ⟨digit_lt (retries _) (digit_lt (stalls _) (digit_lt_of_le (digit_le (Nat.le_refl _) fewer) ?_)),
      UInt32.zero_le⟩
    rw [distance_inside rfl, distance_inside first]
    show config.imageSize - reported < _
    omega
  | stalled first success reported offset inside _ within =>
    obtain rfl := Step.sendChunk.inj sends
    have count : (waiting.consecutiveNoProgress + 1).toNat = waiting.consecutiveNoProgress.toNat + 1 := by
      have top := UInt32.le_iff_toNat_le.mp steady
      simp only [UInt32.toNat_add, UInt32.toNat_one]
      omega
    refine ⟨?_, within⟩
    by_cases same : reported = waiting.confirmedOff
    · -- The same offset again: only the stalls go down.
      refine digit_lt (retries _) (digit_lt_of_le (digit_le (digit_le (Nat.le_refl _) fewer) ?_) ?_)
      · rw [distance_inside rfl, distance_inside first, ← same]
        exact Nat.le_refl _
      show config.maxNoProgress.toNat - (waiting.consecutiveNoProgress + 1).toNat < _
      have top := UInt32.le_iff_toNat_le.mp within
      rw [count] at top ⊢
      omega
    · have rewound : (Sent.mk waiting (some response)).rewound = true := by
        have less : reported < waiting.confirmedOff := by omega
        simp [Sent.rewound, success, offset, first, inside.1, less]
      rw [if_pos rewound] at few
      exact digit_lt (retries _) (digit_lt (stalls _) (digit_lt (distance_le _)
        (digit_lt_of_le (Nat.le_refl _) (by omega))))

theorem transcript_bounded (narrow : config.maxNoProgress.toNat + 1 < 2 ^ 32) (rewinds : Nat)
    (responses : List UploadResponse) (state : UploadState) (request : UploadRequest) (left : Nat)
    (small : left ≤ rewinds) (steady : state.consecutiveNoProgress ≤ config.maxNoProgress)
    (few : (transcript config responses state (.sendChunk request)).countP Sent.rewound ≤ left) :
    (transcript config responses state (.sendChunk request)).length ≤
      budgetLeft config rewinds left (recordSent state request) + 1 := by
  induction responses generalizing state request left with
  | nil => simp [transcript]
  | cons response _ ih =>
    have spent := @onResponse_spent Hash config (recordSent state request) response
    simp only [transcript] at few ⊢
    generalize onResponse config (recordSent state request) response = result at spent few ⊢
    obtain ⟨step, after⟩ := result
    rw [List.countP_cons] at few
    rw [List.length_cons]
    dsimp only at few ⊢
    cases step with
    | sendChunk next =>
      have less := spent.less narrow steady rfl small few
      dsimp only at less
      have tail := ih after next _ (by omega) (by simpa [recordSent] using less.2) (Nat.le_refl _)
      omega
    | _ => simp [transcript]

theorem digit_lt_top {base high top low : Nat} (less : high < top) (small : low ≤ base) :
    high * (base + 1) + low < top * (base + 1) := by
  have below := @digit_lt base top high 0 low small less
  omega

theorem budgetLeft_lt (rewinds : Nat) (waiting : UploadState) :
    budgetLeft config rewinds rewinds waiting < requestBound config.imageSize config.maxChunkRetries config.maxRestarts
      config.maxNoProgress rewinds :=
  digit_lt_top (digit_lt_top (digit_lt_top (digit_lt_top (Nat.lt_succ_of_le (Nat.sub_le ..)) (Nat.le_refl _))
    (distance_le _)) (Nat.sub_le ..)) (Nat.sub_le ..)

/-- A session sends a bounded number of requests, if the server's rewinds are bounded and the stalls cannot wrap. -/
theorem upload_requests_bounded (responses : List UploadResponse) {state : UploadState} {step : Step}
    (opens : Opens config state step) (narrow : config.maxNoProgress.toNat + 1 < 2 ^ 32) (rewinds : Nat)
    (few : (transcript config responses state step).countP Sent.rewound ≤ rewinds) :
    (transcript config responses state step).length ≤ requestBound config.imageSize config.maxChunkRetries
      config.maxRestarts config.maxNoProgress rewinds := by
  have steady : state.consecutiveNoProgress ≤ config.maxNoProgress := by
    cases opens with
    | fresh => exact UInt32.zero_le
    | resumed _ suspended =>
      simp only [resume, suspended, ne_eq, not_true_eq_false, ↓reduceIte]
      exact UInt32.zero_le
  cases step with
  | sendChunk request =>
    have bounded := transcript_bounded narrow rewinds responses state request rewinds (Nat.le_refl _) steady few
    have top := @budgetLeft_lt Hash config rewinds (recordSent state request)
    omega
  | _ => cases responses <;> simp [transcript]

end

def confirmed (off : Nat) : UploadResponse := { off := some off }

def twoChunks : UploadConfig Unit := { imageSize := 64, chunkSize := 32 }

def backAndForth (rounds : Nat) : List UploadResponse :=
  confirmed 32 :: (List.replicate rounds [confirmed 1, confirmed 32]).flatten

def firstConfirmed (off length : Nat) (first : Bool) : UploadState :=
  { confirmedOff := 32, inFlightOff := off, inFlightLen := length, inFlightFirstPacket := first, progressed := true
    firstPacketPending := false, phase := .sending }

theorem backAndForth_round (rounds off length : Nat) (first : Bool) :
    (transcript twoChunks (List.replicate rounds [confirmed 1, confirmed 32]).flatten (firstConfirmed off length first)
      (sendFrom twoChunks (firstConfirmed off length first))).length = 2 * rounds + 1 := by
  induction rounds generalizing off length first with
  | zero => rfl
  | succ rounds ih =>
    have next := ih 1 32 false
    rw [List.replicate_succ, List.flatten_cons]
    show (transcript twoChunks (List.replicate rounds [confirmed 1, confirmed 32]).flatten (firstConfirmed 1 32 false)
      (sendFrom twoChunks (firstConfirmed 1 32 false))).length + 2 = _
    omega

theorem no_bound_on_requests :
    ¬ ∃ bound, ∀ responses, (transcript twoChunks responses {} (planNext twoChunks {})).length ≤ bound := by
  rintro ⟨bound, bounded⟩
  have short := bounded (backAndForth bound)
  have rounds := backAndForth_round bound 0 32 true
  have whole : (transcript twoChunks (backAndForth bound) {} (planNext twoChunks {})).length =
      (transcript twoChunks (List.replicate bound [confirmed 1, confirmed 32]).flatten (firstConfirmed 0 32 true)
        (sendFrom twoChunks (firstConfirmed 0 32 true))).length + 1 := rfl
  omega

theorem upload_requests_bounded_once :
    (transcript twoChunks [confirmed 32, confirmed 1, confirmed 33, confirmed 64] {} (planNext twoChunks {})).length ≤
      requestBound 64 3 2 3 1 :=
  @upload_requests_bounded Unit twoChunks _ _ _ .fresh (by decide) 1 (by decide +kernel)

end Smply.Upload
