import Smply.Core.Error

namespace Smply.Upload

/-- Offsets and lengths are plain numbers: an image has at most 16 MiB. Counters keep their width. -/
structure UploadConfig (Hash : Type) where
  imageSize : Nat
  chunkSize : Nat
  image : Nat := 0
  sha : Option Hash := none
  upgradeOnly : Bool := false
  maxChunkRetries : UInt32 := 3
  maxRestarts : UInt32 := 2
  maxNoProgress : UInt32 := 3

inductive Phase where
  | idle
  | sending
  | done
  | failed
  | suspended
  deriving DecidableEq, Repr

structure UploadState where
  confirmedOff : Nat := 0
  inFlightOff : Nat := 0
  inFlightLen : Nat := 0
  inFlightFirstPacket : Bool := false
  consecutiveNoProgress : UInt32 := 0
  restarts : UInt32 := 0
  retries : UInt32 := 0
  progressed : Bool := false
  firstPacketPending : Bool := true
  phase : Phase := .idle
  deriving DecidableEq, Repr

structure UploadRequest where
  off : Nat := 0
  length : Nat := 0
  firstPacket : Bool := false
  deriving DecidableEq, Repr

structure UploadResponse where
  off : Option Nat := none
  match_ : Option Bool := none
  failure : Option Error := none
  deriving DecidableEq, Repr

inductive Step where
  | sendChunk (request : UploadRequest)
  | complete (match_ : Option Bool) (completedOnFirstPacket : Bool)
  | fail (error : Error)
  | suspend (error : Error)
  deriving DecidableEq, Repr

section
variable {Hash : Type} (config : UploadConfig Hash) (state : UploadState)

def failWith (error : Error) : Step × UploadState :=
  (.fail error, { state with phase := .failed })

def refuse (why : String) : Step := .fail (.at .invalidState why)

def sendFrom : Step :=
  let off := if state.firstPacketPending then 0 else state.confirmedOff
  let remaining := config.imageSize - off
  let length := if remaining < config.chunkSize then remaining else config.chunkSize
  .sendChunk { off := off, length := length, firstPacket := state.firstPacketPending }

def isTransient (error : Error) : Bool :=
  if error.code = .timeout then
    true
  else if error.code ≠ .protocolError then
    false
  else
    smpError error = some SmpError.busy || smpError error = some SmpError.noMemory

def planNext : Step :=
  if state.phase = .failed then
    refuse "upload: session already failed"
  else if state.phase = .suspended then
    refuse "upload: session suspended"
  else if state.confirmedOff ≥ config.imageSize then
    .complete none false
  else
    sendFrom config state

def resume : Step × UploadState :=
  if state.phase ≠ .suspended then
    (refuse "upload: no suspended session", state)
  else
    let state := { state with firstPacketPending := true, phase := .idle, retries := 0, consecutiveNoProgress := 0 }
    (planNext config state, state)

def recordSent (request : UploadRequest) : UploadState :=
  { state with
    inFlightOff := request.off
    inFlightLen := request.length
    inFlightFirstPacket := request.firstPacket
    phase := .sending }

def onFailure (failure : Error) : Step × UploadState :=
  if isTransient failure && state.retries < config.maxChunkRetries then
    (.sendChunk { off := state.inFlightOff, length := state.inFlightLen, firstPacket := state.inFlightFirstPacket },
      { state with retries := state.retries + 1 })
  else if failure.code = .disconnected then
    (.suspend failure, { state with phase := .suspended })
  else
    failWith state failure

def onOffset (reported : Nat) (match_ : Option Bool) : Step × UploadState :=
  if reported > config.imageSize then
    failWith state (.at .malformedMessage "upload: offset beyond the image")
  else if reported = config.imageSize then
    if match_ = some false then
      failWith state (.at .imageMismatch "upload: device hash does not match the file")
    else
      (.complete match_ (state.inFlightFirstPacket && !state.progressed),
        { state with confirmedOff := reported, phase := .done })
  else if reported = 0 then
    if state.restarts ≥ config.maxRestarts then
      failWith state (.at .updateFailed "upload: too many restarts")
    else
      let state :=
        { state with
          restarts := state.restarts + 1, confirmedOff := 0, firstPacketPending := true
          consecutiveNoProgress := 0, retries := 0 }
      (sendFrom config state, state)
  else if state.inFlightFirstPacket then
    let state :=
      { state with
        confirmedOff := reported, progressed := state.progressed || reported > 0, firstPacketPending := false
        consecutiveNoProgress := 0, retries := 0 }
    (sendFrom config state, state)
  else if reported > state.confirmedOff then
    let state :=
      { state with
        confirmedOff := reported, progressed := true, firstPacketPending := false
        consecutiveNoProgress := 0, retries := 0 }
    (sendFrom config state, state)
  else
    let state := { state with consecutiveNoProgress := state.consecutiveNoProgress + 1 }
    if state.consecutiveNoProgress > config.maxNoProgress then
      failWith state (.at .updateFailed "upload: server stopped advancing")
    else
      let state :=
        { state with
          confirmedOff := reported, progressed := state.progressed || reported > 0, firstPacketPending := false
          retries := 0 }
      (sendFrom config state, state)

def onResponse (response : UploadResponse) : Step × UploadState :=
  match response.failure with
  | some failure => onFailure config state failure
  | none =>
    match response.off with
    | none => failWith state (.at .malformedMessage "upload: response has no offset")
    | some reported => onOffset config state reported response.match_

def UploadState.moved (reported : Nat) (stalls : UInt32) : UploadState :=
  { state with
    confirmedOff := reported, progressed := true, firstPacketPending := false, consecutiveNoProgress := stalls
    retries := 0 }

def UploadState.restarted : UploadState :=
  { state with
    restarts := state.restarts + 1, confirmedOff := 0, firstPacketPending := true, consecutiveNoProgress := 0
    retries := 0 }

inductive Answer (state : UploadState) (response : UploadResponse) : Step × UploadState → Prop
  | resent (error : Error) (failure : response.failure = some error) (more : state.retries < config.maxChunkRetries) :
      Answer state response
        (.sendChunk { off := state.inFlightOff, length := state.inFlightLen, firstPacket := state.inFlightFirstPacket },
          { state with retries := state.retries + 1 })
  | suspended (error : Error) (failure : response.failure = some error) :
      Answer state response (.suspend error, { state with phase := .suspended })
  | failed (error : Error) (stalls : UInt32) :
      Answer state response (.fail error, { state with phase := .failed, consecutiveNoProgress := stalls })
  | completed (success : response.failure = none) (whole : response.off = some config.imageSize) :
      Answer state response (.complete response.match_ (state.inFlightFirstPacket && !state.progressed),
        { state with confirmedOff := config.imageSize, phase := .done })
  | restarted (success : response.failure = none) (zero : response.off = some 0) (some_ : 0 < config.imageSize)
      (more : state.restarts < config.maxRestarts) :
      Answer state response (sendFrom config state.restarted, state.restarted)
  | adopted (success : response.failure = none) (reported : Nat) (offset : response.off = some reported)
      (inside : 0 < reported ∧ reported < config.imageSize) (first : state.inFlightFirstPacket = true) :
      Answer state response (sendFrom config (state.moved reported 0), state.moved reported 0)
  | advanced (success : response.failure = none) (reported : Nat) (offset : response.off = some reported)
      (inside : 0 < reported ∧ reported < config.imageSize) (later : state.inFlightFirstPacket = false)
      (further : state.confirmedOff < reported) :
      Answer state response (sendFrom config (state.moved reported 0), state.moved reported 0)
  | stalled (success : response.failure = none) (reported : Nat) (offset : response.off = some reported)
      (inside : 0 < reported ∧ reported < config.imageSize) (later : state.inFlightFirstPacket = false)
      (back : reported ≤ state.confirmedOff) (within : state.consecutiveNoProgress + 1 ≤ config.maxNoProgress) :
      Answer state response (sendFrom config (state.moved reported (state.consecutiveNoProgress + 1)),
        state.moved reported (state.consecutiveNoProgress + 1))

variable {config} (response : UploadResponse)

theorem onFailure_answer (error : Error) (failure : response.failure = some error) :
    Answer config state response (onFailure config state error) := by
  unfold onFailure
  split
  · rename_i again
    rw [Bool.and_eq_true, decide_eq_true_iff] at again
    exact .resent error failure again.2
  split
  · exact .suspended error failure
  · exact .failed error _

theorem onOffset_answer (reported : Nat) (success : response.failure = none) (offset : response.off = some reported) :
    Answer config state response (onOffset config state reported response.match_) := by
  unfold onOffset
  split
  · exact .failed _ _
  rename_i inside
  split
  · rename_i whole
    split
    · exact .failed _ _
    · rw [whole] at offset ⊢
      exact .completed success offset
  · rename_i short
    have less : reported < config.imageSize := by omega
    split
    · rename_i zero
      subst zero
      split
      · exact .failed _ _
      · rename_i budget
        exact .restarted success offset less (UInt32.not_le.mp budget)
    · rename_i positive
      have some_ := Nat.pos_of_ne_zero positive
      have moved : (state.progressed || decide (reported > 0)) = true := by simp [some_]
      rw [moved]
      split
      · rename_i first
        exact .adopted success reported offset ⟨some_, less⟩ first
      rename_i first
      have later : state.inFlightFirstPacket = false := by simpa using first
      split
      · rename_i further
        exact .advanced success reported offset ⟨some_, less⟩ later further
      rename_i back
      dsimp only
      split
      · exact .failed _ _
      rename_i budget
      rw [moved]
      exact .stalled success reported offset ⟨some_, less⟩ later (Nat.le_of_not_lt back) (UInt32.not_lt.mp budget)

theorem onResponse_answer : Answer config state response (onResponse config state response) := by
  unfold onResponse
  split
  · rename_i failure
    exact onFailure_answer state response _ failure
  rename_i success
  split
  · exact .failed _ _
  · rename_i reported offset
    exact onOffset_answer state response reported success offset

variable (config)

inductive Answered (state : UploadState) (response : UploadResponse) : Step × UploadState → Prop
  | resent (retries : UInt32) : Answered state response
      (.sendChunk { off := state.inFlightOff, length := state.inFlightLen, firstPacket := state.inFlightFirstPacket },
        { state with retries := retries })
  | suspended (error : Error) : Answered state response (.suspend error, { state with phase := .suspended })
  | failed (error : Error) (after : UploadState) (phase : after.phase = .failed)
      (confirmed : after.confirmedOff = state.confirmedOff)
      (pending : after.firstPacketPending = state.firstPacketPending) : Answered state response (.fail error, after)
  | completed (match_ : Option Bool) (onFirstPacket : Bool) (success : response.failure = none)
      (whole : response.off = some config.imageSize) : Answered state response
      (.complete match_ onFirstPacket, { state with confirmedOff := config.imageSize, phase := .done })
  | advanced (reported : Nat) (after : UploadState) (success : response.failure = none)
      (offset : response.off = some reported) (less : reported < config.imageSize)
      (confirmed : after.confirmedOff = reported) (pending : after.firstPacketPending = decide (reported = 0))
      (phase : after.phase = state.phase) : Answered state response (sendFrom config after, after)

variable {config}

theorem onResponse_answered : Answered config state response (onResponse config state response) := by
  have answer := @onResponse_answer Hash config state response
  generalize onResponse config state response = result at answer ⊢
  cases answer with
  | resent => exact .resent _
  | suspended error => exact .suspended error
  | failed error => exact .failed error _ rfl rfl rfl
  | completed success whole => exact .completed _ _ success whole
  | restarted success zero some_ => exact .advanced 0 _ success zero some_ rfl rfl rfl
  | adopted success reported offset inside _ | advanced success reported offset inside _ _
  | stalled success reported offset inside =>
    have positive := decide_eq_false (Nat.ne_of_gt inside.1)
    exact .advanced reported _ success offset inside.2 rfl positive.symm rfl

theorem sendFrom_request (pending : state.firstPacketPending = false → 0 < state.confirmedOff) :
    ∃ request, sendFrom config state = .sendChunk request ∧ request.firstPacket = decide (request.off = 0) ∧
      (state.firstPacketPending = true → request.off = 0) := by
  refine ⟨_, rfl, ?_, ?_⟩
  · cases first : state.firstPacketPending with
    | true => rfl
    | false =>
      have nonzero := Nat.ne_of_gt (pending first)
      simp [nonzero]
  · intro first
    simp [first]

end

end Smply.Upload
