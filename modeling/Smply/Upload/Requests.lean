import Smply.Upload.Driver

namespace Smply.Upload

open Systems

variable {state : UploadState}

abbrev DriverStep (Hash : Type) := Transition (Driver Hash) DriverEvent DriverOutput

section
variable {Hash : Type}

/-- One upload from its start, through everything it is answered and every time it is resumed. -/
def driverLog (config : UploadConfig Hash) (listens : Bool) (events : List DriverEvent) : List (DriverStep Hash) :=
  log Driver.step { config := config, listens := listens } events

def runDriver (config : UploadConfig Hash) (listens : Bool) (events : List DriverEvent) : Driver Hash :=
  run Driver.step { config := config, listens := listens } events

def reported (t : DriverStep Hash) : Option Nat :=
  match t.event, t.output.step with
  | .respond response _, some _ => if response.failure = none then response.off else none
  | _, _ => none

def unanswered (t : DriverStep Hash) : Bool :=
  match t.event, t.output.step with
  | .respond response _, some _ => response.failure.isSome
  | _, _ => false

def lastOffset (past : List (DriverStep Hash)) : Option Nat := (past.filterMap reported).getLast?

def lastSent (past : List (DriverStep Hash)) : Option UploadRequest := (past.filterMap (·.output.sent)).getLast?

theorem lastOffset_concat (past : List (DriverStep Hash)) (t : DriverStep Hash) :
    lastOffset (past ++ [t]) = (reported t).or (lastOffset past) := by
  unfold lastOffset
  rw [List.filterMap_append, List.filterMap_cons, List.filterMap_nil]
  cases reported t <;> simp

theorem lastSent_concat (past : List (DriverStep Hash)) (t : DriverStep Hash) :
    lastSent (past ++ [t]) = t.output.sent.or (lastSent past) := by
  unfold lastSent
  rw [List.filterMap_append, List.filterMap_cons, List.filterMap_nil]
  cases t.output.sent <;> simp

/-- The server confirmed a part of the image that is neither empty nor the whole. -/
def Moved (config : UploadConfig Hash) (past : List (DriverStep Hash)) : Prop :=
  ∃ u ∈ past, ∃ off, reported u = some off ∧ 0 < off ∧ off < config.imageSize

theorem moved_concat {config : UploadConfig Hash} {past : List (DriverStep Hash)} {t : DriverStep Hash} :
    Moved config (past ++ [t]) ↔
      Moved config past ∨ ∃ off, reported t = some off ∧ 0 < off ∧ off < config.imageSize := by
  unfold Moved
  simp only [List.mem_append, List.mem_singleton, or_and_right, exists_or, exists_eq_left]

end

structure Fits {Hash : Type} (config : UploadConfig Hash) (last : Option Nat) (request : UploadRequest) : Prop where
  some_ : 0 < request.length
  chunk : request.length ≤ config.chunkSize
  inside : request.off + request.length ≤ config.imageSize
  first : request.firstPacket = true ↔ request.off = 0
  follows : request.firstPacket = false → last = some request.off
  exact_ : request.length = min config.chunkSize (config.imageSize - request.off)

def UploadState.inFlight (state : UploadState) : UploadRequest :=
  { off := state.inFlightOff, length := state.inFlightLen, firstPacket := state.inFlightFirstPacket }

section
variable {Hash : Type} {config : UploadConfig Hash} {last : Option Nat}

theorem sendFrom_fits (image : 0 < config.imageSize) (chunk : 0 < config.chunkSize)
    (pending : state.firstPacketPending = false → 0 < state.confirmedOff ∧ last = some state.confirmedOff)
    (less : state.confirmedOff < config.imageSize) {request : UploadRequest}
    (sends : sendFrom config state = .sendChunk request) : Fits config last request := by
  unfold sendFrom at sends
  dsimp only at sends
  obtain rfl := Step.sendChunk.inj sends
  have length (off : Nat) : (if config.imageSize - off < config.chunkSize then config.imageSize - off
      else config.chunkSize) = min config.chunkSize (config.imageSize - off) := by
    rw [Nat.min_def]
    split <;> split <;> omega
  cases first : state.firstPacketPending with
  | true =>
    simp only [↓reduceIte, length]
    exact ⟨by dsimp only; omega, by dsimp only; omega, by dsimp only; omega, by simp, nofun, rfl⟩
  | false =>
    obtain ⟨positive, told⟩ := pending first
    simp only [Bool.false_eq_true, ↓reduceIte, length]
    refine ⟨by dsimp only; omega, Nat.min_le_left .., by dsimp only; omega, ⟨nofun, fun zero => ?_⟩, fun _ => told, rfl⟩
    exact absurd zero (Nat.ne_of_gt positive)

end

structure Aims {Hash : Type} (config : UploadConfig Hash) (last : Option Nat) (state : UploadState) : Prop where
  follows : state.phase ≠ .failed → state.phase ≠ .done → state.firstPacketPending = false →
    0 < state.confirmedOff ∧ last = some state.confirmedOff
  done : state.phase = .done → config.imageSize ≤ state.confirmedOff

structure Kept {Hash : Type} (past : List (DriverStep Hash)) (driver : Driver Hash) : Prop where
  awaits : driver.waiting = true → lastSent past = some driver.state.inFlight ∧ driver.state.phase = .sending
  aims : Aims driver.config (lastOffset past) driver.state
  fits : 0 < driver.config.imageSize → 0 < driver.config.chunkSize → driver.waiting = true →
    Fits driver.config (lastOffset past) driver.state.inFlight
  knows : driver.state.phase ≠ .failed → (driver.state.progressed = true ↔ Moved driver.config past)
  level : driver.listens = true → driver.reportedOff = driver.state.confirmedOff

section
variable {Hash : Type} {past : List (DriverStep Hash)} {driver : Driver Hash}

structure Decided (past : List (DriverStep Hash)) (t : DriverStep Hash) (step : Step) (state : UploadState) : Prop where
  aims : Aims t.before.config (lastOffset (past ++ [t])) state
  knows : state.phase ≠ .failed → (state.progressed = true ↔ Moved t.before.config (past ++ [t]))
  sends : ∀ request, step = .sendChunk request → (state.phase ≠ .failed ∧ state.phase ≠ .done) ∧
    (unanswered t = true → lastSent past = some request) ∧ (0 < t.before.config.imageSize →
      0 < t.before.config.chunkSize → Fits t.before.config (lastOffset (past ++ [t])) request)
  completes : ∀ match_ first, step = .complete match_ first → (first = true ↔ t.event.answers = true ∧
    (∃ request, lastSent past = some request ∧ request.firstPacket = true) ∧ ¬ Moved t.before.config past)
  told : state.confirmedOff = t.before.state.confirmedOff ∨ reported t = some state.confirmedOff

theorem planNext_cases (config : UploadConfig Hash) (state : UploadState) :
    (∃ error, planNext config state = .fail error) ∨ planNext config state = .complete none false ∨
      state.phase ≠ .failed ∧ state.confirmedOff < config.imageSize ∧ planNext config state = sendFrom config state := by
  unfold planNext refuse
  split
  · exact .inl ⟨_, rfl⟩
  rename_i unfailed
  split
  · exact .inl ⟨_, rfl⟩
  split
  · exact .inr (.inl rfl)
  · rename_i less
    exact .inr (.inr ⟨unfailed, Nat.lt_of_not_le less, rfl⟩)

theorem planned {t : DriverStep Hash} (opens : t.event.answers = false)
    (aims : Aims t.before.config (lastOffset past) state)
    (knows : state.phase ≠ .failed → (state.progressed = true ↔ Moved t.before.config past))
    (same : state.confirmedOff = t.before.state.confirmedOff) :
    Decided past t (planNext t.before.config state) state := by
  obtain ⟨before, event, output, after⟩ := t
  have quiet : reported ⟨before, event, output, after⟩ = none ∧ unanswered ⟨before, event, output, after⟩ = false := by
    cases event with
    | start unread | restart unread => exact ⟨rfl, rfl⟩
    | respond response unread => cases opens
  have last : lastOffset (past ++ [⟨before, event, output, after⟩]) = lastOffset past := by
    rw [lastOffset_concat, quiet.1, Option.none_or]
  refine ⟨last ▸ aims, fun unfailed => ?_, fun request sends => ?_, fun match_ first is => ?_, .inl same⟩
  · rw [knows unfailed, moved_concat, quiet.1]
    simp
  · rcases planNext_cases before.config state with ⟨error, fails⟩ | completes | ⟨unfailed, less, plans⟩
    · cases fails.symm.trans sends
    · cases completes.symm.trans sends
    have unfinished : state.phase ≠ .done := fun done => absurd (aims.done done) (Nat.not_le_of_lt less)
    refine ⟨⟨unfailed, unfinished⟩, fun unheard => ?_, fun image chunk => ?_⟩
    · rw [quiet.2] at unheard
      cases unheard
    · rw [last]
      exact sendFrom_fits image chunk (aims.follows unfailed unfinished) less (plans ▸ sends)
  · rw [show first = false from ?_, opens]
    · exact ⟨nofun, fun answers => nomatch answers.1⟩
    rcases planNext_cases before.config state with ⟨error, fails⟩ | completes | ⟨-, -, plans⟩
    · cases fails.symm.trans is
    · exact (Step.complete.inj (completes.symm.trans is)).2.symm
    · cases plans.symm.trans is

section
variable (kept : Kept past driver)
include kept

theorem Kept.answered (waiting : driver.waiting = true) {response : UploadResponse}
    {unread : Option Error} {step : Step} {t : DriverStep Hash} (before : t.before = driver)
    (is : t.event = .respond response unread) (named : t.output.step = some step)
    (answer : Answer driver.config driver.state response (step, state)) : Decided past t step state := by
  subst before
  obtain ⟨sent, sending⟩ := kept.awaits waiting
  have told : reported t = if response.failure = none then response.off else none := by
    simp only [reported, is, named]
  have unheard : unanswered t = response.failure.isSome := by simp only [unanswered, is, named]
  have knows := kept.knows (by rw [sending]; simp)
  have last := lastOffset_concat past t
  have moved := @moved_concat Hash t.before.config past t
  -- An answer that fails tells nothing of the offset.
  have failed {error : Error} (failure : response.failure = some error) :
      lastOffset (past ++ [t]) = lastOffset past ∧ (Moved t.before.config (past ++ [t]) ↔ Moved t.before.config past) := by
    rw [failure, if_neg (by simp)] at told
    rw [told] at last moved
    exact ⟨last, moved.trans (by simp)⟩
  -- Whatever the server reports inside the image, the session goes on from there.
  have goes {next : UploadState} {off : Nat} (success : response.failure = none) (offset : response.off = some off)
      (phase : next.phase = .sending) (confirmed : next.confirmedOff = off) (less : off < t.before.config.imageSize)
      (pending : next.firstPacketPending = false → 0 < off)
      (progressed : next.progressed = true ↔ Moved t.before.config past ∨ 0 < off) :
      Decided past t (sendFrom t.before.config next) next := by
    rw [if_pos success, offset] at told
    rw [told, Option.some_or] at last
    subst confirmed
    have aims (first : next.firstPacketPending = false) := And.intro (pending first) last
    refine ⟨⟨fun _ _ => aims, fun done => ?_⟩, fun _ => ?_, fun request sends => ⟨?_, fun quiet => ?_, fun image chunk => ?_⟩,
      by rintro _ _ ⟨⟩, .inr told⟩
    · rw [phase] at done
      cases done
    · rw [moved, progressed, told]
      simp [less]
    · rw [phase]
      simp
    · rw [unheard, success] at quiet
      cases quiet
    · exact sendFrom_fits image chunk aims less sends
  cases answer with
  | resent error failure more =>
    obtain ⟨same, still⟩ := failed failure
    refine ⟨?_, fun _ => knows.trans still.symm, fun request sends => ?_, by simp, .inl rfl⟩
    · rw [same]
      exact ⟨kept.aims.follows, kept.aims.done⟩
    · obtain rfl := Step.sendChunk.inj sends
      rw [same]
      exact ⟨by rw [sending]; simp, fun _ => sent, fun image chunk => kept.fits image chunk waiting⟩
  | suspended error failure =>
    obtain ⟨same, still⟩ := failed failure
    refine ⟨?_, fun _ => knows.trans still.symm, by simp, by simp, .inl rfl⟩
    rw [same]
    exact ⟨fun _ _ => kept.aims.follows (by rw [sending]; simp) (by rw [sending]; simp), by simp⟩
  | failed error stalls =>
    exact ⟨⟨fun unfailed => absurd rfl unfailed, by simp⟩, fun unfailed => absurd rfl unfailed, by simp, by simp, .inl rfl⟩
  | completed success whole =>
    rw [if_pos success, whole] at told
    refine ⟨⟨fun _ unfinished => absurd rfl unfinished, fun _ => Nat.le_refl _⟩, fun _ => ?_, by simp, fun match_ first done => ?_,
      .inr told⟩
    · rw [moved, told]
      simp [knows]
    · rw [← (Step.complete.inj done).2, Bool.and_eq_true, Bool.not_eq_true', ← Bool.not_eq_true, knows, sent, is]
      simp [DriverEvent.answers, UploadState.inFlight]
  | restarted success zero some_ more =>
    exact goes success zero sending rfl some_ (by rintro ⟨⟩) (by simp [UploadState.restarted, knows])
  | adopted success off offset inside first | advanced success off offset inside later further
  | stalled success off offset inside later back within =>
    exact goes success offset sending rfl inside.2 (fun _ => inside.1) (by simp [UploadState.moved, inside.1])

theorem Kept.decided {event : DriverEvent} {step : Step}
    (decides : driver.Decides event step state) (output : DriverOutput) (named : output.step = some step)
    (after : Driver Hash) : Decided past ⟨driver, event, output, after⟩ step state := by
  cases decides with
  | start unread => exact planned rfl kept.aims kept.knows rfl
  | restart unread suspended =>
    exact planned rfl ⟨fun _ _ => nofun, nofun⟩ (fun _ => kept.knows (by rw [suspended]; exact nofun)) rfl
  | respond response unread waiting answer => exact kept.answered waiting rfl rfl named answer

theorem Kept.told {t : DriverStep Hash} (before : t.before = driver) {step : Step}
    (decided : Decided past t step state) {progress : Option Nat} {off : Nat}
    (told : driver.Told state progress off) : (driver.listens = true → off = state.confirmedOff) ∧
      ∀ value, progress = some value → reported t = some value := by
  subst before
  cases told with
  | still level =>
    refine ⟨fun listens => ?_, nofun⟩
    rcases level listens with same | same
    · exact same.symm
    · exact (kept.level listens).trans same.symm
  | news listens other =>
    refine ⟨fun _ => rfl, fun value is => ?_⟩
    obtain rfl := Option.some.inj is
    rcases decided.told with same | told
    · exact absurd (same.trans (kept.level listens).symm) other
    · exact told

theorem Kept.step (event : DriverEvent) :
    Kept (past ++ [transition Driver.step driver event]) (driver.step event).2 := by
  have turn := driver.step_turn event
  unfold transition
  generalize driver.step event = result at turn ⊢
  cases turn with
  | unheard waiting still =>
    have quiet : reported ⟨driver, event, {}, { driver with waiting := waiting }⟩ = none := by
      cases event <;> rfl
    have last := lastOffset_concat past ⟨driver, event, {}, { driver with waiting := waiting }⟩
    have sent := lastSent_concat past ⟨driver, event, {}, { driver with waiting := waiting }⟩
    rw [quiet, Option.none_or] at last
    rw [Option.none_or] at sent
    refine ⟨fun waits => ?_, ?_, fun image chunk waits => ?_, fun unfailed => ?_, kept.level⟩
    · rw [sent]
      exact kept.awaits (still waits)
    · rw [last]
      exact kept.aims
    · rw [last]
      exact kept.fits image chunk (still waits)
    · rw [moved_concat, quiet, kept.knows unfailed]
      simp
  | @sends step state progress off started request is decides told =>
    have decided := kept.decided decides { step := some step, progress := progress, sent := some request } rfl
      { driver with
        state := recordSent state request, reportedOff := off, started := started, active := true, waiting := true }
    obtain ⟨⟨unfailed, unfinished⟩, -, fits⟩ := decided.sends request is
    refine ⟨fun _ => ⟨?_, rfl⟩, ⟨fun _ _ => decided.aims.follows unfailed unfinished, nofun⟩,
      fun image chunk _ => fits image chunk, fun _ => decided.knows unfailed, (kept.told rfl decided told).1⟩
    rw [lastSent_concat]
    rfl
  | @stops step state progress off started outcome decides told done =>
    have decided := kept.decided decides { step := some step, progress := progress, outcome := some outcome } rfl { driver with
        state := state, reportedOff := off, started := started, active := false
        waiting := driver.waiting && !event.answers }
    -- Only a call that is no answer leaves a request in flight.
    have waits (waiting : (driver.waiting && !event.answers) = true) : driver.waiting = true ∧ state = driver.state ∧
        reported ⟨driver, event, { step := some step, progress := progress, outcome := some outcome }, { driver with
          state := state, reportedOff := off, started := started, active := false
          waiting := driver.waiting && !event.answers }⟩ = none := by
      rw [Bool.and_eq_true, Bool.not_eq_true'] at waiting
      cases decides with
      | start unread => exact ⟨waiting.1, rfl, rfl⟩
      | restart unread suspended =>
        rw [(kept.awaits waiting.1).2] at suspended
        cases suspended
      | respond response unread _ answer => cases waiting.2
    refine ⟨fun waiting => ?_, decided.aims, fun image chunk waiting => ?_, decided.knows, (kept.told rfl decided told).1⟩
    · obtain ⟨still, rfl, -⟩ := waits waiting
      rw [lastSent_concat, Option.none_or]
      exact kept.awaits still
    · obtain ⟨still, rfl, quiet⟩ := waits waiting
      rw [lastOffset_concat, quiet, Option.none_or]
      exact kept.fits image chunk still

end

end

section
variable {Hash : Type} (config : UploadConfig Hash) (listens : Bool) (events : List DriverEvent)

theorem run_config : (runDriver config listens events).config = config :=
  state_invariant Driver.step { config := config, listens := listens } (fun driver => driver.config = config) rfl
    (fun driver event same => (driver.step_config event).trans same) events

theorem run_kept : Kept (driverLog config listens events) (runDriver config listens events) :=
  history_invariant Driver.step { config := config, listens := listens } Kept
    ⟨nofun, ⟨fun _ _ => nofun, nofun⟩, nofun, fun _ => ⟨nofun, fun ⟨_, member, _⟩ => by cases member⟩, fun _ => rfl⟩
    (fun _ _ event kept => kept.step event) events

theorem run_decided {past later : List (DriverStep Hash)} {t : DriverStep Hash}
    (split : driverLog config listens events = past ++ t :: later) :
    t.before.config = config ∧ Kept past t.before ∧ t.before.Turn t.event (t.output, t.after) ∧
      ∀ step, t.output.step = some step → ∃ state, Decided past t step state := by
  obtain ⟨earlier, event, rest, -, rfl, rfl, -⟩ := log_split Driver.step _ events split
  have kept := run_kept config listens earlier
  have turn := (runDriver config listens earlier).step_turn event
  refine ⟨run_config config listens earlier, kept, turn, fun step named => ?_⟩
  have decides : ∃ state, (runDriver config listens earlier).Decides event step state := by
    change ((runDriver config listens earlier).step event).1.step = some step at named
    generalize (runDriver config listens earlier).step event = result at turn named
    cases turn with
    | unheard waiting still => cases named
    | sends _ _ _ decides | stops _ _ decides => exact ⟨_, Option.some.inj named ▸ decides⟩
  exact decides.imp fun state decides => kept.decided decides _ named _

/-- Every request lies inside the image, is a first packet exactly at offset 0, goes on where the server said and is as
long as it can be. -/
theorem upload_requests_fit (image : 0 < config.imageSize) (chunk : 0 < config.chunkSize)
    {past later : List (DriverStep Hash)} {t : DriverStep Hash}
    (split : driverLog config listens events = past ++ t :: later) {request : UploadRequest}
    (sends : t.output.step = some (.sendChunk request)) :
    Fits config (lastOffset (past ++ [t])) request ∧ (unanswered t = true → lastSent past = some request) := by
  obtain ⟨same, -, -, decides⟩ := run_decided config listens events split
  obtain ⟨state, decided⟩ := decides _ sends
  obtain ⟨-, again, fits⟩ := decided.sends request rfl
  rw [same] at fits
  exact ⟨fits image chunk, again⟩

end

def shortImage : UploadConfig Unit := { imageSize := 48, chunkSize := 32 }

def lateAnswer : DriverEvent := .respond { failure := some { code := .timeout } } none

def answered (off : Nat) : DriverEvent := .respond { off := some off } none

theorem upload_requests_fit_resent : Fits shortImage (some 32) { off := 32, length := 16, firstPacket := false } ∧
      lastSent (driverLog shortImage true [.start none, answered 32]) =
        some { off := 32, length := 16, firstPacket := false } := by
  have fit := @upload_requests_fit Unit shortImage true [.start none, answered 32, lateAnswer] (by decide) (by decide)
    (driverLog shortImage true [.start none, answered 32]) []
    (transition Driver.step (runDriver shortImage true [.start none, answered 32]) lateAnswer) rfl
    { off := 32, length := 16, firstPacket := false } (by decide)
  exact ⟨fit.1, fit.2 (by decide)⟩

end Smply.Upload
