import Smply.Upload.Protocol

namespace Smply.Upload

open Systems

/-- The driver of one upload. `waiting` is set while the client holds the callback of a request. -/
structure Driver (Hash : Type) where
  config : UploadConfig Hash
  state : UploadState := {}
  reportedOff : Nat := 0
  /-- A progress callback was given. -/
  listens : Bool := true
  started : Bool := false
  active : Bool := false
  waiting : Bool := false

/-- `unread`: the source cannot be read for the next request. A cancelled request is answered with a failure. -/
inductive DriverEvent where
  | start (unread : Option Error)
  | restart (unread : Option Error)
  | respond (response : UploadResponse) (unread : Option Error)
  deriving DecidableEq, Repr

/-- What one call makes of an upload: what was decided, told as progress, sent, and told to its callback. -/
structure DriverOutput where
  step : Option Step := none
  progress : Option Nat := none
  sent : Option UploadRequest := none
  outcome : Option (Result UploadResult) := none
  deriving DecidableEq

namespace Driver

variable {Hash : Type} (driver : Driver Hash)

def finish (outcome : Result UploadResult) : DriverOutput × Driver Hash :=
  if !driver.active then ({}, driver) else ({ outcome := some outcome }, { driver with active := false })

def send (request : UploadRequest) (unread : Option Error) : DriverOutput × Driver Hash :=
  match unread with
  | some error => driver.finish (.error error)
  | none => ({ sent := some request }, { driver with state := recordSent driver.state request, waiting := true })

def report : Option Nat × Driver Hash :=
  if driver.state.confirmedOff ≠ driver.reportedOff ∧ driver.listens then
    (some driver.state.confirmedOff, { driver with reportedOff := driver.state.confirmedOff })
  else
    (none, driver)

def advance (step : Step) (unread : Option Error) : DriverOutput × Driver Hash :=
  match step with
  | .sendChunk request => driver.send request unread
  | .complete match_ completedOnFirstPacket =>
    let (progress, driver) := driver.report
    let (output, driver) := driver.finish
      (.ok { transferred := driver.state.confirmedOff, alreadyPresent := completedOnFirstPacket, match_ := match_ })
    ({ output with progress := progress }, driver)
  | .fail error | .suspend error => driver.finish (.error error)

def handle (response : UploadResponse) (unread : Option Error) : DriverOutput × Driver Hash :=
  if !driver.active then
    ({}, { driver with waiting := false })
  else
    let (step, state) := onResponse driver.config driver.state response
    let driver := { driver with state := state, waiting := false }
    match step with
    | .sendChunk _ =>
      let (progress, driver) := driver.report
      let (output, driver) := driver.advance step unread
      ({ output with step := some step, progress := progress }, driver)
    | _ =>
      let (output, driver) := driver.advance step unread
      ({ output with step := some step }, driver)

/-- `start` is called once, only a suspended session is resumed, and each request is answered once. -/
def step : DriverEvent → DriverOutput × Driver Hash
  | .start unread =>
    if driver.started then
      ({}, driver)
    else
      let step := planNext driver.config driver.state
      let (output, driver) := { driver with started := true, active := true }.advance step unread
      ({ output with step := some step }, driver)
  | .restart unread =>
    if driver.state.phase ≠ .suspended then
      ({}, driver)
    else
      let (step, state) := resume driver.config driver.state
      let (output, driver) := { driver with state := state, active := true }.advance step unread
      ({ output with step := some step }, driver)
  | .respond response unread => if driver.waiting then driver.handle response unread else ({}, driver)

end Driver

def DriverEvent.unread : DriverEvent → Option Error
  | .start unread | .restart unread | .respond _ unread => unread

def DriverEvent.answers : DriverEvent → Bool
  | .respond _ _ => true
  | _ => false

def UploadState.resumed (state : UploadState) : UploadState :=
  { state with firstPacketPending := true, phase := .idle, retries := 0, consecutiveNoProgress := 0 }

theorem resume_eq {Hash : Type} {config : UploadConfig Hash} {state : UploadState}
    (suspended : state.phase = .suspended) :
    resume config state = (planNext config state.resumed, state.resumed) := by
  unfold resume UploadState.resumed
  rw [if_neg (by rw [suspended]; simp)]

namespace Driver

section
variable {Hash : Type} (driver : Driver Hash)

inductive Decides : DriverEvent → Step → UploadState → Prop
  | start (unread : Option Error) : Decides (.start unread) (planNext driver.config driver.state) driver.state
  | restart (unread : Option Error) (suspended : driver.state.phase = .suspended) :
      Decides (.restart unread) (planNext driver.config driver.state.resumed) driver.state.resumed
  | respond {step : Step} {state : UploadState} (response : UploadResponse) (unread : Option Error)
      (waiting : driver.waiting = true) (answer : Answer driver.config driver.state response (step, state)) :
      Decides (.respond response unread) step state

/-- What is told of the offset that `state` has confirmed, and the offset that has been told then. -/
inductive Told (state : UploadState) : Option Nat → Nat → Prop
  | still (level : driver.listens = true →
        state.confirmedOff = driver.reportedOff ∨ state.confirmedOff = driver.state.confirmedOff) :
      Told state none driver.reportedOff
  | news (listens : driver.listens = true) (other : state.confirmedOff ≠ driver.reportedOff) :
      Told state (some state.confirmedOff) state.confirmedOff

/-- An event is nothing to the driver, or what the session decides is sent, or it ends the upload. -/
inductive Turn (event : DriverEvent) : DriverOutput × Driver Hash → Prop
  | unheard (waiting : Bool) (still : waiting = true → driver.waiting = true) :
      Turn event ({}, { driver with waiting := waiting })
  | sends {step : Step} {state : UploadState} {progress : Option Nat} {off : Nat} (started : Bool)
      (request : UploadRequest) (is : step = .sendChunk request) (decides : driver.Decides event step state)
      (told : driver.Told state progress off) :
      Turn event ({ step := some step, progress := progress, sent := some request },
        { driver with
          state := recordSent state request, reportedOff := off, started := started, active := true, waiting := true })
  | stops {step : Step} {state : UploadState} {progress : Option Nat} {off : Nat} (started : Bool)
      (outcome : Result UploadResult) (decides : driver.Decides event step state)
      (told : driver.Told state progress off)
      (done : ∀ result, outcome = .ok result → step = .complete result.match_ result.alreadyPresent) :
      Turn event ({ step := some step, progress := progress, outcome := some outcome },
        { driver with
          state := state, reportedOff := off, started := started, active := false
          waiting := driver.waiting && !event.answers })

end

variable {Hash : Type} {driver : Driver Hash} {event : DriverEvent} {step : Step} {state : UploadState}

theorem report_told (base : Driver Hash) (listens : base.listens = driver.listens)
    (reported : base.reportedOff = driver.reportedOff) : ∃ progress off,
      base.report = (progress, { base with reportedOff := off }) ∧ driver.Told base.state progress off := by
  unfold report
  split
  · rename_i news
    exact ⟨_, _, rfl, .news (listens ▸ news.2) (reported ▸ news.1)⟩
  · rename_i same
    refine ⟨none, base.reportedOff, rfl, ?_⟩
    rw [reported]
    refine .still fun listening => .inl ?_
    by_contra other
    exact same ⟨reported ▸ other, listens.trans listening⟩

theorem advance_turn {base : Driver Hash} (decides : driver.Decides event step state) (started : Bool)
    (level : (∀ match_ first, step ≠ .complete match_ first) → state.confirmedOff = driver.state.confirmedOff)
    (is : base = { driver with
      state := state, started := started, active := true, waiting := driver.waiting && !event.answers }) :
    driver.Turn event
      ({ (base.advance step event.unread).1 with step := some step }, (base.advance step event.unread).2) := by
  subst is
  generalize event.unread = unread
  unfold advance
  cases step with
  | sendChunk request =>
    have still := Told.still fun _ => .inr (level nofun)
    cases unread with
    | none => exact .sends started request rfl decides still
    | some error => exact .stops started (.error error) decides still nofun
  | fail error | suspend error => exact .stops started (.error error) decides (.still fun _ => .inr (level nofun)) nofun
  | complete match_ first =>
    obtain ⟨progress, off, reports, told⟩ := @report_told Hash driver { driver with
      state := state, started := started, active := true, waiting := driver.waiting && !event.answers } rfl rfl
    dsimp only
    rw [reports]
    refine .stops started _ decides told fun result done => ?_
    obtain rfl := Except.ok.inj done
    rfl

theorem handle_turn (response : UploadResponse) (unread : Option Error) (waiting : driver.waiting = true)
    (active : driver.active = true) : driver.Turn (.respond response unread) (driver.handle response unread) := by
  unfold handle
  rw [if_neg (by rw [active]; exact nofun)]
  have answer := @onResponse_answer Hash driver.config driver.state response
  generalize onResponse driver.config driver.state response = result at answer ⊢
  obtain ⟨step, state⟩ := result
  have decides := Decides.respond response unread waiting answer
  have base : { driver with state := state, waiting := false } = ({ driver with
      state := state, started := driver.started, active := true
      waiting := driver.waiting && !(DriverEvent.respond response unread).answers } : Driver Hash) := by
    simp [active, DriverEvent.answers]
  have same (error : Error) (ends : step = .fail error ∨ step = .suspend error) :
      state.confirmedOff = driver.state.confirmedOff := by
    rcases ends with rfl | rfl
    · cases answer
      rfl
    · cases answer
      rfl
  cases step with
  | sendChunk request =>
    obtain ⟨progress, off, reports, told⟩ := @report_told Hash driver { driver with state := state, waiting := false }
      rfl rfl
    dsimp only
    rw [reports, base]
    cases unread with
    | none => exact .sends driver.started request rfl decides told
    | some error => exact .stops driver.started (.error error) decides told nofun
  | complete match_ first => exact advance_turn decides driver.started (fun other => absurd rfl (other _ _)) base
  | fail error => exact advance_turn decides driver.started (fun _ => same error (.inl rfl)) base
  | suspend error => exact advance_turn decides driver.started (fun _ => same error (.inr rfl)) base

theorem step_turn (driver : Driver Hash) (event : DriverEvent) : driver.Turn event (driver.step event) := by
  unfold Driver.step
  cases event with
  | start unread =>
    dsimp only
    split
    · exact .unheard driver.waiting id
    · exact advance_turn (.start unread) true (fun _ => rfl) (by simp [DriverEvent.answers])
  | restart unread =>
    dsimp only
    split
    · exact .unheard driver.waiting id
    rename_i suspended
    rw [resume_eq (not_not.mp suspended)]
    exact advance_turn (.restart unread (not_not.mp suspended)) driver.started (fun _ => rfl)
      (by simp [DriverEvent.answers])
  | respond response unread =>
    dsimp only
    split
    · rename_i waiting
      by_cases active : driver.active = true
      · exact handle_turn response unread waiting active
      · unfold handle
        rw [if_pos (by simpa using active)]
        exact .unheard false nofun
    · exact .unheard driver.waiting id

theorem step_config (driver : Driver Hash) (event : DriverEvent) : (driver.step event).2.config = driver.config := by
  have turn := driver.step_turn event
  generalize driver.step event = result at turn ⊢
  cases turn <;> rfl

end Driver

end Smply.Upload
