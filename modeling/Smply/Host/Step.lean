import Smply.Host.State

namespace Smply

namespace Host

open Smp (RawResponse RequestSpec RequestHandle SmpClientConfig World)

def Query.spec (codec : Codec) (query : Query) : RequestSpec :=
  let payload := codec.query query
  match query with
  | .parameters => { op := .read, group := Group.os, command := 6, payload := payload }
  | .bootloader => { op := .read, group := Group.os, command := 8, payload := payload }
  | .state => { op := .read, group := Group.image, command := 0, payload := payload }
  | .markForTest _ | .confirm _ => { op := .write, group := Group.image, command := 0, payload := payload }
  | .reset _ => { op := .write, group := Group.os, command := 5, payload := payload }

def failure (error : Error) : Dfu.Event := { kind := .failed, error := error }

/-- The event a command's answer becomes. Any failure of the optional parameters command is an ordinary answer. -/
def Query.event (codec : Codec) (query : Query) (result : Result RawResponse) : Dfu.Event :=
  match query with
  | .parameters =>
    match result.bind fun response => codec.parameters response.payload with
    | .error _ => { kind := .parametersUnavailable }
    | .ok bufSize => { kind := .parametersRead, bufSize := bufSize }
  | .bootloader =>
    match result.bind fun response => codec.bootloader response.payload with
    | .error error => failure error
    | .ok mode => { kind := .bootloaderRead, bootloader := mode }
  | .state => table .stateRead
  | .markForTest _ => table .markedForTest
  | .confirm _ => table .confirmed
  | .reset _ =>
    match result with
    | .error error => failure error
    | .ok _ => { kind := .resetAccepted }
where
  table (kind : Dfu.EventKind) : Dfu.Event :=
    match result.bind fun response => codec.slots response.payload with
    | .error error => failure error
    | .ok slots => { kind := kind, state := some slots }

def UploadDriver.resumable (driver : UploadDriver) : Bool := driver.state.phase == .suspended

def UploadDriver.chunkSpec (codec : Codec) (driver : UploadDriver) (request : Upload.UploadRequest) (chunk : Bytes) :
    RequestSpec where
  op := .write
  group := Group.image
  command := 1
  payload := codec.chunk driver.config request chunk
  timeout := some (
    if request.firstPacket then driver.firstChunkTimeout
    else if request.off + request.length = driver.config.imageSize then driver.finalChunkTimeout
    else driver.chunkTimeout)

def decodeChunk (codec : Codec) (result : Result RawResponse) : Upload.UploadResponse :=
  match result.bind fun response => codec.offset response.payload with
  | .error error => { failure := some error }
  | .ok (off, match_) => { off := off, match_ := match_ }

def sends : Upload.Step → Bool
  | .sendChunk _ => true
  | _ => false

/-- The checks of `ImageManagement::upload`, and the configuration it sets up. -/
def configure (env : Env) (source : Source) (options : UploadOptions) : Result (Upload.UploadConfig Bytes) := do
  let imageSize := env.size source
  if imageSize = 0 then
    throw (.at .invalidArgument "image: empty image source")
  if imageSize > Limits.maxImageSize then
    throw (.at .invalidArgument "image: image implausibly large")
  let chunkSize := options.chunkSize.toNat
  if chunkSize ≠ 0 ∧ (chunkSize < Limits.uploadChunkMin ∨ chunkSize > Limits.uploadChunkMax) then
    throw (.at .invalidArgument "image: chunk size out of range")
  let sha ← match options.sha with
    | some sha => pure sha
    | none => env.digest source
  let chunk ← if chunkSize ≠ 0 then pure chunkSize else env.chunk options.serverBufSize
  pure
    { imageSize := imageSize, chunkSize := chunk, image := options.image.toNat, sha := some sha,
      upgradeOnly := options.upgradeOnly, maxChunkRetries := options.maxChunkRetries,
      maxRestarts := options.maxRestarts, maxNoProgress := options.maxNoProgress }

/-- The plan and targets `start()` refuses, before anything is read. -/
def validate (targets : List ImageTarget) (plan : Plan) : Result Unit :=
  if targets.isEmpty then
    .error (.at .invalidArgument "updater: no image to update")
  else do
    check targets
    let anyBuilds := targets.any fun target => target.secondarySource.isSome
    if (targets.length > 1 ∨ anyBuilds) ∧ plan.upload.sha.isSome then
      throw (.at .invalidArgument "updater: upload.sha with several files")
    if targets.any (fun target => target.commit == .device) ∧ plan.decisions.applyPollInterval ≤ 0 then
      throw (.at .invalidArgument "updater: apply_poll_interval not positive")
where
  check : List ImageTarget → Result Unit
    | [] => .ok ()
    | target :: rest =>
      if target.source.isNone then
        .error (.at .invalidArgument "updater: image target without a source")
      else if rest.any fun other => other.image == target.image then
        .error (.at .invalidArgument "updater: an image is given twice")
      else check rest

/-- The files of one target, read before anything goes on the wire. `validate` has refused a target without a
source. -/
def readTarget (env : Env) (target : ImageTarget) : Result (Dfu.Target × Source × Option Source) := do
  let source := target.source.getD 0
  let file ← env.file source
  let decision : Dfu.Target :=
    { image := target.image, commit := target.commit, hash := file.hash, version := file.version }
  match target.secondarySource with
  | none => pure (decision, source, none)
  | some secondary =>
    let other ← env.file secondary
    pure ({ decision with builds := some (⟨file.hash, file.version⟩, ⟨other.hash, other.version⟩) },
      source, some secondary)

def handed : Smp.Output → RequestHandle
  | .requested handle => handle
  | _ => {}

end Host

namespace Host

open Smp (RawResponse RequestSpec RequestHandle SmpClientConfig World)

variable (host : Host)

def push (task : Task) : Host := { host with tasks := task :: host.tasks }

def defer (job : Job) : Host :=
  { host with world := (host.world.enter (.defer (some host.jobs.length))).2, jobs := host.jobs ++ [job] }

def ask (reply : Reply) (spec : RequestSpec) (given : Bool) (sent : Result Unit) (now : TimePoint) :
    RequestHandle × Host :=
  let entered := host.world.enter (.request spec given sent now)
  (handed entered.1, { host with world := entered.2, replies := host.replies ++ [reply] })

def reject (onDone : Option Owner) (error : Error) : Host :=
  match onDone with
  | none => host
  | some owner => host.defer (.rejected owner error)

def emit (update : Nat) (event : UpdateEvent) : Output × Host :=
  match host.updater.onEvent with
  | none => (.quiet, host)
  | some listener => (.emitted listener update event, host.push .application)

def keep (driver : UploadDriver) : Host := { host with image := { host.image with upload := some driver } }

def uploadDriver (life : Nat) : Option UploadDriver := host.image.upload.filter fun driver => driver.life = life

def uploadOf (handle : UploadHandle) : Option UploadDriver :=
  host.image.upload.filter fun driver => driver.generation = handle.generation

def uploadEvent (result : Result UploadResult) : Dfu.Event :=
  match result with
  | .error error =>
    if (host.uploadOf host.updater.upload).any UploadDriver.resumable then { kind := .uploadSuspended }
    else failure error
  | .ok result =>
    { kind := .uploadFinished, transferred := .ofNat result.transferred, alreadyPresent := result.alreadyPresent }

def tell (origin : Origin) (life : Option Nat) (owner : Owner) (result : Result UploadResult) : Output × Host :=
  (.finished life owner result,
    match owner with
    | .application => host.push .application
    | .updater update => host.push (.dispatch origin update (host.uploadEvent result)))

/-- `UploadDriver::finish`. Without an origin the starting call is on the stack, and the callback is queued. -/
def finishUpload (driver : UploadDriver) (origin : Option Origin) (outcome : Result UploadResult) :
    Output × Host :=
  if !driver.active then
    (.quiet, host.keep driver)
  else
    let host := host.keep { driver with active := false, onDone := none }
    match driver.onDone, origin with
    | none, _ => (.quiet, host)
    | some owner, none => (.quiet, host.defer (.finished driver.life owner outcome))
    | some owner, some origin => host.tell origin (some driver.life) owner outcome

def progress (driver : UploadDriver) : Output × Host :=
  match driver.onProgress with
  | none => (.quiet, host)
  | some .application =>
    (.progressed driver.life driver.state.confirmedOff driver.config.imageSize, host.push .application)
  | some (.updater update) => host.emit update (.progress driver.state.confirmedOff driver.config.imageSize)

section
variable (codec : Codec) (env : Env)

def send (driver : UploadDriver) (origin : Option Origin) (request : Upload.UploadRequest) : Output × Host :=
  match env.read driver.source request.off request.length with
  | .error error => host.finishUpload driver origin (.error error)
  | .ok chunk =>
    if chunk.length ≠ request.length then
      host.finishUpload driver origin (.error (.at .invalidArgument "upload: source returned a short read"))
    else
      let driver := { driver with state := Upload.recordSent driver.state request }
      let (handle, host) :=
        host.ask (.driver driver.life) (driver.chunkSpec codec request chunk) true env.sent env.now
      (.quiet, host.keep { driver with request := handle })

/-- `UploadDriver::advance`. Without an origin a session has confirmed nothing it has not reported. -/
def advance (driver : UploadDriver) (origin : Option Origin) : Upload.Step → Output × Host
  | .sendChunk request => host.send codec env driver origin request
  | .complete match_ completedOnFirstPacket =>
    let result : UploadResult := ⟨driver.state.confirmedOff, completedOnFirstPacket, match_⟩
    match origin with
    | none => host.finishUpload driver none (.ok result)
    | some origin =>
      if driver.onProgress.isSome ∧ driver.state.confirmedOff ≠ driver.reportedOff then
        let driver := { driver with reportedOff := driver.state.confirmedOff }
        ((host.keep driver).push (.conclude origin driver.life result)).progress driver
      else
        host.finishUpload driver (some origin) (.ok result)
  | .fail error | .suspend error => host.finishUpload driver origin (.error error)

/-- `UploadDriver::handle`, if the driver still exists. Progress comes before the next chunk, which waits for the
application. -/
def handle (callback life : Nat) (response : Result RawResponse) : Output × Host :=
  match host.uploadDriver life with
  | none => (.quiet, host)
  | some driver =>
    if !driver.active then
      (.quiet, host)
    else
      let (step, state) := Upload.onResponse driver.config driver.state (decodeChunk codec response)
      let driver := { driver with request := {}, state := state }
      if sends step ∧ state.confirmedOff ≠ driver.reportedOff ∧ driver.onProgress.isSome then
        let driver := { driver with reportedOff := state.confirmedOff }
        ((host.keep driver).push (.advance (.reply callback) life step)).progress driver
      else
        host.advance codec env driver (some (.reply callback)) step

def uploadActive : Bool := host.image.upload.any fun driver => driver.active

def upload (source : Source) (options : UploadOptions) (onProgress onDone : Option Owner) : UploadHandle × Host :=
  if host.uploadActive then
    ({}, host.reject onDone (.at .invalidState "image: an upload is already running"))
  else
    match configure env source options with
    | .error error => ({}, host.reject onDone error)
    | .ok config =>
      let generation := host.image.uploadGeneration + 1
      let life := host.image.lives + 1
      let driver : UploadDriver :=
        { life := life, generation := generation, source := source, config := config
          firstChunkTimeout := options.firstChunkTimeout, finalChunkTimeout := options.finalChunkTimeout
          chunkTimeout := options.chunkTimeout, onProgress := onProgress, onDone := onDone, active := true }
      let host := { host with image := { upload := some driver, uploadGeneration := generation, lives := life } }
      let host := (host.advance codec env driver none (Upload.planNext config {})).2
      (if host.uploadActive then ⟨generation⟩ else {}, host)

def resume (handle : UploadHandle) (onDone : Option Owner) : UploadHandle × Host :=
  match host.uploadOf handle with
  | none => ({}, host.reject onDone (.at .invalidState "image: no upload to resume"))
  | some driver =>
    if !driver.resumable then
      ({}, host.reject onDone (.at .invalidState "image: no upload to resume"))
    else
      let (step, state) := Upload.resume driver.config driver.state
      let driver := { driver with onDone := onDone, active := true, state := state }
      (handle, (host.advance codec env driver none step).2)

def cancelUpload (handle : UploadHandle) : Host :=
  match host.uploadOf handle with
  | none => host
  | some driver =>
    if !driver.active then
      host
    else
      let host := { host with world := (host.world.enter (.cancel driver.request)).2 }
      host.keep { driver with request := {} }

def post (event : Dfu.Event) : Host := host.defer (.post host.updates event)

def start (targets : List ImageTarget) (plan : Plan) (onEvent : Bool) : Output × Host :=
  if host.updater.running then
    (.refused (.at .invalidState "updater: an update is already running"), host)
  else if !onEvent then
    (.refused (.at .invalidArgument "updater: no event callback"), host)
  else
    match validate targets plan with
    | .error error => (.refused error, host)
    | .ok () =>
      match targets.mapM (readTarget env) with
      | .error error => (.refused error, host)
      | .ok read =>
        let update := host.updates + 1
        let updater :=
          { host.updater with
            plan := plan, sources := read.map (·.2), onEvent := some update
            machine := some (.new (read.map (·.1)) plan.decisions), running := true }
        (.accepted, { host with updater := updater, updates := update }.post { kind := .start })

def confirm : Output × Host :=
  if host.updater.state ≠ .awaitingConfirmation then
    (.refused (.at .invalidState "updater: not awaiting confirmation"), host)
  else
    (.accepted, host.post { kind := .confirmApproved })

def resumeAfterReconnect : Output × Host :=
  if host.updater.state ≠ .awaitingReconnect then
    (.refused (.at .invalidState "updater: not awaiting a reconnect"), host)
  else
    (.accepted, host.post { kind := .reconnected })

def reconnectFailed (error : Error) : Host :=
  if !host.updater.running then host else host.post { kind := .reconnectFailed, error := error }

def cancel : Host :=
  if !host.updater.running then
    host
  else
    let host := if host.updater.upload.valid then host.cancelUpload host.updater.upload else host
    host.post { kind := .cancel }

def poll (now : TimePoint) : Host :=
  let host := { host with updater := { host.updater with lastPoll := now } }
  if !host.updater.running then
    host
  else if host.updater.state = .awaitingDisconnect ∧ host.world.client.connected = false then
    host.push (.dispatch .poll host.updates { kind := .disconnected })
  else if host.updater.nextDeadline.any (· ≤ now) then
    host.push (.dispatch .poll host.updates { kind := .tick })
  else
    host

/-- One turn of the loop in `dispatch`: the machine decides and the move is announced. -/
def turn (update : Nat) (machine : Dfu.Machine) (previous : Dfu.UpdateState) (event : Dfu.Event) : Output × Host :=
  let (step, machine) := machine.apply { event with now := host.updater.lastPoll }
  let host := { host with updater := { host.updater with machine := some machine } }.push (.carry update step)
  if step.next = previous then (.quiet, host) else host.emit update (.stateChanged previous step.next)

def dispatch (event : Dfu.Event) : Output × Host :=
  match host.updater.machine with
  | none => (.quiet, host)
  | some machine =>
    if !host.updater.running then (.quiet, host) else host.turn host.updates machine machine.state event

def query (update : Nat) (query : Query) : Output × Host :=
  (.quiet, (host.ask (.updater update query) (query.spec codec) true env.sent env.now).2)

/-- The source indexes without a check; past the end, or at a build that is not there, nothing happens here. -/
def sourceOf (step : Dfu.Step) : Option Source :=
  match host.updater.sources[step.target]? with
  | none => none
  | some (primary, secondary) => if step.build = 0 then some primary else secondary

def startUpload (update : Nat) (step : Dfu.Step) : Host :=
  let options := host.updater.plan.upload
  let options := { options with image := step.image }
  let options :=
    if options.serverBufSize.isNone ∧ step.bufSize ≠ 0 then { options with serverBufSize := some step.bufSize }
    else options
  match host.sourceOf step with
  | none => host
  | some source =>
    let (handle, host) := host.upload codec env source options (some (.updater update)) (some (.updater update))
    { host with updater := { host.updater with upload := handle } }

def FirmwareUpdater.outcome (updater : FirmwareUpdater) : Result Dfu.UpdateReport :=
  let report := updater.machine.elim {} Dfu.Machine.report
  if updater.state = .completed then .ok report
  else .error (report.cause.getD (.at .cancelled "updater: cancelled"))

/-- `FirmwareUpdater::Impl::finish`, up to the return of the application's callback. -/
def finish (update : Nat) : Output × Host :=
  let host := { host with updater := { host.updater with running := false } }
  (host.push .clear).emit update (.finished host.updater.outcome)

def clear : Host := { host with updater := { host.updater with onEvent := none, sources := [], upload := {} } }

def apply (update : Nat) (step : Dfu.Step) : Output × Host :=
  match step.effect with
  | .none | .continue | .awaitApply => (.quiet, host)
  | .queryParameters => host.query codec env update .parameters
  | .queryBootloader => host.query codec env update .bootloader
  | .readState => host.query codec env update .state
  | .startUpload => (.quiet, host.startUpload codec env update step)
  | .resumeUpload => (.quiet, (host.resume codec env host.updater.upload (some (.updater update))).2)
  | .markForTest => host.query codec env update (.markForTest step.hash)
  | .reset => host.query codec env update (.reset false)
  | .forceReset => host.query codec env update (.reset true)
  | .awaitDisconnect => host.emit update .disconnectExpected
  | .requestReconnect => host.emit update (.reconnectRequired host.updater.plan.reconnectHint)
  | .requestConfirmation => host.emit update .confirmationRequired
  | .confirm => host.query codec env update (.confirm step.hash)
  | .finish => host.finish update

def carry (update : Nat) (step : Dfu.Step) : Output × Host :=
  if step.effect = .continue then
    match host.updater.machine with
    | none => (.quiet, host)
    | some machine => host.turn update machine step.next { kind := .continue }
  else
    host.apply codec env update step

def answer (callback : Nat) (reply : Reply) (result : Result RawResponse) : Output × Host :=
  match reply with
  | .application => (.quiet, host.push .application)
  | .driver life => host.handle codec env callback life result
  | .updater update query => (.quiet, host.push (.dispatch (.reply callback) update (query.event codec result)))

/-- A deferred end of an upload is dropped with its driver. -/
def work (number : Nat) (job : Job) : Output × Host :=
  match job with
  | .application => (.quiet, host.push .application)
  | .post update event => (.quiet, host.push (.dispatch (.job number) update event))
  | .rejected owner error => host.tell (.job number) none owner (.error error)
  | .finished life owner result =>
    if (host.uploadDriver life).isSome then host.tell (.job number) (some life) owner result else (.quiet, host)

def execute : Task → Output × Host
  | .application => (.quiet, host)
  | .returning => (.quiet, { host with world := (host.world.proceed codec.extractMgmtError).2 })
  | .answer callback reply result => host.answer codec env callback reply result
  | .work number job => host.work number job
  | .advance origin life step =>
    match host.uploadDriver life with
    | none => (.quiet, host)
    | some driver => host.advance codec env driver (some origin) step
  | .conclude origin life result =>
    match host.uploadDriver life with
    | none => (.quiet, host)
    | some driver => host.finishUpload driver (some origin) (.ok result)
  | .dispatch _ _ event => host.dispatch event
  | .carry update step => host.carry codec env update step
  | .clear => (.quiet, host.clear)

def goOn : Output × Host :=
  let (output, world) := host.world.proceed codec.extractMgmtError
  let tasks : List Task :=
    match output with
    | .completed callback result => [.answer callback (host.replies.getD callback .application) result, .returning]
    | .worked number => [.work number (host.jobs.getD number .application), .returning]
    | _ => []
  (.quiet, { host with world := world, tasks := tasks ++ host.tasks })

/-- No function of the client is running, or it is waiting for a callback to return. -/
def controlled : Bool :=
  match host.world.stack with
  | [] => true
  | .callback :: _ => true
  | _ => false

def proceed : Output × Host :=
  if !host.controlled then
    host.goOn codec
  else
    match host.tasks with
    | [] => (.quiet, host)
    | task :: tasks => { host with tasks := tasks }.execute codec env task

def free : Bool :=
  host.controlled &&
    match host.tasks with
    | [] => true
    | .application :: _ => true
    | _ => false

/-- Calls into the client. Here it outlives the layers above it. -/
def enterClient : Smp.Call → Host
  | .request spec given sent now => (host.ask .application spec given sent now).2
  | .defer none => host
  | .defer (some _) => host.defer .application
  | .destroy => host
  | call => { host with world := (host.world.enter call).2 }

/-- The updater keeps the handles of its uploads to itself. -/
def owned (handle : UploadHandle) : Bool :=
  match host.uploadOf handle with
  | none => true
  | some driver => driver.onProgress matches none | some .application

def given (callback : Bool) : Option Owner := if callback then some .application else none

def enter : Call → Output × Host
  | .client call => (.quiet, host.enterClient call)
  | .start targets plan onEvent => host.start env targets plan onEvent
  | .confirm => host.confirm
  | .resumeAfterReconnect => host.resumeAfterReconnect
  | .reconnectFailed error => (.quiet, host.reconnectFailed error)
  | .cancel => (.quiet, host.cancel)
  | .poll now => (.quiet, host.poll now)
  | .upload source options onProgress onDone =>
    let (handle, host) := host.upload codec env source options (given onProgress) (given onDone)
    (.uploading handle, host)
  | .resumeUpload handle onDone =>
    if host.owned handle then
      let (handle, host) := host.resume codec env handle (given onDone)
      (.uploading handle, host)
    else
      (.quiet, host)
  | .cancelUpload handle => (.quiet, if host.owned handle then host.cancelUpload handle else host)

end

/-- A call nobody is in a position to make changes nothing. -/
def step (codec : Codec) (host : Host) : Event → Output × Host
  | .call call env => if host.free then host.enter codec env call else (.quiet, host)
  | .proceed env => host.proceed codec env

def new (transport : Nat) (config : SmpClientConfig) : Host := { world := .start transport config }

end Host

end Smply
