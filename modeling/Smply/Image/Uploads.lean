import Smply.Host.Step

namespace Smply

namespace Uploads

open Host (Env UploadOptions UploadHandle UploadResult Codec Source)
open Smp (RawResponse RequestSpec RequestHandle SmpClientConfig World)

/-- The driver of an upload, with the number of the callback in `on_done_`; callbacks are numbered as they are passed
in. -/
structure Driver extends Host.UploadDriver where
  callback : Option Nat

inductive Reply where
  | application
  | driver (life : Nat)
  deriving DecidableEq, Repr

inductive Job where
  | application
  | rejected (callback : Nat) (error : Error)
  | finished (life callback : Nat) (result : Result UploadResult)

inductive Task where
  | application
  | returning
  | advance (life : Nat) (step : Upload.Step)
  | conclude (life : Nat) (result : UploadResult)

inductive Call where
  | client (call : Smp.Call)
  | upload (source : Source) (options : UploadOptions) (onProgress onDone : Bool)
  | resume (handle : UploadHandle) (onDone : Bool)
  | cancel (handle : UploadHandle)
  | destroy

inductive Event where
  | call (call : Call) (env : Env)
  | proceed (env : Env)

inductive Output where
  | quiet
  | uploading (handle : UploadHandle)
  | progressed (transferred total : Nat)
  | called (callback : Nat) (result : Result UploadResult)

end Uploads

/-- A client and an `ImageManagement` on it, and the functions above the client that run, innermost first. -/
structure Uploads where
  world : Smp.World
  replies : List Uploads.Reply := []
  jobs : List Uploads.Job := []
  upload : Option Uploads.Driver := none
  uploadGeneration : UInt64 := 0
  lives : Nat := 0
  passed : Nat := 0
  closed : Bool := false
  tasks : List Uploads.Task := []

namespace Uploads

open Host (Env UploadOptions UploadHandle UploadResult Codec Source)
open Smp (RawResponse RequestSpec RequestHandle SmpClientConfig World)

variable (desk : Uploads)

def push (task : Task) : Uploads := { desk with tasks := task :: desk.tasks }

def defer (job : Job) : Uploads :=
  { desk with world := (desk.world.enter (.defer (some desk.jobs.length))).2, jobs := desk.jobs ++ [job] }

def ask (reply : Reply) (spec : RequestSpec) (given : Bool) (sent : Result Unit) (now : TimePoint) :
    RequestHandle × Uploads :=
  let entered := desk.world.enter (.request spec given sent now)
  (Host.handed entered.1, { desk with world := entered.2, replies := desk.replies ++ [reply] })

def take (given : Bool) : Option Nat × Uploads :=
  if given then (some desk.passed, { desk with passed := desk.passed + 1 }) else (none, desk)

def reject (callback : Option Nat) (error : Error) : Uploads :=
  match callback with
  | none => desk
  | some callback => desk.defer (.rejected callback error)

def keep (driver : Driver) : Uploads := { desk with upload := some driver }

def driverOf (life : Nat) : Option Driver := desk.upload.filter fun driver => driver.life = life

def uploadOf (handle : UploadHandle) : Option Driver :=
  desk.upload.filter fun driver => driver.generation = handle.generation

def tell (callback : Nat) (result : Result UploadResult) : Output × Uploads :=
  (.called callback result, desk.push .application)

def finish (driver : Driver) (starting : Bool) (outcome : Result UploadResult) : Output × Uploads :=
  if !driver.active then
    (.quiet, desk.keep driver)
  else
    let desk := desk.keep { driver with active := false, callback := none }
    match driver.callback with
    | none => (.quiet, desk)
    | some callback =>
      if starting then (.quiet, desk.defer (.finished driver.life callback outcome)) else desk.tell callback outcome

def progress (driver : Driver) : Output × Uploads :=
  if driver.onProgress.isSome then
    (.progressed driver.state.confirmedOff driver.config.imageSize, desk.push .application)
  else
    (.quiet, desk)

section
variable (codec : Codec) (env : Env)

def send (driver : Driver) (starting : Bool) (request : Upload.UploadRequest) : Output × Uploads :=
  match env.read driver.source request.off request.length with
  | .error error => desk.finish driver starting (.error error)
  | .ok chunk =>
    if chunk.length ≠ request.length then
      desk.finish driver starting (.error (.at .invalidArgument "upload: source returned a short read"))
    else
      let driver := { driver with state := Upload.recordSent driver.state request }
      let (handle, desk) := desk.ask (.driver driver.life) (driver.chunkSpec codec request chunk) true env.sent env.now
      (.quiet, desk.keep { driver with request := handle })

def advance (driver : Driver) (starting : Bool) : Upload.Step → Output × Uploads
  | .sendChunk request => desk.send codec env driver starting request
  | .complete match_ completedOnFirstPacket =>
    let result : UploadResult := ⟨driver.state.confirmedOff, completedOnFirstPacket, match_⟩
    if !starting ∧ driver.onProgress.isSome ∧ driver.state.confirmedOff ≠ driver.reportedOff then
      let driver := { driver with reportedOff := driver.state.confirmedOff }
      ((desk.keep driver).push (.conclude driver.life result)).progress driver
    else
      desk.finish driver starting (.ok result)
  | .fail error | .suspend error => desk.finish driver starting (.error error)

def handle (life : Nat) (response : Result RawResponse) : Output × Uploads :=
  match desk.driverOf life with
  | none => (.quiet, desk)
  | some driver =>
    if !driver.active then
      (.quiet, desk)
    else
      let (step, state) := Upload.onResponse driver.config driver.state (Host.decodeChunk codec response)
      let driver := { driver with request := {}, state := state }
      if Host.sends step ∧ state.confirmedOff ≠ driver.reportedOff ∧ driver.onProgress.isSome then
        let driver := { driver with reportedOff := state.confirmedOff }
        ((desk.keep driver).push (.advance life step)).progress driver
      else
        desk.advance codec env driver false step

def uploading : Bool := desk.upload.any fun driver => driver.active

/-- `ImageManagement::upload`. A driver that is there already is destroyed. -/
def start (source : Source) (options : UploadOptions) (onProgress onDone : Bool) : UploadHandle × Uploads :=
  let (callback, desk) := desk.take onDone
  if desk.uploading then
    ({}, desk.reject callback (.at .invalidState "image: an upload is already running"))
  else
    match Host.configure env source options with
    | .error error => ({}, desk.reject callback error)
    | .ok config =>
      let generation := desk.uploadGeneration + 1
      let life := desk.lives + 1
      let driver : Driver :=
        { life := life, generation := generation, source := source, config := config
          firstChunkTimeout := options.firstChunkTimeout, finalChunkTimeout := options.finalChunkTimeout
          chunkTimeout := options.chunkTimeout, onProgress := if onProgress then some .application else none
          onDone := none, active := true, callback := callback }
      let desk := { desk with upload := some driver, uploadGeneration := generation, lives := life }
      let desk := (desk.advance codec env driver true (Upload.planNext config {})).2
      (if desk.uploading then ⟨generation⟩ else {}, desk)

def resume (handle : UploadHandle) (onDone : Bool) : UploadHandle × Uploads :=
  let (callback, desk) := desk.take onDone
  match desk.uploadOf handle with
  | none => ({}, desk.reject callback (.at .invalidState "image: no upload to resume"))
  | some driver =>
    if !driver.resumable then
      ({}, desk.reject callback (.at .invalidState "image: no upload to resume"))
    else
      let (step, state) := Upload.resume driver.config driver.state
      let driver := { driver with callback := callback, active := true, state := state }
      (handle, (desk.advance codec env driver true step).2)

def cancel (handle : UploadHandle) : Uploads :=
  match desk.uploadOf handle with
  | none => desk
  | some driver =>
    if !driver.active then
      desk
    else
      let desk := { desk with world := (desk.world.enter (.cancel driver.request)).2 }
      desk.keep { driver with request := {} }

/-- `~ImageManagement`, with `UploadDriver::abandon`. A later use of the group comes to nothing here. -/
def destroy : Output × Uploads :=
  let gone := { desk with upload := none, closed := true }
  match desk.upload with
  | none => (.quiet, gone)
  | some driver =>
    if !driver.active then
      (.quiet, gone)
    else
      let gone := { gone with world := (desk.world.enter (.cancel driver.request)).2 }
      match driver.callback with
      | none => (.quiet, gone)
      | some callback => gone.tell callback (.error (.at .cancelled "upload: image management destroyed"))

def answer (reply : Reply) (result : Result RawResponse) : Output × Uploads :=
  match reply with
  | .application => (.quiet, desk.push .application)
  | .driver life => desk.handle codec env life result

def work (job : Job) : Output × Uploads :=
  match job with
  | .application => (.quiet, desk.push .application)
  | .rejected callback error => desk.tell callback (.error error)
  | .finished life callback result => if (desk.driverOf life).isSome then desk.tell callback result else (.quiet, desk)

def goOn : Output × Uploads :=
  let (output, world) := desk.world.proceed codec.extractMgmtError
  let called : Uploads := { desk with world := world, tasks := .returning :: desk.tasks }
  match output with
  | .completed callback result => called.answer codec env (desk.replies.getD callback .application) result
  | .worked number => called.work (desk.jobs.getD number .application)
  | _ => (.quiet, { desk with world := world })

def execute : Task → Output × Uploads
  | .application => (.quiet, desk)
  | .returning => (.quiet, { desk with world := (desk.world.proceed codec.extractMgmtError).2 })
  | .advance life step =>
    match desk.driverOf life with
    | none => (.quiet, desk)
    | some driver => desk.advance codec env driver false step
  | .conclude life result =>
    match desk.driverOf life with
    | none => (.quiet, desk)
    | some driver => desk.finish driver false (.ok result)

def controlled : Bool :=
  match desk.world.stack with
  | [] => true
  | .callback :: _ => true
  | _ => false

def proceed : Output × Uploads :=
  if !desk.controlled then
    desk.goOn codec env
  else
    match desk.tasks with
    | [] => (.quiet, desk)
    | task :: tasks => { desk with tasks := tasks }.execute codec env task

def free : Bool :=
  desk.controlled &&
    match desk.tasks with
    | [] => true
    | .application :: _ => true
    | _ => false

/-- Calls into the client. It is destroyed after the group, and from no callback. -/
def enterClient (call : Smp.Call) : Uploads :=
  if !desk.world.callable call then
    desk
  else
    match call with
    | .request spec given sent now => (desk.ask .application spec given sent now).2
    | .defer none => desk
    | .defer (some _) => desk.defer .application
    | .destroy => if desk.closed ∧ desk.tasks.isEmpty then { desk with world := (desk.world.enter .destroy).2 } else desk
    | call => { desk with world := (desk.world.enter call).2 }

def enter : Call → Output × Uploads
  | .client call => (.quiet, desk.enterClient call)
  | .upload source options onProgress onDone =>
    if desk.closed then
      (.quiet, desk)
    else
      let (handle, desk) := desk.start codec env source options onProgress onDone
      (.uploading handle, desk)
  | .resume handle onDone =>
    if desk.closed then
      (.quiet, desk)
    else
      let (handle, desk) := desk.resume codec env handle onDone
      (.uploading handle, desk)
  | .cancel handle => (.quiet, if desk.closed then desk else desk.cancel handle)
  | .destroy => if desk.closed then (.quiet, desk) else desk.destroy

end

def step (codec : Codec) (desk : Uploads) : Event → Output × Uploads
  | .call call env => if desk.free then desk.enter codec env call else (.quiet, desk)
  | .proceed env => desk.proceed codec env

def new (transport : Nat) (config : SmpClientConfig) : Uploads := { world := .start transport config }

end Uploads

end Smply
