import Smply.Smp.Reentry
import Smply.Upload.Session
import Smply.Dfu.Machine

namespace Smply

namespace Limits

def uploadChunkMin : Nat := 32
def uploadChunkMax : Nat := 512
def maxImageSize : Nat := 16 * 1024 * 1024

end Limits

namespace Host

abbrev Source := Nat

structure TargetFile where
  hash : ImageHash
  version : ImageVersion

/-- What the outside answers in one step: the sources, `compute_chunk_size` for the transport in use, `Transport::send`,
the clock. -/
structure Env where
  size : Source → Nat := fun _ => 0
  digest : Source → Result Bytes := fun _ => .ok []
  read : Source → Nat → Nat → Result Bytes := fun _ _ length => .ok (List.replicate length 0)
  file : Source → Result TargetFile := fun _ => .ok ⟨.blank, {}⟩
  chunk : Option UInt32 → Result Nat := fun _ => .ok Limits.uploadChunkMax
  sent : Result Unit := .ok ()
  now : TimePoint := 0

structure UploadOptions where
  image : UInt32 := 0
  upgradeOnly : Bool := false
  sha : Option Bytes := none
  chunkSize : UInt32 := 0
  serverBufSize : Option UInt32 := none
  maxChunkRetries : UInt32 := 3
  maxRestarts : UInt32 := 2
  maxNoProgress : UInt32 := 3
  firstChunkTimeout : Duration := 30000
  finalChunkTimeout : Duration := 30000
  chunkTimeout : Duration := 5000

/-- The whole `UpdatePlan`: the part the machine decides on, and the part only the updater reads. -/
structure Plan where
  decisions : Dfu.UpdatePlan := {}
  upload : UploadOptions := {}
  reconnectHint : Duration := 3000

structure ImageTarget where
  image : UInt32 := 0
  commit : Dfu.CommitBy := .client
  source : Option Source := none
  secondarySource : Option Source := none

structure UploadHandle where
  generation : UInt64 := 0
  deriving DecidableEq, Repr

def UploadHandle.valid (handle : UploadHandle) : Bool := handle.generation != 0

structure UploadResult where
  transferred : Nat := 0
  alreadyPresent : Bool := false
  match_ : Option Bool := none
  deriving DecidableEq, Repr

/-- Who handed in a callback. Updates are numbered as `start()` accepts them; the source keeps no such number. -/
inductive Owner where
  | application
  | updater (update : Nat)
  deriving DecidableEq, Repr

inductive Query where
  | parameters
  | bootloader
  | state
  | markForTest (hash : ImageHash)
  | confirm (hash : ImageHash)
  | reset (force : Bool)
  deriving DecidableEq, Repr

/-- The function object of a request, by what it captures. -/
inductive Reply where
  | application
  | driver (life : Nat)
  | updater (update : Nat) (query : Query)
  deriving DecidableEq, Repr

/-- The function object of deferred work, by what it captures. -/
inductive Job where
  | application
  | post (update : Nat) (event : Dfu.Event)
  | rejected (owner : Owner) (error : Error)
  | finished (life : Nat) (owner : Owner) (result : Result UploadResult)

/-- What set a piece of work going: the client ran a callback or deferred work, or the updater was polled. -/
inductive Origin where
  | reply (callback : Nat)
  | job (work : Nat)
  | poll
  deriving DecidableEq, Repr

/-- A function above the client that has not returned, by what it still has to do. -/
inductive Task where
  | application
  | returning
  | answer (callback : Nat) (reply : Reply) (result : Result Smp.RawResponse)
  | work (work : Nat) (job : Job)
  | advance (origin : Origin) (life : Nat) (step : Upload.Step)
  | conclude (origin : Origin) (life : Nat) (result : UploadResult)
  | dispatch (origin : Origin) (update : Nat) (event : Dfu.Event)
  | carry (update : Nat) (step : Dfu.Step)
  | clear

/-- `UploadDriver`, with its upload's generation. That it still exists, `life_` in the source, is asked of `life`, which
is its own. -/
structure UploadDriver where
  life : Nat
  generation : UInt64
  source : Source
  config : Upload.UploadConfig Bytes
  firstChunkTimeout : Duration
  finalChunkTimeout : Duration
  chunkTimeout : Duration
  onProgress : Option Owner
  onDone : Option Owner
  state : Upload.UploadState := {}
  request : Smp.RequestHandle := {}
  reportedOff : Nat := 0
  active : Bool := false

structure ImageManagement where
  upload : Option UploadDriver := none
  uploadGeneration : UInt64 := 0
  lives : Nat := 0

structure FirmwareUpdater where
  plan : Plan := {}
  sources : List (Source × Option Source) := []
  onEvent : Option Nat := none
  upload : UploadHandle := {}
  machine : Option Dfu.Machine := none
  running : Bool := false
  lastPoll : TimePoint := 0

def FirmwareUpdater.state (updater : FirmwareUpdater) : Dfu.UpdateState :=
  match updater.machine with
  | none => .idle
  | some machine => machine.state

def FirmwareUpdater.nextDeadline (updater : FirmwareUpdater) : Option TimePoint :=
  updater.machine.bind Dfu.Machine.nextDeadline

inductive UpdateEvent where
  | stateChanged (from_ to_ : Dfu.UpdateState)
  | progress (transferred total : Nat)
  | disconnectExpected
  | reconnectRequired (hint : Duration)
  | confirmationRequired
  | finished (result : Result Dfu.UpdateReport)

inductive Call where
  | client (call : Smp.Call)
  | start (targets : List ImageTarget) (plan : Plan) (onEvent : Bool)
  | confirm
  | resumeAfterReconnect
  | reconnectFailed (error : Error)
  | cancel
  | poll (now : TimePoint)
  | upload (source : Source) (options : UploadOptions) (onProgress onDone : Bool)
  | resumeUpload (handle : UploadHandle) (onDone : Bool)
  | cancelUpload (handle : UploadHandle)

/-- Whoever has control calls in, or the innermost function goes on. -/
inductive Event where
  | call (call : Call) (env : Env)
  | proceed (env : Env)

/-- What the application sees of a step. An event goes to the callback of some `start()` and comes from some update. -/
inductive Output where
  | quiet
  | accepted
  | refused (error : Error)
  | uploading (handle : UploadHandle)
  | emitted (listener update : Nat) (event : UpdateEvent)
  | progressed (life transferred total : Nat)
  | finished (life : Option Nat) (owner : Owner) (result : Result UploadResult)

structure Codec where
  extractMgmtError : Bytes → Result Smp.MgmtOutcome
  chunk : Upload.UploadConfig Bytes → Upload.UploadRequest → Bytes → Bytes
  offset : Bytes → Result (Option Nat × Option Bool)
  query : Query → Bytes
  parameters : Bytes → Result UInt32
  bootloader : Bytes → Result Dfu.BootloaderMode
  slots : Bytes → Result ImageState

end Host

/-- The client, image group and updater of one application, and the functions above the client that run, innermost
first. -/
structure Host where
  world : Smp.World
  replies : List Host.Reply := []
  jobs : List Host.Job := []
  image : Host.ImageManagement := {}
  updater : Host.FirmwareUpdater := {}
  updates : Nat := 0
  tasks : List Host.Task := []

end Smply
