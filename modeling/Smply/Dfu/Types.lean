import Smply.Image.Slots

namespace Smply.Dfu

inductive McubootMode where
  | unknown
  | singleSlot
  | swapUsingScratch
  | upgradeOnly
  | swapUsingMove
  | directXip
  | directXipWithRevert
  | ramLoad
  | firmwareLoader
  | singleSlotRamLoad
  | swapUsingOffset
  deriving DecidableEq, Repr

structure BootloaderMode where
  mode : McubootMode := .unknown
  rawMode : Int := -1
  noDowngrade : Bool := false
  deriving DecidableEq, Repr

inductive UpdateMode where
  | testThenConfirm
  | confirmImmediately
  | uploadOnly
  deriving DecidableEq, Repr

inductive UpdateState where
  | idle
  | queryingParameters
  | queryingBootloader
  | inspectingImages
  | planning
  | uploading
  | verifyingUpload
  | markingForTest
  | resetting
  | awaitingDisconnect
  | awaitingReconnect
  | verifyingBooted
  | awaitingDeviceApply
  | awaitingConfirmation
  | confirming
  | verifyingConfirmed
  | awaitingDeviceCommit
  | completed
  | failed
  | cancelled
  deriving DecidableEq, Repr

def isTerminal (state : UpdateState) : Bool :=
  state == .completed || state == .failed || state == .cancelled

inductive ModeSource where
  | reported
  | supplied
  | assumed
  deriving DecidableEq, Repr

inductive Refusal where
  | revertUnavailable
  | downgrade
  | unsupportedMode
  | multiImageUnsupported
  deriving DecidableEq, Repr

inductive CommitBy where
  | client
  | device
  deriving DecidableEq, Repr

/-- The fields of the plan that decisions read. The others are the updater's. -/
structure UpdatePlan where
  mode : UpdateMode := .testThenConfirm
  fallbackMode : Option McubootMode := none
  allowNoRevert : Bool := false
  checkDowngrade : Bool := true
  skipIfAlreadyPresent : Bool := true
  disconnectGrace : Duration := 10000
  applyTimeout : Duration := 300000
  applyPollInterval : Duration := 2000
  deriving DecidableEq, Repr

structure ImageReport where
  image : UInt32 := 0
  commit : CommitBy := .client
  targetHash : ImageHash := .blank
  bytesTransferred : UInt64 := 0
  uploadSkipped : Bool := false
  uploadSlot : Option UInt32 := none
  rolledBack : Bool := false
  applied : Bool := false
  committed : Bool := false
  deriving DecidableEq, Repr

structure UpdateReport where
  finalState : UpdateState := .idle
  bytesTransferred : UInt64 := 0
  uploadSkipped : Bool := false
  targetHash : Option ImageHash := none
  finalDeviceState : Option ImageState := none
  cause : Option Error := none
  rolledBack : Bool := false
  uploadSlot : Option UInt32 := none
  revertPending : Bool := false
  bootloaderMode : McubootMode := .unknown
  modeSource : ModeSource := .assumed
  refusal : Option Refusal := none
  images : List ImageReport := []
  deriving DecidableEq, Repr

structure Build where
  hash : ImageHash
  version : ImageVersion
  deriving DecidableEq, Repr

/-- One image of the update. `builds` is primary then secondary. -/
structure Target where
  image : UInt32 := 0
  commit : CommitBy := .client
  hash : ImageHash := .blank
  version : ImageVersion := {}
  builds : Option (Build × Build) := none
  deriving DecidableEq, Repr

structure Image extends Target where
  chosen : Nat := 0
  chosenKnown : Bool := false
  inTrial : Bool := false
  deriving DecidableEq, Repr

inductive Effect where
  | none
  | continue
  | queryParameters
  | queryBootloader
  | readState
  | startUpload
  | resumeUpload
  | markForTest
  | reset
  | forceReset
  | awaitDisconnect
  | requestReconnect
  | awaitApply
  | requestConfirmation
  | confirm
  | finish
  deriving DecidableEq, Repr

inductive EventKind where
  | start
  | continue
  | parametersRead
  | parametersUnavailable
  | bootloaderRead
  | stateRead
  | uploadFinished
  | uploadSuspended
  | markedForTest
  | resetAccepted
  | disconnected
  | reconnected
  | reconnectFailed
  | tick
  | confirmApproved
  | confirmed
  | failed
  | cancel
  deriving DecidableEq, Repr

structure Event where
  kind : EventKind
  now : TimePoint := 0
  bufSize : UInt32 := 0
  bootloader : BootloaderMode := {}
  state : Option ImageState := none
  transferred : UInt64 := 0
  alreadyPresent : Bool := false
  error : Error := {}
  deriving DecidableEq, Repr

structure Step where
  next : UpdateState
  effect : Effect := .none
  target : Nat := 0
  build : Nat := 0
  image : UInt32 := 0
  bufSize : UInt32 := 0
  hash : ImageHash := .blank
  deriving DecidableEq, Repr

structure Context where
  targets : List Image := []
  current : Nat := 0
  device : Option ImageState := none
  bufSize : UInt32 := 0
  noDowngrade : Bool := false
  report : UpdateReport := {}
  uploadInProgress : Bool := false
  swapScheduled : Bool := false
  markRetried : Bool := false
  resetForced : Bool := false
  confirmApproved : Bool := false
  confirmReread : Bool := false
  preconditionsChecked : Bool := false
  graceDeadline : Option TimePoint := none
  applyPoll : Option TimePoint := none
  applyDeadline : Option TimePoint := none
  applyPhase : Option UpdateState := none
  deriving DecidableEq, Repr

end Smply.Dfu
