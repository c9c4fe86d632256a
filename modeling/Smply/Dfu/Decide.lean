import Smply.Dfu.Types

namespace Smply.Dfu

variable (plan : UpdatePlan) (c : Context)

/-- Terminal failure, with its cause. A scheduled swap stays scheduled, so the report says whether one is. -/
def Context.fail (error : Error) : Step × Context :=
  ({ next := .failed, effect := .finish },
    { c with report := { c.report with revertPending := c.swapScheduled, cause := some error } })

def Context.failAt (code : ErrorCode) (site : String) : Step × Context :=
  c.fail (Error.at code site)

def recordMode (reported : McubootMode) (plan : UpdatePlan) (report : UpdateReport) : UpdateReport :=
  if reported ≠ .unknown then { report with bootloaderMode := reported, modeSource := .reported }
  else match plan.fallbackMode with
    | some fallback =>
      if fallback ≠ .unknown then { report with bootloaderMode := fallback, modeSource := .supplied }
      else { report with bootloaderMode := .unknown, modeSource := .assumed }
    | none => { report with bootloaderMode := .unknown, modeSource := .assumed }

def modeRefusal : Option Refusal :=
  let acceptsNoRevert := plan.mode == .uploadOnly || plan.allowNoRevert
  match c.report.bootloaderMode with
  | .singleSlot | .firmwareLoader | .ramLoad | .singleSlotRamLoad => some .unsupportedMode
  | .upgradeOnly => if acceptsNoRevert then none else some .revertUnavailable
  | .directXip =>
    if 1 < c.targets.length then some .multiImageUnsupported
    else if acceptsNoRevert then none else some .revertUnavailable
  | .directXipWithRevert => if 1 < c.targets.length then some .multiImageUnsupported else none
  | .unknown | .swapUsingScratch | .swapUsingMove | .swapUsingOffset => none

/-- Direct-XIP without revert has no set-state handler: an image is never marked or confirmed. -/
def withoutSetState : Bool := c.report.bootloaderMode == .directXip

def older (image running : ImageVersion) : Bool :=
  if image.major ≠ running.major then image.major < running.major
  else if image.minor ≠ running.minor then image.minor < running.minor
  else image.revision < running.revision

def refusalText : Refusal → String
  | .revertUnavailable => "dfu: the bootloader cannot revert this update"
  | .downgrade => "dfu: the device refuses an image older than the one it runs"
  | .unsupportedMode => "dfu: no update path for this bootloader mode"
  | .multiImageUnsupported => "dfu: this bootloader mode updates one image only"

def activeOf (image : UInt32) : Option ImageSlot :=
  c.device.bind fun device => device.activeSlot image

def anythingPending (image : UInt32) : Bool :=
  match c.device with
  | none => false
  | some device => device.slots.any fun slot => slot.image == image && slot.pending

def holds (slot : Option ImageSlot) (target : Target) : Bool :=
  match slot with
  | none => false
  | some slot => !target.hash.empty && slot.hash == some target.hash

/-- Read only where `holds` has shown the slot to be there. -/
def isConfirmed (slot : Option ImageSlot) : Bool := slot.any (·.confirmed)

def slotHolding (target : Target) : Option ImageSlot :=
  c.device.bind fun device => device.slots.find? fun slot => slot.image == target.image && holds (some slot) target

def uploadOnly (plan : UpdatePlan) : Bool := plan.mode == .uploadOnly

def runningOnTrial (target : Target) : Bool :=
  let active := activeOf c target.image
  target.commit == .client && holds active target && !isConfirmed active

def isOlder (target : Target) : Bool :=
  match activeOf c target.image with
  | none => false
  | some running =>
    if holds (some running) target then false
    else match ImageVersion.parse running.version with
      | .error _ => false
      | .ok version => older target.version version

def isDowngrade : Bool :=
  if !plan.checkDowngrade || !c.noDowngrade then false
  else c.targets.any fun target => isOlder c target.toTarget

def Context.checkPreconditions : Option Step × Context :=
  if c.preconditionsChecked then (none, c)
  else
    let c := { c with preconditionsChecked := true }
    let refusal := match modeRefusal plan c with
      | some refusal => some refusal
      | none => if isDowngrade plan c then some .downgrade else none
    match refusal with
    | none => (none, c)
    | some refusal =>
      let (step, c) := { c with report := { c.report with refusal := some refusal } }.failAt
        .updateRefused (refusalText refusal)
      (some step, c)

def nextInTrial (start : Nat) : Nat :=
  match (c.targets.drop start).findIdx? (·.inTrial) with
  | some offset => start + offset
  | none => c.targets.length

/-- Ask, or confirm without asking. An application that has approved is not asked again. -/
def Context.confirmationFork : Step × Context :=
  let c := { c with current := nextInTrial c 0 }
  if plan.mode == .confirmImmediately || c.confirmApproved then
    ({ next := .confirming, effect := .confirm }, c)
  else ({ next := .awaitingConfirmation, effect := .requestConfirmation }, c)

inductive Apply where
  | applying
  | onTrial
  | committed
  | failed
  deriving DecidableEq, Repr

def applyOf (target : Target) : Apply :=
  let active := activeOf c target.image
  if holds active target then if isConfirmed active then .committed else .onTrial
  else match slotHolding c target with
    | some holder => if holder.pending then .applying else .failed
    | none => .failed

def Context.modifyImage (index : Nat) (f : ImageReport → ImageReport) : Context :=
  { c with report := { c.report with images := c.report.images.modify index f } }

def Context.setInTrial (index : Nat) (value : Bool) : Context :=
  { c with targets := c.targets.modify index fun target => { target with inTrial := value } }

def Context.awaitCommitLoop (c : Context) (committing : Bool) : Nat → List Image → Step × Context
  | _, [] =>
    if committing then ({ next := .awaitingDeviceCommit, effect := .awaitApply }, c)
    else ({ next := .completed, effect := .finish }, c)
  | index, target :: rest =>
    if target.commit ≠ .device then c.awaitCommitLoop committing (index + 1) rest
    else match applyOf c target.toTarget with
      | .committed =>
        (c.modifyImage index fun image => { image with applied := true, committed := true }).awaitCommitLoop
          committing (index + 1) rest
      | .onTrial =>
        (c.modifyImage index fun image => { image with applied := true }).awaitCommitLoop
          true (index + 1) rest
      | .applying | .failed =>
        -- It ran on trial and no longer does: the other MCU reverted it.
        (c.modifyImage index fun image => { image with applied := false }).failAt
          .updateFailed "dfu: device did not commit an image"

def Context.awaitCommit : Step × Context := c.awaitCommitLoop false 0 c.targets

def Context.awaitDeviceLoop (plan : UpdatePlan) (c : Context) (applying : Bool) :
    Nat → List Image → Step × Context
  | _, [] =>
    if applying then ({ next := .awaitingDeviceApply, effect := .awaitApply }, c)
    else if !c.swapScheduled then
      -- No `Client` image is on trial, so no confirm will come: the device commits on its own.
      c.awaitCommit
    else c.confirmationFork plan
  | index, target :: rest =>
    if target.commit ≠ .device then c.awaitDeviceLoop plan applying (index + 1) rest
    else match applyOf c target.toTarget with
      | .committed =>
        (c.modifyImage index fun image => { image with committed := true, applied := true }).awaitDeviceLoop
          plan applying (index + 1) rest
      | .onTrial =>
        (c.modifyImage index fun image => { image with applied := true }).awaitDeviceLoop
          plan applying (index + 1) rest
      | .applying => c.awaitDeviceLoop plan true (index + 1) rest
      | .failed => c.failAt .updateFailed "dfu: device did not apply an image"

def Context.awaitDevice : Step × Context :=
  c.awaitDeviceLoop plan false 0 c.targets

/-- A failed read while waiting on the device: a drop asks for a reconnect, a lost answer is asked
again. -/
def Context.waitReadFailed (state : UpdateState) (error : Error) : Step × Context :=
  if error.code = .disconnected then ({ next := .awaitingReconnect, effect := .requestReconnect }, c)
  else if error.code = .timeout then ({ next := state, effect := .awaitApply }, c)
  else c.fail error

def Context.confirmFailed (error : Error) : Step × Context :=
  let c := { c with swapScheduled := true }
  if error.code = .disconnected then ({ next := .awaitingReconnect, effect := .requestReconnect }, c)
  else if error.code = .timeout && !c.confirmReread then
    ({ next := .verifyingBooted, effect := .readState }, { c with confirmReread := true })
  else c.fail error

/-- The second loop of `inspectBoot`, with its two flags `reverted` and `notBooted`. -/
def Context.bootLoop (c : Context) (reverted notBooted : Bool) : Nat → List Image → Context × Bool × Bool
  | _, [] => (c, reverted, notBooted)
  | index, target :: rest =>
    let c := c.setInTrial index false
    if target.commit ≠ .client then c.bootLoop reverted notBooted (index + 1) rest
    else
      let active := activeOf c target.image
      if !holds active target.toTarget then
        -- Running something else with nothing queued is a revert; with something pending the swap
        -- simply has not happened.
        if anythingPending c target.image then c.bootLoop reverted true (index + 1) rest
        else
          (c.modifyImage index fun image => { image with rolledBack := true }).bootLoop
            true notBooted (index + 1) rest
      else
        (c.setInTrial index (!withoutSetState c && !isConfirmed active)).bootLoop
          reverted notBooted (index + 1) rest

def Context.inspectBoot : Step × Context :=
  if c.targets.any fun target => target.commit == .client && (activeOf c target.image).isNone then
    c.failAt .updateFailed "dfu: no active slot after reboot"
  else
    let (c, reverted, notBooted) := c.bootLoop false false 0 c.targets
    let c := { c with swapScheduled := notBooted || nextInTrial c 0 < c.targets.length }
    if reverted then c.failAt .updateFailed "dfu: device reverted to the old image"
    else if notBooted then c.failAt .updateFailed "dfu: device did not boot the new image"
    else c.awaitDevice plan

def Context.staged : Step × Context :=
  if uploadOnly plan then ({ next := .completed, effect := .finish }, c)
  else if c.swapScheduled then
    match c.checkPreconditions plan with
    | (some refused, c) => (refused, c)
    | (none, c) => ({ next := .resetting, effect := .reset }, c)
  else c.inspectBoot plan

def listedSlot (image global : UInt32) : Option ImageSlot :=
  c.device.bind fun device => device.slots.find? fun slot => slot.image == image && slot.slot == global

def buildTurn (target : Target) (choice : Nat × Bool) (index : Nat) (build : Build) : Nat × Bool :=
  match listedSlot c target.image (target.image * 2 + UInt32.ofNat index) with
  | none => choice
  | some slot =>
    if slot.hash ≠ some build.hash then choice
    else if !choice.2 || some slot = activeOf c target.image then (index, true)
    else choice

/-- A build already in its own slot wins, the running one first; else the free slot's build. -/
def pickBuild (target : Target) (builds : Build × Build) : Nat :=
  let free := match activeOf c target.image with
    | some running => if running.slot = target.image * 2 + 1 then 0 else 1
    | none => 1
  (buildTurn c target (buildTurn c target (free, false) 0 builds.1) 1 builds.2).1

def Context.chooseBuild : Option Step × Context :=
  match c.targets[c.current]? with
  | none => (none, c)
  | some target =>
    match target.builds with
    | none => (none, c)
    | some builds =>
      if target.chosenKnown then (none, c)
      else if c.report.bootloaderMode ≠ .directXip && c.report.bootloaderMode ≠ .directXipWithRevert then
        let (step, c) := c.failAt .invalidArgument "dfu: one file per slot needs a direct-XIP device"
        (some step, c)
      else
        let chosen := pickBuild c target.toTarget builds
        let build := if chosen = 0 then builds.1 else builds.2
        let c := { c with targets := c.targets.modify c.current fun target =>
          { target with chosen := chosen, chosenKnown := true, hash := build.hash, version := build.version } }
        (none, c.modifyImage c.current fun image => { image with targetHash := build.hash })

def Context.nextTarget : Step × Context :=
  let c := { c with current := c.current + 1, markRetried := false }
  if c.current < c.targets.length then ({ next := .planning, effect := .continue }, c)
  else c.staged plan

def Context.markOrSkip : Step × Context :=
  if withoutSetState c then { c with swapScheduled := true }.nextTarget plan
  else ({ next := .markingForTest, effect := .markForTest }, c)

def Context.startUpload : Option Step × Context :=
  match c.checkPreconditions plan with
  | (some refused, c) => (some refused, c)
  | (none, c) => (some { next := .uploading, effect := .startUpload }, { c with uploadInProgress := true })

/-- One image of the planning loop; no step means `continue`. -/
def Context.planTurn : Option Step × Context :=
  match c.chooseBuild with
  | (some failed, c) => (some failed, c)
  | (none, c) =>
    match c.targets[c.current]? with
    | none => (none, c)
    | some target =>
      let skipped := c.modifyImage c.current fun image => { image with uploadSkipped := true }
      match slotHolding c target.toTarget with
      | some holder =>
        -- 1. The device is already running it.
        if some holder = activeOf c target.image then (none, skipped)
        -- 2. Another slot holds it, already marked for the next boot.
        else if holder.pending then
          let c := skipped.modifyImage c.current fun image => { image with uploadSlot := some holder.slot }
          (none, { c with swapScheduled := c.swapScheduled || !uploadOnly plan })
        -- 3. Another slot holds it, unmarked.
        else if plan.skipIfAlreadyPresent then
          if uploadOnly plan then (none, skipped)
          else match skipped.checkPreconditions plan with
            | (some refused, c) => (some refused, c)
            | (none, c) =>
              let (step, c) := (c.modifyImage c.current fun image =>
                { image with uploadSlot := some holder.slot }).markOrSkip plan
              (some step, c)
        else c.startUpload plan
      | none => c.startUpload plan

def Context.planLoop (plan : UpdatePlan) : Nat → Context → Step × Context
  | 0, c => c.staged plan
  | left + 1, c =>
    match c.planTurn plan with
    | (some step, c) => (step, c)
    | (none, c) => Context.planLoop plan left { c with current := c.current + 1 }

def Context.planFromState : Step × Context :=
  -- A `Client` image running its file on trial means the reset has already happened. Staging
  -- anything now would need another reset, and that would revert the trial.
  let afterReset := c.current == 0 && c.targets.any fun target => runningOnTrial c target.toTarget
  if afterReset && !uploadOnly plan then
    let images := c.report.images.map fun image => { image with uploadSkipped := true }
    { c with report := { c.report with images := images } }.inspectBoot plan
  else c.planLoop plan (c.targets.length - c.current)

end Smply.Dfu
