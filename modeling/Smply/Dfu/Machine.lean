import Smply.Dfu.Decide
import Smply.Systems.Run

namespace Smply.Dfu

def UpdateReport.summarise (report : UpdateReport) : UpdateReport :=
  match report.images with
  | [] => report
  | first :: _ =>
    { report with
      bytesTransferred := report.images.foldl (fun sum image => sum + image.bytesTransferred) 0
      uploadSkipped := report.images.all (·.uploadSkipped)
      rolledBack := report.images.any (·.rolledBack)
      uploadSlot := first.uploadSlot }

def Context.summarise (c : Context) : Context := { c with report := c.report.summarise }

def Context.uploadFinished (c : Context) (event : Event) (plan : UpdatePlan) : Step × Context :=
  let c := { c with uploadInProgress := false }
  let c := c.modifyImage c.current fun image =>
    { image with
      bytesTransferred := event.transferred
      uploadSkipped := image.uploadSkipped || event.alreadyPresent }
  if uploadOnly plan then c.nextTarget plan
  else ({ next := .verifyingUpload, effect := .readState }, c)

/-- `MarkingForTest`, refused: recover once from a lost response. A v1 server drops the group, hence the flat
`BadState`. -/
def Context.markRefused (c : Context) (error : Error) : Step × Context :=
  let recoverable := imageError error == some ImageError.imageAlreadyPending ||
    smpError error == some SmpError.badState
  if recoverable && !c.markRetried then
    ({ next := .inspectingImages, effect := .readState }, { c with markRetried := true })
  else c.fail error

/-- `Resetting`, refused. A lost answer counts as a reset: the verify after the reboot is the real check. -/
def Context.resetRefused (c : Context) (error : Error) : Step × Context :=
  if smpError error == some SmpError.busy && !c.resetForced then
    ({ next := .resetting, effect := .forceReset }, { c with resetForced := true })
  else if error.code = .disconnected || error.code = .timeout then
    ({ next := .awaitingDisconnect, effect := .awaitDisconnect }, c)
  else c.fail error

def needsCurrent (state : UpdateState) : Bool :=
  state == .uploading || state == .verifyingUpload || state == .markingForTest || state == .confirming

def namesCurrent (effect : Effect) : Bool :=
  effect == .startUpload || effect == .markForTest || effect == .confirm

def carriesTable (kind : EventKind) : Bool :=
  kind == .stateRead || kind == .markedForTest || kind == .confirmed

def Step.parameterise (step : Step) (c : Context) : Step :=
  match step.effect with
  | .startUpload =>
    match c.targets[c.current]? with
    | none => step
    | some target =>
      { step with target := c.current, build := target.chosen, image := target.image, bufSize := c.bufSize }
  | .markForTest | .confirm =>
    match c.targets[c.current]? with
    | none => step
    | some target => { step with image := target.image, hash := target.hash }
  | _ => step

def Context.finishReport (c : Context) (step : Step) : UpdateReport :=
  match step.effect with
  | .finish =>
    { c.report with
      finalState := step.next
      targetHash := some (match c.targets with
        | [] => ImageHash.blank
        | first :: _ => first.hash)
      finalDeviceState := c.device }
  | _ => c.report

def Context.parameterise (c : Context) (step : Step) : Step × Context :=
  (step.parameterise c, { c with report := c.finishReport step })

/-- A `Tick`: whichever deadline has passed. The apply timeout is judged only when a poll falls due. -/
def Context.tick (c : Context) (state : UpdateState) (now : TimePoint) : Step × Context :=
  if state = .awaitingDisconnect ∧ c.graceDeadline.any (· ≤ now) then
    ({ next := .awaitingReconnect, effect := .requestReconnect }, c)
  else
    let waiting := state = .awaitingDeviceApply ∨ state = .awaitingDeviceCommit
    if ¬ waiting ∨ ¬ c.applyPoll.any (· ≤ now) then ({ next := state, effect := .none }, c)
    else
      let c := { c with applyPoll := none }
      if c.applyDeadline.any (· ≤ now) then
        c.failAt .timeout (if state = .awaitingDeviceApply then
          "dfu: device did not apply an image in time" else "dfu: device did not commit an image in time")
      else ({ next := state, effect := .readState }, c)

/-- Arms or clears the deadlines of `step`. The apply timeout runs from a wait's first poll, and on over a reconnect. -/
def Context.keepTime (c : Context) (step : Step) (now : TimePoint) (plan : UpdatePlan) : Context :=
  let c := if step.next ≠ .awaitingDisconnect then { c with graceDeadline := none } else c
  match step.effect with
  | .awaitDisconnect => { c with graceDeadline := some (now + plan.disconnectGrace) }
  | .awaitApply =>
    let c := if c.applyPhase ≠ some step.next then
        { c with applyPhase := some step.next, applyDeadline := some (now + plan.applyTimeout) }
      else c
    { c with applyPoll := some (now + plan.applyPollInterval) }
  | .finish => { c with applyPoll := none, applyDeadline := none, applyPhase := none }
  | _ => c

/-- The device answered, but not with a mode: the update goes on with the plan's fallback. -/
def Context.bootloaderFailed (c : Context) (error : Error) (plan : UpdatePlan) : Step × Context :=
  if error.code = .protocolError || error.code = .cborDecode then
    ({ next := .inspectingImages, effect := .readState },
      { c with report := recordMode .unknown plan c.report })
  else c.fail error

def Context.illegal (c : Context) : Step × Context :=
  c.failAt .internal "dfu: event not legal in this state"

def Context.withTable (c : Context) (event : Event) : Context := { c with device := event.state }

def Context.uploadVerified (c : Context) (plan : UpdatePlan) : Step × Context :=
  match c.targets[c.current]?.bind fun target => slotHolding c target.toTarget with
  | none => c.failAt .imageMismatch "dfu: uploaded image not present in any slot"
  | some holder =>
    (c.modifyImage c.current fun image => { image with uploadSlot := some holder.slot }).markOrSkip plan

def Context.confirmAccepted (c : Context) : Step × Context :=
  let c := c.setInTrial c.current false
  let c := { c with current := nextInTrial c c.current }
  if c.current < c.targets.length then ({ next := .confirming, effect := .confirm }, c)
  else ({ next := .verifyingConfirmed, effect := .readState }, { c with swapScheduled := false })

def allConfirmed (c : Context) : Bool :=
  c.targets.all fun target =>
    let active := activeOf c target.image
    target.commit != .client || (holds active target.toTarget && isConfirmed active)

def Context.confirmVerified (c : Context) : Step × Context :=
  if allConfirmed c then c.awaitCommit
  else { c with swapScheduled := true }.failAt .updateFailed
    "dfu: device did not report the image as confirmed"

def Context.decide (c : Context) (state : UpdateState) (event : Event) (plan : UpdatePlan) : Step × Context :=
  match event.kind with
  | .cancel =>
    if isTerminal state then ({ next := state, effect := .none }, c)
    else ({ next := .cancelled, effect := .finish },
      { c with report := { c.report with revertPending := c.swapScheduled } })
  | .tick => c.tick state event.now
  | kind =>
    match state, kind with
    | .idle, .start => ({ next := .queryingParameters, effect := .queryParameters }, c)
    | .queryingParameters, .parametersRead =>
      ({ next := .queryingBootloader, effect := .queryBootloader }, { c with bufSize := event.bufSize })
    | .queryingParameters, .parametersUnavailable => ({ next := .queryingBootloader, effect := .queryBootloader }, c)
    | .queryingBootloader, .bootloaderRead =>
      ({ next := .inspectingImages, effect := .readState },
        { c with
          report := recordMode event.bootloader.mode plan c.report
          noDowngrade := event.bootloader.noDowngrade })
    | .queryingBootloader, .failed => c.bootloaderFailed event.error plan
    | .inspectingImages, .stateRead => ({ next := .planning, effect := .continue }, c.withTable event)
    | .inspectingImages, .failed => c.fail event.error
    | .planning, .continue => c.planFromState plan
    | .uploading, .uploadFinished => c.uploadFinished event plan
    | .uploading, .uploadSuspended => ({ next := .awaitingReconnect, effect := .requestReconnect }, c)
    | .uploading, .failed => c.fail event.error
    | .verifyingUpload, .stateRead => (c.withTable event).uploadVerified plan
    | .verifyingUpload, .failed => c.fail event.error
    | .markingForTest, .markedForTest => { c.withTable event with swapScheduled := true }.nextTarget plan
    | .markingForTest, .failed => c.markRefused event.error
    | .resetting, .resetAccepted => ({ next := .awaitingDisconnect, effect := .awaitDisconnect }, c)
    | .resetting, .failed => c.resetRefused event.error
    | .awaitingDisconnect, .disconnected => ({ next := .awaitingReconnect, effect := .requestReconnect }, c)
    | .awaitingReconnect, .reconnected =>
      if c.uploadInProgress then ({ next := .uploading, effect := .resumeUpload }, c)
      else ({ next := .verifyingBooted, effect := .readState }, c)
    | .awaitingReconnect, .reconnectFailed => c.fail event.error
    | .verifyingBooted, .stateRead => (c.withTable event).inspectBoot plan
    | .verifyingBooted, .failed => c.fail event.error
    | .awaitingDeviceApply, .stateRead => (c.withTable event).awaitDevice plan
    | .awaitingDeviceApply, .failed => c.waitReadFailed .awaitingDeviceApply event.error
    | .awaitingDeviceCommit, .stateRead => (c.withTable event).awaitCommit
    | .awaitingDeviceCommit, .failed => c.waitReadFailed .awaitingDeviceCommit event.error
    | .awaitingConfirmation, .confirmApproved =>
      ({ next := .confirming, effect := .confirm }, { c with confirmApproved := true })
    | .confirming, .confirmed => (c.withTable event).confirmAccepted
    | .confirming, .failed => c.confirmFailed event.error
    | .verifyingConfirmed, .stateRead => (c.withTable event).confirmVerified
    | .verifyingConfirmed, .failed => c.confirmFailed event.error
    | .completed, _ => ({ next := .completed, effect := .none }, c)
    | .failed, _ => ({ next := .failed, effect := .none }, c)
    | .cancelled, _ => ({ next := .cancelled, effect := .none }, c)
    | _, _ => c.illegal

structure Machine where
  plan : UpdatePlan
  state : UpdateState := .idle
  context : Context
  deriving DecidableEq, Repr

def Machine.new (targets : List Target) (plan : UpdatePlan) : Machine :=
  { plan := plan
    context :=
      { targets := targets.map fun target => { toTarget := target }
        report :=
          { images := targets.map fun target =>
              { image := target.image, commit := target.commit, targetHash := target.hash } } } }

def noImage : String := "dfu: no image to work on"

/-- The machine's own invariants, checked before a decision is made. -/
def Machine.guardedDecide (m : Machine) (event : Event) : Step × Context :=
  let c := m.context
  let consistent := !c.targets.isEmpty && (!needsCurrent m.state || c.current < c.targets.length)
  let complete := !carriesTable event.kind || event.state.isSome
  if isTerminal m.state || (consistent && complete) then c.decide m.state event m.plan
  else c.failAt .internal (if consistent then "dfu: answer without a slot table" else noImage)

/-- Unless its effect names a current target that is not there. -/
def Machine.decided (m : Machine) (event : Event) : Step × Context :=
  let (step, c) := m.guardedDecide event
  if namesCurrent step.effect && c.targets.length ≤ c.current then c.failAt .internal noImage
  else (step, c)

def Machine.apply (m : Machine) (event : Event) : Step × Machine :=
  let (step, c) := m.decided event
  let (step, c) := c.summarise.parameterise step
  let c := c.keepTime step event.now m.plan
  (step, { m with state := step.next, context := c })

def Machine.nextDeadline (m : Machine) : Option TimePoint :=
  m.context.graceDeadline.orElse fun _ => m.context.applyPoll

def Machine.report (m : Machine) : UpdateReport := m.context.report

def runMachine (targets : List Target) (plan : UpdatePlan) (events : List Event) : Machine :=
  Systems.run Machine.apply (Machine.new targets plan) events

abbrev MachineStep := Systems.Transition Machine Event Step

def machineLog (targets : List Target) (plan : UpdatePlan) (events : List Event) : List MachineStep :=
  Systems.log Machine.apply (Machine.new targets plan) events

end Smply.Dfu
