import Smply.Boot.Status
import Smply.Dfu.Timers
import Smply.Dfu.Verdicts
import Smply.Systems.Progress

namespace Smply.Dfu

open Boot

structure Update where
  target : Target
  file : Bytes
  deriving DecidableEq, Repr

structure Scenario where
  plan : UpdatePlan
  updates : List Update
  device : BootModel
  bootloader : Option BootloaderMode
  deriving DecidableEq, Repr

/-- What the device and the host are free in when a step is answered. -/
structure Choice where
  now : TimePoint := 0
  bufSize : Option UInt32 := none
  transferred : UInt64 := 0
  alreadyPresent : Bool := false
  /-- The link drops after a reset; else the grace period ends the wait. -/
  disconnects : Bool := true
  deriving DecidableEq, Repr

structure World where
  machine : Machine
  last : Step
  device : BootModel
  deriving DecidableEq, Repr

def World.feed (w : World) (event : Event) (device : BootModel) : World :=
  let (step, machine) := w.machine.apply event
  { machine := machine, last := step, device := device }

def refusedBy (code : ImageError) : Error :=
  { code := .protocolError, mgmt := some { group := Group.image, rc := code, groupScoped := true } }

def World.setState (w : World) (accepted : EventKind) (confirm : Bool) : Event × BootModel :=
  let (code, device) := w.device.setState (some w.last.hash.bytes) confirm
  if code = ImageError.ok then ({ kind := accepted, state := some (tableOf device.listing) }, device)
  else ({ kind := .failed, error := refusedBy code }, device)

/-- The last step's effect, answered without faults. Nothing is lost, so no upload is resumed. -/
def Scenario.answer (s : Scenario) (w : World) (choice : Choice) : Option (Event × BootModel) :=
  match w.last.effect with
  | .none | .finish | .resumeUpload => none
  | .continue => some ({ kind := .continue }, w.device)
  | .queryParameters =>
    match choice.bufSize with
    | some size => some ({ kind := .parametersRead, bufSize := size }, w.device)
    | none => some ({ kind := .parametersUnavailable }, w.device)
  | .queryBootloader =>
    match s.bootloader with
    | some mode => some ({ kind := .bootloaderRead, bootloader := mode }, w.device)
    | none => some ({ kind := .failed, error := { code := .protocolError } }, w.device)
  | .readState =>
    let (entries, device) := w.device.readState
    some ({ kind := .stateRead, state := some (tableOf entries) }, device)
  | .startUpload =>
    match (s.updates[w.last.target]?).bind fun update => w.device.receive w.last.image.toNat update.file with
    | some device =>
      some ({ kind := .uploadFinished, transferred := choice.transferred, alreadyPresent := choice.alreadyPresent }, device)
    | none => some ({ kind := .failed, error := refusedBy ImageError.noFreeSlot }, w.device)
  | .markForTest => some (w.setState .markedForTest false)
  | .reset | .forceReset => some ({ kind := .resetAccepted }, w.device.reboot)
  | .awaitDisconnect => some ({ kind := if choice.disconnects then .disconnected else .tick }, w.device)
  | .requestReconnect => some ({ kind := .reconnected }, w.device)
  | .awaitApply => some ({ kind := .tick }, w.device)
  | .requestConfirmation => some ({ kind := .confirmApproved }, w.device)
  | .confirm => some (w.setState .confirmed true)

def Scenario.turn (s : Scenario) (w : World) (choice : Choice) : World :=
  match s.answer w choice with
  | none => w
  | some (event, device) => w.feed { event with now := choice.now } device

def Scenario.start (s : Scenario) (now : TimePoint) : World :=
  let (step, machine) := (Machine.new (s.updates.map (·.target)) s.plan).apply { kind := .start, now := now }
  { machine := machine, last := step, device := s.device }

def Scenario.run (s : Scenario) (now : TimePoint) (choices : Nat → Choice) : Nat → World :=
  Systems.follow s.turn (s.start now) choices

/-- Ticks come when they are due, and before the timeout of the wait they end. -/
structure World.Timely (w : World) (choice : Choice) : Prop where
  due : w.last.effect = .awaitApply ∨ (w.last.effect = .awaitDisconnect ∧ choice.disconnects = false) →
    w.machine.nextDeadline.any (· ≤ choice.now) = true
  early : w.last.effect = .awaitApply → w.machine.context.applyDeadline.any (· ≤ choice.now) = false

def Update.place (update : Update) : Nat := update.target.image.toNat

def Scenario.origin (s : Scenario) (update : Update) : ImagePair := (s.device.images[update.place]?).getD {}

/-- A target the device can be given: one file, with a hash no other image has. Image 0 is the client's to commit. -/
structure Scenario.Updatable (s : Scenario) (update : Update) : Prop where
  single : update.target.builds = none
  present : s.device.images[update.place]? = some (s.origin update)
  named : update.target.hash.empty = false
  reported : carries update.file update.target.hash = true
  alone : s.device.Alone update.place update.target.hash
  client : update.place = 0 → update.target.commit = .client ∧ (s.origin update).device = none
  own : update.place ≠ 0 → update.target.commit = .device ∧ (s.origin update).device ≠ none
  succeeds : Succeeds (s.origin update).device

/-- A whole update on a device that swaps with revert and has nothing scheduled. -/
structure Scenario.Valid (s : Scenario) : Prop where
  behaviour : s.device.config.behaviour = .swapWithRevert
  downgrades : s.device.config.noDowngrade = false
  idle : ∀ pair ∈ s.device.images, pair.Idle
  reports : ∀ mode ∈ s.bootloader, swaps mode.mode = true ∧ mode.noDowngrade = false
  fallback : (∀ info ∈ s.bootloader, info.mode = .unknown) → ∀ mode ∈ s.plan.fallbackMode, swaps mode = true
  whole : s.plan.mode ≠ .uploadOnly
  some_ : s.updates ≠ []
  images : (s.updates.map Update.place).Nodup
  hashes : (s.updates.map (·.target.hash)).Nodup
  each : ∀ update ∈ s.updates, s.Updatable update

end Smply.Dfu
