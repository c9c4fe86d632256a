import Smply.Boot.Reader

namespace Smply

namespace ImageError

def ok : ImageError := 0
def unknown : ImageError := 1
def hashNotFound : ImageError := 8
def noFreeSlot : ImageError := 9
def invalidSlot : ImageError := 14
def invalidHash : ImageError := 24
def imageConfirmationDenied : ImageError := 32
def imageSettingTestToActiveDenied : ImageError := 33

end ImageError

namespace Boot

inductive SwapType where
  | none
  | test
  | perm
  | revert
  deriving DecidableEq, Repr

inductive ApplyOutcome where
  | applied
  | failed
  deriving DecidableEq, Repr

inductive CommitOutcome where
  | commits
  | never
  deriving DecidableEq, Repr

/-- How the device applies and commits an image it commits itself. Each count is in image-state reads. -/
structure DeviceCommit where
  outcome : ApplyOutcome := .applied
  applyReads : Nat := 1
  commit : CommitOutcome := .commits
  commitReads : Nat := 1
  deriving DecidableEq, Repr

inductive BootBehaviour where
  | swapWithRevert
  | overwrite
  | directXip
  | directXipWithRevert
  deriving DecidableEq, Repr

structure BootConfig where
  behaviour : BootBehaviour := .swapWithRevert
  imageCount : UInt32 := 1
  noDowngrade : Bool := false
  allowConfirmNonActiveImageSecondary : Bool := false
  allowConfirmNonActiveImageAny : Bool := false
  allowConfirmNonActiveSlot : Bool := false
  deviceCommits : List (Option DeviceCommit) := []
  deriving DecidableEq, Repr

structure SlotEntry where
  image : Nat
  /-- Within the image: 0 or 1. -/
  slot : Nat
  content : SlotImage
  pending : Bool
  confirmed : Bool
  active : Bool
  permanent : Bool
  deriving DecidableEq, Repr

structure ImagePair where
  primary : Bytes := []
  secondary : Bytes := []
  swap : SwapType := .none
  device : Option DeviceCommit := none
  applying : Option Nat := none
  committing : Option Nat := none
  deriving DecidableEq, Repr

inductive XipState where
  | unset
  | once
  | forever
  deriving DecidableEq, Repr

/-- A device's images and slots. There is always an image 0, and their number is a 32-bit one. -/
structure BootModel where
  config : BootConfig
  images : List ImagePair
  some_ : images ≠ []
  few : images.length < 2 ^ 32
  xipActive : Fin 2 := 0
  xipState : XipState × XipState := (.forever, .unset)
  xipTrial : Bool := false
  deriving DecidableEq, Repr

namespace ImagePair

variable (pair : ImagePair)

def slot (within : Nat) : Bytes := if within = 0 then pair.primary else pair.secondary

def setSlot (within : Nat) (content : Bytes) : ImagePair :=
  if within = 0 then { pair with primary := content } else { pair with secondary := content }

def exchanged : ImagePair :=
  { pair with primary := pair.secondary, secondary := pair.primary }

def nextBootSlot : Nat := if pair.swap = .none then 0 else 1

/-- A scheduled swap cannot be changed; asking for the same again succeeds and does nothing. No answer: the request goes
on. -/
def scheduled (slot : Nat) (confirm : Bool) : Option ImageError :=
  let next := pair.nextBootSlot
  match pair.swap with
  | .test => some (if !confirm ∧ slot = next then ImageError.ok else ImageError.imageAlreadyPending)
  | .none | .perm =>
    if confirm ∧ slot = next then some ImageError.ok
    else if (slot = 0 ∧ next ≠ 0) ∨ (!confirm ∧ slot ≠ 0 ∧ slot = next) then some ImageError.imageAlreadyPending
    else none
  | .revert => if !confirm then some ImageError.imageAlreadyPending else none

def startCommit : ImagePair :=
  match pair.device with
  | none => pair
  | some how =>
    if pair.swap = .revert ∧ pair.applying = none ∧ how.commit = .commits ∧ pair.committing = none then
      { pair with committing := some how.commitReads }
    else pair

def advance : ImagePair :=
  match pair.committing, pair.applying with
  | some (left + 1), _ => { pair with committing := some left }
  | some 0, _ => { pair with committing := none, swap := .none }
  | none, none => pair
  | none, some (left + 1) => { pair with applying := some left }
  | none, some 0 =>
    let pair := { pair with applying := none }
    if pair.device.any (·.outcome = .applied) then { pair.exchanged with swap := .revert }
    else { pair with swap := .none }

def endSwapWithoutTrial (install : Bool) : ImagePair :=
  { pair with primary := if install then pair.secondary else pair.primary, secondary := [], swap := .none }

def refusesDowngrade (config : BootConfig) (pair : ImagePair) : Bool :=
  if !config.noDowngrade then false
  else match headerVersion pair.primary, headerVersion pair.secondary with
    | some running, some scheduled => scheduled.lt running
    | _, _ => false

/-- Downgrade prevention and overwrite end a swap without a trial, except for an image the device commits itself. -/
def settle (config : BootConfig) (pair : ImagePair) : ImagePair :=
  if (pair.swap ≠ .test ∧ pair.swap ≠ .perm) ∨ pair.device.isSome then pair
  else if pair.refusesDowngrade config then pair.endSwapWithoutTrial false
  else if config.behaviour = .overwrite then pair.endSwapWithoutTrial true
  else pair

def boot : ImagePair :=
  match pair.swap with
  | .none => pair
  | .test =>
    match pair.device with
    | some how => { pair with applying := some how.applyReads }
    | none => { pair.exchanged with swap := .revert }
  | .perm | .revert => { pair.exchanged with swap := .none, applying := none, committing := none }

end ImagePair

namespace BootModel

variable (m : BootModel)

def withImages (images : List ImagePair) (same : images.length = m.images.length) : BootModel :=
  { m with
    images := images
    some_ := by
      intro none_
      rw [none_] at same
      exact m.some_ (List.length_eq_zero_iff.mp same.symm)
    few := same ▸ m.few }

def mapImages (f : ImagePair → ImagePair) : BootModel := m.withImages (m.images.map f) (List.length_map f)

def setImage (image : Nat) (pair : ImagePair) : BootModel :=
  m.withImages (m.images.set image pair) (List.length_set ..)

def new (config : BootConfig) : BootModel where
  config := config
  images := (List.range (if config.imageCount = 0 then 1 else config.imageCount.toNat)).map fun image =>
    { device := (config.deviceCommits[image]?).join }
  some_ := by
    simp only [ne_eq, List.map_eq_nil_iff, List.range_eq_nil]
    split
    · exact Nat.one_ne_zero
    · rename_i some_
      exact fun none_ => some_ (UInt32.toNat_inj.mp none_)
  few := by
    have bound := config.imageCount.toNat_lt
    rw [List.length_map, List.length_range]
    split <;> omega

def directXip : Bool :=
  m.config.behaviour = .directXip || m.config.behaviour = .directXipWithRevert

def supportsSetState : Bool := m.config.behaviour ≠ .directXip

/-- Global slots. None is a slot the device does not have, for which the source throws. -/
def slotContent (slot : Nat) : Option Bytes := (m.images[slot / 2]?).map (·.slot (slot % 2))

def loadSlot (slot : Nat) (content : Bytes) : Option BootModel :=
  (m.images[slot / 2]?).map fun pair => m.setImage (slot / 2) (pair.setSlot (slot % 2) content)

def uploadTarget (image : Nat) : Option Nat :=
  if m.images.length ≤ image then none
  else if m.directXip ∧ image = 0 then some (1 - m.xipActive).val
  else some (image * 2 + 1)

def xipStateOf (slot : Fin 2) : XipState := if slot = 0 then m.xipState.1 else m.xipState.2

def setXipState (slot : Fin 2) (state : XipState) : BootModel :=
  { m with xipState := if slot = 0 then (state, m.xipState.2) else (m.xipState.1, state) }

/-- The implicit erase of the target slot. Under direct-XIP it takes the slot's boot state too. -/
def beginUpload (slot size : Nat) : Option BootModel :=
  (m.loadSlot slot (List.replicate size 0xFF)).map fun m =>
    if small : slot < 2 then if m.directXip then m.setXipState ⟨slot, small⟩ .unset else m else m

def write (slot offset : Nat) (data : Bytes) : Option (Bool × BootModel) :=
  (m.slotContent slot).bind fun target =>
    if offset > target.length ∨ data.length > target.length - offset then some (false, m)
    else (m.loadSlot slot (target.take offset ++ data ++ target.drop (offset + data.length))).map (true, ·)

def erase (slot : Nat) : ImageError × BootModel :=
  match m.images[slot / 2]? with
  | none => (ImageError.invalidSlot, m)
  | some pair =>
    let within := slot % 2
    if within = pair.nextBootSlot ∧ within ≠ 0 then (ImageError.noFreeSlot, m)
    else (ImageError.ok, m.setImage (slot / 2) (pair.setSlot within []))

def findByHash (hash : Bytes) : Option Nat :=
  (List.range (m.images.length * 2)).find? fun global =>
    ((m.slotContent global).bind describe).any fun described => described.hash == hash

def startDeviceCommits : BootModel := m.mapImages ImagePair.startCommit

/-- `boot_set_next()`: confirming the running slot clears a revert; marking the other one schedules a test or, confirmed
too, a swap for good. -/
def bootSetNext (image slot : Nat) (confirm : Bool) (pair : ImagePair) : BootModel :=
  if slot = 0 then
    if pair.swap = .revert then
      let m := m.setImage image { pair with swap := .none, applying := none, committing := none }
      -- The confirm hook: the device now commits the images it applied.
      if image = 0 then m.startDeviceCommits else m
    else m
  else if pair.swap = .none then m.setImage image { pair with swap := if confirm then .perm else .test }
  else m

def setNextBootSlot (globalSlot : Nat) (confirm : Bool) : ImageError × BootModel :=
  let image := globalSlot / 2
  let slot := globalSlot % 2
  match m.images[image]? with
  | none => (ImageError.unknown, m)
  | some pair =>
    if confirm ∧ image ≠ 0 ∧ !m.config.allowConfirmNonActiveImageAny ∧
        (!m.config.allowConfirmNonActiveImageSecondary ∨ slot = 0) then (ImageError.imageConfirmationDenied, m)
    else if confirm ∧ slot ≠ 0 ∧ !m.config.allowConfirmNonActiveSlot then (ImageError.imageConfirmationDenied, m)
    else if !confirm ∧ slot = 0 then (ImageError.imageSettingTestToActiveDenied, m)
    else match pair.scheduled slot confirm with
      | some answer => (answer, m)
      | none => (ImageError.ok, m.bootSetNext image slot confirm pair)

def xipContent (slot : Fin 2) : Bytes := (m.slotContent slot).getD []

def xipPrefersOther : Bool :=
  let other := 1 - m.xipActive
  let theirs := m.xipContent other
  let ours := m.xipContent m.xipActive
  match describe theirs with
  | none => false
  | some candidate =>
    if !candidate.bootable then false
    else if (describe ours).isNone then true
    else
      let mine := (headerVersion ours).getD {}
      let otherVersion := (headerVersion theirs).getD {}
      mine.lt otherVersion || (mine == otherVersion && other < m.xipActive)

inductive XipNext where
  | stay
  | otherOnTrial
  | otherForGood
  deriving DecidableEq, Repr

def xipNext : XipNext :=
  if !m.xipPrefersOther then .stay
  else if m.config.behaviour = .directXip then .otherForGood
  else match m.xipStateOf (1 - m.xipActive) with
    | .once => .otherOnTrial
    | .forever => .otherForGood
    | .unset => .stay

def xipFlags (entry : SlotEntry) : SlotEntry :=
  let active := entry.slot == m.xipActive.val
  let next := m.xipNext
  let otherBoots := next != .stay
  let entry := { entry with active := active }
  if m.config.behaviour = .directXip then
    { entry with pending := !active && otherBoots, confirmed := false, permanent := !active && otherBoots }
  else if m.xipTrial then { entry with pending := false, confirmed := !active, permanent := false }
  else if active then { entry with pending := false, confirmed := true, permanent := false }
  else { entry with pending := otherBoots, confirmed := false, permanent := next == .otherForGood }

def xipReboot : BootModel :=
  let other := 1 - m.xipActive
  if m.config.behaviour = .directXipWithRevert ∧ m.xipTrial then
    -- An unconfirmed trial: MCUboot drops the image and boots the other.
    let m' := ((m.loadSlot m.xipActive []).getD m).setXipState m.xipActive .unset
    { m' with xipActive := other, xipTrial := false }
  else match m.xipNext with
    | .stay => m
    | next => { m with xipActive := other, xipTrial := next == .otherOnTrial }

def xipSetNext (globalSlot : Nat) (confirm : Bool) : ImageError × BootModel :=
  if small : globalSlot < 2 then
    let slot : Fin 2 := ⟨globalSlot, small⟩
    let active := slot == m.xipActive
    if confirm ∧ !active ∧ !m.config.allowConfirmNonActiveSlot then (ImageError.imageConfirmationDenied, m)
    else if !confirm ∧ active then (ImageError.imageSettingTestToActiveDenied, m)
    else if confirm then
      let m := m.setXipState slot .forever
      (ImageError.ok, if active then { m with xipTrial := false } else m)
    else if m.xipTrial ∨ m.xipStateOf slot = .forever then (ImageError.imageAlreadyPending, m)
    else (ImageError.ok, m.setXipState slot .once)
  else (ImageError.hashNotFound, m)

def bootFromSlot (slot : Fin 2) : BootModel :=
  { ({ m with xipState := (.unset, .unset) } : BootModel).setXipState slot .forever with
    xipActive := slot, xipTrial := false }

/-- `img_mgmt_state_write()`. A confirm without a hash names the running image's active slot. -/
def setState (hash : Option Bytes) (confirm : Bool) : ImageError × BootModel :=
  if !m.supportsSetState then (ImageError.unknown, m)
  else
    let setNext (slot : Nat) := if m.directXip then m.xipSetNext slot confirm else m.setNextBootSlot slot confirm
    match hash with
    | none => if !confirm then (ImageError.invalidHash, m) else setNext (if m.directXip then m.xipActive.val else 0)
    | some hash =>
      match m.findByHash hash with
      | none => (ImageError.hashNotFound, m)
      | some slot => setNext slot

def reboot : BootModel :=
  if m.directXip then m.xipReboot else m.mapImages fun pair => (pair.settle m.config).boot

def setDeviceCommit (image : Nat) (how : DeviceCommit) : Option BootModel :=
  (m.images[image]?).map fun pair => m.setImage image { pair with device := some how }

/-- Nothing will confirm image 0 if it is not on trial, so the device commits at once. -/
def advanceApplies : BootModel :=
  let m := m.mapImages ImagePair.advance
  if (m.images.head m.some_).swap ≠ .revert then m.startDeviceCommits else m

def primaryEntry (image : Nat) (pair : ImagePair) (content : SlotImage) : SlotEntry where
  image := image
  slot := 0
  content := content
  pending := false
  confirmed := pair.swap ≠ .revert
  active := true
  permanent := false

def secondaryEntry (image : Nat) (pair : ImagePair) (content : SlotImage) : SlotEntry where
  image := image
  slot := 1
  content := content
  pending := pair.swap = .test || pair.swap = .perm
  confirmed := pair.swap = .revert
  active := false
  permanent := pair.swap = .perm

def entries (image : Nat) (pair : ImagePair) : List SlotEntry :=
  ((describe pair.primary).map (primaryEntry image pair)).toList ++
    ((describe pair.secondary).map (secondaryEntry image pair)).toList

def listing : List SlotEntry :=
  m.images.zipIdx.flatMap fun (pair, image) =>
    (entries image pair).map fun entry => if m.directXip ∧ image = 0 then m.xipFlags entry else entry

/-- An image-state read is one step of every apply or commit in progress. -/
def readState : List SlotEntry × BootModel :=
  let m := m.advanceApplies
  (m.listing, m)

end BootModel

end Boot

end Smply
