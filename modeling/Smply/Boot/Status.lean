import Smply.Boot.Table

namespace Smply.Boot

open List Function Option

variable {m : BootModel} {status : Status} {image : Nat}

inductive Status where
  | waiting
  | loaded
  | marked
  | applying (left : Nat)
  | trial
  | committing (left : Nat)
  | installed
  deriving DecidableEq, Repr

structure ImagePair.Idle (pair : ImagePair) : Prop where
  swap : pair.swap = .none
  applying : pair.applying = none
  committing : pair.committing = none

theorem ImagePair.Idle.eq {pair : ImagePair} (idle : pair.Idle) :
    ∃ primary secondary device, pair = { primary := primary, secondary := secondary, device := device } := by
  rcases pair with ⟨primary, secondary, swap, device, applying, committing⟩
  rcases idle with ⟨rfl, rfl, rfl⟩
  exact ⟨primary, secondary, device, rfl⟩

/-- A device that commits the image itself applies it and then commits it. -/
def Succeeds (how : Option DeviceCommit) : Prop := ∀ commit ∈ how, commit.outcome = .applied ∧ commit.commit = .commits

namespace Status

def pair (origin : ImagePair) (content : Bytes) : Status → ImagePair
  | .waiting => origin
  | .loaded => { origin with secondary := content }
  | .marked => { origin with secondary := content, swap := .test }
  | .applying left => { origin with secondary := content, swap := .test, applying := some left }
  | .trial => { origin with primary := content, secondary := origin.primary, swap := .revert }
  | .committing left =>
    { origin with primary := content, secondary := origin.primary, swap := .revert, committing := some left }
  | .installed => { origin with primary := content, secondary := origin.primary }

def advance : Status → Status
  | .applying 0 => .trial
  | .applying (left + 1) => .applying left
  | .committing 0 => .installed
  | .committing (left + 1) => .committing left
  | status => status

def commit (how : Option DeviceCommit) : Status → Status
  | .trial => how.elim .trial fun how => .committing how.commitReads
  | status => status

def boot (how : Option DeviceCommit) : Status → Status
  | .marked | .applying _ => how.elim .trial fun how => .applying how.applyReads
  | .trial | .committing _ => .loaded
  | status => status

def onTrial : Status → Bool
  | .trial | .committing _ => true
  | _ => false

def background : Status → Bool
  | .applying _ | .committing _ => true
  | _ => false

def settles : Status → Bool
  | .committing _ | .installed => true
  | _ => false

/-- How many reads an image of the device's own can still need, and more for what comes before the reads. -/
def left (how : Option DeviceCommit) (status : Status) : Nat :=
  how.elim 0 fun how =>
    match status with
    | .waiting | .loaded | .marked => how.applyReads + how.commitReads + 4
    | .applying left => left + how.commitReads + 3
    | .trial => how.commitReads + 2
    | .committing left => left + 1
    | .installed => 0

structure Suits (how : Option DeviceCommit) (status : Status) : Prop where
  succeeds : status ≠ .waiting → Succeeds how
  own : status.background = true → how ≠ none

section
variable {origin : ImagePair} {content : Bytes} {status : Status}

theorem swap_pair (idle : origin.Idle) : (status.pair origin content).swap =
    match status with
    | .waiting | .loaded | .installed => .none
    | .marked | .applying _ => .test
    | .trial | .committing _ => .revert := by
  cases status <;> first | rfl | exact idle.swap

theorem swap_pair_revert (idle : origin.Idle) :
    (status.pair origin content).swap = .revert ↔ status.onTrial = true := by
  rw [swap_pair idle]
  cases status <;> simp [onTrial]

section
variable (idle : origin.Idle) (suits : status.Suits origin.device)
include idle suits

theorem advance_pair : (status.pair origin content).advance = status.advance.pair origin content := by
  obtain ⟨primary, secondary, device, rfl⟩ := idle.eq
  cases status with
  | waiting | loaded | marked | trial | installed => rfl
  | committing left => cases left <;> rfl
  | applying left =>
    cases left with
    | succ left => rfl
    | zero =>
      cases device with
      | none => exact absurd rfl (suits.own rfl)
      | some how =>
        have applied := (suits.succeeds (by simp) how rfl).1
        simp [pair, ImagePair.advance, ImagePair.exchanged, advance, applied]

theorem startCommit_pair :
    (status.pair origin content).startCommit = (status.commit origin.device).pair origin content := by
  obtain ⟨primary, secondary, device, rfl⟩ := idle.eq
  cases device with
  | none => cases status <;> rfl
  | some how =>
    cases status with
    | waiting | loaded | marked | installed | applying => rfl
    | committing => simp [pair, ImagePair.startCommit, commit]
    | trial =>
      have commits := (suits.succeeds (by simp) how rfl).2
      simp [pair, ImagePair.startCommit, commit, commits]

theorem boot_pair : (status.pair origin content).boot = (status.boot origin.device).pair origin content := by
  obtain ⟨primary, secondary, device, rfl⟩ := idle.eq
  cases status with
  | waiting | loaded | installed | trial | committing => rfl
  | marked => cases device <;> rfl
  | applying =>
    cases device with
    | none => exact absurd rfl (suits.own rfl)
    | some => rfl

end

theorem pair_primary (origin : ImagePair) (brought : Bytes) (status : Status) :
    (status.pair origin brought).primary = origin.primary ∨ (status.pair origin brought).primary = brought := by
  cases status <;> simp [Status.pair]

theorem pair_secondary (origin : ImagePair) (brought : Bytes) (status : Status) :
    (status.pair origin brought).secondary = origin.primary ∨ (status.pair origin brought).secondary = origin.secondary ∨
      (status.pair origin brought).secondary = brought := by
  cases status <;> simp [Status.pair]

theorem settle_pair {config : BootConfig} (pair : ImagePair) (behaviour : config.behaviour = .swapWithRevert)
    (downgrades : config.noDowngrade = false) : pair.settle config = pair := by
  simp [ImagePair.settle, ImagePair.refusesDowngrade, behaviour, downgrades]

end

section
variable {how : Option DeviceCommit} {status : Status} (suits : status.Suits how)
include suits

theorem Suits.advance : status.advance.Suits how := by
  cases status with
  | waiting | loaded | marked | trial | installed => exact suits
  | applying left | committing left =>
    cases left with
    | zero => exact ⟨fun _ => suits.succeeds (by simp), nofun⟩
    | succ => exact ⟨fun _ => suits.succeeds (by simp), fun _ => suits.own rfl⟩

theorem Suits.commit : (status.commit how).Suits how := by
  cases status with
  | waiting | loaded | marked | installed | applying left | committing left => exact suits
  | trial =>
    cases how with
    | none => exact suits
    | some => exact ⟨fun _ => suits.succeeds (by simp), fun _ => by simp⟩

theorem Suits.boot : (status.boot how).Suits how := by
  cases status with
  | waiting | loaded | installed => exact suits
  | marked | applying left =>
    cases how with
    | none => exact ⟨fun _ => suits.succeeds (by simp), nofun⟩
    | some => exact ⟨fun _ => suits.succeeds (by simp), fun _ => by simp⟩
  | trial | committing left => exact ⟨fun _ => suits.succeeds (by simp), nofun⟩

end

theorem settles_of_advance (settles : status.advance.settles = true) : status.settles = true := by
  cases status with
  | waiting | loaded | marked | trial | installed => exact settles
  | committing => rfl
  | applying left => cases left <;> cases settles

theorem commit_eq_iff (how : Option DeviceCommit) {kept : Status}
    (early : kept = .waiting ∨ kept = .loaded ∨ kept = .marked) : status.commit how = kept ↔ status = kept := by
  cases status with
  | waiting | loaded | marked | installed | applying left | committing left => exact Iff.rfl
  | trial => rcases early with rfl | rfl | rfl <;> cases how <;> simp [Status.commit]

section
variable (how : Option DeviceCommit) (status : Status)

theorem left_advance : status.advance.left how ≤ status.left how := by
  cases how with
  | none => exact Nat.le_refl _
  | some how =>
    cases status with
    | waiting | loaded | marked | trial | installed => exact Nat.le_refl _
    | applying left | committing left => cases left <;> simp only [advance, Status.left, elim_some] <;> omega

theorem left_commit : (status.commit how).left how ≤ status.left how := by
  cases how with
  | none => exact Nat.le_refl _
  | some =>
    cases status with
    | waiting | loaded | marked | installed | applying left | committing left => exact Nat.le_refl _
    | trial =>
      simp only [commit, Status.left, elim_some]
      omega

theorem left_boot {status : Status} (staged : status = .waiting ∨ status = .marked) :
    (status.boot how).left how ≤ status.left how := by
  cases how with
  | none => exact Nat.le_refl _
  | some =>
    rcases staged with rfl | rfl
    · exact Nat.le_refl _
    · simp only [boot, Status.left, elim_some]
      omega

theorem left_advance_lt (own : how ≠ none) (busy : status.background = true) :
    status.advance.left how < status.left how := by
  cases how with
  | none => exact absurd rfl own
  | some =>
    cases status with
    | waiting | loaded | marked | trial | installed => cases busy
    | applying left | committing left => cases left <;> simp only [advance, Status.left, elim_some] <;> omega

theorem left_commit_lt (own : how ≠ none) : (Status.trial.commit how).left how < Status.trial.left how := by
  cases how with
  | none => exact absurd rfl own
  | some =>
    simp only [commit, Status.left, elim_some]
    omega

end

end Status

namespace BootModel

/-- The device once each image has come as far as `status` says. -/
def after (base : BootModel) (status : Nat → Status) (content : Nat → Bytes) : BootModel :=
  base.withImages (base.images.mapIdx fun image origin => (status image).pair origin (content image)) List.length_mapIdx

def howOf (base : BootModel) (image : Nat) : Option DeviceCommit := (base.images[image]?).bind (·.device)

structure Steady (base : BootModel) (status : Nat → Status) : Prop where
  idle : ∀ pair ∈ base.images, pair.Idle
  suits : ∀ image, (status image).Suits (base.howOf image)

variable {base : BootModel} {status : Nat → Status} {content : Nat → Bytes}

theorem images_after (image : Nat) : (base.after status content).images[image]? =
    (base.images[image]?).map fun origin => (status image).pair origin (content image) := getElem?_mapIdx

@[simp] theorem length_after : (base.after status content).images.length = base.images.length := length_mapIdx

@[simp] theorem config_after : (base.after status content).config = base.config := rfl

theorem directXip_after (behaviour : base.config.behaviour = .swapWithRevert) :
    (base.after status content).directXip = false := by
  unfold directXip
  rw [config_after, behaviour]
  rfl

theorem withImages_congr {first second : List ImagePair} (left : first.length = m.images.length)
    (right : second.length = m.images.length) (same : first = second) :
    m.withImages first left = m.withImages second right := by
  subst same
  rfl

theorem after_eq {images : List ImagePair} (length : images.length = base.images.length)
    (each : ∀ image : Nat, images[image]? = (base.images[image]?).map fun origin =>
      (status image).pair origin (content image)) : base.withImages images length = base.after status content := by
  apply withImages_congr
  apply ext_getElem?
  intro image
  rw [each, getElem?_mapIdx]

theorem mapImages_after {f : ImagePair → ImagePair} {next : Nat → Status}
    (each : ∀ image origin, base.images[image]? = some origin →
      f ((status image).pair origin (content image)) = (next image).pair origin (content image)) :
    (base.after status content).mapImages f = base.after next content := by
  have length : ((base.after status content).images.map f).length = base.images.length := by
    rw [length_map, length_after]
  refine after_eq length fun image => ?_
  rw [getElem?_map, images_after, Option.map_map]
  cases found : base.images[image]? with
  | none => rfl
  | some origin => exact congrArg some (each image origin found)

section
variable {image : Nat} {origin : ImagePair} (here : base.images[image]? = some origin)
include here

theorem setImage_after (next : Status)
    (brought : Bytes) : (base.after status content).setImage image (next.pair origin brought) =
      base.after (Function.update status image next) (Function.update content image brought) := by
  have length : ((base.after status content).images.set image (next.pair origin brought)).length =
      base.images.length := by
    rw [length_set, length_after]
  refine after_eq length fun other => ?_
  rw [getElem?_set, images_after]
  by_cases same : image = other
  · subst same
    have inside : image < (base.after status content).images.length := by
      rw [length_after]
      exact (List.getElem?_eq_some_iff.mp here).1
    rw [if_pos rfl, if_pos inside, here, update_self, update_self]
    rfl
  · rw [if_neg same, update_of_ne (Ne.symm same), update_of_ne (Ne.symm same)]

theorem howOf_eq : base.howOf image = origin.device := by
  rw [howOf, here]
  rfl

end

theorem Steady.pair (steady : base.Steady status) {origin : ImagePair}
    (here : base.images[image]? = some origin) : origin.Idle ∧ (status image).Suits origin.device :=
  ⟨steady.idle origin (mem_of_getElem? here), howOf_eq here ▸ steady.suits image⟩

def read (base : BootModel) (status : Nat → Status) (image : Nat) : Status :=
  if (status 0).advance.onTrial then (status image).advance else (status image).advance.commit (base.howOf image)

theorem read_eq_iff (image : Nat) {kept : Status} (early : kept = .waiting ∨ kept = .loaded ∨ kept = .marked) :
    base.read status image = kept ↔ status image = kept := by
  unfold read
  cases found : status image with
  | waiting | loaded | marked | installed => split <;> exact Iff.rfl
  | trial =>
    rcases early with rfl | rfl | rfl <;> split <;> cases base.howOf image <;> simp [Status.advance, Status.commit]
  | applying left | committing left =>
    rcases early with rfl | rfl | rfl <;> cases left <;> split <;> cases base.howOf image <;>
      simp [Status.advance, Status.commit]

theorem left_read (base : BootModel) (status : Nat → Status) (image : Nat) :
    (base.read status image).left (base.howOf image) ≤ (status image).left (base.howOf image) := by
  have advanced := Status.left_advance (base.howOf image) (status image)
  unfold BootModel.read
  split
  · exact advanced
  · exact Nat.le_trans (Status.left_commit _ _) advanced

section
variable (steady : base.Steady status)
include steady

theorem startDeviceCommits_after : (base.after status content).startDeviceCommits =
      base.after (fun image => (status image).commit (base.howOf image)) content :=
  mapImages_after fun image origin here => by
    obtain ⟨idle, suits⟩ := steady.pair here
    rw [Status.startCommit_pair idle suits, howOf_eq here]

theorem Steady.advance : base.Steady fun image => (status image).advance :=
  ⟨steady.idle, fun image => (steady.suits image).advance⟩

theorem Steady.read : base.Steady (base.read status) := by
  refine ⟨steady.idle, fun image => ?_⟩
  unfold BootModel.read
  split
  · exact (steady.suits image).advance
  · exact (steady.suits image).advance.commit

theorem Steady.boot : base.Steady fun image => (status image).boot (base.howOf image) :=
  ⟨steady.idle, fun image => (steady.suits image).boot⟩

end

theorem head_after (status : Nat → Status) (content : Nat → Bytes) (some_ : (base.after status content).images ≠ []) :
    ∃ origin, base.images[0]? = some origin ∧
      (base.after status content).images.head some_ = (status 0).pair origin (content 0) := by
  have first : (base.after status content).images[0]? = some ((base.after status content).images.head some_) := by
    rw [← head?_eq_getElem?, head?_eq_some_head some_]
  rw [images_after] at first
  obtain ⟨origin, here, same⟩ := map_eq_some_iff.mp first
  exact ⟨origin, here, same.symm⟩

theorem advanceApplies_after (steady : base.Steady status) :
    (base.after status content).advanceApplies = base.after (base.read status) content := by
  have advanced : (base.after status content).mapImages ImagePair.advance =
      base.after (fun image => (status image).advance) content :=
    mapImages_after fun image origin here => by
      obtain ⟨idle, suits⟩ := steady.pair here
      exact Status.advance_pair idle suits
  unfold advanceApplies
  dsimp only
  rw [advanced]
  obtain ⟨origin, here, first⟩ := head_after (fun image => (status image).advance) content
    (base.after (fun image => (status image).advance) content).some_
  rw [first]
  have revert := @Status.swap_pair_revert origin (content 0) (status 0).advance (steady.pair here).1
  by_cases trial : (status 0).advance.onTrial = true
  · rw [if_neg (not_not_intro (revert.mpr trial))]
    congr 1
    funext image
    rw [BootModel.read, if_pos trial]
  · rw [if_pos (mt revert.mp trial), startDeviceCommits_after steady.advance]
    congr 1
    funext image
    rw [BootModel.read, if_neg trial]

theorem reboot_after (steady : base.Steady status) (behaviour : base.config.behaviour = .swapWithRevert)
    (downgrades : base.config.noDowngrade = false) : (base.after status content).reboot =
      base.after (fun image => (status image).boot (base.howOf image)) content := by
  unfold reboot
  rw [if_neg (by rw [directXip_after behaviour]; exact Bool.false_ne_true)]
  refine mapImages_after fun image origin here => ?_
  obtain ⟨idle, suits⟩ := steady.pair here
  rw [config_after, Status.settle_pair _ behaviour downgrades, Status.boot_pair idle suits, howOf_eq here]

theorem findByHash_eq {slot : Nat} {found : Bytes} {hash : ImageHash}
    (here : m.slotContent slot = some found) (holder : carries found hash = true)
    (first : ∀ other < slot, ∀ earlier, m.slotContent other = some earlier → carries earlier hash = false) :
    m.findByHash hash.bytes = some slot := by
  have inside : slot / 2 < m.images.length := by
    obtain ⟨pair, present, _⟩ := map_eq_some_iff.mp here
    exact (List.getElem?_eq_some_iff.mp present).1
  rw [findByHash, find?_range_eq_some]
  refine ⟨?_, mem_range.mpr (by omega), fun other before => ?_⟩
  · rw [here, bind_some]
    exact holder
  cases content : m.slotContent other with
  | none => rfl
  | some earlier =>
    rw [bind_some]
    have absent := first other before earlier content
    unfold carries at absent
    rw [absent]
    rfl

def Alone (m : BootModel) (image : Nat) (hash : ImageHash) : Prop :=
  ∀ other pair, other ≠ image → m.images[other]? = some pair →
    carries pair.primary hash = false ∧ carries pair.secondary hash = false

section
variable {image : Nat} {origin : ImagePair} {hash : ImageHash}

theorem findByHash_secondary {pair : ImagePair} (here : m.images[image]? = some pair)
    (alone : m.Alone image hash) (stopped : carries pair.primary hash = false)
    (holder : carries pair.secondary hash = true) : m.findByHash hash.bytes = some (image * 2 + 1) := by
  have content : m.slotContent (image * 2 + 1) = some pair.secondary := by
    rw [slotContent, show (image * 2 + 1) / 2 = image by omega, show (image * 2 + 1) % 2 = 1 by omega, here]
    rfl
  refine findByHash_eq content holder fun other before earlier found => ?_
  obtain ⟨neighbour, present, rfl⟩ := map_eq_some_iff.mp found
  by_cases same : other / 2 = image
  · have zero : other % 2 = 0 := by omega
    rw [same, here] at present
    rw [zero, ← Option.some.inj present]
    exact stopped
  · obtain ⟨primary, secondary⟩ := alone (other / 2) neighbour same present
    unfold ImagePair.slot
    split
    · exact primary
    · exact secondary

theorem setState_mark (behaviour : base.config.behaviour = .swapWithRevert) (here : base.images[image]? = some origin)
    (idle : origin.Idle) (loaded : status image = .loaded) (alone : (base.after status content).Alone image hash)
    (stopped : carries origin.primary hash = false) (holder : carries (content image) hash = true) :
    (base.after status content).setState (some hash.bytes) false =
      (ImageError.ok, base.after (Function.update status image .marked) content) := by
  have present : (base.after status content).images[image]? = some (Status.loaded.pair origin (content image)) := by
    rw [images_after, here, loaded]
    rfl
  have found := findByHash_secondary present alone stopped holder
  have unscheduled : (Status.loaded.pair origin (content image)).scheduled 1 false = none := by
    obtain ⟨primary, secondary, device, rfl⟩ := idle.eq
    rfl
  have marked : (base.after status content).setImage image
      { Status.loaded.pair origin (content image) with swap := .test } =
        base.after (update status image .marked) content := by
    have set := @setImage_after base status content image origin here .marked (content image)
    rw [update_eq_self] at set
    exact set
  have none_ : (Status.loaded.pair origin (content image)).swap = .none := idle.swap
  unfold setState supportsSetState
  simp only [directXip_after behaviour, config_after, behaviour, found]
  unfold setNextBootSlot
  simp only [show (image * 2 + 1) / 2 = image by omega, show (image * 2 + 1) % 2 = 1 by omega, present, unscheduled,
    bootSetNext, none_]
  simp [marked]

def confirmed (base : BootModel) (status : Nat → Status) (image : Nat) : Status :=
  (Function.update status 0 .installed image).commit (base.howOf image)

theorem confirmed_first : base.confirmed status 0 = .installed := by
  unfold confirmed
  rw [update_self]
  rfl

theorem confirmed_other (other : image ≠ 0) :
    base.confirmed status image = (status image).commit (base.howOf image) := by
  unfold confirmed
  rw [update_of_ne other]

theorem Steady.confirmed (steady : base.Steady status) (trial : status 0 = .trial) :
    base.Steady (Function.update status 0 .installed) := by
  refine ⟨steady.idle, fun image => ?_⟩
  by_cases zero : image = 0
  · subst zero
    rw [update_self]
    exact ⟨fun _ => (steady.suits 0).succeeds (by rw [trial]; simp), nofun⟩
  · rw [update_of_ne zero]
    exact steady.suits image

theorem setState_confirm (behaviour : base.config.behaviour = .swapWithRevert) (steady : base.Steady status)
    (trial : status 0 = .trial) (holder : carries (content 0) hash = true) :
    (base.after status content).setState (some hash.bytes) true =
      (ImageError.ok, base.after (base.confirmed status) content) := by
  obtain ⟨origin, here, _⟩ := head_after status content (base.after status content).some_
  obtain ⟨idle, suits⟩ := steady.pair here
  have present : (base.after status content).images[0]? = some (Status.trial.pair origin (content 0)) := by
    rw [images_after, here, trial]
    rfl
  have found : (base.after status content).findByHash hash.bytes = some 0 := by
    have first : (base.after status content).slotContent 0 = some (content 0) := by
      rw [slotContent, Nat.zero_div, present]
      rfl
    exact findByHash_eq first holder fun other before => absurd before (Nat.not_lt_zero _)
  have installed : (base.after status content).setImage 0
      { Status.trial.pair origin (content 0) with swap := .none, applying := none, committing := none } =
        base.after (update status 0 .installed) content := by
    have set := @setImage_after base status content 0 origin here .installed (content 0)
    rw [update_eq_self] at set
    obtain ⟨primary, secondary, device, rfl⟩ := idle.eq
    exact set
  unfold setState supportsSetState
  simp only [directXip_after behaviour, config_after, behaviour, found]
  unfold setNextBootSlot
  simp only [Nat.zero_div, Nat.zero_mod, present]
  have revert : (Status.trial.pair origin (content 0)).swap = .revert := rfl
  simp [ImagePair.scheduled, revert, bootSetNext, installed, startDeviceCommits_after (steady.confirmed trial)]
  rfl

end

def receive (m : BootModel) (image : Nat) (file : Bytes) : Option BootModel := do
  let slot ← m.uploadTarget image
  let erased ← m.beginUpload slot file.length
  let (_, written) ← erased.write slot 0 file
  some written

theorem setImage_setImage (m : BootModel) (image : Nat) (first second : ImagePair) :
    (m.setImage image first).setImage image second = m.setImage image second := by
  have length : ((m.images.set image first).set image second).length = m.images.length := by
    rw [length_set, length_set]
  exact withImages_congr length (length_set ..) (set_set ..)

theorem receive_eq {pair : ImagePair} (swaps : m.directXip = false)
    (here : m.images[image]? = some pair) (file : Bytes) :
    m.receive image file = some (m.setImage image { pair with secondary := file }) := by
  have inside := (List.getElem?_eq_some_iff.mp here).1
  have half : (image * 2 + 1) / 2 = image := by omega
  have odd : (image * 2 + 1) % 2 = 1 := by omega
  have load (m : BootModel) (pair : ImagePair) (here : m.images[image]? = some pair) (bytes : Bytes) :
      m.loadSlot (image * 2 + 1) bytes = some (m.setImage image { pair with secondary := bytes }) := by
    rw [loadSlot, half, odd, here]
    rfl
  have blank : (m.setImage image { pair with secondary := replicate file.length 0xFF }).images[image]? =
      some { pair with secondary := replicate file.length 0xFF } := by
    show (m.images.set image _)[image]? = _
    rw [getElem?_set_self inside]
  have content : (m.setImage image { pair with secondary := replicate file.length 0xFF }).slotContent
      (image * 2 + 1) = some (replicate file.length 0xFF) := by
    rw [slotContent, half, odd, blank]
    rfl
  have target : m.uploadTarget image = some (image * 2 + 1) := by
    rw [uploadTarget, if_neg (by omega), swaps, if_neg (by simp)]
  have erased : m.beginUpload (image * 2 + 1) file.length =
      some (m.setImage image { pair with secondary := replicate file.length 0xFF }) := by
    have kept : (m.setImage image { pair with secondary := replicate file.length 0xFF }).directXip = false := swaps
    rw [beginUpload, load m pair here, map_some, kept]
    simp
  have written : (m.setImage image { pair with secondary := replicate file.length 0xFF }).write (image * 2 + 1) 0
      file = some (true, m.setImage image { pair with secondary := file }) := by
    rw [write, content, bind_some, if_neg (by simp), load _ _ blank, setImage_setImage]
    simp
  unfold receive
  simp only [target, erased, written, bind_eq_bind, bind_some]

theorem receive_after {image : Nat} {origin : ImagePair} (behaviour : base.config.behaviour = .swapWithRevert)
    (here : base.images[image]? = some origin) (waiting : status image = .waiting) (file : Bytes) :
    (base.after status content).receive image file =
      some (base.after (Function.update status image .loaded) (Function.update content image file)) := by
  have present : (base.after status content).images[image]? = some origin := by
    rw [images_after, here, waiting]
    rfl
  rw [receive_eq (directXip_after behaviour) present file, ← setImage_after here .loaded file]
  rfl

end BootModel

end Smply.Boot
