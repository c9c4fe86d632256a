import Smply.Dfu.Scenario

namespace Smply.Dfu

open Boot BootModel Status

variable {update : Update}

def Scenario.Kept (s : Scenario) (update : Update) : Prop := carries (s.origin update).primary update.target.hash = true

structure Scenario.Delivered (s : Scenario) (update : Update) (content : Bytes) : Prop where
  carried : carries content update.target.hash = true
  stopped : carries (s.origin update).primary update.target.hash = false
  source : content = update.file ∨ content = (s.origin update).secondary

structure Scenario.Tracks (s : Scenario) (status : Nat → Status) (content : Nat → Bytes) : Prop where
  steady : s.device.Steady status
  untouched : ∀ image, (∀ update ∈ s.updates, update.place ≠ image) → status image = .waiting
  delivered : ∀ update ∈ s.updates, status update.place ≠ .waiting → s.Delivered update (content update.place)

section
variable {s : Scenario} {status : Nat → Status} {content : Nat → Bytes} {update other : Update}

section
variable (valid : s.Valid) (one : update ∈ s.updates) (two : other ∈ s.updates)
include valid one two

theorem Scenario.Valid.same_place (same : update.place = other.place) :
    update = other := List.inj_on_of_nodup_map valid.images one two same

theorem Scenario.Valid.same_hash (same : update.target.hash = other.target.hash) : update = other :=
  List.inj_on_of_nodup_map valid.hashes one two same

end

theorem Scenario.Valid.howOf (valid : s.Valid) (member : update ∈ s.updates) :
    s.device.howOf update.place = (s.origin update).device := howOf_eq (valid.each update member).present

theorem Scenario.Valid.client (valid : s.Valid) (member : update ∈ s.updates) :
    update.target.commit = .client ↔ update.place = 0 := by
  constructor
  · intro client
    by_contra later
    rw [((valid.each update member).own later).1] at client
    cases client
  · exact fun zero => ((valid.each update member).client zero).1

theorem Scenario.present (s : Scenario) (status : Nat → Status) (content : Nat → Bytes) (valid : s.Valid)
    (member : update ∈ s.updates) :
    (s.device.after status content).images[update.target.image.toNat]? =
      some ((status update.place).pair (s.origin update) (content update.place)) := by
  have here := (valid.each update member).present
  unfold Update.place at here ⊢
  rw [images_after, here]
  rfl

namespace Scenario.Tracks

variable (tracks : s.Tracks status content)

include tracks

theorem touched {image : Nat} (some_ : status image ≠ .waiting) : ∃ update ∈ s.updates, update.place = image := by
  by_contra none_
  refine some_ (tracks.untouched image fun update member same => none_ ⟨update, member, same⟩)

theorem alone (valid : s.Valid) (member : update ∈ s.updates) :
    (s.device.after status content).Alone update.place update.target.hash := by
  intro image pair apart here
  rw [images_after] at here
  obtain ⟨origin, there, rfl⟩ := Option.map_eq_some_iff.mp here
  obtain ⟨primary, secondary⟩ := (valid.each update member).alone image origin apart there
  by_cases waiting : status image = .waiting
  · rw [waiting]
    exact ⟨primary, secondary⟩
  obtain ⟨other, listed, rfl⟩ := tracks.touched waiting
  have foreign : carries (content other.place) update.target.hash = false := by
    by_contra carried
    rw [Bool.not_eq_false] at carried
    have same := carries_unique carried (tracks.delivered other listed waiting).carried
    exact apart (congrArg Update.place (valid.same_hash listed member same.symm))
  constructor
  · rcases pair_primary origin (content other.place) (status other.place) with same | same
    · rw [same]
      exact primary
    · rw [same]
      exact foreign
  · rcases pair_secondary origin (content other.place) (status other.place) with same | same | same
    · rw [same]
      exact primary
    · rw [same]
      exact secondary
    · rw [same]
      exact foreign

theorem first (valid : s.Valid) : (status 0).background = false := by
  by_contra busy
  rw [Bool.not_eq_false] at busy
  have some_ : status 0 ≠ .waiting := by
    intro waiting
    rw [waiting] at busy
    cases busy
  obtain ⟨update, member, zero⟩ := tracks.touched some_
  have own := (tracks.steady.suits 0).own busy
  rw [← zero, valid.howOf member, ((valid.each update member).client zero).2] at own
  exact own rfl

theorem read_first (valid : s.Valid) : s.device.read status 0 = status 0 := by
  have calm := tracks.first valid
  have kept : (status 0).advance = status 0 := by
    cases found : status 0 with
    | applying left | committing left =>
      rw [found] at calm
      cases calm
    | waiting | loaded | marked | trial | installed => rfl
  unfold BootModel.read
  rw [kept]
  by_cases waiting : status 0 = .waiting
  · rw [waiting]
    rfl
  obtain ⟨update, member, zero⟩ := tracks.touched waiting
  have none_ : s.device.howOf 0 = none := by
    rw [← zero, valid.howOf member, ((valid.each update member).client zero).2]
  rw [none_]
  cases found : status 0 <;> rfl

theorem read : s.Tracks (s.device.read status) content := by
  have kept (image : Nat) := @read_eq_iff s.device status image .waiting (.inl rfl)
  exact ⟨tracks.steady.read, fun image free => (kept image).mpr (tracks.untouched image free),
    fun update member touched => tracks.delivered update member (mt (kept _).mpr touched)⟩

theorem boot : s.Tracks (fun image => (status image).boot (s.device.howOf image)) content := by
  have kept (image : Nat) : (status image).boot (s.device.howOf image) = .waiting ↔ status image = .waiting := by
    cases status image with
    | waiting | loaded | installed | trial | committing => simp [Status.boot]
    | marked | applying left => cases s.device.howOf image <;> simp [Status.boot]
  exact ⟨tracks.steady.boot, fun image free => (kept image).mpr (tracks.untouched image free),
    fun update member touched => tracks.delivered update member (mt (kept _).mpr touched)⟩

theorem move (valid : s.Valid) (member : update ∈ s.updates) {next : Status} {brought : Bytes}
    (delivered : s.Delivered update brought) (calm : next.background = false) :
    s.Tracks (Function.update status update.place next) (Function.update content update.place brought) := by
  refine ⟨⟨tracks.steady.idle, fun image => ?_⟩, fun image free => ?_, fun other listed touched => ?_⟩
  · by_cases same : image = update.place
    · subst same
      rw [Function.update_self]
      refine ⟨fun _ => ?_, fun busy => ?_⟩
      · rw [valid.howOf member]
        exact (valid.each update member).succeeds
      · rw [calm] at busy
        cases busy
    · rw [Function.update_of_ne same]
      exact tracks.steady.suits image
  · rw [Function.update_of_ne (Ne.symm (free update member))]
    exact tracks.untouched image free
  · by_cases same : other.place = update.place
    · obtain rfl := valid.same_place listed member same
      rw [Function.update_self]
      exact delivered
    · rw [Function.update_of_ne same] at touched ⊢
      exact tracks.delivered other listed touched

end Scenario.Tracks

end

def verdictOf : Status → Apply
  | .loaded | .marked | .applying _ => .applying
  | .trial | .committing _ => .onTrial
  | .waiting | .installed => .committed

/-- The device has booted the update: each new image is applied or being applied, and none committed while image 0 is on
trial. -/
structure Scenario.Live (s : Scenario) (status : Nat → Status) : Prop where
  kept : ∀ update ∈ s.updates, status update.place = .waiting → s.Kept update
  booted : ∀ update ∈ s.updates, status update.place ≠ .loaded ∧ status update.place ≠ .marked
  held : ∀ update ∈ s.updates, update.place ≠ 0 → (status update.place).settles = true → status 0 ≠ .trial

section
variable {s : Scenario} {status : Nat → Status} {content : Nat → Bytes} {update : Update} {c : Context}

def Scenario.Told (s : Scenario) (status : Nat → Status) (content : Nat → Bytes) (c : Context) : Prop :=
  c.device = some (tableOf (s.device.after status content).listing)

section
variable (told : s.Told status content c) (valid : s.Valid) (member : update ∈ s.updates)
include told valid member

theorem Scenario.Told.running : holds (activeOf c update.target.image) update.target =
      carries ((status update.place).pair (s.origin update) (content update.place)).primary update.target.hash :=
  running_told told (directXip_after valid.behaviour) (s.present status content valid member) (valid.each update member).named

theorem Scenario.Told.confirmed (runs : holds (activeOf c update.target.image) update.target = true) :
    isConfirmed (activeOf c update.target.image) = !(status update.place).onTrial := by
  rw [told.running valid member] at runs
  have idle := valid.idle _ (List.mem_of_getElem? (valid.each update member).present)
  rw [isConfirmed_told told (directXip_after valid.behaviour) (s.present status content valid member) runs, Bool.eq_iff_iff,
    decide_eq_true_iff, Bool.not_eq_true', ne_eq, swap_pair_revert idle, Bool.not_eq_true]

end

variable (live : s.Live status) (tracks : s.Tracks status content)

include live tracks

theorem Scenario.Live.carries (member : update ∈ s.updates) :
    Boot.carries ((status update.place).pair (s.origin update) (content update.place)).primary update.target.hash =
      (verdictOf (status update.place) != .applying) := by
  cases found : status update.place with
  | waiting => exact live.kept update member found
  | loaded => exact absurd found (live.booted update member).1
  | marked => exact absurd found (live.booted update member).2
  | applying => exact (tracks.delivered update member (by rw [found]; simp)).stopped
  | trial | committing left | installed => exact (tracks.delivered update member (by rw [found]; simp)).carried

section
variable (told : s.Told status content c) (valid : s.Valid) (member : update ∈ s.updates)
include told valid member

theorem Scenario.Live.running :
    holds (activeOf c update.target.image) update.target = (verdictOf (status update.place) != .applying) := by
  rw [told.running valid member, live.carries tracks member]

theorem Scenario.Live.applyOf : Dfu.applyOf c update.target = verdictOf (status update.place) := by
  have here := s.present status content valid member
  have named := (valid.each update member).named
  have idle := valid.idle _ (List.mem_of_getElem? (valid.each update member).present)
  have carries := live.carries tracks member
  cases found : status update.place with
  | loaded => exact absurd found (live.booted update member).1
  | marked => exact absurd found (live.booted update member).2
  | applying =>
    have delivered := tracks.delivered update member (by rw [found]; simp)
    rw [found] at here
    exact applyOf_pending told (directXip_after valid.behaviour) here named delivered.stopped delivered.carried rfl
  | waiting | installed =>
    rw [found] at here carries
    rw [applyOf_running told (directXip_after valid.behaviour) here named carries]
    exact if_pos (by rw [swap_pair idle]; simp)
  | trial | committing left =>
    rw [found] at here carries
    rw [applyOf_running told (directXip_after valid.behaviour) here named carries]
    exact if_neg (by rw [swap_pair idle]; simp)

end

end

section
variable {s : Scenario} {status : Nat → Status} {content : Nat → Bytes}

theorem Scenario.Live.read (live : s.Live status) (tracks : s.Tracks status content) (valid : s.Valid) :
    s.Live (s.device.read status) := by
  refine ⟨fun update member waiting => ?_, fun update member => ⟨?_, ?_⟩, fun update member later settles => ?_⟩
  · exact live.kept update member ((read_eq_iff _ (.inl rfl)).mp waiting)
  · exact mt (read_eq_iff _ (.inr (.inl rfl))).mp (live.booted update member).1
  · exact mt (read_eq_iff _ (.inr (.inr rfl))).mp (live.booted update member).2
  · rw [tracks.read_first valid]
    intro trial
    unfold BootModel.read at settles
    rw [trial, if_pos (show Status.trial.advance.onTrial = true from rfl)] at settles
    exact live.held update member later (settles_of_advance settles) trial

def Scenario.Ready (s : Scenario) (status : Nat → Status) : Prop :=
  ∀ update ∈ s.updates, (status update.place = .waiting ∧ s.Kept update) ∨ status update.place = .marked

theorem Scenario.Ready.boot (ready : s.Ready status) :
    s.Live fun image => (status image).boot (s.device.howOf image) := by
  have each (update : Update) (member : update ∈ s.updates) :
      (status update.place).boot (s.device.howOf update.place) = .waiting ∧ s.Kept update ∨
        (∃ left, (status update.place).boot (s.device.howOf update.place) = .applying left) ∨
        (status update.place).boot (s.device.howOf update.place) = .trial := by
    rcases ready update member with ⟨waiting, kept⟩ | marked
    · rw [waiting]
      exact .inl ⟨rfl, kept⟩
    rw [marked]
    cases s.device.howOf update.place with
    | none => exact .inr (.inr rfl)
    | some how => exact .inr (.inl ⟨how.applyReads, rfl⟩)
  refine ⟨fun update member waiting => ?_, fun update member => ?_, fun update member later settles => ?_⟩
  · rcases each update member with ⟨_, kept⟩ | ⟨left, applying⟩ | trial
    · exact kept
    · rw [applying] at waiting
      cases waiting
    · rw [trial] at waiting
      cases waiting
  · rcases each update member with ⟨waiting, _⟩ | ⟨left, applying⟩ | trial
    · rw [waiting]
      simp
    · rw [applying]
      simp
    · rw [trial]
      simp
  · rcases each update member with ⟨waiting, _⟩ | ⟨left, applying⟩ | trial
    · rw [waiting] at settles
      cases settles
    · rw [applying] at settles
      cases settles
    · rw [trial] at settles
      cases settles

theorem Scenario.Live.confirmed (live : s.Live status) : s.Live (s.device.confirmed status) := by
  have kept (update : Update) (early : Status) (is : early = .waiting ∨ early = .loaded ∨ early = .marked)
      (here : s.device.confirmed status update.place = early) : status update.place = early := by
    by_cases zero : update.place = 0
    · rw [zero, confirmed_first] at here
      rcases is with rfl | rfl | rfl <;> cases here
    · rw [confirmed_other zero] at here
      exact (commit_eq_iff _ is).mp here
  refine ⟨fun update member waiting => ?_, fun update member => ⟨fun here => ?_, fun here => ?_⟩, fun _ _ _ _ => ?_⟩
  · exact live.kept update member (kept update _ (.inl rfl) waiting)
  · exact (live.booted update member).1 (kept update _ (.inr (.inl rfl)) here)
  · exact (live.booted update member).2 (kept update _ (.inr (.inr rfl)) here)
  · rw [confirmed_first]
    simp

theorem Scenario.Tracks.confirmed (tracks : s.Tracks status content) (trial : status 0 = .trial) :
    s.Tracks (s.device.confirmed status) content := by
  have steady := tracks.steady.confirmed trial
  have kept (image : Nat) : s.device.confirmed status image = .waiting ↔ status image = .waiting := by
    by_cases zero : image = 0
    · subst zero
      rw [confirmed_first, trial]
      simp
    · rw [confirmed_other zero]
      exact commit_eq_iff _ (.inl rfl)
  exact ⟨⟨steady.idle, fun image => (steady.suits image).commit⟩,
    fun image free => (kept image).mpr (tracks.untouched image free),
    fun update member touched => tracks.delivered update member (mt (kept _).mpr touched)⟩

def Scenario.total (s : Scenario) (status : Nat → Status) : Nat :=
  (s.updates.map fun update => (status update.place).left (s.device.howOf update.place)).sum

section
variable {next : Nat → Status}
  (each : ∀ update ∈ s.updates, (next update.place).left (s.device.howOf update.place) ≤ (status update.place).left (s.device.howOf update.place))
include each

theorem Scenario.total_le : s.total next ≤ s.total status :=
  List.sum_le_sum each

theorem Scenario.total_lt (member : update ∈ s.updates)
    (less : (next update.place).left (s.device.howOf update.place) <
      (status update.place).left (s.device.howOf update.place)) : s.total next < s.total status :=
  List.sum_lt_sum _ _ each ⟨update, member, less⟩

end

theorem Scenario.total_read (s : Scenario) (status : Nat → Status) : s.total (s.device.read status) ≤ s.total status :=
  Scenario.total_le fun update _ => left_read s.device status update.place

theorem Scenario.Tracks.read_lt (tracks : s.Tracks status content) (member : update ∈ s.updates)
    (busy : (status update.place).background = true) : s.total (s.device.read status) < s.total status := by
  refine Scenario.total_lt (fun other _ => left_read s.device status other.place) member ?_
  have advanced := left_advance_lt _ _ ((tracks.steady.suits update.place).own busy) busy
  unfold BootModel.read
  split
  · exact advanced
  · exact (left_commit _ _).trans_lt advanced

theorem Scenario.Tracks.read_lt_trial (tracks : s.Tracks status content) (valid : s.Valid) (quiet : status 0 ≠ .trial)
    (member : update ∈ s.updates) (own : update.target.commit = .device)
    (trial : status update.place = .trial) : s.total (s.device.read status) < s.total status := by
  refine Scenario.total_lt (fun other _ => left_read s.device status other.place) member ?_
  have first := tracks.first valid
  have calm : (status 0).advance.onTrial = false := by
    cases found : status 0 with
    | trial => exact absurd found quiet
    | waiting | loaded | marked | installed => rfl
    | applying left | committing left =>
      rw [found] at first
      cases first
  have later : update.place ≠ 0 := by
    intro zero
    rw [(valid.client member).mpr zero] at own
    cases own
  have how : s.device.howOf update.place ≠ none := by
    rw [valid.howOf member]
    exact ((valid.each update member).own later).2
  unfold BootModel.read
  rw [calm, if_neg Bool.false_ne_true, trial]
  exact left_commit_lt _ how

end

end Smply.Dfu
