import Smply.Dfu.Tracking

namespace Smply.Dfu

open Boot BootModel List Context

variable {update : Update}

structure Scenario.Fixed (s : Scenario) (c : Context) : Prop where
  targets : c.targets.map (·.toTarget) = s.updates.map (·.target)
  mode : swaps c.report.bootloaderMode = true
  newer : c.noDowngrade = false

structure Scenario.Plans (s : Scenario) (status : Nat → Status) (place : Nat) (c : Context) : Prop
    extends s.Fixed c where
  current : c.current = place
  before : ∀ index < place, ∀ update, s.updates[index]? = some update →
    (status update.place = .waiting ∧ s.Kept update) ∨ status update.place = .marked
  beyond : ∀ index > place, ∀ update, s.updates[index]? = some update → status update.place = .waiting
  swap : c.swapScheduled = true ↔ ∃ update ∈ s.updates, status update.place = .marked

section
variable {s : Scenario} {c : Context}

theorem Scenario.Fixed.length (fixed : s.Fixed c) : c.targets.length = s.updates.length := by
  have same := congrArg List.length fixed.targets
  rwa [length_map, length_map] at same

theorem Scenario.Fixed.target (fixed : s.Fixed c) {index : Nat} (found : s.updates[index]? = some update) :
    ∃ target, c.targets[index]? = some target ∧ target.toTarget = update.target := by
  have same := congrArg (·[index]?) fixed.targets
  simp only [getElem?_map, found, Option.map_some, Option.map_eq_some_iff] at same
  exact same

theorem Scenario.Fixed.mem (fixed : s.Fixed c) {target : Image} (member : target ∈ c.targets) :
    ∃ update ∈ s.updates, update.target = target.toTarget := by
  have mapped := fixed.targets ▸ mem_map_of_mem member
  exact mem_map.mp mapped

end

section
variable {s : Scenario} {status : Nat → Status} {content : Nat → Bytes} {c : Context} {plan : UpdatePlan} {place : Nat}
  {update : Update}

theorem chooseBuild_single {target : Image} (found : c.targets[c.current]? = some target)
    (single : target.builds = none) : c.chooseBuild = (none, c) := by
  unfold chooseBuild
  simp only [found, single]

theorem planTurn_running (valid : s.Valid) (fixed : s.Fixed c) (told : s.Told status content c)
    (found : s.updates[c.current]? = some update) (waits : status update.place = .waiting) (kept : s.Kept update) :
    ∃ images, c.planTurn plan = (none, c.withImages images) := by
  obtain ⟨target, here, same⟩ := fixed.target found
  have member := mem_of_getElem? found
  have single : target.builds = none := by
    rw [show target.builds = target.toTarget.builds from rfl, same]
    exact (valid.each update member).single
  have present := s.present status content valid member
  rw [waits] at present
  have holder := slotHolding_running told (directXip_after valid.behaviour) present (valid.each update member).named kept
  have runs :=
    (running_told told (directXip_after valid.behaviour) present (valid.each update member).named).trans kept
  refine ⟨c.report.images.modify c.current fun image => { image with uploadSkipped := true }, ?_⟩
  unfold planTurn
  simp only [chooseBuild_single here single, here, same, holder]
  cases active : activeOf c update.target.image with
  | none =>
    rw [active] at runs
    cases runs
  | some =>
    simp only [↓reduceIte]
    rfl

theorem startUpload_passes (fixed : s.Fixed c) : c.startUpload plan =
    (some { next := .uploading, effect := .startUpload },
      { c with preconditionsChecked := true, uploadInProgress := true }) := by
  unfold startUpload
  rw [checkPreconditions_passes plan fixed.mode fixed.newer]

theorem planTurn_stopped (valid : s.Valid) (whole : uploadOnly plan = false) (fixed : s.Fixed c)
    (told : s.Told status content c) (found : s.updates[c.current]? = some update)
    (waits : status update.place = .waiting)
    (stopped : carries (s.origin update).primary update.target.hash = false) :
    c.planTurn plan = (some { next := .uploading, effect := .startUpload },
        { c with preconditionsChecked := true, uploadInProgress := true }) ∨
      carries (s.origin update).secondary update.target.hash = true ∧
        ∃ images, c.planTurn plan = (some { next := .markingForTest, effect := .markForTest },
          { c.withImages images with preconditionsChecked := true }) := by
  obtain ⟨target, here, same⟩ := fixed.target found
  have member := mem_of_getElem? found
  have named := (valid.each update member).named
  have single : target.builds = none := by
    rw [show target.builds = target.toTarget.builds from rfl, same]
    exact (valid.each update member).single
  have present := s.present status content valid member
  rw [waits] at present
  have idle := valid.idle _ (mem_of_getElem? (valid.each update member).present)
  by_cases holder : carries (s.origin update).secondary update.target.hash = true
  · obtain ⟨slot, search, pending, apart⟩ :=
      slotHolding_secondary told (directXip_after valid.behaviour) present named stopped holder
    have unmarked : slot.pending = false := by
      rw [pending]
      simp [Status.pair, idle.swap]
    by_cases skip : plan.skipIfAlreadyPresent = true
    · refine .inr ⟨holder, (c.report.images.modify c.current fun image => { image with uploadSkipped := true }).modify
        c.current fun image => { image with uploadSlot := some slot.slot }, ?_⟩
      have settable := withoutSetState_of_swaps fixed.mode
      have checked := checkPreconditions_passes (c := c.modifyImage c.current fun image => { image with uploadSkipped := true })
        plan fixed.mode fixed.newer
      unfold planTurn
      simp only [chooseBuild_single here single, here, same, search, apart, unmarked, skip, whole, ↓reduceIte,
        Bool.false_eq_true, checked]
      unfold markOrSkip
      rw [if_neg]
      · rfl
      · rw [Bool.not_eq_true]
        exact settable
    · refine .inl ?_
      unfold planTurn
      simp only [chooseBuild_single here single, here, same, search, apart, unmarked, skip, ↓reduceIte,
        Bool.false_eq_true, startUpload_passes fixed]
  · refine .inl ?_
    rw [Bool.not_eq_true] at holder
    have search := slotHolding_absent told (directXip_after valid.behaviour) present named stopped holder
    unfold planTurn
    simp only [chooseBuild_single here single, here, same, search, startUpload_passes fixed]

theorem Scenario.Plans.withTable (plans : s.Plans status place c) (event : Event) :
    s.Plans status place (c.withTable event) := { plans with }

theorem uploadVerified_marks (plan : UpdatePlan) (valid : s.Valid) (tracks : s.Tracks status content)
    (plans : s.Plans status place c) (told : s.Told status content c) (found : s.updates[place]? = some update)
    (loaded : status update.place = .loaded) :
    ∃ images, c.uploadVerified plan = ({ next := .markingForTest, effect := .markForTest }, c.withImages images) := by
  obtain ⟨target, here, same⟩ := plans.target found
  rw [← plans.current] at here
  have member := mem_of_getElem? found
  have delivered := tracks.delivered update member (by rw [loaded]; simp)
  have present := s.present status content valid member
  rw [loaded] at present
  obtain ⟨slot, search, -, -⟩ := slotHolding_secondary told (directXip_after valid.behaviour) present
    (valid.each update member).named delivered.stopped delivered.carried
  have settable (images : List ImageReport) : withoutSetState (c.withImages images) = false :=
    withoutSetState_of_swaps plans.mode
  refine ⟨c.report.images.modify c.current fun image => { image with uploadSlot := some slot.slot }, ?_⟩
  unfold uploadVerified
  simp only [here, Option.bind_some, same, search]
  exact if_neg fun without => Bool.false_ne_true ((settable _).symm.trans without)

end

section
variable {s : Scenario} {status : Nat → Status} {content : Nat → Bytes} {c : Context} {place : Nat}

inductive Scenario.Stages (s : Scenario) (status : Nat → Status) (content : Nat → Bytes) (from_ : Nat) :
    Step × Context → Prop where
  | upload {place : Nat} {update : Update} {c : Context} (later : from_ ≤ place) (found : s.updates[place]? = some update)
      (waits : status update.place = .waiting) (stopped : carries (s.origin update).primary update.target.hash = false)
      (plans : s.Plans status place c) : s.Stages status content from_ ({ next := .uploading, effect := .startUpload }, c)
  | mark {place : Nat} {update : Update} {c : Context} (later : from_ ≤ place) (found : s.updates[place]? = some update)
      (waits : status update.place = .waiting) (stopped : carries (s.origin update).primary update.target.hash = false)
      (holder : carries (s.origin update).secondary update.target.hash = true) (plans : s.Plans status place c) :
      s.Stages status content from_ ({ next := .markingForTest, effect := .markForTest }, c)
  | reset {c : Context} (ready : s.Ready status) (fixed : s.Fixed c) :
      s.Stages status content from_ ({ next := .resetting, effect := .reset }, c)
  | judged {c : Context} (ready : s.Ready status) (fixed : s.Fixed c) (told : s.Told status content c)
      (none_ : ∀ update ∈ s.updates, status update.place ≠ .marked) :
      s.Stages status content from_ (c.inspectBoot s.plan)

theorem Scenario.Stages.earlier {first second : Nat} {result : Step × Context}
    (stages : s.Stages status content second result) (before : first ≤ second) :
    s.Stages status content first result := by
  cases stages with
  | upload later found waits stopped plans => exact .upload (Nat.le_trans before later) found waits stopped plans
  | mark later found waits stopped holder plans => exact .mark (Nat.le_trans before later) found waits stopped holder plans
  | reset ready fixed => exact .reset ready fixed
  | judged ready fixed told none_ => exact .judged ready fixed told none_

theorem Scenario.Valid.stages (valid : s.Valid) : uploadOnly s.plan = false := by
  have whole := valid.whole
  unfold uploadOnly
  cases mode : s.plan.mode
  · rfl
  · rfl
  · exact absurd mode whole

theorem Scenario.Plans.ready (plans : s.Plans status s.updates.length c) : s.Ready status := by
  intro update member
  obtain ⟨index, inside, rfl⟩ := mem_iff_getElem.mp member
  exact plans.before index inside _ (getElem?_eq_getElem inside)

theorem Scenario.Plans.staged (plans : s.Plans status s.updates.length c) (valid : s.Valid)
    (told : s.Told status content c) (from_ : Nat) : s.Stages status content from_ (c.staged s.plan) := by
  unfold Context.staged
  rw [valid.stages, if_neg Bool.false_ne_true]
  by_cases owed : c.swapScheduled = true
  · rw [if_pos owed, checkPreconditions_passes s.plan plans.mode plans.newer]
    exact .reset plans.ready ⟨plans.targets, plans.mode, plans.newer⟩
  · rw [if_neg owed]
    exact .judged plans.ready plans.toFixed told fun update member marked => owed (plans.swap.mpr ⟨update, member, marked⟩)

theorem Scenario.Plans.past (plans : s.Plans status place c) (found : s.updates[place]? = some update)
    (waits : status update.place = .waiting) (kept : s.Kept update) (images : List ImageReport) :
    s.Plans status (place + 1) { c.withImages images with current := c.current + 1 } where
  targets := plans.targets
  mode := plans.mode
  newer := plans.newer
  current := by rw [← plans.current]
  before := by
    intro index below other here
    by_cases same : index = place
    · subst same
      obtain rfl : update = other := Option.some.inj (found.symm.trans here)
      exact .inl ⟨waits, kept⟩
    · exact plans.before index (by omega) other here
  beyond := fun index above => plans.beyond index (by omega)
  swap := plans.swap

theorem planLoop_stages (valid : s.Valid) (told : s.Told status content c) (left : Nat)
    (plans : s.Plans status place c) (whole : place + left = s.updates.length)
    (waits : ∀ update, s.updates[place]? = some update → status update.place = .waiting) :
    s.Stages status content place (c.planLoop s.plan left) := by
  induction left generalizing c place with
  | zero =>
    obtain rfl : place = s.updates.length := by omega
    exact plans.staged valid told _
  | succ _ ih =>
    have inside : place < s.updates.length := by omega
    have found := getElem?_eq_getElem inside
    have here : s.updates[c.current]? = some s.updates[place] := by rw [plans.current, found]
    have still := waits _ found
    unfold planLoop
    by_cases kept : s.Kept s.updates[place]
    · obtain ⟨images, turn⟩ := @planTurn_running s status content c s.plan s.updates[place] valid plans.toFixed told here still kept
      rw [turn]
      have next := @ih { c.withImages images with current := c.current + 1 } (place + 1) told
        (plans.past found still kept images) (by omega) fun update there => plans.beyond (place + 1) (by omega) update there
      exact next.earlier (by omega)
    · have stopped := Bool.not_eq_true _ ▸ kept
      rcases @planTurn_stopped s status content c s.plan s.updates[place] valid valid.stages plans.toFixed told here still
        stopped with turn | ⟨holder, images, turn⟩
      · rw [turn]
        exact .upload (Nat.le_refl _) found still stopped { plans with }
      · rw [turn]
        exact .mark (Nat.le_refl _) found still stopped holder { plans with }

theorem Scenario.Plans.calm (plans : s.Plans status place c)
    (waits : ∀ update, s.updates[place]? = some update → status update.place = .waiting)
    (member : update ∈ s.updates) : status update.place = .waiting ∨ status update.place = .marked := by
  obtain ⟨index, inside, rfl⟩ := mem_iff_getElem.mp member
  have found := getElem?_eq_getElem inside
  rcases Nat.lt_trichotomy index place with before | rfl | after
  · rcases plans.before index before _ found with ⟨waiting, _⟩ | marked
    · exact .inl waiting
    · exact .inr marked
  · exact .inl (waits _ found)
  · exact .inl (plans.beyond index after _ found)

theorem planFromState_stages (valid : s.Valid) (told : s.Told status content c) (plans : s.Plans status place c)
    (inside : place < s.updates.length)
    (waits : ∀ update, s.updates[place]? = some update → status update.place = .waiting) :
    s.Stages status content place (c.planFromState s.plan) := by
  have untried : (c.targets.any fun target => runningOnTrial c target.toTarget) = false := by
    rw [any_eq_false]
    intro target member trial
    obtain ⟨update, listed, same⟩ := plans.mem member
    simp only [runningOnTrial, ← same, Bool.and_eq_true, beq_iff_eq, Bool.not_eq_true'] at trial
    have confirmed := told.confirmed valid listed trial.1.2
    rw [trial.2] at confirmed
    rcases plans.calm waits listed with here | here <;> rw [here] at confirmed <;> cases confirmed
  unfold planFromState
  simp only [untried, Bool.and_false, Bool.false_and, Bool.false_eq_true, ↓reduceIte]
  refine planLoop_stages valid told _ plans ?_ waits
  rw [plans.length, plans.current]
  omega

end

section
variable {s : Scenario} {status : Nat → Status} {content : Nat → Bytes} {c : Context}

/-- What the boot inspection noted: image 0 owes a confirm while it is on trial. -/
structure Scenario.Notes (s : Scenario) (status : Nat → Status) (c : Context) : Prop extends s.Fixed c where
  flags : ∀ target ∈ c.targets, target.inTrial = (target.commit == .client && status target.image.toNat == .trial)
  swap : c.swapScheduled = decide (status 0 = .trial)

inductive Scenario.Commits (s : Scenario) (status : Nat → Status) : Step × Context → Prop where
  | waiting {c : Context} {update : Update} (fixed : s.Fixed c) (member : update ∈ s.updates)
      (own : update.target.commit = .device) (busy : verdictOf (status update.place) = .onTrial) :
      s.Commits status ({ next := .awaitingDeviceCommit, effect := .awaitApply }, c)
  | completed {c : Context}
      (done : ∀ update ∈ s.updates, update.target.commit = .device → verdictOf (status update.place) = .committed) :
      s.Commits status ({ next := .completed, effect := .finish }, c)

inductive Scenario.Judges (s : Scenario) (status : Nat → Status) : Step × Context → Prop where
  | applying {c : Context} {update : Update} (notes : s.Notes status c) (member : update ∈ s.updates)
      (busy : verdictOf (status update.place) = .applying) :
      s.Judges status ({ next := .awaitingDeviceApply, effect := .awaitApply }, c)
  | asks {c : Context} {update : Update} {step : Step} (notes : s.Notes status c) (trial : status 0 = .trial)
      (calm : ∀ update ∈ s.updates, verdictOf (status update.place) ≠ .applying) (member : update ∈ s.updates)
      (first : update.place = 0) (here : (c.targets[c.current]?).map (·.toTarget) = some update.target)
      (step_eq : step = { next := .awaitingConfirmation, effect := .requestConfirmation } ∨
        step = { next := .confirming, effect := .confirm }) : s.Judges status (step, c)
  | commits {result : Step × Context} (quiet : status 0 ≠ .trial)
      (calm : ∀ update ∈ s.updates, verdictOf (status update.place) ≠ .applying)
      (outcome : s.Commits status result) : s.Judges status result

theorem Scenario.Fixed.withImages (fixed : s.Fixed c) (images : List ImageReport) : s.Fixed (c.withImages images) :=
  ⟨fixed.targets, fixed.mode, fixed.newer⟩

theorem awaitCommit_commits (valid : s.Valid) (live : s.Live status) (tracks : s.Tracks status content)
    (fixed : s.Fixed c) (told : s.Told status content c)
    (calm : ∀ update ∈ s.updates, verdictOf (status update.place) ≠ .applying) : s.Commits status c.awaitCommit := by
  have verdict (target : Image) (member : target ∈ c.targets) :
      ∃ update ∈ s.updates, update.target = target.toTarget ∧ applyOf c target.toTarget = verdictOf (status update.place) := by
    obtain ⟨update, listed, same⟩ := fixed.mem member
    exact ⟨update, listed, same, same ▸ live.applyOf tracks told valid listed⟩
  obtain ⟨images, outcome⟩ := awaitCommit_applied c fun target member _ => by
    obtain ⟨update, listed, _, is⟩ := verdict target member
    have applied := calm update listed
    rw [is]
    cases found : verdictOf (status update.place) with
    | committed => exact .inl rfl
    | onTrial => exact .inr rfl
    | applying => exact absurd found applied
    | failed => cases status : status update.place <;> rw [status] at found <;> cases found
  rw [outcome]
  split
  · rename_i busy
    obtain ⟨target, member, found⟩ := any_eq_true.mp busy
    simp only [Bool.and_eq_true, beq_iff_eq] at found
    obtain ⟨update, listed, same, is⟩ := verdict target member
    exact .waiting (fixed.withImages images) listed (by rw [same]; exact found.1) (is ▸ found.2)
  · rename_i idle
    refine .completed fun update member own => ?_
    obtain ⟨index, inside, rfl⟩ := mem_iff_getElem.mp member
    obtain ⟨target, here, same⟩ := fixed.target (getElem?_eq_getElem inside)
    have is := live.applyOf tracks told valid member
    rw [Bool.not_eq_true, any_eq_false] at idle
    have settled := idle target (mem_of_getElem? here)
    simp only [Bool.and_eq_true, beq_iff_eq, not_and] at settled
    have over_ := settled (by rw [show target.commit = target.toTarget.commit from rfl, same]; exact own)
    rw [same, is] at over_
    have applied := calm _ member
    cases found : status s.updates[index].place <;> rw [found] at over_ applied <;>
      first | rfl | exact absurd rfl over_ | exact absurd rfl applied

theorem Scenario.Live.client (live : s.Live status) (tracks : s.Tracks status content) (valid : s.Valid)
    (member : update ∈ s.updates) (client : update.target.commit = .client) :
    verdictOf (status update.place) ≠ .applying := by
  have zero := (valid.client member).mp client
  have first := tracks.first valid
  rw [← zero] at first
  obtain ⟨unloaded, unmarked⟩ := live.booted update member
  cases found : status update.place with
  | loaded => exact absurd found unloaded
  | marked => exact absurd found unmarked
  | applying =>
    rw [found] at first
    cases first
  | waiting | trial | installed | committing => simp [verdictOf]

theorem nextInTrial_found {c : Context} {target : Image} (member : target ∈ c.targets) (owed : target.inTrial = true) :
    ∃ found, c.targets[nextInTrial c 0]? = some found ∧ found.inTrial = true := by
  unfold nextInTrial
  rw [drop_zero]
  cases search : c.targets.findIdx? (·.inTrial) with
  | none =>
    have absent := findIdx?_eq_none_iff.mp search target member
    rw [owed] at absent
    cases absent
  | some =>
    obtain ⟨bound, here, _⟩ := findIdx?_eq_some_iff_getElem.mp search
    simp only [Nat.zero_add]
    exact ⟨_, getElem?_eq_getElem bound, here⟩

theorem Scenario.Notes.noted (notes : s.Notes status c) (valid : s.Valid) {target : Image} (member : target ∈ c.targets)
    (owed : target.inTrial = true) : ∃ update ∈ s.updates, update.place = 0 ∧ target.toTarget = update.target := by
  obtain ⟨update, listed, same⟩ := notes.mem member
  rw [notes.flags target member, Bool.and_eq_true, beq_iff_eq] at owed
  have client : update.target.commit = .client := by
    rw [same]
    exact owed.1
  exact ⟨update, listed, (valid.client listed).mp client, same.symm⟩

theorem confirmationFork_judges (valid : s.Valid) (tracks : s.Tracks status content) (notes : s.Notes status c)
    (trial : status 0 = .trial) (calm : ∀ update ∈ s.updates, verdictOf (status update.place) ≠ .applying) :
    s.Judges status (c.confirmationFork s.plan) := by
  obtain ⟨update, member, zero⟩ := tracks.touched (show status 0 ≠ .waiting by rw [trial]; simp)
  obtain ⟨index, inside, listed⟩ := mem_iff_getElem.mp member
  obtain ⟨target, here, same⟩ := notes.target (getElem?_eq_getElem inside)
  rw [listed] at same
  have client := (valid.client member).mpr zero
  have owed : target.inTrial = true := by
    have place := (congrArg (fun target => target.image.toNat) same).trans zero
    have commit := (congrArg Target.commit same).trans client
    rw [notes.flags target (mem_of_getElem? here), place, commit, trial]
    rfl
  obtain ⟨found, there, noted⟩ := nextInTrial_found (mem_of_getElem? here) owed
  obtain ⟨other, known, first, is⟩ := notes.noted valid (mem_of_getElem? there) noted
  have current : (c.targets[nextInTrial c 0]?).map (·.toTarget) = some other.target := by
    rw [there, Option.map_some, is]
  unfold confirmationFork
  dsimp only
  split
  · exact .asks { notes with } trial calm known first current (.inr rfl)
  · exact .asks { notes with } trial calm known first current (.inl rfl)

section
variable (valid : s.Valid) (live : s.Live status) (tracks : s.Tracks status content)
include valid live tracks

theorem awaitDevice_judges (notes : s.Notes status c) (told : s.Told status content c) : s.Judges status
    (c.awaitDevice s.plan) := by
  have verdict (target : Image) (member : target ∈ c.targets) :
      ∃ update ∈ s.updates, update.target = target.toTarget ∧ applyOf c target.toTarget = verdictOf (status update.place) := by
    obtain ⟨update, listed, same⟩ := notes.mem member
    exact ⟨update, listed, same, same ▸ live.applyOf tracks told valid listed⟩
  obtain ⟨images, outcome⟩ := @awaitDevice_unfailed s.plan c fun target member _ => by
    obtain ⟨update, listed, _, is⟩ := verdict target member
    rw [is]
    cases status update.place <;> simp [verdictOf]
  have kept : s.Notes status (c.withImages images) := { notes with }
  rw [outcome]
  split
  · rename_i busy
    obtain ⟨target, member, found⟩ := any_eq_true.mp busy
    simp only [Bool.and_eq_true, beq_iff_eq] at found
    obtain ⟨update, listed, same, is⟩ := verdict target member
    exact .applying kept listed (is ▸ found.2)
  · rename_i idle
    have calm : ∀ update ∈ s.updates, verdictOf (status update.place) ≠ .applying := by
      intro update member
      by_cases client : update.target.commit = .client
      · exact live.client tracks valid member client
      obtain ⟨index, inside, rfl⟩ := mem_iff_getElem.mp member
      obtain ⟨target, here, same⟩ := notes.target (getElem?_eq_getElem inside)
      have device : target.commit = .device := by
        rw [show target.commit = target.toTarget.commit from rfl, same]
        cases commit : s.updates[index].target.commit with
        | client => exact absurd commit client
        | device => rfl
      rw [Bool.not_eq_true, any_eq_false] at idle
      have settled := idle target (mem_of_getElem? here)
      simp only [device, beq_self_eq_true, Bool.true_and, beq_iff_eq] at settled
      rwa [same, live.applyOf tracks told valid member] at settled
    split
    · rename_i quiet
      have still : status 0 ≠ .trial := by
        intro trial
        rw [notes.swap, trial] at quiet
        cases quiet
      exact .commits still calm (awaitCommit_commits valid live tracks kept.toFixed told calm)
    · rename_i owed
      have trial : status 0 = .trial := by
        rw [notes.swap, Bool.not_eq_true, Bool.not_eq_false', decide_eq_true_iff] at owed
        exact owed
      exact confirmationFork_judges valid tracks kept trial calm

theorem owesConfirm_told (fixed : s.Fixed c) (told : s.Told status content c) (member : update ∈ s.updates) :
    owesConfirm c update.target = (update.target.commit == .client && status update.place == .trial) := by
  unfold owesConfirm
  by_cases client : update.target.commit = .client
  · have runs : holds (activeOf c update.target.image) update.target = true := by
      rw [live.running tracks told valid member, bne_iff_ne]
      exact live.client tracks valid member client
    have first := tracks.first valid
    rw [← (valid.client member).mp client] at first
    rw [client, runs, withoutSetState_of_swaps fixed.mode, told.confirmed valid member runs]
    cases found : status update.place with
    | committing left | applying left =>
      rw [found] at first
      cases first
    | waiting | loaded | marked | trial | installed => rfl
  · rw [beq_false_of_ne client]
    rfl

theorem inspectBoot_judges (fixed : s.Fixed c)
    (told : s.Told status content c) : s.Judges status (c.inspectBoot s.plan) := by
  have running : EachClient c.targets (Running c) := by
    intro target member client
    obtain ⟨update, listed, same⟩ := fixed.mem member
    unfold Running
    rw [← same, live.running tracks told valid listed, bne_iff_ne]
    exact live.client tracks valid listed (by rw [same]; exact client)
  obtain ⟨images, outcome⟩ := @inspectBoot_running s.plan c running
  rw [outcome]
  have owes (target : Image) (member : target ∈ c.targets) : owesConfirm c target.toTarget =
      (target.commit == .client && status target.image.toNat == .trial) := by
    obtain ⟨update, listed, same⟩ := fixed.mem member
    have is := owesConfirm_told valid live tracks fixed told listed
    unfold Update.place at is
    rwa [same] at is
  refine awaitDevice_judges valid live tracks ?_ told
  refine ⟨⟨?_, fixed.mode, fixed.newer⟩, fun target member => ?_, ?_⟩
  · rw [← fixed.targets]
    simp only [inspected, map_map]
    rfl
  · obtain ⟨before, listed, rfl⟩ := mem_map.mp member
    exact owes before listed
  · show (c.targets.any fun target => owesConfirm c target.toTarget) = _
    rw [Bool.eq_iff_iff, decide_eq_true_iff, any_eq_true]
    constructor
    · rintro ⟨target, member, owed⟩
      rw [owes target member, Bool.and_eq_true, beq_iff_eq, beq_iff_eq] at owed
      obtain ⟨update, listed, same⟩ := fixed.mem member
      have zero := (valid.client listed).mp (by rw [same]; exact owed.1)
      unfold Update.place at zero
      rw [same] at zero
      rw [← zero]
      exact owed.2
    · intro trial
      obtain ⟨update, member, zero⟩ := tracks.touched (show status 0 ≠ .waiting by rw [trial]; simp)
      obtain ⟨index, inside, rfl⟩ := mem_iff_getElem.mp member
      obtain ⟨target, here, same⟩ := fixed.target (getElem?_eq_getElem inside)
      refine ⟨target, mem_of_getElem? here, ?_⟩
      rw [same, owesConfirm_told valid live tracks fixed told member, (valid.client member).mpr zero, zero, trial]
      rfl

end

end

end Smply.Dfu
