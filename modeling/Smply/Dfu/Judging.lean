import Smply.Dfu.Machine

namespace Smply.Dfu

open List Context

variable {c : Context} {result : Step × Context} {target : Image} {plan : UpdatePlan} {targets : List Image}
  {P : Target → Prop} {before after : Context}

def Running (c : Context) (target : Target) : Prop := holds (activeOf c target.image) target = true

def RunningConfirmed (c : Context) (target : Target) : Prop :=
  Running c target ∧ isConfirmed (activeOf c target.image) = true

instance (c : Context) (target : Target) : Decidable (Running c target) :=
  inferInstanceAs (Decidable (_ = true))

instance (c : Context) (target : Target) : Decidable (RunningConfirmed c target) :=
  inferInstanceAs (Decidable (_ ∧ _))

def EachClient (targets : List Image) (P : Target → Prop) : Prop :=
  ∀ target ∈ targets, target.commit = .client → P target.toTarget

def EachDevice (targets : List Image) (P : Target → Prop) : Prop :=
  ∀ target ∈ targets, target.commit = .device → P target.toTarget

instance (targets : List Image) (P : Target → Prop) [DecidablePred P] : Decidable (EachClient targets P) :=
  inferInstanceAs (Decidable (∀ target ∈ targets, target.commit = .client → P target.toTarget))

instance (targets : List Image) (P : Target → Prop) [DecidablePred P] : Decidable (EachDevice targets P) :=
  inferInstanceAs (Decidable (∀ target ∈ targets, target.commit = .device → P target.toTarget))

def owesConfirm (c : Context) (target : Target) : Bool :=
  target.commit == .client && holds (activeOf c target.image) target &&
    (!withoutSetState c && !isConfirmed (activeOf c target.image))

def Context.withImages (c : Context) (images : List ImageReport) : Context :=
  { c with report := { c.report with images := images } }

def notRunning (c : Context) (pending : Bool) (target : Target) : Bool :=
  target.commit == .client && !holds (activeOf c target.image) target &&
    anythingPending c target.image == pending

def judge (c : Context) (target : Image) : Image :=
  { target with inTrial := owesConfirm c target.toTarget }

def Context.withTargets (c : Context) (targets : List Image) (images : List ImageReport) : Context :=
  { c with targets := targets, report := { c.report with images := images } }

def Context.inspected (c : Context) (images : List ImageReport) (swap : Bool) : Context :=
  { c with
    targets := c.targets.map (judge c)
    swapScheduled := swap
    report := { c.report with images := images } }

inductive AwaitCommit (c : Context) (committing : Bool) (targets : List Image) : Step × Context → Prop where
  | failed (images : List ImageReport) :
      AwaitCommit c committing targets
        ((c.withImages images).failAt .updateFailed "dfu: device did not commit an image")
  | waiting (images : List ImageReport) (applied : EachDevice targets (Running c)) :
      AwaitCommit c committing targets
        ({ next := .awaitingDeviceCommit, effect := .awaitApply }, c.withImages images)
  | completed (images : List ImageReport) (idle : committing = false)
      (committed : EachDevice targets (RunningConfirmed c)) :
      AwaitCommit c committing targets ({ next := .completed, effect := .finish }, c.withImages images)

inductive AwaitDevice (plan : UpdatePlan) (c : Context) (applying : Bool) (targets : List Image) :
    Step × Context → Prop where
  | failed (images : List ImageReport) (missing : ¬ EachDevice targets (Running c)) :
      AwaitDevice plan c applying targets
        ((c.withImages images).failAt .updateFailed "dfu: device did not apply an image")
  | waiting (images : List ImageReport)
      (missing : applying = true ∨ ¬ EachDevice targets (Running c)) :
      AwaitDevice plan c applying targets
        ({ next := .awaitingDeviceApply, effect := .awaitApply }, c.withImages images)
  | commit (images : List ImageReport) (idle : applying = false)
      (applied : EachDevice targets (Running c)) (quiet : c.swapScheduled = false)
      (result : Step × Context) (outcome : AwaitCommit (c.withImages images) false c.targets result) :
      AwaitDevice plan c applying targets result
  | fork (images : List ImageReport) (idle : applying = false)
      (applied : EachDevice targets (Running c)) (owed : c.swapScheduled = true) :
      AwaitDevice plan c applying targets ((c.withImages images).confirmationFork plan)

inductive InspectBoot (plan : UpdatePlan) (c : Context) : Step × Context → Prop where
  | inactive : InspectBoot plan c (c.failAt .updateFailed "dfu: no active slot after reboot")
  | stopped (images : List ImageReport) (swap : Bool) (site : String)
      (scheduled : swap = (c.targets.any (fun target => notRunning c true target.toTarget) ||
        c.targets.any fun target => owesConfirm c target.toTarget)) :
      InspectBoot plan c ((c.inspected images swap).failAt .updateFailed site)
  | running (images : List ImageReport) (clients : EachClient c.targets (Running c))
      (result : Step × Context)
      (outcome :
        let judged := c.inspected images (c.targets.any fun target => owesConfirm c target.toTarget)
        AwaitDevice plan judged false judged.targets result) :
      InspectBoot plan c result

theorem applyOf_cases (c : Context) (target : Target) : (RunningConfirmed c target ∧ applyOf c target = .committed) ∨
    (Running c target ∧ ¬ RunningConfirmed c target ∧ applyOf c target = .onTrial) ∨
    (¬ Running c target ∧ (applyOf c target = .applying ∨ applyOf c target = .failed)) := by
  unfold RunningConfirmed Running
  cases hold : holds (activeOf c target.image) target
  · right; right
    refine ⟨by simp, ?_⟩
    cases found : slotHolding c target with
    | none => simp [applyOf, hold, found]
    | some holder => cases pending : holder.pending <;> simp [applyOf, hold, found, pending]
  · cases confirmed : isConfirmed (activeOf c target.image) <;> simp [applyOf, hold, confirmed]

theorem EachDevice.cons (first : target.commit = .device → P target.toTarget) (rest : EachDevice targets P) :
    EachDevice (target :: targets) P := by
  intro other member device
  rcases List.mem_cons.mp member with rfl | member
  · exact first device
  · exact rest other member device

theorem EachDevice.tail (each : EachDevice (target :: targets) P) : EachDevice targets P :=
  fun other member => each other (mem_cons_of_mem _ member)

theorem AwaitCommit.cons {images : List ImageReport} {committing later : Bool}
    {rest : List Image} (applied : target.commit = .device → Running c target.toTarget)
    (idle : later = false → committing = false ∧ (target.commit = .device → RunningConfirmed c target.toTarget))
    (outcome : AwaitCommit (c.withImages images) later rest result) :
    AwaitCommit c committing (target :: rest) result := by
  cases outcome with
  | failed images => exact .failed images
  | waiting images each => exact .waiting images (EachDevice.cons applied each)
  | completed images quiet each => exact .completed images (idle quiet).1 (EachDevice.cons (idle quiet).2 each)

theorem awaitCommitLoop_outcome (c : Context) (committing : Bool) (index : Nat) (targets : List Image) :
    AwaitCommit c committing targets (c.awaitCommitLoop committing index targets) := by
  induction targets generalizing c committing index with
  | nil =>
    cases committing
    · exact .completed c.report.images rfl (by simp [EachDevice])
    · exact .waiting c.report.images (by simp [EachDevice])
  | cons target _ ih =>
    by_cases device : target.commit = .device
    · rcases applyOf_cases c target.toTarget with ⟨running, verdict⟩ | ⟨running, _, verdict⟩ | ⟨_, verdict⟩
      · simp only [awaitCommitLoop, device, verdict, ne_eq, not_true_eq_false, ↓reduceIte]
        exact .cons (fun _ => running.1) (fun idle => ⟨idle, fun _ => running⟩) (ih _ _ _)
      · simp only [awaitCommitLoop, device, verdict, ne_eq, not_true_eq_false, ↓reduceIte]
        exact .cons (fun _ => running) (fun idle => absurd idle (by simp)) (ih _ _ _)
      · rcases verdict with verdict | verdict <;>
          simp only [awaitCommitLoop, device, verdict, ne_eq, not_true_eq_false, ↓reduceIte] <;>
          exact .failed _
    · simp only [awaitCommitLoop, device, ne_eq, not_false_eq_true, ↓reduceIte]
      exact .cons (fun other => absurd other device)
        (fun idle => ⟨idle, fun other => absurd other device⟩) (ih c committing (index + 1))

theorem awaitCommit_outcome (c : Context) : AwaitCommit c false c.targets c.awaitCommit :=
  awaitCommitLoop_outcome c false 0 c.targets

theorem AwaitDevice.cons {images : List ImageReport}
    {applying later : Bool} {rest : List Image}
    (turn : (later = applying ∧ (target.commit = .device → Running c target.toTarget)) ∨
      (later = true ∧ target.commit = .device ∧ ¬ Running c target.toTarget))
    (outcome : AwaitDevice plan (c.withImages images) later rest result) :
    AwaitDevice plan c applying (target :: rest) result := by
  cases outcome with
  | failed images missing => exact .failed images fun each => missing each.tail
  | waiting images missing =>
    refine .waiting images ?_
    rcases turn with ⟨same, _⟩ | ⟨_, device, stopped⟩
    · rcases missing with busy | missing
      · exact .inl (same ▸ busy)
      · exact .inr fun each => missing each.tail
    · exact .inr fun each => stopped (each target (by simp) device)
  | commit images idle applied quiet result outcome =>
    rcases turn with ⟨same, runs⟩ | ⟨busy, _, _⟩
    · exact .commit images (same ▸ idle) (EachDevice.cons runs applied) quiet result outcome
    · exact absurd (busy.symm.trans idle) (by simp)
  | fork images idle applied owed =>
    rcases turn with ⟨same, runs⟩ | ⟨busy, _, _⟩
    · exact .fork images (same ▸ idle) (EachDevice.cons runs applied) owed
    · exact absurd (busy.symm.trans idle) (by simp)

theorem awaitDeviceLoop_outcome (plan : UpdatePlan) (c : Context) (applying : Bool) (index : Nat)
    (targets : List Image) : AwaitDevice plan c applying targets (c.awaitDeviceLoop plan applying index targets) := by
  induction targets generalizing c applying index with
  | nil =>
    cases applying
    · cases swap : c.swapScheduled
      · simp only [awaitDeviceLoop, swap, Bool.false_eq_true, ↓reduceIte, Bool.not_false]
        exact .commit c.report.images rfl (by simp [EachDevice]) swap _ (awaitCommit_outcome c)
      · simp only [awaitDeviceLoop, swap, Bool.false_eq_true, ↓reduceIte, Bool.not_true]
        exact .fork c.report.images rfl (by simp [EachDevice]) swap
    · exact .waiting c.report.images (.inl rfl)
  | cons target _ ih =>
    by_cases device : target.commit = .device
    · rcases applyOf_cases c target.toTarget with ⟨running, verdict⟩ | ⟨running, _, verdict⟩ | ⟨stopped, verdict⟩
      · simp only [awaitDeviceLoop, device, verdict, ne_eq, not_true_eq_false, ↓reduceIte]
        exact .cons (.inl ⟨rfl, fun _ => running.1⟩) (ih _ _ _)
      · simp only [awaitDeviceLoop, device, verdict, ne_eq, not_true_eq_false, ↓reduceIte]
        exact .cons (.inl ⟨rfl, fun _ => running⟩) (ih _ _ _)
      · rcases verdict with verdict | verdict <;>
          simp only [awaitDeviceLoop, device, verdict, ne_eq, not_true_eq_false, ↓reduceIte]
        · exact .cons (.inr ⟨rfl, device, stopped⟩) (ih c true (index + 1))
        · exact .failed c.report.images fun each => stopped (each target (by simp) device)
    · simp only [awaitDeviceLoop, device, ne_eq, not_false_eq_true, ↓reduceIte]
      exact .cons (.inl ⟨rfl, fun other => absurd other device⟩) (ih c applying (index + 1))

theorem awaitDevice_outcome (plan : UpdatePlan) (c : Context) :
    AwaitDevice plan c false c.targets (c.awaitDevice plan) :=
  awaitDeviceLoop_outcome plan c false 0 c.targets

theorem modify_middle {α : Type} (done rest : List α) (entry : α) (f : α → α) :
    (done ++ entry :: rest).modify done.length f = done ++ f entry :: rest := by
  induction done with
  | nil => rfl
  | cons _ _ ih => simp [ih]

section
variable (c : Context) (index : Nat) (value : Bool)

@[simp] theorem activeOf_setInTrial (image : UInt32) :
    activeOf (c.setInTrial index value) image = activeOf c image := rfl

@[simp] theorem anythingPending_setInTrial (image : UInt32) :
    anythingPending (c.setInTrial index value) image = anythingPending c image := rfl

@[simp] theorem withoutSetState_setInTrial :
    withoutSetState (c.setInTrial index value) = withoutSetState c := rfl

end

theorem setInTrial_middle (c : Context) (done rest : List Image) (entry : Image) (value : Bool)
    (here : c.targets = done ++ entry :: rest) : c.setInTrial done.length value =
      c.withTargets (done ++ { entry with inTrial := value } :: rest) c.report.images := by
  simp only [setInTrial, here, modify_middle]
  rfl

def writeBeside {α β : Type} (p : α → Bool) (f : β → β) (index : Nat) (entries : List β) : List α → List β
  | [] => entries
  | first :: rest => writeBeside p f (index + 1) (if p first then entries.modify index f else entries) rest

theorem writeBeside_get {α β : Type} (p : α → Bool) (f : β → β) (index : Nat) (entries : List β) (beside : List α)
    (place : Nat) : (writeBeside p f index entries beside)[place]? = entries[place]?.map fun entry =>
      if index ≤ place ∧ beside[place - index]?.any p then f entry else entry := by
  induction beside generalizing index entries with
  | nil => simp [writeBeside]
  | cons first _ ih =>
    rw [writeBeside, ih]
    have written : (if p first then entries.modify index f else entries)[place]? =
        entries[place]?.map fun entry => if index = place ∧ p first = true then f entry else entry := by
      by_cases meets : p first = true
      · rw [if_pos meets, getElem?_modify]
        simp [meets]
      · rw [if_neg meets]
        simp [meets]
    rw [written, Option.map_map]
    congr 1
    funext entry
    rcases Nat.lt_trichotomy index place with before | rfl | after
    · have next : place - index = (place - (index + 1)) + 1 := by omega
      simp only [Function.comp_apply, next, getElem?_cons_succ, Nat.ne_of_lt before, Nat.le_of_lt before, false_and,
        ↓reduceIte, true_and, show index + 1 ≤ place from before]
    · have past : ¬ index + 1 ≤ index := by omega
      simp [past]
    · simp only [Function.comp_apply, Nat.ne_of_gt after, false_and, ↓reduceIte, show ¬ index + 1 ≤ place by omega,
        show ¬ index ≤ place by omega]

def ImageReport.lost (image : ImageReport) : ImageReport := { image with rolledBack := true }

theorem bootLoop_eq (c : Context) (reverted notBooted : Bool) (done todo : List Image)
    (split : c.targets = done ++ todo) : c.bootLoop reverted notBooted done.length todo =
      (c.withTargets (done ++ todo.map (judge c)) (writeBeside (fun target => notRunning c false target.toTarget)
          ImageReport.lost done.length c.report.images todo),
        reverted || todo.any (fun target => notRunning c false target.toTarget),
        notBooted || todo.any (fun target => notRunning c true target.toTarget)) := by
  induction todo generalizing c reverted notBooted done with
  | nil =>
    simp only [bootLoop, map_nil, any_nil, Bool.or_false, ← split]
    rfl
  | cons target rest ih =>
    -- Whatever the turn wrote at this index, the rest of the loop reads only the table.
    have turn (value : Bool) (images : List ImageReport) (reverted notBooted : Bool)
        (judged : value = owesConfirm c target.toTarget) :
        (c.withTargets (done ++ { target with inTrial := value } :: rest) images).bootLoop
              reverted notBooted (done.length + 1) rest =
          (c.withTargets (done ++ (target :: rest).map (judge c)) (writeBeside
              (fun target => notRunning c false target.toTarget) ImageReport.lost (done.length + 1) images rest),
            reverted || rest.any (fun target => notRunning c false target.toTarget),
            notBooted || rest.any (fun target => notRunning c true target.toTarget)) := by
      have loop := ih
        (c.withTargets (done ++ { target with inTrial := value } :: rest) images)
        reverted notBooted (done ++ [{ target with inTrial := value }])
        (by simp [withTargets])
      rw [length_append, length_singleton] at loop
      refine loop.trans ?_
      subst judged
      rw [append_assoc]
      rfl
    have cleared := setInTrial_middle c done rest target false split
    simp only [bootLoop, activeOf_setInTrial, anythingPending_setInTrial,
      withoutSetState_setInTrial, any_cons, writeBeside]
    by_cases client : target.commit = .client
    · rcases Bool.eq_false_or_eq_true (holds (activeOf c target.image) target.toTarget) with hold | hold
      · have found (pending : Bool) : notRunning c pending target.toTarget = false := by simp [notRunning, hold]
        have replaced := setInTrial_middle (c.setInTrial done.length false) done rest
          { target with inTrial := false } (!withoutSetState c && !isConfirmed (activeOf c target.image))
          (by rw [cleared]; rfl)
        simp only [client, hold, found, ne_eq, not_true_eq_false, ↓reduceIte, Bool.not_true,
          Bool.false_eq_true, Bool.false_or, replaced]
        exact turn _ c.report.images reverted notBooted (by simp [owesConfirm, hold, client])
      · have judged : false = owesConfirm c target.toTarget := by simp [owesConfirm, hold]
        rcases Bool.eq_false_or_eq_true (anythingPending c target.image) with pending | pending
        · have lost : notRunning c false target.toTarget = false ∧ notRunning c true target.toTarget = true := by
            simp [notRunning, client, hold, pending]
          simp only [client, hold, pending, lost, ne_eq, not_true_eq_false, ↓reduceIte, Bool.not_false,
            Bool.true_or, Bool.or_true, Bool.false_or, cleared]
          exact turn false c.report.images reverted true judged
        · have lost : notRunning c false target.toTarget = true ∧ notRunning c true target.toTarget = false := by
            simp [notRunning, client, hold, pending]
          simp only [client, hold, pending, lost, ne_eq, not_true_eq_false, ↓reduceIte, Bool.not_false,
            Bool.false_eq_true, Bool.true_or, Bool.or_true, Bool.false_or, cleared]
          exact turn false (c.report.images.modify done.length ImageReport.lost) true notBooted judged
    · have skipped (pending : Bool) : notRunning c pending target.toTarget = false := by simp [notRunning, client]
      simp only [client, skipped, ne_eq, not_false_eq_true, ↓reduceIte, Bool.false_or, cleared]
      exact turn false c.report.images reverted notBooted (by simp [owesConfirm, client])

theorem nextInTrial_lt (c : Context) :
    nextInTrial c 0 < c.targets.length ↔ ∃ target ∈ c.targets, target.inTrial = true := by
  unfold nextInTrial
  rw [drop_zero]
  cases found : c.targets.findIdx? (·.inTrial) with
  | none => simpa using findIdx?_eq_none_iff.mp found
  | some =>
    obtain ⟨bound, owed, _⟩ := findIdx?_eq_some_iff_getElem.mp found
    simp only [Nat.zero_add, bound, true_iff]
    exact ⟨_, getElem_mem bound, owed⟩

theorem judged_owes (c : Context) (images : List ImageReport) :
    decide (nextInTrial (c.withTargets (c.targets.map (judge c)) images) 0 <
      (c.withTargets (c.targets.map (judge c)) images).targets.length) =
      c.targets.any fun target => owesConfirm c target.toTarget := by
  rw [Bool.eq_iff_iff, decide_eq_true_iff, nextInTrial_lt, any_eq_true]
  simp [withTargets, judge]

theorem not_reverted_clients (kept : c.targets.any (fun target => notRunning c false target.toTarget) = false)
    (booted : c.targets.any (fun target => notRunning c true target.toTarget) = false) :
    EachClient c.targets (Running c) := by
  intro target member client
  simp only [any_eq_false] at kept booted
  have quiet := kept target member
  have pending := booted target member
  unfold notRunning at quiet pending
  unfold Running
  cases hold : holds (activeOf c target.image) target.toTarget
  · cases queued : anythingPending c target.image <;> simp [client, hold, queued] at quiet pending
  · rfl

def Context.judgedImages (c : Context) : List ImageReport :=
  writeBeside (fun target => notRunning c false target.toTarget) ImageReport.lost 0 c.report.images c.targets

theorem inspectBoot_eq (plan : UpdatePlan) (c : Context)
    (active : (c.targets.any fun target => target.commit == .client && (activeOf c target.image).isNone) = false) :
    c.inspectBoot plan =
      let judged := c.inspected c.judgedImages (c.targets.any (fun target => notRunning c true target.toTarget) ||
        c.targets.any fun target => owesConfirm c target.toTarget)
      if c.targets.any (fun target => notRunning c false target.toTarget) then
        judged.failAt .updateFailed "dfu: device reverted to the old image"
      else if c.targets.any (fun target => notRunning c true target.toTarget) then
        judged.failAt .updateFailed "dfu: device did not boot the new image"
      else judged.awaitDevice plan := by
  have loop := bootLoop_eq c false false [] c.targets rfl
  rw [length_nil] at loop
  unfold inspectBoot
  simp only [active, Bool.false_eq_true, ↓reduceIte, loop, nil_append, Bool.false_or, judged_owes]
  rfl

theorem inspectBoot_outcome (plan : UpdatePlan) (c : Context) : InspectBoot plan c (c.inspectBoot plan) := by
  cases active : c.targets.any fun target => target.commit == .client && (activeOf c target.image).isNone
  · rw [inspectBoot_eq plan c active]
    cases reverted : c.targets.any (fun target => notRunning c false target.toTarget)
    · cases unbooted : c.targets.any (fun target => notRunning c true target.toTarget)
      · simp only [Bool.false_eq_true, ↓reduceIte, Bool.false_or]
        exact .running c.judgedImages (not_reverted_clients reverted unbooted) _ (awaitDevice_outcome plan _)
      · simp only [Bool.false_eq_true, ↓reduceIte]
        exact .stopped c.judgedImages _ _ (by rw [unbooted])
    · simp only [↓reduceIte]
      exact .stopped c.judgedImages _ _ rfl
  · unfold inspectBoot
    rw [if_pos active]
    exact .inactive

def Image.untried (target : Image) : Image := { target with inTrial := false }

def SameImages (before after : Context) : Prop :=
  after.targets.map Image.untried = before.targets.map Image.untried

def isWindow (state : UpdateState) : Prop := state = .awaitingConfirmation ∨ state = .confirming

structure Judged (before : Context) (result : Step × Context) : Prop where
  frame : result.2 = { before with
    targets := result.2.targets
    current := result.2.current
    swapScheduled := result.2.swapScheduled
    report := result.2.report }
  images : SameImages before result.2
  refusal : result.2.report.refusal = before.report.refusal
  bootloaderMode : result.2.report.bootloaderMode = before.report.bootloaderMode
  next : result.1.next = .failed ∨ result.1.next = .completed ∨ result.1.next = .awaitingDeviceApply ∨
    result.1.next = .awaitingDeviceCommit ∨ isWindow result.1.next
  effect : result.1.effect = .finish ∨ result.1.effect = .awaitApply ∨
    isWindow result.1.next ∧ (result.1.effect = .requestConfirmation ∨ result.1.effect = .confirm)
  window : isWindow result.1.next → EachDevice result.2.targets (Running result.2)
  completed : result.1.next = .completed → EachDevice result.2.targets (RunningConfirmed result.2)
  ends : result.1.effect = .finish ↔ isTerminal result.1.next = true

structure Awaited (before : Context) (result : Step × Context) : Prop where
  swap : result.2.swapScheduled = before.swapScheduled
  targets : result.2.targets = before.targets
  quiet : result.1.next = .awaitingDeviceCommit ∨ result.1.next = .completed → before.swapScheduled = false
  owed : isWindow result.1.next → before.swapScheduled = true

structure Passed (before : Context) (result : Step × Context) : Prop where
  running : EachClient before.targets (Running before)
  targets : result.2.targets = before.targets.map (judge before)
  swap : result.2.swapScheduled = before.targets.any fun target => owesConfirm before target.toTarget
  quiet : result.1.next = .awaitingDeviceCommit ∨ result.1.next = .completed → result.2.swapScheduled = false

theorem SameImages.mem (same : SameImages before after) (member : target ∈ after.targets) :
    ∃ other ∈ before.targets, other.untried = target.untried := by
  have mapped := same ▸ mem_map_of_mem member
  simpa using mapped

theorem SameImages.toTarget (same : SameImages before after) (member : target ∈ after.targets) :
    ∃ other ∈ before.targets, other.toTarget = target.toTarget := by
  obtain ⟨other, found, copied⟩ := same.mem member
  have carried : other.untried.toTarget = target.untried.toTarget := by rw [copied]
  exact ⟨other, found, carried⟩

theorem EachDevice.same (same : SameImages before after)
    (each : EachDevice before.targets P) : EachDevice after.targets P := by
  intro target member device
  obtain ⟨other, found, target_eq⟩ := same.toTarget member
  exact target_eq ▸ each other found (by rw [target_eq]; exact device)

theorem EachClient.same (same : SameImages before after)
    (each : EachClient before.targets P) : EachClient after.targets P := by
  intro target member client
  obtain ⟨other, found, target_eq⟩ := same.toTarget member
  exact target_eq ▸ each other found (by rw [target_eq]; exact client)

theorem inspected_sameImages (c : Context) (images : List ImageReport) (swap : Bool) :
    SameImages c (c.inspected images swap) := by
  simp only [SameImages, inspected, map_map]
  rfl

theorem setInTrial_sameImages (c : Context) (index : Nat) (value : Bool) :
    SameImages c (c.setInTrial index value) := by
  apply ext_getElem?
  intro position
  simp only [setInTrial, getElem?_map, getElem?_modify]
  split
  · cases c.targets[position]? <;> rfl
  · simp

theorem judged_failed (before after : Context) (error : Error) (images : SameImages before after)
    (frame : after = { before with
      targets := after.targets, swapScheduled := after.swapScheduled, report := after.report })
    (refusal : after.report.refusal = before.report.refusal)
    (mode : after.report.bootloaderMode = before.report.bootloaderMode) : Judged before (after.fail error) := by
  refine ⟨?_, images, refusal, mode, .inl rfl, .inl rfl, ?_, ?_, by simp [fail, isTerminal]⟩
  · rw [frame]
    rfl
  · simp [isWindow, fail]
  · simp [fail]

theorem AwaitCommit.judged (outcome : AwaitCommit c false c.targets result) : Judged c result := by
  cases outcome with
  | failed => exact judged_failed c _ _ rfl rfl rfl rfl
  | waiting => exact ⟨rfl, rfl, rfl, rfl, by simp, .inr (.inl rfl), by simp [isWindow], by simp, by simp [isTerminal]⟩
  | completed _ _ committed =>
    exact ⟨rfl, rfl, rfl, rfl, by simp, .inl rfl, by simp [isWindow], fun _ => committed,
      by simp [isTerminal]⟩

theorem confirmationFork_judged (plan : UpdatePlan) (c : Context) (images : List ImageReport)
    (applied : EachDevice c.targets (Running c)) : Judged c ((c.withImages images).confirmationFork plan) := by
  unfold confirmationFork
  dsimp only
  split
  · exact ⟨rfl, rfl, rfl, rfl, by simp [isWindow], by simp [isWindow], fun _ => applied, by simp,
      by simp [isTerminal]⟩
  · exact ⟨rfl, rfl, rfl, rfl, by simp [isWindow], by simp [isWindow], fun _ => applied, by simp,
      by simp [isTerminal]⟩

theorem AwaitDevice.judged (outcome : AwaitDevice plan c false c.targets result) : Judged c result := by
  cases outcome with
  | failed => exact judged_failed c _ _ rfl rfl rfl rfl
  | waiting => exact ⟨rfl, rfl, rfl, rfl, by simp, .inr (.inl rfl), by simp [isWindow], by simp, by simp [isTerminal]⟩
  | commit images _ _ _ result outcome =>
    have judged := outcome.judged
    exact ⟨judged.frame, judged.images, judged.refusal, judged.bootloaderMode, judged.next, judged.effect,
      judged.window, judged.completed, judged.ends⟩
  | fork images _ applied => exact confirmationFork_judged plan c images applied

theorem InspectBoot.judged (outcome : InspectBoot plan c result) : Judged c result := by
  cases outcome with
  | inactive => exact judged_failed c _ _ rfl rfl rfl rfl
  | stopped images swap => exact judged_failed c _ _ (inspected_sameImages c images swap) rfl rfl rfl
  | running images _ _ outcome =>
    have judged := outcome.judged
    exact ⟨judged.frame, judged.images.trans (inspected_sameImages c images _), judged.refusal,
      judged.bootloaderMode, judged.next, judged.effect, judged.window, judged.completed, judged.ends⟩

theorem AwaitCommit.kept (outcome : AwaitCommit c false targets result) :
    result.2.swapScheduled = c.swapScheduled ∧ result.2.targets = c.targets ∧ ¬ isWindow result.1.next := by
  cases outcome <;> exact ⟨rfl, rfl, by simp [isWindow, failAt, fail]⟩

theorem AwaitDevice.awaited (outcome : AwaitDevice plan c false targets result) : Awaited c result := by
  cases outcome with
  | failed => exact ⟨rfl, rfl, by simp [failAt, fail], by simp [isWindow, failAt, fail]⟩
  | waiting => exact ⟨rfl, rfl, by simp, by simp [isWindow]⟩
  | commit _ _ _ quiet _ outcome =>
    obtain ⟨swap, targets, elsewhere⟩ := outcome.kept
    exact ⟨swap, targets, fun _ => quiet, fun window => absurd window elsewhere⟩
  | fork _ _ _ owed =>
    unfold confirmationFork
    dsimp only
    split
    · exact ⟨rfl, rfl, by simp, fun _ => owed⟩
    · exact ⟨rfl, rfl, by simp, fun _ => owed⟩

theorem InspectBoot.passed (outcome : InspectBoot plan c result) (live : result.1.next ≠ .failed) :
    Passed c result := by
  cases outcome with
  | inactive | stopped => exact absurd rfl live
  | running _ clients _ outcome =>
    have awaited := outcome.awaited
    exact ⟨clients, awaited.targets, awaited.swap, fun here => awaited.swap.trans (awaited.quiet here)⟩

end Smply.Dfu
