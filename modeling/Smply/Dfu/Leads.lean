import Smply.Dfu.Planning

namespace Smply.Dfu

open Context

variable {error : Error}

def legal : UpdateState → EventKind → Bool
  | _, .cancel | _, .tick => true
  | .idle, .start => true
  | .queryingParameters, .parametersRead | .queryingParameters, .parametersUnavailable => true
  | .queryingBootloader, .bootloaderRead | .queryingBootloader, .failed => true
  | .inspectingImages, .stateRead | .inspectingImages, .failed => true
  | .planning, .continue => true
  | .uploading, .uploadFinished | .uploading, .uploadSuspended | .uploading, .failed => true
  | .verifyingUpload, .stateRead | .verifyingUpload, .failed => true
  | .markingForTest, .markedForTest | .markingForTest, .failed => true
  | .resetting, .resetAccepted | .resetting, .failed => true
  | .awaitingDisconnect, .disconnected => true
  | .awaitingReconnect, .reconnected | .awaitingReconnect, .reconnectFailed => true
  | .verifyingBooted, .stateRead | .verifyingBooted, .failed => true
  | .awaitingDeviceApply, .stateRead | .awaitingDeviceApply, .failed => true
  | .awaitingDeviceCommit, .stateRead | .awaitingDeviceCommit, .failed => true
  | .awaitingConfirmation, .confirmApproved => true
  | .confirming, .confirmed | .confirming, .failed => true
  | .verifyingConfirmed, .stateRead | .verifyingConfirmed, .failed => true
  | .completed, _ | .failed, _ | .cancelled, _ => true
  | _, _ => false

def ImageReport.verdicts (image : ImageReport) : Bool × Bool := (image.applied, image.committed)

structure SameNote (old new : ImageReport) : Prop where
  number : new.image = old.image
  commit : new.commit = old.commit
  hash : new.targetHash = old.targetHash
  verdicts : new.verdicts = old.verdicts

inductive Writes : Context → Context → Prop
  | aside {before after : Context} (targets : after.targets = before.targets) (report : after.report = before.report) :
      Writes before after
  | notes (c : Context) (images : List ImageReport) (same : List.Forall₂ SameNote c.report.images images) :
      Writes c (c.withImages images)
  | trial (c : Context) (index : Nat) (value : Bool) : Writes c (c.setInTrial index value)
  | build (c : Context) (chosen : Nat) (build : Build) :
      Writes c ({ c with targets := c.targets.modify c.current (·.choose chosen build) }.modifyImage c.current
        fun image => { image with targetHash := build.hash })
  | mode (c : Context) (mode : McubootMode) (plan : UpdatePlan) (noDowngrade : Bool) :
      Writes c { c with report := recordMode mode plan c.report, noDowngrade := noDowngrade }
  | owed (c : Context) (pending : Bool) : Writes c { c with report := { c.report with revertPending := pending } }

abbrev Written := Relation.ReflTransGen Writes

/-- A decision goes on, ends the update, or leaves what follows to a judgement of the device. -/
inductive Leads (P : Error → Prop) (plan : UpdatePlan) (before : Context) : Step × Context → Prop
  | goes (step : Step) (after : Context) (written : Written before after) (open_ : step.next ≠ .failed) :
      Leads P plan before (step, after)
  | fails (at_ : Context) (written : Written before at_) (error : Error) (is : P error) :
      Leads P plan before (at_.fail error)
  | refuses (at_ : Context) (written : Written before at_) (refusal : Refusal) :
      Leads P plan before
        ({ at_ with report := { at_.report with refusal := some refusal } }.failAt .updateRefused (refusalText refusal))
  | boot (at_ : Context) (written : Written before at_) : Leads P plan before (at_.inspectBoot plan)
  | device (at_ : Context) (written : Written before at_) : Leads P plan before (at_.awaitDevice plan)
  | commit (at_ : Context) (written : Written before at_) : Leads P plan before at_.awaitCommit

def LeadsOr (P : Error → Prop) (plan : UpdatePlan) (before : Context) : Option Step × Context → Prop
  | (some step, after) => Leads P plan before (step, after)
  | (none, after) => Written before after

variable {P : Error → Prop} {plan : UpdatePlan}

theorem Written.aside {before after : Context} (targets : after.targets = before.targets)
    (report : after.report = before.report) : Written before after := .single (.aside targets report)

theorem modifyImage_written (c : Context) (index : Nat) {f : ImageReport → ImageReport}
    (same : ∀ entry, SameNote entry (f entry)) : Written c (c.modifyImage index f) := by
  refine .single (.notes c _ ?_)
  induction c.report.images generalizing index with
  | nil => cases index <;> exact .nil
  | cons first rest ih =>
    have alike (entries : List ImageReport) : List.Forall₂ SameNote entries entries :=
      List.forall₂_same.mpr fun _ _ => ⟨rfl, rfl, rfl, rfl⟩
    cases index with
    | zero => exact .cons (same first) (alike rest)
    | succ index => exact .cons ⟨rfl, rfl, rfl, rfl⟩ (ih index)

theorem Leads.from {first second : Context} {result : Step × Context} (leads : Leads P plan second result)
    (written : Written first second) : Leads P plan first result := by
  cases leads with
  | goes step after later open_ => exact .goes step after (written.trans later) open_
  | fails at_ later error is => exact .fails at_ (written.trans later) error is
  | refuses at_ later refusal => exact .refuses at_ (written.trans later) refusal
  | boot at_ later => exact .boot at_ (written.trans later)
  | device at_ later => exact .device at_ (written.trans later)
  | commit at_ later => exact .commit at_ (written.trans later)

theorem Leads.fails_aside {before after : Context} (targets : after.targets = before.targets)
    (report : after.report = before.report) (is : P error) : Leads P plan before (after.fail error) :=
  .fails after (.aside targets report) error is

theorem LeadsOr.from {first second : Context} {result : Option Step × Context} (leads : LeadsOr P plan second result)
    (written : Written first second) : LeadsOr P plan first result := by
  obtain ⟨step | step, after⟩ := result
  · exact written.trans leads
  · exact Leads.from leads written

section
variable (ruled : ∀ code site, code ≠ ErrorCode.internal → code ≠ .updateRefused → P (.at code site)) (c : Context)

theorem checkPreconditions_leads : LeadsOr P plan c (c.checkPreconditions plan) := by
  have check := checkPreconditions_outcome plan c
  generalize c.checkPreconditions plan = result at check
  cases check with
  | already => exact .refl
  | passed => exact .aside rfl rfl
  | refused _ refusal =>
    have written : Written c { c with preconditionsChecked := true } := .aside rfl rfl
    exact Leads.refuses _ written refusal

theorem staged_leads : Leads P plan c (c.staged plan) := by
  have check := @checkPreconditions_leads P plan c
  unfold staged
  split
  · exact .goes _ _ .refl nofun
  split
  · generalize c.checkPreconditions plan = result at check
    obtain ⟨step | step, after⟩ := result
    · exact .goes _ _ check nofun
    · exact check
  · exact .boot c .refl

theorem nextTarget_leads : Leads P plan c (c.nextTarget plan) := by
  unfold nextTarget
  dsimp only
  split
  · exact .goes _ _ (.aside rfl rfl) nofun
  · exact (staged_leads _).from (.aside rfl rfl)

theorem markOrSkip_leads : Leads P plan c (c.markOrSkip plan) := by
  unfold markOrSkip
  split
  · exact (nextTarget_leads _).from (.aside rfl rfl)
  · exact .goes _ _ .refl nofun

theorem startUpload_leads : LeadsOr P plan c (c.startUpload plan) := by
  have check := @checkPreconditions_leads P plan c
  unfold startUpload
  generalize c.checkPreconditions plan = result at check
  obtain ⟨step | step, after⟩ := result
  · exact .goes _ _ (check.tail (.aside rfl rfl)) nofun
  · exact check

include ruled in
theorem chooseBuild_leads : LeadsOr P plan c c.chooseBuild := by
  unfold chooseBuild
  split
  · exact .refl
  split
  · exact .refl
  split
  · exact .refl
  split
  · exact .fails c .refl _ (ruled _ _ nofun nofun)
  · exact .single (.build c _ _)

include ruled in
theorem planTurn_leads : LeadsOr P plan c (c.planTurn plan) := by
  have choice := @chooseBuild_leads P plan ruled c
  unfold planTurn
  generalize c.chooseBuild = result at choice
  obtain ⟨step | step, chosen⟩ := result
  · refine LeadsOr.from ?_ choice
    dsimp only
    have skipped := modifyImage_written chosen chosen.current (f := fun image => { image with uploadSkipped := true })
      fun _ => ⟨rfl, rfl, rfl, rfl⟩
    split
    · exact .refl
    split
    · rename_i holder held
      have slotted (at_ : Context) := modifyImage_written at_ at_.current
        (f := fun image => { image with uploadSlot := some holder.slot }) fun _ => ⟨rfl, rfl, rfl, rfl⟩
      split
      · exact skipped
      split
      · exact (skipped.trans (slotted _)).tail (.aside rfl rfl)
      split
      · split
        · exact skipped
        have check := @checkPreconditions_leads P plan
          (chosen.modifyImage chosen.current fun image => { image with uploadSkipped := true })
        generalize (chosen.modifyImage chosen.current fun image =>
          { image with uploadSkipped := true }).checkPreconditions plan = result at check
        obtain ⟨step | step, after⟩ := result
        · exact (markOrSkip_leads _).from ((skipped.trans check).trans (slotted after))
        · exact Leads.from check skipped
      · exact startUpload_leads chosen
    · exact startUpload_leads chosen
  · exact choice

include ruled in
theorem planLoop_leads (left : Nat) : Leads P plan c (Context.planLoop plan left c) := by
  induction left generalizing c with
  | zero => exact staged_leads c
  | succ _ ih =>
    have turn := @planTurn_leads P plan ruled c
    unfold planLoop
    generalize c.planTurn plan = result at turn
    obtain ⟨step | step, after⟩ := result
    · exact (ih { after with current := after.current + 1 }).from (turn.tail (.aside rfl rfl))
    · exact turn

include ruled in
theorem planFromState_leads : Leads P plan c (c.planFromState plan) := by
  unfold planFromState
  dsimp only
  split
  · refine .boot _ (.single (.notes c _ ?_))
    exact List.forall₂_map_right_iff.mpr (List.forall₂_same.mpr fun _ _ => ⟨rfl, rfl, rfl, rfl⟩)
  · exact planLoop_leads ruled c _

theorem waitReadFailed_leads (handed : P error) {state : UpdateState} (live : state ≠ .failed) :
    Leads P plan c (c.waitReadFailed state error) := by
  unfold waitReadFailed
  split
  · exact .goes _ _ .refl nofun
  split
  · exact .goes _ _ .refl live
  · exact .fails c .refl error handed

theorem confirmFailed_leads (handed : P error) : Leads P plan c (c.confirmFailed error) := by
  unfold confirmFailed
  dsimp only
  split
  · exact .goes _ _ (.aside rfl rfl) nofun
  split
  · exact .goes _ _ (.aside rfl rfl) nofun
  · exact .fails_aside rfl rfl handed

include ruled in
theorem decide_leads (state : UpdateState) (event : Event) (live : state ≠ .failed) (handed : P event.error)
    (strange : legal state event.kind = false → ∀ site, P (.at .internal site)) :
    Leads P plan c (c.decide state event plan) := by
  have stays : Leads P plan c ({ next := state, effect := .none }, c) := .goes _ _ .refl live
  have failed : Leads P plan c (c.fail event.error) := .fails c .refl _ handed
  have table : Written c (c.withTable event) := .aside rfl rfl
  unfold Context.decide
  split
  · split
    · exact stays
    · exact .goes _ _ (.single (.owed c _)) nofun
  · unfold tick
    split
    · exact .goes _ _ .refl nofun
    dsimp only
    split
    · exact stays
    split
    · exact .fails_aside rfl rfl (ruled _ _ nofun nofun)
    · exact .goes _ _ (.aside rfl rfl) live
  · split
    · exact .goes _ _ .refl nofun
    · exact .goes _ _ (.aside rfl rfl) nofun
    · exact .goes _ _ .refl nofun
    · exact .goes _ _ (.single (.mode c _ _ _)) nofun
    · unfold bootloaderFailed
      split
      · exact .goes _ _ (.single (.mode c _ _ c.noDowngrade)) nofun
      · exact failed
    · exact .goes _ _ table nofun
    · exact failed
    · exact planFromState_leads ruled c
    · have noted := modifyImage_written { c with uploadInProgress := false } c.current (f := fun image => { image with
          bytesTransferred := event.transferred, uploadSkipped := image.uploadSkipped || event.alreadyPresent })
        fun _ => ⟨rfl, rfl, rfl, rfl⟩
      have sent : Written c { c with uploadInProgress := false } := .aside rfl rfl
      unfold uploadFinished
      dsimp only
      split
      · exact (nextTarget_leads _).from (sent.trans noted)
      · exact .goes _ _ (sent.trans noted) nofun
    · exact .goes _ _ .refl nofun
    · exact failed
    · unfold uploadVerified
      split
      · exact .fails _ table _ (ruled _ _ nofun nofun)
      · exact (markOrSkip_leads _).from (table.trans (modifyImage_written _ _ fun _ => ⟨rfl, rfl, rfl, rfl⟩))
    · exact failed
    · exact (nextTarget_leads _).from (.aside rfl rfl)
    · unfold markRefused
      dsimp only
      split
      · exact .goes _ _ (.aside rfl rfl) nofun
      · exact failed
    · exact .goes _ _ .refl nofun
    · unfold resetRefused
      split
      · exact .goes _ _ (.aside rfl rfl) nofun
      split
      · exact .goes _ _ .refl nofun
      · exact failed
    · exact .goes _ _ .refl nofun
    · split
      · exact .goes _ _ .refl nofun
      · exact .goes _ _ .refl nofun
    · exact failed
    · exact .boot _ table
    · exact failed
    · exact .device _ table
    · exact waitReadFailed_leads c handed nofun
    · exact .commit _ table
    · exact waitReadFailed_leads c handed nofun
    · exact .goes _ _ (.aside rfl rfl) nofun
    · have spent : Written c ((c.withTable event).setInTrial (c.withTable event).current false) :=
        table.tail (.trial _ _ false)
      unfold confirmAccepted
      dsimp only
      split
      · exact .goes _ _ (spent.tail (.aside rfl rfl)) nofun
      · exact .goes _ _ (spent.tail (.aside rfl rfl)) nofun
    · exact confirmFailed_leads c handed
    · unfold confirmVerified
      split
      · exact .commit _ table
      · exact .fails_aside rfl rfl (ruled _ _ nofun nofun)
    · exact confirmFailed_leads c handed
    · exact .goes _ _ .refl nofun
    · exact absurd rfl live
    · exact .goes _ _ .refl nofun
    · refine .fails c .refl _ (strange ?_ _)
      unfold legal
      split <;> first | rfl | grind only

end

end Smply.Dfu
