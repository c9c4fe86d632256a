import Smply.Dfu.Causes
import Smply.Dfu.Clients

namespace Smply.Dfu

open Context Machine

variable {after : Context}
  {state : UpdateState} {m : Machine} {targets : List Image} {plan : UpdatePlan} {c : Context} {step : Step}

def fits : UpdateState → Effect → Bool
  | _, .none => true
  | .queryingParameters, .queryParameters => true
  | .queryingBootloader, .queryBootloader => true
  | .inspectingImages, .readState | .verifyingUpload, .readState | .verifyingBooted, .readState => true
  | .verifyingConfirmed, .readState | .awaitingDeviceApply, .readState | .awaitingDeviceCommit, .readState => true
  | .planning, .continue => true
  | .uploading, .startUpload | .uploading, .resumeUpload => true
  | .markingForTest, .markForTest => true
  | .resetting, .reset | .resetting, .forceReset => true
  | .awaitingDisconnect, .awaitDisconnect => true
  | .awaitingReconnect, .requestReconnect => true
  | .awaitingDeviceApply, .awaitApply | .awaitingDeviceCommit, .awaitApply => true
  | .awaitingConfirmation, .requestConfirmation => true
  | .confirming, .confirm => true
  | state, .finish => isTerminal state
  | _, _ => false

def Named (result : Step × Context) : Prop :=
  namesCurrent result.1.effect = true → result.2.current < result.2.targets.length

/-- A state that works on the current target has one; so has an upload that is under way. -/
structure Placed (state : UpdateState) (c : Context) : Prop where
  inside : needsCurrent state = true ∨ state = .awaitingConfirmation → c.current < c.targets.length
  going : c.uploadInProgress = true → isTerminal state = true ∨
    (state = .uploading ∨ state = .awaitingReconnect) ∧ c.current < c.targets.length

structure Sane (m : Machine) : Prop where
  whole : m.context.targets ≠ []
  placed : Placed m.state m.context
  noted : Noted m.state m.context

section
variable {plan : UpdatePlan} {c : Context} {result : Step × Context}

theorem AwaitCommit.fits {committing : Bool} (outcome : AwaitCommit c committing targets result) :
    fits result.1.next result.1.effect = true := by
  cases outcome <;> rfl

theorem AwaitDevice.fits {applying : Bool} (outcome : AwaitDevice plan c applying targets result) :
    fits result.1.next result.1.effect = true := by
  cases outcome with
  | failed | waiting => rfl
  | commit _ _ _ _ _ outcome => exact outcome.fits
  | fork =>
    unfold confirmationFork
    dsimp only
    split <;> rfl

theorem InspectBoot.fits (outcome : InspectBoot plan c result) : fits result.1.next result.1.effect = true := by
  cases outcome with
  | inactive | stopped => rfl
  | running _ _ _ outcome => exact outcome.fits

theorem Planned.fits (outcome : Planned plan c result) : fits result.1.next result.1.effect = true := by
  cases outcome with
  | judged _ outcome => exact outcome.fits
  | _ => rfl

theorem confirmationFork_inside (owed : ∃ target ∈ c.targets, target.inTrial = true) :
    (c.confirmationFork plan).2.current < (c.confirmationFork plan).2.targets.length := by
  have inside := (nextInTrial_lt c).mpr owed
  unfold confirmationFork
  dsimp only
  split
  · exact inside
  · exact inside

theorem AwaitCommit.shut {committing : Bool} (outcome : AwaitCommit c committing targets result) :
    ¬ isWindow result.1.next := by
  cases outcome <;> simp [isWindow, failAt, fail]

theorem AwaitDevice.inside {applying : Bool} (outcome : AwaitDevice plan c applying targets result)
    (owed : c.swapScheduled = true → ∃ target ∈ c.targets, target.inTrial = true) (window : isWindow result.1.next) :
    result.2.current < result.2.targets.length := by
  cases outcome with
  | failed => simp [isWindow, failAt, fail] at window
  | waiting => simp [isWindow] at window
  | commit _ _ _ _ _ outcome => exact absurd window outcome.shut
  | fork images _ _ swap => exact @confirmationFork_inside plan (c.withImages images) (owed swap)

theorem InspectBoot.inside (outcome : InspectBoot plan c result) (window : isWindow result.1.next) :
    result.2.current < result.2.targets.length := by
  cases outcome with
  | inactive | stopped => simp [isWindow, failAt, fail] at window
  | running _ _ _ outcome =>
    refine outcome.inside (fun owed => ?_) window
    obtain ⟨target, member, owes⟩ := List.any_eq_true.mp owed
    exact ⟨judge c target, List.mem_map_of_mem member, owes⟩

theorem Judged.window_of_names (judged : Judged c result) (names : namesCurrent result.1.effect = true) :
    isWindow result.1.next := by
  rcases judged.effect with finish | wait | ⟨window, _⟩
  · simp [finish, namesCurrent] at names
  · simp [wait, namesCurrent] at names
  · exact window

theorem InspectBoot.named (outcome : InspectBoot plan c result) : Named result := fun names =>
  outcome.inside (outcome.judged.window_of_names names)

theorem Staged.named (outcome : Staged plan c result) : Named result := by
  cases outcome with
  | uploaded | reset => simp [Named, namesCurrent]
  | refused _ _ _ _ check =>
    cases check
    simp [Named, namesCurrent]
  | judged _ _ _ outcome => exact outcome.named

theorem NextTarget.named (outcome : NextTarget plan c result) : Named result := by
  cases outcome with
  | next => simp [Named, namesCurrent]
  | staged _ _ outcome => exact outcome.named

theorem MarkOrSkip.named (outcome : MarkOrSkip plan c result) (inside : c.current < c.targets.length) :
    Named result := by
  cases outcome with
  | skipped _ _ outcome => exact outcome.named
  | mark => exact fun _ => inside

theorem checkPreconditions_named (refused : c.checkPreconditions plan = (some step, after)) : Named
    (step, after) := by
  have check := checkPreconditions_outcome plan c
  rw [refused] at check
  cases check
  simp [Named, namesCurrent]

theorem checkPreconditions_passed (passed : c.checkPreconditions plan = (none, after)) :
    after = { c with preconditionsChecked := true } := by
  have check := checkPreconditions_outcome plan c
  rw [passed] at check
  exact check.checked

end

theorem startUpload_named {c : Context} (done : c.startUpload plan = (some step, after))
    (inside : c.current < c.targets.length) : Named (step, after) := by
  unfold startUpload at done
  split at done
  · rename_i refused
    cases done
    exact checkPreconditions_named refused
  rename_i passed
  cases done
  rw [checkPreconditions_passed passed]
  exact fun _ => inside

theorem planTurn_named {c : Context} (done : c.planTurn plan = (some step, after)) : Named (step, after) := by
  have choice := chooseBuild_outcome c
  unfold planTurn at done
  split at done
  · rename_i stopped
    cases done
    rw [stopped] at choice
    cases choice with
    | failed _ _ stop =>
      rw [stop]
      simp [Named, namesCurrent, failAt, fail]
  · split at done
    · cases done
    rename_i found
    have inside := (List.getElem?_eq_some_iff.mp found).1
    dsimp only at done
    split at done
    · split at done
      · cases done
      split at done
      · cases done
      split at done
      · split at done
        · cases done
        split at done
        · rename_i refused
          cases done
          exact checkPreconditions_named refused
        rename_i passed
        cases done
        refine (markOrSkip_outcome plan _).named ?_
        rw [checkPreconditions_passed passed]
        exact inside
      · exact startUpload_named done inside
    · exact startUpload_named done inside

theorem planLoop_named (plan : UpdatePlan) (left : Nat) (c : Context) : Named (Context.planLoop plan left c) := by
  induction left generalizing c with
  | zero => exact (staged_outcome plan c).named
  | succ left ih =>
    unfold planLoop
    split
    · rename_i done
      exact planTurn_named done
    · exact ih _

theorem planFromState_named (plan : UpdatePlan) (c : Context) : Named (c.planFromState plan) := by
  unfold planFromState
  dsimp only
  split
  · exact (inspectBoot_outcome plan _).named
  · exact planLoop_named plan _ c

theorem confirmAccepted_named (c : Context) : Named c.confirmAccepted := by
  unfold confirmAccepted
  dsimp only
  split
  · rename_i inside
    exact fun _ => inside
  · simp [Named, namesCurrent]

section
variable {m : Machine} {event : Event} {result : Step × Context}

theorem Row.fits (row : Row m event result) : fits result.1.next result.1.effect = true := by
  cases row with
  | settled | idle => simp [Dfu.fits]
  | polled here | waitRepeated here => rcases here with here | here <;> rw [here] <;> rfl
  | planned _ _ outcome | uploadedOnly _ _ outcome | marked _ _ _ outcome | unmarked _ _ _ _ outcome =>
    exact outcome.planned.fits
  | booted _ _ _ outcome | applyRead _ _ _ outcome | commitRead _ _ _ outcome | confirmVerified _ _ _ _ outcome =>
    exact outcome.fits
  | _ => rfl

theorem Row.named (row : Row m event result) (sane : Sane m)
    (unplanned : ¬ (m.state = .planning ∧ event.kind = .continue))
    (unconfirmed : ¬ (m.state = .confirming ∧ event.kind = .confirmed)) : Named result := by
  cases row with
  | planned here kind => exact absurd ⟨here, kind⟩ unplanned
  | confirmedNext here kind => exact absurd ⟨here, kind⟩ unconfirmed
  | uploadedOnly _ _ outcome | marked _ _ _ outcome | unmarked _ _ _ _ outcome | booted _ _ _ outcome =>
    exact outcome.named
  | toMark here => exact fun _ => sane.placed.inside (.inl (by rw [here]; rfl))
  | applyRead here _ _ outcome =>
    exact fun names => outcome.inside (sane.noted here) (outcome.judged.window_of_names names)
  | commitRead _ _ _ outcome | confirmVerified _ _ _ _ outcome =>
    exact fun names => absurd (outcome.judged.window_of_names names) outcome.shut
  | approved here => exact fun _ => sane.placed.inside (.inr here)
  | _ => simp [Named, namesCurrent, fail]

theorem guardedDecide_named (sane : Sane m) : Named (m.guardedDecide event) := by
  by_cases planned : m.state = .planning ∧ event.kind = .continue
  · unfold guardedDecide
    dsimp only
    split
    · simp only [Context.decide, planned]
      exact planFromState_named m.plan m.context
    · simp [Named, namesCurrent, Context.failAt, Context.fail]
  · by_cases confirmed : m.state = .confirming ∧ event.kind = .confirmed
    · unfold guardedDecide
      dsimp only
      split
      · simp only [Context.decide, confirmed]
        exact confirmAccepted_named _
      · simp [Named, namesCurrent, Context.failAt, Context.fail]
    · exact (guardedDecide_row m event).named sane planned confirmed

theorem Placed.over_ (halted : isTerminal state = true) : Placed state c := by
  refine ⟨fun needs => ?_, fun _ => .inl halted⟩
  cases state <;> simp [isTerminal] at halted <;> simp [needsCurrent] at needs

theorem Placed.calm (quiet : c.uploadInProgress = false)
    (inside : needsCurrent state = true ∨ state = .awaitingConfirmation → c.current < c.targets.length) :
    Placed state c :=
  ⟨inside, fun busy => absurd (quiet.symm.trans busy) (by simp)⟩

theorem Judged.placed (judged : Judged c result) (quiet : c.uploadInProgress = false)
    (inside : isWindow result.1.next → result.2.current < result.2.targets.length) : Placed result.1.next result.2 := by
  refine .calm ((congrArg uploadInProgress judged.frame).trans quiet) fun needs => inside ?_
  rcases judged.next with next | next | next | next | window
  · simp [next, needsCurrent] at needs
  · simp [next, needsCurrent] at needs
  · simp [next, needsCurrent] at needs
  · simp [next, needsCurrent] at needs
  · exact window

theorem Moves.uploadInProgress {before : Context} (moves : Moves plan before after) :
    after.uploadInProgress = before.uploadInProgress := by
  rw [moves.frame]
  rfl

theorem Planned.placed (outcome : Planned plan c result)
    (quiet : c.uploadInProgress = false) (named : Named result) : Placed result.1.next result.2 := by
  have still {at_ : Context} (moves : Moves plan c at_) : at_.uploadInProgress = false :=
    moves.uploadInProgress.trans quiet
  cases outcome with
  | stopped | uploaded | refused => exact .over_ rfl
  | upload => exact ⟨fun _ => named rfl, fun _ => .inr ⟨.inl rfl, named rfl⟩⟩
  | mark moves => exact .calm (still moves) fun _ => named rfl
  | next moves | reset moves => exact .calm (still moves) (by simp [needsCurrent])
  | judged moves outcome => exact outcome.judged.placed (still moves) outcome.inside

theorem Row.placed (row : Row m event result) (sane : Sane m) (named : Named result) :
    Placed result.1.next result.2 := by
  -- Outside these states no upload is under way, so only the current target is left to find.
  have quiet {state : UpdateState} (here : m.state = state)
      (elsewhere : (isTerminal state || state == .uploading || state == .awaitingReconnect) = false) :
      m.context.uploadInProgress = false := by
    by_contra busy
    rw [← here] at elsewhere
    rcases sane.placed.going (by simpa using busy) with halted | ⟨here | here, _⟩ <;> simp_all
  have waits (here : isWait m.state) : m.context.uploadInProgress = false := by
    rcases here with here | here
    · exact quiet here rfl
    · exact quiet here rfl
  have confirms (here : isConfirmRound m.state) : m.context.uploadInProgress = false := by
    rcases here with here | here
    · exact quiet here rfl
    · exact quiet here rfl
  cases row with
  | settled halted => exact .over_ halted
  | stopped | cancelled | timedOut | missing | confirmRefused | unconfirmed => exact .over_ rfl
  | idle => exact sane.placed
  | polled here | waitRepeated here =>
    exact ⟨sane.placed.inside, fun busy => absurd ((waits here).symm.trans busy) (by simp)⟩
  | uploadedOnly _ _ outcome => exact outcome.planned.placed rfl named
  | uploaded here => exact .calm rfl fun _ => sane.placed.inside (.inl (by rw [here]; rfl))
  | suspended here =>
    exact ⟨by simp [needsCurrent], fun _ => .inr ⟨.inr rfl, sane.placed.inside (.inl (by rw [here]; rfl))⟩⟩
  | planned here _ outcome | marked here _ _ outcome | unmarked here _ _ _ outcome =>
    exact outcome.planned.placed (quiet here rfl) named
  | toMark here => exact .calm (quiet here rfl) fun _ => named rfl
  | resumed here busy =>
    rcases sane.placed.going busy with halted | ⟨_, inside⟩
    · simp [here, isTerminal] at halted
    · exact ⟨fun _ => inside, fun _ => .inr ⟨.inl rfl, inside⟩⟩
  | reconnected _ free => exact .calm free (by simp [needsCurrent])
  | booted here _ _ outcome => exact outcome.judged.placed (quiet here rfl) outcome.inside
  | applyRead here _ _ outcome => exact outcome.judged.placed (waits (.inl here)) (outcome.inside (sane.noted here))
  | commitRead here _ _ outcome =>
    exact outcome.judged.placed (waits (.inr here)) fun window => absurd window outcome.shut
  | waitDropped here => exact .calm (waits here) (by simp [needsCurrent])
  | confirmedNext here => exact .calm (confirms (.inl here)) fun _ => named rfl
  | confirmedLast here => exact .calm (confirms (.inl here)) (by simp [needsCurrent])
  | confirmDropped here | confirmReread here => exact .calm (confirms here) (by simp [needsCurrent])
  | confirmVerified here _ _ _ outcome =>
    exact outcome.judged.placed (confirms (.inr here)) fun window => absurd window outcome.shut
  | approved here => exact .calm (quiet here rfl) fun _ => named rfl
  | started here | parameters here | inspected here | remark here | forced here | rebooting here | dropped here
  | bootloader here => exact .calm (quiet here rfl) (by simp [needsCurrent])

end

theorem decided_eq (sane : Sane m) (event : Event) : m.decided event = m.guardedDecide event := by
  have named := @guardedDecide_named m event sane
  unfold decided
  dsimp only
  split
  · rename_i beyond
    have both : namesCurrent (m.guardedDecide event).1.effect = true ∧
        (m.guardedDecide event).2.targets.length ≤ (m.guardedDecide event).2.current := by simpa using beyond
    have inside := named both.1
    omega
  · rfl

theorem decided_fits (m : Machine) (event : Event) :
    fits (m.decided event).1.next (m.decided event).1.effect = true :=
  decided_cases m event Row.fits fun _ _ _ => rfl

theorem fits_markForTest (fit : fits state .markForTest = true) : state = .markingForTest := by
  cases state <;> first | rfl | cases fit

theorem fits_reset (fit : fits state .reset = true ∨ fits state .forceReset = true) : state = .resetting := by
  cases state <;> first | rfl | (rcases fit with fit | fit <;> cases fit)

theorem fits_requestConfirmation (fit : fits state .requestConfirmation = true) : state = .awaitingConfirmation := by
  cases state <;> first | rfl | cases fit

theorem fits_confirm (fit : fits state .confirm = true) : state = .confirming := by
  cases state <;> first | rfl | cases fit

theorem fits_awaitApply (fit : fits state .awaitApply = true) : isWait state := by
  cases state <;> first | exact .inl rfl | exact .inr rfl | cases fit

theorem apply_fits (m : Machine) (event : Event) : fits (m.apply event).2.state (m.apply event).1.effect = true := by
  rw [apply_state, apply_effect]
  exact decided_fits m event

theorem new_sane {targets : List Target} (plan : UpdatePlan) (some_ : targets ≠ []) : Sane (.new targets plan) :=
  ⟨by simpa [new] using some_, .calm rfl (by simp [new, needsCurrent]), by simp [Noted, new]⟩

theorem apply_sane (sane : Sane m) (event : Event) : Sane (m.apply event).2 := by
  refine ⟨fun none_ => ?_, ?_, apply_noted m event sane.noted⟩
  · have same := (apply_evolves m event).length_eq
    rw [none_] at same
    exact sane.whole (List.length_eq_zero_iff.mp same)
  have placed : Placed (m.decided event).1.next (m.decided event).2 := by
    rw [decided_eq sane]
    exact (guardedDecide_row m event).placed sane (guardedDecide_named sane)
  refine ⟨?_, ?_⟩
  · rw [apply_state, apply_current, apply_targets]
    exact placed.inside
  · rw [apply_state, apply_current, apply_targets, apply_uploadInProgress]
    exact placed.going

theorem run_sane {targets : List Target} (plan : UpdatePlan) (some_ : targets ≠ []) (events : List Event) :
    Sane (runMachine targets plan events) :=
  Systems.state_invariant apply (new targets plan) Sane (new_sane plan some_)
    (fun _ event sane => apply_sane sane event) events

theorem Sane.ordinary (sane : Sane m) {event : Event} (here : legal m.state event.kind = true)
    (complete : carriesTable event.kind = true → event.state ≠ none) : ¬ Strange m event := by
  intro strange
  cases strange with
  | imageless none_ => exact sane.whole none_
  | beyond needs => exact absurd (sane.placed.inside (.inl needs)) (by omega)
  | tableless carries none_ => exact complete carries none_
  | misplaced elsewhere =>
    rw [here] at elsewhere
    cases elsewhere
  | unnamed names => exact absurd (guardedDecide_named sane names) (by omega)

theorem apply_cancel (sane : Sane m) (blameless : Blameless m) {event : Event}
    (live : isTerminal m.state = false) (asked : event.kind = .cancel) : CleanlyCancelled (m.apply event).2 := by
  have decision := decided_cancel live asked sane.whole fun needs => sane.placed.inside (.inl needs)
  refine ⟨?_, ?_, ?_⟩
  · rw [apply_state, decision]
  · rw [apply_finalState m event (by rw [decision]), decision]
  · rw [apply_cause, decision]
    exact blameless live

theorem CleanlyCancelled.apply (done : CleanlyCancelled m) (event : Event) : CleanlyCancelled (m.apply event).2 := by
  have halted : isTerminal m.state = true := by
    rw [done.state]
    rfl
  have same := decided_halted halted event
  refine ⟨?_, ?_, ?_⟩
  · rw [apply_state, same]
    exact done.state
  · rw [apply_finalState_kept m event (by simp [same]), same]
    exact done.final
  · rw [apply_cause, same]
    exact done.cause

end Smply.Dfu
