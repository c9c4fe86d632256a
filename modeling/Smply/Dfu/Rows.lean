import Smply.Dfu.Planning

namespace Smply.Dfu

open Context

variable {after : Context} {plan : UpdatePlan} {result : Step × Context} {before c : Context} {table : ImageState}

/-- What planning may change before it settles on a step. The checks have run once at most. -/
structure Moves (plan : UpdatePlan) (before after : Context) : Prop where
  frame : after = { before.withTargets after.targets after.report.images with
    current := after.current
    swapScheduled := after.swapScheduled
    markRetried := after.markRetried
    preconditionsChecked := after.preconditionsChecked }
  targets : List.Forall₂ Resolves before.targets after.targets
  swap : before.swapScheduled = true → after.swapScheduled = true
  checked : after.preconditionsChecked = before.preconditionsChecked ∨
    (before.preconditionsChecked = false ∧ after.preconditionsChecked = true ∧
      modeRefusal plan after = none ∧ isDowngrade plan after = false)

inductive Planned (plan : UpdatePlan) (c : Context) : Step × Context → Prop where
  | stopped {at_ : Context} (moves : Moves plan c at_) (error : Error) : Planned plan c (at_.fail error)
  | refused {at_ : Context} (moves : Moves plan c at_) (unchecked : at_.preconditionsChecked = false)
      (refusal : Refusal) : Planned plan c ({ next := .failed, effect := .finish }, at_.refusedBy refusal)
  | upload {at_ : Context} (moves : Moves plan c at_) (checked : at_.preconditionsChecked = true)
      (known : CurrentKnown at_) :
      Planned plan c ({ next := .uploading, effect := .startUpload }, { at_ with uploadInProgress := true })
  | mark {at_ : Context} (moves : Moves plan c at_) (checked : at_.preconditionsChecked = true)
      (known : CurrentKnown at_) (settable : withoutSetState at_ = false) :
      Planned plan c ({ next := .markingForTest, effect := .markForTest }, at_)
  | next {at_ : Context} (moves : Moves plan c at_) :
      Planned plan c ({ next := .planning, effect := .continue }, at_)
  | reset {at_ : Context} (moves : Moves plan c at_) (checked : at_.preconditionsChecked = true)
      (whole : uploadOnly plan = false) :
      Planned plan c ({ next := .resetting, effect := .reset }, at_)
  | uploaded {at_ : Context} (moves : Moves plan c at_) (only : uploadOnly plan = true) :
      Planned plan c ({ next := .completed, effect := .finish }, at_)
  | judged {at_ : Context} (moves : Moves plan c at_) {result : Step × Context}
      (outcome : InspectBoot plan at_ result) : Planned plan c result

theorem Skipped.moves (skipped : Skipped before after) : Moves plan before after := by
  have frame := skipped.frame
  have checked := congrArg preconditionsChecked frame
  have retried := congrArg markRetried frame
  refine ⟨?_, skipped.targets, skipped.swap, .inl checked⟩
  rw [retried, checked]
  exact frame

theorem Moves.refl (plan : UpdatePlan) (c : Context) : Moves plan c c := (Skipped.refl c).moves

theorem Moves.onward (moves : Moves plan before after)
    (images : List ImageReport) (current : Nat) (swap retried : Bool)
    (kept : after.swapScheduled = true → swap = true) : Moves plan before
      { after.withImages images with current := current, swapScheduled := swap, markRetried := retried } := by
  refine ⟨?_, moves.targets, fun owed => kept (moves.swap owed), moves.checked⟩
  rw [moves.frame]
  rfl

theorem CheckPreconditions.checked (check : CheckPreconditions plan c (none, after)) :
    after = { c with preconditionsChecked := true } := by
  cases check with
  | already checked => rw [← checked]
  | passed => rfl

theorem Moves.check (moves : Moves plan before c)
    (check : CheckPreconditions plan c (none, after)) : Moves plan before after := by
  cases check with
  | already => exact moves
  | passed unchecked mode newer =>
    refine ⟨?_, moves.targets, moves.swap, .inr ⟨?_, rfl, mode, newer⟩⟩
    · have frame := moves.frame
      rw [frame]
      rfl
    rcases moves.checked with same | ⟨fresh, _⟩
    · exact same.symm.trans unchecked
    · exact fresh

theorem CheckPreconditions.planned {step : Step} (check : CheckPreconditions plan c (some step, after))
    (moves : Moves plan before c) : Planned plan before (step, after) := by
  cases check with
  | refused unchecked refusal => exact .refused moves unchecked refusal

theorem Staged.planned (outcome : Staged plan c result) (moves : Moves plan before c) : Planned plan before result := by
  cases outcome with
  | uploaded only => exact .uploaded moves only
  | refused _ _ _ _ check => exact check.planned moves
  | reset whole _ after check =>
    have same := check.checked
    exact .reset (moves.check check) (by rw [same]) whole
  | judged _ _ _ outcome => exact .judged moves outcome

theorem NextTarget.plannedFrom (outcome : NextTarget plan c result) (moves : Moves plan before c) :
    Planned plan before result := by
  have onward := moves.onward c.report.images (c.current + 1) c.swapScheduled false id
  cases outcome with
  | next => exact .next onward
  | staged _ _ outcome => exact outcome.planned onward

theorem NextTarget.planned (outcome : NextTarget plan c result) : Planned plan c result :=
  outcome.plannedFrom (.refl plan c)

theorem MarkOrSkip.planned (outcome : MarkOrSkip plan c result) (moves : Moves plan before c)
    (checked : c.preconditionsChecked = true) (known : CurrentKnown c) : Planned plan before result := by
  cases outcome with
  | skipped _ _ outcome =>
    exact outcome.plannedFrom (moves.onward c.report.images c.current true c.markRetried fun _ => rfl)
  | mark settable => exact .mark moves checked known settable

theorem PlanLoop.planned (outcome : PlanLoop plan c result) : Planned plan c result := by
  cases outcome with
  | stopped _ skipped => exact .stopped skipped.moves _
  | refused _ skipped _ _ check => exact check.planned skipped.moves
  | upload _ skipped known after check =>
    have same := check.checked
    exact .upload (skipped.moves.check check) (by rw [same]) (by rw [same]; exact known)
  | mark _ skipped known _ after check images _ outcome =>
    have same := check.checked
    have moves := (skipped.moves.check check).onward images after.current after.swapScheduled after.markRetried id
    exact outcome.planned moves (by rw [same]; rfl) (by rw [same]; exact known)
  | staged _ skipped _ outcome => exact outcome.planned skipped.moves

theorem PlanFromState.planned (outcome : PlanFromState plan c result) : Planned plan c result := by
  cases outcome with
  | afterReset _ _ images _ outcome =>
    exact .judged ((Moves.refl plan c).onward images c.current c.swapScheduled c.markRetried id) outcome
  | loop _ _ outcome => exact outcome.planned

def isWait (state : UpdateState) : Prop := state = .awaitingDeviceApply ∨ state = .awaitingDeviceCommit

def isConfirmRound (state : UpdateState) : Prop := state = .confirming ∨ state = .verifyingConfirmed

def Consistent (m : Machine) : Prop :=
  m.context.targets ≠ [] ∧ (needsCurrent m.state = true → m.context.current < m.context.targets.length)

structure Unruled (m : Machine) (event : Event) : Prop where
  tick : event.kind ≠ .tick
  marking : m.state = .markingForTest → event.kind = .markedForTest → event.state = none
  confirmed : m.state = .verifyingConfirmed → event.kind ≠ .failed ∧ (event.kind = .stateRead → event.state = none)

/-- Everything one event can do, row by row of the state table. -/
inductive Row (m : Machine) (event : Event) : Step × Context → Prop where
  | settled (halted : isTerminal m.state = true) : Row m event ({ next := m.state, effect := .none }, m.context)
  | stopped (live : isTerminal m.state = false) (error : Error)
      (unruled : Consistent m → Unruled m event) :
      Row m event (m.context.fail error)
  | cancelled (live : isTerminal m.state = false) (asked : event.kind = .cancel) :
      Row m event ({ next := .cancelled, effect := .finish },
        { m.context with report := { m.context.report with revertPending := m.context.swapScheduled } })
  | idle (live : isTerminal m.state = false) (tick : event.kind = .tick) :
      Row m event ({ next := m.state, effect := .none }, m.context)
  | polled (here : isWait m.state) (tick : event.kind = .tick) :
      Row m event ({ next := m.state, effect := .readState }, { m.context with applyPoll := none })
  | timedOut (here : isWait m.state) (tick : event.kind = .tick) (error : Error) :
      Row m event ({ m.context with applyPoll := none }.fail error)
  | started (here : m.state = .idle) :
      Row m event ({ next := .queryingParameters, effect := .queryParameters }, m.context)
  | parameters (here : m.state = .queryingParameters) (size : UInt32) :
      Row m event ({ next := .queryingBootloader, effect := .queryBootloader },
        { m.context with bufSize := size })
  | bootloader (here : m.state = .queryingBootloader) (mode : McubootMode) (noDowngrade : Bool) :
      Row m event ({ next := .inspectingImages, effect := .readState },
        { m.context with report := recordMode mode m.plan m.context.report, noDowngrade := noDowngrade })
  | inspected (here : m.state = .inspectingImages) (kind : event.kind = .stateRead)
      {table : ImageState} (read : event.state = some table) :
      Row m event ({ next := .planning, effect := .continue }, m.context.withTable event)
  | planned (here : m.state = .planning) (kind : event.kind = .continue) {result : Step × Context}
      (outcome : PlanFromState m.plan m.context result) : Row m event result
  | uploadedOnly (here : m.state = .uploading) (only : uploadOnly m.plan = true) {images : List ImageReport}
      {result : Step × Context}
      (outcome : NextTarget m.plan ({ m.context with uploadInProgress := false }.withImages images) result) :
      Row m event result
  | uploaded (here : m.state = .uploading) (whole : uploadOnly m.plan = false) (images : List ImageReport) :
      Row m event ({ next := .verifyingUpload, effect := .readState },
        { m.context with uploadInProgress := false }.withImages images)
  | suspended (here : m.state = .uploading) :
      Row m event ({ next := .awaitingReconnect, effect := .requestReconnect }, m.context)
  | missing (here : m.state = .verifyingUpload) (kind : event.kind = .stateRead)
      {table : ImageState} (read : event.state = some table) (error : Error) :
      Row m event ((m.context.withTable event).fail error)
  | unmarked (here : m.state = .verifyingUpload) (kind : event.kind = .stateRead)
      {table : ImageState} (read : event.state = some table) (unsettable : withoutSetState m.context = true)
      {images : List ImageReport} {result : Step × Context}
      (outcome : NextTarget m.plan
        { (m.context.withTable event).withImages images with swapScheduled := true } result) : Row m event result
  | toMark (here : m.state = .verifyingUpload) (kind : event.kind = .stateRead)
      {table : ImageState} (read : event.state = some table) (settable : withoutSetState m.context = false)
      (images : List ImageReport) :
      Row m event ({ next := .markingForTest, effect := .markForTest }, (m.context.withTable event).withImages images)
  | marked (here : m.state = .markingForTest) (kind : event.kind = .markedForTest)
      {table : ImageState} (read : event.state = some table) {result : Step × Context}
      (outcome : NextTarget m.plan { m.context.withTable event with swapScheduled := true } result) :
      Row m event result
  | remark (here : m.state = .markingForTest) (kind : event.kind = .failed) :
      Row m event ({ next := .inspectingImages, effect := .readState }, { m.context with markRetried := true })
  | forced (here : m.state = .resetting) :
      Row m event ({ next := .resetting, effect := .forceReset }, { m.context with resetForced := true })
  | rebooting (here : m.state = .resetting) :
      Row m event ({ next := .awaitingDisconnect, effect := .awaitDisconnect }, m.context)
  | dropped (here : m.state = .awaitingDisconnect) :
      Row m event ({ next := .awaitingReconnect, effect := .requestReconnect }, m.context)
  | resumed (here : m.state = .awaitingReconnect) (busy : m.context.uploadInProgress = true) :
      Row m event ({ next := .uploading, effect := .resumeUpload }, m.context)
  | reconnected (here : m.state = .awaitingReconnect) (free : m.context.uploadInProgress = false) :
      Row m event ({ next := .verifyingBooted, effect := .readState }, m.context)
  | booted (here : m.state = .verifyingBooted) (kind : event.kind = .stateRead)
      {table : ImageState} (read : event.state = some table) {result : Step × Context}
      (outcome : InspectBoot m.plan (m.context.withTable event) result) : Row m event result
  | applyRead (here : m.state = .awaitingDeviceApply) (kind : event.kind = .stateRead)
      {table : ImageState} (read : event.state = some table) {result : Step × Context}
      (outcome : AwaitDevice m.plan (m.context.withTable event) false (m.context.withTable event).targets result) :
      Row m event result
  | commitRead (here : m.state = .awaitingDeviceCommit) (kind : event.kind = .stateRead)
      {table : ImageState} (read : event.state = some table) {result : Step × Context}
      (outcome : AwaitCommit (m.context.withTable event) false (m.context.withTable event).targets result) : Row m event result
  | waitDropped (here : isWait m.state) :
      Row m event ({ next := .awaitingReconnect, effect := .requestReconnect }, m.context)
  | waitRepeated (here : isWait m.state) :
      Row m event ({ next := m.state, effect := .awaitApply }, m.context)
  | approved (here : m.state = .awaitingConfirmation) :
      Row m event ({ next := .confirming, effect := .confirm }, { m.context with confirmApproved := true })
  | confirmedNext (here : m.state = .confirming) (kind : event.kind = .confirmed)
      {table : ImageState} (read : event.state = some table) (next : Nat) :
      Row m event ({ next := .confirming, effect := .confirm },
        { (m.context.withTable event).setInTrial m.context.current false with current := next })
  | confirmedLast (here : m.state = .confirming) (kind : event.kind = .confirmed)
      {table : ImageState} (read : event.state = some table) (next : Nat) :
      Row m event ({ next := .verifyingConfirmed, effect := .readState },
        { (m.context.withTable event).setInTrial m.context.current false with
          current := next, swapScheduled := false })
  | confirmDropped (here : isConfirmRound m.state) (kind : event.kind = .failed) :
      Row m event ({ next := .awaitingReconnect, effect := .requestReconnect },
        { m.context with swapScheduled := true })
  | confirmReread (here : isConfirmRound m.state) (kind : event.kind = .failed) :
      Row m event ({ next := .verifyingBooted, effect := .readState },
        { m.context with swapScheduled := true, confirmReread := true })
  | confirmRefused (here : isConfirmRound m.state) (kind : event.kind = .failed) (error : Error) :
      Row m event ({ m.context with swapScheduled := true }.fail error)
  | confirmVerified (here : m.state = .verifyingConfirmed) (kind : event.kind = .stateRead)
      {table : ImageState} (read : event.state = some table)
      (every : allConfirmed (m.context.withTable event) = true) {result : Step × Context}
      (outcome : AwaitCommit (m.context.withTable event) false (m.context.withTable event).targets result) : Row m event result
  | unconfirmed (here : m.state = .verifyingConfirmed) (kind : event.kind = .stateRead)
      {table : ImageState} (read : event.state = some table) (error : Error) :
      Row m event ({ m.context.withTable event with swapScheduled := true }.fail error)

section
variable {m : Machine} {event : Event}

section
variable (live : isTerminal m.state = false)
include live

theorem Row.failed (elsewhere : m.state ≠ .verifyingConfirmed)
    (kind : event.kind = .failed ∨ event.kind = .reconnectFailed) (error : Error) :
    Row m event (m.context.fail error) := by
  refine .stopped live error fun _ => ⟨?_, fun _ marked => ?_, fun here => absurd here elsewhere⟩
  · rcases kind with kind | kind <;> simp [kind]
  · rcases kind with kind | kind <;> simp [kind] at marked

theorem tick_row (tick : event.kind = .tick) : Row m event (m.context.tick m.state event.now) := by
  unfold Context.tick
  split
  · rename_i halted
    exact .dropped halted.1
  dsimp only
  split
  · exact .idle live tick
  rename_i due
  have here : isWait m.state := by
    by_contra elsewhere
    exact due (.inl elsewhere)
  split
  · exact .timedOut here tick _
  · exact .polled here tick

theorem bootloaderFailed_row (here : m.state = .queryingBootloader) (kind : event.kind = .failed) :
    Row m event (m.context.bootloaderFailed event.error m.plan) := by
  unfold bootloaderFailed
  split
  · exact .bootloader here .unknown m.context.noDowngrade
  · exact .failed live (by simp [here]) (.inl kind) event.error

end

theorem uploadFinished_row (here : m.state = .uploading) : Row m event (m.context.uploadFinished event m.plan) := by
  unfold uploadFinished
  cases only : uploadOnly m.plan
  · exact .uploaded here only _
  · exact .uploadedOnly here only (nextTarget_outcome m.plan _)

theorem uploadVerified_row (here : m.state = .verifyingUpload) (kind : event.kind = .stateRead)
    (read : event.state = some table) : Row m event ((m.context.withTable event).uploadVerified m.plan) := by
  unfold uploadVerified markOrSkip
  split
  · exact .missing here kind read _
  split
  · exact .unmarked here kind read ‹_› (nextTarget_outcome m.plan _)
  · exact .toMark here kind read (Bool.eq_false_of_not_eq_true ‹_›) _

section
variable (live : isTerminal m.state = false)
include live

theorem markRefused_row (here : m.state = .markingForTest)
    (kind : event.kind = .failed) : Row m event (m.context.markRefused event.error) := by
  unfold markRefused
  dsimp only
  split
  · exact .remark here kind
  · exact .failed live (by simp [here]) (.inl kind) event.error

theorem resetRefused_row (here : m.state = .resetting) (kind : event.kind = .failed) :
    Row m event (m.context.resetRefused event.error) := by
  unfold resetRefused
  split
  · exact .forced here
  split
  · exact .rebooting here
  · exact .failed live (by simp [here]) (.inl kind) event.error

theorem waitReadFailed_row (here : isWait m.state) (kind : event.kind = .failed) :
    Row m event (m.context.waitReadFailed m.state event.error) := by
  unfold waitReadFailed
  split
  · exact .waitDropped here
  split
  · exact .waitRepeated here
  · exact .failed live (by rcases here with here | here <;> simp [here]) (.inl kind) event.error

end

theorem confirmFailed_row (here : isConfirmRound m.state) (kind : event.kind = .failed) :
    Row m event (m.context.confirmFailed event.error) := by
  unfold confirmFailed
  dsimp only
  split
  · exact .confirmDropped here kind
  split
  · exact .confirmReread here kind
  · exact .confirmRefused here kind event.error

theorem confirmAccepted_row (here : m.state = .confirming) (kind : event.kind = .confirmed)
    (read : event.state = some table) : Row m event (m.context.withTable event).confirmAccepted := by
  unfold confirmAccepted
  dsimp only
  split
  · exact .confirmedNext here kind read _
  · exact .confirmedLast here kind read _

theorem confirmVerified_row (here : m.state = .verifyingConfirmed) (kind : event.kind = .stateRead)
    (read : event.state = some table) : Row m event (m.context.withTable event).confirmVerified := by
  unfold confirmVerified
  split
  · rename_i every
    exact .confirmVerified here kind read every (awaitCommit_outcome _)
  · exact .unconfirmed here kind read _

theorem decide_row (live : isTerminal m.state = false)
    (complete : carriesTable event.kind = true → ∃ table, event.state = some table) :
    Row m event (m.context.decide m.state event m.plan) := by
  unfold Context.decide
  split
  · rename_i asked
    simp only [live, Bool.false_eq_true, ↓reduceIte]
    exact .cancelled live asked
  · rename_i tick
    exact tick_row live tick
  · split <;> rename_i here kind
    · exact .started here
    · exact .parameters here event.bufSize
    · exact .parameters here m.context.bufSize
    · exact .bootloader here event.bootloader.mode event.bootloader.noDowngrade
    · exact bootloaderFailed_row live here kind
    · obtain ⟨table, read⟩ := complete (by rw [kind]; rfl)
      exact .inspected here kind read
    · exact .failed live (by simp [here]) (.inl kind) event.error
    · exact .planned here kind (planFromState_outcome m.plan m.context)
    · exact uploadFinished_row here
    · exact .suspended here
    · exact .failed live (by simp [here]) (.inl kind) event.error
    · obtain ⟨table, read⟩ := complete (by rw [kind]; rfl)
      exact uploadVerified_row here kind read
    · exact .failed live (by simp [here]) (.inl kind) event.error
    · obtain ⟨table, read⟩ := complete (by rw [kind]; rfl)
      exact .marked here kind read (nextTarget_outcome m.plan _)
    · exact markRefused_row live here kind
    · exact .rebooting here
    · exact resetRefused_row live here kind
    · exact .dropped here
    · cases busy : m.context.uploadInProgress
      · exact .reconnected here busy
      · exact .resumed here busy
    · exact .failed live (by simp [here]) (.inr kind) event.error
    · obtain ⟨table, read⟩ := complete (by rw [kind]; rfl)
      exact .booted here kind read (inspectBoot_outcome m.plan _)
    · exact .failed live (by simp [here]) (.inl kind) event.error
    · obtain ⟨table, read⟩ := complete (by rw [kind]; rfl)
      exact .applyRead here kind read (awaitDevice_outcome m.plan _)
    · exact here ▸ waitReadFailed_row live (.inl here) kind
    · obtain ⟨table, read⟩ := complete (by rw [kind]; rfl)
      exact .commitRead here kind read (awaitCommit_outcome _)
    · exact here ▸ waitReadFailed_row live (.inr here) kind
    · exact .approved here
    · obtain ⟨table, read⟩ := complete (by rw [kind]; rfl)
      exact confirmAccepted_row here kind read
    · exact confirmFailed_row (.inl here) kind
    · obtain ⟨table, read⟩ := complete (by rw [kind]; rfl)
      exact confirmVerified_row here kind read
    · exact confirmFailed_row (.inr here) kind
    · simp [kind, isTerminal] at live
    · simp [kind, isTerminal] at live
    · simp [kind, isTerminal] at live
    · have marking : m.state = .markingForTest → event.kind = .markedForTest → False := by assumption
      refine .stopped live _ fun _ => ⟨by assumption, fun state marked => (marking state marked).elim, ?_⟩
      exact fun state => ⟨kind state, fun read => (here state read).elim⟩

end

theorem decide_settled (m : Machine) (event : Event) (halted : isTerminal m.state = true) :
    m.context.decide m.state event m.plan = ({ next := m.state, effect := .none }, m.context) := by
  have final : m.state = .completed ∨ m.state = .failed ∨ m.state = .cancelled := by
    simpa [isTerminal, or_assoc] using halted
  unfold Context.decide
  split
  · simp only [halted, ↓reduceIte]
  · rcases final with here | here | here <;> simp [here, tick]
  · rcases final with here | here | here <;> simp only [here]

theorem guardedDecide_row (m : Machine) (event : Event) : Row m event (m.guardedDecide event) := by
  unfold Machine.guardedDecide
  dsimp only
  cases halted : isTerminal m.state
  · split
    · rename_i fit
      simp only [Bool.false_or, Bool.and_eq_true, Bool.or_eq_true, Bool.not_eq_true'] at fit
      refine decide_row halted fun carried => Option.isSome_iff_exists.mp ?_
      rcases fit.2 with none | present
      · rw [none] at carried
        exact absurd carried (by simp)
      · exact present
    · rename_i unfit
      refine .stopped halted _ fun consistent => ?_
      have inside : needsCurrent m.state = false ∨ m.context.current < m.context.targets.length := by
        cases needs : needsCurrent m.state
        · exact .inl rfl
        · exact .inr (consistent.2 needs)
      have unread : carriesTable event.kind = true ∧ event.state = none := by simpa [consistent.1, inside] using unfit
      refine ⟨fun tick => ?_, fun _ _ => unread.2, fun _ => ⟨fun failed => ?_, fun _ => unread.2⟩⟩
      · simp [tick, carriesTable] at unread
      · simp [failed, carriesTable] at unread
  · simp only [Bool.true_or, ↓reduceIte, decide_settled m event halted]
    exact .settled halted

inductive Decided (m : Machine) (event : Event) : Step × Context → Prop where
  | row (result : Step × Context) (row : Row m event result)
      (named : namesCurrent result.1.effect = true → result.2.current < result.2.targets.length) :
      Decided m event result
  | unnamed (result : Step × Context) (row : Row m event result)
      (named : namesCurrent result.1.effect = true) (error : Error) :
      Decided m event (result.2.fail error)

theorem decided_outcome (m : Machine) (event : Event) : Decided m event (m.decided event) := by
  unfold Machine.decided
  have row := guardedDecide_row m event
  generalize m.guardedDecide event = result at row
  obtain ⟨step, after⟩ := result
  dsimp only
  split
  · rename_i beyond
    simp only [Bool.and_eq_true] at beyond
    exact .unnamed _ row beyond.1 _
  rename_i inside
  refine .row _ row fun named => ?_
  simpa [named] using inside

@[elab_as_elim] theorem decided_cases (m : Machine) (event : Event) {P : Step × Context → Prop}
    (row : ∀ {result : Step × Context}, Row m event result → P result)
    (unnamed : ∀ {result : Step × Context}, Row m event result → namesCurrent result.1.effect = true →
      ∀ error, P (result.2.fail error)) : P (m.decided event) := by
  have decided := decided_outcome m event
  generalize m.decided event = result at decided
  cases decided with
  | row _ given => exact row given
  | unnamed _ given named error => exact unnamed given named error

theorem keepTime_eq (c : Context) (step : Step) (now : TimePoint) (plan : UpdatePlan) :
    ∃ grace poll deadline phase, c.keepTime step now plan =
      { c with graceDeadline := grace, applyPoll := poll, applyDeadline := deadline, applyPhase := phase } := by
  unfold keepTime
  dsimp only
  split <;> split <;> first | exact ⟨_, _, _, _, rfl⟩ | (split <;> exact ⟨_, _, _, _, rfl⟩)

theorem summarise_eq (report : UpdateReport) : ∃ transferred skipped rolledBack slot, report.summarise =
      { report with
        bytesTransferred := transferred, uploadSkipped := skipped, rolledBack := rolledBack, uploadSlot := slot } := by
  unfold UpdateReport.summarise
  split <;> exact ⟨_, _, _, _, rfl⟩

@[simp] theorem parameterise_next (step : Step) (c : Context) : (step.parameterise c).next = step.next := by
  unfold Step.parameterise
  split <;> first | rfl | (split <;> rfl)

@[simp] theorem parameterise_effect (step : Step) (c : Context) :
    (step.parameterise c).effect = step.effect := by
  unfold Step.parameterise
  split <;> first | rfl | (split <;> rfl)

structure Reported (step : Step) (c : Context) (report : UpdateReport) : Prop where
  revertPending : report.revertPending = c.report.revertPending
  refusal : report.refusal = c.report.refusal
  bootloaderMode : report.bootloaderMode = c.report.bootloaderMode
  final : step.effect = .finish → report.finalDeviceState = c.device
  kept : step.effect ≠ .finish → report.finalDeviceState = c.report.finalDeviceState

theorem finishReport_reported (c : Context) (step : Step) : Reported step c (c.summarise.finishReport step) := by
  obtain ⟨_, _, _, _, same⟩ := summarise_eq c.report
  unfold finishReport
  split
  · simp only [summarise, same]
    exact ⟨rfl, rfl, rfl, fun _ => rfl, fun unfinished => absurd ‹step.effect = .finish› unfinished⟩
  rename_i unfinished
  simp only [summarise, same]
  exact ⟨rfl, rfl, rfl, fun finish => absurd finish unfinished, fun _ => rfl⟩

section
variable (m : Machine) (event : Event)

theorem apply_eq : ∃ report grace poll deadline phase, Reported (m.decided event).1 (m.decided event).2 report ∧
    (m.apply event).2 = { m with
      state := (m.decided event).1.next
      context := { (m.decided event).2 with
        report := report, graceDeadline := grace, applyPoll := poll, applyDeadline := deadline, applyPhase := phase } } := by
  unfold Machine.apply
  dsimp only
  obtain ⟨grace, poll, deadline, phase, kept⟩ := keepTime_eq
    ((m.decided event).2.summarise.parameterise (m.decided event).1).2
    ((m.decided event).2.summarise.parameterise (m.decided event).1).1 event.now m.plan
  refine ⟨_, grace, poll, deadline, phase, finishReport_reported (m.decided event).2 (m.decided event).1, ?_⟩
  rw [kept]
  simp only [parameterise, summarise, parameterise_next]

@[simp] theorem apply_effect : (m.apply event).1.effect = (m.decided event).1.effect := parameterise_effect _ _

@[simp] theorem apply_state : (m.apply event).2.state = (m.decided event).1.next := parameterise_next _ _

@[simp] theorem apply_targets : (m.apply event).2.context.targets = (m.decided event).2.targets := by
  obtain ⟨_, _, _, _, _, _, same⟩ := apply_eq m event
  rw [same]

@[simp] theorem apply_current : (m.apply event).2.context.current = (m.decided event).2.current := by
  obtain ⟨_, _, _, _, _, _, same⟩ := apply_eq m event
  rw [same]

@[simp] theorem apply_device : (m.apply event).2.context.device = (m.decided event).2.device := by
  obtain ⟨_, _, _, _, _, _, same⟩ := apply_eq m event
  rw [same]

@[simp] theorem apply_uploadInProgress :
    (m.apply event).2.context.uploadInProgress = (m.decided event).2.uploadInProgress := by
  obtain ⟨_, _, _, _, _, _, same⟩ := apply_eq m event
  rw [same]

@[simp] theorem apply_swapScheduled :
    (m.apply event).2.context.swapScheduled = (m.decided event).2.swapScheduled := by
  obtain ⟨_, _, _, _, _, _, same⟩ := apply_eq m event
  rw [same]

@[simp] theorem apply_preconditionsChecked :
    (m.apply event).2.context.preconditionsChecked = (m.decided event).2.preconditionsChecked := by
  obtain ⟨_, _, _, _, _, _, same⟩ := apply_eq m event
  rw [same]

@[simp] theorem apply_noDowngrade :
    (m.apply event).2.context.noDowngrade = (m.decided event).2.noDowngrade := by
  obtain ⟨_, _, _, _, _, _, same⟩ := apply_eq m event
  rw [same]

@[simp] theorem apply_revertPending :
    (m.apply event).2.context.report.revertPending = (m.decided event).2.report.revertPending := by
  obtain ⟨_, _, _, _, _, reported, same⟩ := apply_eq m event
  rw [same]
  exact reported.revertPending

@[simp] theorem apply_refusal :
    (m.apply event).2.context.report.refusal = (m.decided event).2.report.refusal := by
  obtain ⟨_, _, _, _, _, reported, same⟩ := apply_eq m event
  rw [same]
  exact reported.refusal

@[simp] theorem apply_bootloaderMode :
    (m.apply event).2.context.report.bootloaderMode = (m.decided event).2.report.bootloaderMode := by
  obtain ⟨_, _, _, _, _, reported, same⟩ := apply_eq m event
  rw [same]
  exact reported.bootloaderMode

theorem apply_finalDeviceState (finish : (m.decided event).1.effect = .finish) :
    (m.apply event).2.context.report.finalDeviceState = (m.decided event).2.device := by
  obtain ⟨_, _, _, _, _, reported, same⟩ := apply_eq m event
  rw [same]
  exact reported.final finish

theorem apply_finalDeviceState_kept (unfinished : (m.decided event).1.effect ≠ .finish) :
    (m.apply event).2.context.report.finalDeviceState = (m.decided event).2.report.finalDeviceState := by
  obtain ⟨_, _, _, _, _, reported, same⟩ := apply_eq m event
  rw [same]
  exact reported.kept unfinished

end

end Smply.Dfu
