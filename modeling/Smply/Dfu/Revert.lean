import Smply.Dfu.Clients

namespace Smply.Dfu

open Context Machine Systems

variable {m : Machine} {event : Event} {result : Step × Context} {c : Context} {plan : UpdatePlan}

def pendingOn (table : ImageState) (image : UInt32) : Bool :=
  table.slots.any fun slot => slot.image == image && slot.pending

/-- Nothing of the target is left to revert: it runs confirmed, or does not run and nothing is pending for its image. -/
def Exonerates (table : ImageState) (target : Target) : Prop :=
  CommittedOn table target ∨ runs table target = false ∧ pendingOn table target.image = false

instance (table : ImageState) (target : Target) : Decidable (Exonerates table target) :=
  inferInstanceAs (Decidable (_ ∨ _))

def HoldsMarked (marked : Image) (c : Context) : Prop := ∃ target ∈ c.targets, target.untried = marked.untried

structure Reverts (marked : Image) (result : Step × Context) : Prop where
  ended : result.1.next = .failed ∨ result.1.next = .cancelled → result.2.report.revertPending = true
  owed : isTerminal result.1.next = false → result.2.swapScheduled = true ∨
    (result.1.next = .verifyingConfirmed ∧ namesCurrent result.1.effect = false)
  device : isTerminal result.1.next = false → result.1.next = .inspectingImages ∨
    result.1.next = .markingForTest ∨ ∃ table, result.2.device = some table ∧ ¬ Exonerates table marked.toTarget

section
variable {marked : Image} {c : Context} {result : Step × Context} {table : ImageState}

theorem Reverts.failed (marked : Image) (error : Error) (swap : c.swapScheduled = true) :
    Reverts marked (c.fail error) :=
  ⟨fun _ => swap, fun live => by simp [fail, isTerminal] at live,
    fun live => by simp [fail, isTerminal] at live⟩

theorem Reverts.live {step : Step} (swap : c.swapScheduled = true) (device : c.device = some table)
    (open_ : ¬ Exonerates table marked.toTarget) (next : isTerminal step.next = false) :
    Reverts marked (step, c) := by
  refine ⟨fun halted => ?_, fun _ => .inl swap, fun _ => .inr (.inr ⟨table, device, open_⟩)⟩
  change step.next = .failed ∨ step.next = .cancelled at halted
  rcases halted with halted | halted <;> simp [halted, isTerminal] at next

theorem owes_or_queued (device : c.device = some table) (open_ : ¬ Exonerates table marked.toTarget)
    (client : marked.commit = .client) (settable : withoutSetState c = false) :
    owesConfirm c marked.toTarget = true ∨ notRunning c true marked.toTarget = true := by
  simp only [Exonerates, CommittedOn, not_or, not_and] at open_
  cases shown : runs table marked.toTarget
  · right
    have queued := open_.2 shown
    unfold runs at shown
    simpa [notRunning, client, activeOf, device, shown, anythingPending, pendingOn] using queued
  · left
    have unconfirmed := open_.1 shown
    unfold runs at shown
    simpa [owesConfirm, client, activeOf, device, shown, settable] using unconfirmed

theorem AwaitCommit.reverts (outcome : AwaitCommit c false c.targets result) (swap : c.swapScheduled = true)
    (device : c.device = some table) (open_ : ¬ Exonerates table marked.toTarget) : Reverts marked result := by
  cases outcome with
  | failed => exact .failed marked _ swap
  | waiting => exact .live swap device open_ rfl
  | completed => exact ⟨by simp, by simp [isTerminal], by simp [isTerminal]⟩

theorem AwaitDevice.reverts {targets : List Image}
    (outcome : AwaitDevice plan c false targets result) (swap : c.swapScheduled = true)
    (device : c.device = some table) (open_ : ¬ Exonerates table marked.toTarget) : Reverts marked result := by
  cases outcome with
  | failed => exact .failed marked _ swap
  | waiting => exact .live swap device open_ rfl
  | commit _ _ _ quiet => exact absurd (swap.symm.trans quiet) (by simp)
  | fork =>
    unfold confirmationFork
    dsimp only
    split
    · exact .live swap device open_ rfl
    · exact .live swap device open_ rfl

theorem InspectBoot.reverts (outcome : InspectBoot plan c result)
    (member : HoldsMarked marked c) (client : marked.commit = .client) (settable : withoutSetState c = false)
    (swap : c.swapScheduled = true) (device : c.device = some table)
    (open_ : ¬ Exonerates table marked.toTarget) : Reverts marked result := by
  obtain ⟨target, found, copied⟩ := member
  have same : target.untried.toTarget = marked.untried.toTarget := by rw [copied]
  change target.toTarget = marked.toTarget at same
  have verdict := owes_or_queued device open_ client settable
  rw [← same] at verdict
  cases outcome with
  | inactive => exact .failed marked _ swap
  | stopped _ owed _ scheduled =>
    refine .failed marked _ ?_
    change owed = true
    rw [scheduled, Bool.or_eq_true, List.any_eq_true, List.any_eq_true]
    rcases verdict with owes | queued
    · exact .inr ⟨target, found, owes⟩
    · exact .inl ⟨target, found, queued⟩
  | running _ clients _ outcome =>
    have runs := clients target found (by rw [same]; exact client)
    have owes : (c.targets.any fun target => owesConfirm c target.toTarget) = true := by
      rw [List.any_eq_true]
      refine ⟨target, found, verdict.resolve_right fun queued => ?_⟩
      have hold : holds (activeOf c target.image) target.toTarget = true := runs
      simp [notRunning, hold] at queued
    exact outcome.reverts owes device open_

theorem Image.Known.resolves {before after : Image} (known : before.Known) (resolves : Resolves before after)
    : after = before := by
  rcases resolves with same | ⟨unknown, builds, _, _, has, _⟩
  · exact same
  rcases known with none | chosen
  · exact absurd (has.symm.trans none) (by simp)
  · exact absurd (chosen.symm.trans unknown) (by simp)

theorem Image.Known.untried {first second : Image} (known : first.Known) (same : second.untried = first.untried) :
    second.Known := by
  have builds : second.untried.builds = first.untried.builds := by rw [same]
  have chosen : second.untried.chosenKnown = first.untried.chosenKnown := by rw [same]
  exact known.imp builds.trans chosen.trans

theorem HoldsMarked.evolves {before after : List Image} (related : List.Forall₂ Evolves before after)
    (known : marked.Known) (held : ∃ target ∈ before, target.untried = marked.untried) :
    ∃ target ∈ after, target.untried = marked.untried := by
  obtain ⟨target, found, copied⟩ := held
  obtain ⟨image, here, resolved, resolves, same⟩ := forall₂_mem related.flip found
  have stays := (known.untried copied).resolves resolves
  exact ⟨image, here, same.trans (stays ▸ copied)⟩

theorem Planned.reverts (outcome : Planned plan c result) (member : HoldsMarked marked c)
    (known : marked.Known) (client : marked.commit = .client) (settable : withoutSetState c = false)
    (swap : c.swapScheduled = true) (device : c.device = some table)
    (open_ : ¬ Exonerates table marked.toTarget) : Reverts marked result := by
  have still {at_ : Context} (moves : Moves plan c at_) : at_.device = some table := by
    rw [moves.frame]
    exact device
  cases outcome with
  | stopped moves error => exact .failed marked error (moves.swap swap)
  | refused moves => exact ⟨fun _ => moves.swap swap, by simp [isTerminal], by simp [isTerminal]⟩
  | upload moves | mark moves | next moves | reset moves => exact .live (moves.swap swap) (still moves :) open_ rfl
  | uploaded => exact ⟨by simp, by simp [isTerminal], by simp [isTerminal]⟩
  | judged moves outcome =>
    have held := HoldsMarked.evolves (moves.targets.imp fun _ _ => Resolves.evolves) known member
    refine outcome.reverts held client ?_ (moves.swap swap) (still moves) open_
    rw [withoutSetState, moves.mode]
    exact settable

def isMarkAnswer (event : Event) : Prop :=
  event.kind = .markedForTest ∨ event.kind = .cancel ∨
    (event.kind = .failed ∧ (event.error.code = .timeout ∨ event.error.code = .disconnected))

/-- The steps that can end an update without a word about the swap it leaves scheduled. -/
def SilentStop (m : Machine) (event : Event) : Prop :=
  (m.state = .markingForTest ∧ m.context.swapScheduled = false ∧
    (event.kind = .cancel ∨ (event.kind = .markedForTest ∧ event.state = none) ∨
      (event.kind = .failed ∧ (event.error.code = .timeout ∨ event.error.code = .disconnected)))) ∨
  (m.state = .verifyingConfirmed ∧ event.kind ≠ .tick ∧ event.kind ≠ .failed ∧
    (event.kind = .stateRead → event.state = none))

instance (event : Event) : Decidable (isMarkAnswer event) := inferInstanceAs (Decidable (_ ∨ _))

instance (m : Machine) (event : Event) : Decidable (SilentStop m event) :=
  inferInstanceAs (Decidable ((_ ∧ _ ∧ _) ∨ (_ ∧ _ ∧ _)))

structure Owing (marked : Image) (m : Machine) (event : Event) : Prop where
  held : HoldsMarked marked m.context
  late : isEarly m.state = false
  settable : withoutSetState m.context = false
  swap : m.context.swapScheduled = true ∨ m.state = .verifyingConfirmed ∨
    (m.state = .markingForTest ∧ m.context.current < m.context.targets.length ∧ isMarkAnswer event)
  device : m.state = .inspectingImages ∨ m.state = .markingForTest ∨
    ∃ table, m.context.device = some table ∧ ¬ Exonerates table marked.toTarget

theorem HoldsMarked.some (held : HoldsMarked marked c) : c.targets ≠ [] := by
  obtain ⟨target, found, _⟩ := held
  exact List.ne_nil_of_mem found

theorem Owing.scheduled (owing : Owing marked m event)
    (loud : ¬ SilentStop m event) (unruled : Consistent m → Unruled m event) : m.context.swapScheduled = true := by
  rcases owing.swap with swap | here | ⟨here, inside, answer⟩
  · exact swap
  · have unread := unruled ⟨owing.held.some, fun needs => by simp [here, needsCurrent] at needs⟩
    obtain ⟨failed, read⟩ := unread.confirmed here
    exact absurd (.inr ⟨here, unread.tick, failed, read⟩) loud
  · have unread := unruled ⟨owing.held.some, fun _ => inside⟩
    by_contra quiet
    refine loud (.inl ⟨here, by simpa using quiet, ?_⟩)
    rcases answer with accepted | cancel | lost
    · exact .inr (.inl ⟨accepted, unread.marking here accepted⟩)
    · exact .inl cancel
    · exact .inr (.inr lost)

def isUnsure (state : UpdateState) : Bool :=
  state == .verifyingConfirmed || state == .markingForTest || state == .inspectingImages

section
variable (owing : Owing marked m event) (here : isUnsure m.state = false)
include owing here

theorem Owing.sure : m.context.swapScheduled = true ∧
      ∃ table, m.context.device = some table ∧ ¬ Exonerates table marked.toTarget := by
  simp only [isUnsure, Bool.or_eq_false_iff, beq_eq_false_iff_ne] at here
  obtain ⟨⟨confirmed, marking⟩, inspecting⟩ := here
  exact ⟨by simpa [confirmed, marking] using owing.swap, by simpa [inspecting, marking] using owing.device⟩

theorem Owing.carry {step : Step} {after : Context} (swap : after.swapScheduled = m.context.swapScheduled)
    (device : after.device = m.context.device) (next : isTerminal step.next = false) :
    Reverts marked (step, after) := by
  obtain ⟨scheduled, table, shown, open_⟩ := owing.sure here
  exact .live (swap.trans scheduled) (device.trans shown) open_ next

end

theorem Owing.idle (owing : Owing marked m event) (live : isTerminal m.state = false)
    (tick : event.kind = .tick) : Reverts marked ({ next := m.state, effect := .none }, m.context) := by
  refine ⟨fun halted => ?_, fun _ => ?_, fun _ => owing.device⟩
  · change m.state = .failed ∨ m.state = .cancelled at halted
    rcases halted with halted | halted <;> simp [halted, isTerminal] at live
  rcases owing.swap with swap | here | ⟨_, _, answer⟩
  · exact .inl swap
  · exact .inr ⟨here, rfl⟩
  · simp [isMarkAnswer, tick] at answer

theorem allConfirmed_exonerates (every : allConfirmed c = true) (device : c.device = some table)
    (held : HoldsMarked marked c) (client : marked.commit = .client) : Exonerates table marked.toTarget := by
  obtain ⟨target, found, copied⟩ := held
  have same : target.untried.toTarget = marked.untried.toTarget := by rw [copied]
  change target.toTarget = marked.toTarget at same
  have confirmed := List.all_eq_true.mp every target found
  have client' : target.commit = .client := by rw [same]; exact client
  simp only [client', bne_self_eq_false, Bool.false_or, Bool.and_eq_true] at confirmed
  exact .inl (same ▸ (runningConfirmed_iff_committedOn device target.toTarget).mp confirmed)

theorem Row.reverts (row : Row m event result) (owing : Owing marked m event)
    (live : isTerminal m.state = false) (known : marked.Known) (client : marked.commit = .client)
    (loud : ¬ SilentStop m event) (fresh : ∀ table ∈ received event, ¬ Exonerates table marked.toTarget) :
    Reverts marked result := by
  have shown {table : ImageState} (carried : carriesTable event.kind = true) (read : event.state = some table) :
      ¬ Exonerates table marked.toTarget := fresh table (mem_received carried read)
  have early (state : UpdateState) (here : m.state = state) (early : isEarly state = true) : False := by
    have late := owing.late
    rw [here, early] at late
    exact absurd late (by simp)
  have waits (here : isWait m.state) : isUnsure m.state = false := by
    rcases here with here | here <;> rw [here] <;> rfl
  have round (here : isConfirmRound m.state) :
      ∃ table, m.context.device = some table ∧ ¬ Exonerates table marked.toTarget := by
    rcases here with here | here <;> simpa [here] using owing.device
  cases row with
  | settled halted => exact absurd (halted.symm.trans live) (by simp)
  | stopped _ error unruled => exact .failed marked error (owing.scheduled loud unruled)
  | cancelled _ asked =>
    have swap := owing.scheduled loud fun _ =>
      ⟨by simp [asked], by simp [asked], fun _ => ⟨by simp [asked], by simp [asked]⟩⟩
    exact ⟨fun _ => swap, by simp [isTerminal], by simp [isTerminal]⟩
  | idle _ tick => exact owing.idle live tick
  | polled here | waitRepeated here => exact owing.carry (waits here) rfl rfl live
  | timedOut here _ error => exact .failed marked error (owing.sure (waits here)).1
  | started here | parameters here | bootloader here => exact (early _ here rfl).elim
  | inspected here kind read =>
    have swap : m.context.swapScheduled = true := by simpa [here] using owing.swap
    exact .live swap read (shown (by rw [kind]; rfl) read) rfl
  | planned here _ outcome | uploadedOnly here _ outcome =>
    obtain ⟨swap, table, device, open_⟩ := owing.sure (by rw [here]; rfl)
    exact outcome.planned.reverts owing.held known client owing.settable swap device open_
  | uploaded here | suspended here | forced here | rebooting here | dropped here | resumed here | reconnected here
  | approved here => exact owing.carry (by rw [here]; rfl) rfl rfl rfl
  | missing here _ _ error => exact .failed marked error (owing.sure (by rw [here]; rfl)).1
  | unmarked _ _ _ unsettable => exact absurd (unsettable.symm.trans owing.settable) (by simp)
  | toMark here kind read => exact .live (owing.sure (by rw [here]; rfl)).1 read (shown (by rw [kind]; rfl) read) rfl
  | marked _ kind read outcome =>
    exact outcome.planned.reverts owing.held known client owing.settable rfl read (shown (by rw [kind]; rfl) read)
  | remark here kind =>
    have swap := owing.scheduled loud fun _ =>
      ⟨by simp [kind], by simp [kind], fun confirmed => by simp [here] at confirmed⟩
    exact ⟨by simp, fun _ => .inl swap, fun _ => .inl rfl⟩
  | booted here kind read outcome =>
    exact outcome.reverts owing.held client owing.settable (owing.sure (by rw [here]; rfl)).1 read
      (shown (by rw [kind]; rfl) read)
  | applyRead here kind read outcome | commitRead here kind read outcome =>
    exact outcome.reverts (owing.sure (by rw [here]; rfl)).1 read (shown (by rw [kind]; rfl) read)
  | waitDropped here => exact owing.carry (waits here) rfl rfl rfl
  | confirmedNext here kind read =>
    exact .live (owing.sure (by rw [here]; rfl)).1 read (shown (by rw [kind]; rfl) read) rfl
  | confirmedLast _ kind read =>
    exact ⟨by simp, fun _ => .inr ⟨rfl, rfl⟩, fun _ => .inr (.inr ⟨_, read, shown (by rw [kind]; rfl) read⟩)⟩
  | confirmDropped here | confirmReread here =>
    obtain ⟨table, device, open_⟩ := round here
    exact .live rfl device open_ rfl
  | confirmRefused _ _ error | unconfirmed _ _ _ error => exact .failed marked error rfl
  | confirmVerified _ kind read every =>
    exact absurd (allConfirmed_exonerates every read owing.held client) (shown (by rw [kind]; rfl) read)

theorem decided_reverts (owing : Owing marked m event)
    (live : isTerminal m.state = false) (known : marked.Known) (client : marked.commit = .client)
    (loud : ¬ SilentStop m event) (fresh : ∀ table ∈ received event, ¬ Exonerates table marked.toTarget) :
    Reverts marked (m.decided event) := by
  have decided := decided_outcome m event
  generalize m.decided event = result at decided
  cases decided with
  | row _ row => exact row.reverts owing live known client loud fresh
  | unnamed result row named error =>
    refine .failed marked error ?_
    have open_ : isTerminal result.1.next = false := by
      rcases row.ends with ⟨halted, _⟩ | ⟨_, ends⟩
      · exact absurd (live.symm.trans halted) (by simp)
      by_contra halted
      have finish := ends.mpr (by simpa using halted)
      simp [finish, namesCurrent] at named
    rcases (row.reverts owing live known client loud fresh).owed open_ with swap | ⟨_, unnamed⟩
    · exact swap
    · exact absurd (named.symm.trans unnamed) (by simp)

structure Standing (marked : Image) (m : Machine) : Prop where
  held : HoldsMarked marked m.context
  late : isEarly m.state = false
  settable : withoutSetState m.context = false

theorem Standing.apply (standing : Standing marked m) (known : marked.Known) (event : Event) :
    Standing marked (m.apply event).2 := by
  obtain ⟨late, mode⟩ := apply_mode m event standing.late
  refine ⟨HoldsMarked.evolves (apply_evolves m event) known standing.held, late, ?_⟩
  rw [withoutSetState, mode]
  exact standing.settable

structure Answered (marked : Image) (m : Machine) : Prop where
  ended : m.state = .failed ∨ m.state = .cancelled → m.context.report.revertPending = true
  owed : isTerminal m.state = false → m.context.swapScheduled = true ∨ m.state = .verifyingConfirmed
  device : isTerminal m.state = false → m.state = .inspectingImages ∨ m.state = .markingForTest ∨
    ∃ table, m.context.device = some table ∧ ¬ Exonerates table marked.toTarget

theorem answered_of_reverts (reverts : Reverts marked (m.decided event)) : Answered marked (m.apply event).2 := by
  refine ⟨by simpa using reverts.ended, fun live => ?_, by simpa using reverts.device⟩
  rw [apply_state] at live ⊢
  rw [apply_swapScheduled]
  exact (reverts.owed live).imp_right And.left

theorem Answered.apply (answered : Answered marked m)
    (standing : Standing marked m) (known : marked.Known) (client : marked.commit = .client)
    (loud : ¬ SilentStop m event) (fresh : ∀ table ∈ received event, ¬ Exonerates table marked.toTarget) :
    Answered marked (m.apply event).2 := by
  rcases decided_ends m event with ⟨halted, same⟩ | ⟨live, _⟩
  · refine ⟨?_, fun live => ?_, fun live => ?_⟩
    · simpa [same] using answered.ended
    · simp [same, halted] at live
    · simp [same, halted] at live
  · have owing : Owing marked m event :=
      ⟨standing.held, standing.late, standing.settable, (answered.owed live).imp_right .inl, answered.device live⟩
    exact answered_of_reverts (decided_reverts owing live known client loud fresh)

end

def UploadKnown (state : UpdateState) (c : Context) : Prop :=
  state = .uploading ∨ state = .verifyingUpload ∨ (state = .awaitingReconnect ∧ c.uploadInProgress = true) →
    CurrentKnown c

theorem Judged.uploadKnown (judged : Judged c result) : UploadKnown result.1.next result.2 := by
  intro here
  rcases judged.next with next | next | next | next | next | next <;> simp [next] at here

theorem Planned.uploadKnown (outcome : Planned plan c result) : UploadKnown result.1.next result.2 := by
  cases outcome with
  | upload _ _ known => exact fun _ => known
  | judged _ outcome => exact outcome.judged.uploadKnown
  | _ => simp [UploadKnown, fail]

theorem Row.uploadKnown {tables : List ImageState}
    (row : Row m event result) (applied : Applied tables m.state m.context)
    (before : UploadKnown m.state m.context) : UploadKnown result.1.next result.2 := by
  have reconnects {after : Context} (free : after.uploadInProgress = false) :
      UploadKnown .awaitingReconnect after := by
    simp [UploadKnown, free]
  cases row with
  | settled | idle | polled | waitRepeated => exact before
  | planned _ _ outcome | uploadedOnly _ _ outcome | marked _ _ _ outcome | unmarked _ _ _ _ outcome =>
    exact outcome.planned.uploadKnown
  | uploaded here | suspended here => exact fun _ => before (.inl here)
  | resumed here busy => exact fun _ => before (.inr (.inr ⟨here, busy⟩))
  | booted _ _ _ outcome | applyRead _ _ _ outcome | commitRead _ _ _ outcome | confirmVerified _ _ _ _ outcome =>
    exact outcome.judged.uploadKnown
  | dropped here => exact reconnects (applied.free (by rw [here]; rfl))
  | waitDropped here | confirmDropped here =>
    exact reconnects (applied.free (by rcases here with here | here <;> rw [here] <;> rfl))
  | _ => simp [UploadKnown, fail]

theorem run_uploadKnown (targets : List Target) (plan : UpdatePlan) (events : List Event) :
    UploadKnown (runMachine targets plan events).state (runMachine targets plan events).context := by
  apply history_invariant_with apply (new targets plan)
    (fun past m => Applied (tablesSinceReset past) m.state m.context)
    (fun _ m => UploadKnown m.state m.context) (run_applied targets plan)
  · simp [UploadKnown, new]
  intro past m event applied before
  have after : UploadKnown (m.decided event).1.next (m.decided event).2 :=
    decided_cases m event (·.uploadKnown applied before) (by simp [UploadKnown, fail])
  simpa [UploadKnown, CurrentKnown] using after

structure Marks (result : Step × Context) : Prop where
  next : result.1.next = .markingForTest
  known : CurrentKnown result.2
  settable : withoutSetState result.2 = false

theorem Judged.not_marks (judged : Judged c result) : result.1.effect ≠ .markForTest := by
  rcases judged.effect with other | other | ⟨_, other | other⟩ <;> simp [other]

theorem Planned.marks (outcome : Planned plan c result) (effect : result.1.effect = .markForTest) : Marks result := by
  cases outcome with
  | mark _ _ known settable => exact ⟨rfl, known, settable⟩
  | judged _ outcome => exact absurd effect outcome.judged.not_marks
  | _ => simp [fail] at effect

theorem Row.marks (row : Row m event result)
    (uploaded : UploadKnown m.state m.context) (effect : result.1.effect = .markForTest) : Marks result := by
  cases row with
  | planned _ _ outcome | uploadedOnly _ _ outcome | marked _ _ _ outcome | unmarked _ _ _ _ outcome =>
    exact outcome.planned.marks effect
  | toMark here _ _ settable => exact ⟨rfl, uploaded (.inr (.inl here)), settable⟩
  | booted _ _ _ outcome | applyRead _ _ _ outcome | commitRead _ _ _ outcome | confirmVerified _ _ _ _ outcome =>
    exact absurd effect outcome.judged.not_marks
  | _ => simp [fail] at effect

/-- The mark's answer: the first event after it that is more than time passing. -/
def markAnswer (steps : List MachineStep) : Option Event :=
  (steps.map (·.event)).find? fun event => event.kind != .tick

structure Pending (m : Machine) : Prop where
  here : m.state = .markingForTest
  inside : m.context.current < m.context.targets.length

theorem decided_tick_marking (pending : Pending m)
    (tick : event.kind = .tick) : m.decided event = ({ next := .markingForTest, effect := .none }, m.context) := by
  have some_ : m.context.targets ≠ [] := List.ne_nil_of_length_pos (Nat.zero_lt_of_lt pending.inside)
  simp [decided, guardedDecide, pending.here, pending.inside, tick, some_, isTerminal, carriesTable,
    Context.decide, Context.tick, namesCurrent]

section
variable {marked : Image}

theorem Pending.tick (pending : Pending m) (tick : event.kind = .tick) : Pending (m.apply event).2 := by
  have same := decided_tick_marking pending tick
  exact ⟨by simp [same], by simpa [same] using pending.inside⟩

theorem Pending.answer (pending : Pending m) (standing : Standing marked m)
    (known : marked.Known) (client : marked.commit = .client) (answer : isMarkAnswer event)
    (loud : ¬ SilentStop m event) (fresh : ∀ table ∈ received event, ¬ Exonerates table marked.toTarget) :
    Answered marked (m.apply event).2 := by
  have owing : Owing marked m event :=
    ⟨standing.held, standing.late, standing.settable, .inr (.inr ⟨pending.here, pending.inside, answer⟩),
      .inr (.inl pending.here)⟩
  exact answered_of_reverts (decided_reverts owing (by rw [pending.here]; rfl) known client loud fresh)

def Quiet (marked : Image) (t : MachineStep) : Prop :=
  ¬ SilentStop t.before t.event ∧ ∀ table ∈ received t.event, ¬ Exonerates table marked.toTarget

theorem run_after_mark (start : Machine) (pending : Pending start) (standing : Standing marked start)
    (known : marked.Known) (client : marked.commit = .client) (events : List Event)
    (quiet : ∀ t ∈ Systems.log Machine.apply start events, Quiet marked t) {answer : Event}
    (found : markAnswer (Systems.log Machine.apply start events) = some answer) (unknown : isMarkAnswer answer) :
    Answered marked (Systems.run Machine.apply start events) := by
  have each := history_invariant apply start (fun past m => (∀ t ∈ past, Quiet marked t) → Standing marked m ∧
      (markAnswer past = none → Pending m) ∧
      ∀ answer, markAnswer past = some answer → isMarkAnswer answer → Answered marked m)
    (fun _ => ⟨standing, fun _ => pending, by simp [markAnswer]⟩)
    (by
      intro past m event before quiet
      obtain ⟨standing, waiting, answered⟩ := before fun t member => quiet t (List.mem_append_left _ member)
      obtain ⟨loud, fresh⟩ := quiet (transition apply m event) (by simp)
      have found : markAnswer (past ++ [transition apply m event]) =
          (markAnswer past).or (if event.kind = .tick then none else some event) := by
        by_cases tick : event.kind = .tick <;>
          simp [markAnswer, List.find?_append, transition, tick]
      rw [found]
      refine ⟨standing.apply known event, fun none => ?_, fun answer here unknown => ?_⟩
      · rw [Option.or_eq_none_iff] at none
        refine (waiting none.1).tick ?_
        by_contra other
        simp [other] at none
      · cases earlier : markAnswer past with
        | none =>
          rw [earlier, Option.none_or] at here
          split at here
          · exact absurd here (by simp)
          · obtain rfl := Option.some.inj here
            exact (waiting earlier).answer standing known client unknown loud fresh
        | some first =>
          rw [earlier, Option.some_or] at here
          obtain rfl := Option.some.inj here
          exact (answered first earlier unknown).apply standing known client loud fresh)
    events
  exact (each quiet).2.2 answer found unknown

end

def ConfirmsAssumed (state : UpdateState) (c : Context) : Prop :=
  state = .verifyingConfirmed → c.swapScheduled = false

theorem Row.confirmsAssumed (row : Row m event result)
    (before : ConfirmsAssumed m.state m.context) : ConfirmsAssumed result.1.next result.2 := by
  have judged {c : Context} (judged : Judged c result) : ConfirmsAssumed result.1.next result.2 := by
    intro here
    rcases judged.next with next | next | next | next | next | next <;> simp [next] at here
  have planned {c : Context} (outcome : Planned m.plan c result) : ConfirmsAssumed result.1.next result.2 := by
    cases outcome with
    | judged _ outcome => exact judged outcome.judged
    | _ => simp [ConfirmsAssumed, fail]
  cases row with
  | settled | idle | polled | waitRepeated => exact before
  | planned _ _ outcome | uploadedOnly _ _ outcome | marked _ _ _ outcome | unmarked _ _ _ _ outcome =>
    exact planned outcome.planned
  | booted _ _ _ outcome | applyRead _ _ _ outcome | commitRead _ _ _ outcome | confirmVerified _ _ _ _ outcome =>
    exact judged outcome.judged
  | confirmedLast => exact fun _ => rfl
  | _ => simp [ConfirmsAssumed, fail]

theorem apply_confirmsAssumed (m : Machine) (event : Event) (before : ConfirmsAssumed m.state m.context) :
    ConfirmsAssumed (m.apply event).2.state (m.apply event).2.context := by
  have after : ConfirmsAssumed (m.decided event).1.next (m.decided event).2 :=
    decided_cases m event (·.confirmsAssumed before) (by simp [ConfirmsAssumed, fail])
  simpa [ConfirmsAssumed] using after

theorem SilentStop.unscheduled (silent : SilentStop m event)
    (assumed : ConfirmsAssumed m.state m.context) : m.context.swapScheduled = false := by
  rcases silent with ⟨_, swap, _⟩ | ⟨here, _⟩
  · exact swap
  · exact assumed here

theorem Row.silent (row : Row m event result)
    (assumed : ConfirmsAssumed m.state m.context) (silent : SilentStop m event) :
    namesCurrent result.1.effect = false ∧
      (result.1.effect = .finish → result.2.report.revertPending = false) := by
  have elsewhere (state : UpdateState) (here : m.state = state)
      (other : state ≠ .markingForTest ∧ state ≠ .verifyingConfirmed) : False := by
    rcases silent with ⟨at_, _⟩ | ⟨at_, _⟩
    · exact other.1 (here.symm.trans at_)
    · exact other.2 (here.symm.trans at_)
  cases row with
  | stopped | cancelled => exact ⟨rfl, fun _ => silent.unscheduled assumed⟩
  | timedOut here => rcases here with here | here <;> exact (elsewhere _ here (by simp)).elim
  | planned here | uploadedOnly here | missing here | unmarked here | toMark here | booted here | applyRead here
  | commitRead here | approved here | confirmedNext here => exact (elsewhere _ here (by simp)).elim
  | marked here kind read | confirmVerified here kind read | unconfirmed here kind read =>
    simp [SilentStop, here, kind, read] at silent
  | confirmRefused here kind => rcases here with here | here <;> simp [SilentStop, here, kind] at silent
  | _ => exact ⟨rfl, by simp⟩

theorem decided_silent (assumed : ConfirmsAssumed m.state m.context)
    (silent : SilentStop m event) (finish : (m.decided event).1.effect = .finish) :
    (m.decided event).2.report.revertPending = false := by
  revert finish
  exact decided_cases m event (fun row => (row.silent assumed silent).2) fun row named =>
    absurd (named.symm.trans (row.silent assumed silent).1) (by simp)

theorem run_silent (targets : List Target) (plan : UpdatePlan) (events : List Event) :
    ∀ t ∈ machineLog targets plan events, t.output.effect = .finish → SilentStop t.before t.event →
      (runMachine targets plan events).report.revertPending = false := by
  have each := history_invariant apply (new targets plan) (fun past m => ConfirmsAssumed m.state m.context ∧
      ∀ t ∈ past, t.output.effect = .finish → SilentStop t.before t.event →
        isTerminal m.state = true ∧ m.context.report.revertPending = false)
    ⟨by simp [ConfirmsAssumed, new], by simp⟩
    (by
      rintro past m event ⟨assumed, before⟩
      refine ⟨apply_confirmsAssumed m event assumed, fun t member finish silent => ?_⟩
      rw [apply_state, apply_revertPending]
      rcases List.mem_append.mp member with member | member
      · obtain ⟨halted, reported⟩ := before t member finish silent
        rcases decided_ends m event with ⟨_, same⟩ | ⟨live, _⟩
        · rw [same]
          exact ⟨halted, reported⟩
        · exact absurd (live.symm.trans halted) (by simp)
      · rw [List.mem_singleton.mp member] at finish silent
        rw [transition, apply_effect] at finish
        refine ⟨?_, decided_silent assumed silent finish⟩
        rcases decided_ends m event with ⟨_, same⟩ | ⟨_, ends⟩
        · simp [same] at finish
        · exact ends.mp finish)
    events
  exact fun t member finish silent => (each.2 t member finish silent).2

theorem apply_marks (targets : List Target) (plan : UpdatePlan) (events : List Event) (event : Event)
    (effect : ((runMachine targets plan events).apply event).1.effect = .markForTest) {marked : Image}
    (here : ((runMachine targets plan events).apply event).2.context.targets[
      ((runMachine targets plan events).apply event).2.context.current]? = some marked) :
    marked.Known ∧ Pending ((runMachine targets plan events).apply event).2 ∧
      Standing marked ((runMachine targets plan events).apply event).2 := by
  have uploaded := run_uploadKnown targets plan events
  generalize runMachine targets plan events = m at effect here uploaded
  rw [apply_effect] at effect
  rw [apply_targets, apply_current] at here
  have decided := decided_outcome m event
  have marks : Marks (m.decided event) ∧ (m.decided event).2.current < (m.decided event).2.targets.length := by
    generalize m.decided event = result at decided effect
    cases decided with
    | row _ row named => exact ⟨row.marks uploaded effect, named (by rw [effect]; rfl)⟩
    | unnamed => simp [fail] at effect
  have state : (m.apply event).2.state = .markingForTest := (apply_state m event).trans marks.1.next
  refine ⟨marks.1.known marked here, ⟨state, by simpa using marks.2⟩, ⟨?_, by rw [state]; rfl, ?_⟩⟩
  · refine ⟨marked, ?_, rfl⟩
    rw [apply_targets]
    exact List.mem_of_getElem? here
  · rw [withoutSetState, apply_bootloaderMode]
    exact marks.1.settable

/-- After a mark that may have been accepted, with no table since that clears it, an update reports the revert unless it
ends in silence. -/
theorem mark_reported_unless_silent (targets : List Target) (plan : UpdatePlan) (events : List Event)
    {past later : List MachineStep} {mark : MachineStep} {marked : Image} {answer : Event}
    (split : machineLog targets plan events = past ++ mark :: later) (effect : mark.output.effect = .markForTest)
    (here : mark.after.context.targets[mark.after.context.current]? = some marked) (client : marked.commit = .client)
    (found : markAnswer later = some answer) (outcome : isMarkAnswer answer)
    (open_ : ∀ t ∈ later, ∀ table ∈ received t.event, ¬ Exonerates table marked.toTarget)
    (ended : (runMachine targets plan events).state = .failed ∨ (runMachine targets plan events).state = .cancelled) :
    ((∀ t ∈ later, ¬ SilentStop t.before t.event) →
      (runMachine targets plan events).report.revertPending = true) ∧
    ∀ t ∈ later, t.output.effect = .finish → SilentStop t.before t.event →
      (runMachine targets plan events).report.revertPending = false := by
  constructor
  · intro loud
    obtain ⟨earlier, event, rest, same, _, rfl, rfl⟩ := log_split apply (new targets plan) events split
    obtain ⟨known, pending, standing⟩ := apply_marks targets plan earlier event effect here
    have answered := run_after_mark _ pending standing known client rest
      (fun t member => ⟨loud t member, open_ t member⟩) found outcome
    have whole : runMachine targets plan events =
        run apply ((runMachine targets plan earlier).apply event).2 rest := by
      rw [same, runMachine, run_append]
      rfl
    rw [whole] at ended ⊢
    exact answered.ended ended
  · intro t member finish silent
    exact run_silent targets plan events t (split ▸ by simp [member]) finish silent

def singleClient : List Target := [{ image := 0, hash := shortHash 1 }]

def lostAnswer : Event := { kind := .failed, error := { code := .timeout } }

def lostMark : List Event :=
  opening [active 0 9 true, waiting 0 1 false] ++ [{ kind := .continue }, lostAnswer]

theorem lost_mark_unreported : ∃ past mark later marked, machineLog singleClient {} lostMark = past ++ mark :: later ∧
      mark.output.effect = .markForTest ∧
      mark.after.context.targets[mark.after.context.current]? = some marked ∧ marked.commit = .client ∧
      markAnswer later = some lostAnswer ∧ isMarkAnswer lostAnswer ∧
      (∀ t ∈ later, received t.event = []) ∧
      (runMachine singleClient {} lostMark).state = .failed ∧
      (runMachine singleClient {} lostMark).report.revertPending = false :=
  ⟨[_, _, _, _], _, [_], _, rfl, by decide, rfl, by decide, by decide, by decide, by decide,
    by decide, by decide⟩

def cancelledReset : List Event :=
  opening [active 0 9 true, waiting 0 1 false] ++
    [{ kind := .continue },
      { kind := .markedForTest, state := some { slots := [active 0 9 true, waiting 0 1 true] } }, { kind := .cancel }]

theorem mark_reported_unless_silent_cancelled : (runMachine singleClient {} cancelledReset).state = .cancelled ∧
      (runMachine singleClient {} cancelledReset).report.revertPending = true := by
  have split : machineLog singleClient {} cancelledReset = [_, _, _, _] ++ _ :: [_, _] := rfl
  have reported := mark_reported_unless_silent singleClient {} cancelledReset split (by decide) rfl (by decide) rfl
    (by decide) (by decide) (by decide)
  exact ⟨by decide, reported.1 (by decide)⟩

end Smply.Dfu
