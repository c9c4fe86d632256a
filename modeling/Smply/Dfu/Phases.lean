import Smply.Dfu.Staging

namespace Smply.Dfu

open Boot BootModel

section
variable {m : Machine} {event : Event} {target : Image}

theorem apply_hash (names : (m.decided event).1.effect = .markForTest ∨ (m.decided event).1.effect = .confirm)
    (here : (m.decided event).2.targets[(m.decided event).2.current]? = some target) :
    (m.apply event).1.hash = target.hash := by
  unfold Machine.apply Context.parameterise Step.parameterise
  dsimp only
  rcases names with effect | effect <;> simp only [effect, Context.summarise, here]

theorem apply_upload (starts : (m.decided event).1.effect = .startUpload)
    (here : (m.decided event).2.targets[(m.decided event).2.current]? = some target) :
    (m.apply event).1.target = (m.decided event).2.current ∧ (m.apply event).1.image = target.image := by
  unfold Machine.apply Context.parameterise Step.parameterise
  dsimp only
  simp only [starts, Context.summarise, here, and_self]

end

structure Scenario.Stands (s : Scenario) (w : World) (status : Nat → Status) (content : Nat → Bytes) : Prop where
  plan : w.machine.plan = s.plan
  sane : Sane w.machine
  device : w.device = s.device.after status content
  tracks : s.Tracks status content

structure World.On (w : World) (state : UpdateState) (effect : Effect) : Prop where
  state : w.machine.state = state
  effect : w.last.effect = effect

structure Scenario.Applied (s : Scenario) (status : Nat → Status) : Prop where
  quiet : status 0 ≠ .trial
  calm : ∀ update ∈ s.updates, verdictOf (status update.place) ≠ .applying

structure Scenario.Tries (s : Scenario) (status : Nat → Status) (c : Context) : Prop where
  notes : s.Notes status c
  trial : status 0 = .trial
  calm : ∀ update ∈ s.updates, verdictOf (status update.place) ≠ .applying
  first : ∃ update ∈ s.updates, update.place = 0 ∧ (c.targets[c.current]?).map (·.toTarget) = some update.target

def Scenario.Applying (s : Scenario) (status : Nat → Status) : Prop :=
  ∃ update ∈ s.updates, verdictOf (status update.place) = .applying

def Scenario.Committing (s : Scenario) (status : Nat → Status) : Prop :=
  ∃ update ∈ s.updates, update.target.commit = .device ∧ verdictOf (status update.place) = .onTrial

inductive Scenario.At (s : Scenario) (w : World) (status : Nat → Status) (content : Nat → Bytes) : Nat → Prop where
  | parameters (plans : s.Plans status 0 w.machine.context) (waits : ∀ update ∈ s.updates, status update.place = .waiting)
      (on : w.On .queryingParameters .queryParameters) :
      s.At w status content (5 * s.updates.length + 2 * s.total status + 30)
  | bootloader (plans : s.Plans status 0 w.machine.context) (waits : ∀ update ∈ s.updates, status update.place = .waiting)
      (on : w.On .queryingBootloader .queryBootloader) :
      s.At w status content (5 * s.updates.length + 2 * s.total status + 29)
  | inspecting (plans : s.Plans status 0 w.machine.context) (waits : ∀ update ∈ s.updates, status update.place = .waiting)
      (on : w.On .inspectingImages .readState) :
      s.At w status content (5 * s.updates.length + 2 * s.total status + 28)
  | planning {place : Nat} (plans : s.Plans status place w.machine.context) (inside : place < s.updates.length)
      (waits : ∀ update, s.updates[place]? = some update → status update.place = .waiting)
      (told : s.Told status content w.machine.context) (on : w.On .planning .continue) :
      s.At w status content (5 * (s.updates.length - place) + 2 * s.total status + 27)
  | uploading {place : Nat} {update : Update} (plans : s.Plans status place w.machine.context)
      (found : s.updates[place]? = some update) (waits : status update.place = .waiting)
      (stopped : carries (s.origin update).primary update.target.hash = false) (on : w.On .uploading .startUpload)
      (target : w.last.target = place) (image : w.last.image = update.target.image) :
      s.At w status content (5 * (s.updates.length - place) + 2 * s.total status + 26)
  | verifyingUpload {place : Nat} {update : Update} (plans : s.Plans status place w.machine.context)
      (found : s.updates[place]? = some update) (loaded : status update.place = .loaded)
      (on : w.On .verifyingUpload .readState) :
      s.At w status content (5 * (s.updates.length - place) + 2 * s.total status + 25)
  | marking {place : Nat} {update : Update} (plans : s.Plans status place w.machine.context)
      (found : s.updates[place]? = some update) (loaded : status update.place = .loaded)
      (on : w.On .markingForTest .markForTest) (hash : w.last.hash = update.target.hash) :
      s.At w status content (5 * (s.updates.length - place) + 2 * s.total status + 24)
  | resetting (fixed : s.Fixed w.machine.context) (ready : s.Ready status) (on : w.On .resetting .reset) :
      s.At w status content (2 * s.total status + 23)
  | disconnecting (fixed : s.Fixed w.machine.context) (live : s.Live status) (on : w.On .awaitingDisconnect .awaitDisconnect)
      (grace : w.machine.context.graceDeadline ≠ none) : s.At w status content (2 * s.total status + 22)
  | reconnecting (fixed : s.Fixed w.machine.context) (live : s.Live status)
      (idle : w.machine.context.uploadInProgress = false) (on : w.On .awaitingReconnect .requestReconnect) :
      s.At w status content (2 * s.total status + 21)
  | booting (fixed : s.Fixed w.machine.context) (live : s.Live status) (on : w.On .verifyingBooted .readState) :
      s.At w status content (2 * s.total status + 20)
  | applying (notes : s.Notes status w.machine.context) (live : s.Live status) (busy : s.Applying status)
      (on : w.On .awaitingDeviceApply .awaitApply) (grace : w.machine.context.graceDeadline = none) :
      s.At w status content (2 * s.total status + 11)
  | applyingRead (notes : s.Notes status w.machine.context) (live : s.Live status) (busy : s.Applying status)
      (on : w.On .awaitingDeviceApply .readState) : s.At w status content (2 * s.total status + 10)
  | window (tries : s.Tries status w.machine.context) (live : s.Live status)
      (on : w.On .awaitingConfirmation .requestConfirmation) : s.At w status content (2 * s.total status + 8)
  | confirming (tries : s.Tries status w.machine.context) (live : s.Live status) (on : w.On .confirming .confirm)
      (hash : ∃ update ∈ s.updates, update.place = 0 ∧ w.last.hash = update.target.hash) :
      s.At w status content (2 * s.total status + 7)
  | verifyingConfirmed (fixed : s.Fixed w.machine.context) (live : s.Live status) (applied : s.Applied status)
      (on : w.On .verifyingConfirmed .readState) : s.At w status content (2 * s.total status + 6)
  | committing (fixed : s.Fixed w.machine.context) (live : s.Live status) (applied : s.Applied status)
      (busy : s.Committing status) (on : w.On .awaitingDeviceCommit .awaitApply)
      (grace : w.machine.context.graceDeadline = none) : s.At w status content (2 * s.total status + 3)
  | committingRead (fixed : s.Fixed w.machine.context) (live : s.Live status) (applied : s.Applied status)
      (busy : s.Committing status) (on : w.On .awaitingDeviceCommit .readState) :
      s.At w status content (2 * s.total status + 2)
  | completed (live : s.Live status) (applied : s.Applied status)
      (done : ∀ update ∈ s.updates, update.target.commit = .device → verdictOf (status update.place) = .committed)
      (on : w.On .completed .finish) : s.At w status content (2 * s.total status)

def Scenario.Within (s : Scenario) (budget : Nat) (w : World) : Prop :=
  ∃ status content, s.Stands w status content ∧ s.At w status content budget

section
variable {s : Scenario} {w : World} {event : Event} {device : BootModel} {status : Nat → Status} {content : Nat → Bytes}
  {result : Step × Context}

theorem Scenario.turn_eq {choice : Choice} (answer : s.answer w choice = some (event, device)) :
    s.turn w choice = w.feed { event with now := choice.now } device := by
  unfold Scenario.turn
  rw [answer]

theorem Scenario.Stands.decided (stands : s.Stands w status content)
    (complete : carriesTable event.kind = true → event.state.isSome = true)
    (outcome : w.machine.context.decide w.machine.state event s.plan = result) : w.machine.decided event = result := by
  rw [decided_decide stands.sane complete, stands.plan, outcome]

theorem Scenario.Stands.feed {next : Nat → Status} {brought : Nat → Bytes} (stands : s.Stands w status content)
    (event : Event) (tracks : s.Tracks next brought) :
    s.Stands (w.feed event (s.device.after next brought)) next brought :=
  ⟨stands.plan, apply_sane stands.sane event, rfl, tracks⟩

variable (decision : w.machine.decided event = result)

include decision

theorem World.feed_on : (w.feed event device).On result.1.next result.1.effect := by
  refine ⟨?_, ?_⟩
  · show (w.machine.apply event).2.state = _
    rw [apply_state, decision]
  · show (w.machine.apply event).1.effect = _
    rw [apply_effect, decision]

theorem Scenario.Fixed.feed (fixed : s.Fixed result.2) : s.Fixed (w.feed event device).machine.context := by
  subst decision
  refine ⟨?_, ?_, ?_⟩
  · show (w.machine.apply event).2.context.targets.map _ = _
    rw [apply_targets]
    exact fixed.targets
  · show swaps (w.machine.apply event).2.context.report.bootloaderMode = true
    rw [apply_bootloaderMode]
    exact fixed.mode
  · show (w.machine.apply event).2.context.noDowngrade = false
    rw [apply_noDowngrade]
    exact fixed.newer

theorem Scenario.Plans.feed {place : Nat} (plans : s.Plans status place result.2) :
    s.Plans status place (w.feed event device).machine.context := by
  have fixed := @Scenario.Fixed.feed s w event device result decision plans.toFixed
  subst decision
  refine ⟨fixed, ?_, plans.before, plans.beyond, ?_⟩
  · show (w.machine.apply event).2.context.current = place
    rw [apply_current]
    exact plans.current
  show (w.machine.apply event).2.context.swapScheduled = true ↔ _
  rw [apply_swapScheduled]
  exact plans.swap

theorem Scenario.Notes.feed (notes : s.Notes status result.2) :
    s.Notes status (w.feed event device).machine.context := by
  have fixed := @Scenario.Fixed.feed s w event device result decision notes.toFixed
  subst decision
  refine ⟨fixed, ?_, ?_⟩
  · show ∀ target ∈ (w.machine.apply event).2.context.targets, _
    rw [apply_targets]
    exact notes.flags
  show (w.machine.apply event).2.context.swapScheduled = _
  rw [apply_swapScheduled]
  exact notes.swap

theorem Scenario.Told.feed (told : s.Told status content result.2) :
    s.Told status content (w.feed event device).machine.context := by
  subst decision
  show (w.machine.apply event).2.context.device = _
  rw [apply_device]
  exact told

theorem World.feed_current :
    ((w.feed event device).machine.context.targets[(w.feed event device).machine.context.current]?) =
    result.2.targets[result.2.current]? := by
  subst decision
  show (w.machine.apply event).2.context.targets[(w.machine.apply event).2.context.current]? = _
  rw [apply_targets, apply_current]

theorem World.feed_grace (waits : result.1.effect ≠ .awaitDisconnect) (other : result.1.next ≠ .awaitingDisconnect) :
    (w.feed event device).machine.context.graceDeadline = none := by
  subst decision
  show (w.machine.apply event).2.context.graceDeadline = none
  rw [apply_graceDeadline, if_neg waits, if_neg other]

end

section
variable {s : Scenario} {w : World} {event : Event} {status next : Nat → Status} {content brought : Nat → Bytes}
  {result : Step × Context}

theorem Scenario.Commits.within (commits : s.Commits next result) (decision : w.machine.decided event = result)
    (stands : s.Stands w status content) (tracks : s.Tracks next brought) (live : s.Live next)
    (applied : s.Applied next) :
    ∃ left ≤ 2 * s.total next + 3, s.Within left (w.feed event (s.device.after next brought)) := by
  have on := @World.feed_on w event (s.device.after next brought) result decision
  cases commits with
  | waiting fixed member own busy =>
    exact ⟨_, Nat.le_refl _, next, brought, stands.feed event tracks, .committing (fixed.feed decision) live applied
      ⟨_, member, own, busy⟩ on (World.feed_grace decision (by simp) (by simp))⟩
  | completed done =>
    exact ⟨_, Nat.le_add_right .., next, brought, stands.feed event tracks, .completed live applied done on⟩

theorem Scenario.Judges.within (judges : s.Judges next result) (decision : w.machine.decided event = result)
    (stands : s.Stands w status content) (tracks : s.Tracks next brought) (live : s.Live next) :
    ∃ left ≤ 2 * s.total next + 11, s.Within left (w.feed event (s.device.after next brought)) := by
  have on := @World.feed_on w event (s.device.after next brought) result decision
  cases judges with
  | applying notes member busy =>
    exact ⟨_, Nat.le_refl _, next, brought, stands.feed event tracks, .applying (notes.feed decision) live
      ⟨_, member, busy⟩ on (World.feed_grace decision (by simp) (by simp))⟩
  | asks notes trial calm member first here step_eq =>
    have current := @World.feed_current w event (s.device.after next brought) _ decision
    have tries : s.Tries next (w.feed event (s.device.after next brought)).machine.context :=
      ⟨notes.feed decision, trial, calm, _, member, first, by rw [current]; exact here⟩
    rcases step_eq with rfl | rfl
    · exact ⟨_, by omega, next, brought, stands.feed event tracks, .window tries live on⟩
    obtain ⟨target, found, same⟩ := Option.map_eq_some_iff.mp here
    have hash : (w.feed event (s.device.after next brought)).last.hash = target.hash := by
      refine apply_hash (.inr ?_) ?_
      · rw [decision]
      · rw [decision]
        exact found
    exact ⟨_, by omega, next, brought, stands.feed event tracks, .confirming tries live on
      ⟨_, member, first, hash.trans (congrArg Target.hash same)⟩⟩
  | commits quiet calm outcome =>
    obtain ⟨left, bound, within⟩ := outcome.within decision stands tracks live ⟨quiet, calm⟩
    exact ⟨left, by omega, within⟩

end

section
variable {s : Scenario} {w : World} {choice : Choice} {status : Nat → Status} {content : Nat → Bytes} {c : Context}
  {place : Nat}

theorem Scenario.Stands.answer_read (stands : s.Stands w status content) (effect : w.last.effect = .readState) :
    s.answer w choice = some
      ({ kind := .stateRead, state := some (tableOf (s.device.after (s.device.read status) content).listing) },
        s.device.after (s.device.read status) content) := by
  unfold Scenario.answer
  rw [effect]
  simp only [BootModel.readState, stands.device, advanceApplies_after stands.tracks.steady]

theorem Scenario.Plans.read (plans : s.Plans status place c) : s.Plans (s.device.read status) place c where
  targets := plans.targets
  mode := plans.mode
  newer := plans.newer
  current := plans.current
  before := by
    intro index below update found
    rcases plans.before index below update found with ⟨waiting, kept⟩ | marked
    · exact .inl ⟨(read_eq_iff _ (.inl rfl)).mpr waiting, kept⟩
    · exact .inr ((read_eq_iff _ (.inr (.inr rfl))).mpr marked)
  beyond := fun index above update found => (read_eq_iff _ (.inl rfl)).mpr (plans.beyond index above update found)
  swap := by
    rw [plans.swap]
    constructor
    · rintro ⟨update, member, marked⟩
      exact ⟨update, member, (read_eq_iff _ (.inr (.inr rfl))).mpr marked⟩
    · rintro ⟨update, member, marked⟩
      exact ⟨update, member, (read_eq_iff _ (.inr (.inr rfl))).mp marked⟩

theorem Scenario.Notes.read (notes : s.Notes status c) (valid : s.Valid) (tracks : s.Tracks status content) :
    s.Notes (s.device.read status) c where
  targets := notes.targets
  mode := notes.mode
  newer := notes.newer
  flags := by
    intro target member
    rw [notes.flags target member]
    by_cases client : target.commit = .client
    · obtain ⟨update, listed, same⟩ := notes.mem member
      have zero := (valid.client listed).mp (by rw [same]; exact client)
      unfold Update.place at zero
      rw [same] at zero
      rw [zero, tracks.read_first valid]
    · rw [beq_false_of_ne client]
      rfl
  swap := by rw [notes.swap, tracks.read_first valid]

end

end Smply.Dfu
