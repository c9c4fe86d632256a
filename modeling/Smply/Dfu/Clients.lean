import Smply.Dfu.Window

namespace Smply.Dfu

open Context Machine

variable {result : Step × Context} {c : Context} {plan : UpdatePlan} {m : Machine} {event : Event}
  {table : ImageState} {tables : List ImageState} {polled : Prop} {before : Context} {final : ImageState}

def CommittedOn (table : ImageState) (target : Target) : Prop :=
  runs table target = true ∧ isConfirmed (table.activeSlot target.image) = true

/-- Nothing is left to do for a `Client` image: it runs, and it is confirmed where that exists. -/
def SettledOn (mode : McubootMode) (table : ImageState) (target : Target) : Prop :=
  runs table target = true ∧ (mode = .directXip ∨ isConfirmed (table.activeSlot target.image) = true)

instance (table : ImageState) (target : Target) : Decidable (CommittedOn table target) :=
  inferInstanceAs (Decidable (_ ∧ _))

instance (mode : McubootMode) (table : ImageState) (target : Target) : Decidable (SettledOn mode table target) :=
  inferInstanceAs (Decidable (_ ∧ _))

/-- What completing an update rests on. `polled`: it was completed by a poll, which reads the `Device` images only. -/
structure Settled (tables : List ImageState) (polled : Prop) (state : UpdateState) (c : Context) : Prop where
  waiting : state = .awaitingDeviceCommit ∨ state = .awaitingDeviceApply ∧ c.swapScheduled = false →
    ∃ table ∈ tables, EachClient c.targets (SettledOn c.report.bootloaderMode table)
  completed : state = .completed → ∃ final, c.device = some final ∧ EachDevice c.targets (CommittedOn final) ∧
    ∃ table ∈ tables, EachClient c.targets (SettledOn c.report.bootloaderMode table) ∧ (table = final ∨ polled)

theorem runningConfirmed_iff_committedOn (device : c.device = some table)
    (target : Target) : RunningConfirmed c target ↔ CommittedOn table target := by
  simp [RunningConfirmed, Running, activeOf, device, CommittedOn, runs]

def settles (state : UpdateState) : Bool :=
  state == .awaitingDeviceApply || state == .awaitingDeviceCommit || state == .completed

theorem Settled.elsewhere {state : UpdateState} (open_ : settles state = false) : Settled tables polled state c := by
  simp only [settles, Bool.or_eq_false_iff, beq_eq_false_iff_ne] at open_
  exact ⟨fun here => by simp [open_] at here, fun here => absurd here open_.2⟩

theorem settledOn_of_quiet (device : c.device = some table)
    {target : Target} (client : target.commit = .client) (running : Running c target)
    (quiet : owesConfirm c target = false) : SettledOn c.report.bootloaderMode table target := by
  have shown := (running_iff_runs device target).mp running
  refine ⟨shown, ?_⟩
  unfold runs at shown
  simpa [owesConfirm, client, withoutSetState, activeOf, device, shown, or_iff_not_imp_left] using quiet

theorem Passed.settledOn (passed : Passed before result)
    (device : before.device = some table) (quiet : result.2.swapScheduled = false) :
    EachClient before.targets (SettledOn before.report.bootloaderMode table) := by
  intro target member client
  refine settledOn_of_quiet device client (passed.running target member client) ?_
  have none := passed.swap.symm.trans quiet
  simpa using List.any_eq_false.mp none target member

theorem Settled.judged (judged : Judged before result) (device : before.device = some final)
    (clients : result.1.next = .awaitingDeviceCommit ∨ result.1.next = .completed ∨
        result.1.next = .awaitingDeviceApply ∧ result.2.swapScheduled = false →
      ∃ table ∈ tables, EachClient before.targets (SettledOn before.report.bootloaderMode table) ∧
        (result.1.next = .completed → table = final ∨ polled)) : Settled tables polled result.1.next result.2 := by
  have same : result.2.device = some final := by
    rw [judged.frame]
    exact device
  rw [← judged.bootloaderMode] at clients
  refine ⟨fun here => ?_, fun here => ?_⟩
  · obtain ⟨table, member, each, _⟩ := clients (by tauto)
    exact ⟨table, member, each.same judged.images⟩
  obtain ⟨table, member, each, which⟩ := clients (.inr (.inl here))
  refine ⟨final, same, ?_, table, member, each.same judged.images, which here⟩
  intro target found commit
  exact (runningConfirmed_iff_committedOn same _).mp (judged.completed here target found commit)

theorem Settled.inspected (outcome : InspectBoot plan c result) (device : c.device = some final)
    (member : final ∈ tables) : Settled tables polled result.1.next result.2 := by
  refine .judged outcome.judged device fun here => ?_
  have passed := outcome.passed (by rcases here with here | here | ⟨here, _⟩ <;> simp [here])
  have quiet : result.2.swapScheduled = false := by
    rcases here with here | here | ⟨_, quiet⟩
    · exact passed.quiet (.inl here)
    · exact passed.quiet (.inr here)
    · exact quiet
  exact ⟨final, member, passed.settledOn device quiet, fun _ => .inl rfl⟩

theorem Settled.planned (outcome : Planned plan c result) (whole : uploadOnly plan = false)
    (device : c.device = some final)
    (member : resets result.1.effect = false → final ∈ tables) : Settled tables polled result.1.next result.2 := by
  cases outcome with
  | uploaded _ only => exact absurd (only.symm.trans whole) (by simp)
  | judged moves outcome =>
    refine .inspected outcome ?_ (member outcome.judged.quiet)
    rw [moves.frame]
    exact device
  | _ => exact .elsewhere rfl

theorem allConfirmed_settledOn (device : c.device = some table)
    (every : allConfirmed c = true) : EachClient c.targets (SettledOn c.report.bootloaderMode table) := by
  intro target member client
  have confirmed := List.all_eq_true.mp every target member
  simp only [client, activeOf, device] at confirmed
  unfold SettledOn runs
  simp only [Option.bind_some, bne_self_eq_false, Bool.false_or, Bool.and_eq_true] at confirmed
  exact ⟨confirmed.1, .inr confirmed.2⟩

section
variable {tables later : List ImageState} {polled polled' : Prop}

theorem Row.keepsSettled (row : Row m event result) (whole : uploadOnly m.plan = false)
    (applied : Applied tables m.state m.context) (before : Settled tables polled m.state m.context)
    (kept : resets result.1.effect = false → ∀ table ∈ tables ++ received event, table ∈ later)
    (mono : polled → polled') (poll : isWait m.state → result.1.next = .completed → polled') :
    Settled later polled' result.1.next result.2 := by
  have old (quiet : resets result.1.effect = false) : Settled later polled' m.state m.context := by
    have grown := fun table member => kept quiet table (List.mem_append_left _ member)
    refine ⟨fun here => ?_, fun here => ?_⟩
    · obtain ⟨table, member, each⟩ := before.waiting here
      exact ⟨table, grown table member, each⟩
    · obtain ⟨final, device, committed, table, member, each, which⟩ := before.completed here
      exact ⟨final, device, committed, table, grown table member, each, which.imp_right mono⟩
  have fresh {table : ImageState} (carried : carriesTable event.kind = true) (read : event.state = some table)
      (quiet : resets result.1.effect = false) : table ∈ later :=
    kept quiet table (List.mem_append_right _ (mem_received carried read))
  cases row with
  | settled | idle | waitRepeated => exact old rfl
  | polled => exact ⟨(old rfl).waiting, (old rfl).completed⟩
  | planned here _ outcome =>
    obtain ⟨table, member, device⟩ := applied.device (.inl here)
    exact .planned outcome.planned whole device fun quiet => kept quiet table (List.mem_append_left _ member)
  | uploadedOnly _ only => exact absurd (only.symm.trans whole) (by simp)
  | unmarked _ kind read _ outcome | marked _ kind read outcome =>
    exact .planned outcome.planned whole read (fresh (by rw [kind]; rfl) read)
  | booted _ kind read outcome => exact .inspected outcome read (fresh (by rw [kind]; rfl) read outcome.judged.quiet)
  | applyRead here _ read outcome =>
    have judged := outcome.judged
    refine .judged judged read fun next => ?_
    -- The poll has not looked at the `Client` images: they were settled on an earlier table.
    have quiet : m.context.swapScheduled = false := by
      rcases next with next | next | ⟨_, quiet⟩
      · exact outcome.awaited.quiet (.inl next)
      · exact outcome.awaited.quiet (.inr next)
      · exact outcome.awaited.swap.symm.trans quiet
    obtain ⟨earlier, member, each⟩ := (old judged.quiet).waiting (.inr ⟨here, quiet⟩)
    exact ⟨earlier, member, each, fun halted => .inr (poll (.inl here) halted)⟩
  | commitRead here _ read outcome =>
    have judged := outcome.judged
    refine .judged judged read fun next => ?_
    obtain ⟨earlier, member, each⟩ := (old judged.quiet).waiting (.inl here)
    exact ⟨earlier, member, each, fun halted => .inr (poll (.inr here) halted)⟩
  | confirmVerified _ kind read every outcome =>
    have judged := outcome.judged
    exact .judged judged read fun _ =>
      ⟨_, fresh (by rw [kind]; rfl) read judged.quiet, allConfirmed_settledOn read every, fun _ => .inl rfl⟩
  | _ => exact .elsewhere rfl

theorem Decided.keepsSettled (decided : Decided m event result)
    (whole : uploadOnly m.plan = false) (applied : Applied tables m.state m.context)
    (before : Settled tables polled m.state m.context)
    (kept : resets result.1.effect = false → ∀ table ∈ tables ++ received event, table ∈ later)
    (mono : polled → polled') (poll : isWait m.state → result.1.next = .completed → polled') :
    Settled later polled' result.1.next result.2 := by
  cases decided with
  | row _ row => exact row.keepsSettled whole applied before kept mono poll
  | unnamed => exact .elsewhere rfl

end

def CompletedByPoll (log : List MachineStep) : Prop :=
  ∃ t ∈ log, isWait t.before.state ∧ t.after.state = .completed

theorem run_settled (targets : List Target) (plan : UpdatePlan) (events : List Event)
    (whole : uploadOnly plan = false) :
    Settled (tablesSinceReset (machineLog targets plan events)) (CompletedByPoll (machineLog targets plan events))
      (runMachine targets plan events).state (runMachine targets plan events).context := by
  apply Systems.history_invariant_with apply (new targets plan)
    (fun past m => m.plan = plan ∧ Applied (tablesSinceReset past) m.state m.context)
    fun past m => Settled (tablesSinceReset past) (CompletedByPoll past) m.state m.context
  · exact fun events => ⟨run_plan targets plan events, run_applied targets plan events⟩
  · exact .elsewhere rfl
  · rintro past m event ⟨rfl, applied⟩ before
    have mono : CompletedByPoll past → CompletedByPoll (past ++ [Systems.transition apply m event]) := by
      rintro ⟨t, member, found⟩
      exact ⟨t, List.mem_append_left _ member, found⟩
    have poll (here : isWait m.state) (halted : (m.decided event).1.next = .completed) :
        CompletedByPoll (past ++ [Systems.transition apply m event]) :=
      ⟨_, List.mem_append_right _ (List.mem_singleton_self _), here, (apply_state m event).trans halted⟩
    have after := (decided_outcome m event).keepsSettled whole applied before (tables_kept past m event) mono poll
    exact ⟨by simpa using after.waiting, by simpa using after.completed⟩

/-- The `Device` images are judged on the last table, the `Client` images too unless a poll completed the update: then
on an earlier one. -/
theorem completed_run_settled (targets : List Target) (plan : UpdatePlan) (events : List Event)
    (whole : plan.mode ≠ .uploadOnly) (done : (runMachine targets plan events).state = .completed) :
    ∃ final, (runMachine targets plan events).report.finalDeviceState = some final ∧
      EachDevice (runMachine targets plan events).context.targets (CommittedOn final) ∧
      ∃ table ∈ tablesSinceReset (machineLog targets plan events),
        EachClient (runMachine targets plan events).context.targets
          (SettledOn (runMachine targets plan events).report.bootloaderMode table) ∧
        (table = final ∨ CompletedByPoll (machineLog targets plan events)) := by
  have settled := run_settled targets plan events (by simpa [uploadOnly] using whole)
  obtain ⟨final, device, committed, clients⟩ := settled.completed done
  refine ⟨final, ?_, committed, clients⟩
  rw [run_finalDeviceState targets plan events (by rw [done]; rfl), device]

/-- The commit wait opens on a confirmed image 0 and completes on a table where it is gone. -/
def commitPoll : List Event :=
  opening [active 0 1 true, active 1 2 false] ++
    [{ kind := .continue }, { kind := .tick, now := 2000 }, readBack [active 0 9 true, active 1 2 true]]

theorem commit_poll_overlooks_client : (runMachine package {} commitPoll).state = .completed ∧
      ∃ final, (runMachine package {} commitPoll).report.finalDeviceState = some final ∧
        ¬ EachClient (runMachine package {} commitPoll).context.targets
          (SettledOn (runMachine package {} commitPoll).report.bootloaderMode final) :=
  ⟨by decide, { slots := [active 0 9 true, active 1 2 true] }, by decide, by decide⟩

theorem completed_run_settled_commit_poll : (runMachine package {} commitPoll).state = .completed ∧
      ∃ final, (runMachine package {} commitPoll).report.finalDeviceState = some final ∧
        EachDevice (runMachine package {} commitPoll).context.targets (CommittedOn final) ∧
        ∃ table ∈ tablesSinceReset (machineLog package {} commitPoll),
          EachClient (runMachine package {} commitPoll).context.targets
            (SettledOn (runMachine package {} commitPoll).report.bootloaderMode table) ∧
          (table = final ∨ CompletedByPoll (machineLog package {} commitPoll)) :=
  ⟨by decide, completed_run_settled package {} commitPoll (by decide) (by decide)⟩

def opensWindow (before after : UpdateState) : Prop :=
  (after = .awaitingConfirmation ∧ before ≠ .awaitingConfirmation) ∨
    (after = .confirming ∧ before ≠ .awaitingConfirmation ∧ before ≠ .confirming)

instance (before after : UpdateState) : Decidable (opensWindow before after) :=
  inferInstanceAs (Decidable (_ ∨ _))

/-- A poll that finds every `Device` image running and a `Client` image gone, with a confirm still owed. -/
def StaleRead (m : Machine) (event : Event) : Prop :=
  m.state = .awaitingDeviceApply ∧ m.context.swapScheduled = true ∧ event.kind = .stateRead ∧
    ∃ table, event.state = some table ∧ EachDevice m.context.targets (fun target => runs table target = true) ∧
      ¬ EachClient m.context.targets fun target => runs table target = true

theorem Passed.clients (passed : Passed before result)
    (judged : Judged before result) : EachClient result.2.targets (Running result.2) := by
  have same : result.2.device = before.device := by rw [judged.frame]
  intro target member client
  have running := passed.running.same judged.images target member client
  rwa [Running, activeOf, same]

theorem opensWindow.window {before after : UpdateState} (opens : opensWindow before after) : isWindow after := by
  rcases opens with ⟨here, _⟩ | ⟨here, _⟩
  · exact .inl here
  · exact .inr here

theorem not_opensWindow_self (state : UpdateState) : ¬ opensWindow state state := by
  rintro (⟨here, elsewhere⟩ | ⟨here, _, elsewhere⟩) <;> exact elsewhere here

theorem InspectBoot.clients (outcome : InspectBoot plan c result) (window : isWindow result.1.next) :
    EachClient result.2.targets (Running result.2) :=
  (outcome.passed (by rcases window with here | here <;> simp [here])).clients outcome.judged

theorem Planned.clients (outcome : Planned plan c result) (window : isWindow result.1.next) :
    EachClient result.2.targets (Running result.2) := by
  cases outcome with
  | judged _ outcome => exact outcome.clients window
  | _ => simp [isWindow, fail] at window

theorem Row.opens (row : Row m event result) (opens : opensWindow m.state result.1.next) :
    EachClient result.2.targets (Running result.2) ∨ StaleRead m event := by
  cases row with
  | settled | idle | polled | waitRepeated => exact absurd opens (not_opensWindow_self _)
  | approved here | confirmedNext here => simp [opensWindow, here] at opens
  | planned _ _ outcome | uploadedOnly _ _ outcome | unmarked _ _ _ _ outcome | marked _ _ _ outcome =>
    exact .inl (outcome.planned.clients opens.window)
  | booted _ _ _ outcome => exact .inl (outcome.clients opens.window)
  | @applyRead here kind table read result outcome =>
    have judged := outcome.judged
    have same : result.2.device = some table := by
      rw [judged.frame]
      exact read
    by_cases clients : EachClient m.context.targets fun target => runs table target = true
    · left
      intro target member client
      exact (running_iff_runs same _).mpr (clients.same judged.images target member client)
    refine .inr ⟨here, outcome.awaited.owed opens.window, kind, table, read, ?_, clients⟩
    have kept : result.2.targets = m.context.targets := outcome.awaited.targets
    intro target member device
    rw [← kept] at member
    exact (running_iff_runs same _).mp (judged.window opens.window target member device)
  | commitRead _ _ _ outcome | confirmVerified _ _ _ _ outcome => exact absurd opens.window outcome.kept.2.2
  | _ => simp [opensWindow, fail] at opens

def Noted (state : UpdateState) (c : Context) : Prop :=
  state = .awaitingDeviceApply → c.swapScheduled = true → ∃ target ∈ c.targets, target.inTrial = true

theorem InspectBoot.noted (outcome : InspectBoot plan c result) : Noted result.1.next result.2 := by
  intro here owed
  have passed := outcome.passed (by simp [here])
  rw [passed.swap, List.any_eq_true] at owed
  obtain ⟨target, member, owes⟩ := owed
  rw [passed.targets]
  exact ⟨judge c target, List.mem_map_of_mem member, owes⟩

theorem Planned.noted (outcome : Planned plan c result) : Noted result.1.next result.2 := by
  cases outcome with
  | judged _ outcome => exact outcome.noted
  | _ => simp [Noted, fail]

theorem Row.noted (row : Row m event result) (before : Noted m.state m.context) : Noted result.1.next result.2 := by
  cases row with
  | settled | idle | polled | waitRepeated => exact before
  | planned _ _ outcome | uploadedOnly _ _ outcome | marked _ _ _ outcome | unmarked _ _ _ _ outcome =>
    exact outcome.planned.noted
  | booted _ _ _ outcome => exact outcome.noted
  | applyRead here _ _ outcome =>
    intro _ owed
    rw [outcome.awaited.targets]
    exact before here (outcome.awaited.swap.symm.trans owed)
  | commitRead _ _ _ outcome | confirmVerified _ _ _ _ outcome => cases outcome <;> simp [Noted, failAt, fail]
  | _ => simp [Noted, fail]

theorem apply_noted (m : Machine) (event : Event) (before : Noted m.state m.context) :
    Noted (m.apply event).2.state (m.apply event).2.context := by
  have after : Noted (m.decided event).1.next (m.decided event).2 :=
    decided_cases m event (·.noted before) (by simp [Noted, fail])
  simpa [Noted] using after

theorem guardedDecide_applyRead (here : m.state = .awaitingDeviceApply) (kind : event.kind = .stateRead)
    (read : event.state = some table)
    (some_ : m.context.targets ≠ []) : m.guardedDecide event = (m.context.withTable event).awaitDevice m.plan := by
  simp [guardedDecide, here, kind, read, needsCurrent, isTerminal, some_, Context.decide]

theorem StaleRead.opens (stale : StaleRead m event) (noted : Noted m.state m.context) :
    opensWindow m.state (m.decided event).1.next ∧
      ¬ EachClient (m.decided event).2.targets (Running (m.decided event).2) := by
  obtain ⟨here, owed, kind, table, read, devices, clients⟩ := stale
  have some_ : m.context.targets ≠ [] := by
    intro none
    exact clients (by simp [EachClient, none])
  have applied : EachDevice m.context.targets (Running (m.context.withTable event)) := fun target member device =>
    (running_iff_runs read _).mpr (devices target member device)
  have inside := (nextInTrial_lt m.context).mpr (noted here owed)
  have outcome : AwaitDevice m.plan (m.context.withTable event) false m.context.targets _ :=
    awaitDevice_outcome m.plan (m.context.withTable event)
  have reverted (images : List ImageReport) (current : Nat) : ¬ EachClient m.context.targets
        (Running { (m.context.withTable event).withImages images with current := current }) := fun each =>
    clients fun target member client => (running_iff_runs read _).mp (each target member client)
  unfold decided
  rw [guardedDecide_applyRead here kind read some_]
  generalize (m.context.withTable event).awaitDevice m.plan = result at outcome
  cases outcome with
  | failed _ missing => exact absurd applied missing
  | waiting _ missing => simp [applied] at missing
  | commit _ _ _ quiet => exact absurd (owed.symm.trans quiet) (by simp)
  | fork images =>
    have beyond : ¬ ((m.context.withTable event).withImages images).targets.length ≤
        nextInTrial ((m.context.withTable event).withImages images) 0 := Nat.not_le.mpr inside
    unfold confirmationFork
    dsimp only
    split
    · simp only [beyond, decide_false, Bool.and_false, Bool.false_eq_true, ↓reduceIte]
      exact ⟨.inr ⟨rfl, by simp [here], by simp [here]⟩, reverted images _⟩
    · simp only [beyond, decide_false, Bool.and_false, Bool.false_eq_true, ↓reduceIte]
      exact ⟨.inl ⟨rfl, by simp [here]⟩, reverted images _⟩

theorem apply_opens (m : Machine) (event : Event) (opens : opensWindow m.state (m.apply event).2.state) :
    EachClient (m.decided event).2.targets (Running (m.decided event).2) ∨ StaleRead m event := by
  rw [apply_state] at opens
  revert opens
  exact decided_cases m event Row.opens (by simp [opensWindow, fail])

theorem running_apply (m : Machine) (event : Event) :
    Running (m.apply event).2.context = Running (m.decided event).2 := by
  funext target
  simp only [Running, activeOf, apply_device]

/-- Every step that opens the window finds the `Client` images running, exactly when none of the run is a stale read. -/
theorem window_opens_on_running_clients_iff (targets : List Target) (plan : UpdatePlan) (events : List Event) :
    (∀ t ∈ machineLog targets plan events, opensWindow t.before.state t.after.state →
      EachClient t.after.context.targets (Running t.after.context)) ↔
    ∀ t ∈ machineLog targets plan events, ¬ StaleRead t.before t.event := by
  have each : ∀ t ∈ machineLog targets plan events,
      (opensWindow t.before.state t.after.state → EachClient t.after.context.targets (Running t.after.context)) ↔
        ¬ StaleRead t.before t.event := by
    apply Systems.every_transition apply (new targets plan) fun m => Noted m.state m.context
    · simp [Noted, new]
    · exact apply_noted
    · intro m event noted
      simp only [Systems.transition, running_apply]
      constructor
      · intro running stale
        obtain ⟨opens, reverted⟩ := stale.opens noted
        rw [← apply_state] at opens
        exact reverted (by simpa using running opens)
      · intro fresh opens
        have clients := (apply_opens m event opens).resolve_right fresh
        simpa using clients
  exact forall₂_congr each

/-- Image 0 is on trial while the device applies image 1, and is reverted before image 1 runs. -/
def revertedWhileApplying : List Event :=
  opening [active 0 1 false, active 1 5 true, waiting 1 2 true] ++
    [{ kind := .continue }, { kind := .tick, now := 2000 },
      readBack [active 0 9 true, waiting 0 1 false, active 1 2 false]]

theorem window_opens_on_reverted_client :
    ∃ t ∈ machineLog package {} revertedWhileApplying, opensWindow t.before.state t.after.state ∧
      ¬ EachClient t.after.context.targets (Running t.after.context) := by
  decide

end Smply.Dfu
