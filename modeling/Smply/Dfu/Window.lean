import Smply.Dfu.Targets

namespace Smply.Dfu

variable {state : UpdateState}
  {c : Context} {result : Step × Context} {tables : List ImageState} {event : Event} {table : ImageState}
  {m : Machine}

def runs (table : ImageState) (target : Target) : Bool := holds (table.activeSlot target.image) target

def received (event : Event) : List ImageState :=
  if carriesTable event.kind then event.state.toList else []

def resets (effect : Effect) : Bool := effect == .reset || effect == .forceReset

def tablesAfter (tables : List ImageState) (t : MachineStep) : List ImageState :=
  if resets t.output.effect then [] else tables ++ received t.event

def tablesSinceReset (log : List MachineStep) : List ImageState := log.foldl tablesAfter []

theorem tablesSinceReset_concat (log : List MachineStep) (t : MachineStep) :
    tablesSinceReset (log ++ [t]) = tablesAfter (tablesSinceReset log) t := by
  simp [tablesSinceReset]

theorem mem_received (carried : carriesTable event.kind = true)
    (read : event.state = some table) : table ∈ received event := by
  simp [received, carried, read]

theorem running_iff_runs (device : c.device = some table) (target : Target) :
    Running c target ↔ runs table target = true := by
  simp [Running, activeOf, device, runs]

structure Applied (tables : List ImageState) (state : UpdateState) (c : Context) : Prop where
  uploading : c.uploadInProgress = true →
    state = .uploading ∨ state = .awaitingReconnect ∨ isTerminal state = true
  device : state = .planning ∨ state = .uploading ∨ c.uploadInProgress = true →
    ∃ table ∈ tables, c.device = some table
  window : isWindow state → ∃ table ∈ tables, EachDevice c.targets fun target => runs table target = true

def restsOnTable (state : UpdateState) : Bool :=
  state == .planning || state == .uploading || state == .awaitingConfirmation || state == .confirming

theorem Applied.elsewhere (free : c.uploadInProgress = false) (quiet : restsOnTable state = false) :
    Applied tables state c := by
  simp only [restsOnTable, Bool.or_eq_false_iff, beq_eq_false_iff_ne] at quiet
  obtain ⟨⟨⟨planning, uploading⟩, asked⟩, confirming⟩ := quiet
  refine ⟨fun busy => ?_, fun here => ?_, fun here => ?_⟩
  · simp [free] at busy
  · simp [free, planning, uploading] at here
  · simp [isWindow, asked, confirming] at here

theorem Judged.quiet (judged : Judged c result) : resets result.1.effect = false := by
  rcases judged.effect with effect | effect | ⟨_, effect | effect⟩ <;> simp [effect, resets]

theorem Applied.judged (judged : Judged c result) (free : c.uploadInProgress = false)
    (device : c.device = some table) (member : table ∈ tables) : Applied tables result.1.next result.2 where
  uploading busy := by
    rw [judged.frame] at busy
    simp [free] at busy
  device here := by
    rw [judged.frame]
    exact ⟨table, member, device⟩
  window here := by
    refine ⟨table, member, fun target found commit => ?_⟩
    have same : result.2.device = some table := by
      rw [judged.frame]
      exact device
    exact (running_iff_runs same _).mp (judged.window here target found commit)

theorem Applied.planned {plan : UpdatePlan} (outcome : Planned plan c result) (free : c.uploadInProgress = false)
    (device : c.device = some table) (member : resets result.1.effect = false → table ∈ tables) :
    Applied tables result.1.next result.2 := by
  have still {at_ : Context} (moves : Moves plan c at_) : at_.device = some table ∧ at_.uploadInProgress = false := by
    rw [moves.frame]
    exact ⟨device, free⟩
  cases outcome with
  | stopped moves | mark moves | reset moves | uploaded moves | refused moves => exact .elsewhere (still moves).2 rfl
  | upload moves => exact ⟨fun _ => .inl rfl, fun _ => ⟨table, member rfl, (still moves).1⟩, by simp [isWindow]⟩
  | next moves =>
    refine ⟨fun busy => ?_, fun _ => ⟨table, member rfl, (still moves).1⟩, by simp [isWindow]⟩
    simp [(still moves).2] at busy
  | judged moves outcome => exact .judged outcome.judged (still moves).2 (still moves).1 (member outcome.judged.quiet)

def mayUpload (state : UpdateState) : Bool :=
  state == .uploading || state == .awaitingReconnect || isTerminal state

theorem Applied.free (applied : Applied tables state c) (here : mayUpload state = false) :
    c.uploadInProgress = false := by
  cases busy : c.uploadInProgress
  · rfl
  · rcases applied.uploading busy with state | state | state <;> simp [mayUpload, state] at here

theorem Applied.ended {final : UpdateState} {before after : Context}
    (applied : Applied tables state before) (halted : isTerminal final = true)
    (busy : after.uploadInProgress = before.uploadInProgress) (device : after.device = before.device) :
    Applied tables final after := by
  have closed : final ≠ .planning ∧ final ≠ .uploading ∧ ¬ isWindow final := by
    cases final <;> simp [isTerminal, isWindow] at halted ⊢
  refine ⟨fun _ => .inr (.inr halted), fun here => ?_, fun here => absurd here closed.2.2⟩
  rw [device]
  rcases here with here | here | here
  · exact absurd here closed.1
  · exact absurd here closed.2.1
  · exact applied.device (.inr (.inr (busy ▸ here)))

theorem Row.applied {tables later : List ImageState}
    (row : Row m event result) (before : Applied tables m.state m.context)
    (kept : resets result.1.effect = false → ∀ table ∈ tables ++ received event, table ∈ later) :
    Applied later result.1.next result.2 := by
  have old (quiet : resets result.1.effect = false) : Applied later m.state m.context := by
    have grown := fun table member => kept quiet table (List.mem_append_left _ member)
    refine ⟨before.uploading, fun here => ?_, fun here => ?_⟩
    · obtain ⟨table, member, device⟩ := before.device here
      exact ⟨table, grown table member, device⟩
    · obtain ⟨table, member, each⟩ := before.window here
      exact ⟨table, grown table member, each⟩
  have free := before.free
  have fresh {table : ImageState} (carried : carriesTable event.kind = true) (read : event.state = some table)
      (quiet : resets result.1.effect = false) : table ∈ later :=
    kept quiet table (List.mem_append_right _ (mem_received carried read))
  have waiting (here : isWait m.state) : mayUpload m.state = false := by
    rcases here with here | here <;> rw [here] <;> rfl
  have confirming (here : isConfirmRound m.state) : mayUpload m.state = false := by
    rcases here with here | here <;> rw [here] <;> rfl
  cases row with
  | settled | idle => exact old rfl
  | stopped | cancelled => exact (old rfl).ended rfl rfl rfl
  | polled here | waitRepeated here =>
    have quiet : restsOnTable m.state = false := by rcases here with here | here <;> simp [here, restsOnTable]
    exact .elsewhere (free (waiting here)) quiet
  | timedOut here | waitDropped here => exact .elsewhere (free (waiting here)) rfl
  | started here | parameters here | bootloader here | missing here | remark here | forced here | rebooting here
  | toMark here | dropped here | confirmedLast here | unconfirmed here => exact .elsewhere (free (by rw [here]; rfl)) rfl
  | inspected here kind read =>
    have idle := free (by rw [here]; rfl)
    refine ⟨fun busy => ?_, fun _ => ⟨_, fresh (by rw [kind]; rfl) read rfl, read⟩, by simp [isWindow]⟩
    exact absurd (idle.symm.trans busy) (by simp)
  | planned here _ outcome =>
    obtain ⟨table, member, device⟩ := before.device (.inl here)
    exact .planned outcome.planned (free (by rw [here]; rfl)) device
      fun quiet => kept quiet table (List.mem_append_left _ member)
  | uploadedOnly here _ outcome =>
    obtain ⟨table, member, device⟩ := before.device (.inr (.inl here))
    exact .planned outcome.planned rfl device
      fun quiet => kept quiet table (List.mem_append_left _ member)
  | uploaded => exact .elsewhere rfl rfl
  | suspended here => exact ⟨fun _ => .inr (.inl rfl), fun _ => (old rfl).device (.inr (.inl here)), by simp [isWindow]⟩
  | marked here kind read outcome | unmarked here kind read _ outcome =>
    exact .planned outcome.planned (free (by rw [here]; rfl)) read (fresh (by rw [kind]; rfl) read)
  | resumed _ busy => exact ⟨fun _ => .inl rfl, fun _ => (old rfl).device (.inr (.inr busy)), by simp [isWindow]⟩
  | reconnected _ idle => exact .elsewhere idle rfl
  | booted here kind read outcome | commitRead here kind read outcome | confirmVerified here kind read _ outcome =>
    exact .judged outcome.judged (free (by rw [here]; rfl)) read (fresh (by rw [kind]; rfl) read outcome.judged.quiet)
  | applyRead here kind read outcome =>
    have judged := outcome.judged
    exact .judged judged (free (by rw [here]; rfl)) read (fresh (by rw [kind]; rfl) read judged.quiet)
  | approved here =>
    have idle := free (by rw [here]; rfl)
    exact ⟨fun busy => absurd (idle.symm.trans busy) (by simp), by simp [idle], fun _ => (old rfl).window (.inl here)⟩
  | confirmedNext here =>
    have idle := free (by rw [here]; rfl)
    refine ⟨fun busy => absurd (idle.symm.trans busy) (by simp), ?_, fun _ => ?_⟩
    · simp [Context.setInTrial, Context.withTable, idle]
    · obtain ⟨table, member, each⟩ := (old rfl).window (.inr here)
      exact ⟨table, member, each.same (setInTrial_sameImages (m.context.withTable event) _ false)⟩
  | confirmDropped here | confirmReread here | confirmRefused here => exact .elsewhere (free (confirming here)) rfl

theorem Decided.applied {tables later : List ImageState}
    (decided : Decided m event result) (before : Applied tables m.state m.context)
    (kept : resets result.1.effect = false → ∀ table ∈ tables ++ received event, table ∈ later) :
    Applied later result.1.next result.2 := by
  cases decided with
  | row _ row => exact row.applied before kept
  | unnamed _ row => exact (row.applied before fun _ => kept rfl).ended rfl rfl rfl

theorem tables_kept (past : List MachineStep) (m : Machine) (event : Event)
    (quiet : resets (m.decided event).1.effect = false) : ∀ table ∈ tablesSinceReset past ++ received event,
      table ∈ tablesSinceReset (past ++ [Systems.transition Machine.apply m event]) := by
  intro table member
  rw [tablesSinceReset_concat]
  simpa [tablesAfter, Systems.transition, quiet] using member

theorem run_applied (targets : List Target) (plan : UpdatePlan) (events : List Event) :
    Applied (tablesSinceReset (machineLog targets plan events)) (runMachine targets plan events).state
      (runMachine targets plan events).context := by
  apply Systems.history_invariant Machine.apply (Machine.new targets plan)
    fun past m => Applied (tablesSinceReset past) m.state m.context
  · exact .elsewhere rfl rfl
  intro past m event before
  have after := (decided_outcome m event).applied before (tables_kept past m event)
  exact ⟨by simpa using after.uploading, by simpa using after.device, by simpa using after.window⟩

theorem Judged.confirms (judged : Judged c result)
    (confirm : result.1.effect = .confirm) : isWindow result.1.next := by
  rcases judged.effect with effect | effect | ⟨window, _⟩
  · simp [confirm] at effect
  · simp [confirm] at effect
  · exact window

theorem Planned.confirms {plan : UpdatePlan} (outcome : Planned plan c result)
    (confirm : result.1.effect = .confirm) : isWindow result.1.next := by
  cases outcome with
  | judged _ outcome => exact outcome.judged.confirms confirm
  | stopped => simp [Context.fail] at confirm
  | _ => simp at confirm

theorem Row.confirms (row : Row m event result) (confirm : result.1.effect = .confirm) : isWindow result.1.next := by
  cases row with
  | planned _ _ outcome | uploadedOnly _ _ outcome | marked _ _ _ outcome | unmarked _ _ _ _ outcome =>
    exact outcome.planned.confirms confirm
  | booted _ _ _ outcome | commitRead _ _ _ outcome | confirmVerified _ _ _ _ outcome | applyRead _ _ _ outcome =>
    exact outcome.judged.confirms confirm
  | approved | confirmedNext => exact .inr rfl
  | _ => simp [Context.fail] at confirm

theorem apply_confirms (m : Machine) (event : Event) (confirm : (m.apply event).1.effect = .confirm) :
    isWindow (m.apply event).2.state := by
  rw [apply_effect] at confirm
  rw [apply_state]
  revert confirm
  exact decided_cases m event Row.confirms (by simp [Context.fail])

theorem confirm_after_devices_applied (targets : List Target) (plan : UpdatePlan) (events : List Event)
    (event : Event) (confirm : ((runMachine targets plan events).apply event).1.effect = .confirm) :
    ∃ table ∈ tablesSinceReset (machineLog targets plan (events ++ [event])),
      ∀ (index : Nat) (given : Target), targets[index]? = some given → given.commit = .device →
        ∃ image, (runMachine targets plan (events ++ [event])).context.targets[index]? = some image ∧
          Realises given image ∧ runs table image.toTarget = true := by
  have window := apply_confirms _ event confirm
  obtain ⟨table, member, each⟩ := (run_applied targets plan (events ++ [event])).window
    (by rwa [runMachine, Systems.run_concat])
  refine ⟨table, member, fun index given found device => ?_⟩
  obtain ⟨image, here, real⟩ := run_target targets plan (events ++ [event]) found
  refine ⟨image, here, real, each image (List.mem_of_getElem? here) ?_⟩
  rw [real.2.1]
  exact device

def shortHash (byte : UInt8) : ImageHash := ⟨[byte], by simp [Limits.maxImageHashLength]⟩

def package : List Target :=
  [{ image := 0, commit := .client, hash := shortHash 1 }, { image := 1, commit := .device, hash := shortHash 2 }]

def active (image : UInt32) (byte : UInt8) (confirmed : Bool) : ImageSlot :=
  { image := image, slot := image * 2, hash := some (shortHash byte), active := true, confirmed := confirmed }

def waiting (image : UInt32) (byte : UInt8) (pending : Bool) : ImageSlot :=
  { image := image, slot := image * 2 + 1, hash := some (shortHash byte), pending := pending }

def readBack (slots : List ImageSlot) : Event := { kind := .stateRead, state := some { slots := slots } }

def opening (slots : List ImageSlot) : List Event :=
  [{ kind := .start }, { kind := .parametersUnavailable }, { kind := .bootloaderRead }, readBack slots]

theorem confirm_after_devices_applied_on_trial :
    ((runMachine package { mode := .confirmImmediately } (opening [active 0 1 false, active 1 2 false])).apply
        { kind := .continue }).1.effect = .confirm ∧
      ∃ table ∈ tablesSinceReset (machineLog package { mode := .confirmImmediately }
          (opening [active 0 1 false, active 1 2 false] ++ [{ kind := .continue }])),
        ∀ (index : Nat) (given : Target), package[index]? = some given → given.commit = .device →
          ∃ image, (runMachine package { mode := .confirmImmediately }
              (opening [active 0 1 false, active 1 2 false] ++ [{ kind := .continue }])).context.targets[index]? =
                some image ∧
            Realises given image ∧ runs table image.toTarget = true :=
  ⟨by decide, confirm_after_devices_applied package { mode := .confirmImmediately } _ _ (by decide)⟩

end Smply.Dfu
