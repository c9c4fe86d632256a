import Smply.Dfu.Targets
import Smply.Host.Drivers

namespace Smply.Host

open Systems
open Dfu (isTerminal)
open Smp (SmpClientConfig)

variable {spent : List Code} {codec : Codec}

def carries : Code → Bool
  | .task (.carry _ _) => true
  | _ => false

def finishes : Code → Bool
  | .task (.carry _ step) => decide (step.effect = .finish)
  | _ => false

def clears : Code → Bool
  | .task .clear => true
  | _ => false

def Owner.isUpdater : Owner → Bool
  | .updater _ => true
  | .application => false

def busy (host : Host) : Bool :=
  host.image.upload.any fun driver => driver.active && driver.onProgress.any Owner.isUpdater

def UpdateEvent.final : UpdateEvent → Bool
  | .finished _ => true
  | _ => false

def ImageTarget.files (target : ImageTarget) : Source × Option Source :=
  (target.source.getD 0, target.secondarySource)

theorem readTarget_files {env : Env} {target : ImageTarget} {read : Dfu.Target × Source × Option Source}
    (reads : readTarget env target = .ok read) : read.2 = target.files := by
  unfold readTarget at reads
  cases file : env.file (target.source.getD 0) with
  | error => simp [file, bind, Except.bind] at reads
  | ok =>
    cases second : target.secondarySource with
    | none =>
      simp [file, second, bind, Except.bind, pure, Except.pure] at reads
      rw [← reads, ImageTarget.files, second]
    | some secondary =>
      cases other : env.file secondary with
      | error => simp [file, second, other, bind, Except.bind] at reads
      | ok =>
        simp [file, second, other, bind, Except.bind, pure, Except.pure] at reads
        rw [← reads, ImageTarget.files, second]

theorem readTargets_files {env : Env} {targets : List ImageTarget} {read : List (Dfu.Target × Source × Option Source)}
    (reads : targets.mapM (readTarget env) = .ok read) : read.map (·.2) = targets.map ImageTarget.files := by
  induction targets generalizing read with
  | nil =>
    cases reads
    rfl
  | cons target targets ih =>
    simp only [List.mapM_cons] at reads
    cases first : readTarget env target with
    | error => simp [first, bind, Except.bind] at reads
    | ok =>
      cases rest : targets.mapM (readTarget env) with
      | error => simp [first, rest, bind, Except.bind] at reads
      | ok =>
        simp [first, rest, bind, Except.bind, pure, Except.pure] at reads
        rw [← reads, List.map_cons, List.map_cons, readTarget_files first, ih rest]

structure Steady (before after : Host) : Prop where
  updates : after.updates = before.updates
  running : after.updater.running = before.updater.running
  machine : after.updater.machine = before.updater.machine
  onEvent : after.updater.onEvent = before.updater.onEvent
  sources : after.updater.sources = before.updater.sources

theorem Still.steady {before after : Host} (still : Still before after) : Steady before after :=
  ⟨still.updates, by rw [still.updater], by rw [still.updater], by rw [still.updater], by rw [still.updater]⟩

def Remarks (before : Host) (spent : List Code) (output : Output) : Prop :=
  ∀ listener update event, output = .emitted listener update event →
    before.updater.onEvent = some listener ∧ event.final = false ∧
      (spent.countP (weigh carries) = 1 ∨ before.busy = true)

/-- Everything one event can do to an update. -/
inductive Beat (before : Host) (event : Event) (output : Output) (after : Host) : Prop
  | steady {spent made} (moves : Moves before after spent made) (steady : Steady before after)
      (uncarried : made.countP (weigh carries) = 0) (unfinished : spent.countP (weigh finishes) = 0)
      (uncleared : spent.countP (weigh clears) = 0 ∧ made.countP (weigh clears) = 0)
      (remarks : Remarks before spent output)
  | turned {task update given machine} (turns : Turns before task update given)
      (here : before.updater.machine = some machine) (moves : Moves before after [.task task]
        [.task (.carry update (machine.apply { given with now := before.updater.lastPoll }).1)])
      (updater : after.updater = { before.updater with
        machine := some (machine.apply { given with now := before.updater.lastPoll }).2 })
      (updates : after.updates = before.updates)
      (tells : Tells before update (fun said => ∃ previous next, said = .stateChanged previous next) output)
  | finished {env update step} (goes : event = .proceed env) (effect : step.effect = .finish)
      (moves : Moves before after [.task (.carry update step)] [.task .clear])
      (updater : after.updater = { before.updater with running := false }) (updates : after.updates = before.updates)
      (tells : output = match before.updater.onEvent with
        | none => .quiet
        | some listener => .emitted listener update (.finished before.updater.outcome))
  | cleared (moves : Moves before after [.task .clear] [])
      (updater : after.updater = { before.updater with onEvent := none, sources := [], upload := {} })
      (updates : after.updates = before.updates) (quiet : output = .quiet)
  | started {targets plan env read} (called : event = .call (.start targets plan true) env)
      (reads : targets.mapM (readTarget env) = .ok read) (idle : before.updater.running = false)
      (moves : Moves before after [] [.job (.post (before.updates + 1) { kind := .start })])
      (updater : after.updater = { before.updater with
        plan := plan, sources := read.map (·.2), onEvent := some (before.updates + 1)
        machine := some (.new (read.map (·.1)) plan.decisions), running := true })
      (updates : after.updates = before.updates + 1) (accepted : output = .accepted)

section
variable {before after : Host} {event : Event} {output : Output}

theorem remarks_none (silent : ∀ listener update event, output ≠ .emitted listener update event) :
    Remarks before spent output := fun listener update event same => absurd same (silent listener update event)

theorem Reports.remarks {driver : UploadDriver} (reports : Reports before driver output)
    {old : UploadDriver} (stands : before.image.upload = some old) (active : old.active = true)
    (same : driver.onProgress = old.onProgress) : Remarks before spent output := by
  unfold Reports at reports
  rw [same] at reports
  cases asked : old.onProgress with
  | none =>
    rw [asked] at reports
    exact remarks_none (by simp [reports])
  | some owner =>
    rw [asked] at reports
    cases owner with
    | application => exact remarks_none (by simp [reports])
    | updater update =>
      rcases reports with rfl | ⟨listener, said, given, rfl, rfl⟩
      · exact remarks_none (fun _ _ _ => nofun)
      intro other update event emitted
      cases emitted
      exact ⟨given, rfl, .inr (by simp [busy, stands, active, asked, Owner.isUpdater])⟩

theorem Tells.remarks {update : Nat} {event : UpdateEvent → Prop} (tells : Tells before update event output)
    (short : ∀ said, event said → said.final = false)
    (carried : spent.countP (weigh carries) = 1) : Remarks before spent output := by
  rcases tells with rfl | ⟨listener, said, given, is, rfl⟩
  · exact remarks_none (fun _ _ _ => nofun)
  intro other update event emitted
  cases emitted
  exact ⟨given, short _ is, .inl carried⟩

structure Light (spent made : List Code) : Prop where
  uncarried : made.countP (weigh carries) = 0
  unfinished : spent.countP (weigh finishes) = 0
  uncleared : spent.countP (weigh clears) = 0 ∧ made.countP (weigh clears) = 0

theorem Beat.light {spent made : List Code} (moves : Moves before after spent made) (steady : Steady before after)
    (light : Light spent made) (remarks : Remarks before spent output) : Beat before event output after :=
  .steady moves steady light.uncarried light.unfinished light.uncleared remarks

theorem Ends.light {base : ImageManagement} {driver : UploadDriver} {origin : Option Origin}
    {outcome : Result UploadResult} {spent : List Code} {result : Output × Host}
    (ends : Ends before base driver origin outcome spent result) (aside : spent.countP (weigh finishes) = 0)
    (kept : spent.countP (weigh clears) = 0) :
    ∃ made, Moves before result.2 spent made ∧ Still before result.2 ∧ Light spent made ∧
      ∀ listener update event, result.1 ≠ .emitted listener update event := by
  cases ends with
  | inactive _ moves still | unheard _ _ moves still =>
    exact ⟨_, moves, still, ⟨rfl, aside, kept, rfl⟩, by simp⟩
  | queued _ _ _ moves still =>
    exact ⟨_, moves, still, ⟨by simp [weigh, carries], aside, kept, by simp [weigh, clears]⟩, by simp⟩
  | told _ _ _ moves still =>
    exact ⟨_, moves, still, ⟨telling_light _ _ _ _ fun _ _ _ => rfl, aside, kept,
      telling_light _ _ _ _ fun _ _ _ => rfl⟩, by simp⟩

theorem Advanced.light {base : ImageManagement} {driver old : UploadDriver} {origin : Option Origin}
    {step : Upload.Step} {spent : List Code} {result : Output × Host}
    (advanced : Advanced before base driver origin step spent result) (aside : spent.countP (weigh finishes) = 0)
    (kept : spent.countP (weigh clears) = 0)
    (stands : origin ≠ none → before.image.upload = some old ∧ old.active = true ∧ driver.onProgress = old.onProgress) :
    ∃ made, Moves before result.2 spent made ∧ Still before result.2 ∧ Light spent made ∧
      Remarks before spent result.1 := by
  cases advanced with
  | sent _ moves still =>
    exact ⟨_, moves, still, ⟨by simp [weigh, carries], aside, kept, by simp [weigh, clears]⟩,
      remarks_none (by simp)⟩
  | ended _ _ ends =>
    obtain ⟨made, moves, still, light, silent⟩ := ends.light aside kept
    exact ⟨made, moves, still, light, remarks_none silent⟩
  | reported goes _ moves still _ reports =>
    obtain ⟨stood, active, same⟩ := stands (by rw [goes]; simp)
    exact ⟨_, moves, still, ⟨by simp [weigh, carries], aside, kept, by simp [weigh, clears]⟩,
      reports.remarks stood active same⟩

theorem Uploads.light {onProgress onDone : Option Owner} {spent : List Code} {result : UploadHandle × Host}
    (uploads : Uploads before onProgress onDone spent result) (aside : spent.countP (weigh finishes) = 0)
    (kept : spent.countP (weigh clears) = 0) :
    ∃ made, Moves before result.2 spent made ∧ Still before result.2 ∧ Light spent made := by
  cases uploads with
  | refused moves still =>
    exact ⟨_, moves, still, ⟨rejecting_light _ _ _ fun _ _ => rfl, aside, kept, rejecting_light _ _ _ fun _ _ => rfl⟩⟩
  | @begun driver _ _ _ _ _ _ _ _ _ advanced =>
    obtain ⟨made, moves, still, light, _⟩ := @Advanced.light _ _ _ driver _ _ _ _ advanced aside kept (by simp)
    exact ⟨made, moves, still, light⟩

theorem Resumes.light {handle : UploadHandle} {onDone : Option Owner} {spent : List Code} {result : UploadHandle × Host}
    (resumes : Resumes before handle onDone spent result) (aside : spent.countP (weigh finishes) = 0)
    (kept : spent.countP (weigh clears) = 0) :
    ∃ made, Moves before result.2 spent made ∧ Still before result.2 ∧ Light spent made := by
  cases resumes with
  | refused moves still =>
    exact ⟨_, moves, still, ⟨rejecting_light _ _ _ fun _ _ => rfl, aside, kept, rejecting_light _ _ _ fun _ _ => rfl⟩⟩
  | @begun old _ _ _ _ advanced =>
    obtain ⟨made, moves, still, light, _⟩ := @Advanced.light _ _ _ old _ _ _ _ advanced aside kept (by simp)
    exact ⟨made, moves, still, light⟩

theorem Drops.unfinished {task : Task} (drops : Drops before task) :
    weigh finishes (.task task) = false ∧ weigh clears (.task task) = false := by
  cases drops with
  | carry _ _ nothing =>
    refine ⟨?_, rfl⟩
    rcases nothing with none_ | awaits | ⟨goesOn, _⟩ | ⟨starts, _⟩ <;> simp [weigh, finishes, *]
  | _ => exact ⟨by simp [weigh, finishes], by simp [weigh, clears]⟩

theorem Row.beat (row : Row codec before event output after) (books : before.booked)
    (driven : before.Driven) : Beat before event output after := by
  cases row with
  | idle moves still _ inert =>
    refine .light moves still.steady ⟨rfl, rfl, rfl, rfl⟩ (remarks_none ?_)
    rintro listener update event rfl
    cases inert
  | returned moves still _ neutral =>
    exact .light moves still.steady ⟨rfl, by simp [weigh, neutral], by simp [weigh, neutral], rfl⟩
      (remarks_none (by simp))
  | dropped moves still _ drops =>
    exact .light moves still.steady ⟨rfl, by simp [drops.unfinished.1], by simp [drops.unfinished.2], rfl⟩
      (remarks_none (by simp))
  | answering moves still | working moves still =>
    exact .light moves still.steady
      ⟨by simp [weigh, carries], by simp [weigh, finishes], by simp [weigh, clears], by simp [weigh, clears]⟩
      (remarks_none (by simp))
  | relayed moves still _ relays =>
    refine .light moves still.steady ⟨by simp [weigh, carries], ?_, ?_, by simp [weigh, clears]⟩
      (remarks_none (by simp))
    · cases relays <;> simp [weigh, finishes]
    · cases relays <;> simp [weigh, clears]
  | told _ moves still =>
    exact .light moves still.steady ⟨telling_light _ _ _ _ fun _ _ _ => rfl, by simp [weigh, finishes],
      by simp [weigh, clears], telling_light _ _ _ _ fun _ _ _ => rfl⟩ (remarks_none (by simp))
  | paused found active _ moves still _ reports =>
    exact .light moves still.steady
      ⟨by simp [weigh, carries], by simp [weigh, finishes], by simp [weigh, clears], by simp [weigh, clears]⟩
      (reports.remarks (uploadDriver_stands found).1 active rfl)
  | handled found active _ advanced =>
    obtain ⟨made, moves, still, light, remarks⟩ := advanced.light (by simp [weigh, finishes]) (by simp [weigh, clears])
      (fun _ => ⟨(uploadDriver_stands found).1, active, rfl⟩)
    exact .light moves still.steady light remarks
  | advanced found advanced =>
    obtain ⟨made, moves⟩ := advanced.moves
    have active := driven.turn books found moves (by simp [weigh, drives, Code.neutral])
    obtain ⟨made, moves, still, light, remarks⟩ := advanced.light (by simp [weigh, finishes]) (by simp [weigh, clears])
      (fun _ => ⟨(uploadDriver_stands found).1, active, rfl⟩)
    exact .light moves still.steady light remarks
  | concluded _ ends =>
    obtain ⟨made, moves, still, light, silent⟩ := ends.light (by simp [weigh, finishes]) (by simp [weigh, clears])
    exact .light moves still.steady light (remarks_none silent)
  | turned turns here moves updater updates _ tells =>
    exact .turned turns here moves updater updates tells
  | @announced env update step event _ _ moves still image effect tells =>
    have short : event.final = false := by
      unfold announcement at effect
      cases kind : step.effect <;> simp only [kind] at effect <;> cases effect <;> rfl
    refine .light moves still.steady ⟨rfl, ?_, by simp [weigh, clears], rfl⟩
      (tells.remarks (by rintro said rfl; exact short) (by simp [weigh, carries, Code.neutral]))
    have other : step.effect ≠ .finish := by
      intro finish
      rw [announcement, finish] at effect
      cases effect
    simp [weigh, finishes, other]
  | @queried _ _ step _ _ moves still _ asks =>
    refine .light moves still.steady ⟨by simp [weigh, carries], ?_, by simp [weigh, clears], by simp [weigh, clears]⟩
      (remarks_none (by simp))
    have other : step.effect ≠ .finish := by
      intro finish
      rw [queryOf, finish] at asks
      cases asks
    simp [weigh, finishes, other]
  | uploaded effect uploads =>
    obtain ⟨made, moves, still, light⟩ := uploads.light (by simp [weigh, finishes, effect]) (by simp [weigh, clears])
    have steady := still.steady
    exact .light (moves.framed rfl rfl) ⟨steady.updates, steady.running, steady.machine, steady.onEvent, steady.sources⟩
      light (remarks_none (by simp))
  | resumed effect resumes =>
    obtain ⟨made, moves, still, light⟩ := resumes.light (by simp [weigh, finishes, effect]) (by simp [weigh, clears])
    exact .light moves still.steady light (remarks_none (by simp))
  | finished effect moves updater updates _ tells =>
    exact .finished rfl effect moves updater updates tells
  | cleared moves updater updates => exact .cleared moves updater updates rfl
  | started idle _ reads moves updater updates =>
    exact .started rfl reads idle moves updater updates rfl
  | posted posts moves still =>
    refine .light moves still.steady ⟨by simp [weigh, carries], rfl, rfl, by simp [weigh, clears]⟩ (remarks_none ?_)
    cases posts <;> simp
  | cancelled _ moves still =>
    exact .light moves still.steady ⟨by simp [weigh, carries], rfl, rfl, by simp [weigh, clears]⟩
      (remarks_none (by simp))
  | polled finds moves updater updates =>
    refine .light moves ⟨updates, by rw [updater], by rw [updater], by rw [updater], by rw [updater]⟩ ⟨?_, rfl, rfl, ?_⟩
      (remarks_none (by simp)) <;> cases finds <;> simp [weigh, carries, clears]
  | uploadAsked uploads =>
    obtain ⟨made, moves, still, light⟩ := uploads.light rfl rfl
    exact .light moves still.steady light (remarks_none (by simp))
  | resumeAsked _ resumes =>
    obtain ⟨made, moves, still, light⟩ := resumes.light rfl rfl
    exact .light moves still.steady light (remarks_none (by simp))
  | cancelAsked _ _ _ moves still =>
    exact .light moves still.steady ⟨rfl, rfl, rfl, rfl⟩ (remarks_none (by simp))

end

/-- `finish` waits to run exactly while a running update has come to its end. -/
structure Updating (host : Host) : Prop where
  finishing : host.count finishes = if host.updater.running && isTerminal host.updater.state then 1 else 0
  stopped : host.updater.running = false → ∀ machine, host.updater.machine = some machine → isTerminal machine.state = true
  present : host.updater.running = true → host.updater.machine.isSome = true

section
variable {before after : Host} {event : Event} {output : Output}

theorem state_eq {host : Host} {machine : Dfu.Machine} (here : host.updater.machine = some machine) :
    host.updater.state = machine.state := by
  rw [FirmwareUpdater.state, here]

theorem Steady.state (steady : Steady before after) : after.updater.state = before.updater.state := by
  rw [FirmwareUpdater.state, FirmwareUpdater.state, steady.machine]

theorem Updating.turned (updating : before.Updating) (books : before.booked) {task : Task} {update : Nat}
    {event : Dfu.Event} {machine : Dfu.Machine} (turns : Turns before task update event)
    (here : before.updater.machine = some machine) (moves : Moves before after [.task task]
      [.task (.carry update (machine.apply { event with now := before.updater.lastPoll }).1)])
    (updater : after.updater = { before.updater with
      machine := some (machine.apply { event with now := before.updater.lastPoll }).2 }) : after.Updating := by
  generalize { event with now := before.updater.lastPoll } = stamped at moves updater
  have next : after.updater.machine = some (machine.apply stamped).2 := by rw [updater]
  have running : after.updater.running = before.updater.running := by rw [updater]
  have count := moves.count books finishes
  have none_ : weigh finishes (.task task) = false := by
    cases turns with
    | dispatch => rfl
    | «continue» _ _ goesOn => simp [weigh, finishes, goesOn]
  have finishing := updating.finishing
  rw [List.countP_singleton, List.countP_singleton, none_] at count
  rw [state_eq here] at finishing
  have made : weigh finishes (.task (.carry update (machine.apply stamped).1)) =
      decide ((machine.decided stamped).1.effect = .finish) := by
    simp [weigh, finishes, Code.neutral]
  rw [made] at count
  refine ⟨?_, ?_, fun _ => by rw [next]; rfl⟩
  · rw [state_eq next, Dfu.apply_state, running]
    rcases Dfu.decided_ends machine stamped with ⟨halted, same⟩ | ⟨live, ends⟩
    · simp [same, halted] at count finishing ⊢
      omega
    have runs : before.updater.running = true := by
      by_contra idle
      rw [updating.stopped (by simpa using idle) machine here] at live
      cases live
    rw [live, Bool.and_false, if_neg Bool.false_ne_true] at finishing
    rw [runs, Bool.true_and]
    by_cases final : (machine.decided stamped).1.effect = .finish
    · simp [final, ends.mp final] at count ⊢
      omega
    have open_ : isTerminal (machine.decided stamped).1.next = false := by
      by_contra over_
      exact final (ends.mpr (by simpa using over_))
    simp [final, open_] at count ⊢
    omega
  · intro idle other same
    rw [next] at same
    cases same
    rw [Dfu.apply_state]
    rw [running] at idle
    have halted := updating.stopped idle machine here
    rcases Dfu.decided_ends machine stamped with ⟨_, same⟩ | ⟨live, _⟩
    · rw [same]
      exact halted
    · rw [halted] at live
      cases live

theorem Beat.updating (beat : Beat before event output after) (updating : before.Updating) (books : before.booked) :
    after.Updating := by
  have finishing := updating.finishing
  cases beat with
  | @steady _ made moves steady uncarried =>
    have none_ : made.countP (weigh finishes) = 0 := by
      rw [List.countP_eq_zero] at uncarried ⊢
      intro code member meets
      refine uncarried code member ?_
      cases code with
      | task running => cases running <;> simp_all [weigh, finishes, carries, Code.neutral]
      | _ => simp [weigh, finishes] at meets
    have count := moves.count books finishes
    refine ⟨?_, ?_, ?_⟩
    · rw [steady.running, steady.state, ← finishing]
      omega
    · rw [steady.running, steady.machine]
      exact updating.stopped
    · rw [steady.running, steady.machine]
      exact updating.present
  | turned turns here moves updater => exact updating.turned books turns here moves updater
  | @finished _ update step _ effect moves updater =>
    have present := moves.present books finishes
    have count := moves.count books finishes
    have one : weigh finishes (.task (.carry update step)) = true := by simp [weigh, finishes, effect, Code.neutral]
    rw [List.countP_singleton, one, if_pos rfl] at present count
    have halted : before.updater.running = true ∧ isTerminal before.updater.state = true := by
      by_contra open_
      rw [if_neg (by simpa using open_)] at finishing
      omega
    refine ⟨?_, ?_, ?_⟩
    · rw [updater]
      simp [halted] at finishing
      simp [weigh, finishes] at count ⊢
      omega
    · intro _ machine here
      rw [updater] at here
      rw [← state_eq (show before.updater.machine = some machine from here)]
      exact halted.2
    · rw [updater]
      simp
  | cleared moves updater =>
    have count := moves.count books finishes
    refine ⟨?_, ?_, ?_⟩
    · rw [updater]
      simp [weigh, finishes] at count
      rw [count]
      exact finishing
    · rw [updater]
      exact updating.stopped
    · rw [updater]
      exact updating.present
  | started _ _ idle moves updater =>
    have count := moves.count books finishes
    rw [idle] at finishing
    refine ⟨?_, ?_, ?_⟩
    · rw [updater]
      simp [weigh, finishes] at count finishing
      rw [count, finishing]
      rfl
    · rw [updater]
      simp
    · rw [updater]
      exact fun _ => rfl

theorem new_updating (transport : Nat) (config : SmpClientConfig) : (new transport config).Updating := by
  have none_ : (new transport config).updater.machine = none := rfl
  have idle : (new transport config).updater.running = false := rfl
  refine ⟨new_count transport config finishes, ?_, ?_⟩
  · simp [none_]
  · simp [idle]

/-- What holds of every host in every run. -/
structure Grounded (host : Host) : Prop where
  books : host.booked
  driven : host.Driven
  updating : host.Updating

theorem Grounded.row {host : Host} (grounded : host.Grounded) (event : Event) :
    Row codec host event (host.step codec event).1 (host.step codec event).2 := step_row host event grounded.books

theorem Grounded.step {host : Host} (grounded : host.Grounded) (event : Event) :
    (host.step codec event).2.Grounded where
  books := step_booked host event grounded.books
  driven := (grounded.row event).driven grounded.driven grounded.books
  updating := ((grounded.row event).beat grounded.books grounded.driven).updating grounded.updating grounded.books

section
variable (codec : Codec) (transport : Nat) (config : SmpClientConfig) (events : List Event)

theorem reached_grounded :
    (reached codec transport config events).Grounded :=
  state_invariant (Host.step codec) (new transport config) Grounded
    ⟨new_booked transport config, reached_driven codec transport config [], new_updating transport config⟩
    (fun _ event grounded => grounded.step event) events

/-- In every interleaving one thing carries an active upload on, and none an inactive one; and `finish` is on its way
exactly once when a running update has ended. -/
theorem one_carrier_each :
    (∀ life, (reached codec transport config events).count (drives life) =
      if (reached codec transport config events).driving life then 1 else 0) ∧
    (reached codec transport config events).count finishes =
      if (reached codec transport config events).updater.running &&
        isTerminal (reached codec transport config events).updater.state then 1 else 0 :=
  have grounded := reached_grounded codec transport config events
  ⟨grounded.driven.tokens, grounded.updating.finishing⟩

end

end

end Smply.Host
