import Smply.Dfu.Sane
import Smply.Host.Cancel
import Smply.Host.Updates

namespace Smply.Host

open Systems
open Smp (RawResponse SmpClientConfig)

variable {codec : Codec}

inductive Hearing where
  | nobody
  | active (onProgress onDone : Option Owner)
  | suspended (onProgress : Option Owner)
  deriving DecidableEq

def UploadDriver.hearing (driver : UploadDriver) : Hearing :=
  if driver.active then .active driver.onProgress driver.onDone
  else if driver.resumable then .suspended driver.onProgress
  else .nobody

def hearing (host : Host) : Hearing :=
  match host.image.upload with
  | none => .nobody
  | some driver => driver.hearing

def Hearing.goesOn : Hearing → Bool
  | .active _ _ => true
  | _ => false

def Hearing.Over (onProgress : Option Owner) (hearing : Hearing) : Prop :=
  hearing = .nobody ∨ hearing = .suspended onProgress

inductive Pushes : Task → Origin → Prop
  | answer (callback life : Nat) (result : Result RawResponse) :
      Pushes (.answer callback (.driver life) result) (.reply callback)
  | advance (origin : Origin) (life : Nat) (step : Upload.Step) : Pushes (.advance origin life step) origin
  | conclude (origin : Origin) (life : Nat) (result : UploadResult) : Pushes (.conclude origin life result) origin

inductive Opens : Event → List Code → Option Owner → Prop
  | carried (env : Env) (update : Nat) (step : Dfu.Step)
      (effect : step.effect = .startUpload ∨ step.effect = .resumeUpload) :
      Opens (.proceed env) [.task (.carry update step)] (some (.updater update))
  | called (call : Call) (env : Env) (onDone : Option Owner) (mine : onDone.any Owner.isUpdater = false) :
      Opens (.call call env) [] onDone

def failing (life : Nat) (onDone : Option Owner) (outcome : Result UploadResult) : List Code :=
  (onDone.map fun owner => Code.job (.finished life owner outcome)).toList

def Progress (before : Host) (onProgress : Option Owner) (output : Output) : Prop :=
  (∀ listener update event, output = .emitted listener update event →
    before.updater.onEvent = some listener ∧ onProgress = some (.updater update)) ∧
  ∀ life owner result, output ≠ .finished life owner result

/-- Everything one event can do, by the code it takes and the code it leaves. -/
inductive Trade (codec : Codec) (before : Host) (event : Event) (output : Output) (after : Host) : Prop
  | aside {spent} (moves : Moves before after spent []) (steady : Steady before after)
      (hears : after.hearing = before.hearing) (inert : output.inert = true)
      (neutral : ∀ code ∈ spent, code.neutral = true)
  | dropped {task} (moves : Moves before after [.task task] []) (steady : Steady before after)
      (hears : after.hearing = before.hearing) (quiet : output = .quiet) (drops : Drops before task)
  | answering {callback reply result}
      (moves : Moves before after [.reply reply] [.task (.answer callback reply result)]) (steady : Steady before after)
      (hears : after.hearing = before.hearing) (quiet : output = .quiet)
      (found : before.replies[callback]? = some reply)
  | working {number job} (moves : Moves before after [.job job] [.task (.work number job)])
      (steady : Steady before after) (hears : after.hearing = before.hearing) (quiet : output = .quiet)
      (found : before.jobs[number]? = some job)
  | relayed {task origin update given} (moves : Moves before after [.task task] [.task (.dispatch origin update given)])
      (steady : Steady before after) (hears : after.hearing = before.hearing) (quiet : output = .quiet)
      (relays : Relays codec task origin update given)
  | told {number job life owner result} (speaks : Speaks before job life owner result)
      (moves : Moves before after [.task (.work number job)]
        (telling (.job number) owner (before.uploadEvent result))) (steady : Steady before after)
      (hears : after.hearing = before.hearing) (spoken : output = .finished life owner result)
  | reported {task next origin onProgress onDone} (pushes : Pushes task origin) (goesOn : Pushes next origin)
      (moves : Moves before after [.task task] [.task next]) (steady : Steady before after)
      (heard : before.hearing = .active onProgress onDone) (hears : after.hearing = .active onProgress onDone)
      (progress : Progress before onProgress output)
  | sent {task origin life onProgress onDone} (pushes : Pushes task origin)
      (moves : Moves before after [.task task] [.reply (.driver life)]) (steady : Steady before after)
      (heard : before.hearing = .active onProgress onDone) (hears : after.hearing = .active onProgress onDone)
      (quiet : output = .quiet)
  | ended {task origin life onProgress owner outcome} (pushes : Pushes task origin)
      (moves : Moves before after [.task task] (telling origin owner (after.uploadEvent outcome)))
      (steady : Steady before after) (heard : before.hearing = .active onProgress (some owner))
      (hears : after.hearing.Over onProgress) (spoken : output = .finished (some life) owner outcome)
  | unheard {task origin onProgress} (pushes : Pushes task origin) (moves : Moves before after [.task task] [])
      (steady : Steady before after) (heard : before.hearing = .active onProgress none)
      (hears : after.hearing.Over onProgress) (quiet : output = .quiet)
  | rejected {spent onDone error} (opens : Opens event spent onDone)
      (moves : Moves before after spent (rejecting onDone error)) (steady : Steady before after)
      (hears : after.hearing = before.hearing) (inert : output.inert = true)
  | begun {spent life onProgress onDone} (opens : Opens event spent onDone)
      (from_ : onProgress = onDone ∨ before.hearing = .suspended onProgress ∨ onProgress.any Owner.isUpdater = false)
      (moves : Moves before after spent [.reply (.driver life)]) (steady : Steady before after)
      (idle : before.hearing.goesOn = false) (hears : after.hearing = .active onProgress onDone)
      (inert : output.inert = true)
  | failed {spent life onProgress onDone outcome} (opens : Opens event spent onDone)
      (from_ : onProgress = onDone ∨ before.hearing = .suspended onProgress ∨ onProgress.any Owner.isUpdater = false)
      (moves : Moves before after spent (failing life onDone outcome)) (steady : Steady before after)
      (idle : before.hearing.goesOn = false) (hears : after.hearing.Over onProgress) (inert : output.inert = true)
  | turned {task update given machine} (turns : Turns before task update given)
      (here : before.updater.machine = some machine) (moves : Moves before after [.task task]
        [.task (.carry update (machine.apply { given with now := before.updater.lastPoll }).1)])
      (updater : after.updater = { before.updater with
        machine := some (machine.apply { given with now := before.updater.lastPoll }).2 })
      (updates : after.updates = before.updates) (hears : after.hearing = before.hearing)
      (tells : Tells before update (fun said => ∃ previous next, said = .stateChanged previous next) output)
  | announced {update step said} (moves : Moves before after [.task (.carry update step)] [])
      (steady : Steady before after) (hears : after.hearing = before.hearing)
      (effect : announcement before.updater.plan step = some said) (tells : Tells before update (· = said) output)
  | queried {update step query}
      (moves : Moves before after [.task (.carry update step)] [.reply (.updater update query)])
      (steady : Steady before after) (hears : after.hearing = before.hearing) (asks : queryOf step = some query)
      (quiet : output = .quiet)
  | finished {update step} (effect : step.effect = .finish)
      (moves : Moves before after [.task (.carry update step)] [.task .clear])
      (updater : after.updater = { before.updater with running := false }) (updates : after.updates = before.updates)
      (hears : after.hearing = before.hearing) (tells : output = match before.updater.onEvent with
        | none => .quiet
        | some listener => .emitted listener update (.finished before.updater.outcome))
  | cleared (moves : Moves before after [.task .clear] [])
      (updater : after.updater = { before.updater with onEvent := none, sources := [], upload := {} })
      (updates : after.updates = before.updates) (hears : after.hearing = before.hearing) (quiet : output = .quiet)
  | started {targets plan env} {read : List (Dfu.Target × Source × Option Source)}
      (called : event = .call (.start targets plan true) env)
      (accepted : output = .accepted) (idle : before.updater.running = false) (some_ : read ≠ [])
      (moves : Moves before after [] [.job (.post (before.updates + 1) { kind := .start })])
      (updater : after.updater = { before.updater with
        plan := plan, sources := read.map (·.2), onEvent := some (before.updates + 1)
        machine := some (.new (read.map (·.1)) plan.decisions), running := true })
      (updates : after.updates = before.updates + 1) (hears : after.hearing = before.hearing)
  | posted {call env given} (called : event = .call call env) (posts : Posts before call given output)
      (moves : Moves before after [] [.job (.post before.updates given)]) (steady : Steady before after)
      (hears : after.hearing = before.hearing)
  | cancelled {env} (called : event = .call .cancel env) (quiet : output = .quiet)
      (running : before.updater.running = true)
      (moves : Moves before after [] [.job (.post before.updates { kind := .cancel })]) (steady : Steady before after)
      (hears : after.hearing = before.hearing)
  | polled {now env due} (called : event = .call (.poll now) env) (quiet : output = .quiet) (finds : Due before due)
      (moves : Moves before after [] due) (steady : Steady before after) (hears : after.hearing = before.hearing)

section
variable {before after : Host} {event : Event} {output : Output}

section
variable {host : Host} {driver : UploadDriver} (stands : host.image.upload = some driver)
include stands

theorem hearing_of : host.hearing = driver.hearing := by
  rw [hearing, stands]

theorem hearing_active (active : driver.active = true) : host.hearing = .active driver.onProgress driver.onDone := by
  rw [hearing_of stands, UploadDriver.hearing, if_pos active]

end

theorem hearing_kept (image : after.image = before.image) : after.hearing = before.hearing := by
  rw [hearing, hearing, image]

theorem hearing_over {driver : UploadDriver} (stands : after.image.upload = some driver)
    (idle : driver.active = false) :
    after.hearing.Over driver.onProgress := by
  rw [hearing_of stands, UploadDriver.hearing, if_neg (by simp [idle])]
  split
  · exact .inr rfl
  · exact .inl rfl

theorem Reports.progress {driver : UploadDriver} (reports : Reports before driver output) :
    Progress before driver.onProgress output := by
  refine ⟨?_, fun life owner result => reports.unsaid life owner result⟩
  unfold Reports at reports
  intro listener update event emitted
  cases asked : driver.onProgress with
  | none => simp [asked, emitted] at reports
  | some owner =>
    cases owner with
    | application => simp [asked, emitted] at reports
    | updater =>
      rw [asked] at reports
      rcases reports with quiet | ⟨_, said, given, rfl, same⟩
      · rw [quiet] at emitted
        cases emitted
      rw [same] at emitted
      cases emitted
      exact ⟨given, rfl⟩

theorem Ends.trade {driver old : UploadDriver} {origin : Origin} {outcome : Result UploadResult} {task : Task}
    {result : Output × Host} (ends : Ends before before.image driver (some origin) outcome [.task task] result)
    (pushes : Pushes task origin) (stands : before.image.upload = some old) (active : old.active = true)
    (goesOn : driver.active = true) (progress : driver.onProgress = old.onProgress)
    (done : driver.onDone = old.onDone) : Trade codec before event result.1 result.2 := by
  have heard := hearing_active stands active
  rw [← progress, ← done] at heard
  cases ends with
  | inactive idle => exact absurd (goesOn.symm.trans idle) (by simp)
  | @unheard after _ nobody moves still image =>
    rw [nobody] at heard
    exact .unheard pushes moves still.steady heard
      (@hearing_over after { driver with active := false, onDone := none } (by rw [image]) rfl) rfl
  | queued _ _ starting => cases starting
  | @told owner _ after _ given goes moves still image =>
    cases goes
    rw [given] at heard
    exact .ended pushes moves still.steady heard
      (@hearing_over after { driver with active := false, onDone := none } (by rw [image]) rfl) rfl

theorem Advanced.trade {driver old : UploadDriver} {origin : Origin} {step : Upload.Step} {task : Task}
    {result : Output × Host} (advanced : Advanced before before.image driver (some origin) step [.task task] result)
    (pushes : Pushes task origin) (stands : before.image.upload = some old) (active : old.active = true)
    (goesOn : driver.active = true) (progress : driver.onProgress = old.onProgress)
    (done : driver.onDone = old.onDone) : Trade codec before event result.1 result.2 := by
  have heard := hearing_active stands active
  rw [← progress, ← done] at heard
  cases advanced with
  | @sent request handle after _ moves still image =>
    exact .sent pushes moves still.steady heard (@hearing_active after
        { driver with state := Upload.recordSent driver.state request, request := handle } (by rw [image]) goesOn) rfl
  | ended _ _ ends => exact ends.trade pushes stands active goesOn progress done
  | @reported _ result _ after goes _ moves still image reports =>
    cases goes
    exact .reported pushes (.conclude origin driver.life result) moves still.steady heard
      (@hearing_active after { driver with reportedOff := driver.state.confirmedOff } (by rw [image]) goesOn)
      reports.progress

theorem Advanced.opening {base : ImageManagement} {driver : UploadDriver} {step : Upload.Step} {spent : List Code}
    {onDone : Option Owner} {result : Output × Host} {final : Host}
    (advanced : Advanced before base driver none step spent result) (opens : Opens event spent onDone)
    (from_ : driver.onProgress = onDone ∨ before.hearing = .suspended driver.onProgress ∨
      driver.onProgress.any Owner.isUpdater = false)
    (idle : before.hearing.goesOn = false) (goesOn : driver.active = true) (done : driver.onDone = onDone)
    (books : (result.2.world, result.2.replies, result.2.jobs, result.2.tasks) =
      (final.world, final.replies, final.jobs, final.tasks))
    (image : final.image = result.2.image) (steady : Still before result.2 → Steady before final)
    (inert : output.inert = true) : Trade codec before event output final := by
  cases advanced with
  | @sent request handle _ _ moves still kept =>
    have hears := @hearing_active final
      { driver with state := Upload.recordSent driver.state request, request := handle } (by rw [image, kept]) goesOn
    exact .begun opens from_ (moves.framed rfl books) (steady still) idle
      (done ▸ hears) inert
  | reported goes => cases goes
  | @ended outcome result failed ends =>
    have closing {made : List Code} (same : made = failing driver.life onDone outcome)
        (moves : Moves before result.2 spent made) (still : Still before result.2)
        (kept : result.2.image = { base with upload := some { driver with active := false, onDone := none } }) :
        Trade codec before event output final := by
      have hears := @hearing_over final { driver with active := false, onDone := none } (by rw [image, kept]) rfl
      rw [same] at moves
      exact .failed opens from_ (moves.framed rfl books)
        (steady still) idle hears inert
    cases ends with
    | inactive quiet => exact absurd (goesOn.symm.trans quiet) (by simp)
    | unheard _ nobody moves still kept => exact closing (by rw [← done, nobody]; rfl) moves still kept
    | queued _ given _ moves still kept => exact closing (by rw [← done, given]; rfl) moves still kept
    | told _ _ goes => cases goes

theorem Uploads.trade {onProgress onDone : Option Owner} {spent : List Code} {result : UploadHandle × Host}
    {final : Host} (uploads : Uploads before onProgress onDone spent result) (opens : Opens event spent onDone)
    (from_ : onProgress = onDone ∨ onProgress.any Owner.isUpdater = false)
    (books : (result.2.world, result.2.replies, result.2.jobs, result.2.tasks) =
      (final.world, final.replies, final.jobs, final.tasks))
    (image : final.image = result.2.image) (steady : Still before result.2 → Steady before final)
    (inert : output.inert = true) : Trade codec before event output final := by
  cases uploads with
  | refused moves still kept =>
    exact .rejected opens (moves.framed rfl books) (steady still) (hearing_kept (image.trans kept))
      inert
  | begun idle life generation progress done active fresh advanced =>
    refine advanced.opening opens ?_ ?_ active done books image steady inert
    · rw [progress]
      exact from_.imp_right .inr
    unfold uploadActive at idle
    unfold hearing
    cases stands : before.image.upload with
    | none => rfl
    | some old =>
      rw [stands, Option.any_some] at idle
      show old.hearing.goesOn = false
      unfold UploadDriver.hearing
      rw [if_neg (by simp [idle])]
      split <;> rfl

theorem Resumes.trade {handle : UploadHandle} {onDone : Option Owner} {spent : List Code}
    {result : UploadHandle × Host} (resumes : Resumes before handle onDone spent result) (driven : before.Driven)
    (opens : Opens event spent onDone) (inert : output.inert = true) : Trade codec before event output result.2 := by
  cases resumes with
  | refused moves still image =>
    exact .rejected opens moves still.steady (hearing_kept image) inert
  | @begun old said after found suspended advanced =>
    have stands := uploadOf_stands found
    have idle : old.active = false := by
      by_contra active
      rw [driven.running old stands (by simpa using active)] at suspended
      cases suspended
    have heard : before.hearing = .suspended old.onProgress := by
      rw [hearing_of stands, UploadDriver.hearing, if_neg (by simp [idle]), if_pos suspended]
    exact advanced.opening opens (.inr (.inl heard)) (by rw [heard]; rfl) rfl rfl rfl rfl Still.steady inert

theorem readTargets_some {env : Env} {targets : List ImageTarget} {plan : Plan}
    {read : List (Dfu.Target × Source × Option Source)} (valid : validate targets plan = .ok ())
    (reads : targets.mapM (readTarget env) = .ok read) : read ≠ [] := by
  rintro rfl
  have none_ : targets = [] := by simpa using (readTargets_files reads).symm
  rw [none_] at valid
  cases valid

theorem Row.trade (row : Row codec before event output after) (books : before.booked) (driven : before.Driven) :
    Trade codec before event output after := by
  have given_mine (callback : Bool) : (given callback).any Owner.isUpdater = false := by
    cases callback <;> rfl
  cases row with
  | idle moves still image inert => exact .aside moves still.steady (hearing_kept image) inert (by simp)
  | returned moves still image neutral =>
    exact .aside moves still.steady (hearing_kept image) rfl (by simpa using neutral)
  | dropped moves still image drops => exact .dropped moves still.steady (hearing_kept image) rfl drops
  | answering moves still image found =>
    exact .answering moves still.steady (hearing_kept image) rfl found
  | working moves still image found =>
    exact .working moves still.steady (hearing_kept image) rfl found
  | relayed moves still image relays =>
    exact .relayed moves still.steady (hearing_kept image) rfl relays
  | told speaks moves still image =>
    exact .told speaks moves still.steady (hearing_kept image) rfl
  | @paused _ callback life result driver request state _ _ found active _ moves still image reports =>
    obtain ⟨stands, own⟩ := uploadDriver_stands found
    exact .reported (.answer callback life result)
      (.advance _ life _) moves still.steady (hearing_active stands active)
      (@hearing_active after { driver with request := {}, state := state, reportedOff := state.confirmedOff }
        (by rw [image]) active) reports.progress
  | @handled _ callback life result _ _ _ _ _ found active _ advanced =>
    exact advanced.trade (.answer callback life result) (uploadDriver_stands found).1 active active rfl rfl
  | @advanced _ origin life step _ _ _ found advanced =>
    obtain ⟨made, moves⟩ := advanced.moves
    have active := driven.turn books found moves (by simp [weigh, drives, Code.neutral])
    exact advanced.trade (.advance origin life step) (uploadDriver_stands found).1 active active rfl rfl
  | @concluded _ origin life result _ _ _ found ends =>
    obtain ⟨made, moves⟩ := ends.moves
    have active := driven.turn books found moves (by simp [weigh, drives, Code.neutral])
    exact ends.trade (.conclude origin life result) (uploadDriver_stands found).1 active active rfl rfl
  | turned turns here moves updater updates image tells =>
    exact .turned turns here moves updater updates (hearing_kept image) tells
  | announced moves still image effect tells =>
    exact .announced moves still.steady (hearing_kept image) effect tells
  | queried moves still image asks =>
    exact .queried moves still.steady (hearing_kept image) asks rfl
  | @uploaded env update step _ _ effect uploads =>
    refine uploads.trade (.carried env update step (.inl effect)) (.inl rfl) rfl rfl (fun still => ?_) rfl
    have steady := still.steady
    exact ⟨steady.updates, steady.running, steady.machine, steady.onEvent, steady.sources⟩
  | @resumed env update step _ _ effect resumes =>
    exact resumes.trade driven (.carried env update step (.inr effect)) rfl
  | finished effect moves updater updates image tells =>
    exact .finished effect moves updater updates (hearing_kept image) tells
  | cleared moves updater updates image => exact .cleared moves updater updates (hearing_kept image) rfl
  | started idle valid reads moves updater updates image =>
    exact .started rfl rfl idle (readTargets_some valid reads) moves updater updates
      (hearing_kept image)
  | posted posts moves still image =>
    exact .posted rfl posts moves still.steady (hearing_kept image)
  | cancelled running moves still image =>
    refine .cancelled rfl rfl running moves still.steady ?_
    rcases image with image | ⟨driver, found, active, image⟩
    · exact hearing_kept image
    · rw [hearing_of (uploadOf_stands found), @hearing_of after { driver with request := {} } (by rw [image])]
      rfl
  | polled finds moves updater updates image =>
    exact .polled rfl rfl finds moves
      ⟨updates, by rw [updater], by rw [updater], by rw [updater], by rw [updater]⟩ (hearing_kept image)
  | @uploadAsked _ _ onProgress onDone env _ _ uploads =>
    exact uploads.trade (.called _ env _ (given_mine onDone)) (.inr (given_mine onProgress)) rfl rfl Still.steady rfl
  | @resumeAsked _ onDone env _ _ _ resumes => exact resumes.trade driven (.called _ env _ (given_mine onDone)) rfl
  | @cancelAsked _ _ driver _ _ found _ moves still image =>
    refine .aside moves still.steady ?_ rfl (by simp)
    rw [hearing_of (uploadOf_stands found), @hearing_of after { driver with request := {} } (by rw [image])]
    rfl

def Minded (host : Host) : Prop :=
  ∀ machine, host.updater.machine = some machine → Dfu.Sane machine ∧ Dfu.Blameless machine

theorem Trade.minded (trade : Trade codec before event output after) (minded : before.Minded) : after.Minded := by
  have kept (same : after.updater.machine = before.updater.machine) : after.Minded := by
    rw [Minded, same]
    exact minded
  cases trade with
  | @turned _ _ _ machine _ here _ updater =>
    intro next same
    rw [updater] at same
    cases same
    obtain ⟨sane, blameless⟩ := minded machine here
    exact ⟨Dfu.apply_sane sane _, Dfu.apply_blameless blameless _⟩
  | started _ _ _ some_ _ updater =>
    intro next same
    rw [updater] at same
    cases same
    exact ⟨Dfu.new_sane _ (by simpa using some_), Dfu.new_blameless _ _⟩
  | finished _ _ updater | cleared _ updater => exact kept (by rw [updater])
  | _ => exact kept (Steady.machine ‹_›)

theorem Trade.updates_le (trade : Trade codec before event output after) : before.updates ≤ after.updates := by
  cases trade with
  | turned _ _ _ _ updates | finished _ _ _ updates | cleared _ _ updates =>
    exact Nat.le_of_eq updates.symm
  | started => omega
  | _ => exact Nat.le_of_eq (Steady.updates ‹_›).symm

end

theorem Grounded.trade {host : Host} (grounded : host.Grounded) (event : Event) :
    Trade codec host event (host.step codec event).1 (host.step codec event).2 :=
  (grounded.row event).trade grounded.books grounded.driven

section
variable (codec : Codec) (transport : Nat) (config : SmpClientConfig) (events : List Event)

theorem reached_minded :
    (reached codec transport config events).Minded := by
  refine history_invariant_with (step codec) (new transport config) (fun _ host => host.Grounded)
    (fun _ host => host.Minded) (reached_grounded codec transport config) ?_ ?_ events
  · have none_ : (new transport config).updater.machine = none := rfl
    simp [Minded, none_]
  · intro past host event grounded minded
    exact (grounded.trade event).minded minded

/-- Whatever calls and answers come, the machine has an image to work on: of the checks `apply` makes only the one for a
missing slot table can fail. -/
theorem checks_find_targets
    (event : Dfu.Event) : (reached codec transport config events).updater.machine.map (·.decided event) =
      (reached codec transport config events).updater.machine.map fun machine =>
        if Dfu.isTerminal machine.state || !Dfu.carriesTable event.kind || event.state.isSome then
          machine.context.decide machine.state event machine.plan
        else machine.context.failAt .internal "dfu: answer without a slot table" := by
  have minded := reached_minded codec transport config events
  cases here : (reached codec transport config events).updater.machine with
  | none => rfl
  | some machine =>
    obtain ⟨sane, _⟩ := minded machine here
    have inside := fun needs => sane.placed.inside (.inl needs)
    rw [Option.map_some, Option.map_some, Dfu.decided_eq sane]
    cases needs : Dfu.needsCurrent machine.state <;> simp_all [Dfu.Machine.guardedDecide, sane.whole, or_assoc]

end

end Smply.Host
