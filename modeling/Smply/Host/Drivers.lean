import Smply.Host.Rows

namespace Smply.Host

open Systems Code UploadDriver
open Smp (World RawResponse SmpClientConfig)

variable {spent made : List Code} {before after : Host} {result : UploadHandle × Host} {onDone : Option Owner}
  {driver : UploadDriver} {handle : UploadHandle} {task : Task} {codec : Codec}

section
variable {before : Host} {base : ImageManagement} {driver : UploadDriver} {origin : Option Origin}

theorem Ends.moves {outcome : Result UploadResult} {result : Output × Host}
    (ends : Ends before base driver origin outcome spent result) : ∃ made, Moves before result.2 spent made := by
  cases ends <;> exact ⟨_, by assumption⟩

theorem Advanced.moves {step : Upload.Step} {result : Output × Host}
    (advanced : Advanced before base driver origin step spent result) : ∃ made, Moves before result.2 spent made := by
  cases advanced with
  | ended _ _ ends => exact ends.moves
  | _ => exact ⟨_, by assumption⟩

end

theorem Uploads.moves {onProgress : Option Owner} (uploads : Uploads before onProgress onDone spent result) :
    ∃ made, Moves before result.2 spent made := by
  cases uploads with
  | refused moves => exact ⟨_, moves⟩
  | begun _ _ _ _ _ _ _ advanced => exact advanced.moves

theorem Resumes.moves (resumes : Resumes before handle onDone spent result) :
    ∃ made, Moves before result.2 spent made := by
  cases resumes with
  | refused moves => exact ⟨_, moves⟩
  | begun _ _ advanced => exact advanced.moves

theorem Row.moves {event : Event} {output : Output} (row : Row codec before event output after) :
    ∃ spent made, Moves before after spent made := by
  cases row with
  | handled _ _ _ advanced | advanced _ advanced => exact ⟨_, advanced.moves⟩
  | concluded _ ends => exact ⟨_, ends.moves⟩
  | uploaded _ uploads =>
    obtain ⟨made, moves⟩ := uploads.moves
    exact ⟨_, made, moves.framed rfl rfl⟩
  | resumed _ resumes | resumeAsked _ resumes => exact ⟨_, resumes.moves⟩
  | uploadAsked uploads => exact ⟨_, uploads.moves⟩
  | _ => exact ⟨_, _, by assumption⟩

theorem new_booked (transport : Nat) (config : SmpClientConfig) : (new transport config).booked where
  sound := World.start_sound transport config
  numbered := rfl
  held callback := by
    rw [show (new transport config).world = World.start transport config from rfl, World.start_entries]
    exact Nat.zero_le _
  works work _ := rfl

theorem step_booked (before : Host) (event : Event) (books : before.booked) : (before.step codec event).2.booked := by
  obtain ⟨spent, made, moves⟩ := (@step_row codec before event books).moves
  exact moves.booked books

section
variable (codec : Codec) (transport : Nat) (config : SmpClientConfig)

def reached (events : List Event) : Host := run (step codec) (new transport config) events

def history (events : List Event) : List (Transition Host Event Output) :=
  log (step codec) (new transport config) events

theorem reached_booked (events : List Event) : (reached codec transport config events).booked :=
  state_invariant (step codec) (new transport config) booked (new_booked transport config)
    (fun state event => step_booked state event) events

end

def drives (life : Nat) : Code → Bool
  | .reply (.driver other) => decide (other = life)
  | .task (.answer _ (.driver other) _) => decide (other = life)
  | .task (.advance _ other _) => decide (other = life)
  | .task (.conclude _ other _) => decide (other = life)
  | _ => false

def closes (life : Nat) : Code → Bool
  | .job (.finished other _ _) => decide (other = life)
  | .task (.work _ (.finished other _ _)) => decide (other = life)
  | _ => false

def driving (host : Host) (life : Nat) : Bool := (host.uploadDriver life).any fun driver => driver.active

/-- One thing keeps an active upload going and nothing an inactive one; one that failed before its first request stays
so. -/
structure Driven (host : Host) : Prop where
  tokens : ∀ life, host.count (drives life) = if host.driving life then 1 else 0
  running : ∀ driver, host.image.upload = some driver → driver.active = true → driver.resumable = false
  known : ∀ driver, host.image.upload = some driver → driver.life ≤ host.image.lives
  closed : ∀ life, host.count (closes life) ≠ 0 → life ≤ host.image.lives ∧
    ∀ driver, host.uploadDriver life = some driver → driver.active = false ∧ driver.resumable = false

section
variable {host : Host} {driver : UploadDriver}

theorem uploadDriver_eq (stands : host.image.upload = some driver) (life : Nat) :
    host.uploadDriver life = if driver.life = life then some driver else none := by
  simp [uploadDriver, stands, Option.filter]

theorem driving_eq (stands : host.image.upload = some driver) (life : Nat) :
    host.driving life = (decide (driver.life = life) && driver.active) := by
  rw [driving, uploadDriver_eq stands]
  by_cases same : driver.life = life <;> simp [same]

theorem uploadDriver_stands {life : Nat}
    (found : host.uploadDriver life = some driver) : host.image.upload = some driver ∧ driver.life = life := by
  obtain ⟨stands, same⟩ := Option.filter_eq_some_iff.mp found
  exact ⟨stands, by simpa using same⟩

theorem uploadOf_stands (found : host.uploadOf handle = some driver) : host.image.upload = some driver :=
  (Option.filter_eq_some_iff.mp found).1

end

theorem telling_light (origin : Origin) (owner : Owner) (event : Dfu.Event) (p : Code → Bool)
    (light : ∀ origin update event, p (.task (.dispatch origin update event)) = false) :
    (telling origin owner event).countP (weigh p) = 0 := by
  cases owner with
  | application => rfl
  | updater => simp [telling, weigh, light]

theorem Driven.kept (driven : before.Driven) (books : before.booked)
    (moves : Moves before after spent made) (image : after.image = before.image)
    (drive : ∀ life, made.countP (weigh (drives life)) = spent.countP (weigh (drives life)))
    (close : ∀ life, made.countP (weigh (closes life)) ≤ spent.countP (weigh (closes life))) : after.Driven := by
  have same (life : Nat) : after.uploadDriver life = before.uploadDriver life := by rw [uploadDriver, uploadDriver, image]
  constructor
  · intro life
    have count := moves.count books (drives life)
    rw [drive life] at count
    rw [driving, same]
    exact (Nat.add_right_cancel count).trans (driven.tokens life)
  · rw [image]
    exact driven.running
  · rw [image]
    exact driven.known
  · intro life some_
    have count := moves.count books (closes life)
    have less := close life
    rw [image, same]
    exact driven.closed life (by omega)

theorem Driven.released (driven : before.Driven)
    (books : before.booked) (moves : Moves before after [] made) (stands : before.image.upload = some driver)
    (image : after.image = { before.image with upload := some { driver with request := {} } })
    (drive : ∀ life, made.countP (weigh (drives life)) = 0) (close : ∀ life, made.countP (weigh (closes life)) = 0) :
    after.Driven := by
  have kept : Driven { after with image := before.image } :=
    driven.kept books (moves.framed rfl rfl) rfl drive (fun life => by rw [close life]; exact Nat.zero_le _)
  have now : after.image.upload = some { driver with request := {} } := by rw [image]
  have same : Host.uploadDriver { after with image := before.image } = before.uploadDriver := rfl
  constructor
  · intro life
    have token := kept.tokens life
    rwa [@driving_eq { after with image := before.image } driver stands, ← driving_eq now] at token
  · intro other found active
    rw [now] at found
    cases found
    exact driven.running driver stands active
  · intro other found
    rw [now] at found
    cases found
    rw [image]
    exact driven.known driver stands
  · intro life some_
    obtain ⟨bound, over_⟩ := kept.closed life some_
    rw [image]
    refine ⟨bound, fun other found => ?_⟩
    obtain ⟨found, own⟩ := uploadDriver_stands found
    rw [now] at found
    cases found
    exact over_ driver (by rw [same, uploadDriver_eq stands, if_pos own])

structure Lone (before : Host) (base : ImageManagement) (driver : UploadDriver) (spent : List Code) : Prop where
  books : before.booked
  active : driver.active = true
  alone : ∀ life, before.count (drives life) = spent.countP (weigh (drives life))
  known : driver.life ≤ base.lives
  unclosed : before.count (closes driver.life) = 0
  closed : ∀ life, before.count (closes life) ≠ 0 → life ≤ base.lives
  opens : ∀ life, spent.countP (weigh (closes life)) = 0

theorem Lone.driven {base : ImageManagement} {next : UploadDriver} (lone : Lone before base driver spent)
    (moves : Moves before after spent made)
    (image : after.image = { base with upload := some next }) (same : next.life = driver.life)
    (tokens : ∀ life, made.countP (weigh (drives life)) = if decide (driver.life = life) && next.active then 1 else 0)
    (running : next.active = true → next.resumable = false)
    (closing : ∀ life, made.countP (weigh (closes life)) ≠ 0 →
      driver.life = life ∧ next.active = false ∧ next.resumable = false) : after.Driven := by
  have stands : after.image.upload = some next := by rw [image]
  constructor
  · intro life
    have count := moves.count lone.books (drives life)
    rw [driving_eq stands, same, ← tokens life]
    have alone := lone.alone life
    omega
  · intro other found active
    rw [stands] at found
    cases found
    exact running active
  · intro other found
    rw [stands] at found
    cases found
    rw [image, same]
    exact lone.known
  · intro life some_
    have count := moves.count lone.books (closes life)
    rw [lone.opens, Nat.add_zero] at count
    rw [image]
    by_cases new : made.countP (weigh (closes life)) = 0
    · rw [new, Nat.add_zero] at count
      rw [count] at some_
      refine ⟨lone.closed life some_, ?_⟩
      intro other found
      obtain ⟨_, own⟩ := uploadDriver_stands found
      rw [uploadDriver_eq stands, same] at found
      split at found
      · rename_i here
        rw [← here] at some_
        exact absurd lone.unclosed some_
      · cases found
    · obtain ⟨rfl, idle, over_⟩ := closing life new
      refine ⟨lone.known, ?_⟩
      intro other found
      obtain ⟨found, _⟩ := uploadDriver_stands found
      rw [stands] at found
      cases found
      exact ⟨idle, over_⟩

section
variable {before : Host} {base : ImageManagement} {driver : UploadDriver} {origin : Option Origin}

theorem Ends.driven {outcome : Result UploadResult} {result : Output × Host}
    (ends : Ends before base driver origin outcome spent result) (lone : Lone before base driver spent)
    (starting : origin = none → driver.resumable = false) : result.2.Driven := by
  cases ends with
  | inactive idle => exact absurd (idle.symm.trans lone.active) (by simp)
  | unheard _ _ moves _ image => exact lone.driven moves image rfl (by simp) (by simp) (by simp)
  | queued _ _ goes moves _ image =>
    refine lone.driven moves image rfl (by simp [weigh, drives]) (by simp) ?_
    intro life closes_
    refine ⟨?_, rfl, starting goes⟩
    simpa [weigh, closes, neutral] using closes_
  | told _ _ _ moves _ image =>
    refine lone.driven moves image rfl ?_ (by simp) ?_
    · intro life
      rw [telling_light _ _ _ _ fun _ _ _ => rfl]
      simp
    intro life closes_
    rw [telling_light _ _ _ _ fun _ _ _ => rfl] at closes_
    exact absurd rfl closes_

theorem Advanced.driven {step : Upload.Step} {result : Output × Host}
    (advanced : Advanced before base driver origin step spent result) (lone : Lone before base driver spent)
    (starting : origin = none → driver.resumable = false)
    (completes : ∀ match_ first, step = .complete match_ first → driver.resumable = false) : result.2.Driven := by
  cases advanced with
  | sent _ moves _ image =>
    refine lone.driven moves image rfl ?_ (fun _ => rfl) (by simp [weigh, closes])
    intro life
    simp [weigh, drives, neutral, lone.active]
  | ended _ _ ends => exact ends.driven lone starting
  | reported _ complete moves _ image =>
    obtain ⟨match_, first, rfl⟩ := complete
    refine lone.driven moves image rfl ?_ (fun _ => completes match_ first rfl) (by simp [weigh, closes])
    intro life
    simp [weigh, drives, neutral, lone.active]

end

theorem rejecting_light (onDone : Option Owner) (error : Error) (p : Code → Bool)
    (light : ∀ owner error, p (.job (.rejected owner error)) = false) :
    (rejecting onDone error).countP (weigh p) = 0 := by
  cases onDone with
  | none => rfl
  | some => simp [rejecting, weigh, light]

def Aside (spent : List Code) : Prop :=
  ∀ life, spent.countP (weigh (drives life)) = 0 ∧ spent.countP (weigh (closes life)) = 0

theorem Driven.rejected {error : Error} (driven : before.Driven) (books : before.booked) (aside : Aside spent)
    (moves : Moves before after spent (rejecting onDone error)) (image : after.image = before.image) :
    after.Driven := by
  refine driven.kept books moves image (fun life => ?_) (fun life => ?_)
  · rw [rejecting_light _ _ _ fun _ _ => rfl, (aside life).1]
  · rw [rejecting_light _ _ _ fun _ _ => rfl]
    exact Nat.zero_le _

theorem Uploads.driven {onProgress : Option Owner} (uploads : Uploads before onProgress onDone spent result)
    (driven : before.Driven) (books : before.booked) (aside : Aside spent) : result.2.Driven := by
  cases uploads with
  | refused moves _ image => exact driven.rejected books aside moves image
  | @begun driver _ _ idle life generation _ _ active fresh advanced =>
    have unsuspended : driver.resumable = false := by rw [resumable, fresh]; rfl
    have lone : Lone before ⟨some driver, driver.generation, driver.life⟩ driver spent := by
      refine ⟨books, active, fun other => ?_, Nat.le_refl _, ?_, fun other some_ => ?_, fun other => (aside other).2⟩
      · have quiet : before.driving other = false := by
          unfold uploadActive at idle
          unfold driving uploadDriver
          cases stands : before.image.upload with
          | none => rfl
          | some old =>
            rw [stands, Option.any_some] at idle
            by_cases same : old.life = other <;> simp [Option.filter, same, idle]
        rw [driven.tokens, quiet, (aside other).1]
        rfl
      · by_contra some_
        have old := (driven.closed _ some_).1
        omega
      · have old := (driven.closed other some_).1
        show other ≤ driver.life
        omega
    exact advanced.driven lone (fun _ => unsuspended) (fun _ _ _ => unsuspended)

theorem Resumes.driven (resumes : Resumes before handle onDone spent result) (driven : before.Driven)
    (books : before.booked) (aside : Aside spent) : result.2.Driven := by
  cases resumes with
  | refused moves _ image => exact driven.rejected books aside moves image
  | @begun old _ _ found suspended advanced =>
    have stands := uploadOf_stands found
    have idle : old.active = false := by
      by_contra active
      rw [driven.running old stands (by simpa using active)] at suspended
      cases suspended
    have goesOn : (Upload.resume old.config old.state).2.phase = .idle := by
      have phase : old.state.phase = .suspended := by simpa [resumable] using suspended
      simp [Upload.resume, phase]
    have unsuspended : ({ old with
        onDone := onDone, active := true, state := (Upload.resume old.config old.state).2 } : UploadDriver).resumable =
          false := by
      rw [resumable, goesOn]
      rfl
    have lone : Lone before before.image { old with
        onDone := onDone, active := true, state := (Upload.resume old.config old.state).2 } spent := by
      refine ⟨books, rfl, fun life => ?_, driven.known old stands, ?_, fun life some_ => (driven.closed life some_).1,
        fun life => (aside life).2⟩
      · rw [driven.tokens, driving_eq stands, idle, Bool.and_false, (aside life).1]
        rfl
      by_contra some_
      have over_ := (driven.closed _ some_).2 old (by rw [uploadDriver_eq stands, if_pos rfl])
      rw [over_.2] at suspended
      cases suspended
    exact advanced.driven lone (fun _ => unsuspended) (fun _ _ _ => unsuspended)

section
variable (driven : before.Driven) (books : before.booked)
include driven books

theorem Driven.lone (stands : before.image.upload = some driver) (active : driver.active = true) (task : Task)
    (next : UploadDriver) (goesOn : next.active = true) (same : next.life = driver.life)
    (token : ∀ life, weigh (drives life) (.task task) = decide (driver.life = life))
    (opens : ∀ life, weigh (closes life) (.task task) = false) : Lone before before.image next [.task task] := by
  refine ⟨books, goesOn, fun life => ?_, same ▸ driven.known driver stands, ?_,
    fun life some_ => (driven.closed life some_).1, fun life => ?_⟩
  · rw [driven.tokens, driving_eq stands, active, Bool.and_true, List.countP_singleton, token]
  · by_contra some_
    have over_ := (driven.closed _ some_).2 driver (by rw [uploadDriver_eq stands, if_pos same.symm])
    rw [over_.1] at active
    cases active
  · rw [List.countP_singleton, opens]
    rfl

theorem Driven.turn {life : Nat} (found : before.uploadDriver life = some driver)
    (moves : Moves before after [.task task] made) (token : weigh (drives life) (.task task) = true) :
    driver.active = true := by
  obtain ⟨stands, own⟩ := uploadDriver_stands found
  have present := moves.present books (drives life)
  rw [List.countP_singleton, token, if_pos rfl, driven.tokens, driving_eq stands, own] at present
  by_contra idle
  simp [idle] at present

theorem Driven.gone {life : Nat} (moves : Moves before after [.task task] made)
    (token : weigh (drives life) (.task task) = true)
    (gone : ∀ driver, before.uploadDriver life = some driver → driver.active = false) : False := by
  have present := moves.present books (drives life)
  have quiet : before.driving life = false := by
    unfold driving
    cases found : before.uploadDriver life with
    | none => rfl
    | some driver => exact gone driver found
  rw [List.countP_singleton, token, if_pos rfl, driven.tokens, quiet] at present
  simp at present

theorem Driven.dropped (moves : Moves before after [.task task] []) (image : after.image = before.image)
    (drops : Drops before task) : after.Driven := by
  have none_ {life : Nat} (gone : before.uploadDriver life = none) (driver : UploadDriver)
      (found : before.uploadDriver life = some driver) : driver.active = false := by
    rw [gone] at found
    cases found
  cases drops with
  | stale _ _ _ gone => exact (driven.gone books moves (by simp [weigh, drives, neutral]) gone).elim
  | advance _ _ _ gone | conclude _ _ _ gone =>
    exact (driven.gone books moves (by simp [weigh, drives, neutral]) (none_ gone)).elim
  | _ => exact driven.kept books moves image (fun _ => by simp [weigh, drives]) (fun _ => Nat.zero_le _)

end

theorem answered_unsuspended {config : Upload.UploadConfig Bytes} {state after : Upload.UploadState}
    {response : Upload.UploadResponse} {step : Upload.Step}
    (answered : Upload.onResponse config state response = (step, after)) (phase : state.phase ≠ .suspended)
    (goes : ∀ error, step ≠ .suspend error) : after.phase ≠ .suspended := by
  have outcome : Upload.Answered config state response (Upload.onResponse config state response) :=
    Upload.onResponse_answered state response
  rw [answered] at outcome
  cases outcome with
  | resent => exact phase
  | suspended error => exact absurd rfl (goes error)
  | failed _ _ over_ => simp [over_]
  | completed => simp
  | advanced _ _ _ _ _ _ _ same => rwa [same]

theorem Row.driven {event : Event} {output : Output} (row : Row codec before event output after)
    (driven : before.Driven) (books : before.booked) : after.Driven := by
  have aside {task : Task} (drive : ∀ life, weigh (drives life) (.task task) = false)
      (close : ∀ life, weigh (closes life) (.task task) = false) : Aside [.task task] := fun life => by
    simp [drive life, close life]
  have unsuspended {driver : UploadDriver} (stands : before.image.upload = some driver)
      (active : driver.active = true) : driver.state.phase ≠ .suspended := by
    have running := driven.running driver stands active
    simpa [resumable] using running
  cases row with
  | idle moves _ image => exact driven.kept books moves image (fun _ => rfl) (fun _ => Nat.le_refl _)
  | returned moves _ image neutral =>
    exact driven.kept books moves image (fun _ => by simp [weigh, neutral]) (fun _ => Nat.zero_le _)
  | dropped moves _ image drops => exact driven.dropped books moves image drops
  | @answering _ _ reply _ _ moves _ image =>
    refine driven.kept books moves image (fun life => ?_) (fun life => by simp [weigh, closes])
    cases reply <;> simp [List.countP_singleton, weigh, drives, neutral]
  | @working _ _ job _ moves _ image =>
    refine driven.kept books moves image (fun life => by simp [weigh, drives]) (fun life => ?_)
    cases job <;> simp [List.countP_singleton, weigh, closes, neutral]
  | relayed moves _ image relays =>
    refine driven.kept books moves image (fun life => ?_) (fun life => by simp [weigh, closes])
    cases relays <;> simp [weigh, drives]
  | told _ moves _ image =>
    refine driven.kept books moves image (fun other => ?_) (fun other => ?_)
    · rw [telling_light _ _ _ _ fun _ _ _ => rfl]
      simp [weigh, drives]
    · rw [telling_light _ _ _ _ fun _ _ _ => rfl]
      exact Nat.zero_le _
  | @paused _ callback life result driver _ _ _ _ found active answered moves _ image =>
    obtain ⟨stands, own⟩ := uploadDriver_stands found
    have lone := driven.lone books stands active (.answer callback (.driver life) result) driver active rfl
      (fun other => by simp [weigh, drives, neutral, own]) (fun other => by simp [weigh, closes])
    have goesOn := answered_unsuspended answered (unsuspended stands active) (by simp)
    refine lone.driven moves image rfl (fun other => ?_) (fun _ => ?_) (by simp [weigh, closes])
    · simp [weigh, drives, neutral, own, active]
    · simpa [resumable] using goesOn
  | @handled _ callback life result driver _ state _ _ found active answered advanced =>
    obtain ⟨stands, own⟩ := uploadDriver_stands found
    have lone := driven.lone books stands active (.answer callback (.driver life) result)
      { driver with request := {}, state := state } active rfl
      (fun other => by simp [weigh, drives, neutral, own]) (fun other => by simp [weigh, closes])
    refine advanced.driven lone (by simp) (fun match_ first completes => ?_)
    have goesOn := answered_unsuspended answered (unsuspended stands active) (by simp [completes])
    simpa [resumable] using goesOn
  | @advanced _ origin life step driver _ _ found advanced =>
    obtain ⟨stands, own⟩ := uploadDriver_stands found
    obtain ⟨made, moves⟩ := advanced.moves
    have active := driven.turn books found moves (by simp [weigh, drives, neutral])
    have lone := driven.lone books stands active (.advance origin life step) driver active rfl
      (fun other => by simp [weigh, drives, neutral, own]) (fun other => by simp [weigh, closes])
    exact advanced.driven lone (by simp) (fun _ _ _ => driven.running driver stands active)
  | @concluded _ origin life result driver _ _ found ends =>
    obtain ⟨stands, own⟩ := uploadDriver_stands found
    obtain ⟨made, moves⟩ := ends.moves
    have active := driven.turn books found moves (by simp [weigh, drives, neutral])
    have lone := driven.lone books stands active (.conclude origin life result) driver active rfl
      (fun other => by simp [weigh, drives, neutral, own]) (fun other => by simp [weigh, closes])
    exact ends.driven lone (by simp)
  | turned turns _ moves _ _ image =>
    refine driven.kept books moves image (fun life => ?_) (fun life => by simp [weigh, closes])
    cases turns <;> simp [weigh, drives]
  | announced moves _ image | cleared moves _ _ image =>
    exact driven.kept books moves image (fun life => by simp [weigh, drives]) (fun life => by simp)
  | queried moves _ image | finished _ moves _ _ image
  | started _ _ _ moves _ _ image | posted _ moves _ image =>
    exact driven.kept books moves image (fun life => by simp [weigh, drives]) (fun life => by simp [weigh, closes])
  | uploaded _ uploads =>
    have rest := uploads.driven driven books (aside (fun _ => rfl) (fun _ => rfl))
    exact ⟨rest.tokens, rest.running, rest.known, rest.closed⟩
  | resumed _ resumes => exact resumes.driven driven books (aside (fun _ => rfl) (fun _ => rfl))
  | cancelled _ moves _ image =>
    rcases image with image | ⟨driver, found, active, image⟩
    · exact driven.kept books moves image (fun life => by simp [weigh, drives]) (fun life => by simp [weigh, closes])
    · exact driven.released books moves (uploadOf_stands found) image (fun life => by simp [weigh, drives])
        (fun life => by simp [weigh, closes])
  | polled finds moves _ _ image =>
    refine driven.kept books moves image (fun life => ?_) (fun life => ?_) <;>
      cases finds <;> simp [weigh, drives, closes]
  | uploadAsked uploads => exact uploads.driven driven books (fun _ => ⟨rfl, rfl⟩)
  | resumeAsked _ resumes => exact resumes.driven driven books (fun _ => ⟨rfl, rfl⟩)
  | cancelAsked _ found _ moves _ image =>
    exact driven.released books moves (uploadOf_stands found) image (fun _ => rfl) (fun _ => rfl)

theorem new_count (transport : Nat) (config : SmpClientConfig) (p : Code → Bool) :
    (new transport config).count p = 0 := rfl

theorem reached_driven (codec : Codec) (transport : Nat) (config : SmpClientConfig) (events : List Event) :
    (reached codec transport config events).Driven := by
  refine history_invariant_with (step codec) (new transport config) (fun _ host => host.booked) (fun _ host => host.Driven)
    (reached_booked codec transport config) ?_ ?_ events
  · have none_ : (new transport config).image.upload = none := rfl
    refine ⟨fun life => ?_, ?_, ?_, fun life some_ => absurd (new_count transport config _) some_⟩
    · rw [new_count, driving, uploadDriver, none_]
      rfl
    · simp [none_]
    · simp [none_]
  · intro past host event books driven
    exact (step_row host event books).driven driven books

end Smply.Host
