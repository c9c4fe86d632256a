import Smply.Cbor.Codec

namespace Smply.Host

open Systems List Code
open Smp (World RawResponse SmpClientConfig)
open Cbor (documentCodec field)

variable {driver : UploadDriver} {spent made : List Code} {before : Host} {onDone : Option Owner} {callback : Nat}
  {output : Output} {life : Nat} {codec : Codec}

def cancelledError : Error := .at .cancelled "smp client: cancelled"

def dooms (life : Nat) : Code → Bool
  | .task (.answer _ (.driver other) (.error error)) => decide (other = life) && decide (error = cancelledError)
  | _ => false

def isTask : Code → Bool
  | .task _ => true
  | _ => false

structure Apart (life : Nat) (before : Host) (output : Output) (after : Host) : Prop where
  lives : before.image.lives ≤ after.image.lives
  moves : ∃ spent made, Moves before after spent made ∧ spent.countP (weigh (drives life)) = 0 ∧
    made.countP (weigh (drives life)) = 0 ∧ made.countP (weigh (closes life)) = 0
  stays : ∀ driver, before.uploadDriver life = some driver → driver.active = true →
    ∃ request, after.uploadDriver life = some { driver with request := request }
  came : ∀ driver, after.uploadDriver life = some driver →
    ∃ request, before.uploadDriver life = some { driver with request := request }
  unsaid : ∀ owner result, output ≠ .finished (some life) owner result

def Unsaid (life : Nat) (output : Output) : Prop := ∀ owner result, output ≠ .finished (some life) owner result

theorem Apart.kept {after : Host} (moves : Moves before after spent made) (image : after.image = before.image)
    (spends : spent.countP (weigh (drives life)) = 0) (makes : made.countP (weigh (drives life)) = 0)
    (closing : made.countP (weigh (closes life)) = 0)
    (unsaid : Unsaid life output) : Apart life before output after where
  lives := Nat.le_of_eq (by rw [image])
  moves := ⟨spent, made, moves, spends, makes, closing⟩
  stays driver found _ := ⟨driver.request, by rw [uploadDriver, image]; exact found⟩
  came driver found := ⟨driver.request, by rw [uploadDriver, image] at found; exact found⟩
  unsaid := unsaid

theorem Apart.elsewhere {after : Host} {next : UploadDriver} (moves : Moves before after spent made)
    (image : after.image.upload = some next)
    (lives : before.image.lives ≤ after.image.lives) (gone : before.driving life = false) (other : next.life ≠ life)
    (spends : spent.countP (weigh (drives life)) = 0) (makes : made.countP (weigh (drives life)) = 0)
    (closing : made.countP (weigh (closes life)) = 0)
    (unsaid : Unsaid life output) : Apart life before output after where
  lives := lives
  moves := ⟨spent, made, moves, spends, makes, closing⟩
  stays driver found active := by
    rw [driving, found, Option.any_some, active] at gone
    cases gone
  came driver found := by
    rw [uploadDriver_eq image, if_neg other] at found
    cases found
  unsaid := unsaid

theorem Ends.elsewhere {base : ImageManagement} {origin : Option Origin}
    {outcome : Result UploadResult} {result : Output × Host}
    (ends : Ends before base driver origin outcome spent result) (other : driver.life ≠ life) :
    ∃ made next, Moves before result.2 spent made ∧ result.2.image = { base with upload := some next } ∧
      next.life = driver.life ∧ made.countP (weigh (drives life)) = 0 ∧ made.countP (weigh (closes life)) = 0 ∧
      ∀ owner result', result.1 ≠ .finished (some life) owner result' := by
  cases ends with
  | inactive _ moves _ image | unheard _ _ moves _ image =>
    exact ⟨_, _, moves, image, rfl, rfl, rfl, fun _ _ => nofun⟩
  | queued _ _ _ moves _ image =>
    exact ⟨_, _, moves, image, rfl, by simp [weigh, drives], by simp [weigh, closes, other], fun _ _ => nofun⟩
  | @told owner _ _ _ _ _ moves _ image =>
    refine ⟨_, _, moves, image, rfl, telling_light _ _ _ _ fun _ _ _ => rfl, telling_light _ _ _ _ fun _ _ _ => rfl, ?_⟩
    intro owner result same
    cases same
    exact other rfl

theorem Reports.unsaid (reports : Reports before driver output)
    (life : Option Nat) (owner : Owner) (result : Result UploadResult) :
    output ≠ .finished life owner result := by
  unfold Reports at reports
  revert reports
  cases driver.onProgress with
  | none =>
    rintro rfl
    exact nofun
  | some owner =>
    cases owner with
    | application =>
      rintro rfl
      exact nofun
    | updater =>
      rintro (rfl | ⟨listener, said, _, _, rfl⟩)
      · exact nofun
      · exact nofun

theorem Advanced.elsewhere {base : ImageManagement} {origin : Option Origin}
    {step : Upload.Step} {result : Output × Host}
    (advanced : Advanced before base driver origin step spent result) (other : driver.life ≠ life) :
    ∃ made next, Moves before result.2 spent made ∧ result.2.image = { base with upload := some next } ∧
      next.life = driver.life ∧ made.countP (weigh (drives life)) = 0 ∧ made.countP (weigh (closes life)) = 0 ∧
      ∀ owner result', result.1 ≠ .finished (some life) owner result' := by
  cases advanced with
  | sent _ moves _ image =>
    exact ⟨_, _, moves, image, rfl, by simp [weigh, drives, other], by simp [weigh, closes], fun _ _ => nofun⟩
  | ended _ _ ends => exact ends.elsewhere other
  | reported _ _ moves _ image reports =>
    exact ⟨_, _, moves, image, rfl, by simp [weigh, drives, other], by simp [weigh, closes], reports.unsaid _⟩

inductive Turned (codec : Codec) (life : Nat) (before : Host) (output : Output) (after : Host) : Prop
  | answering (callback : Nat) (result : Result RawResponse)
      (moves : Moves before after [.reply (.driver life)] [.task (.answer callback (.driver life) result)])
      (image : after.image = before.image) (found : before.replies[callback]? = some (.driver life))
      (ran : before.world.proceed codec.extractMgmtError = (.completed callback result, after.world))
      (quiet : output = .quiet)
  | answered (callback : Nat) (result : Result RawResponse) (driver : UploadDriver) (step : Upload.Step)
      (state : Upload.UploadState) (found : before.uploadDriver life = some driver) (active : driver.active = true)
      (answered : Upload.onResponse driver.config driver.state (decodeChunk codec result) = (step, state))
      (goesOn : (∃ made request, step = .sendChunk request ∧
          Moves before after [.task (.answer callback (.driver life) result)] made) ∨
        Advanced before before.image { driver with request := {}, state := state } (some (.reply callback)) step
          [.task (.answer callback (.driver life) result)] (output, after))
  | resumed (task : Task) (made : List Code) (moves : Moves before after [.task task] made)
      (drive : weigh (drives life) (.task task) = true) (mild : weigh (dooms life) (.task task) = false)

theorem Turned.spends {after : Host} (turned : Turned codec life before output after) :
    ∃ code made, Moves before after [code] made ∧ weigh (drives life) code = true := by
  cases turned with
  | answering _ _ moves => exact ⟨_, _, moves, by simp [weigh, drives, neutral]⟩
  | answered _ _ _ _ _ _ _ _ goesOn =>
    rcases goesOn with ⟨made, request, sends, moves⟩ | advanced
    · exact ⟨_, _, moves, by simp [weigh, drives, neutral]⟩
    · obtain ⟨made, moves⟩ := advanced.moves
      exact ⟨_, _, moves, by simp [weigh, drives, neutral]⟩
  | resumed _ _ moves drive => exact ⟨_, _, moves, drive⟩

section
variable {life : Nat} {before after : Host}

theorem driving_none (gone : before.uploadDriver life = none) : before.driving life = false := by
  rw [driving, gone]
  rfl

theorem uploadDriver_other {other : Nat} (found : before.uploadDriver other = some driver)
    (differs : other ≠ life) : before.uploadDriver life = none := by
  obtain ⟨stands, own⟩ := uploadDriver_stands found
  rw [uploadDriver_eq stands, own, if_neg differs]

theorem Apart.released (moves : Moves before after [] made) (stands : before.image.upload = some driver)
    (image : after.image = { before.image with upload := some { driver with request := {} } })
    (makes : made.countP (weigh (drives life)) = 0) (closing : made.countP (weigh (closes life)) = 0)
    (unsaid : Unsaid life output) : Apart life before output after := by
  have now : after.image.upload = some { driver with request := {} } := by rw [image]
  refine ⟨Nat.le_of_eq (by rw [image]), ⟨_, _, moves, rfl, makes, closing⟩, fun old found _ => ?_, fun next found => ?_,
    unsaid⟩
  · obtain ⟨found, own⟩ := uploadDriver_stands found
    obtain rfl := Option.some.inj (stands.symm.trans found)
    exact ⟨{}, by rw [uploadDriver_eq now, if_pos own]⟩
  obtain ⟨found, own⟩ := uploadDriver_stands found
  obtain rfl := Option.some.inj (now.symm.trans found)
  exact ⟨driver.request, by rw [uploadDriver_eq stands, if_pos own]⟩

theorem Apart.turn {next : UploadDriver} {other : Nat} (moves : Moves before after spent made)
    (image : after.image = { before.image with upload := some next })
    (found : before.uploadDriver other = some driver) (same : next.life = other) (differs : other ≠ life)
    (spends : spent.countP (weigh (drives life)) = 0) (makes : made.countP (weigh (drives life)) = 0)
    (closing : made.countP (weigh (closes life)) = 0)
    (unsaid : Unsaid life output) : Apart life before output after :=
  .elsewhere moves (by rw [image]) (Nat.le_of_eq (by rw [image])) (driving_none (uploadDriver_other found differs))
    (same ▸ differs) spends makes closing unsaid

theorem Drops.strange {task : Task} (drops : Drops before task) (books : before.booked)
    (driven : before.Driven) (moves : Moves before after [.task task] made)
    (drive : weigh (drives life) (.task task) = true) : False := by
  have none_ (gone : before.uploadDriver life = none) (driver : UploadDriver)
      (found : before.uploadDriver life = some driver) : driver.active = false := by
    rw [gone] at found
    cases found
  cases drops with
  | stale _ other _ gone =>
    obtain rfl : other = life := by simpa [weigh, drives, neutral] using drive
    exact driven.gone books moves drive gone
  | advance _ other _ gone | conclude _ other _ gone =>
    obtain rfl : other = life := by simpa [weigh, drives, neutral] using drive
    exact driven.gone books moves drive (none_ gone)
  | _ => simp [weigh, drives] at drive

theorem Uploads.apart {onProgress : Option Owner} {result : UploadHandle × Host}
    (uploads : Uploads before onProgress onDone spent result) (bound : life ≤ before.image.lives) (aside : Aside spent)
    (unsaid : Unsaid life output) : Apart life before output result.2 := by
  cases uploads with
  | refused moves _ image =>
    exact .kept moves image (aside life).1 (rejecting_light _ _ _ fun _ _ => rfl)
      (rejecting_light _ _ _ fun _ _ => rfl) unsaid
  | @begun driver _ _ idle _ _ _ _ _ _ advanced =>
    have other : driver.life ≠ life := by omega
    obtain ⟨made, next, moves, image, same, makes, closing, _⟩ := advanced.elsewhere other
    have quiet : before.driving life = false := by
      unfold uploadActive at idle
      unfold driving uploadDriver
      cases stands : before.image.upload with
      | none => rfl
      | some old =>
        rw [stands, Option.any_some] at idle
        by_cases same : old.life = life <;> simp [Option.filter, same, idle]
    refine .elsewhere moves (by rw [image]) ?_ quiet (same ▸ other) (aside life).1 makes closing unsaid
    rw [image]
    show before.image.lives ≤ driver.life
    omega

theorem Resumes.apart {handle : UploadHandle} {result : UploadHandle × Host}
    (resumes : Resumes before handle onDone spent result)
    (settled : ∀ driver, before.uploadDriver life = some driver → driver.resumable = false) (aside : Aside spent)
    (unsaid : Unsaid life output) : Apart life before output result.2 := by
  cases resumes with
  | refused moves _ image =>
    exact .kept moves image (aside life).1 (rejecting_light _ _ _ fun _ _ => rfl)
      (rejecting_light _ _ _ fun _ _ => rfl) unsaid
  | @begun old _ _ found suspended advanced =>
    have stands := uploadOf_stands found
    have other : old.life ≠ life := by
      intro same
      have over_ := settled old (by rw [uploadDriver_eq stands, if_pos same])
      rw [suspended] at over_
      cases over_
    obtain ⟨made, next, moves, image, same, makes, closing, _⟩ := advanced.elsewhere other
    have gone : before.uploadDriver life = none := by rw [uploadDriver_eq stands, if_neg other]
    refine .elsewhere moves (by rw [image]) (Nat.le_of_eq (by rw [image])) (driving_none gone) ?_ (aside life).1
      makes closing unsaid
    rw [same]
    exact other

theorem Tells.unsaid {update : Nat} {event : UpdateEvent → Prop} (tells : Tells before update event output)
    (life : Option Nat) (owner : Owner) (result : Result UploadResult) :
    output ≠ .finished life owner result := by
  rcases tells with rfl | ⟨listener, said, _, _, rfl⟩
  · exact nofun
  · exact nofun

/-- Every step leaves an upload alone or is a step of it, unless its end is queued or it may be resumed. -/
theorem Row.apart {event : Event} (row : Row codec before event output after) (books : before.booked)
    (driven : before.Driven) (bound : life ≤ before.image.lives) (unclosed : before.count (closes life) = 0)
    (settled : ∀ driver, before.uploadDriver life = some driver → driver.resumable = false) :
    Apart life before output after ∨ Turned codec life before output after := by
  have aside {task : Task} (drive : ∀ life, weigh (drives life) (.task task) = false)
      (close : ∀ life, weigh (closes life) (.task task) = false) : Aside [.task task] := fun life => by
    simp [drive life, close life]
  cases row with
  | idle moves _ image inert =>
    refine .inl (.kept moves image rfl rfl rfl ?_)
    rintro owner result rfl
    cases inert
  | returned moves _ image neutral =>
    exact .inl (.kept moves image (by simp [weigh, neutral]) rfl rfl (by simp [Unsaid]))
  | dropped moves _ image drops =>
    refine .inl (.kept moves image ?_ rfl rfl (by simp [Unsaid]))
    rw [countP_singleton, if_neg]
    exact fun drive => drops.strange books driven moves drive
  | @answering _ callback reply result _ moves _ image found ran =>
    by_cases own : reply = .driver life
    · subst own
      exact .inr (.answering callback result moves image found ran rfl)
    refine .inl (.kept moves image ?_ ?_ (by simp [weigh, closes]) (by simp [Unsaid]))
    · cases reply <;> simp_all [weigh, drives]
    · cases reply <;> simp_all [weigh, drives]
  | @working _ _ job _ moves _ image =>
    have open_ := moves.present books (closes life)
    rw [unclosed, countP_singleton] at open_
    refine .inl (.kept moves image (by simp [weigh, drives]) (by simp [weigh, drives]) ?_ (by simp [Unsaid]))
    cases job <;> simp_all [weigh, closes, neutral]
  | relayed moves _ image relays =>
    refine .inl (.kept moves image ?_ (by simp [weigh, drives]) (by simp [weigh, closes]) (by simp [Unsaid]))
    cases relays <;> simp [weigh, drives]
  | told speaks moves _ image =>
    refine .inl (.kept moves image (by simp [weigh, drives]) (telling_light _ _ _ _ fun _ _ _ => rfl)
      (telling_light _ _ _ _ fun _ _ _ => rfl) ?_)
    intro owner' result' same
    cases speaks with
    | rejected => cases same
    | finished =>
      cases same
      have open_ := moves.present books (closes life)
      simp [unclosed, weigh, closes, neutral] at open_
  | @paused _ callback other result driver request state _ _ found active answered moves _ image reports =>
    by_cases own : other = life
    · subst own
      exact .inr (.answered callback result driver _ state found active answered (.inl ⟨_, request, rfl, moves⟩))
    · exact .inl (.turn moves image found (uploadDriver_stands found).2 own (by simp [weigh, drives, own])
        (by simp [weigh, drives, own]) (by simp [weigh, closes]) (reports.unsaid _))
  | @handled _ callback other result driver step state _ _ found active answered advanced =>
    by_cases own : other = life
    · subst own
      exact .inr (.answered callback result driver step state found active answered (.inr advanced))
    obtain ⟨made, next, moves, image, same, makes, closing, unsaid⟩ :=
      advanced.elsewhere (show driver.life ≠ life from (uploadDriver_stands found).2 ▸ own)
    exact .inl (.turn moves image found (same.trans (uploadDriver_stands found).2) own (by simp [weigh, drives, own])
      makes closing unsaid)
  | @advanced _ _ other _ _ _ _ found advanced =>
    by_cases own : other = life
    · subst own
      obtain ⟨made, moves⟩ := advanced.moves
      exact .inr (.resumed _ made moves (by simp [weigh, drives, neutral]) rfl)
    obtain ⟨made, next, moves, image, same, makes, closing, unsaid⟩ :=
      advanced.elsewhere ((uploadDriver_stands found).2 ▸ own)
    exact .inl (.turn moves image found (same.trans (uploadDriver_stands found).2) own (by simp [weigh, drives, own])
      makes closing unsaid)
  | @concluded _ _ other _ _ _ _ found ends =>
    by_cases own : other = life
    · subst own
      obtain ⟨made, moves⟩ := ends.moves
      exact .inr (.resumed _ made moves (by simp [weigh, drives, neutral]) rfl)
    obtain ⟨made, next, moves, image, same, makes, closing, unsaid⟩ :=
      ends.elsewhere ((uploadDriver_stands found).2 ▸ own)
    exact .inl (.turn moves image found (same.trans (uploadDriver_stands found).2) own (by simp [weigh, drives, own])
      makes closing unsaid)
  | turned turns _ moves _ _ image tells =>
    refine .inl (.kept moves image ?_ (by simp [weigh, drives]) (by simp [weigh, closes]) (tells.unsaid _))
    cases turns <;> simp [weigh, drives]
  | announced moves _ image _ tells =>
    exact .inl (.kept moves image (by simp [weigh, drives]) rfl rfl (tells.unsaid _))
  | queried moves _ image =>
    exact .inl (.kept moves image (by simp [weigh, drives]) (by simp [weigh, drives]) (by simp [weigh, closes])
      (by simp [Unsaid]))
  | @uploaded _ _ _ _ after _ uploads =>
    have rest : Apart life before .quiet after :=
      uploads.apart bound (aside (fun _ => rfl) (fun _ => rfl)) (by simp [Unsaid])
    obtain ⟨spent, made, moves, light⟩ := rest.moves
    exact .inl ⟨rest.lives, ⟨spent, made, moves.framed rfl rfl, light⟩, rest.stays, rest.came, rest.unsaid⟩
  | resumed _ resumes =>
    exact .inl (resumes.apart settled (aside (fun _ => rfl) (fun _ => rfl)) (by simp [Unsaid]))
  | finished _ moves _ _ image tells =>
    refine .inl (.kept moves image (by simp [weigh, drives]) (by simp [weigh, drives]) (by simp [weigh, closes]) ?_)
    rw [tells]
    intro owner result
    split <;> simp
  | cleared moves _ _ image => exact .inl (.kept moves image (by simp [weigh, drives]) rfl rfl (by simp [Unsaid]))
  | started _ _ _ moves _ _ image =>
    exact .inl (.kept moves image rfl (by simp [weigh, drives]) (by simp [weigh, closes]) (by simp [Unsaid]))
  | posted posts moves _ image =>
    refine .inl (.kept moves image rfl (by simp [weigh, drives]) (by simp [weigh, closes]) ?_)
    cases posts <;> simp [Unsaid]
  | cancelled _ moves _ image =>
    rcases image with image | ⟨driver, found, active, image⟩
    · exact .inl (.kept moves image rfl (by simp [weigh, drives]) (by simp [weigh, closes]) (by simp [Unsaid]))
    · exact .inl (.released moves (uploadOf_stands found) image (by simp [weigh, drives]) (by simp [weigh, closes])
        (by simp [Unsaid]))
  | polled finds moves _ _ image =>
    refine .inl (.kept moves image rfl ?_ ?_ (by simp [Unsaid])) <;> cases finds <;> simp [weigh, drives, closes]
  | uploadAsked uploads => exact .inl (uploads.apart bound (fun _ => ⟨rfl, rfl⟩) (by simp [Unsaid]))
  | resumeAsked _ resumes => exact .inl (resumes.apart settled (fun _ => ⟨rfl, rfl⟩) (by simp [Unsaid]))
  | cancelAsked _ found _ moves _ image =>
    exact .inl (.released moves (uploadOf_stands found) image rfl rfl (by simp [Unsaid]))

end

def requests (host : Host) (life : Nat) : Nat := host.replies.countP fun reply => decide (reply = .driver life)

theorem Moves.requests_kept {after : Host} (moves : Moves before after spent made)
    (none_ : ∀ code ∈ made, code ≠ .reply (.driver life)) : after.requests life = before.requests life := by
  have same := moves.replies (fun reply => decide (reply = .driver life)) rfl
  have zero : made.countP (asks fun reply => decide (reply = .driver life)) = 0 := by
    rw [countP_eq_zero]
    intro code member asks
    cases code with
    | reply => exact none_ _ member (by simpa [Code.asks] using asks)
    | _ => cases asks
  rw [requests, requests, same, zero, Nat.add_zero]

theorem Apart.requests {after : Host} (apart : Apart life before output after) :
    after.requests life = before.requests life := by
  obtain ⟨spent, made, moves, _, makes, _⟩ := apart.moves
  refine moves.requests_kept ?_
  rintro code member rfl
  exact countP_eq_zero.mp makes _ member (by simp [weigh, drives, neutral])

def endOf (life : Nat) (output : Output) : Option (Owner × Result UploadResult) :=
  match output with
  | .finished (some other) owner result => if other = life then some (owner, result) else none
  | _ => none

theorem endOf_none (unsaid : Unsaid life output) : endOf life output = none := by
  unfold endOf
  split
  · rename_i other owner result
    by_cases same : other = life
    · exact absurd (by rw [same]) (unsaid owner result)
    · rw [if_neg same]
  · rfl

section
variable {life : Nat} {before after : Host} {event : Event} {output : Output}

structure Over (host : Host) (life : Nat) : Prop where
  bound : life ≤ host.image.lives
  ended : ∀ driver, host.uploadDriver life = some driver → driver.active = false ∧ driver.resumable = false
  unclosed : host.count (closes life) = 0

theorem Apart.unclosed (apart : Apart life before output after) (books : before.booked)
    (unclosed : before.count (closes life) = 0) : after.count (closes life) = 0 := by
  obtain ⟨spent, made, moves, _, _, closing⟩ := apart.moves
  have count := moves.count books (closes life)
  omega

theorem Over.step (over_ : before.Over life) (row : Row codec before event output after) (books : before.booked)
    (driven : before.Driven) :
    after.Over life ∧ after.requests life = before.requests life ∧ endOf life output = none := by
  have quiet : before.driving life = false := by
    unfold driving
    cases found : before.uploadDriver life with
    | none => rfl
    | some driver => exact (over_.ended driver found).1
  rcases row.apart books driven over_.bound over_.unclosed (fun driver found => (over_.ended driver found).2) with
    apart | turned
  · refine ⟨⟨Nat.le_trans over_.bound apart.lives, fun driver found => ?_, apart.unclosed books over_.unclosed⟩,
      apart.requests, endOf_none apart.unsaid⟩
    obtain ⟨request, found⟩ := apart.came driver found
    have old := over_.ended _ found
    exact old
  · obtain ⟨code, made, moves, drive⟩ := turned.spends
    have present := moves.present books (drives life)
    rw [driven.tokens, quiet, countP_singleton, drive] at present
    simp at present

/-- The request of an active upload is cancelled, and the upload has not heard of it. -/
structure Doomed (host : Host) (life : Nat) (onDone : Option Owner) : Prop where
  running : ∃ driver, host.uploadDriver life = some driver ∧ driver.active = true ∧ driver.onDone = onDone
  waits : (∃ callback, host.replies[callback]? = some (.driver life) ∧
    .fail callback cancelledError ∈ host.world.waiting) ∨
      1 ≤ host.count (fun code => drives life code && dooms life code)

theorem Doomed.alone (doomed : before.Doomed life onDone) (driven : before.Driven) :
    before.count (drives life) = 1 := by
  obtain ⟨driver, found, active, _⟩ := doomed.running
  rw [driven.tokens, driving, found, Option.any_some, active]
  rfl

theorem Moves.only {p q : Code → Bool} {code : Code} (moves : Moves before after [code] made)
    (books : before.booked) (one : before.count p = 1) (has : 1 ≤ before.count (fun code => p code && q code))
    (meets : weigh p code = true) : q code = true := by
  have split := before.count_split p q
  have present := moves.present books (fun code => p code && !q code)
  rw [countP_singleton, weigh_and, meets, Bool.true_and] at present
  by_contra other
  rw [Bool.not_eq_true] at other
  simp only [other, Bool.not_false, ↓reduceIte] at present
  omega

theorem Moves.reply_kept (moves : Moves before after spent made) {reply : Reply}
    (found : before.replies[callback]? = some reply) : after.replies[callback]? = some reply := by
  obtain ⟨more, same⟩ := moves.asked
  rw [← same, List.getElem?_append_left (List.getElem?_eq_some_iff.mp found).1]
  exact found

theorem cancelled_fails {config : Upload.UploadConfig Bytes} {state after : Upload.UploadState} {step : Upload.Step}
    (answered : Upload.onResponse config state (decodeChunk codec (.error cancelledError)) = (step, after)) :
    step = .fail cancelledError ∧ after.phase = .failed := by
  have failed : Upload.onResponse config state (decodeChunk codec (.error cancelledError)) =
      Upload.failWith state cancelledError := rfl
  rw [failed] at answered
  cases answered
  exact ⟨rfl, rfl⟩

theorem Apart.count {p : Code → Bool} (apart : Apart life before output after) (books : before.booked) :
    after.count (fun code => drives life code && p code) = before.count (fun code => drives life code && p code) := by
  obtain ⟨spent, made, moves, spends, makes, _⟩ := apart.moves
  have light {codes : List Code} (none_ : codes.countP (weigh (drives life)) = 0) :
      codes.countP (weigh fun code => drives life code && p code) = 0 := by
    rw [countP_eq_zero] at none_ ⊢
    intro code member meets
    rw [weigh_and, Bool.and_eq_true] at meets
    exact none_ code member meets.1
  have count := moves.count books (fun code => drives life code && p code)
  rw [light spends, light makes] at count
  exact count

variable {onDone : Option Owner}

section
variable (doomed : before.Doomed life onDone) (books : before.booked)
include doomed books

theorem Doomed.apart (apart : Apart life before output after) : after.Doomed life onDone := by
  obtain ⟨driver, found, active, done⟩ := doomed.running
  refine ⟨?_, ?_⟩
  · obtain ⟨request, found⟩ := apart.stays driver found active
    exact ⟨_, found, active, done⟩
  rcases doomed.waits with ⟨callback, own, waits⟩ | holds
  · obtain ⟨spent, made, moves, spends, _, _⟩ := apart.moves
    rcases moves.waits books callback cancelledError waits with waits | ⟨reply, same, member⟩
    · exact .inl ⟨callback, moves.reply_kept own, waits⟩
    · obtain rfl := Option.some.inj (own.symm.trans same)
      exact absurd (by simp [weigh, drives, neutral]) (countP_eq_zero.mp spends _ member)
  · exact .inr (by rw [apart.count books]; exact holds)

theorem Doomed.answering (driven : before.Driven) {result : Result RawResponse}
    (moves : Moves before after [.reply (.driver life)] [.task (.answer callback (.driver life) result)])
    (image : after.image = before.image)
    (ran : before.world.proceed codec.extractMgmtError = (.completed callback result, after.world)) :
    after.Doomed life onDone := by
  have one := doomed.alone driven
  obtain ⟨driver, found, active, done⟩ := doomed.running
  refine ⟨⟨driver, by rw [uploadDriver, image]; exact found, active, done⟩, .inr ?_⟩
  rcases doomed.waits with ⟨number, own, waits⟩ | holds
  · have handed := @World.proceed_handed codec.extractMgmtError before.world
    rw [ran] at handed
    rcases handed.waits waits with waits | completed
    · have gone := moves.count books (fun code => drives life code && !isTask code)
      rw [countP_singleton, countP_singleton, if_pos (by simp [weigh, drives, isTask, neutral]),
        if_neg (by simp [weigh, isTask])] at gone
      have still := @count_waits after (fun code => drives life code && !isTask code) number cancelledError _
        (moves.reply_kept own) (by simp [weigh, drives, isTask, neutral]) waits
      have split := before.count_split (drives life) (fun code => !isTask code)
      omega
    · cases completed
      have made := moves.count books (fun code => drives life code && dooms life code)
      rw [countP_singleton, countP_singleton, if_neg (by simp [weigh, dooms]),
        if_pos (by simp [weigh, drives, dooms, neutral])] at made
      omega
  · have mine := moves.only books one holds (by simp [weigh, drives, neutral])
    cases mine

theorem Doomed.task (driven : before.Driven) {task : Task}
    (moves : Moves before after [.task task] made) (drive : weigh (drives life) (.task task) = true) :
    dooms life (.task task) = true := by
  have one := doomed.alone driven
  rcases doomed.waits with ⟨callback, own, waits⟩ | holds
  · have has := @count_waits before (fun code => drives life code && !isTask code) callback cancelledError _ own
      (by simp [weigh, drives, isTask, neutral]) waits
    have other := moves.only books one has drive
    cases other
  · exact moves.only books one holds drive

end

theorem Ends.last {state : Upload.UploadState} {cause : Origin} {task : Task}
    (ends : Ends before before.image { driver with request := {}, state := state } (some cause) (.error cancelledError)
      [.task task] (output, after))
    (books : before.booked) (own : driver.life = life) (bound : life ≤ before.image.lives)
    (unclosed : before.count (closes life) = 0) (active : driver.active = true) (done : driver.onDone = onDone)
    (phase : state.phase = .failed) :
    after.requests life = before.requests life ∧
      (after.Doomed life onDone ∧ endOf life output = none ∨
        after.Over life ∧ endOf life output = onDone.map fun owner => (owner, .error cancelledError)) := by
  have over_ {made : List Code} (moves : Moves before after [.task task] made)
      (image : after.image = { before.image with
        upload := some { driver with request := {}, state := state, active := false, onDone := none } })
      (closing : made.countP (weigh (closes life)) = 0) : after.Over life := by
    have stands : after.image.upload =
        some { driver with request := {}, state := state, active := false, onDone := none } := by rw [image]
    refine ⟨by rw [image]; exact bound, fun next found => ?_, ?_⟩
    · obtain ⟨found, _⟩ := uploadDriver_stands found
      obtain rfl := Option.some.inj (stands.symm.trans found)
      exact ⟨rfl, by rw [UploadDriver.resumable, phase]; rfl⟩
    · have count := moves.count books (closes life)
      omega
  cases ends with
  | inactive idle => exact absurd (active.symm.trans idle) (by simp)
  | queued _ _ starting => cases starting
  | unheard _ nobody moves _ image =>
    refine ⟨moves.requests_kept (by simp), .inr ⟨over_ moves image rfl, ?_⟩⟩
    rw [← done, show driver.onDone = none from nobody]
    rfl
  | @told owner _ _ _ given _ moves _ image =>
    refine ⟨moves.requests_kept ?_, .inr ⟨over_ moves image (telling_light _ _ _ _ fun _ _ _ => rfl), ?_⟩⟩
    · cases owner <;> simp [telling]
    · rw [← done, show driver.onDone = some owner from given, endOf, if_pos own]
      rfl

theorem Doomed.step (doomed : before.Doomed life onDone) (row : Row codec before event output after)
    (books : before.booked) (driven : before.Driven) : after.requests life = before.requests life ∧
      (after.Doomed life onDone ∧ endOf life output = none ∨
        after.Over life ∧ endOf life output = onDone.map fun owner => (owner, .error cancelledError)) := by
  obtain ⟨driver, found, active, done⟩ := doomed.running
  obtain ⟨stands, own⟩ := uploadDriver_stands found
  have bound := own ▸ driven.known driver stands
  have unclosed : before.count (closes life) = 0 := by
    by_contra some_
    rw [((driven.closed life some_).2 driver found).1] at active
    cases active
  have settled : ∀ driver, before.uploadDriver life = some driver → driver.resumable = false := by
    intro other same
    obtain rfl := Option.some.inj (found.symm.trans same)
    exact driven.running driver stands active
  rcases row.apart books driven bound unclosed settled with apart | turned
  · exact ⟨apart.requests, .inl ⟨doomed.apart books apart, endOf_none apart.unsaid⟩⟩
  cases turned with
  | answering _ _ moves image _ ran quiet =>
    refine ⟨moves.requests_kept (by simp), .inl ⟨doomed.answering books driven moves image ran, ?_⟩⟩
    rw [quiet]
    rfl
  | resumed task _ moves drive mild =>
    have dead := doomed.task books driven moves drive
    rw [weigh, Bool.and_eq_true] at drive
    rw [weigh, dead, drive.1] at mild
    cases mild
  | answered callback result _ _ _ same goes answered goesOn =>
    obtain rfl := Option.some.inj (found.symm.trans same)
    obtain ⟨made, moves⟩ : ∃ made, Moves before after [.task (.answer callback (.driver life) result)] made := by
      rcases goesOn with ⟨made, _, _, moves⟩ | advanced
      · exact ⟨made, moves⟩
      · exact advanced.moves
    have dead := doomed.task books driven moves (by simp [weigh, drives, neutral])
    cases result with
    | ok => cases dead
    | error error =>
      obtain rfl : error = cancelledError := by simpa [dooms] using dead
      obtain ⟨rfl, phase⟩ := cancelled_fails answered
      rcases goesOn with ⟨_, request, sends, _⟩ | advanced
      · cases sends
      cases advanced with
      | sent asks => cases asks
      | reported _ completes =>
        obtain ⟨match_, first, same⟩ := completes
        cases same
      | ended _ failed ends =>
        obtain rfl := failed cancelledError rfl
        exact ends.last books own bound unclosed active done phase

end

/-- A call that reaches `ImageManagement::cancel` with the handle of an active upload. -/
inductive Cancels (before : Host) (driver : UploadDriver) : Event → Prop
  | application (handle : UploadHandle) (env : Env) (free : before.free = true) (owned : before.owned handle = true)
      (found : before.uploadOf handle = some driver) (active : driver.active = true) :
      Cancels before driver (.call (.cancelUpload handle) env)
  | updater (env : Env) (free : before.free = true) (running : before.updater.running = true)
      (valid : before.updater.upload.valid = true) (found : before.uploadOf before.updater.upload = some driver)
      (active : driver.active = true) : Cancels before driver (.call .cancel env)

def Awaits (host : Host) (driver : UploadDriver) : Prop :=
  ∃ slot entry callback, host.world.client.resolve driver.request = some (slot, entry) ∧
    entry.callback = some callback ∧ host.replies[callback]? = some (.driver driver.life)

theorem cancel_waits {world : World} {handle : Smp.RequestHandle} {slot : Nat} {entry : Smp.Pending}
    (resolved : world.client.resolve handle = some (slot, entry)) (held : entry.callback = some callback) :
    .fail callback cancelledError ∈ (world.enter (.cancel handle)).2.waiting := by
  have deferred : (world.enter (.cancel handle)).2.client.deferred =
      world.client.deferred ++ [.fail callback cancelledError] := by
    simp only [World.enter, Smp.SmpClient.cancel, resolved, Smp.SmpClient.detach, held, Smp.SmpClient.defer,
      Smp.SmpClient.deferWork, Smp.SmpClient.retire_deferred]
    rfl
  rw [World.waiting, deferred]
  simp

theorem cancelUpload_dooms {handle : UploadHandle} (found : before.uploadOf handle = some driver)
    (active : driver.active = true) (awaits : before.Awaits driver) :
    (before.cancelUpload handle).Doomed driver.life driver.onDone ∧
      (before.cancelUpload handle).requests driver.life = before.requests driver.life := by
  obtain ⟨slot, entry, callback, resolved, held, own⟩ := awaits
  unfold cancelUpload
  rw [found]
  simp only [active, Bool.not_true, Bool.false_eq_true, ↓reduceIte]
  refine ⟨⟨⟨{ driver with request := {} }, ?_, active, rfl⟩, .inl ⟨callback, own, cancel_waits resolved held⟩⟩, rfl⟩
  simp [uploadDriver, keep, Option.filter, active]

theorem dooms_stack (host : Host) (life : Nat) : host.count (fun code => drives life code && dooms life code) =
      host.tasks.countP fun task => weigh (fun code => drives life code && dooms life code) (.task task) :=
  host.count_stack (by simp [dooms]) (by simp [dooms])

theorem Cancels.doomed {before : Host} {driver : UploadDriver} {event : Event} (cancels : Cancels before driver event)
    (awaits : before.Awaits driver) : (before.step codec event).2.Doomed driver.life driver.onDone ∧
      (before.step codec event).2.requests driver.life = before.requests driver.life := by
  cases cancels with
  | application _ _ free owned found active =>
    simp only [step, free, ↓reduceIte, enter, owned]
    exact cancelUpload_dooms found active awaits
  | updater _ free running valid found active =>
    obtain ⟨marked, same⟩ := cancelUpload_dooms found active awaits
    simp only [step, free, ↓reduceIte, enter, cancel, running, Bool.not_true, Bool.false_eq_true, valid]
    refine ⟨⟨marked.running, ?_⟩, same⟩
    rcases marked.waits with ⟨callback, own, waits⟩ | holds
    · exact .inl ⟨callback, own, World.enter_waits _ _ waits⟩
    · rw [dooms_stack] at holds
      exact .inr (by rw [dooms_stack]; exact holds)

structure Drained (host : Host) : Prop where
  stack : host.world.stack = []
  deferred : host.world.client.deferred = []
  tasks : host.tasks = []

theorem Doomed.undrained {host : Host} (doomed : host.Doomed life onDone) : ¬ host.Drained := by
  intro drained
  rcases doomed.waits with ⟨callback, _, waits⟩ | holds
  · rw [World.waiting, drained.stack, drained.deferred] at waits
    cases waits
  · rw [dooms_stack, drained.tasks] at holds
    cases holds

def endsOf (life : Nat) (history : List (Transition Host Event Output)) : List (Owner × Result UploadResult) :=
  history.filterMap fun t => endOf life t.output

structure Stopped (start : Host) (life : Nat) (onDone : Option Owner) (past : List (Transition Host Event Output))
    (host : Host) : Prop where
  books : host.booked
  driven : host.Driven
  same : host.requests life = start.requests life
  silent : ∀ u ∈ past, u.after.requests life = start.requests life
  stage : host.Doomed life onDone ∧ endsOf life past = [] ∨
    host.Over life ∧ endsOf life past = (onDone.map fun owner => (owner, .error cancelledError)).toList

theorem endsOf_concat (life : Nat) (past : List (Transition Host Event Output)) (t : Transition Host Event Output) :
    endsOf life (past ++ [t]) = endsOf life past ++ (endOf life t.output).toList := by
  rw [endsOf, filterMap_append]
  cases heard : endOf life t.output <;> simp [endsOf, heard]

theorem Stopped.step {start host : Host} {onDone : Option Owner}
    {past : List (Transition Host Event Output)} (stopped : Stopped start life onDone past host) (event : Event) :
    Stopped start life onDone (past ++ [transition (Host.step codec) host event]) (host.step codec event).2 := by
  have row := @step_row codec host event stopped.books
  have next : (host.step codec event).2.requests life = start.requests life ∧
      ((host.step codec event).2.Doomed life onDone ∧
          endsOf life (past ++ [transition (Host.step codec) host event]) = [] ∨
        (host.step codec event).2.Over life ∧
          endsOf life (past ++ [transition (Host.step codec) host event]) =
            (onDone.map fun owner => (owner, .error cancelledError)).toList) := by
    rw [endsOf_concat]
    rcases stopped.stage with ⟨doomed, none_⟩ | ⟨over_, told⟩
    · obtain ⟨same, ⟨doomed, silent⟩ | ⟨over_, heard⟩⟩ := doomed.step row stopped.books stopped.driven
      · exact ⟨same.trans stopped.same, .inl ⟨doomed, by rw [none_, transition, silent]; rfl⟩⟩
      · exact ⟨same.trans stopped.same, .inr ⟨over_, by rw [none_, transition, heard]; rfl⟩⟩
    · obtain ⟨over_, same, silent⟩ := over_.step row stopped.books stopped.driven
      exact ⟨same.trans stopped.same, .inr ⟨over_, by rw [told, transition, silent]; simp⟩⟩
  refine ⟨step_booked host event stopped.books, row.driven stopped.driven stopped.books, next.1, fun u member => ?_, next.2⟩
  rcases mem_append.mp member with member | member
  · exact stopped.silent u member
  · rw [mem_singleton.mp member]
    exact next.1

section
variable (codec : Codec) (transport : Nat) (config : SmpClientConfig) (events : List Event)

/-- Once its request is cancelled, an upload asks for nothing more, and its callback hears just Cancelled. -/
theorem cancelled_upload_stops (past later : List (Transition Host Event Output)) (t : Transition Host Event Output)
    (driver : UploadDriver) (split : history codec transport config events = past ++ t :: later)
    (cancels : Cancels t.before driver t.event) (awaits : t.before.Awaits driver) :
    (∀ u ∈ t :: later, u.after.requests driver.life = t.before.requests driver.life) ∧
      (endsOf driver.life later = [] ∨
        endsOf driver.life later = (driver.onDone.map fun owner => (owner, .error cancelledError)).toList) ∧
      ((reached codec transport config events).Drained →
        endsOf driver.life later = (driver.onDone.map fun owner => (owner, .error cancelledError)).toList) := by
  obtain ⟨earlier, event, rest, whole, _, is, rest_eq⟩ := log_split (step codec) (new transport config) events split
  have books := reached_booked codec transport config earlier
  have driven := reached_driven codec transport config earlier
  rw [is] at cancels awaits
  obtain ⟨doomed, same⟩ := @Cancels.doomed codec _ _ _ cancels awaits
  have row := @step_row codec (reached codec transport config earlier) event books
  have stopped : Stopped t.after driver.life driver.onDone later (run (step codec) t.after rest) := by
    rw [rest_eq, is]
    refine history_invariant (step codec) _ (fun past host => Stopped _ driver.life driver.onDone past host) ?_
      (fun past host event stopped => stopped.step event) rest
    exact ⟨step_booked _ _ books, row.driven driven books, rfl, by simp, .inl ⟨doomed, rfl⟩⟩
  have final : reached codec transport config events = run (step codec) t.after rest := by
    rw [reached, whole, run_append, is]
    rfl
  have start : t.after.requests driver.life = t.before.requests driver.life := by
    rw [is]
    exact same
  refine ⟨?_, ?_, fun drained => ?_⟩
  · intro u member
    rcases mem_cons.mp member with rfl | member
    · exact start
    · exact (stopped.silent u member).trans start
  · exact stopped.stage.imp And.right And.right
  · rcases stopped.stage with ⟨doomed, _⟩ | ⟨_, told⟩
    · exact absurd (final ▸ drained) doomed.undrained
    · exact told

end

def arrives (op : Smp.Operation) (group : Group) (command seq : UInt8) (payload : Bytes) : Event :=
  .call (.client (.onBytes (Smp.encode
    { op := op, group := group, command := command, seq := seq, length := payload.length.toUInt16 } ++ payload))) {}

/-- The answer to a chunk, with an offset from 24 to 255. -/
def reachedOffset (offset : UInt8) : Bytes := 0xA1 :: field "off" [0x18, offset]

def smallFile : Env := { size := fun _ => 64 }

/-- A file of two chunks; the first is answered, and the progress callback cancels. -/
def cancelInProgress : List Event :=
  [.call (.upload 0 { chunkSize := 32 } true true) smallFile, arrives .writeResponse Group.image 1 0 (reachedOffset 32),
    .proceed smallFile, .proceed smallFile, .call (.cancelUpload ⟨1⟩) smallFile, .proceed smallFile, .proceed smallFile,
    .proceed smallFile, .proceed smallFile, arrives .writeResponse Group.image 1 1 (reachedOffset 64)] ++
    List.replicate 8 (.proceed smallFile)

/-- Between an answer and the next chunk there is no request to cancel, and the chunk is sent all the same. -/
theorem upload_cancelled_in_progress_goes_on : ∃ past later t driver,
    history documentCodec 0 {} cancelInProgress = past ++ t :: later ∧ Cancels t.before driver t.event ∧
      t.before.requests driver.life = 1 ∧ (reached documentCodec 0 {} cancelInProgress).requests driver.life = 2 ∧
      endsOf driver.life later = [(.application, .ok { transferred := 64 })] ∧
      (reached documentCodec 0 {} cancelInProgress).Drained := by
  refine ⟨[_, _, _, _], _, _, _, rfl, .application ⟨1⟩ smallFile ?_ ?_ rfl ?_, ?_, ?_, ?_, ?_⟩
  · decide +kernel
  · decide +kernel
  · decide +kernel
  · decide +kernel
  · decide +kernel
  · rfl
  · refine ⟨?_, ?_, ?_⟩ <;> refine length_eq_zero_iff.mp ?_ <;> decide +kernel

def cancelInFlight : List Event :=
  [.call (.upload 0 { chunkSize := 32 } true true) smallFile, .call (.cancelUpload ⟨1⟩) smallFile,
    .call (.client (.poll 0)) smallFile] ++ List.replicate 10 (.proceed smallFile)

theorem upload_cancelled_in_flight_stops : ∃ past later t driver,
    history documentCodec 0 {} cancelInFlight = past ++ t :: later ∧ Cancels t.before driver t.event ∧
      t.before.Awaits driver ∧ endsOf driver.life later = [(.application, .error cancelledError)] := by
  have drained : (reached documentCodec 0 {} cancelInFlight).Drained := by
    refine ⟨?_, ?_, ?_⟩ <;> refine length_eq_zero_iff.mp ?_ <;> decide +kernel
  refine ⟨[_], _, _, _, rfl, .application ⟨1⟩ smallFile ?_ ?_ rfl ?_, ⟨_, _, _, rfl, rfl, rfl⟩, ?_⟩
  · decide +kernel
  · decide +kernel
  · decide +kernel
  · refine (cancelled_upload_stops documentCodec 0 {} cancelInFlight [_] _ _ _ rfl
      (.application ⟨1⟩ smallFile ?_ ?_ rfl ?_) ⟨_, _, _, rfl, rfl, rfl⟩).2.2 drained <;> decide +kernel

end Smply.Host
