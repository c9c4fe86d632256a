import Smply.Dfu.Conforming
import Smply.Host.Isolation
import Smply.Host.Plain

namespace Smply

open List Option

namespace Dfu

variable {code : Code} {update : Nat}

def Driver.permits (d : Driver) (event : Event) : Bool :=
  match event.kind with
  | .start => !d.begun
  | .tick | .cancel => true
  | .disconnected => d.machine.state == .awaitingDisconnect
  | .confirmApproved => d.machine.state == .awaitingConfirmation
  | .reconnected | .reconnectFailed => d.machine.state == .awaitingReconnect
  | _ => d.pending.any (answers · event)

theorem Driver.allows_of {d : Driver} {event : Event} (plain : event.error.Plain) (permits : d.permits event = true) :
    d.allows event = true := by
  unfold Driver.allows
  rw [Bool.and_eq_true, bne_iff_ne]
  refine ⟨plain, ?_⟩
  revert permits
  unfold Driver.permits
  cases event.kind <;> exact id

def moves (event : Event) : Bool := event.kind != .tick && event.kind != .cancel

def uploads (effect : Effect) : Bool := effect == .startUpload || effect == .resumeUpload

end Dfu

namespace Host

open Systems
open Dfu (Driver isTerminal isRequest answers)
open Smp (RawResponse SmpClientConfig)

def Query.serves (query : Query) (effect : Dfu.Effect) : Bool :=
  match query, effect with
  | .parameters, .queryParameters => true
  | .bootloader, .queryBootloader => true
  | .state, .readState => true
  | .markForTest _, .markForTest => true
  | .confirm _, .confirm => true
  | .reset _, .reset | .reset _, .forceReset => true
  | _, _ => false

/-- What a piece of code is going to tell the machine. -/
inductive Role where
  | carried (effect : Dfu.Effect)
  | asked (query : Query)
  | upload
  | posted (event : Dfu.Event)
  | event (event : Dfu.Event)

def Job.role : Job → Option Role
  | .post _ event => some (.posted event)
  | .rejected (.updater _) _ => some .upload
  | .finished _ (.updater _) _ => some .upload
  | _ => none

def Code.role : Code → Option Role
  | .reply (.updater _ query) => some (.asked query)
  | .job queued => queued.role
  | .task (.answer _ (.updater _ query) _) => some (.asked query)
  | .task (.work _ queued) => queued.role
  | .task (.dispatch _ _ event) => some (.event event)
  | .task (.carry _ step) => some (.carried step.effect)
  | _ => none

def Role.moves : Role → Bool
  | .carried effect => isRequest effect
  | .posted given | .event given => Dfu.moves given
  | _ => true

/-- The machine is waiting for it. The drop of the link is never posted. -/
def Role.suits (d : Driver) : Role → Bool
  | .carried effect => d.pending.contains effect
  | .asked query => d.pending.any query.serves
  | .upload => d.pending.any Dfu.uploads
  | .posted given => given.kind != .disconnected && d.permits given
  | .event given => d.permits given

def movers (code : Code) : Bool := code.role.any Role.moves

def misfits (d : Driver) (code : Code) : Bool := code.role.any fun role => role.moves && !role.suits d

def Hearing.heard : Hearing → Nat
  | .active _ (some (.updater _)) => 1
  | _ => 0

/-- One thing at most is under way that moves the machine, and it is one the machine waits for. -/
structure Paced (host : Host) (d : Driver) : Prop where
  agreed : Dfu.Agreed d
  one : host.count movers + host.hearing.heard ≤ 1
  fits : host.count (misfits d) = 0
  upload : host.hearing.heard = 1 → d.pending.any Dfu.uploads = true

section
variable {host before after : Host} {d : Driver} {p q : Code → Bool}

theorem count_mono (le : ∀ code, p code = true → q code = true) : host.count p ≤ host.count q := by
  have split := host.count_split q p
  have same : (fun code => q code && p code) = p := by
    funext code
    cases meets : p code with
    | false => simp
    | true => simp [le code meets]
  rw [same] at split
  omega

theorem misfits_movers (code : Code) (misfit : misfits d code = true) : movers code = true := by
  unfold misfits at misfit
  unfold movers
  cases role : code.role with
  | none => simp [role] at misfit
  | some =>
    rw [role, any_some, Bool.and_eq_true] at misfit
    exact misfit.1

theorem Paced.rid (paced : Paced host d) (only : ∀ code, movers code = true → misfits d code = true ∨ p code = true)
    (none_ : host.count p = 0) : host.count movers = 0 := by
  have split := host.count_split movers (misfits d)
  have misfit := @count_mono host (fun code => movers code && misfits d code) (misfits d) (by simp)
  have other := @count_mono host (fun code => movers code && !misfits d code) p (by
    intro code meets
    rw [Bool.and_eq_true, Bool.not_eq_true'] at meets
    rcases only code meets.1 with is | is
    · rw [meets.2] at is
      cases is
    · exact is)
  have fits := paced.fits
  omega

theorem fits_alone {spent : List Code} (moves : Moves before after spent [code]) (books : before.booked)
    (one : after.count movers ≤ 1) (mover : weigh movers code = true) (fit : misfits d code = false) :
    after.count (misfits d) = 0 := by
  have split := after.count_split movers (misfits d)
  have same : (fun code => movers code && misfits d code) = misfits d := by
    funext code
    cases meets : misfits d code with
    | false => simp
    | true => simp [misfits_movers code meets]
  rw [same] at split
  have count := moves.count books fun code => movers code && !misfits d code
  have present := moves.present books fun code => movers code && !misfits d code
  have made : weigh (fun code => movers code && !misfits d code) code = true := by
    rw [weigh_and, mover, fit]
    rfl
  rw [countP_singleton, made, if_pos rfl] at count
  omega

theorem no_movers (none_ : host.count movers = 0) : host.count (misfits d) = 0 :=
  Nat.le_zero.mp (none_ ▸ count_mono misfits_movers)

end

section
variable {codec : Codec} {before after : Host} {d : Driver} {event : Event} {output : Output} {spent made : List Code}

section
variable (paced : Paced before d) (books : before.booked) (moves : Moves before after spent made)
include paced books moves

theorem Paced.kept (one : before.count movers + made.countP
    (weigh movers) + after.hearing.heard ≤ 1 + spent.countP (weigh movers))
    (fit : ∀ code ∈ made, weigh (misfits d) code = false)
    (upload : after.hearing.heard = 1 → d.pending.any Dfu.uploads = true) : Paced after d := by
  have fits := paced.fits
  have moving := moves.count books movers
  have misfitting := moves.count books (misfits d)
  have none_ : made.countP (weigh (misfits d)) = 0 := by
    rw [countP_eq_zero]
    intro code member meets
    rw [fit code member] at meets
    cases meets
  exact ⟨paced.agreed, by omega, by omega, upload⟩

theorem Paced.suits (member : code ∈ spent) (counts : code.neutral = false) {role : Role}
    (is : code.role = some role) (moving : role.moves = true) : role.suits d = true := by
  have present := moves.present books (misfits d)
  rw [paced.fits, Nat.le_zero, countP_eq_zero] at present
  by_contra misfit
  refine present code member ?_
  simpa [weigh, counts, misfits, is, moving] using misfit

end

theorem role_fit (fit : ∀ role, code.role = some role → role.moves = true → role.suits d = true) :
    weigh (misfits d) code = false := by
  unfold weigh misfits
  cases is : code.role with
  | none => simp
  | some role =>
    by_cases moving : role.moves = true
    · simp [fit role is moving]
    · simp [moving]

theorem weigh_movers (counts : code.neutral = false) : weigh movers code = code.role.any Role.moves := by
  simp [weigh, counts, movers]

theorem serves_answers {query : Query} {effect : Dfu.Effect} (serves : query.serves effect = true)
    (result : Result RawResponse) : answers effect (query.event codec result) = true := by
  have table (effect : Dfu.Effect) (kind : Dfu.EventKind) (failed : ∀ error, answers effect (failure error) = true)
      (read : ∀ slots, answers effect { kind := kind, state := some slots } = true) :
      answers effect (Query.event.table codec result kind) = true := by
    unfold Query.event.table
    split
    · exact failed _
    · exact read _
  cases query with
  | parameters =>
    cases effect with
    | queryParameters =>
      unfold Query.event
      dsimp only
      split <;> rfl
    | _ => cases serves
  | bootloader =>
    cases effect with
    | queryBootloader =>
      unfold Query.event
      dsimp only
      split <;> rfl
    | _ => cases serves
  | state =>
    cases effect with
    | readState => exact table _ _ (fun _ => rfl) fun _ => rfl
    | _ => cases serves
  | markForTest =>
    cases effect with
    | markForTest => exact table _ _ (fun _ => rfl) fun _ => rfl
    | _ => cases serves
  | confirm =>
    cases effect with
    | confirm => exact table _ _ (fun _ => rfl) fun _ => rfl
    | _ => cases serves
  | reset =>
    cases effect with
    | reset | forceReset => cases result <;> rfl
    | _ => cases serves

theorem uploads_answers {effect : Dfu.Effect} (uploads : Dfu.uploads effect = true) (host : Host)
    (result : Result UploadResult) : answers effect (host.uploadEvent result) = true := by
  have ends (effect : Dfu.Effect) (finished : ∀ transferred present, answers effect
      { kind := .uploadFinished, transferred := transferred, alreadyPresent := present } = true)
      (suspended : answers effect { kind := .uploadSuspended } = true)
      (failed : ∀ error, answers effect (failure error) = true) : answers effect (host.uploadEvent result) = true := by
    unfold uploadEvent
    split
    · split
      · exact suspended
      · exact failed _
    · exact finished _ _
  cases effect with
  | startUpload | resumeUpload => exact ends _ (fun _ _ => rfl) rfl fun _ => rfl
  | _ => cases uploads

theorem uploadEvent_moves (host : Host) (result : Result UploadResult) :
    Dfu.moves (host.uploadEvent result) = true ∧ ∀ d : Driver, d.permits (host.uploadEvent result) =
      d.pending.any (answers · (host.uploadEvent result)) := by
  unfold uploadEvent
  split
  · split <;> exact ⟨rfl, fun _ => rfl⟩
  · exact ⟨rfl, fun _ => rfl⟩

theorem queryEvent_moves (query : Query) (result : Result RawResponse) :
    Dfu.moves (query.event codec result) = true ∧ ∀ d : Driver, d.permits (query.event codec result) =
      d.pending.any (answers · (query.event codec result)) := by
  have table (kind : Dfu.EventKind) (is : kind = .stateRead ∨ kind = .markedForTest ∨ kind = .confirmed) :
      Dfu.moves (Query.event.table codec result kind) = true ∧ ∀ d : Driver,
        d.permits (Query.event.table codec result kind) =
          d.pending.any (answers · (Query.event.table codec result kind)) := by
    unfold Query.event.table
    split
    · exact ⟨rfl, fun _ => rfl⟩
    · rcases is with rfl | rfl | rfl <;> exact ⟨rfl, fun _ => rfl⟩
  cases query with
  | parameters | bootloader =>
    unfold Query.event
    dsimp only
    split <;> exact ⟨rfl, fun _ => rfl⟩
  | state => exact table _ (.inl rfl)
  | markForTest => exact table _ (.inr (.inl rfl))
  | confirm => exact table _ (.inr (.inr rfl))
  | reset => cases result <;> exact ⟨rfl, fun _ => rfl⟩

theorem any_imp {α : Type} {list : List α} {p q : α → Bool} (some_ : list.any p = true)
    (imp : ∀ value, p value = true → q value = true) : list.any q = true := by
  obtain ⟨value, member, meets⟩ := any_eq_true.mp some_
  exact any_eq_true.mpr ⟨value, member, imp value meets⟩

theorem telling_fits (asked : d.pending.any Dfu.uploads = true) (host : Host) (origin : Origin) (owner : Owner)
    (result : Result UploadResult) :
    ∀ code ∈ telling origin owner (host.uploadEvent result), weigh (misfits d) code = false := by
  intro code member
  cases owner with
  | application => cases member
  | updater =>
    rw [telling, mem_singleton] at member
    subst member
    refine role_fit fun role is _ => ?_
    cases is
    show d.permits (host.uploadEvent result) = true
    rw [(uploadEvent_moves host result).2 d]
    exact any_imp asked fun effect uploads => uploads_answers uploads host result

/-- The update has no internal error to show, and as long as it goes on it keeps to the machine's pace. -/
def Tuned (host : Host) : Prop :=
  ∀ machine, host.updater.machine = some machine →
    (∀ error, machine.report.cause = some error → error.Plain) ∧
      (host.updater.running = true → isTerminal machine.state = false →
        ∃ d : Driver, d.machine = machine ∧ Paced host d)

theorem Tuned.kept (tuned : before.Tuned) (books : before.booked) (moves : Moves before after spent made)
    (machine : after.updater.machine = before.updater.machine)
    (running : after.updater.running = before.updater.running)
    (rest : ∀ d, before.updater.machine = some d.machine → before.updater.running = true →
      isTerminal d.machine.state = false → Paced before d →
        before.count movers + made.countP (weigh movers) + after.hearing.heard ≤ 1 + spent.countP (weigh movers) ∧
          (∀ code ∈ made, weigh (misfits d) code = false) ∧
          (after.hearing.heard = 1 → d.pending.any Dfu.uploads = true)) : after.Tuned := by
  intro same here
  rw [machine] at here
  obtain ⟨plain, goesOn⟩ := tuned same here
  refine ⟨plain, fun runs live => ?_⟩
  rw [running] at runs
  obtain ⟨d, rfl, paced⟩ := goesOn runs live
  obtain ⟨one, fit, upload⟩ := rest d here runs live paced
  exact ⟨d, rfl, paced.kept books moves one fit upload⟩

theorem Tuned.passed {old new : Code} (tuned : before.Tuned) (books : before.booked)
    (moves : Moves before after [old] [new]) (steady : Steady before after) (hears : after.hearing = before.hearing)
    (counts : old.neutral = new.neutral)
    (role : ∀ role, new.role = some role → role.moves = true → ∃ earlier, old.role = some earlier ∧
      earlier.moves = true ∧ ∀ d, earlier.suits d = true → role.suits d = true) : after.Tuned := by
  refine tuned.kept books moves steady.machine steady.running fun d _ _ _ paced => ⟨?_, ?_, ?_⟩
  · rw [hears, countP_singleton, countP_singleton]
    have le : weigh movers new = true → weigh movers old = true := by
      unfold weigh movers
      rw [counts]
      intro meets
      rw [Bool.and_eq_true, Bool.not_eq_true'] at meets ⊢
      cases is : new.role with
      | none => simp [is] at meets
      | some role_ =>
        obtain ⟨earlier, was, moving, _⟩ := role role_ is (by simpa [is] using meets.2)
        exact ⟨meets.1, by simpa [was] using moving⟩
    have one := paced.one
    by_cases moving : weigh movers new = true
    · simp only [moving, le moving, ↓reduceIte]
      omega
    · simp only [moving, Bool.false_eq_true, ↓reduceIte]
      omega
  · intro code member
    rw [mem_singleton] at member
    subst member
    cases neutral : code.neutral with
    | true => simp [weigh, neutral]
    | false =>
      refine role_fit fun role_ is moving => ?_
      obtain ⟨earlier, was, moved, suits⟩ := role role_ is moving
      exact suits d (paced.suits books moves (mem_singleton.mpr rfl) (counts.trans neutral) was moved)
  · rw [hears]
    exact paced.upload

theorem heard_over {hearing : Hearing} {onProgress : Option Owner} (over_ : hearing.Over onProgress) :
    hearing.heard = 0 := by
  rcases over_ with rfl | rfl <;> rfl

theorem Pushes.roleless {task : Task} {origin : Origin} (pushes : Pushes task origin) :
    (Code.task task).role = none := by
  cases pushes <;> rfl

theorem Tuned.calmed (tuned : before.Tuned) (books : before.booked) (moves : Moves before after spent made)
    (machine : after.updater.machine = before.updater.machine)
    (running : after.updater.running = before.updater.running)
    (hears : after.hearing.heard ≤ before.hearing.heard) (light : ∀ code ∈ made, code.role.any Role.moves = false) :
    after.Tuned := by
  have none_ (code : Code) (member : code ∈ made) : weigh movers code = false := by
    simp [weigh, movers, light code member]
  refine tuned.kept books moves machine running fun d _ _ _ paced => ⟨?_, fun code member => ?_, fun heard => ?_⟩
  · have zero : made.countP (weigh movers) = 0 := by
      rw [countP_eq_zero]
      intro code member meets
      rw [none_ code member] at meets
      cases meets
    have one := paced.one
    omega
  · refine role_fit fun role is moving => ?_
    have still := light code member
    rw [is, any_some, moving] at still
    cases still
  · have one := paced.one
    exact paced.upload (by omega)

theorem Opens.role {spent : List Code} {onDone : Option Owner} (opens : Opens event spent onDone) :
    (∃ update step, spent = [.task (.carry update step)] ∧ Dfu.uploads step.effect = true ∧
      onDone = some (.updater update)) ∨ (spent = [] ∧ onDone.any Owner.isUpdater = false) := by
  cases opens with
  | carried _ update step effect =>
    refine .inl ⟨update, step, rfl, ?_, rfl⟩
    rcases effect with is | is <;> rw [is] <;> rfl
  | called _ _ _ mine => exact .inr ⟨rfl, mine⟩

theorem Paced.uploading (paced : Paced before d) (books : before.booked) {step : Dfu.Step}
    (moves : Moves before after [.task (.carry update step)] made) (uploads : Dfu.uploads step.effect = true) :
    d.pending.any Dfu.uploads = true ∧ weigh movers (.task (.carry update step)) = true := by
  have request : isRequest step.effect = true := by
    unfold Dfu.uploads at uploads
    rw [Bool.or_eq_true, beq_iff_eq, beq_iff_eq] at uploads
    rcases uploads with is | is <;> rw [is] <;> rfl
  have asked := paced.suits books moves (mem_singleton.mpr rfl) rfl rfl request
  refine ⟨any_eq_true.mpr ⟨step.effect, contains_iff_mem.mp asked, uploads⟩, ?_⟩
  rw [weigh_movers rfl]
  exact request

theorem Tuned.queued {onDone : Option Owner} {job : Owner → Job} (tuned : before.Tuned) (books : before.booked)
    (opens : Opens event spent onDone)
    (moves : Moves before after spent (onDone.map fun owner => Code.job (job owner)).toList)
    (steady : Steady before after) (hears : after.hearing.heard ≤ before.hearing.heard)
    (role : ∀ owner, (job owner).role = if owner.isUpdater then some .upload else none) : after.Tuned := by
  rcases opens.role with ⟨update, step, rfl, uploads, rfl⟩ | ⟨rfl, mine⟩
  · refine tuned.kept books moves steady.machine steady.running fun d _ _ _ paced => ?_
    obtain ⟨asked, moving⟩ := paced.uploading books moves uploads
    refine ⟨?_, fun code member => ?_, fun _ => asked⟩
    · rw [map_some, toList_some, countP_singleton, countP_singleton, moving]
      have one := paced.one
      cases weigh movers (.job (job (.updater update))) <;> simp only [Bool.false_eq_true, ↓reduceIte] <;> omega
    rw [map_some, toList_some, mem_singleton] at member
    subst member
    refine role_fit fun found is _ => ?_
    have upload : (Code.job (job (.updater update))).role = some .upload := role (.updater update)
    rw [upload] at is
    cases is
    exact asked
  · refine tuned.calmed books moves steady.machine steady.running hears fun code member => ?_
    cases onDone with
    | none => cases member
    | some owner =>
      rw [map_some, toList_some, mem_singleton] at member
      subst member
      have roleless : (Code.job (job owner)).role = none := by
        show (job owner).role = none
        rw [role, if_neg]
        simpa using mine
      simp [roleless]

def speaks (kinds : Dfu.EventKind → Bool) (code : Code) : Bool :=
  code.role.any fun role =>
    match role with
    | .posted given | .event given => kinds given.kind
    | _ => false

def approving : Code → Bool := speaks (· == .confirmApproved)

def reconnecting : Code → Bool := speaks fun kind => kind == .reconnected || kind == .reconnectFailed

def dropping : Code → Bool
  | .task (.dispatch _ _ given) => given.kind == .disconnected
  | _ => false

def awaited : Dfu.UpdateState → Code → Bool
  | .awaitingDisconnect => dropping
  | .awaitingConfirmation => approving
  | .awaitingReconnect => reconnecting
  | _ => fun _ => false

section
variable (agreed : Dfu.Agreed d) (live : isTerminal d.machine.state = false) (begun : d.machine.state ≠ .idle)
  (none_ : d.pending = [])
include agreed live begun none_

theorem permits_waiting {given : Dfu.Event} (moving : Dfu.moves given = true) (permits : d.permits given = true) :
    given.kind = .disconnected ∧ d.machine.state = .awaitingDisconnect ∨
      given.kind = .confirmApproved ∧ d.machine.state = .awaitingConfirmation ∨
      (given.kind = .reconnected ∨ given.kind = .reconnectFailed) ∧ d.machine.state = .awaitingReconnect := by
  unfold Driver.permits at permits
  cases kind : given.kind with
  | start =>
    rw [kind, Bool.not_eq_true'] at permits
    rcases agreed.idle permits with idle | halted
    · exact absurd idle begun
    · rw [live] at halted
      cases halted
  | tick | cancel => simp [Dfu.moves, kind] at moving
  | disconnected =>
    rw [kind, beq_iff_eq] at permits
    exact .inl ⟨rfl, permits⟩
  | confirmApproved =>
    rw [kind, beq_iff_eq] at permits
    exact .inr (.inl ⟨rfl, permits⟩)
  | reconnected =>
    rw [kind, beq_iff_eq] at permits
    exact .inr (.inr ⟨.inl rfl, permits⟩)
  | reconnectFailed =>
    rw [kind, beq_iff_eq] at permits
    exact .inr (.inr ⟨.inr rfl, permits⟩)
  | _ => simp [kind, none_] at permits

theorem mover_waiting {code : Code} (mover : movers code = true) :
    misfits d code = true ∨ awaited d.machine.state code = true := by
  unfold movers at mover
  cases is : code.role with
  | none => simp [is] at mover
  | some role =>
    have moving : role.moves = true := by simpa [is] using mover
    by_cases suits : role.suits d = true
    · right
      cases role with
      | carried | asked | upload => simp [Role.suits, none_] at suits
      | posted =>
        simp only [Role.suits, Bool.and_eq_true, bne_iff_ne] at suits
        rcases permits_waiting agreed live begun none_ moving suits.2 with ⟨kind, _⟩ | ⟨kind, here⟩ | ⟨kind, here⟩
        · exact absurd kind suits.1
        · simp [awaited, here, approving, speaks, is, kind]
        · rcases kind with kind | kind <;> simp [awaited, here, reconnecting, speaks, is, kind]
      | event given =>
        rcases permits_waiting agreed live begun none_ moving suits with ⟨kind, here⟩ | ⟨kind, here⟩ | ⟨kind, here⟩
        · rw [here]
          unfold Code.role at is
          split at is
          · cases is
          · rename_i job
            cases job with
            | rejected owner | finished _ owner => cases owner <;> cases is
            | _ => cases is
          · cases is
          · rename_i number job
            cases job with
            | rejected owner | finished _ owner => cases owner <;> cases is
            | _ => cases is
          · cases is
            simp [awaited, dropping, kind]
          · cases is
          · cases is
        · simp [awaited, here, approving, speaks, is, kind]
        · rcases kind with kind | kind <;> simp [awaited, here, reconnecting, speaks, is, kind]
    · left
      simp [misfits, is, moving, suits]

end

section
variable (paced : Paced before d)
include paced

theorem Paced.unmoved (live : isTerminal d.machine.state = false)
    (begun : d.machine.state ≠ .idle) (none_ : d.pending = []) (awaits : before.count (awaited d.machine.state) = 0) :
    before.count movers = 0 ∧ before.hearing.heard = 0 := by
  refine ⟨paced.rid (fun code mover => mover_waiting paced.agreed live begun none_ mover) awaits, ?_⟩
  have one := paced.one
  by_contra heard
  have asked := paced.upload (by omega)
  rw [none_] at asked
  cases asked

theorem Paced.unasked (live : isTerminal d.machine.state = false)
    (waits : d.machine.state = .awaitingDisconnect ∨ d.machine.state = .awaitingReconnect ∨
      d.machine.state = .awaitingConfirmation) : d.pending = [] := by
  rcases paced.agreed.asked live with none_ | ⟨effect, _, request, fit⟩
  · exact none_
  · obtain ⟨_, _, other⟩ := Dfu.fits_request fit request
    rcases waits with here | here | here <;> simp [here] at other

theorem Paced.set (books : before.booked) (live : isTerminal d.machine.state = false)
    (moves : Moves before after [] [code]) (hears : after.hearing = before.hearing)
    (waits : d.machine.state = .awaitingDisconnect ∨ d.machine.state = .awaitingReconnect ∨
      d.machine.state = .awaitingConfirmation) (awaits : before.count (awaited d.machine.state) = 0)
    (fit : weigh (misfits d) code = false) : Paced after d := by
  have begun : d.machine.state ≠ .idle := by rcases waits with here | here | here <;> simp [here]
  obtain ⟨unmoved, unheard⟩ := paced.unmoved live begun (paced.unasked live waits) awaits
  refine paced.kept books moves ?_ (by simpa using fit) (by rw [hears]; exact paced.upload)
  rw [unmoved, hears, unheard, countP_singleton]
  split <;> omega

theorem Paced.permitted {task : Task} {update : Nat} {given : Dfu.Event} (books : before.booked)
    (turns : Turns before task update given) (moves : Moves before after [.task task] made) :
    d.permits given = true ∧ weigh movers (.task task) = Dfu.moves given := by
  cases turns with
  | dispatch _ _ given =>
    refine ⟨?_, weigh_movers rfl⟩
    by_cases moving : Dfu.moves given = true
    · exact paced.suits books moves (mem_singleton.mpr rfl) rfl rfl moving
    unfold Dfu.moves at moving
    unfold Driver.permits
    cases kind : given.kind <;> simp [kind] at moving ⊢
  | «continue» update step goesOn =>
    have role : (Code.task (.carry update step)).role = some (.carried .continue) := by rw [← goesOn]; rfl
    have asked := paced.suits books moves (mem_singleton.mpr rfl) rfl role rfl
    refine ⟨any_eq_true.mpr ⟨.continue, contains_iff_mem.mp asked, rfl⟩, ?_⟩
    rw [weigh_movers rfl, role]
    rfl

end

theorem carry_fits (given : Dfu.Event) (update : Nat) :
    weigh (misfits (d.feed given).2) (.task (.carry update (d.machine.apply given).1)) = false := by
  refine role_fit fun role is moving => ?_
  cases is
  have asked : (d.machine.apply given).1.effect ∈ Dfu.requested (d.machine.apply given).1.effect := by
    have request : isRequest (d.machine.apply given).1.effect = true := moving
    rw [Dfu.requested, if_pos request]
    exact mem_singleton.mpr rfl
  exact contains_iff_mem.mpr (mem_append_right _ asked)

theorem Paced.onward {update : Nat} {given : Dfu.Event} (agreed : Dfu.Agreed (d.feed given).2) (books : before.booked)
    (moves : Moves before after spent [.task (.carry update (d.machine.apply given).1)])
    (hears : after.hearing = before.hearing)
    (last : before.count movers + before.hearing.heard ≤ spent.countP (weigh movers))
    (unheard : before.hearing.heard = 0) : Paced after (d.feed given).2 := by
  have count := moves.count books movers
  have present := moves.present books movers
  rw [countP_singleton] at count
  have one : after.count movers ≤ 1 := by
    split at count <;> omega
  refine ⟨agreed, by rw [hears]; omega, ?_, by rw [hears]; omega⟩
  by_cases mover : weigh movers (.task (.carry update (d.machine.apply given).1)) = true
  · refine fits_alone moves books one mover ?_
    have fit := @carry_fits d given update
    rw [weigh, show (Code.task (.carry update (d.machine.apply given).1)).neutral = false from rfl] at fit
    simpa using fit
  · rw [if_neg mover] at count
    exact no_movers (by omega)

theorem suits_same {d' : Driver} (pending : d'.pending = d.pending) (state : d'.machine.state = d.machine.state)
    (begun : d'.begun = d.begun) (role : Role) : role.suits d' = role.suits d := by
  have permits (given : Dfu.Event) : d'.permits given = d.permits given := by
    unfold Driver.permits
    rw [pending, state, begun]
  cases role <;> simp only [Role.suits, pending, permits]

theorem Paced.idled {d' : Driver} {step : Dfu.Step} (paced : Paced before d) (agreed : Dfu.Agreed d')
    (books : before.booked) (moves : Moves before after spent [.task (.carry update step)])
    (hears : after.hearing = before.hearing) (nothing : step.effect = .none) (pending : d'.pending = d.pending)
    (state : d'.machine.state = d.machine.state) (begun : d'.begun = d.begun) : Paced after d' := by
  have same : misfits d' = misfits d := by
    funext code
    unfold misfits
    congr 1
    funext role
    rw [suits_same pending state begun]
  have light : weigh movers (.task (.carry update step)) = false := by
    rw [weigh_movers rfl]
    simp [Code.role, Role.moves, nothing, isRequest]
  have moving := moves.count books movers
  have misfitting := moves.count books (misfits d)
  have fit : weigh (misfits d) (.task (.carry update step)) = false := by
    refine role_fit fun role is moved => ?_
    cases is
    simp [Role.moves, nothing, isRequest] at moved
  rw [countP_singleton, light] at moving
  rw [countP_singleton, fit] at misfitting
  simp only [Bool.false_eq_true, ↓reduceIte] at moving misfitting
  have one := paced.one
  have fits := paced.fits
  refine ⟨agreed, by rw [hears]; omega, by rw [same]; omega, ?_⟩
  rw [hears, pending]
  exact paced.upload

theorem count_none (host : Host) : host.count (fun _ => false) = 0 := by
  rw [host.count_stack (fun _ => rfl) fun _ => rfl, countP_eq_zero]
  simp [weigh]

theorem Paced.turned {task : Task} {update : Nat} {given : Dfu.Event} {now : TimePoint} (paced : Paced before d)
    (books : before.booked) (live : isTerminal d.machine.state = false) (turns : Turns before task update given)
    (plain : given.error.Plain) (alone : given.kind = .tick → before.count dropping = 0)
    (moves : Moves before after [.task task] [.task (.carry update (d.machine.apply { given with now := now }).1)])
    (hears : after.hearing = before.hearing) :
    Dfu.Agreed (d.feed { given with now := now }).2 ∧
      (isTerminal (d.feed { given with now := now }).2.machine.state = false →
        Paced after (d.feed { given with now := now }).2) := by
  obtain ⟨permits, moving⟩ := paced.permitted books turns moves
  have agreed : Dfu.Agreed (d.feed { given with now := now }).2 := paced.agreed.step (Driver.allows_of plain permits)
  refine ⟨agreed, fun open_ => ?_⟩
  have one := paced.one
  by_cases moved : Dfu.moves given = true
  · have present := moves.present books movers
    rw [countP_singleton, moving, if_pos moved] at present
    refine Paced.onward agreed books moves hears ?_ (by omega)
    rw [countP_singleton, moving, if_pos moved]
    exact one
  · have unspent : [Code.task task].countP (weigh movers) = 0 := by rw [countP_singleton, moving, if_neg moved]
    have nothing (unmoved : before.count movers = 0 ∧ before.hearing.heard = 0) :
        Paced after (d.feed { given with now := now }).2 := by
      refine Paced.onward agreed books moves hears ?_ unmoved.2
      rw [unmoved.1, unmoved.2]
      exact Nat.zero_le _
    have either : given.kind = .tick ∨ given.kind = .cancel := by
      by_contra other
      rw [not_or] at other
      simp [Dfu.moves, other] at moved
    rcases either with kind | kind
    · rcases @Dfu.decided_tick { given with now := now } d.machine paced.agreed.sane kind with
        here | same | ⟨wait, armed, _⟩
      · refine nothing (paced.unmoved live (by simp [here]) (paced.unasked live (.inl here)) ?_)
        rw [here]
        exact alone kind
      · refine paced.idled agreed books moves hears ?_ ?_ ?_ ?_
        · rw [Dfu.apply_effect, same]
        · have unanswered : d.pending.eraseP (answers · { given with now := now }) = d.pending := by
            refine eraseP_of_forall_not fun effect _ => ?_
            simp [answers, kind]
          simp [Driver.feed, unanswered, same, Dfu.requested, isRequest]
        · show (d.machine.apply { given with now := now }).2.state = d.machine.state
          rw [Dfu.apply_state, same]
        · simp [Driver.feed, kind]
      · refine nothing (paced.unmoved live ?_ (paced.agreed.armed live armed).2 ?_)
        · rcases wait with here | here <;> simp [here]
        · rcases wait with here | here <;> rw [here] <;> exact count_none before
    · have decision := @Dfu.decided_cancel d.machine { given with now := now } live kind paced.agreed.sane.whole
        fun needs => paced.agreed.sane.placed.inside (.inl needs)
      have halted : isTerminal (d.machine.apply { given with now := now }).2.state = true := by
        rw [Dfu.apply_state, decision]
        rfl
      exact absurd (halted.symm.trans open_) (by simp)

theorem role_update (mover : movers code = true) : ofUpdater code = true := by
  have owned (job : Job) (some_ : job.role.any Role.moves = true) : job.update.isSome = true := by
    cases job with
    | rejected owner | finished _ owner => cases owner <;> first | rfl | cases some_
    | post => rfl
    | application => cases some_
  cases code with
  | reply reply => cases reply <;> first | rfl | cases mover
  | job job => exact owned job mover
  | task task =>
    cases task with
    | answer _ reply => cases reply <;> first | rfl | cases mover
    | work _ job => exact owned job mover
    | dispatch | carry => rfl
    | _ => cases mover

theorem heard_owner {hearing : Hearing} (unowned : ∀ heard ∈ hearing.owners, ∀ other, heard ≠ some (.updater other)) :
    hearing.heard = 0 := by
  cases hearing with
  | active _ onDone =>
    cases onDone with
    | none => rfl
    | some owner =>
      cases owner with
      | application => rfl
      | updater other => exact absurd rfl (unowned (some (.updater other)) (by simp [Hearing.owners]) other)
  | _ => rfl

theorem started_paced {targets : List Dfu.Target} {plan : Dfu.UpdatePlan} (some_ : targets ≠ [])
    (books : before.booked) (clean : before.untouched = true) (hears : after.hearing = before.hearing)
    (moves : Moves before after [] [.job (.post update { kind := .start })]) : Paced after (.new targets plan) := by
  obtain ⟨none_, unheard⟩ := untouched_alone clean
  have idle := Nat.le_zero.mp (none_ ▸ count_mono fun _ => role_update)
  have silent : after.hearing.heard = 0 := by
    rw [hears]
    exact heard_owner unheard
  have count := moves.count books movers
  rw [countP_nil, idle, countP_singleton] at count
  have one : after.count movers ≤ 1 := by
    split at count <;> omega
  exact ⟨Dfu.new_agreed plan some_, by omega, fits_alone moves books one rfl rfl, by omega⟩

structure Timely (before : Host) (event : Event) (output : Output) : Prop where
  clean : (∃ targets plan onEvent env, event = .call (.start targets plan onEvent) env) → output = .accepted →
    before.untouched = true
  confirms : (∃ env, event = .call .confirm env) → before.updater.state = .awaitingConfirmation →
    before.count approving = 0
  resumes : (∃ env, event = .call .resumeAfterReconnect env) → before.updater.state = .awaitingReconnect →
    before.count reconnecting = 0
  givesUp : (∃ error env, event = .call (.reconnectFailed error) env) → before.updater.running = true →
    before.updater.state = .awaitingReconnect ∧ before.count reconnecting = 0
  polls : (∃ now env, event = .call (.poll now) env) → before.count dropping = 0

theorem Tuned.set (tuned : before.Tuned) (books : before.booked) (steady : Steady before after)
    (hears : after.hearing = before.hearing) (moves : Moves before after [] [code])
    (waits : before.updater.running = true → before.updater.state = .awaitingDisconnect ∨
      before.updater.state = .awaitingReconnect ∨ before.updater.state = .awaitingConfirmation)
    (awaits : before.updater.running = true → before.count (awaited before.updater.state) = 0)
    (fit : ∀ d : Driver, d.machine.state = before.updater.state → before.updater.running = true →
      weigh (misfits d) code = false) : after.Tuned := by
  intro machine here
  rw [steady.machine] at here
  obtain ⟨plain, goesOn⟩ := tuned machine here
  refine ⟨plain, fun runs live => ?_⟩
  rw [steady.running] at runs
  obtain ⟨d, rfl, paced⟩ := goesOn runs live
  have state := (state_eq here).symm
  exact ⟨d, rfl, paced.set books live moves hears (by rw [state]; exact waits runs) (by rw [state]; exact awaits runs)
    (fit d state runs)⟩

theorem Posts.tuned {call : Call} {env : Env} {given : Dfu.Event} (tuned : before.Tuned) (books : before.booked)
    (timely : Timely before (.call call env) output) (posts : Posts before call given output)
    (moves : Moves before after [] [.job (.post before.updates given)]) (steady : Steady before after)
    (hears : after.hearing = before.hearing) : after.Tuned := by
  have fits (d : Driver) (kind : given.kind ≠ .disconnected) (permits : d.permits given = true) :
      weigh (misfits d) (.job (.post before.updates given)) = false := by
    refine role_fit fun role is _ => ?_
    cases is
    simp [Role.suits, kind, permits]
  cases posts with
  | confirm here =>
    refine tuned.set books steady hears moves (fun _ => .inr (.inr here)) (fun _ => ?_) fun d state _ => ?_
    · rw [here]
      exact timely.confirms ⟨env, rfl⟩ here
    · exact fits d (by simp) (by simp [Driver.permits, state, here])
  | resume here =>
    refine tuned.set books steady hears moves (fun _ => .inr (.inl here)) (fun _ => ?_) fun d state _ => ?_
    · rw [here]
      exact timely.resumes ⟨env, rfl⟩ here
    · exact fits d (by simp) (by simp [Driver.permits, state, here])
  | reconnectFailed error running =>
    obtain ⟨here, none_⟩ := timely.givesUp ⟨error, env, rfl⟩ running
    refine tuned.set books steady hears moves (fun _ => .inr (.inl here)) (fun _ => ?_) fun d state _ => ?_
    · rw [here]
      exact none_
    · exact fits d (by simp) (by simp [Driver.permits, state, here])

theorem Tuned.turned {task : Task} {update : Nat} {given : Dfu.Event} {machine : Dfu.Machine} (tuned : before.Tuned)
    (books : before.booked) (updating : before.Updating) (plain : before.Plain) (prompt : before.Prompt)
    (turns : Turns before task update given) (here : before.updater.machine = some machine)
    (moves : Moves before after [.task task]
      [.task (.carry update (machine.apply { given with now := before.updater.lastPoll }).1)])
    (updater : after.updater = { before.updater with
      machine := some (machine.apply { given with now := before.updater.lastPoll }).2 })
    (hears : after.hearing = before.hearing) : after.Tuned := by
  intro next same
  rw [updater] at same
  cases same
  obtain ⟨fair, goesOn⟩ := tuned machine here
  cases live : isTerminal machine.state with
  | true =>
    have still := Dfu.decided_halted live { given with now := before.updater.lastPoll }
    refine ⟨fun error failed => ?_, fun _ open_ => ?_⟩
    · rw [Dfu.apply_cause, still] at failed
      exact fair error failed
    · rw [Dfu.apply_state, still] at open_
      exact absurd (live.symm.trans open_) (by simp)
  | false =>
    have runs : before.updater.running = true := by
      by_contra idle
      rw [updating.stopped (by simpa using idle) machine here] at live
      cases live
    obtain ⟨d, rfl, paced⟩ := goesOn runs live
    obtain ⟨_, rest, top, _⟩ := moves.stack
    have top : before.tasks = task :: rest := top
    have handed : given.error.Plain ∧ (given.kind = .tick → before.count dropping = 0) := by
      cases turns with
      | «continue» => exact ⟨nofun, nofun⟩
      | dispatch origin update given =>
        have fair : Task.Plain (.dispatch origin update given) := plain.tasks _ (top ▸ mem_cons_self)
        refine ⟨fair, fun kind => ?_⟩
        rw [before.count_stack (fun _ => rfl) fun _ => rfl, top, countP_cons]
        have calm := prompt.calm top
        have none_ : rest.countP (fun task => weigh dropping (.task task)) = 0 := by
          rw [countP_eq_zero]
          intro other member meets
          have still := calm other member
          cases other <;> simp [weigh, dropping, Task.dispatches] at meets still
        rw [none_]
        simp [weigh, dropping, kind]
    obtain ⟨agreed, paces⟩ := paced.turned books live turns handed.1 handed.2 moves hears
    exact ⟨agreed.cause, fun _ open_ => ⟨_, rfl, paces open_⟩⟩

theorem Trade.tuned (trade : Trade codec before event output after) (books : before.booked)
    (updating : before.Updating) (tuned : before.Tuned) (plain : before.Plain) (prompt : before.Prompt)
    (timely : Timely before event output) : after.Tuned := by
  have gone {spent : List Code} (moves : Moves before after spent []) (steady : Steady before after)
      (hears : after.hearing = before.hearing) : after.Tuned :=
    tuned.calmed books moves steady.machine steady.running (Nat.le_of_eq (by rw [hears])) (by simp)
  cases trade with
  | aside moves steady hears | dropped moves steady hears | announced moves steady hears =>
    exact gone moves steady hears
  | @answering _ reply _ moves steady hears =>
    refine tuned.passed books moves steady hears ?_ fun role is moving => ?_
    · cases reply <;> rfl
    cases reply with
    | updater => exact ⟨role, is, moving, fun _ => id⟩
    | _ => cases is
  | @working _ job moves steady hears =>
    refine tuned.passed books moves steady hears ?_ fun role is moving => ⟨role, is, moving, fun _ => id⟩
    cases job <;> rfl
  | @relayed _ _ update given moves steady hears _ relays =>
    cases relays with
    | answer _ _ query result =>
      refine tuned.passed books moves steady hears rfl fun role is _ => ⟨.asked query, rfl, rfl, fun d serves => ?_⟩
      cases is
      show d.permits _ = true
      rw [(queryEvent_moves query result).2 d]
      exact any_imp serves fun effect serves => serves_answers serves result
    | post _ _ given =>
      refine tuned.passed books moves steady hears rfl fun role is moving => ⟨.posted given, rfl, ?_, fun d suits => ?_⟩
      · cases is
        exact moving
      cases is
      simp only [Role.suits, Bool.and_eq_true] at suits
      exact suits.2
  | @told number job _ owner result speaks moves steady hears =>
    cases owner with
    | application => exact gone moves steady hears
    | updater =>
      have role : (Code.task (.work number job)).role = some .upload ∧ (Code.task (.work number job)).neutral = false := by
        cases speaks <;> exact ⟨rfl, rfl⟩
      refine tuned.passed books moves steady hears role.2 fun found is _ => ⟨.upload, role.1, rfl, fun d asked => ?_⟩
      cases is
      show d.permits _ = true
      rw [(uploadEvent_moves before result).2 d]
      exact any_imp asked fun effect uploads => uploads_answers uploads before result
  | reported _ goesOn moves steady heard hears =>
    refine tuned.calmed books moves steady.machine steady.running (Nat.le_of_eq (by rw [hears, heard])) fun code member => ?_
    rw [mem_singleton] at member
    subst member
    simp [goesOn.roleless]
  | sent _ moves steady heard hears =>
    refine tuned.calmed books moves steady.machine steady.running (Nat.le_of_eq (by rw [hears, heard])) fun code member => ?_
    rw [mem_singleton] at member
    subst member
    rfl
  | @ended _ origin _ _ owner outcome _ moves steady heard hears =>
    cases owner with
    | application =>
      refine tuned.calmed books moves steady.machine steady.running ?_ fun code member => by cases member
      rw [heard_over hears]
      exact Nat.zero_le _
    | updater update =>
      refine tuned.kept books moves steady.machine steady.running fun d _ _ _ paced => ⟨?_, ?_, ?_⟩
      · have one := paced.one
        have talks : before.hearing.heard = 1 := by rw [heard]; rfl
        rw [heard_over hears, telling, countP_singleton]
        split <;> omega
      · exact telling_fits (paced.upload (by rw [heard]; rfl)) after origin (.updater update) outcome
      · rw [heard_over hears]
        simp
  | unheard _ moves steady _ hears =>
    refine tuned.calmed books moves steady.machine steady.running ?_ (by simp)
    rw [heard_over hears]
    exact Nat.zero_le _
  | rejected opens moves steady hears =>
    refine tuned.queued books opens moves steady (Nat.le_of_eq (by rw [hears])) fun owner => ?_
    cases owner <;> rfl
  | @begun _ life _ onDone opens _ moves steady _ hears =>
    rcases opens.role with ⟨update, step, rfl, uploads, rfl⟩ | ⟨rfl, mine⟩
    · refine tuned.kept books moves steady.machine steady.running fun d _ _ _ paced => ?_
      obtain ⟨asked, moving⟩ := paced.uploading books moves uploads
      refine ⟨?_, ?_, fun _ => asked⟩
      · have one := paced.one
        have driver : weigh movers (.reply (.driver life)) = false := rfl
        rw [hears, countP_singleton, countP_singleton, moving, driver]
        simp only [Hearing.heard, Bool.false_eq_true, ↓reduceIte]
        omega
      · intro code member
        rw [mem_singleton] at member
        subst member
        rfl
    · refine tuned.calmed books moves steady.machine steady.running ?_ fun code member => ?_
      · have silent : after.hearing.heard = 0 := by
          rw [hears]
          cases onDone with
          | none => rfl
          | some owner =>
            cases owner with
            | application => rfl
            | updater => cases mine
        omega
      · rw [mem_singleton] at member
        subst member
        rfl
  | failed opens _ moves steady _ hears =>
    refine tuned.queued books opens moves steady ?_ fun owner => ?_
    · rw [heard_over hears]
      exact Nat.zero_le _
    · cases owner <;> rfl
  | turned turns here moves updater _ hears =>
    exact tuned.turned books updating plain prompt turns here moves updater hears
  | @queried _ step _ moves steady hears asks =>
    refine tuned.passed books moves steady hears rfl fun role is _ => ⟨.carried step.effect, rfl, ?_, fun d asked => ?_⟩
    · unfold queryOf at asks
      cases effect : step.effect <;> first | rfl | simp [effect] at asks
    cases is
    refine any_eq_true.mpr ⟨step.effect, contains_iff_mem.mp asked, ?_⟩
    unfold queryOf at asks
    cases effect : step.effect <;> simp [effect] at asks <;> subst asks <;> rfl
  | finished _ _ updater =>
    intro machine here
    rw [updater] at here ⊢
    exact ⟨(tuned machine here).1, by simp⟩
  | cleared moves updater _ hears =>
    exact tuned.calmed books moves (by rw [updater]) (by rw [updater]) (Nat.le_of_eq (by rw [hears])) (by simp)
  | @started _ plan _ read called accepted _ some_ moves updater _ hears =>
    intro machine here
    rw [updater] at here
    cases here
    refine ⟨by rintro _ ⟨⟩, fun _ _ => ⟨.new (read.map (·.1)) plan.decisions, rfl, ?_⟩⟩
    exact started_paced (by simpa using some_) books (timely.clean ⟨_, _, _, _, called⟩ accepted) hears moves
  | posted called posts moves steady hears =>
    subst called
    exact posts.tuned tuned books timely moves steady hears
  | cancelled _ _ running moves steady hears =>
    refine tuned.calmed books moves steady.machine steady.running (Nat.le_of_eq (by rw [hears])) fun code member => ?_
    rw [mem_singleton] at member
    subst member
    rfl
  | @polled now env _ called _ finds moves steady hears =>
    cases finds with
    | nothing => exact gone moves steady hears
    | dropped _ here =>
      refine tuned.set books steady hears moves (fun _ => .inl here) (fun _ => ?_) fun d state _ => ?_
      · rw [here]
        exact timely.polls ⟨now, env, called⟩
      refine role_fit fun role is _ => ?_
      cases is
      simp [Role.suits, Driver.permits, state, here]
    | deadline running =>
      refine tuned.calmed books moves steady.machine steady.running (Nat.le_of_eq (by rw [hears])) fun code member => ?_
      rw [mem_singleton] at member
      subst member
      rfl

end

end Host

end Smply
