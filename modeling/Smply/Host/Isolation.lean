import Smply.Host.Stop

namespace Smply.Host

open Systems List
open Smp (SmpClientConfig)
open Cbor (documentCodec)

variable {onDone onProgress : Option Owner} {code : Code} {other : Nat} {codec : Codec}

def Owner.update : Owner → Option Nat
  | .updater update => some update
  | .application => none

def Reply.update : Reply → Option Nat
  | .updater update _ => some update
  | _ => none

def Job.update : Job → Option Nat
  | .post update _ => some update
  | .rejected owner _ => owner.update
  | .finished _ owner _ => owner.update
  | .application => none

def Code.update : Code → Option Nat
  | .reply asked => asked.update
  | .job queued => queued.update
  | .task (.answer _ asked _) => asked.update
  | .task (.work _ queued) => queued.update
  | .task (.dispatch _ update _) => some update
  | .task (.carry update _) => some update
  | _ => none

def ofUpdater (code : Code) : Bool := code.update.isSome

def foreign (update : Nat) (code : Code) : Bool := code.update.any fun other => decide (other ≠ update)

def Hearing.owners : Hearing → List (Option Owner)
  | .nobody => []
  | .active onProgress onDone => [onProgress, onDone]
  | .suspended onProgress => [onProgress]

def Hearing.Own (update : Nat) (hearing : Hearing) : Prop :=
  ∀ heard ∈ hearing.owners, ∀ other, heard = some (.updater other) → other = update

def Hearing.ofUpdater (hearing : Hearing) : Bool := hearing.owners.any fun heard => heard.any Owner.isUpdater

def untouched (host : Host) : Bool := host.count ofUpdater == 0 && !host.hearing.ofUpdater

/-- A `start()` that is accepted finds nothing of an earlier update left. -/
def startsClean (t : Transition Host Event Output) : Bool :=
  match t.event, t.output with
  | .call (.start _ _ _) _, .accepted => t.before.untouched
  | _, _ => true

/-- All that is under way belongs to the newest update. -/
structure Alone (host : Host) : Prop where
  codes : host.count (foreign host.updates) = 0
  upload : host.hearing.Own host.updates
  listener : ∀ listener, host.updater.onEvent = some listener → listener = host.updates

section
variable {before after : Host} {event : Event} {output : Output} {update : Nat}

theorem foreign_false (own : ∀ other, code.update = some other → other = update) :
    weigh (foreign update) code = false := by
  unfold weigh foreign
  cases whose : code.update with
  | none => simp
  | some other => simp [own other whose]

theorem foreign_true (whose : code.update = some other) (differs : other ≠ update)
    (counts : code.neutral = false) : weigh (foreign update) code = true := by
  simp [weigh, foreign, whose, differs, counts]

theorem Alone.own {spent made : List Code} (alone : Alone before) (books : before.booked)
    (moves : Moves before after spent made) (member : code ∈ spent) (counts : code.neutral = false)
    (whose : code.update = some other) : other = before.updates := by
  by_contra differs
  have present := moves.present books (foreign before.updates)
  rw [alone.codes, Nat.le_zero, countP_eq_zero] at present
  exact present code member (foreign_true whose differs counts)

theorem Alone.made {spent made : List Code} (alone : Alone before) (books : before.booked)
    (moves : Moves before after spent made) (updates : after.updates = before.updates)
    (onEvent : ∀ listener, after.updater.onEvent = some listener → before.updater.onEvent = some listener)
    (upload : after.hearing.Own before.updates)
    (own : ∀ code ∈ made, ∀ other, code.update = some other → other = before.updates) : Alone after := by
  refine ⟨?_, by rw [updates]; exact upload, fun listener given => ?_⟩
  · have count := moves.count books (foreign before.updates)
    have none_ : made.countP (weigh (foreign before.updates)) = 0 := by
      rw [countP_eq_zero]
      intro code member
      rw [foreign_false (own code member)]
      simp
    have before_none := alone.codes
    rw [updates]
    omega
  · rw [updates]
    exact alone.listener listener (onEvent listener given)

theorem telling_update {origin : Origin} {owner : Owner} {given : Dfu.Event}
    (member : code ∈ telling origin owner given) (whose : code.update = some other) :
    owner = .updater other := by
  cases owner with
  | application => cases member
  | updater =>
    rw [telling, mem_singleton] at member
    subst member
    cases whose
    rfl

theorem Opens.own {spent made : List Code} (opens : Opens event spent onDone)
    (alone : Alone before) (books : before.booked) (moves : Moves before after spent made)
    (given : onDone = some (.updater other)) : other = before.updates := by
  cases opens with
  | carried =>
    cases given
    exact alone.own books moves (mem_singleton.mpr rfl) rfl rfl
  | called _ _ _ mine =>
    rw [given] at mine
    cases mine

theorem rejecting_update {error : Error} (member : code ∈ rejecting onDone error)
    (whose : code.update = some other) : onDone = some (.updater other) := by
  cases onDone with
  | none => cases member
  | some owner =>
    rw [rejecting, Option.map_some, Option.toList_some, mem_singleton] at member
    subst member
    cases owner with
    | application => cases whose
    | updater =>
      cases whose
      rfl

theorem failing_update {life : Nat} {outcome : Result UploadResult}
    (member : code ∈ failing life onDone outcome) (whose : code.update = some other) :
    onDone = some (.updater other) := by
  cases onDone with
  | none => cases member
  | some owner =>
    rw [failing, Option.map_some, Option.toList_some, mem_singleton] at member
    subst member
    cases owner with
    | application => cases whose
    | updater =>
      cases whose
      rfl

theorem Hearing.Own.over {hearing : Hearing} (over_ : hearing.Over onProgress)
    (own : ∀ other, onProgress = some (.updater other) → other = update) : hearing.Own update := by
  rcases over_ with rfl | rfl
  · simp [Hearing.Own, Hearing.owners]
  · simpa [Hearing.Own, Hearing.owners] using own

theorem Hearing.own_active : (Hearing.active onProgress onDone).Own update ↔
      (∀ other, onProgress = some (.updater other) → other = update) ∧
        ∀ other, onDone = some (.updater other) → other = update := by
  simp [Hearing.Own, Hearing.owners]

theorem Alone.from (alone : Alone before)
    (from_ : onProgress = onDone ∨ before.hearing = .suspended onProgress ∨ onProgress.any Owner.isUpdater = false)
    (done : ∀ other, onDone = some (.updater other) → other = before.updates) :
    ∀ other, onProgress = some (.updater other) → other = before.updates := by
  intro other given
  rcases from_ with same | suspended | mine
  · exact done other (same ▸ given)
  · have own := alone.upload
    rw [suspended] at own
    exact own onProgress (by simp [Hearing.owners]) other given
  · rw [given] at mine
    cases mine

theorem untouched_alone (clean : before.untouched = true) :
    before.count ofUpdater = 0 ∧ ∀ heard ∈ before.hearing.owners, ∀ other, heard ≠ some (.updater other) := by
  unfold untouched Hearing.ofUpdater at clean
  simp only [Bool.and_eq_true, beq_iff_eq, Bool.not_eq_true', any_eq_false] at clean
  refine ⟨clean.1, ?_⟩
  rintro heard member other rfl
  exact clean.2 _ member rfl

theorem Trade.alone (trade : Trade codec before event output after) (books : before.booked) (alone : Alone before)
    (clean : (∃ targets plan onEvent env, event = .call (.start targets plan onEvent) env) → output = .accepted →
      before.untouched = true) : Alone after := by
  have kept {spent made : List Code} (moves : Moves before after spent made) (steady : Steady before after)
      (upload : after.hearing.Own before.updates)
      (own : ∀ code ∈ made, ∀ other, code.update = some other → other = before.updates) : Alone after :=
    alone.made books moves steady.updates (fun _ given => by rw [← steady.onEvent]; exact given) upload own
  have same (hears : after.hearing = before.hearing) : after.hearing.Own before.updates := hears ▸ alone.upload
  cases trade with
  | aside moves steady hears | dropped moves steady hears | announced moves steady hears =>
    exact kept moves steady (same hears) (by simp)
  | @answering _ reply _ moves steady hears =>
    refine kept moves steady (same hears) fun code member other whose => ?_
    rw [mem_singleton] at member
    subst member
    cases reply with
    | updater => exact alone.own books moves (mem_singleton.mpr rfl) rfl whose
    | _ => cases whose
  | @working _ job moves steady hears =>
    refine kept moves steady (same hears) fun code member other whose => ?_
    rw [mem_singleton] at member
    subst member
    cases job with
    | application => cases whose
    | _ => exact alone.own books moves (mem_singleton.mpr rfl) rfl whose
  | relayed moves steady hears quiet relays =>
    refine kept moves steady (same hears) fun code member other whose => ?_
    rw [mem_singleton] at member
    subst member
    cases whose
    cases relays <;> exact alone.own books moves (mem_singleton.mpr rfl) rfl rfl
  | told speaks moves steady hears =>
    refine kept moves steady (same hears) fun code member other whose => ?_
    have owns := telling_update member whose
    subst owns
    cases speaks <;> exact alone.own books moves (mem_singleton.mpr rfl) rfl rfl
  | reported _ goesOn moves steady heard hears =>
    refine kept moves steady (same (hears.trans heard.symm)) fun code member other whose => ?_
    rw [mem_singleton] at member
    subst member
    cases goesOn <;> cases whose
  | sent _ moves steady heard hears =>
    refine kept moves steady (same (hears.trans heard.symm)) fun code member other whose => ?_
    rw [mem_singleton] at member
    subst member
    cases whose
  | ended _ moves steady heard hears =>
    have own := alone.upload
    rw [heard, Hearing.own_active] at own
    refine kept moves steady (.over hears own.1) fun code member other whose => own.2 other ?_
    rw [telling_update member whose]
  | unheard _ moves steady heard hears =>
    have own := alone.upload
    rw [heard, Hearing.own_active] at own
    exact kept moves steady (.over hears own.1) (by simp)
  | rejected opens moves steady hears =>
    exact kept moves steady (same hears) fun code member other whose =>
      opens.own alone books moves (rejecting_update member whose)
  | @begun _ _ _ onDone opens from_ moves steady _ hears =>
    have done (other : Nat) (given : onDone = some (.updater other)) := opens.own alone books moves given
    refine kept moves steady ?_ fun code member other whose => ?_
    · rw [hears, Hearing.own_active]
      exact ⟨alone.from from_ done, done⟩
    rw [mem_singleton] at member
    subst member
    cases whose
  | @failed _ _ _ onDone _ opens from_ moves steady _ hears =>
    have done (other : Nat) (given : onDone = some (.updater other)) := opens.own alone books moves given
    exact kept moves steady (.over hears (alone.from from_ done)) fun code member other whose =>
      done other (failing_update member whose)
  | @turned _ _ given _ turns _ moves updater updates hears =>
    refine alone.made books moves updates (fun _ given => by rw [updater] at given; exact given) (same hears)
      fun code member other whose => ?_
    rw [mem_singleton] at member
    subst member
    cases whose
    cases turns with
    | dispatch => rfl
    | «continue» => exact alone.own books moves (mem_singleton.mpr rfl) rfl rfl
  | queried moves steady hears =>
    refine kept moves steady (same hears) fun code member other whose => ?_
    rw [mem_singleton] at member
    subst member
    cases whose
    exact alone.own books moves (mem_singleton.mpr rfl) rfl rfl
  | finished _ moves updater updates hears =>
    refine alone.made books moves updates (fun _ given => by rw [updater] at given; exact given) (same hears)
      fun code member other whose => ?_
    rw [mem_singleton] at member
    subst member
    cases whose
  | cleared moves updater updates hears =>
    refine alone.made books moves updates (fun _ given => ?_) (same hears) (by simp)
    rw [updater] at given
    cases given
  | started called accepted idle some_ moves updater updates hears =>
    obtain ⟨none_, unheard⟩ := untouched_alone (clean ⟨_, _, _, _, called⟩ accepted)
    refine ⟨?_, ?_, fun listener given => ?_⟩
    · have split := before.count_split ofUpdater (foreign after.updates)
      have same : (fun code => ofUpdater code && foreign after.updates code) = foreign after.updates := by
        funext code
        unfold ofUpdater foreign
        cases code.update <;> simp
      have count := moves.count books (foreign after.updates)
      rw [countP_nil, countP_singleton,
        foreign_false (by intro other whose; rw [updates]; exact (Option.some.inj whose).symm)] at count
      rw [same] at split
      simp only [Bool.false_eq_true, ↓reduceIte] at count
      omega
    · rw [hears]
      exact fun heard member other given => absurd given (unheard heard member other)
    · rw [updater] at given
      rw [updates]
      exact (Option.some.inj given).symm
  | posted _ _ moves steady hears | cancelled _ _ _ moves steady hears =>
    refine kept moves steady (same hears) fun code member other whose => ?_
    rw [mem_singleton] at member
    subst member
    cases whose
    rfl
  | polled _ _ finds moves steady hears =>
    refine kept moves steady (same hears) fun code member other whose => ?_
    cases finds with
    | nothing => cases member
    | dropped | deadline =>
      rw [mem_singleton] at member
      subst member
      cases whose
      rfl

def handsOver (host : Host) : Event → Option Nat
  | .call _ _ => none
  | .proceed _ =>
    match host.controlled, host.tasks with
    | true, .dispatch _ update _ :: _ => if host.updater.running then some update else none
    | true, .carry update step :: _ => if step.effect = .continue then some update else none
    | _, _ => none

theorem Alone.handsOver (alone : Alone before) (hands : before.handsOver event = some update) :
    update = before.updates := by
  have own {task : Task} {rest : List Task} (top : before.tasks = task :: rest)
      (whose : (Code.task task).update = some update) (counts : (Code.task task).neutral = false) :
      update = before.updates := by
    by_contra differs
    have one := before.count_task (top ▸ mem_cons_self ..) (foreign_true whose differs counts)
    rw [alone.codes] at one
    cases one
  unfold Host.handsOver at hands
  split at hands
  · cases hands
  split at hands
  · rename_i top
    split at hands
    · exact own top hands rfl
    · cases hands
  · rename_i top
    split at hands
    · exact own top hands rfl
    · cases hands
  · cases hands

theorem Tells.alone {said : UpdateEvent → Prop} {listener other : Nat} {event : UpdateEvent}
    (tells : Tells before update said output) (alone : Alone before) (own : update = before.updates)
    (emitted : output = .emitted listener other event) : listener = before.updates ∧ other = before.updates := by
  rcases tells with quiet | ⟨_, _, given, _, same⟩
  · rw [quiet] at emitted
    cases emitted
  rw [same] at emitted
  cases emitted
  exact ⟨alone.listener _ given, own⟩

theorem Trade.speaks {listener other : Nat} {said : UpdateEvent} (trade : Trade codec before event output after)
    (books : before.booked) (alone : Alone before) (emitted : output = .emitted listener other said) :
    listener = before.updates ∧ other = before.updates := by
  cases trade with
  | reported _ _ _ _ heard _ progress =>
    obtain ⟨given, mine⟩ := progress.1 _ _ _ emitted
    have own := alone.upload
    rw [heard, Hearing.own_active] at own
    exact ⟨alone.listener _ given, own.1 _ mine⟩
  | turned turns _ moves _ _ _ tells =>
    refine tells.alone alone ?_ emitted
    cases turns with
    | dispatch => rfl
    | «continue» => exact alone.own books moves (mem_singleton.mpr rfl) rfl rfl
  | announced moves _ _ _ tells =>
    exact tells.alone alone (alone.own books moves (mem_singleton.mpr rfl) rfl rfl) emitted
  | finished _ moves updater _ _ tells =>
    have own := alone.own books moves (mem_singleton.mpr rfl) rfl rfl
    cases given : before.updater.onEvent with
    | none => simp [tells, given] at emitted
    | some =>
      rw [tells, given] at emitted
      cases emitted
      exact ⟨alone.listener _ given, own⟩
  | posted _ posts => cases posts <;> cases emitted
  | aside _ _ _ inert | rejected _ _ _ _ inert | begun _ _ _ _ _ _ inert
  | failed _ _ _ _ _ _ inert =>
    rw [emitted] at inert
    cases inert
  | _ => simp_all

end

section
variable (codec : Codec) (transport : Nat) (config : SmpClientConfig) (events : List Event)

/-- Nothing of one update reaches a later one, if each accepted `start()` finds nothing left of the updates before it.
-/
theorem updates_kept_apart (clean : ∀ t ∈ history codec transport config events, startsClean t = true) :
    ∀ t ∈ history codec transport config events,
      (∀ update, t.before.handsOver t.event = some update → update = t.before.updates) ∧
        ∀ listener update said, t.output = .emitted listener update said →
          listener = t.before.updates ∧ update = t.before.updates := by
  refine guarded_transitions (step codec) (new transport config) (fun host => host.Grounded ∧ host.Alone)
    (fun t => startsClean t = true) _ ⟨reached_grounded codec transport config [], ?_⟩ ?_ ?_ events clean
  · refine ⟨new_count transport config _, ?_, ?_⟩
    · have quiet : (new transport config).hearing = .nobody := rfl
      simp [quiet, Hearing.Own, Hearing.owners]
    · have none_ : (new transport config).updater.onEvent = none := rfl
      simp [none_]
  · rintro host event clean ⟨grounded, alone⟩
    refine ⟨grounded.step event, (@Grounded.trade codec _ grounded event).alone grounded.books alone ?_⟩
    rintro ⟨targets, plan, onEvent, env, rfl⟩ accepted
    simpa [startsClean, transition, accepted] using clean
  · rintro host event _ ⟨grounded, alone⟩
    refine ⟨fun update hands => alone.handsOver hands, fun listener update said emitted => ?_⟩
    exact (@Grounded.trade codec _ grounded event).speaks grounded.books alone emitted

end

def twoAtOnce : SmpClientConfig := { maxInFlight := 2 }

def answeredLate : List Event :=
  cancels askingOne ++ askingOne ++ parametersReply :: goesOn 3

/-- The answer to a request of the first update goes to the machine of the second. -/
theorem late_answer_reaches_next_update : ∃ past later t,
    history documentCodec 0 twoAtOnce answeredLate = past ++ t :: later ∧ t.before.updates = 2 ∧
      t.before.handsOver t.event = some 1 ∧ t.before.updater.state = .queryingParameters ∧
      t.after.updater.state = .queryingBootloader := by
  refine ⟨_, _, _, log_append _ _ (cancels askingOne ++ askingOne ++ parametersReply :: goesOn 2)
    (goesOn 1), ?_, ?_, ?_, ?_⟩ <;> decide +kernel

def answeredInTime : List Event :=
  cancels askingOne ++ parametersReply :: goesOn 6 ++ askingOne

theorem updates_kept_apart_in_turn :
    (reached documentCodec 0 twoAtOnce answeredInTime).updates = 2 ∧
      ∀ t ∈ history documentCodec 0 twoAtOnce answeredInTime,
      (∀ update, t.before.handsOver t.event = some update → update = t.before.updates) ∧
        ∀ listener update said, t.output = .emitted listener update said →
          listener = t.before.updates ∧ update = t.before.updates :=
  ⟨by decide +kernel, updates_kept_apart documentCodec 0 twoAtOnce answeredInTime (by decide +kernel)⟩

end Smply.Host
