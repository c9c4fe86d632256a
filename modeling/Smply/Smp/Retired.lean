import Smply.Systems.Ring
import Smply.Smp.Table

namespace Smply.Smp

open Systems List SmpClient

namespace SmpClient

variable {seq : UInt8} {entry : Pending}

structure Accounted (client : SmpClient) : Prop where
  flags : ∀ seq, client.retiredFlags seq = true ↔ seq ∈ client.retiredRing
  nodup : client.retiredRing.Nodup
  bounded : client.retiredRing.length ≤ client.config.maxRetiredSeqs.toNat
  distinct : ∀ (slot other : Nat) (entry twin : Pending), client.pending[slot]? = some entry →
    client.pending[other]? = some twin → entry.active = true → twin.active = true → entry.seq = twin.seq → slot = other
  unretired : ∀ entry ∈ client.pending, entry.active = true → client.retiredFlags entry.seq = false

structure Numbering (client : SmpClient) (log : List UInt8) : Prop extends Accounted client where
  ring : RingHolds client.config.maxRetiredSeqs.toNat client.retiredRing client.retiredHead log

theorem retire_raises {client : SmpClient} (kept : client.config.maxRetiredSeqs ≠ 0) (seq : UInt8) :
    (client.retire seq).retiredFlags seq = true ∧
      ∀ other, (client.retire seq).retiredFlags other = true → other = seq ∨ client.retiredFlags other = true := by
  unfold retire
  rw [if_neg kept]
  split
  · rename_i known
    exact ⟨known, fun other flag => .inr flag⟩
  split
  · refine ⟨if_pos rfl, fun other flag => ?_⟩
    simp only [setFlag] at flag
    by_cases same : other = seq
    · exact .inl same
    rw [if_neg same] at flag
    split at flag
    · cases flag
    · exact .inr flag
  · refine ⟨if_pos rfl, fun other flag => ?_⟩
    simp only [setFlag] at flag
    by_cases same : other = seq
    · exact .inl same
    · rw [if_neg same] at flag
      exact .inr flag

theorem onMessage_unmatched (extractMgmtError : Bytes → Result MgmtOutcome) {client : SmpClient}
    {header : Header} (payload : Bytes) (missing : client.findBySeq header.seq = none) :
    ∃ stats, client.onMessage extractMgmtError header payload = (none, { client with stats := stats }) := by
  have unmatched (stats : SmpClientStats) : { client with stats := stats }.findBySeq header.seq = none := missing
  simp only [onMessage, unmatched]
  split <;> exact ⟨_, rfl⟩

namespace Numbering

variable {client : SmpClient} {log : List UInt8}

theorem positive (kept : client.config.maxRetiredSeqs ≠ 0) : 0 < client.config.maxRetiredSeqs.toNat := by
  apply Nat.pos_of_ne_zero
  intro zero
  exact kept (UInt8.toNat_inj.mp zero)

section
variable (numbering : client.Numbering log)
include numbering

theorem retire (kept : client.config.maxRetiredSeqs ≠ 0) (awake : client.retiredFlags seq = false)
    (fresh : ∀ entry ∈ client.pending, entry.active = true → entry.seq ≠ seq) :
    (client.retire seq).Numbering (log ++ [seq]) := by
  have raises := retire_raises kept seq
  have absent : seq ∉ client.retiredRing := fun member => by
    have flag := (numbering.flags seq).mpr member
    rw [awake] at flag
    cases flag
  have unretired : ∀ entry ∈ client.pending, entry.active = true →
      (client.retire seq).retiredFlags entry.seq = false := by
    intro entry member active
    by_contra flag
    rcases raises.2 entry.seq (by simpa using flag) with same | before
    · exact fresh entry member active same
    · rw [numbering.unretired entry member active] at before
      cases before
  unfold SmpClient.retire at unretired ⊢
  rw [if_neg kept, if_neg (by rw [awake]; exact Bool.false_ne_true)] at unretired ⊢
  by_cases full : client.retiredRing.length = client.config.maxRetiredSeqs.toNat
  · rw [if_pos full] at unretired ⊢
    have bound := numbering.ring.head_lt (positive kept) full
    have oldest : client.retiredRing.getD client.retiredHead 0 = client.retiredRing[client.retiredHead] := by
      rw [getD_eq_getElem?_getD, getElem?_eq_getElem bound, Option.getD_some]
    refine
      { flags := ?_, nodup := nodup_set numbering.nodup absent, bounded := ?_, distinct := numbering.distinct,
        unretired := unretired, ring := numbering.ring.overwrite (positive kept) full seq }
    · intro other
      simp only [setFlag, oldest, mem_set_nodup numbering.nodup bound, ← numbering.flags]
      by_cases same : other = seq
      · simp only [same, ↓reduceIte, true_or]
      by_cases evicted : other = client.retiredRing[client.retiredHead]
      · rw [if_neg same, if_pos evicted]
        exact ⟨nofun, fun either => either.elim (absurd · same) fun both => absurd evicted both.2⟩
      · simp only [same, evicted, ↓reduceIte, ne_eq, not_false_eq_true, and_true, false_or]
    · rw [length_set]
      exact numbering.bounded
  · rw [if_neg full] at unretired ⊢
    have room := Nat.lt_of_le_of_ne numbering.bounded full
    refine
      { flags := ?_, nodup := ?_, bounded := ?_, distinct := numbering.distinct, unretired := unretired,
        ring := numbering.ring.grow room seq }
    · intro other
      simp only [setFlag, mem_append, mem_singleton, ← numbering.flags]
      by_cases same : other = seq
      · simp only [same, ↓reduceIte, or_true]
      · simp only [same, ↓reduceIte, or_false]
    · rw [nodup_append_comm, singleton_append, nodup_cons]
      exact ⟨absent, numbering.nodup⟩
    · rw [length_append, length_singleton]
      exact room

theorem clear (slot : Nat) (entry : Pending) :
    { client with pending := client.pending.set slot entry.cleared }.Numbering log := by
  refine { numbering with distinct := ?_, unretired := ?_ }
  · intro one other first second stood stands active live same
    rw [getElem?_set] at stood stands
    split at stood
    · split at stood
      · cases stood
        cases active
      · cases stood
    · split at stands
      · split at stands
        · cases stands
          cases live
        · cases stands
      · exact numbering.distinct one other first second stood stands active live same
  · intro other member active
    rcases mem_or_eq_of_mem_set member with member | rfl
    · exact numbering.unretired other member active
    · cases active

theorem cleared_fresh {slot : Nat} (stood : client.pending[slot]? = some entry) (active : entry.active = true) :
    ∀ other ∈ client.pending.set slot entry.cleared, other.active = true → other.seq ≠ entry.seq := by
  intro other member live same
  obtain ⟨at_, found⟩ := getElem?_of_mem member
  rw [getElem?_set] at found
  split at found
  · split at found
    · cases found
      cases live
    · cases found
  · rename_i apart
    exact apart (numbering.distinct slot at_ entry other stood found active live same.symm)

theorem put (slot : Nat) (fresh : ∀ other ∈ client.pending, other.active = true → other.seq ≠ entry.seq)
    (awake : client.retiredFlags entry.seq = false) :
    { client with pending := client.pending.set slot entry }.Numbering log := by
  refine { numbering with distinct := ?_, unretired := ?_ }
  · intro one other first second stood stands active live same
    rw [getElem?_set] at stood stands
    split at stood
    · rename_i here
      split at stands
      · rename_i there
        exact here.symm.trans there
      split at stood
      · cases stood
        exact absurd same.symm (fresh second (mem_of_getElem? stands) live)
      · cases stood
    · split at stands
      · split at stands
        · cases stands
          exact absurd same (fresh first (mem_of_getElem? stood) active)
        · cases stands
      · exact numbering.distinct one other first second stood stands active live same
  · intro other member active
    rcases mem_or_eq_of_mem_set member with member | rfl
    · exact numbering.unretired other member active
    · exact awake

theorem detached (kept : client.config.maxRetiredSeqs ≠ 0) {slot : Nat}
    (stood : client.pending[slot]? = some entry) (active : entry.active = true) :
    (client.detached slot entry).Numbering (log ++ [entry.seq]) :=
  (numbering.clear slot entry).retire kept (numbering.unretired entry (mem_of_getElem? stood) active)
    (numbering.cleared_fresh stood active)

end

end Numbering

end SmpClient

namespace World

def retired (before after : World) : Option UInt8 :=
  ((List.range 256).map UInt8.ofNat).find? fun seq => !before.client.isRetired seq && after.client.isRetired seq

def retirements (history : List (Transition World Event Output)) : List UInt8 :=
  history.filterMap fun t => retired t.before t.after

def hears (world : World) : Option Header :=
  match world.stack with
  | .feed input :: _ =>
    match world.client.assembler.turn input with
    | .delivered header _ _ _ => some header
    | .returned _ _ => none
  | _ => none

section
variable {before after : World}

theorem retired_none (same : after.client.retiredFlags = before.client.retiredFlags) :
    retired before after = none := by
  rw [retired, find?_eq_none]
  intro seq _
  simp [isRetired, same]

theorem retired_some (awake : before.client.retiredFlags seq = false) (rests : after.client.retiredFlags seq = true)
    (others : ∀ other, after.client.retiredFlags other = true → other = seq ∨ before.client.retiredFlags other = true) :
    retired before after = some seq := by
  have member := mem_map.mpr ⟨seq.toNat, mem_range.mpr seq.toNat_lt, UInt8.ofNat_toNat⟩
  cases found : retired before after with
  | none =>
    have no := find?_eq_none.mp found seq member
    simp [isRetired, awake, rests] at no
  | some other =>
    have yes := find?_some found
    simp only [isRetired, Bool.and_eq_true, Bool.not_eq_eq_eq_not, Bool.not_true] at yes
    rcases others other yes.2 with rfl | before_
    · rfl
    · rw [yes.1] at before_
      cases before_

section
variable {event : Event} {output : Output} (booked : Booked before event output after)
include booked

theorem Booked.numbering {log : List UInt8} (numbering : before.client.Numbering log)
    (kept : before.client.config.maxRetiredSeqs ≠ 0) :
    after.client.config = before.client.config ∧ after.client.Numbering (log ++ (retired before after).toList) := by
  have carry {client : SmpClient} (books : after.client.books = client) {log : List UInt8}
      (numbering : client.Numbering log) : after.client.Numbering log := by
    subst books
    exact { numbering with }
  have raised {client : SmpClient} {seq : UInt8} (books : after.client.books = client.retire seq)
      (config : client.config = before.client.config) (flags : client.retiredFlags = before.client.retiredFlags)
      (awake : before.client.retiredFlags seq = false) : retired before after = some seq := by
    have raises := retire_raises (config ▸ kept) seq
    rw [← books, flags] at raises
    exact retired_some awake raises.1 raises.2
  cases booked with
  | kept _ _ _ books =>
    have flags := congrArg retiredFlags books
    have config := congrArg config books
    rw [@retired_none before after flags, Option.toList_none, append_nil]
    exact ⟨config, carry books { numbering with }⟩
  | unsent _ _ _ _ seq _ _ _ draws books =>
    have same := draws.same
    subst same
    rw [raised books rfl rfl draws.unretired]
    refine ⟨(congrArg config books).trans (retire_config _ _), carry books ?_⟩
    have drew : { before.client with nextSeq := seq + 1 }.books.Numbering log := { numbering with }
    exact drew.retire kept draws.unretired draws.fresh
  | sent _ _ _ slot _ _ _ _ _ _ books draws =>
    have same := draws.same
    subst same
    have flags := congrArg retiredFlags books
    have config := congrArg config books
    rw [@retired_none before after flags, Option.toList_none, append_nil]
    exact ⟨config, carry books { numbering.put slot draws.fresh draws.unretired with }⟩
  | detached _ _ _ entry _ stood active books =>
    rw [raised books rfl rfl (numbering.unretired entry (mem_of_getElem? stood) active)]
    refine ⟨(congrArg config books).trans (retire_config _ _), carry books ?_⟩
    have table : before.client.books.Numbering log := { numbering with }
    exact table.detached kept stood active

theorem Booked.wired_awake (wired : wire before after = some seq) : before.client.retiredFlags seq = false := by
  cases booked with
  | kept _ _ _ _ quiet | detached _ _ _ _ _ _ _ _ quiet =>
    rw [quiet] at wired
    cases wired
  | unsent _ _ _ _ _ _ _ _ draws _ wires | sent _ _ _ _ _ _ _ _ _ _ _ draws _ _ _ _ wires =>
    rw [wires] at wired
    cases wired
    exact draws.unretired

end

end

variable (extractMgmtError : Bytes → Result MgmtOutcome) (transport : Nat) (config : SmpClientConfig)

theorem start_numbering : (start transport config).client.Numbering [] := by
  refine { flags := ?_, nodup := nodup_nil, bounded := Nat.zero_le _, distinct := ?_, unretired := fun _ _ _ => rfl,
           ring := ring_empty _ }
  · intro seq
    exact ⟨nofun, fun member => (not_mem_nil member).elim⟩
  intro slot other entry twin stood _ active
  rw [eq_of_mem_replicate (mem_of_getElem? stood)] at active
  cases active

theorem reached_numbering (kept : config.maxRetiredSeqs ≠ 0) (events : List Event) :
    (reached extractMgmtError transport config events).client.config = config ∧
      (reached extractMgmtError transport config events).client.Numbering
        (retirements (history extractMgmtError transport config events)) := by
  refine history_invariant _ _
    (fun past (state : World) => state.client.config = config ∧ state.client.Numbering (retirements past)) ?_ ?_ events
  · exact ⟨rfl, start_numbering transport config⟩
  rintro past state event ⟨same, numbering⟩
  have next := (@step_booked extractMgmtError state event).numbering numbering (by rw [same]; exact kept)
  refine ⟨next.1.trans same, ?_⟩
  rw [retirements, filterMap_append]
  exact next.2

theorem late_answer {before : World} {log : List UInt8} (numbering : before.client.Numbering log) {header : Header}
    (heard : before.hears = some header) (rests : before.client.retiredFlags header.seq = true) :
    (before.proceed extractMgmtError).1 = .quiet ∧
      (before.proceed extractMgmtError).2.client.pending = before.client.pending := by
  unfold hears at heard
  split at heard
  · rename_i input stack top
    split at heard
    · rename_i message payload assembler rest turned
      cases heard
      have missing : { before.client with assembler := assembler }.findBySeq header.seq = none := by
        cases found : { before.client with assembler := assembler }.findBySeq header.seq with
        | none => rfl
        | some place =>
          obtain ⟨slot, entry⟩ := place
          obtain ⟨stood, active, same⟩ := findBySeq_found found
          have awake := numbering.unretired entry (mem_of_getElem? stood) active
          rw [same, rests] at awake
          cases awake
      obtain ⟨stats, dropped⟩ := onMessage_unmatched extractMgmtError payload missing
      simp only [proceed, top, turned, dropped]
      exact ⟨rfl, rfl⟩
    · cases heard
  · cases heard

theorem retirements_split (past mid : List (Transition World Event Output)) {t : Transition World Event Output}
    (rested : retired t.before t.after = some seq) :
    retirements (past ++ t :: mid) = retirements past ++ seq :: retirements mid := by
  rw [retirements, filterMap_append, filterMap_cons, rested]
  rfl

/-- Flags, ring and table agree. A retired number rests until as many others were retired as the ring holds. -/
theorem retired_numbers_rest (kept : config.maxRetiredSeqs ≠ 0) (events : List Event) :
    (reached extractMgmtError transport config events).client.config = config ∧
    (reached extractMgmtError transport config events).client.Accounted ∧
    ∀ past t mid u later seq, history extractMgmtError transport config events = past ++ t :: (mid ++ u :: later) →
      retired t.before t.after = some seq →
      (wire u.before u.after = some seq → ∃ further : List UInt8, further.Sublist (retirements mid) ∧ further.Nodup ∧
        further.length = config.maxRetiredSeqs.toNat ∧ seq ∉ further) ∧
      ((retirements mid).length < config.maxRetiredSeqs.toNat → ∀ header, u.event = .proceed →
        u.before.hears = some header → header.seq = seq →
        u.output = .quiet ∧ u.after.client.pending = u.before.client.pending) := by
  obtain ⟨same, numbering⟩ := reached_numbering extractMgmtError transport config kept events
  refine ⟨same, numbering.toAccounted, ?_⟩
  intro past t mid u later seq splits rested
  rw [← cons_append, ← append_assoc] at splits
  obtain ⟨earlier, event, rest, _, ran, now, _⟩ := log_split _ _ _ splits
  obtain ⟨same, numbering⟩ := reached_numbering extractMgmtError transport config kept earlier
  rw [history, ran, retirements_split past mid rested] at numbering
  subst now
  constructor
  · intro wired
    have awake := (@step_booked extractMgmtError _ event).wired_awake wired
    have missed : seq ∉ (retirements past ++ seq :: retirements mid).rtake config.maxRetiredSeqs.toNat := by
      rw [← same, ← numbering.ring.mem, ← numbering.flags]
      exact fun flag => Bool.false_ne_true (awake.symm.trans flag)
    have enough := rtake_missed missed
    have contents := numbering.ring.contents
    rw [same] at contents
    refine ⟨(retirements past ++ seq :: retirements mid).rtake config.maxRetiredSeqs.toNat, ?_, ?_, ?_, missed⟩
    · rw [append_cons]
      exact rtake_within enough
    · rw [← contents, nodup_rotate]
      exact numbering.nodup
    · rw [rtake_length, length_append, length_cons]
      omega
  · intro within header proceeds heard named
    have rests : (reached extractMgmtError transport config earlier).client.retiredFlags header.seq = true := by
      rw [named]
      by_contra flag
      rw [numbering.flags, numbering.ring.mem, same] at flag
      exact Nat.not_le_of_lt within (rtake_missed flag)
    have proceeds := proceeds
    subst proceeds
    exact late_answer extractMgmtError numbering heard rests

def answeredLate : List Event :=
  [.call (.request {} true (.ok ()) 0), .call (.cancel { slot := 0, generation := 1 }),
    .call (.onBytes (encode { op := .readResponse, length := 1 } ++ [0xA0])), .proceed]

theorem retired_numbers_rest_late :
    ∃ past t mid u later header, history (fun _ => .ok {}) 0 {} answeredLate = past ++ t :: (mid ++ u :: later) ∧
      retired t.before t.after = some 0 ∧ (retirements mid).length < 64 ∧ u.before.hears = some header ∧
      header.seq = 0 ∧ u.output = .quiet ∧ u.after.client.pending = u.before.client.pending := by
  have window := (retired_numbers_rest (fun _ => .ok {}) 0 {} (by decide) answeredLate).2.2 [_] _ [_] _ [] 0 rfl
    (by decide +kernel)
  refine ⟨[_], _, [_], _, [], _, rfl, by decide +kernel, by decide +kernel, rfl, by decide +kernel, ?_⟩
  exact window.2 (by decide +kernel) _ rfl rfl (by decide +kernel)

end World

end Smply.Smp
