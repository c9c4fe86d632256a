import Smply.Smp.Retired

namespace Smply.Smp

open Systems List

namespace SmpClient

variable {client : SmpClient}

theorem bytes_nodup : ((List.range 256).map UInt8.ofNat).Nodup := by
  refine Nodup.map_on ?_ nodup_range
  intro first below second under same
  rw [mem_range] at below under
  have values := congrArg UInt8.toNat same
  rw [UInt8.toNat_ofNat_of_lt' below, UInt8.toNat_ofNat_of_lt' under] at values
  exact values

theorem mem_candidates (first seq : UInt8) : seq ∈ (List.range 256).map fun attempt => first + UInt8.ofNat attempt := by
  refine mem_map.mpr ⟨(seq - first).toNat, mem_range.mpr (seq - first).toNat_lt, ?_⟩
  rw [UInt8.ofNat_toNat, UInt8.add_comm, UInt8.sub_add_cancel]

theorem allocateSeq_none : client.allocateSeq = none ↔
    ∀ seq, (∃ entry ∈ client.pending, entry.active = true ∧ entry.seq = seq) ∨ client.isRetired seq = true := by
  constructor
  · intro failed seq
    unfold allocateSeq at failed
    simp only at failed
    split at failed
    · rename_i exhausted
      have taken := find?_eq_none.mp exhausted seq (mem_candidates client.nextSeq seq)
      by_cases rests : client.isRetired seq = true
      · exact .inr rests
      left
      cases found : client.findBySeq seq with
      | none => simp [found, rests] at taken
      | some place =>
        obtain ⟨slot, entry⟩ := place
        obtain ⟨stands, active, same⟩ := findBySeq_found found
        exact ⟨entry, mem_of_getElem? stands, active, same⟩
    · cases failed
  · intro taken
    cases drew : client.allocateSeq with
    | none => rfl
    | some drawn =>
      obtain ⟨seq, drawn⟩ := drawn
      have draws := allocateSeq_drawn drew
      rcases taken seq with ⟨entry, member, active, same⟩ | rests
      · exact absurd same (draws.fresh entry member active)
      · rw [isRetired, draws.unretired] at rests
        cases rests

/-- No more numbers rest than the configuration says, and the table has the size it was given. -/
structure Sized (client : SmpClient) (config : SmpClientConfig) : Prop where
  table : client.pending.length = max 1 config.maxInFlight.toNat
  rests : ∀ seq, client.retiredFlags seq = true → seq ∈ client.retiredRing
  ring : client.retiredRing.length ≤ config.maxRetiredSeqs.toNat

def activeSeqs (client : SmpClient) : List UInt8 := (client.pending.filter fun entry => entry.active).map Pending.seq

theorem activeSeqs_lt (free : client.freeSlot.isSome = true) : client.activeSeqs.length < client.pending.length := by
  obtain ⟨slot, found⟩ := Option.isSome_iff_exists.mp free
  obtain ⟨old, stands, idle⟩ := freeSlot_found found
  rw [activeSeqs, length_map]
  refine length_filter_lt_length_iff_exists.mpr ⟨old, mem_of_getElem? stands, ?_⟩
  simp [idle]

theorem Sized.suffices {config : SmpClientConfig} (sized : client.Sized config) (free : client.freeSlot.isSome = true)
    (room : max 1 config.maxInFlight.toNat + config.maxRetiredSeqs.toNat ≤ 256) : client.allocateSeq.isSome = true := by
  by_contra failed
  have taken := allocateSeq_none.mp (by simpa using failed)
  have covered : (List.range 256).map UInt8.ofNat ⊆ client.activeSeqs ++ client.retiredRing := by
    intro seq _
    rcases taken seq with ⟨entry, member, active, rfl⟩ | rests
    · refine mem_append_left _ (mem_map.mpr ⟨entry, mem_filter.mpr ⟨member, active⟩, rfl⟩)
    · exact mem_append_right _ (sized.rests seq rests)
  have count := (bytes_nodup.subperm covered).length_le
  have fewer := activeSeqs_lt free
  have ring := sized.ring
  rw [sized.table] at fewer
  rw [length_map, length_range, length_append] at count
  omega

end SmpClient

namespace World

variable {before after : World} {event : Event} {output : Output}

theorem Booked.length (booked : Booked before event output after) :
    after.client.pending.length = before.client.pending.length := by
  rcases booked.table with same | ⟨_, _, _, slot, entry, _, _, pending, _⟩ | ⟨slot, entry, _, _, pending⟩
  · rw [same]
  · rw [pending, length_set]
  · rw [pending, length_set]

theorem Booked.restless (booked : Booked before event output after) (none_ : before.client.config.maxRetiredSeqs = 0) :
    after.client.config = before.client.config ∧ after.client.retiredFlags = before.client.retiredFlags ∧
      after.client.retiredRing = before.client.retiredRing := by
  have idle (client : SmpClient) (seq : UInt8) (config : client.config = before.client.config) :
      client.retire seq = client := by
    rw [SmpClient.retire, if_pos (by rw [config]; exact none_)]
  have carry {client : SmpClient} (books : after.client.books = client) (config : client.config = before.client.config)
      (flags : client.retiredFlags = before.client.retiredFlags) (ring : client.retiredRing = before.client.retiredRing) :
      after.client.config = before.client.config ∧ after.client.retiredFlags = before.client.retiredFlags ∧
        after.client.retiredRing = before.client.retiredRing := by
    subst books
    exact ⟨config, flags, ring⟩
  cases booked with
  | kept _ _ _ books => exact carry books rfl rfl rfl
  | unsent _ _ _ _ seq _ _ _ draws books =>
    have same := draws.same
    subst same
    exact carry (books.trans (idle _ seq rfl)) rfl rfl rfl
  | sent _ _ _ _ _ _ _ _ _ _ books draws =>
    have same := draws.same
    subst same
    exact carry books rfl rfl rfl
  | detached _ _ _ entry _ _ _ books => exact carry (books.trans (idle _ entry.seq rfl)) rfl rfl rfl

variable (extractMgmtError : Bytes → Result MgmtOutcome) (transport : Nat) (config : SmpClientConfig)

theorem reached_restless (none_ : config.maxRetiredSeqs = 0) (events : List Event) :
    (reached extractMgmtError transport config events).client.config = config ∧
      (∀ seq, (reached extractMgmtError transport config events).client.retiredFlags seq = false) ∧
      (reached extractMgmtError transport config events).client.retiredRing = [] := by
  refine state_invariant (World.step extractMgmtError) (start transport config) (fun state =>
    state.client.config = config ∧ (∀ seq, state.client.retiredFlags seq = false) ∧ state.client.retiredRing = [])
    ⟨rfl, fun _ => rfl, rfl⟩ ?_ events
  rintro state event ⟨same, flags, ring⟩
  obtain ⟨config', flags', ring'⟩ := (@step_booked extractMgmtError state event).restless (by rw [same]; exact none_)
  refine ⟨config'.trans same, fun seq => ?_, ring'.trans ring⟩
  rw [flags']
  exact flags seq

theorem reached_table (events : List Event) :
    (reached extractMgmtError transport config events).client.pending.length = max 1 config.maxInFlight.toNat := by
  refine state_invariant (World.step extractMgmtError) (start transport config)
    (fun state => state.client.pending.length = max 1 config.maxInFlight.toNat) ?_ ?_ events
  · exact length_replicate
  · intro state event size
    exact (step_booked state event).length.trans size

theorem reached_sized (events : List Event) :
    (reached extractMgmtError transport config events).client.Sized config := by
  have table := reached_table extractMgmtError transport config events
  by_cases none_ : config.maxRetiredSeqs = 0
  · obtain ⟨_, flags, ring⟩ := reached_restless extractMgmtError transport config none_ events
    refine ⟨table, fun seq rests => ?_, ?_⟩
    · rw [flags seq] at rests
      cases rests
    · rw [ring]
      exact Nat.zero_le _
  · obtain ⟨same, numbering⟩ := reached_numbering extractMgmtError transport config none_ events
    refine ⟨table, fun seq rests => (numbering.flags seq).mp rests, ?_⟩
    have bounded := numbering.bounded
    rw [same] at bounded
    exact bounded

/-- Numbers run out only when all are pending or at rest; else a request with a free slot on a live link gets one. -/
theorem sequence_numbers_suffice (events : List Event) (spec : RequestSpec) (onResponse : Option Callback)
    (sent : Result Unit) (now : TimePoint) :
    let client := (reached extractMgmtError transport config events).client
    (client.allocateSeq = none ↔
      ∀ seq, (∃ entry ∈ client.pending, entry.active = true ∧ entry.seq = seq) ∨ client.isRetired seq = true) ∧
    (max 1 config.maxInFlight.toNat + config.maxRetiredSeqs.toNat ≤ 256 → client.connected = true →
      client.freeSlot.isSome = true → client.allocateSeq.isSome = true ∧
        (spec.payload.length ≤ client.config.maxSmpPayload.toNat →
          (client.request spec onResponse sent now).2.1.isSome = true)) := by
  intro client
  refine ⟨SmpClient.allocateSeq_none, fun room live free => ?_⟩
  have some_ := (reached_sized extractMgmtError transport config events).suffices free room
  refine ⟨some_, fun small => ?_⟩
  obtain ⟨slot, found⟩ := Option.isSome_iff_exists.mp free
  obtain ⟨⟨seq, drawn⟩, drew⟩ := Option.isSome_iff_exists.mp some_
  have live := live
  rw [SmpClient.request, live, if_neg (by simp), if_neg (by omega), found]
  simp only [client, drew]
  cases sent <;> rfl

/-- The largest table that the default of numbers at rest leaves room for; one request is pending, the number of another
rests. -/
theorem sequence_numbers_suffice_resting : let client := (reached (fun _ => .ok {}) 0 { maxInFlight := 192 }
      [.call (.request {} true (.ok ()) 0), .call (.request {} true (.ok ()) 0), .call (.cancel ⟨0, 1⟩)]).client
    client.isRetired 0 = true ∧ (client.findBySeq 1).isSome = true ∧ client.allocateSeq.isSome = true := by
  refine ⟨by decide +kernel, by decide +kernel, ?_⟩
  refine ((sequence_numbers_suffice (fun _ => .ok {}) 0 { maxInFlight := 192 } [.call (.request {} true (.ok ()) 0),
    .call (.request {} true (.ok ()) 0), .call (.cancel ⟨0, 1⟩)] {} none (.ok ()) 0).2 ?_ ?_ ?_).1 <;> decide +kernel

end World

end Smply.Smp
