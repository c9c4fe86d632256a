import Smply.Boot.Model
import Smply.Dfu.Judging

namespace Smply.Boot

open BootModel Dfu List

/-- A hash that an `ImageHash` cannot hold is not told. -/
def hashOf (bytes : Bytes) : Option ImageHash :=
  if bound : bytes.length ≤ Limits.maxImageHashLength then if bytes = [] then none else some ⟨bytes, bound⟩ else none

def SlotEntry.told (entry : SlotEntry) : ImageSlot where
  image := UInt32.ofNat entry.image
  slot := UInt32.ofNat entry.slot
  version := entry.content.version
  hash := hashOf entry.content.hash
  bootable := entry.content.bootable
  pending := entry.pending
  confirmed := entry.confirmed
  active := entry.active
  permanent := entry.permanent

def tableOf (entries : List SlotEntry) : ImageState := { slots := entries.map SlotEntry.told, splitStatus := some 0 }

def carries (content : Bytes) (hash : ImageHash) : Bool :=
  (describe content).any fun described => described.hash == hash.bytes

theorem carries_unique {content : Bytes} {first second : ImageHash} (one : carries content first = true)
    (other : carries content second = true) : first = second := by
  unfold carries at one other
  cases found : describe content with
  | none =>
    rw [found] at one
    cases one
  | some =>
    simp only [found, Option.any_some, beq_iff_eq] at one other
    rcases first with ⟨first, _⟩
    rcases second with ⟨second, _⟩
    simp only at one other
    simp only [ImageHash.mk.injEq]
    exact one.symm.trans other

theorem hashOf_eq {bytes : Bytes} {hash : ImageHash} (named : hash.empty = false) :
    (hashOf bytes == some hash) = (bytes == hash.bytes) := by
  rcases hash with ⟨expected, bound⟩
  unfold ImageHash.empty at named
  rw [Bool.eq_iff_iff, beq_iff_eq, beq_iff_eq]
  unfold hashOf
  constructor
  · intro same
    split at same
    · split at same
      · cases same
      · exact congrArg ImageHash.bytes (Option.some.inj same)
    · cases same
  · rintro rfl
    rw [dif_pos bound, if_neg]
    rintro rfl
    cases named

theorem find_flatMap_zipIdx {α β : Type} (f : α × Nat → List β) (p : β → Bool) (list : List α) (start index : Nat)
    (here : α)
    (found : list[index]? = some here)
    (only : ∀ other place, (other, place) ∈ list.zipIdx start → place ≠ start + index → ∀ entry ∈ f (other, place),
      p entry = false) : ((list.zipIdx start).flatMap f).find? p = (f (here, start + index)).find? p := by
  induction list generalizing start index with
  | nil => cases found
  | cons first rest ih =>
    rw [zipIdx_cons, flatMap_cons, find?_append]
    cases index with
    | zero =>
      obtain rfl : first = here := by simpa using found
      have elsewhere : ((rest.zipIdx (start + 1)).flatMap f).find? p = none := by
        rw [find?_eq_none]
        intro entry member
        obtain ⟨⟨other, place⟩, inside, listed⟩ := mem_flatMap.mp member
        have later := le_snd_of_mem_zipIdx inside
        simp only at later
        rw [only other place (by simp [inside]) (by omega) entry listed]
        exact Bool.false_ne_true
      rw [elsewhere, Option.or_none]
      rfl
    | succ index =>
      have before : (f (first, start)).find? p = none := by
        rw [find?_eq_none]
        intro entry member
        rw [only first start (by simp) (by omega) entry member]
        exact Bool.false_ne_true
      have later := ih (start + 1) index (by simpa using found) fun other place inside apart entry listed =>
        only other place (by simp [inside]) (by omega) entry listed
      rw [before, Option.none_or, later, show start + 1 + index = start + (index + 1) by omega]

section
variable {m : BootModel} {image : UInt32} {pair : ImagePair}

theorem find_table (swaps : m.directXip = false) (here : m.images[image.toNat]? = some pair) (p : ImageSlot → Bool)
    (only : ∀ slot, p slot = true → slot.image = image) :
    (tableOf m.listing).slots.find? p = ((entries image.toNat pair).map SlotEntry.told).find? p := by
  have listed := find_flatMap_zipIdx (fun place => ((entries place.2 place.1).map SlotEntry.told)) p m.images 0
    image.toNat pair here (fun other place inside apart entry listed => by
      by_contra found
      rw [Bool.not_eq_false] at found
      obtain ⟨raw, member, rfl⟩ := mem_map.mp listed
      have number : raw.image = place := by
        unfold entries at member
        simp only [mem_append, Option.mem_toList, Option.map_eq_some_iff] at member
        rcases member with ⟨_, _, rfl⟩ | ⟨_, _, rfl⟩ <;> rfl
      have same := congrArg UInt32.toNat (only _ found)
      have small := snd_lt_of_mem_zipIdx inside
      have few := m.few
      simp only [SlotEntry.told, number, UInt32.toNat_ofNat'] at same
      rw [Nat.mod_eq_of_lt (by simp only at small; omega)] at same
      omega)
  rw [Nat.zero_add] at listed
  rw [← listed]
  simp only [tableOf, listing, swaps, Bool.false_eq_true, false_and, ↓reduceIte, map_id', map_flatMap]

end

section
variable {c : Context} {m : BootModel} {target : Target} {pair : ImagePair}

theorem holds_told (entry : SlotEntry) (named : target.hash.empty = false) :
    holds (some entry.told) target = (entry.content.hash == target.hash.bytes) := by
  simp only [holds, named, Bool.not_false, Bool.true_and, SlotEntry.told, hashOf_eq named]

theorem told_image (image : UInt32) {entry : SlotEntry} (same : entry.image = image.toNat) :
    entry.told.image = image := by
  simp only [SlotEntry.told, same, UInt32.ofNat_toNat]

variable (told : c.device = some (tableOf m.listing)) (swaps : m.directXip = false)
  (here : m.images[target.image.toNat]? = some pair)

include told swaps here

theorem activeOf_told : activeOf c target.image =
    (describe pair.primary).map fun content => (primaryEntry target.image.toNat pair content).told := by
  have search := find_table swaps here (fun slot => slot.image == target.image && slot.active) (fun slot found => by
    simp only [Bool.and_eq_true, beq_iff_eq] at found
    exact found.1)
  rw [activeOf, told, Option.bind_some, ImageState.activeSlot, search]
  unfold entries
  cases describe pair.primary with
  | some content =>
    simp [told_image target.image (show (primaryEntry target.image.toNat pair content).image = _ from rfl),
      show (primaryEntry target.image.toNat pair content).told.active = true from rfl]
  | none =>
    cases describe pair.secondary with
    | none => rfl
    | some content => simp [show (secondaryEntry target.image.toNat pair content).told.active = false from rfl]

theorem isConfirmed_told (runs : carries pair.primary target.hash = true) :
    isConfirmed (activeOf c target.image) = decide (pair.swap ≠ .revert) := by
  rw [activeOf_told told swaps here]
  unfold carries at runs
  cases found : describe pair.primary with
  | none =>
    rw [found] at runs
    cases runs
  | some => rfl

theorem slotHolding_told : slotHolding c target =
    (((entries target.image.toNat pair).map SlotEntry.told).find? fun slot => holds (some slot) target) := by
  have search := find_table swaps here (fun slot => slot.image == target.image && holds (some slot) target)
    (fun slot found => by
      simp only [Bool.and_eq_true, beq_iff_eq] at found
      exact found.1)
  rw [slotHolding, told, Option.bind_some, search]
  -- Both entries are of this image.
  have own : ∀ slot ∈ (entries target.image.toNat pair).map SlotEntry.told, slot.image = target.image := by
    intro slot member
    obtain ⟨raw, inside, rfl⟩ := mem_map.mp member
    unfold entries at inside
    simp only [mem_append, Option.mem_toList, Option.map_eq_some_iff] at inside
    rcases inside with ⟨_, _, rfl⟩ | ⟨_, _, rfl⟩ <;> exact told_image _ rfl
  rw [← head?_filter, ← head?_filter]
  congr 1
  apply filter_congr
  intro slot member
  simp only [own slot member, beq_self_eq_true, Bool.true_and]

variable (named : target.hash.empty = false)

include named

theorem running_told : holds (activeOf c target.image) target = carries pair.primary target.hash := by
  rw [activeOf_told told swaps here, carries]
  cases describe pair.primary with
  | none => rfl
  | some => exact holds_told _ named

theorem slotHolding_running (runs : carries pair.primary target.hash = true) :
    slotHolding c target = activeOf c target.image := by
  rw [slotHolding_told told swaps here, activeOf_told told swaps here]
  unfold carries at runs
  unfold entries
  cases found : describe pair.primary with
  | none =>
    rw [found] at runs
    cases runs
  | some content =>
    rw [found, Option.any_some] at runs
    have hit : holds (some (primaryEntry target.image.toNat pair content).told) target = true := by
      rw [holds_told _ named]
      exact runs
    simp [hit]

section
variable (stopped : carries pair.primary target.hash = false)
include stopped

theorem slotHolding_stopped : slotHolding c target =
    (((describe pair.secondary).map fun content => (secondaryEntry target.image.toNat pair content).told).toList.find?
      fun slot => holds (some slot) target) := by
  rw [slotHolding_told told swaps here]
  unfold carries at stopped
  unfold entries
  rw [map_append, find?_append]
  cases found : describe pair.primary with
  | none => cases describe pair.secondary <;> rfl
  | some content =>
    rw [found, Option.any_some] at stopped
    have miss : holds (some (primaryEntry target.image.toNat pair content).told) target = false := by
      rw [holds_told _ named]
      exact stopped
    cases describe pair.secondary <;> simp [miss]

theorem slotHolding_secondary (holder : carries pair.secondary target.hash = true) :
    ∃ slot, slotHolding c target = some slot ∧ slot.pending = (pair.swap = .test || pair.swap = .perm) ∧
      some slot ≠ activeOf c target.image := by
  rw [slotHolding_stopped told swaps here named stopped, activeOf_told told swaps here]
  unfold carries at holder
  cases found : describe pair.secondary with
  | none =>
    rw [found] at holder
    cases holder
  | some content =>
    rw [found, Option.any_some] at holder
    have hit : holds (some (secondaryEntry target.image.toNat pair content).told) target = true := by
      rw [holds_told _ named]
      exact holder
    refine ⟨(secondaryEntry target.image.toNat pair content).told, by simp [hit], rfl, fun same => ?_⟩
    obtain ⟨other, _, same⟩ := Option.map_eq_some_iff.mp same.symm
    have active := congrArg ImageSlot.active same
    cases active

theorem slotHolding_absent (absent : carries pair.secondary target.hash = false) : slotHolding c target = none := by
  rw [slotHolding_stopped told swaps here named stopped]
  unfold carries at absent
  cases found : describe pair.secondary with
  | none => rfl
  | some content =>
    rw [found, Option.any_some] at absent
    have miss : holds (some (secondaryEntry target.image.toNat pair content).told) target = false := by
      rw [holds_told _ named]
      exact absent
    simp [miss]

end

theorem applyOf_running (runs : carries pair.primary target.hash = true) :
    applyOf c target = if pair.swap ≠ .revert then .committed else .onTrial := by
  unfold applyOf
  dsimp only
  rw [running_told told swaps here named, runs, isConfirmed_told told swaps here runs]
  by_cases revert : pair.swap = .revert <;> simp [revert]

theorem applyOf_pending (stopped : carries pair.primary target.hash = false)
    (holder : carries pair.secondary target.hash = true) (test : pair.swap = .test) : applyOf c target = .applying := by
  obtain ⟨slot, found, pending, _⟩ := slotHolding_secondary told swaps here named stopped holder
  unfold applyOf
  dsimp only
  rw [running_told told swaps here named, stopped, found]
  simp [pending, test]

end

end Smply.Boot
