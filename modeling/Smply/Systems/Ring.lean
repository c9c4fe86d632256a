import Mathlib

namespace Systems

open List

variable {size : Nat} {α : Type}

/-- A ring buffer: read from `head` on, its slots are the newest entries of the log of everything put in. -/
structure RingHolds (size : Nat) (slots : List α) (head : Nat) (log : List α) : Prop where
  contents : slots.rotate head = log.rtake size
  head : head = 0 ∨ slots.length = size ∧ head < size

theorem rtake_length (size : Nat) (log : List α) : (log.rtake size).length = min size log.length := by
  rw [rtake, length_drop]
  omega

theorem rtake_all {log : List α} (short : log.length ≤ size) : log.rtake size = log := by
  rw [rtake, Nat.sub_eq_zero_of_le short, drop_zero]

theorem rtake_push {log : List α} (full : size ≤ log.length) (positive : 0 < size) (entry : α) :
    (log ++ [entry]).rtake size = (log.rtake size).tail ++ [entry] := by
  have past : (log ++ [entry]).length - size = log.length - size + 1 := by
    rw [length_append, length_singleton]
    omega
  have within : log.length - size + 1 ≤ log.length := by omega
  rw [rtake, rtake, past, drop_append_of_le_length within, tail_drop]

theorem rtake_missed {earlier later : List α} {entry : α}
    (missed : entry ∉ (earlier ++ entry :: later).rtake size) : size ≤ later.length := by
  by_contra few
  apply missed
  have start : (earlier ++ entry :: later).length - size ≤ earlier.length := by
    rw [length_append, length_cons]
    omega
  rw [rtake, drop_append_of_le_length start]
  exact mem_append_right _ (mem_cons_self ..)

theorem rtake_within {earlier later : List α} (enough : size ≤ later.length) :
    ((earlier ++ later).rtake size).Sublist later := by
  have start : (earlier ++ later).length - size = earlier.length + (later.length - size) := by
    rw [length_append]
    omega
  rw [rtake, start, drop_append]
  simp only [Nat.add_sub_cancel_left, drop_eq_nil_of_le (Nat.le_add_right _ _), nil_append]
  exact drop_sublist _ _

theorem rotate_overwrite {slots : List α} {head : Nat} (bound : head < slots.length) (entry : α) :
    (slots.set head entry).rotate ((head + 1) % slots.length) = (slots.rotate head).tail ++ [entry] := by
  have size : (slots.set head entry).length = slots.length := length_set
  have last : (slots.set head entry).take (head + 1) = slots.take head ++ [entry] := by
    have inside : head < (slots.set head entry).length := by rw [size]; exact bound
    rw [take_succ_eq_append_getElem inside, take_set_of_le (Nat.le_refl head), getElem_set_self]
  have rest : (slots.set head entry).drop (head + 1) = slots.drop (head + 1) := drop_set_of_lt (Nat.lt_succ_self head)
  have turned := rotate_mod (slots.set head entry) (head + 1)
  rw [size] at turned
  have older : slots.drop head ≠ [] := by
    rw [ne_eq, drop_eq_nil_iff]
    omega
  rw [turned, rotate_eq_drop_append_take (by rw [size]; exact bound), rest, last,
    rotate_eq_drop_append_take (Nat.le_of_lt bound), tail_append_of_ne_nil older, tail_drop,
    append_assoc]

theorem ring_empty (size : Nat) : RingHolds (α := α) size [] 0 [] := ⟨by simp, .inl rfl⟩

namespace RingHolds

variable {size head : Nat} {slots log : List α}

section
variable (holds : RingHolds size slots head log)
include holds

theorem length : slots.length = min size log.length := by
  rw [← rtake_length, ← holds.contents, length_rotate]

theorem mem {entry : α} : entry ∈ slots ↔ entry ∈ log.rtake size := by
  rw [← holds.contents, mem_rotate]

theorem head_lt (positive : 0 < size) (full : slots.length = size) : head < slots.length := by
  have bound := holds.head
  omega

theorem grow (room : slots.length < size) (entry : α) : RingHolds size (slots ++ [entry]) head (log ++ [entry]) := by
  obtain rfl : head = 0 := holds.head.elim id fun both => by omega
  have short : log.length < size := by
    have length := holds.length
    omega
  have whole : slots = log := by rw [← rotate_zero slots, holds.contents, rtake_all (Nat.le_of_lt short)]
  refine ⟨?_, .inl rfl⟩
  rw [whole, rotate_zero, rtake_all (by rw [length_append]; exact short)]

theorem overwrite (positive : 0 < size) (full : slots.length = size)
    (entry : α) : RingHolds size (slots.set head entry) ((head + 1) % slots.length) (log ++ [entry]) := by
  have bound := holds.head_lt positive full
  have long : size ≤ log.length := by
    have length := holds.length
    omega
  constructor
  · rw [rotate_overwrite bound, holds.contents, rtake_push long positive]
  refine .inr ⟨by rw [length_set, full], ?_⟩
  rw [full]
  exact Nat.mod_lt _ positive

end

end RingHolds

theorem mem_set_nodup {slots : List α} {index : Nat} (distinct : slots.Nodup) (bound : index < slots.length)
    (entry : α) {other : α} :
    other ∈ slots.set index entry ↔ other = entry ∨ other ∈ slots ∧ other ≠ slots[index] := by
  constructor
  · intro member
    obtain ⟨at_, inside, found⟩ := getElem_of_mem member
    rw [length_set] at inside
    rw [getElem_set] at found
    by_cases same : index = at_
    · rw [if_pos same] at found
      exact .inl found.symm
    rw [if_neg same] at found
    refine .inr ⟨found ▸ getElem_mem inside, ?_⟩
    rw [← found]
    exact fun equal => same ((distinct.getElem_inj_iff).mp equal).symm
  · rintro (rfl | ⟨member, differs⟩)
    · exact mem_set bound other
    obtain ⟨at_, inside, rfl⟩ := getElem_of_mem member
    have apart : index ≠ at_ := fun same => differs (by simp only [same])
    rw [mem_iff_getElem]
    exact ⟨at_, by rw [length_set]; exact inside, by rw [getElem_set_of_ne apart]⟩

theorem nodup_set {slots : List α} {index : Nat} (distinct : slots.Nodup) {entry : α} (new : entry ∉ slots) :
    (slots.set index entry).Nodup := by
  rw [set_eq_take_append_cons_drop]
  split
  · rw [nodup_middle, nodup_cons]
    have rest : (slots.take index ++ slots.drop (index + 1)).Sublist slots := by
      conv_rhs => rw [← take_append_drop index slots]
      exact List.Sublist.append (List.Sublist.refl _) (by rw [← tail_drop]; exact tail_sublist _)
    exact ⟨fun member => new (rest.subset member), distinct.sublist rest⟩
  · exact distinct

end Systems
