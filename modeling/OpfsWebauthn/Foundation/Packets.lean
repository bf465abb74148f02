import Mathlib.Data.List.Basic
import Mathlib.Data.List.Perm.Basic

/-!
# Packets in transit

A network of first-in first-out channels is one list of packets, oldest first, with a function that
says which channel a packet is on. `takePacket` takes the packet at a position out of the list, when
no older packet is on the same channel: packets of one channel arrive in the order in which they
were sent, and packets of different channels in any order.
-/

set_option autoImplicit false
set_option relaxedAutoImplicit false

namespace OpfsWebauthn.Foundation

variable {π κ : Type*} [DecidableEq κ]

/-- The packet at a position and the packets that stay, if the packet is the oldest of its
channel. -/
def takePacket (channel : π → κ) (packets : List π) (position : ℕ) : Option (π × List π) :=
  match packets[position]? with
  | none => none
  | some packet =>
    if ∀ older ∈ packets.take position, channel older ≠ channel packet then
      some (packet, packets.eraseIdx position)
    else none

variable {channel : π → κ} {packets rest : List π} {position : ℕ} {packet : π}

omit [DecidableEq κ] in
/-- An element of a list is the one at a position, or stays when that one is erased. -/
theorem eq_or_mem_eraseIdx (hget : packets[position]? = some packet) {other : π}
    (hother : other ∈ packets) : other = packet ∨ other ∈ packets.eraseIdx position := by
  obtain ⟨hlt, rfl⟩ := List.getElem?_eq_some_iff.mp hget
  exact List.mem_cons.mp ((List.getElem_cons_eraseIdx_perm hlt).symm.mem_iff.mp hother)

/-- Taking a packet splits the packets into it and the rest. -/
theorem perm_of_takePacket (htake : takePacket channel packets position = some (packet, rest)) :
    packets.Perm (packet :: rest) := by
  unfold takePacket at htake
  split at htake
  · cases htake
  · next found hfound =>
    split_ifs at htake
    obtain ⟨rfl, rfl⟩ := Prod.mk.inj (Option.some.inj htake)
    obtain ⟨hlt, hget⟩ := List.getElem?_eq_some_iff.mp hfound
    rw [← hget]
    exact (List.getElem_cons_eraseIdx_perm hlt).symm

/-- The packet that is taken was in transit. -/
theorem mem_of_takePacket (htake : takePacket channel packets position = some (packet, rest)) :
    packet ∈ packets :=
  (perm_of_takePacket htake).mem_iff.mpr List.mem_cons_self

/-- The packets that stay were in transit. -/
theorem mem_of_mem_rest (htake : takePacket channel packets position = some (packet, rest))
    {other : π} (hother : other ∈ rest) : other ∈ packets :=
  (perm_of_takePacket htake).mem_iff.mpr (List.mem_cons_of_mem packet hother)

/-- A packet in transit is taken or stays. -/
theorem eq_or_mem_rest (htake : takePacket channel packets position = some (packet, rest))
    {other : π} (hother : other ∈ packets) : other = packet ∨ other ∈ rest :=
  List.mem_cons.mp ((perm_of_takePacket htake).mem_iff.mp hother)

/-- What a condition counts among the packets, it counts at the one taken and among the rest. -/
theorem countP_of_takePacket (htake : takePacket channel packets position = some (packet, rest))
    (condition : π → Bool) :
    packets.countP condition = rest.countP condition + if condition packet then 1 else 0 := by
  rw [(perm_of_takePacket htake).countP_eq, List.countP_cons]

/-- A broadcast that at most one receiver takes in is at most one packet. -/
theorem length_filterMap_le_one {ρ : Type*} {take : ρ → Option π} {receivers : List ρ}
    (hnodup : receivers.Nodup)
    (hone : ∀ first second, (take first).isSome → (take second).isSome → first = second) :
    (receivers.filterMap take).length ≤ 1 := by
  induction receivers with
  | nil => exact Nat.zero_le 1
  | cons receiver rest ih =>
    obtain ⟨hnew, hrest⟩ := List.nodup_cons.mp hnodup
    cases htake : take receiver with
    | none =>
      rw [List.filterMap_cons_none htake]
      exact ih hrest
    | some packet =>
      have hothers : rest.filterMap take = [] := by
        refine List.filterMap_eq_nil_iff.mpr fun other hother ↦ ?_
        by_contra hsome
        have hsame := hone receiver other (by rw [htake]; rfl)
          (Option.isSome_iff_ne_none.mpr hsome)
        exact hnew (hsame ▸ hother)
      rw [List.filterMap_cons_some htake, hothers]
      exact Nat.le_refl 1

/-- When every value is broadcast as at most one packet that counts, and only one value counts, the
packets that count are at most the occurrences of that value. -/
theorem countP_flatMap_le_count {ν : Type*} [DecidableEq ν] {broadcast : ν → List π}
    {condition : π → Bool} {value : ν}
    (hone : ∀ other, (broadcast other).countP condition ≤ if other = value then 1 else 0)
    (values : List ν) : (values.flatMap broadcast).countP condition ≤ values.count value := by
  induction values with
  | nil => exact Nat.zero_le _
  | cons first rest ih =>
    rw [List.flatMap_cons, List.countP_append, List.count_cons, Nat.add_comm]
    refine Nat.add_le_add ih ?_
    simpa using hone first

end OpfsWebauthn.Foundation
