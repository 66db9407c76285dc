import GameBytecode.Trace

/-!
What a trace buffer keeps: as many of the last lines as it has room for, in order.
-/
namespace GameBytecode

/-- The last lines, at most so many. -/
def recent (count : Nat) (lines : List String) : List String := lines.drop (lines.length - count)

section recent
variable {count : Nat} {lines : List String}

theorem recent_of_le (few : lines.length ≤ count) : recent count lines = lines := by
  rw [recent, Nat.sub_eq_zero_of_le few, List.drop_zero]

/-- Lines that are no longer among the last ones stay forgotten. -/
theorem recent_append (count : Nat) (lines more : List String) :
    recent count (recent count lines ++ more) = recent count (lines ++ more) := by
  simp only [recent]
  rw [← List.drop_append_of_le_length (Nat.sub_le ..), List.drop_drop, List.length_drop,
    List.length_append]
  congr 1
  omega

end recent

namespace TraceBuffer

/-- The lines are counted, and they fit. -/
structure Sound (b : TraceBuffer) : Prop where
  size : b.size = b.toList.length
  fits : b.size ≤ b.capacity

theorem Sound.empty (capacity : Nat) : (empty capacity).Sound := ⟨rfl, Nat.zero_le _⟩

variable {b : TraceBuffer} {line : String}

theorem push_full (some : b.capacity ≠ 0) (full : b.size = b.capacity) (line : String) :
    (b.push line).capacity = b.capacity ∧ (b.push line).size = b.size - 1 + 1 ∧
      (b.push line).toList = b.toList.tail ++ [line] := by
  obtain ⟨capacity, older, newer, size⟩ := b
  unfold push
  rw [if_neg some, if_pos full]
  cases older with
  | nil => exact ⟨rfl, rfl, rfl⟩
  | cons oldest older =>
    refine ⟨rfl, rfl, ?_⟩
    change older ++ (line :: newer).reverse = older ++ newer.reverse ++ [line]
    rw [List.reverse_cons, List.append_assoc]

theorem push_room (some : b.capacity ≠ 0) (room : b.size ≠ b.capacity) (line : String) :
    (b.push line).capacity = b.capacity ∧ (b.push line).size = b.size + 1 ∧
      (b.push line).toList = b.toList ++ [line] := by
  unfold push
  rw [if_neg some, if_neg room]
  refine ⟨rfl, rfl, ?_⟩
  change b.older ++ (line :: b.newer).reverse = b.older ++ b.newer.reverse ++ [line]
  rw [List.reverse_cons, List.append_assoc]

theorem push_capacity (b : TraceBuffer) (line : String) : (b.push line).capacity = b.capacity := by
  by_cases none : b.capacity = 0
  · rw [push, if_pos none]
  · by_cases full : b.size = b.capacity
    · exact (push_full none full line).1
    · exact (push_room none full line).1

theorem pushAll_capacity (b : TraceBuffer) (lines : List String) :
    (lines.foldl TraceBuffer.push b).capacity = b.capacity := by
  induction lines generalizing b with
  | nil => rfl
  | cons line lines ih => exact (ih (b.push line)).trans (push_capacity b line)

theorem Sound.push (h : b.Sound) (line : String) :
    (b.push line).Sound ∧ (b.push line).toList = recent b.capacity (b.toList ++ [line]) := by
  obtain ⟨counted, fits⟩ := h
  have length : (b.toList ++ [line]).length = b.size + 1 := by
    rw [List.length_append, List.length_singleton, counted]
  by_cases none : b.capacity = 0
  · have nothing : b.toList = [] := List.eq_nil_of_length_eq_zero (by omega)
    rw [TraceBuffer.push, if_pos none, nothing, none]
    exact ⟨⟨counted, fits⟩, rfl⟩
  · by_cases full : b.size = b.capacity
    · obtain ⟨capacity, size, lines⟩ := push_full none full line
      refine ⟨⟨?_, ?_⟩, ?_⟩
      · rw [size, lines, List.length_append, List.length_tail, List.length_singleton, counted]
      · omega
      · cases old : b.toList with
        | nil =>
          rw [old] at counted
          exact absurd (full.symm.trans counted) none
        | cons oldest rest =>
          rw [lines, recent, ← old, length, full, Nat.add_sub_cancel_left, old]
          rfl
    · obtain ⟨capacity, size, lines⟩ := push_room none full line
      refine ⟨⟨?_, ?_⟩, ?_⟩
      · rw [size, lines, length]
      · omega
      · rw [lines, recent_of_le (by omega)]

theorem Sound.pushAll (h : b.Sound) (lines : List String) :
    (lines.foldl TraceBuffer.push b).Sound ∧
      (lines.foldl TraceBuffer.push b).toList = recent b.capacity (b.toList ++ lines) := by
  induction lines generalizing b with
  | nil =>
    refine ⟨h, ?_⟩
    rw [List.append_nil, recent_of_le (h.size ▸ h.fits)]
    rfl
  | cons line lines ih =>
    obtain ⟨sound, first⟩ := h.push line
    obtain ⟨sound', rest⟩ := ih sound
    refine ⟨sound', rest.trans ?_⟩
    rw [push_capacity, first, recent_append, List.append_assoc]
    rfl

example : (["a", "b", "c"].foldl TraceBuffer.push (.empty 2)).toList = ["b", "c"] := by decide

end TraceBuffer
end GameBytecode
