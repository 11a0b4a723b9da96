import Mathlib.Data.List.Nodup

/-- A set kept as an array without repetitions. Every change makes a new array,
so that an iterator goes through the elements there were when it was made. -/
structure CopyOnWriteArraySet (α : Type) where
  elements : List α
  nodup : elements.Nodup

namespace CopyOnWriteArraySet
variable {α : Type}

def empty : CopyOnWriteArraySet α := ⟨[], .nil⟩

variable [DecidableEq α]

def contains (s : CopyOnWriteArraySet α) (e : α) : Bool := decide (e ∈ s.elements)

/-- A new element is put behind the others. -/
def add (s : CopyOnWriteArraySet α) (e : α) : CopyOnWriteArraySet α :=
  if new : e ∈ s.elements then s else
    ⟨s.elements ++ [e], by
      rw [List.nodup_append_comm, List.singleton_append]
      exact List.nodup_cons.mpr ⟨new, s.nodup⟩⟩

def remove (s : CopyOnWriteArraySet α) (e : α) : CopyOnWriteArraySet α :=
  ⟨s.elements.erase e, s.nodup.erase e⟩

@[simp] theorem mem_add {s : CopyOnWriteArraySet α} {e x : α} :
    x ∈ (s.add e).elements ↔ x ∈ s.elements ∨ x = e := by
  unfold add
  split
  · rename_i old
    constructor
    · exact .inl
    · rintro (member | rfl)
      · exact member
      · exact old
  · simp

@[simp] theorem mem_remove {s : CopyOnWriteArraySet α} {e x : α} :
    x ∈ (s.remove e).elements ↔ x ≠ e ∧ x ∈ s.elements := s.nodup.mem_erase_iff

end CopyOnWriteArraySet
