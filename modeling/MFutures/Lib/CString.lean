import Mathlib.Data.List.TakeWhile

namespace CString

/-- What a reader of a C string sees of an array: the bytes before the first NUL. -/
def text (bytes : List UInt8) : List UInt8 := bytes.takeWhile (· != 0)

/-- The array has a NUL, so that a reader stops inside. -/
def Terminated (bytes : List UInt8) : Prop := 0 ∈ bytes

instance (bytes : List UInt8) : Decidable (Terminated bytes) :=
  inferInstanceAs (Decidable (0 ∈ bytes))

/-- Bytes copied to the front of an array, over what it held there. -/
def overwrite (front bytes : List UInt8) : List UInt8 := front ++ bytes.drop front.length

theorem overwrite_length {front bytes : List UInt8} (fits : front.length ≤ bytes.length) :
    (overwrite front bytes).length = bytes.length := by
  simp only [overwrite, List.length_append, List.length_drop]
  omega

@[simp] theorem overwrite_nil (bytes : List UInt8) : overwrite [] bytes = bytes := rfl

/-- A NUL written right after the copied bytes. -/
theorem overwrite_set {front bytes : List UInt8} (room : front.length < bytes.length) :
    (overwrite front bytes).set front.length 0 = front ++ 0 :: bytes.drop (front.length + 1) := by
  unfold overwrite
  rw [List.set_append_right _ _ (Nat.le_refl _), Nat.sub_self, List.drop_eq_getElem_cons room, List.set_cons_zero]

theorem text_terminated (front rest : List UInt8) : text (front ++ 0 :: rest) = text front := by
  unfold text
  induction front with
  | nil => rfl
  | cons b front ih =>
    by_cases nul : b = 0
    · simp [nul]
    · simp [nul, ih]

/-- The reader sees the copied bytes up to their first NUL, and nothing of what
the array held before. -/
theorem text_overwrite_set {front bytes : List UInt8} (room : front.length < bytes.length) :
    text ((overwrite front bytes).set front.length 0) = text front := by
  rw [overwrite_set room, text_terminated]

theorem terminated_overwrite_set {front bytes : List UInt8} (room : front.length < bytes.length) :
    Terminated ((overwrite front bytes).set front.length 0) := by
  rw [overwrite_set room]
  exact List.mem_append_right _ List.mem_cons_self

end CString
