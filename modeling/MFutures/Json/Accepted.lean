import MFutures.Json.RoundTrip

namespace MFutures.Json

/-- What holds of every value that the reader makes: an integer has the type of its
range, a double is finite, and no two members share a name. -/
def Made : Value → Prop
  | .intValue n => minLargestInt ≤ n ∧ n ≤ maxInt
  | .uintValue n => maxInt < n ∧ n ≤ maxLargestUInt
  | .realValue d => d.IsFinite ∧ d.IsBinary64
  | .objectValue members => (members.map Prod.fst).Nodup
  | _ => True

/-- Values that a reader with so much room makes. -/
def Within (room : Nat) (v : Value) : Prop := v.All Made ∧ height v ≤ room

section numbers
variable {room : Nat}

theorem within_intValue {n : Int} (lower : minLargestInt ≤ n) (upper : n ≤ maxInt) : Within (room + 1) (.intValue n) :=
  ⟨.intValue ⟨lower, upper⟩, Nat.succ_le_succ (Nat.zero_le _)⟩

theorem within_integerValue {negative : Bool} {m : Nat}
    (fits : m ≤ if negative then maxLargestInt + 1 else maxLargestUInt) :
    Within (room + 1) (integerValue negative m) := by
  unfold integerValue
  cases negative with
  | true =>
    simp only [if_true, maxLargestInt] at fits
    refine within_intValue ?_ ?_
    · unfold minLargestInt
      omega
    · unfold maxInt
      omega
  | false =>
    simp only [Bool.false_eq_true, if_false] at fits ⊢
    split
    · rename_i small
      exact within_intValue (by unfold minLargestInt; omega) small
    · rename_i large
      exact ⟨.uintValue ⟨Int.not_le.mp large, fits⟩, Nat.succ_le_succ (Nat.zero_le _)⟩

theorem readUnsigned_nonneg {s : List Char} {x : ℚ} (read : readUnsigned s = some x) : 0 ≤ x := by
  unfold readUnsigned at read
  dsimp only at read
  split at read
  · cases read
  · obtain ⟨exponent, -, rfl⟩ := Option.map_eq_some_iff.mp read
    exact mul_nonneg (Nat.cast_nonneg _) (zpow_pos (by norm_num) _).le

theorem readDecimal_nonneg {s : List Char} {decimal : Bool × ℚ} (read : readDecimal s = some decimal) :
    0 ≤ decimal.2 := by
  unfold readDecimal at read
  split at read
  · obtain ⟨x, size, rfl⟩ := Option.map_eq_some_iff.mp read
    exact readUnsigned_nonneg size
  · obtain ⟨x, size, rfl⟩ := Option.map_eq_some_iff.mp read
    exact readUnsigned_nonneg size

theorem within_decodeDouble {token : List Char} {v : Value} (decoded : decodeDouble token = some v) :
    Within (room + 1) v := by
  obtain ⟨d, near, rfl⟩ := Option.map_eq_some_iff.mp decoded
  obtain ⟨decimal, read, near⟩ := Option.bind_eq_some_iff.mp near
  exact ⟨.realValue (nearestDouble_isBinary64 (readDecimal_nonneg read) near), Nat.succ_le_succ (Nat.zero_le _)⟩

/-- The accumulator of `decodeNumber` never leaves the range. -/
theorem decodeInteger_le {limit m : Nat} {s : List Char} (wide : 10 ≤ limit) (fits : limit < 2 ^ 64)
    (decoded : decodeInteger limit 0 s = some m) : m ≤ limit := by
  have digits : Digits s := by
    intro c mem
    by_contra other
    rw [decodeInteger_none mem other] at decoded
    cases decoded
  rw [decodeInteger_digits wide fits digits (Nat.zero_le _)] at decoded
  split at decoded
  · rename_i below
    cases decoded
    exact below
  · cases decoded

/-- Whatever characters a token of a number has, its value is in range. -/
theorem within_decodeNumber {token : List Char} {v : Value} (decoded : decodeNumber token = some v) :
    Within (room + 1) v := by
  have value (negative : Bool) {m : Nat} {s : List Char}
      (read : decodeInteger (if negative then maxLargestInt + 1 else maxLargestUInt) 0 s = some m) :
      Within (room + 1) (integerValue negative m) := by
    refine within_integerValue (decodeInteger_le ?_ ?_ read)
    · cases negative <;> decide
    · cases negative <;> decide
  unfold decodeNumber at decoded
  dsimp only at decoded
  split at decoded
  · exact within_decodeDouble decoded
  · rename_i m read
    by_cases negative : token.head? = some '-'
    · simp only [negative, if_true, true_and] at decoded read
      have made := value true read
      simp only [integerValue, if_true] at made
      split at decoded
      · rename_i least
        rw [least] at made
        cases decoded
        exact made
      · cases decoded
        exact made
    · simp only [negative, if_false, false_and] at decoded read
      have made := value false read
      simp only [integerValue, Bool.false_eq_true, if_false] at made
      split at decoded
      · rename_i small
        rw [if_pos small] at made
        cases decoded
        exact made
      · rename_i large
        rw [if_neg large] at made
        cases decoded
        exact made

end numbers

section members
variable {name : String} {v : Value} {members : List (String × Value)}

theorem mem_setMember {m : String × Value} (mem : m ∈ setMember name v members) : m = (name, v) ∨ m ∈ members := by
  induction members with
  | nil => exact Or.inl (List.mem_singleton.mp mem)
  | cons m' members ih =>
    unfold setMember at mem
    split at mem
    · exact (List.mem_cons.mp mem).imp_right (List.mem_cons_of_mem _)
    · rcases List.mem_cons.mp mem with rfl | mem
      · exact Or.inr List.mem_cons_self
      · exact (ih mem).imp_right (List.mem_cons_of_mem _)

/-- Assigning a member keeps the names apart. -/
theorem nodup_setMember (apart : (members.map Prod.fst).Nodup) : ((setMember name v members).map Prod.fst).Nodup := by
  induction members with
  | nil => exact List.nodup_singleton name
  | cons m members ih =>
    rw [List.map_cons, List.nodup_cons] at apart
    unfold setMember
    split
    · rename_i same
      rw [List.map_cons, List.nodup_cons, ← same]
      exact apart
    · rename_i other
      rw [List.map_cons, List.nodup_cons]
      refine ⟨fun mem => ?_, ih apart.2⟩
      obtain ⟨m', inside, same⟩ := List.mem_map.mp mem
      rcases mem_setMember inside with rfl | inside
      · exact other same.symm
      · exact apart.1 (List.mem_map.mpr ⟨m', inside, same⟩)

end members

section values

variable {room : Nat} {inner : ValueReader}

theorem within_arrayValue {elements : List Value} (each : ∀ v ∈ elements, Within room v) :
    Within (room + 1) (.arrayValue elements) := by
  refine ⟨.arrayValue trivial fun v mem => (each v mem).1, ?_⟩
  rw [height, heightElements_eq]
  refine Nat.succ_le_succ (deepest_le.mpr ?_)
  exact List.forall_mem_map.mpr fun v mem => (each v mem).2

theorem within_objectValue {members : List (String × Value)} (apart : (members.map Prod.fst).Nodup)
    (each : ∀ m ∈ members, Within room m.2) : Within (room + 1) (.objectValue members) := by
  refine ⟨.objectValue apart fun m mem => (each m mem).1, ?_⟩
  rw [height, heightMembers_eq, sortMembers_map, List.map_map]
  refine Nat.succ_le_succ (deepest_le.mpr ?_)
  exact List.forall_mem_map.mpr fun m mem => (each m (mem_sortMembers mem)).2

theorem readArray_within (makes : ∀ {s v rest}, inner.read s = .ok (v, rest) → Within room v)
    {s rest : List Char} {v : Value} (read : readArray inner s = .ok (v, rest)) : Within (room + 1) v := by
  have run := WhileLoop.run_induct (L := arrayLoop inner)
    (P := fun state result => (∀ e ∈ state.1, Within room e) → ∀ v rest, result = .ok (v, rest) → Within (room + 1) v)
    (by
      rintro ⟨elements, s⟩ result leave each v rest rfl
      simp only [arrayLoop] at leave
      split at leave
      · cases leave
      · rename_i valueRead
        split at leave
        · cases leave
        · split at leave
          · cases leave
            exact within_arrayValue
              (List.forall_mem_append.mpr ⟨each, List.forall_mem_singleton.mpr (makes valueRead)⟩)
          · cases leave)
    (by
      rintro ⟨elements, s⟩ ⟨elements', s'⟩ result next ih each
      refine ih ?_
      simp only [arrayLoop] at next
      split at next
      · cases next
      · rename_i valueRead
        split at next
        · cases next
          exact List.forall_mem_append.mpr ⟨each, List.forall_mem_singleton.mpr (makes valueRead)⟩
        · split at next <;> cases next)
  unfold readArray at read
  split at read
  · cases read
    exact within_arrayValue (List.forall_mem_nil _)
  · exact run ([], _) (List.forall_mem_nil _) v rest read

theorem readObject_within (makes : ∀ {s v rest}, inner.read s = .ok (v, rest) → Within room v)
    {s rest : List Char} {v : Value} (read : readObject inner s = .ok (v, rest)) : Within (room + 1) v := by
  have assigned {name : String} {v : Value} {members : List (String × Value)} (made : Within room v)
      (each : ∀ m ∈ members, Within room m.2) : ∀ m ∈ setMember name v members, Within room m.2 := by
    intro m mem
    rcases mem_setMember mem with rfl | mem
    · exact made
    · exact each m mem
  have run := WhileLoop.run_induct (L := objectLoop inner)
    (P := fun state result => (state.2.1.map Prod.fst).Nodup → (∀ m ∈ state.2.1, Within room m.2) →
      ∀ v rest, result = .ok (v, rest) → Within (room + 1) v)
    (by
      rintro ⟨name, members, s⟩ result leave apart each v rest rfl
      simp only [objectLoop] at leave
      split at leave
      · cases leave
        exact within_objectValue apart each
      · split at leave
        · cases leave
        · split at leave
          · cases leave
          · rename_i valueRead
            split at leave
            · cases leave
            · cases leave
              exact within_objectValue (nodup_setMember apart) (assigned (makes valueRead) each)
            · cases leave)
    (by
      rintro ⟨name, members, s⟩ ⟨name', members', s'⟩ result next ih apart each
      simp only [objectLoop] at next
      split at next
      · cases next
      · split at next
        · cases next
        · split at next
          · cases next
          · rename_i valueRead
            split at next
            · cases next
            · cases next
            · cases next
              exact ih (nodup_setMember apart) (assigned (makes valueRead) each))
  exact run ([], [], s) List.nodup_nil (List.forall_mem_nil _) v rest read

/-- One more value on the stack: what the reader inside makes is what this one makes. -/
theorem readValueWith_within (makes : ∀ {s v rest}, inner.read s = .ok (v, rest) → Within room v)
    {s rest : List Char} {v : Value} (read : readValueWith inner s = .ok (v, rest)) : Within (room + 1) v := by
  unfold readValueWith readValueFrom at read
  rcases first : skipCommentTokens.run s with ⟨token, afterToken⟩
  simp only [first] at read
  split at read
  · exact readObject_within makes read
  · exact readArray_within makes read
  · split at read
    · rename_i decoded
      cases read
      exact within_decodeNumber decoded
    · cases read
  · split at read
    · cases read
      exact ⟨.stringValue trivial, Nat.succ_le_succ (Nat.zero_le _)⟩
    · cases read
  · cases read
    exact ⟨.booleanValue trivial, Nat.succ_le_succ (Nat.zero_le _)⟩
  · cases read
    exact ⟨.booleanValue trivial, Nat.succ_le_succ (Nat.zero_le _)⟩
  · cases read
    exact ⟨.nullValue trivial, Nat.succ_le_succ (Nat.zero_le _)⟩
  · cases read

theorem readValue_within (room : Nat) {s rest : List Char} {v : Value}
    (read : (readValue room).read s = .ok (v, rest)) : Within room v := by
  induction room generalizing s rest v with
  | zero => cases read
  | succ room ih => exact readValueWith_within ih read

/-- Whatever the text, a value that the reader makes of it is well formed, and no
deeper than the stack limit. -/
theorem parse_within {s : List Char} {v : Value} (read : parse s = .ok v) : Within stackLimit v := by
  unfold parse at read
  cases outcome : (readValue stackLimit).read s with
  | error failure =>
    rw [outcome] at read
    cases read
  | ok result =>
    rw [outcome] at read
    cases read
    exact readValue_within stackLimit outcome

theorem Made.fits {v : Value} (made : Made v) : Fits v := by
  cases v with
  | intValue n =>
    refine ⟨made.1, made.2.trans ?_⟩
    unfold maxInt maxLargestInt
    decide
  | uintValue n => exact made.2
  | realValue d =>
    cases d with
    | infinite _ => exact made.1
    | _ => exact made.2
  | _ => trivial

/-- What was read can be written and read again. -/
theorem parse_rewritten {s : List Char} {v : Value} (read : parse s = .ok v) : parse (writeValue v) = .ok (normal v) := by
  obtain ⟨made, shallow⟩ := parse_within read
  rw [parse_writeValue (made.mono fun _ => Made.fits), limited_ok shallow]

end values

end MFutures.Json
