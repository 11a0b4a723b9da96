import Mathlib.Algebra.Group.Nat.Defs
import Mathlib.Data.List.Flatten
import MFutures.Json.Text

namespace MFutures.Json

section bits

theorem and_31 (x : Nat) : x &&& 0x1F = x % 32 := Nat.and_two_pow_sub_one_eq_mod x 5

theorem and_15 (x : Nat) : x &&& 0x0F = x % 16 := Nat.and_two_pow_sub_one_eq_mod x 4

theorem and_7 (x : Nat) : x &&& 0x07 = x % 8 := Nat.and_two_pow_sub_one_eq_mod x 3

theorem and_63 (x : Nat) : x &&& 0x3F = x % 64 := Nat.and_two_pow_sub_one_eq_mod x 6

theorem and_255 (x : Nat) : x &&& 0xff = x % 256 := Nat.and_two_pow_sub_one_eq_mod x 8

theorem and_1023 (x : Nat) : x &&& 0x3FF = x % 1024 := Nat.and_two_pow_sub_one_eq_mod x 10

/-- Bits above and bits below, put together. -/
theorem shiftLeft_or (a i unit : Nat) {b : Nat} (power : unit = 2 ^ i) (below : b < unit) :
    a <<< i ||| b = a * unit + b := by
  subst power
  rw [← Nat.shiftLeft_add_eq_or_of_lt below, Nat.shiftLeft_eq]

theorem lead_or (lead i : Nat) {b : Nat} (multiple : lead % 2 ^ i = 0) (below : b < 2 ^ i) :
    lead ||| b = lead + b := by
  rw [← Nat.div_add_mod lead (2 ^ i), multiple, Nat.add_zero]
  exact (Nat.two_pow_add_eq_or_of_lt below _).symm

end bits

section utf8

/-- The code points a text in UTF-8 can stand for. -/
def IsScalar (cp : Nat) : Prop := cp < 0xD800 ∨ 0xDFFF < cp ∧ cp ≤ 0x10FFFF

instance (cp : Nat) : Decidable (IsScalar cp) := inferInstanceAs (Decidable (_ ∨ _))

theorem codePointToUTF8_one {cp : Nat} (bound : cp < 0x80) : codePointToUTF8 cp = [Char.ofNat cp] :=
  if_pos (by omega)

theorem codePointToUTF8_two {cp : Nat} (lower : 0x80 ≤ cp) (upper : cp < 0x800) :
    codePointToUTF8 cp = [Char.ofNat (192 + cp / 64), Char.ofNat (128 + cp % 64)] := by
  rw [codePointToUTF8, if_neg (by omega), if_pos (by omega), Nat.and_comm 0x1f, Nat.and_comm 0x3f, and_31,
    and_63, Nat.shiftRight_eq_div_pow, lead_or 192 6 rfl (by omega), lead_or 128 6 rfl (by omega)]
  congr 2
  omega

theorem codePointToUTF8_three {cp : Nat} (lower : 0x800 ≤ cp) (upper : cp < 0x10000) :
    codePointToUTF8 cp =
      [Char.ofNat (224 + cp / 4096), Char.ofNat (128 + cp / 64 % 64), Char.ofNat (128 + cp % 64)] := by
  rw [codePointToUTF8, if_neg (by omega), if_neg (by omega), if_pos (by omega), Nat.and_comm 0xf,
    Nat.and_comm 0x3f, Nat.and_comm 0x3f, and_15, and_63, and_63, Nat.shiftRight_eq_div_pow,
    Nat.shiftRight_eq_div_pow, lead_or 224 5 rfl (by omega), lead_or 128 6 rfl (by omega), lead_or 128 6 rfl (by omega)]
  congr 2
  omega

theorem codePointToUTF8_four {cp : Nat} (lower : 0x10000 ≤ cp) (upper : cp ≤ 0x10FFFF) :
    codePointToUTF8 cp =
      [Char.ofNat (240 + cp / 262144), Char.ofNat (128 + cp / 4096 % 64), Char.ofNat (128 + cp / 64 % 64),
        Char.ofNat (128 + cp % 64)] := by
  rw [codePointToUTF8, if_neg (by omega), if_neg (by omega), if_neg (by omega), if_pos (by omega),
    Nat.and_comm 0x7, Nat.and_comm 0x3f, Nat.and_comm 0x3f, Nat.and_comm 0x3f, and_7, and_63, and_63, and_63,
    Nat.shiftRight_eq_div_pow, Nat.shiftRight_eq_div_pow, Nat.shiftRight_eq_div_pow, lead_or 240 4 rfl (by omega),
    lead_or 128 6 rfl (by omega), lead_or 128 6 rfl (by omega), lead_or 128 6 rfl (by omega)]
  congr 2
  omega

/-- What the reader makes of the escapes that the writer puts for a code point.
The pair of a code point beyond the planes keeps sixteen bits of each half. -/
def recodeCodepoint (cp : Nat) : List Char :=
  if cp < 0x10000 then codePointToUTF8 cp
  else
    let high := ((cp - 0x10000) / 1024 + 0xD800) % 0x10000
    let low := (cp - 0x10000) % 1024
    if 0xD800 ≤ high ∧ high ≤ 0xDBFF then codePointToUTF8 (0x10000 + high % 1024 * 1024 + low)
    else codePointToUTF8 high ++ codePointToUTF8 (0xDC00 + low)

theorem recodeCodepoint_low {cp : Nat} (bound : cp < 0x10000) : recodeCodepoint cp = codePointToUTF8 cp :=
  if_pos bound

/-- A code point of the first four planes comes back. -/
theorem recodeCodepoint_small {cp : Nat} (bound : cp < 0x40000) : recodeCodepoint cp = codePointToUTF8 cp := by
  unfold recodeCodepoint
  split
  · rfl
  · have same : 0x10000 + ((cp - 0x10000) / 1024 + 0xD800) % 0x10000 % 1024 * 1024 + (cp - 0x10000) % 1024 = cp := by
      omega
    dsimp only
    rw [if_pos (by omega), same]

/-- The code points that the reader writes into a text: those of the first four
planes, and low halves of pairs that have lost the high one. -/
def Recoded (cp : Nat) : Prop := IsScalar cp ∧ cp < 0x40000 ∨ 0xDC00 ≤ cp ∧ cp ≤ 0xDFFF

/-- The code point that is read at the front of a text, and what follows its bytes.
If what the reader makes of it begins the text, the text begins with the code point. -/
structure Chunk (text : List Char) (cp : Nat) (rest : List Char) : Prop where
  no_surrogate : ¬(0xD800 ≤ cp ∧ cp ≤ 0xDFFF)
  recoded : ∃ cps : List Nat, recodeCodepoint cp = cps.flatMap codePointToUTF8 ∧ ∀ cp ∈ cps, Recoded cp
  exact : recodeCodepoint cp <+: text → text = codePointToUTF8 cp ++ rest ∧ IsScalar cp ∧ cp < 0x40000

theorem recoded_small {cp : Nat} (small : cp < 0x40000) (scalar : IsScalar cp) :
    ∃ cps : List Nat, recodeCodepoint cp = cps.flatMap codePointToUTF8 ∧ ∀ cp ∈ cps, Recoded cp :=
  ⟨[cp], by rw [recodeCodepoint_small small, List.flatMap_singleton],
    List.forall_mem_singleton.mpr (Or.inl ⟨scalar, small⟩)⟩

theorem toNat_ofNat {n : Nat} (bound : n < 0xD800) : (Char.ofNat n).toNat = n := by
  rw [Char.ofNat, dif_pos (Or.inl bound)]
  rfl

theorem recodeCodepoint_replacement :
    recodeCodepoint replacementCharacter = [Char.ofNat 239, Char.ofNat 191, Char.ofNat 189] := by decide

theorem Chunk.replacement {text rest : List Char}
    (exact : [Char.ofNat 239, Char.ofNat 191, Char.ofNat 189] <+: text →
      text = codePointToUTF8 replacementCharacter ++ rest) : Chunk text replacementCharacter rest where
  no_surrogate := by decide
  recoded := recoded_small (by decide) (by decide)
  exact begins := ⟨exact (recodeCodepoint_replacement ▸ begins), by decide, by decide⟩

/-- The replacement character has a first byte of its own. -/
theorem Chunk.replacement_of_ne {c : Char} {s rest : List Char} (other : c.toNat ≠ 239) :
    Chunk (c :: s) replacementCharacter rest := by
  refine Chunk.replacement fun begins => ?_
  have first := (List.cons_prefix_cons.mp begins).1
  rw [← first, toNat_ofNat (by decide)] at other
  exact absurd rfl other

theorem Chunk.replacement_of_short {text rest : List Char} (short : text.length < 3) :
    Chunk text replacementCharacter rest := by
  refine Chunk.replacement fun begins => ?_
  have := begins.length_le
  simp only [List.length_cons, List.length_nil] at this
  omega

/-- A code point of as many bytes as were taken for it. -/
theorem Chunk.low (bytes : List Char) {rest : List Char} {cp : Nat} (small : cp < 0x40000) (scalar : IsScalar cp)
    (length : (codePointToUTF8 cp).length = bytes.length) : Chunk (bytes ++ rest) cp rest where
  no_surrogate := by
    unfold IsScalar at scalar
    omega
  recoded := recoded_small small scalar
  exact begins := by
    rw [recodeCodepoint_small small] at begins
    have same := List.prefix_of_prefix_length_le begins (List.prefix_append bytes rest) (Nat.le_of_eq length)
    rw [same.eq_of_length length]
    exact ⟨rfl, scalar, small⟩

theorem utf8ToCodepoint_one {c : Char} {s : List Char} (one : c.toNat < 0x80) :
    utf8ToCodepoint c s = (c.toNat, s) := if_pos one

theorem utf8ToCodepoint_two {c b : Char} {s : List Char} (lower : 0x80 ≤ c.toNat) (upper : c.toNat < 0xE0) :
    utf8ToCodepoint c (b :: s) =
      (if c.toNat % 32 * 64 + b.toNat % 64 < 0x80 then replacementCharacter
        else c.toNat % 32 * 64 + b.toNat % 64, s) := by
  rw [utf8ToCodepoint]
  simp only [if_neg (Nat.not_lt.mpr lower), if_pos upper]
  rw [and_31, and_63, shiftLeft_or _ 6 64 rfl (by omega)]

theorem utf8ToCodepoint_three {c b b' : Char} {s : List Char} {cp : Nat} (lower : 0xE0 ≤ c.toNat)
    (upper : c.toNat < 0xF0) (value : c.toNat % 16 * 4096 + b.toNat % 64 * 64 + b'.toNat % 64 = cp) :
    utf8ToCodepoint c (b :: b' :: s) =
      if 0xD800 ≤ cp ∧ cp ≤ 0xDFFF then (replacementCharacter, s)
      else (if cp < 0x800 then replacementCharacter else cp, s) := by
  have bits : ((c.toNat &&& 0x0F) <<< 12) ||| ((b.toNat &&& 0x3F) <<< 6) ||| (b'.toNat &&& 0x3F) = cp := by
    rw [and_15, and_63, and_63, Nat.or_assoc, shiftLeft_or _ 6 64 rfl (by omega), shiftLeft_or _ 12 4096 rfl (by omega),
      ← Nat.add_assoc]
    exact value
  rw [utf8ToCodepoint]
  simp only [if_neg (show ¬c.toNat < 0x80 by omega), if_neg (show ¬c.toNat < 0xE0 by omega), if_pos upper, bits]

theorem utf8ToCodepoint_four {c b b' b'' : Char} {s : List Char} {cp : Nat} (lower : 0xF0 ≤ c.toNat)
    (upper : c.toNat < 0xF8)
    (value : c.toNat % 8 * 16777216 + b.toNat % 64 * 4096 + b'.toNat % 64 * 64 + b''.toNat % 64 = cp) :
    utf8ToCodepoint c (b :: b' :: b'' :: s) = (if cp < 0x10000 then replacementCharacter else cp, s) := by
  have bits : ((c.toNat &&& 0x07) <<< 24) ||| ((b.toNat &&& 0x3F) <<< 12) ||| ((b'.toNat &&& 0x3F) <<< 6) |||
      (b''.toNat &&& 0x3F) = cp := by
    rw [and_7, and_63, and_63, and_63, Nat.or_assoc, Nat.or_assoc, shiftLeft_or _ 6 64 rfl (by omega),
      shiftLeft_or _ 12 4096 rfl (by omega), shiftLeft_or _ 24 16777216 rfl (by omega), ← Nat.add_assoc, ← Nat.add_assoc]
    exact value
  rw [utf8ToCodepoint]
  simp only [if_neg (show ¬c.toNat < 0x80 by omega), if_neg (show ¬c.toNat < 0xE0 by omega),
    if_neg (show ¬c.toNat < 0xF0 by omega), if_pos upper, bits]

theorem Chunk.two {c b : Char} (lower : 0x80 ≤ c.toNat) (upper : c.toNat < 0xE0) (s : List Char) :
    Chunk (c :: b :: s) (utf8ToCodepoint c (b :: s)).1 s := by
  rw [utf8ToCodepoint_two lower upper]
  dsimp only
  split
  · exact Chunk.replacement_of_ne (by omega)
  · refine Chunk.low [c, b] (by omega) (Or.inl (by omega)) ?_
    rw [codePointToUTF8_two (by omega) (by omega)]
    rfl

theorem Chunk.three {c b b' : Char} (lower : 0xE0 ≤ c.toNat) (upper : c.toNat < 0xF0) (s : List Char) :
    Chunk (c :: b :: b' :: s) (utf8ToCodepoint c (b :: b' :: s)).1 s := by
  have replaced : Chunk (c :: b :: b' :: s) replacementCharacter s := by
    refine Chunk.replacement fun begins => ?_
    obtain ⟨first, begins⟩ := List.cons_prefix_cons.mp begins
    obtain ⟨second, begins⟩ := List.cons_prefix_cons.mp begins
    obtain ⟨third, -⟩ := List.cons_prefix_cons.mp begins
    rw [← first, ← second, ← third]
    rfl
  rw [utf8ToCodepoint_three lower upper rfl]
  split
  · exact replaced
  · dsimp only
    split
    · exact replaced
    · refine Chunk.low [c, b, b'] (by omega) ?_ ?_
      · unfold IsScalar
        omega
      · rw [codePointToUTF8_three (by omega) (by omega)]
        rfl

/-- The first byte tells the first four planes from the others. -/
theorem codePointToUTF8_first {cp : Nat} (small : cp < 0x40000) :
    ∃ c s, codePointToUTF8 cp = c :: s ∧ c.toNat < 0xF1 := by
  by_cases one : cp < 0x80
  · exact ⟨_, _, codePointToUTF8_one one, by rw [toNat_ofNat (by omega)]; omega⟩
  by_cases two : cp < 0x800
  · exact ⟨_, _, codePointToUTF8_two (by omega) two, by rw [toNat_ofNat (by omega)]; omega⟩
  by_cases three : cp < 0x10000
  · exact ⟨_, _, codePointToUTF8_three (by omega) three, by rw [toNat_ofNat (by omega)]; omega⟩
  · exact ⟨_, _, codePointToUTF8_four (by omega) (by omega), by rw [toNat_ofNat (by omega)]; omega⟩

/-- Past the first four planes either a half of the pair is no surrogate, and
comes back as bytes of its own, or the pair stands for a code point below them. -/
theorem recodeCodepoint_large {k low cp : Nat} (value : k * 16777216 + low = cp) (plane : low < 0x40000)
    (first : 0 < k) (last : k < 8) :
    ∃ front back, recodeCodepoint cp = (front :: back).flatMap codePointToUTF8 ∧ front < 0x40000 ∧
      ∀ cp ∈ front :: back, Recoded cp := by
  have low_bound : (cp - 0x10000) % 1024 < 1024 := Nat.mod_lt _ (by decide)
  have shifted : (cp - 0x10000) / 1024 + 64 = k * 16384 + low / 1024 := by omega
  have plane' : low / 1024 < 256 := by omega
  unfold recodeCodepoint
  rw [if_neg (by omega)]
  generalize (cp - 0x10000) % 1024 = lowHalf at low_bound ⊢
  generalize (cp - 0x10000) / 1024 = highHalf at shifted ⊢
  generalize low / 1024 = t at shifted plane'
  dsimp only
  split
  · refine ⟨_, [], by rw [List.flatMap_singleton], by omega, List.forall_mem_singleton.mpr (Or.inl ⟨?_, by omega⟩)⟩
    exact Or.inr (by omega)
  · refine ⟨_, [0xDC00 + lowHalf], by rw [List.flatMap_cons, List.flatMap_singleton], by omega,
      List.forall_mem_cons.mpr ⟨Or.inl ⟨?_, by omega⟩, List.forall_mem_singleton.mpr (Or.inr (by omega))⟩⟩
    unfold IsScalar
    omega

theorem Chunk.four {c b b' b'' : Char} (lower : 0xF0 ≤ c.toNat) (upper : c.toNat < 0xF8) (s : List Char) :
    Chunk (c :: b :: b' :: b'' :: s) (utf8ToCodepoint c (b :: b' :: b'' :: s)).1 s := by
  obtain ⟨low, lowValue⟩ : ∃ low, b.toNat % 64 * 4096 + b'.toNat % 64 * 64 + b''.toNat % 64 = low := ⟨_, rfl⟩
  have plane : low < 0x40000 := by omega
  obtain ⟨cp, value⟩ : ∃ cp, c.toNat % 8 * 16777216 + low = cp := ⟨_, rfl⟩
  have total : c.toNat % 8 * 16777216 + b.toNat % 64 * 4096 + b'.toNat % 64 * 64 + b''.toNat % 64 = cp := by
    rw [← value, ← lowValue, ← Nat.add_assoc, ← Nat.add_assoc]
  rw [utf8ToCodepoint_four lower upper total]
  dsimp only
  split
  · exact Chunk.replacement_of_ne (by omega)
  · rename_i large
    rcases Nat.eq_zero_or_pos (c.toNat % 8) with zero | first
    · refine Chunk.low [c, b, b', b''] (by omega) (Or.inr (by omega)) ?_
      rw [codePointToUTF8_four (by omega) (by omega)]
      rfl
    · obtain ⟨front, back, recoded, small, all⟩ := recodeCodepoint_large value plane first (by omega)
      refine ⟨by omega, ⟨front :: back, recoded, all⟩, fun begins => ?_⟩
      obtain ⟨c', s', bytes, firstByte⟩ := codePointToUTF8_first small
      rw [recoded, List.flatMap_cons, bytes] at begins
      have same := (List.cons_prefix_cons.mp begins).1
      rw [same] at firstByte
      omega

theorem utf8ToCodepoint_chunk (c : Char) (s : List Char) :
    Chunk (c :: s) (utf8ToCodepoint c s).1 (utf8ToCodepoint c s).2 := by
  by_cases one : c.toNat < 0x80
  · rw [utf8ToCodepoint_one one]
    refine Chunk.low [c] (by omega) (Or.inl (by omega)) ?_
    rw [codePointToUTF8_one one]
    rfl
  by_cases two : c.toNat < 0xE0
  · cases s with
    | nil =>
      have read : utf8ToCodepoint c [] = (replacementCharacter, []) := by
        simp [utf8ToCodepoint, one, two]
      rw [read]
      exact Chunk.replacement_of_short (by simp)
    | cons b s =>
      have read : (utf8ToCodepoint c (b :: s)).2 = s := by rw [utf8ToCodepoint_two (by omega) two]
      rw [read]
      exact Chunk.two (by omega) two s
  by_cases three : c.toNat < 0xF0
  · rcases s with _ | ⟨b, _ | ⟨b', s⟩⟩
    · have read : utf8ToCodepoint c [] = (replacementCharacter, []) := by
        simp [utf8ToCodepoint, one, two, three]
      rw [read]
      exact Chunk.replacement_of_short (by simp)
    · have read : utf8ToCodepoint c [b] = (replacementCharacter, [b]) := by
        simp [utf8ToCodepoint, one, two, three]
      rw [read]
      exact Chunk.replacement_of_short (by simp)
    · have read : (utf8ToCodepoint c (b :: b' :: s)).2 = s := by
        rw [utf8ToCodepoint_three (by omega) three rfl]
        split <;> rfl
      rw [read]
      exact Chunk.three (by omega) three s
  by_cases four : c.toNat < 0xF8
  · by_cases whole : 3 ≤ s.length
    · obtain ⟨b, b', b'', s, rfl⟩ : ∃ b b' b'' t, s = b :: b' :: b'' :: t := by
        rcases s with _ | ⟨b, _ | ⟨b', _ | ⟨b'', s⟩⟩⟩
        · exact absurd whole (by simp)
        · exact absurd whole (by simp)
        · exact absurd whole (by simp)
        · exact ⟨b, b', b'', s, rfl⟩
      have read : (utf8ToCodepoint c (b :: b' :: b'' :: s)).2 = s := by rw [utf8ToCodepoint_four (by omega) four rfl]
      rw [read]
      exact Chunk.four (by omega) four s
    · have read : utf8ToCodepoint c s = (replacementCharacter, s) := by
        rcases s with _ | ⟨b, _ | ⟨b', _ | ⟨b'', s⟩⟩⟩
        · simp [utf8ToCodepoint, one, two, three, four]
        · simp [utf8ToCodepoint, one, two, three, four]
        · simp [utf8ToCodepoint, one, two, three, four]
        · exact absurd (by simp) whole
      rw [read]
      exact Chunk.replacement_of_ne (by omega)
  · have read : utf8ToCodepoint c s = (replacementCharacter, s) := by
      simp [utf8ToCodepoint, one, two, three, four]
    rw [read]
    exact Chunk.replacement_of_ne (by omega)

/-- The writer finds a code point of the first four planes again. -/
theorem utf8ToCodepoint_codePointToUTF8 {cp : Nat} (scalar : IsScalar cp) (small : cp < 0x40000) (s : List Char) :
    ∃ c bytes, codePointToUTF8 cp = c :: bytes ∧ utf8ToCodepoint c (bytes ++ s) = (cp, s) := by
  unfold IsScalar at scalar
  by_cases one : cp < 0x80
  · refine ⟨_, _, codePointToUTF8_one one, ?_⟩
    have byte := toNat_ofNat (n := cp) (by omega)
    rw [List.nil_append, utf8ToCodepoint_one (by rwa [byte]), byte]
  by_cases two : cp < 0x800
  · refine ⟨_, _, codePointToUTF8_two (by omega) two, ?_⟩
    have byte := toNat_ofNat (n := 192 + cp / 64) (by omega)
    have byte' := toNat_ofNat (n := 128 + cp % 64) (by omega)
    rw [List.cons_append, List.nil_append, utf8ToCodepoint_two (by omega) (by omega), byte, byte',
      show (192 + cp / 64) % 32 * 64 + (128 + cp % 64) % 64 = cp by omega, if_neg one]
  by_cases three : cp < 0x10000
  · refine ⟨_, _, codePointToUTF8_three (by omega) three, ?_⟩
    have byte := toNat_ofNat (n := 224 + cp / 4096) (by omega)
    have byte' := toNat_ofNat (n := 128 + cp / 64 % 64) (by omega)
    have byte'' := toNat_ofNat (n := 128 + cp % 64) (by omega)
    rw [List.cons_append, List.cons_append, List.nil_append,
      @utf8ToCodepoint_three _ _ _ _ cp (by omega) (by omega) (by rw [byte, byte', byte'']; omega),
      if_neg (by omega), if_neg two]
  · refine ⟨_, _, codePointToUTF8_four (by omega) (by omega), ?_⟩
    have byte := toNat_ofNat (n := 240 + cp / 262144) (by omega)
    have byte' := toNat_ofNat (n := 128 + cp / 4096 % 64) (by omega)
    have byte'' := toNat_ofNat (n := 128 + cp / 64 % 64) (by omega)
    have last := toNat_ofNat (n := 128 + cp % 64) (by omega)
    rw [List.cons_append, List.cons_append, List.cons_append, List.nil_append,
      @utf8ToCodepoint_four _ _ _ _ _ cp (by omega) (by omega) (by rw [byte, byte', byte'', last]; omega), if_neg three]

end utf8

section escapes

theorem hexDigit_digitChar {n : Nat} (bound : n < 16) : hexDigit (Nat.digitChar n) = some n := by
  revert n
  decide

/-- Four hexadecimal digits and their value. -/
def Hex (digits : List Char) (value : Nat) : Prop :=
  ∃ ns : List Nat, List.Forall₂ (fun c n => hexDigit c = some n) digits ns ∧ ns.length = 4 ∧
    ns.foldl (fun value n => value * 16 + n) 0 = value

theorem hexDigits_append {digits : List Char} {ns : List Nat}
    (all : List.Forall₂ (fun c n => hexDigit c = some n) digits ns) (value : Nat) (s : List Char) :
    hexDigits ns.length value (digits ++ s) = some (ns.foldl (fun value n => value * 16 + n) value, s) := by
  induction all generalizing value with
  | nil => rfl
  | cons known _ ih =>
    rw [List.length_cons, List.cons_append, hexDigits, known]
    exact ih _

theorem Hex.read {digits : List Char} {value : Nat} (hex : Hex digits value) (s : List Char) :
    decodeUnicodeEscapeSequence (digits ++ s) = some (value, s) := by
  obtain ⟨ns, all, four, rfl⟩ := hex
  have read := hexDigits_append all 0 s
  rwa [four] at read

theorem hexDigit_plain {c : Char} {n : Nat} (known : hexDigit c = some n) : c ≠ '"' ∧ c ≠ '\\' := by
  constructor
  · rintro rfl
    cases known
  · rintro rfl
    cases known

theorem Hex.plain {digits : List Char} {value : Nat} (hex : Hex digits value) :
    ∀ c ∈ digits, c ≠ '"' ∧ c ≠ '\\' := by
  obtain ⟨ns, all, -, -⟩ := hex
  induction all with
  | nil => exact List.forall_mem_nil _
  | cons known _ ih => exact List.forall_mem_cons.mpr ⟨hexDigit_plain known, ih⟩

theorem hex_toHex16Bit (x : Nat) : Hex (toHex16Bit x) (x % 65536) := by
  have whole : (((0 * 16 + x / 256 % 256 / 16) * 16 + x / 256 % 256 % 16) * 16 + x % 256 / 16) * 16 + x % 256 % 16 =
      x % 65536 := by omega
  refine ⟨[x / 256 % 256 / 16, x / 256 % 256 % 16, x % 256 / 16, x % 256 % 16], ?_, rfl, whole⟩
  simp only [toHex16Bit, and_255, Nat.shiftRight_eq_div_pow, Nat.reducePow]
  exact .cons (hexDigit_digitChar (by omega)) (.cons (hexDigit_digitChar (by omega))
    (.cons (hexDigit_digitChar (by omega)) (.cons (hexDigit_digitChar (by omega)) .nil)))

def IsHighSurrogate (x : Nat) : Prop := 0xD800 ≤ x ∧ x ≤ 0xDBFF

theorem decodeUnicodeCodePoint_single {digits : List Char} {x : Nat} (hex : Hex digits x)
    (single : ¬IsHighSurrogate x) (s : List Char) : decodeUnicodeCodePoint (digits ++ s) = some (x, s) := by
  unfold decodeUnicodeCodePoint
  rw [hex.read]
  exact if_neg single

theorem decodeUnicodeCodePoint_pair {digits digits' : List Char} {x y : Nat} (hex : Hex digits x)
    (high : IsHighSurrogate x) (hex' : Hex digits' y) (s : List Char) :
    decodeUnicodeCodePoint (digits ++ '\\' :: 'u' :: (digits' ++ s)) =
      some (0x10000 + x % 1024 * 1024 + y % 1024, s) := by
  unfold decodeUnicodeCodePoint
  rw [hex.read]
  refine (if_pos high).trans ?_
  simp only [hex'.read, and_1023, Nat.shiftLeft_eq, Nat.reducePow]

/-- The characters up to the closing quote, decoded. -/
def unescape (s : List Char) : Option (List Char) := decodeLoop.run ([], s)

/-- What is decoded already stays in front. -/
theorem decodeLoop_run (decoded s : List Char) :
    decodeLoop.run (decoded, s) = (unescape s).map (decoded ++ ·) := by
  have commutes : ∀ state : List Char × List Char,
      decodeLoop.body (decoded ++ state.1, state.2) =
        Sum.map (fun t => (decoded ++ t.1, t.2)) (Option.map (decoded ++ ·)) (decodeLoop.body state) := by
    rintro ⟨d, _ | ⟨c, s⟩⟩
    · rfl
    · simp only [decodeLoop]
      repeat' split
      all_goals simp
  have mapped := WhileLoop.run_map (f := fun t => (decoded ++ t.1, t.2)) (g := Option.map (decoded ++ ·)) commutes ([], s)
  rwa [List.append_nil] at mapped

@[simp] theorem unescape_nil : unescape [] = some [] := rfl

theorem unescape_plain {c : Char} (quote : c ≠ '"') (backslash : c ≠ '\\') (s : List Char) :
    unescape (c :: s) = (unescape s).map (c :: ·) := by
  have next : decodeLoop.body ([], c :: s) = .inl ([c], s) := by
    simp [decodeLoop, quote, backslash]
  rw [unescape, WhileLoop.run_next next, decodeLoop_run]
  rfl

theorem unescape_short {name c : Char} (known : shortEscape name = some c) (s : List Char) :
    unescape ('\\' :: name :: s) = (unescape s).map (c :: ·) := by
  have other : name ≠ 'u' := by
    rintro rfl
    cases known
  have next : decodeLoop.body ([], '\\' :: name :: s) = .inl ([c], s) := by
    simp [decodeLoop, other, known]
  rw [unescape, WhileLoop.run_next next, decodeLoop_run]
  rfl

theorem unescape_unicode {s rest : List Char} {cp : Nat} (read : decodeUnicodeCodePoint s = some (cp, rest)) :
    unescape ('\\' :: 'u' :: s) = (unescape rest).map (codePointToUTF8 cp ++ ·) := by
  have next : decodeLoop.body ([], '\\' :: 'u' :: s) = .inl (codePointToUTF8 cp, rest) := by
    simp [decodeLoop, read]
  rw [unescape, WhileLoop.run_next next, decodeLoop_run]

/-- The characters between quotes that stand for a string. The second half of a
pair may be any escape, as the reader takes it. -/
inductive Quoted : List Char → List Char → Prop
  | nil : Quoted [] []
  | plain {c s t} : c ≠ '"' → c ≠ '\\' → Quoted s t → Quoted (c :: s) (c :: t)
  | short {name c s t} : shortEscape name = some c → Quoted s t → Quoted (c :: s) ('\\' :: name :: t)
  | unicode {digits cp s t} : Hex digits cp → ¬IsHighSurrogate cp → Quoted s t →
      Quoted (codePointToUTF8 cp ++ s) ('\\' :: 'u' :: (digits ++ t))
  | pair {digits digits' high low s t} : Hex digits high → IsHighSurrogate high → Hex digits' low → Quoted s t →
      Quoted (codePointToUTF8 (0x10000 + high % 1024 * 1024 + low % 1024) ++ s)
        ('\\' :: 'u' :: (digits ++ '\\' :: 'u' :: (digits' ++ t)))

theorem Quoted.plainText {front s t : List Char} (plain : front.all fun c => c ≠ '"' ∧ c ≠ '\\') (quoted : Quoted s t) :
    Quoted (front ++ s) (front ++ t) := by
  induction front with
  | nil => exact quoted
  | cons c front ih =>
    obtain ⟨first, rest⟩ := (Bool.and_eq_true _ _).mp plain
    obtain ⟨quote, backslash⟩ := of_decide_eq_true first
    exact .plain quote backslash (ih rest)

theorem Quoted.unescape {s t : List Char} (quoted : Quoted s t) : unescape t = some s := by
  induction quoted with
  | nil => rfl
  | plain quote backslash _ ih => rw [unescape_plain quote backslash, ih, Option.map_some]
  | short known _ ih => rw [unescape_short known, ih, Option.map_some]
  | unicode hex single _ ih => rw [unescape_unicode (decodeUnicodeCodePoint_single hex single _), ih, Option.map_some]
  | pair hex high hex' _ ih => rw [unescape_unicode (decodeUnicodeCodePoint_pair hex high hex' _), ih, Option.map_some]

/-- The string of a token that stands for one. -/
theorem Quoted.decodeString {s t : List Char} (quoted : Quoted s t) : decodeString ('"' :: t ++ ['"']) = some s := by
  rw [Json.decodeString, List.cons_append, List.tail_cons, List.dropLast_concat]
  exact quoted.unescape

/-- The escapes of the halves of a code point beyond the first plane. Past the
last plane the first is no high surrogate, and each stands for itself. -/
theorem Quoted.halves (high : Nat) {low : Nat} (lowBound : low < 1024) {s t : List Char} (quoted : Quoted s t) :
    Quoted ((if 0xD800 ≤ high % 65536 ∧ high % 65536 ≤ 0xDBFF
        then codePointToUTF8 (0x10000 + high % 65536 % 1024 * 1024 + low)
        else codePointToUTF8 (high % 65536) ++ codePointToUTF8 (0xDC00 + low)) ++ s)
      ('\\' :: 'u' :: (toHex16Bit high ++ '\\' :: 'u' :: (toHex16Bit (low + 0xDC00) ++ t))) := by
  have half : (low + 0xDC00) % 65536 = 0xDC00 + low := by omega
  have second := hex_toHex16Bit (low + 0xDC00)
  rw [half] at second
  split
  · rename_i surrogate
    have both : (0xDC00 + low) % 1024 = low := by omega
    have pair := Quoted.pair (hex_toHex16Bit high) surrogate second quoted
    rwa [both] at pair
  · rename_i single
    rw [List.append_assoc]
    exact .unicode (hex_toHex16Bit high) single (.unicode second (by unfold IsHighSurrogate; omega) quoted)

/-- The escapes of a code point. -/
theorem Quoted.escapeCodepoint {cp : Nat} (noSurrogate : ¬(0xD800 ≤ cp ∧ cp ≤ 0xDFFF))
    (plain : shortName (Char.ofNat cp) = none) {s t : List Char} (quoted : Quoted s t) :
    Quoted (recodeCodepoint cp ++ s) (escapeCodepoint cp ++ t) := by
  unfold Json.escapeCodepoint
  split
  · rename_i ascii
    have quote : Char.ofNat cp ≠ '"' := by
      intro same
      rw [same] at plain
      exact absurd plain (by decide)
    have backslash : Char.ofNat cp ≠ '\\' := by
      intro same
      rw [same] at plain
      exact absurd plain (by decide)
    rw [recodeCodepoint_low (by omega), codePointToUTF8_one ascii.1]
    exact .plain quote backslash quoted
  · split
    · rename_i basic
      have same : cp % 65536 = cp := Nat.mod_eq_of_lt basic
      have hex := hex_toHex16Bit cp
      rw [same] at hex
      rw [recodeCodepoint_low basic]
      exact .unicode hex (by unfold IsHighSurrogate; omega) quoted
    · rename_i supplementary
      have halves := quoted.halves ((cp - 0x10000) / 1024 + 0xD800)
        (Nat.mod_lt (cp - 0x10000) (show 1024 > 0 by decide))
      rw [recodeCodepoint, if_neg supplementary]
      simp only [Nat.shiftRight_eq_div_pow, and_1023, Nat.reducePow, List.cons_append, List.append_assoc]
      exact halves

theorem shortEscape_shortName {c name : Char} (known : shortName c = some name) : shortEscape name = some c := by
  unfold shortName at known
  repeat' split at known
  all_goals
    cases known
  all_goals
    subst_vars
    rfl

/-- A character with a short escape is a code point of its own. -/
theorem shortName_ascii {c name : Char} (known : shortName c = some name) : 0 < c.toNat ∧ c.toNat < 0x80 := by
  unfold shortName at known
  repeat' split at known
  all_goals
    cases known
  all_goals
    subst_vars
    decide

theorem shortName_ofNat {cp : Nat} {name : Char} (known : shortName (Char.ofNat cp) = some name) : cp < 0x80 := by
  have ascii := shortName_ascii known
  by_cases valid : cp.isValidChar
  · have same : (Char.ofNat cp).toNat = cp := by
      rw [Char.ofNat, dif_pos valid]
      rfl
    omega
  · have zero : (Char.ofNat cp).toNat = 0 := by
      rw [Char.ofNat, dif_neg valid]
      rfl
    omega

/-- A code point as the writer puts it. -/
def escapeChar (cp : Nat) : List Char :=
  match shortName (Char.ofNat cp) with
  | some name => ['\\', name]
  | none => escapeCodepoint cp

theorem Quoted.escapeChar {cp : Nat} (noSurrogate : ¬(0xD800 ≤ cp ∧ cp ≤ 0xDFFF)) {s t : List Char}
    (quoted : Quoted s t) : Quoted (recodeCodepoint cp ++ s) (escapeChar cp ++ t) := by
  unfold Json.escapeChar
  split
  · rename_i name known
    have one := shortName_ofNat known
    rw [recodeCodepoint_low (by omega), codePointToUTF8_one one]
    exact .short (shortEscape_shortName known) quoted
  · rename_i plain
    exact quoted.escapeCodepoint noSurrogate plain

theorem le_utf8ToCodepoint {c : Char} (lower : 0x80 ≤ c.toNat) (s : List Char) : 0x80 ≤ (utf8ToCodepoint c s).1 := by
  unfold utf8ToCodepoint
  dsimp only
  rw [if_neg (Nat.not_lt.mpr lower)]
  repeat' split
  all_goals first
    | exact (by decide : 0x80 ≤ replacementCharacter)
    | exact Nat.not_lt.mp ‹_›
    | exact Nat.le_trans (by decide : 0x80 ≤ 0x800) (Nat.not_lt.mp ‹_›)
    | exact Nat.le_trans (by decide : 0x80 ≤ 0x10000) (Nat.not_lt.mp ‹_›)

/-- The code points that the writer reads in a string. -/
def codepoints : List Char → List Nat
  | [] => []
  | c :: s => (utf8ToCodepoint c s).1 :: codepoints (utf8ToCodepoint c s).2
termination_by s => s.length
decreasing_by
  have := utf8ToCodepoint_length c s
  simp only [List.length_cons]
  omega

/-- The characters the writer puts between the quotes. -/
def escape (s : List Char) : List Char := (codepoints s).flatMap escapeChar

/-- A string as the reader gets it back from the writer. -/
def recode (s : List Char) : List Char := (codepoints s).flatMap recodeCodepoint

theorem escape_cons (c : Char) (s : List Char) :
    escape (c :: s) = escapeChar (utf8ToCodepoint c s).1 ++ escape (utf8ToCodepoint c s).2 := by
  rw [escape, codepoints, List.flatMap_cons, escape]

theorem recode_cons (c : Char) (s : List Char) :
    recode (c :: s) = recodeCodepoint (utf8ToCodepoint c s).1 ++ recode (utf8ToCodepoint c s).2 := by
  rw [recode, codepoints, List.flatMap_cons, recode]

theorem escape_nil : escape [] = [] := by rw [escape, codepoints, List.flatMap_nil]

theorem recode_nil : recode [] = [] := by rw [recode, codepoints, List.flatMap_nil]

/-- The switch of the writer is on the first byte; no later byte of a code point
could take one of its branches. -/
theorem quoteLoop_body (result s : List Char) (c : Char) :
    quoteLoop.body (result, c :: s) =
      .inl (result ++ escapeChar (utf8ToCodepoint c s).1, (utf8ToCodepoint c s).2) := by
  by_cases one : c.toNat < 0x80
  · rw [utf8ToCodepoint_one one, escapeChar, Char.ofNat_toNat]
    rcases known : shortName c with _ | name <;> simp [quoteLoop, utf8ToCodepoint_one one, known]
  · have multi := le_utf8ToCodepoint (Nat.not_lt.mp one) s
    have long : shortName c = none := by
      rcases known : shortName c with _ | name
      · rfl
      · exact absurd (shortName_ascii known).2 one
    have longer : shortName (Char.ofNat (utf8ToCodepoint c s).1) = none := by
      rcases known : shortName (Char.ofNat (utf8ToCodepoint c s).1) with _ | name
      · rfl
      · exact absurd (shortName_ofNat known) (Nat.not_lt.mpr multi)
    simp [quoteLoop, escapeChar, long, longer]

theorem quoteLoop_run (result s : List Char) : quoteLoop.run (result, s) = result ++ escape s := by
  induction size : s.length using Nat.strongRecOn generalizing result s with
  | ind n ih =>
    cases s with
    | nil => rw [WhileLoop.run_done rfl, escape_nil, List.append_nil]
    | cons c s =>
      have short := utf8ToCodepoint_length c s
      rw [List.length_cons] at size
      rw [WhileLoop.run_next (quoteLoop_body result s c), ih _ (by omega) _ _ rfl, escape_cons, List.append_assoc]

theorem valueToQuotedStringN_eq (s : List Char) : valueToQuotedStringN s = '"' :: escape s ++ ['"'] := by
  unfold valueToQuotedStringN
  rw [quoteLoop_run, List.nil_append]
  split
  · rfl
  · rename_i none
    cases s with
    | nil => rw [escape_nil]
    | cons c s => exact absurd (by simp [isAnyCharRequiredQuoting]; omega) none

/-- What the writer puts between quotes stands for what its code points become. -/
theorem quoted_escape (s : List Char) : Quoted (recode s) (escape s) := by
  fun_induction codepoints s with
  | case1 =>
    rw [escape_nil, recode_nil]
    exact .nil
  | case2 c s ih =>
    rw [escape_cons, recode_cons]
    exact ih.escapeChar (utf8ToCodepoint_chunk c s).no_surrogate

/-- What the reader gets of a string that the writer has put in quotes. -/
theorem decodeString_valueToQuotedStringN (s : List Char) :
    decodeString (valueToQuotedStringN s) = some (recode s) := by
  rw [valueToQuotedStringN_eq]
  exact (quoted_escape s).decodeString

end escapes

section portable

/-- The UTF-8 of code points of the first four planes. -/
def Storable (s : List Char) : Prop :=
  ∃ cps : List Nat, (∀ cp ∈ cps, IsScalar cp ∧ cp < 0x40000) ∧ s = cps.flatMap codePointToUTF8

/-- These strings and no others come back from the writer and the reader as they were. -/
theorem recode_eq_iff (s : List Char) : recode s = s ↔ Storable s := by
  constructor
  · intro same
    fun_induction codepoints s with
    | case1 => exact ⟨[], by simp⟩
    | case2 c s ih =>
      rw [recode_cons] at same
      obtain ⟨front, scalar, small⟩ := (utf8ToCodepoint_chunk c s).exact (same ▸ List.prefix_append _ _)
      rw [front, recodeCodepoint_small small] at same
      obtain ⟨cps, scalars, rest⟩ := ih (List.append_cancel_left same)
      refine ⟨(utf8ToCodepoint c s).1 :: cps, ?_, ?_⟩
      · intro cp mem
        rcases List.mem_cons.mp mem with rfl | mem
        · exact ⟨scalar, small⟩
        · exact scalars cp mem
      · rw [List.flatMap_cons, ← rest]
        exact front
  · rintro ⟨cps, scalars, rfl⟩
    induction cps with
    | nil => exact recode_nil
    | cons cp cps ih =>
      obtain ⟨scalar, small⟩ := scalars cp List.mem_cons_self
      obtain ⟨c, bytes, encoded, read⟩ :=
        utf8ToCodepoint_codePointToUTF8 scalar small (cps.flatMap codePointToUTF8)
      rw [List.flatMap_cons, encoded, List.cons_append, recode_cons, read,
        ih fun cp mem => scalars cp (List.mem_cons_of_mem _ mem), recodeCodepoint_small small, encoded,
        List.cons_append]

theorem storable_ascii {s : List Char} (ascii : ∀ c ∈ s, c.toNat < 0x80) : Storable s := by
  refine ⟨s.map Char.toNat, ?_, ?_⟩
  · intro cp mem
    obtain ⟨c, inside, rfl⟩ := List.mem_map.mp mem
    have := ascii c inside
    exact ⟨Or.inl (by omega), by omega⟩
  · induction s with
    | nil => rfl
    | cons c s ih =>
      rw [List.map_cons, List.flatMap_cons, codePointToUTF8_one (ascii c List.mem_cons_self), Char.ofNat_toNat,
        ← ih fun c mem => ascii c (List.mem_cons_of_mem _ mem)]
      rfl

/-- What the reader writes is of the code points it can write. -/
theorem recode_recoded (s : List Char) :
    ∃ cps : List Nat, recode s = cps.flatMap codePointToUTF8 ∧ ∀ cp ∈ cps, Recoded cp := by
  fun_induction codepoints s with
  | case1 => exact ⟨[], recode_nil, List.forall_mem_nil _⟩
  | case2 c s ih =>
    obtain ⟨front, recoded, all⟩ := (utf8ToCodepoint_chunk c s).recoded
    obtain ⟨back, recoded', all'⟩ := ih
    refine ⟨front ++ back, ?_, List.forall_mem_append.mpr ⟨all, all'⟩⟩
    rw [recode_cons, recoded, recoded', List.flatMap_append]

/-- A low half alone is read as the replacement character. -/
theorem utf8ToCodepoint_lowHalf {cp : Nat} (lower : 0xDC00 ≤ cp) (upper : cp ≤ 0xDFFF) (s : List Char) :
    ∃ c bytes, codePointToUTF8 cp = c :: bytes ∧ utf8ToCodepoint c (bytes ++ s) = (replacementCharacter, s) := by
  refine ⟨_, _, codePointToUTF8_three (by omega) (by omega), ?_⟩
  have byte := toNat_ofNat (n := 224 + cp / 4096) (by omega)
  have byte' := toNat_ofNat (n := 128 + cp / 64 % 64) (by omega)
  have byte'' := toNat_ofNat (n := 128 + cp % 64) (by omega)
  rw [List.cons_append, List.cons_append, List.nil_append,
    @utf8ToCodepoint_three _ _ _ _ cp (by omega) (by omega) (by rw [byte, byte', byte'']; omega), if_pos (by omega)]

/-- Whatever a string holds, it changes at most twice on its way through the
writer and the reader. -/
theorem recode_stable (s : List Char) : recode (recode (recode s)) = recode (recode s) := by
  obtain ⟨cps, recoded, all⟩ := recode_recoded s
  rw [recode_eq_iff, recoded]
  clear recoded
  induction cps with
  | nil => exact ⟨[], List.forall_mem_nil _, recode_nil⟩
  | cons cp cps ih =>
    obtain ⟨first, rest⟩ := List.forall_mem_cons.mp all
    obtain ⟨settled, scalars, same⟩ := ih rest
    rcases first with ⟨scalar, small⟩ | ⟨lower, upper⟩
    · obtain ⟨c, bytes, encoded, read⟩ := utf8ToCodepoint_codePointToUTF8 scalar small (cps.flatMap codePointToUTF8)
      refine ⟨cp :: settled, List.forall_mem_cons.mpr ⟨⟨scalar, small⟩, scalars⟩, ?_⟩
      rw [List.flatMap_cons, encoded, List.cons_append, recode_cons, read, recodeCodepoint_small small, same,
        List.flatMap_cons]
    · obtain ⟨c, bytes, encoded, read⟩ := utf8ToCodepoint_lowHalf lower upper (cps.flatMap codePointToUTF8)
      refine ⟨replacementCharacter :: settled, List.forall_mem_cons.mpr ⟨⟨by decide, by decide⟩, scalars⟩, ?_⟩
      have small : replacementCharacter < 0x40000 := by decide
      rw [List.flatMap_cons, encoded, List.cons_append, recode_cons, read, recodeCodepoint_small small, same,
        List.flatMap_cons]

/-- The strings that come back as they were are known, and any other has become one
of them after it was written and read twice. -/
theorem quoted_string_settles (s : List Char) : (decodeString (valueToQuotedStringN s) = some s ↔ Storable s) ∧
    ∃ t u, decodeString (valueToQuotedStringN s) = some t ∧ decodeString (valueToQuotedStringN t) = some u ∧
      Storable u := by
  refine ⟨?_, recode s, recode (recode s), decodeString_valueToQuotedStringN s, decodeString_valueToQuotedStringN _,
    (recode_eq_iff _).mp (recode_stable s)⟩
  rw [decodeString_valueToQuotedStringN, Option.some.injEq, recode_eq_iff]

end portable

section printed

theorem digitChar_printable {n : Nat} (bound : n < 16) :
    0x20 ≤ (Nat.digitChar n).toNat ∧ (Nat.digitChar n).toNat < 0x80 ∧ Nat.digitChar n ≠ '"' ∧ Nat.digitChar n ≠ '\\' := by
  revert n
  decide

theorem mem_toHex16Bit {x : Nat} {c : Char} (mem : c ∈ toHex16Bit x) : ∃ n < 16, c = Nat.digitChar n := by
  simp only [toHex16Bit, and_255, List.mem_cons, List.not_mem_nil, or_false] at mem
  rcases mem with rfl | rfl | rfl | rfl
  · exact ⟨_, by omega, rfl⟩
  · exact ⟨_, by omega, rfl⟩
  · exact ⟨_, by omega, rfl⟩
  · exact ⟨_, by omega, rfl⟩

theorem shortName_printable {c name : Char} (known : shortName c = some name) :
    0x20 ≤ name.toNat ∧ name.toNat < 0x80 := by
  unfold shortName at known
  repeat' split at known
  all_goals
    cases known
  all_goals decide

def Printable (c : Char) : Prop := 0x20 ≤ c.toNat ∧ c.toNat < 0x80

instance (c : Char) : Decidable (Printable c) := inferInstanceAs (Decidable (0x20 ≤ c.toNat ∧ c.toNat < 0x80))

theorem escapeChar_printable {cp : Nat} {c : Char} (mem : c ∈ escapeChar cp) : Printable c := by
  have unicode {x : Nat} {c : Char} (mem : c ∈ '\\' :: 'u' :: toHex16Bit x) : Printable c := by
    rcases List.mem_cons.mp mem with rfl | mem
    · exact ⟨by decide, by decide⟩
    rcases List.mem_cons.mp mem with rfl | mem
    · exact ⟨by decide, by decide⟩
    obtain ⟨n, bound, rfl⟩ := mem_toHex16Bit mem
    exact ⟨(digitChar_printable bound).1, (digitChar_printable bound).2.1⟩
  unfold escapeChar escapeCodepoint at mem
  split at mem
  · rename_i name known
    simp only [List.mem_cons, List.not_mem_nil, or_false] at mem
    rcases mem with rfl | rfl
    · exact ⟨by decide, by decide⟩
    · exact shortName_printable known
  · split at mem
    · rename_i ascii
      rw [List.mem_singleton.mp mem]
      have same := toNat_ofNat (n := cp) (by omega)
      exact ⟨by omega, by omega⟩
    · split at mem
      · exact unicode mem
      · rcases List.mem_append.mp mem with mem | mem
        · exact unicode mem
        · exact unicode mem

/-- A quoted string is printable ASCII, whatever the string holds. -/
theorem valueToQuotedStringN_printable {s : List Char} {c : Char} (mem : c ∈ valueToQuotedStringN s) :
    Printable c := by
  rw [valueToQuotedStringN_eq] at mem
  rcases List.mem_append.mp mem with mem | mem
  · rcases List.mem_cons.mp mem with rfl | mem
    · exact ⟨by decide, by decide⟩
    · obtain ⟨cp, -, mem⟩ := List.mem_flatMap.mp mem
      exact escapeChar_printable mem
  · rw [List.mem_singleton.mp mem]
    exact ⟨by decide, by decide⟩

end printed

end MFutures.Json
