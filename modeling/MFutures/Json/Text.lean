import Mathlib.Data.List.Basic
import MFutures.Lib.WhileLoop

namespace MFutures.Json

/-- The bytes of a code point in UTF-8. Surrogates are not told apart, and past
the last code point there are none. -/
def codePointToUTF8 (cp : Nat) : List Char :=
  if cp ≤ 0x7f then [Char.ofNat cp]
  else if cp ≤ 0x7FF then
    [Char.ofNat (0xC0 ||| (0x1f &&& (cp >>> 6))), Char.ofNat (0x80 ||| (0x3f &&& cp))]
  else if cp ≤ 0xFFFF then
    [Char.ofNat (0xE0 ||| (0xf &&& (cp >>> 12))), Char.ofNat (0x80 ||| (0x3f &&& (cp >>> 6))),
      Char.ofNat (0x80 ||| (0x3f &&& cp))]
  else if cp ≤ 0x10FFFF then
    [Char.ofNat (0xF0 ||| (0x7 &&& (cp >>> 18))), Char.ofNat (0x80 ||| (0x3f &&& (cp >>> 12))),
      Char.ofNat (0x80 ||| (0x3f &&& (cp >>> 6))), Char.ofNat (0x80 ||| (0x3f &&& cp))]
  else []

section writer

def replacementCharacter : Nat := 0xFFFD

/-- The code point at the front of a text, and what follows the bytes taken for
it. The bytes after the first are not checked, and the first of four is shifted
by 24 places, not by 18. -/
def utf8ToCodepoint (c : Char) (s : List Char) : Nat × List Char :=
  let firstByte := c.toNat
  if firstByte < 0x80 then (firstByte, s)
  else if firstByte < 0xE0 then
    match s with
    | b :: rest =>
      let calculated := ((firstByte &&& 0x1F) <<< 6) ||| (b.toNat &&& 0x3F)
      (if calculated < 0x80 then replacementCharacter else calculated, rest)
    | _ => (replacementCharacter, s)
  else if firstByte < 0xF0 then
    match s with
    | b :: b' :: rest =>
      let calculated := ((firstByte &&& 0x0F) <<< 12) ||| ((b.toNat &&& 0x3F) <<< 6) ||| (b'.toNat &&& 0x3F)
      if 0xD800 ≤ calculated ∧ calculated ≤ 0xDFFF then (replacementCharacter, rest)
      else (if calculated < 0x800 then replacementCharacter else calculated, rest)
    | _ => (replacementCharacter, s)
  else if firstByte < 0xF8 then
    match s with
    | b :: b' :: b'' :: rest =>
      let calculated := ((firstByte &&& 0x07) <<< 24) ||| ((b.toNat &&& 0x3F) <<< 12) |||
        ((b'.toNat &&& 0x3F) <<< 6) ||| (b''.toNat &&& 0x3F)
      (if calculated < 0x10000 then replacementCharacter else calculated, rest)
    | _ => (replacementCharacter, s)
  else (replacementCharacter, s)

theorem utf8ToCodepoint_length (c : Char) (s : List Char) : (utf8ToCodepoint c s).2.length ≤ s.length := by
  unfold utf8ToCodepoint
  dsimp only
  repeat' split
  all_goals simp only [List.length_cons]; omega

/-- The last four hexadecimal digits of a number. -/
def toHex16Bit (x : Nat) : List Char :=
  let hi := (x >>> 8) &&& 0xff
  let lo := x &&& 0xff
  [Nat.digitChar (hi / 16), Nat.digitChar (hi % 16), Nat.digitChar (lo / 16), Nat.digitChar (lo % 16)]

/-- Whether the writer has to look at the characters of a string at all. A `char`
is signed, so that only an empty string needs no look. -/
def isAnyCharRequiredQuoting (s : List Char) : Bool :=
  s.any fun c => c == '\\' || c == '"' || decide (c.toNat < ' '.toNat ∨ 0x80 ≤ c.toNat) || decide (c.toNat < 0x80)

/-- What the writer appends for a code point that has no short escape. -/
def escapeCodepoint (cp : Nat) : List Char :=
  if cp < 0x80 ∧ 0x20 ≤ cp then [Char.ofNat cp]
  else if cp < 0x10000 then '\\' :: 'u' :: toHex16Bit cp
  else
    let cp := cp - 0x10000
    '\\' :: 'u' :: toHex16Bit ((cp >>> 10) + 0xD800) ++ '\\' :: 'u' :: toHex16Bit ((cp &&& 0x3FF) + 0xDC00)

/-- The letter of the short escape of a character. -/
def shortName (c : Char) : Option Char :=
  if c = '"' then some '"'
  else if c = '\\' then some '\\'
  else if c = '\x08' then some 'b'
  else if c = '\x0c' then some 'f'
  else if c = '\n' then some 'n'
  else if c = '\r' then some 'r'
  else if c = '\t' then some 't'
  else none

/-- The loop of `valueToQuotedStringN` over the result so far and the characters
that are left. -/
def quoteLoop : WhileLoop (List Char × List Char) (List Char) where
  body
    | (result, []) => .inr result
    | (result, c :: s) =>
      match shortName c with
      | some name => .inl (result ++ ['\\', name], s)
      | none => .inl (result ++ escapeCodepoint (utf8ToCodepoint c s).1, (utf8ToCodepoint c s).2)
  measure := fun state => state.2.length
  decreases := by
    rintro ⟨result, _ | ⟨c, s⟩⟩ ⟨result', s'⟩ next
    · cases next
    · have taken := utf8ToCodepoint_length c s
      simp only at next
      split at next <;> cases next <;> simp only [List.length_cons] <;> omega

def valueToQuotedStringN (value : List Char) : List Char :=
  if isAnyCharRequiredQuoting value then '"' :: quoteLoop.run ([], value) ++ ['"']
  else '"' :: value ++ ['"']

end writer

section reader

/-- The value of a hexadecimal digit. -/
def hexDigit (c : Char) : Option Nat :=
  if '0' ≤ c ∧ c ≤ '9' then some (c.toNat - '0'.toNat)
  else if 'a' ≤ c ∧ c ≤ 'f' then some (c.toNat - 'a'.toNat + 10)
  else if 'A' ≤ c ∧ c ≤ 'F' then some (c.toNat - 'A'.toNat + 10)
  else none

/-- `n` hexadecimal digits after those of `unicode`. -/
def hexDigits : Nat → Nat → List Char → Option (Nat × List Char)
  | 0, unicode, current => some (unicode, current)
  | _ + 1, _, [] => none
  | n + 1, unicode, c :: current =>
    match hexDigit c with
    | some digit => hexDigits n (unicode * 16 + digit) current
    | none => none

def decodeUnicodeEscapeSequence (current : List Char) : Option (Nat × List Char) := hexDigits 4 0 current

/-- The digits after `\u`, and after a high surrogate another escape, which need
not be a low one. -/
def decodeUnicodeCodePoint (current : List Char) : Option (Nat × List Char) :=
  match decodeUnicodeEscapeSequence current with
  | none => none
  | some (unicode, current) =>
    if 0xD800 ≤ unicode ∧ unicode ≤ 0xDBFF then
      match current with
      | '\\' :: 'u' :: current =>
        match decodeUnicodeEscapeSequence current with
        | none => none
        | some (surrogatePair, current) =>
          some (0x10000 + ((unicode &&& 0x3FF) <<< 10) + (surrogatePair &&& 0x3FF), current)
      | _ => none
    else some (unicode, current)

theorem hexDigits_length {n unicode unicode' : Nat} {s s' : List Char}
    (read : hexDigits n unicode s = some (unicode', s')) : s.length = s'.length + n := by
  induction n generalizing unicode s with
  | zero =>
    cases read
    rfl
  | succ n ih =>
    cases s with
    | nil => cases read
    | cons c s =>
      unfold hexDigits at read
      split at read
      · have := ih read
        simp only [List.length_cons]
        omega
      · cases read

theorem decodeUnicodeCodePoint_length {s s' : List Char} {unicode : Nat}
    (read : decodeUnicodeCodePoint s = some (unicode, s')) : s'.length < s.length := by
  unfold decodeUnicodeCodePoint decodeUnicodeEscapeSequence at read
  split at read
  · cases read
  · rename_i first
    have := hexDigits_length first
    split at read
    · split at read
      · split at read
        · cases read
        · rename_i second
          have := hexDigits_length second
          cases read
          simp only [List.length_cons] at *
          omega
      · cases read
    · cases read
      omega

/-- The characters an escape of one letter stands for. -/
def shortEscape (c : Char) : Option Char :=
  if c = '"' then some '"'
  else if c = '/' then some '/'
  else if c = '\\' then some '\\'
  else if c = 'b' then some '\x08'
  else if c = 'f' then some '\x0c'
  else if c = 'n' then some '\n'
  else if c = 'r' then some '\r'
  else if c = 't' then some '\t'
  else none

/-- The loop of `decodeString` over the string so far and the characters that are
left before the closing quote. -/
def decodeLoop : WhileLoop (List Char × List Char) (Option (List Char)) where
  body
    | (decoded, []) => .inr (some decoded)
    | (decoded, c :: current) =>
      if c = '"' then .inr (some decoded)
      else if c = '\\' then
        match current with
        | [] => .inr none
        | escape :: current =>
          if escape = 'u' then
            match decodeUnicodeCodePoint current with
            | some (unicode, current) => .inl (decoded ++ codePointToUTF8 unicode, current)
            | none => .inr none
          else
            match shortEscape escape with
            | some c => .inl (decoded ++ [c], current)
            | none => .inr none
      else .inl (decoded ++ [c], current)
  measure := fun state => state.2.length
  decreases := by
    rintro ⟨decoded, _ | ⟨c, s⟩⟩ ⟨decoded', s'⟩ next
    · cases next
    · simp only at next
      split at next
      · cases next
      · split at next
        · split at next
          · cases next
          · split at next
            · split at next
              · rename_i read
                have := decodeUnicodeCodePoint_length read
                cases next
                simp only [List.length_cons]
                omega
              · cases next
            · split at next
              · cases next
                simp only [List.length_cons]
                omega
              · cases next
        · cases next
          simp only [List.length_cons]
          omega

/-- The string of a token, quotes included. -/
def decodeString (token : List Char) : Option (List Char) := decodeLoop.run ([], token.tail.dropLast)

end reader

end MFutures.Json
