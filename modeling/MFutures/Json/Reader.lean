import MFutures.Json.Number
import MFutures.Json.Text

namespace MFutures.Json

/-- Why a reader has no result: an error it reports, or the exception past the
stack limit. -/
inductive Failure
  | syntaxError
  | exceededStackLimit
  deriving DecidableEq, Repr

inductive TokenType
  | endOfStream
  | objectBegin
  | objectEnd
  | arrayBegin
  | arrayEnd
  | string
  | number
  | true
  | false
  | null
  | arraySeparator
  | memberSeparator
  | comment
  | error
  deriving DecidableEq, Repr

/-- A token with its characters, those from `start_` to `end_`. -/
structure Token where
  type : TokenType
  text : List Char
  deriving DecidableEq, Repr

section scanning

def isSpace (c : Char) : Bool := c = ' ' ∨ c = '\t' ∨ c = '\r' ∨ c = '\n'

def skipSpaces (current : List Char) : List Char := current.dropWhile isSpace

/-- The next character and what follows it; NUL at the end. -/
def getNextChar (current : List Char) : Char × List Char :=
  match current with
  | [] => ('\x00', [])
  | c :: current => (c, current)

/-- What follows the pattern, if the text begins with it. -/
def matchPattern (pattern current : List Char) : Bool × List Char :=
  if pattern.isPrefixOf current then (Bool.true, current.drop pattern.length) else (Bool.false, current)

def readCStyleComment : List Char → Bool × List Char
  | [] => (Bool.false, [])
  | [c] => (c = '/', [])
  | c :: c' :: current =>
    if c = '*' ∧ c' = '/' then (Bool.true, current) else readCStyleComment (c' :: current)

def readCppStyleComment : List Char → List Char
  | [] => []
  | c :: current =>
    if c = '\n' then current
    else if c = '\r' then
      match current with
      | '\n' :: rest => rest
      | _ => current
    else readCppStyleComment current

def readComment (current : List Char) : Bool × List Char :=
  let (c, current) := getNextChar current
  if c = '*' then readCStyleComment current
  else if c = '/' then (Bool.true, readCppStyleComment current)
  else (Bool.false, current)

/-- The end of a string of which the opening quote is read. -/
def readString : List Char → Bool × List Char
  | [] => (Bool.false, [])
  | c :: current =>
    if c = '\\' then
      match current with
      | [] => (Bool.false, [])
      | _ :: current => readString current
    else if c = '"' then (Bool.true, current)
    else readString current

/-- The tokens of a single character. -/
def symbol (c : Char) : Option TokenType :=
  if c = '\x7b' then some .objectBegin
  else if c = '\x7d' then some .objectEnd
  else if c = '[' then some .arrayBegin
  else if c = ']' then some .arrayEnd
  else if c = ',' then some .arraySeparator
  else if c = ':' then some .memberSeparator
  else if c = '\x00' then some .endOfStream
  else none

/-- The type of the token that begins with a character, whether it is complete,
and where it ends. -/
def scan (c : Char) (current : List Char) : TokenType × Bool × List Char :=
  match symbol c with
  | some type => (type, Bool.true, current)
  | none =>
    if c = '"' then (.string, readString current)
    else if c = '/' then (.comment, readComment current)
    else if c.isDigit ∨ c = '-' then (.number, Bool.true, readNumber current)
    else if c = 't' then (.true, matchPattern ['r', 'u', 'e'] current)
    else if c = 'f' then (.false, matchPattern ['a', 'l', 's', 'e'] current)
    else if c = 'n' then (.null, matchPattern ['u', 'l', 'l'] current)
    else (.error, Bool.false, current)

def readToken (current : List Char) : Token × List Char :=
  let start := skipSpaces current
  let (c, next) := getNextChar start
  let (type, ok, rest) := scan c next
  (⟨if ok then type else .error, start.take (start.length - rest.length)⟩, rest)

end scanning

section lengths

theorem skipSpaces_length (s : List Char) : (skipSpaces s).length ≤ s.length :=
  (List.dropWhile_suffix _).length_le

theorem dropDigits_length (s : List Char) : (s.dropWhile Char.isDigit).length ≤ s.length :=
  (List.dropWhile_suffix _).length_le

theorem skipFraction_length (s : List Char) : (skipFraction s).length ≤ s.length := by
  unfold skipFraction
  split
  · rename_i s
    have := dropDigits_length s
    simp only [List.length_cons]
    omega
  · exact Nat.le_refl _

theorem readSign_length (s : List Char) : (readSign s).2.length ≤ s.length := by
  unfold readSign
  split <;> simp

theorem skipExponent_length (s : List Char) : (skipExponent s).length ≤ s.length := by
  unfold skipExponent
  split
  · exact Nat.le_refl _
  · rename_i c rest
    split
    · exact ((dropDigits_length _).trans (readSign_length rest)).trans (Nat.le_succ _)
    · exact Nat.le_refl _

theorem readNumber_length (s : List Char) : (readNumber s).length ≤ s.length :=
  (skipExponent_length _).trans ((skipFraction_length _).trans (dropDigits_length s))

theorem readCStyleComment_length (s : List Char) : (readCStyleComment s).2.length ≤ s.length := by
  fun_induction readCStyleComment s with
  | case1 => simp
  | case2 c => simp
  | case3 c c' s stop =>
    simp only [List.length_cons]
    omega
  | case4 c c' s go ih =>
    simp only [List.length_cons] at ih ⊢
    omega

theorem readCppStyleComment_length (s : List Char) : (readCppStyleComment s).length ≤ s.length := by
  fun_induction readCppStyleComment s with
  | case1 => simp
  | case2 s => simp
  | case3 => simp; omega
  | case4 => simp
  | case5 c s _ _ ih =>
    simp only [List.length_cons]
    omega

theorem getNextChar_length (s : List Char) : (getNextChar s).2.length ≤ s.length := by
  unfold getNextChar
  split <;> simp

theorem readComment_length (s : List Char) : (readComment s).2.length ≤ s.length := by
  have next := getNextChar_length s
  unfold readComment
  dsimp only
  split
  · exact (readCStyleComment_length _).trans next
  · split
    · exact (readCppStyleComment_length _).trans next
    · exact next

theorem readString_length (s : List Char) : (readString s).2.length ≤ s.length := by
  fun_induction readString s with
  | case1 => simp
  | case2 => simp
  | case3 c s ih =>
    simp only [List.length_cons]
    omega
  | case4 => simp
  | case5 c s _ _ ih =>
    simp only [List.length_cons]
    omega

theorem matchPattern_length (pattern s : List Char) : (matchPattern pattern s).2.length ≤ s.length := by
  unfold matchPattern
  split
  · simp
  · exact Nat.le_refl _

theorem scan_length (c : Char) (s : List Char) : (scan c s).2.2.length ≤ s.length := by
  unfold scan
  split
  · exact Nat.le_refl _
  · repeat' split
    · exact readString_length s
    · exact readComment_length s
    · exact readNumber_length s
    · exact matchPattern_length _ s
    · exact matchPattern_length _ s
    · exact matchPattern_length _ s
    · exact Nat.le_refl _

theorem readToken_length_le (s : List Char) : (readToken s).2.length ≤ s.length :=
  (scan_length _ _).trans ((getNextChar_length _).trans (skipSpaces_length s))

/-- Every token but the one at the end of the text takes a character. -/
theorem readToken_length {s rest : List Char} {token : Token} (read : readToken s = (token, rest))
    (inside : token.type ≠ .endOfStream) : rest.length < s.length := by
  have skipped := skipSpaces_length s
  unfold readToken at read
  generalize skipSpaces s = start at skipped read
  cases start with
  | nil =>
    cases read
    exact absurd rfl inside
  | cons c next =>
    have taken := scan_length c next
    rw [List.length_cons] at skipped
    obtain ⟨rfl, rfl⟩ := Prod.mk.inj read
    exact Nat.lt_of_le_of_lt taken skipped

end lengths

section values

/-- The next token that is no comment. -/
def skipCommentTokens : WhileLoop (List Char) (Token × List Char) where
  body current :=
    let (token, rest) := readToken current
    if token.type = .comment then .inl rest else .inr (token, rest)
  measure := List.length
  decreases := by
    intro s s' next
    rcases read : readToken s with ⟨token, rest⟩
    simp only [read] at next
    split at next
    · rename_i comment
      cases next
      exact readToken_length read (by rw [comment]; decide)
    · cases next

theorem skipCommentTokens_length {s rest : List Char} {token : Token}
    (read : skipCommentTokens.run s = (token, rest)) (inside : token.type ≠ .endOfStream) :
    rest.length < s.length := by
  have shorter := WhileLoop.run_induct (L := skipCommentTokens)
    (P := fun s b => b.1.type ≠ .endOfStream → b.2.length < s.length)
    (by
      intro s b leave inside
      rcases read : readToken s with ⟨token, rest⟩
      simp only [skipCommentTokens, read] at leave
      split at leave
      · cases leave
      · cases leave
        exact readToken_length read inside)
    (by
      intro s s' b next ih token
      have := skipCommentTokens.decreases next
      exact Nat.lt_trans (ih token) this) s
  rw [read] at shorter
  exact shorter inside

theorem skipCommentTokens_length_le {s rest : List Char} {token : Token}
    (read : skipCommentTokens.run s = (token, rest)) : rest.length ≤ s.length := by
  have shorter := WhileLoop.run_induct (L := skipCommentTokens) (P := fun s b => b.2.length ≤ s.length)
    (by
      intro s b leave
      simp only [skipCommentTokens] at leave
      split at leave
      · cases leave
      · cases leave
        exact readToken_length_le s)
    (by
      intro s s' b next ih
      exact ih.trans (Nat.le_of_lt (skipCommentTokens.decreases next))) s
  rwa [read] at shorter

/-- What reads a value at the front of a text, and leaves less of the text. -/
structure ValueReader where
  read : List Char → Except Failure (Value × List Char)
  consumes : ∀ {s rest v}, read s = .ok (v, rest) → rest.length < s.length

/-- `currentValue()[name]`, assigned. -/
def setMember (name : String) (value : Value) : List (String × Value) → List (String × Value)
  | [] => [(name, value)]
  | m :: members => if m.1 = name then (name, value) :: members else m :: setMember name value members

/-- The name of a member, from its token, and what follows the colon. -/
def readMemberName (tokenName : Token) (current : List Char) : Option (List Char × List Char) :=
  if tokenName.type = .string then
    match decodeString tokenName.text with
    | none => none
    | some name =>
      let (colon, current) := readToken current
      if colon.type = .memberSeparator then some (name, current) else none
  else none

/-- What stands after a member: whether it was the last, and what follows. After a
comment every token but the end of the object is taken for a separator. -/
def readMemberEnd (current : List Char) : Option (Bool × List Char) :=
  let (comma, current) := readToken current
  if comma.type = .comment then
    let (comma, current) := skipCommentTokens.run current
    some (decide (comma.type = .objectEnd), current)
  else if comma.type = .objectEnd then some (Bool.true, current)
  else if comma.type = .arraySeparator then some (Bool.false, current)
  else none

theorem readMemberName_length {s rest name : List Char} {token : Token}
    (read : readMemberName token s = some (name, rest)) : rest.length < s.length := by
  unfold readMemberName at read
  rcases second : readToken s with ⟨colon, afterColon⟩
  simp only [second] at read
  split at read
  · split at read
    · cases read
    · split at read
      · rename_i separator
        cases read
        exact readToken_length second (by rw [separator]; decide)
      · cases read
  · cases read

theorem readMemberEnd_length {s rest : List Char} {last : Bool}
    (read : readMemberEnd s = some (last, rest)) : rest.length ≤ s.length := by
  unfold readMemberEnd at read
  have taken := readToken_length_le s
  rcases second : readToken s with ⟨comma, afterComma⟩
  simp only [second] at read taken
  split at read
  · rcases last : skipCommentTokens.run afterComma with ⟨token, afterComments⟩
    rw [last] at read
    cases read
    exact (skipCommentTokens_length_le last).trans taken
  · split at read
    · cases read
      exact taken
    · split at read
      · cases read
        exact taken
      · cases read

/-- The loop of `readObject`, over the name read last, the members so far and the
text that is left. The end of the object may stand in the place of a name only
after a name that is empty, as it is at first. -/
def objectLoop (inner : ValueReader) :
    WhileLoop (List Char × List (String × Value) × List Char) (Except Failure (Value × List Char)) where
  body := fun (name, members, current) =>
    let (tokenName, current) := skipCommentTokens.run current
    if tokenName.type = .objectEnd ∧ name = [] then .inr (.ok (.objectValue members, current))
    else
      match readMemberName tokenName current with
      | none => .inr (.error .syntaxError)
      | some (name, current) =>
        match inner.read current with
        | .error failure => .inr (.error failure)
        | .ok (value, current) =>
          let members := setMember (String.ofList name) value members
          match readMemberEnd current with
          | none => .inr (.error .syntaxError)
          | some (Bool.true, current) => .inr (.ok (.objectValue members, current))
          | some (Bool.false, current) => .inl (name, members, current)
  measure := fun state => state.2.2.length
  decreases := by
    rintro ⟨name, members, s⟩ ⟨name', members', s'⟩ next
    rcases first : skipCommentTokens.run s with ⟨tokenName, afterName⟩
    simp only [first] at next
    have tokenTaken := skipCommentTokens_length_le first
    split at next
    · cases next
    · split at next
      · cases next
      · rename_i nameRead
        have nameTaken := readMemberName_length nameRead
        split at next
        · cases next
        · rename_i read
          have valueTaken := inner.consumes read
          split at next
          · cases next
          · cases next
          · rename_i separator
            have endTaken := readMemberEnd_length separator
            cases next
            dsimp only
            omega

/-- The loop of `readArray`, over the elements so far and the text that is left. -/
def arrayLoop (inner : ValueReader) : WhileLoop (List Value × List Char) (Except Failure (Value × List Char)) where
  body := fun (elements, current) =>
    match inner.read current with
    | .error failure => .inr (.error failure)
    | .ok (value, current) =>
      let (token, current) := skipCommentTokens.run current
      if token.type = .arraySeparator then .inl (elements ++ [value], current)
      else if token.type = .arrayEnd then .inr (.ok (.arrayValue (elements ++ [value]), current))
      else .inr (.error .syntaxError)
  measure := fun state => state.2.length
  decreases := by
    rintro ⟨elements, s⟩ ⟨elements', s'⟩ next
    simp only at next
    split at next
    · cases next
    · rename_i value rest read
      have := inner.consumes read
      rcases next' : skipCommentTokens.run rest with ⟨token, rest'⟩
      simp only [next'] at next
      split at next
      · rename_i separator
        have := skipCommentTokens_length next' (by rw [separator]; decide)
        cases next
        exact Nat.lt_trans this ‹_›
      · split at next <;> cases next

def readObject (inner : ValueReader) (current : List Char) : Except Failure (Value × List Char) :=
  (objectLoop inner).run ([], [], current)

/-- An array is empty where only white space stands before its end. -/
def readArray (inner : ValueReader) (current : List Char) : Except Failure (Value × List Char) :=
  match skipSpaces current with
  | ']' :: rest => .ok (.arrayValue [], rest)
  | current => (arrayLoop inner).run ([], current)

theorem readObject_length {inner : ValueReader} {s rest : List Char} {v : Value}
    (read : readObject inner s = .ok (v, rest)) : rest.length ≤ s.length := by
  have shorter := WhileLoop.run_induct (L := objectLoop inner)
    (P := fun state result => ∀ v rest, result = .ok (v, rest) → rest.length ≤ state.2.2.length)
    (by
      rintro ⟨name, members, s⟩ result leave v rest rfl
      rcases first : skipCommentTokens.run s with ⟨tokenName, afterName⟩
      simp only [objectLoop, first] at leave
      have tokenTaken := skipCommentTokens_length_le first
      split at leave
      · cases leave
        exact tokenTaken
      · split at leave
        · cases leave
        · rename_i nameRead
          have nameTaken := readMemberName_length nameRead
          split at leave
          · cases leave
          · rename_i read
            have valueTaken := inner.consumes read
            split at leave
            · cases leave
            · rename_i last
              have endTaken := readMemberEnd_length last
              cases leave
              dsimp only
              omega
            · cases leave)
    (by
      rintro state state' result next ih v rest rfl
      exact (ih v rest rfl).trans (Nat.le_of_lt ((objectLoop inner).decreases next)))
    ([], [], s)
  exact shorter v rest read

theorem readArray_length {inner : ValueReader} {s rest : List Char} {v : Value}
    (read : readArray inner s = .ok (v, rest)) : rest.length ≤ s.length := by
  have shorter := WhileLoop.run_induct (L := arrayLoop inner)
    (P := fun state result => ∀ v rest, result = .ok (v, rest) → rest.length ≤ state.2.length)
    (by
      rintro ⟨elements, s⟩ result leave v rest rfl
      simp only [arrayLoop] at leave
      split at leave
      · cases leave
      · rename_i afterValue valueRead
        have valueTaken := inner.consumes valueRead
        rcases token : skipCommentTokens.run afterValue with ⟨comma, afterToken⟩
        have tokenTaken := skipCommentTokens_length_le token
        simp only [token] at leave
        split at leave
        · cases leave
        · split at leave
          · cases leave
            dsimp only
            omega
          · cases leave)
    (by
      rintro state state' result next ih v rest rfl
      exact (ih v rest rfl).trans (Nat.le_of_lt ((arrayLoop inner).decreases next)))
  have skipped := skipSpaces_length s
  unfold readArray at read
  generalize skipSpaces s = t at skipped read
  split at read
  · cases read
    rw [List.length_cons] at skipped
    omega
  · exact (shorter _ v rest read).trans skipped

/-- The switch of `readValue` on the type of the first token. -/
def readValueFrom (inner : ValueReader) (token : Token) (current : List Char) : Except Failure (Value × List Char) :=
  match token.type with
  | .objectBegin => readObject inner current
  | .arrayBegin => readArray inner current
  | .number =>
    match decodeNumber token.text with
    | some v => .ok (v, current)
    | none => .error .syntaxError
  | .string =>
    match decodeString token.text with
    | some s => .ok (.stringValue (String.ofList s), current)
    | none => .error .syntaxError
  | .true => .ok (.booleanValue Bool.true, current)
  | .false => .ok (.booleanValue Bool.false, current)
  | .null => .ok (.nullValue, current)
  | _ => .error .syntaxError

/-- The body of `readValue`; the elements and members are read by `inner`. -/
def readValueWith (inner : ValueReader) (current : List Char) : Except Failure (Value × List Char) :=
  let (token, current) := skipCommentTokens.run current
  readValueFrom inner token current

theorem readValueWith_length {inner : ValueReader} {s rest : List Char} {v : Value}
    (read : readValueWith inner s = .ok (v, rest)) : rest.length < s.length := by
  unfold readValueWith readValueFrom at read
  rcases first : skipCommentTokens.run s with ⟨token, afterToken⟩
  simp only [first] at read
  have taken (inside : token.type ≠ .endOfStream) : afterToken.length < s.length :=
    skipCommentTokens_length first inside
  split at read
  · rename_i type
    exact Nat.lt_of_le_of_lt (readObject_length read) (taken (by rw [type]; decide))
  · rename_i type
    exact Nat.lt_of_le_of_lt (readArray_length read) (taken (by rw [type]; decide))
  · rename_i type
    split at read
    · cases read
      exact taken (by rw [type]; decide)
    · cases read
  · rename_i type
    split at read
    · cases read
      exact taken (by rw [type]; decide)
    · cases read
  · rename_i type
    cases read
    exact taken (by rw [type]; decide)
  · rename_i type
    cases read
    exact taken (by rw [type]; decide)
  · rename_i type
    cases read
    exact taken (by rw [type]; decide)
  · cases read

/-- `readValue` with room for so many more values on the stack of the reader. -/
def readValue : Nat → ValueReader
  | 0 => ⟨fun _ => .error .exceededStackLimit, fun read => by cases read⟩
  | room + 1 => ⟨readValueWith (readValue room), readValueWith_length⟩

def stackLimit : Nat := 1000

/-- The value at the front of a document. One more token is read after it, and
nothing is made of it. -/
def parse (document : List Char) : Except Failure Value := ((readValue stackLimit).read document).map Prod.fst

end values

end MFutures.Json
