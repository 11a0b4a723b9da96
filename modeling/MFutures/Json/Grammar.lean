import Mathlib.Data.List.TakeWhile
import MFutures.Json.Tokens
import MFutures.Json.Writer

namespace MFutures.Json

/-- A text inside another, with the value it denotes and how deep it is nested. -/
structure Item where
  depth : Nat
  value : Value
  text : List Char

/-- An item behind a name, with spaces around the name. -/
structure Member extends Item where
  before : List Char
  name : List Char
  quoted : List Char
  after : List Char
  spaces_before : Spaces before
  spaces_after : Spaces after
  spelled : Quoted name quoted

def Member.line (m : Member) : List Char := m.before ++ ('"' :: m.quoted ++ ['"'] ++ (m.after ++ ':' :: m.text))

/-- The members as they are after each was assigned in turn. -/
def assignMembers (members assigned : List (String × Value)) : List (String × Value) :=
  assigned.foldl (fun members m => setMember m.1 m.2 members) members

def deepest (depths : List Nat) : Nat := depths.foldr max 0

/-- The texts of a value: the grammar of the standard, with the members of an
object assigned in the order of the text. A number must be one that decodes. -/
inductive Denotes : Nat → Value → List Char → Prop
  | spaced {depth v s before after} : Spaces before → Spaces after → Denotes depth v s →
      Denotes depth v (before ++ (s ++ after))
  | null : Denotes 1 .nullValue ['n', 'u', 'l', 'l']
  | true : Denotes 1 (.booleanValue Bool.true) ['t', 'r', 'u', 'e']
  | false : Denotes 1 (.booleanValue Bool.false) ['f', 'a', 'l', 's', 'e']
  | number {n : Numeral} {v} : n.decoded = some v → Denotes 1 v n.text
  | string {s t} : Quoted s t → Denotes 1 (.stringValue (String.ofList s)) ('"' :: t ++ ['"'])
  | emptyArray {spaces} : Spaces spaces → Denotes 1 (.arrayValue []) ('[' :: (spaces ++ [']']))
  | array {items : List Item} : items ≠ [] → (∀ item ∈ items, Denotes item.depth item.value item.text) →
      Denotes (deepest (items.map Item.depth) + 1) (.arrayValue (items.map Item.value))
        ('[' :: (separated (items.map Item.text) ++ [']']))
  | emptyObject {spaces} : Spaces spaces → Denotes 1 (.objectValue []) ('\x7b' :: (spaces ++ ['\x7d']))
  | object {members : List Member} : members ≠ [] → (∀ m ∈ members, Denotes m.depth m.value m.text) →
      Denotes (deepest (members.map fun m => m.depth) + 1)
        (.objectValue (assignMembers [] (members.map fun m => (String.ofList m.name, m.value))))
        ('\x7b' :: (separated (members.map Member.line) ++ ['\x7d']))

section depth

theorem deepest_le {depths : List Nat} {n : Nat} : deepest depths ≤ n ↔ ∀ depth ∈ depths, depth ≤ n := by
  induction depths with
  | nil => simp [deepest]
  | cons depth depths ih =>
    rw [List.forall_mem_cons, ← ih]
    exact Nat.max_le

theorem Denotes.depth_pos {depth : Nat} {v : Value} {s : List Char} (denotes : Denotes depth v s) : 0 < depth := by
  induction denotes with
  | spaced _ _ _ ih => exact ih
  | _ => exact Nat.succ_pos _

/-- A result that takes so much room on the stack. -/
def limited {α : Type} (room depth : Nat) (a : α) : Except Failure α :=
  if depth ≤ room then .ok a else .error .exceededStackLimit

theorem limited_ok {α : Type} {room depth : Nat} (fits : depth ≤ room) (a : α) : limited room depth a = .ok a :=
  if_pos fits

theorem limited_error {α : Type} {room depth : Nat} (deep : ¬depth ≤ room) (a : α) :
    limited room depth a = .error .exceededStackLimit := if_neg deep

/-- Under one more value there is room for one more. -/
theorem limited_succ {α : Type} (room depth : Nat) (a : α) : limited (room + 1) (depth + 1) a = limited room depth a := by
  simp only [limited, Nat.add_le_add_iff_right]

theorem limited_deepest_cons {α : Type} {room depth : Nat} (fits : depth ≤ room) (depths : List Nat) (a : α) :
    limited room (deepest (depth :: depths)) a = limited room (deepest depths) a := by
  simp only [limited, deepest_le, List.forall_mem_cons, fits, true_and]

theorem limited_deepest_error {α : Type} {room depth : Nat} (deep : ¬depth ≤ room) (depths : List Nat) (a : α) :
    limited room (deepest (depth :: depths)) a = .error .exceededStackLimit :=
  limited_error (fun le => deep (deepest_le.mp le depth List.mem_cons_self)) a

end depth

section reads

/-- The reader with so much room finds the value of a text, and goes on after the
text or before the spaces at its end. -/
def Reads (room depth : Nat) (v : Value) (s : List Char) : Prop :=
  ∀ rest, NoNumber rest → ∃ spaces, Spaces spaces ∧
    (readValue room).read (s ++ rest) = limited room depth (v, spaces ++ rest)

variable {room depth : Nat} {v : Value} {s : List Char}

/-- The first token that is no comment decides how a value is read. -/
theorem readValue_token {rest : List Char} {token : Token} (read : readToken s = (token, rest))
    (plain : token.type ≠ .comment) :
    (readValue (room + 1)).read s = readValueFrom (readValue room) token rest := by
  have body : (readValue (room + 1)).read s = readValueWith (readValue room) s := rfl
  rw [body, readValueWith, skipCommentTokens_run read plain]

/-- A reader without room reads nothing. -/
theorem reads_zero (pos : 0 < depth) : Reads 0 depth v s := by
  intro rest _
  exact ⟨[], Spaces.nil, (limited_error (Nat.not_le.mpr pos) _).symm⟩

/-- A value without parts needs room for itself. -/
theorem reads_one (read : ∀ room rest, NoNumber rest → (readValue (room + 1)).read (s ++ rest) = .ok (v, rest))
    (room : Nat) : Reads room 1 v s := by
  cases room with
  | zero => exact reads_zero Nat.one_pos
  | succ room =>
    intro rest stop
    exact ⟨[], Spaces.nil, (read room rest stop).trans (limited_ok (Nat.succ_le_succ (Nat.zero_le room)) _).symm⟩

theorem readValue_spaces {spaces : List Char} (all : Spaces spaces) (s : List Char) :
    (readValue room).read (spaces ++ s) = (readValue room).read s := by
  cases room with
  | zero => rfl
  | succ room =>
    have body (s : List Char) : (readValue (room + 1)).read s = readValueWith (readValue room) s := rfl
    rw [body, body, readValueWith, readValueWith, skipCommentTokens_spaces all]

theorem Reads.spaced {before after : List Char} (spacesBefore : Spaces before) (spacesAfter : Spaces after)
    (reads : Reads room depth v s) : Reads room depth v (before ++ (s ++ after)) := by
  intro rest stop
  obtain ⟨spaces, all, read⟩ := reads (after ++ rest) (spacesAfter.noNumber stop)
  refine ⟨spaces ++ after, all.append spacesAfter, ?_⟩
  rw [List.append_assoc, List.append_assoc, readValue_spaces spacesBefore, read, List.append_assoc]

/-- A number is read as what it decodes to. -/
theorem reads_number {n : Numeral} (decoded : n.decoded = some v) : Reads room 1 v n.text := by
  refine reads_one (fun room rest stop => ?_) room
  rw [readValue_token (readToken_number n stop) (by simp)]
  simp only [readValueFrom, decodeNumber_text, decoded]

theorem reads_string {s t : List Char} (quoted : Quoted s t) :
    Reads room 1 (.stringValue (String.ofList s)) ('"' :: t ++ ['"']) := by
  refine reads_one (fun room rest _ => ?_) room
  rw [readValue_token (readToken_quoted quoted rest) (by simp)]
  simp only [readValueFrom, quoted.decodeString]

end reads

section arrays
variable {reader : ValueReader} {elements : List Value} {spaces s rest : List Char} {v : Value}

theorem arrayLoop_error {failure : Failure} (read : reader.read s = .error failure) :
    (arrayLoop reader).run (elements, s) = .error failure := by
  refine WhileLoop.run_done ?_
  simp only [arrayLoop, read]

theorem arrayLoop_last (all : Spaces spaces) (read : reader.read s = .ok (v, spaces ++ ']' :: rest)) :
    (arrayLoop reader).run (elements, s) = .ok (.arrayValue (elements ++ [v]), rest) := by
  have close := skipCommentTokens_run ((readToken_spaces all _).trans (readToken_arrayEnd rest)) (by decide)
  refine WhileLoop.run_done ?_
  simp only [arrayLoop, read, close]
  rfl

theorem arrayLoop_next (all : Spaces spaces) (read : reader.read s = .ok (v, spaces ++ ',' :: rest)) :
    (arrayLoop reader).run (elements, s) = (arrayLoop reader).run (elements ++ [v], rest) := by
  have comma := skipCommentTokens_run ((readToken_spaces all _).trans (readToken_arraySeparator rest)) (by decide)
  refine WhileLoop.run_next ?_
  simp only [arrayLoop, read, comma]
  rfl

variable {room : Nat}

/-- The loop of `readArray` over the items of a text. -/
theorem arrayLoop_run {items : List Item} (nonempty : items ≠ [])
    (reads : ∀ item ∈ items, Reads room item.depth item.value item.text) (elements : List Value) (rest : List Char) :
    (arrayLoop (readValue room)).run (elements, separated (items.map Item.text) ++ ']' :: rest) =
      limited room (deepest (items.map Item.depth)) (.arrayValue (elements ++ items.map Item.value), rest) := by
  induction items generalizing elements with
  | nil => exact absurd rfl nonempty
  | cons item items ih =>
    obtain ⟨first, later⟩ := List.forall_mem_cons.mp reads
    rcases items with _ | ⟨next, items⟩
    · obtain ⟨spaces, all, read⟩ := first (']' :: rest) (NoNumber.cons (by decide))
      by_cases fits : item.depth ≤ room
      · rw [limited_ok fits] at read
        exact (arrayLoop_last all read).trans ((limited_deepest_cons fits [] _).trans (limited_ok (Nat.zero_le _) _)).symm
      · rw [limited_error fits] at read
        exact (arrayLoop_error read).trans (limited_deepest_error fits _ _).symm
    · obtain ⟨spaces, all, read⟩ := first (',' :: (separated ((next :: items).map Item.text) ++ ']' :: rest))
        (NoNumber.cons (by decide))
      have text : separated ((item :: next :: items).map Item.text) ++ ']' :: rest =
          item.text ++ ',' :: (separated ((next :: items).map Item.text) ++ ']' :: rest) :=
        List.append_assoc _ _ _
      rw [text]
      by_cases fits : item.depth ≤ room
      · rw [limited_ok fits] at read
        rw [arrayLoop_next all read, ih (List.cons_ne_nil _ _) later, List.append_assoc]
        exact (limited_deepest_cons fits _ _).symm
      · rw [limited_error fits] at read
        exact (arrayLoop_error read).trans (limited_deepest_error fits _ _).symm

/-- A text that does not end an array where it begins. -/
def Begins (s : List Char) : Prop := ∃ c t, skipSpaces s = c :: t ∧ c ≠ ']'

theorem Begins.append (begin : Begins s) (rest : List Char) : Begins (s ++ rest) := by
  obtain ⟨c, t, front, other⟩ := begin
  refine ⟨c, t ++ rest, ?_, other⟩
  unfold skipSpaces at front ⊢
  rw [List.dropWhile_append, front]
  rfl

theorem readValue_skipSpaces (s : List Char) : (readValue room).read (skipSpaces s) = (readValue room).read s := by
  have all : Spaces (s.takeWhile isSpace) := fun c mem => List.mem_takeWhile_imp mem
  have whole : s.takeWhile isSpace ++ skipSpaces s = s := List.takeWhile_append_dropWhile
  rw [← readValue_spaces all, whole]

/-- An array that does not end where it begins is read by the loop. -/
theorem readArray_begins (begin : Begins s) :
    readArray (readValue room) s = (arrayLoop (readValue room)).run ([], s) := by
  have body : (arrayLoop (readValue room)).body ([], skipSpaces s) = (arrayLoop (readValue room)).body ([], s) := by
    simp only [arrayLoop, readValue_skipSpaces]
  have skipped : (arrayLoop (readValue room)).run ([], skipSpaces s) = (arrayLoop (readValue room)).run ([], s) := by
    rw [WhileLoop.run_eq, body, ← WhileLoop.run_eq]
  obtain ⟨c, t, front, other⟩ := begin
  rw [← skipped]
  unfold readArray
  rw [front]
  split
  · rename_i close
    exact absurd (List.cons.inj close).1 other
  · rfl

theorem readArray_empty (all : Spaces spaces) (rest : List Char) :
    readArray reader (spaces ++ ']' :: rest) = .ok (.arrayValue [], rest) := by
  unfold readArray
  rw [skipSpaces_append all]
  rfl

end arrays

section objects
variable {reader : ValueReader} {last : List Char} {members : List (String × Value)} {m : Member}
  {spaces s rest : List Char} {v : Value}

theorem readMemberName_spelled {after name quoted : List Char} (all : Spaces after) (spelled : Quoted name quoted)
    (s : List Char) : readMemberName ⟨.string, '"' :: quoted ++ ['"']⟩ (after ++ ':' :: s) = some (name, s) := by
  simp only [readMemberName, if_true, spelled.decodeString, readToken_spaces all, readToken_memberSeparator]

theorem readMemberEnd_objectEnd (all : Spaces spaces) (s : List Char) :
    readMemberEnd (spaces ++ '\x7d' :: s) = some (true, s) := by
  simp [readMemberEnd, readToken_spaces all]

theorem readMemberEnd_arraySeparator (all : Spaces spaces) (s : List Char) :
    readMemberEnd (spaces ++ ',' :: s) = some (false, s) := by
  simp [readMemberEnd, readToken_spaces all]

/-- The loop of `readObject` on a member: the value fails, or it is the last
member, or another follows. -/
theorem objectLoop_body (last : List Char) (members : List (String × Value)) (m : Member) (s : List Char) :
    (objectLoop reader).body (last, members, m.line ++ s) =
      match reader.read (m.text ++ s) with
      | .error failure => .inr (.error failure)
      | .ok (value, current) =>
        match readMemberEnd current with
        | none => .inr (.error .syntaxError)
        | some (true, current) => .inr (.ok (.objectValue (setMember (String.ofList m.name) value members), current))
        | some (false, current) => .inl (m.name, setMember (String.ofList m.name) value members, current) := by
  have text : m.line ++ s = m.before ++ ('"' :: m.quoted ++ ['"'] ++ (m.after ++ ':' :: (m.text ++ s))) := by
    simp [Member.line]
  have token := skipCommentTokens_run
    ((readToken_spaces m.spaces_before _).trans (readToken_quoted m.spelled (m.after ++ ':' :: (m.text ++ s)))) (by simp)
  simp only [objectLoop, text, token, readMemberName_spelled m.spaces_after m.spelled]
  rfl

theorem objectLoop_error {failure : Failure} (read : reader.read (m.text ++ s) = .error failure) :
    (objectLoop reader).run (last, members, m.line ++ s) = .error failure := by
  refine WhileLoop.run_done ?_
  rw [objectLoop_body, read]

theorem objectLoop_last (all : Spaces spaces) (read : reader.read (m.text ++ s) = .ok (v, spaces ++ '\x7d' :: rest)) :
    (objectLoop reader).run (last, members, m.line ++ s) =
      .ok (.objectValue (setMember (String.ofList m.name) v members), rest) := by
  refine WhileLoop.run_done ?_
  rw [objectLoop_body, read]
  simp only [readMemberEnd_objectEnd all]

theorem objectLoop_next (all : Spaces spaces) (read : reader.read (m.text ++ s) = .ok (v, spaces ++ ',' :: rest)) :
    (objectLoop reader).run (last, members, m.line ++ s) =
      (objectLoop reader).run (m.name, setMember (String.ofList m.name) v members, rest) := by
  refine WhileLoop.run_next ?_
  rw [objectLoop_body, read]
  simp only [readMemberEnd_arraySeparator all]

variable {room : Nat}

/-- The loop of `readObject` over the members of a text. -/
theorem objectLoop_run {ms : List Member} (nonempty : ms ≠ [])
    (reads : ∀ m ∈ ms, Reads room m.depth m.value m.text) (last : List Char)
    (members : List (String × Value)) (rest : List Char) :
    (objectLoop (readValue room)).run (last, members, separated (ms.map Member.line) ++ '\x7d' :: rest) =
      limited room (deepest (ms.map fun m => m.depth))
        (.objectValue (assignMembers members (ms.map fun m => (String.ofList m.name, m.value))), rest) := by
  induction ms generalizing last members with
  | nil => exact absurd rfl nonempty
  | cons m ms ih =>
    obtain ⟨first, later⟩ := List.forall_mem_cons.mp reads
    rcases ms with _ | ⟨next, ms⟩
    · obtain ⟨spaces, all, read⟩ := first ('\x7d' :: rest) (NoNumber.cons (by decide))
      by_cases fits : m.depth ≤ room
      · rw [limited_ok fits] at read
        exact (objectLoop_last all read).trans ((limited_deepest_cons fits [] _).trans (limited_ok (Nat.zero_le _) _)).symm
      · rw [limited_error fits] at read
        exact (objectLoop_error read).trans (limited_deepest_error fits _ _).symm
    · obtain ⟨spaces, all, read⟩ := first (',' :: (separated ((next :: ms).map Member.line) ++ '\x7d' :: rest))
        (NoNumber.cons (by decide))
      have text : separated ((m :: next :: ms).map Member.line) ++ '\x7d' :: rest =
          m.line ++ ',' :: (separated ((next :: ms).map Member.line) ++ '\x7d' :: rest) :=
        List.append_assoc _ _ _
      rw [text]
      by_cases fits : m.depth ≤ room
      · rw [limited_ok fits] at read
        rw [objectLoop_next all read, ih (List.cons_ne_nil _ _) later]
        exact (limited_deepest_cons fits _ _).symm
      · rw [limited_error fits] at read
        exact (objectLoop_error read).trans (limited_deepest_error fits _ _).symm

theorem readObject_empty (all : Spaces spaces) (rest : List Char) :
    readObject reader (spaces ++ '\x7d' :: rest) = .ok (.objectValue [], rest) := by
  have close := skipCommentTokens_run ((readToken_spaces all _).trans (readToken_objectEnd rest)) (by decide)
  refine WhileLoop.run_done ?_
  simp [objectLoop, close]

end objects

section documents
variable {depth : Nat} {v : Value} {s : List Char}

theorem Begins.visible {c : Char} (visible : ¬isSpace c) (other : c ≠ ']') (s : List Char) : Begins (c :: s) :=
  ⟨c, s, List.dropWhile_cons_of_neg visible, other⟩

theorem Begins.spaces {before : List Char} (all : Spaces before) (begin : Begins s) : Begins (before ++ s) := by
  obtain ⟨c, t, front, other⟩ := begin
  exact ⟨c, t, (skipSpaces_append all s).trans front, other⟩

/-- No value begins with the end of an array. -/
theorem Denotes.begins (denotes : Denotes depth v s) : Begins s := by
  induction denotes with
  | spaced before _ _ ih => exact (ih.append _).spaces before
  | @number n v _ =>
    obtain ⟨c, s, text, first⟩ := n.text_cons
    rw [text]
    exact .visible (visible_of_numeral first) (ne_of_numeral first (by decide)) s
  | _ => exact .visible (by decide) (by decide) _

theorem reads_array {items : List Item} {room : Nat} (nonempty : items ≠ [])
    (denotes : ∀ item ∈ items, Denotes item.depth item.value item.text)
    (reads : ∀ item ∈ items, Reads room item.depth item.value item.text) :
    Reads (room + 1) (deepest (items.map Item.depth) + 1) (.arrayValue (items.map Item.value))
      ('[' :: (separated (items.map Item.text) ++ [']'])) := by
  intro rest _
  have text : '[' :: (separated (items.map Item.text) ++ [']']) ++ rest =
      '[' :: (separated (items.map Item.text) ++ ']' :: rest) := by simp
  have begin : Begins (separated (items.map Item.text) ++ ']' :: rest) := by
    obtain ⟨item, items, rfl⟩ := List.exists_cons_of_ne_nil nonempty
    have first := (denotes item List.mem_cons_self).begins
    rcases items with _ | ⟨next, items⟩
    · exact first.append _
    · exact (first.append _).append _
  refine ⟨[], Spaces.nil, ?_⟩
  rw [text, readValue_token (readToken_arrayBegin _) (by decide), limited_succ]
  exact (readArray_begins begin).trans (arrayLoop_run nonempty reads [] rest)

theorem reads_object {members : List Member} {room : Nat} (nonempty : members ≠ [])
    (reads : ∀ m ∈ members, Reads room m.depth m.value m.text) :
    Reads (room + 1) (deepest (members.map fun m => m.depth) + 1)
      (.objectValue (assignMembers [] (members.map fun m => (String.ofList m.name, m.value))))
      ('\x7b' :: (separated (members.map Member.line) ++ ['\x7d'])) := by
  intro rest _
  have text : '\x7b' :: (separated (members.map Member.line) ++ ['\x7d']) ++ rest =
      '\x7b' :: (separated (members.map Member.line) ++ '\x7d' :: rest) := by simp
  refine ⟨[], Spaces.nil, ?_⟩
  rw [text, readValue_token (readToken_objectBegin _) (by decide), limited_succ]
  exact objectLoop_run nonempty reads [] [] rest

/-- A text is read as the value it denotes, wherever there is room for its nesting. -/
theorem Denotes.reads (denotes : Denotes depth v s) (room : Nat) : Reads room depth v s := by
  have pos := denotes.depth_pos
  induction denotes generalizing room with
  | spaced before after _ ih => exact (ih room pos).spaced before after
  | null => exact reads_one (fun room rest _ => readValue_token (readToken_null rest) (by decide)) room
  | true => exact reads_one (fun room rest _ => readValue_token (readToken_true rest) (by decide)) room
  | false => exact reads_one (fun room rest _ => readValue_token (readToken_false rest) (by decide)) room
  | number decoded => exact reads_number decoded
  | string quoted => exact reads_string quoted
  | @emptyArray spaces all =>
    refine reads_one (fun room rest _ => ?_) room
    have text : '[' :: (spaces ++ [']']) ++ rest = '[' :: (spaces ++ ']' :: rest) := by simp
    rw [text, readValue_token (readToken_arrayBegin _) (by decide)]
    exact readArray_empty all rest
  | array nonempty denotes ih =>
    cases room with
    | zero => exact reads_zero pos
    | succ room => exact reads_array nonempty denotes fun item mem => ih item mem room (denotes item mem).depth_pos
  | @emptyObject spaces all =>
    refine reads_one (fun room rest _ => ?_) room
    have text : '\x7b' :: (spaces ++ ['\x7d']) ++ rest = '\x7b' :: (spaces ++ '\x7d' :: rest) := by simp
    rw [text, readValue_token (readToken_objectBegin _) (by decide)]
    exact readObject_empty all rest
  | object nonempty denotes ih =>
    cases room with
    | zero => exact reads_zero pos
    | succ room => exact reads_object nonempty fun m mem => ih m mem room (denotes m mem).depth_pos

/-- The reader conforms to the grammar: a document is read as the value it
denotes, unless it is nested too deep, and what follows it is not looked at. -/
theorem parse_denotes (denotes : Denotes depth v s) (rest : List Char) (stop : NoNumber rest) :
    parse (s ++ rest) = limited stackLimit depth v := by
  obtain ⟨spaces, -, read⟩ := denotes.reads stackLimit rest stop
  rw [parse, read]
  unfold limited
  split <;> rfl

end documents

end MFutures.Json
