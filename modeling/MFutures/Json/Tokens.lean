import MFutures.Json.Numeral
import MFutures.Json.Strings

namespace MFutures.Json

def Spaces (s : List Char) : Prop := ∀ c ∈ s, isSpace c

theorem Spaces.nil : Spaces [] := List.forall_mem_nil _

theorem Spaces.append {spaces spaces' : List Char} (all : Spaces spaces) (all' : Spaces spaces') :
    Spaces (spaces ++ spaces') := List.forall_mem_append.mpr ⟨all, all'⟩

theorem Spaces.noNumber {spaces rest : List Char} (all : Spaces spaces) (stop : NoNumber rest) :
    NoNumber (spaces ++ rest) := by
  cases spaces with
  | nil => exact stop
  | cons c spaces =>
    have space := all c List.mem_cons_self
    simp only [isSpace, decide_eq_true_eq] at space
    refine NoNumber.cons ?_
    rcases space with rfl | rfl | rfl | rfl <;> decide

section tokens
variable {c : Char} {s rest text : List Char} {type : TokenType}

theorem skipSpaces_append {spaces : List Char} (all : Spaces spaces) (s : List Char) :
    skipSpaces (spaces ++ s) = skipSpaces s := List.dropWhile_append_of_pos all

theorem readToken_spaces {spaces : List Char} (all : Spaces spaces) (s : List Char) :
    readToken (spaces ++ s) = readToken s := by
  unfold readToken
  rw [skipSpaces_append all]

/-- A token from its scan: its text is what the scan took. -/
theorem readToken_of_scan (visible : ¬isSpace c) (scanned : scan c s = (type, true, rest))
    (whole : c :: s = text ++ rest) : readToken (c :: s) = (⟨type, text⟩, rest) := by
  have start : skipSpaces (c :: s) = c :: s := List.dropWhile_cons_of_neg visible
  unfold readToken
  rw [start]
  simp only [getNextChar, scanned, if_true]
  rw [whole, List.length_append, Nat.add_sub_cancel, List.take_left]

theorem readToken_symbol (visible : ¬isSpace c) (known : symbol c = some type) (s : List Char) :
    readToken (c :: s) = (⟨type, [c]⟩, s) := by
  refine readToken_of_scan visible ?_ rfl
  unfold scan
  rw [known]

@[simp] theorem readToken_objectBegin (s : List Char) :
    readToken ('\x7b' :: s) = (⟨.objectBegin, ['\x7b']⟩, s) := readToken_symbol (by decide) rfl s

@[simp] theorem readToken_objectEnd (s : List Char) :
    readToken ('\x7d' :: s) = (⟨.objectEnd, ['\x7d']⟩, s) := readToken_symbol (by decide) rfl s

@[simp] theorem readToken_arrayBegin (s : List Char) :
    readToken ('[' :: s) = (⟨.arrayBegin, ['[']⟩, s) := readToken_symbol (by decide) rfl s

@[simp] theorem readToken_arrayEnd (s : List Char) :
    readToken (']' :: s) = (⟨.arrayEnd, [']']⟩, s) := readToken_symbol (by decide) rfl s

@[simp] theorem readToken_arraySeparator (s : List Char) :
    readToken (',' :: s) = (⟨.arraySeparator, [',']⟩, s) := readToken_symbol (by decide) rfl s

@[simp] theorem readToken_memberSeparator (s : List Char) :
    readToken (':' :: s) = (⟨.memberSeparator, [':']⟩, s) := readToken_symbol (by decide) rfl s

theorem matchPattern_append (pattern s : List Char) : matchPattern pattern (pattern ++ s) = (true, s) := by
  have begins : pattern.isPrefixOf (pattern ++ s) = true := List.isPrefixOf_iff_prefix.mpr (List.prefix_append _ _)
  rw [matchPattern, if_pos begins, List.drop_left]

theorem readToken_true (s : List Char) :
    readToken ('t' :: 'r' :: 'u' :: 'e' :: s) = (⟨.true, ['t', 'r', 'u', 'e']⟩, s) :=
  readToken_of_scan (by decide) (congrArg (Prod.mk _) (matchPattern_append ['r', 'u', 'e'] s)) rfl

theorem readToken_false (s : List Char) :
    readToken ('f' :: 'a' :: 'l' :: 's' :: 'e' :: s) = (⟨.false, ['f', 'a', 'l', 's', 'e']⟩, s) :=
  readToken_of_scan (by decide) (congrArg (Prod.mk _) (matchPattern_append ['a', 'l', 's', 'e'] s)) rfl

theorem readToken_null (s : List Char) :
    readToken ('n' :: 'u' :: 'l' :: 'l' :: s) = (⟨.null, ['n', 'u', 'l', 'l']⟩, s) :=
  readToken_of_scan (by decide) (congrArg (Prod.mk _) (matchPattern_append ['u', 'l', 'l'] s)) rfl

/-- A number begins with a digit or a sign. -/
theorem Numeral.text_cons (n : Numeral) : ∃ c s, n.text = c :: s ∧ (c.isDigit ∨ c = '-') := by
  unfold Numeral.text
  split
  · exact ⟨_, _, rfl, Or.inr rfl⟩
  · obtain ⟨c, digits, int⟩ := List.exists_cons_of_ne_nil n.int_nonempty
    refine ⟨c, digits ++ (n.fracText ++ n.exponentText), ?_, Or.inl (n.int_digits c (int ▸ List.mem_cons_self))⟩
    rw [Numeral.unsigned, int, List.cons_append]

theorem ne_of_numeral {d : Char} (first : c.isDigit ∨ c = '-') (none : ¬(d.isDigit ∨ d = '-')) : c ≠ d := by
  rintro rfl
  exact none first

theorem visible_of_numeral (first : c.isDigit ∨ c = '-') : ¬isSpace c := by
  simp only [isSpace, decide_eq_true_eq, not_or]
  exact ⟨ne_of_numeral first (by decide), ne_of_numeral first (by decide), ne_of_numeral first (by decide),
    ne_of_numeral first (by decide)⟩

/-- A number as a token. -/
theorem readToken_number (n : Numeral) (stop : NoNumber rest) :
    readToken (n.text ++ rest) = (⟨.number, n.text⟩, rest) := by
  have read := readNumber_text n stop
  obtain ⟨c, s, text, first⟩ := n.text_cons
  have other {d : Char} (none : ¬(d.isDigit ∨ d = '-')) : c ≠ d := ne_of_numeral first none
  have plain : symbol c = none := by
    rw [symbol, if_neg (other (by decide)), if_neg (other (by decide)), if_neg (other (by decide)),
      if_neg (other (by decide)), if_neg (other (by decide)), if_neg (other (by decide)), if_neg (other (by decide))]
  rw [text, List.cons_append] at read ⊢
  rw [List.tail_cons] at read
  refine readToken_of_scan (visible_of_numeral first) ?_ (List.cons_append ▸ rfl)
  unfold scan
  rw [plain]
  simp only [if_neg (show c ≠ '"' from other (by decide)), if_neg (show c ≠ '/' from other (by decide)), if_pos first,
    read]

/-- The scanner of strings goes past whatever holds no quote and no backslash. -/
theorem readString_plain {plain : List Char} (all : ∀ c ∈ plain, c ≠ '"' ∧ c ≠ '\\') (s : List Char) :
    readString (plain ++ s) = readString s := by
  induction plain with
  | nil => rfl
  | cons c plain ih =>
    obtain ⟨quote, backslash⟩ := all c List.mem_cons_self
    rw [List.cons_append, readString.eq_def]
    simp only [if_neg backslash, if_neg quote]
    exact ih fun c mem => all c (List.mem_cons_of_mem _ mem)

theorem readString_escape (c : Char) (s : List Char) : readString ('\\' :: c :: s) = readString s := by
  rw [readString.eq_def]
  simp only [if_true]

theorem readString_quote (s : List Char) : readString ('"' :: s) = (true, s) := by
  rw [readString.eq_def]
  simp

theorem readString_quoted {t : List Char} (quoted : Quoted s t) (rest : List Char) :
    readString (t ++ '"' :: rest) = (true, rest) := by
  induction quoted with
  | nil => exact readString_quote rest
  | plain quote backslash _ ih => exact (readString_plain (List.forall_mem_singleton.mpr ⟨quote, backslash⟩) _).trans ih
  | short _ _ ih => exact (readString_escape _ _).trans ih
  | unicode hex _ _ ih =>
    simp only [List.cons_append, List.append_assoc]
    rw [readString_escape, readString_plain hex.plain, ih]
  | pair hex _ hex' _ ih =>
    simp only [List.cons_append, List.append_assoc]
    rw [readString_escape, readString_plain hex.plain, readString_escape, readString_plain hex'.plain, ih]

/-- A quoted string as a token. -/
theorem readToken_quoted {t : List Char} (quoted : Quoted s t) (rest : List Char) :
    readToken ('"' :: t ++ ['"'] ++ rest) = (⟨.string, '"' :: t ++ ['"']⟩, rest) := by
  have text : '"' :: (t ++ '"' :: rest) = '"' :: t ++ ['"'] ++ rest := by simp
  rw [← text]
  refine readToken_of_scan (by decide) ?_ text
  exact congrArg (Prod.mk _) (readString_quoted quoted rest)

/-- The next token is no comment. -/
theorem skipCommentTokens_run {s rest : List Char} {token : Token} (read : readToken s = (token, rest))
    (plain : token.type ≠ .comment) : skipCommentTokens.run s = (token, rest) := by
  refine WhileLoop.run_done ?_
  simp only [skipCommentTokens, read, if_neg plain]

theorem skipCommentTokens_spaces {spaces : List Char} (all : Spaces spaces) (s : List Char) :
    skipCommentTokens.run (spaces ++ s) = skipCommentTokens.run s := by
  have body : skipCommentTokens.body (spaces ++ s) = skipCommentTokens.body s := by
    simp only [skipCommentTokens, readToken_spaces all]
  rw [WhileLoop.run_eq, body, WhileLoop.run_eq]

end tokens

end MFutures.Json
