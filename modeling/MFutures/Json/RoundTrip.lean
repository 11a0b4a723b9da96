import MFutures.Json.Doubles
import MFutures.Json.Grammar

namespace MFutures

/-- What holds of a value and of every value inside it. -/
inductive Value.All (P : Value → Prop) : Value → Prop
  | nullValue : P .nullValue → All P .nullValue
  | intValue {n} : P (.intValue n) → All P (.intValue n)
  | uintValue {n} : P (.uintValue n) → All P (.uintValue n)
  | realValue {d} : P (.realValue d) → All P (.realValue d)
  | stringValue {s} : P (.stringValue s) → All P (.stringValue s)
  | booleanValue {b} : P (.booleanValue b) → All P (.booleanValue b)
  | arrayValue {elements} : P (.arrayValue elements) → (∀ v ∈ elements, All P v) → All P (.arrayValue elements)
  | objectValue {members : List (String × Value)} : P (.objectValue members) → (∀ m ∈ members, All P m.2) →
      All P (.objectValue members)

theorem Value.all {P : Value → Prop} (each : ∀ v, P v) : ∀ v : Value, v.All P
  | .nullValue => .nullValue (each _)
  | .intValue _ => .intValue (each _)
  | .uintValue _ => .uintValue (each _)
  | .realValue _ => .realValue (each _)
  | .stringValue _ => .stringValue (each _)
  | .booleanValue _ => .booleanValue (each _)
  | .arrayValue _ => .arrayValue (each _) fun v _ => Value.all each v
  | .objectValue _ => .objectValue (each _) fun m _ => Value.all each m.2
termination_by v => sizeOf v
decreasing_by
  · rename_i mem
    have := List.sizeOf_lt_of_mem mem
    rw [arrayValue.sizeOf_spec]
    omega
  · rename_i mem
    have inside := List.sizeOf_lt_of_mem mem
    obtain ⟨name, v⟩ := m
    rw [Prod.mk.sizeOf_spec] at inside
    rw [objectValue.sizeOf_spec]
    dsimp only
    omega

theorem Value.All.mono {P Q : Value → Prop} (weaker : ∀ v, P v → Q v) {v : Value} (all : v.All P) : v.All Q := by
  induction all with
  | nullValue holds => exact .nullValue (weaker _ holds)
  | intValue holds => exact .intValue (weaker _ holds)
  | uintValue holds => exact .uintValue (weaker _ holds)
  | realValue holds => exact .realValue (weaker _ holds)
  | stringValue holds => exact .stringValue (weaker _ holds)
  | booleanValue holds => exact .booleanValue (weaker _ holds)
  | arrayValue holds _ each => exact .arrayValue (weaker _ holds) each
  | objectValue holds _ each => exact .objectValue (weaker _ holds) each

theorem Value.All.here {P : Value → Prop} {v : Value} (all : v.All P) : P v := by
  cases all <;> assumption

namespace Json

/-- The integers and doubles that the fields of a `Json::Value` can hold, the
infinities apart. -/
def Fits : Value → Prop
  | .intValue n => minLargestInt ≤ n ∧ n ≤ maxLargestInt
  | .uintValue n => n ≤ maxLargestUInt
  | .realValue (.infinite _) => False
  | .realValue d => d.IsBinary64
  | _ => True

/-- A string as it comes back. -/
def recodeString (s : String) : String := String.ofList (recode s.toList)

theorem recodeString_eq_iff (s : String) : recodeString s = s ↔ Storable s.toList := by
  rw [← recode_eq_iff]
  constructor
  · intro same
    have chars := congrArg String.toList same
    rwa [recodeString, String.toList_ofList] at chars
  · intro same
    rw [recodeString, same, String.ofList_toList]

theorem recodeString_ascii {s : String} (ascii : s.toList.all fun c => c.toNat < 0x80) : recodeString s = s :=
  (recodeString_eq_iff s).mpr (storable_ascii fun c mem => of_decide_eq_true (List.all_eq_true.mp ascii c mem))

section normal

/-- A value without parts, as it comes back if it does. -/
def normalScalar : Value → Value
  | .intValue n => integerValue (decide (n < 0)) n.natAbs
  | .uintValue n => integerValue false n
  | .realValue .nan => .nullValue
  | .stringValue s => .stringValue (recodeString s)
  | v => v

mutual
/-- A value as it comes back from the writer and the reader: its integers in the
type the reader takes for them, its members in the order of their names. -/
def normal : Value → Value
  | .arrayValue elements => .arrayValue (normalElements elements)
  | .objectValue members =>
    .objectValue (assignMembers [] ((sortMembers (normalMembers members)).map fun m => (recodeString m.1, m.2)))
  | v => normalScalar v

def normalElements : List Value → List Value
  | [] => []
  | v :: elements => normal v :: normalElements elements

def normalMembers : List (String × Value) → List (String × Value)
  | [] => []
  | (name, v) :: members => (name, normal v) :: normalMembers members
end

mutual
/-- The number of values from a value to its innermost part, both counted. -/
def height : Value → Nat
  | .arrayValue elements => deepest (heightElements elements) + 1
  | .objectValue members => deepest ((sortMembers (heightMembers members)).map Prod.snd) + 1
  | _ => 1

def heightElements : List Value → List Nat
  | [] => []
  | v :: elements => height v :: heightElements elements

def heightMembers : List (String × Value) → List (String × Nat)
  | [] => []
  | (name, v) :: members => (name, height v) :: heightMembers members
end

theorem normalElements_eq (elements : List Value) : normalElements elements = elements.map normal := by
  induction elements with
  | nil => rfl
  | cons v elements ih => rw [normalElements, ih, List.map_cons]

theorem normalMembers_eq (members : List (String × Value)) :
    normalMembers members = members.map fun m => (m.1, normal m.2) := by
  induction members with
  | nil => rfl
  | cons m members ih => rw [normalMembers, ih, List.map_cons]

theorem heightElements_eq (elements : List Value) : heightElements elements = elements.map height := by
  induction elements with
  | nil => rfl
  | cons v elements ih => rw [heightElements, ih, List.map_cons]

theorem heightMembers_eq (members : List (String × Value)) :
    heightMembers members = members.map fun m => (m.1, height m.2) := by
  induction members with
  | nil => rfl
  | cons m members ih => rw [heightMembers, ih, List.map_cons]

theorem height_objectValue_le {members : List (String × Value)} {room : Nat} :
    height (.objectValue members) ≤ room + 1 ↔ ∀ m ∈ sortMembers members, height m.2 ≤ room := by
  rw [height, heightMembers_eq, sortMembers_map, List.map_map, Nat.add_le_add_iff_right, deepest_le, List.forall_mem_map]
  rfl

end normal

section scalars

/-- An integer as it is written. -/
def integerNumeral (negative : Bool) (m : Nat) : Numeral :=
  ⟨negative, Nat.toDigits 10 m, [], none, digits_toDigits m, Nat.toDigits_ne_nil, Digits.nil⟩

theorem integerNumeral_text (negative : Bool) (m : Nat) :
    (integerNumeral negative m).text = if negative then '-' :: uintToString m else uintToString m := by
  simp [Numeral.text, Numeral.unsigned, Numeral.fracText, Numeral.exponentText, integerNumeral, uintToString]

theorem integerNumeral_decoded {negative : Bool} {m : Nat}
    (fits : m ≤ if negative then maxLargestInt + 1 else maxLargestUInt) :
    (integerNumeral negative m).decoded = some (integerValue negative m) := by
  have mantissa : (integerNumeral negative m).mantissa = m := by
    rw [Numeral.mantissa, integerNumeral, List.append_nil]
    exact Nat.ofDigitChars_ten_toDigits
  rw [Numeral.decoded, mantissa, if_pos ⟨⟨rfl, rfl⟩, fits⟩]
  rfl

theorem intToString_eq (n : Int) : intToString n = (integerNumeral (decide (n < 0)) n.natAbs).text := by
  rw [integerNumeral_text, intToString]
  split
  · rename_i least
    subst least
    rfl
  · simp only [decide_eq_true_eq]

theorem denotes_intToString {n : Int} (fits : Fits (.intValue n)) :
    Denotes 1 (normalScalar (.intValue n)) (intToString n) := by
  have bound : n.natAbs ≤ if decide (n < 0) then maxLargestInt + 1 else maxLargestUInt := by
    unfold Fits minLargestInt maxLargestInt at fits
    unfold maxLargestInt maxLargestUInt
    simp only [decide_eq_true_eq]
    split <;> omega
  rw [intToString_eq]
  exact .number (integerNumeral_decoded bound)

theorem denotes_uintToString {n : Nat} (fits : Fits (.uintValue n)) :
    Denotes 1 (normalScalar (.uintValue n)) (uintToString n) := by
  have number := Denotes.number (@integerNumeral_decoded false n fits)
  rwa [integerNumeral_text] at number

theorem denotes_finite {d : Double} (finite : d.IsFinite) (double : d.IsBinary64) :
    Denotes 1 (.realValue d) (doubleToString d) := by
  obtain ⟨n, -, text, -⟩ := doubleToString_numeral finite
  have decoded := decodeNumber_doubleToString finite double
  rw [← text, decodeNumber_text] at decoded
  rw [← text]
  exact .number decoded

theorem denotes_doubleToString {d : Double} (fits : Fits (.realValue d)) :
    Denotes 1 (normalScalar (.realValue d)) (doubleToString d) := by
  cases d with
  | finite v => exact denotes_finite trivial fits
  | negZero => exact denotes_finite trivial trivial
  | infinite negative => exact fits.elim
  | nan => exact .null

theorem denotes_quoted (s : List Char) :
    Denotes 1 (.stringValue (String.ofList (recode s))) (valueToQuotedStringN s) := by
  rw [valueToQuotedStringN_eq]
  exact .string (quoted_escape s)

end scalars

section values

/-- An element as the writer puts it. -/
def writtenItem (v : Value) : Item := ⟨height v, normal v, writeValue v⟩

/-- A member as the writer puts it, without spaces. -/
def writtenMember (m : String × Value) : Member where
  toItem := writtenItem m.2
  before := []
  name := recode m.1.toList
  quoted := escape m.1.toList
  after := []
  spaces_before := Spaces.nil
  spaces_after := Spaces.nil
  spelled := quoted_escape m.1.toList

theorem writtenMember_line (m : String × Value) : (writtenMember m).line = writeMember (m.1, writeValue m.2) := by
  rw [writeMember, valueToQuotedStringN_eq]
  rfl

theorem denotes_array {elements : List Value}
    (each : ∀ v ∈ elements, Denotes (height v) (normal v) (writeValue v)) :
    Denotes (height (.arrayValue elements)) (normal (.arrayValue elements)) (writeValue (.arrayValue elements)) := by
  rw [height, heightElements_eq, normal, normalElements_eq, writeValue, writeElements_eq]
  cases elements with
  | nil => exact .emptyArray Spaces.nil
  | cons v elements =>
    have array := @Denotes.array ((v :: elements).map writtenItem) (by simp) (List.forall_mem_map.mpr each)
    rwa [List.map_map, List.map_map, List.map_map] at array

theorem denotes_object {members : List (String × Value)}
    (each : ∀ m ∈ members, Denotes (height m.2) (normal m.2) (writeValue m.2)) :
    Denotes (height (.objectValue members)) (normal (.objectValue members)) (writeValue (.objectValue members)) := by
  rw [height, heightMembers_eq, sortMembers_map, normal, normalMembers_eq, sortMembers_map, writeValue, writeMembers_eq,
    sortMembers_map]
  have sorted : ∀ m ∈ sortMembers members, Denotes (height m.2) (normal m.2) (writeValue m.2) :=
    fun m mem => each m (mem_sortMembers mem)
  generalize sortMembers members = members at sorted
  cases members with
  | nil => exact .emptyObject Spaces.nil
  | cons m members =>
    have object := @Denotes.object ((m :: members).map writtenMember) (by simp)
      (List.forall_mem_map.mpr sorted)
    have lines : (m :: members).map (Member.line ∘ writtenMember) =
        (m :: members).map fun m => writeMember (m.1, writeValue m.2) :=
      List.map_congr_left fun m _ => writtenMember_line m
    simp only [List.map_map] at object ⊢
    rw [lines] at object
    exact object

/-- The text of a value denotes the value it comes back as. -/
theorem denotes_writeValue {v : Value} (fits : v.All Fits) : Denotes (height v) (normal v) (writeValue v) := by
  induction fits with
  | nullValue _ => exact .null
  | intValue fits => exact denotes_intToString fits
  | uintValue fits => exact denotes_uintToString fits
  | realValue fits => exact denotes_doubleToString fits
  | stringValue _ => exact denotes_quoted _
  | @booleanValue b _ => cases b with
    | true => exact .true
    | false => exact .false
  | arrayValue _ _ each => exact denotes_array each
  | objectValue _ _ each => exact denotes_object each

/-- What the writer wrote, the reader reads, unless it is nested too deep. -/
theorem parse_writeValue {v : Value} (fits : v.All Fits) :
    parse (writeValue v) = limited stackLimit (height v) (normal v) := by
  have read := parse_denotes (denotes_writeValue fits) [] NoNumber.nil
  rwa [List.append_nil] at read

end values

section printed

theorem printable_of_all {text : List Char} (all : text.all fun c => Printable c) :
    ∀ c ∈ text, Printable c := by
  intro c mem
  exact of_decide_eq_true (List.all_eq_true.mp all c mem)

theorem digits_printable {digits : List Char} (all : Digits digits) : ∀ c ∈ digits, Printable c := by
  intro c mem
  have digit := Char.isDigit_iff_toNat.mp (all c mem)
  have zero : '0'.toNat = 48 := rfl
  have nine : '9'.toNat = 57 := rfl
  exact ⟨by omega, by omega⟩

theorem Exponent.text_printable (e : Exponent) : ∀ c ∈ e.text, Printable c := by
  have digits := digits_printable e.all_digits
  unfold Exponent.text
  rw [List.forall_mem_cons]
  refine ⟨by split <;> exact ⟨by decide, by decide⟩, ?_⟩
  split
  · exact digits
  · exact List.forall_mem_cons.mpr ⟨⟨by decide, by decide⟩, digits⟩
  · exact List.forall_mem_cons.mpr ⟨⟨by decide, by decide⟩, digits⟩

theorem Numeral.text_printable (n : Numeral) : ∀ c ∈ n.text, Printable c := by
  have frac : ∀ c ∈ n.fracText, Printable c := by
    unfold Numeral.fracText
    split
    · exact List.forall_mem_nil _
    · exact List.forall_mem_cons.mpr ⟨⟨by decide, by decide⟩, digits_printable n.frac_digits⟩
  have exponent : ∀ c ∈ n.exponentText, Printable c := by
    unfold Numeral.exponentText
    split
    · exact List.forall_mem_nil _
    · exact Exponent.text_printable _
  have unsigned : ∀ c ∈ n.unsigned, Printable c :=
    List.forall_mem_append.mpr ⟨digits_printable n.int_digits, List.forall_mem_append.mpr ⟨frac, exponent⟩⟩
  unfold Numeral.text
  split
  · exact List.forall_mem_cons.mpr ⟨⟨by decide, by decide⟩, unsigned⟩
  · exact unsigned

theorem doubleToString_printable (d : Double) : ∀ c ∈ doubleToString d, Printable c := by
  have numeral {d : Double} (finite : d.IsFinite) : ∀ c ∈ doubleToString d, Printable c := by
    obtain ⟨n, -, text, -⟩ := doubleToString_numeral finite
    exact text ▸ n.text_printable
  cases d with
  | finite v => exact numeral trivial
  | negZero => exact numeral trivial
  | infinite negative => exact infiniteNumeral_text negative ▸ (infiniteNumeral negative).text_printable
  | nan => exact printable_of_all (by decide)

theorem separated_printable {texts : List (List Char)} (each : ∀ text ∈ texts, ∀ c ∈ text, Printable c) :
    ∀ c ∈ separated texts, Printable c := by
  induction texts with
  | nil => exact List.forall_mem_nil _
  | cons text texts ih =>
    obtain ⟨first, later⟩ := List.forall_mem_cons.mp each
    cases texts with
    | nil => exact first
    | cons next texts =>
      rw [separated_cons_cons, List.forall_mem_append, List.forall_mem_cons]
      exact ⟨first, ⟨by decide, by decide⟩, ih later⟩

/-- The writer puts printable ASCII on one line, whatever the strings of a value hold. -/
theorem writeValue_printable (v : Value) : ∀ c ∈ writeValue v, Printable c := by
  have plain : ∀ v : Value, v.All fun _ => True := Value.all fun _ => trivial
  have brackets (front back : Char) (printable : Printable front ∧ Printable back) {inside : List Char}
      (all : ∀ c ∈ inside, Printable c) : ∀ c ∈ front :: inside ++ [back], Printable c :=
    List.forall_mem_append.mpr ⟨List.forall_mem_cons.mpr ⟨printable.1, all⟩, List.forall_mem_singleton.mpr printable.2⟩
  induction plain v with
  | nullValue _ => exact printable_of_all (by decide)
  | @intValue n _ =>
    rw [writeValue, intToString_eq]
    exact Numeral.text_printable _
  | @uintValue n _ => exact digits_printable (digits_toDigits n)
  | realValue _ => exact doubleToString_printable _
  | stringValue _ => exact fun c mem => valueToQuotedStringN_printable mem
  | @booleanValue b _ => cases b <;> exact printable_of_all (by decide)
  | @arrayValue elements _ _ each =>
    rw [writeValue, writeElements_eq]
    refine brackets '[' ']' ⟨⟨by decide, by decide⟩, by decide, by decide⟩ (separated_printable ?_)
    exact List.forall_mem_map.mpr each
  | @objectValue members _ _ each =>
    rw [writeValue, writeMembers_eq, sortMembers_map, List.map_map]
    refine brackets '\x7b' '\x7d' ⟨⟨by decide, by decide⟩, by decide, by decide⟩ (separated_printable ?_)
    refine List.forall_mem_map.mpr fun m mem => ?_
    refine List.forall_mem_append.mpr ⟨fun c mem => valueToQuotedStringN_printable mem, ?_⟩
    exact List.forall_mem_cons.mpr ⟨⟨by decide, by decide⟩, each m (mem_sortMembers mem)⟩

end printed

end Json

end MFutures
