import MFutures.Json.Number
import MFutures.Json.Text

namespace MFutures.Json

section members
variable {α β : Type}

/-- A member put where its name belongs. It takes the place of one of its name. -/
def insertMember (name : String) (a : α) : List (String × α) → List (String × α)
  | [] => [(name, a)]
  | m :: members =>
    if name < m.1 then (name, a) :: m :: members
    else if name = m.1 then (name, a) :: members
    else m :: insertMember name a members

/-- The members in the order of `getMemberNames()`, that of their bytes. Of two of
one name the first counts, as it does for `index`. -/
def sortMembers (members : List (String × α)) : List (String × α) :=
  members.foldr (fun m sorted => insertMember m.1 m.2 sorted) []

@[simp] theorem sortMembers_nil : sortMembers ([] : List (String × α)) = [] := rfl

@[simp] theorem sortMembers_cons (m : String × α) (members : List (String × α)) :
    sortMembers (m :: members) = insertMember m.1 m.2 (sortMembers members) := rfl

theorem insertMember_map (f : α → β) (name : String) (a : α) (members : List (String × α)) :
    insertMember name (f a) (members.map fun m => (m.1, f m.2)) =
      (insertMember name a members).map fun m => (m.1, f m.2) := by
  induction members with
  | nil => rfl
  | cons m members ih =>
    simp only [List.map_cons, insertMember]
    split
    · rfl
    · split
      · rfl
      · rw [ih, List.map_cons]

/-- What the members hold has no part in their order. -/
theorem sortMembers_map (f : α → β) (members : List (String × α)) :
    sortMembers (members.map fun m => (m.1, f m.2)) = (sortMembers members).map fun m => (m.1, f m.2) := by
  induction members with
  | nil => rfl
  | cons m members ih =>
    rw [List.map_cons, sortMembers_cons, sortMembers_cons, ih]
    exact insertMember_map f m.1 m.2 _

theorem mem_insertMember {name : String} {a : α} {members : List (String × α)} {m : String × α}
    (mem : m ∈ insertMember name a members) : m = (name, a) ∨ m ∈ members := by
  induction members with
  | nil => exact Or.inl (List.mem_singleton.mp mem)
  | cons m' members ih =>
    unfold insertMember at mem
    split at mem
    · exact List.mem_cons.mp mem
    · split at mem
      · exact (List.mem_cons.mp mem).imp_right (List.mem_cons_of_mem _)
      · rcases List.mem_cons.mp mem with rfl | mem
        · exact Or.inr List.mem_cons_self
        · exact (ih mem).imp_right (List.mem_cons_of_mem _)

theorem mem_sortMembers {members : List (String × α)} {m : String × α} (mem : m ∈ sortMembers members) :
    m ∈ members := by
  induction members with
  | nil => exact mem
  | cons m' members ih =>
    rcases mem_insertMember mem with rfl | mem
    · exact List.mem_cons_self
    · exact List.mem_cons_of_mem _ (ih mem)

theorem lookup_cons_ite (m : String × α) (members : List (String × α)) (key : String) :
    (m :: members).lookup key = if key = m.1 then some m.2 else members.lookup key := by
  rw [List.lookup_cons]
  by_cases same : key = m.1
  · simp [same]
  · simp [same, beq_false_of_ne same]

theorem insertMember_ne_nil (name : String) (a : α) (members : List (String × α)) : insertMember name a members ≠ [] := by
  cases members with
  | nil => exact List.cons_ne_nil _ _
  | cons m members =>
    unfold insertMember
    split
    · exact List.cons_ne_nil _ _
    · split <;> exact List.cons_ne_nil _ _

theorem lookup_insertMember (name key : String) (a : α) (members : List (String × α)) :
    (insertMember name a members).lookup key = if key = name then some a else members.lookup key := by
  induction members with
  | nil => rw [insertMember, lookup_cons_ite]
  | cons m members ih =>
    unfold insertMember
    split
    · rw [lookup_cons_ite]
    · split
      · rename_i same
        rw [lookup_cons_ite, lookup_cons_ite, ← same]
        split <;> rfl
      · rename_i other
        rw [lookup_cons_ite, lookup_cons_ite, ih]
        by_cases own : key = name
        · rw [if_pos own, if_pos own, own, if_neg other]
        · rw [if_neg own, if_neg own]

/-- No access by name tells the sorted members from the others. -/
theorem lookup_sortMembers (members : List (String × α)) (key : String) :
    (sortMembers members).lookup key = members.lookup key := by
  induction members with
  | nil => rfl
  | cons m members ih => rw [sortMembers_cons, lookup_insertMember, ih, lookup_cons_ite]

end members

/-- Texts with commas between them. -/
def separated : List (List Char) → List Char
  | [] => []
  | [text] => text
  | text :: texts => text ++ ',' :: separated texts

@[simp] theorem separated_cons_cons (text next : List Char) (texts : List (List Char)) :
    separated (text :: next :: texts) = text ++ ',' :: separated (next :: texts) := rfl

def writeMember (m : String × List Char) : List Char := valueToQuotedStringN m.1.toList ++ ':' :: m.2

mutual
/-- The text of a value without spaces, which is what the writer of the bridge puts
on its stream. -/
def writeValue : Value → List Char
  | .nullValue => "null".toList
  | .intValue n => intToString n
  | .uintValue n => uintToString n
  | .realValue d => doubleToString d
  | .stringValue s => valueToQuotedStringN s.toList
  | .booleanValue b => if b then "true".toList else "false".toList
  | .arrayValue elements => '[' :: separated (writeElements elements) ++ [']']
  | .objectValue members =>
    '\x7b' :: separated ((sortMembers (writeMembers members)).map writeMember) ++ ['\x7d']

def writeElements : List Value → List (List Char)
  | [] => []
  | v :: elements => writeValue v :: writeElements elements

def writeMembers : List (String × Value) → List (String × List Char)
  | [] => []
  | (name, v) :: members => (name, writeValue v) :: writeMembers members
end

theorem writeElements_eq (elements : List Value) : writeElements elements = elements.map writeValue := by
  induction elements with
  | nil => rfl
  | cons v elements ih => rw [writeElements, ih, List.map_cons]

theorem writeMembers_eq (members : List (String × Value)) :
    writeMembers members = members.map fun m => (m.1, writeValue m.2) := by
  induction members with
  | nil => rfl
  | cons m members ih => rw [writeMembers, ih, List.map_cons]

end MFutures.Json
