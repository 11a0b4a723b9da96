import Mathlib.Data.String.Basic
import MFutures.Json.Accepted

namespace MFutures

/-- The value of a member that is found, or null, has what all the values inside have. -/
theorem Value.All.index {P : Value → Prop} (null : P .nullValue) {v w : Value} {key : String} (all : v.All P)
    (found : v.index key = .ok w) : w.All P := by
  cases all with
  | nullValue holds =>
    cases found
    exact .nullValue holds
  | @objectValue members _ each =>
    cases found
    cases member : members.lookup key with
    | none => exact .nullValue null
    | some w =>
      obtain ⟨front, back, rfl, -⟩ := List.lookup_eq_some_iff.mp member
      exact each (key, w) (List.mem_append_right _ List.mem_cons_self)
  | _ => cases found

namespace Json

section members
variable {α : Type}

/-- The members of an object stand in the order of their names, no two of one name. -/
def Sorted (members : List (String × α)) : Prop := members.Pairwise fun m m' => m.1 < m'.1

theorem sorted_insertMember {name : String} {a : α} {members : List (String × α)} (sorted : Sorted members) :
    Sorted (insertMember name a members) := by
  induction members with
  | nil => exact List.pairwise_singleton _ _
  | cons m members ih =>
    obtain ⟨first, rest⟩ := List.pairwise_cons.mp sorted
    unfold insertMember
    split
    · rename_i before
      refine List.pairwise_cons.mpr ⟨List.forall_mem_cons.mpr ⟨before, fun m' mem => ?_⟩, sorted⟩
      exact lt_trans before (first m' mem)
    · rename_i notBefore
      split
      · rename_i same
        exact List.pairwise_cons.mpr ⟨fun m' mem => same ▸ first m' mem, rest⟩
      · rename_i other
        refine List.pairwise_cons.mpr ⟨fun m' mem => ?_, ih rest⟩
        rcases mem_insertMember mem with rfl | mem
        · exact lt_of_le_of_ne (not_lt.mp notBefore) (Ne.symm other)
        · exact first m' mem

theorem sorted_sortMembers (members : List (String × α)) : Sorted (sortMembers members) := by
  induction members with
  | nil => exact List.Pairwise.nil
  | cons m members ih => exact sorted_insertMember ih

theorem lookup_map {β : Type} (f : α → β) (members : List (String × α)) (key : String) :
    (members.map fun m => (m.1, f m.2)).lookup key = (members.lookup key).map f := by
  induction members with
  | nil => rfl
  | cons m members ih =>
    rw [List.map_cons, lookup_cons_ite, lookup_cons_ite, ih]
    split <;> rfl

end members

section assigned

theorem lookup_setMember (name key : String) (v : Value) (members : List (String × Value)) :
    (setMember name v members).lookup key = if key = name then some v else members.lookup key := by
  induction members with
  | nil => rw [setMember, lookup_cons_ite]
  | cons m members ih =>
    unfold setMember
    split
    · rename_i same
      rw [lookup_cons_ite, lookup_cons_ite, same]
      split <;> rfl
    · rename_i other
      rw [lookup_cons_ite, lookup_cons_ite, ih]
      by_cases own : key = m.1
      · rw [if_pos own, if_pos own, own, if_neg other]
      · rw [if_neg own, if_neg own]

/-- Members of names of their own are found as they were assigned. -/
theorem lookup_assignMembers {assigned : List (String × Value)} (sorted : Sorted assigned)
    (members : List (String × Value)) (key : String) :
    (assignMembers members assigned).lookup key = (assigned.lookup key).or (members.lookup key) := by
  induction assigned generalizing members with
  | nil => rfl
  | cons m assigned ih =>
    obtain ⟨first, rest⟩ := List.pairwise_cons.mp sorted
    have step : assignMembers members (m :: assigned) = assignMembers (setMember m.1 m.2 members) assigned := rfl
    rw [step, ih rest, lookup_cons_ite, lookup_setMember]
    by_cases own : key = m.1
    · have none : assigned.lookup key = none := by
        refine List.lookup_eq_none_iff.mpr fun m' mem => ?_
        rw [own]
        exact bne_iff_ne.mpr (first m' mem).ne
      rw [none, if_pos own, if_pos own]
      rfl
    · rw [if_neg own, if_neg own]

end assigned

section portable

/-- What comes back as it was, up to the types of its integers and the order of
its members: its strings and names are UTF-8 of the first four planes, and no
double is NaN. -/
def Portable : Value → Prop
  | .realValue .nan => False
  | .stringValue s => Storable s.toList
  | .objectValue members => ∀ m ∈ members, Storable m.1.toList
  | _ => True

/-- Two values that no conversion tells apart. -/
structure Alike (v w : Value) : Prop where
  isNull : v.isNull = w.isNull
  asString : ∀ f, v.asString f = w.asString f
  asInt : v.asInt = w.asInt
  asDouble : v.asDouble = w.asDouble

theorem Alike.refl (v : Value) : Alike v v := ⟨rfl, fun _ => rfl, rfl, rfl⟩

theorem Alike.symm {v w : Value} (alike : Alike v w) : Alike w v :=
  ⟨alike.isNull.symm, fun f => (alike.asString f).symm, alike.asInt.symm, alike.asDouble.symm⟩

theorem Alike.trans {u v w : Value} (first : Alike u v) (second : Alike v w) : Alike u w :=
  ⟨first.isNull.trans second.isNull, fun f => (first.asString f).trans (second.asString f),
    first.asInt.trans second.asInt, first.asDouble.trans second.asDouble⟩

variable {v : Value}

theorem map_recodeString {members : List (String × Value)} (storable : ∀ m ∈ members, Storable m.1.toList) :
    members.map (fun m => (recodeString m.1, m.2)) = members := by
  refine (List.map_congr_left fun m mem => ?_).trans (List.map_id members)
  rw [(recodeString_eq_iff m.1).mpr (storable m mem)]
  rfl

theorem uintValue_alike (n : Nat) : Alike (.uintValue n) (.intValue n) := by
  refine ⟨rfl, fun f => rfl, ?_, rfl⟩
  have lower : minInt ≤ (n : Int) := by
    unfold minInt
    omega
  simp only [Value.asInt, lower, true_and]

/-- The type the reader takes for an integer makes no difference to a conversion. -/
theorem integerValue_alike (negative : Bool) (m : Nat) :
    Alike (integerValue negative m) (.intValue (if negative then -m else m)) := by
  unfold integerValue
  cases negative with
  | true => exact .refl _
  | false =>
    simp only [Bool.false_eq_true, if_false]
    split
    · exact .refl _
    · exact uintValue_alike m

/-- No conversion tells what comes back from what was written. -/
theorem normal_alike (portable : v.All Portable) : Alike (normal v) v := by
  cases portable with
  | @intValue n _ =>
    have same : (if decide (n < 0) then -(n.natAbs : Int) else n.natAbs) = n := by
      simp only [decide_eq_true_eq]
      split <;> omega
    have alike := integerValue_alike (decide (n < 0)) n.natAbs
    rwa [same] at alike
  | @uintValue n _ => exact (integerValue_alike false n).trans (uintValue_alike n).symm
  | @realValue d holds =>
    cases d with
    | nan => exact holds.elim
    | _ => exact .refl _
  | @stringValue s holds =>
    have same : normal (.stringValue s) = .stringValue (recodeString s) := rfl
    rw [same, (recodeString_eq_iff s).mpr holds]
    exact .refl _
  | arrayValue _ _ => exact ⟨rfl, fun _ => rfl, rfl, rfl⟩
  | objectValue _ _ => exact ⟨rfl, fun _ => rfl, rfl, rfl⟩
  | _ => exact .refl _

/-- A member of what comes back is what comes back of the member. -/
theorem normal_index (portable : v.All Portable) (key : String) :
    (normal v).index key = (v.index key).map normal := by
  have integer (negative : Bool) (m : Nat) : (integerValue negative m).index key = .error .jsonError := by
    unfold integerValue
    split
    · rfl
    · split <;> rfl
  cases portable with
  | @objectValue members names _ =>
    have storable : ∀ m ∈ sortMembers (normalMembers members), Storable m.1.toList := by
      intro m mem
      rw [normalMembers_eq] at mem
      obtain ⟨m', inside, rfl⟩ := List.mem_map.mp (mem_sortMembers mem)
      exact names m' inside
    rw [normal, map_recodeString storable, Value.index_objectValue, lookup_assignMembers (sorted_sortMembers _), lookup_sortMembers,
      normalMembers_eq, lookup_map, Value.index_objectValue]
    cases members.lookup key <;> rfl
  | @realValue d holds =>
    cases d with
    | nan => exact holds.elim
    | _ => rfl
  | @intValue n _ => exact integer (decide (n < 0)) n.natAbs
  | @uintValue n _ => exact integer false n
  | _ => rfl

end portable

section reading

/-- `v[k1][k2]...` -/
def follow (v : Value) (path : List String) : Except Fault Value := path.foldlM Value.index v

/-- Two values that nobody tells apart who follows member names and converts what
is there. -/
def SameReading (v w : Value) : Prop :=
  ∀ path, (∃ e, follow v path = .error e ∧ follow w path = .error e) ∨
    ∃ x y, follow v path = .ok x ∧ follow w path = .ok y ∧ Alike x y

variable {v w : Value}

theorem SameReading.refl (v : Value) : SameReading v v := by
  intro path
  cases found : follow v path with
  | error e => exact Or.inl ⟨e, rfl, rfl⟩
  | ok x => exact Or.inr ⟨x, x, rfl, rfl, .refl x⟩

theorem normal_follow (portable : v.All Portable) (path : List String) :
    follow (normal v) path = (follow v path).map normal ∧ ∀ w, follow v path = .ok w → w.All Portable := by
  induction path generalizing v with
  | nil => exact ⟨rfl, fun w same => Except.ok.inj same ▸ portable⟩
  | cons key path ih =>
    have step (v : Value) : follow v (key :: path) = (v.index key).bind fun w => follow w path := rfl
    rw [step, step, normal_index portable]
    cases found : v.index key with
    | error e => exact ⟨rfl, fun w same => nomatch same⟩
    | ok w => exact ih (portable.index trivial found)

/-- What comes back from the writer and the reader reads as what was written. -/
theorem normal_sameReading (portable : v.All Portable) : SameReading (normal v) v := by
  intro path
  obtain ⟨same, inside⟩ := normal_follow portable path
  rw [same]
  cases found : follow v path with
  | error e => exact Or.inl ⟨e, rfl, rfl⟩
  | ok w => exact Or.inr ⟨normal w, w, rfl, rfl, normal_alike (inside w found)⟩

/-- A conversion at the end of a path. -/
theorem SameReading.convert {β : Type} (same : SameReading v w) (path : List String) {f : Value → Except Fault β}
    (alike : ∀ {x y}, Alike x y → f x = f y) : (follow v path).bind f = (follow w path).bind f := by
  rcases same path with ⟨e, left, right⟩ | ⟨x, y, left, right, both⟩
  · rw [left, right]
  · rw [left, right]
    exact alike both

end reading

end Json

end MFutures
