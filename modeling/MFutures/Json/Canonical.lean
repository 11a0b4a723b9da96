import MFutures.Json.Access

namespace MFutures.Json

/-- What holds of every value that comes back as it was: an integer has the type of
its range, a double is finite, and the members of an object are in order. -/
def Canonical : Value → Prop
  | .stringValue s => Storable s.toList
  | .objectValue members => Sorted members ∧ ∀ m ∈ members, Storable m.1.toList
  | v => Made v

section members
variable {members : List (String × Value)}

theorem setMember_new {name : String} {v : Value} (new : name ∉ members.map Prod.fst) :
    setMember name v members = members ++ [(name, v)] := by
  induction members with
  | nil => rfl
  | cons m members ih =>
    obtain ⟨other, new⟩ := not_or.mp fun mem => new (List.mem_cons.mpr mem)
    rw [setMember, if_neg fun same => other same.symm, ih new, List.cons_append]

/-- Members in order are assigned behind those that stand before them. -/
theorem assignMembers_append {assigned : List (String × Value)} (sorted : Sorted (members ++ assigned)) :
    assignMembers members assigned = members ++ assigned := by
  induction assigned generalizing members with
  | nil => exact (List.append_nil members).symm
  | cons m assigned ih =>
    have new : m.1 ∉ members.map Prod.fst := by
      intro mem
      obtain ⟨m', inside, same⟩ := List.mem_map.mp mem
      exact ((List.pairwise_append.mp sorted).2.2 m' inside m List.mem_cons_self).ne same
    have step : assignMembers members (m :: assigned) = assignMembers (setMember m.1 m.2 members) assigned := rfl
    rw [step, setMember_new new, ih (by rwa [List.append_assoc]), List.append_assoc, List.singleton_append]

theorem assignMembers_sorted (sorted : Sorted members) : assignMembers [] members = members := by
  have assigned := @assignMembers_append [] members sorted
  rwa [List.nil_append] at assigned

theorem sortMembers_sorted {α : Type} {members : List (String × α)} (sorted : Sorted members) :
    sortMembers members = members := by
  induction members with
  | nil => rfl
  | cons m members ih =>
    obtain ⟨first, rest⟩ := List.pairwise_cons.mp sorted
    rw [sortMembers_cons, ih rest]
    cases members with
    | nil => rfl
    | cons m' members => exact if_pos (first m' List.mem_cons_self)

/-- A name that is assigned was assigned to some member. -/
theorem mem_assignMembers {assigned : List (String × Value)} {m : String × Value}
    (mem : m ∈ assignMembers members assigned) : m ∈ members ∨ m ∈ assigned := by
  induction assigned generalizing members with
  | nil => exact Or.inl mem
  | cons m' assigned ih =>
    rcases @ih (setMember m'.1 m'.2 members) mem with old | later
    · rcases mem_setMember old with rfl | old
      · exact Or.inr List.mem_cons_self
      · exact Or.inl old
    · exact Or.inr (List.mem_cons_of_mem _ later)

theorem sorted_map {f : Value → Value} (sorted : Sorted members) : Sorted (members.map fun m => (m.1, f m.2)) :=
  List.pairwise_map.mpr sorted

end members

section canonical
variable {v : Value}

theorem Canonical.made (canonical : Canonical v) : Made v := by
  cases v with
  | stringValue s => trivial
  | objectValue members => exact List.pairwise_map.mpr (canonical.1.imp ne_of_lt)
  | _ => exact canonical

theorem normal_made {n : Int} (made : Made (.intValue n)) : normal (.intValue n) = .intValue n := by
  have value : normal (.intValue n) = integerValue (decide (n < 0)) n.natAbs := rfl
  rw [value]
  unfold integerValue
  split
  · rename_i negative
    have := of_decide_eq_true negative
    exact congrArg Value.intValue (by omega)
  · rename_i positive
    have whole : (n.natAbs : Int) = n := Int.natAbs_of_nonneg (not_lt.mp (of_decide_eq_false (Bool.eq_false_iff.mpr positive)))
    rw [whole, if_pos made.2]

/-- What is in order comes back as it is. -/
theorem normal_canonical (all : v.All Canonical) : normal v = v := by
  induction all with
  | intValue made => exact normal_made made
  | @uintValue n made =>
    have large : ¬(n : Int) ≤ maxInt := not_le.mpr made.1
    exact if_neg large
  | @realValue d made =>
    cases d with
    | nan => exact made.1.elim
    | _ => rfl
  | @stringValue s storable => exact congrArg Value.stringValue ((recodeString_eq_iff s).mpr storable)
  | @arrayValue elements _ _ each =>
    rw [normal, normalElements_eq]
    exact congrArg Value.arrayValue ((List.map_congr_left each).trans (List.map_id elements))
  | @objectValue members canonical _ each =>
    obtain ⟨sorted, storable⟩ := canonical
    have values : members.map (fun m => (m.1, normal m.2)) = members := by
      refine (List.map_congr_left fun m mem => ?_).trans (List.map_id members)
      rw [each m mem]
      rfl
    rw [normal, normalMembers_eq, values, sortMembers_sorted sorted, map_recodeString storable,
      assignMembers_sorted sorted]
  | _ => rfl

theorem recodeString_stable (s : String) : recodeString (recodeString (recodeString s)) = recodeString (recodeString s) := by
  simp only [recodeString, String.toList_ofList, recode_stable]

/-- An object that comes back as it was has members in order, with names that come
back, and each of its members comes back. A name that the reader wrote for two
others in turn has settled. -/
theorem normal_object {members : List (String × Value)} (same : normal (.objectValue members) = .objectValue members) :
    (Sorted members ∧ ∀ m ∈ members, Storable m.1.toList) ∧ ∀ m ∈ members, normal m.2 = m.2 := by
  have back : assignMembers [] ((sortMembers (members.map fun m => (m.1, normal m.2))).map
      fun m => (recodeString m.1, m.2)) = members := by
    rw [normal, normalMembers_eq] at same
    exact Value.objectValue.inj same
  have came : ∀ m ∈ members, ∃ m' ∈ members, m.1 = recodeString m'.1 := by
    intro m mem
    rw [← back] at mem
    obtain ⟨m', inside, rfl⟩ := List.mem_map.mp ((mem_assignMembers mem).resolve_left List.not_mem_nil)
    obtain ⟨m'', own, rfl⟩ := List.mem_map.mp (mem_sortMembers inside)
    exact ⟨m'', own, rfl⟩
  have storable : ∀ m ∈ members, Storable m.1.toList := by
    intro m mem
    obtain ⟨m', mem', first⟩ := came m mem
    obtain ⟨m'', -, second⟩ := came m' mem'
    rw [← recodeString_eq_iff, first, second, recodeString_stable]
  have sorted := sorted_sortMembers (members.map fun m => (m.1, normal m.2))
  have names : ∀ m ∈ sortMembers (members.map fun m => (m.1, normal m.2)), Storable m.1.toList := by
    intro m mem
    obtain ⟨m', inside, rfl⟩ := List.mem_map.mp (mem_sortMembers mem)
    exact storable m' inside
  rw [map_recodeString names, assignMembers_sorted sorted] at back
  have inOrder : Sorted members := back ▸ sorted
  rw [sortMembers_sorted (sorted_map inOrder)] at back
  refine ⟨⟨inOrder, storable⟩, fun m mem => ?_⟩
  have each := List.map_inj_left.mp (back.trans (List.map_id members).symm) m mem
  exact congrArg Prod.snd each

theorem canonical_of_normal (made : v.All Made) (same : normal v = v) : v.All Canonical := by
  induction made with
  | nullValue made => exact .nullValue made
  | intValue made => exact .intValue made
  | uintValue made => exact .uintValue made
  | realValue made => exact .realValue made
  | booleanValue made => exact .booleanValue made
  | @stringValue s _ => exact .stringValue ((recodeString_eq_iff s).mp (Value.stringValue.inj same))
  | @arrayValue elements _ _ each =>
    rw [normal, normalElements_eq] at same
    have back := List.map_inj_left.mp ((Value.arrayValue.inj same).trans (List.map_id elements).symm)
    exact .arrayValue trivial fun v mem => each v mem (back v mem)
  | @objectValue members _ _ each =>
    obtain ⟨canonical, back⟩ := normal_object same
    exact .objectValue canonical fun m mem => each m mem (back m mem)

/-- Exactly the values in order that are not nested too deep come back as they were. -/
theorem parse_writeValue_eq_iff (v : Value) :
    parse (writeValue v) = .ok v ↔ v.All Canonical ∧ height v ≤ stackLimit := by
  constructor
  · intro back
    obtain ⟨made, shallow⟩ := parse_within back
    have read := parse_rewritten back
    exact ⟨canonical_of_normal made (Except.ok.inj (read.symm.trans back)), shallow⟩
  · rintro ⟨canonical, shallow⟩
    rw [parse_writeValue (canonical.mono fun _ holds => holds.made.fits), limited_ok shallow, normal_canonical canonical]

/-- What is made by the reader and comes back alike is in order when it comes back. -/
theorem canonical_normal (made : v.All Made) (portable : v.All Portable) : (normal v).All Canonical := by
  have integer {negative : Bool} {m : Nat} (fits : m ≤ if negative then maxLargestInt + 1 else maxLargestUInt) :
      (integerValue negative m).All Canonical := by
    have made := (@within_integerValue 0 _ _ fits).1
    revert made
    unfold integerValue
    cases negative with
    | true => exact fun made => .intValue (by cases made; assumption)
    | false =>
      simp only [Bool.false_eq_true, if_false]
      split
      · exact fun made => .intValue (by cases made; assumption)
      · exact fun made => .uintValue (by cases made; assumption)
  induction made with
  | nullValue made => exact .nullValue made
  | @intValue n made => rw [normal_made made]; exact .intValue made
  | @uintValue n made => exact @integer false n made.2
  | @realValue d made =>
    cases d with
    | nan => exact made.1.elim
    | _ => exact .realValue made
  | booleanValue made => exact .booleanValue made
  | @stringValue s _ =>
    cases portable with
    | stringValue storable =>
      have same : normal (.stringValue s) = .stringValue (recodeString s) := rfl
      rw [same, (recodeString_eq_iff s).mpr storable]
      exact .stringValue storable
  | @arrayValue elements _ _ each =>
    cases portable with
    | arrayValue _ portable =>
      rw [normal, normalElements_eq]
      exact .arrayValue trivial (List.forall_mem_map.mpr fun v mem => each v mem (portable v mem))
  | @objectValue members _ _ each =>
    cases portable with
    | objectValue storable portable =>
      have sorted := sorted_sortMembers (members.map fun m => (m.1, normal m.2))
      have inside : ∀ m ∈ sortMembers (members.map fun m => (m.1, normal m.2)),
          Storable m.1.toList ∧ m.2.All Canonical := by
        intro m mem
        obtain ⟨m', own, rfl⟩ := List.mem_map.mp (mem_sortMembers mem)
        exact ⟨storable m' own, each m' own (portable m' own)⟩
      rw [normal, normalMembers_eq, map_recodeString fun m mem => (inside m mem).1,
        assignMembers_sorted sorted]
      exact .objectValue ⟨sorted, fun m mem => (inside m mem).1⟩ fun m mem => (inside m mem).2

/-- A document with spaces and an escape in it. -/
def connectText : String := "\x7b \"ReqType\" : \"OnConnec\\u0074\" \x7d"

def connectValue : Value := .objectValue [("ReqType", .stringValue "OnConnect")]

theorem connect_denoted : Denotes 2 connectValue connectText.toList := by
  have space : Spaces [' '] := List.forall_mem_singleton.mpr (by decide)
  have hex : Hex ['0', '0', '7', '4'] 0x74 :=
    ⟨[0, 0, 7, 4], .cons rfl (.cons rfl (.cons rfl (.cons rfl .nil))), rfl, rfl⟩
  have name : Quoted "ReqType".toList "ReqType".toList := by
    have plain := @Quoted.plainText "ReqType".toList _ _ rfl .nil
    rwa [List.append_nil] at plain
  have type : Quoted "OnConnect".toList "OnConnec\\u0074".toList := by
    exact @Quoted.plainText "OnConnec".toList _ _ rfl (.unicode hex (fun high => absurd high.1 (by decide)) .nil)
  let member : Member := ⟨⟨1, .stringValue "OnConnect", " \"OnConnec\\u0074\" ".toList⟩, [' '], "ReqType".toList,
    "ReqType".toList, [' '], space, space, name⟩
  have value : Denotes 1 (.stringValue "OnConnect") " \"OnConnec\\u0074\" ".toList :=
    .spaced space space (.string type)
  exact @Denotes.object [member] (List.cons_ne_nil _ _) (List.forall_mem_singleton.mpr value)

theorem connect_read : parse connectText.toList = .ok connectValue := by
  have read := parse_denotes connect_denoted [] NoNumber.nil
  rwa [List.append_nil, limited_ok (by decide)] at read

end canonical

end MFutures.Json
