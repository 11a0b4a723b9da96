import MFutures.Host

namespace MFutures

/-- The conversion has a value exactly if `p` holds. -/
def Succeeds {α : Type} (p : Prop) (x : Except Fault α) : Prop := (∃ a, x = .ok a) ↔ p

theorem Succeeds.bind {α β : Type} {p q : Prop} {x : Except Fault α} {f : α → Except Fault β} (first : Succeeds p x)
    (next : ∀ a, x = .ok a → Succeeds q (f a)) : Succeeds (p ∧ q) (x >>= f) := by
  cases value : x with
  | error e =>
    constructor
    · rintro ⟨b, fault⟩
      cases fault
    · rintro ⟨holds, _⟩
      obtain ⟨a, other⟩ := first.mpr holds
      cases value.symm.trans other
  | ok a =>
    have holds := first.mp ⟨a, value⟩
    exact (next a value).trans ⟨fun second => ⟨holds, second⟩, And.right⟩

theorem Succeeds.pure {α : Type} (a : α) : Succeeds True (Except.ok a) := iff_true_intro ⟨a, rfl⟩

/-- A conversion that succeeds exactly where `p` holds, and throws elsewhere. -/
structure Converts {α : Type} (p : Prop) (x : Except Fault α) : Prop where
  ok : Succeeds p x
  throws : ∀ e, x = .error e → e = .jsonError

namespace Converts
variable {α β : Type} {p q : Prop} {x : Except Fault α}

theorem of_ok (holds : p) (a : α) : Converts p (.ok a) where
  ok := ⟨fun _ => holds, fun _ => ⟨a, rfl⟩⟩
  throws := fun _ fault => by cases fault

theorem of_error (fails : ¬ p) : Converts p (.error .jsonError : Except Fault α) where
  ok := ⟨fun ⟨_, value⟩ => (by cases value), fun holds => absurd holds fails⟩
  throws := fun _ fault => by
    cases fault
    rfl

theorem error (converts : Converts p x) (fails : ¬ p) : x = .error .jsonError := by
  cases value : x with
  | error e => rw [converts.throws e value]
  | ok a => exact absurd (converts.ok.mp ⟨a, value⟩) fails

theorem cases (converts : Converts p x) : x = .error .jsonError ∨ p ∧ ∃ a, x = .ok a := by
  cases value : x with
  | error e => exact .inl (by rw [converts.throws e value])
  | ok a => exact .inr ⟨converts.ok.mp ⟨a, value⟩, a, rfl⟩

/-- The value that a first conversion gives decides whether a second succeeds. -/
theorem bind {f : α → Except Fault β} (first : Converts p x) (next : ∀ a, x = .ok a → Converts q (f a)) :
    Converts (p ∧ q) (x >>= f) := by
  refine ⟨first.ok.bind fun a value => (next a value).ok, fun e fault => ?_⟩
  cases value : x with
  | error e' =>
    rw [value] at fault
    cases fault
    exact first.throws _ value
  | ok a =>
    rw [value] at fault
    exact (next a value).throws e fault

end Converts

namespace Value

/-- What `operator[]` takes: an object, or a null in the place of one. -/
def isMapping : Value → Bool
  | .nullValue => true
  | .objectValue _ => true
  | _ => false

/-- What `operator[]` gives. -/
def member (v : Value) (key : String) : Value :=
  match v with
  | .objectValue members => (members.lookup key).getD .nullValue
  | _ => .nullValue

/-- What `asString` takes: neither an array nor an object. -/
def isScalar : Value → Bool
  | .arrayValue _ => false
  | .objectValue _ => false
  | _ => true

/-- What `asInt` takes: a number in the range of an int, a Boolean or a null. -/
def isIntegral : Value → Bool
  | .intValue n => decide (minInt ≤ n ∧ n ≤ maxInt)
  | .uintValue n => decide ((n : Int) ≤ maxInt)
  | .realValue d => d.inRange minInt maxInt
  | .nullValue => true
  | .booleanValue _ => true
  | _ => false

/-- What `asDouble` takes: a number, a Boolean or a null. -/
def isNumeric : Value → Bool
  | .stringValue _ => false
  | .arrayValue _ => false
  | .objectValue _ => false
  | _ => true

theorem index_converts (v : Value) (key : String) : Converts (v.isMapping = true) (v.index key) := by
  cases v <;> first | exact .of_ok rfl _ | exact .of_error Bool.false_ne_true

theorem index_value {v w : Value} {key : String} (value : v.index key = .ok w) : w = v.member key := by
  cases v with
  | nullValue => exact (Except.ok.inj value).symm
  | objectValue members => exact (Except.ok.inj value).symm
  | _ => cases value

theorem asString_converts (f : Double → String) (v : Value) : Converts (v.isScalar = true) (v.asString f) := by
  cases v <;> first | exact .of_ok rfl _ | exact .of_error Bool.false_ne_true

theorem asDouble_converts (v : Value) : Converts (v.isNumeric = true) v.asDouble := by
  cases v <;> first | exact .of_ok rfl _ | exact .of_error Bool.false_ne_true

/-- A conversion behind a range check. -/
theorem checked_converts {α : Type} {p : Prop} [Decidable p] (b : Bool) (same : b = true ↔ p) (a : α) :
    Converts (b = true) (if p then .ok a else .error .jsonError) := by
  split
  · rename_i holds
    exact .of_ok (same.mpr holds) a
  · rename_i fails
    exact .of_error fun holds => fails (same.mp holds)

theorem asInt_converts (v : Value) : Converts (v.isIntegral = true) v.asInt := by
  cases v with
  | intValue n => exact checked_converts _ decide_eq_true_iff _
  | uintValue n => exact checked_converts _ decide_eq_true_iff _
  | realValue d => exact checked_converts _ Iff.rfl _
  | nullValue => exact .of_ok rfl _
  | booleanValue b => exact .of_ok rfl _
  | _ => exact .of_error Bool.false_ne_true

/-- Whether the arguments of a message can be read, and one of them. -/
def hasArgs (root : Value) : Bool := root.isMapping && (root.member "ReqArgs").isMapping

def arg (root : Value) (key : String) : Value := (root.member "ReqArgs").member key

/-- Whether the message has this argument as a text, as an int or as a number. -/
def hasText (root : Value) (key : String) : Bool := root.hasArgs && (root.arg key).isScalar

theorem hasText_of_null {root : Value} {key : String} (null : (root.arg key).isNull = true) :
    root.hasText key = root.hasArgs := by
  have scalar : (root.arg key).isScalar = true := by
    cases value : root.arg key <;> first | rfl | (rw [value] at null; cases null)
  rw [hasText, scalar, Bool.and_true]

def hasInt (root : Value) (key : String) : Bool := root.hasArgs && (root.arg key).isIntegral

def hasNumber (root : Value) (key : String) : Bool := root.hasArgs && (root.arg key).isNumeric

def hasID (root : Value) : Bool := root.isMapping && (root.member "UniqueID").isIntegral

end Value

section arguments
variable (lib : Lib) (root : Value)

theorem reqArg_converts (key : String) : Converts (root.hasArgs = true) (reqArg root key) := by
  rw [Value.hasArgs, Bool.and_eq_true]
  refine (root.index_converts _).bind fun v value => ?_
  rw [← Value.index_value value]
  exact v.index_converts key

theorem reqArg_value {root v : Value} {key : String} (value : reqArg root key = .ok v) : v = root.arg key := by
  obtain ⟨args, found, value⟩ := Handler.except_bind_ok value
  rw [Value.index_value value, Value.index_value found, Value.arg]

/-- A conversion of an argument. -/
theorem arg_converts {α : Type} {p : Value → Bool} {f : Value → Except Fault α}
    (converts : ∀ v, Converts (p v = true) (f v)) (key : String) :
    Converts ((root.hasArgs && p (root.arg key)) = true) (reqArg root key >>= f) := by
  rw [Bool.and_eq_true]
  refine (reqArg_converts root key).bind fun v value => ?_
  rw [← reqArg_value value]
  exact converts v

/-- An argument that is read and converted, with what follows. -/
theorem arg_succeeds {α β : Type} {p : Value → Bool} {q : Prop} {f : Value → Except Fault α} {g : α → Except Fault β}
    (converts : ∀ v, Converts (p v = true) (f v)) {key : String}
    (next : ∀ a, (reqArg root key >>= f) = .ok a → Succeeds q (g a)) :
    Succeeds ((root.hasArgs && p (root.arg key)) = true ∧ q) (reqArg root key >>= fun v => f v >>= g) := by
  rw [← bind_assoc]
  exact (arg_converts root converts key).ok.bind next

theorem argString_converts (key : String) : Converts (root.hasText key = true) (lib.argString root key) :=
  arg_converts root (Value.asString_converts _) key

theorem uniqueID_converts : Converts (root.hasID = true) (uniqueID root) := by
  rw [Value.hasID, Bool.and_eq_true]
  refine (root.index_converts _).bind fun v value => ?_
  rw [← Value.index_value value]
  exact v.asInt_converts

end arguments

end MFutures
