import Mathlib.Data.List.Basic
import Mathlib.Algebra.Group.Nat.Defs
import Mathlib.Algebra.Group.Int.Defs

namespace MFutures

/-- The ways an activation of a handler can end other than by returning. The
first two are C++ exceptions, the others are uses the language leaves undefined. -/
inductive Fault
  /-- `Json::Exception`, thrown by a conversion or a member access of jsoncpp, or
  by its reader. -/
  | jsonError
  /-- `websocketpp::exception`, thrown by a send without an error code. -/
  | sendError
  | nullPointer
  | wildPointer
  /-- A write into a string literal. -/
  | readOnly
  /-- A `strcpy` past the end of a fixed array. -/
  | overflow
  /-- Flowing off the end of a function that has to return a value. -/
  | noReturn
  deriving DecidableEq, Repr

def Fault.isException : Fault → Bool
  | .jsonError => true
  | .sendError => true
  | _ => false

/-- A C++ string is a sequence of bytes, written here with one `Char` a byte.
This is what a reader of its `c_str()` sees: the bytes before the first NUL. -/
def cStr (s : String) : String := String.ofList (s.toList.takeWhile (· ≠ '\x00'))

/-- The values of a C `double`. The negative zero is none of the numbers, and is
printed with its sign. -/
inductive Double
  | finite (value : Dyadic)
  | negZero
  | infinite (negative : Bool)
  | nan
  deriving DecidableEq

instance : Inhabited Double := ⟨.finite 0⟩

namespace Double

/-- Round to the 53 bits of a significand, to the nearest and ties to even. -/
def roundInt (n : Int) : Int :=
  let m := n.natAbs
  let k := m.log2 + 1 - 53
  let q := m / 2 ^ k
  let r := m % 2 ^ k
  let up := 2 ^ k < 2 * r ∨ 2 ^ k = 2 * r ∧ q % 2 = 1
  n.sign * ((if up then q + 1 else q) * 2 ^ k : Nat)

/-- `static_cast<double>` of an integer. -/
def ofInt (n : Int) : Double := .finite (.ofInt (roundInt n))

/-- The comparison `d >= min && d <= max` of the range checks of jsoncpp. -/
def inRange (d : Double) (min max : Int) : Bool :=
  match d with
  | .finite v => decide (Dyadic.ofInt min ≤ v) && decide (v ≤ Dyadic.ofInt max)
  | .negZero => decide (min ≤ 0) && decide (0 ≤ max)
  | _ => false

/-- The conversion of a finite double to an integer, towards zero. -/
def truncate : Double → Int
  | .finite (.ofOdd n k _) => if 0 ≤ k then n.tdiv (2 ^ k.toNat) else n * 2 ^ (-k).toNat
  | _ => 0

/-- `a > 10000000000000.0` -/
def isHuge : Double → Bool
  | .finite v => decide (Dyadic.ofInt 10000000000000 < v)
  | .infinite negative => !negative
  | _ => false

end Double

/-- `Json::Value`. The members of an object stand in the order they were
inserted; every access goes by key. -/
inductive Value
  | nullValue
  | intValue (n : Int)
  | uintValue (n : Nat)
  | realValue (d : Double)
  | stringValue (s : String)
  | booleanValue (b : Bool)
  | arrayValue (elements : List Value)
  | objectValue (members : List (String × Value))
  deriving Inhabited

def minInt : Int := -2147483648

def maxInt : Int := 2147483647

/-- Signed 32-bit increment. It is undefined at `maxInt` and taken to wrap. -/
def increment (n : Int) : Int := if n = maxInt then minInt else n + 1

namespace Value

/-- `operator[](const char*)`. The non-const form inserts a null member where
there is none, which no later access can tell from a missing one. -/
def index (v : Value) (key : String) : Except Fault Value :=
  match v with
  | .nullValue => .ok .nullValue
  | .objectValue members => .ok ((members.lookup key).getD .nullValue)
  | _ => .error .jsonError

def isNull : Value → Bool
  | .nullValue => true
  | _ => false

def asString (valueToString : Double → String) : Value → Except Fault String
  | .nullValue => .ok ""
  | .stringValue s => .ok s
  | .booleanValue b => .ok (if b then "true" else "false")
  | .intValue n => .ok (toString n)
  | .uintValue n => .ok (toString n)
  | .realValue d => .ok (valueToString d)
  | _ => .error .jsonError

def asInt : Value → Except Fault Int
  | .intValue n => if minInt ≤ n ∧ n ≤ maxInt then .ok n else .error .jsonError
  | .uintValue n => if (n : Int) ≤ maxInt then .ok n else .error .jsonError
  | .realValue d => if d.inRange minInt maxInt then .ok d.truncate else .error .jsonError
  | .nullValue => .ok 0
  | .booleanValue b => .ok (if b then 1 else 0)
  | _ => .error .jsonError

def asDouble : Value → Except Fault Double
  | .intValue n => .ok (.ofInt n)
  | .uintValue n => .ok (.ofInt n)
  | .realValue d => .ok d
  | .nullValue => .ok (.ofInt 0)
  | .booleanValue b => .ok (.ofInt (if b then 1 else 0))
  | _ => .error .jsonError

@[simp] theorem index_objectValue (members : List (String × Value)) (key : String) :
    (objectValue members).index key = .ok ((members.lookup key).getD .nullValue) := rfl

@[simp] theorem asString_stringValue (f : Double → String) (s : String) :
    (stringValue s).asString f = .ok s := rfl

@[simp] theorem asString_nullValue (f : Double → String) : nullValue.asString f = .ok "" := rfl

/-- A member put in front of the first one whose name is not less than its own. -/
def insertMember (m : String × String) : List (String × String) → List (String × String)
  | [] => [m]
  | k :: ms => if m.1 ≤ k.1 then m :: k :: ms else k :: insertMember m ms

mutual
/-- The text `writeString` gives a value without doubles whose strings need no escape. -/
def text : Value → String
  | .nullValue => "null"
  | .intValue n => toString n
  | .uintValue n => toString n
  | .realValue _ => "0.0"
  | .stringValue s => "\"" ++ s ++ "\""
  | .booleanValue b => if b then "true" else "false"
  | .arrayValue elements => "[" ++ ",".intercalate (texts elements) ++ "]"
  | .objectValue members =>
    "\x7b" ++ ",".intercalate ((memberTexts members).map fun m => "\"" ++ m.1 ++ "\":" ++ m.2) ++ "\x7d"

def texts : List Value → List String
  | [] => []
  | v :: vs => v.text :: texts vs

def memberTexts : List (String × Value) → List (String × String)
  | [] => []
  | (key, v) :: ms => insertMember (key, v.text) (memberTexts ms)
end

/-- An int of the code round-trips through a JSON integer. -/
theorem asInt_intValue {n : Int} (lower : minInt ≤ n) (upper : n ≤ maxInt) :
    (intValue n).asInt = .ok n := by
  simp only [asInt, if_pos (And.intro lower upper)]

end Value

end MFutures
