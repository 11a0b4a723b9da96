import MFutures.Json.Writer

namespace MFutures.Json

inductive CommentStyle
  | none
  | all
  deriving DecidableEq, Repr

/-- What a `BuiltStyledStreamWriter` is made with. The values here carry no
comments; the line feed at the end is always empty, doubles have 17 digits and the
special ones no names. -/
structure BuiltStyledStreamWriter where
  indentation : List Char
  cs : CommentStyle
  colonSymbol : List Char
  nullSymbol : List Char

/-- The settings of a `StreamWriterBuilder`, with their defaults. -/
structure StreamWriterBuilder where
  indentation : List Char := ['\t']
  commentStyle : String := "All"
  enableYAMLCompatibility : Bool := false
  dropNullPlaceholders : Bool := false

/-- A comment style of another name is an exception. -/
def CommentStyle.ofString (s : String) : Option CommentStyle :=
  if s = "All" then some .all else if s = "None" then some .none else none

def StreamWriterBuilder.newStreamWriter (b : StreamWriterBuilder) : Option BuiltStyledStreamWriter :=
  (CommentStyle.ofString b.commentStyle).map fun cs => {
    indentation := b.indentation
    cs
    colonSymbol := if b.enableYAMLCompatibility then [':', ' '] else if b.indentation.isEmpty then [':'] else [' ', ':', ' ']
    nullSymbol := if b.dropNullPlaceholders then [] else "null".toList }

/-- The stream, and what the writer remembers of what it wrote. -/
structure Writing where
  sout : List Char := []
  childValues : List (List Char) := []
  indentString : List Char := []
  addChildValues : Bool := false
  indented : Bool := false

/-- `*sout_ << text` -/
def Writing.put (text : List Char) (s : Writing) : Writing := { s with sout := s.sout ++ text }

def pushValue (value : List Char) (s : Writing) : Writing :=
  if s.addChildValues then { s with childValues := s.childValues ++ [value] } else s.put value

/-- The steps of a loop that writes a comma after each but the last. -/
def inTurn : List (Writing → Writing) → Writing → Writing
  | [], s => s
  | [step], s => step s
  | step :: steps, s => inTurn steps ((step s).put [','])

theorem inTurn_cons_cons (step next : Writing → Writing) (steps : List (Writing → Writing)) (s : Writing) :
    inTurn (step :: next :: steps) s = inTurn (next :: steps) ((step s).put [',']) := rfl

/-- `(childValue.isArray() || childValue.isObject()) && childValue.size() > 0` -/
def hasParts : Value → Bool
  | .arrayValue elements => !elements.isEmpty
  | .objectValue members => !members.isEmpty
  | _ => false

namespace BuiltStyledStreamWriter
variable (w : BuiltStyledStreamWriter)

def writeIndent (s : Writing) : Writing :=
  if w.indentation.isEmpty then s else s.put ('\n' :: s.indentString)

def writeWithIndent (value : List Char) (s : Writing) : Writing :=
  { (if s.indented then s else w.writeIndent s).put value with indented := false }

def indent (s : Writing) : Writing := { s with indentString := s.indentString ++ w.indentation }

def unindent (s : Writing) : Writing :=
  { s with indentString := s.indentString.take (s.indentString.length - w.indentation.length) }

def rightMargin : Nat := 74

/-- The loop of `isMultilineArray` that writes each element into `childValues_` and
adds up their lengths. -/
def measureLine : List (Writing → Writing) → Nat → Nat → Writing → Nat × Writing
  | [], _, lineLength, s => (lineLength, s)
  | child :: children, index, lineLength, s =>
    measureLine children (index + 1) ((lineLength + ((child s).childValues[index]?.getD []).length) % 2 ^ 32) (child s)

def isMultilineArray (elements : List Value) (children : List (Writing → Writing)) (s : Writing) : Bool × Writing :=
  let size := elements.length
  let s := { s with childValues := [] }
  if size * 3 % 2 ^ 32 ≥ rightMargin || elements.any hasParts then (true, s)
  else
    let (lineLength, s) := measureLine children 0 ((4 + (size - 1) * 2) % 2 ^ 32) { s with addChildValues := true }
    (lineLength ≥ rightMargin, { s with addChildValues := false })

/-- An element of an array that takes more than one line. -/
def writeElement (hasChildValue : Bool) (index : Nat) (child : Writing → Writing) (s : Writing) : Writing :=
  if hasChildValue then w.writeWithIndent (s.childValues[index]?.getD []) s
  else { child { (if s.indented then s else w.writeIndent s) with indented := true } with indented := false }

def writeArrayLines (children : List (Writing → Writing)) (s : Writing) : Writing :=
  let s := w.indent (w.writeWithIndent ['['] s)
  let s := inTurn (children.mapIdx (w.writeElement (!s.childValues.isEmpty))) s
  w.writeWithIndent [']'] (w.unindent s)

def writeArrayLine (size : Nat) (s : Writing) : Writing :=
  let pad := if w.indentation.isEmpty then [] else [' ']
  let values := (List.range size).map fun index => s.childValues[index]?.getD []
  s.put ('[' :: pad ++ List.intercalate (',' :: pad) values ++ pad ++ [']'])

def writeArrayValue (elements : List Value) (children : List (Writing → Writing)) (s : Writing) : Writing :=
  if elements.isEmpty then pushValue ['[', ']'] s
  else
    let (isMultiLine, s) := if w.cs = .all then (true, s) else isMultilineArray elements children s
    if isMultiLine then w.writeArrayLines children s else w.writeArrayLine elements.length s

def writeMember (m : String × (Writing → Writing)) (s : Writing) : Writing :=
  m.2 ((w.writeWithIndent (valueToQuotedStringN m.1.toList) s).put w.colonSymbol)

def writeObjectValue (members : List (String × (Writing → Writing))) (s : Writing) : Writing :=
  if members.isEmpty then pushValue ['\x7b', '\x7d'] s
  else
    let s := w.indent (w.writeWithIndent ['\x7b'] s)
    let s := inTurn (members.map w.writeMember) s
    w.writeWithIndent ['\x7d'] (w.unindent s)

mutual
def writeValue : Value → Writing → Writing
  | .nullValue => pushValue w.nullSymbol
  | .intValue n => pushValue (intToString n)
  | .uintValue n => pushValue (uintToString n)
  | .realValue d => pushValue (doubleToString d)
  | .stringValue s => pushValue (valueToQuotedStringN s.toList)
  | .booleanValue b => pushValue (if b then "true".toList else "false".toList)
  | .arrayValue elements => w.writeArrayValue elements (writeElements elements)
  | .objectValue members => w.writeObjectValue (sortMembers (writeMembers members))

def writeElements : List Value → List (Writing → Writing)
  | [] => []
  | v :: elements => writeValue v :: writeElements elements

def writeMembers : List (String × Value) → List (String × (Writing → Writing))
  | [] => []
  | (name, v) :: members => (name, writeValue v) :: writeMembers members
end

/-- What a new writer puts on the stream. -/
def write (root : Value) : List Char := (w.writeValue root { indented := true }).sout

end BuiltStyledStreamWriter

/-- `Json::writeString`, where it throws nothing. -/
def writeString (b : StreamWriterBuilder) (root : Value) : Option (List Char) :=
  b.newStreamWriter.map fun w => w.write root

/-- The builder of the bridge. -/
def plainBuilder : StreamWriterBuilder := { indentation := [] }

end MFutures.Json
