import LinModel.Session.Names

/-!
# The text of session values

Every value has a text for readers and a text that shows what it is; they differ for texts, names,
fractions, decimals and members of closed sets. Objects are shown through the store; an object that
holds itself is shown by dots where it comes up again. An expression without coefficients has no
text for readers, and neither has what needs one of it. Inside another text a number of fixed width
has the text of the plain number that equals it. The formats of columns, and the question
whether a value counts as true, are answered here too, because a report's text needs them.

Key definitions: `Store.shown`, `Store.written`, `Store.inserted`, `Store.truth`,
`Store.general`, `Store.cell`.
-/
namespace LinModel.Session

/-- Items in parentheses; a single item is followed by a comma. -/
def tupleText (items : List String) : String :=
  match items with
  | [item] => "(" ++ item ++ ",)"
  | _ => "(" ++ String.intercalate ", " items ++ ")"

/-- Items in square brackets. -/
def listText (items : List String) : String := "[" ++ String.intercalate ", " items ++ "]"

/-- Entries in braces. -/
def dictText (entries : List (String × String)) : String :=
  "\x7b" ++ String.intercalate ", " (entries.map fun (k, v) => k ++ ": " ++ v) ++ "\x7d"

/-- A class name with fields. -/
def recordText (title : String) (fields : List (String × String)) : String :=
  title ++ "(" ++ String.intercalate ", " (fields.map fun (k, v) => k ++ "=" ++ v) ++ ")"

/-- Fails because an expression has no coefficients of its own. -/
def failBlank {m : Type → Type} [MonadExceptOf Failure m] {α : Type} : m α :=
  fail .notSupported "coefficients not implemented for Expression"

/-- Fails because a relation between forms is used as a truth value. -/
def failRelation {m : Type → Type} [MonadExceptOf Failure m] {α : Type} : m α :=
  fail .relationTruth ("Cannot evaluate the truth value of a constraint or chain constraints, "
    ++ "e.g., 1 >= x >= 0.")

/-- The wording for a constraint that is used as a truth value. -/
def undecidedMessage (c : String) : String :=
  "The truth value of constraint " ++ c ++ " is undefined. "
    ++ "Register it with ModelBuilder.add_constraint or compare variable names instead."

/-- The digits of an integer, unless there are too many. -/
def integerText (n : Int) : Reading String :=
  if n.natAbs < Nat.pow 10 4300 then return toString n
  else fail .value ("Exceeds the limit (4300 digits) for integer string conversion; "
    ++ "use sys.set_int_max_str_digits() to increase the limit")

/-- The text that a number of fixed width has inside another text: that of the plain number that
equals it. -/
def Value.plainText? : Value → Option String
  | .machine (.single x) _ => some (Number.plain x)
  | _ => Option.none

/-- The double that a real number converts to. -/
def convertReal {m : Type → Type} [Monad m] [MonadExceptOf Failure m] (r : RealNumber) : m Float :=
  match r.toDouble with
  | .ok x => pure x
  | .error e => fail .overflow e.message

/-- The double that an integer converts to. -/
def integerToDouble {m : Type → Type} [Monad m] [MonadExceptOf Failure m] (n : Int) : m Float :=
  convertReal (.integer n)

namespace Store

/-- How deep the text of a value goes. -/
def depth : Nat := 1000

/-- The name of the program variable at a place. -/
def programName (s : Store) (place : Nat) : String :=
  match s.objects[place]? with
  | some (.programVariable name _ _ _) => name
  | _ => ""

/-- The text of a form for readers. -/
def formWritten (s : Store) (f : Form Nat Float) : String := f.written s.programName Number.plain

/-- The text of a relation for readers. -/
def relationWritten (s : Store) (r : Relation Nat Float) : String :=
  s.formWritten r.left ++ (if r.isEquation then " == " else " <= ") ++ s.formWritten r.right

/-- The text of an objective for readers. -/
def objectiveWritten (s : Store) (o : ProgramObjective Nat Float) : String :=
  (match o.goal with
    | .min => "minimize "
    | .max => "maximize ") ++ s.formWritten o.expression

/-- The text of a program for readers: a line for the objective and one for each relation. -/
def problemWritten (s : Store) (o : ProgramObjective Nat Float)
    (relations : List (Relation Nat Float)) : String :=
  let title := "subject to "
  let lines := relations.zipIdx.map fun (r, i) =>
    (if i = 0 then title else String.ofList (List.replicate title.length ' '))
      ++ s.relationWritten r
  String.intercalate "\n" (s.objectiveWritten o :: lines)

/-- A number with significant digits, all that are needed or at most a count. -/
def general (s : Store) (count : Option Nat) (v : Value) : Reading String :=
  let digits := count.getD 6
  match v with
  | .real x _ => return Number.general digits x
  | .machine (.integer n) _ => return Number.general digits (Number.nearestInt n)
  | .text .. | .member _ => fail .value "Unknown format code 'g' for object of type 'str'"
  | .truth b | .machine (.truth b) _ => return if b then "1" else "0"
  | .machine n _ => return Number.general digits n.toFloat
  | .integer n _ => do return Number.general digits (← integerToDouble n)
  | .decimal (.notANumber n true p) _ => return (Number.Decimal.notANumber n true p).toText
  | .decimal d _ => return d.general count
  | .object (.array _) place => match s.objects[place]? with
    | some (.array ⟨_, _, [], [x]⟩) => return Number.general digits x.toFloat
    | _ => fault .type "unsupported format string passed to numpy.ndarray.__format__"
  | _ => fault .type ("unsupported format string passed to " ++ v.longTypeName ++ ".__format__")

mutual

/-- The text that shows what a value is, to a given depth and inside the objects at some places. -/
def shownTo (s : Store) (fuel : Nat) (above : List Nat) (v : Value) : Reading String :=
  match fuel with
  | 0 => fail .recursion "maximum recursion depth exceeded while getting the repr of an object"
  | fuel + 1 => match v with
    | .none => return "None"
    | .truth b => return if b then "True" else "False"
    | .integer n _ => integerText n
    | .real x _ => return Number.plain x
    | .fraction q _ => do
      return "Fraction(" ++ (← integerText q.num) ++ ", " ++ (← integerText q.den) ++ ")"
    | .machine (.truth b) _ => return if b then "np.True_" else "np.False_"
    | .machine n _ => return "np." ++ n.width.title ++ "(" ++ n.toText ++ ")"
    | .decimal d _ => return "Decimal('" ++ d.toText ++ "')"
    | .text t _ => return Text.quote t
    | .name n _ => return "VariableName(value=" ++ Text.quote n.text ++ ")"
    | .tuple items _ => do return tupleText (← items.mapM fun item => shownTo s fuel above item)
    | .slice a b c _ => do
      return "slice(" ++ (← shownTo s fuel above a) ++ ", " ++ (← shownTo s fuel above b) ++ ", "
        ++ (← shownTo s fuel above c) ++ ")"
    | .selector key isAny _ => do
      if ← truthTo s fuel above isAny then return "ANY"
      return "Selector.exact(" ++ (← shownTo s fuel above key) ++ ")"
    | .part c fields _ => do
      return recordText c.title (c.fields.zip (← fields.mapM fun v => shownTo s fuel above v))
    | .method on operation _ => return "<bound method " ++ on.typeName ++ "." ++ operation ++ ">"
    | .member m =>
      return "<" ++ m.setName ++ "." ++ m.parts.2.1 ++ ": " ++ Text.quote m.word ++ ">"
    | .object c place => match s.objects[place]? with
      | some o =>
        if above.contains place then
          return match c with
            | .list => "[...]"
            | .dict => "\x7b...\x7d"
            | _ => "..."
        else objectTo s fuel (place :: above) o
      | none => return "<" ++ c.title ++ " object>"

/-- The text that shows what an object is. -/
def objectTo (s : Store) (fuel : Nat) (above : List Nat) (o : Object) : Reading String :=
  match fuel with
  | 0 => fail .recursion "maximum recursion depth exceeded while getting the repr of an object"
  | fuel + 1 => match o with
    | .list items => do return listText (← items.mapM fun item => shownTo s fuel above item)
    | .dict entries => entriesTo s fuel above entries
    | .view entries => do return "mappingproxy(" ++ (← entriesTo s fuel above entries) ++ ")"
    | .listing title items => do
      return title ++ "(" ++ listText (← items.mapM fun item => shownTo s fuel above item) ++ ")"
    | .expression e _ => return e.describe
    | .constraint c => do
      let relation ← match c.relationship with
        | .member m => pure m.word
        | .name n _ => pure n.text
        | v => fail .operation (noAttributeMessage v "value")
      let left ← insertedTo s fuel above c.left
      let right ← insertedTo s fuel above c.right
      let body := left ++ " " ++ relation ++ " " ++ right
      match c.label with
      | .none => return "Constraint(" ++ body ++ ")"
      | label => return "Constraint(" ++ (← shownTo s fuel above label) ++ ": " ++ body ++ ")"
    | .objective k => do
      let goal ← match k.goal with
        | .member m => pure m.word
        | .name n _ => pure n.text
        | v => fail .operation (noAttributeMessage v "value")
      return "Objective(" ++ goal ++ " " ++ (← insertedTo s fuel above k.expression) ++ ")"
    | .tensor t _ =>
      return "NamedTensor(shape=" ++ tupleText (t.shape.map toString) ++ ", stored="
        ++ toString t.size ++ ")"
    | .builder b => do
      let objective ← match b.objective with
        | some v => shownTo s fuel above v
        | none => pure "None"
      return "ModelBuilder(variables=" ++ toString b.state.vars.length ++ ", constraints="
        ++ toString b.constraints.length ++ ", objective=" ++ objective ++ ")"
    | .record c fields => match c.comparedFields? with
      | some names => do
        return recordText c.title (← names.mapM fun name => do
          return (name, ← shownTo s fuel above ((fields.find? name).getD .none)))
      | none => return "<" ++ c.title ++ " object>"
    | .array a => return a.shown
    | .programVariable name isBoolean isInteger _ => do
      let note := fun (title : String) (v : Value) => do
        if ← truthTo s fuel above v then
          return ", " ++ title ++ "=" ++ (← writtenTo s fuel above v)
        return ""
      return "Variable((), " ++ name ++ (← note "boolean" isBoolean)
        ++ (← note "integer" isInteger) ++ ")"
    | .form f => formTo s fuel above f
    | .relation r => relationTo s fuel above r
    | .programObjective p => do
      return goalTitle p.goal ++ "(" ++ (← formTo s fuel above p.expression) ++ ")"
    | .problem p relations _ _ => do
      let objective ← formTo s fuel above p.expression
      let relations ← relations.mapM fun r => relationTo s fuel above r
      return "Problem(" ++ goalTitle p.goal ++ "(" ++ objective ++ "), " ++ listText relations
        ++ ")"
    | .error c arguments _ => do
      return c.title ++ "("
        ++ String.intercalate ", " (← arguments.mapM fun v => shownTo s fuel above v) ++ ")"
    | o => return "<" ++ o.objectClass.title ++ " object>"

/-- The text that shows a form: a program variable, or the curvature and the sign of what is built
of such variables, of which boolean ones are at least zero. -/
def formTo (s : Store) (fuel : Nat) (above : List Nat) (f : Form Nat Float) : Reading String :=
  match fuel with
  | 0 => fail .recursion "maximum recursion depth exceeded while getting the repr of an object"
  | fuel + 1 => match f with
    | .handle place => shownTo s fuel above (.object .programVariable place)
    | f => do
      let boolean ← f.handles.eraseDups.filterM fun (place : Nat) =>
        match s.objects[place]? with
        | some (.programVariable _ isBoolean _ _) => truthTo s fuel above isBoolean
        | _ => return false
      let ofHandle := fun place : Nat =>
        if boolean.contains place then ⟨true, false⟩ else Sign.unknown
      return f.describe ofHandle

/-- The text that shows a relation; of an inequality only the left side is shown. -/
def relationTo (s : Store) (fuel : Nat) (above : List Nat) (r : Relation Nat Float) :
    Reading String :=
  match fuel with
  | 0 => fail .recursion "maximum recursion depth exceeded while getting the repr of an object"
  | fuel + 1 => do
    let left ← formTo s fuel above r.left
    if !r.isEquation then return "Inequality(" ++ left ++ ")"
    return "Equality(" ++ left ++ ", " ++ (← formTo s fuel above r.right) ++ ")"

/-- The text that shows the entries of a mapping. -/
def entriesTo (s : Store) (fuel : Nat) (above : List Nat) (entries : List (Value × Value)) :
    Reading String :=
  match fuel with
  | 0 => fail .recursion "maximum recursion depth exceeded while getting the repr of an object"
  | fuel + 1 => do
    return dictText (← entries.mapM fun (k, v) => do
      return (← shownTo s fuel above k, ← shownTo s fuel above v))

/-- The text of a value for readers. -/
def writtenTo (s : Store) (fuel : Nat) (above : List Nat) (v : Value) : Reading String :=
  match fuel with
  | 0 => fail .recursion "maximum recursion depth exceeded"
  | fuel + 1 => match v with
    | .text t _ => return t
    | .name n _ => return n.text
    | .fraction q _ => do
      if q.den = 1 then integerText q.num
      else return (← integerText q.num) ++ "/" ++ (← integerText q.den)
    | .decimal d _ => return d.toText
    | .machine n _ => return n.toText
    | .member m => return m.setName ++ "." ++ m.parts.2.1
    | .object _ place => match s.objects[place]? with
      | some (.expression e _) => return e.toText
      | some .blank => failBlank
      | some (.error c arguments _) => match c, arguments with
        | .unknownVariable, a :: _ => writtenTo s fuel above a
        | _, [] => return ""
        | _, [a] => writtenTo s fuel above a
        | _, as => shownTo s fuel above (.ofTuple as)
      | some (.record .violations fields) =>
        tryCatch (reportTo s fuel above fields) fun e => throw { e with isFault := false }
      | some (.array a) => return a.written
      | some (.programVariable name _ _ _) => return name
      | some (.form f) => return s.formWritten f
      | some (.relation r) => return s.relationWritten r
      | some (.programObjective p) => return s.objectiveWritten p
      | some (.problem p relations _ _) => return s.problemWritten p relations
      | _ => shownTo s fuel above v
    | _ => shownTo s fuel above v

/-- The text of a value inside another text. -/
def insertedTo (s : Store) (fuel : Nat) (above : List Nat) (v : Value) : Reading String :=
  match fuel with
  | 0 => fail .recursion "maximum recursion depth exceeded"
  | fuel + 1 => match v.plainText? with
    | some t => return t
    | none => writtenTo s fuel above v

/-- The text of a report: its entries, or that there are none. -/
def reportTo (s : Store) (fuel : Nat) (above : List Nat) (fields : Entries String Value) :
    Reading String :=
  match fuel with
  | 0 => fail .recursion "maximum recursion depth exceeded"
  | fuel + 1 => do
    let field := fun name => (fields.find? name).getD .none
    let used ← ["constraints", "bounds", "integrality"].filterM fun name =>
      truthTo s fuel above (field name)
    let mut parts := []
    if used.isEmpty then return violationsText (← s.general none (field "tolerance")) []
    for title in ["constraints", "bounds", "integrality"] do
      if ← truthTo s fuel above (field title) then
        let entries ← match s.object? (field title) with
          | some (.dict entries) | some (.view entries) => pure entries
          | some (.tensor t _) => pure (t.items.map fun (ks, v) => (Value.ofTuple ks, v))
          | _ => fail .operation (noAttributeMessage (field title) "items")
        let texts ← entries.mapM fun (k, v) => do
          return (← insertedTo s fuel above k, ← s.general (some 3) v)
        parts := parts ++ [(title, texts)]
    return violationsText (← s.general none (field "tolerance")) parts

/-- Whether a value counts as true: zero, nothing and what is empty do not, and a constraint has
no truth value. -/
def truthTo (s : Store) (fuel : Nat) (above : List Nat) (v : Value) : Reading Bool :=
  match fuel with
  | 0 => fail .recursion "maximum recursion depth exceeded"
  | fuel + 1 => match v with
    | .none => return false
    | .truth b => return b
    | .text t _ => return t != ""
    | .tuple items _ => return !items.isEmpty
    | .object _ place => match s.objects[place]? with
      | some (.list items) | some (.listing _ items) => return !items.isEmpty
      | some (.dict entries) | some (.view entries) => return !List.isEmpty entries
      | some (.tensor t _) => return t.size != 0
      | some (.constraint _) => do
        fail .type (undecidedMessage (← shownTo s fuel above v))
      | some (.relation _) => failRelation
      | some (.array a) => match a.numbers with
        | [x] => return !x.isZero
        | [] => fail .value ("The truth value of an empty array is ambiguous. "
            ++ "Use `array.size > 0` to check that an array is not empty.")
        | _ => fail .value ("The truth value of an array with more than one element is ambiguous. "
            ++ "Use a.any() or a.all()")
      | _ => return true
    | _ => return match v.number? with
      | some x => !x.isZero
      | none => true

end

/-- The text that shows what a value is. -/
def shown (s : Store) (v : Value) : Reading String := s.shownTo depth [] v

/-- The text of a value for readers. -/
def written (s : Store) (v : Value) : Reading String := s.writtenTo depth [] v

/-- The text of a value inside another text. -/
def inserted (s : Store) (v : Value) : Reading String := s.insertedTo depth [] v

/-- Whether a value counts as true. -/
def truth (s : Store) (v : Value) : Reading Bool := s.truthTo depth [] v

/-- The text that shows what a value is, blank if it has none. -/
def shownOrBlank (s : Store) (v : Value) : String :=
  match s.shown v with
  | .ok t => t
  | .error _ => ""

/-- The text of a value inside another text, blank if it has none. -/
def insertedOrBlank (s : Store) (v : Value) : String :=
  match s.inserted v with
  | .ok t => t
  | .error _ => ""

/-- A value in a cell at the left of a column: numbers are written as they are, and so are texts,
decimals and members of closed sets; other values do not fit into a column. -/
def cell (s : Store) (v : Value) : Reading String :=
  match v with
  | .truth b | .machine (.truth b) _ => return if b then "1" else "0"
  | .text .. | .integer .. | .real .. | .machine .. | .decimal .. | .member _ => s.inserted v
  | _ => fault .type ("unsupported format string passed to " ++ v.longTypeName ++ ".__format__")

end Store

/-- The text that shows what a value is, in the store as it is now. -/
def shown (v : Value) : Script String := reading fun s => s.shown v

/-- The text of a value for readers, in the store as it is now. -/
def written (v : Value) : Script String := reading fun s => s.written v

/-- The text of a value inside another text, in the store as it is now. -/
def inserted (v : Value) : Script String := reading fun s => s.inserted v

/-- Whether a value counts as true. -/
def truth (v : Value) : Script Bool := reading fun s => s.truth v

end LinModel.Session
