import Cppload.ScalarReaders

/-!
# Assertions on responses

The evaluator of `engine.cpp` splits an assertion at its blanks into a left-hand
side, an operator and an operand.  The validator of `yaml_parser.cpp` scans an
identifier and then all blanks and operator characters that follow it.
-/

namespace Cppload.Scenario

open Text

/-- `ss >> token` on the rest of a stream: the token and what is left. -/
def nextToken (text : Text) : Text × Text :=
  let rest := text.dropWhile isSpace
  (rest.takeWhile fun c => !isSpace c, rest.dropWhile fun c => !isSpace c)

/-- The three strings that `evaluate_assertion` reads. -/
structure Tokens where
  lhs : Text
  op : Text
  rhs : Text
  deriving DecidableEq, Repr

/-- `ss >> lhs >> op >> rhs`. -/
def tokens (expr : Text) : Tokens :=
  let first := nextToken expr
  let second := nextToken first.2
  ⟨first.1, second.1, (nextToken second.2).1⟩

def compareOp (actual : ℤ) (op : Text) (expected : ℤ) : Bool :=
  if op = ['=', '='] then actual = expected
  else if op = ['!', '='] then actual ≠ expected
  else if op = ['>'] then expected < actual
  else if op = ['>', '='] then expected ≤ actual
  else if op = ['<'] then actual < expected
  else if op = ['<', '='] then actual ≤ expected
  else false

/-- `evaluate_assertion` on the status code and the latency of a response. -/
def evaluateAssertion (expr : Text) (statusCode : ℕ) (latency : ℤ) : Bool :=
  let read := tokens expr
  if read.op = [] ∨ read.rhs = [] then false
  else if read.lhs = "status_code".toList then
    match stoll read.rhs with
    | none => false
    | some expected => compareOp statusCode read.op expected
  else if read.lhs = "latency".toList then
    if parseDurationUs read.rhs < 0 then false
    else compareOp latency read.op (parseDurationUs read.rhs)
  else false

def evaluateAssertions (assertions : List Text) (statusCode : ℕ) (latency : ℤ) : Bool :=
  assertions.all fun expr => evaluateAssertion expr statusCode latency

def isIdentChar (c : Char) : Bool :=
  c.isAlphanum || c = '_'

def isOpChar (c : Char) : Bool :=
  c = '=' || c = '!' || c = '<' || c = '>'

/-- The characters that the validator skips behind the identifier. -/
def isOpOrSpace (c : Char) : Bool :=
  isOpChar c || isSpace c

/-- `kValid`. -/
def operators : List Text :=
  [['=', '='], ['!', '='], ['>', '='], ['<', '='], ['>'], ['<']]

/-- `check_assertion_format`: its message, or the identifier and the operator it has
found. -/
def checkAssertionFormat (expr : Text) : Except String (Text × Text) :=
  if expr = [] then .error "empty assertion"
  else
    let identifier := expr.takeWhile isIdentChar
    if identifier = [] then .error "missing left-hand side identifier"
    else
      let run := ((expr.dropWhile isIdentChar).dropWhile isSpace).takeWhile isOpOrSpace
      if run = [] then .error "missing operator (==, !=, >=, <=, >, <)"
      else
        let opToken := run.filter fun c => !isSpace c
        if opToken ∈ operators then .ok (identifier, opToken)
        else
          .error ("invalid operator '" ++ String.ofList opToken ++
            "', expected one of ==, !=, >=, <=, >, <")

/-- What the validator reads, if it accepts. -/
def validatorReads (expr : Text) : Option (Text × Text) :=
  (checkAssertionFormat expr).toOption

/-- What the evaluator reads, if the tokens are an identifier, an operator and an
operand. -/
def evaluatorReads (expr : Text) : Option (Text × Text) :=
  let read := tokens expr
  if read.lhs ≠ [] ∧ read.lhs.all isIdentChar ∧ read.op ∈ operators ∧ read.rhs ≠ [] then
    some (read.lhs, read.op)
  else none

end Cppload.Scenario
