import SoftwareFactory.Lib.Regex
import SoftwareFactory.Lib.Text
import Mathlib.Data.Char
import Mathlib.Data.List.Lex
import Mathlib.Data.List.Sort

namespace SoftwareFactory.SpecGate

open Regex

inductive PyError where
  | value
  deriving DecidableEq, Repr

/-- A literal under `re.IGNORECASE`. -/
def word (s : String) : Pattern := .text foldCase s

def spaces (min : Nat) : Pattern := .many PyText.isSpace min

/-- Words with blanks between them. -/
def phrase : List String → Pattern
  | [] => .empty
  | [w] => word w
  | w::ws => .seqs [word w,spaces 1,phrase ws]

/-- `#+\s*n[\.\):\-]?\s*` -/
def sectionNumber (n : Char) : Pattern :=
  .seqs [.many (· == '#') 1,spaces 0,.char (· == n),
    .opt (.char fun c => c == '.' || c == ')' || c == ':' || c == '-'),spaces 0]

/-- `Aceptaci[oó]n` -/
def aceptacion : Pattern :=
  .seqs [word "Aceptaci",.char fun c => foldCase c == 'o' || foldCase c == Char.ofNat 0xf3,
    word "n"]

def scopeHeading : Pattern :=
  .seqs [sectionNumber '1',
    .alt (phrase ["Alcance","y","Fronteras"]) (phrase ["Scope","and","Boundaries"])]

def criteriaHeading : Pattern :=
  .seqs [sectionNumber '2',
    .alt (.seqs [phrase ["Criterios","de"],spaces 1,aceptacion])
      (phrase ["Acceptance","Criteria"])]

def invariantsHeading : Pattern :=
  .seqs [sectionNumber '3',
    .alt (phrase ["Invariantes","de","Seguridad"]) (phrase ["Security","Invariants"])]

def matrixHeading : Pattern :=
  .seqs [sectionNumber '4',
    .alts [.seqs [phrase ["Matriz","de","Pruebas"],.opt (.seqs [spaces 1,word "Requeridas"])],
      phrase ["Required","Test","Matrix"],phrase ["Test","Matrix"]]]

def requiredSections : List (Pattern × List Char) :=
  [(scopeHeading,"1. Scope and Boundaries".toList),
    (criteriaHeading,"2. Acceptance Criteria".toList),
    (invariantsHeading,"3. Security Invariants".toList),
    (matrixHeading,"4. Test Matrix".toList)]

/-- The heading at which the matrix is cut off. -/
def matrixSplit : Pattern :=
  .seqs [sectionNumber '4',
    .alts [phrase ["Matriz","de","Pruebas"],phrase ["Test","Matrix"],
      phrase ["Required","Test","Matrix"]]]

def separator : Pattern := .opt (.char fun c => c == '_' || c == '-')

/-- The text after the last heading of section 4. -/
def matrixSection (content : List Char) : Option (List Char) :=
  let pieces := matrixSplit.split content
  if pieces.length < 2 then none else pieces.getLast?

variable (u : PyText.Unicode)

/-- `\[\s*AC[_-]?(\d+)\s*\]`, for a kind of identifier. -/
def idPattern (kind : String) : Pattern :=
  .seqs [.char (· == '['),spaces 0,word kind,separator,
    .group (.many (fun c => (u.digit c).isSome) 1),spaces 0,.char (· == ']')]

/-- `AC-01` for the number 1. -/
def canonical (kind : String) (n : Nat) : List Char :=
  kind.toList++['-']++(if n < 10 then '0'::PyText.digits n else PyText.digits n)

/-- The numbers of the identifiers of one kind, sorted as their canonical spellings are. -/
def identifiers (kind : String) (content : List Char) : Except PyError (List Nat) := do
  let numbers ← ((idPattern u kind).findall content).mapM fun m =>
    match PyText.int u (m.groups.headD []) with
    | some n => .ok n
    | none => .error .value
  return numbers.dedup.insertionSort fun a b => canonical kind a ≤ canonical kind b

/-- `(?:\[\s*|\b)AC[_-]?0*n(?:\s*\]|\b)` -/
def mention (kind : String) (n : Nat) : Pattern :=
  .seqs [.alt (.seqs [.char (· == '['),spaces 0]) (.boundary u.isWord),word kind,separator,
    .many (· == '0') 0,word (String.ofList (PyText.digits n)),
    .alt (.seqs [spaces 0,.char (· == ']')]) (.boundary u.isWord)]

/-- The identifiers that the matrix does not mention. -/
def missing (kind : String) (ids : List Nat) (matrix : List Char) : List Nat :=
  ids.filter fun n => ((mention u kind n).search [] matrix).isNone

def bracketed (kind : String) (ids : List Nat) : List Char :=
  ", ".toList.intercalate (ids.map fun n => '['::canonical kind n++[']'])

/-- `none` is a file that does not exist. -/
def validateSpec (specPath : List Char) (spec : Option (List Char)) :
    Except PyError (Bool × List Char) :=
  match spec with
  | none =>
    return (false,"Specification file '".toList++specPath++"' does not exist.".toList)
  | some content =>
    match requiredSections.find? fun x => (x.1.search [] content).isNone with
    | some x => return (false,"Missing required section: '".toList++x.2++['\''])
    | none => do
      let acs ← identifiers u "AC" content
      let secs ← identifiers u "SEC" content
      let tests ← identifiers u "TEST" content
      if acs.isEmpty then
        return (false,"At least one acceptance criterion [AC-xx] must be defined.".toList)
      else if secs.isEmpty then
        return (false,"At least one security invariant [SEC-xx] must be defined.".toList)
      else if tests.isEmpty then
        return (false,"At least one required test [TEST-xx] must be defined.".toList)
      else
        match matrixSection content with
        | none => return (false,"Unable to isolate Test Matrix section.".toList)
        | some matrix =>
          let missingAc := missing u "AC" acs matrix
          let missingSec := missing u "SEC" secs matrix
          if !missingAc.isEmpty then
            return (false,"The following Acceptance Criteria have no ".toList++
              "associated test in the Matrix: ".toList++bracketed "AC" missingAc)
          else if !missingSec.isEmpty then
            return (false,"The following Security Invariants have no ".toList++
              "associated test in the Matrix: ".toList++bracketed "SEC" missingSec)
          else
            return (true,"Spec validated successfully. ACs: ".toList++
              PyText.digits acs.length++", SECs: ".toList++PyText.digits secs.length++
              ", TESTs: ".toList++PyText.digits tests.length)

end SoftwareFactory.SpecGate
