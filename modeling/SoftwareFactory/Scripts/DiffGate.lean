import SoftwareFactory.Lib.Fnmatch
import SoftwareFactory.Lib.Regex
import SoftwareFactory.Lib.Text
import SoftwareFactory.Scripts.Git
import Mathlib.Data.List.Lex
import Mathlib.Data.List.Sort

namespace SoftwareFactory.DiffGate

open Regex

def protectedRootPatterns : List (List Char) :=
  ["pyproject.toml","package.json","package-lock.json",".env*","apis.txt",".gitignore",
    ".semgrepignore","RULES.md","orchestrator/**","scripts/**","specs/TEMPLATE.md"].map
    String.toList

def normalizePath (p : List Char) : List Char :=
  (PyText.stripBy PyText.isSpace (PyText.replace p ['\\'] ['/'])).dropWhile
    fun c => c == '.' || c == '/'

/-- A literal under `re.IGNORECASE`. -/
def word (s : String) : Pattern := .text foldCase s

def spaces : Pattern := .many PyText.isSpace 1

/-- `.` under `re.DOTALL`. -/
def anyChar : Char → Bool := fun _ => true

def scopeHeading : Pattern :=
  .seqs [word "##",spaces,word "1.",spaces,
    .alt (word "Alcance y Fronteras") (word "Scope and Boundaries")]

def criteriaHeading : Pattern :=
  .seqs [word "##",spaces,word "2.",spaces,
    .alt (word "Criterios de Aceptación") (word "Acceptance Criteria")]

def section1Pattern : Pattern :=
  .seqs [scopeHeading,.group (.lazy anyChar 0),.ahead (.alt criteriaHeading .atEnd)]

def allowedBullet : Pattern :=
  .seqs [word "-",spaces,.alt (word "Archivos permitidos") (word "Allowed files"),word ":"]

def forbiddenBullet : Pattern :=
  .seqs [word "-",spaces,
    .alt (word "Archivos estrictamente prohibidos") (word "Strictly forbidden files"),word ":"]

def allowedPattern : Pattern :=
  .seqs [allowedBullet,.group (.lazy anyChar 0),.ahead (.alt forbiddenBullet .atEnd)]

def forbiddenPattern : Pattern := .seqs [forbiddenBullet,.group (.many anyChar 0)]

def isBacktick (c : Char) : Bool := c.toNat == 0x60

/-- Text between backticks. -/
def quotedPattern : Pattern :=
  .seqs [.char isBacktick,.group (.many (fun c => !isBacktick c) 1),.char isBacktick]

/-- `group(1)`. -/
def group1 (m : Match) : List Char := m.groups.headD []

/-- What one line of a boundary list names. -/
def listedPaths (line : List Char) : List (List Char) :=
  let m := quotedPattern.findall line
  let stripped := PyText.stripBy PyText.isSpace line
  if !m.isEmpty then m.map fun x => normalizePath (group1 x)
  else if stripped.head? = some '-' ∨ stripped.head? = some '*' then
    let cleaned := normalizePath (stripped.dropWhile (· ∈ "-* \t".toList))
    if cleaned ≠ [] then [cleaned] else []
  else []

/-- The paths below a bullet of section 1. -/
def bulletPaths (r : Pattern) (section1 : List Char) : List (List Char) :=
  match r.search [] section1 with
  | none => []
  | some m => (PyText.lines (group1 m)).flatMap listedPaths

/-- `none` is a file that does not exist. -/
def parseSpecBoundaries (spec : Option (List Char)) : List (List Char) × List (List Char) :=
  match spec with
  | none => ([],[])
  | some content =>
    match section1Pattern.search [] content with
    | none => ([],[])
    | some m => (bulletPaths allowedPattern (group1 m),bulletPaths forbiddenPattern (group1 m))

/-- The results of the three commands; the second diff is run only when it is needed. -/
structure GitOutputs where
  mergeBaseDiff : CommandResult
  directDiff : CommandResult
  status : CommandResult

/-- The diff whose output is read. -/
def GitOutputs.diff (git : GitOutputs) : CommandResult :=
  if git.mergeBaseDiff.returncode ≠ 0 ∨ PyText.strip git.mergeBaseDiff.stdout = "" then
    git.directDiff
  else git.mergeBaseDiff

def diffPaths (stdout : List Char) : List (List Char) :=
  (PyText.lines stdout).filter fun line => PyText.stripBy PyText.isSpace line ≠ []

def isDoubleQuote (c : Char) : Bool := c == '"'

/-- The path of a line `XY PATH` or `XY OLD -> NEW`. -/
def statusPath (line : List Char) : Option (List Char) :=
  match PyText.splitOnce (PyText.stripBy PyText.isSpace line) with
  | [_,path] =>
    let raw := PyText.stripBy isDoubleQuote (PyText.stripBy PyText.isSpace path)
    if " -> ".toList <:+: raw then
      some (PyText.stripBy isDoubleQuote
        (PyText.stripBy PyText.isSpace ((PyText.split " -> ".toList raw).getD 1 [])))
    else some raw
  | _ => none

/-- The paths taken from the outputs, as they stand there. -/
def GitOutputs.paths (git : GitOutputs) : List (List Char) :=
  diffPaths git.diff.stdout.toList++
    (PyText.lines git.status.stdout.toList).filterMap statusPath

def getModifiedFiles (git : GitOutputs) : List (List Char) :=
  ((git.paths.map normalizePath).dedup.insertionSort (· ≤ ·)).filter
    fun p => !decide (".git/".toList <+: p)

def matchesAnyPattern (filePath : List Char) (patterns : List (List Char)) : Bool :=
  patterns.any fun pattern =>
    Fnmatch.fnmatch filePath pattern || filePath == pattern ||
      (pattern.getLast? == some '/' && decide (pattern <+: filePath))

/-- Compiled files are not looked at. -/
def isBytecode (f : List Char) : Bool :=
  decide (".pyc".toList <:+ f) || decide ("/__pycache__/".toList <:+: f) ||
    decide ("__pycache__/".toList <+: f)

def violation (allowed forbidden : List (List Char)) (f : List Char) : Option (List Char) :=
  if isBytecode f then none
  else if matchesAnyPattern f protectedRootPatterns then
    some ("Protected infrastructure or governance file modified: '".toList++f++['\''])
  else if matchesAnyPattern f forbidden then
    some ("File strictly forbidden by SPEC modified: '".toList++f++['\''])
  else if !allowed.isEmpty && !matchesAnyPattern f allowed then
    some ("File outside allowed scope modified: '".toList++f++['\''])
  else none

structure Payload where
  status : String
  modifiedFiles : List (List Char)
  allowedFiles : List (List Char)
  forbiddenFiles : List (List Char)
  violations : List (List Char)
  deriving DecidableEq, Repr

def validateDiff (spec : Option (List Char)) (git : GitOutputs) : Bool × Payload :=
  let (allowed,forbidden) := parseSpecBoundaries spec
  let modified := getModifiedFiles git
  let violations := modified.filterMap (violation allowed forbidden)
  (violations.isEmpty,
    { status := if violations.isEmpty then "PASS" else "FAIL"
      modifiedFiles := modified, allowedFiles := allowed, forbiddenFiles := forbidden
      violations := violations })

end SoftwareFactory.DiffGate
