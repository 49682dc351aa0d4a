import SoftwareFactory.Lib.Effect
import SoftwareFactory.Lib.Json
import SoftwareFactory.Lib.LexicalPath
import SoftwareFactory.Lib.Regex
import SoftwareFactory.Lib.Text

namespace SoftwareFactory.DeepseekAdapter

open Effect LexicalPath Regex

/-- The exceptions of this code that are told apart by who raises them. -/
inductive PyError where
  | attribute
  | os
  deriving DecidableEq, Repr

/-- A `pathlib` path on a POSIX system: no segment is empty or a single dot. -/
structure Path where
  rooted : Bool
  segments : List Segment
  deriving DecidableEq, Repr

def segmentsOf (s : List Char) : List Segment :=
  (PyText.split ['/'] s).filter fun x => x ≠ [] && x ≠ ['.']

namespace Path

/-- `p / rel`. -/
def div (p : Path) (rel : List Char) : Path :=
  if rel.head? = some '/' then ⟨true,segmentsOf rel⟩ else ⟨p.rooted,p.segments++segmentsOf rel⟩

def parent (p : Path) : Path := ⟨p.rooted,p.segments.dropLast⟩

/-- The path with every `..` resolved lexically. -/
def normal (p : Path) : LexPath := .resolve p.rooted p.segments

end Path

/-- What the code relies on: `json.loads`, of which `none` is an exception, and the names no file
can have, such as those with a NUL or with a character that cannot be encoded. -/
structure Host where
  loads : List Char → Option Json
  nameless : Segment → Prop

/-- No file is written over the worktree or a directory above it, nor under such a name. -/
def Refused (host : Host) (worktree p : Path) : Prop :=
  LexPath.Above worktree.normal p.normal ∨ ∃ x ∈ p.segments,host.nameless x

/-- A file system: any state, any answer to the writes that are not refused. -/
structure Disk (σ : Type) (host : Host) (worktree : Path) where
  mkdir : Path → Eff σ PyError Unit
  writeText : Path → List Char → Eff σ PyError Unit
  refuses : ∀ p text s,Refused host worktree p → ∃ e s',writeText p text s = (.error e,s')

/-- The call while it runs: the file system, the files written so far and `written_files`. -/
structure Work (σ : Type) where
  disk : σ
  writes : List (Path × List Char)
  writtenFiles : List (List Char)

def Work.start {σ : Type} (s : σ) : Work σ := ⟨s,[],[]⟩

def backtick : Char := Char.ofNat 0x60

def fence : Pattern := .text id (String.ofList [backtick,backtick,backtick])

def newline : Pattern := .char (· == '\n')

/-- `\r?\n` -/
def lineEnd : Pattern := .seq (.opt (.char (· == '\r'))) newline

def isWordChar (c : Char) : Bool := c.isAlphanum || c == '_'

def anyChar : Char → Bool := fun _ => true

def fencePattern : Pattern :=
  .seqs [.atStart,fence,.many (fun c => isWordChar c || c == '-' || c == '.') 0,lineEnd,
    .group (.lazy anyChar 0),fence,.atEnd]

def strip (s : List Char) : List Char := PyText.stripBy PyText.isSpace s

def cleanCodeBlock (content : List Char) : List Char :=
  let text := strip content
  match fencePattern.search [] text with
  | some m => strip (m.groups.headD [])++['\n']
  | none =>
    let ticks := [backtick,backtick,backtick]
    let lines := PyText.lines text
    let lines := if lines.head?.any fun l => decide (ticks <+: strip l) then lines.drop 1 else lines
    let lines := if lines.getLast?.any (fun l => strip l = ticks) then lines.dropLast else lines
    strip (['\n'].intercalate lines)++['\n']

/-- `.strip().replace("\\", "/").lstrip("/")` -/
def relativePath (path : List Char) : List Char :=
  (PyText.replace (strip path) ['\\'] ['/']).dropWhile (· == '/')

/-- The text between the first opening and the last closing brace. -/
def jsonCandidate (raw : List Char) : List Char :=
  ((raw.dropWhile (· != '{')).reverse.dropWhile (· != '}')).reverse

/-- What one item of the list says to write; an empty path is passed over. -/
def itemBlock : Json → Except PyError (Option (List Char × List Char))
  | .object fields =>
    match (Json.get fields "path".toList).getD (.string []) with
    | .string path =>
      match (Json.get fields "content".toList).getD (.string []) with
      | .string content =>
        .ok (if relativePath path = [] then none
          else some (relativePath path,cleanCodeBlock content))
      | _ => .error .attribute
    | _ => .error .attribute
  | _ => .error .attribute

/-- The `files` of the candidate, if it is an object with such a list. -/
def jsonItems (host : Host) (raw : List Char) : List Json :=
  match host.loads (jsonCandidate raw) with
  | some (.object fields) =>
    match Json.get fields "files".toList with
    | some (.array items) => items
    | _ => []
  | _ => []

/-- `[a-zA-Z0-9_\-\./\\]`, the letters as `fold` identifies them. -/
def isPathChar (fold : Char → Char) (c : Char) : Bool :=
  isWordChar (fold c) || c == '-' || c == '.' || c == '/' || c == '\\'

def codeBody (fold : Char → Char) : Pattern :=
  .seqs [fence,.many (fun c => isWordChar (fold c) || c == '-') 0,lineEnd,
    .group (.lazy anyChar 0),fence]

def spaces : Pattern := .many PyText.isSpace 0

def word (s : String) : Pattern := .text foldCase s

def fileBlockPattern : Pattern :=
  .seqs [.opt (.alts [word "###",word "##",word "**",.seqs [word "---",spaces,newline]]),spaces,
    .alts [word "FILE",word "ARCHIVO",word "File",word "Archivo"],spaces,
    .opt (.char fun c => c == ':' || c == backtick),spaces,
    .group (.seqs [.many (isPathChar foldCase) 1,.char (· == '.'),
      .many (fun c => isWordChar (foldCase c)) 1]),
    .many (fun c => c == backtick || PyText.isSpace c || c == '*') 0,.many (· == '\n') 1,
    codeBody foldCase]

def genericBlockPattern : Pattern :=
  .seqs [.group (.seqs [.many (isPathChar id) 1,.char (· == '.'),
      .alts (["py","ts","js","json","md"].map (.text id))]),
    spaces,.char (· == ':'),spaces,.many (· == '\n') 1,codeBody id]

/-- The blocks of a match list: the path taken and the code taken. -/
def blocks (r : Pattern) (raw : List Char) : List (List Char × List Char) :=
  (r.findall raw).map fun m =>
    (relativePath (m.groups.getD 0 []),cleanCodeBlock (m.groups.getD 1 []))

section run

variable {σ α : Type} {host : Host} {worktree : Path} (disk : Disk σ host worktree)

def onDisk (op : Eff σ PyError α) : Eff (Work σ) PyError α := fun w =>
  let (a,s) := op w.disk
  (a,{ w with disk := s })

def writeBlock (block : List Char × List Char) : Eff (Work σ) PyError Unit := do
  let dest := worktree.div block.1
  onDisk (disk.mkdir dest.parent)
  onDisk (disk.writeText dest block.2)
  Eff.modify fun w =>
    { w with writes := w.writes++[(dest,block.2)], writtenFiles := w.writtenFiles++[block.1] }

def writeEntry : Except PyError (Option (List Char × List Char)) → Eff (Work σ) PyError Unit
  | .error e => Eff.raise e
  | .ok none => pure ()
  | .ok (some block) => writeBlock disk block

def writeItem (item : Json) : Eff (Work σ) PyError Unit := writeEntry disk (itemBlock item)

def writtenFiles : Eff (Work σ) PyError (List (List Char)) := do
  let w ← Eff.get
  return w.writtenFiles

/-- The first branch; every exception in it is passed over. It is the last one if it comes to
its end with a file written. -/
def writeJson (raw : List Char) : Eff (Work σ) PyError Bool :=
  Eff.catching (do
    Eff.forEach (writeItem disk) (jsonItems host raw)
    let written ← writtenFiles
    return !written.isEmpty) fun _ => pure false

def extractAndWriteFiles (raw : List Char) : Eff (Work σ) PyError (List (List Char)) := do
  let done ← writeJson disk raw
  if done then writtenFiles
  else
    let matchesFile := blocks fileBlockPattern raw
    if !matchesFile.isEmpty then
      Eff.forEach (writeBlock disk) matchesFile
      writtenFiles
    else
      let matchesGeneric := blocks genericBlockPattern raw
      if !matchesGeneric.isEmpty then
        Eff.forEach (writeBlock disk) matchesGeneric
        writtenFiles
      else writtenFiles

end run

end SoftwareFactory.DeepseekAdapter
