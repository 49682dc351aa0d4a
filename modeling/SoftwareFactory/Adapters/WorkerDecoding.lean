import SoftwareFactory.Adapters.WorkerFormat
import SoftwareFactory.Lib.TextLines
import Mathlib.Data.Bool.AllAny

namespace SoftwareFactory.DeepseekAdapter

open Effect Regex Pattern

/-- No backslash in the path, no line break but line feeds in the text. -/
def WorkerFile.Plain (f : WorkerFile) : Prop :=
  '\\' ∉ f.path ∧ ∀ c ∈ strip f.content,PyText.isLineBreak c = true → c = '\n'

section run

variable {σ : Type} {host : Host} {worktree : Path} (disk : Disk σ host worktree)

/-- The files of a list of entries. -/
def named (entries : List (Except PyError (Option (List Char × List Char)))) :
    List (List Char × List Char) :=
  entries.filterMap fun entry => entry.toOption.join

/-- Exactly these blocks are written, and their paths are returned, in order. -/
def Decodes (raw : List Char) (s : σ) (found : List (List Char × List Char)) : Prop :=
  ∃ w,extractAndWriteFiles disk raw (Work.start s) = (.ok (found.map Prod.fst),w) ∧
    w.writes = found.map fun b => (worktree.div b.1,b.2)

theorem Decodes.unique {raw : List Char} {s : σ} {found found' : List (List Char × List Char)}
    (h : Decodes disk raw s found) (h' : Decodes disk raw s found') :
    found.map Prod.fst = found'.map Prod.fst ∧ found.map Prod.snd = found'.map Prod.snd := by
  obtain ⟨w,hrun,hwrites⟩ := h
  obtain ⟨w',hrun',hwrites'⟩ := h'
  obtain ⟨hnames,hw⟩ := Prod.mk.inj (hrun.symm.trans hrun')
  refine ⟨Except.ok.inj hnames,?_⟩
  rw [hw,hwrites'] at hwrites
  have htexts := congrArg (List.map Prod.snd) hwrites
  rw [List.map_map,List.map_map] at htexts
  exact htexts.symm

end run

def fixture : String := "\x7b\"files\":[\x7b\"path\":\"b.py\",\"content\":\"y\"\x7d]\x7d"

end SoftwareFactory.DeepseekAdapter
