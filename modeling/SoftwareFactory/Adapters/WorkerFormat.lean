import SoftwareFactory.Adapters.WorkerReport
import SoftwareFactory.Lib.RegexHead

namespace SoftwareFactory.DeepseekAdapter

open Regex Pattern

def ticks : List Char := [backtick,backtick,backtick]

/-- A file as the worker is told to send it. -/
structure WorkerFile where
  stem : List Char
  ext : List Char
  lang : List Char
  content : List Char
  stem_ne_nil : stem ≠ []
  stem_class : ∀ c ∈ stem,isPathChar foldCase c = true
  relative : stem.head? ≠ some '/'
  ext_ne_nil : ext ≠ []
  ext_class : ∀ c ∈ ext,isWordChar (foldCase c) = true
  lang_class : ∀ c ∈ lang,(isWordChar c || c == '-') = true
  content_free : ¬ ticks <:+: content

namespace WorkerFile

def path (f : WorkerFile) : List Char := f.stem++ '.'::f.ext

/-- `### FILE: <path>`, the opening fence, the content and the closing fence. -/
def block (f : WorkerFile) : List Char :=
  "### FILE: ".toList++(f.path++ '\n'::(ticks++(f.lang++ '\n'::(f.content++ '\n'::(ticks++['\n'])))))

end WorkerFile

/-- An answer in the mandated format. -/
structure WorkerResponse where
  files : List WorkerFile
  nonempty : files ≠ []
  distinct : (files.map WorkerFile.path).Nodup

def WorkerResponse.text (r : WorkerResponse) : List Char := r.files.flatMap WorkerFile.block

namespace WorkerFile

variable {f : WorkerFile}

/-- The code of a file between its fences, from the opening fence on. -/
def code (f : WorkerFile) (rest : List Char) : List Char :=
  ticks++(f.lang++ '\n'::(f.content++ '\n'::(ticks++rest)))

end WorkerFile

section heads

variable (f : WorkerFile) (before rest : List Char) (gs : List (List Char))

end heads

end SoftwareFactory.DeepseekAdapter
