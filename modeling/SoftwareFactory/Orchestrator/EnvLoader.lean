import SoftwareFactory.Lib.FirstGiven
import SoftwareFactory.Lib.TextFile
import SoftwareFactory.Adapters.AuditClients

namespace SoftwareFactory

/-- `os.environ`. -/
abbrev Environ := String → Option (List Char)

/-- The two credential files of a repository; `none` is a file that is not there. -/
structure KeyFiles where
  apis : Option (List UInt8)
  env : Option (List UInt8)

namespace EnvLoader

/-- `bool(value)` of a text. -/
def given (value : List Char) : Bool := value ≠ []

/-- `not os.getenv(name)`. -/
def missing (environ : Environ) (name : String) : Bool := !(environ name).any given

/-- A name or a value with a NUL; `os.environ` refuses it with a `ValueError`. -/
def refused (w : String × List Char) : Bool := '\x00' ∈ w.1.toList ∨ '\x00' ∈ w.2

/-- `os.environ[name] = value`. -/
def setenv (environ : Environ) (name : String) (value : List Char) : Option Environ :=
  if refused (name,value) then none else some (Function.update environ name (some value))

/-- Key and value of a line, unless the line is skipped. -/
def keyValue (line : List Char) : Option (List Char × List Char) :=
  let line := PyText.stripBy PyText.isSpace line
  if line = [] ∨ line.head? = some '#' ∨ '=' ∉ line then none
  else
    let k := line.takeWhile (· ≠ '=')
    let v := (line.dropWhile (· ≠ '=')).drop 1
    some (PyText.stripBy PyText.isSpace k,
      PyText.stripBy (fun c => c = '\'' || c = '"') (PyText.stripBy PyText.isSpace v))

/-- What a line of `apis.txt` does; the key is in lower case. -/
def apisLine (environ : Environ) (k : String) (v : List Char) : Option Environ :=
  if k ∈ ["gemini","gemini_api_key"] ∧ missing environ "GEMINI_API_KEY" then
    setenv environ "GEMINI_API_KEY" v
  else if k ∈ ["deepseek","deepseek_api_key"] ∧ missing environ "DEEPSEEK_API_KEY" then
    setenv environ "DEEPSEEK_API_KEY" v
  else if k ∈ ["glm","glm_api_key"] ∧ missing environ "GLM_API_KEY" then
    setenv environ "GLM_API_KEY" v
  else if k ∈ ["qwen","dashscope","dashscope_api_key"] ∧ missing environ "DASHSCOPE_API_KEY" then
    setenv environ "DASHSCOPE_API_KEY" v
  else some environ

/-- What a line of `.env` does. -/
def envLine (environ : Environ) (k : String) (v : List Char) : Option Environ :=
  if k ≠ "" ∧ missing environ k then setenv environ k v else some environ

/-- The loop over the lines; an exception ends it and keeps what was set before. -/
def readLines (line : Environ → List Char → List Char → Option Environ) :
    Environ → List (List Char) → Environ
  | environ,[] => environ
  | environ,l::ls =>
    match keyValue l with
    | none => readLines line environ ls
    | some (k,v) =>
      match line environ k v with
      | none => environ
      | some environ => readLines line environ ls

/-- The lines of a file that is there and is UTF-8. -/
def linesOf (file : Option (List UInt8)) : List (List Char) :=
  ((file.bind readText).map PyText.lines).getD []

def loadApis (file : Option (List UInt8)) (environ : Environ) : Environ :=
  readLines (fun environ k v => apisLine environ (PyText.lower (String.ofList k)) v) environ
    (linesOf file)

def loadEnv (file : Option (List UInt8)) (environ : Environ) : Environ :=
  readLines (fun environ k v => envLine environ (String.ofList k) v) environ (linesOf file)

def loadApiKeys (files : KeyFiles) (environ : Environ) : Environ :=
  loadEnv files.env (loadApis files.apis environ)

/-- The variable a key of `apis.txt` stands for. -/
def apisVariable (k : String) : Option String :=
  if k ∈ ["gemini","gemini_api_key"] then some "GEMINI_API_KEY"
  else if k ∈ ["deepseek","deepseek_api_key"] then some "DEEPSEEK_API_KEY"
  else if k ∈ ["glm","glm_api_key"] then some "GLM_API_KEY"
  else if k ∈ ["qwen","dashscope","dashscope_api_key"] then some "DASHSCOPE_API_KEY"
  else none

/-- The assignments `apis.txt` asks for, in order. -/
def apisWrites (file : Option (List UInt8)) : List (String × List Char) :=
  (linesOf file).filterMap fun l => (keyValue l).bind fun kv =>
    (apisVariable (PyText.lower (String.ofList kv.1))).map fun name => (name,kv.2)

/-- The assignments `.env` asks for, in order. -/
def envWrites (file : Option (List UInt8)) : List (String × List Char) :=
  (linesOf file).filterMap fun l => (keyValue l).bind fun kv =>
    if String.ofList kv.1 = "" then none else some (String.ofList kv.1,kv.2)

variable {environ : Environ}

/-- One assignment, where the variable has no value yet. -/
def writeMissing (environ : Environ) (w : String × List Char) : Option Environ :=
  if missing environ w.1 then setenv environ w.1 w.2 else some environ

/-- The branches for the other variables do not take a key whose variable has a value. -/
theorem apisLine_write (k : String) (v : List Char) : apisLine environ k v =
    ((apisVariable k).map fun name => (name,v)).elim (some environ) (writeMissing environ) := by
  have hgemini : k ∈ ["gemini","gemini_api_key"] → k ∉ ["deepseek","deepseek_api_key"] ∧
      k ∉ ["glm","glm_api_key"] ∧ k ∉ ["qwen","dashscope","dashscope_api_key"] := by
    intro h
    simp only [List.mem_cons,List.not_mem_nil,or_false] at h
    cases h <;> subst k <;> decide
  have hdeepseek : k ∈ ["deepseek","deepseek_api_key"] →
      k ∉ ["glm","glm_api_key"] ∧ k ∉ ["qwen","dashscope","dashscope_api_key"] := by
    intro h
    simp only [List.mem_cons,List.not_mem_nil,or_false] at h
    cases h <;> subst k <;> decide
  have hglm : k ∈ ["glm","glm_api_key"] → k ∉ ["qwen","dashscope","dashscope_api_key"] := by
    intro h
    simp only [List.mem_cons,List.not_mem_nil,or_false] at h
    cases h <;> subst k <;> decide
  unfold apisLine apisVariable
  by_cases h1 : k ∈ ["gemini","gemini_api_key"]
  · simp only [h1,hgemini h1,if_true,true_and,false_and,if_false,Option.map_some,Option.elim_some,
      writeMissing]
  by_cases h2 : k ∈ ["deepseek","deepseek_api_key"]
  · simp only [h1,h2,hdeepseek h2,if_true,true_and,false_and,if_false,Option.map_some,
      Option.elim_some,writeMissing]
  by_cases h3 : k ∈ ["glm","glm_api_key"]
  · simp only [h1,h2,h3,hglm h3,if_true,true_and,false_and,if_false,Option.map_some,
      Option.elim_some,writeMissing]
  by_cases h4 : k ∈ ["qwen","dashscope","dashscope_api_key"]
  · simp only [h1,h2,h3,h4,if_true,true_and,false_and,if_false,Option.map_some,
      Option.elim_some,writeMissing]
  · simp only [h1,h2,h3,h4,false_and,if_false,Option.map_none,Option.elim_none]

theorem envLine_write (k : String) (v : List Char) : envLine environ k v =
    (if k = "" then none else some (k,v)).elim (some environ) (writeMissing environ) := by
  unfold envLine
  by_cases hk : k = ""
  · simp [hk]
  · simp [hk,writeMissing]

/-- A loop whose lines each ask for at most one assignment. -/
theorem readLines_writes {line : Environ → List Char → List Char → Option Environ}
    {write : List Char × List Char → Option (String × List Char)}
    (hline : ∀ environ k v,line environ k v =
      (write (k,v)).elim (some environ) (writeMissing environ)) (ls : List (List Char)) :
    readLines line environ ls = FirstGiven.assignAll given refused environ
      (ls.filterMap fun l => (keyValue l).bind write) := by
  induction ls generalizing environ with
  | nil => rfl
  | cons l ls ih =>
    rw [readLines,List.filterMap_cons]
    cases hkv : keyValue l with
    | none => exact ih
    | some kv =>
      have hstep := hline environ kv.1 kv.2
      simp only [Option.bind_some]
      rw [hstep]
      cases hw : write kv with
      | none => exact ih
      | some w =>
        simp only [Option.elim_some,writeMissing]
        rw [FirstGiven.assignAll]
        cases hgiven : (environ w.1).any given with
        | true => simpa [missing,hgiven] using ih
        | false =>
          cases hrefused : refused w with
          | true => simp [missing,hgiven,setenv,hrefused]
          | false => simpa [missing,hgiven,setenv,hrefused] using ih

theorem loadApis_writes (file : Option (List UInt8)) :
    loadApis file environ = FirstGiven.assignAll given refused environ (apisWrites file) := by
  exact readLines_writes (fun _ k v => apisLine_write _ v) _

theorem loadEnv_writes (file : Option (List UInt8)) :
    loadEnv file environ = FirstGiven.assignAll given refused environ (envWrites file) := by
  exact readLines_writes (fun _ k v => envLine_write _ v) _

theorem any_given (value : Option (List Char)) :
    value.any given = true ↔ value.getD [] ≠ [] := by
  cases value <;> simp [given]

theorem hasApiKey_given (kind : AdapterKind) (environ : Environ) :
    kind.hasApiKey environ = true ↔ (environ kind.apiKeyName).any given = true := by
  rw [any_given,AdapterKind.hasApiKey,AdapterKind.apiKey,decide_eq_true_eq]

/-- What the two files ask for and the loops come to; a file is left at a name or value with
a NUL, if it is for a variable without a value. -/
structure Read (files : KeyFiles) (environ : Environ) (apis env : List (String × List Char)) :
    Prop where
  apis : FirstGiven.Heard given refused environ (apisWrites files.apis) apis
  env : FirstGiven.Heard given refused (loadApis files.apis environ) (envWrites files.env) env

theorem loadApiKeys_read (files : KeyFiles) (environ : Environ) :
    ∃ apis env,Read files environ apis env ∧ ∀ name,loadApiKeys files environ name =
      FirstGiven.settled given (environ name) (FirstGiven.valuesOf name (apis++env)) := by
  obtain ⟨apis,hapis,hvalues⟩ :=
    FirstGiven.assignAll_values given refused environ (apisWrites files.apis)
  obtain ⟨env,henv,hvaluesEnv⟩ :=
    FirstGiven.assignAll_values given refused (loadApis files.apis environ) (envWrites files.env)
  refine ⟨apis,env,⟨hapis,henv⟩,?_⟩
  intro name
  have hloaded : loadApis files.apis environ name =
      FirstGiven.settled given (environ name) (FirstGiven.valuesOf name apis) := by
    rw [loadApis_writes,hvalues]
  rw [loadApiKeys,loadEnv_writes,hvaluesEnv,hloaded,FirstGiven.settled_append,
    FirstGiven.valuesOf_append]

theorem loadApiKeys_again {files : KeyFiles} (environ : Environ)
    (hfree : ∀ w ∈ apisWrites files.apis++envWrites files.env,refused w = false) :
    loadApiKeys files (loadApiKeys files environ) = loadApiKeys files environ := by
  have hall : ∀ environ name,loadApiKeys files environ name = FirstGiven.settled given
      (environ name) (FirstGiven.valuesOf name (apisWrites files.apis++envWrites files.env)) := by
    intro environ name
    obtain ⟨apis,env,hread,hvalues⟩ := loadApiKeys_read files environ
    have hapis := hread.apis.all fun w hw => hfree w (List.mem_append_left _ hw)
    have henv := hread.env.all fun w hw => hfree w (List.mem_append_right _ hw)
    rw [hvalues,hapis,henv]
  funext name
  rw [hall,hall,FirstGiven.settled_again]

/-- Each variable has the first value that is not empty among its old one, those of
`apis.txt` and those of `.env`, or else the last of them. So a client has its key when one of
them is there, and reading the files once more changes nothing. -/
theorem loadApiKeys_values (files : KeyFiles) (environ : Environ) :
    ∃ apis env,Read files environ apis env ∧
      (∀ name,loadApiKeys files environ name =
        FirstGiven.settled given (environ name) (FirstGiven.valuesOf name (apis++env))) ∧
      (∀ kind : AdapterKind,kind.hasApiKey (loadApiKeys files environ) = true ↔
        kind.hasApiKey environ = true ∨
          ∃ v ∈ FirstGiven.valuesOf kind.apiKeyName (apis++env),v ≠ []) ∧
      ((∀ w ∈ apisWrites files.apis++envWrites files.env,refused w = false) →
        loadApiKeys files (loadApiKeys files environ) = loadApiKeys files environ) := by
  obtain ⟨apis,env,hread,hvalues⟩ := loadApiKeys_read files environ
  refine ⟨apis,env,hread,hvalues,?_,loadApiKeys_again environ⟩
  intro kind
  rw [hasApiKey_given,hasApiKey_given,hvalues,FirstGiven.settled_any_iff]
  simp [given]

/-- A key of `apis.txt` wins over the one of `.env`, and an empty variable is filled. -/
example : (loadApiKeys ⟨some (writeText "# keys\n GLM = 'a=b' \nglm=c".toList),
      some (writeText "GLM_API_KEY=d\nMODE=\"x\"".toList)⟩
    fun name => if name = "GLM_API_KEY" then some [] else none) "GLM_API_KEY" =
      some "a=b".toList := by
  decide +kernel

end EnvLoader
end SoftwareFactory
