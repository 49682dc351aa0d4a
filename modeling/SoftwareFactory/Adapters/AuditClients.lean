import SoftwareFactory.Adapters.Contracts
import SoftwareFactory.Adapters.SecurityAdapter
import SoftwareFactory.Lib.PyDict
import Mathlib.Algebra.Order.Field.Basic

namespace SoftwareFactory

open Effect PyDict

def ticks : List Char := List.replicate 3 (Char.ofNat 0x60)

def jsonTicks : List Char := ticks++"json".toList

def stripSpace (s : List Char) : List Char := PyText.stripBy PyText.isSpace s

def dropOpening (s : List Char) : List Char :=
  if jsonTicks <+: s then stripSpace (s.drop 7)
  else if ticks <+: s then stripSpace (s.drop 3)
  else s

def dropClosing (s : List Char) : List Char :=
  if ticks <:+ s then stripSpace (s.take (s.length-3)) else s

/-- `clean_json_text`, which is the same in every adapter. -/
def cleanJsonText (raw : List Char) : List Char := dropClosing (dropOpening (stripSpace raw))

namespace LogicAuditOutput

def toJson (out : LogicAuditOutput) : Json :=
  dict [("status",str out.status.name),
    ("violated_invariants",.array (out.violatedInvariants.map str)),
    ("exploit_poc",(out.exploitPoc.map str).getD .null),("justification",str out.justification)]

end LogicAuditOutput

/-- What is given to `requests.post`. -/
structure Request where
  url : String
  body : Json
  headers : List (String × String)
  timeout : Nat

/-- What the clients use of `requests`, `json` and `pydantic`: `resp.raise_for_status()`, where the
URL goes into the message, `resp.json()`, `json.loads(text, strict=False)` and
`LogicAuditOutput(**parsed)`; and the class and the message of what is raised when an answer has
no text where the reply should be. -/
structure Libraries where
  raiseForStatus : Response → String → Except PyExc Unit
  json : Response → Except PyExc Json
  loads : List Char → Except PyExc Json
  logicAuditOutput : Json → Except PyExc LogicAuditOutput
  noText : Json → String × String

namespace AdapterKind

def apiKeyName : AdapterKind → String
  | .gemini => "GEMINI_API_KEY"
  | .deepseek => "DEEPSEEK_API_KEY"
  | .qwen => "DASHSCOPE_API_KEY"
  | .glm => "GLM_API_KEY"

variable (environ : String → Option (List Char)) (kind : AdapterKind)

/-- `os.getenv`; a variable that is not set is as good as an empty one. -/
def apiKey : List Char := (environ kind.apiKeyName).getD []

/-- `bool(self.api_key)` of a client of this kind. -/
def hasApiKey : Bool := kind.apiKey environ ≠ []

/-- The base URL of the Qwen client. -/
def qwenBaseUrl : String :=
  let base := (environ "DASHSCOPE_BASE_URL").getD []
  let base := if base = [] then "https://dashscope-intl.aliyuncs.com/compatible-mode/v1".toList
    else base
  String.ofList (base.reverse.dropWhile (· == '/')).reverse

def url (model : String) : String :=
  match kind with
  | .gemini => "https://generativelanguage.googleapis.com/v1beta/models/" ++
      model ++ ":generateContent"
  | .deepseek => "https://api.deepseek.com/chat/completions"
  | .qwen => qwenBaseUrl environ ++ "/chat/completions"
  | .glm => "https://open.bigmodel.cn/api/paas/v4/chat/completions"

def headers : List (String × String) :=
  let key := String.ofList (kind.apiKey environ)
  [if kind = .gemini then ("x-goog-api-key",key) else ("Authorization","Bearer " ++ key),
    ("Content-Type","application/json")]

/-- `["candidates"][0]["content"]["parts"][0]["text"]` of a Gemini answer and
`["choices"][0]["message"]["content"]` of the others; `none` raises. -/
def contentOf (data : Json) : Option (List Char) :=
  let first : Json → Option Json := fun v => (asList v).bind List.head?
  let content :=
    if kind = .gemini then
      (((((item "candidates" data).bind first).bind (item "content")).bind (item "parts")).bind
        first).bind (item "text")
    else (((item "choices" data).bind first).bind (item "message")).bind (item "content")
  match content with
  | some (.string s) => some s
  | _ => none

end AdapterKind

namespace Libraries

variable (lib : Libraries)

/-- The reply in the body of a response. -/
def replyOf (kind : AdapterKind) (resp : Response) : Except PyExc (List Char) := do
  let data ← lib.json resp
  (kind.contentOf data).elim (.error (.other (lib.noText data).1 (lib.noText data).2)) .ok

/-- What a client makes of the text of a reply. -/
def decodeReply (reply : List Char) : Except PyExc LogicAuditOutput := do
  let parsed ← lib.loads (cleanJsonText reply)
  lib.logicAuditOutput parsed

def answered (kind : AdapterKind) (url : String) (resp : Response) :
    Except PyExc LogicAuditOutput := do
  lib.raiseForStatus resp url
  let reply ← lib.replyOf kind resp
  lib.decodeReply reply

end Libraries

section call

variable {θ σ α : Type} [Field θ] [LinearOrder θ] (toFloat : String → Option (Retry.Seconds θ))
  (environ : String → Option (List Char)) (sleep : θ → Eff σ PyExc Unit) (lib : Libraries)
  (post : Request → Eff σ PyExc Response)

/-- One attempt of a live client. -/
def AdapterKind.ask (kind : AdapterKind) (req : Request) : Eff σ PyExc LogicAuditOutput := do
  let resp ← post req
  Eff.result (lib.answered kind req.url resp)

/-- `@retry_with_backoff(max_retries=3, initial_delay=1.0)`. -/
def adapterBackoff (name : String) : Retry.Backoff θ := ⟨3,1,2,30,name⟩

def auditInstructions : String :=
  "Act as Principal Security Auditor. Evaluate whether the code violates [SEC-xx] invariants " ++
  "from the spec.\nYou must respond EXCLUSIVELY with valid JSON matching this schema:\n\x7b\n" ++
  "  \"status\": \"PASS\" | \"FAIL\" | \"UNCERTAIN\",\n" ++
  "  \"violated_invariants\": [\"SEC-xx\"],\n" ++
  "  \"exploit_poc\": null | \"exploit code\",\n" ++
  "  \"justification\": \"detailed analysis\"\n\x7d"

def simulatedAudit : LogicAuditOutput :=
  ⟨.simulated,[],none,"Simulated audit in local test environment. " ++
    "Does not represent production validation."⟩

namespace Adapter

variable (a : Adapter)

def auditRequest (specContent codeDiff : String) : Request :=
  let question := s!"Spec:\n{specContent}\n\nImplemented Diff:\n{codeDiff}"
  let body :=
    if a.kind = .gemini then
      dict [("contents",.array [dict [("parts",.array
        [dict [("text",str (auditInstructions ++ "\n\n" ++ question))]])]])]
    else
      dict [("model",str a.model),("messages",.array
        [dict [("role",str "system"),("content",str auditInstructions)],
          dict [("role",str "user"),("content",str question)]])]
  ⟨a.kind.url environ a.model,body,a.kind.headers environ,45⟩

def auditLogicAndSecurity (specContent codeDiff : String) : Eff σ PyExc LogicAuditOutput :=
  Retry.retryWithBackoff toFloat environ sleep (adapterBackoff "audit_logic_and_security")
    (if a.isSimulation then pure simulatedAudit
      else AdapterKind.ask lib post a.kind (a.auditRequest environ specContent codeDiff))

end Adapter

end call

end SoftwareFactory
