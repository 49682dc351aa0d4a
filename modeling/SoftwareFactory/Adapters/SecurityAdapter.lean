import SoftwareFactory.Adapters.NetworkRetry
import SoftwareFactory.Lib.Text

namespace SoftwareFactory

inductive AdapterKind where
  | gemini
  | deepseek
  | qwen
  | glm
  deriving DecidableEq, Repr

structure Adapter where
  kind : AdapterKind
  model : String
  isSimulation : Bool
  deriving DecidableEq, Repr

/-- The class `create_security_adapter` picks for a provider name. -/
def adapterKind (provider : String) : Option AdapterKind :=
  let p := PyText.strip (PyText.lower provider)
  if p = "gemini" then some .gemini
  else if p = "deepseek" then some .deepseek
  else if p = "qwen" ∨ p = "dashscope" then some .qwen
  else if p = "glm" ∨ p = "zhipu" then some .glm
  else none

/-- Unknown providers raise `ValueError`. Without an API key a client simulates on its
own; `simulate` makes it simulate in any case. -/
def createSecurityAdapter (hasApiKey : AdapterKind → Bool) (provider model : String)
    (simulate : Bool) : Except PyExc Adapter :=
  match adapterKind provider with
  | some kind => .ok ⟨kind,model,simulate || !hasApiKey kind⟩
  | none => .error (.other "ValueError"
      (s!"Unsupported security logic audit provider: '{provider}'. " ++
        "Supported providers are: 'gemini', 'deepseek', 'qwen', 'glm'."))

end SoftwareFactory
