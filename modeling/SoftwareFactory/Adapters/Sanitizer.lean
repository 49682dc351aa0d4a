import SoftwareFactory.Lib.Regex
import SoftwareFactory.Lib.Text

namespace SoftwareFactory.Sanitizer

open Regex

def redactedReplacement : List Char := "[REDACTED_API_KEY]".toList

def secretEnvKeys : List String :=
  ["GEMINI_API_KEY","DEEPSEEK_API_KEY","GLM_API_KEY","DASHSCOPE_API_KEY"]

def isQuote (c : Char) : Bool := c == '\'' || c == '"'

/-- `['\"]?` -/
def optQuote : Pattern := .opt (.char isQuote)

def spaces (min : Nat) : Pattern := .many PyText.isSpace min

/-- `[?&]key=` -/
def urlKeyName : Pattern :=
  .seqs [.char fun c => c == '?' || c == '&',.text foldCase "key="]

/-- `[^&\s'\"`]` -/
def isUrlValueChar (c : Char) : Bool :=
  !(c == '&' || PyText.isSpace c || isQuote c || c.toNat == 0x60)

def patternUrlKey : Pattern := .seq (.group urlKeyName) (.many isUrlValueChar 1)

/-- `[a-z0-9_\-]` -/
def isHeaderNameChar (c : Char) : Bool :=
  (foldCase c).isLower || c.isDigit || c == '_' || c == '-'

def headerName : Pattern :=
  .alts [.text foldCase "x-goog-api-key",.text foldCase "api-key",
    .text foldCase "dashscope-api-key",
    .seq (.text foldCase "x-dashscope-") (.many isHeaderNameChar 1)]

def headerStart : Pattern :=
  .seqs [optQuote,headerName,optQuote,spaces 0,.char fun c => c == ':' || c == '=',spaces 0,
    optQuote]

/-- `[^\s'\"`,]` -/
def isHeaderValueChar (c : Char) : Bool :=
  !(PyText.isSpace c || isQuote c || c.toNat == 0x60 || c == ',')

def patternHeaderGoog : Pattern := .seq (.group headerStart) (.many isHeaderValueChar 1)

def bearerStart : Pattern :=
  .seqs [.alt (.seqs [.text foldCase "Authorization:",spaces 0,.text foldCase "Bearer"])
      (.text foldCase "Bearer"),spaces 1,optQuote]

/-- `[a-zA-Z0-9_\-\.]` -/
def isTokenChar (c : Char) : Bool :=
  (foldCase c).isLower || c.isDigit || c == '_' || c == '-' || c == '.'

def patternHeaderAuth : Pattern := .seq (.group bearerStart) (.many isTokenChar 12)

/-- `val.strip().strip("'\"")` -/
def cleaned (val : List Char) : List Char :=
  PyText.stripBy isQuote (PyText.stripBy PyText.isSpace val)

variable (environ : String → Option (List Char))

/-- The exact value of one environment variable, if it is configured and long enough. -/
def redactValue (msg : List Char) (envName : String) : List Char :=
  match environ envName with
  | none => msg
  | some val =>
    if val ≠ [] ∧ 4 ≤ (cleaned val).length then
      PyText.replace msg (cleaned val) redactedReplacement
    else msg

/-- `none` is Python's `None`; any other object stands there as its `str`. -/
def sanitizeSecretText (text : Option (List Char)) : List Char :=
  match text with
  | none => []
  | some msg =>
    if msg = [] then []
    else
      let msg := secretEnvKeys.foldl (redactValue environ) msg
      let msg := patternUrlKey.sub (keepGroup redactedReplacement) msg
      let msg := patternHeaderGoog.sub (keepGroup redactedReplacement) msg
      patternHeaderAuth.sub (keepGroup redactedReplacement) msg

/-- A text no replacement can bring in. -/
structure Redactable (v : List Char) : Prop where
  no_open : '[' ∉ v
  no_close : ']' ∉ v
  foreign : ¬ v <:+: "REDACTED_API_KEY".toList

theorem Redactable.not_infix {v out : List Char} {P : List Char → Prop} (hv : Redactable v)
    (hP : ∀ gap,P gap → ¬ v <:+: gap) (h : Splice.Spliced P redactedReplacement out) :
    ¬ v <:+: out :=
  h.not_infix hP hv.no_open hv.no_close hv.foreign

/-- A pass that keeps stretches of the text brings nothing back. -/
theorem Redactable.kept {v msg out : List Char} (hv : Redactable v) (hmsg : ¬ v <:+: msg)
    (h : Splice.Spliced (· <:+: msg) redactedReplacement out) : ¬ v <:+: out :=
  hv.not_infix (fun _ hgap hvg => hmsg (hvg.trans hgap)) h

theorem Redactable.sub {v msg : List Char} {a b : Pattern} (hv : Redactable v)
    (ha : a.plain = true) (hmsg : ¬ v <:+: msg) :
    ¬ v <:+: (Pattern.seq (.group a) b).sub (keepGroup redactedReplacement) msg :=
  hv.kept hmsg (Pattern.sub_spliced ha)

theorem redactValue_kept {v msg : List Char} {envName : String} (hv : Redactable v)
    (hmsg : ¬ v <:+: msg) : ¬ v <:+: redactValue environ msg envName := by
  rw [redactValue]
  cases environ envName with
  | none => exact hmsg
  | some val =>
    simp only
    split_ifs with h
    · have hne : cleaned val ≠ [] := by
        apply List.ne_nil_of_length_pos
        omega
      exact hv.not_infix (fun gap hgap hvg => hmsg (hvg.trans hgap.1))
        (PyText.replace_spliced hne)
    · exact hmsg

/-- The pass over its own variable removes the value. -/
theorem redactValue_clears {val msg : List Char} {envName : String}
    (hval : environ envName = some val) (hlen : 4 ≤ (cleaned val).length)
    (hv : Redactable (cleaned val)) : ¬ cleaned val <:+: redactValue environ msg envName := by
  have hne : cleaned val ≠ [] := by
    apply List.ne_nil_of_length_pos
    omega
  have hval0 : val ≠ [] := by
    intro heq
    subst heq
    exact hne rfl
  simp only [redactValue,hval]
  rw [if_pos ⟨hval0,hlen⟩]
  exact hv.not_infix (fun gap hgap => hgap.2) (PyText.replace_spliced hne)

theorem redactValues_kept {v msg : List Char} {names : List String} (hv : Redactable v)
    (hmsg : ¬ v <:+: msg) : ¬ v <:+: names.foldl (redactValue environ) msg := by
  induction names generalizing msg with
  | nil => exact hmsg
  | cons name names ih => exact ih (redactValue_kept environ hv hmsg)

/-- However the secrets overlap, the pass over one variable is enough. -/
theorem redactValues_clear {val msg : List Char} {envName : String} {names : List String}
    (hname : envName ∈ names) (hval : environ envName = some val)
    (hlen : 4 ≤ (cleaned val).length) (hv : Redactable (cleaned val)) :
    ¬ cleaned val <:+: names.foldl (redactValue environ) msg := by
  induction names generalizing msg with
  | nil => exact absurd hname List.not_mem_nil
  | cons name names ih =>
    rw [List.foldl_cons]
    rcases List.mem_cons.mp hname with rfl | hname
    · exact redactValues_kept environ hv (redactValue_clears environ hval hlen hv)
    · exact ih hname

/-- A configured secret does not survive, whatever the other secrets and the text are. -/
theorem sanitizeSecretText_redacts (text : Option (List Char)) (envName : String)
    (val : List Char) (hname : envName ∈ secretEnvKeys) (hval : environ envName = some val)
    (hlen : 4 ≤ (cleaned val).length) (hopen : '[' ∉ cleaned val) (hclose : ']' ∉ cleaned val)
    (hforeign : ¬ cleaned val <:+: "REDACTED_API_KEY".toList) :
    ¬ cleaned val <:+: sanitizeSecretText environ text := by
  have hv : Redactable (cleaned val) := ⟨hopen,hclose,hforeign⟩
  have hempty : ¬ cleaned val <:+: [] := by
    intro h
    have hl := h.length_le
    simp only [List.length_nil] at hl
    omega
  cases text with
  | none => exact hempty
  | some msg =>
    rw [sanitizeSecretText]
    by_cases hmsg : msg = []
    · simp only [hmsg,if_true]
      exact hempty
    · simp only [hmsg,if_false]
      have h0 : ¬ cleaned val <:+: secretEnvKeys.foldl (redactValue environ) msg :=
        redactValues_clear environ hname hval hlen hv
      have hurl : urlKeyName.plain = true := by decide
      have hheader : headerStart.plain = true := by decide
      have hbearer : bearerStart.plain = true := by decide
      exact hv.sub hbearer (hv.sub hheader (hv.sub hurl h0))

def dummyEnviron (name : String) : Option (List Char) :=
  if name = "GEMINI_API_KEY" then some " 'dummy-key-11111' ".toList else none

theorem dummyKey_redacted :
    ¬ cleaned " 'dummy-key-11111' ".toList <:+:
      sanitizeSecretText dummyEnviron (some "Error with key dummy-key-11111.".toList) := by
  apply sanitizeSecretText_redacts dummyEnviron _ "GEMINI_API_KEY" " 'dummy-key-11111' ".toList
  · decide
  · decide
  · decide
  · decide
  · decide
  · decide

end SoftwareFactory.Sanitizer
