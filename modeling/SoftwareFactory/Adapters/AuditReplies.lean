import SoftwareFactory.Adapters.AuditClients
import SoftwareFactory.Adapters.RetryOutcomes
import SoftwareFactory.Lib.TextLines

namespace SoftwareFactory

open Effect PyDict

section text

/-- The ways in which a model wraps a document: blanks, a fence before it, with or without the
name of the language, and a fence after it. -/
inductive Fenced (doc : List Char) : List Char → Prop
  | wrap (before opening gap gap' closing after : List Char)
      (hopening : opening = [] ∨ opening = ticks ∨ opening = jsonTicks)
      (hclosing : closing = [] ∨ closing = ticks)
      (hblank : ∀ c ∈ before++gap++gap'++after,PyText.isSpace c = true) :
      Fenced doc (before++opening++gap++doc++gap'++closing++after)

/-- A document between braces. -/
def Braced (doc : List Char) : Prop := doc.head? = some '\x7b' ∧ doc.getLast? = some '\x7d'

/-- A text whose ends `strip` leaves alone. -/
def Firm (s : List Char) : Prop := ∃ c d,s.head? = some c ∧ PyText.isSpace c = false ∧
  s.getLast? = some d ∧ PyText.isSpace d = false

variable {doc reply s a b : List Char}

theorem stripSpace_padded (hs : Firm s) (ha : ∀ c ∈ a,PyText.isSpace c = true)
    (hb : ∀ c ∈ b,PyText.isSpace c = true) : stripSpace (a++s++b) = s := by
  obtain ⟨c,d,hhead,hc,hlast,hd⟩ := hs
  exact PyText.stripBy_padded ha hb hhead hc hlast hd

theorem Braced.firm (h : Braced doc) : Firm doc :=
  ⟨_,_,h.1,by decide,h.2,by decide⟩

theorem firm_ticks : Firm ticks := by
  refine ⟨Char.ofNat 0x60,Char.ofNat 0x60,rfl,by decide,rfl,by decide⟩

theorem firm_jsonTicks : Firm jsonTicks := by
  refine ⟨Char.ofNat 0x60,'n',rfl,by decide,rfl,by decide⟩

/-- The ends of a text are those of its first and its last part. -/
theorem Firm.around (ha : Firm a) (hb : Firm b) (gap : List Char) : Firm (a++gap++b) := by
  obtain ⟨c,_,hhead,hc,_,_⟩ := ha
  obtain ⟨_,d,_,_,hlast,hd⟩ := hb
  refine ⟨c,d,?_,hc,?_,hd⟩
  · simp [hhead]
  · simp [hlast]

theorem not_ticks_of_brace (h : Braced doc) (rest : List Char) : ¬ticks <+: doc++rest := by
  intro hp
  obtain ⟨t,ht⟩ := hp
  have hhead := congrArg List.head? ht
  rw [List.head?_append,List.head?_append,h.1,ticks] at hhead
  simp at hhead

theorem not_jsonTicks_of_brace (h : Braced doc) (rest : List Char) : ¬jsonTicks <+: doc++rest := by
  intro hp
  exact not_ticks_of_brace h rest ((List.prefix_append ticks _).trans hp)

theorem dropClosing_doc (h : Braced doc) : dropClosing doc = doc := by
  rw [dropClosing,if_neg]
  intro hs
  obtain ⟨t,ht⟩ := hs
  have hlast := congrArg List.getLast? ht
  rw [List.getLast?_append,h.2,ticks] at hlast
  simp at hlast

theorem dropClosing_ticks (h : Braced doc) (hb : ∀ c ∈ b,PyText.isSpace c = true) :
    dropClosing (doc++b++ticks) = doc := by
  have hlen : (doc++b++ticks).length-3 = (doc++b).length := by
    simp [ticks]
    omega
  have hstrip := stripSpace_padded (a := []) h.firm (by simp) hb
  rw [dropClosing,if_pos (List.suffix_append _ _),hlen,List.take_left]
  simpa using hstrip

theorem dropOpening_fence (h : Braced doc) {opening gap : List Char} {more : List Char}
    (hopening : opening = ticks ∨ opening = jsonTicks)
    (hgap : ∀ c ∈ gap,PyText.isSpace c = true) (hfirm : Firm (doc++more)) :
    dropOpening (opening++gap++(doc++more)) = doc++more := by
  have hstrip := stripSpace_padded (a := gap) (b := []) hfirm hgap (by simp)
  rw [List.append_nil] at hstrip
  rw [List.append_assoc]
  cases hopening with
  | inl hplain =>
    have hword : ¬jsonTicks <+: ticks++(gap++(doc++more)) := by
      rw [jsonTicks,List.prefix_append_right_inj]
      intro hp
      obtain ⟨t,ht⟩ := hp
      have hhead := congrArg List.head? ht
      cases gap with
      | nil =>
        rw [List.nil_append,List.head?_append,List.head?_append,h.1] at hhead
        simp at hhead
      | cons c gap =>
        have hc : c = 'j' := by simpa using hhead.symm
        have hspace := hgap c (by simp)
        rw [hc] at hspace
        exact absurd hspace (by decide)
    rw [hplain,dropOpening,if_neg hword,if_pos (List.prefix_append _ _)]
    exact hstrip
  | inr hjson =>
    rw [hjson,dropOpening,if_pos (List.prefix_append _ _)]
    exact hstrip

theorem cleanJsonText_fenced (hd : Braced doc) (h : Fenced doc reply) :
    cleanJsonText reply = doc := by
  cases h with
  | wrap before opening gap gap' closing after hopening hclosing hblank =>
    simp only [List.mem_append,or_imp,forall_and] at hblank
    obtain ⟨⟨⟨hbefore,hgap⟩,hgap'⟩,hafter⟩ := hblank
    -- `strip` takes the blanks behind the last thing that is no blank
    have htail : ∃ more rest,doc++gap'++closing++after = doc++more++rest ∧
        (∀ c ∈ rest,PyText.isSpace c = true) ∧ Firm (doc++more) ∧
        dropClosing (doc++more) = doc := by
      cases hclosing with
      | inl hnone =>
        refine ⟨[],gap'++after,by simp [hnone],?_,?_,?_⟩
        · simpa [or_imp,forall_and] using ⟨hgap',hafter⟩
        · simpa using hd.firm
        · simpa using dropClosing_doc hd
      | inr hticks =>
        refine ⟨gap'++ticks,after,by simp [hticks],hafter,?_,?_⟩
        · simpa using hd.firm.around firm_ticks gap'
        · simpa using dropClosing_ticks hd hgap'
    obtain ⟨more,rest,heq,hrest,hfirm,hclosed⟩ := htail
    have hreply : before++opening++gap++doc++gap'++closing++after =
        before++(opening++gap++(doc++more))++rest := by
      simp only [List.append_assoc] at heq ⊢
      rw [heq]
    rw [cleanJsonText,hreply]
    rcases hopening with hnone | hopening
    · have hfront : ∀ c ∈ before++gap,PyText.isSpace c = true := by
        simpa [or_imp,forall_and] using ⟨hbefore,hgap⟩
      have hstrip := stripSpace_padded hfirm hfront hrest
      have hbare : before++(opening++gap++(doc++more))++rest =
          before++gap++(doc++more)++rest := by simp [hnone]
      rw [hbare,hstrip,dropOpening,if_neg (not_jsonTicks_of_brace hd more),
        if_neg (not_ticks_of_brace hd more),hclosed]
    · have hends : Firm opening := by
        cases hopening with
        | inl h => exact h ▸ firm_ticks
        | inr h => exact h ▸ firm_jsonTicks
      rw [stripSpace_padded (hends.around hfirm gap) hbefore hrest,
        dropOpening_fence hd hopening hgap hfirm,hclosed]

end text

namespace LogicAuditOutput

variable (out : LogicAuditOutput)

/-- The verdict of a document's value; keys that are no fields are ignored. -/
def ofJson (v : Json) : Option LogicAuditOutput := do
  let violated ← match item "violated_invariants" v with
    | some vs => (asList vs).bind (List.mapM asStr)
    | none => some []
  let poc ← match item "exploit_poc" v with
    | some poc => nullable asStr poc
    | none => some none
  let status ← (item "status" v).bind asStr
  return ⟨← [.pass,.fail,.unavailable,.simulated,.uncertain].find? fun st => st.name = status,
    violated,poc,← (item "justification" v).bind asStr⟩

theorem ofJson_toJson : ofJson out.toJson = some out := by
  have hpoc : nullable asStr ((out.exploitPoc.map str).getD .null) = some out.exploitPoc :=
    nullable_written asStr_str (by simp [str]) _
  have hviolated := mapM_written asStr_str out.violatedInvariants
  have hstatus : [.pass,.fail,.unavailable,.simulated,.uncertain].find?
      (fun st : AuditStatus => st.name = out.status.name) = some out.status := by
    cases out.status <;> rfl
  simp [ofJson,toJson,hpoc,asList,hviolated,hstatus]

theorem numerals_toJson : out.toJson.numerals = [] := by
  have hstr : ∀ s,(str s).numerals = [] := fun _ => rfl
  have hviolated : ∀ ss : List String,Json.numeralsItems (ss.map str) = [] := by
    intro ss
    induction ss with
    | nil => rfl
    | cons s ss ih => rw [List.map_cons,Json.numeralsItems,ih,hstr,List.append_nil]
  have hpoc : ((out.exploitPoc.map str).getD .null).numerals = [] := by
    cases out.exploitPoc with
    | none => rfl
    | some poc => exact hstr poc
  simp [toJson,dict,Json.numerals,Json.numeralsFields,hstr,hviolated,hpoc]

/-- The document of a verdict. -/
def document : List Char := Json.text 0 out.toJson

theorem loads_document : Json.loads out.document = some out.toJson := by
  apply Json.loads_text
  apply Json.numbers_of_numerals
  simp [numerals_toJson]

theorem braced_document : Braced out.document := by
  have hdict : ∃ f fs,out.toJson = .object (f::fs) := ⟨_,_,rfl⟩
  obtain ⟨f,fs,hdict⟩ := hdict
  rw [document,hdict,Json.text]
  refine ⟨?_,by simp only [List.getLast?_concat]⟩
  cases f with
  | mk key v => simp [Json.fieldsText]

end LogicAuditOutput

namespace Retry

variable {θ α : Type} [Mul θ] [Zero θ] [LinearOrder θ] (toFloat : String → Option (Seconds θ))
  (environ : String → Option (List Char)) (b : Backoff θ) {outcomes : Nat → Except PyExc α}

theorem retryWithBackoff_settled {k : Nat} (h : Settles toFloat outcomes k)
    (hk : k ≤ b.maxRetries) :
    (retryWithBackoff toFloat environ recordWait b (scripted outcomes) {}).1 = outcomes k ∧
      (retryWithBackoff toFloat environ recordWait b (scripted outcomes) {}).2.calls = k := by
  obtain ⟨es,hpassed,hends⟩ := attempts_run toFloat environ b (fun _ _ => .ok ()) outcomes
    b.maxRetries { delay := b.initialDelay } {}
  have hlate : es.length < k := by
    by_contra hearly
    obtain ⟨e,he,ht⟩ := hpassed.transientFailure h.1 (by omega)
    exact h.2.1 e he ht
  rw [retryWithBackoff,← answeredWait_ok]
  generalize attempts toFloat environ (answeredWait fun _ _ => .ok ()) b (scripted outcomes)
    b.maxRetries { delay := b.initialDelay } {} = run at hends ⊢
  cases hends with
  | exhausted hlen => omega
  | settled hlen hsettled =>
    rw [Nat.zero_add] at hsettled
    have hsettles : Settles toFloat outcomes (es.length+1) :=
      ⟨by omega,hsettled,fun i h₁ hi => hpassed.transientFailure h₁ (by omega)⟩
    obtain rfl := Settles.unique toFloat h hsettles
    simp
  | refused e refusal w hlen he ht hw hrefusal => cases hrefusal

/-- If every attempt fails in passing, all of them are made. -/
theorem retryWithBackoff_failed
    (h : ∀ i,1 ≤ i → i ≤ b.maxRetries → ∃ e,outcomes i = .error e ∧ TransientFailure toFloat e) :
    (∃ message code text,
      (retryWithBackoff toFloat environ recordWait b (scripted outcomes) {}).1 =
        .error (.networkTransport message code text)) ∧
      (retryWithBackoff toFloat environ recordWait b (scripted outcomes) {}).2.calls =
        b.maxRetries := by
  obtain ⟨es,_,hends⟩ := attempts_run toFloat environ b (fun _ _ => .ok ()) outcomes
    b.maxRetries { delay := b.initialDelay } {}
  rw [retryWithBackoff,← answeredWait_ok]
  generalize attempts toFloat environ (answeredWait fun _ _ => .ok ()) b (scripted outcomes)
    b.maxRetries { delay := b.initialDelay } {} = run at hends ⊢
  cases hends with
  | exhausted hlen =>
    refine ⟨⟨_,_,_,rfl⟩,?_⟩
    simpa using hlen
  | settled hlen hsettled =>
    rw [Nat.zero_add] at hsettled
    obtain ⟨e,he,ht⟩ := h (es.length+1) (by omega) (by omega)
    exact absurd ht (hsettled e he)
  | refused e refusal w hlen he ht hw hrefusal => cases hrefusal

/-- What a run returns is what one of its attempts returned. -/
theorem retryWithBackoff_ok {x : α}
    (h : (retryWithBackoff toFloat environ recordWait b (scripted outcomes) {}).1 = .ok x) :
    ∃ k,outcomes k = .ok x := by
  obtain ⟨es,_,hends⟩ := attempts_run toFloat environ b (fun _ _ => .ok ()) outcomes
    b.maxRetries { delay := b.initialDelay } {}
  rw [retryWithBackoff,← answeredWait_ok] at h
  generalize attempts toFloat environ (answeredWait fun _ _ => .ok ()) b (scripted outcomes)
    b.maxRetries { delay := b.initialDelay } {} = run at hends h
  cases hends with
  | exhausted hlen => cases h
  | settled hlen hsettled => exact ⟨_,h⟩
  | refused e refusal w hlen he ht hw hrefusal => cases h

end Retry

namespace Adapter

variable {θ : Type} [Field θ] [LinearOrder θ] (toFloat : String → Option (Retry.Seconds θ))
  (environ : String → Option (List Char)) (lib : Libraries)
  (net : Request → Nat → Except PyExc Response) (a : Adapter) (specContent codeDiff : String)

/-- A call of a client where `net` answers each attempt. -/
def audit : Except PyExc LogicAuditOutput × Retry.Attempted θ :=
  a.auditLogicAndSecurity toFloat environ Retry.recordWait lib
    (fun req => Retry.scripted (net req)) specContent codeDiff {}

/-- What an attempt comes to. -/
def auditOutcome (k : Nat) : Except PyExc LogicAuditOutput := do
  let req := a.auditRequest environ specContent codeDiff
  lib.answered a.kind req.url (← net req k)

theorem audit_simulated (h : a.isSimulation = true) :
    a.audit toFloat environ lib net specContent codeDiff = (.ok simulatedAudit,{}) := by
  rw [audit,auditLogicAndSecurity,if_pos h]
  rfl

theorem audit_live (h : a.isSimulation = false) :
    a.audit toFloat environ lib net specContent codeDiff =
      Retry.retryWithBackoff toFloat environ Retry.recordWait
        (adapterBackoff "audit_logic_and_security")
        (Retry.scripted (a.auditOutcome environ lib net specContent codeDiff)) {} := by
  have hask : (AdapterKind.ask lib (fun req => Retry.scripted (net req)) a.kind
      (a.auditRequest environ specContent codeDiff) : Eff (Retry.Attempted θ) PyExc _) =
      Retry.scripted (a.auditOutcome environ lib net specContent codeDiff) := by
    funext r
    rw [AdapterKind.ask,Eff.bind_apply,Retry.scripted,Retry.scripted,auditOutcome]
    cases net (a.auditRequest environ specContent codeDiff) (r.calls+1) with
    | error e => rfl
    | ok resp => rfl
  rw [audit,auditLogicAndSecurity,if_neg (by simp [h]),hask]

end Adapter

section replies

/-- The statuses that `raise_for_status` raises an exception for. -/
def Response.IsError (resp : Response) : Prop := 400 ≤ resp.statusCode ∧ resp.statusCode < 600

/-- An exception of none of the classes that the retries know. -/
def PyExc.Foreign (e : PyExc) : Prop := ∃ typeName message,e = .other typeName message

/-- What is documented of the libraries: what they raise, and that the document of a verdict is
read back. -/
structure Libraries.Documented (lib : Libraries) : Prop where
  raises : ∀ resp url,resp.IsError →
    ∃ message,lib.raiseForStatus resp url = .error (.http message (some resp))
  passes : ∀ resp url,¬resp.IsError → lib.raiseForStatus resp url = .ok ()
  json_raises : ∀ resp e,lib.json resp = .error e → e.Foreign
  loads_raises : ∀ text e,lib.loads text = .error e → e.Foreign
  output_raises : ∀ v e,lib.logicAuditOutput v = .error e → e.Foreign
  loads_document : ∀ out : LogicAuditOutput,lib.loads out.document = .ok out.toJson
  output_fields : ∀ out : LogicAuditOutput,lib.logicAuditOutput out.toJson = .ok out

/-- The answers of `requests.post` after which a request is made again. -/
def Again {θ : Type} (toFloat : String → Option (Retry.Seconds θ))
    (answer : Except PyExc Response) : Prop :=
  (∃ e,answer = .error e ∧ Retry.TransientFailure toFloat e) ∨
    ∃ resp,answer = .ok resp ∧ resp.statusCode ∈ [429,502,503,504]

/-- What a client makes of an answer that decides. -/
inductive Decides (lib : Libraries) (kind : AdapterKind) :
    Except PyExc Response → Except PyExc LogicAuditOutput → Prop
  | failed (e : PyExc) : Decides lib kind (.error e) (.error e)
  | refused (resp : Response) (message : String) (h : resp.IsError) :
      Decides lib kind (.ok resp) (.error (.http message (some resp)))
  | noJson (resp : Response) (e : PyExc) (h : ¬resp.IsError) (hjson : lib.json resp = .error e) :
      Decides lib kind (.ok resp) (.error e)
  | noText (resp : Response) (data : Json) (typeName message : String) (h : ¬resp.IsError)
      (hjson : lib.json resp = .ok data) (htext : kind.contentOf data = none) :
      Decides lib kind (.ok resp) (.error (.other typeName message))
  | replied (resp : Response) (data : Json) (reply : List Char) (h : ¬resp.IsError)
      (hjson : lib.json resp = .ok data) (htext : kind.contentOf data = some reply) :
      Decides lib kind (.ok resp) (lib.decodeReply reply)

variable {lib : Libraries} {kind : AdapterKind} {url : String} {resp : Response}
  {reply doc : List Char} {out : LogicAuditOutput}

theorem decodeReply_fenced (hdoc : Braced doc) (hfenced : Fenced doc reply) :
    lib.decodeReply reply = lib.loads doc >>= lib.logicAuditOutput := by
  rw [Libraries.decodeReply,cleanJsonText_fenced hdoc hfenced]

theorem decodeReply_document (h : lib.Documented) (hfenced : Fenced out.document reply) :
    lib.decodeReply reply = .ok out := by
  rw [decodeReply_fenced out.braced_document hfenced,h.loads_document]
  exact h.output_fields out

theorem answered_error (kind : AdapterKind) (url : String) (h : lib.Documented)
    (hstatus : resp.IsError) :
    ∃ message,lib.answered kind url resp = .error (.http message (some resp)) := by
  obtain ⟨message,hraise⟩ := h.raises resp url hstatus
  refine ⟨message,?_⟩
  rw [Libraries.answered,hraise]
  rfl

theorem answered_passed (h : lib.Documented) (hstatus : ¬resp.IsError) :
    lib.answered kind url resp = lib.replyOf kind resp >>= lib.decodeReply := by
  rw [Libraries.answered,h.passes resp url hstatus]
  rfl

theorem replyOf_json {data : Json} (h : lib.json resp = .ok data) :
    lib.replyOf kind resp = (kind.contentOf data).elim
      (.error (.other (lib.noText data).1 (lib.noText data).2)) .ok := by
  rw [Libraries.replyOf,h]
  rfl

theorem decodeReply_foreign (h : lib.Documented) {e : PyExc}
    (he : lib.decodeReply reply = .error e) : e.Foreign := by
  rw [Libraries.decodeReply] at he
  cases hloads : lib.loads (cleanJsonText reply) with
  | error e' =>
    rw [hloads] at he
    obtain rfl := Except.error.inj he
    exact h.loads_raises _ _ hloads
  | ok parsed =>
    rw [hloads] at he
    exact h.output_raises parsed e he

/-- What was understood stood in the reply of a response that reports no error. -/
theorem answered_ok (h : lib.answered kind url resp = .ok out) :
    lib.raiseForStatus resp url = .ok () ∧
      ∃ reply,lib.replyOf kind resp = .ok reply ∧ lib.decodeReply reply = .ok out := by
  rw [Libraries.answered] at h
  cases hraise : lib.raiseForStatus resp url with
  | error e =>
    rw [hraise] at h
    cases h
  | ok passed =>
    rw [hraise] at h
    cases hreply : lib.replyOf kind resp with
    | error e =>
      rw [hreply] at h
      cases h
    | ok reply =>
      rw [hreply] at h
      exact ⟨rfl,reply,rfl,h⟩

/-- A response that reports no error decides, and nothing it leads to is taken for a failure in
passing. -/
theorem answered_decides (h : lib.Documented) (hstatus : ¬resp.IsError) :
    Decides lib kind (.ok resp) (lib.answered kind url resp) ∧
      ∀ e,lib.answered kind url resp = .error e → e.Foreign := by
  rw [answered_passed h hstatus]
  cases hjson : lib.json resp with
  | error e =>
    have hreply : lib.replyOf kind resp = .error e := by
      rw [Libraries.replyOf,hjson]
      rfl
    rw [hreply]
    refine ⟨.noJson resp e hstatus hjson,fun e' he' => ?_⟩
    obtain rfl := Except.error.inj he'
    exact h.json_raises resp _ hjson
  | ok data =>
    rw [replyOf_json hjson]
    cases htext : kind.contentOf data with
    | none =>
      refine ⟨.noText resp data _ _ hstatus hjson htext,fun e he => ?_⟩
      exact ⟨_,_,(Except.error.inj he).symm⟩
    | some reply =>
      exact ⟨.replied resp data reply hstatus hjson htext,fun e he => decodeReply_foreign h he⟩

variable {θ : Type} {toFloat : String → Option (Retry.Seconds θ)}

theorem not_transient_foreign {e : PyExc} (h : e.Foreign) :
    ¬Retry.TransientFailure toFloat e := by
  obtain ⟨typeName,message,rfl⟩ := h
  exact Bool.false_ne_true

theorem transient_http (toFloat : String → Option (Retry.Seconds θ)) (message : String) :
    Retry.TransientFailure toFloat (.http message (some resp)) ↔
      resp.statusCode ∈ [429,502,503,504] := by
  rw [Retry.TransientFailure,isTransientNetworkError]
  dsimp only
  split_ifs with h
  · simp [h]
  · simp [h]

/-- An attempt comes to a failure in passing exactly after an answer to ask again for. -/
theorem transient_iff_again (h : lib.Documented) (answer : Except PyExc Response) :
    (∃ e,(answer >>= lib.answered kind url) = .error e ∧ Retry.TransientFailure toFloat e) ↔
      Again toFloat answer := by
  cases answer with
  | error e =>
    constructor
    · intro hfailed
      obtain ⟨e',he,ht⟩ := hfailed
      obtain rfl := Except.error.inj he
      exact .inl ⟨e,rfl,ht⟩
    · intro hagain
      rcases hagain with ⟨e',he,ht⟩ | ⟨resp,hresp,_⟩
      · obtain rfl := Except.error.inj he
        exact ⟨e,rfl,ht⟩
      · cases hresp
  | ok resp =>
    have hagain : Again toFloat (.ok resp) ↔ resp.statusCode ∈ [429,502,503,504] := by
      simp [Again]
    rw [hagain]
    change (∃ e,lib.answered kind url resp = .error e ∧ Retry.TransientFailure toFloat e) ↔ _
    by_cases hstatus : resp.IsError
    · obtain ⟨message,hraise⟩ := answered_error kind url h hstatus
      rw [hraise,← transient_http toFloat message]
      simp
    · constructor
      · intro hfailed
        obtain ⟨e,he,ht⟩ := hfailed
        exact absurd ht (not_transient_foreign ((answered_decides h hstatus).2 e he))
      · intro hmem
        rw [Response.IsError] at hstatus
        simp only [List.mem_cons,List.not_mem_nil,or_false] at hmem
        omega

/-- An answer that is not asked again for decides. -/
theorem decides_of_not_again (h : lib.Documented) (answer : Except PyExc Response) :
    Decides lib kind answer (answer >>= lib.answered kind url) := by
  cases answer with
  | error e => exact .failed e
  | ok resp =>
    change Decides lib kind (.ok resp) (lib.answered kind url resp)
    by_cases hstatus : resp.IsError
    · obtain ⟨message,hraise⟩ := answered_error kind url h hstatus
      rw [hraise]
      exact .refused resp message hstatus
    · exact (answered_decides h hstatus).1

theorem Decides.of_reply {data : Json} {r : Except PyExc LogicAuditOutput}
    (h : Decides lib kind (.ok resp) r) (hstatus : ¬resp.IsError) (hjson : lib.json resp = .ok data)
    (htext : kind.contentOf data = some reply) : r = lib.decodeReply reply := by
  cases h with
  | refused _ message herror => exact absurd herror hstatus
  | noJson _ e _ h =>
    rw [hjson] at h
    cases h
  | noText _ data' typeName message _ h hnone =>
    rw [hjson] at h
    obtain rfl := Except.ok.inj h
    rw [htext] at hnone
    cases hnone
  | replied _ data' reply' _ h hsome =>
    rw [hjson] at h
    obtain rfl := Except.ok.inj h
    rw [htext] at hsome
    rw [Option.some.inj hsome]

end replies

namespace Adapter

variable {θ : Type} [Field θ] [LinearOrder θ] {toFloat : String → Option (Retry.Seconds θ)}
  {environ : String → Option (List Char)} {lib : Libraries}
  {net : Request → Nat → Except PyExc Response} {a : Adapter} {specContent codeDiff : String}

/-- Of a live client's call the first of three answers that is not asked again for decides, be it
understood or not; after three others the transport error is raised. A document between braces,
in a fence or not, is exactly what is decoded of a reply, and that of a verdict is read back. -/
theorem audit_replied (hlib : lib.Documented) (hlive : a.isSimulation = false) :
    let answer := net (a.auditRequest environ specContent codeDiff)
    let run := a.audit toFloat environ lib net specContent codeDiff
    (∀ k,1 ≤ k → k ≤ 3 → (∀ i,1 ≤ i → i < k → Again toFloat (answer i)) →
      ¬Again toFloat (answer k) → run.2.calls = k ∧ Decides lib a.kind (answer k) run.1) ∧
    ((∀ i,1 ≤ i → i ≤ 3 → Again toFloat (answer i)) → run.2.calls = 3 ∧
      ∃ message code text,run.1 = .error (.networkTransport message code text)) ∧
    (∀ doc reply,Braced doc → Fenced doc reply →
      lib.decodeReply reply = lib.loads doc >>= lib.logicAuditOutput) ∧
    ∀ (out : LogicAuditOutput) reply,Fenced out.document reply →
      lib.decodeReply reply = .ok out := by
  intro answer run
  have hrun : run = _ := audit_live toFloat environ lib net a specContent codeDiff hlive
  have houtcome (i : Nat) : a.auditOutcome environ lib net specContent codeDiff i =
      answer i >>= lib.answered a.kind (a.auditRequest environ specContent codeDiff).url := rfl
  have hagain (i : Nat) : (∃ e,a.auditOutcome environ lib net specContent codeDiff i = .error e ∧
      Retry.TransientFailure toFloat e) ↔ Again toFloat (answer i) := by
    rw [houtcome]
    exact transient_iff_again hlib (answer i)
  refine ⟨?_,?_,fun _ _ => decodeReply_fenced,fun _ _ => decodeReply_document hlib⟩
  · intro k h₁ hk hbefore hdecides
    have hsettles : Retry.Settles toFloat (a.auditOutcome environ lib net specContent codeDiff) k :=
      ⟨h₁,fun e he ht => hdecides ((hagain k).mp ⟨e,he,ht⟩),
        fun i hi hlt => (hagain i).mpr (hbefore i hi hlt)⟩
    obtain ⟨hresult,hcalls⟩ := Retry.retryWithBackoff_settled toFloat environ
      (adapterBackoff "audit_logic_and_security") hsettles hk
    rw [← hrun] at hresult hcalls
    rw [hresult,houtcome]
    exact ⟨hcalls,decides_of_not_again hlib (answer k)⟩
  · intro hall
    obtain ⟨hresult,hcalls⟩ := Retry.retryWithBackoff_failed toFloat environ
      (adapterBackoff "audit_logic_and_security")
      (fun i h₁ hi => (hagain i).mpr (hall i h₁ hi))
    rw [← hrun] at hresult hcalls
    exact ⟨hcalls,hresult⟩

end Adapter

section sample

/-- Libraries that read what the model writes. -/
def plainLibraries : Libraries where
  raiseForStatus resp url :=
    let kind := if resp.statusCode < 500 then "Client" else "Server"
    let reason := resp.reason.getD "None"
    if 400 ≤ resp.statusCode ∧ resp.statusCode < 600 then
      .error (.http s!"{resp.statusCode} {kind} Error: {reason} for url: {url}" (some resp))
    else .ok ()
  json resp := (Json.loadsStrict resp.text.toList).elim (.error (.other "JSONDecodeError" "")) .ok
  loads text := (Json.loads text).elim (.error (.other "JSONDecodeError" "")) .ok
  logicAuditOutput v := (LogicAuditOutput.ofJson v).elim (.error (.other "ValidationError" "")) .ok
  noText _ := ("KeyError","")

theorem foreign_elim {α : Type} {v : Option α} {typeName message : String} {e : PyExc}
    (h : v.elim (.error (.other typeName message)) .ok = (.error e : Except PyExc α)) :
    e.Foreign := by
  cases v with
  | some a => cases h
  | none => exact ⟨_,_,(Except.error.inj h).symm⟩

theorem plainLibraries_documented : plainLibraries.Documented where
  raises resp url h := ⟨_,if_pos h⟩
  passes resp url h := if_neg h
  json_raises _ _ := foreign_elim
  loads_raises _ _ := foreign_elim
  output_raises _ _ := foreign_elim
  loads_document out := by
    change (Json.loads out.document).elim _ _ = _
    rw [out.loads_document]
    rfl
  output_fields out := by
    change (LogicAuditOutput.ofJson out.toJson).elim _ _ = _
    rw [out.ofJson_toJson]
    rfl

/-- The body of a provider's answer around a reply. -/
def AdapterKind.envelope (kind : AdapterKind) (reply : List Char) : Json :=
  if kind = .gemini then
    dict [("candidates",.array [dict [("content",
      dict [("parts",.array [dict [("text",.string reply)]])])]])]
  else dict [("choices",.array [dict [("message",dict [("content",.string reply)])]])]

theorem contentOf_envelope (kind : AdapterKind) (reply : List Char) :
    kind.contentOf (kind.envelope reply) = some reply := by
  cases kind <;> simp [AdapterKind.envelope,AdapterKind.contentOf,asList]

theorem json_envelope (kind : AdapterKind) (reply : List Char) {resp : Response}
    (hresp : resp.text = String.ofList (Json.text 0 (kind.envelope reply))) :
    plainLibraries.json resp = .ok (kind.envelope reply) := by
  have hnumerals : (kind.envelope reply).numerals = [] := by
    rw [AdapterKind.envelope]
    split_ifs <;> rfl
  have hloads : Json.loadsStrict (Json.text 0 (kind.envelope reply)) =
      some (kind.envelope reply) := by
    apply Json.loadsStrict_dumps
    · rw [Json.Integral,hnumerals]
      simp
    · rw [Json.dumps,hnumerals]
      simp
  change (Json.loadsStrict resp.text.toList).elim _ _ = _
  rw [hresp,String.toList_ofList,hloads]
  rfl

/-- A verdict in a fence, after a timeout and a rate limit. -/
theorem audit_replied_retried :
    let a : Adapter := ⟨.deepseek,"deepseek-chat",false⟩
    let out : LogicAuditOutput := ⟨.fail,["SEC-01"],some "' OR '1'='1","The query is \"built\"."⟩
    let reply := jsonTicks++['\n']++out.document++['\n']++ticks
    let resp : Response := ⟨200,some "OK",none,
      String.ofList (Json.text 0 (AdapterKind.deepseek.envelope reply))⟩
    let net : Request → Nat → Except PyExc Response := fun _ k =>
      if k = 1 then .error (.timeout "") else if k = 2 then .ok ⟨429,none,none,""⟩ else .ok resp
    let toFloat : String → Option (Retry.Seconds ℚ) := fun _ => none
    (a.audit toFloat (fun _ => some ['k']) plainLibraries net "" "").2.calls = 3 ∧
      (a.audit toFloat (fun _ => some ['k']) plainLibraries net "" "").1 = .ok out := by
  intro a out reply resp net toFloat
  have hfenced : Fenced out.document reply := by
    have hreply : reply = []++jsonTicks++['\n']++out.document++['\n']++ticks++[] := by
      rw [List.nil_append,List.append_nil]
    rw [hreply]
    have hblank : ∀ c ∈ [] ++ ['\n'] ++ ['\n'] ++ [],PyText.isSpace c = true := by
      intro c hc
      have hnewline : c = '\n' := by simpa using hc
      rw [hnewline]
      rfl
    exact .wrap [] jsonTicks ['\n'] ['\n'] ticks [] (.inr (.inr rfl)) (.inr rfl) hblank
  obtain ⟨hfirst,_,_,hread⟩ := @Adapter.audit_replied ℚ _ _ toFloat (fun _ => some ['k'])
    plainLibraries net a "" "" plainLibraries_documented rfl
  have hbefore : ∀ i,1 ≤ i → i < 3 →
      Again toFloat (net (a.auditRequest (fun _ => some ['k']) "" "") i) := by
    intro i h₁ hi
    obtain rfl | rfl : i = 1 ∨ i = 2 := by omega
    · exact .inl ⟨.timeout "",rfl,rfl⟩
    · exact .inr ⟨⟨429,none,none,""⟩,rfl,List.mem_cons_self⟩
  have hstatus : resp.statusCode = 200 := rfl
  have hlast : ¬Again toFloat (.ok resp) := by
    generalize resp = resp at hstatus
    simp [Again,hstatus]
  have hanswer : net (a.auditRequest (fun _ => some ['k']) "" "") 3 = .ok resp := rfl
  rw [← hanswer] at hlast
  obtain ⟨hcalls,hdecides⟩ := hfirst 3 (by decide) (by decide) hbefore hlast
  rw [hanswer] at hdecides
  generalize a.audit toFloat (fun _ => some ['k']) plainLibraries net "" "" = run
    at hcalls hdecides ⊢
  refine ⟨hcalls,?_⟩
  have herror : ¬resp.IsError := by
    rw [Response.IsError,hstatus]
    decide
  have hreplied := Decides.of_reply hdecides herror (json_envelope .deepseek reply rfl)
    (contentOf_envelope .deepseek reply)
  exact hreplied.trans (hread out reply hfenced)

end sample

end SoftwareFactory
