import SoftwareFactory.Adapters.NetworkRetry
import SoftwareFactory.Protocol.RecordRules

namespace SoftwareFactory

open Process Sanitizer Retry

variable {τ : Type}

/-- The text does not show the secret. -/
def Hides (v : List Char) (s : String) : Prop := ¬ v <:+: s.toList

/-- The texts of a state that callers supply. The provider of the auditor is turned to lower
case after it is sanitized. -/
structure StateHides (v : List Char) (d : StateData) : Prop where
  details : ∀ e ∈ d.history,Hides v e.details
  reason : ∀ b ∈ d.blockedReason,Hides v b.reason
  model : ∀ m ∈ d.auditModelUsed,Hides v m.model
  provider : ∀ m ∈ d.auditModelUsed,(∃ c ∈ v,c.isUpper = true) → Hides v m.provider

/-- A report of a reason that does not show the secret. -/
def ReportHides (v : List Char) (content : String) : Prop :=
  ∃ (sm : StateManager) (date reason : String),Hides v reason ∧
    ((∃ d,content = sm.crashReport d date reason) ∨
      content = sm.humanReviewReport date "LOGIC_AUDIT" reason)

/-- The texts supplied for what a process has left in files show no secret. -/
structure RecordsHide (v : List Char) (t : List (Event τ)) : Prop where
  states : EverySaved (StateHides v) t
  reports : ∀ path content,.report path content ∈ t → ReportHides v content

/-- The secret is the value of one of the variables that hold API keys. -/
def Configured (environ : String → Option (List Char)) (v : List Char) : Prop :=
  ∃ envName ∈ secretEnvKeys,∃ val,environ envName = some val ∧ cleaned val = v

section text

variable {v : List Char} {s : String}

theorem Hides.part (h : Hides v s) {s' : String} (hs : s'.toList <:+: s.toList) : Hides v s' :=
  fun hv => h (hv.trans hs)

theorem lowerChar_not_upper (c : Char) : (PyText.lowerChar c).isUpper = false := by
  unfold PyText.lowerChar
  split_ifs with hkelvin
  · decide
  · delta Char.toLower Char.isUpper
    split_ifs with hc
    · have hshift : ('a'.val - 'A'.val).toNat = 32 := by decide
      have hlow : 65 ≤ c.val.toNat := UInt32.le_iff_toNat_le.mp hc.1
      have hhigh : c.val.toNat ≤ 90 := UInt32.le_iff_toNat_le.mp hc.2
      have hval : (c.val+('a'.val - 'A'.val)).toNat = c.val.toNat+32 := by
        rw [UInt32.toNat_add,hshift]
        omega
      have hlarge : ¬c.val+('a'.val - 'A'.val) ≤ 'Z'.val := by
        intro hle
        have hnat : (c.val+('a'.val - 'A'.val)).toNat ≤ 90 := UInt32.le_iff_toNat_le.mp hle
        omega
      exact decide_eq_false fun h => hlarge h.2
    · exact decide_eq_false hc

/-- Nothing in lower case shows a secret that is not. -/
theorem hides_lower (hv : ∃ c ∈ v,c.isUpper = true) (s : String) : Hides v (PyText.lower s) := by
  intro h
  obtain ⟨c,hc,hupper⟩ := hv
  have hmem := h.subset hc
  rw [PyText.lower,String.toList_ofList] at hmem
  obtain ⟨d,_,rfl⟩ := List.mem_map.mp hmem
  rw [lowerChar_not_upper] at hupper
  cases hupper

end text

section records

variable {v : List Char} {w : TaskWorld τ} {d : StateData} {e : Event τ}

theorem StateHides.init (taskId : String) (config : Config) :
    StateHides v (initState taskId config) where
  details := by simp [initState]
  reason := by simp [initState]
  model := by simp [initState]
  provider := by simp [initState]

/-- The texts in memory and in the files show no secret. -/
def WorldHides (v : List Char) (w : TaskWorld τ) : Prop :=
  StateHides v w.mem.data ∧ RecordsHide v w.trace

theorem mem_report {t : List (Event τ)} {path content : String}
    (h : .report path content ∈ t++[e]) : .report path content ∈ t ∨ e = .report path content := by
  rw [List.mem_append,List.mem_singleton] at h
  exact h.imp_right Eq.symm

theorem RecordsHide.save (h : RecordsHide v w.trace) (hd : StateHides v d) :
    WorldHides v (saved w d) := by
  refine ⟨hd,h.states.save hd,?_⟩
  intro path content hmem
  cases mem_report hmem with
  | inl hold => exact h.reports path content hold
  | inr hnew => cases hnew

theorem WorldHides.report (h : WorldHides v w) {path content : String}
    (hc : ReportHides v content) : WorldHides v (w.emit (.report path content)) := by
  refine ⟨h.1,h.2.states.other rfl,?_⟩
  intro path' content' hmem
  cases mem_report hmem with
  | inl hold => exact h.2.reports path' content' hold
  | inr hnew =>
    obtain ⟨_,rfl⟩ := Event.report.inj hnew
    exact hc

theorem WorldHides.event (h : WorldHides v w) (he : e.isRecord = false) :
    WorldHides v (w.emit e) := by
  refine ⟨h.1,h.2.states.other (isSave_of_isRecord he),?_⟩
  intro path content hmem
  cases mem_report hmem with
  | inl hold => exact h.2.reports path content hold
  | inr hnew =>
    rw [hnew] at he
    cases he

theorem StateHides.transitioned (h : StateHides v d) (st : FsmState) {s : String}
    (hs : Hides v s) (timestamp : String) : StateHides v (d.transitioned st s timestamp) where
  details := by
    intro entry hmem
    rw [StateData.transitioned,List.mem_append,List.mem_singleton] at hmem
    cases hmem with
    | inl hold => exact h.details entry hold
    | inr hnew =>
      subst hnew
      exact hs
  reason := h.reason
  model := h.model
  provider := h.provider

theorem StateHides.blocked (h : StateHides v d) {s : String} (hs : Hides v s)
    (timestamp : String) : StateHides v (d.blocked ⟨"LOGIC_AUDIT",s,timestamp⟩) where
  details := h.details
  reason := by
    intro b hb
    rw [← Option.some.inj hb]
    exact hs
  model := h.model
  provider := h.provider

theorem StateHides.auditedBy (h : StateHides v d) {provider model : String}
    (hm : Hides v model) :
    StateHides v (d.auditedBy ⟨PyText.lower provider,model⟩) where
  details := h.details
  reason := h.reason
  model := by
    intro m hmem
    rw [← Option.some.inj hmem]
    exact hm
  provider := by
    intro m hmem hv
    rw [← Option.some.inj hmem]
    exact hides_lower hv provider

end records

end SoftwareFactory
