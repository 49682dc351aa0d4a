import SoftwareFactory.Lib.JsonPrefix
import SoftwareFactory.Lib.PyDict
import SoftwareFactory.Lib.TextFile
import SoftwareFactory.Orchestrator.State

namespace SoftwareFactory

open PyDict

def ExecutionStatus.ofName (s : String) : Option ExecutionStatus :=
  [.running,.interrupted,.completed,.failed,.needsHumanReview].find? fun st => st.name = s

def Budgets.toJson (b : Budgets) : Json :=
  dict [("logic_replans_used",int b.logicReplansUsed),
    ("max_logic_replans",int b.maxLogicReplans),
    ("security_replans_used",int b.securityReplansUsed),
    ("max_security_replans",int b.maxSecurityReplans),
    ("spec_syntax_retries_used",int b.specSyntaxRetriesUsed),
    ("max_spec_syntax_retries",int b.maxSpecSyntaxRetries),
    ("worker_attempts_in_epoch",int b.workerAttemptsInEpoch),
    ("max_worker_per_epoch",int b.maxWorkerPerEpoch),
    ("total_cumulative_worker_runs",int b.totalCumulativeWorkerRuns),
    ("max_cumulative_worker_runs",int b.maxCumulativeWorkerRuns)]

def Budgets.ofJson (v : Json) : Option Budgets := do
  return ⟨← (item "logic_replans_used" v).bind asNat,← (item "max_logic_replans" v).bind asInt,
    ← (item "security_replans_used" v).bind asNat,← (item "max_security_replans" v).bind asInt,
    ← (item "spec_syntax_retries_used" v).bind asNat,
    ← (item "max_spec_syntax_retries" v).bind asInt,
    ← (item "worker_attempts_in_epoch" v).bind asNat,
    ← (item "max_worker_per_epoch" v).bind asInt,
    ← (item "total_cumulative_worker_runs" v).bind asNat,
    ← (item "max_cumulative_worker_runs" v).bind asInt⟩

def AuditModel.toJson (m : AuditModel) : Json :=
  dict [("provider",str m.provider),("model",str m.model)]

def AuditModel.ofJson (v : Json) : Option AuditModel := do
  return ⟨← (item "provider" v).bind asStr,← (item "model" v).bind asStr⟩

def HistoryEntry.toJson (e : HistoryEntry) : Json :=
  dict [("timestamp",str e.timestamp),("from",str e.fromState.name),("to",str e.toState.name),
    ("details",str e.details),("epoch",int e.epoch)]

def HistoryEntry.ofJson (v : Json) : Option HistoryEntry := do
  return ⟨← (item "timestamp" v).bind asStr,
    ← ((item "from" v).bind asStr).bind FsmState.ofName,
    ← ((item "to" v).bind asStr).bind FsmState.ofName,← (item "details" v).bind asStr,
    ← (item "epoch" v).bind asNat⟩

def BlockedReason.toJson (b : BlockedReason) : Json :=
  dict [("gate",str b.gate),("reason",str b.reason),("timestamp",str b.timestamp)]

def BlockedReason.ofJson (v : Json) : Option BlockedReason := do
  return ⟨← (item "gate" v).bind asStr,← (item "reason" v).bind asStr,
    ← (item "timestamp" v).bind asStr⟩

namespace StateData

/-- The dictionary `self.data`; `blocked_reason` is no key before the first suspension. -/
def toJson (d : StateData) : Json :=
  dict ([("task_id",str d.taskId),("epoch",int d.epoch),
    ("current_state",str d.currentState.name),
    ("execution_status",str d.executionStatus.name),
    ("budgets",d.budgets.toJson),
    ("audit_model_used",(d.auditModelUsed.map AuditModel.toJson).getD .null),
    ("history",.array (d.history.map HistoryEntry.toJson))]++
    (d.blockedReason.map fun b => ("blocked_reason",b.toJson)).toList)

def ofJson (v : Json) : Option StateData := do
  let blocked ← match item "blocked_reason" v with
    | some b => (BlockedReason.ofJson b).map some
    | none => some none
  return ⟨← (item "task_id" v).bind asStr,← (item "epoch" v).bind asNat,
    ← ((item "current_state" v).bind asStr).bind FsmState.ofName,
    ← ((item "execution_status" v).bind asStr).bind ExecutionStatus.ofName,
    ← (item "budgets" v).bind Budgets.ofJson,
    ← (item "audit_model_used" v).bind (nullable AuditModel.ofJson),
    ← ((item "history" v).bind asList).bind (List.mapM HistoryEntry.ofJson),blocked⟩

/-- The bytes `save` leaves in the state file; `none` if it raises before it opens the file. -/
def bytes (d : StateData) : Option (List UInt8) := (Json.dumps d.toJson).map writeText

end StateData

/-- `json.loads(self.state_file.read_text(encoding="utf-8"))`; `none` if it raises. -/
def parseFile (file : List UInt8) : Option Json := (readText file).bind Json.loadsStrict

/-- The state a file holds. -/
def readState (file : List UInt8) : Option StateData := (parseFile file).bind StateData.ofJson

@[simp] theorem FsmState.ofName_name (st : FsmState) : FsmState.ofName st.name = some st := by
  cases st <;> rfl

@[simp] theorem ExecutionStatus.ofName_name (st : ExecutionStatus) :
    ExecutionStatus.ofName st.name = some st := by
  cases st <;> rfl

@[simp] theorem Budgets.ofJson_toJson (b : Budgets) : Budgets.ofJson b.toJson = some b := by
  simp [Budgets.ofJson,Budgets.toJson]

@[simp] theorem AuditModel.ofJson_toJson (m : AuditModel) :
    AuditModel.ofJson m.toJson = some m := by
  simp [AuditModel.ofJson,AuditModel.toJson]

@[simp] theorem HistoryEntry.ofJson_toJson (e : HistoryEntry) :
    HistoryEntry.ofJson e.toJson = some e := by
  simp [HistoryEntry.ofJson,HistoryEntry.toJson]

@[simp] theorem BlockedReason.ofJson_toJson (b : BlockedReason) :
    BlockedReason.ofJson b.toJson = some b := by
  simp [BlockedReason.ofJson,BlockedReason.toJson]

theorem nullable_audit (m : Option AuditModel) :
    nullable AuditModel.ofJson ((m.map AuditModel.toJson).getD .null) = some m := by
  apply nullable_written AuditModel.ofJson_toJson
  simp [AuditModel.toJson,dict]

theorem history_toJson (h : List HistoryEntry) :
    h.mapM (HistoryEntry.ofJson ∘ HistoryEntry.toJson) = some h := by
  have hwritten := mapM_written HistoryEntry.ofJson_toJson h
  rwa [List.mapM_map] at hwritten

theorem StateData.ofJson_toJson (d : StateData) : StateData.ofJson d.toJson = some d := by
  cases hb : d.blockedReason with
  | none =>
    simp [StateData.ofJson,StateData.toJson,hb,nullable_audit,asList,history_toJson]
    rw [← hb]
  | some b =>
    simp [StateData.ofJson,StateData.toJson,hb,nullable_audit,asList,history_toJson]
    rw [← hb]

theorem StateData.integral (d : StateData) : d.toJson.Integral := by
  have hbudgets : d.budgets.toJson.Integral := by
    apply integral_dict
    simp [integral_int]
  have haudit : ((d.auditModelUsed.map AuditModel.toJson).getD .null).Integral := by
    cases d.auditModelUsed with
    | none => exact integral_null
    | some m =>
      apply integral_dict
      simp [integral_str]
  have hhistory : (Json.array (d.history.map HistoryEntry.toJson)).Integral := by
    apply integral_array
    intro v hv
    obtain ⟨e,_,rfl⟩ := List.mem_map.mp hv
    apply integral_dict
    simp [integral_str,integral_int]
  have hblocked : ∀ b : BlockedReason,b.toJson.Integral := by
    intro b
    apply integral_dict
    simp [integral_str]
  apply integral_dict
  intro f hf
  simp only [List.cons_append,List.nil_append,List.mem_cons,Option.mem_toList,
    Option.map_eq_some_iff] at hf
  rcases hf with rfl | rfl | rfl | rfl | rfl | rfl | rfl | ⟨b,_,rfl⟩
  · exact integral_str _
  · exact integral_int _
  · exact integral_str _
  · exact integral_str _
  · exact hbudgets
  · exact haudit
  · exact hhistory
  · exact hblocked b

namespace StateData

variable {d : StateData} {bs : List UInt8}

theorem bytes_eq (h : d.bytes = some bs) : ∃ t,Json.dumps d.toJson = some t ∧ bs = writeText t := by
  obtain ⟨t,ht,hbs⟩ := Option.map_eq_some_iff.mp h
  exact ⟨t,ht,hbs.symm⟩

theorem readState_bytes (h : d.bytes = some bs) : readState bs = some d := by
  obtain ⟨t,ht,rfl⟩ := bytes_eq h
  rw [readState,parseFile,readText_writeText,Option.bind_some,
    Json.loadsStrict_dumps d.integral ht,Option.bind_some,ofJson_toJson]

/-- A save that was broken off leaves no document. -/
theorem parseFile_torn (h : d.bytes = some bs) {n : Nat} (hn : n < bs.length) :
    parseFile (bs.take n) = none := by
  obtain ⟨t,ht,rfl⟩ := bytes_eq h
  have hascii := Json.dumps_ascii d.integral ht
  rw [length_writeText hascii] at hn
  have hrest : t.drop n ≠ [] := by simpa using hn
  rw [parseFile,take_writeText hascii,readText_writeText,Option.bind_some]
  exact Json.dumps_torn d.integral ht (List.take_append_drop n t) hrest

/-- The state file is read back as it was saved or, if any of it is missing, not at all. -/
theorem readState_take (h : d.bytes = some bs) (n : Nat) :
    readState (bs.take n) = if n < bs.length then none else some d := by
  split_ifs with hn
  · rw [readState,parseFile_torn h hn,Option.bind_none]
  · rw [List.take_of_length_le (by omega),readState_bytes h]

theorem readState_take_halted :
    let d := (initState "TASK-001" defaultConfig).transitioned .haltHuman
      "Fast-Forward merge failed: \"dév\" moved\n" "2026-01-01T00:00:00+00:00"
    let bs := writeText (Json.text 0 d.toJson)
    ∀ n,readState (bs.take n) = if n < bs.length then none else some d := by
  intro d bs
  have hfits : d.toJson.numerals.all Json.fits = true := by decide
  exact readState_take (by rw [StateData.bytes,Json.dumps,if_pos hfits]; rfl)

theorem bytes_ne_nil (h : d.bytes = some bs) : bs ≠ [] := by
  intro hnil
  have hread := readState_bytes h
  rw [hnil] at hread
  have hnone : readState [] = none := rfl
  rw [hnone] at hread
  exact absurd hread (by simp)

end StateData

end SoftwareFactory
