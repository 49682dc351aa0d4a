import SoftwareFactory.Lib.Effect
import SoftwareFactory.Lib.Json
import SoftwareFactory.Scripts.Git
import SoftwareFactory.Scripts.SastRunner

namespace SoftwareFactory.SastRunner

open Effect

structure PyError where
  message : String
  deriving DecidableEq, Repr

/-- How `json.loads` fails: with a `JSONDecodeError` or with another exception. -/
inductive LoadsError where
  | decode
  | other (e : PyError)

structure Command where
  args : List String
  cwd : Option String
  deriving DecidableEq, Repr

/-- The machine: which tools are on the path, and what each command comes to. No command is run
twice. -/
structure Host where
  executable : String
  which : String → Bool
  run : Command → Except PyError CommandResult
  pathExists : String → Except PyError Bool
  loads : String → Except LoadsError Json

/-- The report that is written; a key the source leaves out is `none`. -/
structure Report where
  engine : String
  results : Option Json := none
  raw : Option Json := none
  error : Option String := none
  stderr : Option String := none
  stdout : Option String := none

abbrev Verdict : Type := SastExit × Report

/-- The name of the Python type of a value. -/
def pyType : Json → String
  | .null => "NoneType"
  | .bool _ => "bool"
  | .number text => if text.any fun c => c ∈ ['.','e','E','N','I'] then "float" else "int"
  | .string _ => "str"
  | .array _ => "list"
  | .object _ => "dict"

def noAttribute (v : Json) : PyError := ⟨"'"++pyType v++"' object has no attribute 'get'"⟩

/-- `len(v)` -/
def len : Json → Except PyError Nat
  | .array items => .ok items.length
  | .object fields => .ok (fields.map Prod.fst).dedup.length
  | .string s => .ok s.length
  | v => .error ⟨"object of type '"++pyType v++"' has no len()"⟩

/-- The values a `for` loop goes over. -/
def iterate : Json → Except PyError (List Json)
  | .array items => .ok items
  | .object fields => .ok ((fields.map Prod.fst).reverse.dedup.reverse.map .string)
  | .string s => .ok (s.map fun c => .string [c])
  | v => .error ⟨"'"++pyType v++"' object is not iterable"⟩

def resultsOf (fields : List (List Char × Json)) : Json :=
  (Json.get fields "results".toList).getD (.array [])

/-- `data.get("results", [])` -/
def getResults : Json → Except PyError Json
  | .object fields => .ok (resultsOf fields)
  | v => .error (noAttribute v)

def isCritical : Json → Bool
  | .object fields =>
    match Json.get fields "issue_severity".toList with
    | some (.string s) => s ∈ ["HIGH".toList,"MEDIUM".toList]
    | _ => false
  | _ => false

/-- The results of high or medium severity; each has to be an object. -/
def criticalResults : List Json → Except PyError (List Json)
  | [] => .ok []
  | .object fields::rs => do
    let rest ← criticalResults rs
    return if isCritical (.object fields) then .object fields::rest else rest
  | r::_ => .error (noAttribute r)

section run

variable (host : Host)

def invoke (command : Command) : Eff (List Command) PyError CommandResult := fun runs =>
  (host.run command,runs++[command])

def ofExcept {α : Type} (x : Except PyError α) : Eff (List Command) PyError α := fun runs =>
  (x,runs)

def versionCommand (name : String) : Command := ⟨[host.executable,"-m",name,"--version"],none⟩

/-- A tool on the path, or else the Python module of that name. -/
def findCmd (name : String) : Eff (List Command) PyError (Option (List String)) :=
  if host.which name then pure (some [name])
  else do
    let res ← invoke host (versionCommand host name)
    return if res.returncode = 0 then some [host.executable,"-m",name] else none

def findSemgrepCmd : Eff (List Command) PyError (Option (List String)) := findCmd host "semgrep"

def findBanditCmd : Eff (List Command) PyError (Option (List String)) := findCmd host "bandit"

/-- What is made of Semgrep's output; `none` goes on to Bandit. -/
def semgrepVerdict (res : CommandResult) : Except PyError (Option Verdict) :=
  if res.stdout ≠ "" then
    match host.loads res.stdout with
    | .error .decode =>
      return some (.toolError,{ engine := "semgrep"
                                error := some "Failed to parse JSON output from Semgrep"
                                stderr := some res.stderr
                                stdout := some res.stdout })
    | .error (.other e) => .error e
    | .ok data => do
      let findings ← getResults data
      let n ← len findings
      return some (if 0 < n then
          (.findings,{ engine := "semgrep", results := some findings, raw := some data })
        else (.noFindings,{ engine := "semgrep", results := some (.array []), raw := some data }))
  else if res.returncode ≠ 0 then
    return some (.toolError,{ engine := "semgrep"
                              error := some ("Semgrep returned code "++toString res.returncode)
                              stderr := some res.stderr })
  else return none

def semgrepCommand (bin : List String) (worktreeDir : String) : Command :=
  ⟨bin++["scan","--config","auto","--severity","ERROR","--json"],some worktreeDir⟩

def semgrepScan (worktreeDir : String) (bin : List String) :
    Eff (List Command) PyError (Option Verdict) := do
  let res ← invoke host (semgrepCommand bin worktreeDir)
  ofExcept (semgrepVerdict host res)

/-- What is made of Bandit's output. -/
def banditVerdict (res : CommandResult) : Except PyError (Option Verdict) :=
  if res.stdout ≠ "" then
    match host.loads res.stdout with
    | .error .decode =>
      return some (.toolError,{ engine := "bandit_fallback"
                                error := some "Failed to parse JSON output from Bandit"
                                stderr := some res.stderr
                                stdout := some res.stdout })
    | .error (.other e) => .error e
    | .ok data => do
      let results ← getResults data
      let critical ← criticalResults (← iterate results)
      return some (if critical.isEmpty then
          (.noFindings,{ engine := "bandit_fallback"
                         results := some (.array [])
                         raw := some data })
        else (.findings,{ engine := "bandit_fallback"
                          results := some (.array critical)
                          raw := some data }))
  else if res.returncode ≠ 0 ∧ res.returncode ≠ 1 then
    return some (.toolError,
      { engine := "bandit_fallback"
        error := some ("Bandit finished with exit code "++toString res.returncode)
        stderr := some res.stderr })
  else return none

def banditCommand (bin : List String) (targetScan worktreeDir : String) : Command :=
  ⟨bin++["-r",targetScan,"-f","json","-ll"],some worktreeDir⟩

def banditScan (targetScan worktreeDir : String) (bin : List String) :
    Eff (List Command) PyError (Option Verdict) := do
  let res ← invoke host (banditCommand bin targetScan worktreeDir)
  ofExcept (banditVerdict host res)

def targetScan (worktreeDir : String) : Except PyError String := do
  let srcDir := worktreeDir++"/src"
  return if ← host.pathExists srcDir then srcDir else worktreeDir

/-- A scan with a tool, if there is one. -/
def withTool (bin : Option (List String))
    (scan : List String → Eff (List Command) PyError (Option Verdict)) :
    Eff (List Command) PyError (Option Verdict) :=
  bin.elim (pure none) scan

def banditFailed (e : PyError) : Verdict :=
  (.toolError,{ engine := "bandit_fallback"
                error := some ("Failed to execute Bandit: "++e.message) })

def noTools : Verdict :=
  (.toolError,{ engine := "none"
                error := some ("No operational SAST tools found "++
                  "(neither Semgrep nor Bandit in PATH).") })

def banditFallback (worktreeDir : String) : Eff (List Command) PyError Verdict := do
  let banditBin ← findBanditCmd host
  let target ← ofExcept (targetScan host worktreeDir)
  let verdict ← withTool banditBin fun bin =>
    Eff.catching (banditScan host target worktreeDir bin) fun e => pure (some (banditFailed e))
  return verdict.getD noTools

/-- The tri-state verdict on a worktree, given as an absolute path. -/
def runSast (worktreeDir : String) : Eff (List Command) PyError Verdict := do
  let semgrepBin ← findSemgrepCmd host
  let verdict ← withTool semgrepBin fun bin =>
    Eff.catching (semgrepScan host worktreeDir bin) fun _ => pure none
  verdict.elim (banditFallback host worktreeDir) pure

end run

inductive Engine where
  | semgrep
  | bandit
  deriving DecidableEq, Repr

namespace Engine

/-- The engine's name in a report. -/
def name : Engine → String
  | semgrep => "semgrep"
  | bandit => "bandit_fallback"

/-- The return codes of an engine that has done its work. -/
def successes : Engine → List Int
  | semgrep => [0]
  | bandit => [0,1]

theorem name_inj {a b : Engine} (h : a.name = b.name) : a = b := by
  cases a <;> cases b <;> first | rfl | exact absurd h (by decide)

/-- The results hold nothing that the engine is asked to report. -/
def NoFinding : Engine → List (List Char × Json) → Prop
  | semgrep,fields => len (resultsOf fields) = .ok 0
  | bandit,fields => ∃ rs,iterate (resultsOf fields) = .ok rs ∧ ∀ r ∈ rs,isCritical r = false

end Engine

section verdict

variable (host : Host) (worktreeDir : String)

/-- How a tool can be called, if it is there. -/
def toolBin (name : String) : Except PyError (Option (List String)) :=
  if host.which name then .ok (some [name])
  else (host.run (versionCommand host name)).map fun res =>
    if res.returncode = 0 then some [host.executable,"-m",name] else none

/-- The scan an engine is called for. -/
def scanCommand : Engine → Option Command
  | .semgrep => do
    let bin ← (← (toolBin host "semgrep").toOption)
    return semgrepCommand bin worktreeDir
  | .bandit => do
    let bin ← (← (toolBin host "bandit").toOption)
    let target ← (targetScan host worktreeDir).toOption
    return banditCommand bin target worktreeDir

/-- The engine is there and its scan comes to `res`. -/
def Scans (engine : Engine) (res : CommandResult) : Prop :=
  ∃ command,scanCommand host worktreeDir engine = some command ∧ host.run command = .ok res

/-- The run comes to what the engine has put out: for Bandit, the search for Semgrep does not
fail and Semgrep's output settles nothing. -/
def Reached : Engine → CommandResult → Prop
  | .semgrep,res => Scans host worktreeDir .semgrep res
  | .bandit,res => Scans host worktreeDir .bandit res ∧
    (∃ bin,toolBin host "semgrep" = .ok bin) ∧
    ∀ r,Scans host worktreeDir .semgrep r → ∀ v,semgrepVerdict host r ≠ .ok (some v)

/-- The engine has put out a JSON object without findings. -/
def Clean : Engine → CommandResult → List (List Char × Json) → Prop
  | .semgrep,res,fields => res.stdout ≠ "" ∧ host.loads res.stdout = .ok (.object fields) ∧
    len (resultsOf fields) = .ok 0
  | .bandit,res,fields => res.stdout ≠ "" ∧ host.loads res.stdout = .ok (.object fields) ∧
    ∃ rs,iterate (resultsOf fields) = .ok rs ∧ criticalResults rs = .ok []

/-- A tool failure is not reported as clean code. -/
def FailSafe : Prop :=
  ∀ report runs,runSast host worktreeDir [] = (.ok (.noFindings,report),runs) →
    ∃ engine command res fields,report.engine = engine.name ∧
      scanCommand host worktreeDir engine = some command ∧ command ∈ runs ∧
      host.run command = .ok res ∧ res.returncode ∈ engine.successes ∧
      host.loads res.stdout = .ok (.object fields) ∧ engine.NoFinding fields

theorem criticalResults_nil {rs : List Json} (h : criticalResults rs = .ok []) :
    ∀ r ∈ rs,isCritical r = false := by
  induction rs with
  | nil => simp
  | cons r rs ih =>
    cases r with
    | object fields =>
      rw [criticalResults] at h
      cases hrest : criticalResults rs with
      | error e =>
        rw [hrest] at h
        cases h
      | ok rest =>
        rw [hrest] at h
        cases hcrit : isCritical (.object fields) with
        | true =>
          simp [hcrit,bind,Except.bind,pure,Except.pure] at h
        | false =>
          simp only [hcrit,bind,Except.bind,pure,Except.pure,Bool.false_eq_true,if_false] at h
          obtain rfl := Except.ok.inj h
          intro r hr
          rcases List.mem_cons.mp hr with rfl | hr
          · exact hcrit
          · exact ih hrest r hr
    | _ => cases h

/-- Semgrep's output is called clean exactly if it is. -/
theorem semgrepVerdict_clean {res : CommandResult} {report : Report} :
    semgrepVerdict host res = .ok (some (.noFindings,report)) ↔
      ∃ fields,Clean host .semgrep res fields ∧
        report = { engine := "semgrep", results := some (.array []), raw := some (.object fields) } := by
  rw [semgrepVerdict]
  by_cases hout : res.stdout ≠ ""
  · rw [if_pos hout]
    cases hl : host.loads res.stdout with
    | error e => cases e <;> simp [Clean,hl,pure,Except.pure]
    | ok data =>
      cases data with
      | object fields =>
        simp only [getResults,bind,Except.bind,pure,Except.pure]
        cases hn : len (resultsOf fields) with
        | error e => simp [Clean,hl,hn]
        | ok n =>
          by_cases hpos : 0 < n
          · have hzero : n ≠ 0 := by omega
            simp [Clean,hl,hn,hpos,hzero]
          · obtain rfl : n = 0 := by omega
            simp [Clean,hl,hn,hout,eq_comm]
      | _ => simp [Clean,hl,getResults,bind,Except.bind]
  · rw [if_neg hout]
    split_ifs <;> simp [Clean,hout,pure,Except.pure]

theorem banditVerdict_clean {res : CommandResult} {report : Report} :
    banditVerdict host res = .ok (some (.noFindings,report)) ↔
      ∃ fields,Clean host .bandit res fields ∧
        report = { engine := "bandit_fallback"
                   results := some (.array [])
                   raw := some (.object fields) } := by
  rw [banditVerdict]
  by_cases hout : res.stdout ≠ ""
  · rw [if_pos hout]
    cases hl : host.loads res.stdout with
    | error e => cases e <;> simp [Clean,hl,pure,Except.pure]
    | ok data =>
      cases data with
      | object fields =>
        simp only [getResults,bind,Except.bind,pure,Except.pure]
        cases hrs : iterate (resultsOf fields) with
        | error e => simp [Clean,hl,hrs]
        | ok rs =>
          cases hc : criticalResults rs with
          | error e => simp [Clean,hl,hrs,hc]
          | ok critical =>
            cases critical with
            | nil => simp [Clean,hl,hrs,hc,hout,eq_comm]
            | cons r rest => simp [Clean,hl,hrs,hc]
      | _ => simp [Clean,hl,getResults,bind,Except.bind]
  · rw [if_neg hout]
    split_ifs <;> simp [Clean,hout,pure,Except.pure]

/-- Looking for a tool comes to what `toolBin` says. -/
theorem findCmd_eq (name : String) (runs : List Command) :
    ∃ more,findCmd host name runs = (toolBin host name,runs++more) := by
  rw [findCmd,toolBin]
  split_ifs with h
  · exact ⟨[],by rw [List.append_nil]; rfl⟩
  · refine ⟨[versionCommand host name],?_⟩
    rw [Eff.bind_apply,invoke]
    cases host.run (versionCommand host name) <;> rfl

/-- What is left of a result when its exceptions are handled. -/
def recovered (handler : PyError → Option Verdict) :
    Except PyError (Option Verdict) → Option Verdict
  | .error e => handler e
  | .ok v => v

theorem withTool_scan (handler : PyError → Option Verdict) {bin : List String}
    {command : Command} {judge : CommandResult → Except PyError (Option Verdict)}
    {scan : List String → Eff (List Command) PyError (Option Verdict)}
    (hscan : scan bin = (do
      let res ← invoke host command
      ofExcept (judge res))) (runs : List Command) :
    withTool (some bin) (fun b => Eff.catching (scan b) fun e => pure (handler e)) runs =
      (.ok (recovered handler (host.run command >>= judge)),runs++[command]) := by
  rw [withTool,Option.elim_some,hscan]
  cases hrun : host.run command with
  | error e =>
    have hinvoke : invoke host command runs = (.error e,runs++[command]) := by rw [invoke,hrun]
    exact Eff.catching_error (Eff.bind_of_error hinvoke _)
  | ok res =>
    have hinvoke : invoke host command runs = (.ok res,runs++[command]) := by rw [invoke,hrun]
    have hjudge := Eff.bind_of_ok hinvoke fun res => ofExcept (judge res)
    have hbind : (Except.ok res >>= judge) = judge res := rfl
    rw [hbind]
    cases hv : judge res with
    | error e =>
      rw [ofExcept,hv] at hjudge
      exact Eff.catching_error hjudge
    | ok v =>
      rw [ofExcept,hv] at hjudge
      exact Eff.catching_ok hjudge

/-- Semgrep's turn: it settles the run exactly if its scan's output does. -/
theorem semgrep_turn {bin : Option (List String)} (hbin : toolBin host "semgrep" = .ok bin)
    (runs : List Command) : ∃ more v,
      withTool bin (fun b => Eff.catching (semgrepScan host worktreeDir b) fun _ => pure none) runs =
        (.ok v,runs++more) ∧
      (∀ command,scanCommand host worktreeDir .semgrep = some command → command ∈ more) ∧
      ∀ x,v = some x ↔
        ∃ res,Scans host worktreeDir .semgrep res ∧ semgrepVerdict host res = .ok (some x) := by
  cases bin with
  | none =>
    have hnone : scanCommand host worktreeDir .semgrep = none := by
      rw [scanCommand,hbin]
      rfl
    refine ⟨[],none,by rw [List.append_nil]; rfl,?_,?_⟩
    · rw [hnone]
      simp
    · simp [Scans,hnone]
  | some bin =>
    have hsome : scanCommand host worktreeDir .semgrep =
        some (semgrepCommand bin worktreeDir) := by
      rw [scanCommand,hbin]
      rfl
    refine ⟨_,_,withTool_scan host (fun _ => none) rfl runs,?_,?_⟩
    · rw [hsome]
      simp
    · intro x
      cases hrun : host.run (semgrepCommand bin worktreeDir) with
      | error e => simp [Scans,hsome,hrun,recovered,bind,Except.bind]
      | ok res =>
        cases hv : semgrepVerdict host res <;>
          simp [Scans,hsome,hrun,hv,recovered,bind,Except.bind]

/-- Bandit's turn: code is called clean exactly if its scan's output is. -/
theorem bandit_turn {bin : Option (List String)} {target : String}
    (hbin : toolBin host "bandit" = .ok bin) (htarget : targetScan host worktreeDir = .ok target)
    (runs : List Command) : ∃ more v,
      withTool bin (fun b => Eff.catching (banditScan host target worktreeDir b)
        fun e => pure (some (banditFailed e))) runs = (.ok v,runs++more) ∧
      (∀ command,scanCommand host worktreeDir .bandit = some command → command ∈ more) ∧
      ∀ report,v = some (.noFindings,report) ↔
        ∃ res,Scans host worktreeDir .bandit res ∧
          banditVerdict host res = .ok (some (.noFindings,report)) := by
  have hnot (e : PyError) (report : Report) : banditFailed e ≠ (.noFindings,report) := by
    intro h
    cases h
  cases bin with
  | none =>
    have hnone : scanCommand host worktreeDir .bandit = none := by
      rw [scanCommand,hbin]
      rfl
    refine ⟨[],none,by rw [List.append_nil]; rfl,?_,?_⟩
    · rw [hnone]
      simp
    · simp [Scans,hnone]
  | some bin =>
    have hsome : scanCommand host worktreeDir .bandit =
        some (banditCommand bin target worktreeDir) := by
      rw [scanCommand,hbin,htarget]
      rfl
    refine ⟨_,_,withTool_scan host (fun e => some (banditFailed e)) rfl runs,?_,?_⟩
    · rw [hsome]
      simp
    · intro report
      cases hrun : host.run (banditCommand bin target worktreeDir) with
      | error e => simp [Scans,hsome,hrun,hnot,recovered,bind,Except.bind]
      | ok res =>
        cases hv : banditVerdict host res <;>
          simp [Scans,hsome,hrun,hv,hnot,recovered,bind,Except.bind]

/-- The fallback fails only with the search for Bandit or for the sources. -/
theorem fallback_turn (runs : List Command) :
    (∃ e runs',banditFallback host worktreeDir runs = (.error e,runs') ∧
      scanCommand host worktreeDir .bandit = none) ∨
    ∃ more v,banditFallback host worktreeDir runs = (.ok v,runs++more) ∧
      (∀ command,scanCommand host worktreeDir .bandit = some command → command ∈ more) ∧
      ∀ report,v = (.noFindings,report) ↔
        ∃ res,Scans host worktreeDir .bandit res ∧
          banditVerdict host res = .ok (some (.noFindings,report)) := by
  obtain ⟨more,hfind⟩ := findCmd_eq host "bandit" runs
  cases hbin : toolBin host "bandit" with
  | error e =>
    left
    rw [hbin] at hfind
    refine ⟨e,_,Eff.bind_of_error hfind _,?_⟩
    rw [scanCommand,hbin]
    rfl
  | ok bin =>
    rw [hbin] at hfind
    cases htarget : targetScan host worktreeDir with
    | error e =>
      left
      have hof : ofExcept (targetScan host worktreeDir) (runs++more) = (.error e,runs++more) := by
        rw [ofExcept,htarget]
      refine ⟨e,_,(Eff.bind_of_ok hfind _).trans (Eff.bind_of_error hof _),?_⟩
      rw [scanCommand,hbin,htarget]
      cases bin <;> rfl
    | ok target =>
      right
      have hof : ofExcept (targetScan host worktreeDir) (runs++more) =
          (.ok target,runs++more) := by rw [ofExcept,htarget]
      obtain ⟨more',v,hturn,hmem,hclean⟩ := bandit_turn host worktreeDir hbin htarget
        (runs++more)
      refine ⟨more++more',v.getD noTools,?_,?_,?_⟩
      · rw [← List.append_assoc]
        exact (Eff.bind_of_ok hfind _).trans
          ((Eff.bind_of_ok hof _).trans (Eff.bind_of_ok hturn _))
      · intro command hcommand
        exact List.mem_append_right _ (hmem command hcommand)
      · intro report
        rw [← hclean report]
        cases v with
        | none => simp [noTools]
        | some v => simp

/-- Code is called clean exactly if the output the run comes to is clean. -/
theorem runSast_clean {runs : List Command} {report : Report}
    (h : runSast host worktreeDir [] = (.ok (.noFindings,report),runs)) :
    ∃ engine command res fields,report.engine = engine.name ∧
      scanCommand host worktreeDir engine = some command ∧ command ∈ runs ∧
      host.run command = .ok res ∧ Reached host worktreeDir engine res ∧
      Clean host engine res fields := by
  obtain ⟨bin,runs₁,hfind,h⟩ := Eff.bind_ok.mp h
  obtain ⟨more,hfind'⟩ := findCmd_eq host "semgrep" []
  obtain ⟨hbin,rfl⟩ := Prod.mk.inj (hfind.symm.trans hfind')
  obtain ⟨more',v,hturn,hmem,hsettles⟩ := semgrep_turn host worktreeDir hbin.symm runs₁
  rw [Eff.bind_of_ok hturn] at h
  cases v with
  | some v =>
    obtain ⟨hv,rfl⟩ := Prod.mk.inj h
    obtain rfl := Except.ok.inj hv
    obtain ⟨res,hscans,hverdict⟩ := (hsettles _).mp rfl
    obtain ⟨fields,hclean,rfl⟩ := (semgrepVerdict_clean host).mp hverdict
    have hreached : Reached host worktreeDir .semgrep res := hscans
    obtain ⟨command,hcommand,hrun⟩ := hscans
    exact ⟨.semgrep,command,res,fields,rfl,hcommand,
      List.mem_append_right _ (hmem command hcommand),hrun,hreached,hclean⟩
  | none =>
    rcases fallback_turn host worktreeDir (runs₁++more') with
      ⟨e,runs',herror,-⟩ | ⟨more'',v,hok,hmem',hclean⟩
    · rw [Option.elim_none,herror] at h
      cases h
    · rw [Option.elim_none,hok] at h
      obtain ⟨hv,rfl⟩ := Prod.mk.inj h
      obtain rfl := Except.ok.inj hv
      obtain ⟨res,hscans,hverdict⟩ := (hclean report).mp rfl
      obtain ⟨fields,hfields,rfl⟩ := (banditVerdict_clean host).mp hverdict
      have hreached : Reached host worktreeDir .bandit res := by
        refine ⟨hscans,⟨bin,hbin.symm⟩,?_⟩
        intro r hr v hv
        have hsome := (hsettles v).mpr ⟨r,hr,hv⟩
        cases hsome
      obtain ⟨command,hcommand,hrun⟩ := hscans
      exact ⟨.bandit,command,res,fields,rfl,hcommand,
        List.mem_append_right _ (hmem' command hcommand),hrun,hreached,hfields⟩

theorem runSast_of_clean {engine : Engine} {res : CommandResult}
    {fields : List (List Char × Json)} (hreached : Reached host worktreeDir engine res)
    (hclean : Clean host engine res fields) :
    ∃ report runs,runSast host worktreeDir [] = (.ok (.noFindings,report),runs) ∧
      report.engine = engine.name := by
  obtain ⟨more,hfind⟩ := findCmd_eq host "semgrep" []
  cases engine with
  | semgrep =>
    have hverdict := (semgrepVerdict_clean host).mpr ⟨fields,hclean,rfl⟩
    obtain ⟨bin,hbin⟩ : ∃ bin,toolBin host "semgrep" = .ok bin := by
      obtain ⟨command,hcommand,-⟩ := hreached
      cases hbin : toolBin host "semgrep" with
      | error e =>
        rw [scanCommand,hbin] at hcommand
        cases hcommand
      | ok bin => exact ⟨bin,rfl⟩
    rw [hbin] at hfind
    obtain ⟨more',v,hturn,-,hsettles⟩ := semgrep_turn host worktreeDir hbin ([]++more)
    obtain rfl := (hsettles _).mpr ⟨res,hreached,hverdict⟩
    exact ⟨_,_,(Eff.bind_of_ok hfind _).trans (Eff.bind_of_ok hturn _),rfl⟩
  | bandit =>
    have hverdict := (banditVerdict_clean host).mpr ⟨fields,hclean,rfl⟩
    obtain ⟨hscans,⟨bin,hbin⟩,hunsettled⟩ := hreached
    rw [hbin] at hfind
    obtain ⟨more',v,hturn,-,hsettles⟩ := semgrep_turn host worktreeDir hbin ([]++more)
    have hnone : v = none := by
      cases v with
      | none => rfl
      | some v =>
        obtain ⟨r,hr,hv⟩ := (hsettles v).mp rfl
        exact absurd hv (hunsettled r hr v)
    subst hnone
    rcases fallback_turn host worktreeDir ([]++more++more') with
      ⟨e,runs',-,hno⟩ | ⟨more'',v,hok,-,hcleans⟩
    · obtain ⟨command,hcommand,-⟩ := hscans
      rw [hno] at hcommand
      cases hcommand
    · obtain rfl := (hcleans _).mpr ⟨res,hscans,hverdict⟩
      exact ⟨_,_,(Eff.bind_of_ok hfind _).trans ((Eff.bind_of_ok hturn _).trans hok),rfl⟩

theorem Clean.noFinding {engine : Engine} {res : CommandResult}
    {fields : List (List Char × Json)} (h : Clean host engine res fields) :
    host.loads res.stdout = .ok (.object fields) ∧ engine.NoFinding fields := by
  cases engine with
  | semgrep => exact ⟨h.2.1,h.2.2⟩
  | bandit =>
    obtain ⟨-,hloads,rs,hrs,hcritical⟩ := h
    exact ⟨hloads,rs,hrs,criticalResults_nil hcritical⟩

/-- The gate is fail-safe exactly if every engine whose clean output the run comes to has
finished with a success status. -/
theorem failSafe_iff : FailSafe host worktreeDir ↔
    ∀ engine res fields,Reached host worktreeDir engine res → Clean host engine res fields →
      res.returncode ∈ engine.successes := by
  constructor
  · intro h engine res fields hreached hclean
    obtain ⟨report,runs,hrun,hname⟩ := runSast_of_clean host worktreeDir hreached hclean
    obtain ⟨engine',command,res',fields',hname',hcommand,-,hres',hcode,-⟩ := h report runs hrun
    obtain rfl := Engine.name_inj (hname.symm.trans hname')
    have hscans : Scans host worktreeDir engine res := by
      cases engine with
      | semgrep => exact hreached
      | bandit => exact hreached.1
    obtain ⟨command',hcommand',hres⟩ := hscans
    rw [hcommand] at hcommand'
    obtain rfl := Option.some.inj hcommand'
    rw [hres'] at hres
    obtain rfl := Except.ok.inj hres
    exact hcode
  · intro h report runs hrun
    obtain ⟨engine,command,res,fields,hname,hcommand,hmem,hres,hreached,hclean⟩ :=
      runSast_clean host worktreeDir hrun
    obtain ⟨hloads,hnone⟩ := hclean.noFinding
    exact ⟨engine,command,res,fields,hname,hcommand,hmem,hres,
      h engine res fields hreached hclean,hloads,hnone⟩

end verdict

/-- A machine on which Semgrep breaks off with code 2 and an empty list of results. -/
def crashedHost : Host where
  executable := "python3"
  which name := name == "semgrep"
  run _ := .ok ⟨2,"\x7b\"results\": []\x7d","scan failed"⟩
  pathExists _ := .ok true
  loads s := (Json.loads s.toList).elim (.error .decode) .ok

theorem crashedHost_passes : ¬ FailSafe crashedHost "/repo" := by
  have hcode : (runSast crashedHost "/repo" []).1.map (fun v => (v.1,v.2.engine)) =
      .ok (.noFindings,"semgrep") := by decide +kernel
  intro h
  rcases hrun : runSast crashedHost "/repo" [] with ⟨r,runs⟩
  rw [hrun] at hcode
  cases r with
  | error e => cases hcode
  | ok v =>
    obtain ⟨code,report⟩ := v
    obtain ⟨rfl,hengine⟩ := Prod.mk.inj (Except.ok.inj hcode)
    obtain ⟨engine,command,res,fields,hname,-,-,hres,hsuccess,-⟩ := h report runs hrun
    have hsemgrep : engine = .semgrep := Engine.name_inj (hname.symm.trans hengine)
    subst hsemgrep
    obtain rfl := Except.ok.inj hres
    exact absurd hsuccess (by decide)

end SoftwareFactory.SastRunner
