import SoftwareFactory.StageA.ControllerCustody
import SoftwareFactory.StageA.SidExactness

namespace SoftwareFactory.StageA.Windows

open Effect Eff

/-- The calls that a token goes through. -/
inductive TokenEvent where
  | opened (token : Option Handle)
  | queried (token : Handle)
  | closed (token : Handle)
  deriving DecidableEq, Repr

variable {ν : Type}

/-- A backend whose calls are recorded. -/
def TokenSidNativeCalls.logged (calls : TokenSidNativeCalls ν) :
    TokenSidNativeCalls (ν × List TokenEvent) where
  openCurrentProcessToken access s :=
    let (r,w) := calls.openCurrentProcessToken access s.1
    (r,w,s.2++[.opened (r.toOption.map Prod.fst)])
  queryTokenUser token buffer capacity s :=
    let (r,w) := calls.queryTokenUser token buffer capacity s.1
    (r,w,s.2++[.queried token])
  close token s := (calls.close token s.1,s.2++[.closed token])

/-- Functions that leave the record alone. -/
def SidFunctions.aside (sys : SidFunctions ν) : SidFunctions (ν × List TokenEvent) where
  allocate n := Win32.beside (sys.allocate n)
  isValidSid := sys.isValidSid
  getLengthSid := sys.getLengthSid
  convertSidToStringSid memory := Win32.beside (sys.convertSidToStringSid memory)
  localFree text s := (sys.localFree text s.1,s.2)

/-- Each token that is opened is closed, once and last, and only it is asked about. -/
def Tidy (log : List TokenEvent) : Prop :=
  (∃ token,log = [.opened token] ∧ ∀ t ∈ token,t = 0 ∨ t = invalidHandleValue) ∨
    ∃ token uses,token ≠ 0 ∧ token ≠ invalidHandleValue ∧
      log = .opened (some token)::(uses++[.closed token]) ∧ ∀ e ∈ uses,e = .queried token

/-- Code that does nothing with tokens but ask about one. -/
def asking (token : Handle) : Frame (ν × List TokenEvent) where
  rel s s' := ∃ uses,s'.2 = s.2++uses ∧ ∀ e ∈ uses,e = .queried token
  refl s := ⟨[],by simp,by simp⟩
  trans := by
    intro s s' s'' h h'
    obtain ⟨uses,hs,huses⟩ := h
    obtain ⟨uses',hs',huses'⟩ := h'
    refine ⟨uses++uses',by rw [hs',hs,List.append_assoc],fun e he => ?_⟩
    cases List.mem_append.mp he with
    | inl he => exact huses e he
    | inr he => exact huses' e he

variable {token : Handle} {α : Type} {s : ν × List TokenEvent}

theorem asking_quiet {m : Eff (ν × List TokenEvent) Thrown α} (h : (m s).2.2 = s.2) :
    (asking token).Bounds m s := ⟨[],by rw [h,List.append_nil],by simp⟩

theorem asking_failIf {p : Prop} [Decidable p] {kind : ErrorKind} {object : Str}
    {profile step message : String} :
    (asking token).Bounds (failIf p kind object profile step message) s :=
  .unchanged failIf_state

theorem asking_parsed {r : Except ParseStop α} : (asking token).Bounds (Win32.parsed r) s := by
  apply asking_quiet
  cases r with
  | ok a => rfl
  | error stop => cases stop <;> rfl

theorem asking_query (calls : TokenSidNativeCalls ν) (buffer : Option Nat) (capacity : Nat) :
    (asking token).Bounds (calls.logged.queryTokenUser token buffer capacity) s :=
  ⟨[.queried token],rfl,by simp⟩

variable (sys : SidFunctions ν)

theorem asking_newBuffer (required : Nat) :
    (asking token).Bounds (sys.aside.newBuffer required) s := by
  apply asking_quiet
  rw [SidFunctions.newBuffer]
  cases h : sys.aside.allocate required s with
  | mk r s' =>
    have hs : s'.2 = s.2 := (congrArg (fun p => p.2.2) h).symm
    cases r <;> exact hs

theorem asking_convertSid (memory : List UInt8) :
    (asking token).Bounds (sys.aside.convertSid memory) s := by
  apply asking_quiet
  rw [SidFunctions.convertSid]
  cases h : sys.aside.convertSidToStringSid memory s with
  | mk r s' =>
    have hs : s'.2 = s.2 := (congrArg (fun p => p.2.2) h).symm
    cases r with
    | error error => exact hs
    | ok text =>
      cases text with
      | none => exact hs
      | some text =>
        dsimp only
        rw [owning_apply,← hs]
        cases sidResult text with
        | ok t => rfl
        | error stop => cases stop <;> rfl

theorem asking_readToken (calls : TokenSidNativeCalls ν) :
    (asking token).Bounds (sys.aside.readToken calls.logged token) s := by
  rw [SidFunctions.readToken]
  refine Frame.Bounds.bind (asking_query calls _ _) fun sizing s1 _ => ?_
  dsimp only
  split
  · exact .raise _
  · refine Frame.Bounds.bind ?_ fun _ s2 _ => ?_
    · exact asking_failIf
    refine Frame.Bounds.bind ?_ fun _ s3 _ => ?_
    · exact asking_failIf
    refine Frame.Bounds.bind (asking_newBuffer sys _) fun base s4 _ => ?_
    refine Frame.Bounds.bind (asking_query calls _ _) fun answer s5 _ => ?_
    split
    · exact .raise _
    · refine Frame.Bounds.bind ?_ fun _ s6 _ => ?_
      · exact asking_failIf
      exact Frame.Bounds.bind asking_parsed fun memory s7 _ => asking_convertSid sys memory

theorem readBody_tidy (calls : TokenSidNativeCalls ν) (w : ν) :
    Tidy (sys.aside.readBody (some calls.logged) (w,[])).2.2 := by
  rw [SidFunctions.readBody,bind_apply]
  cases hopen : calls.openCurrentProcessToken tokenQuery w with
  | mk r w1 =>
    have hlogged : calls.logged.openCurrentProcessToken tokenQuery (w,[]) =
        (r,w1,[.opened (r.toOption.map Prod.fst)]) := by
      simp [TokenSidNativeCalls.logged,hopen]
    rw [hlogged]
    cases r with
    | error t => exact .inl ⟨none,rfl,by simp⟩
    | ok opened =>
      obtain ⟨token,error⟩ := opened
      dsimp only
      by_cases htoken : token = 0 ∨ token = invalidHandleValue
      · rw [if_pos htoken]
        exact .inl ⟨some token,rfl,by simpa using htoken⟩
      · rw [if_neg htoken]
        have hasked : (asking token).Bounds (sys.aside.readToken calls.logged token)
            (w1,[.opened (some token)]) := asking_readToken sys calls
        obtain ⟨uses,huses,hall⟩ := hasked
        rw [not_or] at htoken
        refine .inr ⟨token,uses,htoken.1,htoken.2,?_,hall⟩
        rw [owning_apply]
        exact congrArg (· ++ [TokenEvent.closed token]) huses

theorem convertSid_shaped {memory : List UInt8} {w w' : ν} {t : Str}
    (h : sys.convertSid memory w = (.ok t,w')) : SidShaped t := by
  rw [SidFunctions.convertSid] at h
  cases hconvert : sys.convertSidToStringSid memory w with
  | mk r w1 =>
    rw [hconvert] at h
    cases r with
    | error error => cases h
    | ok text =>
      cases text with
      | none => cases h
      | some text =>
        obtain ⟨w2,hrun,_⟩ := owning_ok.mp h
        cases hresult : sidResult text with
        | ok t' =>
          rw [hresult] at hrun
          have ht : t' = t := Except.ok.inj (Prod.mk.inj hrun).1
          rw [ht] at hresult
          exact sidResult_shaped hresult
        | error stop =>
          rw [hresult] at hrun
          cases stop <;> cases hrun

theorem readCurrentProcessSid_shaped (calls : TokenSidNativeCalls ν) {w : ν} {t : Str}
    (h : (sys.readCurrentProcessSid (some calls) w).1 = .ok t) : SidShaped t := by
  have hrun : sys.readCurrentProcessSid (some calls) w = (.ok t,_) := Prod.ext h rfl
  rw [SidFunctions.readCurrentProcessSid] at hrun
  obtain ⟨_,_,_,_,_,_,_,hdecode,_⟩ := readBody_ok.mp (rethrowing_ok.mp hrun)
  obtain ⟨memory,w1,_,hconvert⟩ := bind_ok.mp hdecode
  exact convertSid_shaped sys hconvert

theorem raises_logged {calls : TokenSidNativeCalls ν} {P : Thrown → Prop}
    (hopen : ∀ access,Raises P (calls.openCurrentProcessToken access))
    (hquery : ∀ token buffer capacity,Raises P (calls.queryTokenUser token buffer capacity)) :
    (∀ access,Raises P (calls.logged.openCurrentProcessToken access)) ∧
      ∀ token buffer capacity,Raises P (calls.logged.queryTokenUser token buffer capacity) := by
  constructor
  · intro access s t s' hrun
    have ht : (calls.openCurrentProcessToken access s.1).1 = .error t := congrArg Prod.fst hrun
    exact hopen access s.1 t _ (Prod.ext ht rfl)
  · intro token buffer capacity s t s' hrun
    have ht : (calls.queryTokenUser token buffer capacity s.1).1 = .error t :=
      congrArg Prod.fst hrun
    exact hquery token buffer capacity s.1 t _ (Prod.ext ht rfl)

theorem rethrowing_state {m : Eff ν Thrown α} {handler : Thrown → Thrown} (w : ν) :
    (Eff.catching m (fun t => Eff.raise (handler t)) w).2 = (m w).2 := by
  cases h : m w with
  | mk r w1 =>
    cases r with
    | ok a => rw [catching_ok h]
    | error t =>
      rw [catching_error h]
      rfl

/-- The port on the system's own backend: every exception is an observation of the token step,
what it returns has the signs of a SID and no more of them than a SID has, and the token, once
open, is closed. -/
theorem systemToken_safe (win : TokenWin32 ν) (w : ν) :
    let run := sys.aside.readCurrentProcessSid (some win.systemTokenSidCalls.logged) (w,[])
    (∀ t,run.1 = .error t → NamesToken t) ∧ (∀ s,run.1 = .ok s → SidShaped s) ∧
      Tidy run.2.2 := by
  intro run
  obtain ⟨hopen,hquery⟩ := raises_logged (systemToken_raises win).1 (systemToken_raises win).2
  have hraises := readCurrentProcessSid_raises sys.aside hopen hquery
  have htidy : Tidy run.2.2 := by
    have hstate : run.2 = (sys.aside.readBody (some win.systemTokenSidCalls.logged) (w,[])).2 :=
      rethrowing_state (w,[])
    rw [hstate]
    exact readBody_tidy sys win.systemTokenSidCalls w
  exact ⟨fun t ht => hraises _ t run.2 (Prod.ext ht rfl),
    fun s hs => readCurrentProcessSid_shaped sys.aside _ hs,htidy⟩

section composition

variable {κ : Type}

/-- The composition with the token port of Windows goes on to the P10 record only if Windows has
delivered a buffer with the SID of the approved controller. -/
theorem controllerSidPort_entitles (hsys : Documented sys) (calls : TokenSidNativeCalls ν)
    (b : BCrypt κ) (make : Eff (ν × κ) Thrown (P10Calls ν κ)) (a3 : AuthenticatedHeadPort ν κ)
    (config : P10ReaderConfig) (approved : ApprovedAuthorityBinding) (selected : FixtureCase)
    (w : ν) (k : κ)
    (hbeyond : 1 < (bindControllerPrecomparison b make (sys.controllerSidPort (some calls)) a3
      config approved selected ({ world := w },k)).2.1.log.length) :
    ∃ token base buffer returned w1 k' sid,
      Delivered calls sys w token base buffer returned w1 ∧ Placed base buffer returned k' sid ∧
        sid.authority < 2^32 ∧ approved.createdSids.controller = sid.text := by
  obtain ⟨result,c,k',hrun,_,horder,hfirst⟩ := @bindInternal_orderly _ _ b config
    (sys.controllerSidPort (some calls)) a3 approved selected _ (constructing_reads make) w k
  rw [bindControllerPrecomparison,hrun] at hbeyond
  change 1 < c.log.length at hbeyond
  have hread : c.log.head? = some (.token (.ok approved.createdSids.controller)) → _ := fun hhead =>
    readCurrentProcessSid_ok hsys calls (w := w) |>.mp
      (PortEvent.token.inj (Option.some.inj (hfirst.symm.trans hhead)))
  generalize c.log = log at horder hbeyond hread
  cases horder with
  | token r => simp at hbeyond
  | p10 hwork r => exact hread rfl
  | head hwork p10 r => exact hread rfl

end composition

end SoftwareFactory.StageA.Windows
