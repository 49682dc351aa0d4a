import SoftwareFactory.Lib.Frame
import SoftwareFactory.StageA.NativeFailures
import SoftwareFactory.StageA.SidText
import SoftwareFactory.StageA.TokenSid

namespace SoftwareFactory.StageA.Windows

open ByteBuffer Effect Eff

/-- A failure of the token reader. -/
def OfToken (f : ObservationFailure) : Prop :=
  f.object = "A2-token".toList ∧ f.profile = tokenProfile ∧ f.hasNtstatus = false

def NamesToken (t : Thrown) : Prop := ∃ f,t = .observation f ∧ OfToken f

/-- What the `try` block throws: its own failures, or what is no observation. -/
def TokenThrown (t : Thrown) : Prop := ∀ f,t = .observation f → OfToken f

theorem ofToken_failure (kind : ErrorKind) (step message : String) (error : UInt32)
    (hasError : Bool) : OfToken (tokenFailure kind step message error hasError) := ⟨rfl,rfl,rfl⟩

theorem tokenThrown_of {f : ObservationFailure} (h : OfToken f) : TokenThrown (.observation f) := by
  intro f' hf
  rwa [← Thrown.observation.inj hf]

section decoding

variable {ν : Type} (sys : SidFunctions ν) {base returned : Nat} {buffer : List UInt8}

theorem loadPointer_lt (bytes : List UInt8) : loadPointer bytes < 2^64 := by
  have hlow := (load32 bytes).toNat_lt
  have hhigh := (load32 (bytes.drop 4)).toNat_lt
  rw [loadPointer]
  omega

/-- The reads of the decoder stay within the buffer. -/
theorem sidMemory_onlyFails (h : returned ≤ buffer.length) :
    OnlyFails (sys.sidMemory base buffer returned) := by
  rw [SidFunctions.sidMemory]
  refine (OnlyFails.failIf _).bind fun _ hlength => ?_
  have hbounds := parseFailIf_ok.mp hlength
  simp only [tokenUserBytes,minSidBytes,maxTokenUserBytes] at hbounds
  refine (copyOut_onlyFails (by rw [tokenUserBytes]; omega)).bind fun user _ => ?_
  refine (OnlyFails.failIf _).bind fun _ hpointer => ?_
  have hinside := parseFailIf_ok.mp hpointer
  have hroom : sizeSub returned minSidBytes = returned-minSidBytes :=
    sizeSub_of_le (by rw [minSidBytes]; omega) (by omega)
  rw [hroom,minSidBytes] at hinside
  refine (copyOut_onlyFails (by omega)).bind fun header _ => ?_
  refine (OnlyFails.failIf _).bind fun _ _ => ?_
  refine (OnlyFails.failIf _).bind fun _ _ => ?_
  refine (OnlyFails.failIf _).bind fun _ _ => ?_
  exact .ok _

theorem sidMemory_stopsWith : StopsWith OfToken (sys.sidMemory base buffer returned) := by
  rw [SidFunctions.sidMemory]
  refine StopsWith.bind (.failIf (.fail ⟨rfl,rfl,rfl⟩)) fun _ _ => ?_
  refine StopsWith.bind (copyOut_stopsWith _ _ _) fun user _ => ?_
  refine StopsWith.bind (.failIf (.fail ⟨rfl,rfl,rfl⟩)) fun _ _ => ?_
  refine StopsWith.bind (copyOut_stopsWith _ _ _) fun header _ => ?_
  refine StopsWith.bind (.failIf (.fail ⟨rfl,rfl,rfl⟩)) fun _ _ => ?_
  refine StopsWith.bind (.failIf (.fail ⟨rfl,rfl,rfl⟩)) fun _ _ => ?_
  refine StopsWith.bind (.failIf (.fail ⟨rfl,rfl,rfl⟩)) fun _ _ => ?_
  exact .ok _

theorem sidCharacters_stops (text : WStr) :
    OnlyFails (sidCharacters text) ∧ StopsWith OfToken (sidCharacters text) := by
  induction text with
  | nil => exact ⟨.ok _,.ok _⟩
  | cons c cs ih =>
    rw [sidCharacters]
    constructor
    · refine (OnlyFails.failIf _).bind fun _ _ => ?_
      exact ih.1.bind fun rest _ => .ok _
    · refine StopsWith.bind (.failIf (.fail ⟨rfl,rfl,rfl⟩)) fun _ _ => ?_
      exact ih.2.bind fun rest _ => .ok _

theorem sidResult_stops (text : WStr) :
    OnlyFails (sidResult text) ∧ StopsWith OfToken (sidResult text) := by
  rw [sidResult]
  constructor
  · exact (OnlyFails.failIf _).bind fun _ _ => (sidCharacters_stops _).1
  · exact StopsWith.bind (.failIf (.fail ⟨rfl,rfl,rfl⟩)) fun _ _ => (sidCharacters_stops _).2

theorem raises_parsed {α : Type} {P : ObservationFailure → Prop} {r : Except ParseStop α}
    (honly : OnlyFails r) (hstops : StopsWith P r) :
    Raises (fun t => ∃ f,t = .observation f ∧ P f) (Win32.parsed r : Eff ν Thrown α) := by
  cases hr : r with
  | ok a => exact .pure a
  | error stop =>
    obtain ⟨f,hf⟩ := honly stop hr
    rw [hf] at hr ⊢
    exact .raise ⟨f,rfl,hstops f hr⟩

theorem raises_failIf_bind {α : Type} {p : Prop} [Decidable p] {kind : ErrorKind} {object : Str}
    {profile step message : String} {P : Thrown → Prop} {f : Unit → Eff ν Thrown α}
    (h : Raises P (fail kind object profile step message : Eff ν Thrown Unit))
    (hf : ¬p → Raises P (f ())) :
    Raises P (failIf p kind object profile step message >>= f) := by
  by_cases hp : p
  · rw [failIf,if_pos hp]
    intro w t w' hrun
    apply h w t w'
    rw [fail,raise_apply]
    exact Prod.ext (congrArg Except.error (Except.error.inj (Prod.mk.inj hrun).1))
      (Prod.mk.inj hrun).2
  · rw [failIf,if_neg hp]
    exact hf hp

theorem raises_token (kind : ErrorKind) (step message : String) {α : Type} :
    Raises TokenThrown (fail kind "A2-token" tokenProfile step message : Eff ν Thrown α) :=
  .raise (tokenThrown_of ⟨rfl,rfl,rfl⟩)

theorem raises_tokenFailure (kind : ErrorKind) (step message : String) (error : UInt32)
    (hasError : Bool) {α : Type} : Raises TokenThrown (Eff.raise (.observation
      (tokenFailure kind step message error hasError)) : Eff ν Thrown α) :=
  .raise (tokenThrown_of (ofToken_failure _ _ _ _ _))

theorem parsed_tokenThrown {α : Type} {r : Except ParseStop α} (honly : OnlyFails r)
    (hstops : StopsWith OfToken r) : Raises TokenThrown (Win32.parsed r : Eff ν Thrown α) := by
  refine (raises_parsed honly hstops).mono fun t ht => ?_
  obtain ⟨f,rfl,hf⟩ := ht
  exact tokenThrown_of hf

theorem convertSid_raises (memory : List UInt8) : Raises TokenThrown (sys.convertSid memory) := by
  intro w t w' hrun
  rw [SidFunctions.convertSid] at hrun
  cases hconvert : sys.convertSidToStringSid memory w with
  | mk r w1 =>
    rw [hconvert] at hrun
    cases r with
    | error error =>
      obtain ⟨ht,_⟩ := Prod.mk.inj hrun
      rw [← Except.error.inj ht]
      exact tokenThrown_of (ofToken_failure _ _ _ _ _)
    | ok text =>
      cases text with
      | none =>
        obtain ⟨ht,_⟩ := Prod.mk.inj hrun
        rw [← Except.error.inj ht]
        exact tokenThrown_of (ofToken_failure _ _ _ _ _)
      | some text =>
        have hresult := sidResult_stops text
        exact (parsed_tokenThrown hresult.1 hresult.2).owning w1 t w' hrun

theorem decodeTokenUserSid_raises (h : returned ≤ buffer.length) :
    Raises TokenThrown (sys.decodeTokenUserSid base buffer returned) := by
  refine Raises.bind (parsed_tokenThrown (sidMemory_onlyFails sys h)
    (sidMemory_stopsWith sys)) fun memory => ?_
  exact convertSid_raises sys memory

theorem newBuffer_raises (required : Nat) : Raises TokenThrown (sys.newBuffer required) := by
  intro w t w' hrun
  rw [SidFunctions.newBuffer] at hrun
  cases hnew : sys.allocate required w with
  | mk r w1 =>
    rw [hnew] at hrun
    cases r with
    | ok base => cases hrun
    | error e =>
      obtain ⟨ht,_⟩ := Prod.mk.inj hrun
      rw [← Except.error.inj ht]
      intro f hf
      cases hf

theorem readToken_raises {calls : TokenSidNativeCalls ν}
    (hquery : ∀ token buffer capacity,
      Raises TokenThrown (calls.queryTokenUser token buffer capacity)) (token : Handle) :
    Raises TokenThrown (sys.readToken calls token) := by
  rw [SidFunctions.readToken]
  refine Raises.bind (hquery token none 0) fun sizing => ?_
  apply Raises.ite
  · intro _
    exact raises_tokenFailure _ _ _ _ _
  · intro _
    refine raises_failIf_bind (raises_token _ _ _) fun _ => ?_
    refine raises_failIf_bind (raises_token _ _ _) fun _ => ?_
    refine Raises.bind (newBuffer_raises sys _) fun base => ?_
    refine Raises.bind (hquery token (some base) _) fun answer => ?_
    apply Raises.ite
    · intro _
      exact raises_tokenFailure _ _ _ _ _
    · intro _
      refine raises_failIf_bind (raises_token _ _ _) fun hlength => ?_
      apply decodeTokenUserSid_raises
      simpa using hlength

theorem readCurrentProcessSid_raises {calls : TokenSidNativeCalls ν}
    (hopen : ∀ access,Raises TokenThrown (calls.openCurrentProcessToken access))
    (hquery : ∀ token buffer capacity,
      Raises TokenThrown (calls.queryTokenUser token buffer capacity)) :
    Raises NamesToken (sys.readCurrentProcessSid (some calls)) := by
  have hbody : Raises TokenThrown (sys.readBody (some calls)) := by
    rw [SidFunctions.readBody]
    refine Raises.bind (hopen tokenQuery) fun opened => ?_
    obtain ⟨token,error⟩ := opened
    apply Raises.ite
    · intro _
      exact raises_tokenFailure _ _ _ _ _
    · intro _
      exact (readToken_raises sys hquery token).owning
  refine Raises.catching hbody fun t ht => .raise ⟨_,rfl,?_⟩
  cases t with
  | observation f => exact ht f rfl
  | standard e => exact ⟨rfl,rfl,rfl⟩
  | nonstandard => exact ⟨rfl,rfl,rfl⟩

theorem systemToken_raises (win : TokenWin32 ν) :
    (∀ access,Raises TokenThrown (win.systemTokenSidCalls.openCurrentProcessToken access)) ∧
      ∀ token buffer capacity,
        Raises TokenThrown (win.systemTokenSidCalls.queryTokenUser token buffer capacity) :=
  ⟨fun _ => .step _,fun _ _ _ => .bind (.step _) fun _ => .pure _⟩

end decoding

section text

/-- The signs that the loop lets through, and what they become. -/
def WideSign (c : UInt16) : Prop := (0x30 ≤ c ∧ c ≤ 0x39) ∨ c = 0x53 ∨ c = 0x2d

def narrow (c : UInt16) : Char := Char.ofNat c.toNat

def SidSign (c : Char) : Prop := IsDigit c ∨ c = 'S' ∨ c = '-'

/-- A text that the port may return. -/
structure SidShaped (s : Str) : Prop where
  short : 5 ≤ s.length
  bounded : s.length ≤ maxSidCharacters
  lead : "S-".toList <+: s
  signs : ∀ c ∈ s,SidSign c

variable {text : WStr} {s : Str}

theorem sidCharacters_ok : sidCharacters text = .ok s ↔
    (∀ c ∈ text,WideSign c) ∧ s = text.map narrow := by
  induction text generalizing s with
  | nil => simp [sidCharacters,eq_comm]
  | cons c cs ih =>
    rw [sidCharacters]
    simp only [parse_bind_ok,parseFailIf_ok,not_not,ih,List.forall_mem_cons,List.map_cons]
    constructor
    · intro h
      obtain ⟨_,hc,rest,⟨hcs,hrest⟩,hs⟩ := h
      refine ⟨⟨hc,hcs⟩,?_⟩
      rw [← hrest]
      exact (Except.ok.inj hs).symm
    · intro h
      refine ⟨(),h.1.1,cs.map narrow,⟨h.1.2,rfl⟩,?_⟩
      rw [h.2]
      rfl

/-- What the checks of the converted text come to. -/
theorem sidResult_ok : sidResult text = .ok s ↔
    (5 ≤ text.length ∧ text.length ≤ maxSidCharacters) ∧
      (text[0]? = some 0x53 ∧ text[1]? = some 0x2d) ∧ (∀ c ∈ text,WideSign c) ∧
        s = text.map narrow := by
  rw [sidResult,parse_bind_ok]
  simp only [parseFailIf_ok,sidCharacters_ok]
  simp only [not_or,not_not,maxSidCharacters]
  constructor
  · intro h
    obtain ⟨_,⟨hshort,hlong,hlead⟩,htext⟩ := h
    have hlength : min text.length (187+1) = text.length := by omega
    rw [hlength,List.take_length] at htext
    exact ⟨⟨by omega,by omega⟩,hlead,htext⟩
  · intro h
    obtain ⟨hbounds,hlead,htext⟩ := h
    have hlength : min text.length (187+1) = text.length := by omega
    refine ⟨(),⟨by omega,by omega,hlead⟩,?_⟩
    rwa [hlength,List.take_length]

theorem WideSign.narrow {c : UInt16} (h : WideSign c) : SidSign (narrow c) := by
  cases h with
  | inl hdigit =>
    have hall : ∀ n < 10,IsDigit (Char.ofNat (0x30+n)) := by
      intro n hn
      have hcheck : ∀ n < 10,'0' ≤ Char.ofNat (0x30+n) ∧ Char.ofNat (0x30+n) ≤ '9' := by decide
      exact hcheck n hn
    have hlow : 0x30 ≤ c.toNat := UInt16.le_iff_toNat_le.mp hdigit.1
    have hhigh : c.toNat ≤ 0x39 := UInt16.le_iff_toNat_le.mp hdigit.2
    have hc := hall (c.toNat-0x30) (by omega)
    have hsum : 0x30+(c.toNat-0x30) = c.toNat := by omega
    rw [hsum] at hc
    exact .inl hc
  | inr hsign =>
    cases hsign with
    | inl hs =>
      rw [hs]
      exact .inr (.inl rfl)
    | inr hdash =>
      rw [hdash]
      exact .inr (.inr rfl)

theorem sidResult_shaped (h : sidResult text = .ok s) : SidShaped s := by
  obtain ⟨hbounds,hlead,hsigns,rfl⟩ := sidResult_ok.mp h
  refine ⟨by simpa using hbounds.1,by simpa using hbounds.2,?_,?_⟩
  · cases text with
    | nil => simp at hlead
    | cons c cs =>
      cases cs with
      | nil => simp at hlead
      | cons d ds =>
        simp only [List.getElem?_cons_zero,List.getElem?_cons_succ,Option.some.injEq] at hlead
        rw [hlead.1,hlead.2]
        exact ⟨ds.map narrow,rfl⟩
  · intro c hc
    obtain ⟨d,hd,rfl⟩ := List.mem_map.mp hc
    exact (hsigns d hd).narrow

end text

end SoftwareFactory.StageA.Windows
