import SoftwareFactory.StageA.ProtectedRead

namespace SoftwareFactory.StageA.Windows

open Effect

def p4Name : WStr := wide "store"
def p11Name : WStr := wide "authority.db"
def maxP11Bytes : Nat := 4096

def p11CustodyProfile : String := "A3/P11/handle-bound-protected-read"

def p11FileReadSpec : OpenSpec := ⟨0x120081,0x3,1,0x200060,0x1040⟩

structure P11CustodyConfig where
  root : Metadata
  p1 : Metadata
  p4 : Metadata
  p11 : Metadata
  selectedCase : FixtureCase
  renderedP10Sha256 : Str
  p11Sha256 : Str

/-- The port has the calls of the P10 reader. -/
abbrev P11CustodyCalls (ω κ : Type) : Type := P10Calls ω κ

variable {ω κ α : Type}

/-- The condition of the search for the selected case. -/
def sameCase (selected item : FixtureCase) : Bool :=
  item.id == selected.id && item.latestDigest == selected.latestDigest &&
    item.generation == selected.generation && item.workerRuns == selected.workerRuns &&
    item.status == selected.status && item.state == selected.state &&
    item.oldDigest == selected.oldDigest && item.oldFiles == selected.oldFiles &&
    item.latestFiles == selected.latestFiles

def p11Object (config : P11CustodyConfig) (expected : Str) : ProtectedObject :=
  { profile := p11CustodyProfile, object := "P11"
    directoryObject := "P4", directoryName := p4Name
    fileName := p11Name, fileSpec := p11FileReadSpec
    root := config.root, p1 := config.p1, directory := config.p4, file := config.p11
    content := expected, digest := config.p11Sha256
    contentText := "P11 differs from selected case"
    digestText := "P11 digest differs from G2 seal"
    changedText := "P11 content changed" }

variable (b : BCrypt κ) (calls : P11CustodyCalls ω κ) (config : P11CustodyConfig)

/-- The canonical bytes of the selected case. -/
def trustedCase : Eff (Custody ω × κ) Thrown Str := do
  let cases ← onCrypto (standardOnly (fixtureCases b))
  match cases.find? (sameCase config.selectedCase) with
  | none =>
    fail .bindingFailure "P11" p11CustodyProfile "trusted-case" "selected case is not frozen"
  | some found =>
    match renderP11 found config.renderedP10Sha256 with
    | .error _ =>
      fail .bindingFailure "P11" p11CustodyProfile "trusted-case" "invalid rendered P10 digest"
    | .ok expected => pure expected

/-- The `try` block of `read_verified_p11` with calls at hand. -/
def readP11Body : Eff (Custody ω × κ) Thrown Str := do
  failIf (config.root.finalPath ≠ config.root.volumeGuidPath ∨
      config.p1.finalPath ≠ childFinalPath config.root.finalPath p1Name ∨
      config.p4.finalPath ≠ childFinalPath config.p1.finalPath p4Name ∨
      config.p11.finalPath ≠ childFinalPath config.p4.finalPath p11Name)
    .bindingFailure "P11" p11CustodyProfile "trusted-config" "invalid G2 P11 identity chain"
  let expected ← trustedCase b config
  failIf (expected = [] ∨ expected.length > maxP11Bytes) .bindingFailure "P11" p11CustodyProfile
    "trusted-config-hash" "P11 seal does not match canonical case bytes"
  let hash ← (p11Object config expected).checkedHash b expected "trusted-config-hash"
  failIf (hash ≠ config.p11Sha256) .bindingFailure "P11" p11CustodyProfile
    "trusted-config-hash" "P11 seal does not match canonical case bytes"
  Eff.modify fun s => ({ s.1 with held := [] },s.2)
  Eff.owning (release calls) ((p11Object config expected).read b calls)

/-- `WindowsP11CustodyReader::read_verified_p11`; `none` is a null pointer, which fails the
first check. -/
def readVerifiedP11 (calls : Option (P11CustodyCalls ω κ)) : Eff (Custody ω × κ) Thrown Str :=
  Eff.catching
    (match calls with
      | none =>
        fail .bindingFailure "P11" p11CustodyProfile "trusted-config"
          "invalid G2 P11 identity chain"
      | some calls => readP11Body b calls config)
    fun t =>
      Eff.raise (.observation (asObservation "P11" p11CustodyProfile "reader-exception"
        "non-standard C++ reader exception" t))

variable {b calls config}

theorem sameCase_eq {selected item : FixtureCase} (h : sameCase selected item = true) :
    item = selected := by
  simp only [sameCase,Bool.and_eq_true,beq_iff_eq] at h
  cases item
  cases selected
  simp_all

theorem trustedCase_calm (b : BCrypt κ) (config : P11CustodyConfig) :
    Calm (trustedCase b config : Eff (Custody ω × κ) Thrown Str) := by
  have hcases : Calm (onCrypto (standardOnly (fixtureCases b)) :
      Eff (Custody ω × κ) Thrown (List FixtureCase)) := fun _ => ⟨rfl,rfl⟩
  intro s
  obtain ⟨hlog,hheld⟩ := hcases s
  rw [trustedCase]
  rcases h : onCrypto (standardOnly (fixtureCases b)) s with ⟨t | cases,s'⟩ <;>
    rw [h] at hlog hheld
  · rw [Eff.bind_of_error h]
    exact ⟨hlog,hheld⟩
  · rw [Eff.bind_of_ok h,← hlog,← hheld]
    cases cases.find? (sameCase config.selectedCase) with
    | none => exact Calm.fail _ _ _ _ _ s'
    | some found =>
      dsimp only
      cases renderP11 found config.renderedP10Sha256 with
      | error e => exact Calm.fail _ _ _ _ _ s'
      | ok expected => exact ⟨rfl,rfl⟩

/-- The text is that of the selected case, and the case is a frozen one. -/
def Frozen (b : BCrypt κ) (config : P11CustodyConfig) (bytes : Str) : Prop :=
  (∃ cases k k',fixtureCases b k = (.ok cases,k') ∧ config.selectedCase ∈ cases) ∧
    renderP11 config.selectedCase config.renderedP10Sha256 = .ok bytes

theorem trustedCase_ok {s s' : Custody ω × κ} {expected : Str}
    (h : trustedCase b config s = (.ok expected,s')) : Frozen b config expected := by
  rw [trustedCase] at h
  obtain ⟨cases,s1,h1,h⟩ := Eff.bind_ok.mp h
  rcases hk : standardOnly (fixtureCases b) s.2 with ⟨r,k⟩
  rw [onCrypto,hk] at h1
  obtain ⟨rfl,rfl⟩ := Prod.mk.inj h1
  cases hfind : cases.find? (sameCase config.selectedCase) with
  | none =>
    rw [hfind] at h
    exact absurd h fail_ok.mp
  | some found =>
    obtain rfl := sameCase_eq (List.find?_some hfind)
    simp only [hfind] at h
    refine ⟨⟨cases,s.2,k,standardOnly_ok.mp hk,List.mem_of_find?_eq_some hfind⟩,?_⟩
    cases hrender : renderP11 config.selectedCase config.renderedP10Sha256 with
    | error e =>
      rw [hrender] at h
      exact absurd h fail_ok.mp
    | ok text =>
      rw [hrender] at h
      exact congrArg Except.ok (Except.ok.inj (Prod.mk.inj h).1)

/-- What has happened when the P11 record is returned. -/
def VerifiedP11 (b : BCrypt κ) (config : P11CustodyConfig) (bytes : Str)
    (work : List PortEvent) : Prop :=
  Frozen b config bytes ∧ (p11Object config bytes).Verified b bytes work

theorem Kept.mono {promised promised' : Str → List PortEvent → Prop} {s : Custody ω × κ}
    {r : Except Thrown Str × Custody ω × κ} (h : Kept promised s r)
    (himp : ∀ bytes work,promised bytes work → promised' bytes work) : Kept promised' s r := by
  obtain ⟨work,hlog,hall,hkept⟩ := h
  exact ⟨work,hlog,hall,fun bytes hbytes => himp bytes work (hkept bytes hbytes)⟩

theorem readP11Body_kept (b : BCrypt κ) (calls : P11CustodyCalls ω κ) (config : P11CustodyConfig)
    (s : Custody ω × κ) : Kept (VerifiedP11 b config) s (readP11Body b calls config s) := by
  rw [readP11Body]
  refine (Calm.failIf _ _ _ _ _ _).bind_kept fun _ s1 _ => ?_
  refine (trustedCase_calm b config).bind_kept fun expected s2 hexpected => ?_
  refine (Calm.failIf _ _ _ _ _ _).bind_kept fun _ s3 _ => ?_
  refine (ReaderLabels.checkedHash_calm _ b _ _).bind_kept fun hash s4 _ => ?_
  refine (Calm.failIf _ _ _ _ _ _).bind_kept fun _ s5 _ => ?_
  have hkept := (p11Object config expected).owning_kept b calls ({ s5.1 with held := [] },s5.2) rfl
  apply hkept.mono
  intro bytes work hverified
  obtain rfl : bytes = expected := hverified.content
  exact ⟨trustedCase_ok hexpected,hverified⟩

theorem readVerifiedP11_kept (b : BCrypt κ) (config : P11CustodyConfig)
    (calls : Option (P11CustodyCalls ω κ)) (s : Custody ω × κ) :
    Kept (VerifiedP11 b config) s (readVerifiedP11 b config calls s) := by
  cases calls with
  | none => exact catching_kept (Calm.fail_kept _ _ _ _ _ s)
  | some calls => exact catching_kept (readP11Body_kept b calls config s)

/-- A reader returns or throws an `ObservationFailure`. -/
theorem catching_observes {m : Eff (Custody ω × κ) Thrown Str}
    {g : Thrown → ObservationFailure} {s : Custody ω × κ} {t : Thrown}
    (h : (Eff.catching m (fun t => Eff.raise (.observation (g t))) s).1 = .error t) :
    ∃ f,t = .observation f := by
  rcases hm : m s with ⟨e | a,s'⟩
  · rw [Eff.catching_error hm] at h
    exact ⟨g e,(Except.error.inj h).symm⟩
  · rw [Eff.catching_ok hm] at h
    cases h

/-- A run of a reader from its start: it is kept, and what it throws is an observation. -/
def Guarded (promised : Str → List PortEvent → Prop)
    (run : Eff (Custody ω × κ) Thrown Str) : Prop :=
  ∀ w k,∃ work,
    (run ({ world := w },k)).2.1.log = work++(opened work).reverse.map PortEvent.close ∧
    work.all PortEvent.isWork = true ∧
    (∀ bytes,(run ({ world := w },k)).1 = .ok bytes → promised bytes work) ∧
    ∀ t,(run ({ world := w },k)).1 = .error t → ∃ f,t = .observation f

theorem Kept.guarded {promised : Str → List PortEvent → Prop}
    {run : Eff (Custody ω × κ) Thrown Str} (hkept : ∀ s,Kept promised s (run s))
    (hthrown : ∀ s t,(run s).1 = .error t → ∃ f,t = .observation f) : Guarded promised run := by
  intro w k
  obtain ⟨work,hlog,hall,hpromised⟩ := hkept ({ world := w },k)
  exact ⟨work,hlog,hall,hpromised,hthrown _⟩

/-- Whatever the calls of a reader do, it returns nothing but content that it has verified
between two looks at every node, throws nothing but observations, and at its end closes what
it opened, the last one first. -/
theorem protectedReaders_guarded (b : BCrypt κ) :
    (∀ (config : P10ReaderConfig) (calls : Option (P10Calls ω κ)),
      Guarded ((p10Object config).Verified b) (readVerifiedP10 b config calls)) ∧
    ∀ (config : P11CustodyConfig) (calls : Option (P11CustodyCalls ω κ)),
      Guarded (VerifiedP11 b config) (readVerifiedP11 b config calls) := by
  constructor
  · intro config calls
    exact Kept.guarded (readVerifiedP10_kept b config calls) fun s t h => catching_observes h
  · intro config calls
    exact Kept.guarded (readVerifiedP11_kept b config calls) fun s t h => catching_observes h

end SoftwareFactory.StageA.Windows
