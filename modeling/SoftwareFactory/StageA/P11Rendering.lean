import SoftwareFactory.Lib.Form
import SoftwareFactory.Lib.Quote
import SoftwareFactory.StageA.FrozenCases

namespace SoftwareFactory.StageA

def p11Header : Str := "\x7b\"schema_version\":1,\"marker\":\"S1PF-260926-A-STAGE-A-V1\",\"p10_sha256\":"
def p11CaseId : Str := ",\"case_id\":"
def p11Latest : Str := ",\"latest_digest\":"
def p11Generation : Str := ",\"generation\":"
def p11WorkerRuns : Str := ",\"worker_runs\":"
def p11Terminal : Str := ",\"terminal\":"

/-- A quoted string behind a fixed text. -/
def readField (key s : Str) : Option (Str × Str) :=
  if (key++['"']) <+: s then Quote.read '"' '\\' false (s.drop (key++['"']).length) else none

/-- The three strings of a record, un-escaped. -/
def readP11 (s : Str) : Option (Str × Str × Str) := do
  let (p10,s) ← readField p11Header s
  let (caseId,s) ← readField p11CaseId s
  let (latest,_) ← readField p11Latest s
  return (p10,caseId,latest)

/-- A text without control characters, quoted. -/
def quotedText (s : Str) : Str := '"'::(Quote.escape '"' '\\' s++['"'])

def NoControl (s : Str) : Prop := ∀ c ∈ s,0x20 ≤ c.toNat

theorem quoted_eq (s : Str) : quoted s =
    if s.any fun c => decide (c.toNat < 0x20) then .error ⟨.invalidArgument,"control character"⟩
    else .ok (quotedText s) := rfl

theorem any_control {s : Str} :
    (s.any fun c => decide (c.toNat < 0x20)) = true ↔ ∃ c ∈ s,c.toNat < 0x20 := by
  simp

theorem not_noControl {s : Str} : ¬ NoControl s ↔ ∃ c ∈ s,c.toNat < 0x20 := by
  simp [NoControl]

theorem quoted_ok {s out : Str} : quoted s = .ok out ↔ NoControl s ∧ out = quotedText s := by
  rw [quoted_eq]
  by_cases h : (s.any fun c => decide (c.toNat < 0x20)) = true
  · have hnot : ¬ NoControl s := not_noControl.mpr (any_control.mp h)
    rw [if_pos h]
    simp only [reduceCtorEq,hnot,false_and]
  · have hplain : NoControl s :=
      not_not.mp fun hnot => h (any_control.mpr (not_noControl.mp hnot))
    rw [if_neg h]
    simp only [Except.ok.injEq,hplain,true_and,eq_comm]

theorem quoted_error {s : Str} : (∃ e,quoted s = .error e) ↔ ¬ NoControl s := by
  cases h : quoted s with
  | ok out => simp [(quoted_ok.mp h).1]
  | error e =>
    simp only [Except.error.injEq,exists_eq',true_iff]
    intro hplain
    rw [quoted_ok.mpr ⟨hplain,rfl⟩] at h
    cases h

theorem readField_quoted (key s rest : Str) :
    readField key (key++(quotedText s++rest)) = some (s,rest) := by
  have htext : key++(quotedText s++rest) =
      (key++['"'])++(Quote.escape '"' '\\' s++ '"'::rest) := by
    simp [quotedText]
  rw [readField,htext,if_pos (List.prefix_append _ _),List.drop_left]
  exact Quote.read_escape (by decide) s rest

theorem noControl_of_hex64 {s : Str} (h : hex64 s = true) : NoControl s :=
  fun c hc => (plain_of_hex64 h c hc).1

/-- What stands behind the strings of a record. -/
def p11Rest (f : FixtureCase) : Str :=
  p11Generation++(decimal f.generation.toNat++(p11WorkerRuns++(decimal f.workerRuns.toNat++
    (p11Terminal++((if f.status = "FAILED" then "true" else "false")++"\x7d".toList)))))

/-- The record of a case. -/
def p11Text (f : FixtureCase) (p : Str) : Str :=
  p11Header++(quotedText p++(p11CaseId++(quotedText f.id++
    (p11Latest++(quotedText f.latestDigest++p11Rest f)))))

theorem renderP11_ok {f : FixtureCase} {p out : Str} : renderP11 f p = .ok out ↔
    hex64 p = true ∧ NoControl f.id ∧ NoControl f.latestDigest ∧ out = p11Text f p := by
  cases hhex : hex64 p with
  | false =>
    rw [renderP11,hhex]
    simp only [Bool.false_eq_true,false_and,iff_false]
    intro h
    cases h
  | true =>
    have hp10 : quoted p = .ok (quotedText p) := quoted_ok.mpr ⟨noControl_of_hex64 hhex,rfl⟩
    rw [renderP11,hhex,hp10]
    cases hid : quoted f.id with
    | error e =>
      have hnot := quoted_error.mp ⟨e,hid⟩
      simp only [hnot,false_and,and_false,iff_false]
      intro h
      cases h
    | ok caseId =>
      obtain ⟨hplain,rfl⟩ := quoted_ok.mp hid
      cases hlatest : quoted f.latestDigest with
      | error e =>
        have hnot := quoted_error.mp ⟨e,hlatest⟩
        simp only [hnot,false_and,and_false,iff_false]
        intro h
        cases h
      | ok latest =>
        obtain ⟨hplain',rfl⟩ := quoted_ok.mp hlatest
        simp only [hplain,hplain',true_and]
        change Except.ok _ = Except.ok out ↔ out = _
        rw [Except.ok.injEq,eq_comm]
        unfold p11Text p11Rest p11Header p11CaseId p11Latest p11Generation p11WorkerRuns p11Terminal
        simp only [List.append_assoc]

/-- The numbers and the flag behind the strings can be read off them. -/
theorem p11Rest_inj {f g : FixtureCase} (h : p11Rest f = p11Rest g) :
    f.generation = g.generation ∧ f.workerRuns = g.workerRuns ∧
      (f.status = "FAILED" ↔ g.status = "FAILED") := by
  have hdigits (n : Nat) : ',' ∉ decimal n := fun hc => absurd (decimal_digit hc) (by decide)
  obtain ⟨runs,hruns⟩ : ∃ k,p11WorkerRuns = ','::k := ⟨_,rfl⟩
  obtain ⟨terminal,hterminal⟩ : ∃ k,p11Terminal = ','::k := ⟨_,rfl⟩
  rw [p11Rest,p11Rest,hruns,hterminal] at h
  obtain ⟨hgeneration,h⟩ := Form.append_mark_inj (hdigits _) (hdigits _)
    (List.append_cancel_left h)
  obtain ⟨hworkers,h⟩ := Form.append_mark_inj (hdigits _) (hdigits _)
    (List.append_cancel_left h)
  have hflag := List.append_cancel_right (List.append_cancel_left h)
  refine ⟨UInt32.toNat_inj.mp (decimal_inj hgeneration),
    UInt32.toNat_inj.mp (decimal_inj hworkers),?_⟩
  by_cases hf : f.status = "FAILED"
  · by_cases hg : g.status = "FAILED"
    · exact iff_of_true hf hg
    · rw [if_pos hf,if_neg hg] at hflag
      exact absurd hflag (by decide)
  · by_cases hg : g.status = "FAILED"
    · rw [if_neg hf,if_pos hg] at hflag
      exact absurd hflag (by decide)
    · exact iff_of_false hf hg

theorem quotedText_inj {s t x y : Str} (h : quotedText s++x = quotedText t++y) :
    s = t ∧ x = y := by
  have hs := readField_quoted [] s x
  rw [h,readField_quoted] at hs
  obtain ⟨hst,hxy⟩ := Prod.mk.inj (Option.some.inj hs)
  exact ⟨hst.symm,hxy.symm⟩

theorem p11Text_inj {f g : FixtureCase} {p q : Str} (h : p11Text f p = p11Text g q) :
    p = q ∧ f.id = g.id ∧ f.latestDigest = g.latestDigest ∧ p11Rest f = p11Rest g := by
  rw [p11Text,p11Text] at h
  obtain ⟨hp,h⟩ := quotedText_inj (List.append_cancel_left h)
  obtain ⟨hid,h⟩ := quotedText_inj (List.append_cancel_left h)
  obtain ⟨hlatest,h⟩ := quotedText_inj (List.append_cancel_left h)
  exact ⟨hp,hid,hlatest,h⟩

theorem readP11_text (f : FixtureCase) (p : Str) :
    readP11 (p11Text f p) = some (p,f.id,f.latestDigest) := by
  rw [readP11,p11Text,readField_quoted]
  simp only [Option.bind_eq_bind,Option.bind_some,readField_quoted]
  rfl

/-- Two records are the same text exactly if they say the same, a record is refused exactly for
a hash or a sign that cannot stand in it, and its strings can be read back. -/
theorem renderP11_unambiguous :
    (∀ f g p q out out',renderP11 f p = .ok out → renderP11 g q = .ok out' →
      (out = out' ↔ p = q ∧ f.id = g.id ∧ f.latestDigest = g.latestDigest ∧
        f.generation = g.generation ∧ f.workerRuns = g.workerRuns ∧
        (f.status = "FAILED" ↔ g.status = "FAILED"))) ∧
    (∀ f p,(∃ e,renderP11 f p = .error e) ↔
      ¬ HexDigest p ∨ (∃ c ∈ f.id,c.toNat < 0x20) ∨ ∃ c ∈ f.latestDigest,c.toNat < 0x20) ∧
    ∀ f p out,renderP11 f p = .ok out → readP11 out = some (p,f.id,f.latestDigest) := by
  refine ⟨?_,?_,?_⟩
  · intro f g p q out out' h h'
    obtain ⟨-,-,-,rfl⟩ := renderP11_ok.mp h
    obtain ⟨-,-,-,rfl⟩ := renderP11_ok.mp h'
    constructor
    · intro heq
      obtain ⟨hp,hid,hlatest,hrest⟩ := p11Text_inj heq
      exact ⟨hp,hid,hlatest,p11Rest_inj hrest⟩
    · intro hall
      obtain ⟨hp,hid,hlatest,hgeneration,hruns,hstatus⟩ := hall
      have hrest : p11Rest f = p11Rest g := by
        simp only [p11Rest,hgeneration,hruns,hstatus]
      rw [p11Text,p11Text,hp,hid,hlatest,hrest]
  · intro f p
    rw [← not_noControl,← not_noControl,← not_and_or,← not_and_or,← hex64_iff]
    cases hrun : renderP11 f p with
    | ok out =>
      obtain ⟨hp,hid,hlatest,-⟩ := renderP11_ok.mp hrun
      simp [hp,hid,hlatest]
    | error e =>
      simp only [Except.error.injEq,exists_eq',true_iff]
      intro hall
      rw [renderP11_ok.mpr ⟨hall.1,hall.2.1,hall.2.2,rfl⟩] at hrun
      cases hrun
  · intro f p out h
    obtain ⟨-,-,-,rfl⟩ := renderP11_ok.mp h
    exact readP11_text f p

end SoftwareFactory.StageA
