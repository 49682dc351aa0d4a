import SoftwareFactory.StageA.HexText
import Mathlib.Data.Bool.AllAny

namespace SoftwareFactory.StageA

open Effect

variable {κ : Type}

/-- A provider that never fails and computes one function, whatever state it keeps. -/
structure BCrypt.Computes (b : BCrypt κ) (f : Str → Vector UInt8 32) : Prop where
  opens : ∀ k,(b.openAlgorithmProvider k).1 = true
  hashes : ∀ bytes k,(b.hashData bytes k).1 = some (f bytes)

/-- The provider after it has hashed a text. -/
def BCrypt.after (b : BCrypt κ) (bytes : Str) (k : κ) : κ :=
  (b.hashData bytes (b.openAlgorithmProvider k).2).2

theorem sha256_computes {b : BCrypt κ} {f : Str → Vector UInt8 32} (hb : b.Computes f)
    {bytes : Str} (h : bytes.length ≤ 4294967295) (k : κ) :
    sha256 b bytes k = (.ok (hexText (f bytes).toList),b.after bytes k) := by
  have hopen := hb.opens k
  have hhash := hb.hashes bytes (b.openAlgorithmProvider k).2
  rw [sha256,if_neg (by omega),Eff.bind_apply,Eff.step]
  simp only [hopen]
  rw [if_neg (by decide),Eff.bind_apply,Eff.step]
  simp only [hhash]
  rfl

/-- Text that a JSON string holds as it is. -/
def Plain (s : Str) : Prop := ∀ c ∈ s,0x20 ≤ c.toNat ∧ c ≠ '"' ∧ c ≠ '\\'

theorem quoted_plain {s : Str} (h : Plain s) : quoted s = .ok ("\""++s++"\"") := by
  have hcontrol : (s.any fun c => decide (c.toNat < 0x20)) = false := by
    rw [List.any_eq_false]
    intro c hc
    have := (h c hc).1
    simp only [decide_eq_true_eq]
    omega
  have hsame : (s.flatMap fun c => if c = '"' ∨ c = '\\' then ['\\',c] else [c]) = s := by
    induction s with
    | nil => rfl
    | cons c s ih =>
      obtain ⟨-,hquote,hslash⟩ := h c List.mem_cons_self
      rw [List.any_cons,Bool.or_eq_false_iff] at hcontrol
      rw [List.flatMap_cons,if_neg (by simp [hquote,hslash]),
        ih (fun d hd => h d (List.mem_cons_of_mem _ hd)) hcontrol.2]
      rfl
  rw [quoted,hcontrol,hsame]
  rfl

theorem plain_of_hex64 {s : Str} (h : hex64 s = true) : Plain s := by
  rw [hex64,Bool.and_eq_true,List.all_eq_true] at h
  intro c hc
  have hd := h.2 c hc
  rw [isHexDigit] at hd
  refine ⟨?_,?_,?_⟩
  · simp only [Bool.or_eq_true,Bool.and_eq_true,decide_eq_true_eq,Char.le_def,
      UInt32.le_iff_toNat_le] at hd
    change 32 ≤ c.val.toNat
    rcases hd with ⟨hd,-⟩ | ⟨hd,-⟩
    · exact le_trans (by decide) hd
    · exact le_trans (by decide) hd
  · intro heq
    subst heq
    exact absurd hd (by decide)
  · intro heq
    subst heq
    exact absurd hd (by decide)

/-- The record of a case whose texts need no escape. -/
theorem renderP11_plain {c : FixtureCase} {h : Str} (hh : hex64 h = true) (hid : Plain c.id)
    (hlatest : Plain c.latestDigest) :
    renderP11 c h =
      .ok ("\x7b\"schema_version\":1,\"marker\":\"S1PF-260926-A-STAGE-A-V1\",\"p10_sha256\":"++
        ("\""++h++"\"")++",\"case_id\":"++("\""++c.id++"\"")++",\"latest_digest\":"++
        ("\""++c.latestDigest++"\"")++",\"generation\":"++decimal c.generation.toNat++
        ",\"worker_runs\":"++decimal c.workerRuns.toNat++
        ",\"terminal\":"++(if c.status = "FAILED" then "true" else "false")++"\x7d") := by
  rw [renderP11,quoted_plain (plain_of_hex64 hh),quoted_plain hid,quoted_plain hlatest]
  simp only [hh]
  rfl

/-- How long that record is. -/
theorem renderP11_length {c : FixtureCase} {h p : Str} (hh : hex64 h = true) (hid : Plain c.id)
    (hlatest : hex64 c.latestDigest = true) (hp : renderP11 c h = .ok p) :
    p.length = 273+c.id.length+(decimal c.generation.toNat).length+
      (decimal c.workerRuns.toNat).length+(if c.status = "FAILED" then 4 else 5) := by
  rw [renderP11_plain hh hid (plain_of_hex64 hlatest)] at hp
  rw [← Except.ok.inj hp]
  rw [hex64,Bool.and_eq_true,decide_eq_true_eq] at hh hlatest
  simp only [List.length_append,hh.1,hlatest.1]
  split_ifs <;> simp <;> omega

/-- The manifest when the provider computes `f`. -/
def manifestText (f : Str → Vector UInt8 32) (manifest : Str) : List (Str × Str) → Str
  | [] => manifest
  | (name,bytes)::files =>
    manifestText f (manifest++name++"\tregular\t"++decimal bytes.length++"\t"++
      hexText (f bytes).toList++"\n") files

def setDigest (f : Str → Vector UInt8 32) (files : FileMap) : Str :=
  hexText (f (manifestText f "S1PF-MUTABLE-SET-V1\n" files.entries)).toList

/-- How much the files add to the manifest. -/
def manifestLength : List (Str × Str) → Nat
  | [] => 0
  | (name,bytes)::files =>
    name.length+(decimal bytes.length).length+75+manifestLength files

theorem length_manifestText (f : Str → Vector UInt8 32) (manifest : Str)
    (files : List (Str × Str)) :
    (manifestText f manifest files).length = manifest.length+manifestLength files := by
  induction files generalizing manifest with
  | nil => rfl
  | cons p files ih =>
    rw [manifestText,ih,manifestLength]
    simp only [List.length_append,length_hexText,Vector.length_toList]
    simp
    omega

/-- Files of which neither a name nor a size stops the digest. -/
structure Digestible (files : FileMap) : Prop where
  names : ∀ p ∈ files.entries,
    ¬ (p.1 = [] ∨ p.1 = "." ∨ p.1 = ".." ∨ p.1.any (· ∈ nameBreaks))
  sizes : ∀ p ∈ files.entries,p.2.length ≤ 4294967295
  manifest : 20+manifestLength files.entries ≤ 4294967295

section computing

variable {b : BCrypt κ} {f : Str → Vector UInt8 32}

theorem manifestFrom_computes (hb : b.Computes f) {files : List (Str × Str)}
    (hnames : ∀ p ∈ files,¬ (p.1 = [] ∨ p.1 = "." ∨ p.1 = ".." ∨ p.1.any (· ∈ nameBreaks)))
    (hsizes : ∀ p ∈ files,p.2.length ≤ 4294967295) (manifest : Str) (k : κ) :
    ∃ k',manifestFrom b manifest files k = (.ok (manifestText f manifest files),k') := by
  induction files generalizing manifest k with
  | nil => exact ⟨k,rfl⟩
  | cons p files ih =>
    have h1 := sha256_computes hb (hsizes p List.mem_cons_self) k
    rw [manifestFrom,if_neg (hnames p List.mem_cons_self),Eff.bind_of_ok h1]
    exact ih (fun q hq => hnames q (List.mem_cons_of_mem _ hq))
      (fun q hq => hsizes q (List.mem_cons_of_mem _ hq)) _ _

theorem mutableDigest_computes (hb : b.Computes f) {files : FileMap} (h : Digestible files)
    (k : κ) : ∃ k',mutableDigest b files k = (.ok (setDigest f files),k') := by
  obtain ⟨k1,h1⟩ := manifestFrom_computes hb h.names h.sizes "S1PF-MUTABLE-SET-V1\n" k
  have hlength : (manifestText f "S1PF-MUTABLE-SET-V1\n" files.entries).length ≤ 4294967295 := by
    rw [length_manifestText]
    exact h.manifest
  rw [mutableDigest,Eff.bind_of_ok h1]
  exact ⟨_,sha256_computes hb hlength k1⟩

/-- A frozen case with the digests that `f` gives its files. -/
def digested (f : Str → Vector UInt8 32) (c : FixtureCase) : FixtureCase :=
  { c with oldDigest := setDigest f c.oldFiles, latestDigest := setDigest f c.latestFiles }

theorem withDigests_computes (hb : b.Computes f) {c : FixtureCase} (hold : Digestible c.oldFiles)
    (hlatest : Digestible c.latestFiles) (k : κ) :
    ∃ k',withDigests b c k = (.ok (digested f c),k') := by
  obtain ⟨k1,h1⟩ := mutableDigest_computes hb hold k
  obtain ⟨k2,h2⟩ := mutableDigest_computes hb hlatest k1
  rw [withDigests,Eff.bind_of_ok h1,Eff.bind_of_ok h2]
  exact ⟨k2,rfl⟩

theorem frozenCases_ne_nil : frozenCases ≠ [] := List.cons_ne_nil _ _

theorem digestible_frozen : ∀ c ∈ frozenCases,Digestible c.oldFiles ∧ Digestible c.latestFiles := by
  have hcheck : ∀ c ∈ frozenCases,∀ m ∈ [c.oldFiles,c.latestFiles],
      (∀ p ∈ m.entries,
        ¬ (p.1 = [] ∨ p.1 = "." ∨ p.1 = ".." ∨ p.1.any (· ∈ nameBreaks)) ∧
        p.2.length ≤ 4294967295) ∧
      20+manifestLength m.entries ≤ 4294967295 := by decide +kernel
  have hall : ∀ c ∈ frozenCases,∀ m ∈ [c.oldFiles,c.latestFiles],Digestible m := by
    intro c hc m hm
    obtain ⟨hentries,hmanifest⟩ := hcheck c hc m hm
    exact ⟨fun p hp => (hentries p hp).1,fun p hp => (hentries p hp).2,hmanifest⟩
  exact fun c hc => ⟨hall c hc _ (by simp),hall c hc _ (by simp)⟩

/-- `fixture_cases()` under a provider that computes `f`. -/
theorem fixtureCases_computes (hb : b.Computes f) (k : κ) :
    ∃ k',fixtureCases b k = (.ok (frozenCases.map (digested f)),k') := by
  have hall := digestible_frozen
  rw [fixtureCases]
  generalize frozenCases = cases at hall
  induction cases generalizing k with
  | nil => exact ⟨k,rfl⟩
  | cons c cases ih =>
    obtain ⟨hold,hlatest⟩ := hall c List.mem_cons_self
    obtain ⟨k1,h1⟩ := withDigests_computes hb hold hlatest k
    obtain ⟨k2,h2⟩ := ih k1 fun c' hc' => hall c' (List.mem_cons_of_mem _ hc')
    rw [List.mapM_cons,Eff.bind_of_ok h1,Eff.bind_of_ok h2]
    exact ⟨k2,rfl⟩

end computing

end SoftwareFactory.StageA
