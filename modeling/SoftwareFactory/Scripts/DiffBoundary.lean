import SoftwareFactory.Scripts.DiffGate
import Mathlib.Data.List.Dedup

namespace SoftwareFactory.DiffGate

/-- The protected patterns that do not begin with a dot. -/
def visiblePatterns : List (List Char) :=
  protectedRootPatterns.filter fun pattern => pattern.head? != some '.'

def matchesPattern (f pattern : List Char) : Bool :=
  Fnmatch.fnmatch f pattern || f == pattern ||
    (pattern.getLast? == some '/' && decide (pattern <+: f))

theorem matchesAnyPattern_iff {f : List Char} {patterns : List (List Char)} :
    matchesAnyPattern f patterns = true ↔ ∃ p ∈ patterns,matchesPattern f p = true :=
  List.any_eq_true

theorem matchesPattern_literal {f p : List Char} (hp : Fnmatch.Literal p)
    (hl : p.getLast? ≠ some '/') : matchesPattern f p = true ↔ f = p := by
  have hl' : (p.getLast? == some '/') = false := by simpa using hl
  rw [matchesPattern,hl',Bool.false_and,Bool.or_false,Bool.or_eq_true,Fnmatch.fnmatch_literal hp]
  simp

theorem matchesPattern_stars {f p : List Char} (hp : Fnmatch.Literal p) (n : Nat) :
    matchesPattern f (p++List.replicate (n+1) '*') = true ↔ p <+: f := by
  have hlast : (p++List.replicate (n+1) '*').getLast? = some '*' := by
    rw [List.replicate_succ',← List.append_assoc,List.getLast?_concat]
  rw [matchesPattern,hlast,Bool.or_eq_true,Bool.or_eq_true,Fnmatch.fnmatch_stars hp]
  constructor
  · intro hcase
    rcases hcase with (h | h) | h
    · exact h
    · rw [beq_iff_eq.mp h]
      exact List.prefix_append _ _
    · simp at h
  · intro h
    exact .inl (.inl h)

/-- The files and the directories that the visible patterns protect. -/
def visibleFiles : List (List Char) :=
  ["pyproject.toml","package.json","package-lock.json","apis.txt","RULES.md",
    "specs/TEMPLATE.md"].map String.toList

def visibleDirectories : List (List Char) := ["orchestrator/","scripts/"].map String.toList

theorem visibleFiles_literal : ∀ p ∈ visibleFiles,Fnmatch.Literal p ∧ p.getLast? ≠ some '/' := by
  have h : ∀ p ∈ visibleFiles,'*' ∉ p ∧ '?' ∉ p ∧ '[' ∉ p ∧ p.getLast? ≠ some '/' := by decide
  intro p hp
  obtain ⟨hstar,hmark,hopen,hlast⟩ := h p hp
  exact ⟨Fnmatch.literal_of_not_mem hstar hmark hopen,hlast⟩

theorem visibleDirectories_literal : ∀ d ∈ visibleDirectories,Fnmatch.Literal d := by
  have h : ∀ d ∈ visibleDirectories,'*' ∉ d ∧ '?' ∉ d ∧ '[' ∉ d := by decide
  intro d hd
  obtain ⟨hstar,hmark,hopen⟩ := h d hd
  exact Fnmatch.literal_of_not_mem hstar hmark hopen

theorem visible_iff {f : List Char} :
    matchesAnyPattern f visiblePatterns = true ↔
      f ∈ visibleFiles ∨ ∃ d ∈ visibleDirectories,d <+: f := by
  have hsplit : ∀ p ∈ visiblePatterns,
      p ∈ visibleFiles ∨ ∃ d ∈ visibleDirectories,p = d++['*','*'] := by decide
  have hfiles : ∀ p ∈ visibleFiles,p ∈ visiblePatterns := by decide
  have hdirs : ∀ d ∈ visibleDirectories,d++['*','*'] ∈ visiblePatterns := by decide
  rw [matchesAnyPattern_iff]
  constructor
  · intro h
    obtain ⟨p,hp,hm⟩ := h
    rcases hsplit p hp with hfile | ⟨d,hd,rfl⟩
    · obtain ⟨hlit,hlast⟩ := visibleFiles_literal p hfile
      rw [(matchesPattern_literal hlit hlast).mp hm]
      exact .inl hfile
    · exact .inr ⟨d,hd,(matchesPattern_stars (visibleDirectories_literal d hd) 1).mp hm⟩
  · intro h
    rcases h with hf | ⟨d,hd,hpre⟩
    · obtain ⟨hlit,hlast⟩ := visibleFiles_literal f hf
      exact ⟨f,hfiles f hf,(matchesPattern_literal hlit hlast).mpr rfl⟩
    · exact ⟨_,hdirs d hd,(matchesPattern_stars (visibleDirectories_literal d hd) 1).mpr hpre⟩

theorem normalizePath_head (p : List Char) :
    (normalizePath p).head? ≠ some '.' ∧ (normalizePath p).head? ≠ some '/' := by
  have h := List.head?_dropWhile_not (fun c => c == '.' || c == '/')
    (PyText.stripBy PyText.isSpace (PyText.replace p ['\\'] ['/']))
  rw [normalizePath]
  constructor <;> intro hh <;> rw [hh] at h <;> simp at h

/-- A front that normalisation does not touch. -/
def Settled (x : List Char) : Prop :=
  '\\' ∉ x ∧ x.head?.any (fun c => !(PyText.isSpace c || c == '.' || c == '/')) ∧
    x.getLast?.any fun c => !PyText.isSpace c

instance (x : List Char) : Decidable (Settled x) := inferInstanceAs (Decidable (_ ∧ _))

theorem Settled.normalizePath {x : List Char} (h : Settled x) (r : List Char) :
    ∃ r',normalizePath (x++r) = x++r' := by
  obtain ⟨hback,hhead,hlast⟩ := h
  obtain ⟨c,hc,hcp⟩ := (Option.any_eq_true _ _).mp hhead
  obtain ⟨d,hd,hdp⟩ := (Option.any_eq_true _ _).mp hlast
  simp only [Bool.not_eq_true',Bool.or_eq_false_iff] at hcp hdp
  have hmap : x.map (fun c => if c = '\\' then '/' else c) = x := by
    have hne (c : Char) (hc : c ∈ x) : c ≠ '\\' := fun h => hback (h ▸ hc)
    rw [List.map_congr_left fun c hc => if_neg (hne c hc),List.map_id']
  obtain ⟨r',hr'⟩ := PyText.stripBy_append hc hcp.1.1 hd hdp
  refine ⟨r',?_⟩
  rw [DiffGate.normalizePath,PyText.replace_char,List.map_append,hmap,hr']
  cases x with
  | nil => simp at hc
  | cons y ys =>
    obtain rfl := Option.some.inj hc
    rw [List.cons_append,List.dropWhile_cons,if_neg (by simp [hcp])]

/-- Every other protected path stays one. -/
theorem visible_kept {p : List Char} (h : matchesAnyPattern p visiblePatterns = true) :
    matchesAnyPattern (normalizePath p) visiblePatterns = true := by
  have hfiles : ∀ f ∈ visibleFiles,normalizePath f = f := by decide
  have hdirs : ∀ d ∈ visibleDirectories,Settled d := by decide
  rcases visible_iff.mp h with hf | ⟨d,hd,r,rfl⟩
  · rw [hfiles p hf]
    exact h
  · obtain ⟨r',hr'⟩ := (hdirs d hd).normalizePath r
    rw [hr']
    exact visible_iff.mpr (.inr ⟨d,hd,List.prefix_append d r'⟩)

theorem violation_eq_none_iff {allowed forbidden : List (List Char)} {f : List Char} :
    violation allowed forbidden f = none ↔ isBytecode f = true ∨
      matchesAnyPattern f protectedRootPatterns = false ∧ matchesAnyPattern f forbidden = false ∧
        (allowed = [] ∨ matchesAnyPattern f allowed = true) := by
  rw [violation]
  split_ifs with hb hp hf ha <;> simp_all [or_iff_not_imp_left]

theorem validateDiff_iff {spec : Option (List Char)} {git : GitOutputs} :
    (validateDiff spec git).1 = true ↔ ∀ f ∈ getModifiedFiles git,
      violation (parseSpecBoundaries spec).1 (parseSpecBoundaries spec).2 f = none := by
  rw [validateDiff]
  obtain ⟨allowed,forbidden⟩ := parseSpecBoundaries spec
  simp only [List.isEmpty_iff,List.filterMap_eq_nil_iff]

/-- No path is lost on the way from the outputs to the checks. -/
theorem mem_getModifiedFiles {git : GitOutputs} {f : List Char} :
    f ∈ getModifiedFiles git ↔ ∃ raw ∈ git.paths,normalizePath raw = f := by
  rw [getModifiedFiles,List.mem_filter,List.mem_insertionSort,List.mem_dedup,List.mem_map]
  constructor
  · exact fun h => h.1
  · intro hparts
    obtain ⟨raw,hraw,rfl⟩ := hparts
    refine ⟨⟨raw,hraw,rfl⟩,?_⟩
    simp only [Bool.not_eq_true',decide_eq_false_iff_not]
    intro hparts
    obtain ⟨t,ht⟩ := hparts
    exact (normalizePath_head raw).1 (by rw [← ht]; rfl)

/-- The lines of an output of git. -/
def gitLines (stdout : String) : List (List Char) := PyText.split ['\n'] stdout.toList

/-- A path that git printed without quotes; in a status line it has no blank either. -/
structure Unquoted (p : List Char) : Prop where
  ne_nil : p ≠ []
  no_quote : p.head? ≠ some '"'

/-- Git reports the path as changed: in the diff that is read, in a status line, or as one
side of a rename in a status line. -/
inductive Reported (git : GitOutputs) : List Char → Prop where
  | changed {p : List Char} (h : p ∈ gitLines git.diff.stdout) (hp : Unquoted p) : Reported git p
  | status {x y : Char} {p : List Char} (h : x::y:: ' '::p ∈ gitLines git.status.stdout)
      (hp : Unquoted p) (hblank : ' ' ∉ p) : Reported git p
  | renamedFrom {x y : Char} {old new : List Char}
      (h : x::y:: ' '::(old++" -> ".toList++new) ∈ gitLines git.status.stdout)
      (hr : x = 'R' ∨ y = 'R') (hp : Unquoted old) (hblank : ' ' ∉ old) : Reported git old
  | renamedTo {x y : Char} {old new : List Char}
      (h : x::y:: ' '::(old++" -> ".toList++new) ∈ gitLines git.status.stdout)
      (hp : Unquoted new) (hblank : ' ' ∉ new) : Reported git new

/-- The gate lets through only what the spec allows exactly if the spec yields an allowed path,
or every modified path is bytecode, or one of them is stopped by another rule. -/
theorem scope_enforced_iff (spec : Option (List Char)) (git : GitOutputs) :
    ((validateDiff spec git).1 = true → ∀ f ∈ getModifiedFiles git,isBytecode f = false →
      matchesAnyPattern f (parseSpecBoundaries spec).1 = true ∧
        matchesAnyPattern f (parseSpecBoundaries spec).2 = false) ↔
    (parseSpecBoundaries spec).1 ≠ [] ∨
    (∀ f ∈ getModifiedFiles git,isBytecode f = true) ∨
    ∃ f ∈ getModifiedFiles git,isBytecode f = false ∧
      (matchesAnyPattern f protectedRootPatterns = true ∨
        matchesAnyPattern f (parseSpecBoundaries spec).2 = true) := by
  rw [validateDiff_iff]
  constructor
  · intro h
    by_contra hno
    simp only [not_or,not_not] at hno
    obtain ⟨hempty,hbyte,hstopped⟩ := hno
    push Not at hbyte
    obtain ⟨f,hf,hb⟩ := hbyte
    have hpass : ∀ g ∈ getModifiedFiles git,
        violation (parseSpecBoundaries spec).1 (parseSpecBoundaries spec).2 g = none := by
      intro g hg
      rw [violation_eq_none_iff]
      by_cases hgb : isBytecode g = true
      · exact .inl hgb
      · right
        refine ⟨?_,?_,.inl hempty⟩ <;> by_contra hm
        · exact hstopped ⟨g,hg,by simpa using hgb,.inl (by simpa using hm)⟩
        · exact hstopped ⟨g,hg,by simpa using hgb,.inr (by simpa using hm)⟩
    have hallowed := (h hpass f hf (by simpa using hb)).1
    rw [hempty] at hallowed
    exact absurd hallowed (by simp [matchesAnyPattern])
  · intro hcond hpass f hf hb
    have hnone := violation_eq_none_iff.mp (hpass f hf)
    simp only [hb,Bool.false_eq_true,false_or] at hnone
    obtain ⟨hprot,hforb,hallowed⟩ := hnone
    refine ⟨?_,hforb⟩
    rcases hcond with hne | hbyte | ⟨g,hg,hgb,hstop⟩
    · exact hallowed.resolve_left hne
    · rw [hbyte f hf] at hb
      exact absurd hb (by decide)
    · have hgnone := violation_eq_none_iff.mp (hpass g hg)
      simp only [hgb,Bool.false_eq_true,false_or] at hgnone
      rcases hstop with hstop | hstop
      · rw [hgnone.1] at hstop
        exact absurd hstop (by decide)
      · rw [hgnone.2.1] at hstop
        exact absurd hstop (by decide)

/-- A branch that changes one file, under a spec whose section 1 is not recognised. -/
def appCommit : GitOutputs := ⟨⟨0,"src/app.py\n",""⟩,⟨0,"",""⟩,⟨0,"",""⟩⟩

def looseSpec : List Char := "### 1) Scope and Boundaries\n* Allowed files:\n  * `docs/a.md`\n".toList

theorem looseSpec_passes : ¬ ∀ spec git,(validateDiff spec git).1 = true →
    ∀ f ∈ getModifiedFiles git,isBytecode f = false →
      matchesAnyPattern f (parseSpecBoundaries spec).1 = true ∧
        matchesAnyPattern f (parseSpecBoundaries spec).2 = false := by
  intro h
  have hpass : (validateDiff (some looseSpec) appCommit).1 = true := by
    unfold looseSpec
    rw [String.toList_ofList]
    decide +kernel
  have hmem : "src/app.py".toList ∈ getModifiedFiles appCommit := by decide +kernel
  have hallowed := (h (some looseSpec) appCommit hpass _ hmem (by decide +kernel)).1
  have hno : matchesAnyPattern "src/app.py".toList (parseSpecBoundaries (some looseSpec)).1 =
    false := by decide +kernel
  rw [hno] at hallowed
  exact absurd hallowed (by decide)

end SoftwareFactory.DiffGate
