import SoftwareFactory.Lib.TextFields
import SoftwareFactory.Scripts.DiffBoundary
import Mathlib.Data.Bool.AllAny

namespace SoftwareFactory.DiffGate

open PyText

/-- One of the two letters of a status entry. -/
inductive StatusLetter where
  | unmodified
  | modified
  | typeChanged
  | added
  | deleted
  | renamed
  | copied
  | unmerged
  | untracked
  | ignored
  deriving DecidableEq, Repr

def StatusLetter.char : StatusLetter → Char
  | .unmodified => ' '
  | .modified => 'M'
  | .typeChanged => 'T'
  | .added => 'A'
  | .deleted => 'D'
  | .renamed => 'R'
  | .copied => 'C'
  | .unmerged => 'U'
  | .untracked => '?'
  | .ignored => '!'

def StatusLetter.moves (l : StatusLetter) : Bool := l == .renamed || l == .copied

/-- A path that needs no quotes, without an arrow and without a dot or a slash in front. -/
structure PlainPath where
  chars : List Char
  shown : ∃ c ∈ chars,isSpace c = false
  plain : ∀ c ∈ chars,isLineBreak c = false ∧ c ≠ '"'
  no_arrow : ¬ ['-','>'] <:+: chars
  no_lead : chars.head? ≠ some '.' ∧ chars.head? ≠ some '/'

/-- An entry of `git status --porcelain`; a rename and a copy have a source. -/
structure StatusEntry where
  x : StatusLetter
  y : StatusLetter
  source : Option PlainPath
  path : PlainPath
  reported : x ≠ .unmodified ∨ y ≠ .unmodified
  moved : source.isSome = (x.moves || y.moves)

def arrow : List Char := " -> ".toList

/-- `PATH` or `OLD -> NEW`. -/
def StatusEntry.body (e : StatusEntry) : List Char :=
  match e.source with
  | none => e.path.chars
  | some old => old.chars++(arrow++e.path.chars)

def StatusEntry.line (e : StatusEntry) : List Char := e.x.char::e.y.char:: ' '::e.body

/-- Both paths of a rename. -/
def StatusEntry.named (e : StatusEntry) : List (List Char) :=
  (e.source.map PlainPath.chars).toList++[e.path.chars]

def printed (ls : List (List Char)) : List Char := ls.flatMap (·++['\n'])

/-- The paths and the entries that git prints, one a line. -/
structure Prints (git : GitOutputs) (diff : List (List Char)) (entries : List StatusEntry) :
    Prop where
  diff_text : git.diff.stdout.toList = printed diff
  status_text : git.status.stdout.toList = printed (entries.map StatusEntry.line)
  one_line : ∀ p ∈ diff,p ≠ [] ∧ ∀ c ∈ p,isLineBreak c = false

/-- Every path that the outputs name. -/
def namedPaths (diff : List (List Char)) (entries : List StatusEntry) : List (List Char) :=
  diff++entries.flatMap StatusEntry.named

def Blank (p : List Char) : Prop := stripBy isSpace p = []

instance (p : List Char) : Decidable (Blank p) := inferInstanceAs (Decidable (_ = _))

/-- The paths that are read: no blank one, and of a rename the new one. -/
def readPaths (diff : List (List Char)) (entries : List StatusEntry) : List (List Char) :=
  diff.filter (fun p => !decide (Blank p))++entries.map fun e => e.path.chars

def UnderGit (p : List Char) : Prop := ".git/".toList <+: p

instance (p : List Char) : Decidable (UnderGit p) := inferInstanceAs (Decidable (_ <+: _))

/-- The files are the normal forms of the named paths but for those under `.git/`, each once
and in order. -/
structure Complete (named files : List (List Char)) : Prop where
  mem_iff : ∀ f,f ∈ files ↔ ∃ p ∈ named,¬ UnderGit p ∧ normalizePath p = f
  increasing : files.Pairwise (· < ·)

/-- Whatever the reading drops or should drop is named by another path. -/
structure Covered (diff : List (List Char)) (entries : List StatusEntry) : Prop where
  sources : ∀ e ∈ entries,∀ old ∈ e.source,∃ p ∈ readPaths diff entries,
    normalizePath p = normalizePath old.chars
  blanks : ∀ p ∈ diff,Blank p → ∃ q ∈ readPaths diff entries,normalizePath q = []
  metadata : ∀ p ∈ diff,UnderGit p → ∃ q ∈ namedPaths diff entries,¬ UnderGit q ∧
    normalizePath q = normalizePath p

theorem StatusLetter.char_space {l : StatusLetter} : isSpace l.char = true ↔ l = .unmodified := by
  cases l <;> decide

theorem StatusLetter.char_line (l : StatusLetter) : isLineBreak l.char = false := by
  cases l <;> decide

/-- An arrow with its blanks stands nowhere in a path. -/
theorem arrow_free {s : List Char} (h : ¬ ['-','>'] <:+: s) : ¬ arrow <:+: s := by
  intro harrow
  have hshort : ['-','>'] <:+: arrow := ⟨[' '],[' '],rfl⟩
  exact h (hshort.trans harrow)

theorem arrow_freeBefore_nil {s : List Char} (h : ¬ ['-','>'] <:+: s) :
    FreeBefore arrow s [] := by
  intro x y hxy _ hpre
  rw [List.append_nil] at hpre
  apply arrow_free h
  rw [hxy]
  exact hpre.isInfix.trans (List.suffix_append x y).isInfix

/-- The first arrow of `OLD -> NEW` is the one between the paths. -/
theorem arrow_freeBefore {s : List Char} (h : ¬ ['-','>'] <:+: s) (r : List Char) :
    FreeBefore arrow s (arrow++r) := by
  intro x y hxy hy hpre
  have hsub : y <:+: s := hxy ▸ (List.suffix_append x y).isInfix
  obtain ⟨t,ht⟩ := hpre
  match y,hy with
  | [a],_ =>
    simp [arrow] at ht
  | [a,b],_ =>
    simp [arrow] at ht
  | a::b::c::y,_ =>
    obtain ⟨-,hb,hc,-⟩ : ' ' = a ∧ '-' = b ∧ '>' = c ∧ _ := by simpa [arrow] using ht
    subst hb hc
    have hshort : ['-','>'] <:+: a:: '-':: '>'::y := ⟨[a],y,rfl⟩
    exact h (hshort.trans hsub)

theorem normalizePath_stripped (p : List Char) :
    normalizePath (stripBy isSpace p) = normalizePath p := by
  have hmap : ∀ c : Char,isSpace (if c = '\\' then '/' else c) = isSpace c := by
    intro c
    split_ifs with h
    · rw [h]
      decide
    · rfl
  rw [normalizePath,normalizePath,replace_char,replace_char,stripBy_map hmap,stripBy_map hmap,
    stripBy_idem]

/-- The letters stand before a blank, and at most one of them is a blank. -/
theorem StatusEntry.letters (e : StatusEntry) : ∃ lead word gap,
    [e.x.char,e.y.char,' '] = lead++(word++gap) ∧ (∀ c ∈ lead,isSpace c = true) ∧ word ≠ [] ∧
      (∀ c ∈ word,isSpace c = false) ∧ gap ≠ [] ∧ ∀ c ∈ gap,isSpace c = true := by
  have hblank : isSpace ' ' = true := by decide
  have hchar (l : StatusLetter) (hl : l ≠ .unmodified) : isSpace l.char = false := by
    rw [← Bool.not_eq_true,StatusLetter.char_space]
    exact hl
  by_cases hx : e.x = .unmodified
  · have hy := hchar e.y (e.reported.resolve_left (not_not.mpr hx))
    refine ⟨[' '],[e.y.char],[' '],by rw [hx]; rfl,?_⟩
    simp [hblank,hy]
  · have hx' := hchar e.x hx
    by_cases hy : e.y = .unmodified
    · refine ⟨[],[e.x.char],[' ',' '],by rw [hy]; rfl,?_⟩
      simp [hblank,hx']
    · have hy' := hchar e.y hy
      refine ⟨[],[e.x.char,e.y.char],[' '],rfl,?_⟩
      simp [hblank,hx',hy']

/-- What the line of an entry comes to once its ends are stripped and it is split. -/
theorem splitOnce_entry (e : StatusEntry) (hshown : ∃ c ∈ e.body,isSpace c = false) :
    ∃ word,splitOnce (stripBy isSpace e.line) = [word,stripBy isSpace e.body] := by
  obtain ⟨front,back,hbody,hfront,hback⟩ := stripBy_parts isSpace e.body
  obtain ⟨lead,word,gap,hletters,hlead,hword,hfree,hgap,hblank⟩ := e.letters
  have hline : e.line = lead++(word++(gap++front++(stripBy isSpace e.body++back))) := by
    calc e.line = [e.x.char,e.y.char,' ']++e.body := rfl
      _ = lead++(word++gap)++(front++(stripBy isSpace e.body++back)) := by rw [hletters,← hbody]
      _ = _ := by simp only [List.append_assoc]
  refine ⟨word,?_⟩
  rw [hline]
  apply splitOnce_line hlead hword hfree (by simp [hgap]) _ (stripBy_trimmed hshown) hback
  intro c hc
  rcases List.mem_append.mp hc with hc | hc
  · exact hblank c hc
  · exact hfront c hc

theorem unquoted {s t : List Char} (ht : t <:+: s) (h : ∀ c ∈ s,c ≠ '"') :
    stripBy isDoubleQuote t = t := by
  apply stripBy_of_free
  intro c hc
  simpa [isDoubleQuote] using h c (ht.subset hc)

theorem StatusEntry.body_shown (e : StatusEntry) : ∃ c ∈ e.body,isSpace c = false := by
  obtain ⟨c,hc,hspace⟩ := e.path.shown
  refine ⟨c,?_,hspace⟩
  rw [StatusEntry.body]
  cases e.source with
  | none => exact hc
  | some old => exact List.mem_append_right _ (List.mem_append_right _ hc)

/-- The two paths of a rename, with the blanks between them, once the ends are stripped. -/
theorem renamed_parts (old new : PlainPath) : ∃ a b,
    stripBy isSpace (old.chars++(arrow++new.chars)) = a++(arrow++b) ∧ a <:+: old.chars ∧
      b <:+: new.chars ∧ stripBy isSpace b = stripBy isSpace new.chars := by
  obtain ⟨front,back,hold,hfront,hback⟩ := stripBy_parts isSpace old.chars
  obtain ⟨front',back',hnew,hfront',hback'⟩ := stripBy_parts isSpace new.chars
  have ho := stripBy_trimmed old.shown
  have hn := stripBy_trimmed new.shown
  obtain ⟨o,ho_eq⟩ : ∃ o,o = stripBy isSpace old.chars := ⟨_,rfl⟩
  obtain ⟨n,hn_eq⟩ : ∃ n,n = stripBy isSpace new.chars := ⟨_,rfl⟩
  rw [← ho_eq] at hold ho
  rw [← hn_eq] at hnew hn
  refine ⟨o++back,front'++n,?_,⟨front,[],by rw [hold]; simp⟩,⟨[],back',by rw [hnew]; simp⟩,?_⟩
  · have htrim : Trimmed isSpace (o++back++(arrow++(front'++n))) := by
      refine ⟨by simp [ho.1],?_,?_⟩
      · rw [List.append_assoc,List.head?_append_of_ne_nil _ ho.1]
        exact ho.2.1
      · rw [← List.append_assoc arrow,← List.append_assoc,List.getLast?_append_of_ne_nil _ hn.1]
        exact hn.2.2
    have hbody : old.chars++(arrow++new.chars) =
        front++(o++back++(arrow++(front'++n))++back') := by
      rw [hold,hnew]
      simp only [List.append_assoc]
    rw [hbody]
    exact stripBy_between htrim hfront hback'
  · have hnil : ∀ c ∈ ([] : List Char),isSpace c = true := by simp
    have h := stripBy_between hn hfront' hnil
    rw [List.append_nil] at h
    rw [h,hn_eq]

/-- The one path that is read from an entry is its path, or its new path. -/
theorem statusPath_line (e : StatusEntry) :
    statusPath e.line = some (stripBy isSpace e.path.chars) := by
  obtain ⟨word,hsplit⟩ := splitOnce_entry e e.body_shown
  have hpath : ∀ c ∈ e.path.chars,c ≠ '"' := fun c hc => (e.path.plain c hc).2
  rw [statusPath,hsplit]
  simp only [stripBy_idem]
  rw [StatusEntry.body]
  cases hs : e.source with
  | none =>
    have hfree : ¬ " -> ".toList <:+: stripBy isSpace e.path.chars :=
      fun h => arrow_free e.path.no_arrow (h.trans (stripBy_isInfix _))
    simp only [unquoted (stripBy_isInfix _) hpath]
    rw [if_neg hfree]
  | some old =>
    obtain ⟨a,b,hcore,ha,hb,hstrip⟩ := renamed_parts old e.path
    have hquotes : ∀ c ∈ old.chars++(arrow++e.path.chars),c ≠ '"' := by
      intro c hc
      rcases List.mem_append.mp hc with hc | hc
      · exact (old.plain c hc).2
      · rcases List.mem_append.mp hc with hc | hc
        · have harrow : ∀ c ∈ arrow,c ≠ '"' :=
            List.all_iff_forall_prop.mp (by decide)
          exact harrow c hc
        · exact hpath c hc
    have hmid : a++(arrow++b) <:+: old.chars++(arrow++e.path.chars) :=
      hcore ▸ stripBy_isInfix (old.chars++(arrow++e.path.chars))
    have ha' : ¬ ['-','>'] <:+: a := fun h => old.no_arrow (h.trans ha)
    have hb' : ¬ ['-','>'] <:+: b := fun h => e.path.no_arrow (h.trans hb)
    have hsplit' : split arrow (a++(arrow++b)) = [a,b] := by
      rw [split_mark (by decide) (arrow_freeBefore ha' b),split_of_free (arrow_freeBefore_nil hb')]
    have hin : " -> ".toList <:+: a++(arrow++b) := ⟨a,b,by rw [List.append_assoc]; rfl⟩
    simp only [hcore,unquoted hmid hquotes]
    rw [if_pos hin]
    show some (stripBy isDoubleQuote (stripBy isSpace ((split arrow (a++(arrow++b))).getD 1 []))) = _
    rw [hsplit',List.getD_cons_succ,List.getD_cons_zero,hstrip,unquoted (stripBy_isInfix _) hpath]

theorem StatusEntry.line_free (e : StatusEntry) : ∀ c ∈ e.line,isLineBreak c = false := by
  have harrow : ∀ c ∈ arrow,isLineBreak c = false :=
    List.all_iff_forall_prop.mp (by decide)
  have hpath : ∀ c ∈ e.path.chars,isLineBreak c = false := fun c hc => (e.path.plain c hc).1
  have hbody : ∀ c ∈ e.body,isLineBreak c = false := by
    intro c hc
    rw [StatusEntry.body] at hc
    cases hs : e.source with
    | none =>
      rw [hs] at hc
      exact hpath c hc
    | some old =>
      simp only [hs,List.mem_append] at hc
      rcases hc with hc | hc | hc
      · exact (old.plain c hc).1
      · exact harrow c hc
      · exact hpath c hc
  intro c hc
  simp only [StatusEntry.line,List.mem_cons] at hc
  rcases hc with rfl | rfl | rfl | hc
  · exact e.x.char_line
  · exact e.y.char_line
  · decide
  · exact hbody c hc

variable {git : GitOutputs} {diff : List (List Char)} {entries : List StatusEntry}

theorem Prints.paths (h : Prints git diff entries) : git.paths =
    diff.filter (fun p => !decide (Blank p))++entries.map fun e => stripBy isSpace e.path.chars := by
  have hdiff : lines git.diff.stdout.toList = diff := by
    rw [h.diff_text,printed,lines_written fun p hp => (h.one_line p hp).2]
  have hstatus : lines git.status.stdout.toList = entries.map StatusEntry.line := by
    rw [h.status_text,printed]
    apply lines_written
    intro l hl
    obtain ⟨e,-,rfl⟩ := List.mem_map.mp hl
    exact e.line_free
  have hread : statusPath ∘ StatusEntry.line =
      some ∘ fun e => stripBy isSpace e.path.chars := funext statusPath_line
  rw [GitOutputs.paths,diffPaths,hdiff,hstatus,List.filterMap_map,hread,List.filterMap_eq_map]
  congr 1
  apply List.filter_congr
  intro p _
  by_cases hp : Blank p
  · rw [decide_eq_true hp]
    simpa [Blank] using hp
  · rw [decide_eq_false hp]
    simpa [Blank] using hp

/-- What is listed are the normal forms of the paths that are read. -/
theorem Prints.mem_iff (h : Prints git diff entries) {f : List Char} :
    f ∈ getModifiedFiles git ↔ ∃ p ∈ readPaths diff entries,normalizePath p = f := by
  rw [mem_getModifiedFiles,h.paths,readPaths]
  simp only [List.mem_append,List.mem_map,or_and_right,exists_or]
  simp [normalizePath_stripped]

theorem Blank.normalizePath {p : List Char} (h : Blank p) : normalizePath p = [] := by
  rw [← normalizePath_stripped,show stripBy isSpace p = [] from h]
  rfl

end SoftwareFactory.DiffGate
