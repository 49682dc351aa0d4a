import SoftwareFactory.Scripts.SpecGate
import SoftwareFactory.Scripts.SpecRegions
import Mathlib.Data.List.TakeWhile

namespace SoftwareFactory.SpecAgreement

open Regex DiffGate SpecRegions

/-- The headings around section 1 and the bullets in it. -/
structure Grammar where
  heading : Pattern
  nextHeading : Pattern
  allowed : Pattern
  forbidden : Pattern

/-- A bullet of either kind. -/
def bullet (label : Pattern) : Pattern :=
  .seqs [.char fun c => c == '-' || c == '*',DiffGate.spaces,label,word ":"]

/-- The headings as the spec gate recognises them. -/
def permissive : Grammar where
  heading := SpecGate.scopeHeading
  nextHeading := SpecGate.criteriaHeading
  allowed := bullet (.alt (word "Archivos permitidos") (word "Allowed files"))
  forbidden :=
    bullet (.alt (word "Archivos estrictamente prohibidos") (word "Strictly forbidden files"))

/-- What the diff gate searches for. -/
def strict : Grammar where
  heading := DiffGate.scopeHeading
  nextHeading := .alt DiffGate.criteriaHeading .atEnd
  allowed := allowedBullet
  forbidden := forbiddenBullet

/-- The text between the first heading and the next one. -/
def Grammar.section1 (g : Grammar) (content : List Char) : Option (List Char) :=
  (g.heading.find [] content).bind fun t =>
    if (g.nextHeading.find t.before t.after).isSome then
      some (g.nextHeading.upTo t.before t.after)
    else none

/-- The position after a bullet of the section. -/
def BulletAt (r : Pattern) (section1 : List Char) (t : Cursor) : Prop :=
  ∃ before after,section1 = before++after ∧ (r.run ⟨before.reverse,after,[]⟩).head? = some t

/-- The text from there to the next `stop`, or to the end of the section. -/
def under (stop : Pattern) (t : Cursor) : List Char := stop.upTo t.before t.after

/-- The paths between backticks on the lines of a text. -/
def backticked (text : List Char) : List (List Char) :=
  (PyText.lines text).flatMap fun line => (quotedPattern.findall line).map group1

/-- The text names the file: between backticks, or as a bullet on a line that quotes nothing. -/
def Names (text file : List Char) : Prop :=
  (∃ q ∈ backticked text,file = normalizePath q) ∨
    ∃ line ∈ PyText.lines text,quotedPattern.findall line = [] ∧
      let stripped := PyText.stripBy PyText.isSpace line
      (stripped.head? = some '-' ∨ stripped.head? = some '*') ∧
        file = normalizePath (stripped.dropWhile (· ∈ "-* \t".toList)) ∧ file ≠ []

/-- The text that the strict search for the allowed files captures. -/
def strictAllowed (content : List Char) : Option (List Char) :=
  (strict.section1 content).bind fun s => (strict.allowed.find [] s).map fun t =>
    (Pattern.alt strict.forbidden .atEnd).upTo t.before t.after

/-- The text that the strict search for the forbidden files captures. -/
def strictForbidden (content : List Char) : Option (List Char) :=
  (strict.section1 content).bind fun s => (strict.forbidden.find [] s).map Cursor.after

/-- What the two parsers promise each other about one text. -/
structure Agree (content : List Char) : Prop where
  allowed : ∀ s t,permissive.section1 content = some s → BulletAt permissive.allowed s t →
    ∀ q ∈ backticked (under permissive.forbidden t),
      normalizePath q ∈ (parseSpecBoundaries (some content)).1
  forbidden : ∀ s t,permissive.section1 content = some s → BulletAt permissive.forbidden s t →
    ∀ q ∈ backticked (under permissive.allowed t),
      normalizePath q ∈ (parseSpecBoundaries (some content)).2
  not_empty : parseSpecBoundaries (some content) ≠ ([],[])

/-- Every path under a bullet stands in the text below the bullet of the template's form, and
some file is named there. -/
structure StrictlyWritten (content : List Char) : Prop where
  allowed : ∀ s t,permissive.section1 content = some s → BulletAt permissive.allowed s t →
    ∀ q ∈ backticked (under permissive.forbidden t),
      ∃ x,AllowedText content x ∧ Names x (normalizePath q)
  forbidden : ∀ s t,permissive.section1 content = some s → BulletAt permissive.forbidden s t →
    ∀ q ∈ backticked (under permissive.allowed t),
      ∃ x,ForbiddenText content x ∧ Names x (normalizePath q)
  named : ∃ x file,(AllowedText content x ∨ ForbiddenText content x) ∧ Names x file

/-- The strict searches come to this very bullet: they find the same heading first, and the
bullet first in its section. -/
def Found (content : List Char) (r : Pattern) (t : Cursor) : Prop :=
  permissive.heading.find [] content = strict.heading.find [] content ∧
    ∃ s t',strict.section1 content = some s ∧ r.find [] s = some t' ∧ t'.before = t.before

def Accepted (u : PyText.Unicode) (content : List Char) : Prop :=
  ∃ path msg,SpecGate.validateSpec u path (some content) = .ok (true,msg)

theorem bulletPaths_eq {a b : Pattern} {g : Cursor → List Char} (ha : a.plain = true)
    (hb : ∀ s,∃ u,(b.run s).head? = some u ∧ u.groups = s.groups++[g s]) (s : List Char) :
    bulletPaths (.seq a b) s =
      (PyText.lines (((a.find [] s).map g).getD [])).flatMap listedPaths := by
  have h := Pattern.search_group ha hb [] s
  rw [bulletPaths]
  cases hm : (Pattern.seq a b).search [] s with
  | none =>
    rw [hm] at h
    rw [← h]
    rfl
  | some m =>
    rw [hm] at h
    rw [← h]
    rfl

theorem atEnd_stops (r : Pattern) (before : List Char) :
    ((Pattern.alt r .atEnd).run ⟨before,[],[]⟩).isEmpty = false :=
  Pattern.alt_atEnd_stops.mpr (.inr (.inl rfl))

theorem find_atEnd (r : Pattern) (before s : List Char) :
    ((Pattern.alt r .atEnd).find before s).isSome = true := by
  have hend (before : List Char) :
      ((Pattern.alt r .atEnd).run ⟨before,[],[]⟩).head?.isSome = true := by
    have h := atEnd_stops r before
    simpa using h
  induction s generalizing before with
  | nil => exact hend before
  | cons c cs ih =>
    rw [Pattern.find,Option.isSome_or,ih,Bool.or_true]

theorem strict_section1_eq (content : List Char) :
    strict.section1 content = (DiffGate.scopeHeading.find [] content).map fun t =>
      strict.nextHeading.upTo t.before t.after := by
  rw [Grammar.section1]
  change (DiffGate.scopeHeading.find [] content).bind _ = _
  cases DiffGate.scopeHeading.find [] content with
  | none => rfl
  | some t =>
    have hend : (strict.nextHeading.find t.before t.after).isSome = true := find_atEnd _ _ _
    simp only [Option.bind_some,hend,if_true,Option.map_some]

theorem strict_section1 (content : List Char) :
    (section1Pattern.search [] content).map group1 = strict.section1 content := by
  rw [strict_section1_eq]
  exact Pattern.search_group (a := DiffGate.scopeHeading) (by decide)
    (Pattern.lazyGroup_head (atEnd_stops DiffGate.criteriaHeading)) [] content

/-- The parser reads the lines that the strict searches capture. -/
theorem parseSpecBoundaries_eq (content : List Char) :
    parseSpecBoundaries (some content) =
      ((PyText.lines ((strictAllowed content).getD [])).flatMap listedPaths,
        (PyText.lines ((strictForbidden content).getD [])).flatMap listedPaths) := by
  have hsection := strict_section1 content
  rw [parseSpecBoundaries]
  cases hm : section1Pattern.search [] content with
  | none =>
    rw [hm] at hsection
    simp only [strictAllowed,strictForbidden,← hsection]
    rfl
  | some m =>
    rw [hm] at hsection
    have hallowed := bulletPaths_eq (a := allowedBullet) (by decide)
      (Pattern.lazyGroup_head (atEnd_stops forbiddenBullet)) (group1 m)
    have hforbidden := bulletPaths_eq (a := forbiddenBullet) (by decide)
      Pattern.manyGroup_head (group1 m)
    simp only [strictAllowed,strictForbidden,← hsection]
    exact Prod.ext hallowed hforbidden

theorem mem_listedPaths {line file : List Char} : file ∈ listedPaths line ↔
    (∃ q ∈ (quotedPattern.findall line).map group1,file = normalizePath q) ∨
      quotedPattern.findall line = [] ∧
        let stripped := PyText.stripBy PyText.isSpace line
        (stripped.head? = some '-' ∨ stripped.head? = some '*') ∧
          file = normalizePath (stripped.dropWhile (· ∈ "-* \t".toList)) ∧ file ≠ [] := by
  rw [listedPaths]
  dsimp only
  cases hm : quotedPattern.findall line with
  | nil =>
    simp only [List.isEmpty_nil,Bool.not_true,Bool.false_eq_true,if_false,List.map_nil,
      List.not_mem_nil,false_and,exists_false,false_or,true_and]
    split_ifs with hbullet hclean
    · simp only [List.mem_singleton,hbullet,true_and]
      constructor
      · intro h
        rw [h]
        exact ⟨rfl,hclean⟩
      · exact fun h => h.1
    · simp only [List.not_mem_nil,hbullet,true_and,false_iff,not_and,not_not]
      intro h
      rw [h]
      exact not_not.mp hclean
    · simp [hbullet]
  | cons m ms =>
    simp [eq_comm]

theorem mem_listed {text file : List Char} :
    file ∈ (PyText.lines text).flatMap listedPaths ↔ Names text file := by
  simp only [List.mem_flatMap,mem_listedPaths,Names,backticked]
  constructor
  · intro h
    obtain ⟨line,hline,h⟩ := h
    cases h with
    | inl hquoted =>
      obtain ⟨q,hq,hfile⟩ := hquoted
      exact .inl ⟨q,⟨line,hline,hq⟩,hfile⟩
    | inr hbullet => exact .inr ⟨line,hline,hbullet⟩
  · intro h
    cases h with
    | inl hquoted =>
      obtain ⟨q,⟨line,hline,hq⟩,hfile⟩ := hquoted
      exact ⟨line,hline,.inl ⟨q,hq,hfile⟩⟩
    | inr hbullet =>
      obtain ⟨line,hline,hbullet⟩ := hbullet
      exact ⟨line,hline,.inr hbullet⟩

theorem strict_section1_iff {content s : List Char} :
    strict.section1 content = some s ↔ SectionText content s := by
  rw [← sectionText_iff,strict_section1_eq]
  rfl

theorem strictAllowed_iff {content x : List Char} :
    strictAllowed content = some x ↔ AllowedText content x := by
  simp only [strictAllowed,Option.bind_eq_some_iff,strict_section1_iff]
  constructor
  · intro h
    obtain ⟨s,hs,hx⟩ := h
    obtain ⟨before,bullet,after,hx⟩ := allowed_iff.mp hx
    exact ⟨s,before,bullet,after,hs,hx⟩
  · intro h
    obtain ⟨s,before,bullet,after,hs,hx⟩ := h
    exact ⟨s,hs,allowed_iff.mpr ⟨before,bullet,after,hx⟩⟩

theorem strictForbidden_iff {content x : List Char} :
    strictForbidden content = some x ↔ ForbiddenText content x := by
  simp only [strictForbidden,Option.bind_eq_some_iff,strict_section1_iff]
  constructor
  · intro h
    obtain ⟨s,hs,hx⟩ := h
    obtain ⟨before,bullet,hx⟩ := forbidden_iff.mp hx
    exact ⟨s,before,bullet,hs,hx⟩
  · intro h
    obtain ⟨s,before,bullet,hs,hx⟩ := h
    exact ⟨s,hs,forbidden_iff.mpr ⟨before,bullet,hx⟩⟩

/-- The parser returns what the two stretches of the text name. -/
theorem mem_parseSpecBoundaries {content file : List Char} :
    (file ∈ (parseSpecBoundaries (some content)).1 ↔ ∃ x,AllowedText content x ∧ Names x file) ∧
      (file ∈ (parseSpecBoundaries (some content)).2 ↔
        ∃ x,ForbiddenText content x ∧ Names x file) := by
  have hcaptured (captured : Option (List Char)) :
      file ∈ (PyText.lines (captured.getD [])).flatMap listedPaths ↔
        ∃ x,captured = some x ∧ Names x file := by
    cases captured with
    | none =>
      have hnothing : (PyText.lines (Option.getD none [])).flatMap listedPaths = [] := rfl
      rw [hnothing]
      simp
    | some x =>
      rw [Option.getD_some,mem_listed]
      simp
  rw [parseSpecBoundaries_eq]
  simp only [hcaptured,strictAllowed_iff,strictForbidden_iff,and_self]

def notBacktick (c : Char) : Bool := !isBacktick c

/-- The closing backtick, after the text quoted since `cs`. -/
def closing (cs : List Char) (t : Cursor) : List Cursor :=
  (Pattern.char isBacktick).run { t with groups := [cs.take (cs.length-t.after.length)] }

theorem closing_stuck (cs : List Char) (t : Cursor) (h : t.after.head?.all notBacktick = true) :
    closing cs t = [] := by
  obtain ⟨before,after,groups⟩ := t
  cases after with
  | nil => rfl
  | cons d ds =>
    have hd : isBacktick d = false := by simpa [notBacktick] using h
    simp [closing,Pattern.run,hd]

theorem quoted_run (before : List Char) (c : Char) (cs : List Char) :
    quotedPattern.run ⟨before,c::cs,[]⟩ =
      if isBacktick c = true then (manyFrom notBacktick 1 (c::before) cs).flatMap (closing cs)
      else [] := by
  by_cases hc : isBacktick c = true
  · simp [quotedPattern,Pattern.seqs,Pattern.run,hc,List.flatMap_map]
    rfl
  · simp [quotedPattern,Pattern.seqs,Pattern.run,hc]

/-- At the backtick `d` the quoted text is everything before it. -/
theorem closing_at (before quoted ds : List Char) {d : Char} (hd : isBacktick d = true) :
    closing (quoted++d::ds) ⟨before,d::ds,[]⟩ = [⟨d::before,ds,[quoted]⟩] := by
  have htake : (quoted++d::ds).take ((quoted++d::ds).length-(d::ds).length) = quoted := by
    rw [List.length_append,Nat.add_sub_cancel,List.take_left]
  rw [closing,Pattern.run]
  simp only [htake,hd,if_true]

/-- A quoted stretch at a position: a backtick, other characters, a backtick. -/
theorem quoted_next (before : List Char) (c : Char) (cs : List Char) :
    quotedPattern.next before (c::cs) =
      if isBacktick c = true ∧ cs.takeWhile notBacktick ≠ [] ∧ cs.dropWhile notBacktick ≠ [] then
        some ((cs.takeWhile notBacktick).length+2,
          ⟨(c::cs).take ((cs.takeWhile notBacktick).length+2),[cs.takeWhile notBacktick]⟩)
      else none := by
  have hsplit := List.takeWhile_append_dropWhile (p := notBacktick) (l := cs)
  have hpos : 1 ≤ (cs.takeWhile notBacktick).length ↔ cs.takeWhile notBacktick ≠ [] := by
    rw [Nat.one_le_iff_ne_zero,ne_eq,List.length_eq_zero_iff]
  rw [Pattern.next,Pattern.first,quoted_run,manyFrom_flatMap (closing_stuck cs)]
  by_cases hc : isBacktick c = true
  · by_cases hw : cs.takeWhile notBacktick = []
    · simp [hw]
    · rw [if_pos hc,if_pos (hpos.mpr hw)]
      cases hd : cs.dropWhile notBacktick with
      | nil => simp [closing,Pattern.run]
      | cons d ds =>
        have hbacktick : isBacktick d = true := by
          have h := List.head?_dropWhile_not notBacktick cs
          rw [hd] at h
          simpa [notBacktick] using h
        have hlen : cs.length = (cs.takeWhile notBacktick).length+(ds.length+1) := by
          have h := congrArg List.length hsplit
          rw [hd,List.length_append,List.length_cons] at h
          exact h.symm
        have hclosing (b : List Char) : closing cs ⟨b,d::ds,[]⟩ =
            [⟨d::b,ds,[cs.takeWhile notBacktick]⟩] := by
          have h := closing_at b (cs.takeWhile notBacktick) ds hbacktick
          rwa [← hd,hsplit,hd] at h
        have htext : cs.length+1-ds.length = (cs.takeWhile notBacktick).length+2 := by omega
        have hmin : min ((cs.takeWhile notBacktick).length+2) (cs.length+1) =
            (cs.takeWhile notBacktick).length+2 := by omega
        rw [hclosing,if_pos ⟨hc,hw,List.cons_ne_nil _ _⟩]
        simp only [List.head?_cons,Option.map_some,List.length_take,List.length_cons,htext,hmin]
  · simp [hc]

theorem quoted_none {s : List Char} (h : s.all notBacktick = true) (skip : Nat)
    (before : List Char) :
    (Splice.cut quotedPattern.next skip before s).filterMap Sum.getRight? = [] := by
  induction s generalizing skip before with
  | nil => simp [Splice.cut]
  | cons c cs ih =>
    rw [List.all_cons,Bool.and_eq_true] at h
    have hc : isBacktick c = false := by simpa [notBacktick] using h.1
    cases skip with
    | succ n => exact ih h.2 n (c::before)
    | zero =>
      rw [Splice.cut,quoted_next,if_neg (by simp [hc])]
      exact ih h.2 0 (c::before)

theorem dropWhile_append_ne_nil {p : Char → Bool} {s : List Char} (h : s.dropWhile p ≠ [])
    (z : List Char) : (s++z).takeWhile p = s.takeWhile p ∧ (s++z).dropWhile p ≠ [] := by
  have hsplit := List.takeWhile_append_dropWhile (p := p) (l := s)
  constructor
  · rw [List.takeWhile_append,if_neg]
    intro hlen
    have hl := congrArg List.length hsplit
    rw [List.length_append,hlen] at hl
    exact h (List.length_eq_zero_iff.mp (by omega))
  · rw [List.dropWhile_append,if_neg (by simpa using h)]
    simp [h]

/-- What is quoted in a text is quoted in every longer text. -/
theorem quoted_append {s : List Char} (z : List Char) {skip : Nat} {before : List Char}
    {m : Match} (hm : m ∈ (Splice.cut quotedPattern.next skip before s).filterMap Sum.getRight?) :
    m ∈ (Splice.cut quotedPattern.next skip before (s++z)).filterMap Sum.getRight? := by
  induction s generalizing skip before with
  | nil => simp [Splice.cut] at hm
  | cons c cs ih =>
    cases skip with
    | succ n => exact ih hm
    | zero =>
      rw [Splice.cut,quoted_next] at hm
      rw [List.cons_append,Splice.cut,quoted_next]
      by_cases hdrop : cs.dropWhile notBacktick = []
      · -- No backtick closes a quote in the shorter text.
        have hall : cs.all notBacktick = true := by
          rw [List.all_eq_true]
          exact List.dropWhile_eq_nil_iff.mp hdrop
        rw [if_neg (by simp [hdrop]),List.filterMap_cons] at hm
        simp [quoted_none hall] at hm
      · obtain ⟨htake,hdrop'⟩ := dropWhile_append_ne_nil hdrop z
        rw [htake]
        by_cases hin : isBacktick c = true ∧ cs.takeWhile notBacktick ≠ []
        · have hlen : (cs.takeWhile notBacktick).length+2 ≤ (c::cs).length := by
            have hpos := List.length_pos_iff.mpr hdrop
            have hl := congrArg List.length
              (List.takeWhile_append_dropWhile (p := notBacktick) (l := cs))
            rw [List.length_append] at hl
            rw [List.length_cons]
            omega
          have htext : (c::(cs++z)).take ((cs.takeWhile notBacktick).length+2) =
              (c::cs).take ((cs.takeWhile notBacktick).length+2) := by
            rw [← List.cons_append,List.take_append_of_le_length hlen]
          rw [if_pos ⟨hin.1,hin.2,hdrop⟩] at hm
          rw [if_pos ⟨hin.1,hin.2,hdrop'⟩,htext]
          rcases List.mem_cons.mp hm with hm | hm
          · exact List.mem_cons.mpr (.inl hm)
          · exact List.mem_cons.mpr (.inr (ih hm))
        · rw [if_neg fun h => hin ⟨h.1,h.2.1⟩] at hm
          rw [if_neg fun h => hin ⟨h.1,h.2.1⟩]
          exact ih hm

theorem quoted_prefix {line line' q : List Char} (h : line <+: line')
    (hq : q ∈ (quotedPattern.findall line).map group1) :
    q ∈ (quotedPattern.findall line').map group1 := by
  obtain ⟨z,rfl⟩ := h
  obtain ⟨m,hm,rfl⟩ := List.mem_map.mp hq
  exact List.mem_map.mpr ⟨m,quoted_append z hm,rfl⟩

/-- The quoted paths of a text are those of the text that continues it, a last line feed
aside. -/
theorem backticked_mono {text captured : List Char} (h : text <+: captured++['\n'])
    {q : List Char} (hq : q ∈ backticked text) : q ∈ backticked captured := by
  obtain ⟨line,hline,hquoted⟩ := List.mem_flatMap.mp hq
  obtain ⟨line',hline',hpre⟩ := PyText.splitLinesFrom_prefix h hline
  have hquoted' := quoted_prefix hpre hquoted
  rcases PyText.splitLinesFrom_newline hline' with hcaptured | rfl
  · exact List.mem_flatMap.mpr ⟨line',hcaptured,hquoted'⟩
  · exact absurd hquoted' List.not_mem_nil

/-- Words with single blanks are words with blanks between them. -/
theorem phrase_takes (word₁ : String) (words : List String) {w : List Char}
    (h : w.map foldCase =
      ([' '].intercalate ((word₁::words).map String.toList)).map foldCase) :
    (SpecGate.phrase (word₁::words)).Takes w := by
  induction words generalizing word₁ w with
  | nil =>
    rw [SpecGate.phrase,SpecGate.word,Pattern.takes_text,h]
    simp
  | cons word₂ words ih =>
    have hsplit : [' '].intercalate ((word₁::word₂::words).map String.toList) =
        word₁.toList++ ' '::[' '].intercalate ((word₂::words).map String.toList) := by
      simp [List.intercalate]
    rw [hsplit,List.map_append,List.map_cons] at h
    obtain ⟨x,y,rfl,hx,hy⟩ := List.map_eq_append_iff.mp h
    obtain ⟨c,z,rfl,hc,hz⟩ := List.map_eq_cons_iff.mp hy
    have hblank : c = ' ' := foldCase_fixed hc (by decide)
    rw [SpecGate.phrase,Pattern.takes_seqs_cons]
    · refine ⟨x,c::z,rfl,Pattern.takes_text.mpr hx,[c],z,rfl,?_,?_⟩
      · rw [hblank]
        exact ⟨le_rfl,List.forall_mem_singleton.mpr (by decide)⟩
      · exact Pattern.takes_seqs_one.mpr (ih word₂ hz)
    · simp

theorem spaces_takes {w : List Char} (h : DiffGate.spaces.Takes w) (n : Nat) (hn : n ≤ 1) :
    (SpecGate.spaces n).Takes w := ⟨hn.trans h.1,h.2⟩

theorem aceptacion_takes {w : List Char}
    (h : w.map foldCase = "Criterios de Aceptación".toList.map foldCase) :
    (Pattern.seqs [SpecGate.phrase ["Criterios","de"],SpecGate.spaces 1,
      SpecGate.aceptacion]).Takes w := by
  have hsplit : "Criterios de Aceptación".toList.map foldCase =
      ([' '].intercalate (["Criterios","de"].map String.toList)).map foldCase++
        ' '::("Aceptaci".toList.map foldCase++Char.ofNat 0xf3::"n".toList.map foldCase) := by
    decide
  rw [hsplit] at h
  obtain ⟨x,y,rfl,hx,hy⟩ := List.map_eq_append_iff.mp h
  obtain ⟨c,z,rfl,hc,hz⟩ := List.map_eq_cons_iff.mp hy
  obtain ⟨a,z',rfl,ha,hz'⟩ := List.map_eq_append_iff.mp hz
  obtain ⟨o,n,rfl,ho,hn⟩ := List.map_eq_cons_iff.mp hz'
  have hblank : c = ' ' := foldCase_fixed hc (by decide)
  refine ⟨x,_,rfl,phrase_takes _ _ hx,[c],_,rfl,?_,?_⟩
  · rw [hblank]
    exact ⟨le_rfl,List.forall_mem_singleton.mpr (by decide)⟩
  · apply Pattern.takes_seqs_one.mpr
    exact ⟨a,_,rfl,Pattern.takes_text.mpr ha,[o],n,rfl,⟨o,by simp [ho],rfl⟩,
      Pattern.takes_seqs_one.mpr (Pattern.takes_text.mpr hn)⟩

theorem sectionNumber_takes {n : Char} {blanks blanks' : List Char}
    (h : DiffGate.spaces.Takes blanks) (h' : DiffGate.spaces.Takes blanks') :
    (SpecGate.sectionNumber n).Takes (['#','#']++(blanks++([n]++(['.']++blanks')))) := by
  rw [SpecGate.sectionNumber,Pattern.takes_seqs_cons]
  refine ⟨_,_,rfl,⟨by decide,by simp⟩,?_⟩
  rw [Pattern.takes_seqs_cons]
  refine ⟨_,_,rfl,spaces_takes h 0 (by decide),?_⟩
  rw [Pattern.takes_seqs_cons]
  refine ⟨_,_,rfl,⟨n,by simp,rfl⟩,?_⟩
  rw [Pattern.takes_seqs_cons]
  refine ⟨_,_,rfl,.inl ⟨'.',by decide,rfl⟩,?_⟩
  exact Pattern.takes_seqs_one.mpr (spaces_takes h' 0 (by decide))

/-- The strict form of the second heading is one of the forms that the spec gate recognises. -/
theorem criteriaHeading_takes {w : List Char} (h : DiffGate.criteriaHeading.Takes w) :
    SpecGate.criteriaHeading.Takes w := by
  simp only [DiffGate.criteriaHeading,Pattern.takes_seqs_cons,Pattern.takes_seqs_nil,
    Pattern.takes_alt,word,Pattern.takes_text] at h
  obtain ⟨hashes,_,rfl,hhashes,blanks,_,rfl,hblanks,number,_,rfl,hnumber,blanks',_,rfl,hblanks',
    title,_,rfl,htitle,rfl⟩ := h
  obtain rfl : hashes = ['#','#'] := map_foldCase_fixed hhashes (by decide)
  obtain rfl : number = ['2','.'] := map_foldCase_fixed hnumber (by decide)
  rw [SpecGate.criteriaHeading,Pattern.takes_seqs_cons]
  refine ⟨_,title,?_,sectionNumber_takes hblanks hblanks',?_⟩
  · simp
  · rw [Pattern.takes_seqs_one,Pattern.takes_alt]
    rcases htitle with htitle | htitle
    · exact .inl (aceptacion_takes htitle)
    · right
      apply phrase_takes
      rw [htitle]
      decide

theorem criteriaHeading_head {w : List Char} (h : SpecGate.criteriaHeading.Takes w) :
    ∃ y,w = '#'::y := by
  obtain ⟨_,_,rfl,⟨hashes,_,rfl,⟨hlen,hall⟩,-⟩,-⟩ := h
  cases hashes with
  | nil => simp at hlen
  | cons c cs =>
    have hc : c = '#' := by simpa using hall c List.mem_cons_self
    rw [hc]
    exact ⟨_,rfl⟩

/-- A strict bullet is a bullet. -/
theorem forbiddenBullet_takes {w : List Char} (h : forbiddenBullet.Takes w) :
    permissive.forbidden.Takes w := by
  obtain ⟨dash,_,rfl,hdash,hrest⟩ := h
  obtain rfl : dash = ['-'] := map_foldCase_fixed (Pattern.takes_text.mp hdash) (by decide)
  exact ⟨['-'],_,rfl,⟨'-',by decide,rfl⟩,hrest⟩

theorem criteria_free : SpecGate.criteriaHeading.free = true := by decide

/-- Where the strict search ends section 1, at a heading or at the end, the other has ended it
or finds no heading any more. -/
theorem nextHeading_stops (b : List Char) (c : Char) (cs : List Char)
    (h : (strict.nextHeading.run ⟨b,c::cs,[]⟩).isEmpty = false) :
    (permissive.nextHeading.run ⟨b,c::cs,[]⟩).isEmpty = false ∨
      permissive.nextHeading.find b (c::cs) = none := by
  rcases Pattern.alt_atEnd_stops.mp h with h | hnil | hlast
  · left
    obtain ⟨w,hw,hpre⟩ := (Pattern.run_free_iff (by decide) _).mp h
    exact (Pattern.run_free_iff criteria_free _).mpr ⟨w,criteriaHeading_takes hw,hpre⟩
  · cases hnil
  · right
    have hno (before after : List Char) (ha : after.head? ≠ some '#') :
        (permissive.nextHeading.run ⟨before,after,[]⟩).head? = none := by
      rw [List.head?_eq_none_iff,← List.isEmpty_iff,← Bool.not_eq_false]
      intro hrun
      obtain ⟨w,hw,rest,hrest⟩ := (Pattern.run_free_iff criteria_free _).mp hrun
      obtain ⟨y,rfl⟩ := criteriaHeading_head hw
      simp only at hrest
      rw [← hrest] at ha
      exact ha rfl
    rw [hlast,Pattern.find,Pattern.find,hno _ _ (by decide),hno _ _ (by decide)]
    rfl

/-- With the same heading before it, the strict section goes on at least as far, and beyond
only from a heading on. -/
theorem section1_prefix {content s s' : List Char}
    (hheading : permissive.heading.find [] content = strict.heading.find [] content)
    (hs : permissive.section1 content = some s) (hs' : strict.section1 content = some s') :
    ∃ z,s' = s++z ∧ ∀ c ∈ z.head?,c = '#' := by
  rw [Grammar.section1,Option.bind_eq_some_iff] at hs hs'
  obtain ⟨t,ht,hst⟩ := hs
  obtain ⟨t',ht',hst'⟩ := hs'
  obtain rfl : t = t' := by
    rw [ht,ht'] at hheading
    exact Option.some.inj hheading
  split_ifs at hst with hfind
  split_ifs at hst' with hfind'
  obtain rfl := Option.some.inj hst
  obtain rfl := Option.some.inj hst'
  obtain ⟨z,hz⟩ := Pattern.upTo_prefix_upTo hfind nextHeading_stops
  obtain ⟨rest,hrest,hstop⟩ := Pattern.find_upTo hfind
  obtain ⟨w,hw,more,hmore⟩ := (Pattern.run_free_iff criteria_free _).mp hstop
  obtain ⟨y,rfl⟩ := criteriaHeading_head hw
  refine ⟨z,hz.symm,?_⟩
  have hpre := Pattern.upTo_prefix strict.nextHeading t.before t.after
  rw [← hz] at hpre
  nth_rewrite 2 [hrest] at hpre
  have hzpre : z <+: '#'::y++more := by
    rw [hmore]
    exact (List.prefix_append_right_inj _).mp hpre
  cases z with
  | nil => simp
  | cons c cs =>
    obtain ⟨rfl,-⟩ := List.cons_prefix_cons.mp hzpre
    simp

theorem prefix_of_append {w y z : List Char} (h : w <+: y++z) (hz : ∀ c ∈ z.head?,c ∉ w) :
    w <+: y := by
  rcases List.prefix_or_prefix_of_prefix h (List.prefix_append y z) with hw | ⟨v,hv⟩
  · exact hw
  · cases v with
    | nil =>
      rw [← hv,List.append_nil]
    | cons d ds =>
      obtain ⟨rest,hrest⟩ := h
      rw [← hv,List.append_assoc,List.append_cancel_left_eq] at hrest
      exfalso
      apply hz d
      · rw [← hrest]
        rfl
      · rw [← hv]
        exact List.mem_append_right _ List.mem_cons_self

/-- The stretch under a bullet is what the strict search captures from there on, even if this
goes on beyond the section. -/
theorem under_prefix {b y z : List Char} (hz : ∀ c ∈ z.head?,c = '#') :
    permissive.forbidden.upTo b y <+:
      (Pattern.alt strict.forbidden .atEnd).upTo b (y++z)++['\n'] := by
  induction y generalizing b with
  | nil => exact List.nil_prefix
  | cons c cs ih =>
    rw [Pattern.upTo]
    by_cases hstop : (permissive.forbidden.run ⟨b,c::cs,[]⟩).isEmpty = true
    · rw [if_pos hstop,List.cons_append,Pattern.upTo]
      by_cases hstop' : ((Pattern.alt strict.forbidden .atEnd).run
          ⟨b,c::(cs++z),[]⟩).isEmpty = true
      · rw [if_pos hstop']
        exact List.cons_prefix_cons.mpr ⟨rfl,ih⟩
      · rcases Pattern.alt_atEnd_stops.mp (by simpa using hstop') with hrun | hnil | hlast
        · -- A strict bullet lies inside the section: it has no '#'.
          obtain ⟨w,hw,hpre⟩ := (Pattern.run_free_iff (by decide) _).mp hrun
          have hpre' : w <+: c::cs := by
            apply prefix_of_append hpre
            intro d hd
            rw [hz d hd]
            exact hw.avoids (by decide)
          have hfound := (Pattern.run_free_iff (r := permissive.forbidden) (by decide)
            ⟨b,c::cs,[]⟩).mpr ⟨w,forbiddenBullet_takes hw,hpre'⟩
          rw [hstop] at hfound
          cases hfound
        · cases hnil
        · obtain ⟨rfl,hcs⟩ := List.cons.inj hlast
          obtain ⟨rfl,-⟩ := List.append_eq_nil_iff.mp hcs
          rw [if_neg hstop']
          exact List.prefix_rfl
    · rw [if_neg hstop]
      exact List.nil_prefix

theorem bulletAt_append {r : Pattern} {s : List Char} {t : Cursor} (h : BulletAt r s t) :
    s = t.before.reverse++t.after := by
  obtain ⟨before,after,rfl,ht⟩ := h
  obtain ⟨w,gs,hw⟩ := Pattern.run_reaches (List.mem_of_head? ht)
  have hafter : after = w++t.after := hw.after
  rw [hw.before,hafter,List.reverse_append,List.reverse_reverse,List.reverse_reverse,
    List.append_assoc]

/-- From a bullet that is found on, the strict section goes on as the other does. -/
theorem found_after {content s : List Char} {r r' : Pattern} {t : Cursor}
    (hs : permissive.section1 content = some s) (ht : BulletAt r' s t)
    (h : Found content r t) :
    ∃ s' z,strict.section1 content = some s' ∧
      (r.find [] s').map (fun t' => (t'.before,t'.after)) = some (t.before,t.after++z) ∧
      ∀ c ∈ z.head?,c = '#' := by
  obtain ⟨hheading,s',t',hs',ht',hbefore⟩ := h
  obtain ⟨z,hz,hhash⟩ := section1_prefix hheading hs hs'
  have hfound := Pattern.find_append ht'
  rw [hbefore,hz,bulletAt_append ht,List.reverse_nil,List.nil_append,List.append_assoc,
    List.append_cancel_left_eq] at hfound
  refine ⟨s',z,hs',?_,hhash⟩
  rw [ht',Option.map_some,hbefore,hfound]

theorem allowed_found {content s : List Char} {t : Cursor}
    (hs : permissive.section1 content = some s) (ht : BulletAt permissive.allowed s t)
    (h : Found content strict.allowed t) :
    ∃ x,AllowedText content x ∧ under permissive.forbidden t <+: x++['\n'] := by
  obtain ⟨s',z,hs',hfind,hhash⟩ := found_after hs ht h
  obtain ⟨t',ht',heq⟩ := Option.map_eq_some_iff.mp hfind
  obtain ⟨hbefore,hafter⟩ := Prod.mk.inj heq
  refine ⟨(Pattern.alt strict.forbidden .atEnd).upTo t.before (t.after++z),?_,
    under_prefix hhash⟩
  apply strictAllowed_iff.mp
  simp only [strictAllowed,hs',ht',Option.bind_some,Option.map_some,hbefore,hafter]

theorem forbidden_found {content s : List Char} {t : Cursor}
    (hs : permissive.section1 content = some s) (ht : BulletAt permissive.forbidden s t)
    (h : Found content strict.forbidden t) :
    ∃ x,ForbiddenText content x ∧ under permissive.allowed t <+: x++['\n'] := by
  obtain ⟨s',z,hs',hfind,-⟩ := found_after hs ht h
  obtain ⟨t',ht',heq⟩ := Option.map_eq_some_iff.mp hfind
  obtain ⟨-,hafter⟩ := Prod.mk.inj heq
  refine ⟨t.after++z,?_,?_⟩
  · apply strictForbidden_iff.mp
    simp only [strictForbidden,hs',ht',Option.bind_some,Option.map_some,hafter]
  · rw [List.append_assoc]
    exact (Pattern.upTo_prefix _ _ _).trans (List.prefix_append _ _)

/-- A text is strictly written if the strict searches come to each of its bullets themselves. -/
theorem StrictlyWritten.of_found {content : List Char}
    (hallowed : ∀ s t,permissive.section1 content = some s → BulletAt permissive.allowed s t →
      Found content strict.allowed t)
    (hforbidden : ∀ s t,permissive.section1 content = some s →
      BulletAt permissive.forbidden s t → Found content strict.forbidden t)
    (hnamed : ∃ x file,(AllowedText content x ∨ ForbiddenText content x) ∧ Names x file) :
    StrictlyWritten content where
  allowed := by
    intro s t hs ht q hq
    obtain ⟨x,hx,hunder⟩ := allowed_found hs ht (hallowed s t hs ht)
    exact ⟨x,hx,.inl ⟨q,backticked_mono hunder hq,rfl⟩⟩
  forbidden := by
    intro s t hs ht q hq
    obtain ⟨x,hx,hunder⟩ := forbidden_found hs ht (hforbidden s t hs ht)
    exact ⟨x,hx,.inl ⟨q,backticked_mono hunder hq,rfl⟩⟩
  named := hnamed

theorem not_empty_iff (content : List Char) : parseSpecBoundaries (some content) ≠ ([],[]) ↔
    ∃ x file,(AllowedText content x ∨ ForbiddenText content x) ∧ Names x file := by
  constructor
  · intro h
    by_contra hnone
    apply h
    apply Prod.ext <;> apply List.eq_nil_iff_forall_not_mem.mpr <;> intro file hfile
    · obtain ⟨x,hx,hnames⟩ := mem_parseSpecBoundaries.1.mp hfile
      exact hnone ⟨x,file,.inl hx,hnames⟩
    · obtain ⟨x,hx,hnames⟩ := mem_parseSpecBoundaries.2.mp hfile
      exact hnone ⟨x,file,.inr hx,hnames⟩
  · intro h hempty
    obtain ⟨x,file,hx,hnames⟩ := h
    cases hx with
    | inl hx =>
      have hmem := mem_parseSpecBoundaries.1.mpr ⟨x,hx,hnames⟩
      rw [hempty] at hmem
      exact List.not_mem_nil hmem
    | inr hx =>
      have hmem := mem_parseSpecBoundaries.2.mpr ⟨x,hx,hnames⟩
      rw [hempty] at hmem
      exact List.not_mem_nil hmem

theorem agree_iff (content : List Char) : Agree content ↔ StrictlyWritten content := by
  constructor
  · intro h
    refine ⟨?_,?_,(not_empty_iff content).mp h.not_empty⟩
    · intro s t hs ht q hq
      exact mem_parseSpecBoundaries.1.mp (h.allowed s t hs ht q hq)
    · intro s t hs ht q hq
      exact mem_parseSpecBoundaries.2.mp (h.forbidden s t hs ht q hq)
  · intro h
    refine ⟨?_,?_,(not_empty_iff content).mpr h.named⟩
    · intro s t hs ht q hq
      exact mem_parseSpecBoundaries.1.mpr (h.allowed s t hs ht q hq)
    · intro s t hs ht q hq
      exact mem_parseSpecBoundaries.2.mpr (h.forbidden s t hs ht q hq)

/-- The parsers agree on what the spec gate accepts exactly if what it accepts has its files below
bullets and a heading of the template's form. -/
theorem boundaries_agree_iff (u : PyText.Unicode) (content : List Char) :
    (Accepted u content → Agree content) ↔ (Accepted u content → StrictlyWritten content) := by
  rw [agree_iff]

/-- The Unicode tables cut down to the ASCII characters. -/
def asciiTable : PyText.Unicode where
  isWord c := c.isAlphanum || c == '_'
  digit c := if c.isDigit then some (c.toNat-48) else none
  isWord_ascii c _ := rfl
  digit_ascii c _ := rfl
  digit_lt c n h := by
    split_ifs at h with hc
    have hnine : c.val ≤ '9'.val := by
      simp only [Char.isDigit,Bool.and_eq_true,decide_eq_true_eq] at hc
      exact hc.2
    have hle : c.toNat ≤ 57 := UInt32.le_iff_toNat_le.mp hnine
    obtain rfl := Option.some.inj h
    omega
  digit_word c h := by
    split_ifs at h with hc
    · simp [Char.isAlphanum,hc]
    · cases h

/-- A spec with other headings and bullets than the template's. -/
def permissiveSpec : List Char :=
  "# TASK-104: Permissive Format\n\n### 1) Alcance y Fronteras\n".toList++
    "* Archivos permitidos:\n  * `src/main.py`\n\n### 2) Criterios de Aceptacion\n".toList++
    "* [ AC-01 ] Primer criterio con espacios.\n".toList++
    "* [AC_02] Segundo criterio con guion bajo.\n\n".toList++
    "### 3) Invariantes de Seguridad\n* [ SEC-01 ] Invariante con espacios.\n\n".toList++
    "### 4) Matriz de Pruebas\n| Test ID | Descripcion | Cobertura |\n".toList++
    "| :--- | :--- | :--- |\n".toList++
    "| [ TEST-01 ] | Prueba principal | [AC-01], [SEC-01] |\n".toList++
    "| [TEST-02] | Prueba secundaria | **[AC-02]** |\n".toList

theorem permissiveSpec_disagrees :
    ¬ ∀ content,Accepted asciiTable content → Agree content := by
  intro h
  have haccepted : SpecGate.validateSpec asciiTable [] (some permissiveSpec) =
      .ok (true,"Spec validated successfully. ACs: 2, SECs: 1, TESTs: 2".toList) := by
    unfold permissiveSpec
    repeat rw [String.toList_ofList]
    decide +kernel
  have hempty : parseSpecBoundaries (some permissiveSpec) = ([],[]) := by
    unfold permissiveSpec
    repeat rw [String.toList_ofList]
    decide +kernel
  exact (h permissiveSpec ⟨_,_,haccepted⟩).not_empty hempty

end SoftwareFactory.SpecAgreement
