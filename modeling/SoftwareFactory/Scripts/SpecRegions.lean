import SoftwareFactory.Lib.Occurrence
import SoftwareFactory.Scripts.DiffGate

namespace SoftwareFactory.SpecRegions

open Regex Occurrence

/-- The text, up to case. -/
def Spelled (s : String) (w : List Char) : Prop := w.map foldCase = s.toList.map foldCase

def OneOf (titles : List String) (w : List Char) : Prop := ∃ t ∈ titles,Spelled t w

def Blanks (w : List Char) : Prop := 1 ≤ w.length ∧ ∀ c ∈ w,PyText.isSpace c = true

/-- `## <number> <title>` with blanks between the parts. -/
def Heading (number : String) (titles : List String) (w : List Char) : Prop :=
  ∃ gap gap' title,w = ['#','#']++(gap++(number.toList++(gap'++title))) ∧ Blanks gap ∧
    Blanks gap' ∧ OneOf titles title

/-- `- <label>:` -/
def Bullet (labels : List String) (w : List Char) : Prop :=
  ∃ gap label,w = ['-']++(gap++(label++[':'])) ∧ Blanks gap ∧ OneOf labels label

def ScopeHeading : List Char → Prop := Heading "1." ["Alcance y Fronteras","Scope and Boundaries"]

def CriteriaHeading : List Char → Prop :=
  Heading "2." ["Criterios de Aceptación","Acceptance Criteria"]

def AllowedBullet : List Char → Prop := Bullet ["Archivos permitidos","Allowed files"]

def ForbiddenBullet : List Char → Prop :=
  Bullet ["Archivos estrictamente prohibidos","Strictly forbidden files"]

/-- Section 1: from the first heading `## 1.` to the next `## 2.` or to the end of the text. -/
def SectionText (content s : List Char) : Prop :=
  ∃ before heading after,FirstOf ScopeHeading content before heading after ∧
    UpTo (StopsAt CriteriaHeading) after s

/-- Of section 1 what stands between its first `- Allowed files:` and the next
`- Strictly forbidden files:` or the end of the section. -/
def AllowedText (content x : List Char) : Prop :=
  ∃ s before bullet after,SectionText content s ∧ FirstOf AllowedBullet s before bullet after ∧
    UpTo (StopsAt ForbiddenBullet) after x

/-- Of section 1 what stands behind its first `- Strictly forbidden files:`. -/
def ForbiddenText (content x : List Char) : Prop :=
  ∃ s before bullet,SectionText content s ∧ FirstOf ForbiddenBullet s before bullet x

section titles

variable {titles : List String}

/-- No title is the front of another one. -/
def distinct (titles : List String) : Bool :=
  titles.all fun t => titles.all fun t' =>
    !(t.toList.map foldCase).isPrefixOf (t'.toList.map foldCase) || t == t'

/-- Every title begins with one of these letters. -/
def lettered (titles : List String) : Bool :=
  titles.all fun t => (t.toList.map foldCase).head?.any (['a','c','e','s','t'].contains ·)

theorem oneOf_prefixFree (h : distinct titles = true) : PrefixFree (OneOf titles) := by
  have hsame {t t' : String} (ht : t ∈ titles) (ht' : t' ∈ titles)
      (hpre : t.toList.map foldCase <+: t'.toList.map foldCase) : t = t' := by
    have hpair := List.all_eq_true.mp (List.all_eq_true.mp h t ht) t' ht'
    rw [Bool.or_eq_true,List.isPrefixOf_iff_prefix.mpr hpre] at hpair
    simpa using hpair
  intro v w x y hv hw heq
  obtain ⟨t,ht,hv⟩ := hv
  obtain ⟨t',ht',hw⟩ := hw
  have hmap := congrArg (List.map foldCase) heq
  rw [List.map_append,List.map_append,hv,hw] at hmap
  have htitle : t = t' := by
    have hpre : t.toList.map foldCase <+: t'.toList.map foldCase++y.map foldCase :=
      ⟨_,hmap⟩
    cases List.prefix_or_prefix_of_prefix hpre (List.prefix_append _ _) with
    | inl hfront => exact hsame ht ht' hfront
    | inr hfront => exact (hsame ht' ht hfront).symm
  subst htitle
  have hlen : v.length = w.length := by
    have hmapped := congrArg List.length (hv.trans hw.symm)
    simpa using hmapped
  exact (List.append_inj heq hlen).1

theorem letter_not_space {c d : Char} (h : foldCase c = d) (hd : d ∈ ['a','c','e','s','t']) :
    PyText.isSpace c = false := by
  cases foldCase_letter h hd with
  | inl halpha =>
    have hrange := isAlpha_range halpha
    simp only [PyText.isSpace,Bool.or_eq_false_iff,Bool.and_eq_false_iff,decide_eq_false_iff_not,
      beq_eq_false_iff_ne]
    omega
  | inr hlong =>
    rw [hlong]
    decide

theorem oneOf_head (h : lettered titles = true) {w : List Char} (hw : OneOf titles w) :
    w ≠ [] ∧ w.head?.any PyText.isSpace = false := by
  obtain ⟨t,ht,hw⟩ := hw
  have hletter := List.all_eq_true.mp h t ht
  rw [← hw] at hletter
  cases w with
  | nil => cases hletter
  | cons c cs =>
    refine ⟨List.cons_ne_nil _ _,?_⟩
    have hmem : foldCase c ∈ ['a','c','e','s','t'] := by
      simpa [List.contains_iff_mem] using hletter
    exact letter_not_space rfl hmem

end titles

section kinds

variable {number : String} {titles : List String}

theorem bullet_prefixFree (hdistinct : distinct titles = true) (hletter : lettered titles = true) :
    PrefixFree (Bullet titles) := by
  intro v w x y hv hw h
  obtain ⟨gap,label,rfl,hgap,hlabel⟩ := hv
  obtain ⟨gap',label',rfl,hgap',hlabel'⟩ := hw
  simp only [List.append_assoc,List.append_cancel_left_eq] at h
  obtain ⟨rfl,rfl⟩ := (oneOf_prefixFree hdistinct).after_class (fun _ hw => oneOf_head hletter hw)
    hgap.2 hgap'.2 hlabel hlabel' h
  rfl

theorem heading_prefixFree (hnumber : number.toList.head?.any PyText.isSpace = false)
    (hne : number.toList ≠ []) (hdistinct : distinct titles = true)
    (hletter : lettered titles = true) : PrefixFree (Heading number titles) := by
  intro v w x y hv hw h
  obtain ⟨gap₁,gap₂,title,rfl,hgap₁,hgap₂,htitle⟩ := hv
  obtain ⟨gap₁',gap₂',title',rfl,hgap₁',hgap₂',htitle'⟩ := hw
  simp only [List.append_assoc,List.append_cancel_left_eq] at h
  have hfront (z : List Char) : (number.toList++z).head?.any PyText.isSpace = false := by
    rwa [List.head?_append_of_ne_nil _ hne]
  obtain ⟨rfl,hrest⟩ := append_class_inj hgap₁.2 hgap₁'.2 (hfront _) (hfront _) h
  rw [List.append_cancel_left_eq] at hrest
  obtain ⟨rfl,rfl⟩ := (oneOf_prefixFree hdistinct).after_class (fun _ hw => oneOf_head hletter hw)
    hgap₂.2 hgap₂'.2 htitle htitle' hrest
  rfl

theorem spelled_fixed {s : String} (hs : (s.toList.all fun c => c.toNat < 65) = true)
    {w : List Char} (hfold : s.toList.map foldCase = s.toList) :
    Spelled s w ↔ w = s.toList := by
  rw [Spelled,hfold]
  constructor
  · exact fun h => map_foldCase_fixed h hs
  · intro h
    rw [h,hfold]

theorem takes_word {s : String} {w : List Char} : (DiffGate.word s).Takes w ↔ Spelled s w :=
  Pattern.takes_text

theorem takes_titles {a b : String} {w : List Char} :
    (Pattern.alt (DiffGate.word a) (DiffGate.word b)).Takes w ↔ OneOf [a,b] w := by
  rw [Pattern.takes_alt,takes_word,takes_word]
  simp [OneOf]

theorem takes_heading {a b : String} (hnumber : (number.toList.all fun c => c.toNat < 65) = true)
    (hfold : number.toList.map foldCase = number.toList) {w : List Char} :
    (Pattern.seqs [DiffGate.word "##",DiffGate.spaces,DiffGate.word number,DiffGate.spaces,
      .alt (DiffGate.word a) (DiffGate.word b)]).Takes w ↔ Heading number [a,b] w := by
  simp only [Pattern.takes_seqs_cons,Pattern.takes_seqs_nil,takes_titles,takes_word,
    spelled_fixed hnumber hfold,spelled_fixed (s := "##") (by decide) (by decide)]
  constructor
  · intro h
    obtain ⟨hashes,_,rfl,rfl,gap,_,rfl,hgap,n,_,rfl,rfl,gap',_,rfl,hgap',title,_,rfl,htitle,rfl⟩ :=
      h
    exact ⟨gap,gap',title,by simp,hgap,hgap',htitle⟩
  · intro h
    obtain ⟨gap,gap',title,rfl,hgap,hgap',htitle⟩ := h
    exact ⟨_,_,rfl,rfl,gap,_,rfl,hgap,_,_,rfl,rfl,gap',_,rfl,hgap',title,[],by simp,htitle,rfl⟩

theorem takes_bullet {a b : String} {w : List Char} :
    (Pattern.seqs [DiffGate.word "-",DiffGate.spaces,.alt (DiffGate.word a) (DiffGate.word b),
      DiffGate.word ":"]).Takes w ↔ Bullet [a,b] w := by
  simp only [Pattern.takes_seqs_cons,Pattern.takes_seqs_nil,takes_titles,takes_word,
    spelled_fixed (s := "-") (by decide) (by decide),
    spelled_fixed (s := ":") (by decide) (by decide)]
  constructor
  · intro h
    obtain ⟨dash,_,rfl,rfl,gap,_,rfl,hgap,label,_,rfl,hlabel,colon,_,rfl,rfl,rfl⟩ := h
    exact ⟨gap,label,by simp,hgap,hlabel⟩
  · intro h
    obtain ⟨gap,label,rfl,hgap,hlabel⟩ := h
    exact ⟨_,_,rfl,rfl,gap,_,rfl,hgap,label,_,rfl,hlabel,[':'],[],rfl,rfl,rfl⟩

end kinds

section regions

theorem takes_scopeHeading : DiffGate.scopeHeading.Takes = ScopeHeading :=
  funext fun _ => propext (takes_heading (by decide) (by decide))

theorem takes_criteriaHeading : DiffGate.criteriaHeading.Takes = CriteriaHeading :=
  funext fun _ => propext (takes_heading (by decide) (by decide))

theorem takes_allowedBullet : DiffGate.allowedBullet.Takes = AllowedBullet :=
  funext fun _ => propext takes_bullet

theorem takes_forbiddenBullet : DiffGate.forbiddenBullet.Takes = ForbiddenBullet :=
  funext fun _ => propext takes_bullet

theorem scopeHeading_prefixFree : PrefixFree ScopeHeading :=
  heading_prefixFree (by decide) (by decide) (by decide) (by decide)

theorem allowedBullet_prefixFree : PrefixFree AllowedBullet :=
  bullet_prefixFree (by decide) (by decide)

theorem forbiddenBullet_prefixFree : PrefixFree ForbiddenBullet :=
  bullet_prefixFree (by decide) (by decide)

variable {content s x : List Char}

theorem sectionText_iff : (DiffGate.scopeHeading.find [] content).map (fun t =>
    (Pattern.alt DiffGate.criteriaHeading .atEnd).upTo t.before t.after) = some s ↔
      SectionText content s := by
  have hL : PrefixFree DiffGate.scopeHeading.Takes := by
    rw [takes_scopeHeading]
    exact scopeHeading_prefixFree
  rw [Pattern.region_iff (by decide) hL (by decide),takes_scopeHeading,takes_criteriaHeading]
  rfl

theorem allowed_iff : (DiffGate.allowedBullet.find [] s).map (fun t =>
    (Pattern.alt DiffGate.forbiddenBullet .atEnd).upTo t.before t.after) = some x ↔
      ∃ before bullet after,FirstOf AllowedBullet s before bullet after ∧
        UpTo (StopsAt ForbiddenBullet) after x := by
  have hL : PrefixFree DiffGate.allowedBullet.Takes := by
    rw [takes_allowedBullet]
    exact allowedBullet_prefixFree
  rw [Pattern.region_iff (by decide) hL (by decide),takes_allowedBullet,takes_forbiddenBullet]

theorem forbidden_iff : (DiffGate.forbiddenBullet.find [] s).map Cursor.after = some x ↔
    ∃ before bullet,FirstOf ForbiddenBullet s before bullet x := by
  have hL : PrefixFree DiffGate.forbiddenBullet.Takes := by
    rw [takes_forbiddenBullet]
    exact forbiddenBullet_prefixFree
  rw [Pattern.find_iff (by decide) hL,takes_forbiddenBullet]

end regions

end SoftwareFactory.SpecRegions
