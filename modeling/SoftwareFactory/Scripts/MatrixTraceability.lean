import SoftwareFactory.Lib.RegexMatches
import SoftwareFactory.Scripts.SpecAgreement
import Mathlib.Data.List.Dedup
import Mathlib.Data.Bool.AllAny

namespace SoftwareFactory.SpecGate

open Regex SpecAgreement

/-- Unicode tables in which no blank is a word character, and the long s, which matches `S`
under `re.IGNORECASE`, is one. -/
structure Tables extends PyText.Unicode where
  isWord_space : ∀ c,PyText.isSpace c = true → isWord c = false
  isWord_longS : isWord (Char.ofNat 0x17f) = true

def kinds : List String := ["AC","SEC","TEST"]

/-- The kinds that the matrix has to cover. -/
def tracedKinds : List String := ["AC","SEC"]

def opening (kind : String) : Pattern := .seqs [.char (· == '['),spaces 0,word kind,separator]

def closing : Pattern := .seqs [spaces 0,.char (· == ']')]

/-- An identifier without its brackets: `AC-1` as `ac_001`. -/
def spelling (kind : String) (n : Nat) : Pattern :=
  .seqs [word kind,separator,.many (· == '0') 0,word (String.ofList (PyText.digits n))]

/-- An identifier with these digits stands in the text, in brackets. -/
def Spelled (u : PyText.Unicode) (kind : String) (ds s : List Char) : Prop :=
  ∃ x front back y,s = x++(front++(ds++(back++y))) ∧ (opening kind).Takes front ∧ ds ≠ [] ∧
    (∀ c ∈ ds,(u.digit c).isSome = true) ∧ closing.Takes back

/-- The identifier of this number stands in the text, in brackets. -/
def Occurs (u : PyText.Unicode) (kind : String) (n : Nat) (s : List Char) : Prop :=
  ∃ ds,Spelled u kind ds s ∧ PyText.int u ds = some n

/-- The identifier stands in the text, with or without brackets, and no letter, digit or
underscore touches it. -/
def Mentions (u : PyText.Unicode) (kind : String) (n : Nat) (s : List Char) : Prop :=
  ∃ x w y,s = x++(w++y) ∧ (spelling kind n).Takes w ∧
    x.reverse.head?.any u.isWord = false ∧ y.head?.any u.isWord = false

def rows (matrix : List Char) : List (List Char) := matrix.splitOn '\n'

/-- Some row names the identifier together with a test. -/
def Tested (u : PyText.Unicode) (kind : String) (n : Nat) (matrix : List Char) : Prop :=
  ∃ row ∈ rows matrix,Mentions u kind n row ∧ ∃ m,Occurs u "TEST" m row

/-- The rows that name the identifier name no test. -/
structure Bare (u : PyText.Unicode) (kind : String) (n : Nat) (matrix : List Char) : Prop where
  named : ∃ row ∈ rows matrix,Mentions u kind n row
  untested : ∀ row ∈ rows matrix,Mentions u kind n row → ∀ m,¬ Occurs u "TEST" m row

/-- Every identifier of the text has a test in the matrix. -/
def Traced (u : PyText.Unicode) (content : List Char) : Prop :=
  ∃ matrix,matrixSection content = some matrix ∧
    ∀ kind ∈ tracedKinds,∀ n,Occurs u kind n content → Tested u kind n matrix

/-- What the gate asks of a text. -/
structure Checked (u : PyText.Unicode) (content : List Char) : Prop where
  sections : ∀ x ∈ requiredSections,(x.1.search [] content).isSome = true
  short : ∀ kind ∈ kinds,∀ ds,Spelled u kind ds content → ds.length ≤ 4300
  named : ∀ kind ∈ kinds,∃ n,Occurs u kind n content
  mentioned : ∃ matrix,matrixSection content = some matrix ∧
    ∀ kind ∈ tracedKinds,∀ n,Occurs u kind n content → Mentions u kind n matrix

section lists

variable {α β ε : Type} {f : α → Except ε β}

/-- A list is read entry by entry, if every entry can be read. -/
theorem mapM_ok {l : List α} {bs : List β} (h : l.mapM f = .ok bs) :
    (∀ a ∈ l,∃ b ∈ bs,f a = .ok b) ∧ ∀ b ∈ bs,∃ a ∈ l,f a = .ok b := by
  induction l generalizing bs with
  | nil =>
    obtain rfl := Except.ok.inj h
    simp
  | cons a l ih =>
    rw [List.mapM_cons] at h
    cases ha : f a with
    | error e =>
      rw [ha] at h
      cases h
    | ok b =>
      rw [ha] at h
      cases hl : l.mapM f with
      | error e =>
        rw [hl] at h
        cases h
      | ok cs =>
        rw [hl] at h
        obtain rfl := Except.ok.inj h
        obtain ⟨hread,hfrom⟩ := ih hl
        constructor
        · intro c hc
          rcases List.mem_cons.mp hc with rfl | hc
          · exact ⟨b,List.mem_cons_self,ha⟩
          · obtain ⟨d,hd,hcd⟩ := hread c hc
            exact ⟨d,List.mem_cons_of_mem _ hd,hcd⟩
        · intro d hd
          rcases List.mem_cons.mp hd with rfl | hd
          · exact ⟨a,List.mem_cons_self,ha⟩
          · obtain ⟨c,hc,hcd⟩ := hfrom d hd
            exact ⟨c,List.mem_cons_of_mem _ hc,hcd⟩

theorem mapM_isOk {l : List α} (h : ∀ a ∈ l,∃ b,f a = .ok b) : ∃ bs,l.mapM f = .ok bs := by
  induction l with
  | nil => exact ⟨[],rfl⟩
  | cons a l ih =>
    obtain ⟨b,hb⟩ := h a List.mem_cons_self
    obtain ⟨bs,hbs⟩ := ih fun c hc => h c (List.mem_cons_of_mem _ hc)
    refine ⟨b::bs,?_⟩
    rw [List.mapM_cons,hb,hbs]
    rfl

theorem except_bind_ok {x : Except ε α} {g : α → Except ε β} {b : β} (h : x >>= g = .ok b) :
    ∃ a,x = .ok a ∧ g a = .ok b := by
  cases x with
  | error e => cases h
  | ok a => exact ⟨a,rfl,h⟩

theorem mem_of_mapM {l : List α} {bs : List β} (h : l.mapM f = .ok bs) (b : β) :
    b ∈ bs ↔ ∃ a ∈ l,f a = .ok b := by
  obtain ⟨hread,hfrom⟩ := mapM_ok h
  constructor
  · exact hfrom b
  · intro hparts
    obtain ⟨a,ha,hab⟩ := hparts
    obtain ⟨c,hc,hac⟩ := hread a ha
    rw [hab] at hac
    obtain rfl := Except.ok.inj hac
    exact hc

end lists

section letters

theorem letter_not_space {c : Char} (h : c.isAlpha = true ∨ c = Char.ofNat 0x17f) :
    PyText.isSpace c = false := by
  rcases h with h | rfl
  · have hrange := isAlpha_range h
    simp only [PyText.isSpace]
    simp
    omega
  · decide

theorem letter_isWord (u : Tables) {c : Char} (h : c.isAlpha = true ∨ c = Char.ofNat 0x17f) :
    u.isWord c = true := by
  rcases h with h | rfl
  · have hrange := isAlpha_range h
    rw [u.isWord_ascii c (by omega),Char.isAlphanum,h]
    rfl
  · exact u.isWord_longS

/-- The name of a kind is a word of letters. -/
theorem word_letters {kind : String} (hk : kind ∈ kinds) {w : List Char}
    (hw : (word kind).Takes w) : w.length = kind.toList.length ∧
      ∀ c ∈ w,c.isAlpha = true ∨ c = Char.ofNat 0x17f := by
  have hkind : ∀ kind ∈ kinds,∀ d ∈ kind.toList.map foldCase,d ∈ ['a','c','e','s','t'] := by
    have hall : (kinds.all fun kind => (kind.toList.map foldCase).all
        fun d => decide (d ∈ ['a','c','e','s','t'])) = true := by decide
    intro kind hkind d hd
    have hletters := List.all_eq_true.mp hall kind hkind
    simpa using List.all_eq_true.mp hletters d hd
  have hmap := Pattern.takes_text.mp hw
  constructor
  · have hlen := congrArg List.length hmap
    simpa using hlen
  · intro c hc
    apply foldCase_letter rfl
    apply hkind kind hk
    rw [← hmap]
    exact List.mem_map_of_mem hc

theorem digits_isDigit {n : Nat} {c : Char} (hc : c ∈ PyText.digits n) : c.isDigit = true :=
  Nat.isDigit_of_mem_toDigits (by omega) (by omega) hc

/-- A number is written with these digits only. -/
theorem word_digits {n : Nat} {w : List Char}
    (hw : (word (String.ofList (PyText.digits n))).Takes w) : w = PyText.digits n := by
  have hfold : (PyText.digits n).map foldCase = PyText.digits n := by
    rw [List.map_congr_left fun c hc => foldCase_digit (digits_isDigit hc),List.map_id']
  have hmap := Pattern.takes_text.mp hw
  rw [String.toList_ofList,hfold] at hmap
  apply map_foldCase_fixed hmap
  rw [List.all_eq_true]
  intro c hc
  have hrange := isDigit_range (digits_isDigit hc)
  simp
  omega

end letters

section identifiers

variable (u : Tables) {kind : String} {s ds : List Char}

theorem separator_takes {w : List Char} (h : separator.Takes w) :
    w = [] ∨ w = ['_'] ∨ w = ['-'] := by
  rcases h with ⟨c,hc,rfl⟩ | rfl
  · right
    simpa using hc
  · exact .inl rfl

theorem opening_takes {w : List Char} (h : (opening kind).Takes w) :
    ∃ blanks k sep,w = '['::(blanks++(k++sep)) ∧ (∀ c ∈ blanks,PyText.isSpace c = true) ∧
      (word kind).Takes k ∧ separator.Takes sep := by
  obtain ⟨_,w₁,rfl,⟨c,hc,rfl⟩,blanks,w₂,rfl,hblanks,k,sep,rfl,hk,hsep⟩ := h
  obtain rfl : c = '[' := by simpa using hc
  exact ⟨blanks,k,sep,rfl,hblanks.2,hk,Pattern.takes_seqs_one.mp hsep⟩

theorem closing_takes {w : List Char} (h : closing.Takes w) :
    ∃ blanks,w = blanks++[']'] ∧ ∀ c ∈ blanks,PyText.isSpace c = true := by
  obtain ⟨blanks,w₁,rfl,hblanks,hend⟩ := h
  obtain ⟨c,hc,rfl⟩ := Pattern.takes_seqs_one.mp hend
  obtain rfl : c = ']' := by simpa using hc
  exact ⟨blanks,rfl,hblanks.2⟩

theorem digit_not_space {c : Char} (h : (u.digit c).isSome = true) : PyText.isSpace c = false := by
  have hword := u.digit_word c h
  by_contra hspace
  rw [u.isWord_space c (by simpa using hspace)] at hword
  cases hword

/-- Of the signs an identifier is written with, none is a digit. -/
theorem sign_not_digit {c : Char} (hc : c ∈ ['[',']','_','-']) : (u.digit c).isSome = false := by
  have hsigns : ∀ c ∈ ['[',']','_','-'],c.toNat < 128 ∧ c.isDigit = false :=
    List.all_iff_forall_prop.mp (by decide)
  obtain ⟨hascii,hdigit⟩ := hsigns c hc
  rw [u.digit_ascii c hascii,hdigit]
  rfl

theorem closing_head {w y : List Char} (h : closing.Takes w) :
    (w++y).head?.any (fun c => (u.digit c).isSome) = false := by
  obtain ⟨blanks,rfl,hblanks⟩ := closing_takes h
  cases blanks with
  | nil => exact sign_not_digit u (by decide)
  | cons c blanks =>
    have hspace := hblanks c List.mem_cons_self
    rw [List.cons_append,List.cons_append,List.head?_cons,Option.any_some]
    by_contra hdigit
    rw [Bool.not_eq_false] at hdigit
    rw [digit_not_space u hdigit] at hspace
    cases hspace

/-- The digits of the identifier at a place are determined. -/
theorem digits_unique (hk : kind ∈ kinds) {front front' ds ds' back back' y y' : List Char}
    (h : front++(ds++(back++y)) = front'++(ds'++(back'++y')))
    (hfront : (opening kind).Takes front) (hfront' : (opening kind).Takes front')
    (hds : ds ≠ []) (hds' : ds' ≠ []) (hdigits : ∀ c ∈ ds,(u.digit c).isSome = true)
    (hdigits' : ∀ c ∈ ds',(u.digit c).isSome = true) (hback : closing.Takes back)
    (hback' : closing.Takes back') : ds = ds' := by
  obtain ⟨blanks,k,sep,rfl,hblanks,hkind,hsep⟩ := opening_takes hfront
  obtain ⟨blanks',k',sep',rfl,hblanks',hkind',hsep'⟩ := opening_takes hfront'
  have hletters := word_letters hk hkind
  have hletters' := word_letters hk hkind'
  have hhead (k rest : List Char) (hlen : k.length = kind.toList.length)
      (hl : ∀ c ∈ k,c.isAlpha = true ∨ c = Char.ofNat 0x17f) :
      (k++rest).head?.any PyText.isSpace = false := by
    have hpos : ∀ kind ∈ kinds,0 < kind.toList.length := by decide
    have hkpos := hpos kind hk
    cases k with
    | nil =>
      rw [← hlen] at hkpos
      cases hkpos
    | cons c k => exact letter_not_space (hl c List.mem_cons_self)
  have hsign (ds rest : List Char) (hne : ds ≠ [])
      (hall : ∀ c ∈ ds,(u.digit c).isSome = true) :
      (ds++rest).head?.any (fun c => c == '_' || c == '-') = false := by
    cases ds with
    | nil => exact absurd rfl hne
    | cons c ds =>
      have hc := hall c List.mem_cons_self
      by_contra hs
      have hs : c = '_' ∨ c = '-' := by
        rw [Bool.not_eq_false] at hs
        simpa only [List.cons_append,List.head?_cons,Option.any_some,Bool.or_eq_true,
          beq_iff_eq] using hs
      have hmem : c ∈ ['[',']','_','-'] := by rcases hs with rfl | rfl <;> decide
      rw [sign_not_digit u hmem] at hc
      cases hc
  have hseps (sep : List Char) (h : separator.Takes sep) :
      ∀ c ∈ sep,(c == '_' || c == '-') = true := by
    rcases separator_takes h with rfl | rfl | rfl <;> simp
  simp only [List.cons_append,List.append_assoc,List.cons.injEq,true_and] at h
  have hafter := (append_class_inj hblanks hblanks' (hhead k _ hletters.1 hletters.2)
    (hhead k' _ hletters'.1 hletters'.2) h).2
  have hkk := List.append_inj hafter (hletters.1.trans hletters'.1.symm)
  have hrest := (append_class_inj (hseps sep hsep) (hseps sep' hsep') (hsign ds _ hds hdigits)
    (hsign ds' _ hds' hdigits') hkk.2).2
  exact (append_class_inj hdigits hdigits' (closing_head u hback) (closing_head u hback') hrest).1

theorem opening_free (hk : kind ∈ kinds) :
    (opening kind).free = true ∧ (opening kind).plain = true := by
  have hkinds : ∀ kind ∈ kinds,(opening kind).free = true ∧ (opening kind).plain = true := by
    decide
  exact hkinds kind hk

/-- What a match of the pattern for identifiers is. -/
theorem identifier_first (hk : kind ∈ kinds) {before : List Char} {m : Match}
    (h : (idPattern u.toUnicode kind).first before s = some m) :
    ∃ front ds back y,s = front++(ds++(back++y)) ∧ (opening kind).Takes front ∧ ds ≠ [] ∧
      (∀ c ∈ ds,(u.digit c).isSome = true) ∧ closing.Takes back ∧ m.groups = [ds] ∧
      m.text = front++(ds++back) := by
  have hclosing : closing.free = true ∧ closing.plain = true := ⟨rfl,rfl⟩
  have hdigits : (Pattern.many (fun c => (u.digit c).isSome) 1).free = true ∧
      (Pattern.many (fun c => (u.digit c).isSome) 1).plain = true := ⟨rfl,rfl⟩
  obtain ⟨front,ds,back,y,hs,hfront,hds,hback,hgroups,htext⟩ :=
    Pattern.first_one_group (opening_free hk) hdigits hclosing h
  refine ⟨front,ds,back,y,hs,hfront,?_,hds.2,hback,hgroups,htext⟩
  intro heq
  subst heq
  exact absurd hds.1 (by simp)

/-- A match of the pattern begins with its only opening bracket. -/
theorem identifier_bracket (hk : kind ∈ kinds) {before : List Char} {m : Match}
    (h : (idPattern u.toUnicode kind).first before s = some m) :
    ∃ tail,m.text = '['::tail ∧ '[' ∉ tail := by
  obtain ⟨front,ds,back,y,-,hfront,-,hdigits,hback,-,htext⟩ := identifier_first u hk h
  obtain ⟨blanks,k,sep,rfl,hblanks,hkind,hsep⟩ := opening_takes hfront
  obtain ⟨blanks',rfl,hblanks'⟩ := closing_takes hback
  refine ⟨_,htext,?_⟩
  have hspaces (l : List Char) (hl : ∀ c ∈ l,PyText.isSpace c = true) : '[' ∉ l := by
    intro hmem
    exact absurd (hl _ hmem) (by decide)
  have hletters : '[' ∉ k := by
    intro hmem
    exact absurd ((word_letters hk hkind).2 _ hmem) (by decide)
  have hsign : '[' ∉ sep := by
    rcases separator_takes hsep with rfl | rfl | rfl <;> decide
  have hds : '[' ∉ ds := by
    intro hmem
    have hc := hdigits _ hmem
    rw [sign_not_digit u (by decide)] at hc
    cases hc
  simp [hspaces _ hblanks,hspaces _ hblanks',hletters,hsign,hds]

theorem idPattern_free (hk : kind ∈ kinds) : (idPattern u.toUnicode kind).free = true := by
  have hkinds : ∀ kind ∈ kinds,(word kind).free = true := by decide
  simp [idPattern,Pattern.seqs,Pattern.free,hkinds kind hk,spaces,separator,Pattern.opt]

/-- An identifier is found where it stands. -/
theorem identifier_found (hk : kind ∈ kinds) {front back x y : List Char}
    (hfront : (opening kind).Takes front) (hds : ds ≠ [])
    (hdigits : ∀ c ∈ ds,(u.digit c).isSome = true) (hback : closing.Takes back) :
    ∃ m,(idPattern u.toUnicode kind).first x (front++(ds++(back++y))) = some m ∧
      m.groups = [ds] := by
  have htakes : (idPattern u.toUnicode kind).Takes (front++(ds++back)) := by
    have hparts := @Pattern.takes_seqs_append
      [.char (· == '['),spaces 0,word kind,separator]
      [.group (.many (fun c => (u.digit c).isSome) 1),spaces 0,.char (· == ']')]
      (front++(ds++back))
    refine hparts.mpr ⟨front,ds++back,rfl,hfront,ds,back,rfl,⟨?_,hdigits⟩,hback⟩
    exact List.length_pos_iff.mpr hds
  have hrun := (Pattern.run_free_iff (idPattern_free u hk)
    ⟨x,front++(ds++(back++y)),[]⟩).mpr ⟨_,htakes,y,by simp⟩
  obtain ⟨m,hm⟩ := Option.isSome_iff_exists.mp (Pattern.first_isSome.mpr hrun)
  obtain ⟨front',ds',back',y',hs,hfront',hds',hdigits',hback',hgroups,-⟩ :=
    identifier_first u hk hm
  have hdd := digits_unique u hk hs hfront hfront' hds hds' hdigits hdigits' hback hback'
  exact ⟨m,hm,by rw [hgroups,hdd]⟩

/-- No match that begins before a bracket reaches beyond it. -/
theorem match_before_bracket (hk : kind ∈ kinds) {x w z : List Char} {m : Match}
    (hw : w ≠ []) (hm : (idPattern u.toUnicode kind).first x (w++ '['::z) = some m) :
    m.text.length ≤ w.length := by
  obtain ⟨tail,htext,hbracket⟩ := identifier_bracket u hk hm
  obtain ⟨t,-,-,hrest⟩ := Pattern.first_eq_some hm
  by_contra hlong
  rw [htext] at hrest hlong
  cases w with
  | nil => exact hw rfl
  | cons c w =>
    have htail : w++ '['::z = tail++t.after := (List.cons.inj hrest).2
    apply hbracket
    have hlen : w.length < tail.length := by
      rw [List.length_cons,List.length_cons] at hlong
      omega
    have hget : (tail++t.after)[w.length]? = some '[' := by
      rw [← htail,List.getElem?_append_right (Nat.le_refl _),Nat.sub_self]
      rfl
    rw [List.getElem?_append_left hlen] at hget
    exact List.mem_of_getElem? hget

/-- `re.findall` lists exactly the identifiers that stand in the text. -/
theorem spelled_iff (hk : kind ∈ kinds) :
    Spelled u.toUnicode kind ds s ↔
      ∃ m ∈ (idPattern u.toUnicode kind).findall s,m.groups.headD [] = ds := by
  constructor
  · intro h
    obtain ⟨x,front,back,y,rfl,hfront,hds,hdigits,hback⟩ := h
    obtain ⟨m,hm,hgroups⟩ :=
      identifier_found u hk (x := x.reverse) (y := y) hfront hds hdigits hback
    obtain ⟨tail,htext,-⟩ := identifier_bracket u hk hm
    obtain ⟨blanks,k,sep,hopen,-⟩ := opening_takes hfront
    refine ⟨m,Pattern.findall_of_free hm (by rw [htext]; exact List.cons_ne_nil _ _) ?_,?_⟩
    · intro v w m' hx hw hm'
      rw [hopen] at hm'
      exact match_before_bracket u hk hw hm'
    · rw [hgroups]
      rfl
  · intro h
    obtain ⟨m,hm,rfl⟩ := h
    obtain ⟨x,z,rfl,hfirst,-⟩ := Pattern.findall_place hm
    obtain ⟨front,ds,back,y,rfl,hfront,hds,hdigits,hback,hgroups,-⟩ :=
      identifier_first u hk hfirst
    rw [hgroups]
    exact ⟨x,front,back,y,rfl,hfront,hds,hdigits,hback⟩

theorem int_isSome {v : PyText.Unicode} : (PyText.int v ds).isSome = true ↔ ds.length ≤ 4300 := by
  rw [PyText.int]
  split_ifs with h
  · simp [h]
  · simp
    omega

/-- The number of a match. -/
def matchNumber (v : PyText.Unicode) (m : Match) : Except PyError Nat :=
  (PyText.int v (m.groups.headD [])).elim (.error .value) .ok

theorem matchNumber_ok {v : PyText.Unicode} {m : Match} {n : Nat} :
    matchNumber v m = .ok n ↔ PyText.int v (m.groups.headD []) = some n := by
  rw [matchNumber]
  cases PyText.int v (m.groups.headD []) <;> simp

theorem identifiers_eq (v : PyText.Unicode) :
    identifiers v kind s = (do
      let numbers ← ((idPattern v kind).findall s).mapM (matchNumber v)
      return numbers.dedup.insertionSort fun a b => canonical kind a ≤ canonical kind b) := by
  rw [identifiers]
  refine congrArg (fun number : Match → Except PyError Nat => show Except PyError (List Nat) from do
    let numbers ← ((idPattern v kind).findall s).mapM number
    return numbers.dedup.insertionSort fun a b => canonical kind a ≤ canonical kind b) ?_
  funext m
  rw [matchNumber]
  cases PyText.int v (m.groups.headD []) <;> rfl

/-- The identifiers that are collected are those of the text. -/
theorem mem_identifiers (hk : kind ∈ kinds) {ids : List Nat}
    (h : identifiers u.toUnicode kind s = .ok ids) (n : Nat) :
    n ∈ ids ↔ Occurs u.toUnicode kind n s := by
  rw [identifiers_eq] at h
  cases hm : ((idPattern u.toUnicode kind).findall s).mapM (matchNumber u.toUnicode) with
  | error e =>
    rw [hm] at h
    cases h
  | ok numbers =>
    rw [hm] at h
    obtain rfl := Except.ok.inj h
    rw [List.mem_insertionSort,List.mem_dedup,mem_of_mapM hm]
    simp only [matchNumber_ok]
    constructor
    · intro hparts
      obtain ⟨m,hmem,hn⟩ := hparts
      exact ⟨_,(spelled_iff u hk).mpr ⟨m,hmem,rfl⟩,hn⟩
    · intro hparts
      obtain ⟨ds,hspelled,hn⟩ := hparts
      obtain ⟨m,hmem,rfl⟩ := (spelled_iff u hk).mp hspelled
      exact ⟨m,hmem,hn⟩

/-- Collecting them fails for a number that is too long only. -/
theorem identifiers_isOk (hk : kind ∈ kinds) : (∃ ids,identifiers u.toUnicode kind s = .ok ids) ↔
    ∀ ds,Spelled u.toUnicode kind ds s → ds.length ≤ 4300 := by
  have hlong (m : Match) : (∃ n,matchNumber u.toUnicode m = .ok n) ↔
      (m.groups.headD []).length ≤ 4300 := by
    simp only [matchNumber_ok,← Option.isSome_iff_exists,int_isSome]
  constructor
  · intro hparts ds hspelled
    obtain ⟨ids,h⟩ := hparts
    obtain ⟨m,hmem,rfl⟩ := (spelled_iff u hk).mp hspelled
    rw [identifiers_eq] at h
    cases hm : ((idPattern u.toUnicode kind).findall s).mapM (matchNumber u.toUnicode) with
    | error e =>
      rw [hm] at h
      cases h
    | ok numbers =>
      obtain ⟨n,-,hn⟩ := (mapM_ok hm).1 m hmem
      exact (hlong m).mp ⟨n,hn⟩
  · intro hshort
    have hall (m : Match) (hmem : m ∈ (idPattern u.toUnicode kind).findall s) :
        ∃ n,matchNumber u.toUnicode m = .ok n :=
      (hlong m).mpr (hshort _ ((spelled_iff u hk).mpr ⟨m,hmem,rfl⟩))
    obtain ⟨numbers,hnumbers⟩ := mapM_isOk hall
    rw [identifiers_eq,hnumbers]
    exact ⟨_,rfl⟩

end identifiers

section mentions

variable (u : Tables) {kind : String} {n : Nat} {s w : List Char}

theorem tracedKinds_kinds (hk : kind ∈ tracedKinds) : kind ∈ kinds := by
  have hall : ∀ kind ∈ tracedKinds,kind ∈ kinds := by decide
  exact hall kind hk

theorem spelling_takes (h : (spelling kind n).Takes w) : ∃ k sep zeros,
    w = k++(sep++(zeros++PyText.digits n)) ∧ (word kind).Takes k ∧ separator.Takes sep ∧
      ∀ c ∈ zeros,c = '0' := by
  obtain ⟨k,_,rfl,hk,sep,_,rfl,hsep,zeros,_,rfl,hzeros,hn⟩ := h
  have hdigits := word_digits (Pattern.takes_seqs_one.mp hn)
  refine ⟨k,sep,zeros,by rw [hdigits],hk,hsep,?_⟩
  intro c hc
  simpa using hzeros.2 c hc

/-- An identifier begins with a letter. -/
theorem spelling_head (hk : kind ∈ kinds) (h : (spelling kind n).Takes w) (y : List Char) :
    (w++y).head?.any u.isWord = true := by
  obtain ⟨k,sep,zeros,rfl,hkind,-⟩ := spelling_takes h
  obtain ⟨hlen,hletters⟩ := word_letters hk hkind
  have hpos : ∀ kind ∈ kinds,0 < kind.toList.length := by decide
  have hkpos := hpos kind hk
  cases k with
  | nil =>
    rw [← hlen] at hkpos
    cases hkpos
  | cons c k => exact letter_isWord u (hletters c List.mem_cons_self)

/-- An identifier ends with a digit. -/
theorem spelling_last (h : (spelling kind n).Takes w) (x : List Char) :
    (w.reverse++x).head?.any u.isWord = true := by
  obtain ⟨k,sep,zeros,rfl,-⟩ := spelling_takes h
  have hdigit (c : Char) (hc : c ∈ PyText.digits n) : u.isWord c = true := by
    have hrange := isDigit_range (digits_isDigit hc)
    rw [u.isWord_ascii c (by omega),Char.isAlphanum,digits_isDigit hc]
    simp
  simp only [List.reverse_append,List.append_assoc]
  cases hd : (PyText.digits n).reverse with
  | nil =>
    rw [List.reverse_eq_nil_iff] at hd
    exact absurd hd Nat.toDigits_ne_nil
  | cons c ds =>
    apply hdigit
    rw [← List.mem_reverse,hd]
    exact List.mem_cons_self

theorem not_word_of_all {l y : List Char} (hne : l ≠ []) (hl : ∀ c ∈ l,u.isWord c = false) :
    (l++y).head?.any u.isWord = false := by
  cases l with
  | nil => exact absurd rfl hne
  | cons c l => exact hl c List.mem_cons_self

/-- A bracket and blanks are no word. -/
theorem bracket_not_word {c b : Char} (hb : b = '[' ∨ b = ']')
    (hc : c = b ∨ PyText.isSpace c = true) : u.isWord c = false := by
  rcases hc with rfl | hc
  · rcases hb with rfl | rfl
    · exact u.isWord_ascii _ (by decide)
    · exact u.isWord_ascii _ (by decide)
  · exact u.isWord_space c hc

theorem spelling_free : (spelling kind n).free = true := by
  simp [spelling,word,Pattern.seqs,Pattern.free,Pattern.free_text,separator,Pattern.opt]

/-- A mention is a spelling between two tests. -/
theorem run_mention (c : Cursor) : (mention u.toUnicode kind n).run c =
    (((Pattern.alt (.seqs [.char (· == '['),spaces 0]) (.boundary u.isWord)).run c).flatMap
      (spelling kind n).run).flatMap (Pattern.alt closing (.boundary u.isWord)).run := by
  have hfirst := Pattern.run_seqs_one
    (.alt (.seqs [.char (· == '['),spaces 0]) (.boundary u.isWord)) c
  have hlast : (Pattern.alt closing (.boundary u.isWord)).run =
      (Pattern.seqs [.alt closing (.boundary u.isWord)]).run :=
    funext fun t => (Pattern.run_seqs_one _ t).symm
  rw [← hfirst,hlast,spelling,← Pattern.run_seqs_append,← Pattern.run_seqs_append]
  rfl

/-- Behind the test before it no word goes on. -/
theorem before_mention {s t : Cursor}
    (h : t ∈ (Pattern.alt (.seqs [.char (· == '['),spaces 0]) (.boundary u.isWord)).run s)
    (hword : t.after.head?.any u.isWord = true) : t.before.head?.any u.isWord = false := by
  rcases List.mem_append.mp h with hopen | hopen
  · obtain ⟨z,⟨_,blanks,rfl,⟨c,hc,rfl⟩,hblanks⟩,-,hz⟩ := Pattern.run_takes rfl hopen
    obtain rfl : c = '[' := by simpa using hc
    have hspaces := (Pattern.takes_seqs_one.mp hblanks).2
    rw [hz]
    apply not_word_of_all u (by simp)
    intro d hd
    apply bracket_not_word u (.inl rfl)
    rw [List.mem_reverse,List.singleton_append,List.mem_cons] at hd
    exact hd.imp_right (hspaces d)
  · obtain ⟨rfl,hat⟩ := Pattern.mem_run_boundary.mp hopen
    rw [atBoundary,hword] at hat
    simpa using hat

/-- Where the test behind it stands no word goes on. -/
theorem behind_mention {s t : Cursor}
    (h : t ∈ (Pattern.alt closing (.boundary u.isWord)).run s)
    (hword : s.before.head?.any u.isWord = true) : s.after.head?.any u.isWord = false := by
  rcases List.mem_append.mp h with hclose | hclose
  · obtain ⟨z,hz,hafter,-⟩ := Pattern.run_takes rfl hclose
    obtain ⟨blanks,rfl,hblanks⟩ := closing_takes hz
    rw [hafter]
    apply not_word_of_all u (by simp)
    intro d hd
    apply bracket_not_word u (.inr rfl)
    rw [List.mem_append,List.mem_singleton] at hd
    exact hd.symm.imp_right (hblanks d)
  · obtain ⟨-,hat⟩ := Pattern.mem_run_boundary.mp hclose
    rw [atBoundary,hword] at hat
    simpa using hat

theorem mem_run_at_boundary {a : Pattern} {word : Char → Bool} {t : Cursor}
    (h : atBoundary word t = true) : t ∈ (Pattern.alt a (.boundary word)).run t := by
  apply List.mem_append_right
  exact Pattern.mem_run_boundary.mpr ⟨rfl,h⟩

/-- The regex for a mention finds exactly the identifiers that stand by themselves. -/
theorem mention_search (hk : kind ∈ kinds) :
    ((mention u.toUnicode kind n).search [] s).isSome = true ↔ Mentions u.toUnicode kind n s := by
  rw [Pattern.search_isSome]
  simp only [List.append_nil,run_mention]
  constructor
  · intro h
    obtain ⟨x,y,rfl,hrun⟩ := h
    obtain ⟨t₃,ht₃⟩ := List.isEmpty_eq_false_iff_exists_mem.mp hrun
    obtain ⟨t₂,ht₂,hclose⟩ := List.mem_flatMap.mp ht₃
    obtain ⟨t₁,hopen,ht₁⟩ := List.mem_flatMap.mp ht₂
    obtain ⟨w,hw,hafter,hbefore⟩ := Pattern.run_takes spelling_free ht₁
    obtain ⟨v,gs,hv⟩ := Pattern.run_reaches hopen
    have hbefore₁ : t₁.before = v.reverse++x.reverse := hv.before
    have hafter₁ : y = v++t₁.after := hv.after
    have hhead : t₁.after.head?.any u.isWord = true := by
      rw [hafter]
      exact spelling_head u hk hw t₂.after
    have hlast : t₂.before.head?.any u.isWord = true := by
      rw [hbefore]
      exact spelling_last u hw t₁.before
    refine ⟨t₁.before.reverse,w,t₂.after,?_,hw,?_,behind_mention u hclose hlast⟩
    · rw [hbefore₁,hafter₁,hafter]
      simp
    · rw [List.reverse_reverse]
      exact before_mention u hopen hhead
  · intro h
    obtain ⟨x,w,y,rfl,hw,hx,hy⟩ := h
    refine ⟨x,w++y,rfl,?_⟩
    have hplace : (⟨x.reverse,w++y,[]⟩ : Cursor).after = w++y := rfl
    obtain ⟨t,ht,hafter,hbefore⟩ := Pattern.takes_run hw hplace
    have hstart : atBoundary u.isWord ⟨x.reverse,w++y,[]⟩ = true := by
      rw [atBoundary,hx,spelling_head u hk hw]
      rfl
    have hend : atBoundary u.isWord t = true := by
      rw [atBoundary,hafter,hy,hbefore,spelling_last u hw]
      rfl
    rw [List.isEmpty_eq_false_iff_exists_mem]
    refine ⟨t,List.mem_flatMap.mpr ⟨t,List.mem_flatMap.mpr ⟨_,?_,ht⟩,mem_run_at_boundary hend⟩⟩
    exact mem_run_at_boundary hstart

theorem spelling_newline (hk : kind ∈ kinds) (h : (spelling kind n).Takes w) : '\n' ∉ w := by
  obtain ⟨k,sep,zeros,rfl,hkind,hsep,hzeros⟩ := spelling_takes h
  have hletters : '\n' ∉ k := by
    intro hmem
    exact absurd ((word_letters hk hkind).2 _ hmem) (by decide)
  have hsign : '\n' ∉ sep := by
    rcases separator_takes hsep with rfl | rfl | rfl <;> decide
  have hzero : '\n' ∉ zeros := by
    intro hmem
    exact absurd (hzeros _ hmem) (by decide)
  have hdigits : '\n' ∉ PyText.digits n := by
    intro hmem
    exact absurd (digits_isDigit hmem) (by decide)
  simp [hletters,hsign,hzero,hdigits]

/-- An identifier that stands in a text by itself stands in one of its rows by itself. -/
theorem mentions_row (hk : kind ∈ kinds) (h : Mentions u.toUnicode kind n s) :
    ∃ row ∈ rows s,Mentions u.toUnicode kind n row := by
  obtain ⟨x,w,y,rfl,hw,hx,hy⟩ := h
  have hhead {l : List Char} (hl : l.head?.any u.isWord = false) :
      (l.takeWhile (· != '\n')).head?.any u.isWord = false := by
    cases l with
    | nil => rfl
    | cons c l =>
      rw [List.takeWhile_cons]
      split_ifs
      · exact hl
      · rfl
  have hline := spelling_newline hk hw
  have hrow := line_mem_splitOn x (w++y)
  rw [List.takeWhile_append_of_pos (by
    intro c hc
    rw [bne_iff_ne]
    intro heq
    subst heq
    exact hline hc)] at hrow
  refine ⟨_,hrow,_,w,_,rfl,hw,?_,hhead hy⟩
  rw [List.reverse_reverse]
  exact hhead hx

theorem missing_isEmpty (hk : kind ∈ kinds) {ids : List Nat} :
    (missing u.toUnicode kind ids s).isEmpty = true ↔
      ∀ n ∈ ids,Mentions u.toUnicode kind n s := by
  rw [List.isEmpty_iff,missing,List.filter_eq_nil_iff]
  constructor
  · intro h n hn
    have hsome := h n hn
    rw [Option.isNone_iff_eq_none] at hsome
    exact (mention_search u hk).mp (Option.isSome_iff_ne_none.mpr hsome)
  · intro h n hn hnone
    have hsome := (mention_search u hk).mpr (h n hn)
    rw [Option.isNone_iff_eq_none.mp hnone] at hsome
    cases hsome

end mentions

section gate

variable (u : Tables) {content : List Char}

theorem isEmpty_of_named {kind : String} (hk : kind ∈ kinds) {ids : List Nat}
    (h : identifiers u.toUnicode kind content = .ok ids) :
    ids.isEmpty = false ↔ ∃ n,Occurs u.toUnicode kind n content := by
  rw [List.isEmpty_eq_false_iff_exists_mem]
  simp only [mem_identifiers u hk h]

/-- The run of the gate behind the search for the sections. -/
theorem validateSpec_eq {v : PyText.Unicode} {path : List Char} {acs secs tests : List Nat}
    (hsections : ∀ x ∈ requiredSections,(x.1.search [] content).isSome = true)
    (hacs : identifiers v "AC" content = .ok acs) (hsecs : identifiers v "SEC" content = .ok secs)
    (htests : identifiers v "TEST" content = .ok tests) :
    (∃ msg,validateSpec v path (some content) = .ok (true,msg)) ↔
      acs.isEmpty = false ∧ secs.isEmpty = false ∧ tests.isEmpty = false ∧
        ∃ matrix,matrixSection content = some matrix ∧
          (missing v "AC" acs matrix).isEmpty = true ∧
            (missing v "SEC" secs matrix).isEmpty = true := by
  have hfind : (requiredSections.find? fun x => (x.1.search [] content).isNone) = none := by
    rw [List.find?_eq_none]
    intro x hx hnone
    have hsome := hsections x hx
    rw [Option.isNone_iff_eq_none.mp hnone] at hsome
    cases hsome
  simp only [validateSpec,hfind,hacs,hsecs,htests,bind,Except.bind,pure,Except.pure]
  cases acs.isEmpty
  · cases secs.isEmpty
    · cases tests.isEmpty
      · cases matrixSection content with
        | none => simp
        | some matrix =>
          cases hac : (missing v "AC" acs matrix).isEmpty
          · simp [hac,-List.isEmpty_iff]
          · cases hsec : (missing v "SEC" secs matrix).isEmpty
            · simp [hac,hsec,-List.isEmpty_iff]
            · simp [hac,hsec,-List.isEmpty_iff]
      · simp
    · simp
  · simp

theorem sections_of_accepted {v : PyText.Unicode} {path msg : List Char}
    (h : validateSpec v path (some content) = .ok (true,msg)) :
    ∀ x ∈ requiredSections,(x.1.search [] content).isSome = true := by
  intro x hx
  rw [validateSpec] at h
  cases hfind : requiredSections.find? fun x => (x.1.search [] content).isNone with
  | some y =>
    simp only [hfind] at h
    cases h
  | none =>
    have hnone := List.find?_eq_none.mp hfind x hx
    rw [Option.isNone_iff_eq_none] at hnone
    exact Option.isSome_iff_ne_none.mpr hnone

theorem identifiers_of_accepted {v : PyText.Unicode} {path msg : List Char}
    (h : validateSpec v path (some content) = .ok (true,msg)) :
    ∃ acs secs tests,identifiers v "AC" content = .ok acs ∧
      identifiers v "SEC" content = .ok secs ∧ identifiers v "TEST" content = .ok tests := by
  rw [validateSpec] at h
  cases hfind : requiredSections.find? fun x => (x.1.search [] content).isNone with
  | some x =>
    simp only [hfind] at h
    cases h
  | none =>
    simp only [hfind] at h
    obtain ⟨acs,hacs,h⟩ := except_bind_ok h
    obtain ⟨secs,hsecs,h⟩ := except_bind_ok h
    obtain ⟨tests,htests,-⟩ := except_bind_ok h
    exact ⟨acs,secs,tests,hacs,hsecs,htests⟩

/-- The gate accepts exactly the texts that have the sections, an identifier of each kind, and
a matrix that mentions the identifiers. -/
theorem accepted_iff : Accepted u.toUnicode content ↔ Checked u.toUnicode content := by
  have hac : "AC" ∈ kinds := by decide
  have hsec : "SEC" ∈ kinds := by decide
  have htest : "TEST" ∈ kinds := by decide
  constructor
  · intro hparts
    obtain ⟨path,msg,h⟩ := hparts
    have hsections := sections_of_accepted h
    obtain ⟨acs,secs,tests,hacs,hsecs,htests⟩ := identifiers_of_accepted h
    obtain ⟨hacs',hsecs',htests',matrix,hmatrix,hmac,hmsec⟩ :=
      (validateSpec_eq hsections hacs hsecs htests).mp ⟨msg,h⟩
    refine ⟨hsections,?_,?_,matrix,hmatrix,?_⟩
    · intro kind hk
      apply (identifiers_isOk u hk).mp
      simp only [kinds,List.mem_cons,List.not_mem_nil,or_false] at hk
      rcases hk with rfl | rfl | rfl
      · exact ⟨acs,hacs⟩
      · exact ⟨secs,hsecs⟩
      · exact ⟨tests,htests⟩
    · intro kind hk
      simp only [kinds,List.mem_cons,List.not_mem_nil,or_false] at hk
      rcases hk with rfl | rfl | rfl
      · exact (isEmpty_of_named u hac hacs).mp hacs'
      · exact (isEmpty_of_named u hsec hsecs).mp hsecs'
      · exact (isEmpty_of_named u htest htests).mp htests'
    · intro kind hk n hn
      simp only [tracedKinds,List.mem_cons,List.not_mem_nil,or_false] at hk
      rcases hk with rfl | rfl
      · exact (missing_isEmpty u hac).mp hmac n ((mem_identifiers u hac hacs n).mpr hn)
      · exact (missing_isEmpty u hsec).mp hmsec n ((mem_identifiers u hsec hsecs n).mpr hn)
  · intro h
    obtain ⟨acs,hacs⟩ := (identifiers_isOk u hac).mpr (h.short _ hac)
    obtain ⟨secs,hsecs⟩ := (identifiers_isOk u hsec).mpr (h.short _ hsec)
    obtain ⟨tests,htests⟩ := (identifiers_isOk u htest).mpr (h.short _ htest)
    obtain ⟨matrix,hmatrix,hmentioned⟩ := h.mentioned
    have hmissing (kind : String) (hk : kind ∈ tracedKinds) {ids : List Nat}
        (hids : identifiers u.toUnicode kind content = .ok ids) :
        (missing u.toUnicode kind ids matrix).isEmpty = true := by
      have hk' := tracedKinds_kinds hk
      apply (missing_isEmpty u hk').mpr
      intro n hn
      exact hmentioned kind hk n ((mem_identifiers u hk' hids n).mp hn)
    refine ⟨[],(validateSpec_eq h.sections hacs hsecs htests).mpr ⟨?_,?_,?_,matrix,hmatrix,?_,?_⟩⟩
    · exact (isEmpty_of_named u hac hacs).mpr (h.named _ hac)
    · exact (isEmpty_of_named u hsec hsecs).mpr (h.named _ hsec)
    · exact (isEmpty_of_named u htest htests).mpr (h.named _ htest)
    · exact hmissing "AC" (by decide) hacs
    · exact hmissing "SEC" (by decide) hsecs

/-- An accepted spec has a test for every identifier, exactly if it is not one that passes the
checks with an identifier that only stands on rows without a test. -/
theorem accepted_traced_iff : (Accepted u.toUnicode content → Traced u.toUnicode content) ↔
    ¬ (Checked u.toUnicode content ∧ ∃ matrix,matrixSection content = some matrix ∧
      ∃ kind ∈ tracedKinds,∃ n,Occurs u.toUnicode kind n content ∧
        Bare u.toUnicode kind n matrix) := by
  rw [accepted_iff]
  constructor
  · intro h hfailing
    obtain ⟨hchecked,matrix,hmatrix,kind,hk,n,hn,hbare⟩ := hfailing
    obtain ⟨matrix',hmatrix',htested⟩ := h hchecked
    rw [hmatrix] at hmatrix'
    obtain rfl := Option.some.inj hmatrix'
    obtain ⟨row,hrow,hmentions,m,hm⟩ := htested kind hk n hn
    exact hbare.untested row hrow hmentions m hm
  · intro h hchecked
    obtain ⟨matrix,hmatrix,hmentioned⟩ := hchecked.mentioned
    refine ⟨matrix,hmatrix,?_⟩
    intro kind hk n hn
    by_contra huntested
    apply h
    refine ⟨hchecked,matrix,hmatrix,kind,hk,n,hn,?_,?_⟩
    · exact mentions_row u (tracedKinds_kinds hk) (hmentioned kind hk n hn)
    · intro row hrow hmentions m hm
      exact huntested ⟨row,hrow,hmentions,m,hm⟩

end gate

theorem longS_isWord_ascii {c : Char} (hc : c.toNat < 128) :
    (asciiTable.isWord c || c.toNat == 0x17f) = (c.isAlphanum || c == '_') := by
  have hnot : (c.toNat == 0x17f) = false := by
    rw [beq_eq_false_iff_ne]
    omega
  rw [hnot,Bool.or_false,asciiTable.isWord_ascii c hc]

theorem longS_digit_word {c : Char} (hc : (asciiTable.digit c).isSome = true) :
    (asciiTable.isWord c || c.toNat == 0x17f) = true := by
  rw [asciiTable.digit_word c hc,Bool.true_or]

theorem longS_isWord_space {c : Char} (hc : PyText.isSpace c = true) :
    (asciiTable.isWord c || c.toNat == 0x17f) = false := by
  have hunderscore : c ≠ '_' := by
    intro heq
    subst heq
    exact absurd hc (by decide)
  simp only [PyText.isSpace,Bool.or_eq_true,Bool.and_eq_true,decide_eq_true_eq,
    beq_iff_eq] at hc
  have halpha : c.isAlpha = false := by
    by_contra h
    have hrange := isAlpha_range (by simpa using h)
    omega
  have hdigit : c.isDigit = false := by
    by_contra h
    have hrange := isDigit_range (by simpa using h)
    omega
  have hlongS : c.toNat ≠ 0x17f := by omega
  simp [asciiTable,Char.isAlphanum,halpha,hdigit,hunderscore,hlongS]

/-- The ASCII tables with the long s. -/
def latinTable : Tables where
  isWord c := asciiTable.isWord c || c.toNat == 0x17f
  digit := asciiTable.digit
  isWord_ascii _ := longS_isWord_ascii
  digit_ascii := asciiTable.digit_ascii
  digit_lt := asciiTable.digit_lt
  digit_word _ := longS_digit_word
  isWord_space _ := longS_isWord_space
  isWord_longS := by decide

/-- A spec whose matrix lists the identifiers without a test. -/
def bareSpec : List Char :=
  "## 1. Scope and Boundaries\n- `src/main.py`\n## 2. Acceptance Criteria\n".toList++
    "- [AC-01] First.\n## 3. Security Invariants\n- [SEC-01] First.\n".toList++
    "## 4. Test Matrix\n- [TEST-01] Smoke test.\n- [AC-01], [SEC-01]: to do.\n".toList

theorem bareSpec_untraced :
    ¬ (Accepted latinTable.toUnicode bareSpec → Traced latinTable.toUnicode bareSpec) := by
  have haccepted : validateSpec latinTable.toUnicode [] (some bareSpec) =
      .ok (true,"Spec validated successfully. ACs: 1, SECs: 1, TESTs: 1".toList) := by
    unfold bareSpec
    repeat rw [String.toList_ofList]
    decide +kernel
  have hmatrix : matrixSection bareSpec =
      some "\n- [TEST-01] Smoke test.\n- [AC-01], [SEC-01]: to do.\n".toList := by
    unfold bareSpec
    repeat rw [String.toList_ofList]
    decide +kernel
  have hids : identifiers latinTable.toUnicode "AC" bareSpec = .ok [1] := by
    unfold bareSpec
    repeat rw [String.toList_ofList]
    decide +kernel
  have hrows : ((rows "\n- [TEST-01] Smoke test.\n- [AC-01], [SEC-01]: to do.\n".toList).all
      fun row => ((mention latinTable.toUnicode "AC" 1).search [] row).isNone ||
        ((idPattern latinTable.toUnicode "TEST").findall row).isEmpty) = true := by
    repeat rw [String.toList_ofList]
    decide +kernel
  intro h
  obtain ⟨matrix,hm,htested⟩ := h ⟨_,_,haccepted⟩
  rw [hmatrix] at hm
  obtain rfl := Option.some.inj hm
  have hone := (mem_identifiers latinTable (by decide) hids 1).mp List.mem_cons_self
  obtain ⟨row,hrow,hmentions,m,ds,hspelled,-⟩ := htested "AC" (by decide) 1 hone
  have hcase := List.all_eq_true.mp hrows row hrow
  rw [Bool.or_eq_true,Option.isNone_iff_eq_none,List.isEmpty_iff] at hcase
  rcases hcase with hnone | hnil
  · have hsome := (mention_search latinTable (by decide)).mpr hmentions
    rw [hnone] at hsome
    cases hsome
  · obtain ⟨x,hx,-⟩ := (spelled_iff latinTable (by decide)).mp hspelled
    rw [hnil] at hx
    exact absurd hx List.not_mem_nil

end SoftwareFactory.SpecGate
