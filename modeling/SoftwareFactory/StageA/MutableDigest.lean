import SoftwareFactory.Lib.Form
import SoftwareFactory.StageA.FrozenCases

namespace SoftwareFactory.StageA

open Effect

variable {κ : Type} {b : BCrypt κ} {f : Str → Vector UInt8 32}

/-- A provider that, when it does not fail, computes one function. -/
def BCrypt.Follows (b : BCrypt κ) (f : Str → Vector UInt8 32) : Prop :=
  ∀ bytes k d k',b.hashData bytes k = (some d,k') → d = f bytes

theorem BCrypt.Computes.follows (hb : b.Computes f) : b.Follows f := by
  intro bytes k d k' h
  have hhash := hb.hashes bytes k
  rw [h] at hhash
  exact Option.some.inj hhash

/-- What the manifest says of a file. -/
structure ManifestRow where
  name : Str
  length : Nat
  digest : Vector UInt8 32
  deriving DecidableEq

def manifestRow (f : Str → Vector UInt8 32) (file : Str × Str) : ManifestRow :=
  ⟨file.1,file.2.length,f file.2⟩

def ManifestRow.text (r : ManifestRow) : Str :=
  r.name++"\tregular\t"++decimal r.length++"\t"++hexText r.digest.toList++"\n"

/-- A name that can stand in a manifest. -/
def ChildName (name : Str) : Prop :=
  ¬ (name = [] ∨ name = "." ∨ name = ".." ∨ name.any (· ∈ nameBreaks))

/-- The texts whose hashes make up the digest of a set of files. -/
def hashed (f : Str → Vector UInt8 32) (files : FileMap) : List Str :=
  manifestText f "S1PF-MUTABLE-SET-V1\n" files.entries::files.entries.map Prod.snd

theorem manifestText_rows (f : Str → Vector UInt8 32) (manifest : Str)
    (files : List (Str × Str)) : manifestText f manifest files =
      manifest++(files.map (manifestRow f)).flatMap ManifestRow.text := by
  induction files generalizing manifest with
  | nil => rw [manifestText,List.map_nil,List.flatMap_nil,List.append_nil]
  | cons p files ih =>
    rw [manifestText,ih,List.map_cons,List.flatMap_cons,ManifestRow.text,manifestRow]
    simp only [List.append_assoc]

theorem ChildName.no_tab {name : Str} (h : ChildName name) : '\t' ∉ name := by
  intro ht
  apply h
  right; right; right
  rw [List.any_eq_true]
  exact ⟨'\t',ht,by decide⟩

/-- A row can be read off any text it begins. -/
theorem ManifestRow.text_inj {r r' : ManifestRow} {x x' : Str} (hr : ChildName r.name)
    (hr' : ChildName r'.name) (h : r.text++x = r'.text++x') : r = r' ∧ x = x' := by
  have hdigits (n : Nat) : '\t' ∉ decimal n := fun ht => absurd (decimal_digit ht) (by decide)
  have hhex (v : Vector UInt8 32) : '\n' ∉ hexText v.toList :=
    fun ht => absurd (isHexDigit_hexText ht) (by decide)
  have hparts (r : ManifestRow) (x : Str) : r.text++x =
      r.name++ '\t'::("regular\t".toList++(decimal r.length++ '\t'::
        (hexText r.digest.toList++ '\n'::x))) := by
    rw [ManifestRow.text]
    simp
  rw [hparts,hparts] at h
  obtain ⟨hname,h⟩ := Form.append_mark_inj hr.no_tab hr'.no_tab h
  obtain ⟨hlength,h⟩ := Form.append_mark_inj (hdigits _) (hdigits _) (List.append_cancel_left h)
  obtain ⟨hdigest,hx⟩ := Form.append_mark_inj (hhex _) (hhex _) h
  refine ⟨?_,hx⟩
  cases r
  cases r'
  simp only at hname hlength hdigest
  rw [hname,decimal_inj hlength,Vector.toList_inj.mp (hexText_inj hdigest)]

theorem ManifestRow.text_ne_nil (r : ManifestRow) : r.text ≠ [] := by
  rw [ManifestRow.text]
  simp

/-- The manifest is an unambiguous encoding of its rows. -/
theorem manifest_rows_inj {rows rows' : List ManifestRow} (hrows : ∀ r ∈ rows,ChildName r.name)
    (hrows' : ∀ r ∈ rows',ChildName r.name)
    (h : rows.flatMap ManifestRow.text = rows'.flatMap ManifestRow.text) : rows = rows' := by
  induction rows generalizing rows' with
  | nil =>
    cases rows' with
    | nil => rfl
    | cons r rows' =>
      rw [List.flatMap_nil,List.flatMap_cons] at h
      exact absurd (List.append_eq_nil_iff.mp h.symm).1 r.text_ne_nil
  | cons r rows ih =>
    cases rows' with
    | nil =>
      rw [List.flatMap_nil,List.flatMap_cons] at h
      exact absurd (List.append_eq_nil_iff.mp h).1 r.text_ne_nil
    | cons r' rows' =>
      rw [List.flatMap_cons,List.flatMap_cons] at h
      obtain ⟨rfl,hrest⟩ := ManifestRow.text_inj (hrows r List.mem_cons_self)
        (hrows' r' List.mem_cons_self) h
      rw [ih (fun q hq => hrows q (List.mem_cons_of_mem _ hq))
        (fun q hq => hrows' q (List.mem_cons_of_mem _ hq)) hrest]

/-- Without collisions the rows identify the files. -/
theorem files_of_rows {l l' : List (Str × Str)}
    (hfree : ∀ p ∈ l,∀ q ∈ l',f p.2 = f q.2 → p.2 = q.2)
    (h : l.map (manifestRow f) = l'.map (manifestRow f)) : l = l' := by
  induction l generalizing l' with
  | nil => exact (List.map_eq_nil_iff.mp h.symm).symm
  | cons p l ih =>
    cases l' with
    | nil => simp at h
    | cons q l' =>
      obtain ⟨hrow,hrest⟩ := List.cons.inj h
      obtain ⟨hname,-,hbytes⟩ := ManifestRow.mk.inj hrow
      have hfiles := hfree p List.mem_cons_self q List.mem_cons_self hbytes
      rw [Prod.ext hname hfiles,ih (fun p hp q hq => hfree p (List.mem_cons_of_mem _ hp) q
        (List.mem_cons_of_mem _ hq)) hrest]

/-- What a hash that is returned is. -/
theorem BCrypt.Follows.sha256_ok (hb : b.Follows f) {bytes d : Str} {k k' : κ}
    (h : sha256 b bytes k = (.ok d,k')) : d = hexText (f bytes).toList := by
  rw [sha256] at h
  split_ifs at h with hlen
  · simp at h
  · obtain ⟨opened,k₁,-,h⟩ := Eff.bind_ok.mp h
    split_ifs at h with hopened
    · simp at h
    · obtain ⟨v,k₂,hv,h⟩ := Eff.bind_ok.mp h
      cases v with
      | none => simp at h
      | some v =>
        have hhash : b.hashData bytes k₁ = (some v,k₂) := by
          obtain ⟨hfst,hsnd⟩ := Prod.mk.inj hv
          exact Prod.ext (Except.ok.inj hfst) hsnd
        obtain ⟨hd,-⟩ := Prod.mk.inj h
        rw [← Except.ok.inj hd,hb _ _ _ _ hhash]

theorem manifestFrom_ok (hb : b.Follows f) {files : List (Str × Str)} {manifest out : Str}
    {k k' : κ} (h : manifestFrom b manifest files k = (.ok out,k')) :
    (∀ p ∈ files,ChildName p.1) ∧ out = manifestText f manifest files := by
  induction files generalizing manifest k with
  | nil =>
    obtain ⟨hout,-⟩ := Prod.mk.inj h
    exact ⟨by simp,(Except.ok.inj hout).symm⟩
  | cons p files ih =>
    rw [manifestFrom] at h
    split_ifs at h with hname
    · simp at h
    · obtain ⟨digest,k₁,hdigest,h⟩ := Eff.bind_ok.mp h
      rw [hb.sha256_ok hdigest] at h
      obtain ⟨hnames,hout⟩ := ih h
      refine ⟨?_,hout⟩
      intro q hq
      rcases List.mem_cons.mp hq with rfl | hq
      · exact hname
      · exact hnames q hq

/-- What a digest that is returned is. -/
theorem mutableDigest_ok (hb : b.Follows f) {files : FileMap} {d : Str} {k k' : κ}
    (h : mutableDigest b files k = (.ok d,k')) :
    (∀ p ∈ files.entries,ChildName p.1) ∧ d = setDigest f files := by
  obtain ⟨manifest,k₁,hmanifest,h⟩ := Eff.bind_ok.mp h
  obtain ⟨hnames,rfl⟩ := manifestFrom_ok hb hmanifest
  exact ⟨hnames,hb.sha256_ok h⟩

/-- The digest of a set of files identifies it, if no two of the texts that are hashed collide.
The manifest identifies the names, the lengths and the hashes in any case. -/
theorem mutableDigest_eq_iff (hb : b.Follows f) {m₁ m₂ : FileMap} {d₁ d₂ : Str}
    {k₁ k₁' k₂ k₂' : κ} (h₁ : mutableDigest b m₁ k₁ = (.ok d₁,k₁'))
    (h₂ : mutableDigest b m₂ k₂ = (.ok d₂,k₂')) :
    ((∀ x ∈ hashed f m₁++hashed f m₂,∀ y ∈ hashed f m₁++hashed f m₂,f x = f y → x = y) →
      (d₁ = d₂ ↔ m₁ = m₂)) ∧
    (manifestText f "S1PF-MUTABLE-SET-V1\n" m₁.entries =
        manifestText f "S1PF-MUTABLE-SET-V1\n" m₂.entries ↔
      m₁.entries.map (manifestRow f) = m₂.entries.map (manifestRow f)) := by
  obtain ⟨hnames₁,rfl⟩ := mutableDigest_ok hb h₁
  obtain ⟨hnames₂,rfl⟩ := mutableDigest_ok hb h₂
  have hrows (m : FileMap) (hm : ∀ p ∈ m.entries,ChildName p.1) :
      ∀ r ∈ m.entries.map (manifestRow f),ChildName r.name := by
    intro r hr
    obtain ⟨p,hp,rfl⟩ := List.mem_map.mp hr
    exact hm p hp
  have hmanifest : manifestText f "S1PF-MUTABLE-SET-V1\n" m₁.entries =
        manifestText f "S1PF-MUTABLE-SET-V1\n" m₂.entries ↔
      m₁.entries.map (manifestRow f) = m₂.entries.map (manifestRow f) := by
    rw [manifestText_rows,manifestText_rows]
    constructor
    · intro h
      exact manifest_rows_inj (hrows _ hnames₁) (hrows _ hnames₂) (List.append_cancel_left h)
    · intro h
      rw [h]
  refine ⟨?_,hmanifest⟩
  intro hfree
  constructor
  · intro hd
    have hhash := Vector.toList_inj.mp (hexText_inj hd)
    have htext := hfree _ (List.mem_append_left _ List.mem_cons_self) _
      (List.mem_append_right _ List.mem_cons_self) hhash
    have hsame := hmanifest.mp htext
    apply OrderedMap.ext
    apply files_of_rows _ hsame
    intro p hp q hq hbytes
    exact hfree _ (List.mem_append_left _ (List.mem_cons_of_mem _ (List.mem_map_of_mem hp))) _
      (List.mem_append_right _ (List.mem_cons_of_mem _ (List.mem_map_of_mem hq))) hbytes
  · intro heq
    subst heq
    rfl

def emptyDigest : Str := "505f5da18447c258306cdaffe2af0589c1f90f0ed34ab3cde6b9a244b93fbd94"

def contentDigest : Str := "2d711642b726b04401627ca9fbac32f5c8530fb1903cc4db02258717921a4881"

def singleDigest : Str := "39fdae4a7884d04d226333f47d6e33ca16ce63ff004fe02fe2a1206fcf3739b3"

/-- SHA-256 of the three texts that make up two digests. -/
def tableHash (bytes : Str) : Vector UInt8 32 :=
  if bytes = "S1PF-MUTABLE-SET-V1\n".toList then unhex emptyDigest
  else if bytes = ['x'] then unhex contentDigest
  else unhex singleDigest

def tableCrypt : BCrypt Unit where
  openAlgorithmProvider _ := (true,())
  hashData bytes _ := (some (tableHash bytes),())

def singleFile : FileMap := fileMap [("a","x")]

theorem tableCrypt_computes : tableCrypt.Computes tableHash := ⟨fun _ => rfl,fun _ _ => rfl⟩

theorem tableDigest {files : FileMap} (h : Digestible files) :
    mutableDigest tableCrypt files () = (.ok (setDigest tableHash files),()) := by
  obtain ⟨k',hk⟩ := mutableDigest_computes tableCrypt_computes h ()
  exact hk

example : setDigest tableHash singleFile = singleDigest := by decide +kernel

/-- The digests of no file and of one file differ. -/
theorem singleFile_digest : setDigest tableHash .empty = setDigest tableHash singleFile ↔
    OrderedMap.empty = singleFile := by
  have hempty : Digestible (.empty : FileMap) :=
    ⟨fun p hp => by simp [OrderedMap.empty] at hp,fun p hp => by simp [OrderedMap.empty] at hp,
      by decide⟩
  have hsingle : Digestible singleFile := ⟨by decide +kernel,by decide +kernel,by decide +kernel⟩
  have hfree : ∀ x ∈ hashed tableHash .empty++hashed tableHash singleFile,
      ∀ y ∈ hashed tableHash .empty++hashed tableHash singleFile,
        tableHash x = tableHash y → x = y := by decide +kernel
  exact (mutableDigest_eq_iff tableCrypt_computes.follows (tableDigest hempty)
    (tableDigest hsingle)).1 hfree

end SoftwareFactory.StageA
