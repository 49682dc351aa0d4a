import SoftwareFactory.Adapters.WorkerContainment

namespace SoftwareFactory.DeepseekAdapter

open Effect LexicalPath

/-- How writing a text to a file ends: a file that could be opened is there, emptied, even if
the text cannot be written to it. -/
inductive WriteOutcome where
  | done
  | notOpened
  | cutOff
  deriving DecidableEq, Repr

/-- A file system that tells the opening of a file from the writing of its text. -/
structure Files (σ : Type) (host : Host) (worktree : Path) where
  mkdir : Path → Eff σ PyError Unit
  write : Path → List Char → σ → WriteOutcome × σ
  refuses : ∀ p text s,Refused host worktree p → (write p text s).1 = .notOpened

/-- A file system and the files that were opened for writing. -/
structure Tracked (σ : Type) where
  files : σ
  opened : List Path := []

variable {σ : Type} {host : Host} {worktree : Path}

def Files.writeText (files : Files σ host worktree) (p : Path) (text : List Char) :
    Eff (Tracked σ) PyError Unit := fun t =>
  match files.write p text t.files with
  | (.done,s) => (.ok (),⟨s,t.opened++[p]⟩)
  | (.notOpened,s) => (.error .os,⟨s,t.opened⟩)
  | (.cutOff,s) => (.error .os,⟨s,t.opened++[p]⟩)

def Files.disk (files : Files σ host worktree) : Disk (Tracked σ) host worktree where
  mkdir p := fun t => ((files.mkdir p t.files).1,{ t with files := (files.mkdir p t.files).2 })
  writeText := files.writeText
  refuses p text t h := by
    have hr := files.refuses p text t.files h
    rw [Files.writeText]
    rcases hw : files.write p text t.files with ⟨o,s⟩
    rw [hw] at hr
    obtain rfl : o = .notOpened := hr
    exact ⟨_,_,rfl⟩

/-- The entries of the JSON branch. -/
def jsonEntries (host : Host) (raw : List Char) : List (Except PyError (Option (List Char × List Char))) :=
  (jsonItems host raw).map itemBlock

/-- The report is honest: a list that is returned names the files that were opened, and the
JSON branch is only left for the others if it opened none. -/
structure Honest (files : Files σ host worktree) (raw : List Char) (s : σ) : Prop where
  reported : ∀ names w,extractAndWriteFiles files.disk raw (Work.start ⟨s,[]⟩) = (.ok names,w) →
    ∀ p,p ∈ w.disk.opened ↔ ∃ rel ∈ names,worktree.div rel = p
  abandoned : ∀ w,writeJson files.disk raw (Work.start ⟨s,[]⟩) = (.ok false,w) →
    w.disk.opened = []

/-- The block's file is written, which leaves the file system in `s'`. -/
def Succeeds (files : Files σ host worktree) (block : List Char × List Char) (s s' : σ) : Prop :=
  ∃ s1,files.mkdir (worktree.div block.1).parent s = (.ok (),s1) ∧
    files.write (worktree.div block.1) block.2 s1 = (.done,s')

/-- The block's file is not even opened. -/
def Unopened (files : Files σ host worktree) (block : List Char × List Char) (s : σ) : Prop :=
  ∀ s1,files.mkdir (worktree.div block.1).parent s = (.ok (),s1) →
    (files.write (worktree.div block.1) block.2 s1).1 = .notOpened

/-- Every entry is well formed, and every block goes through `step`. -/
def AllDone (step : List Char × List Char → σ → σ → Prop) :
    List (Except PyError (Option (List Char × List Char))) → σ → Prop
  | [],_ => True
  | .error _::_,_ => False
  | .ok none::entries,s => AllDone step entries s
  | .ok (some block)::entries,s => ∃ s',step block s s' ∧ AllDone step entries s'

/-- A malformed entry comes before every block, or the first block meets `fails`. -/
def NoneDone (fails : List Char × List Char → σ → Prop) :
    List (Except PyError (Option (List Char × List Char))) → σ → Prop
  | [],_ | .error _::_,_ => True
  | .ok none::entries,s => NoneDone fails entries s
  | .ok (some block)::_,s => fails block s

/-- Every entry is well formed and every file is written. -/
def AllWritten (files : Files σ host worktree)
    (entries : List (Except PyError (Option (List Char × List Char)))) (s : σ) : Prop :=
  AllDone (Succeeds files) entries s

/-- A malformed entry comes before every file, or the first file cannot be opened. -/
def NoneOpened (files : Files σ host worktree)
    (entries : List (Except PyError (Option (List Char × List Char)))) (s : σ) : Prop :=
  NoneDone (Unopened files) entries s

theorem Succeeds.unique {files : Files σ host worktree} {block : List Char × List Char} {s t u : σ}
    (ht : Succeeds files block s t) (hu : Succeeds files block s u) : t = u := by
  obtain ⟨s₁,hmk,hwr⟩ := ht
  obtain ⟨s₂,hmk',hwr'⟩ := hu
  obtain rfl : s₁ = s₂ := congrArg Prod.snd (hmk.symm.trans hmk')
  exact congrArg Prod.snd (hwr.symm.trans hwr')

theorem Unopened.not_succeeds {files : Files σ host worktree} {block : List Char × List Char} {s : σ}
    (h : Unopened files block s) (t : σ) : ¬ Succeeds files block s t := by
  intro hs
  obtain ⟨s₁,hmk,hwr⟩ := hs
  have hnot := h s₁ hmk
  rw [hwr] at hnot
  simp at hnot

section runs

variable (files : Files σ host worktree)

/-- The three ends of writing a block. -/
theorem writeBlock_outcome (block : List Char × List Char) (w : Work (Tracked σ)) :
    (∃ w',writeBlock files.disk block w = (.ok (),w') ∧
      Succeeds files block w.disk.files w'.disk.files ∧
      w'.disk.opened = w.disk.opened++[worktree.div block.1] ∧
      w'.writtenFiles = w.writtenFiles++[block.1]) ∨
    ∃ e w',writeBlock files.disk block w = (.error e,w') ∧ w'.writtenFiles = w.writtenFiles ∧
      (∀ s',¬ Succeeds files block w.disk.files s') ∧
      (Unopened files block w.disk.files ∧ w'.disk.opened = w.disk.opened ∨
        ¬ Unopened files block w.disk.files ∧
          w'.disk.opened = w.disk.opened++[worktree.div block.1]) := by
  rcases hm : files.mkdir (worktree.div block.1).parent w.disk.files with ⟨e | u,s1⟩
  · right
    have hmk : onDisk (files.disk.mkdir (worktree.div block.1).parent) w =
        (.error e,{ w with disk := ⟨s1,w.disk.opened⟩ }) := by
      simp only [onDisk,Files.disk,hm]
    refine ⟨e,_,Eff.bind_of_error hmk _,rfl,?_,.inl ⟨?_,rfl⟩⟩
    · intro s' hparts
      obtain ⟨s2,h,-⟩ := hparts
      rw [hm] at h
      cases h
    · intro s2 h
      rw [hm] at h
      cases h
  · have hmk : onDisk (files.disk.mkdir (worktree.div block.1).parent) w =
        (.ok u,{ w with disk := ⟨s1,w.disk.opened⟩ }) := by
      simp only [onDisk,Files.disk,hm]
    have hunopened : Unopened files block w.disk.files ↔
        (files.write (worktree.div block.1) block.2 s1).1 = .notOpened := by
      constructor
      · exact fun h => h s1 hm
      · intro h s2 h2
        obtain rfl : s1 = s2 := congrArg Prod.snd (hm.symm.trans h2)
        exact h
    have hsucceeds : ∀ s',Succeeds files block w.disk.files s' →
        files.write (worktree.div block.1) block.2 s1 = (.done,s') := by
      intro s' hparts
      obtain ⟨s2,h2,h⟩ := hparts
      obtain rfl : s1 = s2 := congrArg Prod.snd (hm.symm.trans h2)
      exact h
    rw [hunopened,writeBlock,Eff.bind_of_ok hmk]
    rcases hw : files.write (worktree.div block.1) block.2 s1 with ⟨o,s2⟩
    cases o with
    | done =>
      left
      have hwr : onDisk (files.disk.writeText (worktree.div block.1) block.2)
          { w with disk := ⟨s1,w.disk.opened⟩ } =
          (.ok (),{ w with disk := ⟨s2,w.disk.opened++[worktree.div block.1]⟩ }) := by
        simp only [onDisk,Files.disk,Files.writeText,hw]
      rw [Eff.bind_of_ok hwr]
      exact ⟨_,rfl,⟨s1,hm,hw⟩,rfl,rfl⟩
    | notOpened =>
      right
      have hwr : onDisk (files.disk.writeText (worktree.div block.1) block.2)
          { w with disk := ⟨s1,w.disk.opened⟩ } =
          (.error .os,{ w with disk := ⟨s2,w.disk.opened⟩ }) := by
        simp only [onDisk,Files.disk,Files.writeText,hw]
      rw [Eff.bind_of_error hwr]
      refine ⟨_,_,rfl,rfl,fun s' h => ?_,.inl ⟨rfl,rfl⟩⟩
      exact absurd (hw.symm.trans (hsucceeds s' h)) (by simp)
    | cutOff =>
      right
      have hwr : onDisk (files.disk.writeText (worktree.div block.1) block.2)
          { w with disk := ⟨s1,w.disk.opened⟩ } =
          (.error .os,{ w with disk := ⟨s2,w.disk.opened++[worktree.div block.1]⟩ }) := by
        simp only [onDisk,Files.disk,Files.writeText,hw]
      rw [Eff.bind_of_error hwr]
      refine ⟨_,_,rfl,rfl,fun s' h => ?_,.inr ⟨by simp,rfl⟩⟩
      exact absurd (hw.symm.trans (hsucceeds s' h)) (by simp)

/-- The list under way names what was opened. -/
def Reported (worktree : Path) (w : Work (Tracked σ)) : Prop :=
  w.disk.opened = w.writtenFiles.map worktree.div

theorem writeBlock_reported {block : List Char × List Char} {w w' : Work (Tracked σ)}
    (h : writeBlock files.disk block w = (.ok (),w')) :
    Succeeds files block w.disk.files w'.disk.files ∧
      (Reported worktree w → Reported worktree w') := by
  rcases writeBlock_outcome files block w with ⟨w₁,h₁,hs,hopened,hwritten⟩ | ⟨e,w₁,h₁,-⟩
  · obtain rfl : w' = w₁ := congrArg Prod.snd (h.symm.trans h₁)
    refine ⟨hs,?_⟩
    intro hr
    rw [Reported] at hr ⊢
    rw [hopened,hwritten,List.map_append,hr]
    rfl
  · rw [h] at h₁
    simp at h₁

/-- A loop that comes to its end has reported every file, and all were written. -/
theorem forEach_ok (entries : List (Except PyError (Option (List Char × List Char))))
    {w w' : Work (Tracked σ)} (h : Eff.forEach (writeEntry files.disk) entries w = (.ok (),w')) :
    AllWritten files entries w.disk.files ∧ (Reported worktree w → Reported worktree w') := by
  induction entries generalizing w with
  | nil =>
    obtain rfl := Eff.forEach_nil_ok.mp h
    exact ⟨trivial,id⟩
  | cons entry entries ih =>
    obtain ⟨w₁,h₁,h₂⟩ := Eff.forEach_cons_ok.mp h
    have hrest := ih h₂
    match entry with
    | .error e => simp [writeEntry] at h₁
    | .ok none =>
      obtain rfl : w = w₁ := congrArg Prod.snd h₁
      exact hrest
    | .ok (some block) =>
      have hblock := writeBlock_reported files h₁
      exact ⟨⟨w₁.disk.files,hblock.1,hrest.1⟩,fun hr => hrest.2 (hblock.2 hr)⟩

/-- A loop never takes back that a file was opened. -/
theorem forEach_opened (entries : List (Except PyError (Option (List Char × List Char))))
    (w : Work (Tracked σ)) :
    w.disk.opened.length ≤
      (Eff.forEach (writeEntry files.disk) entries w).2.disk.opened.length := by
  induction entries generalizing w with
  | nil => exact le_rfl
  | cons entry entries ih =>
    match entry with
    | .error e => exact le_rfl
    | .ok none => exact ih w
    | .ok (some block) =>
      rw [Eff.forEach,writeEntry]
      rcases writeBlock_outcome files block w with ⟨w₁,h₁,-,hopened,-⟩ | ⟨e,w₁,h₁,-,-,hopened⟩
      · rw [Eff.bind_of_ok h₁]
        have hlen := congrArg List.length hopened
        rw [List.length_append,List.length_singleton] at hlen
        have hrest := ih w₁
        omega
      · rw [Eff.bind_of_error h₁]
        rcases hopened with ⟨-,hopened⟩ | ⟨-,hopened⟩
        · rw [hopened]
        · rw [hopened,List.length_append]
          omega

/-- A loop that breaks off has opened a file, unless the first could not be opened. -/
theorem forEach_error (entries : List (Except PyError (Option (List Char × List Char))))
    {w w' : Work (Tracked σ)} {e : PyError}
    (h : Eff.forEach (writeEntry files.disk) entries w = (.error e,w')) :
    ¬ AllWritten files entries w.disk.files ∧
      (NoneOpened files entries w.disk.files → w'.disk.opened = w.disk.opened ∧
        w'.writtenFiles = w.writtenFiles) ∧
      (¬ NoneOpened files entries w.disk.files → w.disk.opened.length < w'.disk.opened.length) := by
  induction entries generalizing w with
  | nil => simp [Eff.forEach] at h
  | cons entry entries ih =>
    cases entry with
    | error e =>
      obtain rfl : w = w' := congrArg Prod.snd h
      exact ⟨id,fun _ => ⟨rfl,rfl⟩,fun hnot => absurd trivial hnot⟩
    | ok opened =>
      cases opened with
      | none => exact ih h
      | some block =>
        rw [Eff.forEach,writeEntry] at h
        rcases writeBlock_outcome files block w with
          ⟨w₁,h₁,hs,hopened,-⟩ | ⟨e₁,w₁,h₁,hwritten,hs,hopened⟩
        · rw [Eff.bind_of_ok h₁] at h
          have hlen := congrArg List.length hopened
          rw [List.length_append,List.length_singleton] at hlen
          have hgrows := forEach_opened files entries w₁
          rw [h] at hgrows
          refine ⟨?_,?_,?_⟩
          · intro hall
            obtain ⟨s',hs',hrest⟩ := hall
            rw [hs'.unique hs] at hrest
            exact (ih h).1 hrest
          · intro hun
            exact absurd hs (hun.not_succeeds _)
          · intro _
            show w.disk.opened.length < w'.disk.opened.length
            have : w₁.disk.opened.length ≤ w'.disk.opened.length := hgrows
            omega
        · rw [Eff.bind_of_error h₁] at h
          obtain rfl : w₁ = w' := congrArg Prod.snd h
          refine ⟨?_,?_,?_⟩
          · intro hall
            obtain ⟨s',hs',-⟩ := hall
            exact hs s' hs'
          · intro hun
            rcases hopened with ⟨-,hopened⟩ | ⟨hnot,-⟩
            · exact ⟨hopened,hwritten⟩
            · exact absurd hun hnot
          · intro hnot
            rcases hopened with ⟨hun,-⟩ | ⟨-,hopened⟩
            · exact absurd hun hnot
            · have hlen := congrArg List.length hopened
              rw [List.length_append,List.length_singleton] at hlen
              omega

/-- The JSON branch ends as its loop does: it is the last one if the loop ends with a file. -/
theorem writeJson_cases (raw : List Char) (w : Work (Tracked σ)) :
    (∃ w',Eff.forEach (writeEntry files.disk) (jsonEntries host raw) w = (.ok (),w') ∧
      writeJson files.disk raw w = (.ok (!w'.writtenFiles.isEmpty),w')) ∨
    ∃ e w',Eff.forEach (writeEntry files.disk) (jsonEntries host raw) w = (.error e,w') ∧
      writeJson files.disk raw w = (.ok false,w') := by
  rw [writeJson,forEach_items,← jsonEntries]
  rcases h : Eff.forEach (writeEntry files.disk) (jsonEntries host raw) w with ⟨e | u,w'⟩
  · right
    refine ⟨e,w',rfl,?_⟩
    exact Eff.catching_error (Eff.bind_of_error h _)
  · left
    refine ⟨w',rfl,?_⟩
    exact Eff.catching_ok (Eff.bind_of_ok h _)

/-- What the other branches write, they report. -/
theorem afterJson_reported (raw : List Char) (done : Bool) {w w' : Work (Tracked σ)}
    {names : List (List Char)} (hr : Reported worktree w)
    (h : (if done then writtenFiles
      else Eff.forEach (writeEntry files.disk) (entriesOf (foundBlocks raw)) >>= fun _ =>
        writtenFiles) w = (.ok names,w')) :
    Reported worktree w' ∧ names = w'.writtenFiles := by
  cases done with
  | true =>
    obtain ⟨hnames,rfl⟩ := Prod.mk.inj h
    exact ⟨hr,(Except.ok.inj hnames).symm⟩
  | false =>
    obtain ⟨_,w₁,hloop,hend⟩ := Eff.bind_ok.mp h
    obtain ⟨hnames,rfl⟩ := Prod.mk.inj hend
    have hstep := (forEach_ok files _ hloop).2 hr
    exact ⟨hstep,(Except.ok.inj hnames).symm⟩

/-- The list is honest if the JSON branch leaves it so and opens nothing when abandoned. -/
theorem honest_of_json {raw : List Char} {s : σ} {done : Bool} {w : Work (Tracked σ)}
    (h : writeJson files.disk raw (Work.start ⟨s,[]⟩) = (.ok done,w))
    (hr : Reported worktree w) (habandoned : done = false → w.disk.opened = []) :
    Honest files raw s := by
  constructor
  · intro names w' hrun p
    rw [extractAndWriteFiles_eq,Eff.bind_of_ok h] at hrun
    obtain ⟨hr',rfl⟩ := afterJson_reported files raw done hr hrun
    rw [hr',List.mem_map]
  · intro w' hrun
    obtain ⟨hdone,rfl⟩ := Prod.mk.inj (h.symm.trans hrun)
    exact habandoned (Except.ok.inj hdone)

/-- A list that breaks off after a file was opened is not reported honestly. -/
theorem Honest.cases {files : Files σ host worktree} {raw : List Char} {s : σ}
    (h : Honest files raw s) :
    AllWritten files (jsonEntries host raw) s ∨ NoneOpened files (jsonEntries host raw) s := by
  rcases writeJson_cases files raw (Work.start ⟨s,[]⟩) with ⟨w,hloop,-⟩ | ⟨e,w,hloop,hjson⟩
  · left
    exact (forEach_ok files _ hloop).1
  · right
    by_contra hnot
    have hgrew := (forEach_error files _ hloop).2.2 hnot
    rw [h.abandoned w hjson] at hgrew
    exact absurd hgrew (Nat.not_lt_zero _)

/-- The report is honest exactly if the list is well formed and all of it is written, or
nothing is opened before it breaks off. -/
theorem honest_iff (raw : List Char) (s : σ) :
    Honest files raw s ↔
      AllWritten files (jsonEntries host raw) s ∨ NoneOpened files (jsonEntries host raw) s := by
  have hstart : Reported worktree (Work.start (⟨s,[]⟩ : Tracked σ)) := rfl
  constructor
  · exact Honest.cases
  · intro hcase
    rcases writeJson_cases files raw (Work.start ⟨s,[]⟩) with
      ⟨w,hloop,hjson⟩ | ⟨e,w,hloop,hjson⟩
    · have hr := (forEach_ok files _ hloop).2 hstart
      apply honest_of_json files hjson hr
      intro hdone
      have hnone : w.writtenFiles = [] := by simpa using hdone
      rw [Reported,hnone] at hr
      exact hr
    · have herr := forEach_error files _ hloop
      rcases hcase with hall | hnone
      · exact absurd hall herr.1
      · obtain ⟨hopened,hwritten⟩ := herr.2.1 hnone
        have hempty : w.disk.opened = [] := hopened
        apply honest_of_json files hjson
        · rw [Reported,hwritten]
          exact hempty
        · exact fun _ => hempty

end runs

/-- A file system that writes wherever it may. -/
noncomputable def plainFiles (host : Host) (worktree : Path) : Files Unit host worktree where
  mkdir _ := pure ()
  write p _ s := open Classical in (if Refused host worktree p then .notOpened else .done,s)
  refuses p text s h := by simp only [if_pos h]

/-- The worktree of the examples refuses no path that is inside it. -/
theorem sampleWorktree_allows {p : Path} {c : Segment} {cs : List Segment}
    (hp : p.normal = ⟨true,0,"repo".toList::"wt".toList::c::cs⟩)
    (hnul : ¬ ∃ x ∈ p.segments,Char.ofNat 0 ∈ x) : ¬ Refused posix sampleWorktree p := by
  have hworktree : sampleWorktree.normal = ⟨true,0,["repo".toList,"wt".toList]⟩ := by
    decide +kernel
  intro hcase
  rcases hcase with ⟨k,hk⟩ | h
  · rw [hp,hworktree] at hk
    have hlen := congrArg (List.length ∘ LexPath.names) hk
    simp [LexPath.climb] at hlen
    omega
  · exact hnul h

/-- A file and an item that is no object. -/
def brokenList : List Char :=
  "\x7b\"files\":[\x7b\"path\":\"a.py\",\"content\":\"x\"\x7d,5]\x7d".toList

theorem brokenList_dishonest : ¬ Honest (plainFiles posix sampleWorktree) brokenList () := by
  have hentries : jsonEntries posix brokenList =
      [.ok (some ("a.py".toList,"x\n".toList)),.error .attribute] := by decide +kernel
  have hnormal : (sampleWorktree.div "a.py".toList).normal =
      ⟨true,0,["repo".toList,"wt".toList,"a.py".toList]⟩ := by decide +kernel
  have hallowed : ¬ Refused posix sampleWorktree (sampleWorktree.div "a.py".toList) :=
    sampleWorktree_allows hnormal (by decide +kernel)
  intro h
  have hcases := h.cases
  rw [hentries] at hcases
  rcases hcases with hall | hnone
  · obtain ⟨_,-,hrest⟩ := hall
    exact hrest
  · apply hallowed
    by_contra hnot
    have hopened := hnone () rfl
    simp only [plainFiles,if_neg hnot] at hopened
    cases hopened

end SoftwareFactory.DeepseekAdapter
