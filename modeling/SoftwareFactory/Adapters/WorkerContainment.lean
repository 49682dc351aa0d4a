import SoftwareFactory.Adapters.DeepseekAdapter

namespace SoftwareFactory.DeepseekAdapter

open Effect LexicalPath

/-- The paths a list of entries names, up to the first one that is malformed. -/
def paths : List (Except PyError (Option (List Char × List Char))) → List (List Char)
  | .ok none::entries => paths entries
  | .ok (some block)::entries => block.1::paths entries
  | _ => []

/-- What the loop over these paths comes to: the first path that is refused ends it. -/
def Reaches (host : Host) (worktree : Path) : List (List Char) → List Char → Prop
  | [],_ => False
  | path::rest,rel =>
    ¬ Refused host worktree (worktree.div path) ∧ (rel = path ∨ Reaches host worktree rest rel)

def jsonPaths (host : Host) (raw : List Char) : List (List Char) := paths ((jsonItems host raw).map itemBlock)

/-- The headers count if there is one, otherwise the generic paths. -/
def foundBlocks (raw : List Char) : List (List Char × List Char) :=
  let matchesFile := blocks fileBlockPattern raw
  if !matchesFile.isEmpty then matchesFile else blocks genericBlockPattern raw

def blockPaths (raw : List Char) : List (List Char) := (foundBlocks raw).map Prod.fst

/-- The paths under which a response can have a file written. -/
def Offers (host : Host) (worktree : Path) (raw rel : List Char) : Prop :=
  Reaches host worktree (jsonPaths host raw) rel ∨ Reaches host worktree (blockPaths raw) rel

/-- Where a path of a response leads, as segments from the worktree. -/
def leads (rel : List Char) : LexPath := .resolve false (segmentsOf rel)

theorem relativePath_head (path : List Char) : (relativePath path).head? ≠ some '/' := by
  intro h
  have hd := List.head?_dropWhile_not (· == '/') (PyText.replace (strip path) ['\\'] ['/'])
  rw [relativePath] at h
  rw [h] at hd
  simp at hd

theorem normal_div (worktree : Path) {rel : List Char} (h : rel.head? ≠ some '/') :
    (worktree.div rel).normal = worktree.normal.join (leads rel) := by
  rw [Path.div,if_neg h,leads,← LexPath.resolveFrom_eq_join]
  simp only [Path.normal,LexPath.resolve,LexPath.resolveFrom,List.foldl_append]

/-- A path that is not refused stays inside the worktree unless it escapes. -/
theorem under_iff {host : Host} {worktree : Path} {rel : List Char} (hrel : rel.head? ≠ some '/')
    (h : ¬ Refused host worktree (worktree.div rel)) :
    LexPath.Under worktree.normal (worktree.div rel).normal ↔
      ¬ LexPath.Escapes worktree.normal (leads rel) := by
  have habove : ¬ LexPath.Above worktree.normal (worktree.normal.join (leads rel)) := by
    intro ha
    apply h
    left
    rwa [normal_div worktree hrel]
  rw [normal_div worktree hrel,LexPath.not_escapes_iff]
  simp only [habove,or_false]

section runs

variable {σ α β : Type} {host : Host} {worktree : Path}

theorem catching_writes {m : Eff (Work σ) PyError α}
    {handler : PyError → Eff (Work σ) PyError α}
    (hh : ∀ e w,(handler e w).2.writes = w.writes) (w : Work σ) :
    (Eff.catching m handler w).2.writes = (m w).2.writes := by
  rw [Eff.catching]
  rcases m w with ⟨e | a,w'⟩
  · exact hh e w'
  · rfl

/-- Code that only adds files, each under a path of `Q`. -/
def Writes (worktree : Path) (Q : List Char → Prop) (m : Eff (Work σ) PyError α) : Prop :=
  ∀ w,∃ new,(m w).2.writes = w.writes++new ∧ ∀ p ∈ new,∃ rel,Q rel ∧ p.1 = worktree.div rel

namespace Writes

variable {Q Q' : List Char → Prop}

theorem keeps {m : Eff (Work σ) PyError α} (h : ∀ w,(m w).2.writes = w.writes) :
    Writes worktree Q m := by
  intro w
  exact ⟨[],by rw [h,List.append_nil],by simp⟩

theorem mono {m : Eff (Work σ) PyError α} (hm : Writes worktree Q m) (h : ∀ rel,Q rel → Q' rel) :
    Writes worktree Q' m := by
  intro w
  obtain ⟨new,hnew,hall⟩ := hm w
  refine ⟨new,hnew,?_⟩
  intro p hp
  obtain ⟨rel,hrel,hdest⟩ := hall p hp
  exact ⟨rel,h rel hrel,hdest⟩

theorem bind {m : Eff (Work σ) PyError α} {f : α → Eff (Work σ) PyError β}
    (hm : Writes worktree Q m) (hf : ∀ a,Writes worktree Q (f a)) :
    Writes worktree Q (m >>= f) := by
  intro w
  obtain ⟨new,hnew,hall⟩ := hm w
  rw [Eff.bind_apply]
  rcases hr : m w with ⟨_ | a,w'⟩
  · rw [hr] at hnew
    exact ⟨new,hnew,hall⟩
  · rw [hr] at hnew
    obtain ⟨more,hmore,hall'⟩ := hf a w'
    refine ⟨new++more,?_,?_⟩
    · rw [hmore,hnew,List.append_assoc]
    · intro p hp
      rcases List.mem_append.mp hp with hp | hp
      · exact hall p hp
      · exact hall' p hp

theorem catching {m : Eff (Work σ) PyError α} {handler : PyError → Eff (Work σ) PyError α}
    (hm : Writes worktree Q m) (hh : ∀ e w,(handler e w).2.writes = w.writes) :
    Writes worktree Q (Eff.catching m handler) := by
  intro w
  rw [catching_writes hh]
  exact hm w

/-- What was written stays written. -/
theorem grows {m : Eff (Work σ) PyError α} (hm : Writes worktree Q m) {w : Work σ}
    {p : Path × List Char} (hp : p ∈ w.writes) : p ∈ (m w).2.writes := by
  obtain ⟨new,hnew,-⟩ := hm w
  rw [hnew]
  exact List.mem_append_left _ hp

theorem grows_bind {m : Eff (Work σ) PyError α} {f : α → Eff (Work σ) PyError β}
    (hf : ∀ a,Writes worktree Q (f a)) {w : Work σ} {p : Path × List Char}
    (hp : p ∈ (m w).2.writes) : p ∈ ((m >>= f) w).2.writes := by
  rw [Eff.bind_apply]
  rcases hr : m w with ⟨_ | a,w'⟩
  · rw [hr] at hp
    exact hp
  · rw [hr] at hp
    exact (hf a).grows hp

end Writes

variable (disk : Disk σ host worktree)

/-- Writing a file either succeeds or raises; it never succeeds where it is refused. -/
theorem writeBlock_cases (block : List Char × List Char) (w : Work σ) :
    (∃ e w',writeBlock disk block w = (.error e,w') ∧ w'.writes = w.writes) ∨
    ∃ w',writeBlock disk block w = (.ok (),w') ∧ ¬ Refused host worktree (worktree.div block.1) ∧
      w'.writes = w.writes++[(worktree.div block.1,block.2)] := by
  rw [writeBlock]
  rcases hmk : onDisk (disk.mkdir (worktree.div block.1).parent) w with ⟨e | _,w₁⟩
  · left
    refine ⟨e,w₁,Eff.bind_of_error hmk _,?_⟩
    exact congrArg (fun x => x.2.writes) hmk.symm
  · have hw₁ : w₁.writes = w.writes := congrArg (fun x => x.2.writes) hmk.symm
    rw [Eff.bind_of_ok hmk]
    rcases hwr : onDisk (disk.writeText (worktree.div block.1) block.2) w₁ with ⟨e | _,w₂⟩
    · left
      refine ⟨e,w₂,Eff.bind_of_error hwr _,?_⟩
      rw [← hw₁]
      exact congrArg (fun x => x.2.writes) hwr.symm
    · have hw₂ : w₂.writes = w₁.writes := congrArg (fun x => x.2.writes) hwr.symm
      right
      rw [Eff.bind_of_ok hwr]
      refine ⟨_,rfl,?_,?_⟩
      · intro hrefused
        obtain ⟨e,s',hs'⟩ := disk.refuses _ block.2 w₁.disk hrefused
        have herr : (onDisk (disk.writeText (worktree.div block.1) block.2) w₁).1 = .error e := by
          rw [onDisk,hs']
        rw [hwr] at herr
        simp at herr
      · simp only
        rw [hw₂,hw₁]

theorem forEach_writes (entries : List (Except PyError (Option (List Char × List Char)))) :
    Writes worktree (Reaches host worktree (paths entries))
      (Eff.forEach (writeEntry disk) entries) := by
  induction entries with
  | nil => exact Writes.keeps fun _ => rfl
  | cons entry entries ih =>
    match entry with
    | .error e => exact Writes.keeps fun _ => rfl
    | .ok none => exact ih
    | .ok (some block) =>
      intro w
      rw [Eff.forEach,writeEntry]
      rcases writeBlock_cases disk block w with ⟨e,w',hw',hkept⟩ | ⟨w',hw',hallowed,hadded⟩
      · rw [Eff.bind_of_error hw']
        exact ⟨[],by rw [hkept,List.append_nil],by simp⟩
      · rw [Eff.bind_of_ok hw']
        obtain ⟨new,hnew,hall⟩ := ih w'
        refine ⟨(worktree.div block.1,block.2)::new,?_,?_⟩
        · rw [hnew,hadded,List.append_assoc]
          rfl
        · intro p hp
          rcases List.mem_cons.mp hp with rfl | hp
          · exact ⟨block.1,⟨hallowed,.inl rfl⟩,rfl⟩
          · obtain ⟨rel,hrel,hdest⟩ := hall p hp
            exact ⟨rel,⟨hallowed,.inr hrel⟩,hdest⟩

theorem forEach_items (items : List Json) :
    Eff.forEach (writeItem disk) items =
      Eff.forEach (writeEntry disk) (items.map itemBlock) := by
  rw [Eff.forEach_map]
  rfl

def entriesOf (found : List (List Char × List Char)) :
    List (Except PyError (Option (List Char × List Char))) := found.map fun b => .ok (some b)

theorem forEach_blocks (found : List (List Char × List Char)) :
    Eff.forEach (writeBlock disk) found = Eff.forEach (writeEntry disk) (entriesOf found) := by
  rw [entriesOf,Eff.forEach_map]
  rfl

theorem paths_entriesOf (found : List (List Char × List Char)) :
    paths (entriesOf found) = found.map Prod.fst := by
  induction found with
  | nil => rfl
  | cons b found ih => exact congrArg (b.1::·) ih

theorem extractAndWriteFiles_eq (raw : List Char) :
    extractAndWriteFiles disk raw = writeJson disk raw >>= fun done =>
      if done then writtenFiles
      else Eff.forEach (writeEntry disk) (entriesOf (foundBlocks raw)) >>= fun _ =>
        writtenFiles := by
  rw [extractAndWriteFiles]
  congr 1
  funext done
  simp only [← forEach_blocks,foundBlocks]
  cases done with
  | true => rfl
  | false =>
    cases hfile : blocks fileBlockPattern raw with
    | cons b bs => rfl
    | nil => cases hgen : blocks genericBlockPattern raw <;> rfl

theorem writtenFiles_writes {Q : List Char → Prop} :
    Writes worktree Q (writtenFiles : Eff (Work σ) PyError (List (List Char))) :=
  Writes.keeps fun _ => rfl

theorem writeJson_writes (raw : List Char) :
    Writes worktree (Reaches host worktree (jsonPaths host raw)) (writeJson disk raw) := by
  rw [writeJson,forEach_items]
  apply Writes.catching
  · apply (forEach_writes disk _).bind
    intro _
    apply writtenFiles_writes.bind
    intro _
    exact Writes.keeps fun _ => rfl
  · intro e w
    rfl

theorem afterJson_writes (raw : List Char) (done : Bool) :
    Writes worktree (Reaches host worktree (blockPaths raw))
      (if done then writtenFiles
      else Eff.forEach (writeEntry disk) (entriesOf (foundBlocks raw)) >>= fun _ =>
        writtenFiles) := by
  have h := forEach_writes disk (entriesOf (foundBlocks raw))
  rw [paths_entriesOf] at h
  cases done with
  | true => exact writtenFiles_writes
  | false => exact h.bind fun _ => writtenFiles_writes

/-- Every file goes to a path that the response offers. -/
theorem extractAndWriteFiles_writes (raw : List Char) :
    Writes worktree (Offers host worktree raw) (extractAndWriteFiles disk raw) := by
  rw [extractAndWriteFiles_eq]
  apply ((writeJson_writes disk raw).mono fun _ => .inl).bind
  intro done
  exact (afterJson_writes disk raw done).mono fun _ => .inr

end runs

/-- A file system that writes wherever it may; in the state `true` its next call fails. -/
noncomputable def lenientDisk (host : Host) (worktree : Path) : Disk Bool host worktree where
  mkdir _ := fun fails => (if fails then .error .os else .ok (),false)
  writeText p _ := fun s =>
    open Classical in (if Refused host worktree p then .error .os else .ok (),s)
  refuses p text s h := ⟨.os,s,by rw [if_pos h]⟩

section lenient

variable {host : Host} {worktree : Path}

theorem lenient_writeBlock {block : List Char × List Char} {w : Work Bool}
    (hw : w.disk = false) (h : ¬ Refused host worktree (worktree.div block.1)) :
    writeBlock (lenientDisk host worktree) block w =
      (.ok (),{ w with
        writes := w.writes++[(worktree.div block.1,block.2)]
        writtenFiles := w.writtenFiles++[block.1] }) := by
  obtain ⟨d,ws,fs⟩ := w
  obtain rfl : d = false := hw
  simp only [writeBlock,lenientDisk,onDisk,Eff.bind_apply,if_neg h,Eff.modify_apply]
  rfl

/-- Every path the loop comes to is written. -/
theorem lenient_forEach {entries : List (Except PyError (Option (List Char × List Char)))}
    {rel : List Char} {w : Work Bool} (hw : w.disk = false)
    (h : Reaches host worktree (paths entries) rel) :
    ∃ text,(worktree.div rel,text) ∈
      (Eff.forEach (writeEntry (lenientDisk host worktree)) entries w).2.writes := by
  induction entries generalizing w with
  | nil => exact h.elim
  | cons entry entries ih =>
    match entry with
    | .error e => exact h.elim
    | .ok none => exact ih hw h
    | .ok (some block) =>
      obtain ⟨hallowed,hrel⟩ := h
      rw [Eff.forEach,writeEntry,Eff.bind_of_ok (lenient_writeBlock hw hallowed)]
      rcases hrel with rfl | hrel
      · refine ⟨block.2,(forEach_writes _ entries).grows ?_⟩
        simp
      · exact ih hw hrel

/-- The first branch can fail before it has written anything. -/
theorem lenient_forEach_fails (worktree : Path)
    (entries : List (Except PyError (Option (List Char × List Char)))) :
    ∃ s r,Eff.forEach (writeEntry (lenientDisk host worktree)) entries (Work.start s) =
      (r,Work.start false) := by
  induction entries with
  | nil => exact ⟨false,_,rfl⟩
  | cons entry entries ih =>
    match entry with
    | .error e => exact ⟨false,_,rfl⟩
    | .ok none => exact ih
    | .ok (some block) => exact ⟨true,_,rfl⟩

theorem lenient_writeJson_fails (host : Host) (worktree : Path) (raw : List Char) :
    ∃ s,writeJson (lenientDisk host worktree) raw (Work.start s) = (.ok false,Work.start false) := by
  obtain ⟨s,r,hr⟩ := lenient_forEach_fails worktree ((jsonItems host raw).map itemBlock)
  refine ⟨s,?_⟩
  rw [writeJson,forEach_items]
  cases r with
  | ok _ => rw [Eff.catching_ok (Eff.bind_of_ok hr _)]; rfl
  | error e => rw [Eff.catching_error (Eff.bind_of_error hr _)]; rfl

/-- Every path a response offers is written on some file system. -/
theorem offers_written {raw rel : List Char} (h : Offers host worktree raw rel) :
    ∃ s text,(worktree.div rel,text) ∈
      (extractAndWriteFiles (lenientDisk host worktree) raw (Work.start s)).2.writes := by
  have hend : Writes worktree (fun _ => False) (do
      let written ← writtenFiles
      return !written.isEmpty : Eff (Work Bool) PyError Bool) := Writes.keeps fun _ => rfl
  rcases h with h | h
  · obtain ⟨text,htext⟩ := lenient_forEach (w := Work.start false) rfl h
    refine ⟨false,text,?_⟩
    have hjson : (worktree.div rel,text) ∈
        (writeJson (lenientDisk host worktree) raw (Work.start false)).2.writes := by
      rw [writeJson,forEach_items,catching_writes fun _ _ => rfl]
      exact Writes.grows_bind (fun _ => hend) htext
    rw [extractAndWriteFiles_eq]
    exact Writes.grows_bind (afterJson_writes _ raw) hjson
  · obtain ⟨s,hs⟩ := lenient_writeJson_fails host worktree raw
    rw [blockPaths,← paths_entriesOf] at h
    obtain ⟨text,htext⟩ := lenient_forEach (w := Work.start false) rfl h
    refine ⟨s,text,?_⟩
    have hend : Writes worktree (fun _ => False)
      (writtenFiles : Eff (Work Bool) PyError (List (List Char))) := writtenFiles_writes
    rw [extractAndWriteFiles_eq,Eff.bind_of_ok hs]
    exact Writes.grows_bind (fun _ => hend) htext

end lenient

theorem reaches_allowed {host : Host} {worktree : Path} {ps : List (List Char)} {rel : List Char}
    (h : Reaches host worktree ps rel) : rel ∈ ps ∧ ¬ Refused host worktree (worktree.div rel) := by
  induction ps with
  | nil => exact h.elim
  | cons p ps ih =>
    obtain ⟨hp,rfl | hrest⟩ := h
    · exact ⟨List.mem_cons_self,hp⟩
    · obtain ⟨hmem,hrel⟩ := ih hrest
      exact ⟨List.mem_cons_of_mem _ hmem,hrel⟩

theorem mem_paths {entries : List (Except PyError (Option (List Char × List Char)))}
    {rel : List Char} (h : rel ∈ paths entries) : ∃ block,.ok (some block) ∈ entries ∧
      rel = block.1 := by
  induction entries with
  | nil => simp [paths] at h
  | cons entry entries ih =>
    match entry with
    | .error e => simp [paths] at h
    | .ok none =>
      obtain ⟨block,hmem,hrel⟩ := ih h
      exact ⟨block,List.mem_cons_of_mem _ hmem,hrel⟩
    | .ok (some block) =>
      rcases List.mem_cons.mp h with rfl | h
      · exact ⟨block,List.mem_cons_self,rfl⟩
      · obtain ⟨block',hmem,hrel⟩ := ih h
        exact ⟨block',List.mem_cons_of_mem _ hmem,hrel⟩

theorem itemBlock_path {item : Json} {block : List Char × List Char}
    (h : itemBlock item = .ok (some block)) : ∃ path,block.1 = relativePath path := by
  cases item with
  | object fields =>
    simp only [itemBlock] at h
    split at h
    · split at h
      · split_ifs at h with hempty
        · cases h
        · obtain rfl := Option.some.inj (Except.ok.inj h)
          exact ⟨_,rfl⟩
      · cases h
    · cases h
  | _ => cases h

/-- All three branches strip the slashes a path begins with. -/
theorem offers_allowed {host : Host} {worktree : Path} {raw rel : List Char} (h : Offers host worktree raw rel) :
    rel.head? ≠ some '/' ∧ ¬ Refused host worktree (worktree.div rel) := by
  rcases h with h | h
  · obtain ⟨hmem,hallowed⟩ := reaches_allowed h
    obtain ⟨block,hblock,rfl⟩ := mem_paths hmem
    obtain ⟨item,-,hitem⟩ := List.mem_map.mp hblock
    obtain ⟨path,hpath⟩ := itemBlock_path hitem
    rw [hpath] at hallowed ⊢
    exact ⟨relativePath_head path,hallowed⟩
  · obtain ⟨hmem,hallowed⟩ := reaches_allowed h
    obtain ⟨block,hblock,rfl⟩ := List.mem_map.mp hmem
    refine ⟨?_,hallowed⟩
    rw [foundBlocks] at hblock
    split_ifs at hblock
    · obtain ⟨m,-,rfl⟩ := List.mem_map.mp hblock
      exact relativePath_head _
    · obtain ⟨m,-,rfl⟩ := List.mem_map.mp hblock
      exact relativePath_head _

/-- The files written for a response lie inside the worktree, on every file system, exactly when
no path that the response offers escapes it. -/
theorem writes_inside_iff (host : Host) (worktree : Path) (raw : List Char) :
    (∀ (σ : Type) (disk : Disk σ host worktree) (s : σ),
      ∀ p ∈ (extractAndWriteFiles disk raw (Work.start s)).2.writes,
        LexPath.Under worktree.normal p.1.normal) ↔
    ∀ rel,Offers host worktree raw rel → ¬ LexPath.Escapes worktree.normal (leads rel) := by
  constructor
  · intro h rel hrel
    obtain ⟨s,text,hwritten⟩ := offers_written hrel
    obtain ⟨hhead,hallowed⟩ := offers_allowed hrel
    exact (under_iff hhead hallowed).mp (h Bool (lenientDisk host worktree) s _ hwritten)
  · intro h σ disk s p hp
    obtain ⟨new,hnew,hall⟩ := extractAndWriteFiles_writes disk raw (Work.start s)
    rw [hnew] at hp
    obtain ⟨rel,hrel,hdest⟩ := hall p (by simpa [Work.start] using hp)
    obtain ⟨hhead,hallowed⟩ := offers_allowed hrel
    rw [hdest]
    exact (under_iff hhead hallowed).mpr (h rel hrel)

/-- The decoder at hand; no name has a NUL. -/
def posix : Host := ⟨Json.loads,fun x => Char.ofNat 0 ∈ x⟩

def sampleWorktree : Path := ⟨true,["repo".toList,"wt".toList]⟩

/-- A header that names a path above the worktree. -/
def climbingResponse : List Char :=
  "### FILE: ../x.py\n".toList++List.replicate 3 backtick++"python\npass\n".toList++
    List.replicate 3 backtick

theorem climbingResponse_escapes :
    ¬ ∀ (σ : Type) (disk : Disk σ posix sampleWorktree) (s : σ),
      ∀ p ∈ (extractAndWriteFiles disk climbingResponse (Work.start s)).2.writes,
        LexPath.Under sampleWorktree.normal p.1.normal := by
  have hnormal : (sampleWorktree.div "../x.py".toList).normal =
      ⟨true,0,["repo".toList,"x.py".toList]⟩ := by decide +kernel
  have hworktree : sampleWorktree.normal = ⟨true,0,["repo".toList,"wt".toList]⟩ := by
    decide +kernel
  have hpaths : blockPaths climbingResponse = ["../x.py".toList] := by decide +kernel
  have hallowed : ¬ Refused posix sampleWorktree (sampleWorktree.div "../x.py".toList) := by
    intro hcase
    rcases hcase with ⟨k,hk⟩ | hnul
    · rw [hnormal,hworktree] at hk
      have hpre : ["repo".toList,"x.py".toList] <+: ["repo".toList,"wt".toList] := by
        rw [show ["repo".toList,"x.py".toList] = _ from congrArg LexPath.names hk]
        exact List.take_prefix _ _
      exact absurd hpre (by decide +kernel)
    · have hnone : ¬∃ x ∈ (sampleWorktree.div "../x.py".toList).segments,Char.ofNat 0 ∈ x := by
        decide +kernel
      exact hnone hnul
  have hoffers : Offers posix sampleWorktree climbingResponse "../x.py".toList := by
    right
    rw [hpaths]
    exact ⟨hallowed,.inl rfl⟩
  intro h
  obtain ⟨s,text,hwritten⟩ := offers_written hoffers
  obtain ⟨-,-,rest,-,hrest⟩ := h Bool (lenientDisk posix sampleWorktree) s _ hwritten
  rw [hnormal,hworktree] at hrest
  simp at hrest

end SoftwareFactory.DeepseekAdapter
