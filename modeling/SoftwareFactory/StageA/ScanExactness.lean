import SoftwareFactory.Lib.Frame
import SoftwareFactory.StageA.WindowsChildren
import Mathlib.Data.List.Induction

namespace SoftwareFactory.StageA.Windows

open Effect

variable {ν α : Type}

/-- The entries other than `.` and `..`. -/
def undotted (entries : List NativeEntry) : List NativeEntry :=
  entries.filter fun e => !isDots e.name

theorem undotted_cons_dots {e : NativeEntry} (h : isDots e.name = true)
    (es : List NativeEntry) : undotted (e::es) = undotted es :=
  List.filter_cons_of_neg (by simp [h])

theorem undotted_cons {e : NativeEntry} (h : isDots e.name = false) (es : List NativeEntry) :
    undotted (e::es) = e::undotted es :=
  List.filter_cons_of_pos (by simp [h])

/-- The entries of all the data pages, in page order. -/
def scanned (pages : List DirectoryPage) : List NativeEntry :=
  undotted (pages.flatMap DirectoryPage.entries)

theorem scanned_cons (page : DirectoryPage) (pages : List DirectoryPage) :
    scanned (page::pages) = undotted page.entries++scanned pages := by
  rw [scanned,List.flatMap_cons,undotted,List.filter_append]
  rfl

/-- Entries that an inventory may hold. -/
structure Admissible (entries : List NativeEntry) : Prop where
  bounded : entries.length ≤ maxEntries
  named : ∀ e ∈ entries,e.name ≠ []
  distinct : (entries.map NativeEntry.name).Nodup
  regular : ∀ e ∈ entries,e.attributes &&& fileAttributeDevice = 0

theorem Admissible.nil : Admissible [] := ⟨Nat.zero_le _,nofun,List.nodup_nil,nofun⟩

theorem Admissible.left {es es' : List NativeEntry} (h : Admissible (es++es')) :
    Admissible es := by
  have hdistinct := h.distinct
  have hbounded := h.bounded
  rw [List.map_append] at hdistinct
  rw [List.length_append] at hbounded
  exact ⟨by omega,fun e he => h.named e (List.mem_append_left _ he),
    (List.nodup_append.mp hdistinct).1,fun e he => h.regular e (List.mem_append_left _ he)⟩

theorem admissible_snoc_iff {es : List NativeEntry} {e : NativeEntry} (h : Admissible es) :
    Admissible (es++[e]) ↔ e.attributes &&& fileAttributeDevice = 0 ∧ es.length < maxEntries ∧
      e.name ≠ [] ∧ e.name ∉ es.map NativeEntry.name := by
  constructor
  · intro hs
    have hmem : e ∈ es++[e] := List.mem_append_right _ List.mem_cons_self
    have hbounded := hs.bounded
    have hdistinct := hs.distinct
    rw [List.length_append,List.length_singleton] at hbounded
    rw [List.map_append,List.map_singleton,List.nodup_append] at hdistinct
    exact ⟨hs.regular e hmem,by omega,hs.named e hmem,
      fun hn => hdistinct.2.2 _ hn _ List.mem_cons_self rfl⟩
  · intro hall
    obtain ⟨hdevice,hlen,hname,hnew⟩ := hall
    refine ⟨by rw [List.length_append,List.length_singleton]; omega,?_,?_,?_⟩
    · intro x hx
      rcases List.mem_append.mp hx with hx | hx
      · exact h.named x hx
      · rw [List.mem_singleton.mp hx]
        exact hname
    · rw [List.map_append,List.map_singleton,List.nodup_append]
      refine ⟨h.distinct,List.nodup_singleton _,?_⟩
      intro a ha b hb hab
      rw [List.mem_singleton.mp hb] at hab
      rw [hab] at ha
      exact hnew ha
    · intro x hx
      rcases List.mem_append.mp hx with hx | hx
      · exact h.regular x hx
      · rw [List.mem_singleton.mp hx]
        exact hdevice

/-- An enumerated entry as the comparison sees it. -/
def NativeEntry.toEntry (key : Str) (e : NativeEntry) : Entry :=
  ⟨e.name,if e.attributes &&& fileAttributeDirectory != 0 then "directory" else "regular",
    fileIdHex e.fileId,key,e.attributes &&& fileAttributeReparsePoint != 0 || e.reparseTag != 0⟩

/-- Both accumulators after some entries. -/
def gather (key : Str) (entries : List NativeEntry) : Collected where
  result := entries.map (NativeEntry.toEntry key)
  observed := entries.foldl (fun m e => m.emplace e.name e) .empty

theorem gather_snoc (key : Str) (es : List NativeEntry) (e : NativeEntry) :
    gather key (es++[e]) =
      ⟨(gather key es).result++[e.toEntry key],(gather key es).observed.emplace e.name e⟩ := by
  simp [gather]

/-- The map of the gathered entries holds each under its name. -/
theorem gather_lookup (key : Str) {es : List NativeEntry}
    (h : (es.map NativeEntry.name).Nodup) (name : Str) (e : NativeEntry) :
    (gather key es).observed.lookup name = some e ↔ e ∈ es ∧ e.name = name := by
  induction es using List.reverseRecOn generalizing name e with
  | nil => simp [gather,OrderedMap.lookup,OrderedMap.empty,OrderedMap.lookupIn]
  | append_singleton es x ih =>
    rw [List.map_append,List.map_singleton,List.nodup_append] at h
    have hes := ih h.1
    have hnew : ∀ y ∈ es,y.name ≠ x.name :=
      fun y hy => h.2.2 _ (List.mem_map_of_mem hy) _ List.mem_cons_self
    have hfresh : (gather key es).observed.contains x.name = false := by
      rw [OrderedMap.contains,Option.isSome_eq_false_iff,Option.isNone_iff_eq_none,
        Option.eq_none_iff_forall_ne_some]
      intro y hy
      obtain ⟨hmem,hname⟩ := (hes x.name y).mp hy
      exact hnew y hmem hname
    rw [gather_snoc,OrderedMap.lookup_emplace hfresh,List.mem_append,List.mem_singleton]
    by_cases hn : name = x.name
    · rw [if_pos hn,hn]
      constructor
      · intro hx
        obtain rfl := Option.some.inj hx
        exact ⟨.inr rfl,rfl⟩
      · intro hall
        obtain ⟨hmem,hname⟩ := hall
        rcases hmem with hmem | rfl
        · exact absurd hname (hnew e hmem)
        · rfl
    · rw [if_neg hn,hes]
      constructor
      · intro hall
        obtain ⟨hmem,hname⟩ := hall
        exact ⟨.inl hmem,hname⟩
      · intro hall
        obtain ⟨hmem,hname⟩ := hall
        rcases hmem with hmem | rfl
        · exact ⟨hmem,hname⟩
        · exact absurd hname.symm hn

theorem gather_contains (key : Str) {es : List NativeEntry}
    (h : (es.map NativeEntry.name).Nodup) (name : Str) :
    (gather key es).observed.contains name = true ↔ name ∈ es.map NativeEntry.name := by
  rw [OrderedMap.contains,Option.isSome_iff_exists,List.mem_map]
  simp only [gather_lookup key h]

/-- An observation that `require_identity` accepts. -/
structure Unchanged (actual expected : Metadata) : Prop where
  same : sameIdentity actual expected = true
  finalPath : actual.finalPath ≠ []
  volumeGuidPath : actual.volumeGuidPath ≠ []
  sddl : actual.sddl ≠ []
  fileId : nonzeroId actual.fileId = true
  not_reparse : isReparse actual = false
  no_tag : actual.reparseTag = 0

theorem requireIdentity_iff {τ : Type} {actual expected : Metadata} {object : Str}
    {profile step : String} {s s' : τ} {u : Unit} :
    requireIdentity actual expected object profile step s = (.ok u,s') ↔
      Unchanged actual expected ∧ s = s' := by
  rw [requireIdentity,failIf_ok]
  simp only [not_or,Bool.not_eq_true',Bool.not_eq_false,ne_eq,not_not,Bool.not_eq_true]
  constructor
  · intro hall
    obtain ⟨⟨h1,h2,h3,h4,h5,h6,h7⟩,hs⟩ := hall
    exact ⟨⟨h1,h2,h3,h4,h5,h6,h7⟩,hs⟩
  · intro hall
    obtain ⟨h,hs⟩ := hall
    exact ⟨⟨h.same,h.finalPath,h.volumeGuidPath,h.sddl,h.fileId,h.not_reparse,h.no_tag⟩,hs⟩

/-- The nodes are inspected one after another, and each is found unchanged. -/
inductive Verifies (calls : NativeCalls ν) : List Verified → ν → ν → Prop where
  | nil (n : ν) : Verifies calls [] n n
  | cons {node : Verified} {nodes : List Verified} {n n' n'' : ν} {m : Metadata}
      (inspected : calls.inspect node.handle node.object node.profile "held-identity" n =
        (.ok m,n'))
      (unchanged : Unchanged m node.expected) (directory : m.directory = true)
      (rest : Verifies calls nodes n' n'') : Verifies calls (node::nodes) n n''

variable {calls : NativeCalls ν} {config : SnapshotConfig} {w w' : World ν}

/-- The world after a node was inspected and the observation noted. -/
def World.inspected (w : World ν) (step : String) (node : Verified) (m : Metadata) (n : ν) :
    World ν :=
  { w with
    native := n
    calls := w.calls++[.inspect node.handle node.object node.profile step (.ok m)]
    audit := { w.audit with
      identities := w.audit.identities++[⟨node.object,node.profile,step,node.parentId,m⟩] } }

theorem verifyNode_iff {step : String} {node : Verified} :
    verifyNode calls step node w = (.ok (),w') ↔ ∃ m n,
      calls.inspect node.handle node.object node.profile step w.native = (.ok m,n) ∧
      Unchanged m node.expected ∧ m.directory = true ∧ w' = w.inspected step node m n := by
  rw [verifyNode,inspect]
  simp only [Eff.bind_ok,native_ok,requireIdentity_iff,failIf_ok,Bool.not_eq_true',
    Bool.not_eq_false]
  constructor
  · intro hall
    obtain ⟨m,_,⟨n,h,hw⟩,_,w1,hpush,_,_,⟨hun,h2⟩,hdir,h3⟩ := hall
    subst hw h2 h3
    exact ⟨m,n,h,hun,hdir,(Prod.mk.inj hpush).2.symm⟩
  · intro hall
    obtain ⟨m,n,h,hun,hdir,hw⟩ := hall
    subst hw
    exact ⟨m,_,⟨n,h,rfl⟩,(),_,rfl,(),_,⟨hun,rfl⟩,hdir,rfl⟩

theorem verifyAll_sound {nodes : List Verified}
    (h : Eff.forEach (verifyNode calls "held-identity") nodes w = (.ok (),w')) :
    Verifies calls nodes w.native w'.native := by
  induction nodes generalizing w with
  | nil =>
    obtain rfl := Eff.forEach_nil_ok.mp h
    exact .nil _
  | cons node nodes ih =>
    obtain ⟨w1,h1,h⟩ := Eff.forEach_cons_ok.mp h
    obtain ⟨m,n,hins,hun,hdir,rfl⟩ := verifyNode_iff.mp h1
    exact .cons hins hun hdir (ih h)

theorem verifyAll_complete {nodes : List Verified} {n n' : ν} (h : Verifies calls nodes n n')
    (hn : w.native = n) :
    ∃ w',Eff.forEach (verifyNode calls "held-identity") nodes w = (.ok (),w') ∧
      w'.native = n' := by
  induction h generalizing w with
  | nil => exact ⟨w,rfl,hn⟩
  | @cons node nodes n n1 n' m hins hun hdir _ ih =>
    rw [← hn] at hins
    have hnode := verifyNode_iff.mpr ⟨m,n1,hins,hun,hdir,rfl⟩
    obtain ⟨w',hrest,hw'⟩ := ih (w := w.inspected "held-identity" node m n1) rfl
    exact ⟨w',Eff.forEach_cons_ok.mpr ⟨_,hnode,hrest⟩,hw'⟩

/-- The world after a change of the inventory under way. -/
def World.amend (f : InventoryObservation → InventoryObservation) (w : World ν) : World ν :=
  { w with audit := { w.audit with inventories :=
    w.audit.inventories.dropLast++(w.audit.inventories.getLast?.map f).toList } }

theorem updateInventory_iff {f : InventoryObservation → InventoryObservation} {u : Unit} :
    updateInventory f w = (.ok u,w') ↔ w' = w.amend f := by
  rw [updateInventory,updateAudit,modify_ok]
  rfl

theorem World.amend_id (w : World ν) : w.amend id = w := by
  have h : w.audit.inventories.dropLast++w.audit.inventories.getLast?.toList =
      w.audit.inventories := by
    cases hl : w.audit.inventories using List.reverseRecOn <;> simp
  rw [amend,Option.map_id_fun,id_eq,h]

theorem World.amend_amend (f g : InventoryObservation → InventoryObservation) (w : World ν) :
    (w.amend f).amend g = w.amend (g ∘ f) := by
  rw [amend,amend,amend]
  cases hl : w.audit.inventories using List.reverseRecOn <;> simp

theorem World.amend_inventories {f : InventoryObservation → InventoryObservation}
    {before : List InventoryObservation} {i : InventoryObservation}
    (h : w.audit.inventories = before++[i]) :
    (w.amend f).audit.inventories = before++[f i] := by
  simp [amend,h]

/-- The inventory under way with some more entries. -/
def InventoryObservation.enter (new : List NativeEntry) (i : InventoryObservation) :
    InventoryObservation :=
  { i with entries := i.entries++new }

theorem enter_nil : InventoryObservation.enter [] = id := by
  funext i
  simp [InventoryObservation.enter]

theorem enter_comp (new new' : List NativeEntry) :
    InventoryObservation.enter new' ∘ InventoryObservation.enter new =
      InventoryObservation.enter (new++new') := by
  funext i
  simp [InventoryObservation.enter]

/-- One entry that is neither `.` nor `..`. -/
theorem collectEntries_cons_iff {key : Str} {acc' : Collected} {es entries : List NativeEntry}
    {e : NativeEntry} (hkey : identityKey config.stateDirectory.identity = .ok key)
    (hes : Admissible es) (he : isDots e.name = false) :
    collectEntries config (gather key es) (e::entries) w = (.ok acc',w') ↔
      Admissible (es++[e]) ∧
        collectEntries config (gather key (es++[e])) entries (w.amend (.enter [e])) =
          (.ok acc',w') := by
  have hnew : (gather key es).observed.contains e.name = false ↔
      e.name ∉ es.map NativeEntry.name := by
    rw [← gather_contains key hes.distinct,Bool.not_eq_true]
  have hlen : (gather key es).result.length = es.length := List.length_map _
  rw [collectEntries,if_neg (by rw [he]; decide),gather_snoc,admissible_snoc_iff hes]
  simp only [Eff.bind_ok,updateInventory_iff,failIf_ok,ofExcept_ok,hkey,hlen,not_le,not_or,
    not_not,ne_eq,Bool.not_eq_true,hnew]
  constructor
  · intro hall
    obtain ⟨_,w1,h1,_,w2,⟨hdev,h2⟩,_,w3,⟨hl,h3⟩,_,w4,⟨⟨hne,hc⟩,h4⟩,k,w5,⟨hk,h5⟩,h6⟩ := hall
    subst h1 h2 h3 h4 h5
    rw [← Except.ok.inj hk] at h6
    exact ⟨⟨hdev,hl,hne,hc⟩,h6⟩
  · intro hall
    obtain ⟨⟨hdev,hl,hne,hc⟩,h6⟩ := hall
    exact ⟨(),_,rfl,(),_,⟨hdev,rfl⟩,(),_,⟨hl,rfl⟩,(),_,⟨⟨hne,hc⟩,rfl⟩,key,_,⟨rfl,rfl⟩,h6⟩

/-- The entries of a page pass exactly when all that are gathered by then are admissible. -/
theorem collectEntries_iff {key : Str} {acc' : Collected} {es entries : List NativeEntry}
    (hkey : identityKey config.stateDirectory.identity = .ok key) (hes : Admissible es) :
    collectEntries config (gather key es) entries w = (.ok acc',w') ↔
      Admissible (es++undotted entries) ∧ acc' = gather key (es++undotted entries) ∧
        w' = w.amend (.enter (undotted entries)) := by
  induction entries generalizing es w with
  | nil =>
    have hnil : undotted [] = [] := rfl
    rw [hnil,List.append_nil,enter_nil,World.amend_id,collectEntries]
    simp [hes,eq_comm]
  | cons e entries ih =>
    by_cases hd : isDots e.name = true
    · rw [undotted_cons_dots hd,collectEntries,if_pos hd]
      exact ih hes
    · have hd' : isDots e.name = false := by simpa using hd
      rw [collectEntries_cons_iff hkey hes hd',undotted_cons hd',
        List.append_cons es e (undotted entries)]
      constructor
      · intro hall
        obtain ⟨hs,h⟩ := hall
        obtain ⟨hall,hacc,hw⟩ := (ih hs).mp h
        rw [World.amend_amend,enter_comp] at hw
        exact ⟨hall,hacc,hw⟩
      · intro hsides
        obtain ⟨hall,hacc,hw⟩ := hsides
        refine ⟨hall.left,(ih hall.left).mpr ⟨hall,hacc,?_⟩⟩
        rw [World.amend_amend,enter_comp]
        exact hw

/-- The data pages that come up to an explicit end, from one page call on. Only the first
call of all restarts the scan. -/
inductive Scans (calls : NativeCalls ν) (directory : Handle) :
    Nat → ν → List DirectoryPage → ν → Prop where
  | ended {k : Nat} {n n' : ν} {page : DirectoryPage}
      (answer : calls.nextPage directory (k == 0) n = (.ok page,n'))
      (atEnd : page.atEnd = true) : Scans calls directory k n [] n'
  | data {k : Nat} {n n' n'' : ν} {page : DirectoryPage} {pages : List DirectoryPage}
      (answer : calls.nextPage directory (k == 0) n = (.ok page,n'))
      (more : page.atEnd = false) (rest : Scans calls directory (k+1) n' pages n'') :
      Scans calls directory k n (page::pages) n''

/-- The world after a page came. -/
def World.answered (w : World ν) (k : Nat) (page : DirectoryPage) (n : ν) : World ν :=
  { w with native := n, calls := w.calls++[.nextPage w.session.directory (k == 0) (.ok page)] }

/-- The inventory under way with one more data page. -/
def InventoryObservation.turn (i : InventoryObservation) : InventoryObservation :=
  { i with pages := i.pages+1 }

theorem collectPages_zero_ok {acc : Collected} {r : Option Collected} {k : Nat} :
    collectPages calls config acc k 0 w = (.ok r,w') ↔ r = none ∧ w = w' := by
  rw [collectPages]
  simp [eq_comm]

theorem collectPages_succ_iff {acc acc' : Collected} {k left : Nat} :
    collectPages calls config acc k (left+1) w = (.ok (some acc'),w') ↔ ∃ page n,
      calls.nextPage w.session.directory (k == 0) w.native = (.ok page,n) ∧
      (page.atEnd = true ∧ acc = acc' ∧ w.answered k page n = w' ∨
        page.atEnd = false ∧ page.entries ≠ [] ∧ ∃ acc1 w1,
          collectEntries config acc page.entries
            ((w.answered k page n).amend InventoryObservation.turn) = (.ok acc1,w1) ∧
          collectPages calls config acc1 (k+1) left w1 = (.ok (some acc'),w')) := by
  rw [collectPages]
  simp only [Eff.bind_ok,session_ok,native_ok]
  constructor
  · intro hall
    obtain ⟨s,w1,⟨hs,h1⟩,page,w2,⟨n,hpage,h2⟩,h⟩ := hall
    subst h1 h2 hs
    refine ⟨page,n,hpage,?_⟩
    by_cases hend : page.atEnd = true
    · rw [if_pos hend] at h
      obtain ⟨h3,h4⟩ := Prod.mk.inj h
      exact .inl ⟨hend,Option.some.inj (Except.ok.inj h3),h4⟩
    · rw [if_neg hend] at h
      simp only [Eff.bind_ok,updateInventory_iff,failIf_ok] at h
      obtain ⟨_,w3,h3,_,w4,⟨hne,h4⟩,acc1,w5,h5,h6⟩ := h
      subst h3 h4
      exact .inr ⟨by simpa using hend,hne,acc1,w5,h5,h6⟩
  · intro hall
    obtain ⟨page,n,hpage,h⟩ := hall
    refine ⟨w.session,w,⟨rfl,rfl⟩,page,w.answered k page n,⟨n,hpage,rfl⟩,?_⟩
    rcases h with ⟨hend,rfl,rfl⟩ | ⟨hend,hne,acc1,w1,h5,h6⟩
    · rw [if_pos hend]
      rfl
    · rw [if_neg (by rw [hend]; decide)]
      simp only [Eff.bind_ok,updateInventory_iff,failIf_ok]
      exact ⟨(),_,rfl,(),_,⟨hne,rfl⟩,acc1,w1,h5,h6⟩

/-- What the scan establishes of its data pages. -/
structure Complete (calls : NativeCalls ν) (directory : Handle) (k left : Nat) (n : ν)
    (es : List NativeEntry) (pages : List DirectoryPage) (n' : ν) : Prop where
  scans : Scans calls directory k n pages n'
  ended : pages.length < left
  filled : ∀ page ∈ pages,page.entries ≠ []
  admissible : Admissible (es++scanned pages)

theorem collectPages_sound {key : Str} {acc' : Collected} {k left : Nat}
    {es : List NativeEntry} (hkey : identityKey config.stateDirectory.identity = .ok key)
    (hes : Admissible es)
    (h : collectPages calls config (gather key es) k left w = (.ok (some acc'),w')) :
    ∃ pages,Complete calls w.session.directory k left w.native es pages w'.native ∧
      acc' = gather key (es++scanned pages) ∧ w'.session = w.session ∧
      ∀ before i,w.audit.inventories = before++[i] → w'.audit.inventories =
        before++[{ i with
          entries := i.entries++scanned pages, pages := i.pages+pages.length }] := by
  induction left generalizing es k w with
  | zero => exact absurd (collectPages_zero_ok.mp h).1 (by simp)
  | succ left ih =>
    obtain ⟨page,n,hpage,⟨hend,hacc,hw⟩ | ⟨hend,hne,acc1,w1,h1,h2⟩⟩ :=
      collectPages_succ_iff.mp h
    · subst hacc hw
      refine ⟨[],⟨.ended hpage hend,Nat.succ_pos _,nofun,?_⟩,?_,rfl,?_⟩
      · simpa [scanned,undotted] using hes
      · simp [scanned,undotted]
      · intro before i hi
        simpa [scanned,undotted,World.answered] using hi
    · obtain ⟨hes1,hacc1,hw1⟩ := (collectEntries_iff hkey hes).mp h1
      subst hacc1 hw1
      obtain ⟨pages,hc,hacc,hsession,haudit⟩ := ih hes1 h2
      have hall : es++scanned (page::pages) = es++undotted page.entries++scanned pages := by
        rw [scanned_cons,List.append_assoc]
      refine ⟨page::pages,⟨.data hpage hend hc.scans,Nat.succ_lt_succ hc.ended,?_,?_⟩,?_,
        hsession,?_⟩
      · exact List.forall_mem_cons.mpr ⟨hne,hc.filled⟩
      · rw [hall]
        exact hc.admissible
      · rw [hall]
        exact hacc
      · intro before i hi
        have hturn := World.amend_inventories (w := w.answered k page n)
          (f := InventoryObservation.turn) hi
        rw [haudit before _ (World.amend_inventories hturn),scanned_cons]
        simp [InventoryObservation.enter,InventoryObservation.turn,Nat.add_assoc,Nat.add_comm 1]

theorem collectPages_complete {key : Str} {k left : Nat} {es : List NativeEntry}
    {pages : List DirectoryPage} {n' : ν}
    (hkey : identityKey config.stateDirectory.identity = .ok key) (hes : Admissible es)
    (h : Complete calls w.session.directory k left w.native es pages n') :
    ∃ w',collectPages calls config (gather key es) k left w =
      (.ok (some (gather key (es++scanned pages))),w') := by
  induction left generalizing es k w pages with
  | zero => exact absurd h.ended (Nat.not_lt_zero _)
  | succ left ih =>
    cases h.scans with
    | @ended _ _ _ page answer atEnd =>
      refine ⟨w.answered k page n',collectPages_succ_iff.mpr ⟨page,n',answer,.inl ⟨atEnd,?_,rfl⟩⟩⟩
      simp [scanned,undotted]
    | @data _ _ n _ page pages answer more rest =>
      have hall : es++scanned (page::pages) = es++undotted page.entries++scanned pages := by
        rw [scanned_cons,List.append_assoc]
      have hadm := h.admissible
      rw [hall] at hadm ⊢
      have hentries := (collectEntries_iff
        (w := (w.answered k page n).amend InventoryObservation.turn) hkey hes).mpr
        ⟨hadm.left,rfl,rfl⟩
      obtain ⟨hne,hfilled⟩ := List.forall_mem_cons.mp h.filled
      have hrest : Complete calls w.session.directory (k+1) left n (es++undotted page.entries)
          pages n' := ⟨rest,Nat.lt_of_succ_lt_succ h.ended,hfilled,hadm⟩
      obtain ⟨w',hw'⟩ := ih (w := ((w.answered k page n).amend InventoryObservation.turn).amend
        (.enter (undotted page.entries))) hadm.left hrest
      exact ⟨w',collectPages_succ_iff.mpr ⟨page,n,answer,.inr ⟨more,hne,_,_,hentries,hw'⟩⟩⟩

/-- The restart flags of the page calls. -/
def restarts (events : List NativeEvent) : List Bool :=
  events.filterMap fun
    | .nextPage _ restart _ => some restart
    | _ => none

theorem restarts_append (l l' : List NativeEvent) : restarts (l++l') = restarts l++restarts l' :=
  List.filterMap_append

/-- The session, the recorded inventories and the page calls stayed as they were. -/
structure Looked (w w' : World ν) : Prop where
  session : w'.session = w.session
  inventories : w'.audit.inventories = w.audit.inventories
  restarts : restarts w'.calls = restarts w.calls

def looking : Frame (World ν) where
  rel := Looked
  refl _ := ⟨rfl,rfl,rfl⟩
  trans h h' := ⟨h'.session.trans h.session,h'.inventories.trans h.inventories,
    h'.restarts.trans h.restarts⟩

theorem looking_native {op : Eff ν Thrown α} {event : Except Thrown α → NativeEvent}
    (h : ∀ r,restarts [event r] = []) : looking.Bounds (native op event) w := by
  refine ⟨rfl,rfl,?_⟩
  rw [native,restarts_append,h,List.append_nil]

theorem looking_inspect {handle : Handle} {object : Str} {profile step : String} :
    looking.Bounds (inspect calls handle object profile step) w :=
  looking_native fun _ => rfl

theorem looking_pushIdentity (o : IdentityObservation) :
    looking.Bounds (pushIdentity o) w := ⟨rfl,rfl,rfl⟩

theorem looking_verifyNode (step : String) (node : Verified) :
    looking.Bounds (verifyNode calls step node) w := by
  apply Frame.Bounds.bind looking_inspect
  intro m w1 _
  apply Frame.Bounds.bind (looking_pushIdentity _)
  intro _ w2 _
  apply Frame.Bounds.bind (.unchanged failIf_state)
  intro _ w3 _
  exact .unchanged failIf_state

theorem looking_directoryIdentity : looking.Bounds (directoryIdentity calls config) w := by
  apply Frame.Bounds.bind (.unchanged rfl)
  intro s w1 _
  apply Frame.Bounds.bind (.forEach fun node _ _ => looking_verifyNode _ node)
  intro _ w2 _
  exact .unchanged ofExcept_state

theorem findChild_state {name : Str} : (findChild name w).2 = w := by
  rw [findChild,Eff.bind_of_ok (session_apply w)]
  cases w.session.children.lookup name <;> rfl

theorem looking_heldIdentity (name : Str) :
    looking.Bounds (heldIdentity calls config name) w := by
  apply Frame.Bounds.bind (.unchanged findChild_state)
  intro child w1 _
  apply Frame.Bounds.bind looking_inspect
  intro m w2 _
  apply Frame.Bounds.bind (.unchanged ofExcept_state)
  intro key w3 _
  apply Frame.Bounds.bind (looking_pushIdentity _)
  intro _ w4 _
  cases config.childSddl.lookup name with
  | none => exact .raise _
  | some sddl =>
    apply Frame.Bounds.bind (.unchanged failIf_state)
    intro _ w5 _
    apply Frame.Bounds.bind (.unchanged failIf_state)
    intro _ w6 _
    exact .pure _

theorem looking_readChild (name : Str) : looking.Bounds (readChild calls name) w := by
  apply Frame.Bounds.bind (.unchanged findChild_state)
  intro child w1 _
  exact looking_native fun _ => rfl

/-- Only the inventory under way may have changed, and not by an explicit end. -/
structure Filled (w w' : World ν) : Prop where
  session : w'.session = w.session
  calls : w'.calls = w.calls
  last : ∀ before i,w.audit.inventories = before++[i] →
    ∃ i',w'.audit.inventories = before++[i'] ∧ i'.explicitEnd = i.explicitEnd

def filling : Frame (World ν) where
  rel := Filled
  refl _ := ⟨rfl,rfl,fun _ i h => ⟨i,h,rfl⟩⟩
  trans h h' := by
    refine ⟨h'.session.trans h.session,h'.calls.trans h.calls,?_⟩
    intro before i hi
    obtain ⟨i1,h1,hend1⟩ := h.last before i hi
    obtain ⟨i2,h2,hend2⟩ := h'.last before i1 h1
    exact ⟨i2,h2,hend2.trans hend1⟩

theorem filling_updateInventory {f : InventoryObservation → InventoryObservation}
    (h : ∀ i,(f i).explicitEnd = i.explicitEnd) : filling.Bounds (updateInventory f) w :=
  ⟨rfl,rfl,fun _ i hi => ⟨f i,World.amend_inventories hi,h i⟩⟩

theorem filling_collectEntries {acc : Collected} {entries : List NativeEntry} :
    filling.Bounds (collectEntries config acc entries) w := by
  induction entries generalizing acc w with
  | nil => exact .pure _
  | cons e entries ih =>
    rw [collectEntries]
    split_ifs with hd
    · exact ih
    · refine Frame.Bounds.bind (filling_updateInventory fun _ => rfl) ?_
      intro _ w1 _
      apply Frame.Bounds.bind (.unchanged failIf_state)
      intro _ w2 _
      apply Frame.Bounds.bind (.unchanged failIf_state)
      intro _ w3 _
      apply Frame.Bounds.bind (.unchanged failIf_state)
      intro _ w4 _
      apply Frame.Bounds.bind (.unchanged ofExcept_state)
      intro key w5 _
      exact ih

/-- What the page calls may do from one of them on, however the scan ends: at most `left`
of them are made, and only the first of all restarts the scan. -/
structure Paged (k left : Nat) (w w' : World ν) : Prop where
  session : w'.session = w.session
  last : ∀ before i,w.audit.inventories = before++[i] →
    ∃ i',w'.audit.inventories = before++[i'] ∧ i'.explicitEnd = i.explicitEnd
  restarts : ∃ made ≤ left,
    restarts w'.calls = restarts w.calls++(List.range' k made).map (· == 0)

theorem Filled.paged {k left : Nat} (h : Filled w w') : Paged k left w w' :=
  ⟨h.session,h.last,0,Nat.zero_le _,by rw [h.calls]; simp⟩

theorem Filled.then_paged {k left : Nat} {w1 : World ν} (h : Filled w w1)
    (h' : Paged k left w1 w') : Paged k left w w' := by
  refine ⟨h'.session.trans h.session,?_,?_⟩
  · intro before i hi
    obtain ⟨i1,h1,hend1⟩ := h.last before i hi
    obtain ⟨i2,h2,hend2⟩ := h'.last before i1 h1
    exact ⟨i2,h2,hend2.trans hend1⟩
  · rw [← h.calls]
    exact h'.restarts

theorem Paged.bind {β : Type} {k left : Nat} {m : Eff (World ν) Thrown α}
    {f : α → Eff (World ν) Thrown β} (hm : filling.Bounds m w)
    (hf : ∀ a w1,m w = (.ok a,w1) → Paged k left w1 (f a w1).2) :
    Paged k left w ((m >>= f) w).2 :=
  Eff.bind_rel hm (fun _ h => Filled.paged h) (fun _ _ h h' => Filled.then_paged h h') hf

/-- One page call is made before the others. -/
theorem Paged.succ {k left : Nat} {n : ν} {r : Except Thrown DirectoryPage}
    (h : Paged (k+1) left
      { w with native := n, calls := w.calls++[.nextPage w.session.directory (k == 0) r] } w') :
    Paged k (left+1) w w' := by
  obtain ⟨made,hmade,hrestarts⟩ := h.restarts
  refine ⟨h.session,h.last,made+1,Nat.succ_le_succ hmade,?_⟩
  rw [hrestarts,restarts_append,List.range'_succ,List.map_cons,List.append_assoc]
  rfl

theorem collectPages_paged {acc : Collected} {k left : Nat} :
    Paged k left w (collectPages calls config acc k left w).2 := by
  induction left generalizing acc k w with
  | zero => exact Filled.paged (filling.refl w)
  | succ left ih =>
    rw [collectPages,Eff.bind_of_ok (session_apply w)]
    rcases hp : calls.nextPage w.session.directory (k == 0) w.native with ⟨e | page,n⟩
    · have hnative : native (calls.nextPage w.session.directory (k == 0))
          (.nextPage w.session.directory (k == 0)) w = (.error e,{ w with
            native := n
            calls := w.calls++[.nextPage w.session.directory (k == 0) (.error e)] }) := by
        rw [native,hp]
      rw [Eff.bind_of_error hnative]
      exact Paged.succ (Filled.paged (filling.refl _))
    · have hnative : native (calls.nextPage w.session.directory (k == 0))
          (.nextPage w.session.directory (k == 0)) w = (.ok page,w.answered k page n) := by
        rw [native,hp]
        rfl
      rw [Eff.bind_of_ok hnative]
      apply Paged.succ (n := n) (r := .ok page)
      split_ifs
      · exact Filled.paged (filling.refl _)
      · refine Paged.bind (filling_updateInventory fun _ => rfl) ?_
        intro _ w1 _
        apply Paged.bind (.unchanged failIf_state)
        intro _ w2 _
        apply Paged.bind filling_collectEntries
        intro acc1 w3 _
        exact ih

theorem directoryIdentity_iff {key : Str} :
    directoryIdentity calls config w = (.ok key,w') ↔
      Eff.forEach (verifyNode calls "held-identity") w.session.verified w = (.ok (),w') ∧
        identityKey config.stateDirectory.identity = .ok key := by
  rw [directoryIdentity]
  simp only [Eff.bind_ok,session_ok,ofExcept_ok]
  constructor
  · intro hall
    obtain ⟨s,w1,⟨hs,h1⟩,_,w2,h2,hkey,h3⟩ := hall
    subst h1 hs h3
    exact ⟨h2,hkey⟩
  · intro hall
    obtain ⟨h,hkey⟩ := hall
    exact ⟨_,w,⟨rfl,rfl⟩,(),w',h,hkey,rfl⟩

/-- The phase of the inventory that a session makes next. -/
def SessionState.phase (s : SessionState) : String :=
  if s.initialInventorySet then "final" else "initial"

/-- The world in which an inventory is begun. -/
def World.beginInventory (w : World ν) : World ν :=
  { w with audit := { w.audit with
    inventories := w.audit.inventories++[{ phase := w.session.phase }] } }

/-- The session after an inventory that came to its explicit end. -/
def SessionState.commit (observed : OrderedMap Str NativeEntry) (s : SessionState) :
    SessionState :=
  if s.initialInventorySet then s
  else { s with initialInventory := observed, initialInventorySet := true }

theorem inventory_iff {entries : List Entry} :
    inventory calls config w = (.ok entries,w') ↔ ∃ key w1 acc w2,
      directoryIdentity calls config w = (.ok key,w1) ∧
      collectPages calls config {} 0 maxPages w1.beginInventory = (.ok (some acc),w2) ∧
      entries = acc.result ∧
      w' = { w2.amend fun i => { i with explicitEnd := true } with
        session := w2.session.commit acc.observed } := by
  rw [inventory]
  simp only [Eff.bind_ok,session_ok]
  constructor
  · intro hall
    obtain ⟨key,w1,h1,s,w2,⟨hs,h2⟩,_,w3,h3,collected,w4,h4,h⟩ := hall
    subst h2 hs
    obtain rfl : w3 = w1.beginInventory := (Prod.mk.inj h3).2.symm
    cases collected with
    | none => exact (fail_ok.mp h).elim
    | some acc =>
      simp only [Eff.bind_ok,updateInventory_iff,updateSession_ok] at h
      obtain ⟨_,w5,h5,_,w6,h6,h7⟩ := h
      subst h5 h6
      obtain ⟨he,hw⟩ := Prod.mk.inj h7
      exact ⟨key,w1,acc,w4,h1,h4,(Except.ok.inj he).symm,hw.symm⟩
  · intro hall
    obtain ⟨key,w1,acc,w2,h1,h2,he,hw⟩ := hall
    subst he hw
    refine ⟨key,w1,h1,_,w1,⟨rfl,rfl⟩,(),w1.beginInventory,rfl,some acc,w2,h2,?_⟩
    simp only [Eff.bind_ok,updateInventory_iff,updateSession_ok]
    exact ⟨(),_,rfl,(),_,rfl,rfl⟩

/-- Every held node verifies and the pages come to an explicit end in time, with nothing in
them that an inventory refuses. -/
structure CompleteScan (calls : NativeCalls ν) (config : SnapshotConfig) (w : World ν)
    (key : Str) (pages : List DirectoryPage) : Prop where
  key : identityKey config.stateDirectory.identity = .ok key
  scanned : ∃ n n',Verifies calls w.session.verified w.native n ∧
    Complete calls w.session.directory 0 maxPages n [] pages n'

theorem inventory_sound {entries : List Entry}
    (h : inventory calls config w = (.ok entries,w')) :
    ∃ key pages,CompleteScan calls config w key pages ∧
      entries = (scanned pages).map (NativeEntry.toEntry key) ∧
      w'.audit.inventories =
        w.audit.inventories++[⟨w.session.phase,scanned pages,pages.length,true⟩] ∧
      w'.session = w.session.commit (gather key (scanned pages)).observed := by
  obtain ⟨key,w1,acc,w2,h1,h2,he,hw⟩ := inventory_iff.mp h
  obtain ⟨hverify,hkey⟩ := directoryIdentity_iff.mp h1
  have hlooked : Looked w w1 := looking_directoryIdentity.rel h1
  have hinventories : w1.beginInventory.audit.inventories =
      w.audit.inventories++[{ phase := w.session.phase }] := by
    rw [World.beginInventory,hlooked.inventories,hlooked.session]
  obtain ⟨pages,hcomplete,hacc,hsession,haudit⟩ := collectPages_sound hkey .nil h2
  rw [List.nil_append] at hacc
  subst he hw hacc
  refine ⟨key,pages,⟨hkey,w1.native,w2.native,verifyAll_sound hverify,?_⟩,rfl,?_,?_⟩
  · rw [← hlooked.session]
    exact hcomplete
  · show (w2.amend _).audit.inventories = _
    rw [World.amend_inventories (haudit _ _ hinventories)]
    simp
  · show w2.session.commit _ = _
    rw [hsession]
    show w1.session.commit _ = _
    rw [hlooked.session]

theorem inventory_complete {key : Str} {pages : List DirectoryPage}
    (h : CompleteScan calls config w key pages) :
    ∃ w',inventory calls config w = (.ok ((scanned pages).map (NativeEntry.toEntry key)),w') := by
  obtain ⟨n,n',hverifies,hcomplete⟩ := h.scanned
  obtain ⟨w1,h1,hn⟩ := verifyAll_complete hverifies rfl
  have hidentity : directoryIdentity calls config w = (.ok key,w1) :=
    directoryIdentity_iff.mpr ⟨h1,h.key⟩
  have hlooked : Looked w w1 := looking_directoryIdentity.rel hidentity
  have hstart : Complete calls w1.beginInventory.session.directory 0 maxPages
      w1.beginInventory.native [] pages n' := by
    show Complete calls w1.session.directory 0 maxPages w1.native [] pages n'
    rw [hlooked.session,hn]
    exact hcomplete
  obtain ⟨w2,h2⟩ := collectPages_complete h.key .nil hstart
  exact ⟨_,inventory_iff.mpr ⟨key,w1,_,w2,hidentity,h2,rfl,rfl⟩⟩

/-- How an inventory can end: before its pages, on them, or with a list. -/
theorem inventory_cases (calls : NativeCalls ν) (config : SnapshotConfig) (w : World ν) :
    (∃ t w1,Looked w w1 ∧ inventory calls config w = (.error t,w1)) ∨
      ∃ w1 w2,Looked w w1 ∧ Paged 0 maxPages w1.beginInventory w2 ∧
        ((∃ t,inventory calls config w = (.error t,w2)) ∨
          ∃ entries w',w'.calls = w2.calls ∧ inventory calls config w = (.ok entries,w')) := by
  rcases h1 : directoryIdentity calls config w with ⟨e | key,w1⟩
  · refine .inl ⟨e,w1,looking_directoryIdentity.rel h1,?_⟩
    rw [inventory,Eff.bind_of_error h1]
  · rcases h2 : collectPages calls config {} 0 maxPages w1.beginInventory with ⟨e | r,w2⟩
    all_goals
      have hpaged : Paged 0 maxPages w1.beginInventory
          (collectPages calls config {} 0 maxPages w1.beginInventory).2 := collectPages_paged
      rw [h2] at hpaged
      refine .inr ⟨w1,w2,looking_directoryIdentity.rel h1,hpaged,?_⟩
    · refine .inl ⟨e,?_⟩
      rw [inventory,Eff.bind_of_ok h1,Eff.bind_of_ok (session_apply w1)]
      exact Eff.bind_of_error h2 _
    · cases r with
      | none =>
        apply Or.inl
        rw [inventory,Eff.bind_of_ok h1,Eff.bind_of_ok (session_apply w1)]
        exact ⟨_,Eff.bind_of_ok h2 _⟩
      | some acc =>
        have hok := inventory_iff.mpr ⟨key,w1,acc,w2,h1,h2,rfl,rfl⟩
        exact .inr ⟨acc.result,_,by rfl,hok⟩

theorem Looked.beginInventory {w1 : World ν} (h : Looked w w1) :
    w1.beginInventory.audit.inventories =
      w.audit.inventories++[{ phase := w.session.phase }] := by
  rw [World.beginInventory,h.inventories,h.session]

/-- An inventory that is refused leaves the session as it was, and no explicit end. -/
theorem inventory_refused {t : Thrown} (h : inventory calls config w = (.error t,w')) :
    w'.session = w.session ∧ ∃ new,w'.audit.inventories = w.audit.inventories++new ∧
      ∀ i ∈ new,i.explicitEnd = false := by
  rcases inventory_cases calls config w with ⟨t1,w1,hlooked,h1⟩ |
    ⟨w1,w2,hlooked,hpaged,⟨t1,h1⟩ | ⟨entries,w3,-,h1⟩⟩
  · obtain rfl := (Prod.mk.inj (h.symm.trans h1)).2
    exact ⟨hlooked.session,[],by rw [hlooked.inventories,List.append_nil],nofun⟩
  · obtain rfl := (Prod.mk.inj (h.symm.trans h1)).2
    obtain ⟨i,hlast,hend⟩ := hpaged.last _ _ hlooked.beginInventory
    exact ⟨hpaged.session.trans hlooked.session,[i],hlast,by simpa using hend⟩
  · exact absurd (Prod.mk.inj (h.symm.trans h1)).1 (by simp)

/-- However an inventory ends, it makes at most so many page calls, and only the first of
them restarts the scan. -/
theorem inventory_restarts (calls : NativeCalls ν) (config : SnapshotConfig) (w : World ν) :
    ∃ made ≤ maxPages,restarts (inventory calls config w).2.calls =
      restarts w.calls++(List.range made).map (· == 0) := by
  rcases inventory_cases calls config w with ⟨t,w1,hlooked,h⟩ |
    ⟨w1,w2,hlooked,hpaged,⟨t,h⟩ | ⟨entries,w',hcalls,h⟩⟩
  · refine ⟨0,Nat.zero_le _,?_⟩
    rw [h,hlooked.restarts]
    simp
  all_goals
    obtain ⟨made,hmade,hrestarts⟩ := hpaged.restarts
    refine ⟨made,hmade,?_⟩
    rw [h,List.range_eq_range',← hlooked.restarts]
  · exact hrestarts
  · rw [hcalls]
    exact hrestarts

/-- Without an initial inventory no child can be held. -/
theorem holdChild_unset (calls : NativeCalls ν) (config : SnapshotConfig) (name : Str)
    (h : w.session.initialInventorySet = false) :
    ∃ t,holdChild calls config name w = (.error t,w) := by
  rw [holdChild,Eff.bind_of_ok (session_apply w)]
  cases w.session.initialInventory.lookup name with
  | none => exact ⟨_,rfl⟩
  | some entry =>
    have hfail : (!w.session.initialInventorySet) = true ∨
        w.session.children.contains name = true := .inl (by rw [h]; rfl)
    obtain ⟨t,ht⟩ := failIf_error hfail .incomplete name childProfile "hold-child"
      "child absent from initial inventory or already held" w
    exact ⟨t,Eff.bind_of_error ht _⟩

/-- A call whose result is dropped. -/
theorem discard_eq {σ : Type} (m : Eff σ Thrown α) (s : σ) :
    (do let _ ← m; pure () : Eff σ Thrown Unit) s = ((m s).1.map fun _ => (),(m s).2) := by
  rw [Eff.bind_apply]
  rcases m s with ⟨_ | a,s'⟩ <;> rfl

/-- As long as no inventory returns, the session keeps its members. -/
theorem perform_unset {call : SessionCall} (hunset : w.session.initialInventorySet = false)
    (hr : (call,(call.perform (windowsSession calls config) w).1) ≠ (.inventory,.ok ())) :
    (call.perform (windowsSession calls config) w).2.session = w.session := by
  cases call with
  | directoryIdentity =>
    have hlooked : Looked w (directoryIdentity calls config w).2 := looking_directoryIdentity
    rw [SessionCall.perform,discard_eq]
    exact hlooked.session
  | inventory =>
    rw [SessionCall.perform,discard_eq] at hr ⊢
    rcases h : inventory calls config w with ⟨t | entries,w'⟩
    · show (inventory calls config w).2.session = w.session
      rw [h]
      exact (inventory_refused h).1
    · refine absurd ?_ hr
      show (SessionCall.inventory,(inventory calls config w).1.map fun _ => ()) = _
      rw [h]
      rfl
  | holdChild name =>
    obtain ⟨t,ht⟩ := holdChild_unset calls config name hunset
    show (holdChild calls config name w).2.session = w.session
    rw [ht]
  | heldIdentity name =>
    have hlooked : Looked w (heldIdentity calls config name w).2 := looking_heldIdentity name
    rw [SessionCall.perform,discard_eq]
    exact hlooked.session
  | readChild name =>
    have hlooked : Looked w (readChild calls name w).2 := looking_readChild name
    rw [SessionCall.perform,discard_eq]
    exact hlooked.session

/-- Until an inventory returns, every child is refused. -/
theorem performAll_unset {cs : List SessionCall} (hunset : w.session.initialInventorySet = false)
    (hr : (.inventory,.ok ()) ∉ (performAll (windowsSession calls config) cs w).1) {name : Str}
    {r : Except Thrown Unit}
    (hc : (.holdChild name,r) ∈ (performAll (windowsSession calls config) cs w).1) :
    ∃ t,r = .error t := by
  induction cs generalizing w with
  | nil => exact absurd hc List.not_mem_nil
  | cons call cs ih =>
    rw [performAll_cons] at hr hc
    rcases List.mem_cons.mp hc with heq | hrest
    · obtain ⟨rfl,hout⟩ := Prod.mk.inj heq
      obtain ⟨t,ht⟩ := holdChild_unset calls config name hunset
      refine ⟨t,?_⟩
      rw [hout]
      show (holdChild calls config name w).1 = _
      rw [ht]
    · have hfirst := perform_unset hunset fun heq => hr (heq ▸ List.mem_cons_self)
      exact ih (by rw [hfirst]; exact hunset) (fun hm => hr (List.mem_cons_of_mem _ hm)) hrest

/-- Units below the surrogates are always converted. -/
theorem wideCharToMultiByte_plain {us : WStr} (h : ∀ u ∈ us,u < 0xd800) :
    ∃ t,wideCharToMultiByte us = some t := by
  induction us with
  | nil => exact ⟨[],rfl⟩
  | cons u us ih =>
    obtain ⟨hu,hus⟩ := List.forall_mem_cons.mp h
    obtain ⟨t,ht⟩ := ih hus
    rw [wideCharToMultiByte.eq_def]
    simp only [if_pos (Or.inl hu),ht]
    exact ⟨_,rfl⟩

theorem wideCharToMultiByte_append {us vs : WStr} {s : Str}
    (hus : wideCharToMultiByte us = some s) (hvs : ∀ v ∈ vs,v < 0xd800) :
    ∃ t,wideCharToMultiByte (us++vs) = some t := by
  induction us using wideCharToMultiByte.induct generalizing s with
  | case1 => exact wideCharToMultiByte_plain hvs
  | case2 u us hu ih =>
    rw [wideCharToMultiByte.eq_def] at hus
    simp only [if_pos hu,Option.map_eq_some_iff] at hus
    obtain ⟨t,ht,-⟩ := hus
    obtain ⟨t',ht'⟩ := ih ht
    rw [List.cons_append,wideCharToMultiByte.eq_def]
    simp only [if_pos hu,ht']
    exact ⟨_,rfl⟩
  | case3 u hu => simp [wideCharToMultiByte.eq_def,hu] at hus
  | case4 u hu v us hpair ih =>
    rw [wideCharToMultiByte.eq_def] at hus
    simp only [if_neg hu,if_pos hpair,Option.map_eq_some_iff] at hus
    obtain ⟨t,ht,-⟩ := hus
    obtain ⟨t',ht'⟩ := ih ht
    rw [List.cons_append,List.cons_append,wideCharToMultiByte.eq_def]
    simp only [if_neg hu,if_pos hpair,ht']
    exact ⟨_,rfl⟩
  | case5 u hu v us hpair =>
    rw [wideCharToMultiByte.eq_def] at hus
    simp [hu,hpair] at hus

theorem isComponentChar_lt {u : UInt16} (h : isComponentChar u = true) : u < 0xd800 := by
  simp only [isComponentChar,Bool.or_eq_true,Bool.and_eq_true,decide_eq_true_eq,beq_iff_eq,
    UInt16.le_iff_toNat_le,← UInt16.toNat_inj] at h
  rw [UInt16.lt_iff_toNat_lt]
  simp at h ⊢
  omega

theorem identityKey_ok_iff {m : Metadata} : (∃ key,identityKey m = .ok key) ↔
    m.finalPath.length ≤ 2147483647 ∧ ∃ t,wideCharToMultiByte m.finalPath = some t := by
  rw [identityKey,utf8]
  by_cases h : m.finalPath.length > 2147483647
  · rw [if_pos h]
    constructor
    · intro hall
      obtain ⟨key,hkey⟩ := hall
      exact absurd hkey (by simp [bind,Except.bind])
    · intro hall
      obtain ⟨hle,_⟩ := hall
      omega
  · rw [if_neg h]
    cases ht : wideCharToMultiByte m.finalPath with
    | none => simp [bind,Except.bind]
    | some t => simp [bind,Except.bind,pure,Except.pure,not_lt.mp h]

/-- In a session that a source opened, the key of the state directory fails only where its
path is too long to be converted. -/
theorem WindowsSnapshotSource.openSession_key {source : WindowsSnapshotSource}
    {profile : String} {s : SnapshotSession (World ν)}
    (h : source.openSession calls profile w = (.ok (some s),w')) :
    (∃ key,identityKey source.config.stateDirectory.identity = .ok key) ↔
      source.config.stateDirectory.identity.finalPath.length ≤ 2147483647 := by
  obtain ⟨-,opening,root,ancestors,state,-,-,-,-,-,-,parent,hparent,hpath⟩ :=
    source.openSession_ok h
  obtain ⟨-,t,ht⟩ := identityKey_ok_iff.mp hparent
  have hcomponent : ∀ u ∈ source.config.stateDirectory.component,u < 0xd800 := by
    intro u hu
    have hvalid := source.reviewed.1.2.2.2.2.2.1
    rw [validComponent,Bool.and_eq_true,List.all_eq_true] at hvalid
    exact isComponentChar_lt (hvalid.2 u hu)
  have hconverted :
      ∃ t,wideCharToMultiByte source.config.stateDirectory.identity.finalPath = some t := by
    rw [hpath,childFinalPath,List.append_assoc]
    apply wideCharToMultiByte_append ht
    intro u hu
    rcases List.mem_append.mp hu with hu | hu
    · split_ifs at hu
      · exact absurd hu List.not_mem_nil
      · rw [show wide "\\" = [0x5c] by decide] at hu
        rw [List.mem_singleton.mp hu]
        decide
    · exact hcomponent u hu
  rw [identityKey_ok_iff]
  exact ⟨fun h => h.1,fun h => ⟨h,hconverted⟩⟩

/-- An inventory is complete or refused. -/
theorem inventory_complete_or_refused (calls : NativeCalls ν) (config : SnapshotConfig) :
    (∀ w : World ν,
      (∀ entries,(inventory calls config w).1 = .ok entries ↔ ∃ key pages,
        CompleteScan calls config w key pages ∧
          entries = (scanned pages).map (NativeEntry.toEntry key)) ∧
      (∀ entries w',inventory calls config w = (.ok entries,w') → ∃ key pages,
        CompleteScan calls config w key pages ∧
        w'.audit.inventories =
          w.audit.inventories++[⟨w.session.phase,scanned pages,pages.length,true⟩] ∧
        (w.session.initialInventorySet = false → w'.session.initialInventorySet = true ∧
          ∀ name e,w'.session.initialInventory.lookup name = some e ↔
            e ∈ scanned pages ∧ e.name = name)) ∧
      (∀ t w',inventory calls config w = (.error t,w') → w'.session = w.session ∧
        ∃ new,w'.audit.inventories = w.audit.inventories++new ∧
          ∀ i ∈ new,i.explicitEnd = false) ∧
      ∃ made ≤ maxPages,restarts (inventory calls config w).2.calls =
        restarts w.calls++(List.range made).map (· == 0)) ∧
    (∀ (w : World ν) (cs : List SessionCall),w.session.initialInventorySet = false →
      (.inventory,.ok ()) ∉ (performAll (windowsSession calls config) cs w).1 →
      ∀ name r,(.holdChild name,r) ∈ (performAll (windowsSession calls config) cs w).1 →
        ∃ t,r = .error t) ∧
    ∀ (source : WindowsSnapshotSource) (profile : String) (s : SnapshotSession (World ν))
      (w w' : World ν),source.openSession calls profile w = (.ok (some s),w') →
      ((∃ key,identityKey source.config.stateDirectory.identity = .ok key) ↔
        source.config.stateDirectory.identity.finalPath.length ≤ 2147483647) := by
  refine ⟨?_,?_,fun source profile s w w' h => source.openSession_key h⟩
  · intro w
    refine ⟨?_,?_,fun t w' h => inventory_refused h,inventory_restarts calls config w⟩
    · intro entries
      constructor
      · intro h
        obtain ⟨key,pages,hscan,he,-,-⟩ := inventory_sound (Prod.ext h rfl)
        exact ⟨key,pages,hscan,he⟩
      · intro hall
        obtain ⟨key,pages,hscan,he⟩ := hall
        obtain ⟨w',hw'⟩ := inventory_complete hscan
        rw [hw',he]
    · intro entries w' h
      obtain ⟨key,pages,hscan,-,haudit,hsession⟩ := inventory_sound h
      refine ⟨key,pages,hscan,haudit,?_⟩
      intro hunset
      obtain ⟨n,n',-,hc⟩ := hscan.scanned
      rw [hsession,SessionState.commit,if_neg (by rw [hunset]; decide)]
      exact ⟨rfl,gather_lookup key hc.admissible.distinct⟩
  · intro w cs hunset hr name r hc
    exact performAll_unset hunset hr hc

end SoftwareFactory.StageA.Windows
