import SoftwareFactory.StageA.HexText
import SoftwareFactory.StageA.WindowsRules

namespace SoftwareFactory.StageA.Windows

open Effect

variable {τ ν : Type} {calls : NativeCalls ν} {config : SnapshotConfig} {w w' : World ν}

theorem fileIdHex_inj {a b : Vector UInt8 16} (h : fileIdHex a = fileIdHex b) : a = b :=
  Vector.toList_inj.mp (hexText_inj h)

/-- Every accumulated entry stems from a page that the directory handle returned. -/
structure Scanned (directory : Handle) (acc : Collected) (seg : List NativeEvent) : Prop where
  result : ∀ e ∈ acc.result,∃ id,fileIdHex id = e.fileId ∧ Enumerated directory e.name id seg
  observed : ∀ name entry,acc.observed.lookup name = some entry →
    Enumerated directory name entry.fileId seg

theorem Scanned.mono {directory : Handle} {acc : Collected} {seg seg' : List NativeEvent}
    (h : Scanned directory acc seg) (hsub : seg ⊆ seg') : Scanned directory acc seg' := by
  refine ⟨?_,fun name entry hl => (h.observed name entry hl).mono hsub⟩
  intro e he
  obtain ⟨id,hid,hen⟩ := h.result e he
  exact ⟨id,hid,hen.mono hsub⟩

theorem Scanned.empty (directory : Handle) (seg : List NativeEvent) : Scanned directory {} seg :=
  ⟨nofun,nofun⟩

theorem collectEntries_ok {directory : Handle} {acc acc' : Collected} {entries : List NativeEntry}
    {seg : List NativeEvent} (hacc : Scanned directory acc seg)
    (hen : ∀ entry ∈ entries,Enumerated directory entry.name entry.fileId seg)
    (h : collectEntries config acc entries w = (.ok acc',w')) :
    Quiet [] w w' ∧ Scanned directory acc' seg := by
  induction entries generalizing acc w with
  | nil =>
    obtain ⟨h1,rfl⟩ := Prod.mk.inj h
    obtain rfl := Except.ok.inj h1
    exact ⟨Quiet.refl _,hacc⟩
  | cons entry entries ih =>
    rw [collectEntries] at h
    have hen' : ∀ e ∈ entries,Enumerated directory e.name e.fileId seg :=
      fun e he => hen e (List.mem_cons_of_mem _ he)
    by_cases hd : isDots entry.name = true
    · rw [if_pos hd] at h
      exact ih hacc hen' h
    · rw [if_neg hd] at h
      obtain ⟨_,w1,h1,h⟩ := Eff.bind_ok.mp h
      obtain ⟨_,w2,h2,h⟩ := Eff.bind_ok.mp h
      obtain ⟨_,w3,h3,h⟩ := Eff.bind_ok.mp h
      obtain ⟨_,w4,h4,h⟩ := Eff.bind_ok.mp h
      obtain ⟨parentId,w5,h5,h⟩ := Eff.bind_ok.mp h
      have hq := updateInventory_ok h1
      obtain ⟨-,rfl⟩ := failIf_ok.mp h2
      obtain ⟨-,rfl⟩ := failIf_ok.mp h3
      obtain ⟨hnew,rfl⟩ := failIf_ok.mp h4
      obtain ⟨-,rfl⟩ := ofExcept_ok.mp h5
      simp only [not_or,Bool.not_eq_true] at hnew
      have hthis := hen entry List.mem_cons_self
      refine (ih ⟨?_,?_⟩ hen' h).imp (fun hq' => hq.append hq') id
      · intro e he
        rcases List.mem_append.mp he with he | he
        · exact hacc.result e he
        · rw [List.mem_singleton.mp he]
          exact ⟨entry.fileId,rfl,hthis⟩
      · intro name found hl
        rw [OrderedMap.lookup_emplace hnew.2] at hl
        split_ifs at hl with hn
        · obtain rfl := Option.some.inj hl
          rw [hn]
          exact hthis
        · exact hacc.observed name found hl

theorem collectPages_ok {acc acc' : Collected} {pageNumber left : Nat} {seg : List NativeEvent}
    (hacc : Scanned w.session.directory acc seg)
    (h : collectPages calls config acc pageNumber left w = (.ok (some acc'),w')) :
    ∃ pages,Quiet pages w w' ∧ Scanned w.session.directory acc' (seg++pages) := by
  induction left generalizing acc pageNumber seg w with
  | zero => exact absurd (Prod.mk.inj h).1 (by simp)
  | succ left ih =>
    rw [collectPages] at h
    obtain ⟨s,w1,h1,h⟩ := Eff.bind_ok.mp h
    obtain ⟨page,w2,h2,h⟩ := Eff.bind_ok.mp h
    obtain ⟨rfl,rfl⟩ := session_ok.mp h1
    obtain ⟨n,-,rfl⟩ := native_ok.mp h2
    by_cases hend : page.atEnd = true
    · rw [if_pos hend] at h
      obtain ⟨h3,rfl⟩ := Prod.mk.inj h
      obtain rfl := Option.some.inj (Except.ok.inj h3)
      exact ⟨_,⟨rfl,rfl⟩,hacc.mono (List.subset_append_left _ _)⟩
    · rw [if_neg hend] at h
      obtain ⟨_,w3,h3,h⟩ := Eff.bind_ok.mp h
      obtain ⟨_,w4,h4,h⟩ := Eff.bind_ok.mp h
      obtain ⟨acc1,w5,h5,h6⟩ := Eff.bind_ok.mp h
      have hq := updateInventory_ok h3
      obtain ⟨-,rfl⟩ := failIf_ok.mp h4
      obtain ⟨hq',hacc1⟩ := collectEntries_ok
        (hacc.mono (List.subset_append_left seg [.nextPage w.session.directory (pageNumber == 0)
          (.ok page)]))
        (fun entry he => ⟨pageNumber == 0,page,List.mem_append_right _ List.mem_cons_self,entry,he,
          rfl,rfl⟩) h5
      have hq0 : Quiet [.nextPage w.session.directory (pageNumber == 0) (.ok page)] w
          { w with
            native := n
            calls := w.calls++[.nextPage w.session.directory (pageNumber == 0) (.ok page)] } :=
        ⟨rfl,rfl⟩
      have hq1 := (hq0.append hq).append hq'
      obtain ⟨pages,hq2,hacc'⟩ := ih (by rw [hq1.session]; exact hacc1) h6
      refine ⟨_,hq1.append hq2,?_⟩
      rw [hq1.session,List.append_assoc] at hacc'
      exact hacc'

/-- What an inventory reports, and what it leaves in the session. -/
theorem inventory_ok {result : List Entry}
    (h : inventory calls config w = (.ok result,w')) :
    ∃ seg,Steady seg w w' ∧ (∀ node ∈ w.session.verified,Seen node seg) ∧
      (∀ e ∈ result,∃ id,fileIdHex id = e.fileId ∧
        Enumerated w.session.directory e.name id seg) ∧
      w'.session.initialInventorySet = true ∧
      (w.session.initialInventorySet = false → ∀ name entry,
        w'.session.initialInventory.lookup name = some entry →
          Enumerated w.session.directory name entry.fileId seg) := by
  rw [inventory] at h
  obtain ⟨_,w1,h1,h⟩ := Eff.bind_ok.mp h
  obtain ⟨s,w2,h2,h⟩ := Eff.bind_ok.mp h
  obtain ⟨_,w3,h3,h⟩ := Eff.bind_ok.mp h
  obtain ⟨collected,w4,h4,h⟩ := Eff.bind_ok.mp h
  obtain ⟨seg,hq1,hseen⟩ := directoryIdentity_ok h1
  obtain ⟨rfl,rfl⟩ := session_ok.mp h2
  have hq3 := hq1.append (updateAudit_ok h3)
  cases collected with
  | none => exact (fail_ok.mp h).elim
  | some acc =>
    obtain ⟨pages,hq4,hacc⟩ := collectPages_ok (Scanned.empty _ []) h4
    rw [hq3.session,List.nil_append] at hacc
    obtain ⟨_,w5,h5,h⟩ := Eff.bind_ok.mp h
    obtain ⟨_,w6,h6,h⟩ := Eff.bind_ok.mp h
    obtain ⟨h7,rfl⟩ := Prod.mk.inj h
    obtain rfl := Except.ok.inj h7
    have hq := (hq3.append hq4).append (updateInventory_ok h5)
    obtain rfl := updateSession_ok.mp h6
    have hacc' := hacc.mono (List.subset_append_right seg pages)
    have hseen' : ∀ node ∈ w.session.verified,Seen node (seg++pages) :=
      fun node hn => (hseen node hn).mono (List.subset_append_left _ _)
    have hseg : seg++[]++pages++[] = seg++pages := by simp
    rw [hseg] at hq
    by_cases hset : w.session.initialInventorySet = true
    · have hset5 : w5.session.initialInventorySet = true := by rw [hq.session,hset]
      refine ⟨_,?_,hseen',hacc'.result,?_,fun hn => absurd hset (by rw [hn]; decide)⟩
      · rw [if_pos hset5]
        exact hq.steady
      · rw [if_pos hset5]
        exact hset5
    · have hset5 : ¬ w5.session.initialInventorySet = true := by rw [hq.session]; exact hset
      refine ⟨_,?_,hseen',hacc'.result,?_,fun _ => ?_⟩
      · rw [if_neg hset5]
        exact ⟨hq.calls,by rw [← hq.session],by rw [← hq.session],by rw [← hq.session]⟩
      · rw [if_neg hset5]
      · rw [if_neg hset5]
        exact hacc'.observed

/-- What `require_child` establishes of an observation. -/
structure RegularChild (config : SnapshotConfig) (name : Str) (component : WStr) (m : Metadata) :
    Prop where
  not_directory : m.directory = false
  regular : m.attributes &&& (fileAttributeDirectory ||| fileAttributeDevice) = 0
  not_reparse : isReparse m = false
  no_tag : m.reparseTag = 0
  daclProtected : m.daclProtected = true
  sddl : config.childSddl.lookup name = some m.sddl
  finalPath : m.finalPath = childFinalPath config.stateDirectory.identity.finalPath component
  fileId : nonzeroId m.fileId = true

theorem requireChild_ok {m : Metadata} {component sddl : WStr} {name : Str} {step : String}
    {s s' : τ} {u : Unit} (hl : config.childSddl.lookup name = some sddl)
    (h : requireChild m config.stateDirectory.identity component sddl name step s = (.ok u,s')) :
    s = s' ∧ RegularChild config name component m := by
  obtain ⟨hc,rfl⟩ := failIf_ok.mp h
  simp only [not_or,Bool.not_eq_true',Bool.not_eq_false,ne_eq,not_not,Bool.not_eq_true] at hc
  obtain ⟨hdir,hattr,hdacl,-,hrep,htag,-,-,hpath,hid,hsddl⟩ := hc
  exact ⟨rfl,hdir,hattr,hrep,htag,hdacl,by rw [hl,hsddl],hpath,hid⟩

/-- A child as the session holds it, and the calls by which it came to be held. -/
structure HeldChild (config : SnapshotConfig) (directory : Handle) (name : Str) (child : Child)
    (first holding : List NativeEvent) : Prop where
  component : wideComponent name = .ok child.component
  opened : .openRelative directory child.component snapshotChildSpec name childProfile
    (.ok child.handle) ∈ holding
  observed : .inspect child.handle name childProfile "hold-child-identity" (.ok child.initial) ∈
    holding
  regular : RegularChild config name child.component child.initial
  enumerated : Enumerated directory name child.initial.fileId first

theorem HeldChild.mono {directory : Handle} {name : Str} {child : Child}
    {first holding holding' : List NativeEvent}
    (h : HeldChild config directory name child first holding) (hsub : holding ⊆ holding') :
    HeldChild config directory name child first holding' :=
  ⟨h.component,hsub h.opened,hsub h.observed,h.regular,h.enumerated⟩

/-- A stretch in which the nodes, the directory and the first inventory stayed as they were,
and no child was let go. -/
structure Holding (seg : List NativeEvent) (w w' : World ν) : Prop where
  calls : w'.calls = w.calls++seg
  verified : w'.session.verified = w.session.verified
  directory : w'.session.directory = w.session.directory
  initialInventory : w'.session.initialInventory = w.session.initialInventory
  children : ∀ name child,w.session.children.lookup name = some child →
    w'.session.children.lookup name = some child

theorem Quiet.holding {seg : List NativeEvent} (h : Quiet seg w w') : Holding seg w w' :=
  ⟨h.calls,by rw [h.session],by rw [h.session],by rw [h.session],by rw [h.session]; exact
    fun _ _ h => h⟩

theorem Holding.append {seg seg' : List NativeEvent} {w'' : World ν} (h : Holding seg w w')
    (h' : Holding seg' w' w'') : Holding (seg++seg') w w'' :=
  ⟨by rw [h'.calls,h.calls,List.append_assoc],h'.verified.trans h.verified,
    h'.directory.trans h.directory,h'.initialInventory.trans h.initialInventory,
    fun name child hl => h'.children name child (h.children name child hl)⟩

theorem holdHandle_ok {handle : Handle} {u : Unit} (h : pushHandle handle w = (.ok u,w')) :
    Holding [] w w' ∧ w'.session.children = w.session.children := by
  obtain rfl := updateSession_ok.mp h
  exact ⟨⟨(List.append_nil _).symm,rfl,rfl,rfl,fun _ _ h => h⟩,rfl⟩

theorem holdChild_ok {name : Str} {first : List NativeEvent} {u : Unit}
    (hfirst : ∀ entry,w.session.initialInventory.lookup name = some entry →
      Enumerated w.session.directory name entry.fileId first)
    (h : holdChild calls config name w = (.ok u,w')) :
    ∃ seg child,Holding seg w w' ∧ w'.session.children.lookup name = some child ∧
      HeldChild config w.session.directory name child first seg := by
  rw [holdChild] at h
  obtain ⟨s,w1,h1,h⟩ := Eff.bind_ok.mp h
  obtain ⟨rfl,rfl⟩ := session_ok.mp h1
  cases hentry : w.session.initialInventory.lookup name with
  | none =>
    simp only [hentry] at h
    exact (fail_ok.mp h).elim
  | some entry =>
    simp only [hentry] at h
    obtain ⟨_,w2,h2,h⟩ := Eff.bind_ok.mp h
    obtain ⟨hnew,rfl⟩ := failIf_ok.mp h2
    simp only [not_or,Bool.not_eq_true',Bool.not_eq_false,Bool.not_eq_true] at hnew
    cases hsddl : config.childSddl.lookup name with
    | none =>
      simp only [hsddl] at h
      exact (fail_ok.mp h).elim
    | some sddl =>
      simp only [hsddl] at h
      cases hcomp : wideComponent name with
      | error e =>
        simp only [hcomp] at h
        exact (fail_ok.mp h).elim
      | ok component =>
        simp only [hcomp] at h
        obtain ⟨handle,w3,h3,h⟩ := Eff.bind_ok.mp h
        obtain ⟨_,w4,h4,h⟩ := Eff.bind_ok.mp h
        obtain ⟨m,w5,h5,h⟩ := Eff.bind_ok.mp h
        obtain ⟨parentId,w6,h6,h⟩ := Eff.bind_ok.mp h
        obtain ⟨_,w7,h7,h⟩ := Eff.bind_ok.mp h
        obtain ⟨_,w8,h8,h⟩ := Eff.bind_ok.mp h
        obtain ⟨_,w9,h9,h10⟩ := Eff.bind_ok.mp h
        have hq3 := openRelative_ok h3
        obtain ⟨hpush,hch⟩ := holdHandle_ok h4
        obtain ⟨-,rfl⟩ := ofExcept_ok.mp h6
        obtain ⟨rfl,hregular⟩ := requireChild_ok hsddl h8
        obtain ⟨hid,rfl⟩ := failIf_ok.mp h9
        have hid' : m.fileId = entry.fileId := fileIdHex_inj (not_not.mp hid)
        have hq := (inspect_ok h5).append (pushIdentity_ok h7)
        have hheld := (hq3.holding.append hpush).append hq.holding
        have hchildren : w7.session.children = w.session.children := by
          rw [hq.session,hch,hq3.session]
        have hfree : w7.session.children.contains name = false := by
          rw [hchildren]
          exact hnew.2
        obtain rfl := updateSession_ok.mp h10
        refine ⟨_,⟨handle,component,m⟩,⟨hheld.calls,hheld.verified,hheld.directory,
          hheld.initialInventory,?_⟩,?_,⟨hcomp,by simp,by simp,hregular,?_⟩⟩
        · intro n child hl
          have hne : n ≠ name := by
            intro heq
            subst heq
            rw [OrderedMap.contains,hl] at hnew
            exact absurd hnew.2 (by simp)
          rw [OrderedMap.lookup_emplace hfree,if_neg hne,hchildren]
          exact hl
        · rw [OrderedMap.lookup_emplace hfree,if_pos rfl]
        · rw [hid']
          exact hfirst entry hentry

theorem findChild_ok {name : Str} {child : Child}
    (h : findChild name w = (.ok child,w')) :
    w = w' ∧ w.session.children.lookup name = some child := by
  rw [findChild] at h
  obtain ⟨s,w1,h1,h⟩ := Eff.bind_ok.mp h
  obtain ⟨rfl,rfl⟩ := session_ok.mp h1
  cases hl : w.session.children.lookup name with
  | none =>
    simp only [hl] at h
    exact (fail_ok.mp h).elim
  | some c =>
    simp only [hl] at h
    obtain ⟨h1,rfl⟩ := Prod.mk.inj h
    exact ⟨rfl,by rw [Except.ok.inj h1]⟩

/-- A held child was observed again, unchanged. -/
theorem heldIdentity_ok {name id : Str} {child : Child}
    (hchild : w.session.children.lookup name = some child)
    (h : heldIdentity calls config name w = (.ok id,w')) :
    ∃ m,Quiet [.inspect child.handle name childProfile "held-child-identity" (.ok m)] w w' ∧
      RegularChild config name child.component m ∧ m.fileId = child.initial.fileId ∧
      id = fileIdHex m.fileId := by
  rw [heldIdentity] at h
  obtain ⟨c,w1,h1,h⟩ := Eff.bind_ok.mp h
  obtain ⟨m,w2,h2,h⟩ := Eff.bind_ok.mp h
  obtain ⟨parentId,w3,h3,h⟩ := Eff.bind_ok.mp h
  obtain ⟨_,w4,h4,hm⟩ := Eff.bind_ok.mp h
  obtain ⟨rfl,hc⟩ := findChild_ok h1
  obtain rfl := Option.some.inj (hc.symm.trans hchild)
  obtain ⟨-,rfl⟩ := ofExcept_ok.mp h3
  have hq := (inspect_ok h2).append (pushIdentity_ok h4)
  cases hsddl : config.childSddl.lookup name with
  | none =>
    simp only [hsddl] at hm
    exact absurd (Prod.mk.inj hm).1 (by simp)
  | some sddl =>
    simp only [hsddl] at hm
    obtain ⟨_,w5,h5,hm⟩ := Eff.bind_ok.mp hm
    obtain ⟨_,w6,h6,h7⟩ := Eff.bind_ok.mp hm
    obtain ⟨rfl,hregular⟩ := requireChild_ok hsddl h5
    obtain ⟨rfl,hsame,-⟩ := requireIdentity_ok h6
    obtain ⟨h8,rfl⟩ := Prod.mk.inj h7
    obtain ⟨-,-,-,-,hid,-⟩ := sameIdentity_iff.mp hsame
    exact ⟨m,hq,hregular,hid,(Except.ok.inj h8).symm⟩

theorem readChild_ok {name text : Str} {child : Child}
    (hchild : w.session.children.lookup name = some child)
    (h : readChild calls name w = (.ok text,w')) :
    Quiet [.readAll child.handle maxChildBytes name (.ok text)] w w' := by
  rw [readChild] at h
  obtain ⟨c,w1,h1,h⟩ := Eff.bind_ok.mp h
  obtain ⟨rfl,hc⟩ := findChild_ok h1
  obtain rfl := Option.some.inj (hc.symm.trans hchild)
  obtain ⟨n,-,rfl⟩ := native_ok.mp h
  exact ⟨rfl,rfl⟩

end SoftwareFactory.StageA.Windows
