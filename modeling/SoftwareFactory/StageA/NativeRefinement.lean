import SoftwareFactory.StageA.StableSnapshot
import SoftwareFactory.StageA.WindowsChildren

namespace SoftwareFactory.StageA

/-- A performed log splits where the log does. -/
theorem Performed.split {σ : Type} {s : SnapshotSession σ} {l l' : List Observation} {w w'' : σ}
    (h : Performed s (l++l') w w'') : ∃ w',Performed s l w w' ∧ Performed s l' w' w'' := by
  induction l generalizing w with
  | nil => exact ⟨w,.nil w,h⟩
  | cons o l ih =>
    cases h with
    | directoryIdentity h t =>
      obtain ⟨w',hl,hr⟩ := ih t
      exact ⟨w',.directoryIdentity h hl,hr⟩
    | inventory h t =>
      obtain ⟨w',hl,hr⟩ := ih t
      exact ⟨w',.inventory h hl,hr⟩
    | holdChild h t =>
      obtain ⟨w',hl,hr⟩ := ih t
      exact ⟨w',.holdChild h hl,hr⟩
    | heldIdentity h t =>
      obtain ⟨w',hl,hr⟩ := ih t
      exact ⟨w',.heldIdentity h hl,hr⟩
    | readChild h t =>
      obtain ⟨w',hl,hr⟩ := ih t
      exact ⟨w',.readChild h hl,hr⟩

namespace Windows

open Effect

variable {ν κ : Type} {calls : NativeCalls ν} {config : SnapshotConfig} {w w' : World ν}

/-- After the first loop every listed child is held, under the id it was enumerated with. -/
theorem holdLog_ok {entries : List Entry} {first : List NativeEvent}
    (hfirst : ∀ name entry,w.session.initialInventory.lookup name = some entry →
      Enumerated w.session.directory name entry.fileId first)
    (h : Performed (windowsSession calls config) (holdLog entries) w w') :
    ∃ seg,Holding seg w w' ∧ ∀ e ∈ listed entries,∃ child,
      w'.session.children.lookup e.name = some child ∧
      HeldChild config w.session.directory e.name child first seg ∧
      fileIdHex child.initial.fileId = e.fileId := by
  rw [holdLog] at h
  generalize listed entries = l at h
  induction l generalizing w with
  | nil =>
    cases h
    exact ⟨[],(Quiet.refl _).holding,by simp⟩
  | cons e l ih =>
    rw [List.flatMap_cons] at h
    obtain ⟨w2,h1,h2⟩ := h.split
    cases h1 with
    | holdChild hhold h1 =>
      cases h1 with
      | heldIdentity hid h1 =>
        cases h1
        obtain ⟨seg1,child,hold1,hchild,hheld⟩ := holdChild_ok (hfirst e.name) hhold
        obtain ⟨m,hq,-,hsame,hhex⟩ := heldIdentity_ok hchild hid
        have hstep := hold1.append hq.holding
        obtain ⟨seg2,hold2,hall⟩ := ih (by
          rw [hstep.initialInventory,hstep.directory]
          exact hfirst) h2
        refine ⟨_,hstep.append hold2,?_⟩
        intro e' he'
        rcases List.mem_cons.mp he' with rfl | he'
        · refine ⟨child,hold2.children _ _ (by rw [hq.session]; exact hchild),?_,?_⟩
          · exact hheld.mono fun x hx => by simp [hx]
          · rw [hhex,hsame]
        · obtain ⟨c,hc,hcheld,hcid⟩ := hall e' he'
          rw [hstep.directory] at hcheld
          exact ⟨c,hc,hcheld.mono (List.subset_append_right _ _),hcid⟩

/-- Whatever the stretch read of a name is the text given for it. -/
def ReadsOnly (content : Str → Str) (seg : List NativeEvent) : Prop :=
  ∀ handle maxBytes name r,.readAll handle maxBytes name r ∈ seg → r = .ok (content name)

theorem ReadsOnly.append {content : Str → Str} {seg seg' : List NativeEvent}
    (h : ReadsOnly content seg) (h' : ReadsOnly content seg') : ReadsOnly content (seg++seg') := by
  intro handle maxBytes name r hm
  rcases List.mem_append.mp hm with hm | hm
  · exact h handle maxBytes name r hm
  · exact h' handle maxBytes name r hm

theorem readLog_ok {texts : List (Str × Str)} (content : Str → Str)
    (hcontent : ∀ p ∈ texts,content p.1 = p.2)
    (hheld : ∀ p ∈ texts,∃ child,w.session.children.lookup p.1 = some child)
    (h : Performed (windowsSession calls config) (readLog texts) w w') :
    ∃ seg,Quiet seg w w' ∧ ReadsOnly content seg ∧ ∀ p ∈ texts,∀ child,
      w.session.children.lookup p.1 = some child →
        .readAll child.handle maxChildBytes p.1 (.ok p.2) ∈ seg := by
  induction texts generalizing w with
  | nil =>
    cases h
    exact ⟨[],Quiet.refl _,nofun,by simp⟩
  | cons p texts ih =>
    cases h with
    | readChild hread h =>
      obtain ⟨child,hchild⟩ := hheld p List.mem_cons_self
      have hq := readChild_ok hchild hread
      obtain ⟨seg,hq',honly,hall⟩ := ih (fun q hq => hcontent q (List.mem_cons_of_mem _ hq))
        (by rw [hq.session]; exact fun q hq => hheld q (List.mem_cons_of_mem _ hq)) h
      rw [hq.session] at hall
      refine ⟨_,hq.append hq',ReadsOnly.append ?_ honly,?_⟩
      · intro handle maxBytes name r hm
        obtain ⟨-,-,rfl,rfl⟩ := NativeEvent.readAll.inj (List.mem_singleton.mp hm)
        rw [hcontent p List.mem_cons_self]
      · intro q hq c hc
        rcases List.mem_cons.mp hq with rfl | hq
        · obtain rfl := Option.some.inj (hchild.symm.trans hc)
          exact List.mem_append_left _ List.mem_cons_self
        · exact List.mem_append_right _ (hall q hq c hc)

theorem recheckLog_ok {entries : List Entry} {content : Str → Str}
    (hheld : ∀ e ∈ listed entries,∃ child,w.session.children.lookup e.name = some child)
    (h : Performed (windowsSession calls config) (recheckLog content entries) w w') :
    ∃ seg,Quiet seg w w' ∧ ReadsOnly content seg ∧ ∀ e ∈ listed entries,∀ child,
      w.session.children.lookup e.name = some child →
        .readAll child.handle maxChildBytes e.name (.ok (content e.name)) ∈ seg ∧
        ∃ m,.inspect child.handle e.name childProfile "held-child-identity" (.ok m) ∈ seg ∧
          RegularChild config e.name child.component m ∧ m.fileId = child.initial.fileId := by
  rw [recheckLog] at h
  generalize listed entries = l at h hheld
  induction l generalizing w with
  | nil =>
    cases h
    refine ⟨[],Quiet.refl _,?_,by simp⟩
    intro handle maxBytes name r hm
    cases hm
  | cons e l ih =>
    rw [List.flatMap_cons] at h
    obtain ⟨w2,h1,h2⟩ := h.split
    cases h1 with
    | heldIdentity hid h1 =>
      cases h1 with
      | readChild hread h1 =>
        cases h1
        obtain ⟨child,hchild⟩ := hheld e List.mem_cons_self
        obtain ⟨m,hq1,hregular,hsame,-⟩ := heldIdentity_ok hchild hid
        have hq2 := readChild_ok (by rw [hq1.session]; exact hchild) hread
        have hq := hq1.append hq2
        obtain ⟨seg,hq',honly,hall⟩ := ih h2
          (by rw [hq.session]; exact fun e' he' => hheld e' (List.mem_cons_of_mem _ he'))
        rw [hq.session] at hall
        refine ⟨_,hq.append hq',ReadsOnly.append ?_ honly,?_⟩
        · intro handle maxBytes name r hm
          have hm' : NativeEvent.readAll handle maxBytes name r =
              .readAll child.handle maxChildBytes e.name (.ok (content e.name)) := by
            simpa using hm
          obtain ⟨-,-,rfl,rfl⟩ := NativeEvent.readAll.inj hm'
          rfl
        · intro e' he' c hc
          rcases List.mem_cons.mp he' with rfl | he'
          · obtain rfl := Option.some.inj (hchild.symm.trans hc)
            exact ⟨by simp,m,by simp,hregular,hsame⟩
          · obtain ⟨hread',m',hm',hrest⟩ := hall e' he' c hc
            exact ⟨List.mem_append_right _ hread',m',List.mem_append_right _ hm',hrest⟩

theorem validComponent_last {c : WStr} (h : validComponent c = true) :
    c ≠ [] ∧ c.getLast? ≠ some 0x5c := by
  rw [validComponent] at h
  simp only [Bool.and_eq_true,Bool.not_eq_true',Bool.or_eq_false_iff,List.isEmpty_eq_false_iff] at h
  obtain ⟨⟨⟨⟨⟨⟨hne,-⟩,-⟩,-⟩,-⟩,-⟩,hall⟩ := h
  refine ⟨hne,fun hlast => ?_⟩
  have hm := List.all_eq_true.mp hall _ (List.mem_of_getLast? hlast)
  exact absurd hm (by decide)

/-- Below a directory that is itself a component, the separator is written. -/
theorem childFinalPath_below {parent component c : WStr} (h : validComponent component = true) :
    childFinalPath (childFinalPath parent component) c =
      childFinalPath parent component++wide "\\"++c := by
  obtain ⟨hne,hlast⟩ := validComponent_last h
  rw [childFinalPath,if_neg]
  rw [not_or]
  refine ⟨by simp [childFinalPath,hne],?_⟩
  rw [childFinalPath,List.getLast?_append]
  cases hc : component.getLast? with
  | none => exact absurd (List.getLast?_eq_none_iff.mp hc) hne
  | some u =>
    rw [hc] at hlast
    simpa using hlast

def manifestNames : List Str := ["lock.bin","state.json","witness.txt"].map String.toList

/-- A reviewed manifest describes exactly the three files. -/
theorem SnapshotConfig.Reviewed.names {config : SnapshotConfig} (h : config.Reviewed) {name : Str}
    {sddl : WStr} (hl : config.childSddl.lookup name = some sddl) : name ∈ manifestNames := by
  obtain ⟨-,hlen,hall⟩ := h
  have hsub : manifestNames ⊆ config.childSddl.keys := by
    intro n hn
    obtain ⟨name,hname,rfl⟩ := List.mem_map.mp hn
    apply OrderedMap.contains_iff.mp
    rw [OrderedMap.contains]
    have hany := hall name hname
    cases hlook : config.childSddl.lookup name.toList with
    | none => simp [hlook] at hany
    | some v => rfl
  have hperm : manifestNames.Perm config.childSddl.keys :=
    (List.subperm_of_subset (by decide) hsub).perm_of_length_le
      (by rw [OrderedMap.keys,List.length_map,hlen]; decide)
  exact hperm.mem_iff.mpr (List.mem_map.mpr ⟨_,OrderedMap.lookup_eq_some_iff.mp hl,rfl⟩)

/-- ASCII text in UTF-16. -/
def widen (name : Str) : WStr := name.map fun c => c.toNat.toUInt16

theorem wideComponent_manifest {name : Str} {component : WStr} (hname : name ∈ manifestNames)
    (h : wideComponent name = .ok component) : component = widen name := by
  have hall : ∀ n ∈ manifestNames,wideComponent n = .ok (widen n) := by decide +kernel
  rw [hall name hname] at h
  exact (Except.ok.inj h).symm

/-- A state file as it was opened, observed, enumerated and read in the course of a run. -/
structure ChildObserved (config : SnapshotConfig) (directory handle : Handle) (name text : Str)
    (held final : Metadata) (first holding reading second last : List NativeEvent) : Prop where
  opened : .openRelative directory (widen name) snapshotChildSpec name childProfile
    (.ok handle) ∈ holding
  held_observed : .inspect handle name childProfile "hold-child-identity" (.ok held) ∈ holding
  final_observed : .inspect handle name childProfile "held-child-identity" (.ok final) ∈ last
  held_regular : RegularChild config name (widen name) held
  final_regular : RegularChild config name (widen name) final
  held_path : held.finalPath =
    config.stateDirectory.identity.finalPath++wide "\\"++widen name
  final_path : final.finalPath =
    config.stateDirectory.identity.finalPath++wide "\\"++widen name
  same_id : final.fileId = held.fileId
  first_enumerated : Enumerated directory name held.fileId first
  second_enumerated : Enumerated directory name held.fileId second
  first_read : .readAll handle maxChildBytes name (.ok text) ∈ reading
  second_read : .readAll handle maxChildBytes name (.ok text) ∈ last
  no_other_read : ∀ h n r,.readAll h n name r ∈ reading++last → r = .ok text

/-- A held child that is found again, enumerated again and read twice with one text. -/
theorem HeldChild.childObserved {source : WindowsSnapshotSource} {directory : Handle}
    {name text : Str} {child : Child} {final : Metadata}
    {first holding reading second last : List NativeEvent}
    (hparent : ∃ parent : Metadata,source.config.stateDirectory.identity.finalPath =
      childFinalPath parent.finalPath source.config.stateDirectory.component)
    (hheld : HeldChild source.config directory name child first holding)
    (hfinal : .inspect child.handle name childProfile "held-child-identity" (.ok final) ∈ last)
    (hregular : RegularChild source.config name child.component final)
    (hsame : final.fileId = child.initial.fileId)
    (hsecond : Enumerated directory name child.initial.fileId second)
    (hread : .readAll child.handle maxChildBytes name (.ok text) ∈ reading)
    (hreread : .readAll child.handle maxChildBytes name (.ok text) ∈ last)
    (honly : ∀ h n r,.readAll h n name r ∈ reading++last → r = .ok text) :
    ChildObserved source.config directory child.handle name text child.initial final first holding
      reading second last := by
  have hcomp : child.component = widen name :=
    wideComponent_manifest (source.reviewed.names hheld.regular.sddl) hheld.component
  have hpath : childFinalPath source.config.stateDirectory.identity.finalPath (widen name) =
      source.config.stateDirectory.identity.finalPath++wide "\\"++widen name := by
    obtain ⟨parent,hp⟩ := hparent
    rw [hp]
    exact childFinalPath_below source.reviewed.1.2.2.2.2.2.1
  have hopened := hheld.opened
  have hregular0 := hheld.regular
  rw [hcomp] at hopened hregular hregular0
  exact ⟨hopened,hheld.observed,hfinal,hregular0,hregular,hregular0.finalPath.trans hpath,
    hregular.finalPath.trans hpath,hsame,hheld.enumerated,hsecond,hread,hreread,honly⟩

/-- The calls of a completed session, stretch by stretch. -/
theorem sessionLog_ok {source : WindowsSnapshotSource} {fixture : FixtureCase} {dirId : Str}
    {before after : List Entry} {content : FileMap}
    (hobs : StableObservation fixture dirId before after content)
    (hset : w.session.initialInventorySet = false)
    (hparent : ∃ parent : Metadata,source.config.stateDirectory.identity.finalPath =
      childFinalPath parent.finalPath source.config.stateDirectory.component)
    (h : Performed (windowsSession calls source.config) (sessionLog dirId before after content)
      w w') :
    ∃ held first holding reading second identity last,
      w'.calls = w.calls++held++first++holding++reading++second++identity++last ∧
      (∀ node ∈ w.session.verified,Seen node first ∧ Seen node second ∧ Seen node identity) ∧
      ∀ name text,content.lookup name = some text → ∃ handle initial final,
        ChildObserved source.config w.session.directory handle name text initial final first
          holding reading second last := by
  rw [sessionLog] at h
  obtain ⟨w4,h,hrecheck⟩ := h.split
  obtain ⟨w3,h,hsecond⟩ := h.split
  obtain ⟨w2,h,hread⟩ := h.split
  obtain ⟨w1,h,hhold⟩ := h.split
  cases h with
  | directoryIdentity hd h =>
  cases h with
  | inventory hi h =>
  cases h
  cases hsecond with
  | inventory hi' h =>
  cases h with
  | directoryIdentity hd' h =>
  cases h
  obtain ⟨held,hq0,-⟩ := directoryIdentity_ok hd
  obtain ⟨first,hs1,hseen1,hresult1,-,hfirst⟩ := inventory_ok hi
  rw [hq0.session] at hseen1 hresult1 hfirst
  have hfirst' := hfirst hset
  have hdir1 := hs1.directory.trans (congrArg SessionState.directory hq0.session)
  obtain ⟨holding,hh,hchildren⟩ := holdLog_ok (by rw [hdir1]; exact hfirst') hhold
  rw [hdir1] at hchildren
  have hname : ∀ n ∈ content.keys,∃ e ∈ listed before,e.name = n :=
    fun n hn => List.mem_map.mp ((hobs.content_keys n).mp hn)
  obtain ⟨reading,hq3,honly3,hread3⟩ := readLog_ok (fun n => (content.lookup n).getD [])
    (fun p hp => by rw [OrderedMap.lookup_eq_some_iff.mpr hp]; rfl)
    (fun p hp => by
      obtain ⟨e,he,hn⟩ := hname p.1 (List.mem_map_of_mem hp)
      obtain ⟨child,hc,-⟩ := hchildren e he
      exact ⟨child,hn ▸ hc⟩) hread
  obtain ⟨second,hs4,hseen4,hresult4,-⟩ := inventory_ok hi'
  obtain ⟨identity,hq5,hseen5⟩ := directoryIdentity_ok hd'
  have hchildren4 : w4.session.children = w2.session.children := by
    rw [hq5.session,hs4.children,hq3.session]
  have hsame : ∀ e' ∈ listed after,∃ e ∈ listed before,e.name = e'.name := fun e' he' =>
    List.mem_map.mp (hobs.same_names.symm.subset (List.mem_map_of_mem he'))
  obtain ⟨last,hq6,honly6,hlast6⟩ := recheckLog_ok
    (fun e' he' => by
      obtain ⟨e,he,hn⟩ := hsame e' he'
      obtain ⟨child,hc,-⟩ := hchildren e he
      exact ⟨child,by rw [hchildren4,← hn]; exact hc⟩) hrecheck
  refine ⟨held,first,holding,reading,second,identity,last,?_,?_,?_⟩
  · rw [hq6.calls,hq5.calls,hs4.calls,hq3.calls,hh.calls,hs1.calls,hq0.calls]
  · intro node hn
    have hv3 : w3.session.verified = w.session.verified := by
      rw [hq3.session,hh.verified,hs1.verified,hq0.session]
    refine ⟨hseen1 node hn,hseen4 node (by rw [hv3]; exact hn),hseen5 node ?_⟩
    rw [hs4.verified,hv3]
    exact hn
  · intro name text htext
    obtain ⟨e,he,e',he',rfl,hn',hid⟩ := hobs.entries_of_text htext
    obtain ⟨child,hc,hheld,hhex⟩ := hchildren e he
    obtain ⟨hread6,m,hm,hregular,hsame⟩ := hlast6 e' he' child (by rw [hchildren4,hn']; exact hc)
    obtain ⟨id,hidhex,hen⟩ := hresult4 e' (List.mem_of_mem_filter he')
    have hid4 : id = child.initial.fileId := fileIdHex_inj (by rw [hidhex,← hid,hhex])
    have hdir3 : w3.session.directory = w.session.directory := by
      rw [hq3.session,hh.directory,hdir1]
    rw [hn'] at hread6 hm hregular
    rw [htext] at hread6
    rw [hid4,hn',hdir3] at hen
    refine ⟨child.handle,child.initial,m,hheld.childObserved hparent hm hregular hsame hen
      (hread3 _ (OrderedMap.lookup_eq_some_iff.mp htext) child hc) hread6 ?_⟩
    intro handle maxBytes r hr
    have hr' := honly3.append honly6 handle maxBytes e.name r hr
    simpa only [htext,Option.getD_some] using hr'

/-- A verdict that the state is current rests on the configured directories and, for every
file of the latest set, on one handle below the state directory; whatever the backend does
and whichever directory id is expected. -/
theorem acceptCurrent_refines (b : BCrypt κ) (calls : NativeCalls ν)
    (source : WindowsSnapshotSource) (fixture : FixtureCase) (expected p11 p10 : Str)
    (processReached brokerReadReached : Bool) (w : World ν) (k : κ) (e : Evidence)
    (r : Run (World ν) κ)
    (h : compareFreshController b (source.snapshotSource calls) fixture expected p11 p10
      processReached brokerReadReached (Run.start w k) = (.ok e,r))
    (hv : e.verdict = .acceptCurrent) :
    ∃ root ancestors state opening held first holding reading second identity last closing,
      r.world.calls = w.calls++opening++held++first++holding++reading++second++identity++last++
        closing ∧
      Opened source.config root ancestors state opening ∧
      (∀ node ∈ root::(ancestors++[state]),
        Seen node opening ∧ Seen node first ∧ Seen node second ∧ Seen node identity) ∧
      ∀ name text,fixture.latestFiles.lookup name = some text → ∃ handle initial final,
        ChildObserved source.config state.handle handle name text initial final first holding
          reading second last := by
  obtain ⟨-,-,rfl,hbody⟩ := compareImpl_decided rfl h (by rw [hv]; decide)
  obtain ⟨-,-,-,session,w1,before,after,content,digest,m,-,hopen,hperf,-,-,hobs,-,hworld,-,hev⟩ :=
    compareBody_ok hbody
  simp only [WindowsSnapshotSource.snapshotSource,Run.begin,Run.start] at hopen
  obtain ⟨rfl,opening,root,ancestors,state,hcalls,hverified,hdir,hset,hopened,hseen,parent,-,
    hpath⟩ := source.openSession_ok hopen
  have hparent : ∃ parent : Metadata,source.config.stateDirectory.identity.finalPath =
    childFinalPath parent.finalPath source.config.stateDirectory.component := ⟨parent,hpath⟩
  obtain ⟨held,first,holding,reading,second,identity,last,hcalls',hseen',hchild⟩ :=
    sessionLog_ok hobs hset hparent hperf
  rw [hverified] at hseen'
  rw [hdir] at hchild
  have hlatest : content = fixture.latestFiles := by
    rw [hev] at hv
    have hverdict := verdict_iff
      (conclude_verdict fixture content { m.evidence with observedDigest := digest })
    exact (hverdict.2.1.mp hv).2.2
  rw [hlatest] at hchild
  refine ⟨root,ancestors,state,opening,held,first,holding,reading,second,identity,last,
    m.world.session.handles.reverse.map .close,?_,hopened,
    fun node hn => ⟨hseen node hn,hseen' node hn⟩,hchild⟩
  rw [hworld]
  change m.world.calls++_ = _
  rw [hcalls',hcalls]

def sampleMetadata (path : String) (id : UInt8) (directory : Bool) : Metadata where
  volumeGuidPath := wide "V:\\"
  finalPath := wide path
  sddl := wide "O:BA"
  volumeSerial := 7
  fileId := Vector.ofFn fun _ => id
  attributes := if directory then fileAttributeDirectory else 0
  reparseTag := 0
  directory := directory
  daclProtected := true

def sampleSource : WindowsSnapshotSource where
  config :=
    { volumeRootPath := wide "C:\\"
      rootIdentity := sampleMetadata "V:\\" 1 true
      ancestors := [⟨wide "a",sampleMetadata "V:\\a" 2 true⟩,⟨wide "b",sampleMetadata "V:\\a\\b" 3 true⟩]
      stateDirectory := ⟨wide "state",sampleMetadata "V:\\a\\b\\state" 4 true⟩
      childSddl := ⟨manifestNames.map fun n => (n,wide "O:BA"),by decide +kernel⟩ }
  reviewed := by decide +kernel

/-- A backend in which the state directory holds the latest files and nothing moves. -/
def steadyCalls : NativeCalls Unit where
  openRoot _ _ := pure 0
  openRelative parent _ _ object _ :=
    pure ((manifestNames.idxOf? object).elim (parent+1) fun i => 4+i)
  inspect handle _ _ _ := pure <|
    match handle with
    | 0 => sampleSource.config.rootIdentity
    | 1 => sampleMetadata "V:\\a" 2 true
    | 2 => sampleMetadata "V:\\a\\b" 3 true
    | 3 => sampleSource.config.stateDirectory.identity
    | 4 => sampleMetadata "V:\\a\\b\\state\\lock.bin" 5 false
    | 5 => sampleMetadata "V:\\a\\b\\state\\state.json" 6 false
    | _ => sampleMetadata "V:\\a\\b\\state\\witness.txt" 7 false
  nextPage _ restart := pure <|
    if restart then
      ⟨false,[⟨"lock.bin",Vector.ofFn fun _ => 5,0,0⟩,⟨"state.json",Vector.ofFn fun _ => 6,0,0⟩,
        ⟨"witness.txt",Vector.ofFn fun _ => 7,0,0⟩]⟩
    else ⟨true,[]⟩
  readAll _ _ object := pure ((activeCase.latestFiles.lookup object).getD [])
  close _ n := n

def sampleDirectoryId : Str := (sampleSource.expectedDirectoryId.toOption).getD []

def nativeRun : Except Thrown Evidence × Run (World Unit) Unit :=
  compareFreshController recordedCrypt (sampleSource.snapshotSource steadyCalls) activeCase
    sampleDirectoryId activeP11 p10Digest true true (Run.start ⟨(),[],{},{}⟩ ())

theorem nativeRun_refines : ∃ directory handle initial final first holding reading second last,
    ChildObserved sampleSource.config directory handle "lock.bin" "S1PF-LOCK-V1\n" initial final
      first holding reading second last := by
  have hv : (nativeRun.1.toOption.map Evidence.verdict) = some .acceptCurrent := by
    unfold nativeRun recordedCrypt recordedDigests activeP11 lockSha256 stateSha256 witnessSha256
      p10Digest latestDigest
    repeat rw [String.toList_ofList]
    decide +kernel
  rcases h : nativeRun with ⟨t | e,r⟩ <;> rw [h] at hv
  · exact absurd hv nofun
  · rw [nativeRun] at h
    obtain ⟨_,_,state,_,_,first,holding,reading,second,_,last,_,-,-,-,hchild⟩ :=
      acceptCurrent_refines recordedCrypt steadyCalls sampleSource activeCase sampleDirectoryId
        activeP11 p10Digest true true ⟨(),[],{},{}⟩ () e r h (Option.some.inj hv)
    obtain ⟨handle,initial,final,hobs⟩ := hchild "lock.bin" "S1PF-LOCK-V1\n" (by decide)
    exact ⟨state.handle,handle,initial,final,first,holding,reading,second,last,hobs⟩

end Windows

end SoftwareFactory.StageA
