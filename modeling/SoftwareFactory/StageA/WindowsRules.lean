import SoftwareFactory.StageA.WindowsSnapshot
import SoftwareFactory.StageA.SnapshotRules

namespace SoftwareFactory.StageA.Windows

open Effect

variable {τ ν α : Type} {calls : NativeCalls ν} {config : SnapshotConfig} {w w' : World ν}

theorem modify_ok {f : τ → τ} {s s' : τ} {u : Unit} :
    (Eff.modify f : Eff τ Thrown Unit) s = (.ok u,s') ↔ s' = f s := by
  rw [Eff.modify_apply]
  simp [eq_comm]

theorem ofExcept_ok {r : Except StdException α} {s s' : τ} {a : α} :
    ofExcept r s = (.ok a,s') ↔ r = .ok a ∧ s = s' := by
  cases r <;> simp [ofExcept]

@[simp] theorem ofExcept_state {r : Except StdException α} {s : τ} : (ofExcept r s).2 = s := by
  cases r <;> rfl

theorem native_ok {op : Eff ν Thrown α} {event : Except Thrown α → NativeEvent} {a : α} :
    native op event w = (.ok a,w') ↔ ∃ n,op w.native = (.ok a,n) ∧
      w' = { w with native := n, calls := w.calls++[event (.ok a)] } := by
  rw [native]
  rcases op w.native with ⟨_ | b,n⟩
  · simp
  · simp only [Prod.mk.injEq,Except.ok.injEq]
    constructor
    · intro h
      obtain ⟨rfl,rfl⟩ := h
      exact ⟨n,⟨rfl,rfl⟩,rfl⟩
    · intro h
      obtain ⟨_,⟨rfl,rfl⟩,rfl⟩ := h
      exact ⟨rfl,rfl⟩

theorem session_ok {s : SessionState} :
    session w = (.ok s,w') ↔ s = w.session ∧ w = w' := by
  rw [session]
  simp [eq_comm]

theorem session_apply (w : World ν) : session w = (.ok w.session,w) := rfl

theorem updateSession_ok {f : SessionState → SessionState} {u : Unit} :
    updateSession f w = (.ok u,w') ↔ w' = { w with session := f w.session } := by
  rw [updateSession,modify_ok]

/-- A stretch of backend calls during which the session kept its members. -/
structure Quiet (seg : List NativeEvent) (w w' : World ν) : Prop where
  calls : w'.calls = w.calls++seg
  session : w'.session = w.session

theorem Quiet.refl (w : World ν) : Quiet [] w w := ⟨(List.append_nil _).symm,rfl⟩

theorem Quiet.append {seg seg' : List NativeEvent} {w'' : World ν} (h : Quiet seg w w')
    (h' : Quiet seg' w' w'') : Quiet (seg++seg') w w'' :=
  ⟨by rw [h'.calls,h.calls,List.append_assoc],h'.session.trans h.session⟩

theorem updateAudit_ok {f : SnapshotAudit → SnapshotAudit} {u : Unit}
    (h : updateAudit f w = (.ok u,w')) : Quiet [] w w' := by
  rw [updateAudit,modify_ok] at h
  subst h
  exact ⟨(List.append_nil _).symm,rfl⟩

theorem pushIdentity_ok {o : IdentityObservation} {u : Unit}
    (h : pushIdentity o w = (.ok u,w')) : Quiet [] w w' := updateAudit_ok h

theorem updateInventory_ok {f : InventoryObservation → InventoryObservation} {u : Unit}
    (h : updateInventory f w = (.ok u,w')) : Quiet [] w w' := updateAudit_ok h

/-- What `verify_node` establishes of an observation. -/
structure HeldDirectory (m expected : Metadata) : Prop where
  volumeGuidPath : m.volumeGuidPath = expected.volumeGuidPath
  volumeSerial : m.volumeSerial = expected.volumeSerial
  fileId : m.fileId = expected.fileId
  finalPath : m.finalPath = expected.finalPath
  sddl : m.sddl = expected.sddl
  daclProtected : m.daclProtected = expected.daclProtected
  not_reparse : isReparse m = false
  no_tag : m.reparseTag = 0
  directory : m.directory = true

/-- The node was observed in the stretch, as configured. -/
def Seen (node : Verified) (seg : List NativeEvent) : Prop :=
  ∃ step m,.inspect node.handle node.object node.profile step (.ok m) ∈ seg ∧
    HeldDirectory m node.expected

theorem Seen.mono {node : Verified} {seg seg' : List NativeEvent} (h : Seen node seg)
    (hsub : seg ⊆ seg') : Seen node seg' := by
  obtain ⟨step,m,hm,hd⟩ := h
  exact ⟨step,m,hsub hm,hd⟩

theorem inspect_ok {handle : Handle} {object : Str} {profile step : String} {m : Metadata}
    (h : inspect calls handle object profile step w = (.ok m,w')) :
    Quiet [.inspect handle object profile step (.ok m)] w w' := by
  obtain ⟨n,-,rfl⟩ := native_ok.mp h
  exact ⟨rfl,rfl⟩

theorem sameIdentity_iff {a b : Metadata} :
    sameIdentity a b = true ↔ a.volumeGuidPath = b.volumeGuidPath ∧ a.finalPath = b.finalPath ∧
      a.sddl = b.sddl ∧ a.volumeSerial = b.volumeSerial ∧ a.fileId = b.fileId ∧
      a.directory = b.directory ∧ a.daclProtected = b.daclProtected ∧
      isReparse a = isReparse b ∧ a.reparseTag = b.reparseTag := by
  simp [sameIdentity,and_assoc]

theorem requireIdentity_ok {actual expected : Metadata} {object : Str} {profile step : String}
    {s s' : τ} {u : Unit}
    (h : requireIdentity actual expected object profile step s = (.ok u,s')) :
    s = s' ∧ sameIdentity actual expected = true ∧ isReparse actual = false ∧
      actual.reparseTag = 0 ∧ nonzeroId actual.fileId = true := by
  obtain ⟨hc,rfl⟩ := failIf_ok.mp h
  simp only [not_or,Bool.not_eq_true',Bool.not_eq_false,ne_eq,not_not,Bool.not_eq_true] at hc
  exact ⟨rfl,hc.1,hc.2.2.2.2.2.1,hc.2.2.2.2.2.2,hc.2.2.2.2.1⟩

theorem verifyNode_ok {step : String} {node : Verified} {u : Unit}
    (h : verifyNode calls step node w = (.ok u,w')) :
    ∃ m,Quiet [.inspect node.handle node.object node.profile step (.ok m)] w w' ∧
      HeldDirectory m node.expected := by
  obtain ⟨m,w1,h1,h⟩ := Eff.bind_ok.mp h
  obtain ⟨_,w2,h2,h⟩ := Eff.bind_ok.mp h
  obtain ⟨_,w3,h3,h⟩ := Eff.bind_ok.mp h
  have hq := (inspect_ok h1).append (pushIdentity_ok h2)
  obtain ⟨rfl,hsame,hrep,htag,-⟩ := requireIdentity_ok h3
  obtain ⟨hdir,rfl⟩ := failIf_ok.mp h
  obtain ⟨hv,hp,hs,hser,hid,-,hdacl,-,-⟩ := sameIdentity_iff.mp hsame
  exact ⟨m,hq,hv,hser,hid,hp,hs,hdacl,hrep,htag,by simpa using hdir⟩

theorem verifyAll_ok {step : String} {nodes : List Verified}
    (h : Eff.forEach (verifyNode calls step) nodes w = (.ok (),w')) :
    ∃ seg,Quiet seg w w' ∧ ∀ node ∈ nodes,Seen node seg := by
  induction nodes generalizing w with
  | nil =>
    obtain rfl := Eff.forEach_nil_ok.mp h
    exact ⟨[],Quiet.refl _,by simp⟩
  | cons node nodes ih =>
    obtain ⟨w1,h1,h⟩ := Eff.forEach_cons_ok.mp h
    obtain ⟨m,hq,hm⟩ := verifyNode_ok h1
    obtain ⟨seg,hq',hseen⟩ := ih h
    refine ⟨_,hq.append hq',?_⟩
    intro n hn
    rcases List.mem_cons.mp hn with rfl | hn
    · exact ⟨step,m,List.mem_cons_self,hm⟩
    · exact (hseen n hn).mono (List.subset_append_right _ _)

theorem directoryIdentity_ok {id : Str}
    (h : directoryIdentity calls config w = (.ok id,w')) :
    ∃ seg,Quiet seg w w' ∧ ∀ node ∈ w.session.verified,Seen node seg := by
  obtain ⟨s,w1,h1,h⟩ := Eff.bind_ok.mp h
  obtain ⟨rfl,rfl⟩ := session_ok.mp h1
  obtain ⟨_,w2,h2,h⟩ := Eff.bind_ok.mp h
  obtain ⟨-,rfl⟩ := ofExcept_ok.mp h
  exact verifyAll_ok h2

/-- A stretch in which the nodes, the directory and the children stayed as they were. -/
structure Steady (seg : List NativeEvent) (w w' : World ν) : Prop where
  calls : w'.calls = w.calls++seg
  verified : w'.session.verified = w.session.verified
  directory : w'.session.directory = w.session.directory
  children : w'.session.children = w.session.children

theorem Quiet.steady {seg : List NativeEvent} (h : Quiet seg w w') : Steady seg w w' :=
  ⟨h.calls,by rw [h.session],by rw [h.session],by rw [h.session]⟩

/-- The stretch enumerated the directory and reported the name with that file id. -/
def Enumerated (directory : Handle) (name : Str) (fileId : Vector UInt8 16)
    (seg : List NativeEvent) : Prop :=
  ∃ restart page,.nextPage directory restart (.ok page) ∈ seg ∧
    ∃ entry ∈ page.entries,entry.name = name ∧ entry.fileId = fileId

theorem Enumerated.mono {directory : Handle} {name : Str} {fileId : Vector UInt8 16}
    {seg seg' : List NativeEvent} (h : Enumerated directory name fileId seg)
    (hsub : seg ⊆ seg') : Enumerated directory name fileId seg' := by
  obtain ⟨restart,page,hp,he⟩ := h
  exact ⟨restart,page,hsub hp,he⟩

/-- The nodes were opened one below the other, each by its configured component, and are
held against its configured identity. -/
inductive Chain (seg : List NativeEvent) : Handle → List ExpectedNode → List Verified → Prop where
  | nil (parent : Handle) : Chain seg parent [] []
  | cons {parent : Handle} {e : ExpectedNode} {es : List ExpectedNode} {node : Verified}
      {nodes : List Verified} (spec : OpenSpec)
      (opened : .openRelative parent e.component spec node.object node.profile
        (.ok node.handle) ∈ seg)
      (expected : node.expected = e.identity) (t : Chain seg node.handle es nodes) :
      Chain seg parent (e::es) (node::nodes)

theorem Chain.mono {seg seg' : List NativeEvent} {parent : Handle} {es : List ExpectedNode}
    {nodes : List Verified} (h : Chain seg parent es nodes) (hsub : seg ⊆ seg') :
    Chain seg' parent es nodes := by
  induction h with
  | nil => exact .nil _
  | cons spec opened expected _ ih => exact .cons spec (hsub opened) expected ih

/-- The innermost handle of a chain. -/
def lastHandle (parent : Handle) (nodes : List Verified) : Handle :=
  (nodes.getLast?.map Verified.handle).getD parent

theorem lastHandle_cons (parent : Handle) (node : Verified) (nodes : List Verified) :
    lastHandle parent (node::nodes) = lastHandle node.handle nodes := by
  cases nodes <;> simp [lastHandle,List.getLast?_cons]

theorem Chain.snoc {seg : List NativeEvent} {parent : Handle} {es : List ExpectedNode}
    {nodes : List Verified} {e : ExpectedNode} {node : Verified} (spec : OpenSpec)
    (h : Chain seg parent es nodes)
    (opened : .openRelative (lastHandle parent nodes) e.component spec node.object node.profile
      (.ok node.handle) ∈ seg)
    (expected : node.expected = e.identity) : Chain seg parent (es++[e]) (nodes++[node]) := by
  induction h with
  | nil => exact .cons spec opened expected (.nil _)
  | cons spec' opened' expected' _ ih =>
    rw [lastHandle_cons] at opened
    exact .cons spec' opened' expected' (ih opened)

/-- A stretch of `initialize`: the nodes were added to those verified, and nothing else
changed that later calls look at. -/
structure Opening (nodes : List Verified) (seg : List NativeEvent) (w w' : World ν) : Prop where
  calls : w'.calls = w.calls++seg
  verified : w'.session.verified = w.session.verified++nodes
  initialInventorySet : w'.session.initialInventorySet = w.session.initialInventorySet
  children : w'.session.children = w.session.children
  seen : ∀ node ∈ nodes,Seen node seg

theorem Opening.append {nodes nodes' : List Verified} {seg seg' : List NativeEvent}
    {w'' : World ν} (h : Opening nodes seg w w') (h' : Opening nodes' seg' w' w'') :
    Opening (nodes++nodes') (seg++seg') w w'' := by
  refine ⟨by rw [h'.calls,h.calls,List.append_assoc],
    by rw [h'.verified,h.verified,List.append_assoc],
    h'.initialInventorySet.trans h.initialInventorySet,h'.children.trans h.children,?_⟩
  intro node hn
  rcases List.mem_append.mp hn with hn | hn
  · exact (h.seen node hn).mono (List.subset_append_left _ _)
  · exact (h'.seen node hn).mono (List.subset_append_right _ _)

theorem Quiet.opening {seg : List NativeEvent} (h : Quiet seg w w') : Opening [] seg w w' :=
  ⟨h.calls,by rw [h.session,List.append_nil],by rw [h.session],by rw [h.session],by simp⟩

theorem pushHandle_ok {handle : Handle} {u : Unit} (h : pushHandle handle w = (.ok u,w')) :
    Opening [] [] w w' := by
  obtain rfl := updateSession_ok.mp h
  exact ⟨(List.append_nil _).symm,(List.append_nil _).symm,rfl,rfl,by simp⟩

/-- A node is added and at once verified. -/
theorem pushVerified_ok {node : Verified} {step : String} {w'' : World ν} {u u' : Unit}
    (h : pushVerified node w = (.ok u,w')) (h' : verifyNode calls step node w' = (.ok u',w'')) :
    ∃ seg,Opening [node] seg w w'' ∧ w''.session.directory = w.session.directory := by
  obtain rfl := updateSession_ok.mp h
  obtain ⟨m,hq,hm⟩ := verifyNode_ok h'
  refine ⟨_,⟨hq.calls,by rw [hq.session],by rw [hq.session],by rw [hq.session],?_⟩,
    by rw [hq.session]⟩
  intro n hn
  rw [List.mem_singleton.mp hn]
  exact ⟨step,m,List.mem_cons_self,hm⟩

theorem openRelative_ok {parent : Handle} {component : WStr} {spec : OpenSpec} {object : Str}
    {profile : String} {handle : Handle}
    (h : native (calls.openRelative parent component spec object profile)
      (.openRelative parent component spec object profile) w = (.ok handle,w')) :
    Quiet [.openRelative parent component spec object profile (.ok handle)] w w' := by
  obtain ⟨n,-,rfl⟩ := native_ok.mp h
  exact ⟨rfl,rfl⟩

theorem openAncestors_ok {current handle : Handle} {parent bound : Metadata}
    {ancestors : List ExpectedNode}
    (h : openAncestors calls current parent ancestors w = (.ok (handle,bound),w')) :
    ∃ seg nodes,Opening nodes seg w w' ∧ Chain seg current ancestors nodes ∧
      handle = lastHandle current nodes := by
  induction ancestors generalizing current parent w with
  | nil =>
    obtain ⟨h1,rfl⟩ := Prod.mk.inj h
    obtain ⟨rfl,rfl⟩ := Prod.mk.inj (Except.ok.inj h1)
    exact ⟨[],[],(Quiet.refl _).opening,.nil _,rfl⟩
  | cons e es ih =>
    rw [openAncestors] at h
    obtain ⟨object,w1,h1,h⟩ := Eff.bind_ok.mp h
    obtain ⟨child,w2,h2,h⟩ := Eff.bind_ok.mp h
    obtain ⟨_,w3,h3,h⟩ := Eff.bind_ok.mp h
    obtain ⟨parentId,w4,h4,h⟩ := Eff.bind_ok.mp h
    obtain ⟨_,w5,h5,h⟩ := Eff.bind_ok.mp h
    obtain ⟨_,w6,h6,h⟩ := Eff.bind_ok.mp h
    obtain ⟨_,w7,h7,h⟩ := Eff.bind_ok.mp h
    obtain ⟨-,rfl⟩ := ofExcept_ok.mp h1
    have hopen := (openRelative_ok h2).opening.append (pushHandle_ok h3)
    obtain ⟨-,rfl⟩ := ofExcept_ok.mp h4
    obtain ⟨seg1,hnode,-⟩ := pushVerified_ok h5 h6
    obtain ⟨-,rfl⟩ := failIf_ok.mp h7
    obtain ⟨seg,nodes,hrest,hchain,hlast⟩ := ih h
    refine ⟨_,_,(hopen.append hnode).append hrest,?_,?_⟩
    · exact .cons ancestorIdentitySpec (by simp) rfl
        (hchain.mono (List.subset_append_right _ _))
    · rw [hlast]
      simp only [List.nil_append,List.singleton_append,lastHandle_cons]

/-- What `initialize` leaves behind. -/
structure Opened (config : SnapshotConfig) (root : Verified) (nodes : List Verified)
    (state : Verified) (seg : List NativeEvent) : Prop where
  root_opened : .openRoot config.volumeRootPath rootIdentitySpec (.ok root.handle) ∈ seg
  root_expected : root.expected = config.rootIdentity
  chain : Chain seg root.handle (config.ancestors++[config.stateDirectory]) (nodes++[state])
  state_expected : state.expected = config.stateDirectory.identity

theorem openRoot_ok {path : WStr} {spec : RootOpenSpec} {handle : Handle}
    (h : native (calls.openRoot path spec) (.openRoot path spec) w = (.ok handle,w')) :
    Quiet [.openRoot path spec (.ok handle)] w w' := by
  obtain ⟨n,-,rfl⟩ := native_ok.mp h
  exact ⟨rfl,rfl⟩

theorem setDirectory_ok {handle : Handle} {u : Unit}
    (h : updateSession (fun s => { s with directory := handle }) w = (.ok u,w')) :
    Opening [] [] w w' := by
  obtain rfl := updateSession_ok.mp h
  exact ⟨(List.append_nil _).symm,(List.append_nil _).symm,rfl,rfl,by simp⟩

theorem initializeSession_ok
    (h : initializeSession calls config w = (.ok (),w')) :
    ∃ seg root nodes state,Opening (root::(nodes++[state])) seg w w' ∧
      Opened config root nodes state seg ∧ w'.session.directory = state.handle ∧
      ∃ parent : Metadata,(∃ id,identityKey parent = .ok id) ∧
        config.stateDirectory.identity.finalPath =
          childFinalPath parent.finalPath config.stateDirectory.component := by
  rw [initializeSession] at h
  obtain ⟨root,w1,h1,h⟩ := Eff.bind_ok.mp h
  obtain ⟨_,w2,h2,h⟩ := Eff.bind_ok.mp h
  obtain ⟨_,w3,h3,h⟩ := Eff.bind_ok.mp h
  obtain ⟨_,w4,h4,h⟩ := Eff.bind_ok.mp h
  obtain ⟨⟨current,parent⟩,w5,h5,h⟩ := Eff.bind_ok.mp h
  obtain ⟨handle,w6,h6,h⟩ := Eff.bind_ok.mp h
  obtain ⟨_,w7,h7,h⟩ := Eff.bind_ok.mp h
  obtain ⟨_,w8,h8,h⟩ := Eff.bind_ok.mp h
  obtain ⟨parentId,w9,h9,h⟩ := Eff.bind_ok.mp h
  obtain ⟨_,w10,h10,h⟩ := Eff.bind_ok.mp h
  obtain ⟨_,w11,h11,h12⟩ := Eff.bind_ok.mp h
  have hroot := (openRoot_ok h1).opening.append (pushHandle_ok h2)
  obtain ⟨segr,hverified,-⟩ := pushVerified_ok h3 h4
  obtain ⟨sega,nodes,hanc,hchain,rfl⟩ := openAncestors_ok h5
  have hopen := (openRelative_ok h6).opening.append (pushHandle_ok h7)
  have hdir := setDirectory_ok h8
  obtain ⟨hkey,rfl⟩ := ofExcept_ok.mp h9
  obtain ⟨segs,hstate,hsame⟩ := pushVerified_ok h10 h11
  obtain ⟨hbind,rfl⟩ := failIf_ok.mp h12
  simp only [not_or,not_not,ne_eq] at hbind
  have hall := ((((hroot.append hverified).append hanc).append hopen).append hdir).append hstate
  refine ⟨_,_,nodes,_,by simpa using hall,⟨by simp,rfl,?_,rfl⟩,?_,parent,⟨parentId,hkey⟩,
    hbind.2.2⟩
  · refine Chain.snoc snapshotDirectorySpec (hchain.mono ?_) (by simp) rfl
    intro e he
    simp [he]
  · rw [hsame]
    obtain rfl := updateSession_ok.mp h8
    rfl

theorem WindowsSnapshotSource.openSession_ok {source : WindowsSnapshotSource} {profile : String}
    {s : SnapshotSession (World ν)}
    (h : source.openSession calls profile w = (.ok (some s),w')) :
    s = windowsSession calls source.config ∧ ∃ opening root ancestors state,
      w'.calls = w.calls++opening ∧ w'.session.verified = root::(ancestors++[state]) ∧
      w'.session.directory = state.handle ∧ w'.session.initialInventorySet = false ∧
      Opened source.config root ancestors state opening ∧
      (∀ node ∈ root::(ancestors++[state]),Seen node opening) ∧
      ∃ parent : Metadata,(∃ id,identityKey parent = .ok id) ∧
        source.config.stateDirectory.identity.finalPath =
          childFinalPath parent.finalPath source.config.stateDirectory.component := by
  rw [openSession] at h
  obtain ⟨_,w1,h1,h⟩ := Eff.bind_ok.mp h
  obtain ⟨_,w2,h2,h⟩ := Eff.bind_ok.mp h
  obtain ⟨_,w3,h3,h⟩ := Eff.bind_ok.mp h
  obtain ⟨_,w4,h4,h5⟩ := Eff.bind_ok.mp h
  obtain ⟨-,rfl⟩ := failIf_ok.mp h1
  have hq := updateAudit_ok h2
  obtain rfl := updateSession_ok.mp h3
  obtain ⟨seg,root,ancestors,state,hopening,hopened,hdir,hparent⟩ :=
    initializeSession_ok (Eff.unwinding_ok.mp h4)
  obtain ⟨h6,rfl⟩ := Prod.mk.inj h5
  refine ⟨(Option.some.inj (Except.ok.inj h6)).symm,seg,root,ancestors,state,?_,
    hopening.verified,hdir,hopening.initialInventorySet,hopened,hopening.seen,hparent⟩
  have hcalls := hopening.calls
  rw [show ({ w2 with session := {} } : World ν).calls = w2.calls from rfl,hq.calls,
    List.append_nil] at hcalls
  exact hcalls

end SoftwareFactory.StageA.Windows
