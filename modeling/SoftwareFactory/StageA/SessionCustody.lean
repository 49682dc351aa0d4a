import SoftwareFactory.Lib.HandleLedger
import SoftwareFactory.StageA.FramedComparison
import SoftwareFactory.StageA.ScanExactness

namespace SoftwareFactory.StageA.Windows

open Effect

variable {ν α β : Type}

/-- What the calls of the backend do to handles. -/
def nativeLedger : HandleLedger NativeEvent Handle where
  acquires
    | .openRoot _ _ (.ok h) => some h
    | .openRelative _ _ _ _ _ (.ok h) => some h
    | _ => none
  uses
    | .openRelative parent _ _ _ _ _ => [parent]
    | .inspect h _ _ _ _ => [h]
    | .nextPage h _ _ => [h]
    | .readAll h _ _ _ => [h]
    | _ => []
  releases
    | .close h => some h
    | _ => none

/-- The calls that destroy a session which acquired these handles. -/
def closing (seg : List NativeEvent) : List NativeEvent :=
  (nativeLedger.acquired seg).reverse.map .close

/-- The children that the calls try to open. -/
def childOpenings (events : List NativeEvent) : List Str :=
  events.filterMap fun
    | .openRelative _ _ spec object _ _ => if spec = snapshotChildSpec then some object else none
    | _ => none

theorem childOpenings_append (l l' : List NativeEvent) :
    childOpenings (l++l') = childOpenings l++childOpenings l' := List.filterMap_append

/-- A stretch of calls on held handles; what it acquired is kept, in order, and of these
children at most it opened. -/
structure Keeps (names : List Str) (w w' : World ν) : Prop where
  grown : ∃ seg,w'.calls = w.calls++seg ∧
    w'.session.handles = w.session.handles++nativeLedger.acquired seg ∧
    nativeLedger.OnHeld w.session.handles seg ∧ (childOpenings seg).Sublist names

theorem Keeps.subset {names : List Str} {w w' : World ν} (h : Keeps names w w') :
    w.session.handles ⊆ w'.session.handles := by
  obtain ⟨seg,-,hh,-⟩ := h.grown
  rw [hh]
  exact List.subset_append_left _ _

theorem Keeps.refl (w : World ν) : Keeps [] w w :=
  ⟨[],(List.append_nil _).symm,(List.append_nil _).symm,trivial,List.nil_sublist _⟩

theorem Keeps.append {names names' : List Str} {w w' w'' : World ν} (h : Keeps names w w')
    (h' : Keeps names' w' w'') : Keeps (names++names') w w'' := by
  obtain ⟨seg,hc,hh,ho,hs⟩ := h.grown
  obtain ⟨seg',hc',hh',ho',hs'⟩ := h'.grown
  rw [hh] at ho' hh'
  refine ⟨seg++seg',?_,?_,HandleLedger.onHeld_append.mpr ⟨ho,ho'⟩,?_⟩
  · rw [hc',hc,List.append_assoc]
  · rw [hh',HandleLedger.acquired_append,List.append_assoc]
  · rw [childOpenings_append]
    exact hs.append hs'

def keeping : Frame (World ν) where
  rel := Keeps []
  refl := Keeps.refl
  trans h h' := h.append h'

/-- The handles by which a session refers to nodes, to children and, once it is ready, to its
directory are held. -/
structure Tracked (ready : Prop) (s : SessionState) : Prop where
  verified : ∀ node ∈ s.verified,node.handle ∈ s.handles
  children : ∀ name child,s.children.lookup name = some child → child.handle ∈ s.handles
  directory : ready → s.directory ∈ s.handles

/-- The frame of a session in custody of its handles that opens no child. -/
def custody (ready : Prop) : Frame (World ν) := keeping.carrying fun w => Tracked ready w.session

/-- In custody of its handles, a session opens these children at most. -/
def Opens (ready : Prop) (names : List Str) (w w' : World ν) : Prop :=
  Tracked ready w.session → Tracked ready w'.session ∧ Keeps names w w'

theorem Opens.append {ready : Prop} {names names' : List Str} {w w' w'' : World ν}
    (h : Opens ready names w w') (h' : Opens ready names' w' w'') :
    Opens ready (names++names') w w'' := by
  intro htracked
  obtain ⟨htracked1,hkeeps⟩ := h htracked
  obtain ⟨htracked2,hkeeps'⟩ := h' htracked1
  exact ⟨htracked2,hkeeps.append hkeeps'⟩

theorem Opens.mono {ready : Prop} {names names' : List Str} {w w' : World ν}
    (h : Opens ready names w w') (hsub : names.Sublist names') : Opens ready names' w w' := by
  intro htracked
  obtain ⟨htracked1,seg,hc,hh,ho,hs⟩ := h htracked
  exact ⟨htracked1,seg,hc,hh,ho,hs.trans hsub⟩

theorem custody_absorbs (ν : Type) (ready : Prop) (names : List Str) :
    (custody ready : Frame (World ν)).Absorbs (Opens ready names) where
  stop h := Opens.mono h (List.nil_sublist _)
  before h h' := Opens.append h h'
  after h h' := by
    rw [← List.append_nil names]
    exact Opens.append h h'

variable {calls : NativeCalls ν} {config : SnapshotConfig} {w w' : World ν} {ready : Prop}

/-- Neither the calls nor the session changed. -/
theorem custody_idle {m : Eff (World ν) Thrown α} (hc : (m w).2.calls = w.calls)
    (hs : (m w).2.session = w.session) : (custody ready).Bounds m w := by
  intro htracked
  show Tracked ready (m w).2.session ∧ Keeps [] w (m w).2
  rw [hs]
  refine ⟨htracked,[],?_,?_,trivial,List.nil_sublist _⟩
  · rw [hc,List.append_nil]
  · rw [hs]
    exact (List.append_nil _).symm

/-- One call on handles that are held. -/
theorem custody_native {op : Eff ν Thrown α} {event : Except Thrown α → NativeEvent}
    (ha : ∀ r,nativeLedger.acquires (event r) = none)
    (hr : ∀ r,nativeLedger.releases (event r) = none) (hs : ∀ r,childOpenings [event r] = [])
    (hu : Tracked ready w.session → ∀ r,nativeLedger.uses (event r) ⊆ w.session.handles) :
    (custody ready).Bounds (native op event) w := by
  intro htracked
  rw [native]
  refine ⟨htracked,[event (op w.native).1],rfl,?_,⟨hr _,hu htracked _,trivial⟩,?_⟩
  · rw [HandleLedger.acquired_cons,ha]
    exact (List.append_nil _).symm
  · rw [hs]

theorem Tracked.push (h : Handle) {s : SessionState} (hs : Tracked ready s) :
    Tracked ready { s with handles := s.handles++[h] } :=
  ⟨fun node hn => List.mem_append_left _ (hs.verified node hn),
    fun name child hl => List.mem_append_left _ (hs.children name child hl),
    fun hready => List.mem_append_left _ (hs.directory hready)⟩

/-- A handle that is opened is at once put with the others. -/
theorem open_opens {names : List Str} {op : Eff ν Thrown Handle}
    {event : Except Thrown Handle → NativeEvent} {f : Handle → Eff (World ν) Thrown α}
    (ha : ∀ r,nativeLedger.acquires (event r) = r.toOption)
    (hr : ∀ r,nativeLedger.releases (event r) = none)
    (hs : ∀ r,(childOpenings [event r]).Sublist names)
    (hu : Tracked ready w.session → ∀ r,nativeLedger.uses (event r) ⊆ w.session.handles)
    (hf : ∀ h w',h ∈ w'.session.handles → (custody ready).Bounds (f h) w') :
    Opens ready names w ((do
      let h ← native op event
      pushHandle h
      f h) w).2 := by
  intro htracked
  rcases hop : op w.native with ⟨e | h,n⟩
  · have hnative : native op event w =
        (.error e,{ w with native := n, calls := w.calls++[event (.error e)] }) := by
      rw [native,hop]
    rw [Eff.bind_of_error hnative]
    refine ⟨htracked,[event (.error e)],rfl,?_,⟨hr _,hu htracked _,trivial⟩,hs _⟩
    rw [HandleLedger.acquired_cons,ha]
    exact (List.append_nil _).symm
  · have hnative : native op event w =
        (.ok h,{ w with native := n, calls := w.calls++[event (.ok h)] }) := by
      rw [native,hop]
    obtain ⟨w1,hw1⟩ : ∃ w1 : World ν,w1 =
        { w with
          native := n, calls := w.calls++[event (.ok h)]
          session := { w.session with handles := w.session.handles++[h] } } := ⟨_,rfl⟩
    have hpush : pushHandle h { w with native := n, calls := w.calls++[event (.ok h)] } =
        (.ok (),w1) := by
      rw [hw1]
      rfl
    have htracked1 : Tracked ready w1.session := by
      rw [hw1]
      exact htracked.push h
    have hkeeps : Keeps names w w1 := by
      rw [hw1]
      refine ⟨[event (.ok h)],rfl,?_,⟨hr _,hu htracked _,trivial⟩,hs _⟩
      rw [HandleLedger.acquired_cons,ha]
      rfl
    have hmem : h ∈ w1.session.handles := by
      rw [hw1]
      exact List.mem_append_right _ List.mem_cons_self
    rw [Eff.bind_of_ok hnative,Eff.bind_of_ok hpush]
    exact (custody_absorbs ν ready names).after (fun _ => ⟨htracked1,hkeeps⟩) (hf h w1 hmem)
      htracked

/-- A change of the session that leaves its handles alone. -/
theorem custody_updateSession {f : SessionState → SessionState}
    (hh : (f w.session).handles = w.session.handles)
    (hf : Tracked ready w.session → Tracked ready (f w.session)) :
    (custody ready).Bounds (updateSession f) w := by
  intro htracked
  refine ⟨hf htracked,[],(List.append_nil _).symm,?_,trivial,List.nil_sublist _⟩
  show (f w.session).handles = _
  rw [hh]
  exact (List.append_nil _).symm

theorem custody_pushIdentity (o : IdentityObservation) :
    (custody ready).Bounds (pushIdentity o) w := custody_idle rfl rfl

theorem custody_inspect {handle : Handle} {object : Str} {profile step : String}
    (h : Tracked ready w.session → handle ∈ w.session.handles) :
    (custody ready).Bounds (inspect calls handle object profile step) w :=
  custody_native (fun _ => rfl) (fun _ => rfl) (fun _ => rfl) fun ht _ => List.cons_subset.mpr ⟨h ht,nofun⟩

theorem custody_failIf {p : Prop} [Decidable p] {kind : ErrorKind} {object : Str}
    {profile step message : String} :
    (custody ready).Bounds (failIf p kind object profile step message) w :=
  .unchanged failIf_state

theorem custody_verifyNode {step : String} {node : Verified}
    (h : Tracked ready w.session → node.handle ∈ w.session.handles) :
    (custody ready).Bounds (verifyNode calls step node) w := by
  apply Frame.Bounds.bind (custody_inspect h)
  intro m w1 _
  apply Frame.Bounds.bind (custody_pushIdentity _)
  intro _ w2 _
  apply Frame.Bounds.bind custody_failIf
  intro _ w3 _
  exact custody_failIf

theorem custody_verifyAll {step : String} {nodes : List Verified}
    (h : ∀ node ∈ nodes,node.handle ∈ w.session.handles) :
    (custody ready).Bounds (Eff.forEach (verifyNode calls step) nodes) w := by
  induction nodes generalizing w with
  | nil => exact .pure _
  | cons node nodes ih =>
    rw [Eff.forEach]
    apply Frame.Bounds.bind_carrying (custody_verifyNode fun _ => h node List.mem_cons_self)
    intro _ w1 _ _ hkeeps
    exact ih fun n hn => Keeps.subset hkeeps (h n (List.mem_cons_of_mem _ hn))

theorem custody_directoryIdentity :
    (custody ready).Bounds (directoryIdentity calls config) w := by
  apply Frame.Bounds.bind_carrying (.unchanged rfl)
  intro s w1 hs htracked _
  obtain ⟨rfl,rfl⟩ := session_ok.mp hs
  apply Frame.Bounds.bind (custody_verifyAll htracked.verified)
  intro _ w2 _
  exact .unchanged ofExcept_state

theorem custody_collectPages {acc : Collected} {k left : Nat} :
    (custody True).Bounds (collectPages calls config acc k left) w := by
  induction left generalizing acc k w with
  | zero => exact .pure _
  | succ left ih =>
    rw [collectPages]
    apply Frame.Bounds.bind (.unchanged rfl)
    intro s w1 hs
    obtain ⟨rfl,rfl⟩ := session_ok.mp hs
    refine Frame.Bounds.bind (custody_native (fun _ => rfl) (fun _ => rfl) (fun _ => rfl) ?_) ?_
    · intro htracked _
      exact List.cons_subset.mpr ⟨htracked.directory trivial,List.nil_subset _⟩
    intro page w2 _
    split_ifs
    · exact .pure _
    · apply Frame.Bounds.bind (custody_idle rfl rfl)
      intro _ w3 _
      apply Frame.Bounds.bind custody_failIf
      intro _ w4 _
      have hfilled : Filled w4 (collectEntries config acc page.entries w4).2 :=
        filling_collectEntries
      apply Frame.Bounds.bind (custody_idle hfilled.calls hfilled.session)
      intro acc1 w5 _
      exact ih

theorem custody_inventory : (custody True).Bounds (inventory calls config) w := by
  apply Frame.Bounds.bind custody_directoryIdentity
  intro _ w1 _
  apply Frame.Bounds.bind (.unchanged rfl)
  intro s w2 _
  apply Frame.Bounds.bind (custody_idle rfl rfl)
  intro _ w3 _
  apply Frame.Bounds.bind custody_collectPages
  intro collected w4 _
  cases collected with
  | none => exact .raise _
  | some acc =>
    apply Frame.Bounds.bind (custody_idle rfl rfl)
    intro _ w5 _
    have hcommit : ∀ s : SessionState,Tracked True s → Tracked True
        (if s.initialInventorySet then s
          else { s with initialInventory := acc.observed, initialInventorySet := true }) := by
      intro s hs
      split_ifs
      · exact hs
      · exact ⟨hs.verified,hs.children,hs.directory⟩
    refine Frame.Bounds.bind (custody_updateSession ?_ (hcommit w5.session)) ?_
    · split_ifs
      · rfl
      · rfl
    intro _ w6 _
    exact .pure _

/-- Holding a child opens that one at most. -/
theorem holdChild_opens (name : Str) :
    Opens True [name] w (holdChild calls config name w).2 := by
  have hT := custody_absorbs ν True [name]
  rw [holdChild]
  apply Frame.Bounds.bind_before hT (.unchanged rfl)
  intro s w1 hs
  obtain ⟨rfl,rfl⟩ := session_ok.mp hs
  cases w.session.initialInventory.lookup name with
  | none => exact hT.stop (Frame.Bounds.raise _)
  | some entry =>
    apply Frame.Bounds.bind_before hT custody_failIf
    intro _ w2 hset
    obtain ⟨-,rfl⟩ := failIf_ok.mp hset
    cases config.childSddl.lookup name with
    | none => exact hT.stop (Frame.Bounds.raise _)
    | some sddl =>
      cases wideComponent name with
      | error e => exact hT.stop (Frame.Bounds.raise _)
      | ok component =>
        refine open_opens (fun r => by cases r <;> rfl) (fun _ => rfl)
          (fun _ => List.Sublist.refl _) ?_ ?_
        · intro htracked _
          exact List.cons_subset.mpr ⟨htracked.directory trivial,List.nil_subset _⟩
        intro handle w3 hheld
        apply Frame.Bounds.bind_carrying (custody_inspect fun _ => hheld)
        intro m w4 _ _ hkeeps4
        apply Frame.Bounds.bind_carrying (.unchanged ofExcept_state)
        intro key w5 _ _ hkeeps5
        apply Frame.Bounds.bind_carrying (custody_pushIdentity _)
        intro _ w6 _ _ hkeeps6
        apply Frame.Bounds.bind_carrying custody_failIf
        intro _ w7 _ _ hkeeps7
        apply Frame.Bounds.bind_carrying custody_failIf
        intro _ w8 _ _ hkeeps8
        have hkeeps : Keeps [] w3 w8 := keeping.trans hkeeps4
          (keeping.trans hkeeps5 (keeping.trans hkeeps6 (keeping.trans hkeeps7 hkeeps8)))
        apply custody_updateSession rfl
        intro htracked
        refine ⟨htracked.verified,?_,htracked.directory⟩
        intro n child hl
        rcases OrderedMap.lookup_emplace_or hl with rfl | hl
        · exact hkeeps.subset hheld
        · exact htracked.children n child hl

theorem custody_findChild {name : Str} {f : Child → Eff (World ν) Thrown α}
    (hf : ∀ child,(Tracked ready w.session → child.handle ∈ w.session.handles) →
      (custody ready).Bounds (f child) w) :
    (custody ready).Bounds (findChild name >>= f) w := by
  apply Frame.Bounds.bind (.unchanged findChild_state)
  intro child w1 h
  obtain ⟨rfl,hl⟩ := findChild_ok h
  exact hf child fun htracked => htracked.children name child hl

theorem custody_heldIdentity (name : Str) :
    (custody ready).Bounds (heldIdentity calls config name) w := by
  apply custody_findChild
  intro child hheld
  apply Frame.Bounds.bind (custody_inspect hheld)
  intro m w2 _
  apply Frame.Bounds.bind (.unchanged ofExcept_state)
  intro key w3 _
  apply Frame.Bounds.bind (custody_pushIdentity _)
  intro _ w4 _
  cases config.childSddl.lookup name with
  | none => exact .raise _
  | some sddl =>
    apply Frame.Bounds.bind custody_failIf
    intro _ w5 _
    apply Frame.Bounds.bind custody_failIf
    intro _ w6 _
    exact .pure _

theorem custody_readChild (name : Str) :
    (custody ready).Bounds (readChild calls name) w := by
  apply custody_findChild
  intro child hheld
  exact custody_native (fun _ => rfl) (fun _ => rfl) (fun _ => rfl)
    fun htracked _ => List.cons_subset.mpr ⟨hheld htracked,nofun⟩

theorem custody_pushVerified {node : Verified} (h : node.handle ∈ w.session.handles) :
    (custody ready).Bounds (pushVerified node) w := by
  apply custody_updateSession rfl
  intro htracked
  refine ⟨?_,htracked.children,htracked.directory⟩
  intro n hn
  rcases List.mem_append.mp hn with hn | hn
  · exact htracked.verified n hn
  · rw [List.mem_singleton.mp hn]
    exact h

/-- A node on a held handle is added and at once verified. -/
theorem custody_enroll {node : Verified} {step : String} {rest : Eff (World ν) Thrown α}
    (h : node.handle ∈ w.session.handles)
    (hf : ∀ w',Keeps [] w w' → Tracked ready w'.session → (custody ready).Bounds rest w') :
    (custody ready).Bounds (do
      pushVerified node
      verifyNode calls step node
      rest) w := by
  apply Frame.Bounds.bind_carrying (custody_pushVerified h)
  intro _ w1 _ _ hkeeps1
  apply Frame.Bounds.bind_carrying (custody_verifyNode fun _ => Keeps.subset hkeeps1 h)
  intro _ w2 _ htracked hkeeps2
  exact hf w2 (keeping.trans hkeeps1 hkeeps2) htracked

theorem custody_openAncestors {current : Handle} {parent : Metadata}
    {ancestors : List ExpectedNode} (h : current ∈ w.session.handles) :
    (custody ready).Bounds (openAncestors calls current parent ancestors) w := by
  induction ancestors generalizing current parent w with
  | nil => exact .pure _
  | cons ancestor ancestors ih =>
    rw [openAncestors]
    apply Frame.Bounds.bind_carrying (.unchanged ofExcept_state)
    intro object w1 _ _ hkeeps1
    refine open_opens (fun r => by cases r <;> rfl) (fun _ => rfl) (fun _ => List.nil_sublist _) ?_ ?_
    · intro _ _
      exact List.cons_subset.mpr ⟨Keeps.subset hkeeps1 h,List.nil_subset _⟩
    intro handle w2 hheld
    apply Frame.Bounds.bind_carrying (.unchanged ofExcept_state)
    intro parentId w3 _ _ hkeeps3
    apply custody_enroll (Keeps.subset hkeeps3 hheld)
    intro w4 hkeeps4 _
    apply Frame.Bounds.bind_carrying custody_failIf
    intro _ w5 _ _ hkeeps5
    exact ih (Keeps.subset hkeeps5 (hkeeps4.subset (Keeps.subset hkeeps3 hheld)))

/-- The innermost handle that `openAncestors` returns is held. -/
theorem openAncestors_held {current handle : Handle} {parent bound : Metadata}
    {ancestors : List ExpectedNode} (h : current ∈ w.session.handles)
    (htracked : Tracked ready w'.session) (hkeeps : Keeps [] w w')
    (hopen : openAncestors calls current parent ancestors w = (.ok (handle,bound),w')) :
    handle ∈ w'.session.handles := by
  obtain ⟨seg,nodes,hopening,-,rfl⟩ := openAncestors_ok hopen
  rw [lastHandle]
  cases hlast : nodes.getLast? with
  | none => exact hkeeps.subset h
  | some node =>
    apply htracked.verified node
    rw [hopening.verified]
    exact List.mem_append_right _ (List.mem_of_getLast? hlast)

theorem custody_initializeSession :
    (custody False).Bounds (initializeSession calls config) w := by
  refine open_opens (fun r => by cases r <;> rfl) (fun _ => rfl) (fun _ => List.nil_sublist _)
    (fun _ _ => nofun) ?_
  intro root w1 hroot
  apply custody_enroll hroot
  intro w2 hkeeps2 _
  apply Frame.Bounds.bind_carrying (custody_openAncestors (hkeeps2.subset hroot))
  intro (current,parent) w3 hancestors htracked3 hkeeps3
  have hcurrent := openAncestors_held (hkeeps2.subset hroot) htracked3 hkeeps3 hancestors
  refine open_opens (fun r => by cases r <;> rfl) (fun _ => rfl) (fun _ => List.nil_sublist _) ?_ ?_
  · intro _ _
    exact List.cons_subset.mpr ⟨hcurrent,List.nil_subset _⟩
  intro handle w4 hhandle
  refine Frame.Bounds.bind_carrying (custody_updateSession rfl ?_) ?_
  · intro htracked
    exact ⟨htracked.verified,htracked.children,nofun⟩
  intro _ w5 _ _ hkeeps5
  apply Frame.Bounds.bind_carrying (.unchanged ofExcept_state)
  intro parentId w6 _ _ hkeeps6
  apply custody_enroll (Keeps.subset hkeeps6 (Keeps.subset hkeeps5 hhandle))
  intro w7 _ _
  exact custody_failIf

theorem Tracked.start : Tracked False {} :=
  ⟨nofun,fun name child h => by simp [OrderedMap.lookup,OrderedMap.empty,OrderedMap.lookupIn] at h,
    nofun⟩

/-- A session holds what its calls acquired, from `before` on. -/
structure Holds (before seg : List NativeEvent) (w : World ν) : Prop where
  calls : w.calls = before++seg
  handles : w.session.handles = nativeLedger.acquired seg
  held : nativeLedger.OnHeld [] seg

theorem Holds.keep {before seg : List NativeEvent} {names : List Str} (h : Holds before seg w)
    (hk : Keeps names w w') : ∃ new,Holds before (seg++new) w' ∧
      (childOpenings new).Sublist names := by
  obtain ⟨new,hc,hh,ho,hs⟩ := hk.grown
  rw [h.handles] at hh ho
  refine ⟨new,⟨?_,?_,HandleLedger.onHeld_append.mpr ⟨h.held,ho⟩⟩,hs⟩
  · rw [hc,h.calls,List.append_assoc]
  · rw [hh,HandleLedger.acquired_append]

/-- What was acquired from `before` on is closed again, last first, after the last call on
it. -/
structure Spent (before seg after : List NativeEvent) : Prop where
  calls : after = before++(seg++closing seg)
  held : nativeLedger.OnHeld [] seg

theorem Spent.refl (before : List NativeEvent) : Spent before [] before :=
  ⟨(List.append_nil _).symm,trivial⟩

theorem Holds.destroy {before seg : List NativeEvent} (calls : NativeCalls ν)
    (h : Holds before seg w) : Spent before seg (destroySession calls w).calls := by
  refine ⟨?_,h.held⟩
  rw [destroySession,closing,h.calls,h.handles,List.append_assoc]

namespace WindowsSnapshotSource

/-- An opened session is in custody of its handles, and a failed opening leaves none. -/
theorem openSession_cases (calls : NativeCalls ν) (source : WindowsSnapshotSource)
    (profile : String) (w : World ν) :
    ∃ seg,childOpenings seg = [] ∧
      ((∃ t w',source.openSession calls profile w = (.error t,w') ∧
          Spent w.calls seg w'.calls) ∨
        ∃ w',Holds w.calls seg w' ∧ Tracked True w'.session ∧
          source.openSession calls profile w =
            (.ok (some (windowsSession calls source.config)),w')) := by
  by_cases hp : profile ≠ directoryProfile
  · obtain ⟨t,ht⟩ := failIf_error hp .bindingFailure "state/" profile "snapshot-profile"
      "unsupported snapshot profile" w
    refine ⟨[],rfl,.inl ⟨t,w,?_,.refl _⟩⟩
    rw [openSession,Eff.bind_of_error ht]
  · have hpass : failIf (profile ≠ directoryProfile) .bindingFailure "state/".toList profile
        "snapshot-profile" "unsupported snapshot profile" w = (.ok (),w) := by
      rw [failIf,if_neg hp]
      rfl
    have hbounds : (custody False).Bounds (initializeSession calls source.config)
        { w with audit := {}, session := {} } := custody_initializeSession
    rcases hi : initializeSession calls source.config { w with audit := {}, session := {} } with
      ⟨t | u,w1⟩
    all_goals
      obtain ⟨htracked,seg,hc,hh,ho,hs⟩ := hbounds.rel hi Tracked.start
      have hholds : Holds w.calls seg w1 := ⟨hc,hh,ho⟩
      refine ⟨seg,List.sublist_nil.mp hs,?_⟩
    · have hunwound : Eff.unwinding (destroySession calls)
          (initializeSession calls source.config) { w with audit := {}, session := {} } =
            (.error t,destroySession calls w1) := by
        rw [Eff.unwinding,hi]
      refine .inl ⟨t,_,?_,hholds.destroy calls⟩
      rw [openSession,Eff.bind_of_ok hpass]
      exact Eff.bind_of_error hunwound _
    · have hunwound : Eff.unwinding (destroySession calls)
          (initializeSession calls source.config) { w with audit := {}, session := {} } =
            (.ok u,w1) := by
        rw [Eff.unwinding,hi]
      obtain ⟨opening,root,nodes,state,hopening,-,hdir,-⟩ := initializeSession_ok hi
      refine .inr ⟨w1,hholds,⟨htracked.verified,htracked.children,fun _ => ?_⟩,?_⟩
      · rw [hdir]
        apply htracked.verified state
        rw [hopening.verified]
        simp
      · rw [openSession,Eff.bind_of_ok hpass]
        exact Eff.bind_of_ok hunwound _

end WindowsSnapshotSource

theorem windowsSession_framed (calls : NativeCalls ν) (config : SnapshotConfig) :
    Framed (custody True) (windowsSession calls config) where
  directoryIdentity _ := custody_directoryIdentity
  inventory _ := custody_inventory
  heldIdentity name _ := custody_heldIdentity name
  readChild name _ := custody_readChild name

/-- A session stays in custody of its handles whatever call is made to it. -/
theorem perform_opens (calls : NativeCalls ν) (config : SnapshotConfig) (call : SessionCall)
    (w : World ν) :
    ∃ names,Opens True names w (call.perform (windowsSession calls config) w).2 := by
  have hframed := windowsSession_framed calls config
  cases call with
  | directoryIdentity =>
    exact ⟨[],Frame.Bounds.bind (hframed.directoryIdentity w) fun _ _ _ => .pure _⟩
  | inventory => exact ⟨[],Frame.Bounds.bind (hframed.inventory w) fun _ _ _ => .pure _⟩
  | holdChild name => exact ⟨[name],holdChild_opens name⟩
  | heldIdentity name =>
    exact ⟨[],Frame.Bounds.bind (hframed.heldIdentity name w) fun _ _ _ => .pure _⟩
  | readChild name =>
    exact ⟨[],Frame.Bounds.bind (hframed.readChild name w) fun _ _ _ => .pure _⟩

theorem performAll_opens (calls : NativeCalls ν) (config : SnapshotConfig)
    (cs : List SessionCall) (w : World ν) :
    ∃ names,Opens True names w (performAll (windowsSession calls config) cs w).2 := by
  induction cs generalizing w with
  | nil => exact ⟨[],(custody True).refl w⟩
  | cons call cs ih =>
    obtain ⟨names,hfirst⟩ := perform_opens calls config call w
    obtain ⟨names',hrest⟩ := ih (w := (call.perform (windowsSession calls config) w).2)
    exact ⟨names++names',hfirst.append hrest⟩

/-- The same of the outside of a run. -/
def RunOpens {κ : Type} (names : List Str) (r r' : Run (World ν) κ) : Prop :=
  Opens True names r.world r'.world

theorem runOpens_absorbs (ν κ : Type) (names : List Str) :
    (onWorld (custody True) : Frame (Run (World ν) κ)).Absorbs (RunOpens names) :=
  (custody_absorbs ν True names).comap

/-- The loop that holds the children opens each of them at most. -/
theorem holdEntries_opens {κ : Type} {ids : FileMap} {entries : List Entry}
    {r : Run (World ν) κ} : RunOpens ((listed entries).map Entry.name) r
      (holdEntries (windowsSession calls config) ids entries r).2 := by
  induction entries generalizing ids r with
  | nil => exact (custody True).refl _
  | cons entry entries ih =>
    have hframed := windowsSession_framed calls config
    have hT := runOpens_absorbs ν κ ((listed entries).map Entry.name)
    rw [holdEntries]
    split_ifs with hd
    · rw [listed_cons_of_dots hd]
      exact ih
    · rw [listed_cons_of_not_dots hd,List.map_cons]
      have hhold : RunOpens [entry.name] r (observe ((windowsSession calls config).holdChild
          entry.name) (.holdChild entry.name) r).2 := holdChild_opens entry.name
      refine Eff.bind_rel (S := RunOpens ((listed entries).map Entry.name)) hhold ?_ ?_ ?_
      · intro r' h
        exact Opens.mono h (List.singleton_sublist.mpr List.mem_cons_self)
      · intro r' r'' h h'
        exact Opens.append h h'
      · intro _ r1 _
        apply Frame.Bounds.bind_before hT (onWorld_observe (hframed.heldIdentity _ _))
        intro id r2 _
        apply Frame.Bounds.bind_before hT onWorld_failIf
        intro _ r3 _
        exact ih

/-- Opening children at most once. -/
def OpensOnce (w w' : World ν) : Prop := ∃ names,names.Nodup ∧ Opens True names w w'

theorem opensOnce_absorbs (ν : Type) : (custody True : Frame (World ν)).Absorbs OpensOnce where
  stop h := ⟨[],List.nodup_nil,h⟩
  before := by
    intro w w' w'' h hall
    obtain ⟨names,hn,h'⟩ := hall
    exact ⟨names,hn,(custody_absorbs ν True names).before h h'⟩
  after := by
    intro w w' w'' hall h'
    obtain ⟨names,hn,h⟩ := hall
    exact ⟨names,hn,(custody_absorbs ν True names).after h h'⟩

section comparison

variable {κ : Type} {b : BCrypt κ} {provider : SnapshotHashProvider κ}
  {source : WindowsSnapshotSource} {fixture : FixtureCase} {expectedDirectoryId p11 p10 : Str}
  {r : Run (World ν) κ}

theorem compareSession_opensOnce (r : Run (World ν) κ) :
    OpensOnce r.world (compareSession b provider fixture expectedDirectoryId
      (windowsSession calls config) r).2.world :=
  compareSession_rel (windowsSession_framed calls config) (opensOnce_absorbs ν)
    (fun _ _ hn => ⟨_,hn,holdEntries_opens⟩) b provider fixture expectedDirectoryId r

/-- The sessions of a stretch are over, and none opened a child twice. -/
def SpentOnce (before after : List NativeEvent) : Prop :=
  ∃ seg,Spent before seg after ∧ (childOpenings seg).Nodup

theorem SpentOnce.refl (before : List NativeEvent) : SpentOnce before before :=
  ⟨[],.refl _,List.nodup_nil⟩

/-- The same of a run. -/
def RunSpent (r r' : Run (World ν) κ) : Prop := SpentOnce r.world.calls r'.world.calls

theorem runSpent_absorbs (ν κ : Type) :
    (onWorld .same : Frame (Run (World ν) κ)).Absorbs RunSpent where
  stop := by
    intro r r' h
    rw [RunSpent,show r'.world = r.world from h]
    exact .refl _
  before := by
    intro r r' r'' h h'
    rw [RunSpent,← show r'.world = r.world from h]
    exact h'
  after := by
    intro r r' r'' h h'
    rw [RunSpent,show r''.world = r'.world from h']
    exact h

theorem headBinding_state {τ : Type} {s : τ} : (headBinding fixture p11 p10 s).2 = s := by
  rw [headBinding]
  cases renderP11 fixture p10 with
  | error e => rfl
  | ok head => exact failIf_state

theorem compareBody_spent : RunSpent r (compareBody b provider (source.snapshotSource calls)
    fixture expectedDirectoryId p11 p10 r).2 := by
  have hT := runSpent_absorbs ν κ
  rw [compareBody]
  apply Frame.Bounds.bind_before hT (onWorld_idle (catchStandard_fail_world rfl))
  intro hash r1 _
  apply Frame.Bounds.bind_before hT (onWorld_record _)
  intro _ r2 _
  apply Frame.Bounds.bind_before hT (.unchanged headBinding_state)
  intro _ r3 _
  obtain ⟨seg,hnone,⟨t,w',hopen,hspent⟩ | ⟨w',hholds,htracked,hopen⟩⟩ :=
    source.openSession_cases calls directoryProfile r3.world
  · have hobserved : observe ((source.snapshotSource calls).openSession directoryProfile)
        (fun o => .opened (o.map Option.isSome)) r3 =
          (.error t,{ r3 with world := w', log := r3.log++[.opened (.error t)] }) := by
      show observe (source.openSession calls directoryProfile) _ r3 = _
      rw [observe,hopen]
      rfl
    rw [Eff.bind_of_error hobserved]
    exact ⟨seg,hspent,by rw [hnone]; exact List.nodup_nil⟩
  · have hobserved : observe ((source.snapshotSource calls).openSession directoryProfile)
        (fun o => .opened (o.map Option.isSome)) r3 =
          (.ok (some (windowsSession calls source.config)),
            { r3 with world := w', log := r3.log++[.opened (.ok true)] }) := by
      show observe (source.openSession calls directoryProfile) _ r3 = _
      rw [observe,hopen]
      rfl
    rw [Eff.bind_of_ok hobserved]
    obtain ⟨r4,hr4⟩ : ∃ r4 : Run (World ν) κ,
        r4 = { r3 with world := w', log := r3.log++[.opened (.ok true)] } := ⟨_,rfl⟩
    have honce : OpensOnce r4.world (compareSession b provider fixture expectedDirectoryId
        (windowsSession calls source.config) r4).2.world := compareSession_opensOnce r4
    rw [hr4] at honce
    obtain ⟨names,hnames,hopens⟩ := honce
    obtain ⟨-,hkeeps⟩ := hopens htracked
    obtain ⟨new,hheld,hsub⟩ := hholds.keep hkeeps
    refine ⟨seg++new,hheld.destroy calls,?_⟩
    rw [childOpenings_append,hnone]
    exact hnames.sublist hsub

theorem compareImpl_spent {processReached brokerReadReached : Bool} :
    RunSpent r (compareImpl b provider (source.snapshotSource calls) fixture expectedDirectoryId
      p11 p10 processReached brokerReadReached r).2 := by
  have hT := runSpent_absorbs ν κ
  rw [compareImpl]
  apply Frame.Bounds.bind_before hT (onWorld_record _)
  intro _ r1 _
  split_ifs
  · apply Frame.Bounds.bind_before hT (onWorld_record _)
    intro _ r2 _
    exact hT.stop (Frame.refl _ _)
  · have hbody : RunSpent r1 (compareBody b provider (source.snapshotSource calls) fixture
        expectedDirectoryId p11 p10 r1).2 := compareBody_spent
    refine Frame.Bounds.bind_after hT ?_ ?_
    · rcases hm : compareBody b provider (source.snapshotSource calls) fixture
          expectedDirectoryId p11 p10 r1 with ⟨t | u,r2⟩
      · rw [hm] at hbody
        rw [Eff.catching_error hm]
        cases t with
        | observation f => exact hbody
        | standard e => exact hbody
        | nonstandard => exact hbody
      · rw [hm] at hbody
        rw [Eff.catching_ok hm]
        exact hbody
    · intro _ r2 _
      exact Frame.refl _ _

/-- The handles of a snapshot session are closed exactly once each, last first, when the
session is destroyed, and used only before. -/
theorem snapshotSessions_custody (calls : NativeCalls ν) (source : WindowsSnapshotSource) :
    (∀ profile t (w w' : World ν),source.openSession calls profile w = (.error t,w') →
      ∃ seg,Spent w.calls seg w'.calls) ∧
    (∀ profile opened (w w' : World ν),source.openSession calls profile w = (.ok opened,w') →
      ∃ s : SnapshotSession (World ν),opened = some s ∧ ∀ cs : List SessionCall,
        ∃ seg,(performAll s cs w').2.calls = w.calls++seg ∧
          Spent w.calls seg (s.destroy (performAll s cs w').2).calls) ∧
    ∀ (κ : Type) (b : BCrypt κ) (fixture : FixtureCase) (expectedDirectoryId p11 p10 : Str)
      (processReached brokerReadReached : Bool) (r : Run (World ν) κ),
      ∃ seg,Spent r.world.calls seg (compareFreshController b (source.snapshotSource calls)
        fixture expectedDirectoryId p11 p10 processReached brokerReadReached r).2.world.calls ∧
        (childOpenings seg).Nodup := by
  refine ⟨?_,?_,?_⟩
  · intro profile t w w' h
    obtain ⟨seg,-,⟨t1,w1,h1,hspent⟩ | ⟨w1,-,-,h1⟩⟩ := source.openSession_cases calls profile w
    · obtain rfl := (Prod.mk.inj (h1.symm.trans h)).2
      exact ⟨seg,hspent⟩
    · exact absurd (Prod.mk.inj (h1.symm.trans h)).1 (by simp)
  · intro profile opened w w' h
    obtain ⟨seg,-,⟨t1,w1,h1,-⟩ | ⟨w1,hholds,htracked,h1⟩⟩ :=
      source.openSession_cases calls profile w
    · exact absurd (Prod.mk.inj (h1.symm.trans h)).1 (by simp)
    · obtain ⟨hs,rfl⟩ := Prod.mk.inj (h1.symm.trans h)
      refine ⟨windowsSession calls source.config,(Except.ok.inj hs).symm,fun cs => ?_⟩
      obtain ⟨names,hopens⟩ := performAll_opens calls source.config cs w1
      obtain ⟨-,hkeeps⟩ := hopens htracked
      obtain ⟨new,hheld,-⟩ := hholds.keep hkeeps
      exact ⟨seg++new,hheld.calls,hheld.destroy calls⟩
  · intro κ b fixture expectedDirectoryId p11 p10 processReached brokerReadReached r
    exact compareImpl_spent

end comparison

end SoftwareFactory.StageA.Windows
