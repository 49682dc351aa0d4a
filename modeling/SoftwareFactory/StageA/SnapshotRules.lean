import SoftwareFactory.StageA.Snapshot

namespace SoftwareFactory.StageA

open Effect

variable {σ κ τ α : Type}

/-- The session calls of a log, made one after another, lead from one state to another. -/
inductive Performed (s : SnapshotSession σ) : List Observation → σ → σ → Prop where
  | nil (w : σ) : Performed s [] w w
  | directoryIdentity {log : List Observation} {w w' w'' : σ} {a : Str}
      (h : s.directoryIdentity w = (.ok a,w')) (t : Performed s log w' w'') :
      Performed s (.directoryIdentity (.ok a)::log) w w''
  | inventory {log : List Observation} {w w' w'' : σ} {a : List Entry}
      (h : s.inventory w = (.ok a,w')) (t : Performed s log w' w'') :
      Performed s (.inventory (.ok a)::log) w w''
  | holdChild {log : List Observation} {w w' w'' : σ} {n : Str} {a : Unit}
      (h : s.holdChild n w = (.ok a,w')) (t : Performed s log w' w'') :
      Performed s (.holdChild n (.ok a)::log) w w''
  | heldIdentity {log : List Observation} {w w' w'' : σ} {n a : Str}
      (h : s.heldIdentity n w = (.ok a,w')) (t : Performed s log w' w'') :
      Performed s (.heldIdentity n (.ok a)::log) w w''
  | readChild {log : List Observation} {w w' w'' : σ} {n a : Str}
      (h : s.readChild n w = (.ok a,w')) (t : Performed s log w' w'') :
      Performed s (.readChild n (.ok a)::log) w w''

theorem Performed.append {s : SnapshotSession σ} {l l' : List Observation} {w w' w'' : σ}
    (h : Performed s l w w') (h' : Performed s l' w' w'') : Performed s (l++l') w w'' := by
  induction h with
  | nil => exact h'
  | directoryIdentity h _ ih => exact .directoryIdentity h (ih h')
  | inventory h _ ih => exact .inventory h (ih h')
  | holdChild h _ ih => exact .holdChild h (ih h')
  | heldIdentity h _ ih => exact .heldIdentity h (ih h')
  | readChild h _ ih => exact .readChild h (ih h')

/-- A stretch of a run in which `log` was logged and performed, and the evidence kept its
error. -/
structure Stretch (s : SnapshotSession σ) (log : List Observation) (r r' : Run σ κ) : Prop where
  performed : Performed s log r.world r'.world
  logged : r'.log = r.log++log
  error : r'.evidence.error = r.evidence.error

theorem Stretch.refl (s : SnapshotSession σ) (r : Run σ κ) : Stretch s [] r r :=
  ⟨.nil _,(List.append_nil _).symm,rfl⟩

theorem Stretch.append {s : SnapshotSession σ} {l l' : List Observation} {r r' r'' : Run σ κ}
    (h : Stretch s l r r') (h' : Stretch s l' r' r'') : Stretch s (l++l') r r'' :=
  ⟨h.performed.append h'.performed,by rw [h'.logged,h.logged,List.append_assoc],
    h'.error.trans h.error⟩

/-- One call of the session. -/
theorem Stretch.one {s : SnapshotSession σ} {o : Observation} {r : Run σ κ} {w : σ}
    (h : Performed s [o] r.world w) : Stretch s [o] r { r with world := w, log := r.log++[o] } :=
  ⟨h,rfl,rfl⟩

theorem observe_ok {op : Eff σ Thrown α} {o : Except Thrown α → Observation} {r r' : Run σ κ}
    {a : α} : observe op o r = (.ok a,r') ↔ ∃ w,op r.world = (.ok a,w) ∧
      r' = { r with world := w, log := r.log++[o (.ok a)] } := by
  rw [observe]
  rcases op r.world with ⟨_ | b,w⟩
  · simp
  · simp only [Prod.mk.injEq,Except.ok.injEq]
    constructor
    · intro h
      obtain ⟨rfl,rfl⟩ := h
      exact ⟨w,⟨rfl,rfl⟩,rfl⟩
    · intro h
      obtain ⟨_,⟨rfl,rfl⟩,rfl⟩ := h
      exact ⟨rfl,rfl⟩

theorem hashing_ok {op : Eff κ Thrown α} {o : Except Thrown α → Observation} {r r' : Run σ κ}
    {a : α} : hashing op o r = (.ok a,r') ↔ ∃ k,op r.crypto = (.ok a,k) ∧
      r' = { r with crypto := k, log := r.log++[o (.ok a)] } := by
  rw [hashing]
  rcases op r.crypto with ⟨_ | b,w⟩
  · simp
  · simp only [Prod.mk.injEq,Except.ok.injEq]
    constructor
    · intro h
      obtain ⟨rfl,rfl⟩ := h
      exact ⟨w,⟨rfl,rfl⟩,rfl⟩
    · intro h
      obtain ⟨_,⟨rfl,rfl⟩,rfl⟩ := h
      exact ⟨rfl,rfl⟩

theorem unlogged_ok {op : Eff κ Thrown α} {r r' : Run σ κ} {a : α}
    (h : unlogged op r = (.ok a,r')) : ∃ k,r' = { r with crypto := k } := by
  rw [unlogged] at h
  exact ⟨_,(Prod.mk.inj h).2.symm⟩

theorem standardOnly_ok {op : Eff τ StdException α} {s s' : τ} {a : α} :
    standardOnly op s = (.ok a,s') ↔ op s = (.ok a,s') := by
  rw [standardOnly]
  rcases op s with ⟨_ | b,s''⟩ <;> simp

theorem fail_ok {kind : ErrorKind} {object : Str} {profile step message : String} {s s' : τ} {a : α} :
    fail kind object profile step message s = (.ok a,s') ↔ False := Eff.raise_ok

theorem failIf_ok {p : Prop} [Decidable p] {kind : ErrorKind}
    {object : Str} {profile step message : String} {s s' : τ} {u : Unit} :
    failIf p kind object profile step message s = (.ok u,s') ↔ ¬ p ∧ s = s' := by
  rw [failIf]
  split_ifs with h
  · simp [fail,h]
  · simp [h]

theorem failIf_error {p : Prop} [Decidable p] (h : p) (kind : ErrorKind) (object : Str)
    (profile step message : String) (s : τ) :
    ∃ t,failIf p kind object profile step message s = (.error t,s) := by
  rw [failIf,if_pos h]
  exact ⟨_,rfl⟩

@[simp] theorem failIf_state {p : Prop} [Decidable p] {kind : ErrorKind} {object : Str}
    {profile step message : String} {s : τ} :
    (failIf p kind object profile step message s).2 = s := by
  rw [failIf]
  split_ifs
  · rfl
  · rfl

/-- A handler that fails adds no way to return. -/
theorem catchStandard_fail_ok {m : Eff τ Thrown α} {kind : ErrorKind}
    {object : Str} {profile step : String} {s s' : τ} {a : α} :
    catchStandard m (fail kind object profile step) s = (.ok a,s') ↔ m s = (.ok a,s') := by
  rw [catchStandard,Eff.catching]
  rcases m s with ⟨e | b,s''⟩
  · cases e <;> simp [fail]
  · rfl

theorem mapAt_ok {m : FileMap} {key v : Str} {s s' : τ} :
    mapAt m key s = (.ok v,s') ↔ m.lookup key = some v ∧ s = s' := by
  rw [mapAt]
  cases m.lookup key <;> simp

theorem record_ok {f : Evidence → Evidence} {r r' : Run σ κ} {u : Unit} :
    record f r = (.ok u,r') ↔ r' = { r with evidence := f r.evidence } := by
  simp [record,eq_comm]

theorem headBinding_ok {fixture : FixtureCase} {p11 p10 : Str} {s s' : τ} {u : Unit}
    (h : headBinding fixture p11 p10 s = (.ok u,s')) :
    renderP11 fixture p10 = .ok p11 ∧ s = s' := by
  rw [headBinding] at h
  cases hr : renderP11 fixture p10 with
  | error e =>
    rw [hr] at h
    exact (fail_ok.mp h).elim
  | ok head =>
    rw [hr] at h
    obtain ⟨hp,hs⟩ := failIf_ok.mp h
    exact ⟨by rw [not_not.mp hp],hs⟩

/-- What the checks establish of one entry. -/
structure Listable (f : FixtureCase) (dirId : Str) (e : Entry) : Prop where
  name_ne : e.name ≠ []
  name_plain : e.name.any (· ∈ nameBreaks) = false
  not_reparse : e.reparse = false
  regular : e.type = "regular"
  fileId_ne : e.fileId ≠ []
  parentId : e.parentId = dirId
  known : e.name ∈ f.latestFiles.keys

/-- Entries that pass: each is fit and no name comes twice. -/
structure WellListed (f : FixtureCase) (dirId : Str) (entries : List Entry) : Prop where
  listable : ∀ e ∈ listed entries,Listable f dirId e
  nodup : ((listed entries).map Entry.name).Nodup

theorem listed_cons (e : Entry) (es : List Entry) :
    listed (e::es) = if isDots e.name then listed es else e::listed es := by
  by_cases h : isDots e.name <;> simp [listed,h]

theorem listed_cons_of_dots {e : Entry} (h : isDots e.name = true) (es : List Entry) :
    listed (e::es) = listed es := by
  rw [listed_cons,if_pos h]

theorem listed_cons_of_not_dots {e : Entry} (h : ¬ isDots e.name = true) (es : List Entry) :
    listed (e::es) = e::listed es := by
  rw [listed_cons,if_neg h]

theorem WellListed.cons {f : FixtureCase} {dirId : Str} {e : Entry} {es : List Entry}
    (hd : ¬ isDots e.name = true) (he : Listable f dirId e) (hes : WellListed f dirId es)
    (hnew : ∀ e' ∈ listed es,e'.name ≠ e.name) : WellListed f dirId (e::es) := by
  refine ⟨?_,?_⟩ <;> rw [listed_cons_of_not_dots hd]
  · intro e' he'
    rcases List.mem_cons.mp he' with rfl | he'
    · exact he
    · exact hes.listable e' he'
  · rw [List.map_cons,List.nodup_cons]
    refine ⟨?_,hes.nodup⟩
    rw [List.mem_map]
    intro h
    obtain ⟨e',he',hn⟩ := h
    exact hnew e' he' hn

theorem WellListed.tail {f : FixtureCase} {dirId : Str} {e : Entry} {es : List Entry}
    (h : WellListed f dirId (e::es)) : WellListed f dirId es := by
  have hsub : (listed es).Sublist (listed (e::es)) := by
    rw [listed_cons]
    split_ifs
    · exact List.Sublist.refl _
    · exact List.sublist_cons_self _ _
  exact ⟨fun e' he' => h.listable e' (hsub.subset he'),(hsub.map _).nodup h.nodup⟩

/-- What an entry goes through before those behind it. -/
theorem checkEntriesFrom_cons (f : FixtureCase) (dirId : Str) (step : String) (seen : List Str)
    (e : Entry) (entries : List Entry) :
    (checkEntriesFrom f dirId step seen (e::entries) : Eff τ Thrown Unit) =
      if isDots e.name then checkEntriesFrom f dirId step seen entries
      else if e.name = [] ∨ e.name.any (· ∈ nameBreaks) ∨ e.name ∈ seen then
        fail .malformed e.name directoryProfile step "malformed or duplicate entry"
      else if e.reparse then fail .reparse e.name childProfile step "reparse entry"
      else if e.type ≠ "regular" ∨ e.fileId = [] ∨ e.parentId ≠ dirId then
        fail .identityDrift e.name childProfile step "type or parent identity mismatch"
      else if !f.latestFiles.contains e.name then
        fail .unexpectedEntry e.name directoryProfile step "unlisted state child"
      else checkEntriesFrom f dirId step (e.name::seen) entries := rfl

theorem checkEntriesFrom_ok {f : FixtureCase} {dirId : Str} {step : String} {seen : List Str}
    {entries : List Entry} {s s' : τ}
    (h : checkEntriesFrom f dirId step seen entries s = (.ok (),s')) :
    s = s' ∧ WellListed f dirId entries ∧ ∀ e ∈ listed entries,e.name ∉ seen := by
  induction entries generalizing seen with
  | nil => exact ⟨(Prod.mk.inj h).2,⟨by simp [listed],by simp [listed]⟩,by simp [listed]⟩
  | cons e es ih =>
    rw [checkEntriesFrom_cons] at h
    by_cases hd : isDots e.name = true
    · rw [if_pos hd] at h
      obtain ⟨hs,hw,hn⟩ := ih h
      have hl := listed_cons_of_dots hd es
      exact ⟨hs,⟨by rw [hl]; exact hw.listable,by rw [hl]; exact hw.nodup⟩,by rw [hl]; exact hn⟩
    · rw [if_neg hd] at h
      split_ifs at h with hname hrep htype hknown
      · exact (fail_ok.mp h).elim
      · exact (fail_ok.mp h).elim
      · exact (fail_ok.mp h).elim
      · exact (fail_ok.mp h).elim
      · obtain ⟨hs,hw,hn⟩ := ih h
        simp only [not_or,not_not,Bool.not_eq_true] at hname hrep htype hknown
        have he : Listable f dirId e :=
          ⟨hname.1,hname.2.1,hrep,htype.1,htype.2.1,htype.2.2,
            OrderedMap.contains_iff.mp (by simpa using hknown)⟩
        have hnew : ∀ e' ∈ listed es,e'.name ≠ e.name := by
          intro e' he' heq
          exact hn e' he' (by rw [heq]; exact List.mem_cons_self)
        refine ⟨hs,hw.cons hd he hnew,?_⟩
        rw [listed_cons_of_not_dots hd]
        intro e' he'
        rcases List.mem_cons.mp he' with rfl | he'
        · exact hname.2.2
        · exact fun hm => hn e' he' (List.mem_cons_of_mem _ hm)

theorem checkEntries_ok {f : FixtureCase} {dirId : Str} {step : String} {entries : List Entry} {s s' : τ}
    (h : checkEntries entries f dirId step s = (.ok (),s')) :
    s = s' ∧ WellListed f dirId entries :=
  have h' := checkEntriesFrom_ok h
  ⟨h'.1,h'.2.1⟩

/-- The calls of the first loop. -/
def holdLog (entries : List Entry) : List Observation :=
  (listed entries).flatMap fun e => [.holdChild e.name (.ok ()),.heldIdentity e.name (.ok e.fileId)]

theorem holdLog_cons {e : Entry} (h : ¬ isDots e.name = true) (es : List Entry) :
    holdLog (e::es) =
      [.holdChild e.name (.ok ()),.heldIdentity e.name (.ok e.fileId)]++holdLog es := by
  rw [holdLog,listed_cons_of_not_dots h,List.flatMap_cons]
  rfl

theorem holdEntries_ok {session : SnapshotSession σ} {f : FixtureCase} {dirId : Str}
    {entries : List Entry} {ids ids' : FileMap} {r r' : Run σ κ}
    (hw : WellListed f dirId entries) (hnew : ∀ e ∈ listed entries,ids.contains e.name = false)
    (h : holdEntries session ids entries r = (.ok ids',r')) :
    Stretch session (holdLog entries) r r' ∧
      ∀ p,p ∈ ids'.entries ↔ p ∈ ids.entries ∨ ∃ e ∈ listed entries,p = (e.name,e.fileId) := by
  induction entries generalizing ids r with
  | nil =>
    obtain ⟨h1,h2⟩ := Prod.mk.inj h
    obtain rfl := Except.ok.inj h1
    obtain rfl := h2
    exact ⟨Stretch.refl _ _,by simp [listed]⟩
  | cons e es ih =>
    rw [holdEntries] at h
    by_cases hd : isDots e.name = true
    · rw [if_pos hd] at h
      have hl := listed_cons_of_dots hd es
      rw [holdLog,hl]
      exact ih hw.tail (by rw [← hl]; exact hnew) h
    · rw [if_neg hd] at h
      have hl := listed_cons_of_not_dots hd es
      obtain ⟨_,r1,h1,h⟩ := Eff.bind_ok.mp h
      obtain ⟨id,r2,h2,h⟩ := Eff.bind_ok.mp h
      obtain ⟨_,r3,h3,h⟩ := Eff.bind_ok.mp h
      obtain ⟨w1,hw1,rfl⟩ := observe_ok.mp h1
      obtain ⟨w2,hw2,rfl⟩ := observe_ok.mp h2
      obtain ⟨hid,rfl⟩ := failIf_ok.mp h3
      obtain rfl : id = e.fileId := not_not.mp hid
      have hnd := hw.nodup
      rw [hl,List.map_cons,List.nodup_cons] at hnd
      have hk : ids.contains e.name = false := hnew e (by rw [hl]; exact List.mem_cons_self)
      have hnew' : ∀ e' ∈ listed es,(ids.emplace e.name e.fileId).contains e'.name = false := by
        intro e' he'
        have hne : e'.name ≠ e.name := fun heq => hnd.1 (List.mem_map.mpr ⟨e',he',heq⟩)
        rw [OrderedMap.contains_emplace hk hne]
        exact hnew e' (by rw [hl]; exact List.mem_cons_of_mem _ he')
      obtain ⟨hst,hids⟩ := ih hw.tail hnew' h
      refine ⟨?_,?_⟩
      · rw [holdLog_cons hd]
        have hone := Stretch.one (.holdChild hw1 (.nil _)) (r := r)
        exact (hone.append (Stretch.one (.heldIdentity hw2 (.nil _)))).append hst
      · intro p
        rw [hids,OrderedMap.mem_emplace_iff hk,hl]
        simp only [List.mem_cons,exists_eq_or_imp]
        exact or_assoc.trans or_left_comm

/-- The calls of the second loop, with what they read. -/
def readLog (texts : List (Str × Str)) : List Observation :=
  texts.map fun p => .readChild p.1 (.ok p.2)

theorem readEntries_ok {b : BCrypt κ} {session : SnapshotSession σ} {l : List (Str × Str)}
    {bytes bytes' : FileMap} {r r' : Run σ κ} (hl : l.Pairwise fun p q => p.1 < q.1)
    (hlt : ∀ p ∈ bytes.entries,∀ q ∈ l,p.1 < q.1)
    (h : readEntries b session bytes l r = (.ok bytes',r')) :
    ∃ texts,bytes'.entries = bytes.entries++texts ∧ texts.map Prod.fst = l.map Prod.fst ∧
      Stretch session (readLog texts) r r' := by
  induction l generalizing bytes r with
  | nil =>
    obtain ⟨h1,h2⟩ := Prod.mk.inj h
    obtain rfl := Except.ok.inj h1
    obtain rfl := h2
    exact ⟨[],by simp,rfl,Stretch.refl _ _⟩
  | cons q l ih =>
    obtain ⟨name,id⟩ := q
    obtain ⟨hq,hl⟩ := List.pairwise_cons.mp hl
    rw [readEntries] at h
    obtain ⟨text,r1,h1,h⟩ := Eff.bind_ok.mp h
    obtain ⟨_,r2,h2,h⟩ := Eff.bind_ok.mp h
    obtain ⟨content,r3,h3,h⟩ := Eff.bind_ok.mp h
    obtain ⟨hash,r4,h4,h⟩ := Eff.bind_ok.mp h
    obtain ⟨_,r5,h5,h⟩ := Eff.bind_ok.mp h
    obtain ⟨w1,hw1,rfl⟩ := observe_ok.mp h1
    obtain rfl := record_ok.mp h2
    obtain ⟨-,rfl⟩ := mapAt_ok.mp h3
    obtain ⟨k,rfl⟩ := unlogged_ok (catchStandard_fail_ok.mp h4)
    obtain rfl := record_ok.mp h5
    have hent : (bytes.emplace name text).entries = bytes.entries++[(name,text)] :=
      OrderedMap.emplace_entries_of_lt fun p hp => hlt p hp _ List.mem_cons_self
    have hlt' : ∀ p ∈ (bytes.emplace name text).entries,∀ q ∈ l,p.1 < q.1 :=
      OrderedMap.emplace_entries_lt hlt hq text
    obtain ⟨texts,he,hf,hst⟩ := ih hl hlt' h
    refine ⟨(name,text)::texts,?_,?_,?_⟩
    · rw [he,hent,List.append_assoc]
      rfl
    · rw [List.map_cons,List.map_cons,hf]
    · have hone := Stretch.one (.readChild hw1 (.nil _)) (r := r)
      exact hone.append ⟨hst.performed,hst.logged,hst.error⟩

/-- The calls of the third loop. -/
def recheckLog (content : Str → Str) (entries : List Entry) : List Observation :=
  (listed entries).flatMap fun e =>
    [.heldIdentity e.name (.ok e.fileId),.readChild e.name (.ok (content e.name))]

theorem recheckEntry_ok {session : SnapshotSession σ} {ids bytes : FileMap} {e : Entry}
    {r r' : Run σ κ} (hd : ¬ isDots e.name = true)
    (h : recheckEntry session ids bytes e r = (.ok (),r')) :
    ids.lookup e.name = some e.fileId ∧ ∃ text,bytes.lookup e.name = some text ∧
      Stretch session [.heldIdentity e.name (.ok e.fileId),.readChild e.name (.ok text)] r r' := by
  rw [recheckEntry,if_neg hd] at h
  obtain ⟨id,r1,h1,h⟩ := Eff.bind_ok.mp h
  obtain ⟨_,r2,h2,h⟩ := Eff.bind_ok.mp h
  obtain ⟨held,r3,h3,h⟩ := Eff.bind_ok.mp h
  obtain ⟨id',r4,h4,h⟩ := Eff.bind_ok.mp h
  obtain ⟨_,r5,h5,h⟩ := Eff.bind_ok.mp h
  obtain ⟨text,r6,h6,h⟩ := Eff.bind_ok.mp h
  obtain ⟨content,r7,h7,h⟩ := Eff.bind_ok.mp h
  obtain ⟨hid,rfl⟩ := mapAt_ok.mp h1
  obtain ⟨hne,rfl⟩ := failIf_ok.mp h2
  obtain rfl : id = e.fileId := not_not.mp hne
  obtain ⟨w3,hw3,rfl⟩ := observe_ok.mp h3
  obtain ⟨hid',rfl⟩ := mapAt_ok.mp h4
  obtain ⟨hheld,rfl⟩ := failIf_ok.mp h5
  obtain rfl : e.fileId = id' := Option.some.inj (hid.symm.trans hid')
  obtain rfl : held = e.fileId := not_not.mp hheld
  obtain ⟨w6,hw6,rfl⟩ := observe_ok.mp h6
  obtain ⟨hc,rfl⟩ := mapAt_ok.mp h7
  obtain ⟨htext,rfl⟩ := failIf_ok.mp h
  obtain rfl : text = content := not_not.mp htext
  have hone := Stretch.one (.heldIdentity hw3 (.nil _)) (r := r)
  exact ⟨hid,text,hc,hone.append (Stretch.one (.readChild hw6 (.nil _)))⟩

theorem recheck_ok {session : SnapshotSession σ} {ids bytes : FileMap} {entries : List Entry}
    {r r' : Run σ κ}
    (h : Eff.forEach (recheckEntry session ids bytes) entries r = (.ok (),r')) :
    Stretch session (recheckLog (fun n => (bytes.lookup n).getD []) entries) r r' ∧
      ∀ e ∈ listed entries,ids.lookup e.name = some e.fileId := by
  induction entries generalizing r with
  | nil =>
    obtain rfl := Eff.forEach_nil_ok.mp h
    exact ⟨Stretch.refl _ _,by simp [listed]⟩
  | cons e es ih =>
    obtain ⟨r1,h1,h⟩ := Eff.forEach_cons_ok.mp h
    obtain ⟨hst,hids⟩ := ih h
    by_cases hd : isDots e.name = true
    · rw [recheckEntry,if_pos hd] at h1
      obtain rfl := (Prod.mk.inj h1).2
      rw [recheckLog,listed_cons_of_dots hd]
      exact ⟨hst,hids⟩
    · obtain ⟨hid,text,htext,hone⟩ := recheckEntry_ok hd h1
      rw [recheckLog,listed_cons_of_not_dots hd,List.flatMap_cons,htext]
      refine ⟨hone.append hst,?_⟩
      intro e' he'
      rcases List.mem_cons.mp he' with rfl | he'
      · exact hid
      · exact hids e' he'

/-- A call of a session. -/
inductive SessionCall where
  | directoryIdentity
  | inventory
  | holdChild (name : Str)
  | heldIdentity (name : Str)
  | readChild (name : Str)
  deriving DecidableEq

/-- The call, without what it returns. -/
def SessionCall.perform (s : SnapshotSession σ) : SessionCall → Eff σ Thrown Unit
  | .directoryIdentity => do
    let _ ← s.directoryIdentity
    pure ()
  | .inventory => do
    let _ ← s.inventory
    pure ()
  | .holdChild name => s.holdChild name
  | .heldIdentity name => do
    let _ ← s.heldIdentity name
    pure ()
  | .readChild name => do
    let _ ← s.readChild name
    pure ()

/-- Calls made one after another, whatever each of them comes to. -/
def performAll (s : SnapshotSession σ) :
    List SessionCall → σ → List (SessionCall × Except Thrown Unit) × σ
  | [],w => ([],w)
  | call::calls,w =>
    let (r,w1) := call.perform s w
    let (rs,w2) := performAll s calls w1
    ((call,r)::rs,w2)

theorem performAll_cons (s : SnapshotSession σ) (call : SessionCall) (calls : List SessionCall)
    (w : σ) : performAll s (call::calls) w =
      ((call,(call.perform s w).1)::(performAll s calls (call.perform s w).2).1,
        (performAll s calls (call.perform s w).2).2) := rfl

end SoftwareFactory.StageA
