import SoftwareFactory.StageA.FrozenCases
import SoftwareFactory.StageA.StableSnapshot

namespace SoftwareFactory.StageA

open Effect

variable {σ κ τ : Type}

/-- An inventory of exactly the given files, apart from the dots. -/
structure Lists (dirId : Str) (files : FileMap) (ids : Str → Str) (entries : List Entry) :
    Prop where
  same_names : ((listed entries).map Entry.name).Perm files.keys
  regular : ∀ e ∈ listed entries,e.type = "regular"
  not_reparse : ∀ e ∈ listed entries,e.reparse = false
  fileId : ∀ e ∈ listed entries,e.fileId = ids e.name
  parentId : ∀ e ∈ listed entries,e.parentId = dirId

/-- A session over a directory that holds `files` and does not change, as long as `I` holds;
its first argument are the children held so far. A child is held once, and before it is
looked at. -/
structure Steadfast (session : SnapshotSession σ) (dirId : Str) (files : FileMap)
    (ids : Str → Str) (I : List Str → σ → Prop) : Prop where
  directoryIdentity : ∀ held w,I held w →
    ∃ w',session.directoryIdentity w = (.ok dirId,w') ∧ I held w'
  inventory : ∀ held w,I held w → ∃ entries w',
    session.inventory w = (.ok entries,w') ∧ I held w' ∧ Lists dirId files ids entries
  holdChild : ∀ held w name,I held w → name ∈ files.keys → name ∉ held →
    ∃ w',session.holdChild name w = (.ok (),w') ∧ I (name::held) w'
  heldIdentity : ∀ held w name,I held w → name ∈ held →
    ∃ w',session.heldIdentity name w = (.ok (ids name),w') ∧ I held w'
  readChild : ∀ held w name text,I held w → name ∈ held → files.lookup name = some text →
    ∃ w',session.readChild name w = (.ok text,w') ∧ I held w'

/-- The entries pass the checks they were made for. -/
theorem checkEntriesFrom_pass {f : FixtureCase} {dirId : Str} {entries : List Entry}
    (hw : WellListed f dirId entries) (step : String) (seen : List Str)
    (hseen : ∀ e ∈ listed entries,e.name ∉ seen) (s : τ) :
    checkEntriesFrom f dirId step seen entries s = (.ok (),s) := by
  induction entries generalizing seen with
  | nil => rfl
  | cons e es ih =>
    rw [checkEntriesFrom_cons]
    by_cases hd : isDots e.name = true
    · rw [if_pos hd]
      rw [listed_cons_of_dots hd] at hseen
      exact ih hw.tail seen hseen
    · have hl := listed_cons_of_not_dots hd es
      have hmem : e ∈ listed (e::es) := by
        rw [hl]
        exact List.mem_cons_self
      have he := hw.listable e hmem
      have hnd := hw.nodup
      rw [hl,List.map_cons,List.nodup_cons] at hnd
      have hknown : f.latestFiles.contains e.name = true := OrderedMap.contains_iff.mpr he.known
      rw [if_neg hd,if_neg (by simp [he.name_ne,he.name_plain,hseen e hmem]),
        if_neg (by simp [he.not_reparse]),if_neg (by simp [he.regular,he.fileId_ne,he.parentId]),
        if_neg (by simp [hknown])]
      refine ih hw.tail _ fun e' he' hm => ?_
      rcases List.mem_cons.mp hm with heq | hm
      · exact hnd.1 (List.mem_map.mpr ⟨e',he',heq⟩)
      · exact hseen e' (by rw [hl]; exact List.mem_cons_of_mem _ he') hm

theorem checkEntries_pass {f : FixtureCase} {dirId : Str} {entries : List Entry}
    (hw : WellListed f dirId entries) (step : String) (s : τ) :
    checkEntries entries f dirId step s = (.ok (),s) :=
  checkEntriesFrom_pass hw step [] (fun _ _ => List.not_mem_nil) s

theorem unlogged_pass {op : Eff κ Thrown Str} {r : Run σ κ} {a : Str} {k : κ}
    (h : op r.crypto = (.ok a,k)) : unlogged op r = (.ok a,{ r with crypto := k }) := by
  rw [unlogged,h]

section session

variable {session : SnapshotSession σ} {dirId : Str} {files : FileMap} {ids : Str → Str}
  {I : List Str → σ → Prop} {held : List Str}

/-- The first loop holds every child. -/
theorem holdEntries_pass (hs : Steadfast session dirId files ids I) {f : FixtureCase}
    {entries : List Entry} (hw : WellListed f dirId entries)
    (hlist : ∀ e ∈ listed entries,e.name ∈ files.keys ∧ e.fileId = ids e.name)
    (hfree : ∀ e ∈ listed entries,e.name ∉ held) (m : FileMap) (r : Run σ κ)
    (hI : I held r.world) :
    ∃ m' r' held',holdEntries session m entries r = (.ok m',r') ∧ I held' r'.world ∧
      r'.crypto = r.crypto ∧ held ⊆ held' ∧ ∀ e ∈ listed entries,e.name ∈ held' := by
  induction entries generalizing m r held with
  | nil => exact ⟨m,r,held,rfl,hI,rfl,List.Subset.refl _,by simp [listed]⟩
  | cons e es ih =>
    rw [holdEntries]
    by_cases hd : isDots e.name = true
    · rw [if_pos hd]
      rw [listed_cons_of_dots hd] at hlist hfree ⊢
      exact ih hw.tail hlist hfree m r hI
    · rw [if_neg hd]
      have hl := listed_cons_of_not_dots hd es
      have hnd := hw.nodup
      rw [hl] at hlist hfree ⊢
      rw [hl,List.map_cons,List.nodup_cons] at hnd
      obtain ⟨hname,hid⟩ := hlist e List.mem_cons_self
      obtain ⟨w1,h1,hI1⟩ :=
        hs.holdChild held r.world e.name hI hname (hfree e List.mem_cons_self)
      obtain ⟨w2,h2,hI2⟩ := hs.heldIdentity _ w1 e.name hI1 List.mem_cons_self
      have hfree' : ∀ e' ∈ listed es,e'.name ∉ e.name::held := by
        intro e' he' hm
        rcases List.mem_cons.mp hm with heq | hm
        · exact hnd.1 (List.mem_map.mpr ⟨e',he',heq⟩)
        · exact hfree e' (List.mem_cons_of_mem _ he') hm
      have hlist' : ∀ e' ∈ listed es,e'.name ∈ files.keys ∧ e'.fileId = ids e'.name :=
        fun e' he' => hlist e' (List.mem_cons_of_mem _ he')
      rw [Eff.bind_of_ok (observe_ok.mpr ⟨w1,h1,rfl⟩),Eff.bind_of_ok (observe_ok.mpr ⟨w2,h2,rfl⟩),
        Eff.bind_of_ok (failIf_ok (u := ()).mpr ⟨not_not.mpr hid.symm,rfl⟩)]
      obtain ⟨m',r',held',hrun,hI',hk,hsub,hall⟩ := ih hw.tail hlist' hfree'
        (m.emplace e.name (ids e.name))
        { r with
          world := w2
          log := r.log++[.holdChild e.name (.ok ())]++[.heldIdentity e.name (.ok (ids e.name))] }
        hI2
      refine ⟨m',r',held',hrun,hI',hk,fun n hn => hsub (List.mem_cons_of_mem _ hn),?_⟩
      intro e' he'
      rcases List.mem_cons.mp he' with rfl | he'
      · exact hsub List.mem_cons_self
      · exact hall e' he'

/-- The second loop reads what the files hold. -/
theorem readEntries_pass {b : BCrypt κ} {f : Str → Vector UInt8 32} (hb : b.Computes f)
    (hs : Steadfast session dirId files ids I) (hfiles : Digestible files)
    {l : List (Str × Str)} (hl : l.Pairwise fun p q => p.1 < q.1)
    (hheld : ∀ p ∈ l,p.1 ∈ held ∧ p.1 ∈ files.keys) (bytes : FileMap)
    (hlt : ∀ p ∈ bytes.entries,∀ q ∈ l,p.1 < q.1) (r : Run σ κ) (hI : I held r.world) :
    ∃ bytes' r',readEntries b session bytes l r = (.ok bytes',r') ∧ I held r'.world ∧
      bytes'.entries = bytes.entries++l.map fun p => (p.1,(files.lookup p.1).getD []) := by
  induction l generalizing bytes r with
  | nil => exact ⟨bytes,r,rfl,hI,by simp⟩
  | cons q l ih =>
    obtain ⟨name,id⟩ := q
    obtain ⟨hq,hl⟩ := List.pairwise_cons.mp hl
    obtain ⟨hn,hkey⟩ := hheld _ List.mem_cons_self
    obtain ⟨⟨name',text⟩,hentry,heq⟩ := List.mem_map.mp hkey
    obtain rfl : name = name' := heq.symm
    have htext := OrderedMap.lookup_eq_some_iff.mpr hentry
    have hsize : text.length ≤ 4294967295 := hfiles.sizes _ hentry
    obtain ⟨w1,h1,hI1⟩ := hs.readChild held r.world _ text hI hn htext
    have hent : (bytes.emplace name text).entries = bytes.entries++[(name,text)] :=
      OrderedMap.emplace_entries_of_lt fun p hp => hlt p hp _ List.mem_cons_self
    have hlook : (bytes.emplace name text).lookup name = some text := by
      rw [OrderedMap.lookup_eq_some_iff,hent]
      simp
    have hlt' : ∀ p ∈ (bytes.emplace name text).entries,∀ q ∈ l,p.1 < q.1 :=
      OrderedMap.emplace_entries_lt hlt hq text
    rw [readEntries,Eff.bind_of_ok (observe_ok.mpr ⟨w1,h1,rfl⟩),
      Eff.bind_of_ok (record_ok (u := ()).mpr rfl),Eff.bind_of_ok (mapAt_ok.mpr ⟨hlook,rfl⟩),
      Eff.bind_of_ok (catchStandard_fail_ok.mpr
        (unlogged_pass (standardOnly_ok.mpr (sha256_computes hb hsize _)))),
      Eff.bind_of_ok (record_ok (u := ()).mpr rfl)]
    refine (ih hl (fun p hp => hheld p (List.mem_cons_of_mem _ hp)) _ hlt' _
      (by exact hI1)).imp fun bytes' => Exists.imp fun r' h => ⟨h.1,h.2.1,?_⟩
    rw [h.2.2,hent,List.map_cons,htext,List.append_assoc]
    rfl

/-- The third loop finds every child as it was. -/
theorem recheck_pass (hs : Steadfast session dirId files ids I) {known bytes : FileMap}
    {entries : List Entry}
    (hlist : ∀ e ∈ listed entries,e.name ∈ held ∧ e.fileId = ids e.name ∧
      known.lookup e.name = some e.fileId ∧ ∃ text,files.lookup e.name = some text ∧
        bytes.lookup e.name = some text) (r : Run σ κ) (hI : I held r.world) :
    ∃ r',Eff.forEach (recheckEntry session known bytes) entries r = (.ok (),r') ∧
      I held r'.world := by
  induction entries generalizing r with
  | nil => exact ⟨r,rfl,hI⟩
  | cons e es ih =>
    rw [Eff.forEach]
    by_cases hd : isDots e.name = true
    · rw [listed_cons_of_dots hd] at hlist
      rw [recheckEntry,if_pos hd,Eff.bind_of_ok (Eff.pure_apply () r)]
      exact ih hlist r hI
    · rw [listed_cons_of_not_dots hd] at hlist
      obtain ⟨hheld,hid,hknown,text,htext,hbytes⟩ := hlist e List.mem_cons_self
      obtain ⟨w1,h1,hI1⟩ := hs.heldIdentity held r.world e.name hI hheld
      obtain ⟨w2,h2,hI2⟩ := hs.readChild held w1 e.name text hI1 hheld htext
      rw [← hid] at h1
      have hone : recheckEntry session known bytes e r = (.ok (),{ r with
          world := w2
          log := r.log++[.heldIdentity e.name (.ok e.fileId)]++
            [.readChild e.name (.ok text)] }) := by
        rw [recheckEntry,if_neg hd,Eff.bind_of_ok (mapAt_ok.mpr ⟨hknown,rfl⟩),
          Eff.bind_of_ok (failIf_ok (u := ()).mpr ⟨not_not.mpr rfl,rfl⟩),
          Eff.bind_of_ok (observe_ok.mpr ⟨w1,h1,rfl⟩),
          Eff.bind_of_ok (mapAt_ok.mpr ⟨hknown,rfl⟩),
          Eff.bind_of_ok (failIf_ok (u := ()).mpr ⟨not_not.mpr rfl,rfl⟩),
          Eff.bind_of_ok (observe_ok.mpr ⟨w2,h2,rfl⟩),
          Eff.bind_of_ok (mapAt_ok.mpr ⟨hbytes,rfl⟩)]
        exact failIf_ok.mpr ⟨not_not.mpr rfl,rfl⟩
      rw [Eff.bind_of_ok hone]
      exact ih (fun e' he' => hlist e' (List.mem_cons_of_mem _ he')) _ hI2

theorem Lists.wellListed {f : FixtureCase} {entries : List Entry}
    (h : Lists dirId files ids entries) (hfiles : Digestible files)
    (hknown : ∀ n ∈ files.keys,n ∈ f.latestFiles.keys) (hids : ∀ n ∈ files.keys,ids n ≠ []) :
    WellListed f dirId entries := by
  have hkey : ∀ e ∈ listed entries,e.name ∈ files.keys := fun e he =>
    h.same_names.subset (List.mem_map_of_mem he)
  refine ⟨fun e he => ?_,h.same_names.nodup_iff.mpr files.keys_nodup⟩
  obtain ⟨p,hp,hname⟩ := List.mem_map.mp (hkey e he)
  have hplain := hfiles.names p hp
  rw [hname,not_or,not_or,not_or,Bool.not_eq_true] at hplain
  exact ⟨hplain.1,hplain.2.2.2,h.not_reparse e he,h.regular e he,
    by rw [h.fileId e he]; exact hids _ (hkey e he),h.parentId e he,hknown _ (hkey e he)⟩

/-- Two inventories of the same files give the same names. -/
theorem Lists.names_eq {before after : List Entry} (h : Lists dirId files ids before)
    (h' : Lists dirId files ids after) : names before = names after := by
  rw [names,names]
  have hperm := (List.perm_insertionSort (· ≤ ·) ((listed before).map Entry.name)).trans
    ((h.same_names.trans h'.same_names.symm).trans
      (List.perm_insertionSort (· ≤ ·) ((listed after).map Entry.name)).symm)
  exact hperm.eq_of_pairwise (fun a b _ _ hab hba => le_antisymm hab hba)
    (List.pairwise_insertionSort _ _) (List.pairwise_insertionSort _ _)

/-- The texts read under the names of the files are the files. -/
theorem content_eq {known content : FileMap} (hkeys : ∀ n,n ∈ known.keys ↔ n ∈ files.keys)
    (h : content.entries = known.entries.map fun p => (p.1,(files.lookup p.1).getD [])) :
    content = files := by
  apply OrderedMap.ext_lookup
  intro n
  apply Option.ext
  intro text
  rw [OrderedMap.lookup_eq_some_iff,h,List.mem_map]
  constructor
  · intro hparts
    obtain ⟨p,hp,heq⟩ := hparts
    obtain ⟨rfl,rfl⟩ := Prod.mk.inj heq
    obtain ⟨q,hq,hname⟩ := List.mem_map.mp ((hkeys p.1).mp (List.mem_map_of_mem hp))
    rw [← hname,OrderedMap.lookup_eq_some_iff.mpr hq]
    rfl
  · intro htext
    have hmem := OrderedMap.lookup_eq_some_iff.mp htext
    obtain ⟨p,hp,rfl⟩ := List.mem_map.mp ((hkeys n).mpr (List.mem_map_of_mem hmem))
    exact ⟨p,hp,by rw [htext]; rfl⟩

/-- The map of the held children: the names of the files with their identities. -/
structure Held (known : FileMap) (entries : List Entry) (held : List Str) : Prop where
  entry : ∀ p,p ∈ known.entries ↔ ∃ e ∈ listed entries,p = (e.name,e.fileId)
  held : ∀ e ∈ listed entries,e.name ∈ held

theorem Held.keys {known : FileMap} {before : List Entry} {held : List Str}
    (hk : Held known before held) (h : Lists dirId files ids before) :
    ∀ n,n ∈ known.keys ↔ n ∈ files.keys := by
  intro n
  rw [← h.same_names.mem_iff,OrderedMap.keys,List.mem_map,List.mem_map]
  constructor
  · intro hparts
    obtain ⟨p,hp,rfl⟩ := hparts
    obtain ⟨e,he,rfl⟩ := (hk.entry p).mp hp
    exact ⟨e,he,rfl⟩
  · intro hparts
    obtain ⟨e,he,rfl⟩ := hparts
    exact ⟨_,(hk.entry _).mpr ⟨e,he,rfl⟩,rfl⟩

theorem Held.read {known : FileMap} {before : List Entry} {held : List Str}
    (hk : Held known before held) (h : Lists dirId files ids before) :
    ∀ p ∈ known.entries,p.1 ∈ held ∧ p.1 ∈ files.keys := by
  intro p hp
  obtain ⟨e,he,rfl⟩ := (hk.entry p).mp hp
  exact ⟨hk.held e he,h.same_names.subset (List.mem_map_of_mem he)⟩

/-- A second inventory of the same files lists what is held and read. -/
theorem Held.again {known : FileMap} {before after : List Entry} {held : List Str}
    (hk : Held known before held) (h : Lists dirId files ids before)
    (h' : Lists dirId files ids after) : ∀ e ∈ listed after,e.name ∈ held ∧
      e.fileId = ids e.name ∧ known.lookup e.name = some e.fileId ∧
      ∃ text,files.lookup e.name = some text ∧ files.lookup e.name = some text := by
  intro e he
  have hname : e.name ∈ files.keys := h'.same_names.subset (List.mem_map_of_mem he)
  obtain ⟨e',he',heq⟩ := List.mem_map.mp (h.same_names.symm.subset hname)
  obtain ⟨p,hp,hpname⟩ := List.mem_map.mp hname
  have hid := h'.fileId e he
  have hlook : files.lookup e.name = some p.2 := by
    rw [← hpname]
    exact OrderedMap.lookup_eq_some_iff.mpr hp
  refine ⟨heq ▸ hk.held e' he',hid,?_,p.2,hlook,hlook⟩
  rw [OrderedMap.lookup_eq_some_iff,hk.entry,hid,← heq]
  exact ⟨e',he',by rw [h.fileId e' he']⟩

/-- The comparison of a session that stays as it is comes to a verdict on its files. -/
theorem compareSession_pass {b : BCrypt κ} {f : Str → Vector UInt8 32} (hb : b.Computes f)
    (hs : Steadfast session dirId files ids I) (hfiles : Digestible files) {fixture : FixtureCase}
    (hdir : dirId ≠ []) (hknown : ∀ n ∈ files.keys,n ∈ fixture.latestFiles.keys)
    (hids : ∀ n ∈ files.keys,ids n ≠ []) (r : Run σ κ) (hI : I [] r.world) :
    ∃ r' e,compareSession b (bcryptSnapshotHashProvider b) fixture dirId session r = (.ok (),r') ∧
      r'.evidence = conclude fixture files e ∧ e.observedDigest = setDigest f files := by
  obtain ⟨w1,h1,hI1⟩ := hs.directoryIdentity [] r.world hI
  obtain ⟨before,w2,h2,hI2,hbefore⟩ := hs.inventory [] w1 hI1
  have hwell := hbefore.wellListed (f := fixture) hfiles hknown hids
  have hmem : ∀ e ∈ listed before,e.name ∈ files.keys ∧ e.fileId = ids e.name := fun e he =>
    ⟨hbefore.same_names.subset (List.mem_map_of_mem he),hbefore.fileId e he⟩
  rw [compareSession,Eff.bind_of_ok (observe_ok.mpr ⟨w1,h1,rfl⟩),
    Eff.bind_of_ok (failIf_ok (u := ()).mpr ⟨by simp [hdir],rfl⟩),
    Eff.bind_of_ok (observe_ok.mpr ⟨w2,h2,rfl⟩),Eff.bind_of_ok (record_ok (u := ()).mpr rfl),
    Eff.bind_of_ok (checkEntries_pass hwell _ _)]
  generalize hr : (Run.mk w2 r.crypto _ _ : Run σ κ) = r2
  have hIr : I [] r2.world := by rw [← hr]; exact hI2
  obtain ⟨known,r3,held,h3,hI3,-,-,hheld⟩ := holdEntries_pass hs hwell hmem (by simp) .empty r2 hIr
  have hk : Held known before held := by
    refine ⟨fun p => ?_,hheld⟩
    simpa [OrderedMap.empty] using (holdEntries_ok hwell (by intros; rfl) h3).2 p
  obtain ⟨content,r4,h4,hI4,hcontent⟩ := readEntries_pass hb hs hfiles known.sorted
    (hk.read hbefore) .empty (by simp [OrderedMap.empty]) r3 hI3
  obtain rfl : content = files := content_eq (hk.keys hbefore)
    (by simpa [OrderedMap.empty] using hcontent)
  obtain ⟨after,w5,h5,hI5,hafter⟩ := hs.inventory held r4.world hI4
  have hwell' := hafter.wellListed (f := fixture) hfiles hknown hids
  obtain ⟨w6,h6,hI6⟩ := hs.directoryIdentity held w5 hI5
  rw [Eff.bind_of_ok h3,Eff.bind_of_ok h4,Eff.bind_of_ok (observe_ok.mpr ⟨w5,h5,rfl⟩),
    Eff.bind_of_ok (record_ok (u := ()).mpr rfl),Eff.bind_of_ok (checkEntries_pass hwell' _ _),
    Eff.bind_of_ok (failIf_ok (u := ()).mpr ⟨not_not.mpr (hbefore.names_eq hafter),rfl⟩),
    Eff.bind_of_ok (observe_ok.mpr ⟨w6,h6,rfl⟩),
    Eff.bind_of_ok (failIf_ok (u := ()).mpr ⟨not_not.mpr rfl,rfl⟩)]
  generalize hr' : (Run.mk w6 _ _ _ : Run σ κ) = r6
  have hIr' : I held r6.world := by rw [← hr']; exact hI6
  obtain ⟨r7,h7,-⟩ := recheck_pass hs (hk.again hbefore hafter) r6 hIr'
  obtain ⟨k,h8⟩ := mutableDigest_computes hb hfiles r7.crypto
  have h8 : (bcryptSnapshotHashProvider b).digestMutableSet content r7.crypto =
      (.ok (setDigest f content),k) := standardOnly_ok.mpr h8
  rw [Eff.bind_of_ok h7,Eff.bind_of_ok (catchStandard_fail_ok.mpr
      (hashing_ok.mpr ⟨k,h8,rfl⟩)),
    Eff.bind_of_ok (record_ok (u := ()).mpr rfl)]
  exact ⟨_,_,record_ok.mpr rfl,rfl,rfl⟩

end session

end SoftwareFactory.StageA
