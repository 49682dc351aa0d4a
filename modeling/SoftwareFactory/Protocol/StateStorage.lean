import SoftwareFactory.Orchestrator.StateFile
import SoftwareFactory.Protocol.Session

namespace SoftwareFactory

open Process

variable {τ : Type}

/-- The state file after some events. A state that cannot be written out raises before the
file is opened. -/
def storedAfter (file : Option (List UInt8)) (events : List (Event τ)) : Option (List UInt8) :=
  events.foldl (fun file e => match e with | .save d => d.bytes.or file | _ => file) file

/-- `StateManager.__init__` gets past the state file. -/
def Readable (file : Option (List UInt8)) : Prop := ∀ bs ∈ file,parseFile bs ≠ none

/-- Every state saved among the events was written out. -/
def Written (events : List (Event τ)) : Prop := ∀ d,.save d ∈ events → d.bytes ≠ none

/-- Nothing but the discovery, which comes before the state file is read. -/
def BeforeReading (events : List (Event τ)) : Prop := ∀ e ∈ events,∃ passed,e = .runDiscovery passed

/-- A history of processes on one task and the bytes of its state file. Each process may be
killed after any of its events or in the middle of a save. -/
inductive Disk : List (Event τ) → Option (List UInt8) → Prop
  | fresh : Disk [] none
  | process {past events : List (Event τ)} {file : Option (List UInt8)} (p : Program) (env : Env τ)
      (repo : Repo τ) (before : Disk past file) (hread : Readable file)
      (ht : past++events <+: p.traced env past repo) (hw : Written events) :
      Disk (past++events) (storedAfter file events)
  | torn {past events : List (Event τ)} {file : Option (List UInt8)} {d : StateData}
      {bs : List UInt8} {n : Nat} (p : Program) (env : Env τ) (repo : Repo τ)
      (before : Disk past file) (hread : Readable file)
      (ht : past++events++[.save d] <+: p.traced env past repo) (hw : Written events)
      (hbs : d.bytes = some bs) (hn : n < bs.length) : Disk (past++events) (some (bs.take n))
  | refused {past events : List (Event τ)} {file : Option (List UInt8)} (p : Program)
      (env : Env τ) (repo : Repo τ) (before : Disk past file) (hread : ¬Readable file)
      (ht : past++events <+: p.traced env past repo) (hquiet : BeforeReading events) :
      Disk (past++events) file

/-- The bytes hold the state the events have saved last. -/
def Holds (file : Option (List UInt8)) (t : List (Event τ)) : Prop :=
  file.bind readState = stateFile t ∧ file.isSome = (stateFile t).isSome

theorem Holds.step {file : Option (List UInt8)} {t : List (Event τ)} (h : Holds file t)
    {e : Event τ} (hw : Written [e]) : Holds (storedAfter file [e]) (t++[e]) := by
  cases he : e.isSave with
  | false =>
    have hfile : storedAfter file [e] = file := by
      cases e <;> simp_all [storedAfter,Event.isSave]
    rw [hfile,Holds,stateFile_other t e he]
    exact h
  | true =>
    cases e with
    | save d =>
      obtain ⟨bs,hbs⟩ := Option.ne_none_iff_exists'.mp (hw d (by simp))
      have hfile : storedAfter file [(Event.save d : Event τ)] = some bs := by
        simp [storedAfter,hbs]
      rw [hfile,Holds,stateFile_save]
      exact ⟨StateData.readState_bytes hbs,rfl⟩
    | _ => exact absurd he (by simp [Event.isSave])

theorem Holds.run {file : Option (List UInt8)} {t : List (Event τ)} (h : Holds file t)
    {events : List (Event τ)} (hw : Written events) :
    Holds (storedAfter file events) (t++events) := by
  induction events generalizing file t with
  | nil =>
    rw [List.append_nil]
    exact h
  | cons e events ih =>
    have hone := h.step (e := e) fun d hd => hw d (by
      rw [List.mem_singleton.mp hd]
      exact List.mem_cons_self)
    have hrest := ih hone fun d hd => hw d (List.mem_cons_of_mem e hd)
    rw [List.append_assoc,List.singleton_append] at hrest
    exact hrest

/-- A file that holds the state saved last is read. -/
theorem Holds.readable {file : Option (List UInt8)} {t : List (Event τ)} (h : Holds file t) :
    Readable file := by
  intro bs hbs hparse
  obtain rfl : file = some bs := hbs
  have hread : readState bs = none := by rw [readState,hparse,Option.bind_none]
  have hstate : none = stateFile t := hread.symm.trans h.1
  have hsome := h.2
  rw [← hstate] at hsome
  cases hsome

/-- A broken-off save is noticed by the next process. -/
theorem torn_not_readable {d : StateData} {bs : List UInt8} {n : Nat} (hbs : d.bytes = some bs)
    (hn : n < bs.length) : ¬Readable (some (bs.take n)) := by
  intro h
  exact h (bs.take n) rfl (StateData.parseFile_torn hbs hn)

/-- Histories with broken-off saves are sessions, and a process that gets past the state file
starts from the state saved last. -/
theorem disk_restores {t : List (Event τ)} {file : Option (List UInt8)} (h : Disk t file) :
    Session anyProcess t ∧ (Readable file → Holds file t) := by
  induction h with
  | fresh => exact ⟨.nil,fun _ => ⟨rfl,rfl⟩⟩
  | @process past events file p env repo _ hread ht hw ih =>
    exact ⟨.process p env repo ih.1 (List.prefix_append past events) ht trivial,
      fun _ => (ih.2 hread).run hw⟩
  | @torn past events file d bs n p env repo _ hread ht hw hbs hn ih =>
    have hkilled := (List.prefix_append (past++events) [.save d]).trans ht
    exact ⟨.process p env repo ih.1 (List.prefix_append past events) hkilled trivial,
      fun hr => absurd hr (torn_not_readable hbs hn)⟩
  | @refused past events file p env repo _ hread ht hquiet ih =>
    exact ⟨.process p env repo ih.1 (List.prefix_append past events) ht trivial,
      fun hr => absurd hr hread⟩

/-- A new task, killed after its third save. -/
def startedTask : List (Event Nat) := (Program.traced .pipeline calmEnv [] freshRepo).take 4

/-- The same task after a second process, which is killed in the middle of its second save. -/
def resumedTask : List (Event Nat) :=
  (Program.traced .pipeline calmEnv startedTask freshRepo).take 6

theorem written_of_all {events : List (Event τ)}
    (h : (events.all fun e => !e.isSave || (stateFile [e]).any fun d => d.bytes.isSome) = true) :
    Written events := by
  intro d hd hnone
  have hone := List.all_eq_true.mp h (.save d) hd
  simp [Event.isSave,stateFile,hnone] at hone

theorem written_started : Written startedTask := by
  apply written_of_all
  rw [startedTask,Program.traced]
  decide +kernel

theorem written_resumed : Written resumedTask := by
  apply written_of_all
  rw [resumedTask,startedTask,Program.traced,Program.traced]
  decide +kernel

theorem resumed_extends : ∃ later,startedTask++later = resumedTask ∧ Written later := by
  have hlonger : 4 ≤ resumedTask.length := by
    rw [resumedTask,startedTask,Program.traced,Program.traced]
    decide +kernel
  obtain ⟨later,hlater⟩ : startedTask <+: resumedTask := by
    apply List.prefix_of_prefix_length_le (traced_extends .pipeline calmEnv startedTask freshRepo)
    · exact List.take_prefix 6 _
    · exact (List.length_take_le 4 _).trans hlonger
  refine ⟨later,hlater,fun d hd => written_resumed d ?_⟩
  rw [← hlater]
  exact List.mem_append_right _ hd

/-- What the second process saves next. -/
theorem resumed_saving : ∃ d bs,
    resumedTask++[.save d] <+: Program.traced .pipeline calmEnv startedTask freshRepo ∧
    d.bytes = some bs := by
  have hsave : ((Program.traced .pipeline calmEnv startedTask freshRepo)[6]?.any fun e =>
      e.isSave && (stateFile [e]).any fun d => d.bytes.isSome) = true := by
    rw [startedTask,Program.traced,Program.traced]
    decide +kernel
  have htake : (Program.traced .pipeline calmEnv startedTask freshRepo).take 7 =
      resumedTask++(Program.traced .pipeline calmEnv startedTask freshRepo)[6]?.toList :=
    List.take_add_one
  have hseven := List.take_prefix 7 (Program.traced .pipeline calmEnv startedTask freshRepo)
  rw [htake] at hseven
  cases he : (Program.traced .pipeline calmEnv startedTask freshRepo)[6]? with
  | none =>
    rw [he] at hsave
    cases hsave
  | some e =>
    rw [he] at hsave hseven
    cases e with
    | save d =>
      obtain ⟨bs,hbs⟩ := Option.isSome_iff_exists.mp (by simpa [Event.isSave,stateFile] using hsave)
      exact ⟨d,bs,hseven,hbs⟩
    | _ => cases hsave

/-- What a third process does first. -/
theorem resumed_discovery : resumedTask++[.runDiscovery true] <+:
    Program.traced .pipeline calmEnv resumedTask freshRepo := by
  have hfirst : ((Program.traced .pipeline calmEnv resumedTask freshRepo)[resumedTask.length]?.any
      fun e => match e with | .runDiscovery passed => passed | _ => false) = true := by
    rw [resumedTask,startedTask,Program.traced,Program.traced,Program.traced]
    decide +kernel
  have hpast := List.prefix_iff_eq_take.mp
    (traced_extends .pipeline calmEnv resumedTask freshRepo)
  generalize Program.traced .pipeline calmEnv resumedTask freshRepo = t at *
  have hnext := List.take_prefix (resumedTask.length+1) t
  rw [List.take_add_one,← hpast] at hnext
  cases he : t[resumedTask.length]? with
  | none =>
    rw [he] at hfirst
    cases hfirst
  | some e =>
    rw [he] at hfirst hnext
    cases e with
    | runDiscovery passed =>
      obtain rfl : passed = true := hfirst
      exact hnext
    | _ => cases hfirst

/-- The second process reads what the first one saved. After its own save has broken off the
file is refused by a third, however much of it was written. -/
theorem disk_restores_broken : ∃ saved d bs,stateFile startedTask = some saved ∧
    (storedAfter none startedTask).bind readState = some saved ∧
    resumedTask++[.save d] <+: Program.traced .pipeline calmEnv startedTask freshRepo ∧
    d.bytes = some bs ∧ bs ≠ [] ∧ ∀ n < bs.length,
      Disk (resumedTask++[.runDiscovery true]) (some (bs.take n)) ∧
      Session anyProcess (resumedTask++[.runDiscovery true]) ∧
      ¬Readable (some (bs.take n)) := by
  have hfirst : Disk startedTask (storedAfter none startedTask) :=
    .process .pipeline calmEnv freshRepo .fresh (by simp [Readable]) (List.take_prefix _ _)
      written_started
  have hread : Readable (storedAfter none startedTask) :=
    (Holds.run (t := []) ⟨rfl,rfl⟩ written_started).readable
  have hholds := (disk_restores hfirst).2 hread
  obtain ⟨saved,hsaved⟩ : ∃ saved,stateFile startedTask = some saved := by
    rw [← Option.isSome_iff_exists,startedTask,Program.traced]
    decide +kernel
  obtain ⟨later,hlater,hwritten⟩ := resumed_extends
  obtain ⟨d,bs,hbroken,hbs⟩ := resumed_saving
  refine ⟨saved,d,bs,hsaved,by rw [hholds.1,hsaved],hbroken,hbs,StateData.bytes_ne_nil hbs,?_⟩
  intro n hn
  have htorn : Disk resumedTask (some (bs.take n)) := by
    rw [← hlater] at hbroken ⊢
    exact .torn .pipeline calmEnv freshRepo hfirst hread hbroken hwritten hbs hn
  have htornRead := torn_not_readable hbs hn
  have hquiet : BeforeReading [(Event.runDiscovery true : Event Nat)] := by
    intro e he
    exact ⟨true,List.mem_singleton.mp he⟩
  have hrefused : Disk (resumedTask++[.runDiscovery true]) (some (bs.take n)) :=
    .refused .pipeline calmEnv freshRepo htorn htornRead resumed_discovery hquiet
  exact ⟨hrefused,(disk_restores hrefused).1,htornRead⟩

end SoftwareFactory
