import SoftwareFactory.Lib.Frame
import SoftwareFactory.StageA.SnapshotRules

namespace SoftwareFactory.StageA

open Effect

variable {σ κ τ α β : Type}

/-- The calls of a session that hold no new child stay within the frame. -/
structure Framed (F : Frame σ) (s : SnapshotSession σ) : Prop where
  directoryIdentity : ∀ w,F.Bounds s.directoryIdentity w
  inventory : ∀ w,F.Bounds s.inventory w
  heldIdentity : ∀ name w,F.Bounds (s.heldIdentity name) w
  readChild : ∀ name w,F.Bounds (s.readChild name) w

variable {F : Frame σ} {session : SnapshotSession σ} {r : Run σ κ}

/-- The frame of a run in which the outside stays within `F`. -/
def onWorld (F : Frame σ) : Frame (Run σ κ) := F.comap Run.world

theorem onWorld_observe {op : Eff σ Thrown α} {o : Except Thrown α → Observation}
    (h : F.Bounds op r.world) : (onWorld F).Bounds (observe op o) r := h

theorem onWorld_idle {m : Eff (Run σ κ) Thrown α} (h : (m r).2.world = r.world) :
    (onWorld F).Bounds m r := by
  show F.rel r.world (m r).2.world
  rw [h]
  exact F.refl _

@[simp] theorem mapAt_state {m : FileMap} {key : Str} {s : τ} : (mapAt m key s).2 = s := by
  rw [mapAt]
  cases m.lookup key <;> rfl

theorem checkEntriesFrom_state {f : FixtureCase} {dirId : Str} {step : String}
    {seen : List Str} {entries : List Entry} {s : τ} :
    (checkEntriesFrom f dirId step seen entries s).2 = s := by
  induction entries generalizing seen with
  | nil => rfl
  | cons e entries ih =>
    rw [checkEntriesFrom_cons]
    split_ifs
    · exact ih
    · rfl
    · rfl
    · rfl
    · rfl
    · exact ih

theorem catchStandard_fail_world {m : Eff (Run σ κ) Thrown α} {kind : ErrorKind} {object : Str}
    {profile step : String} (h : (m r).2.world = r.world) :
    (catchStandard m (fail kind object profile step) r).2.world = r.world := by
  rw [catchStandard]
  rcases hm : m r with ⟨t | a,r'⟩
  · rw [Eff.catching_error hm]
    rw [hm] at h
    cases t with
    | observation f => exact h
    | standard e => exact h
    | nonstandard => exact h
  · rw [Eff.catching_ok hm]
    rw [hm] at h
    exact h

theorem onWorld_record (f : Evidence → Evidence) : (onWorld F).Bounds (record f) r :=
  onWorld_idle rfl

theorem onWorld_failIf {p : Prop} [Decidable p] {kind : ErrorKind} {object : Str}
    {profile step message : String} :
    (onWorld F).Bounds (failIf p kind object profile step message) r := .unchanged failIf_state

theorem onWorld_readEntries (hs : Framed F session) {b : BCrypt κ} {bytes : FileMap}
    {ids : List (Str × Str)} : (onWorld F).Bounds (readEntries b session bytes ids) r := by
  induction ids generalizing bytes r with
  | nil => exact .pure _
  | cons id ids ih =>
    rw [readEntries]
    apply Frame.Bounds.bind (onWorld_observe (hs.readChild _ _))
    intro text r1 _
    apply Frame.Bounds.bind (onWorld_record _)
    intro _ r2 _
    apply Frame.Bounds.bind (.unchanged mapAt_state)
    intro content r3 _
    apply Frame.Bounds.bind (onWorld_idle (catchStandard_fail_world rfl))
    intro hash r4 _
    apply Frame.Bounds.bind (onWorld_record _)
    intro _ r5 _
    exact ih

theorem onWorld_recheckEntry (hs : Framed F session) {ids bytes : FileMap} {entry : Entry} :
    (onWorld F).Bounds (recheckEntry session ids bytes entry) r := by
  rw [recheckEntry]
  split_ifs
  · exact .pure _
  · apply Frame.Bounds.bind (.unchanged mapAt_state)
    intro id r1 _
    apply Frame.Bounds.bind onWorld_failIf
    intro _ r2 _
    apply Frame.Bounds.bind (onWorld_observe (hs.heldIdentity _ _))
    intro held r3 _
    apply Frame.Bounds.bind (.unchanged mapAt_state)
    intro id r4 _
    apply Frame.Bounds.bind onWorld_failIf
    intro _ r5 _
    apply Frame.Bounds.bind (onWorld_observe (hs.readChild _ _))
    intro text r6 _
    apply Frame.Bounds.bind (.unchanged mapAt_state)
    intro content r7 _
    exact onWorld_failIf

/-- What becomes of the outside in a comparison: it stays within the frame up to the loop
that holds the children, and again from there on. -/
theorem compareSession_rel {T : σ → σ → Prop} (hs : Framed F session) (hT : F.Absorbs T)
    (hhold : ∀ entries (r : Run σ κ),((listed entries).map Entry.name).Nodup →
      T r.world (holdEntries session .empty entries r).2.world)
    (b : BCrypt κ) (provider : SnapshotHashProvider κ) (fixture : FixtureCase)
    (expectedDirectoryId : Str) (r : Run σ κ) :
    T r.world (compareSession b provider fixture expectedDirectoryId session r).2.world := by
  obtain ⟨T',hT'⟩ : ∃ T' : Run σ κ → Run σ κ → Prop,T' = fun r r' => T r.world r'.world :=
    ⟨_,rfl⟩
  have hall : (onWorld F).Absorbs T' := by
    rw [hT']
    exact hT.comap
  have hloop : ∀ entries (r : Run σ κ),((listed entries).map Entry.name).Nodup →
      T' r (holdEntries session .empty entries r).2 := by
    rw [hT']
    exact hhold
  suffices h : T' r (compareSession b provider fixture expectedDirectoryId session r).2 by
    rw [hT'] at h
    exact h
  rw [compareSession]
  apply Frame.Bounds.bind_before hall (onWorld_observe (hs.directoryIdentity _))
  intro dirId r1 _
  apply Frame.Bounds.bind_before hall onWorld_failIf
  intro _ r2 _
  apply Frame.Bounds.bind_before hall (onWorld_observe (hs.inventory _))
  intro listing r3 _
  apply Frame.Bounds.bind_before hall (onWorld_record _)
  intro _ r4 _
  apply Frame.Bounds.bind_before hall (.unchanged checkEntriesFrom_state)
  intro _ r5 hchecked
  have hdistinct := (checkEntries_ok hchecked).2.nodup
  apply Frame.Bounds.bind_after hall (hloop listing r5 hdistinct)
  intro ids r6 _
  apply Frame.Bounds.bind (onWorld_readEntries hs)
  intro bytes r7 _
  apply Frame.Bounds.bind (onWorld_observe (hs.inventory _))
  intro final r8 _
  apply Frame.Bounds.bind (onWorld_record _)
  intro _ r9 _
  apply Frame.Bounds.bind (.unchanged checkEntriesFrom_state)
  intro _ r10 _
  apply Frame.Bounds.bind onWorld_failIf
  intro _ r11 _
  apply Frame.Bounds.bind (onWorld_observe (hs.directoryIdentity _))
  intro finalId r12 _
  apply Frame.Bounds.bind onWorld_failIf
  intro _ r13 _
  apply Frame.Bounds.bind (.forEach fun _ _ _ => onWorld_recheckEntry hs)
  intro _ r14 _
  apply Frame.Bounds.bind (onWorld_idle (catchStandard_fail_world rfl))
  intro digest r15 _
  apply Frame.Bounds.bind (onWorld_record _)
  intro _ r16 _
  exact onWorld_record _

end SoftwareFactory.StageA
