import SoftwareFactory.StageA.MutableDigest
import SoftwareFactory.StageA.SidText

namespace SoftwareFactory.StageA

open Effect

variable {κ : Type} {b : BCrypt κ} {f : Str → Vector UInt8 32}

/-- The holes of the P10 template. -/
inductive Slot where
  | writerSid
  | controllerSid
  | brokerSid
  | brokerHash
  | controllerHash
  | writerHash
  | captureHash
  deriving DecidableEq

def Slot.text : Slot → String
  | .writerSid => "<PENDING_G2_A1_SID>"
  | .controllerSid => "<PENDING_G2_A2_SID>"
  | .brokerSid => "<PENDING_G2_A3_SID>"
  | .brokerHash => "<PENDING_G1_BROKER_SHA256>"
  | .controllerHash => "<PENDING_G1_CONTROLLER_SHA256>"
  | .writerHash => "<PENDING_G1_WRITER_SHA256>"
  | .captureHash => "<PENDING_G1_CAPTURE_SHA256>"

def Slot.key (slot : Slot) : Str := slot.text

def slotValue (sids : SidSet) (hashes : P10BuildHashes) : Slot → Str
  | .writerSid => sids.writer
  | .controllerSid => sids.controller
  | .brokerSid => sids.broker
  | .brokerHash => hashes.broker
  | .controllerHash => hashes.controller
  | .writerHash => hashes.writer
  | .captureHash => hashes.capture

/-- The stretches of the template, each with the slot behind it. -/
def p10Pieces : List (Str × Slot) :=
  [("\x7b\"schema_version\":1,\"run_id\":\"260926_A\","++
    "\"namespace_id\":\"s1pf-260926-a\","++
    "\"repository_id\":\"s1pf-repo-260926-a\","++
    "\"task_id\":\"s1pf-task-260926-a-01\","++
    "\"broker_path\":\"C:\\\\S1PF_260926_A\\\\bin\\\\broker.exe\","++
    "\"controller_path\":\"C:\\\\S1PF_260926_A\\\\bin\\\\controller.exe\","++
    "\"writer_path\":\"C:\\\\S1PF_260926_A\\\\bin\\\\writer.exe\","++
    "\"capture_path\":\"C:\\\\S1PF_260926_A\\\\bin\\\\native_capture.exe\","++
    "\"pipe\":\"\\\\\\\\.\\\\pipe\\\\S1PF-broker-260926-A\","++
    "\"broker_service\":\"S1PF_Broker_260926_A\","++
    "\"controller_service\":\"S1PF_Controller_260926_A\","++
    "\"marker\":\"S1PF-260926-A-STAGE-A-V1\","++"\"a1_sid\":\"",.writerSid),
   (",\"a2_sid\":\"",.controllerSid),
   (",\"a3_sid\":\"",.brokerSid),
   (",\"broker_sha256\":\"",.brokerHash),
   (",\"controller_sha256\":\"",.controllerHash),
   (",\"writer_sha256\":\"",.writerHash),
   (",\"capture_sha256\":\"",.captureHash)]

/-- The digests that stand behind the slots. -/
def p10Digests (f : Str → Vector UInt8 32) : Str :=
  let digest (i : Nat) (get : FixtureCase → Str) : Str :=
    ((frozenCases.map (digested f))[i]?.map get).getD []
  ",\"active_old_digest\":\""++digest 0 FixtureCase.oldDigest++
    "\",\"active_latest_digest\":\""++digest 0 FixtureCase.latestDigest++
    "\",\"terminal_old_digest\":\""++digest 1 FixtureCase.oldDigest++
    "\",\"terminal_latest_digest\":\""++digest 1 FixtureCase.latestDigest++"\"\x7d"

/-- The template with a text in every slot. -/
def p10With (f : Str → Vector UInt8 32) (value : Slot → Str) : Str :=
  Form.fill '"' value p10Pieces (p10Digests f)

theorem caseDigest_computes (hb : b.Computes f) (i : Nat) (digest : FixtureCase → Str) (k : κ) :
    ∃ k',caseDigest b i digest k =
      (.ok (((frozenCases.map (digested f))[i]?.map digest).getD []),k') := by
  obtain ⟨k',h⟩ := fixtureCases_computes hb k
  rw [caseDigest,Eff.bind_of_ok h]
  exact ⟨k',rfl⟩

/-- The template, its slots marked with their keys. -/
theorem p10Template_computes (hb : b.Computes f) (k : κ) :
    ∃ k',p10Template b k = (.ok (p10With f Slot.key),k') := by
  obtain ⟨k1,h1⟩ := caseDigest_computes hb 0 FixtureCase.oldDigest k
  obtain ⟨k2,h2⟩ := caseDigest_computes hb 0 FixtureCase.latestDigest k1
  obtain ⟨k3,h3⟩ := caseDigest_computes hb 1 FixtureCase.oldDigest k2
  obtain ⟨k4,h4⟩ := caseDigest_computes hb 1 FixtureCase.latestDigest k3
  rw [p10Template,Eff.bind_of_ok h1,Eff.bind_of_ok h2,Eff.bind_of_ok h3,Eff.bind_of_ok h4]
  refine ⟨k4,congrArg (fun t => (Except.ok t,k4)) ?_⟩
  unfold p10With p10Digests
  simp only [Form.fill_append]
  refine congrArg (fun t : Str => t++_++_++_++_++_++_++_++_) ?_
  unfold p10Pieces Form.fill
  simp only [List.append_assoc,List.append_cancel_left_eq]
  repeat rw [String.toList_ofList]
  decide +kernel

/-- What can be rendered. -/
structure P10Input (sids : SidSet) (hashes : P10BuildHashes) : Prop where
  sidTexts : ∀ s ∈ [sids.writer,sids.controller,sids.broker],SidText s
  distinct : [sids.writer,sids.controller,sids.broker].Nodup
  digests : ∀ h ∈ [hashes.broker,hashes.controller,hashes.writer,hashes.capture],HexDigest h

/-- The signs that open a slot's key and close its value. -/
def Marked (s : Str) : Prop := '<' ∈ s ∨ '"' ∈ s

theorem SidText.not_marked {s : Str} (h : SidText s) : ¬ Marked s := by
  intro hmarked
  rcases hmarked with hmarked | hmarked
  · have hsign := h.mem hmarked
    rw [IsDigit] at hsign
    exact absurd hsign (by decide)
  · have hsign := h.mem hmarked
    rw [IsDigit] at hsign
    exact absurd hsign (by decide)

theorem HexDigest.not_marked {s : Str} (h : HexDigest s) : ¬ Marked s := by
  have hdigit (c : Char) (hc : isHexDigit c = false) : c ∉ s := by
    intro hmem
    have hall := hex64_iff.mpr h
    rw [hex64,Bool.and_eq_true,List.all_eq_true] at hall
    rw [hall.2 c hmem] at hc
    cases hc
  intro hmarked
  rcases hmarked with hmarked | hmarked
  · exact hdigit '<' (by decide) hmarked
  · exact hdigit '"' (by decide) hmarked

theorem slotValue_not_marked {sids : SidSet} {hashes : P10BuildHashes}
    (h : P10Input sids hashes) (slot : Slot) : ¬ Marked (slotValue sids hashes slot) := by
  cases slot with
  | writerSid => exact (h.sidTexts sids.writer (by simp)).not_marked
  | controllerSid => exact (h.sidTexts sids.controller (by simp)).not_marked
  | brokerSid => exact (h.sidTexts sids.broker (by simp)).not_marked
  | brokerHash => exact (h.digests hashes.broker (by simp)).not_marked
  | controllerHash => exact (h.digests hashes.controller (by simp)).not_marked
  | writerHash => exact (h.digests hashes.writer (by simp)).not_marked
  | captureHash => exact (h.digests hashes.capture (by simp)).not_marked

theorem slot_keys : Form.Keys '<' '>' Slot.key where
  shape slot := by
    refine ⟨(slot.key.drop 1).dropLast,?_⟩
    cases slot <;> decide +kernel
  inj a b h := by
    have htext : a.text = b.text := String.toList_inj.mp h
    cases a <;> cases b <;> first | rfl | exact absurd htext (by decide)
  ne := by decide

theorem pieces_free : ∀ p ∈ p10Pieces,'<' ∉ p.1 := by
  unfold p10Pieces
  repeat rw [String.toList_ofList]
  decide +kernel

/-- What stands for a digest is one, or nothing. -/
theorem digest_cases (i : Nat) (get : FixtureCase → Str)
    (hget : ∀ c,∃ files,get (digested f c) = setDigest f files) :
    ((frozenCases.map (digested f))[i]?.map get).getD [] = [] ∨
      ∃ files,((frozenCases.map (digested f))[i]?.map get).getD [] = setDigest f files := by
  rw [List.getElem?_map]
  cases frozenCases[i]? with
  | none => exact .inl rfl
  | some c => exact .inr (hget c)

theorem oldDigest_cases (i : Nat) :
    ((frozenCases.map (digested f))[i]?.map FixtureCase.oldDigest).getD [] = [] ∨
      ∃ files,((frozenCases.map (digested f))[i]?.map FixtureCase.oldDigest).getD [] =
        setDigest f files :=
  digest_cases i FixtureCase.oldDigest fun c => ⟨c.oldFiles,rfl⟩

theorem latestDigest_cases (i : Nat) :
    ((frozenCases.map (digested f))[i]?.map FixtureCase.latestDigest).getD [] = [] ∨
      ∃ files,((frozenCases.map (digested f))[i]?.map FixtureCase.latestDigest).getD [] =
        setDigest f files :=
  digest_cases i FixtureCase.latestDigest fun c => ⟨c.latestFiles,rfl⟩

theorem digest_free {d : Str} (h : d = [] ∨ ∃ files,d = setDigest f files) : '<' ∉ d := by
  rcases h with rfl | ⟨files,rfl⟩
  · exact List.not_mem_nil
  · intro hmem
    exact absurd (isHexDigit_hexText hmem) (by decide)

theorem digest_length {d : Str} (h : d = [] ∨ ∃ files,d = setDigest f files) :
    d.length ≤ 64 := by
  rcases h with rfl | ⟨files,rfl⟩
  · exact Nat.zero_le _
  · rw [setDigest,length_hexText,Vector.length_toList]

theorem digests_free (f : Str → Vector UInt8 32) : '<' ∉ p10Digests f := by
  have hold (i : Nat) := digest_free (oldDigest_cases (f := f) i)
  have hlatest (i : Nat) := digest_free (latestDigest_cases (f := f) i)
  have htexts : ∀ t ∈ [",\"active_old_digest\":\"","\",\"active_latest_digest\":\"",
      "\",\"terminal_old_digest\":\"","\",\"terminal_latest_digest\":\"","\"\x7d"],
      '<' ∉ t.toList := by decide +kernel
  unfold p10Digests
  simp only [List.mem_append,not_or]
  refine ⟨⟨⟨⟨⟨⟨⟨⟨?_,hold 0⟩,?_⟩,hlatest 0⟩,?_⟩,hold 1⟩,?_⟩,hlatest 1⟩,?_⟩
  · exact htexts _ (by simp)
  · exact htexts _ (by simp)
  · exact htexts _ (by simp)
  · exact htexts _ (by simp)
  · exact htexts _ (by simp)

/-- A bound on the template when each slot has a text of at most `n` signs. -/
theorem length_p10With_le {value : Slot → Str} {n : Nat} (h : ∀ slot,(value slot).length ≤ n) :
    (p10With f value).length ≤ 2000+7*n := by
  have hold (i : Nat) := digest_length (oldDigest_cases (f := f) i)
  have hlatest (i : Nat) := digest_length (latestDigest_cases (f := f) i)
  have hdigests : (p10Digests f).length ≤ 400 := by
    have hold0 := hold 0
    have hold1 := hold 1
    have hlatest0 := hlatest 0
    have hlatest1 := hlatest 1
    unfold p10Digests
    repeat rw [String.toList_ofList]
    simp only [List.length_append,List.length_cons,List.length_nil]
    omega
  have h1 := h .writerSid
  have h2 := h .controllerSid
  have h3 := h .brokerSid
  have h4 := h .brokerHash
  have h5 := h .controllerHash
  have h6 := h .writerHash
  have h7 := h .captureHash
  unfold p10With p10Pieces Form.fill
  simp only [Form.fill]
  repeat rw [String.toList_ofList]
  simp only [List.length_append,List.length_cons,List.length_nil]
  omega

section replace

variable {key value before after : Str}

theorem cutAt_none (h : ¬ key <:+: after) : cutAt key after = none := by
  induction after with
  | nil =>
    rw [cutAt,if_neg]
    intro heq
    subst heq
    exact h (List.nil_infix)
  | cons c cs ih =>
    rw [List.infix_cons_iff,not_or] at h
    rw [cutAt,if_neg h.1,ih h.2]
    rfl

/-- The first `<` opens the key. -/
theorem cutAt_found (hkey : ∃ k,key = '<'::k) (hbefore : '<' ∉ before) :
    cutAt key (before++(key++after)) = some (before,after) := by
  obtain ⟨k,rfl⟩ := hkey
  induction before with
  | nil =>
    have hlead : '<'::k <+: '<'::k++after := List.prefix_append _ _
    rw [List.nil_append,List.cons_append,cutAt,← List.cons_append,if_pos hlead,List.drop_left]
  | cons c cs ih =>
    rw [List.mem_cons,not_or] at hbefore
    have hnot : ¬ '<'::k <+: c::(cs++('<'::k++after)) :=
      fun h => hbefore.1 (List.cons_prefix_cons.mp h).1
    rw [List.cons_append,cutAt,if_neg hnot,ih hbefore.2]
    rfl

theorem replaceOne_found (hkey : ∃ k,key = '<'::k) (hbefore : '<' ∉ before)
    (hafter : ¬ key <:+: after) :
    replaceOne key value (before++(key++after)) = .ok (before++(value++after)) := by
  rw [replaceOne,cutAt_found hkey hbefore]
  simp [cutAt_none hafter]

/-- A step of the rendering. -/
def fillSlot (sids : SidSet) (hashes : P10BuildHashes) (out : Str) (slot : Slot) :
    Except StdException Str :=
  replaceOne slot.key (slotValue sids hashes slot) out

/-- Slots are filled from left to right: what stands before the next is free of keys, and the
keys behind it are others. -/
theorem fillSlots_ok {sids : SidSet} {hashes : P10BuildHashes} (h : P10Input sids hashes)
    {ps : List (Str × Slot)} {last : Str} (hbefore : '<' ∉ before) (htexts : ∀ p ∈ ps,'<' ∉ p.1)
    (hlast : '<' ∉ last) (hslots : (ps.map Prod.snd).Nodup) :
    (ps.map Prod.snd).foldlM (fillSlot sids hashes) (before++Form.fill '"' Slot.key ps last) =
      .ok (before++Form.fill '"' (slotValue sids hashes) ps last) := by
  induction ps generalizing before with
  | nil => rfl
  | cons p ps ih =>
    obtain ⟨text,slot⟩ := p
    rw [List.map_cons,List.nodup_cons] at hslots
    obtain ⟨htext,htexts⟩ := List.forall_mem_cons.mp htexts
    have hopen : '<' ∉ before++text := by
      rw [List.mem_append,not_or]
      exact ⟨hbefore,htext⟩
    have hvalue : '<' ∉ slotValue sids hashes slot :=
      fun hmem => slotValue_not_marked h slot (.inl hmem)
    have hkey : ∃ k,slot.key = '<'::k := by
      obtain ⟨body,hbody,-⟩ := slot_keys.shape slot
      exact ⟨_,hbody⟩
    have hothers : ¬ slot.key <:+: '"'::Form.fill '"' Slot.key ps last := by
      have hrest : ¬ slot.key <:+: Form.fill '"' Slot.key ps last :=
        slot_keys.not_infix_fill (by decide) htexts hlast
          (fun q hq heq => hslots.1 (List.mem_map.mpr ⟨q,hq,heq.symm⟩))
      obtain ⟨k,hk⟩ := hkey
      intro hin
      rw [hk] at hin hrest
      exact hrest (Form.infix_of_free (x := ['"']) (by decide) hin)
    have hstep : fillSlot sids hashes (before++Form.fill '"' Slot.key ((text,slot)::ps) last) slot =
        .ok (before++text++slotValue sids hashes slot++['"']++Form.fill '"' Slot.key ps last) := by
      have hone : fillSlot sids hashes _ slot = _ := replaceOne_found hkey hopen hothers
      simpa [Form.fill] using hone
    have hfree : '<' ∉ before++text++slotValue sids hashes slot++['"'] := by
      rw [List.mem_append,List.mem_append,not_or,not_or]
      exact ⟨⟨hopen,hvalue⟩,by decide⟩
    rw [List.map_cons,List.foldlM_cons,hstep]
    change (ps.map Prod.snd).foldlM (fillSlot sids hashes) _ = _
    rw [ih hfree htexts hslots.2]
    simp [Form.fill]

end replace

theorem renderP10Slots_eq (sids : SidSet) (hashes : P10BuildHashes) (template : Str) :
    renderP10Slots sids hashes template =
      (p10Pieces.map Prod.snd).foldlM (fillSlot sids hashes) template := by
  simp only [p10Pieces,List.map_cons,List.map_nil,List.foldlM_cons,List.foldlM_nil,bind_pure]
  rfl

theorem p10Input_iff {sids : SidSet} {hashes : P10BuildHashes} : P10Input sids hashes ↔
    (!sid sids.writer || !sid sids.controller || !sid sids.broker ||
      sids.writer == sids.controller || sids.writer == sids.broker ||
      sids.controller == sids.broker) = false ∧
    (!hex64 hashes.broker || !hex64 hashes.controller || !hex64 hashes.writer ||
      !hex64 hashes.capture) = false := by
  simp only [Bool.or_eq_false_iff,Bool.not_eq_false',sid_iff,hex64_iff,beq_eq_false_iff_ne]
  constructor
  · intro h
    obtain ⟨hsids,hdistinct,hhashes⟩ := h
    simp only [List.forall_mem_cons] at hsids hhashes
    simp only [List.nodup_cons,List.mem_cons,not_or] at hdistinct
    obtain ⟨hw,hc,hbr,-⟩ := hsids
    obtain ⟨hb,hctl,hwr,hcap,-⟩ := hhashes
    exact ⟨⟨⟨⟨⟨⟨hw,hc⟩,hbr⟩,hdistinct.1.1⟩,hdistinct.1.2.1⟩,hdistinct.2.1.1⟩,
      ⟨⟨hb,hctl⟩,hwr⟩,hcap⟩
  · intro h
    obtain ⟨⟨⟨⟨⟨⟨hw,hc⟩,hbr⟩,hwc⟩,hwb⟩,hcb⟩,⟨⟨hb,hctl⟩,hwr⟩,hcap⟩ := h
    exact ⟨by simp [hw,hc,hbr],by simp [hwc,hwb,hcb],by simp [hb,hctl,hwr,hcap]⟩

section render

variable {sids : SidSet} {hashes : P10BuildHashes}

theorem renderP10_computes (hb : b.Computes f) (h : P10Input sids hashes) (k : κ) :
    ∃ k',renderP10 b sids hashes k = (.ok (p10With f (slotValue sids hashes)),k') := by
  obtain ⟨hsids,hhashes⟩ := p10Input_iff.mp h
  obtain ⟨k',ht⟩ := p10Template_computes hb k
  have hslots : (p10Pieces.map Prod.snd).Nodup := by decide
  have hfill : renderP10Slots sids hashes (p10With f Slot.key) =
      .ok (p10With f (slotValue sids hashes)) := by
    have hrun : (p10Pieces.map Prod.snd).foldlM (fillSlot sids hashes)
        ([]++Form.fill '"' Slot.key p10Pieces (p10Digests f)) =
        .ok ([]++Form.fill '"' (slotValue sids hashes) p10Pieces (p10Digests f)) :=
      fillSlots_ok h (by simp) pieces_free (digests_free f) hslots
    rw [renderP10Slots_eq]
    exact hrun
  rw [renderP10,hsids,hhashes,if_neg (by decide),if_neg (by decide),Eff.bind_of_ok ht,hfill]
  exact ⟨k',rfl⟩

theorem renderP10_refused (h : ¬ P10Input sids hashes) (k : κ) :
    ∃ what,renderP10 b sids hashes k = (.error ⟨.invalidArgument,what⟩,k) := by
  rw [p10Input_iff,not_and_or,Bool.not_eq_false,Bool.not_eq_false] at h
  rw [renderP10]
  split_ifs with hsids hhashes
  · exact ⟨_,rfl⟩
  · exact ⟨_,rfl⟩
  · exact absurd h (by rw [not_or]; exact ⟨hsids,hhashes⟩)

theorem p10With_inj {sids' : SidSet} {hashes' : P10BuildHashes} (h : P10Input sids hashes)
    (h' : P10Input sids' hashes')
    (heq : p10With f (slotValue sids hashes) = p10With f (slotValue sids' hashes')) :
    sids = sids' ∧ hashes = hashes' := by
  have hall := Form.fill_inj (fun p _ hmem => slotValue_not_marked h p.2 (.inr hmem))
    (fun p _ hmem => slotValue_not_marked h' p.2 (.inr hmem)) heq
  have hslot (slot : Slot) : slotValue sids hashes slot = slotValue sids' hashes' slot := by
    have hmem : slot ∈ p10Pieces.map Prod.snd := by
      cases slot <;> decide
    obtain ⟨p,hp,rfl⟩ := List.mem_map.mp hmem
    exact hall p hp
  cases sids
  cases hashes
  cases sids'
  cases hashes'
  have h1 := hslot .writerSid
  have h2 := hslot .controllerSid
  have h3 := hslot .brokerSid
  have h4 := hslot .brokerHash
  have h5 := hslot .controllerHash
  have h6 := hslot .writerHash
  have h7 := hslot .captureHash
  simp only [slotValue] at h1 h2 h3 h4 h5 h6 h7
  rw [h1,h2,h3,h4,h5,h6,h7]
  exact ⟨rfl,rfl⟩

theorem renderP10_ok (hb : b.Computes f) {k k' : κ} {out : Str}
    (h : renderP10 b sids hashes k = (.ok out,k')) :
    P10Input sids hashes ∧ out = p10With f (slotValue sids hashes) := by
  by_cases hinput : P10Input sids hashes
  · obtain ⟨k1,h1⟩ := renderP10_computes hb hinput k
    rw [h1] at h
    exact ⟨hinput,(Except.ok.inj (Prod.mk.inj h).1).symm⟩
  · obtain ⟨what,h1⟩ := renderP10_refused (b := b) hinput k
    rw [h1] at h
    cases (Prod.mk.inj h).1

/-- Nothing of the keys is left. -/
theorem p10With_filled (h : P10Input sids hashes) :
    '<' ∉ p10With f (slotValue sids hashes) :=
  Form.not_mem_fill (by decide) pieces_free
    (fun p _ hmem => slotValue_not_marked h p.2 (.inl hmem)) (digests_free f)

end render

/-- Exactly the valid inputs are rendered, each as the template with its slots filled. Every
value can be read off the rendering, and off its digest where that has no collision. -/
theorem renderP10_exact (hb : b.Computes f) :
    (∀ sids hashes k,(∃ out k',renderP10 b sids hashes k = (.ok out,k')) ↔
      P10Input sids hashes) ∧
    (∀ sids hashes k k',
      renderP10 b sids hashes k ≠ (.error ⟨.logicError,"template slot"⟩,k')) ∧
    (∀ sids hashes k out k',renderP10 b sids hashes k = (.ok out,k') →
      (∀ k₀,∃ k₁,p10Template b k₀ = (.ok (p10With f Slot.key),k₁)) ∧
      out = p10With f (slotValue sids hashes) ∧ ¬ "<PENDING".toList <:+: out) ∧
    ∀ sids hashes sids' hashes' k out k₁ k' out' k₁',
      renderP10 b sids hashes k = (.ok out,k₁) → renderP10 b sids' hashes' k' = (.ok out',k₁') →
      (out = out' → sids = sids' ∧ hashes = hashes') ∧
      ∀ d k₂ k₃ k₂' k₃',sha256 b out k₂ = (.ok d,k₃) → sha256 b out' k₂' = (.ok d,k₃') →
        (f out = f out' → out = out') → sids = sids' ∧ hashes = hashes' := by
  refine ⟨?_,?_,?_,?_⟩
  · intro sids hashes k
    constructor
    · intro h
      obtain ⟨out,k',h⟩ := h
      exact (renderP10_ok hb h).1
    · intro h
      obtain ⟨k',hrun⟩ := renderP10_computes hb h k
      exact ⟨_,k',hrun⟩
  · intro sids hashes k k' h
    by_cases hinput : P10Input sids hashes
    · obtain ⟨k1,h1⟩ := renderP10_computes hb hinput k
      rw [h1] at h
      cases (Prod.mk.inj h).1
    · obtain ⟨what,h1⟩ := renderP10_refused (b := b) hinput k
      rw [h1] at h
      cases (Prod.mk.inj h).1
  · intro sids hashes k out k' h
    obtain ⟨hinput,rfl⟩ := renderP10_ok hb h
    refine ⟨p10Template_computes hb,rfl,?_⟩
    intro hin
    apply p10With_filled hinput
    apply hin.subset
    exact List.mem_of_elem_eq_true (by decide)
  · intro sids hashes sids' hashes' k out k₁ k' out' k₁' h h'
    obtain ⟨hinput,hout⟩ := renderP10_ok hb h
    obtain ⟨hinput',hout'⟩ := renderP10_ok hb h'
    have hinj : out = out' → sids = sids' ∧ hashes = hashes' := by
      intro heq
      rw [hout,hout'] at heq
      exact p10With_inj hinput hinput' heq
    refine ⟨hinj,?_⟩
    intro d k₂ k₃ k₂' k₃' hd hd' hfree
    have hhash := hb.follows.sha256_ok hd
    rw [hb.follows.sha256_ok hd'] at hhash
    exact hinj (hfree (Vector.toList_inj.mp (hexText_inj hhash)).symm)

/-- SHA-256 of the texts behind the digests of the frozen cases. -/
def fixtureTable : List (String × String) :=
  [("S1PF-LOCK-V1\n",
    "970b93f640d45c28881099decf03f12535a7f8f0124e301490fc418688adfcec"),
   ("\x7b\"generation\":0,\"worker_runs\":0,\"terminal\":false\x7d\n",
    "51a36f84657b0e8d9655a628a488cbcad78fe37de7240318528e05196e6c3bf3"),
   ("S1PF-WITNESS-V1:0:0:ACTIVE\n",
    "5986c5c825b9724522a7fa1a1b99dda9b4dd4612263a0119116428f3a576b7fe"),
   ("\x7b\"generation\":1,\"worker_runs\":1,\"terminal\":false\x7d\n",
    "339a817ef474a6b7e4d522ee4fa6869bdc74eb54891a463521861ff601acd5fb"),
   ("S1PF-WITNESS-V1:1:1:ACTIVE\n",
    "34be10aa4b0f0cac2708bcde23010f3930e0086d690e2062ab8187d8d7b6788e"),
   ("\x7b\"generation\":2,\"worker_runs\":1,\"terminal\":true\x7d\n",
    "c1e348ab1690bc8cfe882ca9e42029ab694be32ad395213f08fa8090694d10d2"),
   ("S1PF-WITNESS-V1:2:1:FAILED\n",
    "0dc88bb4825effb66dcf6615df6f8b91547e29887586c71da9c2bf7da54012ab"),
   ("S1PF-MUTABLE-SET-V1\n"++
    "lock.bin\tregular\t13\t970b93f640d45c28881099decf03f12535a7f8f0124e301490fc418688adfcec\n"++
    "state.json\tregular\t50\t51a36f84657b0e8d9655a628a488cbcad78fe37de7240318528e05196e6c3bf3\n"++
    "witness.txt\tregular\t27\t5986c5c825b9724522a7fa1a1b99dda9b4dd4612263a0119116428f3a576b7fe\n",
    "5d77da03bca39bc5eb9884dd2c0b35738b16b3fe46c18f3353bc4699bfb768d3"),
   ("S1PF-MUTABLE-SET-V1\n"++
    "lock.bin\tregular\t13\t970b93f640d45c28881099decf03f12535a7f8f0124e301490fc418688adfcec\n"++
    "state.json\tregular\t50\t339a817ef474a6b7e4d522ee4fa6869bdc74eb54891a463521861ff601acd5fb\n"++
    "witness.txt\tregular\t27\t34be10aa4b0f0cac2708bcde23010f3930e0086d690e2062ab8187d8d7b6788e\n",
    "4d5d63027a1578256a003328664c48f1328cc5171ef29db4a9c0046b8ce4d22d"),
   ("S1PF-MUTABLE-SET-V1\n"++
    "lock.bin\tregular\t13\t970b93f640d45c28881099decf03f12535a7f8f0124e301490fc418688adfcec\n"++
    "state.json\tregular\t49\tc1e348ab1690bc8cfe882ca9e42029ab694be32ad395213f08fa8090694d10d2\n"++
    "witness.txt\tregular\t27\t0dc88bb4825effb66dcf6615df6f8b91547e29887586c71da9c2bf7da54012ab\n",
    "eb2c260344d3c33075cb817a6ff8ce7c216b3a57dace342bb58fbe086ee33764")]

def fixtureHash (bytes : Str) : Vector UInt8 32 :=
  unhex (((fixtureTable.find? fun p => p.1.toList = bytes).map Prod.snd).getD "")

def fixtureCrypt : BCrypt Unit where
  openAlgorithmProvider _ := (true,())
  hashData bytes _ := (some (fixtureHash bytes),())

theorem fixtureCrypt_computes : fixtureCrypt.Computes fixtureHash := ⟨fun _ => rfl,fun _ _ => rfl⟩

def reviewedSids : SidSet := ⟨"S-1-5-21-1","S-1-5-21-2","S-1-5-21-3"⟩

def reviewedHashes : P10BuildHashes :=
  let hash := List.replicate 64 'a'
  ⟨hash,hash,hash,hash⟩

theorem reviewedInput_renders :
    ∃ out k',renderP10 fixtureCrypt reviewedSids reviewedHashes () = (.ok out,k') :=
  ((renderP10_exact fixtureCrypt_computes).1 _ _ _).mpr
    (p10Input_iff.mpr ⟨by decide +kernel,by decide +kernel⟩)

end SoftwareFactory.StageA
