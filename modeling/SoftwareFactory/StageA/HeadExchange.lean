import SoftwareFactory.StageA.CodecExactness
import SoftwareFactory.StageA.FrozenCases
import Mathlib.Data.List.Nodup

namespace SoftwareFactory.StageA

open ReadFixtureHead

/-- A string as the bytes that go over the wire. -/
def wireBytes (s : Str) : Bytes := s.map fun c => c.toNat.toUInt8

@[simp] theorem length_wireBytes (s : Str) : (wireBytes s).length = s.length :=
  List.length_map _

/-- The length of a case's record, which no digest changes. -/
def recordLength (c : FixtureCase) : Nat :=
  273+c.id.length+(decimal c.generation.toNat).length+(decimal c.workerRuns.toNat).length+
    if c.status = "FAILED" then 4 else 5

theorem recordLength_frozen :
    frozenCases.map recordLength = [activeP11Bytes,terminalP11Bytes] := by decide +kernel

theorem plain_frozen : ∀ c ∈ frozenCases,Plain c.id := by
  have hcheck : frozenCases.all (fun c => c.id.all fun x =>
      decide (0x20 ≤ x.toNat) && x != '"' && x != '\\') = true := by decide +kernel
  intro c hc x hx
  have hplain := List.all_eq_true.mp (List.all_eq_true.mp hcheck c hc) x hx
  simp only [Bool.and_eq_true,decide_eq_true_eq,bne_iff_ne] at hplain
  exact ⟨hplain.1.1,hplain.1.2,hplain.2⟩

section records

variable {f : Str → Vector UInt8 32} {c c' : FixtureCase} {h : Str}

/-- Every frozen case has a record under every P10 digest. -/
theorem renderP11_frozen (hc : c ∈ frozenCases) (hh : hex64 h = true) :
    ∃ p,renderP11 (digested f c) h = .ok p ∧ p.length = recordLength c := by
  have hid : Plain (digested f c).id := plain_frozen c hc
  have hlatest : hex64 (digested f c).latestDigest = true := hex64_hexText _
  have hp := renderP11_plain (c := digested f c) hh hid (plain_of_hex64 hlatest)
  exact ⟨_,hp,renderP11_length (c := digested f c) hh hid hlatest hp⟩

theorem payloadLength_frozen (hc : c ∈ frozenCases) : PayloadLength (recordLength c) := by
  have hmem : recordLength c ∈ [activeP11Bytes,terminalP11Bytes] := by
    rw [← recordLength_frozen]
    exact List.mem_map_of_mem hc
  simpa [PayloadLength] using hmem

/-- The records of the two cases differ in length. -/
theorem recordLength_ne (hc : c ∈ frozenCases) (hc' : c' ∈ frozenCases) (hne : c' ≠ c) :
    recordLength c' ≠ recordLength c := by
  have hnodup : (frozenCases.map recordLength).Nodup := by
    rw [recordLength_frozen]
    decide
  intro hlen
  exact hne (List.inj_on_of_nodup_map hnodup hc' hc hlen)

end records

/-- The exchange of a fixture head: the request is understood, the response is accepted for
the case it was made for and for nothing else. -/
theorem headExchange {κ : Type} (b : BCrypt κ) (f : Str → Vector UInt8 32) (hb : b.Computes f)
    (k : κ) (d : P10Digest) (n : Nonce) :
    ∃ cases k',fixtureCases b k = (.ok cases,k') ∧ cases.length = 2 ∧
      validateRequest (encodeRequest n d) d = ⟨.none,some n⟩ ∧
      ∀ c ∈ cases,∃ p11,renderP11 c (hexText d.toList) = .ok p11 ∧
        (encodeVerifiedSuccessResponse n d (wireBytes p11)).failure = .none ∧
        validateResponse (encodeVerifiedSuccessResponse n d (wireBytes p11)).bytes n d
          (wireBytes p11) p11.length = ⟨.none,wireBytes p11⟩ ∧
        (∀ c' ∈ cases,c' ≠ c → ∀ p11',renderP11 c' (hexText d.toList) = .ok p11' → ∀ n' d',
          (validateResponse (encodeVerifiedSuccessResponse n d (wireBytes p11)).bytes n' d'
            (wireBytes p11') p11'.length).failure ≠ .none) ∧
        ∀ n' d',n' ≠ n ∨ d' ≠ d → ∀ selected len,
          (validateResponse (encodeVerifiedSuccessResponse n d (wireBytes p11)).bytes n' d'
            selected len).failure ≠ .none := by
  obtain ⟨k',hk⟩ := fixtureCases_computes hb k
  have hh : hex64 (hexText d.toList) = true := hex64_hexText d
  refine ⟨_,k',hk,rfl,?_,?_⟩
  · rw [validateRequest_encodeRequest,if_pos rfl]
  · intro c' hc'
    obtain ⟨c,hc,rfl⟩ := List.mem_map.mp hc'
    obtain ⟨p11,hp,hlen⟩ := renderP11_frozen (f := f) hc hh
    have hpay : PayloadLength (wireBytes p11).length := by
      rw [length_wireBytes,hlen]
      exact payloadLength_frozen hc
    have htrust : TrustedInput (wireBytes p11) p11.length :=
      ⟨by rw [← length_wireBytes]; exact hpay,length_wireBytes p11⟩
    refine ⟨p11,hp,?_,?_,?_,?_⟩
    · rw [encodeVerifiedSuccessResponse_eq n d _ hpay]
    · rw [validateResponse_success htrust hpay,if_pos ⟨rfl,rfl,rfl⟩]
    · intro c'' hc'' hne p11' hp' n' d' haccept
      obtain ⟨other,hother,rfl⟩ := List.mem_map.mp hc''
      obtain ⟨p,hrender,hlen'⟩ := renderP11_frozen (f := f) hother hh
      obtain rfl : p = p11' := Except.ok.inj (hrender.symm.trans hp')
      have hsame := ((validateResponse_success_accepts hpay).mp haccept).2.2.2
      have hlength := congrArg List.length hsame
      rw [length_wireBytes,length_wireBytes,hlen,hlen'] at hlength
      exact recordLength_ne hc hother (fun heq => hne (by rw [heq])) hlength.symm
    · intro n' d' hne selected len haccept
      obtain ⟨-,hn,hd,-⟩ := (validateResponse_success_accepts hpay).mp haccept
      exact hne.elim (fun h => h hn.symm) (fun h => h hd.symm)

/-- A provider that gives every text one digest. -/
def constantCrypt : BCrypt Unit := ⟨fun k => (true,k),fun _ k => (some (Vector.replicate 32 0),k)⟩

/-- The exchange of the first case: another nonce and the record of the second case are refused. -/
theorem constantCrypt_exchange :
    let d : P10Digest := Vector.replicate 32 7
    let n : Nonce := Vector.replicate 16 5
    ∃ active terminal k' p11 p11',fixtureCases constantCrypt () = (.ok [active,terminal],k') ∧
      renderP11 active (hexText d.toList) = .ok p11 ∧
      renderP11 terminal (hexText d.toList) = .ok p11' ∧
      validateRequest (encodeRequest n d) d = ⟨.none,some n⟩ ∧
      validateResponse (encodeVerifiedSuccessResponse n d (wireBytes p11)).bytes n d
        (wireBytes p11) p11.length = ⟨.none,wireBytes p11⟩ ∧
      (validateResponse (encodeVerifiedSuccessResponse n d (wireBytes p11)).bytes n d
        (wireBytes p11') p11'.length).failure ≠ .none ∧
      (validateResponse (encodeVerifiedSuccessResponse n d (wireBytes p11)).bytes
        (Vector.replicate 16 6) d (wireBytes p11) p11.length).failure ≠ .none := by
  intro d n
  obtain ⟨cases,k',hk,hlen,hrequest,hcases⟩ := headExchange constantCrypt
    (fun _ => Vector.replicate 32 0) ⟨fun _ => rfl,fun _ _ => rfl⟩ () d n
  obtain ⟨active,terminal,rfl⟩ := List.length_eq_two.mp hlen
  have hnonce : (Vector.replicate 16 6 : Nonce) ≠ n := by decide
  have hids : (fixtureCases constantCrypt ()).1.toOption.map (fun cs => cs.map FixtureCase.id) =
      some (frozenCases.map FixtureCase.id) := by decide +kernel
  have hnodup : (frozenCases.map FixtureCase.id).Nodup := by decide +kernel
  have hne : terminal ≠ active := by
    rw [hk] at hids
    rw [← Option.some.inj hids] at hnodup
    intro heq
    simp [heq] at hnodup
  obtain ⟨p11,hp,-,haccept,hother,hnonces⟩ := hcases active List.mem_cons_self
  have hterminal : terminal ∈ [active,terminal] := List.mem_cons_of_mem _ List.mem_cons_self
  obtain ⟨p11',hp',-⟩ := hcases terminal hterminal
  exact ⟨active,terminal,k',p11,p11',hk,hp,hp',hrequest,haccept,
    hother terminal hterminal hne p11' hp' n d,hnonces _ d (.inl hnonce) _ _⟩

end SoftwareFactory.StageA
