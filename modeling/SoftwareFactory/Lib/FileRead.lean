import SoftwareFactory.Lib.Bytes
import SoftwareFactory.Lib.Effect

namespace FileRead

open Effect

/-- What a read call reports and what it put into the buffer. -/
structure Answer (α : Type) where
  got : Nat
  data : List α

variable {ν χ α : Type}

/-- A loop that fills a buffer of `expected` elements by calls of `read`, each for at most
`chunk`; `check` may refuse an answer. -/
def fill (read : Nat → Eff ν χ (Answer α)) (check : Nat → Answer α → Eff ν χ Unit)
    (chunk expected : Nat) : Nat → Nat → List α → Eff ν χ (List α)
  | 0,_,buffer => pure buffer
  | fuel+1,done,buffer =>
    if done < expected then do
      let count := min (expected-done) chunk
      let a ← read count
      check count a
      fill read check chunk expected fuel (done+a.got)
        (ByteBuffer.copyTo buffer done (a.data.take count))
    else pure buffer

/-- A file seen through a handle. Others may write to it at any time; `later` is the order of
the moments. -/
structure Shared (ν α : Type) where
  content : ν → List α
  position : ν → Nat
  later : ν → ν → Prop

/-- A moment within a call. -/
def Shared.During (v : Shared ν α) (w w' u : ν) : Prop := v.later w u ∧ v.later u w'

/-- What a read call promises. Every element was in the file, where the pointer stood, at some
moment of the call; it delivers nothing only at the end of the file. -/
structure Reads (v : Shared ν α) (read : Nat → Eff ν χ (Answer α)) : Prop where
  refl : ∀ w,v.later w w
  trans : ∀ {u w x},v.later u w → v.later w x → v.later u x
  count : ∀ {n w a w'},read n w = (.ok a,w') → a.got = a.data.length ∧ a.got ≤ n
  moves : ∀ {n w a w'},read n w = (.ok a,w') →
    v.position w' = v.position w+a.got ∧ v.later w w'
  seen : ∀ {n w a w'},read n w = (.ok a,w') → ∀ i < a.got,
    ∃ u,v.During w w' u ∧ (v.content u)[v.position w+i]? = a.data[i]?
  atEnd : ∀ {n w a w'},read n w = (.ok a,w') → 0 < n → a.got = 0 →
    ∃ u,v.During w w' u ∧ (v.content u).length ≤ v.position w

/-- A check that changes nothing and lets no empty answer pass. -/
def Progress (check : Nat → Answer α → Eff ν χ Unit) : Prop :=
  ∀ n a w w',check n a w = (.ok (),w') → w' = w ∧ a.got ≠ 0

theorem take_copyTo {buffer data : List α} {done : Nat} (h : done+data.length ≤ buffer.length) :
    (ByteBuffer.copyTo buffer done data).take (done+data.length) = buffer.take done++data := by
  have hpre : (buffer.take done).length = done := by
    rw [List.length_take]
    omega
  have hcopy := ByteBuffer.copyTo_append (buffer.take done) (buffer.drop done) data hpre
    (by rw [List.length_drop]; omega)
  rw [List.take_append_drop] at hcopy
  rw [hcopy]
  exact List.take_left' (by rw [List.length_append,hpre])

variable {v : Shared ν α} {read : Nat → Eff ν χ (Answer α)}
  {check : Nat → Answer α → Eff ν χ Unit} {chunk expected : Nat}

theorem Shared.During.widen (h : Reads v read) {w w' x x' u : ν} (hu : v.During w w' u)
    (hl : v.later x w) (hr : v.later w' x') : v.During x x' u :=
  ⟨h.trans hl hu.1,h.trans hu.2 hr⟩

/-- How a loop ends that returns: `buffer` was full up to `done` when it began at `w`. -/
structure Filled (v : Shared ν α) (expected done : Nat) (buffer out : List α) (w w' : ν) :
    Prop where
  length : out.length = expected
  kept : out.take done = buffer.take done
  position : v.position w' = expected
  later : v.later w w'
  seen : ∀ i,done ≤ i → i < expected → ∃ u,v.During w w' u ∧ (v.content u)[i]? = out[i]?

theorem Filled.stop (h : Reads v read) {done : Nat} {buffer : List α} {w : ν}
    (hpos : v.position w = done) (hdone : done = expected) (hlen : buffer.length = expected) :
    Filled v expected done buffer buffer w w where
  length := hlen
  kept := rfl
  position := hpos.trans hdone
  later := h.refl w
  seen := by
    intro i hi hlt
    omega

/-- One answer in front of the rest of the loop. -/
theorem Filled.step (h : Reads v read) {done n : Nat} {buffer out : List α} {a : Answer α}
    {w w1 w' : ν} (hread : read n w = (.ok a,w1)) (hpos : v.position w = done)
    (hfits : done+a.got ≤ buffer.length)
    (hrest : Filled v expected (done+a.got) (ByteBuffer.copyTo buffer done a.data) out w1 w') :
    Filled v expected done buffer out w w' := by
  obtain ⟨hcount,_⟩ := h.count hread
  obtain ⟨_,hlater⟩ := h.moves hread
  have hkept := hrest.kept
  rw [hcount,take_copyTo (by omega)] at hkept
  have hlen : (buffer.take done).length = done := by
    rw [List.length_take]
    omega
  refine ⟨hrest.length,?_,hrest.position,h.trans hlater hrest.later,?_⟩
  · have hfirst := congrArg (List.take done) hkept
    rw [List.take_take,Nat.min_eq_left (by omega),List.take_left' hlen] at hfirst
    exact hfirst
  · intro i hi hlt
    by_cases hin : i < done+a.got
    · obtain ⟨u,hu,hseen⟩ := h.seen hread (i-done) (by omega)
      refine ⟨u,hu.widen h (h.refl w) hrest.later,?_⟩
      have hout : out[i]? = a.data[i-done]? := by
        rw [← List.getElem?_take_of_lt (l := out) (j := done+a.data.length) (by omega),hkept,
          List.getElem?_append_right (by omega),hlen]
      rw [hout,← hseen,hpos]
      congr 1
      omega
    · obtain ⟨u,hu,hseen⟩ := hrest.seen i (by omega) hlt
      exact ⟨u,hu.widen h hlater (h.refl w'),hseen⟩

/-- Whatever others write meanwhile, every element a loop returns was in the file at its own
offset at some moment of the loop. -/
theorem fill_filled (h : Reads v read) (hc : Progress check) {fuel done : Nat}
    {buffer out : List α} {w w' : ν}
    (hrun : fill read check chunk expected fuel done buffer w = (.ok out,w'))
    (hpos : v.position w = done) (hdone : done ≤ expected) (hlen : buffer.length = expected)
    (hfuel : expected ≤ done+fuel) : Filled v expected done buffer out w w' := by
  induction fuel generalizing done buffer w with
  | zero =>
    obtain ⟨hout,rfl⟩ := Prod.mk.inj hrun
    obtain rfl := Except.ok.inj hout
    exact .stop h hpos (by omega) hlen
  | succ fuel ih =>
    rw [fill] at hrun
    by_cases hlt : done < expected
    · rw [if_pos hlt] at hrun
      obtain ⟨a,w1,hread,hchecked⟩ := Eff.bind_ok.mp hrun
      obtain ⟨_,w2,hcheck,hrest⟩ := Eff.bind_ok.mp hchecked
      obtain ⟨hw,hgot⟩ := hc _ a w1 w2 hcheck
      rw [hw] at hrest
      obtain ⟨hcount,hle⟩ := h.count hread
      obtain ⟨hmove,_⟩ := h.moves hread
      rw [List.take_of_length_le (by omega)] at hrest
      refine .step h hread hpos (by omega)
        (ih hrest (by rw [hmove,hpos]) (by omega) ?_ (by omega))
      rw [ByteBuffer.copyTo_length,hlen]
    · rw [if_neg hlt] at hrun
      obtain ⟨hout,rfl⟩ := Prod.mk.inj hrun
      obtain rfl := Except.ok.inj hout
      exact .stop h hpos (by omega) hlen

/-- Nobody writes to the file from `w` on. -/
def Shared.Quiet (v : Shared ν α) (w : ν) : Prop := ∀ u,v.later w u → v.content u = v.content w

theorem answer_quiet (h : Reads v read) {w u u' : ν} (hquiet : v.Quiet w) (hu : v.later w u)
    {n done : Nat} {a : Answer α} (hread : read n u = (.ok a,u')) (hpos : v.position u = done) :
    a.data = ((v.content w).drop done).take a.got := by
  obtain ⟨hcount,_⟩ := h.count hread
  apply List.ext_getElem?
  intro i
  by_cases hi : i < a.got
  · obtain ⟨x,hx,hseen⟩ := h.seen hread i hi
    rw [hquiet x (h.trans hu hx.1),hpos] at hseen
    rw [List.getElem?_take_of_lt hi,List.getElem?_drop,hseen]
  · rw [List.getElem?_eq_none (by omega),List.getElem?_eq_none]
    rw [List.length_take]
    omega

/-- A file left alone is read in full, however the calls cut it into pieces. -/
theorem fill_quiet (h : Reads v read)
    (hok : ∀ n u,∃ a u',read n u = (.ok a,u'))
    (hpass : ∀ n (a : Answer α) u,a.got ≠ 0 → a.got ≤ n → check n a u = (.ok (),u))
    (hchunk : 0 < chunk) {w : ν} (hquiet : v.Quiet w) {fuel done : Nat} {buffer : List α} {u : ν}
    (hu : v.later w u) (hpos : v.position u = done) (hdone : done ≤ (v.content w).length)
    (hlen : buffer.length = (v.content w).length)
    (hkept : buffer.take done = (v.content w).take done)
    (hfuel : (v.content w).length ≤ done+fuel) :
    ∃ u',fill read check chunk (v.content w).length fuel done buffer u = (.ok (v.content w),u') ∧
      v.later w u' ∧ v.position u' = (v.content w).length := by
  induction fuel generalizing done buffer u with
  | zero =>
    have hfull : buffer = v.content w := by
      rwa [List.take_of_length_le (by omega),List.take_of_length_le (by omega)] at hkept
    rw [fill,hfull]
    exact ⟨u,rfl,hu,by omega⟩
  | succ fuel ih =>
    rw [fill]
    by_cases hlt : done < (v.content w).length
    · rw [if_pos hlt]
      obtain ⟨a,u1,hread⟩ := hok (min ((v.content w).length-done) chunk) u
      obtain ⟨hcount,hle⟩ := h.count hread
      obtain ⟨hmove,hlater⟩ := h.moves hread
      have hgot : a.got ≠ 0 := by
        intro hzero
        obtain ⟨x,hx,hshort⟩ := h.atEnd hread (by omega) hzero
        rw [hquiet x (h.trans hu hx.1)] at hshort
        omega
      have hlen' : (ByteBuffer.copyTo buffer done a.data).length = (v.content w).length := by
        rw [ByteBuffer.copyTo_length,hlen]
      have hkept' : (ByteBuffer.copyTo buffer done a.data).take (done+a.got) =
          (v.content w).take (done+a.got) := by
        rw [List.take_add (l := v.content w),← hkept,← answer_quiet h hquiet hu hread hpos,hcount]
        exact take_copyTo (by omega)
      rw [Eff.bind_of_ok hread,Eff.bind_of_ok (hpass _ a u1 hgot hle),
        List.take_of_length_le (by omega)]
      exact ih (h.trans hu hlater) (by omega) (by omega) hlen' hkept' (by omega)
    · have hfull : buffer = v.content w := by
        rwa [List.take_of_length_le (by omega),List.take_of_length_le (by omega)] at hkept
      rw [if_neg hlt,hfull]
      exact ⟨u,rfl,hu,by omega⟩

end FileRead
