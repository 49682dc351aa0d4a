import Mathlib.Data.List.Pairwise
import Mathlib.Order.Lattice

/-- A map as the list of its entries in the order of their keys. -/
@[ext] structure OrderedMap (κ ν : Type) [LinearOrder κ] where
  entries : List (κ × ν)
  sorted : entries.Pairwise fun a b => a.1 < b.1

namespace OrderedMap

variable {κ ν : Type} [LinearOrder κ]

instance [DecidableEq ν] : DecidableEq (OrderedMap κ ν) := fun a b =>
  decidable_of_iff (a.entries = b.entries) OrderedMap.ext_iff.symm

def empty : OrderedMap κ ν := ⟨[],List.Pairwise.nil⟩

instance : EmptyCollection (OrderedMap κ ν) := ⟨empty⟩

def keys (m : OrderedMap κ ν) : List κ := m.entries.map Prod.fst

def lookupIn (k : κ) : List (κ × ν) → Option ν
  | [] => none
  | e::es => if e.1 = k then some e.2 else lookupIn k es

def lookup (m : OrderedMap κ ν) (k : κ) : Option ν := lookupIn k m.entries

def contains (m : OrderedMap κ ν) (k : κ) : Bool := (m.lookup k).isSome

/-- Insertion in the order of the keys; `old` says what becomes of an entry that is
there already. -/
def insertIn (old : ν → ν) (k : κ) (v : ν) : List (κ × ν) → List (κ × ν)
  | [] => [(k,v)]
  | e::es =>
    if k < e.1 then (k,v)::e::es
    else if k = e.1 then (k,old e.2)::es
    else e::insertIn old k v es

theorem key_mem_insertIn {old : ν → ν} {k : κ} {v : ν} {e : κ × ν} {es : List (κ × ν)}
    (h : e ∈ insertIn old k v es) : e.1 = k ∨ e ∈ es := by
  induction es with
  | nil =>
    rw [insertIn,List.mem_singleton] at h
    exact .inl (congrArg Prod.fst h)
  | cons a es ih =>
    rw [insertIn] at h
    split_ifs at h with hlt heq
    · rcases List.mem_cons.mp h with rfl | h
      · exact .inl rfl
      · exact .inr h
    · rcases List.mem_cons.mp h with rfl | h
      · exact .inl rfl
      · exact .inr (List.mem_cons_of_mem _ h)
    · rcases List.mem_cons.mp h with rfl | h
      · exact .inr List.mem_cons_self
      · exact (ih h).imp id (List.mem_cons_of_mem _)

theorem insertIn_sorted {old : ν → ν} {k : κ} {v : ν} {es : List (κ × ν)}
    (h : es.Pairwise fun a b => a.1 < b.1) :
    (insertIn old k v es).Pairwise fun a b => a.1 < b.1 := by
  induction es with
  | nil => exact List.pairwise_singleton _ _
  | cons e es ih =>
    obtain ⟨he,hes⟩ := List.pairwise_cons.mp h
    rw [insertIn]
    split_ifs with hlt heq
    · refine List.pairwise_cons.mpr ⟨fun b hb => ?_,h⟩
      rcases List.mem_cons.mp hb with rfl | hb
      · exact hlt
      · exact hlt.trans (he b hb)
    · refine List.pairwise_cons.mpr ⟨fun b hb => ?_,hes⟩
      rw [heq]
      exact he b hb
    · refine List.pairwise_cons.mpr ⟨fun b hb => ?_,ih hes⟩
      rcases key_mem_insertIn hb with hb | hb
      · rw [hb]
        exact lt_of_le_of_ne (not_lt.mp hlt) (Ne.symm heq)
      · exact he b hb

/-- `emplace`: an entry that is there already stays. -/
def emplace (m : OrderedMap κ ν) (k : κ) (v : ν) : OrderedMap κ ν :=
  ⟨insertIn id k v m.entries,insertIn_sorted m.sorted⟩

/-- `m[k] = v`. -/
def assign (m : OrderedMap κ ν) (k : κ) (v : ν) : OrderedMap κ ν :=
  ⟨insertIn (fun _ => v) k v m.entries,insertIn_sorted m.sorted⟩

theorem lookupIn_eq_some_iff {k : κ} {v : ν} {es : List (κ × ν)}
    (h : es.Pairwise fun a b => a.1 < b.1) : lookupIn k es = some v ↔ (k,v) ∈ es := by
  induction es with
  | nil => simp [lookupIn]
  | cons e es ih =>
    obtain ⟨he,hes⟩ := List.pairwise_cons.mp h
    rw [lookupIn,List.mem_cons]
    by_cases hk : e.1 = k
    · rw [if_pos hk]
      constructor
      · intro hv
        left
        rw [← hk,← Option.some.inj hv]
      · intro hcase
        rcases hcase with hv | hv
        · rw [← hv]
        · exact absurd (he _ hv) (by simp [hk])
    · rw [if_neg hk,ih hes]
      have hne : (k,v) ≠ e := fun hv => hk (congrArg Prod.fst hv).symm
      simp [hne]

theorem lookup_eq_some_iff {m : OrderedMap κ ν} {k : κ} {v : ν} :
    m.lookup k = some v ↔ (k,v) ∈ m.entries := lookupIn_eq_some_iff m.sorted

theorem contains_iff {m : OrderedMap κ ν} {k : κ} : m.contains k = true ↔ k ∈ m.keys := by
  rw [contains,Option.isSome_iff_exists]
  simp [lookup_eq_some_iff,keys]

theorem keys_nodup (m : OrderedMap κ ν) : m.keys.Nodup :=
  List.pairwise_map.mpr (m.sorted.imp fun h => ne_of_lt h)

theorem ext_lookup {m m' : OrderedMap κ ν} (h : ∀ k,m.lookup k = m'.lookup k) : m = m' := by
  have hmem (e : κ × ν) : e ∈ m.entries ↔ e ∈ m'.entries := by
    rw [← lookup_eq_some_iff,← lookup_eq_some_iff,h]
  have hn : m.entries.Nodup := m.sorted.imp fun hlt he => absurd hlt (by simp [he])
  have hn' : m'.entries.Nodup := m'.sorted.imp fun hlt he => absurd hlt (by simp [he])
  have hperm : m.entries.Perm m'.entries := (List.perm_ext_iff_of_nodup hn hn').mpr hmem
  refine OrderedMap.ext (hperm.eq_of_pairwise ?_ m.sorted m'.sorted)
  exact fun a b _ _ hab hba => absurd hab hba.not_gt

theorem mem_emplace_iff {m : OrderedMap κ ν} {k : κ} {v : ν} (hk : m.contains k = false)
    {e : κ × ν} : e ∈ (m.emplace k v).entries ↔ e = (k,v) ∨ e ∈ m.entries := by
  have hne : ∀ a ∈ m.entries,k ≠ a.1 := by
    intro a ha hka
    have : k ∈ m.keys := List.mem_map.mpr ⟨a,ha,hka.symm⟩
    rw [← contains_iff,hk] at this
    exact absurd this (by simp)
  change e ∈ insertIn id k v m.entries ↔ _
  generalize m.entries = es at hne
  induction es with
  | nil => simp [insertIn]
  | cons a es ih =>
    rw [insertIn,if_neg (hne a List.mem_cons_self)]
    split_ifs
    · simp
    · rw [List.mem_cons,ih fun b hb => hne b (List.mem_cons_of_mem _ hb),List.mem_cons]
      exact or_left_comm

theorem lookup_emplace {m : OrderedMap κ ν} {k : κ} {v : ν} (hk : m.contains k = false)
    (k' : κ) : (m.emplace k v).lookup k' = if k' = k then some v else m.lookup k' := by
  apply Option.ext
  intro a
  rw [lookup_eq_some_iff,mem_emplace_iff hk]
  split_ifs with h
  · subst h
    have hno : (k',a) ∉ m.entries := by
      rw [← lookup_eq_some_iff]
      intro hl
      rw [contains,hl] at hk
      exact absurd hk (by simp)
    simp [hno,eq_comm]
  · rw [lookup_eq_some_iff]
    simp [h]

/-- An entry that is there after an insertion was there before or is the one inserted. -/
theorem lookup_emplace_or {m : OrderedMap κ ν} {k k' : κ} {v v' : ν}
    (h : (m.emplace k v).lookup k' = some v') : v' = v ∨ m.lookup k' = some v' := by
  rw [lookup_eq_some_iff] at h ⊢
  change _ ∈ insertIn id k v m.entries at h
  generalize m.entries = es at h
  induction es with
  | nil =>
    rw [insertIn,List.mem_singleton] at h
    exact .inl (Prod.mk.inj h).2
  | cons a es ih =>
    rw [insertIn] at h
    split_ifs at h with hlt heq
    · rcases List.mem_cons.mp h with h | h
      · exact .inl (Prod.mk.inj h).2
      · exact .inr h
    · rw [heq] at h
      exact .inr h
    · rcases List.mem_cons.mp h with h | h
      · exact .inr (h ▸ List.mem_cons_self)
      · exact (ih h).imp id (List.mem_cons_of_mem _)

theorem contains_emplace {m : OrderedMap κ ν} {k : κ} {v : ν} (hk : m.contains k = false)
    {k' : κ} (hne : k' ≠ k) : (m.emplace k v).contains k' = m.contains k' := by
  rw [contains,lookup_emplace hk,if_neg hne,contains]

/-- Entries that arrive in the order of their keys are appended. -/
theorem emplace_entries_of_lt {m : OrderedMap κ ν} {k : κ} {v : ν}
    (h : ∀ e ∈ m.entries,e.1 < k) : (m.emplace k v).entries = m.entries++[(k,v)] := by
  change insertIn id k v m.entries = _
  generalize m.entries = es at h
  induction es with
  | nil => rfl
  | cons a es ih =>
    have ha := h a List.mem_cons_self
    rw [insertIn,if_neg (not_lt.mpr ha.le),if_neg ha.ne',
      ih fun e he => h e (List.mem_cons_of_mem _ he)]
    rfl

/-- What comes after such an entry still comes after all of them. -/
theorem emplace_entries_lt {β : Type} {m : OrderedMap κ ν} {k : κ} {x : β} {l : List (κ × β)}
    (h : ∀ e ∈ m.entries,∀ q ∈ (k,x)::l,e.1 < q.1) (hl : ∀ q ∈ l,k < q.1) (v : ν) :
    ∀ e ∈ (m.emplace k v).entries,∀ q ∈ l,e.1 < q.1 := by
  rw [emplace_entries_of_lt fun e he => h e he _ List.mem_cons_self]
  intro e he q hq
  rcases List.mem_append.mp he with he | he
  · exact h e he q (List.mem_cons_of_mem _ hq)
  · rw [List.mem_singleton.mp he]
    exact hl q hq

end OrderedMap
