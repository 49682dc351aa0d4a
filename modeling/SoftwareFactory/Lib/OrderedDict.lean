import Mathlib.Data.List.Nodup

/-- A dictionary as the list of its items in the order in which they were put at the end. -/
@[ext] structure OrderedDict (κ ν : Type) where
  items : List (κ × ν)
  nodup : (items.map Prod.fst).Nodup

namespace OrderedDict

variable {κ ν : Type} [DecidableEq κ]

section items

/-- The value under a key, in a list of items. -/
def find (k : κ) (l : List (κ × ν)) : Option ν := (l.find? fun p => p.1 = k).map Prod.snd

def without (k : κ) (l : List (κ × ν)) : List (κ × ν) := l.filter fun p => p.1 ≠ k

/-- Items go from the front while there are more than `n`. -/
def popWhileOver (n : Nat) : List (κ × ν) → List (κ × ν)
  | [] => []
  | p::l => if (p::l).length > n then popWhileOver n l else p::l

variable {k : κ} {v : ν} {l : List (κ × ν)}

theorem find_eq_some_iff (h : (l.map Prod.fst).Nodup) : find k l = some v ↔ (k,v) ∈ l := by
  induction l with
  | nil => simp [find]
  | cons p l ih =>
    rw [List.map_cons,List.nodup_cons] at h
    by_cases hk : p.1 = k
    · have hfind : find k (p::l) = some p.2 := by simp [find,hk]
      have hno : (k,v) ∉ l := fun hm => h.1 (List.mem_map.mpr ⟨(k,v),hm,hk.symm⟩)
      rw [hfind,List.mem_cons]
      constructor
      · intro hv
        exact .inl (Prod.ext hk.symm (Option.some.inj hv).symm)
      · intro hcase
        rcases hcase with hv | hv
        · rw [← hv]
        · exact absurd hv hno
    · have hfind : find k (p::l) = find k l := by simp [find,hk]
      have hne : (k,v) ≠ p := fun hp => hk (congrArg Prod.fst hp).symm
      rw [hfind,ih h.2,List.mem_cons]
      simp [hne]

theorem find_eq_none_iff : find k l = none ↔ ∀ p ∈ l,p.1 ≠ k := by
  simp [find]

theorem mem_without {p : κ × ν} : p ∈ without k l ↔ p ∈ l ∧ p.1 ≠ k := by
  simp [without]

theorem without_of_forall_ne (h : ∀ p ∈ l,p.1 ≠ k) : without k l = l :=
  List.filter_eq_self.mpr fun p hp => by simp [h p hp]

theorem filter_without (q : κ × ν → Bool) :
    (without k l).filter q = without k (l.filter q) := by
  rw [without,without,List.filter_comm]

theorem without_sublist : (without k l).Sublist l := List.filter_sublist

/-- The items under one key are that key's item. -/
theorem filter_key_eq (h : (l.map Prod.fst).Nodup) (hm : (k,v) ∈ l) :
    (l.filter fun p => p.1 = k) = [(k,v)] := by
  induction l with
  | nil => exact absurd hm List.not_mem_nil
  | cons p l ih =>
    rw [List.map_cons,List.nodup_cons] at h
    rcases List.mem_cons.mp hm with rfl | hm
    · have hrest : (l.filter fun p => p.1 = k) = [] := by
        rw [List.filter_eq_nil_iff]
        intro p hp
        have hne : p.1 ≠ k := fun hk => h.1 (List.mem_map.mpr ⟨p,hp,hk⟩)
        simp [hne]
      simp [hrest]
    · have hne : p.1 ≠ k := fun hk => h.1 (List.mem_map.mpr ⟨(k,v),hm,hk.symm⟩)
      simp [hne,ih h.2 hm]

omit [DecidableEq κ] in
theorem popWhileOver_of_le {n : Nat} (h : l.length ≤ n) : popWhileOver n l = l := by
  cases l with
  | nil => rfl
  | cons p l => rw [popWhileOver,if_neg (by omega)]

omit [DecidableEq κ] in
theorem popWhileOver_sublist (n : Nat) : (popWhileOver n l).Sublist l := by
  induction l with
  | nil => exact List.Sublist.refl _
  | cons p l ih =>
    rw [popWhileOver]
    split_ifs
    · exact ih.cons p
    · exact List.Sublist.refl _

omit [DecidableEq κ] in
theorem length_popWhileOver_le (n : Nat) (l : List (κ × ν)) : (popWhileOver n l).length ≤ n := by
  induction l with
  | nil => exact Nat.zero_le n
  | cons p l ih =>
    rw [popWhileOver]
    split_ifs with h
    · exact ih
    · omega

end items

def get (d : OrderedDict κ ν) (k : κ) : Option ν := find k d.items

theorem get_eq_some_iff {d : OrderedDict κ ν} {k : κ} {v : ν} :
    d.get k = some v ↔ (k,v) ∈ d.items := find_eq_some_iff d.nodup

def empty : OrderedDict κ ν := ⟨[],List.nodup_nil⟩

def ofSublist (d : OrderedDict κ ν) (l : List (κ × ν)) (h : l.Sublist d.items) :
    OrderedDict κ ν := ⟨l,(h.map _).nodup d.nodup⟩

/-- `del d[k]`. -/
def erase (d : OrderedDict κ ν) (k : κ) : OrderedDict κ ν :=
  d.ofSublist (without k d.items) without_sublist

theorem keys_assign (k : κ) (v : ν) (l : List (κ × ν)) :
    (l.map fun p => if p.1 = k then (k,v) else p).map Prod.fst = l.map Prod.fst := by
  rw [List.map_map]
  apply List.map_congr_left
  intro p _
  by_cases h : p.1 = k <;> simp [h]

/-- `d[k] = v`: a key that is there keeps its place. -/
def assign (d : OrderedDict κ ν) (k : κ) (v : ν) : OrderedDict κ ν :=
  if h : ∃ p ∈ d.items,p.1 = k then
    ⟨d.items.map fun p => if p.1 = k then (k,v) else p,by rw [keys_assign]; exact d.nodup⟩
  else
    ⟨d.items++[(k,v)],by
      rw [List.map_append,List.nodup_append]
      refine ⟨d.nodup,List.nodup_singleton _,?_⟩
      intro a ha b hb heq
      subst heq
      obtain ⟨p,hp,rfl⟩ := List.mem_map.mp ha
      exact h ⟨p,hp,by simpa using hb⟩⟩

theorem without_append_perm (k : κ) (l : List (κ × ν)) :
    (without k l++l.filter fun p => p.1 = k).Perm l := by
  refine List.perm_append_comm.trans ?_
  simpa [without] using List.filter_append_perm (fun p : κ × ν => p.1 = k) l

/-- `d.move_to_end(k)` for a key that is there. -/
def moveToEnd (d : OrderedDict κ ν) (k : κ) : OrderedDict κ ν :=
  ⟨without k d.items++d.items.filter fun p => p.1 = k,
    ((without_append_perm k d.items).map _).nodup_iff.mpr d.nodup⟩

theorem moveToEnd_perm {d : OrderedDict κ ν} {k : κ} : (d.moveToEnd k).items.Perm d.items :=
  without_append_perm k d.items

/-- `while len(d) > n: d.popitem(last=False)`. -/
def popUntil (d : OrderedDict κ ν) (n : Nat) : OrderedDict κ ν :=
  d.ofSublist (popWhileOver n d.items) (popWhileOver_sublist n)

theorem items_moveToEnd {d : OrderedDict κ ν} {k : κ} {v : ν} (h : (k,v) ∈ d.items) :
    (d.moveToEnd k).items = without k d.items++[(k,v)] := by
  change without k d.items++_ = _
  rw [filter_key_eq d.nodup h]

theorem without_map_assign (k : κ) (v : ν) (l : List (κ × ν)) :
    without k (l.map fun p => if p.1 = k then (k,v) else p) = without k l := by
  induction l with
  | nil => rfl
  | cons p l ih =>
    rw [List.map_cons]
    by_cases hk : p.1 = k
    · simpa [without,hk] using ih
    · simpa [without,hk] using ih

/-- Assignment and a move put the new item behind the others. -/
theorem items_assign_moveToEnd (d : OrderedDict κ ν) (k : κ) (v : ν) :
    ((d.assign k v).moveToEnd k).items = without k d.items++[(k,v)] := by
  have hmem : (k,v) ∈ (d.assign k v).items := by
    rw [assign]
    split_ifs with h
    · obtain ⟨p,hp,hk⟩ := h
      exact List.mem_map.mpr ⟨p,hp,if_pos hk⟩
    · simp
  rw [items_moveToEnd hmem,assign]
  split_ifs with h
  · exact congrArg (· ++ _) (without_map_assign k v d.items)
  · simp [without]

/-- Deletions of some keys, one after another. -/
theorem items_foldl_erase (d : OrderedDict κ ν) (ks : List κ) :
    (ks.foldl erase d).items = d.items.filter fun p => p.1 ∉ ks := by
  induction ks generalizing d with
  | nil => simp
  | cons k ks ih =>
    rw [List.foldl_cons,ih]
    change (without k d.items).filter _ = _
    rw [without,List.filter_filter]
    congr 1
    funext p
    simp [Bool.and_comm]

end OrderedDict
