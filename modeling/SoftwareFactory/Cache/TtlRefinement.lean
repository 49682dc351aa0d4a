import SoftwareFactory.Cache.TtlCache

namespace SoftwareFactory.Cache

open OrderedDict

variable {κ ν : Type} [DecidableEq κ]

/-- The items that have not expired. -/
def live (t : ℚ) (items : List (κ × Entry ν)) : List (κ × Entry ν) :=
  items.filter fun p => (t : WithTop ℚ) < p.2.expiresAt

/-- What the cache is for: the live items from the least to the most recently used. -/
structure Reference (κ ν : Type) where
  maxSize : ℕ+
  defaultTtl : Lifetime
  items : List (κ × Entry ν) := []

/-- Every operation starts by dropping what has expired. -/
def Reference.step (m : Reference κ ν) (op : Op κ ν) (t : ℚ) :
    Except PyError (Answer κ ν) × Reference κ ν :=
  let items := live t m.items
  match op with
  | .set key value ttl =>
    match if ttl = .none then .ok m.defaultTtl else validateTtl ttl "ttl" with
    | .error e => (.error e,{ m with items })
    | .ok lifetime =>
      (.ok .none,{ m with
        items := popWhileOver m.maxSize (without key items++[(key,⟨value,t+lifetime⟩)]) })
  | .get key =>
    match find key items with
    | none => (.ok (.value none),{ m with items })
    | some e => (.ok (.value (some e.value)),{ m with items := without key items++[(key,e)] })
  | .delete key => (.ok (.bool (find key items).isSome),{ m with items := without key items })
  | .clear => (.ok .none,{ m with items := [] })
  | .contains key => (.ok (.bool (find key items).isSome),{ m with items })
  | .len => (.ok (.number items.length),{ m with items })
  | .iter => (.ok (.keys (items.map Prod.fst)),{ m with items })

def Reference.run (m : Reference κ ν) :
    List (Op κ ν × ℚ) → List (Except PyError (Answer κ ν))
  | [] => []
  | (op,t)::ops =>
    let (answer,m) := m.step op t
    answer::m.run ops

section live

omit [DecidableEq κ]

variable {t t' : ℚ} {l : List (κ × Entry ν)} {p : κ × Entry ν}

theorem mem_live : p ∈ live t l ↔ p ∈ l ∧ (t : WithTop ℚ) < p.2.expiresAt := by
  simp [live]

theorem live_live (h : t ≤ t') : live t' (live t l) = live t' l := by
  rw [live,live,live,List.filter_filter]
  apply List.filter_congr
  intro p _
  have hle : (t : WithTop ℚ) ≤ t' := WithTop.coe_le_coe.mpr h
  by_cases hp : (t' : WithTop ℚ) < p.2.expiresAt
  · simp [hp,hle.trans_lt hp]
  · simp [hp]

theorem live_append (l' : List (κ × Entry ν)) : live t (l++l') = live t l++live t l' :=
  List.filter_append _ _

theorem live_of_forall (h : ∀ p ∈ l,(t : WithTop ℚ) < p.2.expiresAt) : live t l = l :=
  List.filter_eq_self.mpr fun p hp => by simp [h p hp]

theorem live_sublist : (live t l).Sublist l := List.filter_sublist

end live

theorem live_without {t : ℚ} {l : List (κ × Entry ν)} (k : κ) :
    live t (without k l) = without k (live t l) :=
  filter_without _

/-- What the cache keeps of itself between its operations. -/
structure TTLCache.Valid (cache : TTLCache κ ν) : Prop where
  nextExpiry_le : ∀ p ∈ cache.entries.items,cache.nextExpiry ≤ p.2.expiresAt
  bounded : cache.entries.items.length ≤ cache.maxSize

omit [DecidableEq κ] in
theorem earliest_le {items : List (κ × Entry ν)} {p : κ × Entry ν} (h : p ∈ items) :
    TTLCache.earliest items ≤ p.2.expiresAt := by
  induction items with
  | nil => exact absurd h List.not_mem_nil
  | cons q items ih =>
    change min q.2.expiresAt (TTLCache.earliest items) ≤ _
    rcases List.mem_cons.mp h with rfl | h
    · exact min_le_left _ _
    · exact (min_le_right _ _).trans (ih h)

section purge

variable {cache : TTLCache κ ν} {t : ℚ}

/-- The bound that is kept makes the early return harmless. -/
theorem purgeExpired_items (h : ∀ p ∈ cache.entries.items,cache.nextExpiry ≤ p.2.expiresAt) :
    (cache.purgeExpired t).entries.items = live t cache.entries.items := by
  rw [TTLCache.purgeExpired]
  split_ifs with hlt
  · exact (live_of_forall fun p hp => hlt.trans_le (h p hp)).symm
  · change (List.foldl OrderedDict.erase cache.entries _).items = _
    rw [items_foldl_erase,live]
    apply List.filter_congr
    intro p hp
    have hiff : p.1 ∈ (cache.entries.items.filter fun q => q.2.expiresAt ≤ (t : WithTop ℚ)).map
        Prod.fst ↔ p.2.expiresAt ≤ (t : WithTop ℚ) := by
      simp only [List.mem_map,List.mem_filter,decide_eq_true_eq]
      constructor
      · intro hparts
        obtain ⟨q,⟨hq,hle⟩,hkey⟩ := hparts
        rwa [← List.inj_on_of_nodup_map cache.entries.nodup hq hp hkey]
      · intro hle
        exact ⟨p,⟨hp,hle⟩,rfl⟩
    simp only [hiff,not_le]

theorem purgeExpired_nextExpiry_le
    (h : ∀ p ∈ cache.entries.items,cache.nextExpiry ≤ p.2.expiresAt) :
    ∀ p ∈ (cache.purgeExpired t).entries.items,
      (cache.purgeExpired t).nextExpiry ≤ p.2.expiresAt := by
  rw [TTLCache.purgeExpired]
  split_ifs with hlt
  · exact h
  · exact fun p hp => earliest_le hp

@[simp] theorem purgeExpired_maxSize : (cache.purgeExpired t).maxSize = cache.maxSize := by
  rw [TTLCache.purgeExpired]
  split_ifs <;> rfl

@[simp] theorem purgeExpired_defaultTtl :
    (cache.purgeExpired t).defaultTtl = cache.defaultTtl := by
  rw [TTLCache.purgeExpired]
  split_ifs <;> rfl

end purge

/-- The cache at time `t` stands for the reference. -/
structure Refines (t : ℚ) (cache : TTLCache κ ν) (m : Reference κ ν) : Prop where
  maxSize : m.maxSize = cache.maxSize
  defaultTtl : m.defaultTtl = cache.defaultTtl
  items : live t m.items = live t cache.entries.items
  valid : cache.Valid

omit [DecidableEq κ] in
theorem Refines.later {t t' : ℚ} {cache : TTLCache κ ν} {m : Reference κ ν}
    (h : Refines t cache m) (ht : t ≤ t') : Refines t' cache m where
  maxSize := h.maxSize
  defaultTtl := h.defaultTtl
  items := by rw [← live_live ht,h.items,live_live ht]
  valid := h.valid

/-- `set` once the expiry is known. -/
def TTLCache.store (cache : TTLCache κ ν) (key : κ) (entry : Entry ν) (now : ℚ) : TTLCache κ ν :=
  let entries := (cache.entries.assign key entry).moveToEnd key
  let nextExpiry :=
    if entry.expiresAt < cache.nextExpiry then entry.expiresAt else cache.nextExpiry
  let cache := { cache with entries, nextExpiry }.purgeExpired now
  { cache with entries := cache.entries.popUntil cache.maxSize }

section step

variable {t w : ℚ} {cache : TTLCache κ ν} {m : Reference κ ν}

omit [DecidableEq κ] in
/-- Fewer entries under the same bound. -/
theorem TTLCache.Valid.of_subset (h : cache.Valid) {entries : OrderedDict κ (Entry ν)}
    (hsub : ∀ p ∈ entries.items,p ∈ cache.entries.items)
    (hlen : entries.items.length ≤ cache.entries.items.length) :
    ({ cache with entries } : TTLCache κ ν).Valid :=
  ⟨fun p hp => h.nextExpiry_le p (hsub p hp),hlen.trans h.bounded⟩

theorem TTLCache.Valid.erase (h : cache.Valid) (k : κ) :
    ({ cache with entries := cache.entries.erase k } : TTLCache κ ν).Valid :=
  h.of_subset (fun _ hp => without_sublist.subset hp) without_sublist.length_le

theorem TTLCache.Valid.moveToEnd (h : cache.Valid) (k : κ) :
    ({ cache with entries := cache.entries.moveToEnd k } : TTLCache κ ν).Valid :=
  h.of_subset (fun _ hp => moveToEnd_perm.subset hp) moveToEnd_perm.length_eq.le

theorem TTLCache.Valid.purgeExpired (h : cache.Valid) : (cache.purgeExpired t).Valid := by
  refine ⟨purgeExpired_nextExpiry_le h.nextExpiry_le,?_⟩
  rw [purgeExpired_items h.nextExpiry_le,purgeExpired_maxSize]
  exact live_sublist.length_le.trans h.bounded

/-- What a lookup in the reference finds. -/
theorem find_live (k : κ) : find k (live t cache.entries.items) =
    (cache.entries.get k).filter fun e => (t : WithTop ℚ) < e.expiresAt := by
  have hnodup : ((live t cache.entries.items).map Prod.fst).Nodup :=
    (live_sublist.map Prod.fst).nodup cache.entries.nodup
  apply Option.ext
  intro e
  rw [find_eq_some_iff hnodup,mem_live,← get_eq_some_iff,Option.filter_eq_some_iff]
  simp

theorem find_live_of_absent {k : κ} (hk : cache.entries.get k = none) :
    find k (live t cache.entries.items) = none := by
  rw [find_live,hk,Option.filter_none]

theorem find_live_of_expired {k : κ} {e : Entry ν} (hk : cache.entries.get k = some e)
    (he : e.expiresAt ≤ (t : WithTop ℚ)) : find k (live t cache.entries.items) = none := by
  rw [find_live,hk]
  simp [he]

theorem find_live_of_live {k : κ} {e : Entry ν} (hk : cache.entries.get k = some e)
    (he : (t : WithTop ℚ) < e.expiresAt) : find k (live t cache.entries.items) = some e := by
  rw [find_live,hk]
  simp [he]

/-- An expired entry can go unnoticed. -/
theorem live_erase {k : κ} (h : find k (live t cache.entries.items) = none) :
    live t (cache.entries.erase k).items = live t cache.entries.items := by
  change live t (without k cache.entries.items) = _
  rw [live_without]
  exact without_of_forall_ne (find_eq_none_iff.mp h)

theorem live_moveToEnd {k : κ} {e : Entry ν} (hk : cache.entries.get k = some e)
    (he : (t : WithTop ℚ) < e.expiresAt) : live t (cache.entries.moveToEnd k).items =
      without k (live t cache.entries.items)++[(k,e)] := by
  rw [items_moveToEnd (get_eq_some_iff.mp hk),live_append,live_without]
  congr 1
  exact live_of_forall fun p hp => by rw [List.mem_singleton.mp hp]; exact he

theorem get_refines (h : Refines t cache m) (key : κ) :
    (cache.step (.get key) ⟨t,w⟩).1 = (m.step (.get key) t).1 ∧
      Refines t (cache.step (.get key) ⟨t,w⟩).2 (m.step (.get key) t).2 := by
  have hnow : TTLCache.resolveNow .none ⟨t,w⟩ = .ok ((t : WithTop ℚ) : WithBot (WithTop ℚ)) :=
    rfl
  simp only [TTLCache.step,Reference.step,TTLCache.get,hnow,h.items]
  cases hg : cache.entries.get key with
  | none =>
    rw [find_live_of_absent hg]
    exact ⟨rfl,h.maxSize,h.defaultTtl,live_live le_rfl,h.valid⟩
  | some e =>
    simp only [WithBot.coe_le_coe]
    by_cases he : e.expiresAt ≤ (t : WithTop ℚ)
    · have hnone := find_live_of_expired hg he
      rw [if_pos he,hnone]
      exact ⟨rfl,h.maxSize,h.defaultTtl,by rw [live_live le_rfl]; exact (live_erase hnone).symm,
        h.valid.erase key⟩
    · have hlt := not_le.mp he
      have hitems := live_moveToEnd hg hlt
      rw [if_neg he,find_live_of_live hg hlt]
      refine ⟨rfl,h.maxSize,h.defaultTtl,?_,h.valid.moveToEnd key⟩
      change live t (without key (live t cache.entries.items)++[(key,e)]) =
        live t (cache.entries.moveToEnd key).items
      rw [← hitems,live_live le_rfl]

theorem contains_refines (h : Refines t cache m) (key : κ) :
    (cache.step (.contains key) ⟨t,w⟩).1 = (m.step (.contains key) t).1 ∧
      Refines t (cache.step (.contains key) ⟨t,w⟩).2 (m.step (.contains key) t).2 := by
  simp only [TTLCache.step,Reference.step,TTLCache.contains,h.items]
  cases hg : cache.entries.get key with
  | none =>
    rw [find_live_of_absent hg]
    exact ⟨rfl,h.maxSize,h.defaultTtl,live_live le_rfl,h.valid⟩
  | some e =>
    simp only
    by_cases he : e.expiresAt ≤ (t : WithTop ℚ)
    · have hnone := find_live_of_expired hg he
      rw [if_pos he,hnone]
      exact ⟨rfl,h.maxSize,h.defaultTtl,by rw [live_live le_rfl]; exact (live_erase hnone).symm,
        h.valid.erase key⟩
    · rw [if_neg he,find_live_of_live hg (not_le.mp he)]
      exact ⟨rfl,h.maxSize,h.defaultTtl,live_live le_rfl,h.valid⟩

theorem delete_refines (h : Refines t cache m) (key : κ) :
    (cache.step (.delete key) ⟨t,w⟩).1 = (m.step (.delete key) t).1 ∧
      Refines t (cache.step (.delete key) ⟨t,w⟩).2 (m.step (.delete key) t).2 := by
  simp only [TTLCache.step,Reference.step,TTLCache.delete,h.items]
  cases hg : cache.entries.get key with
  | none =>
    have hnone := find_live_of_absent (t := t) hg
    rw [hnone,without_of_forall_ne (find_eq_none_iff.mp hnone)]
    exact ⟨rfl,h.maxSize,h.defaultTtl,live_live le_rfl,h.valid⟩
  | some e =>
    have hisSome : (find key (live t cache.entries.items)).isSome =
        decide ((t : WithTop ℚ) < e.expiresAt) := by
      rw [find_live,hg]
      by_cases he : (t : WithTop ℚ) < e.expiresAt <;> simp [he]
    rw [hisSome]
    refine ⟨rfl,h.maxSize,h.defaultTtl,?_,h.valid.erase key⟩
    change live t (without key (live t cache.entries.items)) =
      live t (without key cache.entries.items)
    rw [live_without,live_without,live_live le_rfl]

theorem purge_refines (h : Refines t cache m) :
    Refines t (cache.purgeExpired t) { m with items := live t m.items } where
  maxSize := by rw [purgeExpired_maxSize]; exact h.maxSize
  defaultTtl := by rw [purgeExpired_defaultTtl]; exact h.defaultTtl
  items := by rw [purgeExpired_items h.valid.nextExpiry_le,live_live le_rfl,h.items,live_live le_rfl]
  valid := h.valid.purgeExpired

theorem lt_later (t : ℚ) (lifetime : Lifetime) : (t : WithTop ℚ) < t+lifetime.1 := by
  obtain ⟨l,hl⟩ := lifetime
  cases l with
  | top => simp
  | coe q =>
    have hq : 0 < q := WithTop.coe_pos.mp hl
    rw [← WithTop.coe_add,WithTop.coe_lt_coe]
    exact lt_add_of_pos_right t hq

theorem nextExpiry_stored (h : cache.Valid) (key : κ) (e : Entry ν) :
    ∀ p ∈ ((cache.entries.assign key e).moveToEnd key).items,
      (if e.expiresAt < cache.nextExpiry then e.expiresAt else cache.nextExpiry) ≤
        p.2.expiresAt := by
  intro p hp
  rw [items_assign_moveToEnd,List.mem_append] at hp
  rcases hp with hp | hp
  · have hle := h.nextExpiry_le p (without_sublist.subset hp)
    split_ifs with hlt
    · exact hlt.le.trans hle
    · exact hle
  · rw [List.mem_singleton.mp hp]
    split_ifs with hlt
    · exact le_rfl
    · exact not_lt.mp hlt

/-- What is stored: the live items, with the new one at the end if it is live. -/
theorem store_items (h : cache.Valid) (key : κ) (entry : Entry ν) (now : ℚ) :
    (cache.store key entry now).entries.items =
      popWhileOver cache.maxSize (live now (without key cache.entries.items++[(key,entry)])) ∧
    (cache.store key entry now).maxSize = cache.maxSize ∧
    (cache.store key entry now).defaultTtl = cache.defaultTtl ∧
    (cache.store key entry now).Valid := by
  have hnext := nextExpiry_stored h key entry
  let stored : TTLCache κ ν := { cache with
    entries := (cache.entries.assign key entry).moveToEnd key
    nextExpiry :=
      if entry.expiresAt < cache.nextExpiry then entry.expiresAt else cache.nextExpiry }
  have hstore : cache.store key entry now = { stored.purgeExpired now with
      entries := (stored.purgeExpired now).entries.popUntil (stored.purgeExpired now).maxSize } :=
    rfl
  have hitems : (stored.purgeExpired now).entries.items =
      live now (without key cache.entries.items++[(key,entry)]) := by
    rw [purgeExpired_items hnext,← items_assign_moveToEnd]
  rw [hstore]
  refine ⟨?_,purgeExpired_maxSize,purgeExpired_defaultTtl,?_,length_popWhileOver_le _ _⟩
  · rw [← hitems]
    change popWhileOver (stored.purgeExpired now).maxSize _ = _
    rw [purgeExpired_maxSize]
  · exact fun p hp => purgeExpired_nextExpiry_le hnext p ((popWhileOver_sublist _).subset hp)

/-- The cache after a value was set: what is live, with the new entry at the end and no
more than fits. -/
theorem set_stored (h : cache.Valid) (key : κ) (value : ν) {ttl : PyValue} {lifetime : Lifetime}
    (hl : cache.lifetime ttl = .ok lifetime) :
    (cache.set key value ttl ⟨t,w⟩).1 = .ok () ∧
    (cache.set key value ttl ⟨t,w⟩).2.entries.items = popWhileOver cache.maxSize
      (without key (live t cache.entries.items)++[(key,⟨value,t+lifetime⟩)]) ∧
    (cache.set key value ttl ⟨t,w⟩).2.maxSize = cache.maxSize ∧
    (cache.set key value ttl ⟨t,w⟩).2.defaultTtl = cache.defaultTtl ∧
    (cache.set key value ttl ⟨t,w⟩).2.Valid := by
  have hset : cache.set key value ttl ⟨t,w⟩ =
      (.ok (),cache.store key ⟨value,t+lifetime⟩ t) := by
    rw [TTLCache.set,hl]
    rfl
  obtain ⟨hitems,hmax,hdefault,hvalid⟩ := store_items h key ⟨value,t+lifetime⟩ t
  rw [hset]
  refine ⟨rfl,?_,hmax,hdefault,hvalid⟩
  rw [hitems,live_append,live_without]
  congr 2
  exact live_of_forall fun p hp => by rw [List.mem_singleton.mp hp]; exact lt_later t lifetime

theorem set_refines (h : Refines t cache m) (key : κ) (value : ν) (ttl : PyValue) :
    (cache.step (.set key value ttl) ⟨t,w⟩).1 = (m.step (.set key value ttl) t).1 ∧
      Refines t (cache.step (.set key value ttl) ⟨t,w⟩).2 (m.step (.set key value ttl) t).2 := by
  simp only [TTLCache.step,Reference.step,h.defaultTtl,h.items]
  cases hl : cache.lifetime ttl with
  | error e =>
    have hl' : (if ttl = .none then Except.ok cache.defaultTtl else validateTtl ttl "ttl") =
        .error e := hl
    rw [hl',TTLCache.set,hl]
    exact ⟨rfl,h.maxSize,rfl,live_live le_rfl,h.valid⟩
  | ok lifetime =>
    have hl' : (if ttl = .none then Except.ok cache.defaultTtl else validateTtl ttl "ttl") =
        .ok lifetime := hl
    obtain ⟨hok,hitems,hmax,hdefault,hvalid⟩ :=
      set_stored (t := t) (w := w) h.valid key value hl
    rw [hl']
    refine ⟨?_,h.maxSize.trans hmax.symm,hdefault.symm,?_,hvalid⟩
    · simp [hok,Except.map]
    · change live t (popWhileOver m.maxSize _) = live t (cache.set key value ttl ⟨t,w⟩).2.entries.items
      rw [hitems,h.maxSize]

/-- One operation at its time. -/
theorem step_refines (h : Refines t cache m) (op : Op κ ν) :
    (cache.step op ⟨t,w⟩).1 = (m.step op t).1 ∧
      Refines t (cache.step op ⟨t,w⟩).2 (m.step op t).2 := by
  cases op with
  | set key value ttl => exact set_refines h key value ttl
  | get key => exact get_refines h key
  | delete key => exact delete_refines h key
  | clear => exact ⟨rfl,h.maxSize,h.defaultTtl,rfl,fun p hp => absurd hp List.not_mem_nil,Nat.zero_le _⟩
  | contains key => exact contains_refines h key
  | len =>
    have hp := purge_refines h
    have hitems := purgeExpired_items (t := t) h.valid.nextExpiry_le
    simp only [TTLCache.step,Reference.step,TTLCache.len,h.items]
    exact ⟨by rw [← hitems]; rfl,by rw [← h.items]; exact hp⟩
  | iter =>
    have hp := purge_refines h
    have hitems := purgeExpired_items (t := t) h.valid.nextExpiry_le
    simp only [TTLCache.step,Reference.step,TTLCache.iter,h.items]
    exact ⟨by rw [← hitems]; rfl,by rw [← h.items]; exact hp⟩

end step

omit [DecidableEq κ] in
/-- A cache that was just made stands for an empty reference. -/
theorem init_refines {maxSize defaultTtl : PyValue} {cache : TTLCache κ ν}
    (h : TTLCache.init maxSize defaultTtl = .ok cache) (t : ℚ) :
    Refines t cache { maxSize := cache.maxSize, defaultTtl := cache.defaultTtl } := by
  have hempty : cache.entries = .empty ∧ cache.nextExpiry = ⊤ := by
    rw [TTLCache.init] at h
    cases hm : validateMaxSize maxSize with
    | error e =>
      rw [hm] at h
      cases h
    | ok n =>
      cases hd : validateTtl defaultTtl "default_ttl" with
      | error e =>
        rw [hm,hd] at h
        cases h
      | ok lifetime =>
        rw [hm,hd] at h
        cases h
        exact ⟨rfl,rfl⟩
  have hitems : cache.entries.items = [] := by rw [hempty.1]; rfl
  refine ⟨rfl,rfl,by rw [hitems],?_,?_⟩
  · rw [hitems]
    exact fun p hp => absurd hp List.not_mem_nil
  · rw [hitems]
    exact Nat.zero_le _

theorem run_refines {t : ℚ} {cache : TTLCache κ ν} {m : Reference κ ν} (h : Refines t cache m)
    (ops : List (Op κ ν × Clocks)) (hfirst : ∀ p ∈ ops,t ≤ p.2.monotonic)
    (hmono : ops.Pairwise fun p q => p.2.monotonic ≤ q.2.monotonic) :
    (cache.run ops).1 = m.run (ops.map fun p => (p.1,p.2.monotonic)) := by
  induction ops generalizing t cache m with
  | nil => rfl
  | cons p ops ih =>
    obtain ⟨op,c⟩ := p
    obtain ⟨hnext,hmono⟩ := List.pairwise_cons.mp hmono
    have hlater := h.later (hfirst _ List.mem_cons_self)
    obtain ⟨hanswer,hstep⟩ := step_refines (w := c.wall) hlater op
    have hrest := ih hstep hnext hmono
    change (cache.step op c).1::((cache.step op c).2.run ops).1 =
      (m.step op c.monotonic).1::(m.step op c.monotonic).2.run _
    exact congrArg₂ List.cons hanswer hrest

section loss

variable {cache : TTLCache κ ν} {t w : ℚ} {p : κ × Entry ν}

theorem Reference.step_maxSize (m : Reference κ ν) (op : Op κ ν) (t : ℚ) :
    (m.step op t).2.maxSize = m.maxSize := by
  cases op with
  | set key value ttl =>
    simp only [Reference.step]
    split <;> rfl
  | get key =>
    simp only [Reference.step]
    split <;> rfl
  | delete key | contains key => rfl
  | clear | len | iter => rfl

theorem TTLCache.Valid.step (h : cache.Valid) (op : Op κ ν) (c : Clocks) :
    (cache.step op c).2.Valid ∧ (cache.step op c).2.maxSize = cache.maxSize := by
  have href : Refines c.monotonic cache ⟨cache.maxSize,cache.defaultTtl,cache.entries.items⟩ :=
    ⟨rfl,rfl,rfl,h⟩
  have hstep := (step_refines (w := c.wall) href op).2
  exact ⟨hstep.valid,hstep.maxSize.symm.trans (Reference.step_maxSize _ op c.monotonic)⟩

theorem TTLCache.Valid.run (h : cache.Valid) (ops : List (Op κ ν × Clocks)) :
    (cache.run ops).2.Valid ∧ (cache.run ops).2.maxSize = cache.maxSize := by
  induction ops generalizing cache with
  | nil => exact ⟨h,rfl⟩
  | cons p ops ih =>
    obtain ⟨hv,hmax⟩ := h.step p.1 p.2
    obtain ⟨hv',hmax'⟩ := ih hv
    exact ⟨hv',hmax'.trans hmax⟩

/-- Why an operation at time `t` takes a live item out of the cache. -/
inductive Removes (cache : TTLCache κ ν) (t : ℚ) (p : κ × Entry ν) : Op κ ν → Prop where
  | delete : Removes cache t p (.delete p.1)
  | clear : Removes cache t p .clear
  | replaced (value : ν) (ttl : PyValue) : Removes cache t p (.set p.1 value ttl)
  | evicted {key : κ} (value : ν) (ttl : PyValue) (hkey : key ≠ p.1)
      (hlru : (without key (live t cache.entries.items)).head? = some p)
      (hover : cache.maxSize < (without key (live t cache.entries.items)).length+1) :
      Removes cache t p (.set key value ttl)

omit [DecidableEq κ] in
/-- Of one item too many, the first goes. -/
theorem mem_popWhileOver {n : Nat} {l : List (κ × Entry ν)} {e : κ × Entry ν}
    (hlen : l.length ≤ n) (hp : p ∈ l) (hlost : p ∉ popWhileOver n (l++[e])) :
    l.head? = some p ∧ n < l.length+1 := by
  cases l with
  | nil => exact absurd hp List.not_mem_nil
  | cons q l =>
    rw [List.cons_append,popWhileOver] at hlost
    simp only [List.length_cons,List.length_append,List.length_nil] at hlen hlost ⊢
    by_cases hover : l.length+(0+1)+1 > n
    · have hrest : popWhileOver n (l++[e]) = l++[e] :=
        popWhileOver_of_le (by simp only [List.length_append,List.length_cons,List.length_nil]; omega)
      rw [if_pos hover,hrest] at hlost
      rcases List.mem_cons.mp hp with rfl | hp
      · exact ⟨rfl,by omega⟩
      · exact absurd (List.mem_append_left _ hp) hlost
    · rw [if_neg hover] at hlost
      exact absurd (List.mem_append_left _ hp) hlost

theorem purge_keeps (h : cache.Valid) (hp : p ∈ cache.entries.items)
    (ht : (t : WithTop ℚ) < p.2.expiresAt) : p ∈ (cache.purgeExpired t).entries.items := by
  rw [purgeExpired_items h.nextExpiry_le]
  exact mem_live.mpr ⟨hp,ht⟩

theorem erase_keeps {k : κ} (hp : p ∈ cache.entries.items) (hk : p.1 ≠ k) :
    p ∈ (cache.entries.erase k).items :=
  mem_without.mpr ⟨hp,hk⟩

theorem erase_expired_keeps {k : κ} {e : Entry ν} (hk : cache.entries.get k = some e)
    (he : e.expiresAt ≤ (t : WithTop ℚ)) (hp : p ∈ cache.entries.items)
    (ht : (t : WithTop ℚ) < p.2.expiresAt) : p ∈ (cache.entries.erase k).items := by
  refine erase_keeps hp fun hkey => ?_
  have hsame : p = (k,e) :=
    List.inj_on_of_nodup_map cache.entries.nodup hp (get_eq_some_iff.mp hk) hkey
  rw [hsame] at ht
  exact absurd ht (not_lt.mpr he)

theorem get_keeps {key : κ} (hp : p ∈ cache.entries.items)
    (ht : (t : WithTop ℚ) < p.2.expiresAt) :
    p ∈ (cache.get key .none ⟨t,w⟩).2.entries.items := by
  have hnow : TTLCache.resolveNow .none ⟨t,w⟩ =
      .ok ((t : WithTop ℚ) : WithBot (WithTop ℚ)) := rfl
  rw [TTLCache.get]
  cases hg : cache.entries.get key with
  | none => exact hp
  | some e =>
    rw [hnow]
    simp only [WithBot.coe_le_coe]
    by_cases he : e.expiresAt ≤ (t : WithTop ℚ)
    · rw [if_pos he]
      exact erase_expired_keeps hg he hp ht
    · rw [if_neg he]
      exact moveToEnd_perm.mem_iff.mpr hp

theorem contains_keeps {key : κ} (hp : p ∈ cache.entries.items)
    (ht : (t : WithTop ℚ) < p.2.expiresAt) :
    p ∈ (cache.contains key ⟨t,w⟩).2.entries.items := by
  rw [TTLCache.contains]
  cases hg : cache.entries.get key with
  | none => exact hp
  | some e =>
    simp only
    by_cases he : e.expiresAt ≤ (t : WithTop ℚ)
    · rw [if_pos he]
      exact erase_expired_keeps hg he hp ht
    · rw [if_neg he]
      exact hp

theorem delete_keeps {key : κ} (hp : p ∈ cache.entries.items) (hkey : p.1 ≠ key) :
    p ∈ (cache.delete key ⟨t,w⟩).2.entries.items := by
  rw [TTLCache.delete]
  cases hg : cache.entries.get key with
  | none => exact hp
  | some e => exact erase_keeps hp hkey

/-- Storing under another key takes out a live item only to make room. -/
theorem set_removes (h : cache.Valid) (hp : p ∈ cache.entries.items)
    (ht : (t : WithTop ℚ) < p.2.expiresAt) {key : κ} {value : ν} {ttl : PyValue}
    (hkey : key ≠ p.1) (hlost : p ∉ (cache.set key value ttl ⟨t,w⟩).2.entries.items) :
    Removes cache t p (.set key value ttl) := by
  cases hl : cache.lifetime ttl with
  | error e =>
    rw [TTLCache.set,hl] at hlost
    exact absurd hp hlost
  | ok lifetime =>
    rw [(set_stored h key value hl).2.1] at hlost
    have hlen : (without key (live t cache.entries.items)).length ≤ cache.maxSize :=
      (without_sublist.trans live_sublist).length_le.trans h.bounded
    have hmem : p ∈ without key (live t cache.entries.items) :=
      mem_without.mpr ⟨mem_live.mpr ⟨hp,ht⟩,fun heq => hkey heq.symm⟩
    obtain ⟨hlru,hover⟩ := mem_popWhileOver hlen hmem hlost
    exact .evicted value ttl hkey hlru hover

/-- Nothing but these operations takes out a live item. -/
theorem step_removes (h : cache.Valid) (hp : p ∈ cache.entries.items)
    (ht : (t : WithTop ℚ) < p.2.expiresAt) {op : Op κ ν}
    (hlost : p ∉ (cache.step op ⟨t,w⟩).2.entries.items) : Removes cache t p op := by
  cases op with
  | set key value ttl =>
    by_cases hkey : key = p.1
    · rw [hkey]
      exact .replaced value ttl
    · exact set_removes h hp ht hkey hlost
  | get key => exact absurd (get_keeps hp ht) hlost
  | delete key =>
    by_cases hkey : p.1 = key
    · rw [← hkey]
      exact .delete
    · exact absurd (delete_keeps hp hkey) hlost
  | clear => exact .clear
  | contains key => exact absurd (contains_keeps hp ht) hlost
  | len => exact absurd (purge_keeps h hp ht) hlost
  | iter => exact absurd (purge_keeps h hp ht) hlost

end loss

/-- On a clock that never goes back a cache answers as the reference does, and a live entry
leaves it only by a deletion, a replacement, or as the least recently used of too many. -/
theorem ttlCache_refines (maxSize defaultTtl : PyValue) (cache : TTLCache κ ν)
    (hinit : TTLCache.init maxSize defaultTtl = .ok cache) (ops : List (Op κ ν × Clocks))
    (hmono : ops.Pairwise fun p q => p.2.monotonic ≤ q.2.monotonic) :
    (cache.run ops).1 =
      ({ maxSize := cache.maxSize, defaultTtl := cache.defaultTtl } : Reference κ ν).run
        (ops.map fun p => (p.1,p.2.monotonic)) ∧
    ∀ done op c,∀ p ∈ (cache.run done).2.entries.items,
      (c.monotonic : WithTop ℚ) < p.2.expiresAt →
      p ∉ ((cache.run done).2.step op c).2.entries.items →
      Removes (cache.run done).2 c.monotonic p op ∧ (cache.run done).2.maxSize = cache.maxSize := by
  refine ⟨?_,fun done op c p hp hlive hlost => ?_⟩
  · cases ops with
    | nil => rfl
    | cons p ops =>
      refine run_refines (init_refines hinit p.2.monotonic) _ (fun q hq => ?_) hmono
      rcases List.mem_cons.mp hq with rfl | hq
      · exact le_rfl
      · exact (List.pairwise_cons.mp hmono).1 q hq
  · obtain ⟨hvalid,hmax⟩ := (init_refines hinit 0).valid.run done
    exact ⟨step_removes (w := c.wall) hvalid hp hlive hlost,hmax⟩

/-- Two keys fit; the first is refreshed, so that the third displaces the second. -/
def refreshedOps : List (Op Nat Nat × Clocks) :=
  [(.set 1 10 .none,⟨0,0⟩),(.set 2 20 (.int 5),⟨1,0⟩),(.get 1,⟨2,0⟩),(.set 3 30 .none,⟨3,0⟩),
    (.get 2,⟨4,0⟩),(.iter,⟨5,0⟩),(.len,⟨20,0⟩)]

theorem refreshedOps_refine : ∃ cache : TTLCache Nat Nat,
    TTLCache.init (.int 2) (.int 10) = .ok cache ∧
    (cache.run refreshedOps).1 =
      ({ maxSize := cache.maxSize, defaultTtl := cache.defaultTtl } : Reference Nat Nat).run
        (refreshedOps.map fun p => (p.1,p.2.monotonic)) ∧
    (2,⟨20,(6 : ℚ)⟩) ∈ (cache.run (refreshedOps.take 3)).2.entries.items ∧
    (2,⟨20,(6 : ℚ)⟩) ∉
      ((cache.run (refreshedOps.take 3)).2.step (.set 3 30 .none) ⟨3,0⟩).2.entries.items ∧
    Removes (cache.run (refreshedOps.take 3)).2 3 (2,⟨20,(6 : ℚ)⟩) (.set 3 30 .none) := by
  have hitems : (TTLCache.init (.int 2) (.int 10) :
      Except PyError (TTLCache Nat Nat)).toOption.map (fun cache =>
        ((cache.run (refreshedOps.take 3)).2.entries.items,
          ((cache.run (refreshedOps.take 3)).2.step (.set 3 30 .none) ⟨3,0⟩).2.entries.items)) =
      some ([(2,⟨20,(6 : ℚ)⟩),(1,⟨10,(10 : ℚ)⟩)],[(1,⟨10,(10 : ℚ)⟩),(3,⟨30,(13 : ℚ)⟩)]) := by
    decide +kernel
  cases hinit : (TTLCache.init (.int 2) (.int 10) : Except PyError (TTLCache Nat Nat)) with
  | error e =>
    rw [hinit] at hitems
    cases hitems
  | ok cache =>
    rw [hinit] at hitems
    obtain ⟨hthird,hfourth⟩ := Prod.mk.inj (Option.some.inj hitems)
    obtain ⟨hrun,hlost⟩ := ttlCache_refines _ _ cache hinit refreshedOps (by decide +kernel)
    have hheld : (2,⟨20,(6 : ℚ)⟩) ∈ (cache.run (refreshedOps.take 3)).2.entries.items := by
      rw [hthird]
      exact List.mem_cons_self
    have hgone : (2,⟨20,(6 : ℚ)⟩) ∉
        ((cache.run (refreshedOps.take 3)).2.step (.set 3 30 .none) ⟨3,0⟩).2.entries.items := by
      rw [hfourth]
      decide +kernel
    have hlive : ((3 : ℚ) : WithTop ℚ) < (6 : ℚ) := by decide +kernel
    exact ⟨cache,rfl,hrun,hheld,hgone,
      (hlost (refreshedOps.take 3) (.set 3 30 .none) ⟨3,0⟩ _ hheld hlive hgone).1⟩

end SoftwareFactory.Cache
