/-
  CompilerFuzz.Sorted

  Ascending lists as finite sets and finite maps, over a comparison of elements or
  keys. `insert` adds to a set, `alter` changes what a map holds under one key; both
  keep the list strictly ascending, so equal sets are equal lists.
-/

namespace CompilerFuzz.Sorted

variable {α κ β : Type}

/-! ## Sets -/

/-- Adds `x` to an ascending list; an element already there stays. -/
def insert (cmp : α → α → Ordering) (x : α) : List α → List α
  | [] => [x]
  | y :: ys =>
    match cmp x y with
    | .lt => x :: y :: ys
    | .eq => y :: ys
    | .gt => y :: insert cmp x ys

/-- The union of two sets. -/
def union (cmp : α → α → Ordering) (xs ys : List α) : List α :=
  ys.foldl (fun acc y => insert cmp y acc) xs

/-- Strictly ascending. -/
def Ascending (cmp : α → α → Ordering) (xs : List α) : Prop :=
  xs.Pairwise fun x y => cmp x y = .lt

instance (cmp : α → α → Ordering) (xs : List α) : Decidable (Ascending cmp xs) :=
  inferInstanceAs (Decidable (xs.Pairwise _))

/-! ## Maps -/

/-- Puts `f old` under `k`, where `old` is what the map held there before. -/
def alter (cmp : κ → κ → Ordering) (k : κ) (f : Option β → β) : List (κ × β) → List (κ × β)
  | [] => [(k, f none)]
  | (k', v) :: rest =>
    match cmp k k' with
    | .lt => (k, f none) :: (k', v) :: rest
    | .eq => (k', f (some v)) :: rest
    | .gt => (k', v) :: alter cmp k f rest

/-- What the map holds under `k`. -/
def find? (cmp : κ → κ → Ordering) (k : κ) : List (κ × β) → Option β
  | [] => none
  | (k', v) :: rest => if cmp k k' = .eq then some v else find? cmp k rest

/-! ## Laws of `insert` -/

theorem mem_insert {cmp : α → α → Ordering} [Std.LawfulEqCmp cmp] {x z : α} {xs : List α} :
    z ∈ insert cmp x xs ↔ z = x ∨ z ∈ xs := by
  induction xs with
  | nil => simp [insert]
  | cons y ys ih =>
    unfold insert
    split
    · simp
    · next h =>
      have : x = y := Std.LawfulEqCmp.eq_of_compare h
      subst this; simp
    · simp only [List.mem_cons, ih]
      exact ⟨fun h => by rcases h with h | h | h <;> simp [h],
        fun h => by rcases h with h | h | h <;> simp [h]⟩

theorem insert_ne_nil (cmp : α → α → Ordering) (x : α) (xs : List α) : insert cmp x xs ≠ [] := by
  unfold insert
  split
  · exact List.cons_ne_nil _ _
  · split <;> exact List.cons_ne_nil _ _

theorem ascending_insert {cmp : α → α → Ordering} [Std.TransCmp cmp] [Std.LawfulEqCmp cmp]
    (x : α) {xs : List α} (h : Ascending cmp xs) : Ascending cmp (insert cmp x xs) := by
  induction xs with
  | nil => simp [insert, Ascending]
  | cons y ys ih =>
    have hy := List.pairwise_cons.1 h
    unfold insert
    split
    · next hlt =>
      refine List.pairwise_cons.2 ⟨fun z hz => ?_, h⟩
      rcases List.mem_cons.1 hz with rfl | hz
      · exact hlt
      · exact Std.TransCmp.lt_trans hlt (hy.1 z hz)
    · exact h
    · next hgt =>
      refine List.pairwise_cons.2 ⟨fun z hz => ?_, ih hy.2⟩
      rcases mem_insert.1 hz with rfl | hz
      · exact Std.OrientedCmp.gt_iff_lt.1 hgt
      · exact hy.1 z hz

/-! ## Laws of `union` -/

theorem mem_union {cmp : α → α → Ordering} [Std.LawfulEqCmp cmp] {z : α} {xs ys : List α} :
    z ∈ union cmp xs ys ↔ z ∈ xs ∨ z ∈ ys := by
  unfold union
  induction ys generalizing xs with
  | nil => simp
  | cons y ys ih =>
    rw [List.foldl_cons, ih, mem_insert, List.mem_cons, or_assoc, or_left_comm]

theorem union_ne_nil {cmp : α → α → Ordering} [Std.LawfulEqCmp cmp] (xs : List α) {ys : List α}
    (h : ys ≠ []) : union cmp xs ys ≠ [] := by
  obtain ⟨y, hy⟩ := List.exists_mem_of_ne_nil ys h
  exact List.ne_nil_of_mem (mem_union.2 (.inr hy))

theorem ascending_union {cmp : α → α → Ordering} [Std.TransCmp cmp] [Std.LawfulEqCmp cmp]
    {xs : List α} (ys : List α) (h : Ascending cmp xs) : Ascending cmp (union cmp xs ys) := by
  unfold union
  induction ys generalizing xs with
  | nil => exact h
  | cons y ys ih => exact ih (ascending_insert y h)

/-! ## Equality -/

/-- Lists that ascend by an asymmetric relation are equal if they have the same elements. -/
theorem eq_of_mem_iff {R : α → α → Prop} (asymm : ∀ {a b}, R a b → ¬ R b a) {xs ys : List α}
    (hx : xs.Pairwise R) (hy : ys.Pairwise R) (h : ∀ z, z ∈ xs ↔ z ∈ ys) : xs = ys := by
  have hne : ∀ {a b}, R a b → a ≠ b := by
    rintro a b hab rfl
    exact asymm hab hab
  have hperm : xs.Perm ys := (List.perm_ext_iff_of_nodup (hx.imp hne) (hy.imp hne)).2 h
  exact hperm.eq_of_pairwise (fun _ _ _ _ hab hba => absurd hba (asymm hab)) hx hy

theorem not_lt_of_lt {cmp : α → α → Ordering} [Std.OrientedCmp cmp] {x y : α}
    (h : cmp x y = .lt) : ¬ cmp y x = .lt := by
  rw [Std.OrientedCmp.gt_iff_lt.2 h]
  decide

theorem Ascending.nodup {cmp : α → α → Ordering} [Std.OrientedCmp cmp] {xs : List α}
    (h : Ascending cmp xs) : xs.Nodup := by
  refine h.imp ?_
  rintro x y hlt rfl
  exact not_lt_of_lt hlt hlt

/-- Two ascending lists with the same elements are one list. -/
theorem Ascending.ext {cmp : α → α → Ordering} [Std.OrientedCmp cmp] {xs ys : List α}
    (hx : Ascending cmp xs) (hy : Ascending cmp ys) (h : ∀ z, z ∈ xs ↔ z ∈ ys) : xs = ys :=
  eq_of_mem_iff not_lt_of_lt hx hy h

/-! ## Laws of `alter` and `find?` -/

section Maps

variable {cmp : κ → κ → Ordering}

/-- The keys of a map stand in strictly ascending order. -/
abbrev AscendingKeys (cmp : κ → κ → Ordering) (m : List (κ × β)) : Prop :=
  Ascending cmp (m.map Prod.fst)

theorem compare_ne_eq [Std.LawfulEqCmp cmp] {k j : κ} (h : k ≠ j) : cmp k j ≠ .eq :=
  fun he => h (Std.LawfulEqCmp.eq_of_compare he)

theorem find?_cons (k j : κ) (v : β) (m : List (κ × β)) :
    find? cmp k ((j, v) :: m) = if cmp k j = .eq then some v else find? cmp k m := rfl

theorem find?_eq_none_of_lt {k : κ} {m : List (κ × β)}
    (h : ∀ j ∈ m.map Prod.fst, cmp k j = .lt) : find? cmp k m = none := by
  induction m with
  | nil => rfl
  | cons e m ih =>
    obtain ⟨j, v⟩ := e
    have hj : cmp k j = .lt := h j List.mem_cons_self
    rw [find?_cons, if_neg (by rw [hj]; decide)]
    exact ih fun i hi => h i (List.mem_cons_of_mem _ hi)

theorem mem_iff_find? [Std.TransCmp cmp] [Std.LawfulEqCmp cmp] {k : κ} {v : β}
    {m : List (κ × β)} (hm : AscendingKeys cmp m) : (k, v) ∈ m ↔ find? cmp k m = some v := by
  induction m with
  | nil => simp [find?]
  | cons e m ih =>
    obtain ⟨j, u⟩ := e
    obtain ⟨hj, hm⟩ := List.pairwise_cons.1 hm
    rw [find?_cons, List.mem_cons, Prod.mk.injEq, ih hm]
    by_cases hk : k = j
    · subst hk
      rw [if_pos Std.ReflCmp.compare_self, find?_eq_none_of_lt hj]
      simp [eq_comm]
    · rw [if_neg (compare_ne_eq hk)]
      simp [hk]

theorem mem_keys_alter [Std.LawfulEqCmp cmp] {k j : κ} {f : Option β → β} {m : List (κ × β)} :
    j ∈ (alter cmp k f m).map Prod.fst ↔ j = k ∨ j ∈ m.map Prod.fst := by
  induction m with
  | nil => simp [alter]
  | cons e m ih =>
    obtain ⟨i, v⟩ := e
    unfold alter
    split
    · simp
    · next h => simp [Std.LawfulEqCmp.eq_of_compare h]
    · rw [List.map_cons, List.mem_cons, ih, List.map_cons, List.mem_cons]
      exact or_left_comm

theorem alter_ne_nil (k : κ) (f : Option β → β) (m : List (κ × β)) : alter cmp k f m ≠ [] := by
  unfold alter
  split
  · exact List.cons_ne_nil _ _
  · split <;> exact List.cons_ne_nil _ _

/-- A property of values that a change keeps holds of all values after it. -/
theorem forall_mem_alter {P : β → Prop} {k : κ} {f : Option β → β} (hnone : P (f none))
    (hsome : ∀ v, P v → P (f (some v))) {m : List (κ × β)} (hm : ∀ e ∈ m, P e.2) :
    ∀ e ∈ alter cmp k f m, P e.2 := by
  induction m with
  | nil => exact List.forall_mem_singleton.2 hnone
  | cons e m ih =>
    obtain ⟨j, v⟩ := e
    obtain ⟨hv, hm'⟩ := List.forall_mem_cons.1 hm
    unfold alter
    split
    · exact List.forall_mem_cons.2 ⟨hnone, hm⟩
    · exact List.forall_mem_cons.2 ⟨hsome v hv, hm'⟩
    · exact List.forall_mem_cons.2 ⟨hv, ih hm'⟩

theorem ascendingKeys_alter [Std.TransCmp cmp] [Std.LawfulEqCmp cmp] (k : κ)
    (f : Option β → β) {m : List (κ × β)} (hm : AscendingKeys cmp m) :
    AscendingKeys cmp (alter cmp k f m) := by
  induction m with
  | nil => simp [alter, AscendingKeys, Ascending]
  | cons e m ih =>
    obtain ⟨i, v⟩ := e
    obtain ⟨hi, hm'⟩ := List.pairwise_cons.1 hm
    unfold alter
    -- the key goes in front, is there already, or goes further back
    split
    · next hlt =>
      refine List.pairwise_cons.2 ⟨fun j hj => ?_, hm⟩
      rcases List.mem_cons.1 hj with rfl | hj
      · exact hlt
      · exact Std.TransCmp.lt_trans hlt (hi j hj)
    · exact hm
    · next hgt =>
      refine List.pairwise_cons.2 ⟨fun j hj => ?_, ih hm'⟩
      rcases mem_keys_alter.1 hj with rfl | hj
      · exact Std.OrientedCmp.gt_iff_lt.1 hgt
      · exact hi j hj

theorem find?_alter_self [Std.TransCmp cmp] [Std.LawfulEqCmp cmp] (k : κ) (f : Option β → β)
    {m : List (κ × β)} (hm : AscendingKeys cmp m) :
    find? cmp k (alter cmp k f m) = some (f (find? cmp k m)) := by
  have self : cmp k k = .eq := Std.ReflCmp.compare_self
  induction m with
  | nil => exact if_pos self
  | cons e m ih =>
    obtain ⟨i, v⟩ := e
    obtain ⟨hi, hm'⟩ := List.pairwise_cons.1 hm
    unfold alter
    split
    · next hlt =>
      -- the new entry stands in front of all others, so the old map had none for the key
      have hnone : find? cmp k ((i, v) :: m) = none := by
        apply find?_eq_none_of_lt
        intro l hl
        rcases List.mem_cons.1 hl with rfl | hl
        · exact hlt
        · exact Std.TransCmp.lt_trans hlt (hi l hl)
      rw [find?_cons, if_pos self, hnone]
    · next heq => rw [find?_cons, find?_cons, if_pos heq, if_pos heq]
    · next hgt =>
      have hki : cmp k i ≠ .eq := by
        rw [hgt]
        decide
      rw [find?_cons, find?_cons, if_neg hki, if_neg hki, ih hm']

theorem find?_alter_of_ne [Std.LawfulEqCmp cmp] {k j : κ} (h : j ≠ k) (f : Option β → β)
    (m : List (κ × β)) : find? cmp j (alter cmp k f m) = find? cmp j m := by
  induction m with
  | nil => exact if_neg (compare_ne_eq h)
  | cons e m ih =>
    obtain ⟨i, v⟩ := e
    unfold alter
    split
    · rw [find?_cons, if_neg (compare_ne_eq h)]
    · next heq =>
      obtain rfl : k = i := Std.LawfulEqCmp.eq_of_compare heq
      rw [find?_cons, find?_cons, if_neg (compare_ne_eq h), if_neg (compare_ne_eq h)]
    · rw [find?_cons, find?_cons, ih]

/-- A change under one key is seen there and nowhere else. -/
theorem find?_alter [Std.TransCmp cmp] [Std.LawfulEqCmp cmp] [DecidableEq κ] (k j : κ)
    (f : Option β → β) {m : List (κ × β)} (hm : AscendingKeys cmp m) :
    find? cmp j (alter cmp k f m) =
      if j = k then some (f (find? cmp k m)) else find? cmp j m := by
  by_cases h : j = k
  · rw [if_pos h, h]
    exact find?_alter_self k f hm
  · rw [if_neg h]
    exact find?_alter_of_ne h f m

/-- Two maps that hold the same under every key are one map. -/
theorem eq_of_find?_eq [Std.TransCmp cmp] [Std.LawfulEqCmp cmp] {m m' : List (κ × β)}
    (hm : AscendingKeys cmp m) (hm' : AscendingKeys cmp m')
    (h : ∀ k, find? cmp k m = find? cmp k m') : m = m' := by
  refine eq_of_mem_iff (R := fun e e' => cmp e.1 e'.1 = .lt) not_lt_of_lt
    (List.pairwise_map.1 hm) (List.pairwise_map.1 hm') fun ⟨k, v⟩ => ?_
  rw [mem_iff_find? hm, mem_iff_find? hm', h]

/-! ## Changes one after another -/

section Changes

variable {γ : Type} (change : κ × γ → Option β → β)

/-- Changes a map under every key of another one. -/
def alterAll (cmp : κ → κ → Ordering) (change : κ × γ → Option β → β) (changes : List (κ × γ))
    (m : List (κ × β)) : List (κ × β) :=
  changes.foldl (fun m e => alter cmp e.1 (change e) m) m

theorem ascendingKeys_alterAll [Std.TransCmp cmp] [Std.LawfulEqCmp cmp] (changes : List (κ × γ))
    {m : List (κ × β)} (hm : AscendingKeys cmp m) :
    AscendingKeys cmp (alterAll cmp change changes m) := by
  unfold alterAll
  induction changes generalizing m with
  | nil => exact hm
  | cons e changes ih => exact ih (ascendingKeys_alter _ _ hm)

theorem alterAll_ne_nil {changes : List (κ × γ)} (h : changes ≠ []) (m : List (κ × β)) :
    alterAll cmp change changes m ≠ [] := by
  unfold alterAll
  induction changes generalizing m with
  | nil => exact absurd rfl h
  | cons e changes ih =>
    rw [List.foldl_cons]
    cases changes with
    | nil => exact alter_ne_nil _ _ _
    | cons e' changes => exact ih (List.cons_ne_nil _ _) _

theorem forall_mem_alterAll {P : β → Prop} {changes : List (κ × γ)}
    (hnone : ∀ e ∈ changes, P (change e none))
    (hsome : ∀ e ∈ changes, ∀ v, P v → P (change e (some v))) {m : List (κ × β)}
    (hm : ∀ e ∈ m, P e.2) : ∀ e ∈ alterAll cmp change changes m, P e.2 := by
  unfold alterAll
  induction changes generalizing m with
  | nil => exact hm
  | cons e changes ih =>
    obtain ⟨hnone₀, hnone⟩ := List.forall_mem_cons.1 hnone
    obtain ⟨hsome₀, hsome⟩ := List.forall_mem_cons.1 hsome
    exact ih hnone hsome (forall_mem_alter hnone₀ hsome₀ hm)

/-- Under a key that is changed stands what its change makes of the old value, elsewhere what
    stood there before. -/
theorem find?_alterAll [Std.TransCmp cmp] [Std.LawfulEqCmp cmp] [DecidableEq κ] (j : κ)
    {changes : List (κ × γ)} (hc : AscendingKeys cmp changes) {m : List (κ × β)}
    (hm : AscendingKeys cmp m) :
    find? cmp j (alterAll cmp change changes m) =
      (find? cmp j changes).elim (find? cmp j m) fun v => some (change (j, v) (find? cmp j m)) := by
  unfold alterAll
  induction changes generalizing m with
  | nil => rfl
  | cons e changes ih =>
    obtain ⟨i, v⟩ := e
    obtain ⟨hi, hc⟩ := List.pairwise_cons.1 hc
    rw [List.foldl_cons, ih hc (ascendingKeys_alter _ _ hm), find?_alter _ _ _ hm, find?_cons]
    by_cases hj : j = i
    · -- the keys ascend, so no later change is under this key
      subst hj
      rw [if_pos rfl, if_pos Std.ReflCmp.compare_self, find?_eq_none_of_lt hi]
      rfl
    · rw [if_neg hj, if_neg (compare_ne_eq hj)]

end Changes

end Maps

end CompilerFuzz.Sorted
