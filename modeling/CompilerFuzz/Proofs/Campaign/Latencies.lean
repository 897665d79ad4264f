/-
  CompilerFuzz.Proofs.Campaign.Latencies

  The statistics of a sequence of latencies are those of the whole sequence. `Summarizes` is the
  invariant: one more recorded latency keeps it (`Summarizes.record`), so it holds of any
  sequence (`summarizes_ofList`). From it the sum lies between the least and the greatest latency,
  each taken as often as there are latencies (`mul_least_le_sum`, `sum_le_mul_greatest`), and so
  does the mean. `record?` is recording in words, of 64 bits for the count and of 128 bits for the
  sum; up to the largest count neither is left.
-/
import CompilerFuzz.Campaign.Latency

namespace CompilerFuzz.Campaign.Latency

open CompilerFuzz.Text

/-- The statistics after the given latencies, from the first to the last. -/
def ofList (ds : List Span) : Latency := ds.foldl record empty

/-- What the given latencies count for together. -/
def total : List Span → Nat
  | [] => 0
  | d :: ds => clip d + total ds

/-- The least number that one of the latencies counts for. -/
def Fastest (ds : List Span) (n : Nat) : Prop :=
  (∃ d ∈ ds, clip d = n) ∧ ∀ d ∈ ds, n ≤ clip d

/-- The greatest number that one of the latencies counts for. -/
def Slowest (ds : List Span) (n : Nat) : Prop :=
  (∃ d ∈ ds, clip d = n) ∧ ∀ d ∈ ds, clip d ≤ n

/-- The largest number in a word of 128 bits. -/
def maxWord128 : Nat := 0xFFFFFFFFFFFFFFFFFFFFFFFFFFFFFFFF

/-- Records one latency in words; `none` if the count or the sum leaves its word. -/
def record? (l : Latency) (s : Span) : Option Latency :=
  if l.count < maxWord64 ∧ l.sum + clip s ≤ maxWord128 then some (l.record s) else none

/-! ## Totals -/

theorem clip_le (s : Span) : clip s ≤ maxWord64 := Nat.min_le_right _ _

theorem total_concat (ds : List Span) (d : Span) : total (ds ++ [d]) = total ds + clip d := by
  induction ds with
  | nil => exact Nat.add_comm _ _
  | cons x ds ih =>
    show clip x + total (ds ++ [d]) = clip x + total ds + clip d
    rw [ih, Nat.add_assoc]

theorem mul_le_total {ds : List Span} {n : Nat} (h : ∀ d ∈ ds, n ≤ clip d) :
    ds.length * n ≤ total ds := by
  induction ds with
  | nil => exact Nat.le_of_eq (Nat.zero_mul n)
  | cons d ds ih =>
    obtain ⟨hd, hds⟩ := List.forall_mem_cons.1 h
    have hrest := ih hds
    show (ds.length + 1) * n ≤ clip d + total ds
    rw [Nat.succ_mul]
    omega

theorem total_le_mul {ds : List Span} {n : Nat} (h : ∀ d ∈ ds, clip d ≤ n) :
    total ds ≤ ds.length * n := by
  induction ds with
  | nil => exact Nat.zero_le _
  | cons d ds ih =>
    obtain ⟨hd, hds⟩ := List.forall_mem_cons.1 h
    have hrest := ih hds
    show clip d + total ds ≤ (ds.length + 1) * n
    rw [Nat.succ_mul]
    omega

/-! ## The invariant -/

/-- The statistics of a sequence. The values that `least` and `greatest` start from are those of
    no latency, and stand only where none is recorded. -/
structure Summarizes (l : Latency) (ds : List Span) : Prop where
  count_eq : l.count = ds.length
  sum_eq : l.sum = total ds
  bounds : ∀ d ∈ ds, l.least ≤ clip d ∧ clip d ≤ l.greatest
  attained : ds ≠ [] → (∃ d ∈ ds, clip d = l.least) ∧ ∃ d ∈ ds, clip d = l.greatest
  neutral : ds = [] → l.least = maxWord64 ∧ l.greatest = 0

variable {l : Latency} {ds : List Span} {n : Nat} {s : Span}

theorem summarizes_empty : Summarizes empty [] where
  count_eq := rfl
  sum_eq := rfl
  bounds := List.forall_mem_nil _
  attained h := absurd rfl h
  neutral _ := ⟨rfl, rfl⟩

theorem Summarizes.record (h : Summarizes l ds) (d : Span) :
    Summarizes (l.record d) (ds ++ [d]) where
  count_eq := by
    rw [List.length_append, List.length_singleton, ← h.count_eq]
    rfl
  sum_eq := by
    rw [total_concat, ← h.sum_eq]
    rfl
  bounds := by
    rw [List.forall_mem_append, List.forall_mem_singleton]
    refine ⟨fun x hx => ?_, Nat.min_le_right _ _, Nat.le_max_right _ _⟩
    obtain ⟨hleast, hgreatest⟩ := h.bounds x hx
    exact ⟨Nat.le_trans (Nat.min_le_left _ _) hleast,
      Nat.le_trans hgreatest (Nat.le_max_left _ _)⟩
  attained _ := by
    have hlast : d ∈ ds ++ [d] := List.mem_append_right _ List.mem_cons_self
    show (∃ x ∈ ds ++ [d], clip x = min l.least (clip d)) ∧
      ∃ x ∈ ds ++ [d], clip x = max l.greatest (clip d)
    by_cases hnone : ds = []
    · -- the first latency takes the place of both neutral values
      obtain ⟨hleast, hgreatest⟩ := h.neutral hnone
      rw [hleast, hgreatest, Nat.min_eq_right (clip_le d), Nat.max_eq_right (Nat.zero_le _)]
      exact ⟨⟨d, hlast, rfl⟩, d, hlast, rfl⟩
    · obtain ⟨⟨a, ha, hleast⟩, b, hb, hgreatest⟩ := h.attained hnone
      -- the least latency was attained before, or it is the new one; likewise the greatest
      constructor
      · by_cases hd : l.least ≤ clip d
        · exact ⟨a, List.mem_append_left _ ha, hleast.trans (Nat.min_eq_left hd).symm⟩
        · exact ⟨d, hlast, (Nat.min_eq_right (Nat.le_of_not_le hd)).symm⟩
      · by_cases hd : clip d ≤ l.greatest
        · exact ⟨b, List.mem_append_left _ hb, hgreatest.trans (Nat.max_eq_left hd).symm⟩
        · exact ⟨d, hlast, (Nat.max_eq_right (Nat.le_of_not_le hd)).symm⟩
  neutral h := absurd h (List.append_ne_nil_of_right_ne_nil _ (List.cons_ne_nil _ _))

theorem summarizes_foldl (h : Summarizes l ds) (more : List Span) :
    Summarizes (more.foldl Latency.record l) (ds ++ more) := by
  induction more generalizing l ds with
  | nil =>
    rw [List.append_nil]
    exact h
  | cons d more ih =>
    rw [List.foldl_cons, List.append_cons]
    exact ih (h.record d)

/-- Every sequence of latencies is summarized. -/
theorem summarizes_ofList (ds : List Span) : Summarizes (ofList ds) ds :=
  summarizes_foldl summarizes_empty ds

namespace Summarizes

theorem mul_least_le_sum (h : Summarizes l ds) : l.count * l.least ≤ l.sum := by
  rw [h.count_eq, h.sum_eq]
  exact mul_le_total fun d hd => (h.bounds d hd).1

theorem sum_le_mul_greatest (h : Summarizes l ds) : l.sum ≤ l.count * l.greatest := by
  rw [h.count_eq, h.sum_eq]
  exact total_le_mul fun d hd => (h.bounds d hd).2

theorem least_le (h : Summarizes l ds) : l.least ≤ maxWord64 := by
  by_cases hnone : ds = []
  · exact Nat.le_of_eq (h.neutral hnone).1
  · obtain ⟨⟨d, -, hd⟩, -⟩ := h.attained hnone
    exact hd ▸ clip_le d

theorem greatest_le (h : Summarizes l ds) : l.greatest ≤ maxWord64 := by
  by_cases hnone : ds = []
  · rw [(h.neutral hnone).2]
    exact Nat.zero_le _
  · obtain ⟨-, d, -, hd⟩ := h.attained hnone
    exact hd ▸ clip_le d

theorem count_pos_iff (h : Summarizes l ds) : 0 < l.count ↔ ds ≠ [] := by
  rw [h.count_eq, List.length_pos_iff]

/-- The mean lies between the least and the greatest latency. -/
theorem mean_bounds (h : Summarizes l ds) (hne : ds ≠ []) :
    l.least ≤ l.sum / l.count ∧ l.sum / l.count ≤ l.greatest := by
  have hpos : 0 < l.count := h.count_pos_iff.2 hne
  constructor
  · rw [Nat.le_div_iff_mul_le hpos, Nat.mul_comm]
    exact h.mul_least_le_sum
  · exact Nat.div_le_of_le_mul h.sum_le_mul_greatest

/-- The mean fits into a word of 64 bits, so its conversion loses nothing. -/
theorem mean_le (h : Summarizes l ds) : l.sum / l.count ≤ maxWord64 := by
  by_cases hne : ds = []
  · have hzero : l.count = 0 := by rw [h.count_eq, hne]; rfl
    rw [hzero, Nat.div_zero]
    exact Nat.zero_le _
  · exact Nat.le_trans (h.mean_bounds hne).2 h.greatest_le

/-- As many latencies as a word can count add up to a word of twice the size. -/
theorem sum_le (h : Summarizes l ds) (hlen : ds.length ≤ maxWord64) : l.sum ≤ maxWord128 := by
  have hmost : l.count * l.greatest ≤ maxWord64 * maxWord64 :=
    Nat.mul_le_mul (h.count_eq ▸ hlen) h.greatest_le
  have hwide : maxWord64 * maxWord64 ≤ maxWord128 := by decide
  exact Nat.le_trans h.sum_le_mul_greatest (Nat.le_trans hmost hwide)

theorem record?_eq_some (h : Summarizes l ds) {d : Span} (hlen : ds.length < maxWord64) :
    l.record? d = some (l.record d) := by
  have hsum : (l.record d).sum ≤ maxWord128 :=
    (h.record d).sum_le (by rw [List.length_append, List.length_singleton]; omega)
  exact if_pos ⟨h.count_eq ▸ hlen, hsum⟩

/-- The statistics in words are those without a limit, up to the largest count. -/
theorem foldlM_record? (h : Summarizes l ds) {more : List Span}
    (hlen : ds.length + more.length ≤ maxWord64) :
    more.foldlM Latency.record? l = some (more.foldl Latency.record l) := by
  induction more generalizing l ds with
  | nil => rfl
  | cons d more ih =>
    rw [List.length_cons] at hlen
    rw [List.foldlM_cons, h.record?_eq_some (by omega), List.foldl_cons]
    refine ih (h.record d) ?_
    rw [List.length_append, List.length_singleton]
    omega

end Summarizes

/-! ## What is shown -/

theorem totalNanos_spanOf (h : n ≤ maxWord64) : (spanOf n).totalNanos = n := by
  unfold spanOf
  rw [Span.totalNanos_ofNanos, Nat.min_eq_left h]

/-- A shown number is that of the span, if it fits into its word. -/
theorem shown_eq_some_iff (hn : n ≤ maxWord64) :
    (if l.count = 0 then none else some (spanOf n)) = some s ↔
      0 < l.count ∧ s.totalNanos = n := by
  by_cases hzero : l.count = 0
  · simp [hzero]
  · rw [if_neg hzero, Option.some.injEq, and_iff_right (Nat.pos_of_ne_zero hzero)]
    constructor
    · rintro rfl
      exact totalNanos_spanOf hn
    · intro hs
      exact Span.totalNanos_inj ((totalNanos_spanOf hn).trans hs.symm)

theorem Fastest.ne_nil (h : Fastest ds n) : ds ≠ [] := by
  obtain ⟨⟨d, hd, -⟩, -⟩ := h
  exact List.ne_nil_of_mem hd

theorem Slowest.ne_nil (h : Slowest ds n) : ds ≠ [] := by
  obtain ⟨⟨d, hd, -⟩, -⟩ := h
  exact List.ne_nil_of_mem hd

theorem Fastest.unique {m : Nat} (hm : Fastest ds m) (hn : Fastest ds n) : m = n := by
  obtain ⟨⟨a, ha, rfl⟩, hmin⟩ := hm
  obtain ⟨⟨b, hb, rfl⟩, hmin'⟩ := hn
  exact Nat.le_antisymm (hmin b hb) (hmin' a ha)

theorem Slowest.unique {m : Nat} (hm : Slowest ds m) (hn : Slowest ds n) : m = n := by
  obtain ⟨⟨a, ha, rfl⟩, hmax⟩ := hm
  obtain ⟨⟨b, hb, rfl⟩, hmax'⟩ := hn
  exact Nat.le_antisymm (hmax' a ha) (hmax b hb)

namespace Summarizes

theorem fastest (h : Summarizes l ds) (hne : ds ≠ []) : Fastest ds l.least :=
  ⟨(h.attained hne).1, fun d hd => (h.bounds d hd).1⟩

theorem slowest (h : Summarizes l ds) (hne : ds ≠ []) : Slowest ds l.greatest :=
  ⟨(h.attained hne).2, fun d hd => (h.bounds d hd).2⟩

/-- A shown number is told by a property that it alone has, and that no number has where no
    latency is recorded. -/
theorem shown_eq_some_iff_of_unique (h : Summarizes l ds) (hn : n ≤ maxWord64) {p : Nat → Prop}
    (hholds : ds ≠ [] → p n) (hne : ∀ m, p m → ds ≠ []) (hunique : ∀ m, p m → p n → m = n) :
    (if l.count = 0 then none else some (spanOf n)) = some s ↔ p s.totalNanos := by
  rw [shown_eq_some_iff hn, h.count_pos_iff]
  constructor
  · rintro ⟨hsome, hs⟩
    rw [hs]
    exact hholds hsome
  · intro hs
    have hsome : ds ≠ [] := hne _ hs
    exact ⟨hsome, hunique _ hs (hholds hsome)⟩

theorem min?_eq_some_iff (h : Summarizes l ds) :
    l.min? = some s ↔ Fastest ds s.totalNanos := by
  unfold min?
  exact h.shown_eq_some_iff_of_unique h.least_le h.fastest (fun _ => Fastest.ne_nil)
    fun _ => Fastest.unique

theorem max?_eq_some_iff (h : Summarizes l ds) :
    l.max? = some s ↔ Slowest ds s.totalNanos := by
  unfold max?
  exact h.shown_eq_some_iff_of_unique h.greatest_le h.slowest (fun _ => Slowest.ne_nil)
    fun _ => Slowest.unique

theorem mean?_eq_some_iff (h : Summarizes l ds) :
    l.mean? = some s ↔ ds ≠ [] ∧ s.totalNanos = total ds / ds.length := by
  unfold mean?
  rw [shown_eq_some_iff h.mean_le, h.count_pos_iff, h.sum_eq, h.count_eq]

/-- A number is shown exactly where something is recorded. -/
theorem shown_eq_none_iff (h : Summarizes l ds) (t : Span) :
    (if l.count = 0 then none else some t) = none ↔ ds = [] := by
  have hcount : l.count = 0 ↔ ds = [] := by rw [h.count_eq, List.length_eq_zero_iff]
  by_cases hnone : ds = [] <;> simp [hcount, hnone]

end Summarizes

/-! ## The order of the latencies -/

theorem record_comm (l : Latency) (a b : Span) :
    (l.record a).record b = (l.record b).record a := by
  simp only [Latency.record, mk.injEq, true_and]
  exact ⟨by omega, by omega, by omega⟩

theorem ofList_perm {ds' : List Span} (h : ds'.Perm ds) : ofList ds' = ofList ds :=
  h.foldl_eq' (fun a _ b _ l => record_comm l a b) empty

/-- The statistics of fewer than `2 ^ 64` latencies are exact. The count is their number; the
    fastest and the slowest are the least and the greatest of the numbers that they count for,
    and the mean is their total divided by the count and rounded down; it lies between the two.
    All three are absent if there are no latencies, and only then. The order of the latencies does
    not matter. No word is left while they are recorded, nor when the mean is converted. -/
theorem ofList_statistics (ds : List Span) (hlen : ds.length ≤ maxWord64) :
    (ofList ds).count = ds.length ∧
    (∀ s, (ofList ds).min? = some s ↔ Fastest ds s.totalNanos) ∧
    (∀ s, (ofList ds).max? = some s ↔ Slowest ds s.totalNanos) ∧
    (∀ s, (ofList ds).mean? = some s ↔ ds ≠ [] ∧ s.totalNanos = total ds / ds.length) ∧
    (∀ a b c, (ofList ds).min? = some a → (ofList ds).mean? = some b → (ofList ds).max? = some c →
      a.totalNanos ≤ b.totalNanos ∧ b.totalNanos ≤ c.totalNanos) ∧
    ((ofList ds).min? = none ↔ ds = []) ∧
    ((ofList ds).max? = none ↔ ds = []) ∧
    ((ofList ds).mean? = none ↔ ds = []) ∧
    (∀ ds' : List Span, ds'.Perm ds → ofList ds' = ofList ds) ∧
    ds.foldlM record? empty = some (ofList ds) ∧
    (ofList ds).sum / (ofList ds).count ≤ maxWord64 := by
  have h : Summarizes (ofList ds) ds := summarizes_ofList ds
  have hwords : ds.foldlM record? empty = some (ofList ds) :=
    summarizes_empty.foldlM_record? (by rw [List.length_nil, Nat.zero_add]; exact hlen)
  refine ⟨h.count_eq, fun _ => h.min?_eq_some_iff, fun _ => h.max?_eq_some_iff,
    fun _ => h.mean?_eq_some_iff, fun a b c ha hb hc => ?_, h.shown_eq_none_iff _,
    h.shown_eq_none_iff _, h.shown_eq_none_iff _, fun _ => ofList_perm, hwords, h.mean_le⟩
  -- what is shown is least, mean and greatest of the numbers that were summed up
  obtain ⟨hne, hmean⟩ := h.mean?_eq_some_iff.1 hb
  have hbounds := h.mean_bounds hne
  rw [(h.min?_eq_some_iff.1 ha).unique (h.fastest hne),
    (h.max?_eq_some_iff.1 hc).unique (h.slowest hne), hmean, ← h.sum_eq, ← h.count_eq]
  exact hbounds

/-- A latency of more than five hundred years counts for the largest word, in the mean as well. -/
theorem statistics_of_long_latency :
    let ds : List Span := [.ofSecs 3, .ofSecs maxWord64]
    ds.length ≤ maxWord64 ∧
    (ofList ds).min? = some (.ofSecs 3) ∧
    (∃ s, (ofList ds).mean? = some s ∧ s.totalNanos = 9223372038354775807) ∧
    ds.foldlM record? empty = some (ofList ds) := by
  intro ds
  have hlen : ds.length ≤ maxWord64 := by decide
  obtain ⟨-, hmin, -, hmean, -, -, -, -, -, hwords, -⟩ := ofList_statistics ds hlen
  have hfastest : Fastest ds (Span.ofSecs 3).totalNanos :=
    ⟨⟨_, List.mem_cons_self, by decide⟩, by decide⟩
  refine ⟨hlen, (hmin _).2 hfastest, ?_, hwords⟩
  exact ⟨_, (hmean (Span.ofNanos 9223372038354775807 (by decide))).2 ⟨by decide, by decide⟩,
    by decide⟩

end CompilerFuzz.Campaign.Latency
