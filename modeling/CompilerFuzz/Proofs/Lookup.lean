/-
  CompilerFuzz.Proofs.Lookup

  What is found in a list of entries, the first one under a key, after entries were added,
  taken away or changed. For the nodes of file trees and for the entries of TOML tables.
-/
namespace CompilerFuzz

variable {κ ν : Type} [BEq κ] [LawfulBEq κ] [DecidableEq κ]

/-- The first entry decides if it is one under the key. -/
theorem lookup_cons_eq_ite (k : κ) (e : κ × ν) (entries : List (κ × ν)) :
    (e :: entries).lookup k = if k = e.1 then some e.2 else entries.lookup k := by
  rw [List.lookup_cons]
  by_cases h : k = e.1
  · rw [if_pos h, beq_iff_eq.2 h]
  · rw [if_neg h, beq_eq_false_iff_ne.2 h]

theorem lookup_filter_ne (k k' : κ) (entries : List (κ × ν)) :
    (entries.filter fun e => e.1 ≠ k).lookup k' = if k' = k then none else entries.lookup k' := by
  induction entries with
  | nil => exact (ite_self none).symm
  | cons e entries ih =>
    by_cases he : e.1 = k
    · rw [List.filter_cons_of_neg (by simpa using he), ih, lookup_cons_eq_ite, he]
      by_cases h : k' = k
      · rw [if_pos h, if_pos h]
      · rw [if_neg h, if_neg h, if_neg h]
    · rw [List.filter_cons_of_pos (by simpa using he), lookup_cons_eq_ite, lookup_cons_eq_ite, ih]
      by_cases h : k' = e.1
      · have hne : k' ≠ k := h ▸ he
        rw [if_pos h, if_neg hne, if_pos h]
      · rw [if_neg h, if_neg h]

/-- A change of the values under one key is seen under this key alone. -/
theorem lookup_map_at (k k' : κ) (g : ν → ν) (entries : List (κ × ν)) :
    (entries.map fun e => if e.1 = k then (e.1, g e.2) else e).lookup k' =
      if k' = k then (entries.lookup k').map g else entries.lookup k' := by
  induction entries with
  | nil => exact (ite_self none).symm
  | cons e entries ih =>
    rw [List.map_cons, lookup_cons_eq_ite, lookup_cons_eq_ite, ih]
    by_cases he : e.1 = k
    · rw [if_pos he]
      by_cases h : k' = e.1
      · have hk : k' = k := h.trans he
        rw [if_pos h, if_pos h, if_pos hk, Option.map_some]
      · have hk : k' ≠ k := fun hk => h (hk.trans he.symm)
        rw [if_neg h, if_neg h, if_neg hk]
    · rw [if_neg he]
      by_cases h : k' = e.1
      · have hk : k' ≠ k := fun hk => he (h.symm.trans hk)
        rw [if_pos h, if_pos h, if_neg hk]
      · rw [if_neg h, if_neg h]

end CompilerFuzz
