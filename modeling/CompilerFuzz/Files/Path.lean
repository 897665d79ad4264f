/-
  CompilerFuzz.Files.Path

  Paths as texts. A path is a sequence of names set apart by slashes; an empty name or
  a single dot stands for nothing, two dots for the directory above. Joining and taking
  the parent change the text as little as they can: nothing else is normalised.
-/

namespace CompilerFuzz.Files

/-- A path as it is written. -/
abbrev Path := String

namespace Path

/-- The pieces of a path between its slashes, empty ones included. -/
def pieces (cs : List Char) : List (List Char) :=
  cs.foldr (fun c ps =>
    if c = '/' then [] :: ps
    else match ps with
      | [] => [[c]]
      | p :: ps => (c :: p) :: ps) [[]]

/-- Does the path start at the root of the system? -/
def isAbsolute (p : Path) : Bool :=
  p.toList.head? == some '/'

/-- The path of `name` in the directory `dir`. An absolute name stands for itself. -/
def join (dir name : Path) : Path :=
  if isAbsolute name then name
  else if dir.toList = [] ∨ dir.toList.getLast? = some '/' then dir ++ name
  else dir ++ "/" ++ name

/-- Drops the slashes and the single-dot names at the end of a path written backwards,
    but leaves a path's first character alone. -/
def dropIdle : List Char → List Char
  | '/' :: c :: rest => dropIdle (c :: rest)
  | '.' :: '/' :: c :: rest => dropIdle (c :: rest)
  | cs => cs

/-- The path without its last name; `none` for the empty path and the root. -/
def parent? (p : Path) : Option Path :=
  match dropIdle p.toList.reverse with
  | [] => none
  | ['/'] => none
  | ['.', '/'] => none
  | backwards =>
    match backwards.dropWhile (· ≠ '/') with
    | [] => some ""
    | rest => some (String.ofList (dropIdle rest).reverse)

/-! ## A parent is shorter -/

theorem length_dropIdle_le (cs : List Char) : (dropIdle cs).length ≤ cs.length := by
  fun_induction dropIdle cs with
  | case1 c rest ih => exact Nat.le_succ_of_le ih
  | case2 c rest ih => exact Nat.le_succ_of_le (Nat.le_succ_of_le ih)
  | case3 cs => exact Nat.le_refl _

/-- What is left ends in a slash only if it is nothing but that slash. -/
theorem dropIdle_eq_slash {cs rest : List Char} (h : dropIdle cs = '/' :: rest) : rest = [] := by
  fun_induction dropIdle cs with
  | case1 c rest' ih => exact ih h
  | case2 c rest' ih => exact ih h
  | case3 cs h₁ h₂ =>
    cases rest with
    | nil => rfl
    | cons c rest => exact absurd h (h₁ c rest)

theorem length_parent?_lt {p q : Path} (h : parent? p = some q) :
    q.toList.length < p.toList.length := by
  have hle := length_dropIdle_le p.toList.reverse
  rw [List.length_reverse] at hle
  unfold parent? at h
  split at h
  · cases h
  · cases h
  · cases h
  · next h₁ h₂ _ =>
    have hpos : 0 < (dropIdle p.toList.reverse).length := List.length_pos_iff.2 h₁
    split at h
    · cases h
      simp only [String.toList_empty, List.length_nil]
      omega
    · next hne =>
      cases h
      rw [String.toList_ofList, List.length_reverse]
      -- nothing idle stands at the end, so the path ends in a character of the name that goes
      have hd := length_dropIdle_le ((dropIdle p.toList.reverse).dropWhile (· ≠ '/'))
      cases hb : dropIdle p.toList.reverse with
      | nil => exact absurd hb h₁
      | cons c rest =>
        have hc : c ≠ '/' := by
          rintro rfl
          exact h₂ (by rw [hb, dropIdle_eq_slash hb])
        rw [hb] at hd hle
        have hw : ((c :: rest).dropWhile (· ≠ '/')).length ≤ rest.length := by
          rw [List.dropWhile_cons_of_pos (by simp [hc])]
          exact (List.dropWhile_sublist _).length_le
        rw [List.length_cons] at hle
        omega

end Path

end CompilerFuzz.Files
