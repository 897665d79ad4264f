/-
  CompilerFuzz.Text.Front

  What a reader takes from the front of a text: a value, and a rest that is shorter than
  the text. Readers that work through a text piece by piece end because of it.
-/

namespace CompilerFuzz.Text

/-- A value read from the front of `cs`, and the rest of `cs`. -/
structure Front (α : Type) (cs : List Char) where
  value : α
  rest : List Char
  shorter : rest.length < cs.length

namespace Front

variable {α β : Type} {cs ds : List Char}

/-- The same rest with another value. -/
def map (f : α → β) (r : Front α cs) : Front β cs :=
  ⟨f r.value, r.rest, r.shorter⟩

/-- What was read from the front of a part of `ds`, seen from `ds`. -/
def within (r : Front α cs) (h : cs.length ≤ ds.length) : Front α ds :=
  ⟨r.value, r.rest, Nat.lt_of_lt_of_le r.shorter h⟩

/-- What was read after the first character of a text. -/
def cons {c : Char} (r : Front α cs) : Front α (c :: cs) :=
  r.within (Nat.le_succ _)

/-- What a reader takes from `cs`: the value, with the given rest behind it. -/
def Yields (o : Option (Front α cs)) (v : α) (rest : List Char) : Prop :=
  ∃ r, o = some r ∧ r.value = v ∧ r.rest = rest

@[simp] theorem value_map (f : α → β) (r : Front α cs) : (r.map f).value = f r.value := rfl

@[simp] theorem rest_map (f : α → β) (r : Front α cs) : (r.map f).rest = r.rest := rfl

@[simp] theorem value_within (r : Front α cs) (h : cs.length ≤ ds.length) :
    (r.within h).value = r.value := rfl

@[simp] theorem rest_within (r : Front α cs) (h : cs.length ≤ ds.length) :
    (r.within h).rest = r.rest := rfl

/-- A reader that changes the value alone, or what the text is a part of, leaves the same rest. -/
theorem Yields.map {o : Option (Front α cs)} {v : α} {rest : List Char} (h : Yields o v rest)
    {g : Front α cs → Front β ds} {w : β} (hvalue : ∀ r, r.value = v → (g r).value = w)
    (hrest : ∀ r, (g r).rest = r.rest) : Yields (o.map g) w rest := by
  obtain ⟨r, rfl, hv, rfl⟩ := h
  exact ⟨g r, rfl, hvalue r hv, hrest r⟩

end Front

end CompilerFuzz.Text
