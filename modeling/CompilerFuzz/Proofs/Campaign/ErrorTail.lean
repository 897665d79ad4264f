/-
  CompilerFuzz.Proofs.Campaign.ErrorTail

  What is kept of the standard error of a tool. The last bytes of it are taken, without regard
  for characters, and then read and trimmed. If the stream is a text, the cut falls into at most
  one character, and what is left of that one is read as replacement characters; behind it
  stands the longest end of the text that fits (`exists_drop_encode`). Trimming does not reach
  the replacement characters, so what is kept ends as the trimmed text does (`KeptOf`).
-/
import CompilerFuzz.Campaign.Tool
import CompilerFuzz.Proofs.Text.Decoding

namespace CompilerFuzz.Campaign

open CompilerFuzz.Text CompilerFuzz.Text.Utf8

/-! ## A cut in the bytes of a text -/

/-- The longest end of a text that has at most `limit` bytes. -/
structure LongestEnd (limit : Nat) (text part : List Char) : Prop where
  suffix : part <:+ text
  fits : (encode part).length ≤ limit
  longest : ∀ other, other <:+ text → (encode other).length ≤ limit → other <:+ part

theorem LongestEnd.self {limit : Nat} {text : List Char} (h : (encode text).length ≤ limit) :
    LongestEnd limit text text :=
  ⟨List.suffix_rfl, h, fun _ hother _ => hother⟩

theorem LongestEnd.cons {limit : Nat} {c : Char} {text part : List Char}
    (h : LongestEnd limit text part) (hc : limit < (encode (c :: text)).length) :
    LongestEnd limit (c :: text) part := by
  refine ⟨h.suffix.trans (List.suffix_cons c text), h.fits, fun other hother hfits => ?_⟩
  rcases List.suffix_cons_iff.1 hother with rfl | hother
  · exact absurd hfits (Nat.not_le_of_lt hc)
  · exact h.longest other hother hfits

/-- The last bytes of a text are what is left of one character, and the longest end of the
    text that fits. -/
theorem exists_drop_encode (limit : Nat) (text : List Char) :
    ∃ cut part, LongestEnd limit text part ∧
      (encode text).drop ((encode text).length - limit) = cut ++ encode part ∧
      (∀ b ∈ cut, Following b) ∧ cut.length ≤ 3 := by
  induction text with
  | nil => exact ⟨[], [], .self (Nat.zero_le _), List.drop_nil, List.forall_mem_nil _, Nat.zero_le _⟩
  | cons c text ih =>
    rcases Nat.lt_or_ge limit (encode (c :: text)).length with hlong | hfits
    · obtain ⟨cut, part, hpart, hdrop, hcut, hlength⟩ := ih
      have hsize := length_encodeChar_le c
      rw [encode_cons, List.length_append] at hlong ⊢
      rcases Nat.lt_or_ge limit (encode text).length with hrest | hrest
      · -- the cut is behind the character
        refine ⟨cut, part, hpart.cons (by rwa [encode_cons, List.length_append]), ?_, hcut, hlength⟩
        rw [← hdrop, List.drop_append, List.drop_eq_nil_of_le (by omega), List.nil_append]
        congr 1
        omega
      · -- the cut is within the character, whose first byte is lost
        refine ⟨(encodeChar c).drop ((encodeChar c).length + (encode text).length - limit), text,
          (LongestEnd.self hrest).cons (by rwa [encode_cons, List.length_append]), ?_,
          following_of_mem_drop (by omega), ?_⟩
        · rw [List.drop_append_of_le_length (by omega)]
        · rw [List.length_drop]
          omega
    · -- all of the text fits, and nothing is lost
      refine ⟨[], c :: text, .self hfits, ?_, List.forall_mem_nil _, Nat.zero_le _⟩
      rw [Nat.sub_eq_zero_of_le hfits]
      rfl

/-! ## What is kept -/

/-- What is kept of a standard error that is the text `text`. -/
structure KeptOf (text : List Char) (kept : String) : Prop where
  /-- The longest end of the text that fits, with a replacement character in front of it for
      every byte by which it falls short, and without blanks at its end. -/
  cut : ∃ part k, LongestEnd Outcome.stderrLimit text part ∧ k ≤ 3 ∧
    k + (encode part).length = min Outcome.stderrLimit (encode text).length ∧
    kept = String.ofList (trimEnd (List.replicate k replacement ++ part))
  /-- A text that fits is kept, its blanks at the end apart. -/
  whole : (encode text).length ≤ Outcome.stderrLimit → kept = String.ofList (trimEnd text)
  /-- Behind the replacement characters stands the end of the trimmed text. -/
  ending : ∃ k ≤ 3, ∃ part, part <:+ trimEnd text ∧
    kept.toList = List.replicate k replacement ++ part

theorem isBlank_replacement : isBlank replacement = false := by
  decide

theorem keptOf_stderrText (text : List Char) : KeptOf text (Outcome.stderrText (encode text)) := by
  obtain ⟨cut, part, hpart, hdrop, hcut, hlength⟩ :=
    exists_drop_encode Outcome.stderrLimit text
  have hkept : Outcome.stderrText (encode text) =
      String.ofList (trimEnd (List.replicate cut.length replacement ++ part)) := by
    unfold Outcome.stderrText Outcome.tail trimEndText textOfLossy
    rw [hdrop, decodeLossy_following_append hcut, String.toList_ofList]
  have hsum : cut.length + (encode part).length =
      min Outcome.stderrLimit (encode text).length := by
    rw [← List.length_append, ← hdrop, List.length_drop]
    omega
  refine ⟨⟨part, cut.length, hpart, hlength, hsum, hkept⟩, fun hfits => ?_,
    ⟨cut.length, hlength, trimEnd part, trimEnd_suffix hpart.suffix, ?_⟩⟩
  · -- the whole text is its longest end, and nothing is cut
    have hwhole : part = text :=
      hpart.suffix.eq_of_length_le (hpart.longest text List.suffix_rfl hfits).length_le
    rw [hwhole, Nat.min_eq_right hfits] at hsum
    have hnone : cut.length = 0 := by omega
    rw [hkept, hnone, hwhole]
    rfl
  · rw [hkept, String.toList_ofList, trimEnd_replicate_append isBlank_replacement]

/-- What the outcome of a call keeps of its standard error. Of a text it keeps the longest end
    that fits, with at most three replacement characters in front and without blanks at the end;
    of any bytes it keeps a text, which the last of them alone decide. -/
theorem stderr_ofExit (call : Invocation) (exit : Exit) :
    (∀ text, exit.stderr = encode text → KeptOf text (Outcome.ofExit call exit).stderr) ∧
    textOf? (bytesOf (Outcome.ofExit call exit).stderr) = some (Outcome.ofExit call exit).stderr ∧
    ∀ (call' : Invocation) (exit' : Exit),
      exit'.stderr.drop (exit'.stderr.length - Outcome.stderrLimit) =
        exit.stderr.drop (exit.stderr.length - Outcome.stderrLimit) →
      (Outcome.ofExit call' exit').stderr = (Outcome.ofExit call exit).stderr := by
  refine ⟨fun text htext => ?_, textOf?_bytesOf _, fun call' exit' hlast => ?_⟩
  · show KeptOf text (Outcome.stderrText exit.stderr)
    rw [htext]
    exact keptOf_stderrText text
  · show Outcome.stderrText exit'.stderr = Outcome.stderrText exit.stderr
    unfold Outcome.stderrText Outcome.tail
    rw [hlast]

/-- A text that is one byte too long, and starts with a character of two. -/
theorem stderr_of_split_character :
    let text := 'é' :: List.replicate 4095 'x'
    let exit : Exit := ⟨some 1, [], encode text⟩
    (encode text).length = Outcome.stderrLimit + 1 ∧
      KeptOf text (Outcome.ofExit ⟨.compile, "clang", [], .discard⟩ exit).stderr := by
  refine ⟨?_, (stderr_ofExit _ _).1 _ rfl⟩
  show ((_ :: List.replicate 4095 'x').flatMap encodeChar).length = _
  rw [List.length_flatMap, List.map_cons, List.sum_cons, List.map_replicate,
    List.sum_replicate_nat]
  rfl

end CompilerFuzz.Campaign
