import BuildVariants.Proofs.Words.Derivation

/-!
# Lines put together

When a line that can be cut is put in front of another one with a blank between them, the words of
the second line follow those of the first.  At the end of a line that can be cut the splitter is
between two words, inside an open word or inside a comment, and a blank brings it back between two
words in the first two cases (`Reached.step_blank`).  A comment is ended by a line break only: where
the first line ends inside one, any other blank is part of it, and so is what stands behind the
blank, up to the next line break (`splitChars_append_of_endsInComment`).
-/

namespace BuildVariants.Words

variable {cs : List Char} {ws : List (List Char)} {s : State} {c : Char}

/-! ## Ending inside a comment -/

/-- A line that ends inside a comment: where a word could begin there is a `#`, and there is no line
break behind it. -/
def EndsInComment (cs : List Char) : Prop :=
  ∃ front ws body, Front front ws ∧ '\n' ∉ body ∧ cs = front ++ '#' :: body

/-- The splitter knows that it is inside a comment. -/
theorem endsInComment_iff : EndsInComment cs ↔ (State.start.run cs).mode = .comment := by
  constructor
  · rintro ⟨front, ws, body, isFront, oneLine, rfl⟩
    rw [(Reached.comment isFront oneLine).run_eq]
  · intro comment
    have reached := reached_run cs
    generalize State.start.run cs = s at reached comment
    cases reached with
    | gap => cases comment
    | comment front oneLine => exact ⟨_, _, _, front, oneLine, rfl⟩
    | bare => cases comment
    | cut _ _ cut => cases cut <;> cases comment

instance : Decidable (EndsInComment cs) :=
  decidable_of_iff _ endsInComment_iff.symm

/-! ## Reading on behind a line -/

/-- Where a line may end, a blank leads between two words, unless it goes into a comment. -/
theorem Reached.step_blank (reached : Reached cs s) (ends : s.finish = some ws) (blank : c ∈ blanks)
    (seen : c = '\n' ∨ ¬ EndsInComment cs) : s.step c = ⟨ws, [], .gap⟩ := by
  cases reached with
  | gap =>
    cases ends
    simp only [State.step, isSeparator_iff.2 blank, if_true]
  | comment front oneLine =>
    cases ends
    have newline := seen.resolve_right fun outside => outside ⟨_, _, _, front, oneLine, rfl⟩
    subst newline
    rfl
  | bare =>
    cases ends
    exact State.stepBare_of_blank _ blank
  | cut _ _ cut => cases cut <;> cases ends

/-- Behind a blank the rest of the line is read like a line of its own. -/
theorem splitChars_append_blank (cut : splitChars cs = some ws) (blank : c ∈ blanks)
    (seen : c = '\n' ∨ ¬ EndsInComment cs) (rest : List Char) :
    splitChars (cs ++ c :: rest) = (splitChars rest).map (ws ++ ·) :=
  splitChars_append_separator ((reached_run cs).step_blank cut blank seen) rest

/-- What is left of a text from its first line break on. -/
def fromLineBreak (cs : List Char) : List Char :=
  cs.dropWhile (· ≠ '\n')

/-- A comment is passed over up to the line break that ends it. -/
theorem State.finish_run_comment (words : List (List Char)) (rest : List Char) :
    (State.run ⟨words, [], .comment⟩ rest).finish
      = (State.run ⟨words, [], .gap⟩ (fromLineBreak rest)).finish := by
  induction rest with
  | nil => rfl
  | cons c rest ih =>
    by_cases newline : c = '\n'
    · subst newline
      rfl
    · have passed : fromLineBreak (c :: rest) = fromLineBreak rest :=
        List.dropWhile_cons_of_pos (decide_eq_true newline)
      rw [passed, ← ih, run_cons]
      simp only [step, if_neg newline]

/-- Behind a line that ends inside a comment the text up to the next line break is lost. -/
theorem splitChars_append_of_endsInComment (cut : splitChars cs = some ws)
    (comment : EndsInComment cs) (rest : List Char) :
    splitChars (cs ++ rest) = (splitChars (fromLineBreak rest)).map (ws ++ ·) := by
  obtain ⟨front, us, body, isFront, oneLine, rfl⟩ := comment
  have run := (Reached.comment isFront oneLine).run_eq
  unfold splitChars at cut
  rw [run] at cut
  cases cut
  show (State.start.run _).finish = _
  rw [State.run_append, run, State.finish_run_comment, State.finish_run_gap]

end BuildVariants.Words

namespace BuildVariants

open Words

/-- A line that begins with some words and goes on like another line: it is cut into these words and
then those of the other line, and if the other line cannot be cut, it is refused as a whole. -/
structure ContinuesLike (line : String) (words : List String) (other : String) : Prop where
  /-- The words of the other line come last. -/
  cut : ∀ more, splitLine other = .ok more → splitLine line = .ok (words ++ more)
  /-- What is wrong with the other line is wrong with the line. -/
  refused : ∀ e, splitLine other = .error e → splitLine line = .error (.malformedArguments line)

theorem continuesLike_of_splitChars {line other : String} {ws : List (List Char)}
    (continued : splitChars line.toList = (splitChars other.toList).map (ws ++ ·)) :
    ContinuesLike line (ws.map String.ofList) other := by
  have split : split line = (split other).map (ws.map String.ofList ++ ·) := by
    unfold Words.split
    rw [continued, Option.map_map, Option.map_map]
    refine congrArg (Option.map · _) (funext fun more => ?_)
    exact List.map_append
  constructor
  · intro more cut
    rw [splitLine_eq_ok_iff] at cut ⊢
    rw [split, cut, Option.map_some]
  · intro e refused
    rw [splitLine_eq_error_iff] at refused ⊢
    exact ⟨rfl, by rw [split, refused.2, Option.map_none]⟩

/-- **Splitting distributes over line breaks.**  Behind a line break the words of a line follow
those of the line in front of it; behind any other blank they do too, unless the line in front ends
inside a comment.  If it does, what follows is part of the comment up to the next line break. -/
theorem splitLine_append_blank {a : String} {words : List String} (cut : splitLine a = .ok words)
    (b : String) :
    ContinuesLike (a.push '\n' ++ b) words b ∧
    (¬ EndsInComment a.toList →
      ∀ blank ∈ [' ', '\t'], ContinuesLike (a.push blank ++ b) words b) ∧
    (EndsInComment a.toList →
      ∀ blank ∈ [' ', '\t'],
        ContinuesLike (a.push blank ++ b) words (String.ofList (fromLineBreak b.toList))) := by
  obtain ⟨ws, found, rfl⟩ := Option.map_eq_some_iff.1 (splitLine_eq_ok_iff.1 cut)
  have text (c : Char) : (a.push c ++ b).toList = a.toList ++ c :: b.toList := by
    rw [String.toList_append, String.toList_push, List.append_assoc, List.singleton_append]
  refine ⟨continuesLike_of_splitChars ?_, fun outside blank mem => continuesLike_of_splitChars ?_,
    fun comment blank mem => continuesLike_of_splitChars ?_⟩
  · rw [text]
    exact splitChars_append_blank found (by decide) (.inl rfl) b.toList
  · rw [text]
    exact splitChars_append_blank found (List.mem_append_left ['\n'] mem) (.inr outside) b.toList
  · have other : blank ≠ '\n' := by
      rintro rfl
      exact absurd mem (by decide)
    have passed : fromLineBreak (blank :: b.toList) = fromLineBreak b.toList :=
      List.dropWhile_cons_of_pos (decide_eq_true other)
    rw [text, splitChars_append_of_endsInComment found comment, passed, String.toList_ofList]

/-- The theorem for a line with a `#` between quotes and another one that begins a comment, and for
a line without the comment. -/
theorem lines_put_together :
    let line := "'x # y' z # note"
    let rest := "\"p q\"\nr"
    splitLine line = .ok ["x # y", "z"] ∧ EndsInComment line.toList ∧
    splitLine (line.push '\n' ++ rest) = .ok ["x # y", "z", "p q", "r"] ∧
    splitLine (line.push ' ' ++ rest) = .ok ["x # y", "z", "r"] ∧
    splitLine "'x # y' z" = .ok ["x # y", "z"] ∧ ¬ EndsInComment "'x # y' z".toList ∧
    splitLine ("'x # y' z".push '\t' ++ "p 'q")
      = .error (.malformedArguments ("'x # y' z".push '\t' ++ "p 'q")) := by
  intro line rest
  have cut : splitLine line = .ok ["x # y", "z"] := by decide +kernel
  have comment : EndsInComment line.toList := by decide +kernel
  have cut' : splitLine "'x # y' z" = .ok ["x # y", "z"] := by decide +kernel
  have outside : ¬ EndsInComment "'x # y' z".toList := by decide +kernel
  have unfinished : splitLine "p 'q" = .error (.malformedArguments "p 'q") := by decide +kernel
  obtain ⟨below, -, inside⟩ := splitLine_append_blank cut rest
  obtain ⟨-, behind, -⟩ := splitLine_append_blank cut' "p 'q"
  refine ⟨cut, comment, ?_, ?_, cut', outside, ?_⟩
  · exact below.cut ["p q", "r"] (by decide +kernel)
  · exact (inside comment ' ' (by decide)).cut ["r"] (by decide +kernel)
  · exact (behind outside '\t' (by decide)).refused _ unfinished

end BuildVariants
