import Synopsis.CommandLine
import Synopsis.Proofs.Provenance

/-!
# The caret stands below the token at fault

The column of a caret is a sum over the tokens before the one at fault, and the line above it is put
together from all tokens. The two are computed apart, and they agree: the tokens before, each with
the space that follows it, take up the line exactly to the caret, and the token at fault starts
there (`Caret.PointsAt`). Columns count characters. An empty token takes up no column, so the caret
then stands below the space that follows it, or right behind the line.

Every failure names a token or the end of the argument list, so the caret that a command line shows
with it stands below that token or one space past the end of the line.
-/

namespace Synopsis

namespace Caret

/-- The tokens, each with the space that follows it. -/
def spaced (tokens : List String) : List Char := tokens.flatMap fun t => t.toList ++ [' ']

theorem length_spaced (tokens : List String) : (spaced tokens).length = extent tokens := by
  induction tokens with
  | nil => rfl
  | cons t rest ih =>
    rw [spaced, List.flatMap_cons, ← spaced, List.length_append, ih, List.length_append,
      String.length_toList]
    rfl

theorem toList_line (c : Caret) :
    c.line.toList = [' '].intercalate (c.tokens.map String.toList) :=
  String.toList_intercalate

/-- The line is the tokens before a token, each with a space, then the token and the rest. -/
theorem exists_intercalate (before : List String) (t : String) (after : List String) :
    ∃ rest, [' '].intercalate ((before ++ t :: after).map String.toList) =
      spaced before ++ (t.toList ++ rest) := by
  induction before with
  | nil =>
    cases after with
    | nil => exact ⟨[], by simp [spaced]⟩
    | cons u after =>
      exact ⟨' ' :: [' '].intercalate ((u :: after).map String.toList), by simp [spaced]⟩
  | cons u before ih =>
    obtain ⟨rest, ih⟩ := ih
    refine ⟨rest, ?_⟩
    have hne : (before ++ t :: after).map String.toList ≠ [] := by simp
    rw [List.cons_append, List.map_cons, List.intercalate_cons_of_ne_nil hne, ih, spaced, spaced,
      List.flatMap_cons]
    simp

/-- The caret stands below the first character of the token: the tokens before it, each with a
space, take up the line to the caret, and the token starts there. -/
structure PointsAt (c : Caret) (t : String) : Prop where
  token : c.tokens[c.offset]? = some t
  inside : c.column ≤ c.line.length
  before : c.line.toList.take c.column = spaced (c.tokens.take c.offset)
  start : t.toList <+: c.line.toList.drop c.column

theorem pointsAt {c : Caret} {t : String} (h : c.tokens[c.offset]? = some t) : c.PointsAt t := by
  obtain ⟨hlt, hget⟩ := List.getElem?_eq_some_iff.1 h
  have htokens : c.tokens.take c.offset ++ t :: c.tokens.drop (c.offset + 1) = c.tokens := by
    rw [← hget, ← List.drop_eq_getElem_cons hlt, List.take_append_drop]
  obtain ⟨rest, hline⟩ :=
    exists_intercalate (c.tokens.take c.offset) t (c.tokens.drop (c.offset + 1))
  rw [htokens, ← toList_line] at hline
  -- The column adds up lengths, and they are those of the text before the token.
  have hcolumn : c.column = (spaced (c.tokens.take c.offset)).length := by
    rw [column, if_pos hlt, length_spaced]
  refine ⟨h, ?_, ?_, ?_⟩
  · rw [← String.length_toList, hline, hcolumn, List.length_append]
    exact Nat.le_add_right _ _
  · rw [hline, hcolumn, List.take_left]
  · rw [hline, hcolumn, List.drop_left]
    exact List.prefix_append _ _

/-- A caret that names no token stands one space past the end of a line that is not empty. -/
theorem column_of_le {c : Caret} (h : c.tokens.length ≤ c.offset) :
    c.column = if c.tokens = [] then 0 else c.line.length + 1 := by
  rw [column, if_neg (Nat.not_lt.2 h)]
  simp only [List.isEmpty_iff]

end Caret

namespace Usage

variable {given : Option String} {source : String} {usage : Usage} {texts : List String}

/-- What an error says is true of the argument list at its offset. -/
theorem blames_of_fit (h : read given source = .ok usage) {i : Nat} {e : MatchError}
    (hfit : usage.fit texts = .error ⟨i, e⟩) : e.Blames usage texts i := by
  have hhelp : ¬("-h" ∈ texts ∨ "--help" ∈ texts) := by
    intro hasks
    rw [fit_eq, if_pos hasks] at hfit
    cases hfit
  rcases (fit_eq_error_iff hhelp).1 hfit with hgroup | ⟨-, hoption⟩ | ⟨hgroups, hoptions, hfail⟩
  · obtain ⟨t, ht, hfault⟩ := List.exists_of_findSome?_eq_some hgroup
    exact Token.blames_of_groupFault? ht hfault
  · obtain ⟨t, ht, hfault⟩ := List.exists_of_findSome?_eq_some hoption
    exact Token.blames_of_unknownFault? ht hfault
  · exact blames_of_complete (indexed_of_read h) (coherent_of_read h)
      (known_of_mem_spelledOut hgroups hoptions) hfail

/-- **The caret stands below the token at fault.** Whatever the offset, a caret is shown as the
tokens with one space between each two and, below them, as many spaces as its column and the caret.
It points at the token of its offset, if there is one; otherwise it stands one space past the end of
the line, or at its start if there are no tokens. For every failure of matching a command line shows
one caret, which points at the token that the failure names, or stands at the end if there are too
few values. -/
theorem caret_below_fault :
    (∀ c : Caret,
      c.render.toList = [' '].intercalate (c.tokens.map String.toList) ++
        '\n' :: (List.replicate c.column ' ' ++ ['^']) ∧
      (∀ t, c.tokens[c.offset]? = some t → c.PointsAt t) ∧
      (c.tokens.length ≤ c.offset →
        c.column = if c.tokens = [] then 0 else c.line.length + 1)) ∧
    ∀ {given : Option String} {source : String} {usage : Usage} {texts : List String} {i : Nat}
      {e : MatchError}, read given source = .ok usage → usage.fit texts = .error ⟨i, e⟩ →
      (usage.reply texts).calls = [.printError e.message, .pointAt ⟨i, texts⟩] ∧
      ((∀ min received hint, e ≠ .tooFewArguments min received hint) →
        ∃ t, (Caret.mk i texts).PointsAt t) ∧
      ∀ min received hint, e = .tooFewArguments min received hint →
        (Caret.mk i texts).column =
          if texts = [] then 0 else (Caret.mk i texts).line.length + 1 := by
  constructor
  · intro c
    refine ⟨?_, fun t ht => Caret.pointsAt ht, Caret.column_of_le⟩
    rw [Caret.render, ← Caret.toList_line]
    simp
  · intro given source usage texts i e h hfit
    obtain ⟨hle, hend⟩ := (blames_of_fit h hfit).place
    refine ⟨by rw [reply, hfit], ?_, ?_⟩
    · intro hother
      have hlt : i < texts.length := by
        refine Nat.lt_of_le_of_ne hle fun heq => ?_
        obtain ⟨min, received, hint, hfew⟩ := hend.1 heq
        exact hother min received hint hfew
      exact ⟨texts[i], Caret.pointsAt (List.getElem?_eq_getElem hlt)⟩
    · intro min received hint hfew
      exact Caret.column_of_le (Nat.le_of_eq (hend.2 ⟨min, received, hint, hfew⟩).symm)

/-- The letter with two bytes counts once: before a value of another kind, and in a list that ends
too early. -/
theorem caret_below_fault_umlaut :
    ∃ usage, read none "Usage: p [-n NUM] [--to ARG] file" = .ok usage ∧
      usage.fit ["--to", "über", "-n", "x"] = .error ⟨3, .invalidTypedValue "x" "-n" .integer⟩ ∧
      (∃ t, (Caret.mk 3 ["--to", "über", "-n", "x"]).PointsAt t) ∧
      (Caret.mk 3 ["--to", "über", "-n", "x"]).column = 13 ∧
      usage.fit ["--to", "über"] = .error ⟨2, .tooFewArguments 1 0 (some "--to")⟩ ∧
      (Caret.mk 2 ["--to", "über"]).column = "--to über".length + 1 := by
  let usage : Usage :=
    { program := "p"
      message := "Usage: p [-n NUM] [--to ARG] file"
      arguments := [⟨"file", .required⟩]
      options := [⟨"n", .short 'n', some "NUM"⟩, ⟨"to", .long "to", some "ARG"⟩]
      flagTable := NameMap.empty.insertAll [("-n", 0), ("--to", 1)]
      defaults := .empty }
  have hread : read none "Usage: p [-n NUM] [--to ARG] file" = .ok usage := by decide +kernel
  have hkind : usage.fit ["--to", "über", "-n", "x"] =
      .error ⟨3, .invalidTypedValue "x" "-n" .integer⟩ := by decide +kernel
  have hfew : usage.fit ["--to", "über"] = .error ⟨2, .tooFewArguments 1 0 (some "--to")⟩ := by
    decide +kernel
  refine ⟨usage, hread, hkind, ?_, by decide +kernel, hfew, ?_⟩
  · exact (caret_below_fault.2 hread hkind).2.1 nofun
  · exact (caret_below_fault.2 hread hfew).2.2 _ _ _ rfl

end Usage

end Synopsis
