import Synopsis.Proofs.HelpText
import Synopsis.Proofs.SameGrammar

/-!
# Prose

A line of a usage text that declares nothing is prose, unless it is the usage line. Reading goes
over the lines twice, once for the first marker and once for declarations, and both times a line
counts by what it says up to the blanks at its end. So lines that are joined to a text are read
like the lines themselves (`Usage.filterMap_lines_joinLines`), and a line of prose says nothing in
either pass.
-/

namespace Synopsis

/-! ## Lines that are joined -/

namespace Text

/-- A line feed ends the first line, and takes a carriage return before it along. -/
theorem exists_lines_append {line : List Char} (h : '\n' ∉ line) (s : List Char) :
    ∃ first, lines (line ++ '\n' :: s) = first :: lines s ∧ trimEnd first = trimEnd line := by
  induction line with
  | nil => exact ⟨[], rfl, rfl⟩
  | cons c line ih =>
    obtain ⟨hc, hline⟩ := not_or.1 (mt List.mem_cons.2 h)
    obtain ⟨first, hfirst, htrim⟩ := ih hline
    rw [List.cons_append]
    rcases lines_cons_cases c (line ++ '\n' :: s) with ⟨rfl, -⟩ | ⟨rfl, hs, hl⟩ | ⟨-, -, hl⟩
    · exact absurd rfl hc
    · -- The carriage return belongs to the line end, so nothing stands between the two.
      cases line with
      | nil => exact ⟨[], hl, by decide⟩
      | cons d line =>
        rw [List.cons_append, List.head?_cons, Option.some.injEq] at hs
        exact absurd List.mem_cons_self (hs ▸ hline)
    · refine ⟨c :: first, ?_, ?_⟩
      · rw [hl, hfirst]
        rfl
      · rw [trimEnd_cons, trimEnd_cons, htrim]

theorem lines_of_not_mem {line : List Char} (h : '\n' ∉ line) (hne : line ≠ []) :
    lines line = [line] := by
  induction line with
  | nil => exact absurd rfl hne
  | cons c line ih =>
    obtain ⟨hc, hline⟩ := not_or.1 (mt List.mem_cons.2 h)
    rcases lines_cons_cases c line with ⟨rfl, -⟩ | ⟨-, hs, -⟩ | ⟨-, -, hl⟩
    · exact absurd rfl hc
    · exact absurd (List.mem_of_head? hs) hline
    · cases line with
      | nil => exact hl
      | cons d line =>
        rw [hl, ih hline (List.cons_ne_nil d line)]
        rfl

end Text

namespace Usage

/-- What is read line by line, up to blanks at the end of a line, is read from the lines that were
joined. -/
theorem filterMap_lines_joinLines {α : Type} {f : List Char → Option α} (hnil : f [] = none)
    (hf : ∀ line, f (Text.trimEnd line) = f line) {ls : List (List Char)}
    (hls : ∀ line ∈ ls, '\n' ∉ line) :
    (Text.lines (Text.joinLines ls)).filterMap f = ls.filterMap f := by
  induction ls with
  | nil => rfl
  | cons line ls ih =>
    obtain ⟨hline, hls⟩ := List.forall_mem_cons.1 hls
    cases ls with
    | nil =>
      rw [Text.joinLines]
      by_cases hempty : line = []
      · subst hempty
        rw [Text.lines, List.filterMap_nil, List.filterMap_cons, hnil]
        rfl
      · rw [Text.lines_of_not_mem hline hempty]
    | cons next ls =>
      obtain ⟨first, hfirst, htrim⟩ :=
        Text.exists_lines_append hline (Text.joinLines (next :: ls))
      have hsame : f first = f line := by rw [← hf first, htrim, hf]
      rw [Text.joinLines, hfirst, List.filterMap_cons, List.filterMap_cons, hsame, ih hls]
      exact List.cons_ne_nil next ls

theorem lineTokens?_joinLines {ls : List (List Char)} (hls : ∀ line ∈ ls, '\n' ∉ line) :
    lineTokens? (Text.lines (Text.joinLines ls)) = (ls.filterMap tokensOn?).head? := by
  rw [lineTokens?_eq, filterMap_lines_joinLines rfl tokensOn?_trimEnd hls]

theorem listedDeclarations_joinLines {ls : List (List Char)} (hls : ∀ line ∈ ls, '\n' ∉ line) :
    listedDeclarations (Text.lines (Text.joinLines ls)) = ls.filterMap Declaration.read? := by
  rw [listedDeclarations_eq, filterMap_lines_joinLines rfl Declaration.read?_trimEnd hls]

/-! ## A line more -/

theorem tokensOn?_eq_none_iff {line : List Char} : tokensOn? line = none ↔ ¬ marker <:+: line := by
  rw [tokensOn?, Option.map_eq_none_iff, Text.afterFirst?_eq_none_iff]

/-- The first marker is found where it was, if the new line has none or comes after it. -/
theorem head?_filterMap_tokensOn? {before after : List (List Char)} {line : List Char}
    (hmarker : marker <:+: line → ∃ l ∈ before, marker <:+: l) :
    ((before ++ line :: after).filterMap tokensOn?).head? =
      ((before ++ after).filterMap tokensOn?).head? := by
  by_cases hline : marker <:+: line
  · obtain ⟨l, hl, hmark⟩ := hmarker hline
    have hfound : before.filterMap tokensOn? ≠ [] := by
      intro hnil
      exact tokensOn?_eq_none_iff.1 (List.filterMap_eq_nil_iff.1 hnil l hl) hmark
    rw [List.filterMap_append, List.filterMap_append, List.head?_append_of_ne_nil _ hfound,
      List.head?_append_of_ne_nil _ hfound]
  · rw [List.filterMap_append, List.filterMap_append,
      List.filterMap_cons_none (tokensOn?_eq_none_iff.2 hline)]

/-- **Prose does not matter.** A line that declares nothing may stand anywhere behind the usage
line, and before it if it has no marker: reading fails with the same error with and without it, or
gives usages that differ at most in their messages and match alike. -/
theorem prose_does_not_matter {before after : List (List Char)} {line : List Char}
    (hlines : ∀ l ∈ before ++ line :: after, '\n' ∉ l) (hprose : Declaration.read? line = none)
    (hmarker : marker <:+: line → ∃ l ∈ before, marker <:+: l) (given : Option String) :
    Agree
      (fun u v => u.program = v.program ∧ u.arguments = v.arguments ∧ u.options = v.options ∧
        (∀ flag, u.option? flag = v.option? flag) ∧ u.defaults = v.defaults ∧
        ∀ texts, ¬("-h" ∈ texts ∨ "--help" ∈ texts) → u.fit texts = v.fit texts)
      (read given (String.ofList (Text.joinLines (before ++ line :: after))))
      (read given (String.ofList (Text.joinLines (before ++ after)))) := by
  have hrest : ∀ l ∈ before ++ after, '\n' ∉ l := by
    intro l hl
    apply hlines
    simp only [List.mem_append, List.mem_cons] at hl ⊢
    exact hl.imp_right .inr
  apply agree_read
  · simp only [String.toList_ofList]
    rw [lineTokens?_joinLines hlines, lineTokens?_joinLines hrest,
      head?_filterMap_tokensOn? hmarker]
  · intro program elements _ _
    have hlisted : listedDeclarations
        (Text.lines (Text.joinLines (before ++ line :: after))) =
          listedDeclarations (Text.lines (Text.joinLines (before ++ after))) := by
      rw [listedDeclarations_joinLines hlines, listedDeclarations_joinLines hrest,
        List.filterMap_append, List.filterMap_append, List.filterMap_cons_none hprose]
    simp only [String.toList_ofList]
    generalize Text.joinLines (before ++ line :: after) = s at hlisted ⊢
    generalize Text.joinLines (before ++ after) = t at hlisted ⊢
    -- The options, their places and the defaults are all made from the declarations.
    have hoptions : (assemble program s elements).options =
        (assemble program t elements).options := by
      simp only [assemble, hlisted]
    have hsame : (assemble program s elements).SameGrammar (assemble program t elements) := by
      refine ⟨rfl, ?_, fun flag => ?_⟩
      · simp only [assemble, hlisted]
      · simp only [option?, assemble, hlisted]
    exact ⟨rfl, rfl, hoptions, hsame.options, hsame.defaults, fun texts => hsame.fit_eq⟩

/-- A second marker after the usage line, on a line with two dashes that declares nothing. -/
theorem prose_does_not_matter_second_marker :
    ∃ u v, read (some "q") "Usage: $0 [-v] file\r\n  -- Usage: -x\n  -v NUM  (default 2)" = .ok u ∧
      read (some "q") "Usage: $0 [-v] file\r\n  -v NUM  (default 2)" = .ok v ∧
      u.options = v.options ∧ u.fit ["-v", "1", "a"] = v.fit ["-v", "1", "a"] ∧
      u.message ≠ v.message := by
  let v : Usage :=
    { program := "q"
      message := "Usage: q [-v] file\r\n  -v NUM  (default 2)"
      arguments := [⟨"file", .required⟩]
      options := [⟨"v", .short 'v', some "NUM"⟩]
      flagTable := NameMap.empty.insert "-v" 0
      defaults := NameMap.empty.insert "v" "2" }
  let u : Usage :=
    { v with message := "Usage: q [-v] file\r\n  -- Usage: -x\n  -v NUM  (default 2)" }
  have hu : read (some "q") (String.ofList (Text.joinLines (["Usage: $0 [-v] file\r".toList] ++
      "  -- Usage: -x".toList :: ["  -v NUM  (default 2)".toList]))) = .ok u := by decide +kernel
  have hv : read (some "q") (String.ofList (Text.joinLines (["Usage: $0 [-v] file\r".toList] ++
      ["  -v NUM  (default 2)".toList]))) = .ok v := by decide +kernel
  have hagree := @prose_does_not_matter ["Usage: $0 [-v] file\r".toList]
    ["  -v NUM  (default 2)".toList] "  -- Usage: -x".toList (by decide +kernel)
    (by decide +kernel) (by decide +kernel) (some "q")
  rw [hu, hv] at hagree
  obtain ⟨-, -, hoptions, -, -, hfit⟩ := hagree
  exact ⟨u, v, hu, hv, hoptions, hfit _ (by decide), by decide +kernel⟩

end Usage

end Synopsis
