import Synopsis.Proofs.Outcomes
import Synopsis.Proofs.SharedNames
import Synopsis.Proofs.Shorthand

/-!
# A declared flag selects its own option

A flag that stands in a complete argument list as a token of its own leads an item
(`Reading.exists_item`), and the form of the item decides which option it gives. A declared flag is
never a group, so the item is the flag itself, with one exception. The letter of a short flag may be
a digit, and where `-n` takes a value, a dash and a digit is a number: it is read as `-n` with that
digit and gives the option of `-n`, and the flag that is spelled like it cannot be reached by that
token.
-/

namespace Synopsis

/-- A text that starts with a dash is the leader of an item. -/
theorem Reading.exists_item {usage : Usage} {texts rest : List String} {items : List Item}
    (h : Reading usage texts items rest) {text : String} (hmem : text ∈ texts)
    (hdash : ¬IsValue text) : ∃ item ∈ items, item.leader = text := by
  rw [h.tokens, List.mem_append, List.mem_flatMap] at hmem
  rcases hmem with ⟨item, hitem, htoken⟩ | hrest
  · rw [Item.tokens, List.mem_cons, Option.mem_toList] at htoken
    rcases htoken with rfl | hraw
    · exact ⟨item, hitem, rfl⟩
    · exact absurd ((h.fits item hitem).value text hraw) hdash
  · exact absurd (h.values text hrest) hdash

namespace Usage

variable {usage : Usage} {texts : List String} {flag : String} {o : OptionSpec} {m : Matches}

/-- The option of a flag that an item uses counts as given. -/
theorem includes_of_uses (hi : usage.Indexed) {items : List Item} {item : Item}
    (hfits : ∀ item ∈ items, item.Fits usage) (hitem : item ∈ items) {raw : Option String}
    (huse : ⟨flag, raw⟩ ∈ item.uses) (ho : usage.option? flag = some o) (rest : List String) :
    (usage.meaning items rest).includes o.name = true := by
  obtain ⟨hmem, hflag⟩ := hi.option?_eq_some_iff.1 ho
  have hgives : Gives items o := ⟨⟨flag, raw⟩, List.mem_flatMap.2 ⟨item, hitem, huse⟩, hflag⟩
  obtain ⟨s, hs, rfl⟩ := (exists_selection_iff hi hfits hmem).2 hgives
  exact includes_meaning.2 ⟨s, hs, rfl⟩

/-- A flag that is declared as a dash and a digit gives the option of `-n`, if that takes a
value. -/
theorem digit_flag_is_a_number :
    ∃ usage o m, read none "Usage: p [-n NUM] [-5]" = .ok usage ∧
      usage.option? "-5" = some o ∧ "-5" ≠ "-h" ∧ "-5" ≠ "--help" ∧ "-5" ∈ ["-5"] ∧
      usage.fit ["-5"] = .ok (.complete m) ∧ m.includes o.name = false ∧
      m.argument? "n" = some (.integer 5) := by
  let usage : Usage :=
    { program := "p"
      message := "Usage: p [-n NUM] [-5]"
      arguments := []
      options := [⟨"n", .short 'n', some "NUM"⟩, ⟨"5", .short '5', none⟩]
      flagTable := NameMap.empty.insertAll [("-n", 0), ("-5", 1)]
      defaults := .empty }
  refine ⟨usage, ⟨"5", .short '5', none⟩, usage.meaning [.number ['5']] [], ?_⟩
  decide +kernel

/-- **A declared flag selects its own option**, unless it is read as a number. If a flag stands in a
complete argument list as a token of its own, its option counts as given. Only a dash and a digit is
read as a number, where `-n` takes a value. Then it is the option of `-n` that counts, and `-n` with
the digit can stand in the place of the token. -/
theorem declared_flag_selects {given : Option String} {source : String}
    (h : read given source = .ok usage) (ho : usage.option? flag = some o) (hmem : flag ∈ texts)
    (hm : usage.fit texts = .ok (.complete m)) :
    ((∀ n, usage.option? "-n" = some n → n.placeholder.isSome = true →
        ∀ c : Char, c.isDigit = true → flag ≠ Flags.shortToken c) →
      m.includes o.name = true) ∧
    ∀ n, usage.option? "-n" = some n → n.placeholder.isSome = true →
      ∀ c : Char, c.isDigit = true → flag = Flags.shortToken c →
        m.includes n.name = true ∧
        ∀ before after, texts = before ++ flag :: after →
          usage.fit (before ++ ["-n", String.ofList [c]] ++ after) = .ok (.complete m) := by
  have hi := indexed_of_read h
  have hc := coherent_of_read h
  obtain ⟨-, items, rest, hreading, rfl⟩ := (fit_eq_complete_iff hi hc).1 hm
  have hdash : ¬IsValue flag := fun hvalue => hvalue (head?_of_option? hi ho)
  obtain ⟨item, hitem, rfl⟩ := hreading.exists_item hmem hdash
  have hfits := hreading.fits item hitem
  constructor
  · intro hplain
    have hnumber : Chunk.numericAllowed usage → Chunk.numberDigits? item.leader = none := by
      intro hn
      obtain ⟨n, hopt, hvalued⟩ := numericAllowed_iff.1 hn
      rw [Option.eq_none_iff_forall_ne_some]
      intro digits hd
      obtain ⟨c, hdigit, hflag⟩ := exists_digit_of_number hi ho hd
      exact hplain n hopt hvalued c hdigit hflag
    have hsingle := hfits.eq_single (groupLetters?_of_option? hi ho) hnumber
    have huse : ⟨item.leader, item.raw?⟩ ∈ item.uses := by
      rw [hsingle]
      exact List.mem_singleton.2 rfl
    exact includes_of_uses hi hreading.fits hitem huse ho rest
  · intro n hopt hvalued c hdigit hflag
    have hn := numericAllowed_iff.2 ⟨n, hopt, hvalued⟩
    have hd : Chunk.numberDigits? item.leader = some [c] :=
      Chunk.numberDigits?_eq_some_iff.2 ⟨hflag, List.cons_ne_nil _ _, by simpa using hdigit⟩
    constructor
    · have huse : ⟨Chunk.numericFlag, some (String.ofList [c])⟩ ∈ item.uses := by
        rw [hfits.eq_number hn hd]
        exact List.mem_singleton.2 rfl
      exact includes_of_uses hi hreading.fits hitem huse hopt rest
    · rintro before after rfl
      rw [fit_spell_number hc hn hd] at hm
      exact mapError_eq_ok_iff.1 hm

/-- The letter of one flag is an underscore, and that of the other one is a digit. -/
theorem declared_flag_selects_underscore :
    ∃ usage m, read none "Usage: p [-n NUM] [-_] [-5]" = .ok usage ∧
      usage.fit ["-_", "-5"] = .ok (.complete m) ∧ m.includes "_" = true ∧
      m.includes "n" = true ∧ usage.fit ["-_", "-n", "5"] = .ok (.complete m) := by
  let usage : Usage :=
    { program := "p"
      message := "Usage: p [-n NUM] [-_] [-5]"
      arguments := []
      options := [⟨"n", .short 'n', some "NUM"⟩, ⟨"_", .short '_', none⟩, ⟨"5", .short '5', none⟩]
      flagTable := NameMap.empty.insertAll [("-n", 0), ("-_", 1), ("-5", 2)]
      defaults := .empty }
  have hread : read none "Usage: p [-n NUM] [-_] [-5]" = .ok usage := by decide +kernel
  have hfit : usage.fit ["-_", "-5"] =
      .ok (.complete (usage.meaning [.single "-_" none, .number ['5']] [])) := by decide +kernel
  have hunderscore : usage.option? "-_" = some ⟨"_", .short '_', none⟩ := by decide +kernel
  have hfive : usage.option? "-5" = some ⟨"5", .short '5', none⟩ := by decide +kernel
  have hn : usage.option? "-n" = some ⟨"n", .short 'n', some "NUM"⟩ := by decide +kernel
  obtain ⟨hincluded, hvalued⟩ :=
    (declared_flag_selects hread hfive (by decide) hfit).2 _ hn rfl '5' (by decide) (by decide)
  refine ⟨usage, _, hread, hfit,
    (declared_flag_selects hread hunderscore (by decide) hfit).1 ?_, hincluded,
    hvalued ["-_"] [] rfl⟩
  rintro n - - c hdigit hflag
  obtain rfl : '_' = c := Flags.shortToken_inj.1 hflag
  cases hdigit

end Usage

end Synopsis
