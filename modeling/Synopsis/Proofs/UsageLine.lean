import Synopsis.Proofs.Scanning
import Synopsis.Proofs.UsageText

/-!
# The grammar of the usage line

The tokens after the program's name have to be spellings of elements, one after the other
(`UsageLine.Forms`). An ellipsis of its own belongs to the bare name before it and spells nothing
elsewhere. So a list of tokens can be taken apart in one way only: into the elements that it starts
with, as many as there are, and a remainder whose first token starts none
(`UsageLine.exists_forms`).

Reading goes through the elements of such a beginning and fails at the second one that takes a run
of values, or else goes on with the remainder (`UsageLine.elements_append`). That settles what is
accepted and which of the possible faults is reported (`UsageLine.Fault`).
-/

namespace Synopsis

namespace UsageLine

/-! ## Elements and their spelling -/

/-- The tokens spell the element. -/
inductive Spells : Element → List (List Char) → Prop
  /-- `[name]` -/
  | optional {name : List Char} (h : Text.isName name = true) :
      Spells (.named name .optional) ['[' :: name ++ [']']]
  /-- `name` -/
  | required {name : List Char} (h : Text.isName name = true) :
      Spells (.named name .required) [name]
  /-- `name...` -/
  | attached {name : List Char} (h : Text.isName name = true) :
      Spells (.named name .repeated) [name ++ ellipsis]
  /-- `name ...` -/
  | detached {name : List Char} (h : Text.isName name = true) :
      Spells (.named name .repeated) [name, ellipsis]
  /-- `[-x]`, `[--long NUM]` and the like -/
  | inline {inner : List Char} {d : Declaration} (hdash : inner.head? = some '-')
      (hread : Declaration.read? inner = some d) :
      Spells (.option d) ['[' :: inner ++ [']']]

/-- The tokens spell the elements, one after the other. -/
inductive Forms : List Element → List (List Char) → Prop
  | nil : Forms [] []
  | cons {e : Element} {es : List Element} {piece ts : List (List Char)} (h : Spells e piece)
      (hs : Forms es ts) : Forms (e :: es) (piece ++ ts)

/-- No element is spelled with this token as its first. -/
def StartsNone (token : List Char) : Prop := ∀ e more, ¬ Spells e (token :: more)

/-- What follows does not start with an ellipsis that belongs to the last token. -/
def Apart (ts post : List (List Char)) : Prop :=
  post.head? = some ellipsis → ∀ name ∈ ts.getLast?, Text.isName name = false

/-- Whether the element is a positional that takes a run of values. -/
def Element.takesRun : Element → Bool
  | .positional a => a.arity = .repeated
  | .option _ => false

@[simp] theorem Element.takesRun_named (name : List Char) (arity : Arity) :
    (Element.named name arity).takesRun = decide (arity = .repeated) := rfl

@[simp] theorem Element.takesRun_option (d : Declaration) :
    (Element.option d).takesRun = false := rfl

/-- What is wrong with the tokens of a usage line. -/
inductive Fault (ts : List (List Char)) : UsageError → Prop
  /-- Behind elements of which one at most takes a run of values stands a token that starts no
  element, and is not the ellipsis of the name before it. -/
  | stuck {es : List Element} {pre post : List (List Char)} {token : List Char}
      (hts : ts = pre ++ token :: post) (hpre : Forms es pre)
      (hrun : Arity.repeated.tally (positionals es) ≤ 1) (hnone : StartsNone token)
      (hapart : Apart pre (token :: post)) : Fault ts (.invalidToken (String.ofList token))
  /-- Behind elements of which one takes a run of values stands another one that does. -/
  | second {es : List Element} {e : Element} {pre piece post : List (List Char)}
      (hts : ts = pre ++ piece ++ post) (hpre : Forms es pre)
      (hrun : Arity.repeated.tally (positionals es) = 1) (hpiece : Spells e piece)
      (he : e.takesRun = true) : Fault ts .multipleRepeated
  /-- All tokens form elements; one of them takes a run of values, and one is optional. -/
  | ambiguous {es : List Element} (hts : Forms es ts)
      (hrun : Arity.repeated.tally (positionals es) = 1)
      (hoptional : 0 < Arity.optional.tally (positionals es)) : Fault ts .ambiguousArity

/-! ## What a token is -/

theorem inside?_eq_some_iff {token inner : List Char} :
    inside? token = some inner ↔ token = '[' :: inner ++ [']'] := by
  rw [inside?, Option.bind_eq_some_iff]
  simp only [Text.after?_eq_some_iff, Text.before?_eq_some_iff, exists_eq_right]
  rfl

theorem exists_of_isName {name : List Char} (h : Text.isName name = true) :
    ∃ c s, name = c :: s ∧ Text.isWordChar c = true ∧ ∀ d ∈ name, Text.isNameChar d = true := by
  cases name with
  | nil => cases h
  | cons c s =>
    obtain ⟨hc, hs⟩ := Bool.and_eq_true_iff.1 h
    refine ⟨c, s, rfl, hc, List.forall_mem_cons.2 ⟨?_, List.all_eq_true.1 hs⟩⟩
    rw [Text.isNameChar, hc, Bool.true_or]

theorem inside?_of_isName {name : List Char} (h : Text.isName name = true) (more : List Char) :
    inside? (name ++ more) = none := by
  obtain ⟨c, s, rfl, hc, -⟩ := exists_of_isName h
  rw [Option.eq_none_iff_forall_ne_some]
  intro inner hinner
  obtain ⟨rfl, -⟩ := List.cons.inj (inside?_eq_some_iff.1 hinner)
  exact absurd hc (by decide)

/-- A name has no dots. -/
theorem isName_append_ellipsis (s : List Char) : Text.isName (s ++ ellipsis) = false := by
  rw [← Bool.not_eq_true]
  intro h
  obtain ⟨-, -, -, -, hall⟩ := exists_of_isName h
  exact absurd (hall '.' (by simp [ellipsis])) (by decide)

theorem before?_ellipsis_of_isName {name : List Char} (h : Text.isName name = true) :
    Text.before? ellipsis name = none := by
  rw [Option.eq_none_iff_forall_ne_some]
  intro rest hrest
  rw [Text.before?_eq_some_iff.1 hrest, isName_append_ellipsis] at h
  cases h

theorem ofToken?_bracketed {name : List Char} (h : Text.isName name = true) :
    Shape.ofToken? ('[' :: name ++ [']']) = some (.bracketed name) := by
  have hdash : name.head? ≠ some '-' := by
    obtain ⟨c, s, rfl, hc, -⟩ := exists_of_isName h
    rintro ⟨⟩
    exact absurd hc (by decide)
  rw [Shape.ofToken?, inside?_eq_some_iff.2 rfl]
  simp only [Shape.ofInside?, if_neg hdash, h, if_true]

theorem ofToken?_inline {inner : List Char} {d : Declaration} (hdash : inner.head? = some '-')
    (hread : Declaration.read? inner = some d) :
    Shape.ofToken? ('[' :: inner ++ [']']) = some (.option d) := by
  rw [Shape.ofToken?, inside?_eq_some_iff.2 rfl]
  simp only [Shape.ofInside?, if_pos hdash, hread, Option.map_some]

theorem ofToken?_dotted {name : List Char} (h : Text.isName name = true) :
    Shape.ofToken? (name ++ ellipsis) = some (.dotted name) := by
  rw [Shape.ofToken?, inside?_of_isName h]
  simp only [Shape.ofWord?, Text.before?_eq_some_iff.2 rfl, Option.filter_some, h, if_true]

theorem ofToken?_bare {name : List Char} (h : Text.isName name = true) :
    Shape.ofToken? name = some (.bare name) := by
  have hinside := inside?_of_isName h []
  rw [List.append_nil] at hinside
  rw [Shape.ofToken?, hinside]
  simp only [Shape.ofWord?, before?_ellipsis_of_isName h, Option.filter_none, h, if_true]

/-- The first token of a spelling tells what is spelled. -/
theorem startsNone_of_ofToken? {token : List Char} (h : Shape.ofToken? token = none) :
    StartsNone token := by
  intro e more hspells
  cases hspells with
  | optional hname => rw [ofToken?_bracketed hname] at h; cases h
  | required hname => rw [ofToken?_bare hname] at h; cases h
  | attached hname => rw [ofToken?_dotted hname] at h; cases h
  | detached hname => rw [ofToken?_bare hname] at h; cases h
  | inline hdash hread => rw [ofToken?_inline hdash hread] at h; cases h

/-- A token starts no element, or spells one alone, or is a bare name. -/
theorem ofToken?_cases (token : List Char) :
    Shape.ofToken? token = none ∨ (∃ e, Spells e [token] ∧ Text.isName token = false) ∨
      Text.isName token = true := by
  by_cases hname : Text.isName token = true
  · exact .inr (.inr hname)
  · rw [Bool.not_eq_true] at hname
    cases hinside : inside? token with
    | some inner =>
      obtain rfl := inside?_eq_some_iff.1 hinside
      rw [Shape.ofToken?, hinside]
      simp only [Shape.ofInside?]
      split
      · next hdash =>
        cases hread : Declaration.read? inner with
        | none => exact .inl rfl
        | some d => exact .inr (.inl ⟨_, .inline hdash hread, hname⟩)
      · split
        · next hinner => exact .inr (.inl ⟨_, .optional hinner, hname⟩)
        · exact .inl rfl
    | none =>
      cases hdots : (Text.before? ellipsis token).filter Text.isName with
      | none =>
        left
        simp [Shape.ofToken?, hinside, Shape.ofWord?, hdots, hname]
      | some name =>
        obtain ⟨hbefore, hn⟩ := Option.filter_eq_some_iff.1 hdots
        obtain rfl := Text.before?_eq_some_iff.1 hbefore
        exact .inr (.inl ⟨_, .attached hn, hname⟩)

/-! ## Elements that stand apart -/

theorem startsNone_ellipsis : StartsNone ellipsis := startsNone_of_ofToken? ofToken?_ellipsis

theorem apart_nil (post : List (List Char)) : Apart [] post := by simp [Apart]

theorem Apart.append {ts us post : List (List Char)} (hts : Apart ts (us ++ post))
    (hus : Apart us post) : Apart (ts ++ us) post := by
  cases us with
  | nil => simpa using hts
  | cons u us =>
    intro hpost
    rw [List.getLast?_append_of_ne_nil ts (List.cons_ne_nil u us)]
    exact hus hpost

theorem Spells.ne_nil {e : Element} {piece : List (List Char)} (h : Spells e piece) :
    piece ≠ [] := by
  cases h <;> exact List.cons_ne_nil _ _

/-- Elements do not start with an ellipsis. -/
theorem Forms.head?_ne {es : List Element} {ts : List (List Char)} (h : Forms es ts) :
    ts.head? ≠ some ellipsis := by
  intro hhead
  cases h with
  | nil => cases hhead
  | @cons e es piece ts h hs =>
    obtain ⟨token, more, rfl⟩ := List.exists_cons_of_ne_nil h.ne_nil
    cases hhead
    exact startsNone_ellipsis e more h

/-- In a sequence of elements each stands apart from what follows it. -/
theorem Apart.of_append {es : List Element} {piece ts post : List (List Char)} (hs : Forms es ts)
    (h : Apart (piece ++ ts) post) : Apart piece (ts ++ post) ∧ Apart ts post := by
  cases ts with
  | nil => exact ⟨by simpa using h, apart_nil post⟩
  | cons t ts =>
    refine ⟨fun hhead => absurd hhead hs.head?_ne, ?_⟩
    intro hpost
    have hlast := h hpost
    rw [List.getLast?_append_of_ne_nil piece (List.cons_ne_nil t ts)] at hlast
    exact hlast

theorem Spells.apart_of_takesRun {e : Element} {piece : List (List Char)} (h : Spells e piece)
    (he : e.takesRun = true) (post : List (List Char)) : Apart piece post := by
  intro _ name hname
  cases h with
  | attached hn =>
    cases hname
    exact isName_append_ellipsis _
  | detached hn =>
    cases hname
    exact isName_append_ellipsis []
  | optional | required | inline => cases he

/-- **Any list of tokens starts with elements**, and then either ends or goes on with a token that
starts none. -/
theorem exists_forms (ts : List (List Char)) :
    ∃ es pre post, ts = pre ++ post ∧ Forms es pre ∧ Apart pre post ∧
      ∀ token ∈ post.head?, StartsNone token := by
  -- By the number of tokens, since an element takes one or two of them.
  induction hn : ts.length using Nat.strong_induction_on generalizing ts with
  | _ n ih =>
    have step : ∀ {e piece rest}, ts = piece ++ rest → Spells e piece → Apart piece rest →
        ∃ es pre post, ts = pre ++ post ∧ Forms es pre ∧ Apart pre post ∧
          ∀ token ∈ post.head?, StartsNone token := by
      intro e piece rest hts hspells hapart
      have hlen : rest.length < n := by
        have := List.length_pos_iff.2 hspells.ne_nil
        rw [← hn, hts, List.length_append]
        omega
      obtain ⟨es, pre, post, rfl, hforms, hpre, hpost⟩ := ih _ hlen rest rfl
      refine ⟨e :: es, piece ++ pre, post, ?_, .cons hspells hforms, hapart.append hpre, hpost⟩
      rw [hts, List.append_assoc]
    cases ts with
    | nil => exact ⟨[], [], [], rfl, .nil, apart_nil [], by simp⟩
    | cons token rest =>
      rcases ofToken?_cases token with hnone | ⟨e, hspells, hname⟩ | hname
      · refine ⟨[], [], token :: rest, rfl, .nil, apart_nil _, ?_⟩
        rintro _ ⟨⟩
        exact startsNone_of_ofToken? hnone
      · exact step (List.singleton_append.symm) hspells (by simpa [Apart] using fun _ => hname)
      · by_cases hdots : rest.head? = some ellipsis
        · obtain ⟨more, rfl⟩ := List.head?_eq_some_iff.1 hdots
          have hsplit : token :: ellipsis :: more = [token, ellipsis] ++ more := rfl
          refine step hsplit (.detached hname) ?_
          simpa [Apart] using fun _ => isName_append_ellipsis []
        · exact step (List.singleton_append.symm) (.required hname) fun h => absurd h hdots

/-! ## Reading elements -/

/-- Reading takes in one element, unless it is the second one that takes a run of values. -/
theorem elements_spells {e : Element} {piece post : List (List Char)} (h : Spells e piece)
    (hapart : Apart piece post) (dotted : Bool) :
    elements dotted (piece ++ post) =
      if dotted && e.takesRun then .error .multipleRepeated
      else (elements (dotted || e.takesRun) post).map (e :: ·) := by
  cases h with
  | optional hname =>
    rw [List.singleton_append, elements, ofToken?_bracketed hname]
    simp
  | required hname =>
    rw [List.singleton_append, elements, ofToken?_bare hname]
    cases post with
    | nil => simp [elements, Except.map]
    | cons next rest =>
      have hnext : next ≠ ellipsis := by
        rintro rfl
        simpa [hname] using hapart rfl
      simp [hnext]
  | attached hname =>
    rw [List.singleton_append, elements, ofToken?_dotted hname]
    cases dotted <;> simp
  | detached hname =>
    rw [List.cons_append, List.singleton_append, elements, ofToken?_bare hname]
    cases dotted <;> simp
  | inline hdash hread =>
    rw [List.singleton_append, elements, ofToken?_inline hdash hread]
    simp

theorem tally_positionals_cons (e : Element) (es : List Element) :
    Arity.repeated.tally (positionals (e :: es)) =
      Arity.repeated.tally (positionals es) + if e.takesRun then 1 else 0 := by
  cases e with
  | positional a => simp [positionals, Element.takesRun]
  | option d => simp

theorem anyRepeated_positionals_cons (e : Element) (es : List Element) :
    anyRepeated (positionals (e :: es)) = (e.takesRun || anyRepeated (positionals es)) := by
  cases e with
  | positional a => simp [positionals, Element.takesRun]
  | option d => simp

/-- **Reading goes through elements** and on with what follows them, unless two of them take a run
of values. -/
theorem elements_append {es : List Element} {pre post : List (List Char)} (h : Forms es pre)
    (hapart : Apart pre post) (dotted : Bool) :
    elements dotted (pre ++ post) =
      if Arity.repeated.tally (positionals es) + (if dotted then 1 else 0) ≤ 1 then
        (elements (dotted || anyRepeated (positionals es)) post).map (es ++ ·)
      else .error .multipleRepeated := by
  induction h generalizing dotted with
  | nil =>
    have hid : ∀ x : Except UsageError (List Element), x = x.map fun es => es := by
      intro x
      cases x <;> rfl
    cases dotted <;> simpa [positionals] using hid _
  | @cons e es piece ts h hs ih =>
    obtain ⟨hpiece, hts⟩ := Apart.of_append hs hapart
    have hmap : ∀ (fits : Prop) [Decidable fits] (x : Except UsageError (List Element)),
        (if fits then x.map (es ++ ·) else .error .multipleRepeated).map (e :: ·) =
          if fits then x.map (e :: es ++ ·) else .error .multipleRepeated := by
      intro fits _ x
      split
      · cases x <;> rfl
      · rfl
    rw [List.append_assoc, elements_spells h hpiece, ih hts, hmap, tally_positionals_cons,
      anyRepeated_positionals_cons]
    cases dotted <;> cases e.takesRun <;> simp

/-! ## What is accepted and what is at fault -/

theorem ofToken?_of_startsNone {token : List Char} (h : StartsNone token) :
    Shape.ofToken? token = none := by
  rcases ofToken?_cases token with hnone | ⟨e, hspells, -⟩ | hname
  · exact hnone
  · exact absurd hspells (h e [])
  · exact absurd (.required hname) (h _ [])

theorem elements_append_of_le {es : List Element} {pre post : List (List Char)}
    (hpre : Forms es pre) (hapart : Apart pre post)
    (hrun : Arity.repeated.tally (positionals es) ≤ 1) :
    elements false (pre ++ post) =
      (elements (anyRepeated (positionals es)) post).map (es ++ ·) := by
  rw [elements_append hpre hapart, if_pos (by simpa using hrun), Bool.false_or]

theorem elements_of_forms {ts : List (List Char)} {es : List Element} (h : Forms es ts) :
    elements false ts =
      if Arity.repeated.tally (positionals es) ≤ 1 then .ok es else .error .multipleRepeated := by
  have happend := @elements_append es ts [] h (fun hnil => nomatch hnil) false
  simpa [elements, Except.map] using happend

/-- The tokens form no other elements besides. -/
theorem Forms.eq_of_le {ts : List (List Char)} {es fs : List Element} (h : Forms es ts)
    (hrun : Arity.repeated.tally (positionals es) ≤ 1) (hfs : Forms fs ts) : fs = es := by
  have hsame := (elements_of_forms hfs).symm.trans ((elements_of_forms h).trans (if_pos hrun))
  split at hsame
  · exact Except.ok.inj hsame
  · cases hsame

theorem elements_of_stuck {pre post : List (List Char)} {token : List Char} {es : List Element}
    (hpre : Forms es pre) (hrun : Arity.repeated.tally (positionals es) ≤ 1)
    (hnone : StartsNone token) (hapart : Apart pre (token :: post)) :
    elements false (pre ++ token :: post) = .error (.invalidToken (String.ofList token)) := by
  rw [elements_append_of_le hpre hapart hrun, elements, ofToken?_of_startsNone hnone]
  rfl

theorem elements_of_second {pre piece post : List (List Char)} {es : List Element} {e : Element}
    (hpre : Forms es pre) (hrun : Arity.repeated.tally (positionals es) = 1)
    (hpiece : Spells e piece) (he : e.takesRun = true) :
    elements false (pre ++ piece ++ post) = .error .multipleRepeated := by
  have hapart : Apart pre (piece ++ post) := by
    intro hhead
    obtain ⟨token, more, rfl⟩ := List.exists_cons_of_ne_nil hpiece.ne_nil
    cases hhead
    exact absurd hpiece (startsNone_ellipsis e more)
  have hrepeated : anyRepeated (positionals es) = true := by
    rw [← Bool.not_eq_false, anyRepeated_eq_false, hrun]
    exact Nat.one_ne_zero
  rw [List.append_assoc, elements_append_of_le hpre hapart (Nat.le_of_eq hrun),
    elements_spells hpiece (hpiece.apart_of_takesRun he post), hrepeated, he]
  rfl

/-- Of more than `n` elements that take a run of values one has exactly `n` before it. -/
theorem Forms.exists_run {es : List Element} {ts : List (List Char)} (h : Forms es ts) {n : Nat}
    (hn : n < Arity.repeated.tally (positionals es)) :
    ∃ fs e pre piece post, ts = pre ++ piece ++ post ∧ Forms fs pre ∧
      Arity.repeated.tally (positionals fs) = n ∧ Spells e piece ∧ e.takesRun = true := by
  induction h generalizing n with
  | nil => simp [positionals] at hn
  | @cons e es piece ts h hs ih =>
    rw [tally_positionals_cons] at hn
    by_cases hrun : e.takesRun = true
    · rw [if_pos hrun] at hn
      cases n with
      | zero => exact ⟨[], e, [], piece, ts, rfl, .nil, rfl, h, hrun⟩
      | succ n =>
        obtain ⟨fs, f, pre, mid, post, rfl, hpre, htally, hmid, hf⟩ :=
          ih (Nat.lt_of_succ_lt_succ hn)
        refine ⟨e :: fs, f, piece ++ pre, mid, post, by simp, .cons h hpre, ?_, hmid, hf⟩
        rw [tally_positionals_cons, if_pos hrun, htally]
    · rw [if_neg hrun, Nat.add_zero] at hn
      obtain ⟨fs, f, pre, mid, post, rfl, hpre, htally, hmid, hf⟩ := ih hn
      refine ⟨e :: fs, f, piece ++ pre, mid, post, by simp, .cons h hpre, ?_, hmid, hf⟩
      rw [tally_positionals_cons, if_neg hrun, htally, Nat.add_zero]

/-- Either all tokens form elements and no two of them take a run of values, or there is a fault,
which is reported. -/
theorem elements_decides (ts : List (List Char)) :
    (∃ es, Forms es ts ∧ Arity.repeated.tally (positionals es) ≤ 1 ∧
      elements false ts = .ok es) ∨
    ∃ e, Fault ts e ∧ elements false ts = .error e := by
  obtain ⟨es, pre, post, rfl, hpre, hapart, hpost⟩ := exists_forms ts
  by_cases hrun : Arity.repeated.tally (positionals es) ≤ 1
  · cases post with
    | nil =>
      rw [List.append_nil]
      exact .inl ⟨es, hpre, hrun, (elements_of_forms hpre).trans (if_pos hrun)⟩
    | cons token post =>
      have hnone := hpost token rfl
      exact .inr ⟨_, .stuck rfl hpre hrun hnone hapart, elements_of_stuck hpre hrun hnone hapart⟩
  · obtain ⟨fs, e, before, piece, after, rfl, hbefore, htally, hpiece, he⟩ :=
      hpre.exists_run (Nat.lt_of_not_le hrun)
    rw [List.append_assoc]
    exact .inr ⟨_, .second rfl hbefore htally hpiece he,
      elements_of_second hbefore htally hpiece he⟩

theorem isAmbiguous_iff {arguments : List Argument} :
    isAmbiguous arguments = true ↔
      0 < Arity.optional.tally arguments ∧ 0 < Arity.repeated.tally arguments := by
  simp [isAmbiguous, Arity.tally, List.countP_pos_iff]

theorem coherent_iff {arguments : List Argument} :
    Coherent arguments ↔
      Arity.repeated.tally arguments ≤ 1 ∧ isAmbiguous arguments = false := by
  have hany : anyRepeated arguments = true ↔ 0 < Arity.repeated.tally arguments := by
    rw [← Bool.not_eq_false, anyRepeated_eq_false, Nat.pos_iff_ne_zero]
  rw [← Bool.not_eq_true, isAmbiguous_iff]
  constructor
  · intro h
    refine ⟨h.single, fun hboth => ?_⟩
    have := h.unambiguous (hany.2 hboth.2)
    omega
  · intro h
    refine ⟨h.1, fun hrun => ?_⟩
    have := hany.1 hrun
    omega

end UsageLine

namespace Usage

/-- The usage line of the text: the first line that has the marker. What follows its first marker
is cut into tokens, the program's name and the others. -/
def HasUsageLine (text : String) (program : List Char) (rest : List (List Char)) : Prop :=
  ∃ before lead tail after,
    Text.lines text.toList = before ++ (lead ++ (marker ++ tail)) :: after ∧
    (∀ line ∈ before, ¬ marker <:+: line) ∧ ¬ marker <:+: lead ∧
    UsageLine.tokens tail = program :: rest

theorem afterFirst?_marker_eq_some_iff {line tail : List Char} :
    Text.afterFirst? marker line = some tail ↔
      ∃ lead, line = lead ++ (marker ++ tail) ∧ ¬ marker <:+: lead :=
  Text.afterFirst?_eq_some_iff (by decide)

theorem lineTokens?_eq_some_iff {text : String} {program : List Char}
    {rest : List (List Char)} :
    lineTokens? (Text.lines text.toList) = some (program :: rest) ↔
      HasUsageLine text program rest := by
  rw [lineTokens?, Option.map_eq_some_iff]
  simp only [List.findSome?_eq_some_iff, afterFirst?_marker_eq_some_iff,
    Text.afterFirst?_eq_none_iff]
  constructor
  · intro h
    obtain ⟨tail, ⟨before, line, after, hlines, ⟨lead, rfl, hlead⟩, hbefore⟩, htokens⟩ := h
    exact ⟨before, lead, tail, after, hlines, hbefore, hlead, htokens⟩
  · intro h
    obtain ⟨before, lead, tail, after, hlines, hbefore, hlead, htokens⟩ := h
    exact ⟨tail, ⟨before, _, after, hlines, ⟨lead, rfl, hlead⟩, hbefore⟩, htokens⟩

/-- Reading a text with a usage line comes down to reading the elements of that line. -/
theorem read_of_hasUsageLine {text : String} {program : List Char} {rest : List (List Char)}
    (h : HasUsageLine text program rest) (given : Option String) :
    read given text =
      match UsageLine.elements false (elementTokens rest) with
      | .error e => .error e
      | .ok es =>
        if UsageLine.isAmbiguous (UsageLine.positionals es) then .error .ambiguousArity
        else .ok (assemble (programName given program) text.toList es) := by
  have hline := lineTokens?_eq_some_iff.2 h
  unfold read
  split
  · next hnone =>
    rw [hline] at hnone
    cases hnone
  · next hnil =>
    rw [hline] at hnil
    cases hnil
  · next hcons =>
    rw [hline] at hcons
    cases hcons
    rfl

section

open UsageLine

variable {text : String} {program : List Char} {rest : List (List Char)}

theorem read_of_forms (h : HasUsageLine text program rest) (given : Option String)
    {es : List Element} (hes : Forms es (elementTokens rest)) (hc : Coherent (positionals es)) :
    read given text = .ok (assemble (programName given program) text.toList es) := by
  obtain ⟨hrun, hboth⟩ := coherent_iff.1 hc
  simp [read_of_hasUsageLine h, elements_of_forms hes, hrun, hboth]

theorem read_of_fault (h : HasUsageLine text program rest) (given : Option String)
    {e : UsageError} (hfault : Fault (elementTokens rest) e) : read given text = .error e := by
  rw [read_of_hasUsageLine h]
  cases hfault with
  | stuck hts hpre hrun hnone hapart => rw [hts, elements_of_stuck hpre hrun hnone hapart]
  | second hts hpre hrun hpiece he => rw [hts, elements_of_second hpre hrun hpiece he]
  | ambiguous hts hrun hoptional =>
    have hboth := isAmbiguous_iff.2 ⟨hoptional, Nat.lt_of_lt_of_eq Nat.one_pos hrun.symm⟩
    simp [elements_of_forms hts, hrun, hboth]

theorem forms_or_fault (ts : List (List Char)) :
    (∃ es, Forms es ts ∧ Coherent (positionals es)) ∨ ∃ e, Fault ts e := by
  rcases elements_decides ts with ⟨es, hes, hrun, -⟩ | ⟨e, hfault, -⟩
  · by_cases hboth : isAmbiguous (positionals es) = true
    · obtain ⟨hoptional, hpos⟩ := isAmbiguous_iff.1 hboth
      exact .inr ⟨_, .ambiguous hes (Nat.le_antisymm hrun hpos) hoptional⟩
    · exact .inl ⟨es, hes, coherent_iff.2 ⟨hrun, Bool.not_eq_true _ ▸ hboth⟩⟩
  · exact .inr ⟨e, hfault⟩

/-- **The usage line is read exactly as its grammar has it.** A text with a usage line is accepted
if and only if the tokens after the program's name form elements and values can be attributed to
their positionals in one way only; these positionals are then the arguments. Otherwise the fault
that a scan from left to right meets first is reported. -/
theorem read_accepts_usage_lines (h : HasUsageLine text program rest) (given : Option String) :
    ((∃ usage, read given text = .ok usage) ↔
      ∃ es, Forms es (elementTokens rest) ∧ Coherent (positionals es)) ∧
    (∀ usage es, read given text = .ok usage → Forms es (elementTokens rest) →
      usage.arguments = positionals es) ∧
    ∀ e, read given text = .error e ↔ Fault (elementTokens rest) e := by
  rcases forms_or_fault (elementTokens rest) with ⟨es, hes, hc⟩ | ⟨e, hfault⟩
  · have hread := read_of_forms h given hes hc
    refine ⟨iff_of_true ⟨_, hread⟩ ⟨es, hes, hc⟩, ?_, ?_⟩
    · intro usage fs husage hfs
      rw [hread, Except.ok.injEq] at husage
      rw [← husage, hes.eq_of_le hc.single hfs]
      rfl
    · intro e
      rw [hread]
      refine iff_of_false nofun fun hfault => ?_
      rw [read_of_fault h given hfault] at hread
      cases hread
  · have hread := read_of_fault h given hfault
    refine ⟨iff_of_false ?_ ?_, ?_, ?_⟩
    · rintro ⟨usage, husage⟩
      rw [hread] at husage
      cases husage
    · rintro ⟨es, hes, hc⟩
      rw [read_of_forms h given hes hc] at hread
      cases hread
    · intro usage es husage
      rw [hread] at husage
      cases husage
    · intro e'
      constructor
      · intro herror
        rw [hread, Except.error.injEq] at herror
        exact herror ▸ hfault
      · exact read_of_fault h given

/-- The second run of values is reported before the token behind it that starts no element. -/
theorem read_accepts_usage_lines_second_run :
    HasUsageLine "Merges.\nUsage: merge [options] [-q] src ... out... ^^" "merge".toList
      (["[options]", "[-q]", "src", "...", "out...", "^^"].map String.toList) ∧
    read none "Merges.\nUsage: merge [options] [-q] src ... out... ^^" =
      .error .multipleRepeated := by
  have hline : HasUsageLine "Merges.\nUsage: merge [options] [-q] src ... out... ^^"
      "merge".toList (["[options]", "[-q]", "src", "...", "out...", "^^"].map String.toList) :=
    lineTokens?_eq_some_iff.1 (by decide +kernel)
  have hquiet : Spells (.option ⟨.short 'q', none, none⟩) [('[' :: "-q".toList) ++ [']']] :=
    .inline (by decide) (by decide)
  have hsrc : Spells (.named "src".toList .repeated) ["src".toList, ellipsis] :=
    .detached (by decide)
  have hout : Spells (.named "out".toList .repeated) ["out".toList ++ ellipsis] :=
    .attached (by decide)
  have hsplit : elementTokens (["[options]", "[-q]", "src", "...", "out...", "^^"].map
      String.toList) = ([('[' :: "-q".toList) ++ [']']] ++ (["src".toList, ellipsis] ++ [])) ++
        ["out".toList ++ ellipsis] ++ ["^^".toList] := by decide +kernel
  refine ⟨hline, ((read_accepts_usage_lines hline none).2.2 _).2 ?_⟩
  exact .second hsplit (.cons hquiet (.cons hsrc .nil)) (by decide) hout rfl

end

end Usage

end Synopsis
