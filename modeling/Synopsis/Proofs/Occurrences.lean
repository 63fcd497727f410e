import Synopsis.Match

/-!
# Chunks and the occurrences of options

Cutting an argument list puts every token that starts with a dash at the head of a chunk. Writing
out the shorthands turns each chunk into one or more chunks of its own (`Chunk.written`), whatever
the chunks around it, so the whole expansion succeeds exactly if every chunk that comes out is led
by a declared option (`Usage.occurrences_eq_ok_iff`).
-/

namespace Synopsis

/-! ## Cutting -/

namespace Token

@[simp] theorem map_text_numberedFrom (offset : Nat) (texts : List String) :
    (numberedFrom offset texts).map text = texts := by
  induction texts generalizing offset with
  | nil => rfl
  | cons t texts ih => simp [numberedFrom, ih]

@[simp] theorem map_text_numbered (texts : List String) : (numbered texts).map text = texts :=
  map_text_numberedFrom 0 texts

end Token

namespace Chunk

/-- The leader of the chunk starts with a dash, and none of its values does. -/
structure WellCut (c : Chunk) : Prop where
  leader : c.leader.isDashed = true
  values : ∀ v ∈ c.values, v.isDashed = false

theorem cut_cons_dashed {t : Token} (h : t.isDashed = true) (ts : List Token) :
    cut (t :: ts) = ([], ⟨t, (cut ts).1⟩ :: (cut ts).2) := by
  simp [cut, h]

theorem cut_cons_value {t : Token} (h : t.isDashed = false) (ts : List Token) :
    cut (t :: ts) = (t :: (cut ts).1, (cut ts).2) := by
  simp [cut, h]

/-- The leading values do not start with a dash, and neither do the values of a chunk. -/
theorem wellCut_cut (ts : List Token) :
    (∀ v ∈ (cut ts).1, v.isDashed = false) ∧ ∀ c ∈ (cut ts).2, c.WellCut := by
  induction ts with
  | nil => simp [cut]
  | cons t ts ih =>
    obtain ⟨hvalues, hchunks⟩ := ih
    cases ht : t.isDashed with
    | true =>
      rw [cut_cons_dashed ht]
      exact ⟨by simp, List.forall_mem_cons.2 ⟨⟨ht, hvalues⟩, hchunks⟩⟩
    | false =>
      rw [cut_cons_value ht]
      exact ⟨List.forall_mem_cons.2 ⟨ht, hvalues⟩, hchunks⟩

/-- The leaders are the tokens that start with a dash, in order. -/
theorem leaders_cut (ts : List Token) :
    (cut ts).2.map leader = ts.filter Token.isDashed := by
  induction ts with
  | nil => rfl
  | cons t ts ih =>
    cases ht : t.isDashed with
    | true => simp [cut_cons_dashed ht, ht, ih]
    | false => simp [cut_cons_value ht, ht, ih]

/-- A text that starts with a dash stands in an argument list exactly if it leads a chunk. -/
theorem mem_iff_leads {texts : List String} {flag : String}
    (hflag : flag.toList.head? = some '-') :
    flag ∈ texts ↔ ∃ c ∈ (cut (Token.numbered texts)).2, c.leader.text = flag := by
  have hleader : ∀ t : Token, (∃ c ∈ (cut (Token.numbered texts)).2, c.leader = t) ↔
      t ∈ Token.numbered texts ∧ t.isDashed = true := by
    intro t
    rw [← List.mem_map, leaders_cut, List.mem_filter]
  constructor
  · intro h
    rw [← Token.map_text_numbered texts] at h
    obtain ⟨t, ht, rfl⟩ := List.mem_map.1 h
    obtain ⟨c, hc, rfl⟩ := (hleader t).2 ⟨ht, by simpa [Token.isDashed] using hflag⟩
    exact ⟨c, hc, rfl⟩
  · intro h
    obtain ⟨c, hc, rfl⟩ := h
    rw [← Token.map_text_numbered texts]
    exact List.mem_map_of_mem ((hleader c.leader).1 ⟨c, hc, rfl⟩).1

/-- Help is asked for exactly by a token of its own. -/
theorem any_asksHelp_cut (texts : List String) :
    (cut (Token.numbered texts)).2.any asksHelp = true ↔ "-h" ∈ texts ∨ "--help" ∈ texts := by
  have hshort : "-h".toList.head? = some '-' := rfl
  have hlong : "--help".toList.head? = some '-' := rfl
  rw [mem_iff_leads hshort, mem_iff_leads hlong, List.any_eq_true]
  simp only [asksHelp, Bool.or_eq_true, decide_eq_true_eq, and_or_left, exists_or]

/-! ## Writing out shorthands -/

/-- The chunk is led by a declared option. -/
def Known (usage : Usage) (c : Chunk) : Prop := (usage.option? c.leader.text).isSome

/-- The chunks that a chunk stands for, with a group written out. -/
def ungrouped (c : Chunk) : List Chunk :=
  match groupLetters? c.leader.text with
  | some letters => spread c.leader.offset c.values letters
  | none => [c]

/-- The chunks that a chunk stands for, with either shorthand written out. -/
def written (usage : Usage) (c : Chunk) : List Chunk :=
  match groupLetters? c.leader.text with
  | some letters => spread c.leader.offset c.values letters
  | none => [if numericAllowed usage then expandNumber c else c]

/-- Both shorthands are a dash and a body that meets a condition. -/
theorem afterDash_eq_some_iff {P : List Char → Prop} [DecidablePred P] {flag : String}
    {body : List Char} :
    (match flag.toList with
      | '-' :: s => if P s then some s else none
      | _ => none) = some body ↔ flag = String.ofList ('-' :: body) ∧ P body := by
  rw [← String.toList_inj, String.toList_ofList]
  split
  · next s hflag =>
    rw [hflag]
    split
    · next h =>
      simp only [Option.some.injEq, List.cons.injEq, true_and]
      exact ⟨fun he => ⟨he, he ▸ h⟩, fun he => he.1⟩
    · next h =>
      simp only [reduceCtorEq, List.cons.injEq, true_and, false_iff]
      intro h
      obtain ⟨rfl, h'⟩ := h
      exact h h'
  · next hflag =>
    simp only [reduceCtorEq, false_iff]
    exact fun h => hflag _ h.1

theorem groupLetters?_eq_some_iff {flag : String} {letters : List Char} :
    groupLetters? flag = some letters ↔
      flag = String.ofList ('-' :: letters) ∧ 2 ≤ letters.length ∧ letters.all Char.isAlpha :=
  afterDash_eq_some_iff

theorem numberDigits?_eq_some_iff {flag : String} {digits : List Char} :
    numberDigits? flag = some digits ↔
      flag = String.ofList ('-' :: digits) ∧ digits ≠ [] ∧ digits.all Char.isDigit :=
  afterDash_eq_some_iff

theorem isDigit_of_isAlpha {c : Char} (h : c.isAlpha = true) : c.isDigit = false := by
  rw [← Bool.not_eq_true]
  intro hdigit
  have hletter : (decide ('A'.val ≤ c.val ∧ c.val ≤ 'Z'.val) ||
      (decide ('a'.val ≤ c.val) && decide (c.val ≤ 'z'.val))) = true := h
  simp only [Char.isDigit, Bool.or_eq_true, Bool.and_eq_true, decide_eq_true_eq,
    UInt32.le_iff_toNat_le, Char.reduceVal, UInt32.reduceToNat] at hletter hdigit
  omega

/-- Nothing is a group and a number. -/
theorem numberDigits?_of_isAlpha {letters : List Char} (h : letters.all Char.isAlpha) :
    numberDigits? (String.ofList ('-' :: letters)) = none := by
  rw [Option.eq_none_iff_forall_ne_some]
  intro digits hd
  obtain ⟨heq, hne, hdigits⟩ := numberDigits?_eq_some_iff.1 hd
  simp only [String.ofList_inj, List.cons.injEq, true_and] at heq
  subst heq
  obtain ⟨c, hc⟩ := List.exists_mem_of_ne_nil _ hne
  have hdigit := List.all_eq_true.1 hdigits c hc
  rw [isDigit_of_isAlpha (List.all_eq_true.1 h c hc)] at hdigit
  cases hdigit

theorem leaders_spread (offset : Nat) (values : List Token) (letters : List Char) :
    (spread offset values letters).map leader =
      letters.map fun letter => ⟨offset, Flags.shortToken letter⟩ := by
  fun_induction spread offset values letters with
  | case1 => rfl
  | case2 c => rfl
  | case3 c rest hrest ih => simp [ih]

theorem written_ne_nil (usage : Usage) (c : Chunk) : c.written usage ≠ [] := by
  cases hl : groupLetters? c.leader.text with
  | none =>
    simp only [written, hl]
    exact List.cons_ne_nil _ _
  | some letters =>
    simp only [written, hl]
    intro hnil
    have hleaders := leaders_spread c.leader.offset c.values letters
    rw [hnil, List.map_nil, eq_comm, List.map_eq_nil_iff] at hleaders
    have hlen := (groupLetters?_eq_some_iff.1 hl).2.1
    rw [hleaders, List.length_nil] at hlen
    omega

/-- Groups are written out before numbers, but no letter of a group is a number. -/
theorem expandNumber_of_mem_spread {offset : Nat} {values : List Token} {letters : List Char}
    (hletters : letters.all Char.isAlpha) {c : Chunk} (hc : c ∈ spread offset values letters) :
    expandNumber c = c := by
  have hleader : c.leader ∈ (spread offset values letters).map leader := List.mem_map_of_mem hc
  rw [leaders_spread] at hleader
  obtain ⟨letter, hl, heq⟩ := List.mem_map.1 hleader
  have hnumber : numberDigits? (Flags.shortToken letter) = none :=
    numberDigits?_of_isAlpha (by simpa using List.all_eq_true.1 hletters letter hl)
  rw [expandNumber, ← heq, hnumber]

theorem expandNumbers_ungrouped (usage : Usage) (c : Chunk) :
    expandNumbers usage (ungrouped c) = written usage c := by
  cases hl : groupLetters? c.leader.text with
  | none =>
    simp only [ungrouped, written, hl, expandNumbers]
    split <;> rfl
  | some letters =>
    have hletters := (groupLetters?_eq_some_iff.1 hl).2.2
    simp only [ungrouped, written, hl, expandNumbers]
    rw [List.map_congr_left fun c hc => expandNumber_of_mem_spread hletters hc, List.map_id']
    split <;> rfl

theorem expandNumbers_flatMap_ungrouped (usage : Usage) (chunks : List Chunk) :
    expandNumbers usage (chunks.flatMap ungrouped) = chunks.flatMap (written usage) := by
  induction chunks with
  | nil => simp [expandNumbers]
  | cons c chunks ih =>
    rw [List.flatMap_cons, List.flatMap_cons, ← ih, ← expandNumbers_ungrouped]
    simp only [expandNumbers]
    split <;> simp

/-- If the chunk is led by a group, all letters of it are declared. -/
def GroupKnown (usage : Usage) (c : Chunk) : Prop :=
  ∀ letters, groupLetters? c.leader.text = some letters →
    ∀ letter ∈ letters, (usage.option? (Flags.shortToken letter)).isSome

theorem expandGroup_eq_ok_iff {usage : Usage} {c : Chunk} {cs : List Chunk} :
    expandGroup usage c = .ok cs ↔ cs = ungrouped c ∧ c.GroupKnown usage := by
  rw [expandGroup, ungrouped, GroupKnown]
  cases hl : groupLetters? c.leader.text with
  | none =>
    simp only [Except.ok.injEq, reduceCtorEq, false_implies, implies_true, and_true]
    exact eq_comm
  | some letters =>
    simp only [Option.some.injEq, forall_eq']
    split
    · next letter hf =>
      have hnone := List.find?_some hf
      simp only [reduceCtorEq, false_iff]
      intro h
      obtain ⟨-, hall⟩ := h
      have hsome := hall letter (List.mem_of_find?_eq_some hf)
      simp [Option.isNone_iff_eq_none.1 hnone] at hsome
    · next hf =>
      have hall : ∀ letter ∈ letters, (usage.option? (Flags.shortToken letter)).isSome := by
        simpa [Option.isSome_iff_ne_none] using hf
      simp only [Except.ok.injEq]
      exact ⟨fun h => ⟨h.symm, hall⟩, fun h => h.1.symm⟩

/-- Groups are written out without a failure exactly if all their letters are declared. -/
theorem expandGroups_eq_ok_iff {usage : Usage} {chunks cs : List Chunk} :
    expandGroups usage chunks = .ok cs ↔
      cs = chunks.flatMap ungrouped ∧ ∀ c ∈ chunks, c.GroupKnown usage := by
  induction chunks generalizing cs with
  | nil => simp [expandGroups, eq_comm]
  | cons c chunks ih =>
    rw [expandGroups, List.flatMap_cons, List.forall_mem_cons]
    cases hc : expandGroup usage c with
    | error failure =>
      simp only [reduceCtorEq, false_iff]
      intro h
      obtain ⟨-, hknown, -⟩ := h
      rw [expandGroup_eq_ok_iff.2 ⟨rfl, hknown⟩] at hc
      cases hc
    | ok first =>
      obtain ⟨rfl, hknown⟩ := expandGroup_eq_ok_iff.1 hc
      cases hr : expandGroups usage chunks with
      | error failure =>
        have hno : ¬∀ c ∈ chunks, c.GroupKnown usage := by
          intro hall
          rw [ih.2 ⟨rfl, hall⟩] at hr
          cases hr
        simp [Except.map, hno]
      | ok rest =>
        obtain ⟨rfl, hall⟩ := ih.1 hr
        simp only [Except.map, Except.ok.injEq]
        exact ⟨fun h => ⟨h.symm, hknown, hall⟩, fun h => h.1.symm⟩

/-- If all chunks that a chunk stands for are led by declared options, so is the group. -/
theorem groupKnown_of_written {usage : Usage} {c : Chunk}
    (h : ∀ w ∈ c.written usage, w.Known usage) : c.GroupKnown usage := by
  intro letters hl letter hmem
  have hleader : (⟨c.leader.offset, Flags.shortToken letter⟩ : Token) ∈
      (spread c.leader.offset c.values letters).map leader := by
    rw [leaders_spread]
    exact List.mem_map_of_mem hmem
  obtain ⟨w, hw, hwl⟩ := List.mem_map.1 hleader
  have hknown := h w (by simpa only [written, hl] using hw)
  simpa only [Known, hwl] using hknown

end Chunk

namespace Usage

/-- **The occurrences of options are the chunks that the chunks stand for**, and there are any
exactly if all of these are led by declared options. -/
theorem occurrences_eq_ok_iff {usage : Usage} {chunks cs : List Chunk} :
    usage.occurrences chunks = .ok cs ↔
      cs = chunks.flatMap (Chunk.written usage) ∧ ∀ c ∈ cs, c.Known usage := by
  have hunknown : ∀ cs, Chunk.unknown? usage cs = none ↔ ∀ c ∈ cs, c.Known usage := by
    intro cs
    simp [Chunk.unknown?, Chunk.Known, Option.isSome_iff_ne_none]
  rw [occurrences]
  cases hg : Chunk.expandGroups usage chunks with
  | error failure =>
    simp only [reduceCtorEq, false_iff]
    intro h
    obtain ⟨rfl, hknown⟩ := h
    -- A letter that is unknown in a group leads a chunk that is unknown.
    have hgroups : ∀ c ∈ chunks, c.GroupKnown usage := by
      intro c hc
      exact Chunk.groupKnown_of_written fun w hw => hknown w (List.mem_flatMap.2 ⟨c, hc, hw⟩)
    rw [Chunk.expandGroups_eq_ok_iff.2 ⟨rfl, hgroups⟩] at hg
    cases hg
  | ok ungrouped =>
    obtain ⟨rfl, -⟩ := Chunk.expandGroups_eq_ok_iff.1 hg
    simp only [Chunk.expandNumbers_flatMap_ungrouped]
    split
    · next c hc =>
      simp only [reduceCtorEq, false_iff]
      intro h
      obtain ⟨rfl, hknown⟩ := h
      rw [(hunknown _).2 hknown] at hc
      cases hc
    · next hnone =>
      simp only [Except.ok.injEq]
      constructor
      · rintro rfl
        exact ⟨rfl, (hunknown _).1 hnone⟩
      · exact fun h => h.1.symm

end Usage

end Synopsis
